import Loopback.Proofs.SinkDuty

/-!
# A run of a sink

`OnDuty` says of a whole run, at any time: one handler at most is at work on what the receiver of
the sink is at, all other handlers are about to return, and the other callers leave side `b` alone.
A move of the others keeps that (`OnDuty.moved`). A handler that acts comes to a post of its own and
leaves the others at theirs (`OnDuty.acted`): it does what is no business of the sink, registers the
sink again, or reads on.
-/

namespace Loopback.Replay

open Machine (readCount started)

variable {settled mine : List Nat} {k : Nat} {h : History} {duty : Duty}
  {m : Machine Receiver CloseHandler} {s : Script Outcome}
  {call : Option (Call Receiver CloseHandler)}

namespace Duty

/-- The tallies that were told until now. -/
def reports (t : Tally) : Duty → List (Nat × Tally)
  | .told => [(0, t)]
  | .asks | .waits | .drains _ | .ends => []

/-- What is known of the sink. -/
def book (t : Tally) : Duty → SinkState
  | .told => .reported t
  | .asks | .waits | .drains _ | .ends => .pending

/-- A handler is at it. -/
def isHeld : Duty → Bool
  | .asks | .drains _ | .ends => true
  | .waits | .told => false

/-- The call and the script of the handler that is at it. -/
def Fits (settled : List Nat) (h : History) (m : Machine Receiver CloseHandler) :
    Duty → Option (Call Receiver CloseHandler) → Script Outcome → Prop
  | .asks => Asking settled (tallyOf settled h)
  | .drains k => Draining settled (tallyOf settled h) k (Account.ofHistory k h) m
  | .ends => Ending (tallyOf settled h)
  | .waits | .told => fun _ _ => False

/-- The handler `x` holds the duty and is at it, or is about to return. -/
def Post (holder : Option Nat) (settled : List Nat) (h : History)
    (m : Machine Receiver CloseHandler) (duty : Duty) (x : Nat)
    (call : Option (Call Receiver CloseHandler)) (s : Script Outcome) : Prop :=
  (holder = some x → duty.Fits settled h m call s) ∧
    (holder ≠ some x → Leaving settled call s)

variable {holder : Option Nat} {x : Nat} {c : Call Receiver CloseHandler}

theorem Post.begins (post : duty.Post holder settled h m x none s) (next : s.call? = some c) :
    duty.Post holder settled h m x (some c) s := by
  refine ⟨?_, fun apart => (post.2 apart).begins next⟩
  intro held
  have fits := post.1 held
  cases duty with
  | asks => exact Asking.begins fits next
  | drains k => exact Draining.begins fits next
  | ends => exact Ending.begins fits next
  | waits | told => exact fits.elim

end Duty

/-- The account of a message that nobody reads at this move. -/
theorem Reads.keep {a a' : Account} (now : Reads k a call) (hand : a'.inHand = a.inHand) :
    Reads k a' call := by
  cases now with
  | idle => exact .idle
  | starts => exact .starts
  | inPipe => exact .inPipe
  | settles held => exact .settles (hand.trans held)

/-- What a handler is at does not change with a move that is none of its business. -/
theorem Duty.Fits.keep (counted : Counted settled duty h m) {mv : Move Receiver CloseHandler}
    (fits : duty.Fits settled h m call s)
    (gentle : ∀ who pick c, mv = .step who pick → (who, c) ∈ m.calls → c.Gentle mine settled)
    (apart : ∀ k, duty = .drains k → ∀ who pick c, mv = .step who pick →
      (who, .stream k c) ∈ m.calls → c.madeOn? ≠ some .reader) :
    duty.Fits settled (h ++ m.events mv) (m.move mv) call s := by
  cases duty with
  | drains k =>
    -- Beside the tally this post depends on the account of its message, which nobody else moves.
    have orderly := counted.recorded.orderly
    have accounted := counted.recorded.accounted k
    have handled := (Machine.moves orderly mv).handles orderly k
    have unread : ∀ who pick r, mv = .step who pick → (who, .stream k (.settle r)) ∉ m.calls :=
      fun who pick r now here => apart k rfl who pick _ now here rfl
    have consumed := handled.consumed_eq unread (Account.ofHistory k h)
    have hand := handled.inHand_eq orderly accounted (apart k rfl)
    have tally := counted.tally_eq gentle
    rw [Fits, Account.ofHistory_append, tally]
    cases fits with
    | reads count now onward => exact .reads (by rw [consumed, count]) (now.keep hand) onward
    | through count out onward =>
      exact .through (by rw [consumed, count]) (out.of_handles accounted handled unread) onward
  | asks | ends =>
    rw [Fits, counted.tally_eq gentle]
    exact fits
  | waits | told => exact fits.elim

/-- Where a run of a sink stands. -/
structure OnDuty (others : Nat) (mine settled : List Nat) (duty : Duty) (holder : Option Nat)
    (h : History) (reports : List (Nat × Tally)) (r : Replay) : Prop where
  counted : Counted settled duty h r.machine
  ids : (r.callers.map Caller.id).Nodup
  numbers : ∀ c ∈ r.callers, others ≤ c.id ∧ c.id < r.nextCaller
  next : others ≤ r.nextCaller
  /-- Who follows no script leaves side `b` alone. -/
  calls : ∀ x ∈ r.machine.calls,
    (x.1 < others ∧ x.2.leaves mine = true) ∨ ∃ c ∈ r.callers, c.id = x.1
  posts : ∀ c ∈ r.callers,
    duty.Post holder settled h r.machine c.id (r.machine.call? c.id) c.script
  held : duty.isHeld = true → ∃ c ∈ r.callers, holder = some c.id
  told : reports = duty.reports (tallyOf settled h)
  booked : r.sinks[0]? = some (duty.book (tallyOf settled h))

namespace OnDuty

variable {others : Nat} {holder : Option Nat} {reports : List (Nat × Tally)} {r : Replay}
  {mv : Move Receiver CloseHandler}

theorem orderly (on : OnDuty others mine settled duty holder h reports r) : r.machine.Orderly :=
  on.counted.recorded.orderly

/-- No two handlers go by one number. -/
theorem eq_of_id (on : OnDuty others mine settled duty holder h reports r) {c c' : Caller}
    (hc : c ∈ r.callers) (hc' : c' ∈ r.callers) (same : c'.id = c.id) : c' = c :=
  List.inj_on_of_nodup_map on.ids hc' hc same

/-! ## The other callers -/

/-- A caller that follows no script and moves. -/
theorem leaves_of_apart (on : OnDuty others mine settled duty holder h reports r)
    (apart : ∀ c ∈ r.callers, mv.who? ≠ some c.id) {who pick : Nat}
    {c : Call Receiver CloseHandler} (now : mv = .step who pick)
    (here : (who, c) ∈ r.machine.calls) : who < others ∧ c.leaves mine = true := by
  rcases on.calls _ here with left | ⟨c', hc', same⟩
  · exact left
  · exact absurd (by rw [now, Move.who?, same]) (apart c' hc')

/-- A move of a caller that follows no script, or of the executor. -/
theorem moved (on : OnDuty others mine settled duty holder h reports r)
    (within : (Ledger.ofHistory .b (h ++ r.machine.events mv)).delivered ⊆ mine)
    (apart : ∀ c ∈ r.callers, mv.who? ≠ some c.id)
    (begins : ∀ who c, mv = .begin who c → who < others ∧ c.leaves mine = true)
    (starts : ∀ i t, mv = .takeTask i → r.machine.link.tasks[i]? = some t →
      t.dispatch? .b = none) :
    OnDuty others mine settled duty holder (h ++ r.machine.events mv) reports
      { r with machine := r.machine.move mv } := by
  have orderly := on.orderly
  have one := Machine.moves orderly mv
  have old : (Ledger.ofHistory .b h).delivered ⊆ mine := by
    rw [Ledger.ofHistory_append] at within
    exact fun k hk => within (List.mem_append_left _ hk)
  have allowed : ∀ who pick c, mv = .step who pick → (who, c) ∈ r.machine.calls →
      duty.Allows mine settled c := fun who pick c now here =>
    Duty.allows_of_leaves (on.leaves_of_apart apart now here).2
      (List.Subset.trans on.counted.settled_subset old)
  have gentle : ∀ who pick c, mv = .step who pick → (who, c) ∈ r.machine.calls →
      c.Gentle mine settled := fun who pick c now here => (allowed who pick c now here).gentle
  have counted := on.counted.move within allowed starts
  have tally := on.counted.tally_eq gentle
  refine ⟨counted, on.ids, on.numbers, on.next, ?_, ?_, on.held, ?_, ?_⟩
  · rintro ⟨x, c⟩ here
    rcases one.mem_calls orderly here with old | now | ⟨pick, c₀, now, before, staged, follows⟩
    · exact on.calls _ old
    · exact .inl (begins x c now)
    · obtain ⟨low, left⟩ := on.leaves_of_apart apart now before
      exact .inl ⟨low, follows.leaves staged left⟩
  · intro c hc
    have post := on.posts c hc
    rw [one.call?_other orderly (apart c hc)]
    refine ⟨fun held => (post.1 held).keep on.counted gentle ?_, post.2⟩
    rintro k rfl who pick c' now here reader
    have left := (on.leaves_of_apart apart now here).2
    have mem := old on.counted.drained_mem.1
    simp [Call.leaves, reader, mem] at left
  · rw [on.told, tally]
  · rw [tally]
    exact on.booked

/-! ## A handler that acts -/

/-- One handler at most holds the duty. -/
theorem ne_of_held {c : Caller} (held : holder = some c.id) {x : Nat} (apart : x ≠ c.id) :
    holder ≠ some x := by
  rw [held]
  exact fun same => apart (Option.some.inj same).symm

/-- The calls of the others are as they were. -/
theorem calls_other (on : OnDuty others mine settled duty holder h reports r) {c : Caller}
    (mover : mv.who? = some c.id) {x : Nat} (apart : x ≠ c.id) (c' : Call Receiver CloseHandler) :
    (x, c') ∈ (r.machine.move mv).calls ↔ (x, c') ∈ r.machine.calls := by
  refine (Machine.moves on.orderly mv).mem_calls_other on.orderly ?_ c'
  rw [mover]
  exact fun same => apart (Option.some.inj same).symm

theorem mem_setScript {id : Nat} {s : Script Outcome} {c' : Caller}
    (here : c' ∈ (r.setScript id s).callers) :
    ∃ c ∈ r.callers, c'.id = c.id ∧ (c.id = id → c'.script = s) ∧
      (c.id ≠ id → c'.script = c.script) := by
  obtain ⟨c, hc, rfl⟩ := List.mem_map.1 here
  refine ⟨c, hc, ?_⟩
  by_cases same : c.id = id
  · simp [same]
  · simp [same]

theorem ids_setScript (id : Nat) (s : Script Outcome) :
    (r.setScript id s).callers.map Caller.id = r.callers.map Caller.id := by
  rw [setScript, List.map_map]
  apply List.map_congr_left
  intro c hc
  simp only [Function.comp]
  split <;> rfl

/-- A handler that acts comes to a post of its own, and leaves the others at theirs. -/
theorem acted (on : OnDuty others mine settled duty holder h reports r) {c : Caller}
    (hc : c ∈ r.callers) {r' : Replay} {s' : Script Outcome} {settled' : List Nat} {duty' : Duty}
    {holder' : Option Nat} {h' : History} {reports' : List (Nat × Tally)}
    (callers : r'.callers = (r.setScript c.id s').callers) (next : r'.nextCaller = r.nextCaller)
    (counted : Counted settled' duty' h' r'.machine)
    (calls : ∀ x ≠ c.id, ∀ c', (x, c') ∈ r'.machine.calls ↔ (x, c') ∈ r.machine.calls)
    (post : duty'.Post holder' settled' h' r'.machine c.id (r'.machine.call? c.id) s')
    (posts : ∀ x ≠ c.id, ∀ call s, duty.Post holder settled h r.machine x call s →
      duty'.Post holder' settled' h' r'.machine x call s)
    (held : duty'.isHeld = true → holder' = some c.id ∨ holder' = holder ∧ duty.isHeld = true)
    (told : reports' = duty'.reports (tallyOf settled' h'))
    (booked : r'.sinks[0]? = some (duty'.book (tallyOf settled' h'))) :
    OnDuty others mine settled' duty' holder' h' reports' r' := by
  have ids : r'.callers.map Caller.id = r.callers.map Caller.id := by
    rw [callers, ids_setScript]
  have mem {id : Nat} : (∃ c ∈ r'.callers, c.id = id) ↔ ∃ c ∈ r.callers, c.id = id := by
    rw [← List.mem_map, ← List.mem_map, ids]
  refine ⟨counted, by rw [ids]; exact on.ids, ?_, by rw [next]; exact on.next, ?_, ?_, ?_, told,
    booked⟩
  · intro c' hc'
    obtain ⟨c₀, hc₀, same⟩ := mem.1 ⟨c', hc', rfl⟩
    rw [next, ← same]
    exact on.numbers c₀ hc₀
  · rintro ⟨x, c'⟩ here
    by_cases own : x = c.id
    · exact .inr (mem.2 ⟨c, hc, own.symm⟩)
    · rcases on.calls _ ((calls x own c').1 here) with other | handler
      · exact .inl other
      · exact .inr (mem.2 handler)
  · intro c' hc'
    rw [callers] at hc'
    obtain ⟨c₀, hc₀, same, mine', others'⟩ := mem_setScript hc'
    rw [same]
    by_cases own : c₀.id = c.id
    · rw [mine' own, own]
      exact post
    -- The post of another handler is about its own call, which is as it was.
    · have stays : r'.machine.call? c₀.id = r.machine.call? c₀.id := by
        apply Option.ext
        intro c''
        rw [Machine.call?_eq_some_iff counted.recorded.orderly,
          Machine.call?_eq_some_iff on.orderly]
        exact calls _ own c''
      rw [others' own, stays]
      exact posts _ own _ _ (on.posts c₀ hc₀)
  · intro holds
    rcases held holds with own | ⟨same, before⟩
    · obtain ⟨c', hc', eq⟩ := mem.2 ⟨c, hc, rfl⟩
      exact ⟨c', hc', by rw [own, eq]⟩
    · obtain ⟨c₀, hc₀, eq⟩ := on.held before
      obtain ⟨c', hc', eq'⟩ := mem.2 ⟨c₀, hc₀, rfl⟩
      exact ⟨c', hc', by rw [same, eq, eq']⟩

/-- The script of a handler that stays where it is. -/
theorem setScript_self (on : OnDuty others mine settled duty holder h reports r) {c : Caller}
    (hc : c ∈ r.callers) : (r.setScript c.id c.script).callers = r.callers := by
  rw [setScript]
  refine (List.map_congr_left fun c' hc' => ?_).trans (List.map_id _)
  by_cases same : c'.id = c.id
  · obtain rfl := on.eq_of_id hc hc' same
    simp
  · simp [same]

/-- The move is none of the business of a receiver that is at `duty`: what its call does is allowed,
and is not done on the read end of a message that is drained. -/
def Quiet (mine settled : List Nat) (duty : Duty) (m : Machine Receiver CloseHandler)
    (mv : Move Receiver CloseHandler) : Prop :=
  ∀ who pick c, mv = .step who pick → (who, c) ∈ m.calls →
    duty.Allows mine settled c ∧
      ∀ k, duty = .drains k → ∀ c', c = .stream k c' → c'.madeOn? ≠ some .reader

theorem keeps (on : OnDuty others mine settled duty holder h reports r)
    (quiet : Quiet mine settled duty r.machine mv) {x : Nat}
    (post : duty.Post holder settled h r.machine x call s) :
    duty.Post holder settled (h ++ r.machine.events mv) (r.machine.move mv) x call s := by
  have gentle : ∀ who pick c, mv = .step who pick → (who, c) ∈ r.machine.calls →
      c.Gentle mine settled := fun who pick c now here => (quiet who pick c now here).1.gentle
  refine ⟨fun held => (post.1 held).keep on.counted gentle ?_, post.2⟩
  exact fun k drains who pick c now here => (quiet who pick _ now here).2 k drains c rfl

/-- A handler takes a step that is none of the business of the others. -/
theorem acted_quietly (on : OnDuty others mine settled duty holder h reports r) {c : Caller}
    (hc : c ∈ r.callers) (mover : mv.who? = some c.id)
    (within : (Ledger.ofHistory .b (h ++ r.machine.events mv)).delivered ⊆ mine)
    (quiet : Quiet mine settled duty r.machine mv) {r' : Replay} {s' : Script Outcome}
    (callers : r'.callers = (r.setScript c.id s').callers) (next : r'.nextCaller = r.nextCaller)
    (sinks : r'.sinks = r.sinks) (machine : r'.machine = r.machine.move mv)
    (post : duty.Post holder settled (h ++ r.machine.events mv) r'.machine c.id
      (r'.machine.call? c.id) s') :
    OnDuty others mine settled duty holder (h ++ r.machine.events mv) reports r' := by
  have gentle : ∀ who pick c, mv = .step who pick → (who, c) ∈ r.machine.calls →
      c.Gentle mine settled := fun who pick c now here => (quiet who pick c now here).1.gentle
  have tally := on.counted.tally_eq gentle
  refine on.acted hc callers next ?_ ?_ post ?_ (fun held => .inr ⟨rfl, held⟩) ?_ ?_
  · rw [machine]
    refine on.counted.move within (fun who pick c now here => (quiet who pick c now here).1) ?_
    rintro i t rfl
    cases mover
  · intro x apart c'
    rw [machine]
    exact on.calls_other mover apart c'
  · intro x _ call s old
    rw [machine]
    exact on.keeps quiet old
  · rw [on.told, tally]
  · rw [sinks, tally]
    exact on.booked

/-- A handler begins the call that its script comes to. -/
theorem began (on : OnDuty others mine settled duty holder h reports r) {c : Caller}
    (hc : c ∈ r.callers) (within : (Ledger.ofHistory .b h).delivered ⊆ mine)
    {first : Call Receiver CloseHandler} (next : c.script.call? = some first) :
    OnDuty others mine settled duty holder h reports
      { r with machine := r.machine.begin c.id first } := by
  have events : h ++ r.machine.events (.begin c.id first) = h := List.append_nil h
  have quiet : Quiet mine settled duty r.machine (.begin c.id first) := by
    rintro who pick c' ⟨⟩
  have kept := on.keeps quiet (on.posts c hc)
  rw [events] at kept
  have stays : (Ledger.ofHistory .b (h ++ r.machine.events (.begin c.id first))).delivered ⊆
      mine := by
    rw [events]
    exact within
  have callers : ({ r with machine := r.machine.begin c.id first } : Replay).callers =
      (r.setScript c.id c.script).callers := (on.setScript_self hc).symm
  have acts := on.acted_quietly hc rfl stays quiet callers rfl rfl rfl
  rw [events] at acts
  apply acts
  by_cases can : r.machine.canBegin c.id first = true
  · have idle : r.machine.call? c.id = none := by
      simp only [Machine.canBegin, Machine.isIdle, Bool.and_eq_true,
        Option.isNone_iff_eq_none] at can
      exact can.1.1
    have begun : (r.machine.begin c.id first).call? c.id = some first := by
      rw [Machine.begin, if_pos can, Machine.call?, List.lookup_append]
      rw [Machine.call?] at idle
      simp [idle]
    rw [idle] at kept
    rw [begun]
    exact kept.begins next
  · have same : r.machine.begin c.id first = r.machine := by rw [Machine.begin, if_neg can]
    have stays : (r.machine.move (.begin c.id first)) = r.machine := same
    rw [same]
    rw [stays] at kept
    exact kept

/-! ## One step of a handler -/

/-- The run once a handler has taken a step of its call, which may have ended with an answer. -/
def afterStep (c : Caller) (machine : Machine Receiver CloseHandler) (answer : Option Result)
    (r : Replay) : Replay :=
  ({ r with machine } : Replay).setScript c.id (answer.elim c.script c.script.resume)

/-- A handler that is about to return is no trouble to the others. -/
theorem quiet_of_leaving (on : OnDuty others mine settled duty holder h reports r)
    {who pick : Nat} (leaving : Leaving settled (r.machine.call? who) s) :
    Quiet mine settled duty r.machine (.step who pick) := by
  rintro who' pick' c now here
  obtain ⟨rfl, rfl⟩ := Move.step.inj now
  rw [Machine.call?_of_mem on.orderly here] at leaving
  obtain ⟨registers, closes, streams⟩ := leaving.apart
  refine ⟨⟨leaving.gentle, registers, ?_⟩, ?_⟩
  · rintro k - unsettled - r same
    exact unsettled (streams k _ same).2
  · rintro k rfl c' same
    exact absurd (streams k c' same).2 on.counted.drained_mem.2

theorem quiet_of_report (on : OnDuty others mine settled duty holder h reports r)
    {who pick : Nat} {line : Line} (call : r.machine.call? who = some (.report line)) :
    Quiet mine settled duty r.machine (.step who pick) := by
  rintro who' pick' c now here
  obtain ⟨rfl, rfl⟩ := Move.step.inj now
  rw [Machine.call?_of_mem on.orderly here] at call
  obtain rfl := Option.some.inj call
  exact ⟨⟨Call.gentle_of_not_stream nofun nofun, nofun, fun _ _ _ _ _ => nofun⟩, nofun⟩

section Step

variable {c : Caller} {pick : Nat} {m' : Machine Receiver CloseHandler} {answer : Option Result}
  {events : History} (hc : c ∈ r.callers) (moved : r.machine.move (.step c.id pick) = m')
  (happened : r.machine.events (.step c.id pick) = events)
  (within : (Ledger.ofHistory .b (h ++ events)).delivered ⊆ mine)

include hc moved happened within

/-- A handler takes a step that is none of the business of the others. -/
theorem stepped_quietly (on : OnDuty others mine settled duty holder h reports r)
    (quiet : Quiet mine settled duty r.machine (.step c.id pick))
    (post : duty.Post holder settled (h ++ events) m' c.id (m'.call? c.id)
      (answer.elim c.script c.script.resume)) :
    OnDuty others mine settled duty holder (h ++ events) reports (afterStep c m' answer r) := by
  subst moved happened
  exact on.acted_quietly hc rfl within quiet rfl rfl rfl rfl post

/-- The receiver registers itself, and its handler is about to return. -/
theorem registered (on : OnDuty others mine settled .asks holder h reports r)
    (held : holder = some c.id)
    (call : r.machine.call? c.id = some (.receive .b (.sink 0 (tallyOf settled h))))
    (leaving : Leaving settled (m'.call? c.id) (answer.elim c.script c.script.resume)) :
    OnDuty others mine settled .waits none (h ++ events) reports (afterStep c m' answer r) := by
  subst moved happened
  refine on.acted hc rfl rfl (on.counted.registers within rfl call) ?_ ?_ ?_ nofun on.told
    on.booked
  · exact fun x => on.calls_other rfl
  · exact ⟨nofun, fun _ => leaving⟩
  · exact fun x apart call s old => ⟨nofun, fun _ => old.2 (ne_of_held held apart)⟩

/-- The handler that drains a message takes a step of a read. -/
theorem drained (on : OnDuty others mine settled (.drains k) holder h reports r)
    (held : holder = some c.id) {c₀ : MessageCall}
    (call : r.machine.call? c.id = some (.stream k c₀)) (drops : c₀.pipeCall? ≠ some .closeReader)
    (draining : Draining settled (tallyOf settled h) k (Account.ofHistory k (h ++ events)) m'
      (m'.call? c.id) (answer.elim c.script c.script.resume)) :
    OnDuty others mine settled (.drains k) holder (h ++ events) reports
      (afterStep c m' answer r) := by
  subst moved happened
  have orderly := on.orderly
  have allowed : ∀ who pick' c',
      (.step c.id pick : Move Receiver CloseHandler) = .step who pick' →
      (who, c') ∈ r.machine.calls → (Duty.drains k).Allows mine settled c' := by
    rintro who pick' c' now here
    obtain ⟨rfl, rfl⟩ := Move.step.inj now
    rw [Machine.call?_of_mem orderly here] at call
    obtain rfl := Option.some.inj call
    refine ⟨⟨nofun, ?_, ?_⟩, nofun, ?_⟩
    · rintro j hj r ⟨⟩
      exact on.counted.drained_mem.2 hj
    · rintro j - - c'' ⟨⟩
      exact drops
    · rintro j - - other r ⟨⟩
      exact other rfl
  have tally := on.counted.tally_eq fun who pick' c' now here =>
    (allowed who pick' c' now here).gentle
  refine on.acted hc rfl rfl (on.counted.move within allowed nofun) ?_ ?_ ?_
    (fun held => .inr ⟨rfl, held⟩) ?_ ?_
  · exact fun x => on.calls_other rfl
  · refine ⟨fun _ => ?_, fun apart => absurd held apart⟩
    rw [Duty.Fits, tally]
    exact draining
  · intro x apart call s old
    have other : holder ≠ some x := ne_of_held held apart
    exact ⟨fun same => absurd same other, fun _ => old.2 other⟩
  · exact on.told
  · exact on.booked

end Step

end OnDuty

end Loopback.Replay
