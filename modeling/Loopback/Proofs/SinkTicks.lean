import Loopback.Proofs.SinkRun

/-!
# A sink from tick to tick

Whatever happens next, `OnDuty` holds again (`OnDuty.tick`), with the duty moved on where it is the
handler of the sink that acts: it comes to the next part of its script, or the executor starts it.
So it holds after every run that leaves the messages of side `b` to the sink (`onDuty_ticks`).
-/

namespace Loopback.Replay

open Machine (readCount started)

variable {settled mine : List Nat} {k : Nat} {h : History} {duty : Duty}
  {s : Script Outcome} {others : Nat} {holder : Option Nat} {reports : List (Nat × Tally)}
  {r : Replay} {c : Caller}

namespace OnDuty

/-! ## A step of a call -/

theorem afterStep_nothing (on : OnDuty others mine settled duty holder h reports r)
    (hc : c ∈ r.callers) : afterStep c r.machine none r = r := by
  show { r with callers := (r.setScript c.id c.script).callers } = r
  rw [on.setScript_self hc]

/-- Whoever follows a script begins the call it comes to, or takes a step of it. -/
theorem stepCall_eq (on : OnDuty others mine settled duty holder h reports r) (hc : c ∈ r.callers)
    (pick : Nat) (first : Call Receiver CloseHandler) :
    r.stepCall pick c first c.script.resume =
      afterStep c ((r.machine.begin c.id first).step c.id pick).1
        ((r.machine.begin c.id first).step c.id pick).2
        { r with machine := r.machine.begin c.id first } := by
  simp only [stepCall]
  cases answer : ((r.machine.begin c.id first).step c.id pick).2 with
  | none =>
    show _ = { r with
      machine := ((r.machine.begin c.id first).step c.id pick).1
      callers := (r.setScript c.id c.script).callers }
    rw [on.setScript_self hc]
  | some result => rfl

section Step

variable {pick : Nat} {step : Machine Receiver CloseHandler × Option Result} {es : History}
  (on : OnDuty others mine settled duty holder h reports r) (hc : c ∈ r.callers)
  (took : r.machine.Took c.id pick step es)
  (moved : r.machine.move (.step c.id pick) = step.1)
  (happened : r.machine.events (.step c.id pick) = es)
  (within : (Ledger.ofHistory .b (h ++ es)).delivered ⊆ mine)

include on hc took moved happened within

/-- A handler reports a line, and its script goes on. -/
theorem reported {line : Line} (call : r.machine.call? c.id = some (.report line))
    (post : duty.Post holder settled h r.machine c.id none (c.script.resume (.ok .unit))) :
    OnDuty others mine settled duty holder (h ++ es) reports (afterStep c step.1 step.2 r) := by
  obtain ⟨gone, answer⟩ := took.atOnce call rfl rfl
  have quiet : Quiet mine settled duty r.machine (.step c.id pick) := on.quiet_of_report call
  have kept := on.keeps quiet post
  rw [moved, happened] at kept
  refine on.stepped_quietly hc moved happened within quiet ?_
  rw [gone, answer]
  exact kept

/-- A handler takes a step of its call: one that is about to return goes on to, the one that asks
registers itself in the end, and the one that drains reads on. -/
theorem stepped : ∃ duty' holder', OnDuty others mine settled duty' holder' (h ++ es) reports
    (afterStep c step.1 step.2 r) := by
  have post := on.posts c hc
  -- Whoever does not hold the duty is about to return, and no trouble to the others.
  by_cases held : holder = some c.id
  · have fits := post.1 held
    cases call : r.machine.call? c.id with
    | none =>
      cases took with
      | nothing =>
        rw [List.append_nil, on.afterStep_nothing hc]
        exact ⟨duty, holder, on⟩
      | goesOn call' | ends call' => cases call.symm.trans call'
    | some c₀ =>
      rw [call] at fits
      cases duty with
      | asks =>
        rcases Asking.call_cases fits with ⟨line, rfl, onward⟩ | ⟨rfl, K, same, onward⟩
        · exact ⟨_, _, on.reported hc took moved happened within call
            ⟨fun _ => onward _, fun apart => absurd held apart⟩⟩
        · have nobody := on.counted.outstanding_eq
          rw [Duty.outstanding, List.append_eq_nil_iff, Option.toList_eq_nil_iff] at nobody
          refine ⟨_, _, on.registered hc moved happened within held call ?_⟩
          rw [same]
          exact .of_receive call nobody.2 onward took
      | drains k =>
        obtain ⟨c₁, rfl, drops⟩ := Draining.call_eq fits
        obtain ⟨delivered, unsettled⟩ := on.counted.drained_mem
        obtain ⟨msg, found, opened⟩ := on.counted.served.opened k delivered unsettled
        have matched := (on.counted.recorded.accounted k).matched msg found
        refine ⟨_, _, on.drained hc moved happened within held call drops ?_⟩
        rw [Account.ofHistory_append]
        rw [← call] at fits
        exact Draining.took fits found matched opened took
      | ends =>
        obtain ⟨line, rfl, onward⟩ := Ending.call_cases fits
        exact ⟨_, _, on.reported hc took moved happened within call
          ⟨fun _ => onward _, fun apart => absurd held apart⟩⟩
      | waits | told => exact fits.elim
  · have leaving := post.2 held
    refine ⟨_, _, on.stepped_quietly hc moved happened within (on.quiet_of_leaving leaving) ?_⟩
    exact ⟨fun own => absurd own held, fun _ => leaving.took took⟩

end Step

/-! ## A step without a call -/

/-- A handler that returns was about to. -/
theorem finished (on : OnDuty others mine settled duty holder h reports r) (hc : c ∈ r.callers)
    {o : Outcome} (script : c.script = .done o) :
    OnDuty others mine settled duty holder h reports (r.finish c o) := by
  have post := on.posts c hc
  rw [script] at post
  generalize call : r.machine.call? c.id = now at post
  have apart : holder ≠ some c.id := by
    intro held
    have fits := post.1 held
    cases duty with
    | asks | drains | ends => cases fits
    | waits | told => exact fits
  obtain rfl : now = none := by
    cases post.2 apart
    rfl
  obtain ⟨current, events, returned⟩ := finish_eq c o r
  have rest {c' : Caller} : c' ∈ r.callers.filter (·.id != c.id) ↔
      c' ∈ r.callers ∧ c'.id ≠ c.id := by
    rw [List.mem_filter, bne_iff_ne]
  rw [returned]
  refine ⟨on.counted, on.ids.sublist (List.filter_sublist.map _),
    fun c' hc' => on.numbers c' (rest.1 hc').1, on.next, ?_,
    fun c' hc' => on.posts c' (rest.1 hc').1, ?_, on.told, on.booked⟩
  · intro x hx
    rcases on.calls x hx with other | ⟨c', hc', same⟩
    · exact .inl other
    · refine .inr ⟨c', rest.2 ⟨hc', ?_⟩, same⟩
      intro own
      rw [← own, same, Machine.call?_of_mem on.orderly (c := x.2) hx] at call
      cases call
  · intro holds
    obtain ⟨c', hc', same⟩ := on.held holds
    refine ⟨c', rest.2 ⟨hc', ?_⟩, same⟩
    intro own
    exact apart (by rw [same, own])

/-- A handler whose transfer is over has drained its message, and asks next. -/
theorem settles (on : OnDuty others mine settled duty holder h reports r) (hc : c ∈ r.callers)
    {j : Nat} {t : Transfer} {K : StreamAnswer → Script Outcome} {answer : StreamAnswer}
    (script : c.script = .transfer j t K) (ended : t.next = .inr answer) :
    ∃ settled' duty', OnDuty others mine settled' duty' holder h reports
      (r.setScript c.id (K answer)) := by
  have post := on.posts c hc
  rw [script] at post
  generalize call : r.machine.call? c.id = now at post
  have held : holder = some c.id := by
    by_contra apart
    cases post.2 apart
  have fits := post.1 held
  cases duty with
  | asks | ends => cases fits
  | waits | told => exact fits.elim
  | drains k =>
    cases fits with
    | reads => cases ended
    | @through count failure _ counted out onward =>
      cases ended
      refine ⟨settled ++ [j], .asks, on.acted hc rfl rfl (on.counted.settle out)
        (fun _ _ _ => Iff.rfl) ?_ ?_ (fun _ => .inl held) on.told on.booked⟩
      · refine ⟨fun _ => ?_, fun apart => absurd held apart⟩
        show Asking _ _ (r.machine.call? c.id) _
        rw [call, tallyOf_concat, readCount, ← counted]
        exact onward count failure
      · intro x apart call s old
        have other : holder ≠ some x := ne_of_held held apart
        exact ⟨fun same => absurd same other,
          fun _ => (old.2 other).mono (List.subset_append_left _ _)⟩

/-- A handler that makes a note tells the tally. -/
theorem noted (on : OnDuty others mine settled duty holder h reports r) (hc : c ∈ r.callers)
    {n : Note} {K : Nat → Script Outcome} (script : c.script = .note n K) :
    n = .tally 0 (tallyOf settled h) ∧ reports = [] ∧
      OnDuty others mine settled .told none h [(0, tallyOf settled h)]
        ((r.enter n).1.setScript c.id (K (r.enter n).2)) := by
  have post := on.posts c hc
  rw [script] at post
  generalize call : r.machine.call? c.id = now at post
  have held : holder = some c.id := by
    by_contra apart
    cases post.2 apart
  have fits := post.1 held
  cases duty with
  | asks | drains => cases fits
  | waits | told => exact fits.elim
  | ends =>
    cases fits with
    | tells ended =>
      obtain ⟨o, last⟩ := ended 0
      refine ⟨rfl, on.told, on.acted hc rfl rfl on.counted.tell (fun _ _ _ => Iff.rfl) ?_ ?_ nofun
        rfl ?_⟩
      · refine ⟨nofun, fun _ => ?_⟩
        show Leaving settled (r.machine.call? c.id) (K 0)
        rw [call, last]
        exact .gone o
      · exact fun x apart call s old => ⟨nofun, fun _ => old.2 (ne_of_held held apart)⟩
      · show (r.sinks.setIfInBounds 0 _)[0]? = _
        obtain ⟨inside, -⟩ := Array.getElem?_eq_some_iff.1 on.booked
        simp [inside, Duty.book]

/-! ## The executor -/

/-- The executor starts the receiver of the sink. -/
theorem starts (on : OnDuty others mine settled duty holder h reports r)
    {i : Nat} {d : Dispatch Receiver Nat} (found : r.machine.link.tasks[i]? = some (.receive .b d))
    (within : (Ledger.ofHistory .b (h ++ r.machine.events (.takeTask i))).delivered ⊆ mine) :
    OnDuty others mine settled (.given d.delivery) (some r.nextCaller)
      (h ++ r.machine.events (.takeTask i)) reports
      (({ r with machine := r.machine.move (.takeTask i) } : Replay).start .silent true
        (taskScript (.receive .b d))) := by
  have orderly := on.orderly
  obtain ⟨rfl, receiver, counted⟩ := on.counted.starts within rfl found
  have gentle : ∀ who pick c, (.takeTask i : Move Receiver CloseHandler) = .step who pick →
      (who, c) ∈ r.machine.calls → c.Gentle mine settled := fun _ _ _ now => by cases now
  have tally := on.counted.tally_eq gentle
  have one := Machine.moves orderly (.takeTask i)
  have calls : (r.machine.move (.takeTask i)).calls = r.machine.calls := by
    simp [Machine.move, Machine.takeTask?, Link.takeTask?, found]
  -- The handlers that are at work are about to return.
  have leaving : ∀ c ∈ r.callers, Leaving settled (r.machine.call? c.id) c.script := by
    intro c hc
    exact (on.posts c hc).2 fun held => (on.posts c hc).1 held
  have idle : r.machine.call? r.nextCaller = none := by
    rw [Option.eq_none_iff_forall_ne_some]
    intro c call
    rcases on.calls _ ((Machine.call?_eq_some_iff orderly).1 call) with
      ⟨low, -⟩ | ⟨c', hc', same⟩
    · exact absurd on.next (Nat.not_le_of_lt low)
    · exact absurd same (Nat.ne_of_lt (on.numbers c' hc').2)
  have stays (x : Nat) : (r.machine.move (.takeTask i)).call? x = r.machine.call? x := by
    rw [Machine.call?, calls, Machine.call?]
  refine ⟨counted, ?_, ?_, Nat.le_succ_of_le on.next, ?_, ?_, ?_, ?_, ?_⟩
  · show ((r.callers ++ [_]).map Caller.id).Nodup
    rw [List.map_append, List.nodup_append]
    refine ⟨on.ids, List.nodup_singleton _, ?_⟩
    intro x old y new
    obtain ⟨c, hc, rfl⟩ := List.mem_map.1 old
    rw [List.mem_singleton.1 new]
    exact Nat.ne_of_lt (on.numbers c hc).2
  · intro c hc
    rcases List.mem_append.1 hc with old | new
    · exact ⟨(on.numbers c old).1, Nat.lt_succ_of_lt (on.numbers c old).2⟩
    · rw [List.mem_singleton.1 new]
      exact ⟨on.next, Nat.lt_succ_self _⟩
  · intro x hx
    have hx : x ∈ (r.machine.move (.takeTask i)).calls := hx
    rcases on.calls x (calls ▸ hx) with other | ⟨c, hc, same⟩
    · exact .inl other
    · exact .inr ⟨c, List.mem_append_left _ hc, same⟩
  · intro c hc
    show Duty.Post _ _ _ _ _ _ ((r.machine.move (.takeTask i)).call? c.id) _
    rw [stays]
    rcases List.mem_append.1 hc with old | new
    · refine ⟨fun own => ?_, fun _ => leaving c old⟩
      exact absurd (Option.some.inj own).symm (Nat.ne_of_lt (on.numbers c old).2)
    · obtain rfl := List.mem_singleton.1 new
      refine ⟨fun _ => ?_, fun apart => absurd rfl apart⟩
      rw [idle]
      show Duty.Fits _ _ _ _ none (d.receiver.script .b d.delivery)
      rw [receiver]
      cases delivery : d.delivery with
      | message k =>
        rw [delivery] at counted
        -- Nobody has read the message yet, so its handler starts to count at nought.
        have unread := on.counted.unread_move within (fun _ _ _ now => by cases now)
          counted.drained_mem.1 counted.drained_mem.2 fun same => by cases same
        rw [Duty.given, Duty.Fits, tally]
        exact draining_sinkMessage (List.length_eq_zero_iff.1 unread)
      | finish =>
        rw [Duty.given, Duty.Fits, tally]
        exact ending_sinkFinish _
  · intro _
    exact ⟨_, List.mem_append_right _ (List.mem_singleton_self _), rfl⟩
  · rw [on.told]
    cases d.delivery <;> rfl
  · show r.sinks[0]? = _
    rw [on.booked]
    cases d.delivery <;> rfl

/-! ## Whatever happens -/

/-- What is told at a tick of a caller is what its script tells. -/
theorem told_step {who pick : Nat} (found : r.callers.find? (·.id == who) = some c)
    (other : ∀ k t K, c.script ≠ .note (.tally k t) K) : r.told (.step who pick) = [] := by
  obtain ⟨id, origin, holdsPair, script⟩ := c
  simp only [Replay.told, found]
  split
  · next same =>
    obtain ⟨-, -, -, rfl⟩ := Caller.mk.inj (Option.some.inj same)
    exact absurd rfl (other _ _ _)
  · rfl

/-- A step of a handler. -/
theorem acts (on : OnDuty others mine settled duty holder h reports r) {who pick : Nat}
    (found : r.callers.find? (·.id == who) = some c)
    (within : (Ledger.ofHistory .b
      (h ++ r.machine.history (r.moves (.step who pick)))).delivered ⊆ mine) :
    ∃ settled' duty' holder', OnDuty others mine settled' duty' holder'
      (h ++ r.machine.history (r.moves (.step who pick))) (reports ++ r.told (.step who pick))
      (r.tick (.step who pick)) := by
  have hc : c ∈ r.callers := List.mem_of_find?_eq_some found
  have steps : r.tick (.step who pick) = r.stepCaller pick c := by simp only [Replay.tick, found]
  have moves : r.moves (.step who pick) = c.script.call?.toList.flatMap fun call =>
      [.begin c.id call, .step c.id pick] := by simp only [Replay.moves, found]
  rw [steps]
  cases next : c.script.call? with
  | some first =>
    have quiet : r.told (.step who pick) = [] := by
      apply told_step found
      intro k t K script
      rw [script] at next
      cases next
    have events : r.machine.history (r.moves (.step who pick)) =
        (r.machine.begin c.id first).events (.step c.id pick) := by
      rw [moves, next]
      exact List.append_nil _
    rw [events] at within ⊢
    rw [stepCaller_of_call? next, on.stepCall_eq hc, quiet, List.append_nil]
    have before : (Ledger.ofHistory .b h).delivered ⊆ mine := by
      rw [Ledger.ofHistory_append] at within
      exact fun k hk => within (List.mem_append_left _ hk)
    have began := on.began hc before next
    obtain ⟨duty', holder', now⟩ :=
      began.stepped hc (Machine.took began.orderly c.id pick) rfl rfl within
    exact ⟨_, _, _, now⟩
  | none =>
    have events : r.machine.history (r.moves (.step who pick)) = [] := by
      rw [moves, next]
      rfl
    rw [events, List.append_nil]
    cases script : c.script with
    | done o =>
      rw [told_step found (fun _ _ _ same => by cases script.symm.trans same), List.append_nil,
        stepCaller, script]
      exact ⟨_, _, _, on.finished hc script⟩
    | call first K =>
      rw [script] at next
      cases next
    | transfer j t K =>
      rw [told_step found (fun _ _ _ same => by cases script.symm.trans same), List.append_nil]
      cases ended : t.next with
      | inl first =>
        rw [script, Script.call?, ended] at next
        cases next
      | inr answer =>
        have same : r.stepCaller pick c = r.setScript c.id (K answer) := by
          simp only [stepCaller, script, ended]
        rw [same]
        obtain ⟨settled', duty', now⟩ := on.settles hc script ended
        exact ⟨_, _, _, now⟩
    | note n K =>
      obtain ⟨rfl, rfl, now⟩ := on.noted hc script
      have told : r.told (.step who pick) = [(0, tallyOf settled h)] := by
        obtain ⟨id, origin, holdsPair, _⟩ := c
        cases script
        simp only [Replay.told, found]
      have same : r.stepCaller pick c =
          (r.enter (.tally 0 (tallyOf settled h))).1.setScript c.id
            (K (r.enter (.tally 0 (tallyOf settled h))).2) := by
        simp only [stepCaller, script]
      rw [told, same]
      exact ⟨_, _, _, now⟩

/-- Whatever happens next, the run is on duty again. -/
theorem tick (on : OnDuty others mine settled duty holder h reports r) {t : Tick}
    (left : t.leaves others mine = true)
    (within : (Ledger.ofHistory .b (h ++ r.machine.history (r.moves t))).delivered ⊆ mine) :
    ∃ settled' duty' holder', OnDuty others mine settled' duty' holder'
      (h ++ r.machine.history (r.moves t)) (reports ++ r.told t) (r.tick t) := by
  -- A move on its own, made by nobody who follows a script.
  have alone (mv : Move Receiver CloseHandler) (moves : r.moves t = [mv]) (quiet : r.told t = [])
      (same : r.tick t = { r with machine := r.machine.move mv })
      (apart : ∀ c ∈ r.callers, mv.who? ≠ some c.id)
      (begins : ∀ who c, mv = .begin who c → who < others ∧ c.leaves mine = true)
      (starts : ∀ i t, mv = .takeTask i → r.machine.link.tasks[i]? = some t →
        t.dispatch? .b = none) :
      ∃ settled' duty' holder', OnDuty others mine settled' duty' holder'
        (h ++ r.machine.history (r.moves t)) (reports ++ r.told t) (r.tick t) := by
    have events : r.machine.history (r.moves t) = r.machine.events mv := by
      rw [moves]
      exact List.append_nil _
    rw [events] at within ⊢
    rw [quiet, same, List.append_nil]
    exact ⟨_, _, _, on.moved within apart begins starts⟩
  cases t with
  | begin who c =>
    obtain ⟨low, leaves⟩ : who < others ∧ c.leaves mine = true := by
      simpa [Tick.leaves] using left
    refine alone (.begin who c) rfl rfl rfl ?_ ?_ fun _ _ now => by cases now
    · intro c' hc' same
      have here := (on.numbers c' hc').1
      rw [← Option.some.inj same] at here
      exact absurd low (Nat.not_lt_of_le here)
    · rintro who c ⟨⟩
      exact ⟨low, leaves⟩
  | rouse who =>
    exact alone (.rouse who) rfl rfl rfl (fun _ _ mover => by cases mover)
      (fun _ _ now => by cases now) fun _ _ now => by cases now
  | step who pick =>
    cases found : r.callers.find? (·.id == who) with
    | some c => exact on.acts found within
    | none =>
      have quiet : r.told (.step who pick) = [] := by simp only [Replay.told, found]
      refine alone (.step who pick) (by simp only [Replay.moves, found]) quiet
        (by simp only [Replay.tick, found]; rfl) ?_ (fun _ _ now => by cases now)
        fun _ _ now => by cases now
      intro c hc same
      have absent := List.find?_eq_none.1 found c hc
      exact absent (beq_iff_eq.2 (Option.some.inj same).symm)
  | start i =>
    have events : r.machine.history (r.moves (.start i)) = r.machine.events (.takeTask i) :=
      List.append_nil _
    by_cases sinks : ∃ d, r.machine.link.tasks[i]? = some (.receive .b d)
    · obtain ⟨d, found⟩ := sinks
      have same : r.tick (.start i) =
          ({ r with machine := r.machine.move (.takeTask i) } : Replay).start .silent true
            (taskScript (.receive .b d)) := by
        have found' : r.link.tasks[i]? = some (.receive .b d) := found
        simp [Replay.tick, found', startTask?, Machine.move, Machine.takeTask?, Link.takeTask?,
          found]
      rw [events] at within ⊢
      rw [same, show r.told (.start i) = [] from rfl, List.append_nil]
      exact ⟨_, _, _, on.starts found within⟩
    · refine alone (.takeTask i) rfl rfl ?_ (fun _ _ mover => by cases mover)
        (fun _ _ now => by cases now) ?_
      · simp only [Replay.tick]
        split
        · next d found => exact absurd ⟨d, found⟩ sinks
        · rfl
      · rintro j t ⟨⟩ found
        cases t with
        | closed => rfl
        | receive side d =>
          cases side with
          | a => rfl
          | b => exact absurd ⟨d, found⟩ sinks

end OnDuty

/-! ## Whole runs -/

/-- A sink that is about to be registered asks. -/
theorem onDuty_withSink (config : Config) (first : String) (second : Option String)
    (tokens signals others : Nat) (mine : List Nat) :
    OnDuty others mine [] .asks (some others) [] []
      (withSink config first second tokens signals others) where
  counted :=
    { recorded := ⟨config, first, second, tokens, signals, [], rfl, rfl⟩
      served := Machine.served_fresh ..
      begun := rfl
      registered := ⟨[], rfl, rfl⟩
      unread := fun k hk => absurd hk List.not_mem_nil }
  ids := List.nodup_singleton _
  numbers c hc := by
    rw [List.mem_singleton.1 hc]
    exact ⟨Nat.le_refl _, Nat.lt_succ_self _⟩
  next := Nat.le_succ _
  calls x hx := absurd hx List.not_mem_nil
  posts c hc := by
    rw [List.mem_singleton.1 hc]
    exact ⟨fun _ => .asks (.inl rfl) (.gone _), fun apart => absurd rfl apart⟩
  held _ := ⟨_, List.mem_singleton_self _, rfl⟩
  told := rfl
  booked := rfl

/-- What happens on the pair along some ticks. -/
def past (r : Replay) (ts : List Tick) : History := r.machine.history (r.schedule ts)

theorem past_concat (r : Replay) (ts : List Tick) (t : Tick) :
    r.past (ts ++ [t]) =
      r.past ts ++ (r.ticks ts).machine.history ((r.ticks ts).moves t) := by
  rw [past, schedule_append, Machine.history_append, ← machine_ticks, schedule, schedule,
    List.append_nil]
  rfl

/-- Every run that leaves the messages of side `b` to the sink is on duty. -/
theorem onDuty_ticks (config : Config) (first : String) (second : Option String)
    (tokens signals others : Nat) (mine : List Nat) (ts : List Tick) :
    let start := withSink config first second tokens signals others
    ts.all (Tick.leaves others mine) = true →
    (Ledger.ofHistory .b (start.past ts)).delivered ⊆ mine →
    ∃ settled duty holder, OnDuty others mine settled duty holder (start.past ts)
      (start.reports ts) (start.ticks ts) := by
  intro start left within
  induction ts using List.reverseRecOn with
  | nil => exact ⟨_, _, _, onDuty_withSink config first second tokens signals others mine⟩
  | append_singleton ts t ih =>
    rw [List.all_append, Bool.and_eq_true] at left
    obtain ⟨before, last⟩ := left
    rw [past_concat] at within ⊢
    -- What is left to the sink at the end was left to it all along.
    have sooner : (Ledger.ofHistory .b (start.past ts)).delivered ⊆ mine := by
      rw [Ledger.ofHistory_append] at within
      exact fun k hk => within (List.mem_append_left _ hk)
    obtain ⟨settled, duty, holder, on⟩ := ih before sooner
    have goes := on.tick (List.all_eq_true.1 last t (List.mem_singleton_self t)) within
    rw [ticks_append, reports_append, reports, reports, List.append_nil]
    exact goes

end Loopback.Replay
