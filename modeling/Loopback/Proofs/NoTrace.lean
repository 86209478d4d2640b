import Loopback.Proofs.EndOfStream
import Loopback.Proofs.Stranded
import Loopback.Proofs.Wakeups
import Mathlib.Data.List.Infix

/-!
# A call that fails leaves no trace

A write or a registration can fail at once, or after it slept and was woken, time and again. What it
does meanwhile is put down with the sleepers of an endpoint and in the registry of a token, and both
are taken back. `Link.Untouched` is what it must leave alone: mailboxes, waiting receivers, closed
flags, the flags of tokens, messages and tasks. `Machine.failed_leaves_no_trace` says that every
step of a call that ends in an error does so, whatever others do between its steps, and that a
receiver which is refused changes nothing for the one that waits.
-/

namespace Loopback

namespace Endpoint

variable {ρ μ : Type}

/-- The endpoints differ at most in who sleeps there. -/
structure Alike (e e' : Endpoint ρ μ) : Prop where
  mailbox : e'.mailbox = e.mailbox
  pending : e'.pending = e.pending
  closed : e'.closed = e.closed

theorem Alike.refl (e : Endpoint ρ μ) : e.Alike e := ⟨rfl, rfl, rfl⟩

theorem Alike.trans {e e' e'' : Endpoint ρ μ} (h : e.Alike e') (h' : e'.Alike e'') :
    e.Alike e'' :=
  ⟨h'.mailbox.trans h.mailbox, h'.pending.trans h.pending, h'.closed.trans h.closed⟩

variable {pick : Nat} {m : μ} {e e' : Endpoint ρ μ}

/-- A write that was not taken leaves an endpoint alike. -/
theorem Attempt.alike {w : Writer} {interrupted : Bool} {entry : Entry ρ}
    (h : Attempt pick w interrupted m e e' entry) (failed : entry.isTaken = false) :
    e.Alike e' := by
  cases h with
  | closed | interrupted => exact .refl e
  | sleeps => exact ⟨rfl, rfl, rfl⟩
  | handed | queued => exact Bool.noConfusion failed

/-- So does one of a writer that slept before. -/
theorem alike_resume {w : Writer} {interrupted : Bool}
    (failed : (e.resume pick w interrupted m).2.isTaken = false) :
    e.Alike (e.resume pick w interrupted m).1 := by
  cases interrupted with
  | true => exact ⟨rfl, rfl, rfl⟩
  | false =>
    rw [resume_again] at failed ⊢
    have again := (attempt_enter pick w false m _).alike failed
    exact ⟨again.mailbox, again.pending, again.closed⟩

/-- A receiver that is refused leaves an endpoint alike. -/
theorem Registering.alike {r : ρ} {answer : Registration ρ μ}
    (h : Registering pick r e e' answer) (failed : answer = .refused) : e.Alike e' := by
  cases h with
  | refused => exact .refl e
  | message | finish | waits => cases failed

end Endpoint

namespace Call

variable {ρ η : Type}

/-- The call starts a message or registers a receiver. -/
def asks : Call ρ η → Bool
  | .write _ _ _ | .receive _ _ => true
  | _ => false

end Call

namespace Link

variable {ρ η : Type} {l l' : Link ρ η} {pick who : Nat}

/-- What a call that fails must leave alone. -/
structure Untouched (l l' : Link ρ η) : Prop where
  endpoints : ∀ s, (l.endpoint s).Alike (l'.endpoint s)
  flags : ∀ t, l'.isInterrupted t = l.isInterrupted t
  messages : l'.messages = l.messages
  tasks : l'.tasks = l.tasks

theorem Untouched.refl (l : Link ρ η) : l.Untouched l :=
  ⟨fun _ => .refl _, fun _ => rfl, rfl, rfl⟩

theorem Untouched.trans {l'' : Link ρ η} (h : l.Untouched l') (h' : l'.Untouched l'') :
    l.Untouched l'' where
  endpoints s := (h.endpoints s).trans (h'.endpoints s)
  flags t := (h'.flags t).trans (h.flags t)
  messages := h'.messages.trans h.messages
  tasks := h'.tasks.trans h.tasks

theorem untouched_setEndpoint {s : Side} {e : Endpoint ρ Nat} (alike : (l.endpoint s).Alike e) :
    l.Untouched (l.setEndpoint s e) where
  endpoints t := by
    rw [endpoint_setEndpoint_eq]
    split
    · next here => exact here ▸ alike
    · exact .refl _
  flags _ := rfl
  messages := rfl
  tasks := rfl

/-- Registries are written in without a trace. -/
theorem untouched_modifyToken? (token : Option Nat) {f : Token Side → Token Side}
    (flag : ∀ x, (f x).isSet = x.isSet) : l.Untouched (l.modifyToken? token f) where
  endpoints s := by
    rw [endpoint_modifyToken?]
    exact .refl _
  flags t := l.isInterrupted_modifyToken? token t flag
  messages := l.messages_modifyToken? token f
  tasks := l.tasks_modifyToken? token f

/-- What one step of a write or of a registration comes to. -/
inductive Asked (l l' : Link ρ η) (c : Call ρ η) (es : List (Event ρ η)) :
    Progress (Call ρ η) Result → Prop where
  | fails {why : Failure} (clean : l.Untouched l') (silent : es = []) :
      Asked l l' c es (.done (.error why))
  /-- Only a write sleeps, to try again. -/
  | sleeps {c' : Call ρ η} (clean : l.Untouched l') (silent : es = []) (writes : c.isWrite = true)
      (again : c'.asks = true) : Asked l l' c es (.asleep c')
  | succeeds {reply : Reply} : Asked l l' c es (.done (.ok reply))
  /-- What was decided is handed over, and then the call succeeds. -/
  | hands {tasks : List (Task ρ η)} {reply : Reply} :
      Asked l l' c es (.more (.submit tasks (.ok reply)))

/-- An attempt to write that is not taken leaves no trace but for the writer that sleeps. -/
theorem asked_finishWrite {source : Side} {token : Option Nat} {woken : Bool}
    {e : Endpoint ρ Nat} {entry : Entry ρ}
    (h : l.stepWrite pick who source token woken = l'.finishWrite source token e entry)
    (left : l.Untouched l')
    (alike : entry.isTaken = false → (l'.endpoint source.other).Alike e) :
    l.Asked (l.step pick who (.write source token woken)).1 (.write source token woken)
      (l.events pick who (.write source token woken))
      (l.step pick who (.write source token woken)).2 := by
  simp only [events, step, h]
  cases entry with
  | refused why => exact .fails (left.trans (untouched_setEndpoint (alike rfl))) rfl
  | sleeps =>
    have stored := left.trans (untouched_setEndpoint (alike rfl))
    exact .sleeps (stored.trans (untouched_modifyToken? token (Token.isSet_park _))) rfl rfl rfl
  | queued => exact .succeeds
  | handed r => exact .hands

theorem asked_step {c : Call ρ η} (asks : c.asks = true) :
    l.Asked (l.step pick who c).1 c (l.events pick who c) (l.step pick who c).2 := by
  cases c with
  | write source token woken =>
    cases woken with
    | false =>
      refine asked_finishWrite (l.stepWrite_first pick who source token) (.refl l) ?_
      exact (Endpoint.attempt_enter pick _ _ _ _).alike
    | true =>
      have left : l.Untouched (l.modifyToken? token (·.unpark source.other)) :=
        untouched_modifyToken? token (Token.isSet_unpark source.other)
      refine asked_finishWrite (l.stepWrite_woken pick who source token) left ?_
      rw [endpoint_modifyToken?]
      exact Endpoint.alike_resume
  | receive side r =>
    have registering := Endpoint.registering_register pick r (l.endpoint side)
    simp only [events, step, stepReceive]
    cases answer : ((l.endpoint side).register pick r).2 with
    | refused => exact .fails (untouched_setEndpoint (registering.alike answer)) rfl
    | waits => exact .succeeds
    | given d => exact .hands
  | _ => exact Bool.noConfusion asks

end Link

/-- The receiver that waits gets the next dispatch, and waits until there is one. -/
theorem Paired.next_dispatch {ρ : Type} {g g' : Ledger ρ} {ended ended' : List ρ}
    {e e' : Endpoint ρ Nat} (before : Paired g ended e) (after : Paired (g.append g') ended' e')
    {r : ρ}
    (waits : e.pending = some r) :
    (g'.dispatched = [] ∧ e'.pending = some r) ∨ ∃ d rest, g'.dispatched = d :: rest ∧
      d.receiver = r := by
  have registered := after.registered_eq
  rw [Ledger.append, before.registered_eq, waits, List.map_append, List.append_assoc,
    List.append_assoc, List.append_cancel_left_eq] at registered
  cases dispatched : g'.dispatched with
  | nil =>
    rw [dispatched] at registered
    refine .inl ⟨rfl, ?_⟩
    cases pending : e'.pending with
    | none => simp [pending] at registered
    | some r' =>
      rw [pending] at registered
      exact congrArg some (List.cons.inj registered).1.symm
  | cons d rest =>
    rw [dispatched] at registered
    exact .inr ⟨d, rest, rfl, (List.cons.inj registered).1.symm⟩

namespace Machine

variable {ρ η : Type} {m m' : Machine ρ η} {who pick : Nat} {c : Call ρ η}

/-- The caller `who` is in a call all along `during`, and then a step of its call answers `r`. -/
structure Ends (m : Machine ρ η) (who : Nat) (during : List (Move ρ η)) (pick : Nat)
    (r : Result) : Prop where
  busy : ∀ front, front <+: during → (m.run front).isIdle who = false
  answer : ((m.run during).step who pick).2 = some r

theorem Ends.tail {mv : Move ρ η} {during : List (Move ρ η)} {r : Result}
    (h : m.Ends who (mv :: during) pick r) : (m.move mv).Ends who during pick r where
  busy front begins := h.busy (mv :: front) ((List.prefix_cons_inj mv).2 begins)
  answer := h.answer

/-- A call stays as it is while others move. -/
theorem Moves.others {mv : Move ρ η} {es : List (Event ρ η)} (one : Moves m mv m' es)
    (here : (who, c) ∈ m.calls) (other : ∀ p, mv ≠ .step who p) : (who, c) ∈ m'.calls := by
  cases one with
  | stays | rouses | takes => exact here
  | begins => exact List.mem_append_left _ here
  | @steps who' p c' rest calls now awake next =>
    refine next.mem_iff.2 (List.mem_append_right _ ?_)
    rcases List.mem_cons.1 (now.mem_iff.1 here) with same | rest
    · exact absurd (congrArg (Move.step · p) (Prod.mk.inj same).1.symm) (other p)
    · exact rest

theorem mem_setCall (here : m.call? who = some c) (c' : Call ρ η) :
    (who, c') ∈ (m.setCall who c').calls := by
  obtain ⟨front, back, calls, -⟩ := List.lookup_eq_some_iff.1 here
  simp [setCall, calls]

theorem isIdle_filter (who : Nat) (l : Link ρ η) (calls : List (Nat × Call ρ η)) :
    (⟨l, calls.filter (·.1 != who)⟩ : Machine ρ η).isIdle who = true := by
  simp only [isIdle, call?, Option.isNone_iff_eq_none, List.lookup_eq_none_iff, bne_iff_ne]
  intro x hx same
  exact bne_iff_ne.1 (List.mem_filter.1 hx).2 same.symm

/-- How far a step brings a call that asks. -/
inductive Comes (m m' : Machine ρ η) (who : Nat) (c : Call ρ η) (es : List (Event ρ η)) :
    Option Result → Prop where
  | waits {c' : Call ρ η} (clean : m.link.Untouched m'.link) (silent : es = [])
      (here : (who, c') ∈ m'.calls) (asks : c'.asks = true)
      (kept : c' = c ∨ c.isWrite = true) : Comes m m' who c es none
  | fails {why : Failure} (clean : m.link.Untouched m'.link) (silent : es = [])
      (idle : m'.isIdle who = true) : Comes m m' who c es (some (.error why))
  | succeeds {reply : Reply} (idle : m'.isIdle who = true) :
      Comes m m' who c es (some (.ok reply))
  | hands {tasks : List (Task ρ η)} {reply : Reply}
      (here : (who, .submit tasks (.ok reply)) ∈ m'.calls) : Comes m m' who c es none

theorem comes_step (orderly : m.Orderly) (here : (who, c) ∈ m.calls) (asks : c.asks = true)
    (pick : Nat) :
    Comes m (m.step who pick).1 who c (m.events (.step who pick)) (m.step who pick).2 := by
  have call := call?_of_mem orderly here
  cases awake : m.link.isAsleep who c with
  | true =>
    simp only [step, events, call, awake, if_true]
    exact .waits (.refl _) rfl here asks (.inl rfl)
  | false =>
    have asked : m.link.Asked (m.link.step pick who c).1 c (m.link.events pick who c)
        (m.link.step pick who c).2 := m.link.asked_step asks
    simp only [step, events, call, awake, Bool.false_eq_true, if_false]
    cases outcome : (m.link.step pick who c).2 with
    | more c' =>
      rw [outcome] at asked
      cases asked with
      | hands => exact .hands (mem_setCall call _)
    | asleep c' =>
      rw [outcome] at asked
      cases asked with
      | sleeps clean silent writes again =>
        exact .waits clean silent (mem_setCall call _) again (.inr writes)
    | done r =>
      rw [outcome] at asked
      cases asked with
      | fails clean silent => exact .fails clean silent (isIdle_filter ..)
      | succeeds => exact .succeeds (isIdle_filter ..)

section Failing

variable {mv : Move ρ η} {during : List (Move ρ η)} {why : Failure}

/-- Once a call hands over what was decided, it succeeds. -/
theorem Ends.not_handing (orderly : m.Orderly) (ends : m.Ends who during pick (.error why))
    {tasks : List (Task ρ η)} {reply : Reply} :
    (who, .submit tasks (.ok reply)) ∉ m.calls := by
  induction during generalizing m tasks with
  | nil =>
    intro here
    have done := answer_of_step (call?_of_mem orderly here) ends.answer
    rcases tasks with _ | ⟨t, _ | ⟨t', rest⟩⟩ <;> simp [Link.step] at done
  | cons mv during ih =>
    intro here
    have one := moves orderly mv
    have later (tasks : List (Task ρ η)) := @ih _ (orderly.of_moves one) ends.tail tasks
    by_cases own : ∃ p, mv = .step who p
    · obtain ⟨p, rfl⟩ := own
      have call := call?_of_mem orderly here
      have busy := ends.busy [.step who p] (List.prefix_append [_] during)
      rcases tasks with _ | ⟨t, _ | ⟨t', rest⟩⟩
      · simp [run, move, step, call, Link.isAsleep, Link.step, isIdle_filter] at busy
      · simp [run, move, step, call, Link.isAsleep, Link.step, isIdle_filter] at busy
      · refine later (t' :: rest) ?_
        simp only [move, step, call, Link.isAsleep, Link.step]
        exact mem_setCall call _
    · exact later tasks (one.others here fun p same => own ⟨p, same⟩)

/-- A call that asks and will fail still asks after a move, and a step of its own left no trace. -/
theorem Ends.next (orderly : m.Orderly) (here : (who, c) ∈ m.calls) (asks : c.asks = true)
    (ends : m.Ends who (mv :: during) pick (.error why)) :
    (∃ c', (who, c') ∈ (m.move mv).calls ∧ c'.asks = true ∧ (c' = c ∨ c.isWrite = true)) ∧
      ∀ p, mv = .step who p → m.link.Untouched (m.move mv).link ∧ m.events mv = [] := by
  have one := moves orderly mv
  by_cases own : ∃ p, mv = .step who p
  · obtain ⟨p, rfl⟩ := own
    have busy : (m.step who p).1.isIdle who = false :=
      ends.busy [.step who p] (List.prefix_append [_] during)
    have comes := comes_step orderly here asks p
    cases answer : (m.step who p).2 with
    | some r =>
      -- A call that is over leaves its caller idle, and here the caller is still busy.
      rw [answer] at comes
      cases comes with
      | fails clean silent idle | succeeds idle =>
        rw [idle] at busy
        exact Bool.noConfusion busy
    | none =>
      rw [answer] at comes
      cases comes with
      | hands here => exact absurd here (ends.tail.not_handing (orderly.of_moves one))
      | waits clean silent here again kept =>
        exact ⟨⟨_, here, again, kept⟩, fun _ _ => ⟨clean, silent⟩⟩
  · have other : ∀ p, mv ≠ .step who p := fun p same => own ⟨p, same⟩
    exact ⟨⟨c, one.others here other, asks, .inl rfl⟩, fun p same => absurd same (other p)⟩

/-- Every step of a call that asks and fails leaves no trace. -/
theorem Ends.clean (orderly : m.Orderly) (here : (who, c) ∈ m.calls) (asks : c.asks = true)
    (ends : m.Ends who during pick (.error why)) {front back : List (Move ρ η)} {p : Nat}
    (split : during ++ [.step who pick] = front ++ .step who p :: back) :
    (m.run front).link.Untouched (m.run (front ++ [.step who p])).link ∧
      (m.run front).events (.step who p) = [] := by
  rw [run_append]
  induction during generalizing m c front with
  | nil =>
    cases front with
    | nil =>
      obtain rfl : pick = p := (Move.step.inj (List.cons.inj split).1).2
      have comes := comes_step orderly here asks pick
      rw [show (m.step who pick).2 = some (.error why) from ends.answer] at comes
      cases comes with
      | fails clean silent => exact ⟨clean, silent⟩
    | cons mv front => simp at split
  | cons mv during ih =>
    obtain ⟨⟨c', still, again, -⟩, own⟩ := ends.next orderly here asks
    cases front with
    | nil =>
      obtain rfl : mv = .step who p := (List.cons.inj split).1
      exact own p rfl
    | cons mv' front =>
      obtain rfl : mv = mv' := (List.cons.inj split).1
      exact ih (orderly.of_moves (moves orderly mv)) still again ends.tail (List.cons.inj split).2

/-- At its last step the call still asks, and one that does not write is as it began. -/
theorem Ends.last (orderly : m.Orderly) (here : (who, c) ∈ m.calls) (asks : c.asks = true)
    (ends : m.Ends who during pick (.error why)) :
    ∃ c', (who, c') ∈ (m.run during).calls ∧ c'.asks = true ∧ (c' = c ∨ c.isWrite = true) := by
  induction during generalizing m c with
  | nil => exact ⟨c, here, asks, .inl rfl⟩
  | cons mv during ih =>
    obtain ⟨⟨c', still, again, kept⟩, -⟩ := ends.next orderly here asks
    obtain ⟨c'', there, asks'', kept'⟩ :=
      ih (orderly.of_moves (moves orderly mv)) still again ends.tail
    refine ⟨c'', there, asks'', ?_⟩
    rcases kept with rfl | writes
    · exact kept'
    · exact .inr writes

/-- After its last step the caller is idle. -/
theorem Ends.idle (orderly : m.Orderly) (here : (who, c) ∈ m.calls) (asks : c.asks = true)
    (ends : m.Ends who during pick (.error why)) {x : Nat × Call ρ η}
    (hx : x ∈ (m.run (during ++ [.step who pick])).calls) : x.1 ≠ who := by
  obtain ⟨c', there, again, -⟩ := ends.last orderly here asks
  have comes := comes_step (orderly_run orderly during) there again pick
  rw [ends.answer] at comes
  rw [run_append] at hx
  cases comes with
  | fails clean silent idle =>
    simp only [isIdle, call?, Option.isNone_iff_eq_none, List.lookup_eq_none_iff,
      bne_iff_ne] at idle
    exact (idle x hx).symm

/-- A registration fails only because another receiver waits. -/
theorem Ends.refused {s : Side} {r : ρ} (orderly : m.Orderly)
    (here : (who, .receive s r) ∈ m.calls) (ends : m.Ends who during pick (.error why)) :
    why = .alreadyWaiting ∧ ∃ r', ((m.run during).link.endpoint s).pending = some r' := by
  obtain ⟨c', there, -, rfl | writes⟩ := ends.last orderly here rfl
  · have done := answer_of_step (call?_of_mem (orderly_run orderly during) there) ends.answer
    have only : why = .alreadyWaiting := by
      simp only [Link.step, Link.stepReceive] at done
      cases answer : (((m.run during).link.endpoint s).register pick r).2 <;>
        simp [answer] at done
      exact done.symm
    rw [only] at done
    exact ⟨only, (alreadyWaiting_iff s _ pick who r).1 done⟩
  · exact Bool.noConfusion writes

end Failing

section Run

variable (config : Config) (first : String) (second : Option String) (tokens signals : Nat)
  (schedule : List (Move ρ η)) (s : Side)

/-- The receiver that waits is given the next thing that is given to anybody on its side. -/
theorem next_dispatch_run {r : ρ}
    (waits : (((fresh config first second tokens signals).run schedule).link.endpoint s).pending =
      some r) (later : List (Move ρ η)) :
    let now := (fresh config first second tokens signals).run schedule
    let decided := (Ledger.ofHistory s (now.history later)).dispatched
    (decided = [] ∧ ((now.run later).link.endpoint s).pending = some r) ∨
      ∃ d rest, decided = d :: rest ∧ d.receiver = r := by
  obtain ⟨ended, paired⟩ := paired_run config first second tokens signals schedule s
  obtain ⟨ended', paired'⟩ := paired_run config first second tokens signals (schedule ++ later) s
  rw [history_append, Ledger.ofHistory_append, run_append] at paired'
  exact paired.next_dispatch paired' waits

/-- No receiver is started more often than it was registered. -/
theorem started_subperm_registered :
    ((started s ((fresh config first second tokens signals).history schedule)).map
      Dispatch.receiver).Subperm
      (Ledger.ofHistory s
        ((fresh config first second tokens signals).history schedule)).registered := by
  obtain ⟨ended, paired⟩ := paired_run config first second tokens signals schedule s
  have once := (handover_run config first second tokens signals schedule s).map Dispatch.receiver
  rw [List.map_append] at once
  rw [paired.registered_eq]
  have begun := (List.sublist_append_left _ _).subperm.trans once.subperm
  exact begun.trans (List.sublist_append_left _ _).subperm

end Run

/-- A write or a registration that ends in an error leaves no trace, however long it took and
whatever others did meanwhile. None of its own steps changes a mailbox, a waiting receiver, a closed
flag or the flag of a token, and none creates a message, decides on a dispatch or hands one over.
When it is over, the entries of every registry belong to writes that sleep, none of them by this
caller. A receiver that was refused found another one waiting: that one still waits and is given the
next thing that is given to anybody there, and receivers are started no more often than they were
registered, which the refused one was not. -/
theorem failed_leaves_no_trace (config : Config) (first : String) (second : Option String)
    (tokens signals : Nat) (before during : List (Move ρ η)) (who pick : Nat) (c : Call ρ η)
    (why : Failure) (asks : c.asks = true)
    (can : ((fresh config first second tokens signals).run before).canBegin who c = true)
    (ends : ((fresh config first second tokens signals).run (before ++ [.begin who c])).Ends who
      during pick (.error why)) :
    let pair := (fresh config first second tokens signals : Machine ρ η)
    let m := pair.run (before ++ [.begin who c])
    let after := m.run (during ++ [.step who pick])
    (∀ front p back, during ++ [.step who pick] = front ++ .step who p :: back →
      (m.run front).link.Untouched (m.run (front ++ [.step who p])).link ∧
        (m.run front).events (.step who p) = []) ∧
    ((∀ x ∈ after.calls, x.1 ≠ who) ∧ ∀ t (token : Token Side), after.link.tokens[t]? = some token →
      token.parked.Perm (after.calls.filterMap (Call.place? t))) ∧
    (∀ s refused, c = .receive s refused →
      why = .alreadyWaiting ∧ ∃ r, (after.link.endpoint s).pending = some r ∧ ∀ later,
        let decided := (Ledger.ofHistory s (after.history later)).dispatched
        let all := pair.history (before ++ [.begin who c] ++ during ++ [.step who pick] ++ later)
        ((decided = [] ∧ ((after.run later).link.endpoint s).pending = some r) ∨
          ∃ d rest, decided = d :: rest ∧ d.receiver = r) ∧
        ((started s all).map Dispatch.receiver).Subperm (Ledger.ofHistory s all).registered) := by
  intro pair m after
  have orderly : m.Orderly := orderly_run (orderly_fresh ..) _
  have here : (who, c) ∈ m.calls := by
    show (who, c) ∈ (pair.run (before ++ [.begin who c])).calls
    rw [run_append]
    show (who, c) ∈ ((pair.run before).begin who c).calls
    rw [begin, if_pos can]
    exact List.mem_append_right _ List.mem_cons_self
  have whole : after = pair.run (before ++ [.begin who c] ++ during ++ [.step who pick]) := by
    simp only [after, m, run_append]
  refine ⟨fun front p back split => ends.clean orderly here asks split,
    ⟨fun x hx => ends.idle orderly here asks hx, ?_⟩, ?_⟩
  · rw [whole]
    exact (Reachable.booked ⟨config, first, second, tokens, signals, _, rfl⟩).registry
  · intro s refused receives
    subst receives
    obtain ⟨only, r, waits⟩ := ends.refused orderly here
    have still : (after.link.endpoint s).pending = some r := by
      rw [← waits]
      exact ((ends.clean orderly here asks rfl).1.endpoints s).pending
    refine ⟨only, r, still, fun later => ⟨?_, ?_⟩⟩
    · rw [whole] at still ⊢
      exact next_dispatch_run config first second tokens signals _ s still later
    · exact started_subperm_registered ..

/-- The mailbox of `b` holds one message and is full. -/
def filledUp : List (Move Nat Nat) := [.begin 1 (.write .a none false), .step 1 0]

/-- Caller 2 finds the mailbox full and sleeps, until its token is set and it is woken. -/
def givingUp : List (Move Nat Nat) :=
  [.step 2 0, .begin 3 (.interrupt 0), .step 3 0, .step 3 0, .step 3 0, .step 3 0]

/-- The write of caller 2 is interrupted, and each of its two steps left no trace. -/
theorem untouched_after_givingUp :
    let m := (fresh ⟨1, 16⟩ "pair" none 1 0).run
      (filledUp ++ [.begin 2 (.write .a (some 0) false)])
    m.Ends 2 givingUp 0 (.error .interrupted) ∧ (m.run [.step 2 0]).canStep 2 = false ∧
      ∀ front p back, givingUp ++ [.step 2 0] = front ++ .step 2 p :: back →
        (m.run front).link.Untouched (m.run (front ++ [.step 2 p])).link := by
  intro m
  have ends : m.Ends 2 givingUp 0 (.error .interrupted) := by
    refine ⟨fun front begins => ?_, by decide +kernel⟩
    have all : ∀ front ∈ givingUp.inits, (m.run front).isIdle 2 = false := by decide +kernel
    exact all front ((List.mem_inits _ _).2 begins)
  refine ⟨ends, by decide +kernel, fun front p back split => ?_⟩
  exact ((failed_leaves_no_trace ⟨1, 16⟩ "pair" none 1 0 filledUp givingUp 2 0
    (.write .a (some 0) false) .interrupted rfl (by decide +kernel) ends).1 front p back split).1

end Machine

end Loopback
