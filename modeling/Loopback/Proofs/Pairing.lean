import Loopback.Proofs.Ledger
import Loopback.Proofs.Schedule
import Mathlib.Algebra.Order.Group.Multiset
import Mathlib.Data.List.Perm.Basic

/-!
# First written, first received

The ledger of an endpoint agrees with what the endpoint holds after every schedule, and what was
decided there is run at most once: each dispatch of the ledger is with a caller that is about to
hand it over, among the tasks of the executor, or started, in one place only and with a handle on
the side it was decided on. `Machine.receivers_paired_in_order` states both.
-/

namespace Loopback

/-- What a task runs a receiver with, when its handle is on side `s`. -/
def Task.dispatch? {ρ η : Type} (s : Side) : Task ρ η → Option (Dispatch ρ Nat)
  | .receive t d => if t = s then some d else none
  | .closed _ _ => none

/-- The tasks that a call is about to hand to the executor. -/
def Call.carried {ρ η : Type} : Call ρ η → List (Task ρ η)
  | .submit tasks _ => tasks
  | _ => []

/-- A call that begins has decided on nothing yet. -/
theorem Call.carried_of_isEntry {ρ η : Type} {c : Call ρ η} (h : c.isEntry = true) :
    c.carried = [] := by
  cases c with
  | submit tasks r => simp [isEntry] at h
  | _ => rfl

namespace Link

variable {ρ η : Type} (l : Link ρ η) {pick who : Nat}

/-- Close handlers run no receiver. -/
@[simp] theorem dispatch?_closed (side s : Side) (handler : η) :
    (Task.closed side handler : Task ρ η).dispatch? s = none := rfl

/-- A message that was taken by a waiting receiver is carried to the executor. -/
theorem handover_write {source : Side} {token : Option Nat} {woken : Bool} (s : Side) :
    (((l.step pick who (.write source token woken)).1.tasks ++
        (l.step pick who (.write source token woken)).2.next?.toList.flatMap
          Call.carried).filterMap (Task.dispatch? s)) =
      l.tasks.filterMap (Task.dispatch? s) ++
        (Ledger.ofHistory s (l.events pick who (.write source token woken))).dispatched := by
  obtain ⟨l', e, entry, h, messages, tasks⟩ := l.exists_finishWrite pick who source token woken
  rw [ledger_write l h (congrArg Array.size messages), step, h, tasks_finishWrite, tasks,
    List.filterMap_append]
  congr 1
  cases entry with
  | handed r =>
    by_cases here : source.other = s
    · simp [finishWrite, Progress.next?, Call.carried, Task.dispatch?, Entry.ledger, messages, here]
    · simp [finishWrite, Progress.next?, Call.carried, Task.dispatch?, Ledger.empty, here]
  | _ => by_cases here : source.other = s <;>
      simp [finishWrite, Progress.next?, Call.carried, Entry.ledger, Ledger.empty, here]

/-- A call that has no tasks for the executor only closes an endpoint or wakes writers there. -/
theorem hold?_of_not_handsOver {c : Call ρ η} (idle : c.handsOver = false) {t : Side}
    {hold : Hold ρ} (held : c.hold? l who = some (t, hold)) :
    hold = .closeOff ∨ hold = .wakeWriters := by
  cases c with
  | closeEndpoint side =>
    cases held
    exact .inl rfl
  | interruptWake places =>
    cases places with
    | nil => simp [Call.hold?] at held
    | cons p places =>
      cases held
      exact .inr rfl
  | write | shutDown | receive => simp [Call.handsOver] at idle
  | _ => simp [Call.hold?] at held

/-- A call that has no tasks for the executor leaves everything as it was. -/
theorem handover_idle {c : Call ρ η} (idle : c.handsOver = false) (s : Side) :
    (l.step pick who c).1.tasks = l.tasks ∧
      (l.step pick who c).2.next?.toList.flatMap Call.carried = [] ∧ c.carried = [] ∧
      (Ledger.ofHistory s (l.events pick who c)).dispatched = [] := by
  have other : c.isWrite = false := by
    cases c <;> first | rfl | simp [Call.handsOver] at idle
  refine ⟨?_, ?_, ?_, ?_⟩
  · rw [(step_frame l pick who other).2.2]
    cases c <;> first | rfl | simp [Call.handsOver] at idle
  -- A call that hands nothing over does not go on as one that does.
  · cases hc : (l.step pick who c).2.next? with
    | none => rfl
    | some c' =>
      have follows := follows_step hc
      cases follows with
      | submits can =>
        rw [idle] at can
        exact Bool.noConfusion can
      | _ => rfl
  · cases c <;> first | rfl | simp [Call.handsOver] at idle
  · rw [ledger_step]
    split
    · next t hold held =>
      split
      · rcases hold?_of_not_handsOver l idle held with rfl | rfl <;> rfl
      · rfl
    · rfl

/-- What a step decides is carried on by its caller, and what the caller carried so far goes to the
executor. -/
theorem handover_step (pick who : Nat) (c : Call ρ η) (s : Side) :
    ((l.step pick who c).1.tasks ++
        (l.step pick who c).2.next?.toList.flatMap Call.carried).filterMap (Task.dispatch? s) =
      (l.tasks ++ c.carried).filterMap (Task.dispatch? s) ++
        (Ledger.ofHistory s (l.events pick who c)).dispatched := by
  cases busy : c.handsOver with
  | false =>
    obtain ⟨tasks, next, nothing, decided⟩ := l.handover_idle busy s
    rw [tasks, next, nothing, decided, List.append_nil, List.append_nil]
  | true =>
    cases c with
    | write source token woken =>
      rw [handover_write]
      simp [Call.carried]
    | submit tasks r =>
      match tasks with
      | [] => simp [step, events, Progress.next?, Call.carried, Ledger.ofHistory]
      | [t] => simp [step, events, Progress.next?, Call.carried, Ledger.ofHistory]
      | t :: t' :: ts => simp [step, events, Progress.next?, Call.carried, Ledger.ofHistory]
    | receive side r =>
      rw [ledger_receive, (step_frame l pick who rfl).2.2]
      simp only [step, stepReceive]
      cases ((l.endpoint side).register pick r).2 with
      | given d =>
        by_cases here : side = s <;> simp [Progress.next?, Call.carried, Task.dispatch?,
          Registration.ledger, Ledger.empty, here]
      | _ =>
        by_cases here : side = s <;>
          simp [Progress.next?, Call.carried, Registration.ledger, Ledger.empty, here]
    | shutDown source =>
      rw [ledger_shutDown, (step_frame l pick who rfl).2.2]
      simp only [step, stepShutDown]
      cases (l.endpoint source.other).shutDown.2 with
      | some d =>
        by_cases here : source.other = s <;>
          simp [Progress.next?, Call.carried, Task.dispatch?, Ledger.empty, here]
      | none =>
        by_cases here : source.other = s <;>
          simp [Progress.next?, Call.carried, Ledger.empty, here]
    | closeComplete side =>
      rw [(step_frame l pick who rfl).2.2, ledger_step]
      simp [step, Call.hold?, Progress.next?, Call.carried, Ledger.empty]
    | onClose side handler =>
      rw [(step_frame l pick who rfl).2.2, ledger_step]
      simp only [step, Call.hold?]
      cases ((l.closing side).add handler).2 <;> simp [Progress.next?, Call.carried, Ledger.empty]
    | _ => simp [Call.handsOver] at busy

end Link

namespace Machine

variable {ρ η : Type} {m m' : Machine ρ η}

/-- The dispatches of side `s` that were decided on and are not started: the caller is about to hand
them over, or the executor has them. -/
def underway (s : Side) (m : Machine ρ η) : List (Dispatch ρ Nat) :=
  (m.link.tasks ++ m.calls.flatMap fun x => x.2.carried).filterMap (Task.dispatch? s)

/-- The dispatches of side `s` that were started. -/
def started (s : Side) (h : List (Event ρ η)) : List (Dispatch ρ Nat) :=
  h.filterMap (Event.started? s)

/-- An operation on the endpoint of `s` and what it adds to the ledger there, or neither. -/
theorem Moves.ledger {mv : Move ρ η} {es : List (Event ρ η)} (hm : Moves m mv m' es) (s : Side) :
    (m'.link.endpoint s = m.link.endpoint s ∧ Ledger.ofHistory s es = .empty) ∨
      ∃ pick n hold, m'.link.endpoint s = (m.link.endpoint s).after pick n hold ∧
        Ledger.ofHistory s es = (m.link.endpoint s).ledger pick n hold := by
  cases hm with
  | stays | begins | takes => exact .inl ⟨rfl, rfl⟩
  | rouses =>
    rcases m.link.endpoint_rouse _ _ s with same | ⟨i, roused⟩
    · exact .inl ⟨same, rfl⟩
    · exact .inr ⟨0, 0, .rouse i, roused, rfl⟩
  | @steps who pick c rest calls =>
    have endpoint := m.link.endpoint_step pick who c s
    have ledger := m.link.ledger_step pick who c s
    cases held : c.hold? m.link who with
    | none =>
      rw [held] at endpoint ledger
      exact .inl ⟨endpoint, ledger⟩
    | some there =>
      obtain ⟨t, hold⟩ := there
      by_cases here : s = t
      · subst here
        simp only [held, if_true] at endpoint ledger
        exact .inr ⟨_, _, hold, endpoint, ledger⟩
      · simp only [held, here, if_false] at endpoint ledger
        exact .inl ⟨endpoint, ledger⟩

/-- The messages that the endpoint of `s` took, up to now, are different ones. -/
structure Numbered (s : Side) (h : List (Event ρ η)) (m : Machine ρ η) : Prop where
  below : ∀ n ∈ (Ledger.ofHistory s h).delivered, n < m.link.messages.size
  distinct : (Ledger.ofHistory s h).delivered.Nodup

/-- The events of a move that is not a step of a caller are in no ledger. -/
theorem Numbered.of_same {s : Side} {h es : List (Event ρ η)} (numbered : m.Numbered s h)
    (none : (Ledger.ofHistory s es).delivered = [])
    (size : m.link.messages.size ≤ m'.link.messages.size) : m'.Numbered s (h ++ es) := by
  have same : (Ledger.ofHistory s (h ++ es)).delivered = (Ledger.ofHistory s h).delivered := by
    rw [Ledger.ofHistory_append, Ledger.append, none, List.append_nil]
  refine ⟨?_, same ▸ numbered.distinct⟩
  intro n hn
  rw [same] at hn
  exact Nat.lt_of_lt_of_le (numbered.below n hn) size

theorem Numbered.of_moves {s : Side} {h es : List (Event ρ η)} (numbered : m.Numbered s h)
    {mv : Move ρ η} (hm : Moves m mv m' es) : m'.Numbered s (h ++ es) := by
  cases hm with
  | stays | begins | takes => exact numbered.of_same rfl (Nat.le_refl _)
  | rouses =>
    apply numbered.of_same rfl
    rw [Link.size_rouse]
  | @steps who pick c rest calls =>
    rcases m.link.delivered_step pick who c s with ⟨none, size⟩ | ⟨one, size⟩
    · exact numbered.of_same none size
    -- The new message is numbered above all that were taken before.
    · have more : (Ledger.ofHistory s (h ++ m.link.events pick who c)).delivered =
          (Ledger.ofHistory s h).delivered ++ [m.link.messages.size] := by
        rw [Ledger.ofHistory_append, Ledger.append, one]
      constructor
      · intro n hn
        rw [more] at hn
        show n < (m.link.step pick who c).1.messages.size
        rw [size]
        rcases List.mem_append.1 hn with old | new
        · exact Nat.lt_succ_of_lt (numbered.below n old)
        · rw [List.mem_singleton.1 new]
          exact Nat.lt_succ_self _
      · rw [more, List.nodup_append]
        refine ⟨numbered.distinct, List.nodup_singleton _, ?_⟩
        intro n hn k hk
        rw [List.mem_singleton.1 hk]
        exact Nat.ne_of_lt (numbered.below n hn)

/-- No step of a caller starts a task. -/
theorem started_events (l : Link ρ η) (pick who : Nat) (c : Call ρ η) (s : Side) :
    started s (l.events pick who c) = [] := by
  have handed (tasks : List (Task ρ η)) : started s (Link.dispatches tasks) = [] :=
    filterMap_dispatches (fun _ _ => rfl) tasks
  unfold Link.events
  split
  · rfl
  · exact handed _
  · rfl
  · exact handed _
  · exact handed _
  · split
    · exact filterMap_stream (fun _ => rfl) _
    · rfl
  · rfl

/-- What is under way, with the calls of some callers apart. -/
theorem underway_perm {l : Link ρ η} {calls front rest : List (Nat × Call ρ η)} (s : Side)
    (h : calls.Perm (front ++ rest)) :
    (underway s ⟨l, calls⟩).Perm
      ((l.tasks ++ front.flatMap fun x => x.2.carried).filterMap (Task.dispatch? s) ++
        (rest.flatMap fun x => x.2.carried).filterMap (Task.dispatch? s)) := by
  have apart := h.flatMap_right fun x => x.2.carried
  rw [List.flatMap_append] at apart
  rw [← List.filterMap_append, List.append_assoc]
  exact (apart.append_left l.tasks).filterMap _

theorem started?_started (s : Side) (t : Task ρ η) :
    Event.started? s (.started t) = t.dispatch? s := by
  cases t <;> rfl

/-- Every dispatch is in one place only: decided on and under way, or started. -/
theorem handover_moves {s : Side} {h es : List (Event ρ η)}
    (once : (started s h ++ m.underway s).Perm (Ledger.ofHistory s h).dispatched) {mv : Move ρ η}
    (hm : Moves m mv m' es) :
    (started s (h ++ es) ++ m'.underway s).Perm (Ledger.ofHistory s (h ++ es)).dispatched := by
  cases hm with
  | stays =>
    rw [List.append_nil]
    exact once
  | begins idle entry free =>
    rw [List.append_nil]
    have carried := Call.carried_of_isEntry entry
    simpa [underway, carried] using once
  | rouses now =>
    rw [List.append_nil, underway, Link.tasks_rouse]
    exact once
  | @takes i t found =>
    obtain ⟨hi, rfl⟩ := List.getElem?_eq_some_iff.1 found
    -- The task leaves the queue of the executor just as it is started.
    have taken : m.link.tasks.Perm (m.link.tasks[i] :: m.link.tasks.eraseIdx i) :=
      (List.getElem_cons_eraseIdx_perm hi).symm
    have gone := (taken.append_right (m.calls.flatMap fun x => x.2.carried)).filterMap
      (Task.dispatch? s)
    have moved : (started s (h ++ [Event.started m.link.tasks[i]]) ++
        underway s ⟨{ m.link with tasks := m.link.tasks.eraseIdx i }, m.calls⟩).Perm
        (started s h ++ m.underway s) := by
      rw [started, List.filterMap_append, List.append_assoc]
      refine List.Perm.append_left _ (List.Perm.trans ?_ gone.symm)
      rw [List.cons_append, List.filterMap_cons, List.filterMap_cons, started?_started]
      cases m.link.tasks[i].dispatch? s <;> exact .refl _
    have none : (Ledger.ofHistory s [Event.started m.link.tasks[i]]).dispatched = [] := rfl
    rw [Ledger.ofHistory_append, Ledger.append, none, List.append_nil]
    exact moved.trans once
  | @steps who pick c rest calls now awake next =>
    have apart : m.calls.Perm ([(who, c)] ++ rest) := now
    have before : (m.underway s).Perm _ := underway_perm s apart
    have after := underway_perm (l := (m.link.step pick who c).1) s next
    rw [List.flatMap_map, m.link.handover_step pick who c s] at after
    rw [List.flatMap_singleton] at before
    rw [started, List.filterMap_append, Ledger.ofHistory_append, Ledger.append]
    rw [← started, ← started, started_events, List.append_nil]
    -- Up to order both sides are sums of the same lists.
    rw [← Multiset.coe_eq_coe] at once before after ⊢
    simp only [← Multiset.coe_add] at once before after ⊢
    rw [after, ← once, before]
    ac_rfl

/-! ## Every run -/

section Run

variable (config : Config) (first : String) (second : Option String) (tokens signals : Nat)
  (schedule : List (Move ρ η)) (s : Side)

theorem paired_run :
    ∃ ended, Paired
      (Ledger.ofHistory s ((fresh config first second tokens signals).history schedule)) ended
      (((fresh config first second tokens signals).run schedule).link.endpoint s) := by
  refine run_induction
    (P := fun h m => ∃ ended, Paired (Ledger.ofHistory s h) ended (m.link.endpoint s))
    (orderly_fresh config first second tokens signals) ?_ ?_ schedule
  · rw [endpoint_fresh]
    exact ⟨[], Paired.start _⟩
  · rintro h m mv m' es - ⟨ended, paired⟩ one
    rw [Ledger.ofHistory_append]
    rcases one.ledger s with ⟨same, none⟩ | ⟨pick, n, hold, after, added⟩
    · rw [same, none, Ledger.append_empty]
      exact ⟨ended, paired⟩
    · rw [after, added]
      exact paired.after pick n hold

theorem numbered_run :
    ((fresh config first second tokens signals).run schedule).Numbered s
      ((fresh config first second tokens signals).history schedule) :=
  run_induction (P := fun h m => m.Numbered s h) (orderly_fresh config first second tokens signals)
    ⟨fun _ hn => absurd hn List.not_mem_nil, List.nodup_nil⟩
    (fun _ numbered one => numbered.of_moves one) schedule

theorem handover_run :
    (started s ((fresh config first second tokens signals).history schedule) ++
        ((fresh config first second tokens signals).run schedule).underway s).Perm
      (Ledger.ofHistory s
        ((fresh config first second tokens signals).history schedule)).dispatched :=
  run_induction
    (P := fun h m => (started s h ++ m.underway s).Perm (Ledger.ofHistory s h).dispatched)
    (orderly_fresh config first second tokens signals) (.refl _)
    (fun _ once one => handover_moves once one) schedule

end Run

/-- Messages and receivers are paired first with first, along every schedule. The dispatches decided
on for `s` pair the j-th receiver registered there with the j-th message delivered there, in order,
followed by receivers that were told the end; messages nobody has asked for are queued, and one
receiver without a message may wait. No two deliveries are of the same message, and each dispatch is
run at most once, with a handle on `s`. -/
theorem receivers_paired_in_order (config : Config) (first : String) (second : Option String)
    (tokens signals : Nat) (schedule : List (Move ρ η)) (s : Side) :
    let m := (fresh config first second tokens signals : Machine ρ η)
    let g := Ledger.ofHistory s (m.history schedule)
    (∃ ended, Paired g ended ((m.run schedule).link.endpoint s)) ∧ g.delivered.Nodup ∧
      (started s (m.history schedule) ++ (m.run schedule).underway s).Perm g.dispatched := by
  intro m g
  refine ⟨paired_run .., ?_, handover_run ..⟩
  exact (numbered_run config first second tokens signals schedule s).distinct

end Machine

end Loopback
