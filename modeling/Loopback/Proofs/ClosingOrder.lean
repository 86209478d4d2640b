import Loopback.Proofs.Journal
import Loopback.Proofs.Occupancy
import Mathlib.Algebra.GroupWithZero.Nat

/-!
# A side closes once, in order

Closing a side takes five steps: the first caller to begin carries out the other four, and everybody
else finds the side no longer open. `Machine.ClosesOnce` says of a side and of the journal so far
how far that has got: who asked for it, which of the four parts are done and by whom, and who is
about to do the next one. A context counts the closures that it was told of (`Machine.Tallied`), so
its count follows from the same journal. `Machine.close_once_in_order` puts together what holds
after every schedule.
-/

namespace Loopback

/-- The parts of closing a side, after the phase has left `opened`. -/
inductive CloseStage where
  /-- The endpoint takes no further message. -/
  | endpoint
  /-- That is put in the log. -/
  | report
  /-- The context of the other side is told. -/
  | notify
  /-- The phase becomes `closed`. -/
  | complete
  deriving DecidableEq, Repr

namespace CloseStage

/-- The parts in their order. -/
def all : List CloseStage := [.endpoint, .report, .notify, .complete]

/-- The parts that come before this one. -/
def before : CloseStage → List CloseStage
  | .endpoint => []
  | .report => [.endpoint]
  | .notify => [.endpoint, .report]
  | .complete => [.endpoint, .report, .notify]

/-- The part that follows. -/
def next? : CloseStage → Option CloseStage
  | .endpoint => some .report
  | .report => some .notify
  | .notify => some .complete
  | .complete => none

theorem before_next {stage stage' : CloseStage} (h : stage.next? = some stage') :
    stage'.before = stage.before ++ [stage] := by
  cases stage <;> cases h <;> rfl

theorem all_eq {stage : CloseStage} (h : stage.next? = none) :
    all = stage.before ++ [stage] := by
  cases stage with
  | complete => rfl
  | _ => cases h

end CloseStage

namespace Closing

variable {η : Type} {c : Closing η}

/-- Nobody sleeps where the close is complete. -/
def Quiet (c : Closing η) : Prop := c.phase = .closed → c.finished.asleep = []

theorem Quiet.begin (h : c.Quiet) : c.begin.1.Quiet := by
  unfold Closing.begin
  split
  · intro closed
    cases closed
  · exact h

theorem quiet_complete (c : Closing η) : c.complete.1.Quiet := fun _ => rfl

theorem Quiet.add (h : c.Quiet) (handler : η) : (c.add handler).1.Quiet := by
  unfold Closing.add
  split <;> exact h

/-- Whoever comes when the close is complete does not wait. -/
theorem Quiet.wait (h : c.Quiet) (who : Nat) : (c.wait who).1.Quiet := by
  unfold Closing.wait
  simp only
  split
  · exact h
  · next early =>
    intro closed
    exact absurd closed early

end Closing

/-- A side that is no longer open begins no second close, and a closed one stays closed. -/
inductive Phase.Onward : Phase → Phase → Prop where
  | stays (p : Phase) : Onward p p
  | begins : Onward .opened .closing
  | completes : Onward .closing .closed

namespace Call

variable {ρ η : Type} {s : Side}

/-- The part of closing `s` that the next step of the call carries out. -/
def closeStage? (s : Side) : Call ρ η → Option CloseStage
  | .closeEndpoint t => if t = s then some .endpoint else none
  | .closeReport t => if t = s then some .report else none
  | .closeNotify t => if t = s then some .notify else none
  | .closeComplete t => if t = s then some .complete else none
  | _ => none

/-- The call asks for `s` to be closed. -/
def asksClose (s : Side) : Call ρ η → Bool
  | .close t => t = s
  | _ => false

theorem closeStage?_of_isEntry {c : Call ρ η} (entry : c.isEntry = true) :
    c.closeStage? s = none := by
  cases c with
  | closeEndpoint | closeReport | closeNotify | closeComplete => simp [isEntry] at entry
  | _ => rfl

theorem asksClose_of_closeStage? {c : Call ρ η} {stage : CloseStage}
    (h : c.closeStage? s = some stage) : c.asksClose s = false := by
  cases c with
  | close t => cases h
  | _ => rfl

/-- A call that closes goes on with the next part, and only one that asks for it starts. -/
theorem Follows.closeStage {c c' : Call ρ η} (h : c.Follows c') :
    c'.closeStage? s = (c.closeStage? s).bind CloseStage.next? ∨
      (c = .close s ∧ c' = .closeEndpoint s) := by
  cases h with
  | submits can =>
    left
    cases c with
    | closeComplete t => by_cases here : t = s <;> simp [closeStage?, CloseStage.next?, here]
    | closeEndpoint | closeReport | closeNotify => simp [handsOver] at can
    | _ => rfl
  | @closes t =>
    by_cases here : t = s
    · subst here
      exact .inr ⟨rfl, rfl⟩
    · exact .inl (by simp [closeStage?, here])
  | @reports t | @completes t | @notifies t =>
    left
    by_cases here : t = s <;> simp [closeStage?, CloseStage.next?, here]
  | _ => exact .inl rfl

end Call

namespace Link

variable {ρ η : Type} {l : Link ρ η} {pick who : Nat} {s : Side}

/-- The phase of a side changes when a call begins to close it and when one completes that. -/
theorem phase_step (c : Call ρ η) :
    ((l.step pick who c).1.closing s).phase =
      match c.closeStage? s with
      | some .complete => .closed
      | _ =>
        if c.asksClose s = true ∧ (l.closing s).phase = .opened then .closing
        else (l.closing s).phase := by
  rw [closing_step]
  cases c with
  | close t =>
    by_cases here : s = t
    · subst here
      cases phase : (l.closing s).phase <;>
        simp [Call.closing?, Call.closeStage?, Call.asksClose, Closing.begin, phase]
    · have apart : t ≠ s := fun same => here same.symm
      simp [Call.closing?, Call.closeStage?, Call.asksClose, here, apart]
  | closeComplete t =>
    by_cases here : s = t
    · subst here
      simp [Call.closing?, Call.closeStage?, Closing.complete]
    · have apart : t ≠ s := fun same => here same.symm
      simp [Call.closing?, Call.closeStage?, Call.asksClose, here, apart]
  | onClose t h =>
    by_cases here : s = t
    · subst here
      cases phase : (l.closing s).phase <;>
        simp [Call.closing?, Call.closeStage?, Call.asksClose, Closing.add, phase]
    · simp [Call.closing?, Call.closeStage?, Call.asksClose, here]
  | awaitClosed t =>
    by_cases here : s = t
    · subst here
      cases phase : (l.closing s).phase <;>
        simp [Call.closing?, Call.closeStage?, Call.asksClose, Closing.wait, phase]
    · simp [Call.closing?, Call.closeStage?, Call.asksClose, here]
  | closeEndpoint t | closeReport t | closeNotify t =>
    by_cases here : t = s <;> simp [Call.closing?, Call.closeStage?, Call.asksClose, here]
  | _ => simp [Call.closing?, Call.closeStage?, Call.asksClose]

/-- A part of closing a side leads to the next one, and the first follows when the side was open. -/
theorem closeStage_step (c : Call ρ η) :
    (l.step pick who c).2.next?.bind (Call.closeStage? s) =
      match c.closeStage? s with
      | some stage => stage.next?
      | none =>
        if c.asksClose s = true ∧ (l.closing s).phase = .opened then some .endpoint else none := by
  cases c with
  | close t =>
    by_cases here : t = s
    · subst here
      cases phase : (l.closing t).phase <;>
        simp [step, Closing.begin, phase, Progress.next?, Call.closeStage?, Call.asksClose]
    · cases phase : (l.closing t).phase <;>
        simp [step, Closing.begin, phase, Progress.next?, Call.closeStage?, Call.asksClose, here]
  | closeEndpoint t | closeReport t | closeNotify t | closeComplete t =>
    by_cases here : t = s <;>
      simp [step, Progress.next?, Call.closeStage?, CloseStage.next?, Call.asksClose, here]
  | _ =>
    -- No other call goes on as one that closes.
    cases onward : (l.step pick who _).2.next? with
    | none => rfl
    | some c' =>
      rcases (follows_step onward).closeStage (s := s) with same | ⟨asks, -⟩
      · exact same
      · cases asks

theorem phase_rouse (c : Call ρ η) :
    ((l.rouse who c).closing s).phase = (l.closing s).phase := by
  rcases l.closing_rouse who c s with same | roused
  · rw [same]
  · rw [roused]

end Link

namespace Machine

variable {ρ η : Type} {m m' : Machine ρ η} {s : Side} {j : List (Taken ρ η)}

/-! ## Who closes a side -/

/-- The callers that asked for `s` to be closed, in their order. -/
def closers (s : Side) (j : List (Taken ρ η)) : List Nat :=
  (j.filter (·.call.asksClose s)).map Taken.caller

/-- The part of closing `s` that a caller is about to carry out. -/
def closerAt? (s : Side) (x : Nat × Call ρ η) : Option (Nat × CloseStage) :=
  (x.2.closeStage? s).map (x.1, ·)

/-- The parts of closing `s` that were carried out, and by whom. -/
def closeActions (s : Side) (j : List (Taken ρ η)) : List (Nat × CloseStage) :=
  j.filterMap fun t => closerAt? s (t.caller, t.call)

/-- The callers that are about to carry out a part of closing `s`. -/
def closersAtWork (s : Side) (m : Machine ρ η) : List (Nat × CloseStage) :=
  m.calls.filterMap (closerAt? s)

/-- How far closing `s` has got: nobody asked for it; or the first who did has carried out some
parts of it, in their order, and is about to carry out the next one; or that caller has carried out
all of them. Nobody else carries out any. -/
inductive ClosesOnce (s : Side) (j : List (Taken ρ η)) (m : Machine ρ η) : Prop where
  | untouched (phase : (m.link.closing s).phase = .opened) (asked : closers s j = [])
      (acted : closeActions s j = []) (nobody : m.closersAtWork s = [])
  | underway {who : Nat} {stage : CloseStage} {others : List Nat}
      (phase : (m.link.closing s).phase = .closing) (asked : closers s j = who :: others)
      (acted : closeActions s j = stage.before.map (who, ·))
      (alone : m.closersAtWork s = [(who, stage)])
  | completed {who : Nat} {others : List Nat} (phase : (m.link.closing s).phase = .closed)
      (asked : closers s j = who :: others)
      (acted : closeActions s j = CloseStage.all.map (who, ·)) (nobody : m.closersAtWork s = [])

/-- A move that takes no step leaves everything as it was. -/
theorem ClosesOnce.of_same (h : ClosesOnce s j m)
    (phase : (m'.link.closing s).phase = (m.link.closing s).phase)
    (atWork : m'.closersAtWork s = m.closersAtWork s) : ClosesOnce s j m' := by
  cases h with
  | untouched opened asked acted nobody =>
    exact .untouched (phase.trans opened) asked acted (atWork.trans nobody)
  | underway closing asked acted alone =>
    exact .underway (phase.trans closing) asked acted (atWork.trans alone)
  | completed closed asked acted nobody =>
    exact .completed (phase.trans closed) asked acted (atWork.trans nobody)

section Steps

variable {who pick : Nat} {c : Call ρ η} {rest calls : List (Nat × Call ρ η)}

theorem closers_snoc (j : List (Taken ρ η)) (t : Taken ρ η) :
    closers s (j ++ [t]) = closers s j ++ if t.call.asksClose s then [t.caller] else [] := by
  rw [closers, List.filter_append, List.map_append, ← closers]
  cases asks : t.call.asksClose s <;> simp [asks]

theorem closeActions_snoc (j : List (Taken ρ η)) (t : Taken ρ η) :
    closeActions s (j ++ [t]) = closeActions s j ++ (closerAt? s (t.caller, t.call)).toList :=
  filterMap_snoc _ j t

/-- Who is about to close something is the caller of the step, or somebody else as before. -/
theorem atWork_perm (l : Link ρ η) (now : m.calls.Perm ((who, c) :: rest)) :
    (m.closersAtWork s).Perm ((closerAt? s (who, c)).toList ++ rest.filterMap (closerAt? s)) ∧
    ∀ next? : Option (Call ρ η), calls.Perm (next?.toList.map (who, ·) ++ rest) →
      (closersAtWork s ⟨l, calls⟩).Perm
        ((next?.bind fun c' => closerAt? s (who, c')).toList ++ rest.filterMap (closerAt? s)) := by
  constructor
  · refine (now.filterMap _).trans ?_
    cases found : closerAt? s (who, c) <;> simp [found]
  · intro next? next
    refine (next.filterMap _).trans ?_
    rw [List.filterMap_append]
    cases next? with
    | none => exact .refl _
    | some c' => cases found : closerAt? s (who, c') <;> simp [found]

/-- A caller carries out a part of closing `s`. It is the only one, and the next part is its too. -/
theorem ClosesOnce.carries (h : ClosesOnce s j m) {stage : CloseStage}
    (part : c.closeStage? s = some stage) {others : List (Nat × CloseStage)}
    {outcome : Progress (Call ρ η) Result}
    (before : (m.closersAtWork s).Perm ((who, stage) :: others))
    (phase : (m'.link.closing s).phase =
      if stage = .complete then .closed else (m.link.closing s).phase)
    (after : (m'.closersAtWork s).Perm ((stage.next?.map (who, ·)).toList ++ others)) :
    ClosesOnce s (j ++ [⟨who, c, outcome⟩]) m' := by
  have asked : closers s (j ++ [⟨who, c, outcome⟩]) = closers s j := by
    simp [closers_snoc, Call.asksClose_of_closeStage? part]
  have acted : closeActions s (j ++ [⟨who, c, outcome⟩]) = closeActions s j ++ [(who, stage)] := by
    simp [closeActions_snoc, closerAt?, part]
  cases h with
  | untouched opened asked' acted' nobody | completed closed asked' acted' nobody =>
    rw [nobody] at before
    exact absurd before.length_eq (by simp)
  | underway closing asked' acted' alone =>
    -- The caller at work is the one that takes this step.
    rw [alone] at before
    obtain ⟨same, rfl⟩ := List.cons.inj (List.perm_singleton.1 before.symm)
    obtain ⟨rfl, rfl⟩ := Prod.mk.inj same
    rw [List.append_nil] at after
    cases onward : stage.next? with
    | none =>
      rw [onward] at after
      have final : stage = .complete := by cases stage <;> first | rfl | cases onward
      refine .completed (phase.trans (if_pos final)) (asked.trans asked') ?_ after.eq_nil
      rw [acted, acted', CloseStage.all_eq onward, List.map_append]
      rfl
    | some stage' =>
      rw [onward] at after
      have early : stage ≠ .complete := by
        rintro rfl
        cases onward
      refine .underway (phase.trans ((if_neg early).trans closing)) (asked.trans asked') ?_
        (List.perm_singleton.1 after)
      rw [acted, acted', CloseStage.before_next onward, List.map_append]
      rfl

/-- A caller does something else. The first one that asks for `s` to be closed is about to begin. -/
theorem ClosesOnce.asks (h : ClosesOnce s j m) (other : c.closeStage? s = none)
    {outcome : Progress (Call ρ η) Result}
    (phase : (m'.link.closing s).phase =
      if c.asksClose s = true ∧ (m.link.closing s).phase = .opened then .closing
      else (m.link.closing s).phase)
    (after : (m'.closersAtWork s).Perm
      ((if c.asksClose s = true ∧ (m.link.closing s).phase = .opened then
        [(who, CloseStage.endpoint)] else []) ++ m.closersAtWork s)) :
    ClosesOnce s (j ++ [⟨who, c, outcome⟩]) m' := by
  have asked := closers_snoc (s := s) j ⟨who, c, outcome⟩
  have acted : closeActions s (j ++ [⟨who, c, outcome⟩]) = closeActions s j := by
    simp [closeActions_snoc, closerAt?, other]
  cases h with
  | untouched opened asked' acted' nobody =>
    rw [asked'] at asked
    rw [nobody, List.append_nil] at after
    cases asks : c.asksClose s with
    | true =>
      simp only [asks, opened, and_self, if_true] at phase after asked
      have none : closeActions s (j ++ [⟨who, c, outcome⟩]) =
          CloseStage.endpoint.before.map (who, ·) := acted.trans acted'
      exact .underway phase asked none (List.perm_singleton.1 after)
    | false =>
      simp only [asks, Bool.false_eq_true, false_and, if_false] at phase after asked
      exact .untouched (phase.trans opened) asked (acted.trans acted') after.eq_nil
  | underway closing asked' acted' alone =>
    simp only [closing, reduceCtorEq, and_false, if_false, List.nil_append] at phase after
    rw [alone] at after
    rw [asked', List.cons_append] at asked
    exact .underway phase asked (acted.trans acted') (List.perm_singleton.1 after)
  | completed closed asked' acted' nobody =>
    simp only [closed, reduceCtorEq, and_false, if_false, List.nil_append] at phase after
    rw [nobody] at after
    rw [asked', List.cons_append] at asked
    exact .completed phase asked (acted.trans acted') after.eq_nil

theorem ClosesOnce.of_step (h : ClosesOnce s j m) (now : m.calls.Perm ((who, c) :: rest))
    (next : calls.Perm ((m.link.step pick who c).2.next?.toList.map (who, ·) ++ rest)) :
    ClosesOnce s (j ++ [⟨who, c, (m.link.step pick who c).2⟩])
      ⟨(m.link.step pick who c).1, calls⟩ := by
  obtain ⟨before, after⟩ := atWork_perm (s := s) (m.link.step pick who c).1 now
  replace after := after _ next
  have phase : ((m.link.step pick who c).1.closing s).phase = _ := Link.phase_step c
  have onward : (m.link.step pick who c).2.next?.bind (Call.closeStage? s) = _ :=
    Link.closeStage_step c
  have mine : ((m.link.step pick who c).2.next?.bind fun c' => closerAt? s (who, c')) =
      ((m.link.step pick who c).2.next?.bind (Call.closeStage? s)).map (who, ·) := by
    rw [Option.map_bind]
    rfl
  rw [mine, onward] at after
  cases part : c.closeStage? s with
  | some stage =>
    simp only [closerAt?, part, Option.map_some, Option.toList_some, List.singleton_append]
      at before
    simp only [part, Call.asksClose_of_closeStage? part] at phase
    refine h.carries part before ?_ ?_
    · rw [phase]
      cases stage <;> rfl
    · simpa only [part] using after
  | none =>
    simp only [closerAt?, part, Option.map_none, Option.toList_none, List.nil_append] at before
    simp only [part] at phase after
    refine h.asks part phase (after.trans ?_)
    refine List.Perm.trans ?_ (before.symm.append_left _)
    split <;> exact .refl _

/-- Every move keeps to one close of a side. -/
theorem ClosesOnce.of_advances {t? : Option (Taken ρ η)} (h : ClosesOnce s j m)
    (one : Advances m m' t?) : ClosesOnce s (j ++ t?.toList) m' := by
  cases one with
  | steps now awake next => exact h.of_step now next
  | stays | takes =>
    rw [Option.toList_none, List.append_nil]
    exact h.of_same rfl rfl
  | rouses now =>
    rw [Option.toList_none, List.append_nil]
    exact h.of_same (Link.phase_rouse _) rfl
  | begins idle entry =>
    rw [Option.toList_none, List.append_nil]
    refine h.of_same rfl ?_
    simp [closersAtWork, closerAt?, Call.closeStage?_of_isEntry entry]

end Steps

/-! ## What others see of a close -/

/-- How often the context of the other side was told that `s` closed. -/
def notified (s : Side) (j : List (Taken ρ η)) : Nat :=
  (closeActions s j).countP (·.2 == .notify)

/-- One if `s` is closed, and none otherwise. -/
def closedCount (s : Side) (m : Machine ρ η) : Nat :=
  if (m.link.closing s).phase = .closed then 1 else 0

/-- How often a context was told of a closure: side `s` tells the context of its other side. -/
def heard (l : Link ρ η) (x : Side) (j : List (Taken ρ η)) : Nat :=
  ([Side.a, .b].map fun s => if l.owner s.other = x then notified s j else 0).sum

/-- What a close leaves behind that others see: the endpoint takes no message once its part was
carried out, nobody waits for a close that is complete, and the contexts have counted what they were
told. -/
structure Tallied (j : List (Taken ρ η)) (m : Machine ρ η) : Prop where
  shut : ∀ s, .endpoint ∈ (closeActions s j).map Prod.snd → (m.link.endpoint s).closed = true
  awake : ∀ s, (m.link.closing s).Quiet
  counted : ∀ x, (m.link.contexts.get x).remoteClosed = heard m.link x j

theorem heard_congr {l l' : Link ρ η} (shared : l'.shared = l.shared) (x : Side)
    (j : List (Taken ρ η)) : heard l' x j = heard l x j := by
  unfold heard Link.owner
  rw [shared]

theorem notified_snoc (j : List (Taken ρ η)) (t : Taken ρ η) :
    notified s (j ++ [t]) =
      notified s j + if t.call.closeStage? s = some .notify then 1 else 0 := by
  rw [notified, closeActions_snoc, List.countP_append, ← notified]
  cases found : t.call.closeStage? s with
  | none => simp [closerAt?, found]
  | some stage => cases stage <;> simp [closerAt?, found]

/-- A caller tells the context of the other side. -/
theorem heard_notify (l : Link ρ η) (x t : Side) (who : Nat)
    (outcome : Progress (Call ρ η) Result) :
    heard l x (j ++ [⟨who, .closeNotify t, outcome⟩]) =
      heard l x j + if l.owner t.other = x then 1 else 0 := by
  cases t with
  | a =>
    by_cases told : l.owner Side.a.other = x <;>
      simp [heard, notified_snoc, Call.closeStage?, told, Nat.add_right_comm]
  | b =>
    by_cases told : l.owner Side.b.other = x <;>
      simp [heard, notified_snoc, Call.closeStage?, told, Nat.add_assoc]

theorem heard_other (l : Link ρ η) (x : Side) {t : Taken ρ η}
    (other : ∀ s, t.call.closeStage? s ≠ some .notify) : heard l x (j ++ [t]) = heard l x j := by
  simp [heard, notified_snoc, other]

/-- A move that takes no step leaves everything as it was, but for who sleeps. -/
theorem Tallied.of_same (h : Tallied j m)
    (shut : ∀ s, (m.link.endpoint s).closed = true → (m'.link.endpoint s).closed = true)
    (phase : ∀ s, (m'.link.closing s).phase = (m.link.closing s).phase)
    (fewer : ∀ s,
      (m'.link.closing s).finished.asleep.Sublist (m.link.closing s).finished.asleep)
    (contexts : m'.link.contexts = m.link.contexts ∧ m'.link.shared = m.link.shared) :
    Tallied j m' where
  shut s done := shut s (h.shut s done)
  awake s closed := by
    have nobody := h.awake s ((phase s).symm.trans closed)
    exact List.sublist_nil.1 (nobody ▸ fewer s)
  counted x := by rw [contexts.1, h.counted x, heard_congr contexts.2]

end Machine

namespace Link

variable {ρ η : Type} {l : Link ρ η} {pick who : Nat} {s : Side}

/-- An endpoint that is closed stays closed, and the part of a close that is its own closes it. -/
theorem closed_step {c : Call ρ η}
    (shut : (l.endpoint s).closed = true ∨ c.closeStage? s = some .endpoint) :
    ((l.step pick who c).1.endpoint s).closed = true := by
  rcases shut with before | now
  · rw [endpoint_step]
    split
    · split
      · next here => exact Endpoint.closed_after pick _ (here ▸ before) _
      · exact before
    · exact before
  · cases c with
    | closeEndpoint t =>
      obtain rfl : t = s := by
        by_cases here : t = s
        · exact here
        · simp [Call.closeStage?, here] at now
      simp [step, Endpoint.closeOff]
    | closeReport t | closeNotify t | closeComplete t =>
      by_cases here : t = s <;> simp [Call.closeStage?, here] at now
    | _ => cases now

/-- A step leaves nobody asleep where a close is complete. -/
theorem quiet_step {c : Call ρ η} (h : ∀ s, (l.closing s).Quiet) :
    ((l.step pick who c).1.closing s).Quiet := by
  rw [closing_step]
  split
  · next t closing changed =>
    split
    · cases c with
      | close => cases changed; exact (h _).begin
      | closeComplete => cases changed; exact Closing.quiet_complete _
      | onClose => cases changed; exact (h _).add _
      | awaitClosed => cases changed; exact (h _).wait _
      | _ => cases changed
    · exact h s
  · exact h s

end Link

namespace Machine

variable {ρ η : Type} {m m' : Machine ρ η} {s : Side} {j : List (Taken ρ η)}

theorem Tallied.of_step (h : Tallied j m) {who pick : Nat} {c : Call ρ η}
    (calls : List (Nat × Call ρ η)) :
    Tallied (j ++ [⟨who, c, (m.link.step pick who c).2⟩])
      ⟨(m.link.step pick who c).1, calls⟩ where
  shut s done := by
    apply Link.closed_step
    rw [closeActions_snoc, List.map_append, List.mem_append] at done
    rcases done with before | now
    · exact .inl (h.shut s before)
    · cases part : c.closeStage? s with
      | none => simp [closerAt?, part] at now
      | some stage =>
        simp only [closerAt?, part, Option.map_some, Option.toList_some, List.map_cons,
          List.map_nil, List.mem_singleton] at now
        exact .inr (congrArg some now.symm)
  awake _ := Link.quiet_step h.awake
  counted x := by
    obtain ⟨contexts, shared⟩ := m.link.contexts_step pick who c
    rw [heard_congr shared, contexts]
    cases c with
    | closeNotify t =>
      rw [heard_notify, ← h.counted x]
      by_cases told : m.link.owner t.other = x
      · subst told
        simp [Link.notifyRemoteClosed, Link.report, Link.context, Context.notify]
      · simp [Link.notifyRemoteClosed, Link.report, told,
          Both.get_set_of_ne _ (fun same => told same.symm)]
    | closeEndpoint t | closeReport t | closeComplete t =>
      rw [heard_other _ _ (by intro s; by_cases here : t = s <;> simp [Call.closeStage?, here])]
      exact h.counted x
    | _ =>
      rw [heard_other _ _ (fun s => Option.some_ne_none _ ∘ Eq.symm)]
      exact h.counted x

theorem Tallied.of_advances {t? : Option (Taken ρ η)} (h : Tallied j m)
    (one : Advances m m' t?) : Tallied (j ++ t?.toList) m' := by
  cases one with
  | steps now awake next => exact h.of_step _
  | stays | takes | begins =>
    rw [Option.toList_none, List.append_nil]
    exact h.of_same (fun _ => id) (fun _ => rfl) (fun _ => .refl _) ⟨rfl, rfl⟩
  | @rouses who c now =>
    rw [Option.toList_none, List.append_nil]
    refine h.of_same ?_ (fun _ => Link.phase_rouse c) ?_ (m.link.contexts_rouse who c)
    · intro s shut
      rcases m.link.endpoint_rouse who c s with same | ⟨i, roused⟩
      · exact (congrArg Endpoint.closed same).trans shut
      · exact (congrArg Endpoint.closed roused).trans shut
    · intro s
      rcases m.link.closing_rouse who c s with same | roused
      · exact same ▸ .refl _
      · exact roused ▸ Condition.asleep_rouse_sublist _ _

/-! ## Every run -/

/-- The context of the other side is told once of a close that is complete, and not of one that
nobody asked for. -/
theorem ClosesOnce.notified_eq (h : ClosesOnce s j m) (rest : m.closersAtWork s = []) :
    notified s j = m.closedCount s := by
  cases h with
  | untouched opened asked acted nobody => simp [notified, closedCount, acted, opened]
  | underway closing asked acted alone =>
    rw [alone] at rest
    cases rest
  | completed closed asked acted nobody =>
    rw [notified, acted, closedCount, if_pos closed]
    rfl

theorem ClosesOnce.rest_of_closed (h : ClosesOnce s j m)
    (closed : (m.link.closing s).phase = .closed) : m.closersAtWork s = [] := by
  cases h with
  | untouched opened => cases opened.symm.trans closed
  | underway closing => cases closing.symm.trans closed
  | completed closed asked acted nobody => exact nobody

theorem ClosesOnce.shut_of_closed (h : ClosesOnce s j m) (tallied : Tallied j m)
    (closed : (m.link.closing s).phase = .closed) : (m.link.endpoint s).closed = true := by
  apply tallied.shut
  cases h with
  | untouched opened => cases opened.symm.trans closed
  | underway closing => cases closing.symm.trans closed
  | completed closed asked acted nobody => simp [acted, CloseStage.all]

/-- A phase moves on by one at most. -/
theorem ClosesOnce.onward {t? : Option (Taken ρ η)} (h : ClosesOnce s j m)
    (one : Advances m m' t?) :
    Phase.Onward (m.link.closing s).phase (m'.link.closing s).phase := by
  cases one with
  | stays | takes | begins => exact .stays _
  | @rouses who c =>
    show Phase.Onward _ ((m.link.rouse who c).closing s).phase
    rw [Link.phase_rouse]
    exact .stays _
  | @steps who pick c rest calls now =>
    show Phase.Onward _ ((m.link.step pick who c).1.closing s).phase
    rw [Link.phase_step]
    split
    · next part =>
      -- Only the caller that began to close the side can complete that.
      have mine : (who, CloseStage.complete) ∈ m.closersAtWork s := by
        have here : (who, c) ∈ m.calls := now.mem_iff.2 List.mem_cons_self
        exact List.mem_filterMap.2 ⟨_, here, by simp [closerAt?, part]⟩
      cases h with
      | untouched opened asked acted nobody | completed opened asked acted nobody =>
        rw [nobody] at mine
        cases mine
      | underway closing => exact closing ▸ .completes
    · split
      · next first => exact first.2 ▸ .begins
      · exact .stays _

theorem closesOnce_run (config : Config) (first : String) (second : Option String)
    (tokens signals : Nat) (schedule : List (Move ρ η)) (s : Side) :
    ClosesOnce s ((fresh config first second tokens signals).journal schedule)
      ((fresh config first second tokens signals).run schedule) := by
  refine journal_induction (P := ClosesOnce s)
    (orderly_fresh config first second tokens signals) ?_ (fun _ once one => once.of_advances one)
    schedule
  cases s <;> exact .untouched rfl rfl rfl rfl

theorem tallied_run (config : Config) (first : String) (second : Option String)
    (tokens signals : Nat) (schedule : List (Move ρ η)) :
    Tallied ((fresh config first second tokens signals).journal schedule)
      ((fresh config first second tokens signals).run schedule) := by
  refine journal_induction (P := Tallied) (orderly_fresh config first second tokens signals) ?_
    (fun _ tallied one => tallied.of_advances one) schedule
  refine ⟨fun s done => absurd done List.not_mem_nil, fun s => ?_, fun x => ?_⟩
  · cases s <;> exact fun _ => rfl
  · have none : ∀ l : Link ρ η, heard l x [] = 0 := by
      intro l
      simp [heard, notified, closeActions]
    rw [none]
    cases x <;> rfl

theorem shared_run (config : Config) (first : String) (second : Option String)
    (tokens signals : Nat) (schedule : List (Move ρ η)) :
    ((fresh config first second tokens signals).run schedule).link.shared = second.isNone := by
  refine journal_induction (P := fun _ m => m.link.shared = second.isNone)
    (orderly_fresh config first second tokens signals) rfl ?_ schedule
  intro j m m' t? _ same one
  cases one with
  | steps => exact (m.link.contexts_step _ _ _).2.trans same
  | rouses => exact (m.link.contexts_rouse _ _).2.trans same
  | stays | takes | begins => exact same

/-- What the context of a side has heard: of both sides when they share it, and otherwise of the
other side only. -/
theorem heard_owner (l : Link ρ η) (x : Side) (j : List (Taken ρ η)) :
    heard l (l.owner x) j =
      if l.shared then notified .a j + notified .b j else notified x.other j := by
  cases shared : l.shared with
  | true => simp [heard, Link.owner, shared]
  | false => cases x <;> simp [heard, Link.owner, shared, Side.other]

/-- A context has counted what it was told: of both sides if they share it, and otherwise of the
other side. -/
theorem remoteClosed_run (config : Config) (first : String) (second : Option String)
    (tokens signals : Nat) (schedule : List (Move ρ η)) (x : Side) :
    (((fresh config first second tokens signals : Machine ρ η).run schedule).link.context
        x).remoteClosed =
      if second.isSome then
        notified x.other ((fresh config first second tokens signals : Machine ρ η).journal schedule)
      else
        notified .a ((fresh config first second tokens signals : Machine ρ η).journal schedule) +
          notified .b
            ((fresh config first second tokens signals : Machine ρ η).journal schedule) := by
  rw [Link.context, (tallied_run config first second tokens signals schedule).counted, heard_owner,
    shared_run]
  cases second <;> rfl

/-- A caller that waits for a close is answered with its next step if the close is complete, and not
before. -/
theorem step_awaitClosed (orderly : m.Orderly) (quiet : (m.link.closing s).Quiet) {who : Nat}
    (here : (who, .awaitClosed s) ∈ m.calls) (pick : Nat) :
    (m.step who pick).2 =
      if (m.link.closing s).phase = .closed then some (.ok .unit) else none := by
  have call := call?_of_mem orderly here
  split
  · next closed =>
    have awake : m.link.isAsleep who (.awaitClosed s) = false := by
      simp [Link.isAsleep, quiet closed]
    simp [step, call, awake, Link.step, Closing.wait, closed]
  · next early =>
    cases awake : m.link.isAsleep who (.awaitClosed s) with
    | true => simp [step, call, awake]
    | false =>
      cases phase : (m.link.closing s).phase with
      | closed => exact absurd phase early
      | opened | closing => simp [step, call, awake, Link.step, Closing.wait, phase]

/-- A side is asked to be closed once more: that is answered at once, and nothing changes. -/
theorem step_close_again (orderly : m.Orderly) {who : Nat} (here : (who, .close s) ∈ m.calls)
    (late : (m.link.closing s).phase ≠ .opened) (pick : Nat) :
    (m.step who pick).2 = some (.ok .unit) ∧
      ∀ t, (m.step who pick).1.link.closing t = m.link.closing t := by
  have call := call?_of_mem orderly here
  have idle : (m.link.closing s).begin = (m.link.closing s, false) := by
    unfold Closing.begin
    split
    · next early => exact absurd early late
    · rfl
  constructor
  · simp [step, call, Link.isAsleep, Link.step, idle]
  · intro t
    by_cases same : t = s <;>
      simp [step, call, Link.isAsleep, Link.step, idle, Link.closing_setClosing_eq, same]

/-- The contexts and the close states as they were. -/
def SameCloses (l l' : Link ρ η) : Prop :=
  (∀ s, l'.closing s = l.closing s) ∧ ∀ s, l'.context s = l.context s

/-- Stopping the writes of a side has nothing to do with closing one. -/
theorem sameCloses_shutDown (l : Link ρ η) (pick who : Nat) {c : Call ρ η}
    (mere : (∃ source, c = .shutDown source) ∨ ∃ tasks r, c = .submit tasks r) :
    SameCloses l (l.step pick who c).1 := by
  obtain ⟨contexts, shared⟩ := l.contexts_step pick who c
  have closing := l.closing_step pick who c
  rcases mere with ⟨source, rfl⟩ | ⟨tasks, r, rfl⟩ <;>
    exact ⟨closing, fun s => by simp only [Link.context, Link.owner, contexts, shared]⟩

/-- Closing is in order. -/
structure ClosesInOrder (separate : Bool) (j : List (Taken ρ η)) (m : Machine ρ η) : Prop where
  /-- The first caller that asks for a side to be closed does it, and nobody else does. -/
  once : ∀ s, ClosesOnce s j m
  /-- A phase moves on by one at most, whatever happens next. -/
  onward : ∀ s mv, Phase.Onward (m.link.closing s).phase ((m.move mv).link.closing s).phase
  /-- A closed side takes no message, and the context of the other side was told once. -/
  closed : ∀ s, (m.link.closing s).phase = .closed →
    (m.link.endpoint s).closed = true ∧ notified s j = 1
  /-- A context has counted what it was told: of both sides if they share it, and otherwise of the
  other side. -/
  counted : ∀ x, (m.link.context x).remoteClosed =
    if separate then notified x.other j else notified .a j + notified .b j
  /-- Where no close is under way, a context counts the closed sides that report to it. -/
  atRest : (∀ s, m.closersAtWork s = []) → ∀ x, (m.link.context x).remoteClosed =
    if separate then m.closedCount x.other else m.closedCount .a + m.closedCount .b
  /-- Closing a side once more is answered at once. -/
  repeated : ∀ s who, (who, .close s) ∈ m.calls → (m.link.closing s).phase ≠ .opened →
    ∀ pick, (m.step who pick).2 = some (.ok .unit) ∧
      ∀ t, (m.step who pick).1.link.closing t = m.link.closing t
  /-- Nobody sleeps where the close is complete, and whoever waits for it is answered with the next
  step if it is complete, and not before. -/
  awaited : ∀ s, (m.link.closing s).Quiet ∧ ∀ who, (who, .awaitClosed s) ∈ m.calls →
    ∀ pick, (m.step who pick).2 =
      if (m.link.closing s).phase = .closed then some (.ok .unit) else none
  /-- A side is told to be open until somebody begins to close it. -/
  asked : ∀ s who, (who, .isOpen s) ∈ m.calls →
    ∀ pick, (m.step who pick).2 = some (.ok (.flag (closers s j).isEmpty))
  /-- Stopping writes changes no close state and no count. -/
  apart : ∀ c : Call ρ η, ((∃ source, c = .shutDown source) ∨ ∃ tasks r, c = .submit tasks r) →
    ∀ who pick, SameCloses m.link (m.link.step pick who c).1

/-- Closing is in order, after every schedule. -/
theorem close_once_in_order (config : Config) (first : String) (second : Option String)
    (tokens signals : Nat) (schedule : List (Move ρ η)) :
    ClosesInOrder second.isSome ((fresh config first second tokens signals).journal schedule)
      ((fresh config first second tokens signals).run schedule) := by
  have orderly := orderly_run (orderly_fresh (ρ := ρ) (η := η) config first second tokens signals)
    schedule
  have once := closesOnce_run config first second tokens signals schedule
  have tallied := tallied_run config first second tokens signals schedule
  have counted := remoteClosed_run (ρ := ρ) (η := η) config first second tokens signals schedule
  generalize (fresh config first second tokens signals).journal schedule = j,
    (fresh config first second tokens signals).run schedule = m at orderly once tallied counted
  refine {
    once
    onward := fun s mv => (once s).onward (advances orderly mv)
    closed := fun s closed => ⟨(once s).shut_of_closed tallied closed, ?_⟩
    counted
    atRest := ?_
    repeated := fun s who here late => step_close_again orderly here late
    awaited := fun s => ⟨tallied.awake s, fun who here =>
      step_awaitClosed orderly (tallied.awake s) here⟩
    asked := ?_
    apart := fun c mere who pick => sameCloses_shutDown m.link pick who mere }
  · rw [(once s).notified_eq ((once s).rest_of_closed closed), closedCount, if_pos closed]
  · intro rest x
    simp only [counted, (once _).notified_eq (rest _)]
  · intro s who here pick
    have call := call?_of_mem orderly here
    have flag : (m.link.closing s).isOpen = (closers s j).isEmpty := by
      cases once s with
      | untouched phase asked | underway phase asked | completed phase asked =>
        rw [Closing.isOpen, phase, asked]
        rfl
    simp [step, call, Link.isAsleep, Link.step, flag]

/-- Caller 2 waits for side `a` to close. Callers 0 and 1 both close it, and caller 0 goes on to
close side `b` but has yet to tell the context of side `a`. -/
def closingTwice : List (Move Nat Nat) :=
  [.begin 2 (.awaitClosed .a), .step 2 0,
    .begin 0 (.close .a), .begin 1 (.close .a), .step 0 0, .step 1 0,
    .step 0 0, .step 0 0, .step 0 0, .step 0 0, .step 0 0,
    .begin 0 (.close .b), .step 0 0, .step 0 0, .step 0 0]

/-- After `closingTwice` side `a` is closed, and only the context of side `b` was told; caller 2 is
answered. -/
theorem told_after_closingTwice :
    ∃ m : Machine Nat Nat, m = (fresh ⟨1, 4⟩ "left" (some "right") 0 0).run closingTwice ∧
      (m.link.closing .a).phase = .closed ∧ (m.link.endpoint .a).closed = true ∧
      (m.link.closing .b).phase = .closing ∧ (m.link.context .a).remoteClosed = 0 ∧
      (m.link.context .b).remoteClosed = 1 ∧ (m.step 2 0).2 = some (.ok .unit) := by
  have inOrder := close_once_in_order (ρ := Nat) (η := Nat) ⟨1, 4⟩ "left" (some "right") 0 0
    closingTwice
  have closed : (((fresh ⟨1, 4⟩ "left" (some "right") 0 0 : Machine Nat Nat).run
      closingTwice).link.closing .a).phase = .closed := by decide +kernel
  have waits : (2, .awaitClosed .a) ∈ ((fresh ⟨1, 4⟩ "left" (some "right") 0 0 :
      Machine Nat Nat).run closingTwice).calls := List.mem_cons_self
  obtain ⟨shut, once⟩ := inOrder.closed .a closed
  refine ⟨_, rfl, closed, shut, by decide +kernel, by decide +kernel, ?_, ?_⟩
  · rw [inOrder.counted]
    exact once
  · rw [(inOrder.awaited .a).2 2 waits, if_pos closed]

end Machine

end Loopback
