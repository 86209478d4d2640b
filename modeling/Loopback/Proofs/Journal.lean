import Loopback.Proofs.Schedule
import Mathlib.Data.List.Induction

/-!
# The steps taken along a schedule

A history says what was decided on; a journal says who did it. It lists the steps that were taken
along a schedule, oldest first: which caller took one, of which call, and what the step led to. A
call that answers shows its answer there, and one that had to wait shows that it fell asleep. What
is kept by every move, with the step that it takes at hand, holds after every schedule
(`Machine.journal_induction`).
-/

namespace Loopback

/-- A step that was taken: by a caller, of a call, and what came of it. -/
structure Taken (ρ η : Type) where
  caller : Nat
  call : Call ρ η
  outcome : Progress (Call ρ η) Result

namespace Machine

variable {ρ η : Type} {m m' : Machine ρ η}

/-- The step that a move takes. A caller that is in no call or asleep takes none. -/
def taken? (m : Machine ρ η) : Move ρ η → Option (Taken ρ η)
  | .step who pick =>
      match m.call? who with
      | some c => if m.link.isAsleep who c then none else some ⟨who, c, (m.link.step pick who c).2⟩
      | none => none
  | _ => none

/-- The steps taken along a schedule, oldest first. -/
def journal (m : Machine ρ η) : List (Move ρ η) → List (Taken ρ η)
  | [] => []
  | mv :: moves => (m.taken? mv).toList ++ (m.move mv).journal moves

/-- What the last step adds to what is read off a journal. -/
theorem filterMap_snoc {α : Type} (f : Taken ρ η → Option α) (j : List (Taken ρ η))
    (x : Taken ρ η) : (j ++ [x]).filterMap f = j.filterMap f ++ (f x).toList := by
  rw [List.filterMap_append]
  cases h : f x <;> simp [h]

theorem journal_append (m : Machine ρ η) (front back : List (Move ρ η)) :
    m.journal (front ++ back) = m.journal front ++ (m.run front).journal back := by
  induction front generalizing m with
  | nil => rfl
  | cons mv front ih =>
    rw [List.cons_append, journal, ih, journal, List.append_assoc]
    rfl

/-- A caller that can take a step takes it. -/
theorem taken?_of_awake {who : Nat} {c : Call ρ η} (hc : m.call? who = some c)
    (awake : m.link.isAsleep who c = false) (pick : Nat) :
    m.taken? (.step who pick) = some ⟨who, c, (m.link.step pick who c).2⟩ := by
  simp [taken?, hc, awake]

/-- Only a caller that takes a step adds to the journal: that step of the call it is in. -/
theorem exists_of_taken? {mv : Move ρ η} {x : Taken ρ η} (taken : m.taken? mv = some x) :
    (∃ pick, mv = .step x.caller pick) ∧ m.call? x.caller = some x.call := by
  cases mv with
  | step who pick =>
    simp only [taken?] at taken
    split at taken
    · next c call =>
      split at taken
      · cases taken
      · cases taken
        exact ⟨⟨pick, rfl⟩, call⟩
    · cases taken
  | _ => cases taken

/-- What a move does, together with the step that it takes. -/
inductive Advances (m : Machine ρ η) : Machine ρ η → Option (Taken ρ η) → Prop where
  | stays : Advances m m none
  | begins {who : Nat} {c : Call ρ η} (idle : ∀ x ∈ m.calls, x.1 ≠ who)
      (entry : c.isEntry = true) : Advances m ⟨m.link, m.calls ++ [(who, c)]⟩ none
  | steps {who pick : Nat} {c : Call ρ η} {rest calls : List (Nat × Call ρ η)}
      (now : m.calls.Perm ((who, c) :: rest)) (awake : m.link.isAsleep who c = false)
      (next : calls.Perm ((m.link.step pick who c).2.next?.toList.map (who, ·) ++ rest)) :
      Advances m ⟨(m.link.step pick who c).1, calls⟩
        (some ⟨who, c, (m.link.step pick who c).2⟩)
  | rouses {who : Nat} {c : Call ρ η} (now : (who, c) ∈ m.calls) :
      Advances m ⟨m.link.rouse who c, m.calls⟩ none
  | takes (i : Nat) :
      Advances m ⟨{ m.link with tasks := m.link.tasks.eraseIdx i }, m.calls⟩ none

theorem advances_step (h : m.Orderly) (who pick : Nat) :
    Advances m (m.step who pick).1 (m.taken? (.step who pick)) := by
  cases hc : m.call? who with
  | none =>
    simp only [step, taken?, hc]
    exact .stays
  | some c =>
    cases awake : m.link.isAsleep who c with
    | true =>
      simp only [step, taken?, hc, awake, if_true]
      exact .stays
    | false =>
      obtain ⟨rest, now, link, next⟩ := step_of_awake h hc awake pick
      have after : (m.step who pick).1 =
          ⟨(m.link.step pick who c).1, (m.step who pick).1.calls⟩ := by rw [← link]
      rw [taken?_of_awake hc awake, after]
      exact .steps now awake next

/-- Every move of an orderly machine advances it in one of these ways. -/
theorem advances (h : m.Orderly) (mv : Move ρ η) : Advances m (m.move mv) (m.taken? mv) := by
  cases mv with
  | begin who c =>
    have one : Moves m (.begin who c) (m.begin who c) [] := moves_begin who c
    show Advances m (m.begin who c) none
    generalize m.begin who c = m' at one
    cases one with
    | stays => exact .stays
    | begins idle entry => exact .begins idle entry
  | step who pick => exact advances_step h who pick
  | rouse who =>
    have one : Moves m (.rouse who) (m.rouse who) [] := moves_rouse h who
    show Advances m (m.rouse who) none
    generalize m.rouse who = m' at one
    cases one with
    | stays => exact .stays
    | rouses now => exact .rouses now
  | takeTask i =>
    have one := moves_takeTask (m := m) i
    show Advances m (m.move (.takeTask i)) none
    generalize m.move (.takeTask i) = m', m.events (.takeTask i) = es at one
    cases one with
    | stays => exact .stays
    | takes => exact .takes i

/-- What holds at the start of a run and is kept by every move holds after every schedule, with the
journal of the schedule at hand. -/
theorem journal_induction {P : List (Taken ρ η) → Machine ρ η → Prop} (orderly : m.Orderly)
    (start : P [] m)
    (step : ∀ {j m m' t?}, m.Orderly → P j m → Advances m m' t? → P (j ++ t?.toList) m')
    (schedule : List (Move ρ η)) : P (m.journal schedule) (m.run schedule) := by
  induction schedule using List.reverseRecOn with
  | nil => exact start
  | append_singleton front mv ih =>
    have so_far := orderly_run orderly front
    rw [journal_append, run_append]
    simpa [journal, run] using step so_far ih (advances so_far mv)

end Machine

end Loopback
