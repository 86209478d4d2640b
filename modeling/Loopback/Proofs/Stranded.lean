import Loopback.Proofs.Pairing
import Mathlib.Data.List.Induction

/-!
# Receivers left behind by a close

Two paths close an endpoint. A shutdown by the peer gives the end of the stream to a receiver that
waits; a close of its own side sets the flag and leaves the receiver where it is, and a shutdown
that comes later finds the endpoint closed and does nothing. So a receiver can be left behind: it is
never run, and no other one can be registered. `Machine.closed_strands_nobody_iff` says when: just
when the side was closed while a receiver waited and the peer had not shut down yet.
-/

namespace Loopback

namespace Endpoint

variable {ρ μ : Type} {pick : Nat} {m : μ} {e e' : Endpoint ρ μ} {r : ρ}

/-- The receiver `r` waits at an endpoint that takes no further message. -/
def Strands (r : ρ) (e : Endpoint ρ μ) : Prop := e.closed = true ∧ e.pending = some r

theorem not_strands_of_open (opened : e.closed = false) : ¬e.Strands r := by
  rintro ⟨shut, -⟩
  rw [opened] at shut
  exact Bool.noConfusion shut

theorem not_strands_of_nobody (nobody : e.pending = none) : ¬e.Strands r := by
  rintro ⟨-, waits⟩
  rw [nobody] at waits
  exact Option.some_ne_none r waits.symm

/-- Writing leaves no receiver behind, and helps none that was. -/
theorem Attempt.strands_iff {w : Writer} {interrupted : Bool} {entry : Entry ρ}
    (h : Attempt pick w interrupted m e e' entry) : e'.Strands r ↔ e.Strands r := by
  cases h with
  | closed | interrupted => exact Iff.rfl
  | handed opened => exact iff_of_false (not_strands_of_open opened) (not_strands_of_open opened)
  | queued opened => exact iff_of_false (not_strands_of_open opened) (not_strands_of_open opened)
  | sleeps opened => exact iff_of_false (not_strands_of_open opened) (not_strands_of_open opened)

theorem Registering.strands_iff {r' : ρ} {answer : Registration ρ μ}
    (h : Registering pick r' e e' answer) : e'.Strands r ↔ e.Strands r := by
  cases h with
  | refused | finish => exact Iff.rfl
  | message nobody =>
    exact iff_of_false (not_strands_of_nobody nobody) (not_strands_of_nobody nobody)
  | waits nobody empty opened =>
    exact iff_of_false (not_strands_of_open opened) (not_strands_of_open opened)

/-- A shutdown gives the end to a receiver that waits on an empty mailbox. -/
theorem Stopping.strands_iff {d? : Option (Dispatch ρ μ)} (h : Stopping e e' d?)
    (order : e.pending = some r → e.mailbox.queue = []) : e'.Strands r ↔ e.Strands r := by
  cases h with
  | again => exact Iff.rfl
  | ends opened =>
    exact iff_of_false (not_strands_of_nobody rfl) (not_strands_of_open opened)
  | quietly opened nobody =>
    refine iff_of_false ?_ (not_strands_of_open opened)
    rintro ⟨-, waits⟩
    -- Whoever waits at an empty mailbox is told the end.
    have none := nobody (order waits)
    rw [show e.pending = some r from waits] at none
    exact Option.some_ne_none r none

/-- Only the closing action of a full close leaves a receiver behind, and nothing gets it back. -/
theorem strands_after (order : e.pending = some r → e.mailbox.queue = []) (hold : Hold ρ) :
    (e.after pick m hold).Strands r ↔
      e.Strands r ∨ (hold = .closeOff ∧ e.closed = false ∧ e.pending = some r) := by
  cases hold with
  | enter w interrupted =>
    rw [after, (attempt_enter pick w interrupted m e).strands_iff]
    simp
  | resume w interrupted =>
    rw [after]
    cases interrupted with
    | true => simp [resume_interrupted, Strands]
    | false =>
      rw [resume_again, (attempt_enter pick w false m _).strands_iff]
      simp [Strands]
  | register r' =>
    rw [after, (registering_register pick r' e).strands_iff]
    simp
  | shutDown =>
    rw [after, (stopping_shutDown e).strands_iff order]
    simp
  | closeOff =>
    cases shut : e.closed <;> simp [after, closeOff, Strands, shut]
  | wakeWriters => simp [after, Strands]
  | rouse i => simp [after, Strands]

/-- A receiver is refused just when another one waits. -/
theorem register_refused_iff (pick : Nat) (r' : ρ) (e : Endpoint ρ μ) :
    (e.register pick r').2 = .refused ↔ ∃ r, e.pending = some r := by
  unfold register
  cases e.pending with
  | some r => simp
  | none =>
    cases e.mailbox.pop? with
    | some m => simp
    | none => cases e.closed <;> simp

end Endpoint

namespace Machine

variable {ρ η : Type} {m m' : Machine ρ η} {s : Side} {r : ρ}

/-- The move closes the side `s` from within, over the head of the receiver `r` that waits there. -/
def ClosesOver (s : Side) (r : ρ) (m : Machine ρ η) (mv : Move ρ η) : Prop :=
  ∃ who pick, mv = .step who pick ∧ m.call? who = some (.closeEndpoint s) ∧
    (m.link.endpoint s).closed = false ∧ (m.link.endpoint s).pending = some r

/-- Some move of the schedule closes the side `s` over the head of `r`. -/
def ClosedOver (s : Side) (r : ρ) (m : Machine ρ η) (schedule : List (Move ρ η)) : Prop :=
  ∃ before mv after, schedule = before ++ mv :: after ∧ (m.run before).ClosesOver s r mv

/-- A schedule and one move more. -/
theorem closedOver_snoc (schedule : List (Move ρ η)) (mv : Move ρ η) :
    m.ClosedOver s r (schedule ++ [mv]) ↔
      m.ClosedOver s r schedule ∨ (m.run schedule).ClosesOver s r mv := by
  constructor
  · rintro ⟨before, mv', after, split, closes⟩
    -- The closing move is the new one, or it was made before.
    rcases List.eq_nil_or_concat after with rfl | ⟨after, final, rfl⟩
    · obtain ⟨rfl, one⟩ := List.append_inj' split rfl
      obtain rfl := List.singleton_inj.1 one
      exact .inr closes
    · rw [List.concat_eq_append, ← List.cons_append, ← List.append_assoc] at split
      exact .inl ⟨before, mv', after, (List.append_inj' split rfl).1, closes⟩
  · rintro (⟨before, mv', after, rfl, closes⟩ | closes)
    · exact ⟨before, mv', after ++ [mv], by simp, closes⟩
    · exact ⟨schedule, mv, [], rfl, closes⟩

/-- Only one call carries out the closing action of a full close. -/
theorem eq_closeEndpoint_of_hold? {l : Link ρ η} {who : Nat} {c : Call ρ η}
    (h : c.hold? l who = some (s, .closeOff)) : c = .closeEndpoint s := by
  cases c with
  | write source token woken => cases woken <;> simp [Call.hold?] at h
  | interruptWake places => cases places <;> simp [Call.hold?] at h
  | closeEndpoint side =>
    cases h
    rfl
  | _ => simp [Call.hold?] at h

/-- A receiver that is left behind by a move was so before, or the move closed over it. -/
theorem Moves.strands (orderly : m.Orderly) {mv : Move ρ η} {es : List (Event ρ η)}
    (one : Moves m mv m' es)
    (order : (m.link.endpoint s).pending = some r → (m.link.endpoint s).mailbox.queue = [])
    (h : (m'.link.endpoint s).Strands r) :
    (m.link.endpoint s).Strands r ∨ m.ClosesOver s r mv := by
  rcases one.held s with same | ⟨i, roused⟩ | ⟨who, pick, c, hold, rfl, here, held, after⟩
  · rw [same] at h
    exact .inl h
  · rw [roused] at h
    exact .inl h
  · rw [after, Endpoint.strands_after order] at h
    rcases h with before | ⟨rfl, opened, waits⟩
    · exact .inl before
    · obtain rfl := eq_closeEndpoint_of_hold? held
      exact .inr ⟨who, pick, rfl, call?_of_mem orderly here, opened, waits⟩

/-- A receiver that was left behind stays where it is. -/
theorem Moves.still_strands {mv : Move ρ η} {es : List (Event ρ η)} (one : Moves m mv m' es)
    (order : (m.link.endpoint s).pending = some r → (m.link.endpoint s).mailbox.queue = [])
    (h : (m.link.endpoint s).Strands r) : (m'.link.endpoint s).Strands r := by
  rcases one.endpoint s with same | ⟨pick, n, hold, after⟩
  · rw [same]
    exact h
  · rw [after, Endpoint.strands_after order]
    exact .inl h

/-- Closing an endpoint over the head of a receiver leaves the receiver behind. -/
theorem ClosesOver.strands {mv : Move ρ η} (h : m.ClosesOver s r mv) :
    ((m.move mv).link.endpoint s).Strands r := by
  obtain ⟨who, pick, rfl, call, -, waits⟩ := h
  have closed : ((m.move (.step who pick)).link.endpoint s) =
      (m.link.endpoint s).closeOff := by
    simp [move, step, call, Link.isAsleep, Link.step, setCall]
  rw [closed]
  exact ⟨rfl, waits⟩

section Run

variable (config : Config) (first : String) (second : Option String) (tokens signals : Nat)
  (schedule : List (Move ρ η)) (s : Side)

/-- A receiver is left behind just when its side was closed over its head. -/
theorem strands_iff_closedOver (r : ρ) :
    (((fresh config first second tokens signals).run schedule).link.endpoint s).Strands r ↔
      (fresh config first second tokens signals).ClosedOver s r schedule := by
  induction schedule using List.reverseRecOn with
  | nil =>
    refine iff_of_false ?_ ?_
    · rw [run, List.foldl_nil, endpoint_fresh]
      exact Endpoint.not_strands_of_nobody rfl
    · rintro ⟨before, mv, after, split, -⟩
      simp at split
  | append_singleton schedule mv ih =>
    have orderly := orderly_run (orderly_fresh config first second tokens signals) schedule
    have one := moves orderly mv
    obtain ⟨ended, paired⟩ := paired_run config first second tokens signals schedule s
    rw [closedOver_snoc, ← ih, run_append]
    constructor
    · exact one.strands orderly paired.empty_of_pending
    · rintro (before | closes)
      · exact one.still_strands paired.empty_of_pending before
      · exact closes.strands

/-- A registration on side `s` fails just when another receiver waits there. -/
theorem alreadyWaiting_iff (l : Link ρ η) (pick who : Nat) (r : ρ) :
    (l.step pick who (.receive s r)).2 = .done (.error .alreadyWaiting) ↔
      ∃ r', (l.endpoint s).pending = some r' := by
  rw [← Endpoint.register_refused_iff pick r]
  simp only [Link.step, Link.stepReceive]
  cases ((l.endpoint s).register pick r).2 <;> simp

end Run

/-- A closed endpoint has served every receiver that was registered on it, in order and once each,
and refuses none, just when it was never closed from within over the head of a receiver that waited
there. -/
theorem closed_strands_nobody_iff (config : Config) (first : String) (second : Option String)
    (tokens signals : Nat) (schedule : List (Move ρ η)) (s : Side) :
    let m := (fresh config first second tokens signals : Machine ρ η)
    let l := (m.run schedule).link
    let g := Ledger.ofHistory s (m.history schedule)
    ((l.endpoint s).closed = true →
      (l.endpoint s).pending = none ∧ g.dispatched.map Dispatch.receiver = g.registered ∧
        ∀ pick who r, (l.step pick who (.receive s r)).2 ≠ .done (.error .alreadyWaiting)) ↔
      ∀ r, ¬m.ClosedOver s r schedule := by
  intro m l g
  obtain ⟨ended, paired⟩ : ∃ ended, Paired g ended (l.endpoint s) :=
    paired_run config first second tokens signals schedule s
  constructor
  · intro served r behind
    obtain ⟨shut, waits⟩ := (strands_iff_closedOver config first second tokens signals schedule s
      r).2 behind
    have nobody := (served shut).1
    rw [waits] at nobody
    exact Option.some_ne_none r nobody
  · intro never shut
    -- Whoever waits at a closed endpoint was left behind there.
    have nobody : (l.endpoint s).pending = none := by
      cases waits : (l.endpoint s).pending with
      | none => rfl
      | some r =>
        have behind := (strands_iff_closedOver config first second tokens signals schedule s r).1
          ⟨shut, waits⟩
        exact absurd behind (never r)
    refine ⟨nobody, ?_, ?_⟩
    · rw [paired.registered_eq, nobody, Option.toList_none, List.append_nil]
    · intro pick who r refused
      obtain ⟨r', waits⟩ := (alreadyWaiting_iff s l pick who r).1 refused
      rw [nobody] at waits
      exact Option.some_ne_none r' waits.symm

/-- A receiver is registered on `b`, `b` is closed, and the peer shuts its writes down. -/
def closingOver : List (Move Nat Nat) :=
  [.begin 0 (.receive .b 7), .step 0 0,
    .begin 1 (.close .b), .step 1 0, .step 1 0, .step 1 0, .step 1 0, .step 1 0, .step 1 0,
    .begin 2 (.shutDown .a), .step 2 0]

/-- After `closingOver` all calls are over, `b` is closed, and receiver 7 was given nothing and
still waits; a further receiver is refused. -/
theorem closingOver_strands :
    let m := (fresh ⟨8, 8192⟩ "pair" none 0 0).run closingOver
    m.calls.length = 0 ∧ (m.link.endpoint .b).Strands 7 ∧ m.link.tasks.length = 0 ∧
      (m.link.step 0 3 (.receive .b 8)).2 = .done (.error .alreadyWaiting) := by
  exact ⟨rfl, ⟨rfl, rfl⟩, rfl, rfl⟩

end Machine

end Loopback
