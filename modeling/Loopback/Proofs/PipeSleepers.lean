import Loopback.Proofs.Attempts
import Loopback.Proofs.Session
import Loopback.Proofs.Turns

/-!
# Who sleeps on a pipe, and why

A caller at an end of a pipe falls asleep when the pipe holds it up: both ends are open, and the
writer finds no room or the reader no byte. `Pipe.Stirs` lists what a step does to the sleepers, and
`Pipe.Justified` says that whoever sleeps is still held up. A step that could change that for the
other end wakes it, and a caller that is awake leaves no sleeper at its own end
(`Pipe.Justified.step`).
-/

namespace Loopback

theorem PipeEnd.caller_inj {e e' : PipeEnd} (h : e.caller = e'.caller) : e = e' := by
  cases e <;> cases e' <;> simp_all [PipeEnd.caller]

theorem PipeEnd.eq_or_eq_other (e e' : PipeEnd) : e' = e ∨ e' = e.other := by
  cases e <;> cases e' <;> simp [PipeEnd.other]

theorem PipeEnd.other_ne (e : PipeEnd) : e.other ≠ e := by
  cases e <;> simp [PipeEnd.other]

namespace Condition

variable {ι : Type}

/-- Only the sleeper that is looked for wakes. -/
theorem mem_asleep_rouseWhere {p : ι → Bool} {w : ι} (c : Condition ι) (hw : p w = false) :
    w ∈ (c.rouseWhere p).asleep ↔ w ∈ c.asleep := by
  rw [rouseWhere, rouse]
  split
  · rfl
  · next v found =>
    obtain ⟨hi, rfl⟩ := List.getElem?_eq_some_iff.1 found
    rw [List.mem_eraseIdx_iff_getElem]
    constructor
    · rintro ⟨j, hj, -, rfl⟩
      exact List.getElem_mem hj
    · intro here
      obtain ⟨j, hj, rfl⟩ := List.mem_iff_getElem.1 here
      refine ⟨j, hj, ?_, rfl⟩
      -- At the index of the one that wakes `p` holds.
      rintro rfl
      exact Bool.noConfusion (hw.symm.trans (List.findIdx_getElem (w := hi)))

end Condition

namespace Pipe

/-- The callers that sleep at an end. -/
def sleepers (e : PipeEnd) (p : Pipe) : List Nat :=
  match e with
  | .writer => p.writable.asleep
  | .reader => p.readable.asleep

/-- A caller that wants to write, or to read, has to wait. -/
def holdsUp (e : PipeEnd) (p : Pipe) : Bool :=
  !p.isBroken &&
    match e with
    | .writer => p.ring.remaining == 0
    | .reader => p.ring.isEmpty

/-- Whoever sleeps at an end is the caller there, and would have to wait if it ran now. -/
def Justified (p : Pipe) : Prop :=
  ∀ e, ∀ who ∈ p.sleepers e, who = e.caller ∧ p.holdsUp e = true

variable {p p' : Pipe} {e : PipeEnd}

theorem isAsleep_iff {who : Nat} : p.isAsleep who = true ↔ ∃ e, who ∈ p.sleepers e := by
  simp only [isAsleep, Bool.or_eq_true, List.contains_iff_mem]
  constructor
  · rintro (here | here)
    · exact ⟨.reader, here⟩
    · exact ⟨.writer, here⟩
  · rintro ⟨e, here⟩
    cases e with
    | writer => exact .inr here
    | reader => exact .inl here

theorem justified_create (capacity : Nat) : (create capacity).Justified := by
  intro e who here
  cases e <;> exact absurd here List.not_mem_nil

theorem Justified.mem_sleepers (h : p.Justified) (asleep : p.isAsleep e.caller = true) :
    e.caller ∈ p.sleepers e := by
  obtain ⟨e', here⟩ := isAsleep_iff.1 asleep
  obtain rfl : e = e' := PipeEnd.caller_inj (h e' _ here).1
  exact here

/-- Who sleeps at an end is held up. -/
theorem Justified.holdsUp (h : p.Justified) (asleep : p.isAsleep e.caller = true) :
    p.holdsUp e = true :=
  (h e _ (h.mem_sleepers asleep)).2

/-- While the caller at an end is awake nobody sleeps there. -/
theorem Justified.sleepers_eq_nil (h : p.Justified) (awake : p.isAsleep e.caller = false) :
    p.sleepers e = [] := by
  apply List.eq_nil_iff_forall_not_mem.2
  intro who here
  have asleep := isAsleep_iff.2 ⟨e, here⟩
  rw [(h e who here).1, awake] at asleep
  exact Bool.noConfusion asleep

/-- What a step of the call `c` at the end `e` does to those who sleep on the pipe: nothing, also to
what the other end may wait for; or it wakes the other end; or the caller falls asleep. -/
inductive Stirs (e : PipeEnd) (c : PipeCall) (p : Pipe) :
    Pipe → Progress PipeCall Result → Prop where
  | leaves {p' : Pipe} {r : Result} (own : p'.sleepers e = p.sleepers e)
      (other : p'.sleepers e.other = p.sleepers e.other)
      (same : p'.holdsUp e.other = p.holdsUp e.other) : Stirs e c p p' (.done r)
  | wakes {p' : Pipe} {r : Result} (own : p'.sleepers e = p.sleepers e)
      (other : p'.sleepers e.other = []) : Stirs e c p p' (.done r)
  | sleeps {p' : Pipe} (own : p'.sleepers e = p.sleepers e ++ [e.caller])
      (other : p'.sleepers e.other = p.sleepers e.other)
      (same : ∀ e', p'.holdsUp e' = p.holdsUp e') (stuck : p.holdsUp e = true) :
      Stirs e c p p' (.asleep c)

theorem stirs_write (data : Bytes) (p : Pipe) :
    Stirs .writer (.write data) p (p.step PipeEnd.writer.caller (.write data)).1
      (p.step PipeEnd.writer.caller (.write data)).2 := by
  simp only [step, write]
  split
  · exact .leaves rfl rfl rfl
  · split
    · exact .leaves rfl rfl rfl
    · next whole =>
      have whole : p.isBroken = false := Bool.eq_false_iff.2 whole
      split
      · next full =>
        refine .sleeps rfl rfl (fun _ => rfl) ?_
        have full : p.ring.remaining = 0 := full
        simp [Pipe.holdsUp, whole, full]
      · exact .wakes rfl rfl

theorem stirs_read (limit : Nat) (p : Pipe) :
    Stirs .reader (.read limit) p (p.step PipeEnd.reader.caller (.read limit)).1
      (p.step PipeEnd.reader.caller (.read limit)).2 := by
  simp only [step, read]
  split
  · exact .leaves rfl rfl rfl
  · split
    · exact .leaves rfl rfl rfl
    · next reader =>
      split
      · exact .wakes rfl rfl
      · next empty =>
        split
        · exact .leaves rfl rfl rfl
        · next writer =>
          refine .sleeps rfl rfl (fun _ => rfl) ?_
          simp_all [Pipe.holdsUp, isBroken]

/-- A skip stirs whom a read stirs. -/
theorem stirs_skip (valid : p.ring.Valid) (count : Nat) :
    Stirs .reader (.skip count) p (p.step PipeEnd.reader.caller (.skip count)).1
      (p.step PipeEnd.reader.caller (.skip count)).2 := by
  -- The two leave the same pipe behind, and differ in what they answer.
  have read := stirs_read count p
  simp only [step, skip_eq_read valid] at read ⊢
  generalize p.read PipeEnd.reader.caller count = turn at read ⊢
  obtain ⟨p', answer⟩ := turn
  cases answer with
  | sleeps =>
    cases read with
    | sleeps own other same stuck => exact .sleeps own other same stuck
  | returns r =>
    cases read with
    | leaves own other same => exact .leaves own other same
    | wakes own other => exact .wakes own other

theorem stirs_step {c : PipeCall} (valid : p.ring.Valid) (on : c.madeOn = e) :
    Stirs e c p (p.step e.caller c).1 (p.step e.caller c).2 := by
  subst on
  cases c with
  | write data => exact stirs_write data p
  | read limit => exact stirs_read limit p
  | skip count => exact stirs_skip valid count
  | closeWriter =>
    simp only [step, closeWriter]
    split
    · exact .leaves rfl rfl rfl
    · exact .wakes rfl rfl
  | closeReader =>
    simp only [step, closeReader]
    split
    · exact .leaves rfl rfl rfl
    · exact .wakes rfl rfl
  | _ => exact .leaves rfl rfl rfl

/-- A caller that is awake takes a step: whoever sleeps afterwards is held up. -/
theorem Stirs.justified {c : PipeCall} {progress : Progress PipeCall Result}
    (stirs : Stirs e c p p' progress) (h : p.Justified) (awake : p.isAsleep e.caller = false) :
    p'.Justified := by
  have nobody := h.sleepers_eq_nil awake
  intro e' who here
  -- At its own end only the caller can sleep, and at the other end whoever did so before.
  cases stirs with
  | leaves own other same =>
    rcases e.eq_or_eq_other e' with rfl | rfl
    · rw [own, nobody] at here
      exact absurd here List.not_mem_nil
    · rw [other] at here
      rw [same]
      exact h _ who here
  | wakes own other =>
    rcases e.eq_or_eq_other e' with rfl | rfl
    · rw [own, nobody] at here
      exact absurd here List.not_mem_nil
    · rw [other] at here
      exact absurd here List.not_mem_nil
  | sleeps own other same stuck =>
    rw [same]
    rcases e.eq_or_eq_other e' with rfl | rfl
    · rw [own, nobody] at here
      exact ⟨List.mem_singleton.1 here, stuck⟩
    · rw [other] at here
      exact h _ who here

/-- Who sleeps after a step fell asleep in it, or slept at the other end before. -/
theorem Stirs.asleep_before {c : PipeCall} {progress : Progress PipeCall Result}
    (stirs : Stirs e c p p' progress) (h : p.Justified) (awake : p.isAsleep e.caller = false)
    {e' : PipeEnd} (asleep : p'.isAsleep e'.caller = true) :
    (e' = e ∧ progress = .asleep c) ∨ (e' ≠ e ∧ p.isAsleep e'.caller = true) := by
  have nobody := h.sleepers_eq_nil awake
  have here := (stirs.justified h awake).mem_sleepers asleep
  rcases e.eq_or_eq_other e' with rfl | rfl
  · cases stirs with
    | sleeps => exact .inl ⟨rfl, rfl⟩
    | leaves own | wakes own =>
      rw [own, nobody] at here
      exact absurd here List.not_mem_nil
  · refine .inr ⟨e.other_ne, isAsleep_iff.2 ⟨e.other, ?_⟩⟩
    cases stirs with
    | wakes own other =>
      rw [other] at here
      exact absurd here List.not_mem_nil
    | leaves own other | sleeps own other =>
      rw [other] at here
      exact here

/-- Nobody falls asleep once an end is closed. -/
theorem wakeful_of_broken {c : PipeCall} (valid : p.ring.Valid) (on : c.madeOn = e)
    (broken : p.isBroken = true) : (p.step e.caller c).2 ≠ .asleep c := by
  intro asleep
  have stirs := stirs_step valid on
  rw [asleep] at stirs
  cases stirs with
  | sleeps own other same stuck => simp [Pipe.holdsUp, broken] at stuck

/-- Nor does anybody sleep then. -/
theorem Justified.awake_of_broken (h : p.Justified) (broken : p.isBroken = true) (e : PipeEnd) :
    p.isAsleep e.caller = false := by
  apply Bool.eq_false_iff.2
  intro asleep
  have stuck := h.holdsUp asleep
  simp [Pipe.holdsUp, broken] at stuck

theorem Justified.step {c : PipeCall} (h : p.Justified) (valid : p.ring.Valid)
    (on : c.madeOn = e) (awake : p.isAsleep e.caller = false) :
    (p.step e.caller c).1.Justified :=
  (stirs_step valid on).justified h awake

/-- A wakeup without a notification wakes nobody but the caller it is about. -/
theorem mem_sleepers_rouse {who : Nat} {e' : PipeEnd} (other : who ≠ e.caller) :
    who ∈ (p.rouse e.caller).sleepers e' ↔ who ∈ p.sleepers e' := by
  have unlike : (who == e.caller) = false := beq_eq_false_iff_ne.2 other
  cases e' with
  | writer => exact Condition.mem_asleep_rouseWhere _ unlike
  | reader => exact Condition.mem_asleep_rouseWhere _ unlike

theorem sleepers_rouse_subset {who : Nat} (e' : PipeEnd) :
    (p.rouse who).sleepers e' ⊆ p.sleepers e' := by
  cases e' with
  | writer => exact (Condition.asleep_rouse_sublist _ _).subset
  | reader => exact (Condition.asleep_rouse_sublist _ _).subset

theorem Justified.rouse (h : p.Justified) (who : Nat) : (p.rouse who).Justified := by
  intro e w here
  exact h e w (sleepers_rouse_subset e here)

end Pipe

end Loopback
