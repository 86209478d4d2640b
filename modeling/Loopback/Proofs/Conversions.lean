import Loopback.Failure
import Mathlib.Logic.Function.Iterate

/-!
# Failures there and back

A `Failure` becomes an `IoFailure` when it leaves through the byte-stream interface, and an
`IoFailure` becomes a `Failure` when it comes back. Each of the two can stand inside the other, as
deep as one likes, and both conversions look one level deep. A failure that goes there and back
(`Failure.roundTrip`) is the same as before, except that one around an error around a channel
failure has become that channel failure. So each round trip takes two levels off until none changes
anything any more (`Failure.exists_settled`).
-/

namespace Loopback

mutual

/-- How many errors a failure has inside it, one in another. -/
def Failure.depth : Failure → Nat
  | .io e => e.depth + 1
  | _ => 0

/-- How many errors a byte-stream error has inside it, one in another. -/
def IoFailure.depth : IoFailure → Nat
  | .plain _ => 0
  | .text _ _ => 0
  | .channel _ e => e.depth + 1
  | .nested _ e => e.depth + 1

end

/-! ## Opening an error -/

namespace IoFailure

variable {x : IoFailure} {c : Failure}

/-- The channel failure `c` stands directly inside the error. -/
def Encloses (x : IoFailure) (c : Failure) : Prop := ∃ kind, x = .channel kind c

theorem channel?_eq_some_iff : x.channel? = some c ↔ x.Encloses c := by
  constructor
  · intro h
    cases x with
    | channel kind e =>
      cases h
      exact ⟨kind, rfl⟩
    | _ => cases h
  · rintro ⟨kind, rfl⟩
    rfl

theorem channel?_eq_none_iff : x.channel? = none ↔ ∀ c, ¬ x.Encloses c := by
  simp only [Option.eq_none_iff_forall_ne_some, ne_eq, channel?_eq_some_iff]

/-- What is opened holds a channel failure: nothing else comes out. -/
theorem opened_eq (x : IoFailure) :
    x.opened = match x.channel? with
      | some c => .failure c
      | none => .kept := by
  cases x <;> rfl

theorem opened_cases (x : IoFailure) : x.opened = .kept ∨ ∃ c, x.opened = .failure c := by
  rw [opened_eq]
  cases x.channel? with
  | none => exact .inl rfl
  | some c => exact .inr ⟨c, rfl⟩

end IoFailure

namespace Failure

variable {x : IoFailure} {c : Failure}

theorem ofIo_of_encloses (h : x.Encloses c) : ofIo x = c := by
  rw [ofIo, IoFailure.opened_eq, IoFailure.channel?_eq_some_iff.2 h]

theorem ofIo_of_not_encloses (h : ∀ c, ¬ x.Encloses c) : ofIo x = .io x := by
  rw [ofIo, IoFailure.opened_eq, IoFailure.channel?_eq_none_iff.2 h]

/-- A failure that carries no byte-stream error is wrapped in one of its own kind. -/
theorem encloses_ofFailure {e : Failure} (h : e.kind ≠ .io) :
    (IoFailure.ofFailure e).Encloses e := by
  cases e with
  | io x => exact absurd rfl h
  | _ => exact ⟨_, rfl⟩

/-! ## Round trips -/

/-- The failure after it was turned into a byte-stream error and back. -/
def roundTrip (e : Failure) : Failure := ofIo (IoFailure.ofFailure e)

/-- A round trip takes two levels off a failure around an error around a channel failure. -/
theorem roundTrip_of_encloses (h : x.Encloses c) :
    (Failure.io x).roundTrip = c ∧ c.depth + 2 = (Failure.io x).depth := by
  refine ⟨ofIo_of_encloses h, ?_⟩
  obtain ⟨kind, rfl⟩ := h
  simp only [depth, IoFailure.depth]

theorem roundTrip_eq_self {e : Failure} (h : ∀ x c, e = .io x → ¬ x.Encloses c) :
    e.roundTrip = e := by
  cases e with
  | io x => exact ofIo_of_not_encloses fun c => h x c rfl
  | _ => exact ofIo_of_encloses (encloses_ofFailure FailureKind.noConfusion)

/-- A round trip changes nothing or leads to a failure of less depth. -/
theorem roundTrip_cases (e : Failure) : e.roundTrip = e ∨ e.roundTrip.depth + 2 = e.depth := by
  by_cases h : ∃ x c, e = .io x ∧ x.Encloses c
  · obtain ⟨x, c, rfl, inside⟩ := h
    obtain ⟨same, depth⟩ := roundTrip_of_encloses inside
    exact .inr (same ▸ depth)
  · refine .inl (roundTrip_eq_self ?_)
    intro x c same inside
    exact h ⟨x, c, same, inside⟩

/-- The failure loses depth on each of the first `n` round trips, and is the same ever after. -/
def SettlesAfter (n : Nat) (e : Failure) : Prop :=
  (∀ m, m < n → (roundTrip^[m + 1] e).depth < (roundTrip^[m] e).depth) ∧
    ∀ m, n ≤ m → roundTrip^[m] e = roundTrip^[n] e

theorem settlesAfter_zero {e : Failure} (h : e.roundTrip = e) : e.SettlesAfter 0 :=
  ⟨fun _ early => absurd early (Nat.not_lt_zero _), fun m _ => Function.iterate_fixed h m⟩

/-- One round trip more comes before. -/
theorem SettlesAfter.succ {e : Failure} {n : Nat} (h : e.roundTrip.SettlesAfter n)
    (less : e.roundTrip.depth < e.depth) : e.SettlesAfter (n + 1) := by
  constructor
  · intro m early
    cases m with
    | zero => exact less
    | succ m => exact h.1 m (Nat.lt_of_succ_lt_succ early)
  · intro m late
    cases m with
    | zero => exact absurd late (Nat.not_succ_le_zero n)
    | succ m => exact h.2 m (Nat.le_of_succ_le_succ late)

/-- No failure goes on losing depth for more round trips than its depth has pairs of levels. -/
theorem exists_settled (e : Failure) : ∃ n, 2 * n ≤ e.depth ∧ e.SettlesAfter n := by
  -- By induction on the depth, which a round trip that changes anything lowers.
  induction depth : e.depth using Nat.strongRecOn generalizing e with
  | ind d ih =>
    rcases roundTrip_cases e with same | less
    · exact ⟨0, Nat.zero_le _, settlesAfter_zero same⟩
    · obtain ⟨n, bound, settled⟩ := ih e.roundTrip.depth (by omega) e.roundTrip rfl
      exact ⟨n + 1, by omega, settled.succ (by omega)⟩

/-- The two conversions undo each other, with one exception. A failure that goes there and back is
as before unless it carries an error with a channel failure directly inside, and then it has become
that channel failure. A byte-stream error without a channel failure directly inside comes back as it
was. What stands directly inside is found, and taken out by the conversion; so is every failure that
carries no byte-stream error, once it is wrapped. Repeated round trips lower the depth until nothing
changes any more. An error that is opened always gives a channel failure. -/
theorem conversions_round_trip :
    (∀ e : Failure, (∀ x c, e = .io x → ¬ x.Encloses c) → ofIo (IoFailure.ofFailure e) = e) ∧
    (∀ x c, x.Encloses c →
      ofIo (IoFailure.ofFailure (.io x)) = c ∧ ofIo (IoFailure.ofFailure (.io x)) ≠ .io x) ∧
    (∀ x, (∀ c, ¬ x.Encloses c) → IoFailure.ofFailure (ofIo x) = x) ∧
    (∀ x c, (x.channel? = some c ↔ x.Encloses c) ∧ (x.channel? = some c → ofIo x = c)) ∧
    (∀ e : Failure, e.kind ≠ .io → (IoFailure.ofFailure e).channel? = some e) ∧
    (∀ e : Failure, ∃ n, 2 * n ≤ e.depth ∧ e.SettlesAfter n) ∧
    ∀ x : IoFailure, x.opened = .kept ∨ ∃ c, x.opened = .failure c := by
  refine ⟨?_, ?_, ?_, ?_, ?_, exists_settled, IoFailure.opened_cases⟩
  · intro e h
    exact roundTrip_eq_self h
  · intro x c inside
    obtain ⟨taken, depth⟩ := roundTrip_of_encloses inside
    refine ⟨taken, ?_⟩
    intro same
    -- The failure inside is not as deep as the one around it.
    have equal : c = .io x := taken.symm.trans same
    rw [← equal] at depth
    omega
  · intro x h
    rw [ofIo_of_not_encloses h]
    rfl
  · intro x c
    refine ⟨IoFailure.channel?_eq_some_iff, ?_⟩
    intro inside
    exact ofIo_of_encloses (IoFailure.channel?_eq_some_iff.1 inside)
  · intro e h
    exact IoFailure.channel?_eq_some_iff.2 (encloses_ofFailure h)

/-- A cancellation that was wrapped twice, each time in an error that a failure carries. -/
def wrappedTwice : Failure := .io (.channel .timedOut (.io (.channel .brokenPipe .cancelled)))

/-- The cancellation is out after two round trips, and stays. A timeout that wraps another error is
kept whole, with the cancellation two levels down. -/
theorem unwrapped_after_two :
    wrappedTwice.depth = 4 ∧
      ofIo (IoFailure.ofFailure wrappedTwice) = .io (.channel .brokenPipe .cancelled) ∧
      ofIo (IoFailure.ofFailure (.io (.channel .brokenPipe .cancelled))) = .cancelled ∧
      ofIo (IoFailure.ofFailure .cancelled) = .cancelled ∧
      IoFailure.ofFailure (ofIo (.nested .timedOut (.channel .brokenPipe .cancelled))) =
        .nested .timedOut (.channel .brokenPipe .cancelled) ∧
      (IoFailure.ofFailure .cancelled).channel? = some .cancelled := by
  obtain ⟨kept, taken, whole, -, found, -⟩ := conversions_round_trip
  refine ⟨rfl, (taken _ _ ⟨_, rfl⟩).1, (taken _ _ ⟨_, rfl⟩).1, ?_, ?_, ?_⟩
  · exact kept .cancelled fun x c same => Failure.noConfusion same
  · refine whole _ ?_
    rintro c ⟨kind, same⟩
    cases same
  · exact found .cancelled FailureKind.noConfusion

end Failure

end Loopback
