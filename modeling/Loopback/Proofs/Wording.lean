import Loopback.Proofs.Conversions

/-!
# What an error says

An error is passed on by converting it, carrying it or wrapping it, and each of these steps puts a
layer around it or takes one off. A layer says nothing of its own: the wording and the cause of an
error are those of the error that stands innermost (`Fault.message_innermost`,
`Fault.source_innermost`). No step ever takes that one out, since a conversion opens one layer and
only where a channel failure is inside. So however an error is passed on, it says the same
(`Fault.passing_on_keeps_wording`).
-/

namespace Loopback

/-! ## The innermost error -/

mutual

/-- The error inside all layers of a failure; the failure itself when it has none. -/
def Failure.innermost : Failure → Fault
  | .io e => e.innermost
  | e => .channel e

/-- The error inside all layers of a byte-stream error. -/
def IoFailure.innermost : IoFailure → Fault
  | .channel _ e => e.innermost
  | .nested _ e => e.innermost
  | e => .io e

end

mutual

theorem Failure.message_innermost (e : Failure) : e.innermost.message = e.message := by
  cases e with
  | io x =>
    rw [Failure.innermost, Failure.message]
    exact x.message_innermost
  | _ => rfl

theorem IoFailure.message_innermost (x : IoFailure) : x.innermost.message = x.message := by
  cases x with
  | channel kind e =>
    rw [IoFailure.innermost, IoFailure.message]
    exact e.message_innermost
  | nested kind e =>
    rw [IoFailure.innermost, IoFailure.message]
    exact e.message_innermost
  | _ => rfl

end

mutual

theorem Failure.source_innermost (e : Failure) : e.innermost.source = e.source := by
  cases e with
  | io x =>
    rw [Failure.innermost, Failure.source]
    exact x.source_innermost
  | _ => rfl

theorem IoFailure.source_innermost (x : IoFailure) : x.innermost.source = x.source := by
  cases x with
  | channel kind e =>
    rw [IoFailure.innermost, IoFailure.source]
    exact e.source_innermost
  | nested kind e =>
    rw [IoFailure.innermost, IoFailure.source]
    exact e.source_innermost
  | _ => rfl

end

/-- A failure that is wrapped, or whose byte-stream error is taken out, keeps what is innermost. -/
theorem IoFailure.innermost_ofFailure (e : Failure) : (ofFailure e).innermost = e.innermost := by
  cases e <;> rfl

/-- So does a byte-stream error that is opened, or carried as it is. -/
theorem Failure.innermost_ofIo (x : IoFailure) : (ofIo x).innermost = x.innermost := by
  by_cases inside : ∃ c, x.Encloses c
  · obtain ⟨c, encloses⟩ := inside
    rw [ofIo_of_encloses encloses]
    obtain ⟨kind, rfl⟩ := encloses
    rw [IoFailure.innermost]
  · rw [ofIo_of_not_encloses fun c encloses => inside ⟨c, encloses⟩, innermost]

/-! ## Passing an error on -/

namespace Fault

/-- The error inside all layers of the value. -/
def innermost : Fault → Fault
  | .channel e => e.innermost
  | .io e => e.innermost

theorem message_innermost (f : Fault) : f.innermost.message = f.message := by
  cases f with
  | channel e => exact e.message_innermost
  | io x => exact x.message_innermost

theorem source_innermost (f : Fault) : f.innermost.source = f.source := by
  cases f with
  | channel e => exact e.source_innermost
  | io x => exact x.source_innermost

/-- One step puts a layer around the innermost error or takes one off, and never the last. -/
theorem innermost_apply (step : Rewrap) (f : Fault) : (f.apply step).innermost = f.innermost := by
  cases step with
  | convert =>
    cases f with
    | channel e => exact IoFailure.innermost_ofFailure e
    | io x => exact Failure.innermost_ofIo x
  | carry =>
    cases f with
    | channel e => rfl
    | io x => simp only [apply, innermost, Failure.innermost]
  | wrap kind => cases f <;> simp only [apply, innermost, IoFailure.innermost]

/-- The value after some steps, the first of them first. -/
def passedOn (steps : List Rewrap) (f : Fault) : Fault :=
  steps.foldl (fun held step => held.apply step) f

theorem innermost_passedOn (steps : List Rewrap) (f : Fault) :
    (f.passedOn steps).innermost = f.innermost := by
  induction steps generalizing f with
  | nil => rfl
  | cons step steps ih =>
    have onward : f.passedOn (step :: steps) = (f.apply step).passedOn steps := rfl
    rw [onward, ih, innermost_apply]

/-- However an error value is converted, carried and wrapped, and however often, the same error
stands innermost, and the wording of the value and of its cause are as at the start. -/
theorem passing_on_keeps_wording (f : Fault) (steps : List Rewrap) :
    (f.passedOn steps).message = f.message ∧ (f.passedOn steps).source = f.source ∧
      (f.passedOn steps).innermost = f.innermost := by
  have same := innermost_passedOn steps f
  refine ⟨?_, ?_, same⟩
  · calc (f.passedOn steps).message
      _ = (f.passedOn steps).innermost.message := (message_innermost _).symm
      _ = f.innermost.message := by rw [same]
      _ = f.message := message_innermost f
  · calc (f.passedOn steps).source
      _ = (f.passedOn steps).innermost.source := (source_innermost _).symm
      _ = f.innermost.source := by rw [same]
      _ = f.source := source_innermost f

/-- Three layers are put around a cancellation, and two of them are taken off again. -/
example :
    passedOn [.wrap .timedOut, .carry, .wrap .other, .convert, .convert] (.channel .cancelled) =
      .io (.channel .timedOut .cancelled) := rfl

end Fault

end Loopback
