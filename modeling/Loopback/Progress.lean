import Loopback.Failure
import Loopback.Ring

/-!
# Calls in steps

A call is carried out in steps, and no two callers step at the same time: one step is what a caller
does while it holds one lock, or reads or sets one flag. After a step the call goes on, sleeps on
a condition, or has its answer. A call that sleeps goes on only once it was woken.
-/

namespace Loopback

/-- What one step of a call of type `κ` leads to. -/
inductive Progress (κ α : Type) where
  /-- The call goes on as `next`. -/
  | more (next : κ)
  /-- The caller sleeps, and goes on as `next` once it was woken. -/
  | asleep (next : κ)
  /-- The call is over. -/
  | done (answer : α)

/-- The outcome of a section that either answers or makes its caller sleep. -/
inductive Turn (α : Type) where
  | sleeps
  | returns (answer : α)

/-- What a call that did not fail answers. -/
inductive Reply where
  | unit
  | count (n : Nat)
  | bytes (data : Bytes)
  | flag (value : Bool)
  /-- The number of a message that was started. -/
  | message (m : Nat)
  deriving DecidableEq, Repr

/-- How a call ends. -/
abbrev Result := Except Failure Reply

end Loopback
