import Loopback.Link.Call
import Loopback.Replay.Action

/-!
# Scripts

What a caller does, as data: a `Script` makes one call, transfer or note after the other, and each
result decides how it goes on.
-/

namespace Loopback.Replay

/-- An entry in the books of a run. -/
inductive Note where
  | event (e : Event)
  /-- The receiver of this number is invoked; answers how often it was invoked before. -/
  | invocation (receiver : Nat)
  /-- The writer of a message becomes a handle; answers its number. -/
  | writer (m : Nat)
  /-- The reader of a message becomes the handle of this name. -/
  | reader (name : String) (m : Nat)
  /-- A sink has its final tally. -/
  | tally (sink : Nat) (t : Tally)
  /-- A sink was let go of. -/
  | lost (sink : Nat)

/-- What a caller does: calls, transfers and notes, each followed by what its result decides. -/
inductive Script (α : Type) where
  | done (a : α)
  | call (c : Call Receiver CloseHandler) (k : Result → Script α)
  /-- A transfer on message `m`. -/
  | transfer (m : Nat) (t : Transfer) (k : StreamAnswer → Script α)
  | note (n : Note) (k : Nat → Script α)

namespace Script

variable {α β : Type}

/-- One script after the other. -/
def bind : Script α → (α → Script β) → Script β
  | .done a, f => f a
  | .call c k, f => .call c fun r => (k r).bind f
  | .transfer m t k, f => .transfer m t fun a => (k a).bind f
  | .note n k, f => .note n fun i => (k i).bind f

instance : Monad Script where
  pure := .done
  bind := bind

/-- Makes a call. -/
def make (c : Call Receiver CloseHandler) : Script Result := .call c .done

/-- Makes a call on a message. -/
def use (m : Nat) (c : MessageCall) : Script Result := make (.stream m c)

/-- Makes a transfer on a message. -/
def move (m : Nat) (t : Transfer) : Script StreamAnswer := .transfer m t .done

/-- Makes a note. -/
def put (n : Note) : Script Nat := .note n .done

end Script

end Loopback.Replay
