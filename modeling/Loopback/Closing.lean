import Loopback.Condition

/-!
# Closing a side

A side is open, then closing, then closed. The first caller to begin closing carries it out;
handlers registered until it is complete are handed out on completion, in the order in which they
were registered, and one registered later is handed back at once.
-/

namespace Loopback

/-- How far a side has got. -/
inductive Phase where
  | opened
  | closing
  | closed
  deriving DecidableEq, Repr

/-- The close state of one side, with handlers of type `η`. -/
structure Closing (η : Type) where
  phase : Phase
  /-- In the order of their registration. -/
  handlers : List η
  /-- Callers waiting for the close to complete. -/
  finished : Condition Nat

namespace Closing

variable {η : Type}

/-- An open side without handlers. -/
def create : Closing η := ⟨.opened, [], Condition.empty⟩

/-- Closing was not begun. -/
def isOpen (c : Closing η) : Bool := c.phase == .opened

/-- Begins to close; answers whether this caller is the first. -/
def begin (c : Closing η) : Closing η × Bool :=
  match c.phase with
  | .opened => ({ c with phase := .closing }, true)
  | _ => (c, false)

/-- Completes the close, wakes who waits for it and hands out the handlers. -/
def complete (c : Closing η) : Closing η × List η :=
  ({ phase := .closed, handlers := [], finished := c.finished.notifyAll }, c.handlers)

/-- Registers a handler, or hands it back if the side is closed already. -/
def add (h : η) (c : Closing η) : Closing η × Option η :=
  match c.phase with
  | .closed => (c, some h)
  | _ => ({ c with handlers := c.handlers ++ [h] }, none)

/-- The caller `who` waits for the close to complete; answers whether it did. -/
def wait (who : Nat) (c : Closing η) : Closing η × Bool :=
  let c := { c with finished := c.finished.leave who }
  match c.phase with
  | .closed => (c, true)
  | _ => ({ c with finished := c.finished.sleep who }, false)

end Closing

end Loopback
