/-!
# Mailboxes

A bounded queue of undelivered messages, first come first served. A mailbox holds at least one
message, whatever length was asked for.
-/

namespace Loopback

/-- A queue of messages, named by numbers of type `μ`. -/
structure Mailbox (μ : Type) where
  /-- Oldest first. -/
  queue : List μ
  capacity : Nat
  deriving DecidableEq, Repr

namespace Mailbox

variable {μ : Type}

/-- An empty mailbox for `length` messages. -/
def create (length : Nat) : Mailbox μ := ⟨[], max length 1⟩

/-- How many messages are queued. -/
def size (b : Mailbox μ) : Nat := b.queue.length

/-- Nothing is queued. -/
def isEmpty (b : Mailbox μ) : Bool := b.queue.isEmpty

/-- No further message fits. -/
def isFull (b : Mailbox μ) : Bool := b.capacity ≤ b.size

/-- Queues a message behind the others. -/
def push (m : μ) (b : Mailbox μ) : Mailbox μ := { b with queue := b.queue ++ [m] }

/-- Takes the oldest message. -/
def pop? (b : Mailbox μ) : Option (μ × Mailbox μ) :=
  match b.queue with
  | [] => none
  | m :: rest => some (m, { b with queue := rest })

@[simp] theorem capacity_push (m : μ) (b : Mailbox μ) : (b.push m).capacity = b.capacity := rfl

@[simp] theorem size_push (m : μ) (b : Mailbox μ) : (b.push m).size = b.size + 1 := by
  simp [size, push]

end Mailbox

end Loopback
