import Loopback.Condition
import Loopback.Failure
import Loopback.Mailbox

/-!
# Endpoints

An endpoint is the receiving half of one direction: a mailbox for messages that wait for a
receiver, a slot for a receiver that waits for a message, and a flag that says no further message
is taken. Writers sleep here while the mailbox is full.

Each function below is what a caller does while it holds the lock of the endpoint. Several reasons
wake a sleeping writer (a freed slot, a closure, an interrupt), and one notification often wakes
just one of them. A woken writer therefore starts over, and one that leaves without using the slot
it may have been woken for passes the notification on.
-/

namespace Loopback

/-- A caller inside a write that may have to wait, and the token that can abort it. -/
structure Writer where
  caller : Nat
  token : Option Nat
  deriving DecidableEq, Repr

/-- What a receiver is given: a message, or the word that none will follow. -/
inductive Delivery (μ : Type) where
  | message (m : μ)
  | finish
  deriving DecidableEq, Repr

/-- A receiver together with what it is given, decided on under the lock and run later. -/
structure Dispatch (ρ μ : Type) where
  receiver : ρ
  delivery : Delivery μ
  deriving DecidableEq, Repr

/-- One direction of a pair, with receivers of type `ρ` and messages of type `μ`. -/
structure Endpoint (ρ μ : Type) where
  mailbox : Mailbox μ
  /-- The receiver that waits for the next message; there is one only while the mailbox is
  empty. -/
  pending : Option ρ
  /-- Set once, never cleared. -/
  closed : Bool
  /-- Writers waiting for room in the mailbox. -/
  writers : Condition Writer

/-- How one attempt to write ends. -/
inductive Entry (ρ : Type) where
  /-- The write fails. -/
  | refused (why : Failure)
  /-- The writer sleeps, to try again. -/
  | sleeps
  /-- The message was queued. -/
  | queued
  /-- The message goes straight to the waiting receiver. -/
  | handed (receiver : ρ)
  deriving DecidableEq

/-- What became of a receiver that was registered. -/
inductive Registration (ρ μ : Type) where
  /-- Another receiver is waiting already. -/
  | refused
  /-- It waits for the next message. -/
  | waits
  /-- It gets the oldest queued message, or the end of the stream. -/
  | given (d : Dispatch ρ μ)
  deriving DecidableEq

namespace Endpoint

variable {ρ μ : Type}

/-- An open endpoint for `queueLength` messages. -/
def create (queueLength : Nat) : Endpoint ρ μ :=
  ⟨Mailbox.create queueLength, none, false, Condition.empty⟩

/-- One sleeping writer wakes. -/
def notifyOne (pick : Nat) (e : Endpoint ρ μ) : Endpoint ρ μ :=
  { e with writers := e.writers.notifyOne pick }

/-- All sleeping writers wake. -/
def wakeWriters (e : Endpoint ρ μ) : Endpoint ρ μ :=
  { e with writers := e.writers.notifyAll }

/-- Takes the message `m`, for which there is room. It goes to the waiting receiver only past an
empty mailbox, so queued messages keep their order. -/
def accept (pick : Nat) (m : μ) (e : Endpoint ρ μ) : Endpoint ρ μ × Entry ρ :=
  match e.mailbox.isEmpty, e.pending with
  | true, some r => (({ e with pending := none } : Endpoint ρ μ).notifyOne pick, .handed r)
  | _, _ => (({ e with mailbox := e.mailbox.push m } : Endpoint ρ μ).notifyOne pick, .queued)

/-- A writer tries to write the message `m`. `interrupted` says whether its token is set, which
matters only when it would have to wait. -/
def enter (pick : Nat) (w : Writer) (interrupted : Bool) (m : μ) (e : Endpoint ρ μ) :
    Endpoint ρ μ × Entry ρ :=
  if e.closed then (e, .refused .notOpen)
  else if !e.mailbox.isFull then e.accept pick m
  else if interrupted then (e, .refused .interrupted)
  else ({ e with writers := e.writers.sleep w }, .sleeps)

/-- A woken writer runs again. When its token is set it gives up, and passes on the wakeup, which
may have been meant for a free slot. -/
def resume (pick : Nat) (w : Writer) (interrupted : Bool) (m : μ) (e : Endpoint ρ μ) :
    Endpoint ρ μ × Entry ρ :=
  let e := { e with writers := e.writers.leave w }
  if interrupted then (e.notifyOne pick, .refused .interrupted)
  else e.enter pick w interrupted m

/-- Registers a receiver. Queued messages are drained before the end of the stream is told. -/
def register (pick : Nat) (r : ρ) (e : Endpoint ρ μ) : Endpoint ρ μ × Registration ρ μ :=
  if e.pending.isSome then (e, .refused)
  else
    match e.mailbox.pop? with
    | some (m, mailbox) =>
        (({ e with mailbox } : Endpoint ρ μ).notifyOne pick, .given ⟨r, .message m⟩)
    | none =>
        if e.closed then (e, .given ⟨r, .finish⟩)
        else (({ e with pending := some r } : Endpoint ρ μ).notifyOne pick, .waits)

/-- Takes no further message. Answers the receiver that was waiting on an empty mailbox, which gets
the end of the stream; the second time nothing happens. -/
def shutDown (e : Endpoint ρ μ) : Endpoint ρ μ × Option (Dispatch ρ μ) :=
  if e.closed then (e, none)
  else
    let e := ({ e with closed := true } : Endpoint ρ μ).wakeWriters
    match e.mailbox.isEmpty, e.pending with
    | true, some r => ({ e with pending := none }, some ⟨r, .finish⟩)
    | _, _ => (e, none)

/-- The closing action of a full close: no further message is taken and every writer wakes. A
waiting receiver stays where it is. -/
def closeOff (e : Endpoint ρ μ) : Endpoint ρ μ :=
  ({ e with closed := true } : Endpoint ρ μ).wakeWriters

end Endpoint

end Loopback
