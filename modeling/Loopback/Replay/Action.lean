import Loopback.Attachments.KeyRing
import Loopback.Config
import Loopback.Context
import Loopback.Message
import Loopback.Side
import Loopback.Sink

/-!
# Vocabulary of a run

Receivers and close handlers are data, so that a run can be written down: a scripted receiver
carries out a list of actions, and a sink drains its message. What a command or an action comes to
is an `Outcome`; what happens beside it is an `Event`.
-/

namespace Loopback.Replay

/-- A single use of a stream by name. -/
inductive StreamOp where
  /-- A call of the stream itself, whose failures are channel failures. -/
  | plain (c : PipeCall)
  /-- A call through the byte-stream interface, whose failures are byte-stream errors. -/
  | io (c : PipeCall)
  | transfer (t : Transfer)
  /-- Cancel a message; answers whether it was cancelled. -/
  | cancel
  | wasCancelled
  /-- Let go of an end of the stream. -/
  | letGo (e : PipeEnd)

/-- One action of a scripted receiver. -/
inductive Action where
  /-- Keep the message for later. -/
  | hold
  /-- Let go of the message. -/
  | drop
  /-- Read all of the message and remember it. -/
  | get
  /-- Use the message. -/
  | stream (op : StreamOp)
  /-- Send a message the other way, and end it by cancelling it or by closing it. -/
  | say (data : Bytes) (cancel : Bool)
  /-- Send what is remembered the other way, last byte first. -/
  | echo
  /-- Register again if fewer than `rounds` invocations came before this one. -/
  | again (rounds : Nat)
  | close
  | shutDown
  | isOpen

/-- A receiver. -/
inductive Receiver where
  /-- The receiver numbered `number`; one that registers again keeps its number. -/
  | scripted (number : Nat) (actions : List Action)
  | sink (number : Nat) (tally : Tally)

/-- What a close handler does beside being observed. -/
inductive Reaction where
  | shutDown
  | closeOther
  | write
  /-- Register another handler. -/
  | nested
  deriving DecidableEq, Repr

/-- A close handler. -/
inductive CloseHandler where
  | scripted (number : Nat) (reaction : Option Reaction)
  /-- One that the handler numbered `number` registered. -/
  | nested (number : Nat)
  /-- Raises a signal. -/
  | signal (i : Nat)

/-- What a command, or one action of a receiver, answers. -/
inductive Outcome where
  | stream (a : StreamAnswer)
  /-- There was nothing to act on. -/
  | nothing
  | held
  | dropped
  | enough
  | closed
  | ready
  | pending
  | written
  /-- The call has not returned. -/
  | blocked
  /-- Another call uses the stream. -/
  | busy
  /-- The handle was let go of. -/
  | gone
  /-- There never was such a handle. -/
  | missing
  /-- The sink was let go of, or its tally was taken. -/
  | lost
  | writer (number : Nat)
  | receiver (number : Nat)
  | sink (number : Nat)
  | handler (number : Nat)
  | future (number : Nat)
  | ran (tasks left blocked : Nat)
  | tally (t : Tally)
  | counts (first second : Nat)
  | sizes (c : Config)
  | connection (c : Connection)
  | feature (supported : Bool) (before offered after : Option Unit)
  | keyed (a : KeyedAnswer)

namespace Outcome

/-- No value to tell. -/
def unit : Outcome := .stream (.reply .unit)

/-- A truth value. -/
def flag (b : Bool) : Outcome := .stream (.reply (.flag b))

/-- The result of a call, with failures as channel failures. -/
def ofResult : Result → Outcome
  | .ok r => .stream (.reply r)
  | .error e => .stream (.failed e)

/-- The result of a call, with failures as byte-stream errors. -/
def ofIoResult : Result → Outcome
  | .ok r => .stream (.reply r)
  | .error e => .stream (.ioFailed (IoFailure.ofFailure e))

end Outcome

/-- Something that happened during a command beside its outcome. -/
inductive Event where
  /-- A receiver was invoked on `side`, for a message or for the end of the stream. -/
  | invoked (number round : Nat) (side : Side) (finish : Bool) (acts : List Outcome)
  /-- A close handler ran on `side`. -/
  | closed (number : Nat) (side : Side) (isOpen : Bool) (r : Outcome)
  | nested (number : Nat)
  /-- A blocked call on the stream of this name returned. -/
  | stream (name : String) (r : Outcome)
  /-- A blocked write from the handle of this label returned. -/
  | write (label : String) (token : Option String) (r : Outcome)
  | send (label : String) (r : Outcome)
  | awaitClosed (label : String) (r : Outcome)
  | future (number : Nat) (r : Outcome)

end Loopback.Replay
