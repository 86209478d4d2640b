import Loopback.Side

/-!
# Log lines

What a pair and a message sink report while they run, as data; `Line.level` and `Line.text` give
the wording. A line names an endpoint by its side.
-/

namespace Loopback

/-- How important a line is. -/
inductive Level where
  | trace
  | debug
  | info
  | error
  deriving DecidableEq, Repr

/-- The name of a level. -/
def Level.name : Level → String
  | .trace => "TRACE"
  | .debug => "DEBUG"
  | .info => "INFO"
  | .error => "ERROR"

/-- One line of the log. -/
inductive Line where
  /-- A pair was built. -/
  | created
  /-- A message went straight to the receiver waiting on `side`. -/
  | handed (side : Side)
  /-- A message was queued on `side`, whose mailbox now holds `size` of `capacity` messages. -/
  | queued (side : Side) (size capacity : Nat)
  /-- A receiver on `side` took a queued message and left `size` of them. -/
  | dequeued (side : Side) (size : Nat)
  /-- Writes towards `side` were shut down. -/
  | shutDown (side : Side)
  /-- `side` was closed. -/
  | closed (side : Side)
  /-- A connection was told that a remote side closed, for the `count`-th time. -/
  | remoteClosed (name : String) (count : Nat)
  /-- A writer cancelled its message. -/
  | cancelled
  /-- A sink could not read a message to its end. -/
  | readFailed (message : String)
  /-- A sink has received `messages` messages, a round number of them. -/
  | drained (messages : Nat)
  /-- A sink could not register again. -/
  | registerFailed (message : String)
  /-- A sink was told that no message follows the `messages` it received. -/
  | finished (messages : Nat)
  deriving DecidableEq, Repr

namespace Line

/-- A receiver reports the line, and not the pair. -/
def isFromReceiver : Line → Bool
  | .readFailed _ | .drained _ | .registerFailed _ | .finished _ => true
  | _ => false

/-- The importance of a line. -/
def level : Line → Level
  | .handed _ => .trace
  | .queued _ _ _ => .trace
  | .dequeued _ _ => .trace
  | .finished _ => .info
  | .readFailed _ => .error
  | .registerFailed _ => .error
  | _ => .debug

/-- The wording of a line. -/
def text : Line → String
  | .created => s!"Created local channel pair {Side.a.letter} <-> {Side.b.letter}"
  | .handed s => s!"Endpoint {s.letter}: message handed to waiting receiver"
  | .queued s n c => s!"Endpoint {s.letter}: message queued ({n}/{c})"
  | .dequeued s n => s!"Endpoint {s.letter}: dequeued message ({n} left)"
  | .shutDown s => s!"Endpoint {s.letter}: writes shut down"
  | .closed s => s!"Endpoint {s.letter}: closed"
  | .remoteClosed name n => s!"Remote side closed on connection {name} ({n} notifications)"
  | .cancelled => "Message cancelled by writer"
  | .readFailed m => s!"Message read failed: {m}"
  | .drained n => s!"Progress: {n} messages received"
  | .registerFailed m => s!"Failed to re-register receiver: {m}"
  | .finished n => s!"End of stream after {n} messages"

/-- The line as it stands in a log. -/
def render (l : Line) : String := l.level.name ++ " " ++ l.text

end Line

end Loopback
