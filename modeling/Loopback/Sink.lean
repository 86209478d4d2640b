import Loopback.Trace
import Loopback.Transfer

/-!
# Message sinks

A sink is a receiver that drains every message and registers again until the end of the stream,
keeping a tally. A message that cannot be read to its end counts as a message, with the bytes that
were read of it.
-/

namespace Loopback

/-- What a sink has received. -/
structure Tally where
  messages : Nat
  bytes : Nat
  deriving DecidableEq, Repr

namespace Tally

/-- Nothing was received. -/
def zero : Tally := ⟨0, 0⟩

/-- One more message, of which `count` bytes were read. -/
def absorb (count : Nat) (t : Tally) : Tally := ⟨t.messages + 1, t.bytes + count⟩

/-- The lines that a sink reports when a message brought its tally to `t`: the failure that ended
the message, then the progress after every hundredth message. -/
def lines (failure : Option IoFailure) (t : Tally) : List Line :=
  (failure.map fun e => Line.readFailed e.message).toList ++
    (if t.messages % 100 = 0 then [Line.drained t.messages] else [])

end Tally

namespace Sink

/-- How many bytes a sink reads at a time. -/
def chunk : Nat := 64 * 1024

/-- How a sink reads a message. -/
def transfer : Transfer := .drain chunk 0

end Sink

end Loopback
