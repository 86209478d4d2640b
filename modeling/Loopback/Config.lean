/-!
# Tuning of a pair

A mailbox must hold at least one message and a pipe at least one byte, otherwise writers could
never proceed; the builder functions see to it. A `Config` built field by field may say zero: the
mailbox and the ring buffer then count it as one themselves.
-/

namespace Loopback

/-- The sizes that a pair is built with. -/
structure Config where
  /-- Most undelivered messages that an endpoint queues. -/
  queueLength : Nat
  /-- Capacity in bytes of the pipe behind each message. -/
  bufferSize : Nat
  deriving DecidableEq, Repr

namespace Config

/-- Undelivered messages that an endpoint queues by default. -/
def defaultQueueLength : Nat := 8

/-- Capacity in bytes of a pipe by default. -/
def defaultBufferSize : Nat := 8192

/-- The default sizes. -/
def standard : Config := ⟨defaultQueueLength, defaultBufferSize⟩

/-- Sets the queue length, at least one message. -/
def withQueueLength (n : Nat) (c : Config) : Config := { c with queueLength := max n 1 }

/-- Sets the buffer size, at least one byte. -/
def withBufferSize (n : Nat) (c : Config) : Config := { c with bufferSize := max n 1 }

/-- Diagnostic text. -/
def describe (c : Config) : String :=
  s!"ChannelConfig \x7b queue_length: {c.queueLength}, buffer_size: {c.bufferSize} \x7d"

end Config

end Loopback
