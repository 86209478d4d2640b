import Loopback.Condition
import Loopback.Progress

/-!
# Bounded byte pipes

One message travels through one pipe. A write waits for room and a read waits for bytes; either end
can be closed. Closing the write end lets the reader drain what is buffered and then see the end of
the stream; closing the read end drops what is buffered and makes every write fail.

Each function below is what a caller does while it holds the lock of the pipe. `Pipe.step` carries
out one call; a caller that sleeps takes the same step again once it was woken.
-/

namespace Loopback

/-- A pipe, and who waits on it. -/
structure Pipe where
  ring : Ring
  writerClosed : Bool
  readerClosed : Bool
  /-- Readers waiting for bytes or for the write end to close. -/
  readable : Condition Nat
  /-- Writers waiting for room or for the read end to close. -/
  writable : Condition Nat

/-- An end of a pipe. -/
inductive PipeEnd where
  | writer
  | reader
  deriving DecidableEq, Repr

/-- The other end. -/
def PipeEnd.other : PipeEnd → PipeEnd
  | .writer => .reader
  | .reader => .writer

/-- The number of an end as a caller. -/
def PipeEnd.caller : PipeEnd → Nat
  | .writer => 0
  | .reader => 1

/-- What can be asked of a pipe. -/
inductive PipeCall where
  /-- Write as much of `data` as fits. -/
  | write (data : Bytes)
  /-- Ask whether the pipe is still usable. -/
  | flush
  | closeWriter
  /-- Ask whether the write end was closed. -/
  | writerClosed
  /-- Read at most `limit` bytes. -/
  | read (limit : Nat)
  /-- Discard at most `count` bytes. -/
  | skip (count : Nat)
  /-- Ask how many bytes can be read without waiting. -/
  | available
  | closeReader
  | mark (limit : Nat)
  | markSupported
  | reset
  deriving DecidableEq, Repr

/-- The end that a call is made on. -/
def PipeCall.madeOn : PipeCall → PipeEnd
  | .write _ | .flush | .closeWriter | .writerClosed => .writer
  | _ => .reader

/-- The call that lets go of an end. -/
def PipeEnd.letGo : PipeEnd → PipeCall
  | .writer => .closeWriter
  | .reader => .closeReader

namespace Pipe

/-- A pipe whose buffer holds `capacity` bytes. -/
def create (capacity : Nat) : Pipe :=
  ⟨Ring.create capacity, false, false, Condition.empty, Condition.empty⟩

/-- An end is closed, so that no byte can get through any more. -/
def isBroken (p : Pipe) : Bool := p.writerClosed || p.readerClosed

/-- Writes as many bytes as fit. Waits while the buffer is full and both ends are open; an empty
write asks nothing of the pipe. -/
def write (who : Nat) (data : Bytes) (p : Pipe) : Pipe × Turn (Except Failure Nat) :=
  if data.isEmpty then (p, .returns (.ok 0))
  else
    let p := { p with writable := p.writable.leave who }
    if p.isBroken then (p, .returns (.error .pipeClosed))
    else if p.ring.remaining = 0 then ({ p with writable := p.writable.sleep who }, .sleeps)
    else
      let (ring, n) := p.ring.write data
      ({ p with ring, readable := p.readable.notifyAll }, .returns (.ok n))

/-- Written bytes are visible at once, so flushing only tells whether the pipe is usable. -/
def flush (p : Pipe) : Except Failure Unit :=
  if p.isBroken then .error .pipeClosed else .ok ()

/-- Closes the write end; the second time nothing happens. -/
def closeWriter (p : Pipe) : Pipe :=
  if p.writerClosed then p
  else { p with writerClosed := true, readable := p.readable.notifyAll }

/-- Reads at most `limit` bytes. Waits while the buffer is empty and both ends are open; answers
no byte only at the end of the stream or when none was asked for. -/
def read (who limit : Nat) (p : Pipe) : Pipe × Turn (Except Failure Bytes) :=
  if limit = 0 then (p, .returns (.ok []))
  else
    let p := { p with readable := p.readable.leave who }
    if p.readerClosed then (p, .returns (.error .pipeClosed))
    else if !p.ring.isEmpty then
      let (ring, data) := p.ring.read limit
      ({ p with ring, writable := p.writable.notifyAll }, .returns (.ok data))
    else if p.writerClosed then (p, .returns (.ok []))
    else ({ p with readable := p.readable.sleep who }, .sleeps)

/-- Discards at most `count` bytes, waiting as a read does. -/
def skip (who count : Nat) (p : Pipe) : Pipe × Turn (Except Failure Nat) :=
  if count = 0 then (p, .returns (.ok 0))
  else
    let p := { p with readable := p.readable.leave who }
    if p.readerClosed then (p, .returns (.error .pipeClosed))
    else if !p.ring.isEmpty then
      let (ring, n) := p.ring.skip count
      ({ p with ring, writable := p.writable.notifyAll }, .returns (.ok n))
    else if p.writerClosed then (p, .returns (.ok 0))
    else ({ p with readable := p.readable.sleep who }, .sleeps)

/-- Bytes that can be read without waiting. -/
def available (p : Pipe) : Except Failure Nat :=
  if p.readerClosed then .error .pipeClosed else .ok p.ring.len

/-- Closes the read end and drops what is buffered; the second time nothing happens. -/
def closeReader (p : Pipe) : Pipe :=
  if p.readerClosed then p
  else
    { p with readerClosed := true, ring := p.ring.clear, writable := p.writable.notifyAll }

/-- A turn as progress of the call `again`, which a sleeper takes up again. -/
def progress {α : Type} (again : PipeCall) (reply : α → Reply) :
    Turn (Except Failure α) → Progress PipeCall Result
  | .sleeps => .asleep again
  | .returns r => .done (r.map reply)

/-- One step of the call `c` of the caller `who`. -/
def step (who : Nat) (c : PipeCall) (p : Pipe) : Pipe × Progress PipeCall Result :=
  match c with
  | .write data => (p.write who data).map id (progress c .count)
  | .flush => (p, .done (p.flush.map fun _ => .unit))
  | .closeWriter => (p.closeWriter, .done (.ok .unit))
  | .writerClosed => (p, .done (.ok (.flag p.writerClosed)))
  | .read limit => (p.read who limit).map id (progress c .bytes)
  | .skip count => (p.skip who count).map id (progress c .count)
  | .available => (p, .done (p.available.map .count))
  | .closeReader => (p.closeReader, .done (.ok .unit))
  | .mark _ => (p, .done (.ok .unit))
  | .markSupported => (p, .done (.ok (.flag false)))
  | .reset => (p, .done (.error .markNotSupported))

/-- The caller `who` is asleep on the pipe. -/
def isAsleep (who : Nat) (p : Pipe) : Bool :=
  p.readable.asleep.contains who || p.writable.asleep.contains who

end Pipe

end Loopback
