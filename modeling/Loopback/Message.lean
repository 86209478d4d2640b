import Loopback.Pipe

/-!
# Messages

A message is a pipe together with a cancel flag that has a lock of its own. Cancelling sets the
flag and then closes the write end, in two steps. Writing operations cancel the message when the
pipe refuses them, so that the reader sees a cancellation and never a shorter message. Reading
operations look at the flag before they touch the pipe, and those that may wait look again when the
pipe has answered, since a cancellation that arrives meanwhile wakes them as the end of the stream
would.
-/

namespace Loopback

/-- The byte stream of one message. -/
structure Message where
  pipe : Pipe
  cancelled : Bool

/-- How an operation on the pipe of a message minds the cancel flag. -/
inductive FlagRule where
  /-- Not at all. -/
  | ignores
  /-- A failure cancels the message. -/
  | cancelsOnFailure
  /-- A set flag refuses the operation. -/
  | checksFirst
  /-- A set flag refuses the operation, and is looked at again after it. -/
  | checksTwice
  deriving DecidableEq, Repr

/-- The rule of each operation when it is made through the ends of a message. -/
def PipeCall.flagRule : PipeCall → FlagRule
  | .write _ => .cancelsOnFailure
  | .flush => .cancelsOnFailure
  | .closeWriter => .cancelsOnFailure
  | .writerClosed => .ignores
  | .read _ => .checksTwice
  | .skip _ => .checksTwice
  | .available => .checksFirst
  | .closeReader => .checksFirst
  | .mark _ => .ignores
  | .markSupported => .ignores
  | .reset => .checksFirst

/-- A call on one end of a message, at the stage it has reached. -/
inductive MessageCall where
  /-- Nothing was done yet. -/
  | start (c : PipeCall)
  /-- The pipe comes next, under the rule `rule`. -/
  | inPipe (rule : FlagRule) (c : PipeCall)
  /-- The pipe has answered, and the flag is looked at again. -/
  | settle (r : Result)
  /-- The flag is set next, and the call ends in `r`. -/
  | raiseFlag (r : Result)
  /-- The flag is set; the write end is closed next, and the call ends in `r`. -/
  | hangUp (r : Result)
  /-- Ask whether the message was cancelled. -/
  | wasCancelled

namespace MessageCall

/-- The writer cancels the message. -/
def cancel : MessageCall := .raiseFlag (.ok .unit)

/-- Whoever has an end lets go of it: the end is closed, whatever the flag says. -/
def letGo (e : PipeEnd) : MessageCall := .inPipe .ignores e.letGo

/-- The end that a call is made on; either end can tell whether the message was cancelled, and no
other call on it has to wait for that. -/
def madeOn? : MessageCall → Option PipeEnd
  | .start c => some c.madeOn
  | .inPipe _ c => some c.madeOn
  | .settle _ => some .reader
  | .raiseFlag _ => some .writer
  | .hangUp _ => some .writer
  | .wasCancelled => none

/-- A call begins here; what is no entry is a later stage of a call. -/
def isEntry : MessageCall → Bool
  | .start _ => true
  | .inPipe .ignores c => c == c.madeOn.letGo
  | .raiseFlag (.ok .unit) => true
  | .wasCancelled => true
  | _ => false

/-- What follows once the pipe has answered. -/
def afterPipe (rule : FlagRule) (r : Result) : Progress MessageCall Result :=
  match rule, r with
  | .cancelsOnFailure, .error _ => .more (.raiseFlag r)
  | .checksTwice, _ => .more (.settle r)
  | _, _ => .done r

end MessageCall

namespace Message

/-- A fresh message whose pipe holds `bufferSize` bytes. -/
def create (bufferSize : Nat) : Message := ⟨Pipe.create bufferSize, false⟩

/-- One step on the pipe, under the rule `rule`. -/
def stepPipe (who : Nat) (rule : FlagRule) (c : PipeCall) (m : Message) :
    Message × Progress MessageCall Result :=
  let (pipe, progress) := m.pipe.step who c
  ({ m with pipe },
    match progress with
    | .more c => .more (.inPipe rule c)
    | .asleep c => .asleep (.inPipe rule c)
    | .done r => MessageCall.afterPipe rule r)

/-- One step of the call `c` of the caller `who`. -/
def step (who : Nat) (c : MessageCall) (m : Message) :
    Message × Progress MessageCall Result :=
  match c with
  | .start c =>
      match c.flagRule with
      | .ignores => m.stepPipe who .ignores c
      | .cancelsOnFailure => m.stepPipe who .cancelsOnFailure c
      | rule =>
          (m, if m.cancelled then .done (.error .cancelled) else .more (.inPipe rule c))
  | .inPipe rule c => m.stepPipe who rule c
  | .settle r => (m, .done (if m.cancelled then .error .cancelled else r))
  | .raiseFlag r => ({ m with cancelled := true }, .more (.hangUp r))
  | .hangUp r => ({ m with pipe := m.pipe.closeWriter }, .done r)
  | .wasCancelled => (m, .done (.ok (.flag m.cancelled)))

end Message

end Loopback
