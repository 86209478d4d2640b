import Loopback.Replay.Script

/-!
# Scripts of senders and handlers

What the callers of a run do: sending a whole message, using a stream, and running receivers, sinks
and close handlers as tasks.
-/

namespace Loopback.Replay

open Script

/-- Uses the message `m`. -/
def StreamOp.script (m : Nat) : StreamOp → Script Outcome
  | .plain c => do return .ofResult (← use m (.start c))
  | .io c => do return .ofIoResult (← use m (.start c))
  | .transfer t => do return .stream (← move m t)
  | .cancel => do
      let _ ← use m .cancel
      return .ofResult (← use m .wasCancelled)
  | .wasCancelled => do return .ofResult (← use m .wasCancelled)
  | .letGo e => do
      let _ ← use m (.letGo e)
      return .dropped

/-- Starts a message, writes all of `data` and lets go of it. Unless a failure stops it, the message
is cancelled if asked and then closed. -/
def send (side : Side) (data : Bytes) (cancel : Bool) : Script Outcome := do
  match ← make (.write side none false) with
  | .error e => return .stream (.failed e)
  | .ok (.message m) =>
      let answer ← move m (.writeAll data)
      match answer with
      | .ioFailed _ => pure ()
      | _ =>
          if cancel then
            let _ ← use m .cancel
          let _ ← use m (.start .closeWriter)
      let _ ← use m (.letGo .writer)
      return .stream answer
  | .ok r => return .stream (.reply r)

/-- Starts a message, writes all of `data` and ends the message one way or the other. -/
def say (side : Side) (data : Bytes) (cancel : Bool) : Script Outcome := do
  match ← make (.write side none false) with
  | .error e => return .stream (.failed e)
  | .ok (.message m) =>
      let answer ← move m (.writeAll data)
      let _ ← use m (if cancel then .cancel else .start .closeWriter)
      let _ ← use m (.letGo .writer)
      return .stream answer
  | .ok r => return .stream (.reply r)

/-- The name of what the `round`-th invocation of a receiver was given. -/
def invocationName (number round : Nat) : String := s!"{number}.{round}"

/-- A scripted receiver at work. -/
structure Invocation where
  number : Nat
  /-- How often the receiver was invoked before. -/
  round : Nat
  side : Side
  /-- All actions, to register them again. -/
  actions : List Action
  /-- The message, unless there is none or it was taken. -/
  message : Option Nat
  remembered : Bytes

namespace Invocation

/-- Acts on the message, or on nothing when there is none. -/
def withMessage (i : Invocation) (f : Nat → Script (Invocation × Outcome)) :
    Script (Invocation × Outcome) :=
  match i.message with
  | some m => f m
  | none => return (i, .nothing)

/-- Carries out one action. -/
def perform (i : Invocation) : Action → Script (Invocation × Outcome)
  | .hold => i.withMessage fun m => do
      let _ ← put (.reader (invocationName i.number i.round) m)
      return ({ i with message := none }, .held)
  | .drop =>
      match i.message with
      | none => return (i, .flag false)
      | some m => do
          let _ ← use m (.letGo .reader)
          return ({ i with message := none }, .flag true)
  | .get => i.withMessage fun m => do
      let answer ← move m (.readAll 65536 [])
      let remembered :=
        match answer with
        | .collected data _ => data
        | _ => i.remembered
      return ({ i with remembered }, .stream answer)
  | .stream (.letGo e) => i.withMessage fun m => do
      return ({ i with message := none }, ← (StreamOp.letGo e).script m)
  | .stream op => i.withMessage fun m => do return (i, ← op.script m)
  | .say data cancel => do return (i, ← Replay.say i.side data cancel)
  | .echo => do return (i, ← Replay.say i.side i.remembered.reverse false)
  | .again rounds =>
      if i.round < rounds then do
        let r ← make (.receive i.side (.scripted i.number i.actions))
        return (i, .ofResult r)
      else return (i, .enough)
  | .close => do
      let _ ← make (.close i.side)
      return (i, .ofResult (← make (.isOpen i.side)))
  | .shutDown => do return (i, .ofResult (← make (.shutDown i.side)))
  | .isOpen => do return (i, .ofResult (← make (.isOpen i.side)))

/-- Carries out actions one after the other. -/
def performAll : List Action → Invocation → Script (Invocation × List Outcome)
  | [], i => return (i, [])
  | a :: as, i => do
      let (i, outcome) ← i.perform a
      let (i, outcomes) ← performAll as i
      return (i, outcome :: outcomes)

/-- Carries out all actions, lets go of what is left of the message and tells what happened. -/
def script (i : Invocation) : Script Outcome := do
  let finish := i.message.isNone
  let (i', acts) ← performAll i.actions i
  match i'.message with
  | some m =>
      let _ ← use m (.letGo .reader)
  | none => pure ()
  let _ ← put (.event (.invoked i.number i.round i.side finish acts))
  return .unit

end Invocation

/-- Reports lines to the log. -/
def reportAll : List Line → Script Unit
  | [] => return ()
  | line :: rest => do
      let _ ← make (.report line)
      reportAll rest

/-- A sink drains its message and registers again. -/
def sinkMessage (number : Nat) (tally : Tally) (side : Side) (m : Nat) : Script Outcome := do
  let (count, failure) :=
    match ← move m Sink.transfer with
    | .drained count failure => (count, failure)
    | _ => (0, none)
  let tally := tally.absorb count
  reportAll (tally.lines failure)
  match ← make (.receive side (.sink number tally)) with
  | .ok _ => pure ()
  | .error e =>
      let _ ← make (.report (.registerFailed e.message))
      let _ ← put (.lost number)
  let _ ← use m (.letGo .reader)
  return .unit

/-- A sink is told that no message follows. -/
def sinkFinish (number : Nat) (tally : Tally) : Script Outcome := do
  let _ ← make (.report (.finished tally.messages))
  let _ ← put (.tally number tally)
  return .unit

/-- A receiver runs with a handle on `side`. -/
def Receiver.script (side : Side) : Receiver → Delivery Nat → Script Outcome
  | .scripted number actions, d => do
      let round ← put (.invocation number)
      let message :=
        match d with
        | .message m => some m
        | .finish => none
      Invocation.script ⟨number, round, side, actions, message, []⟩
  | .sink number tally, .message m => sinkMessage number tally side m
  | .sink number tally, .finish => sinkFinish number tally

/-- What a close handler does on `side` beside being observed. -/
def Reaction.script (number : Nat) (side : Side) : Reaction → Script Outcome
  | .shutDown => do return .ofResult (← make (.shutDown side))
  | .closeOther => do return .ofResult (← make (.close side.other))
  | .write => do
      match ← make (.write side none false) with
      | .ok (.message m) =>
          let _ ← use m (.letGo .writer)
          return .written
      | r => return .ofResult r
  | .nested => do return .ofResult (← make (.onClose side (.nested number)))

/-- A close handler runs with a handle on `side`. -/
def CloseHandler.script (side : Side) : CloseHandler → Script Outcome
  | .scripted number reaction => do
      let r ←
        match reaction with
        | some reaction => reaction.script number side
        | none => pure .nothing
      match ← make (.isOpen side) with
      | .ok (.flag b) => let _ ← put (.event (.closed number side b r))
      | _ => pure ()
      return .unit
  | .nested number => do
      let _ ← put (.event (.nested number))
      return .unit
  | .signal i => do
      let _ ← make (.raise i)
      return .unit

/-- A task runs. -/
def taskScript : Task Receiver CloseHandler → Script Outcome
  | .receive side d => d.receiver.script side d.delivery
  | .closed side h => h.script side

end Loopback.Replay
