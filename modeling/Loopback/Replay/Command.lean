import Loopback.Feature
import Loopback.Replay.State

/-!
# Commands of a replay

A command is one request to a pair or to one of its streams. `Replay.perform` carries it out, lets
everything settle and answers with the outcome, the events and the log lines of that time. A call
that has not returned by then answers `blocked`, and its return is told by a later event.
-/

namespace Loopback.Replay

/-- A handle on a pair: the handle that it was made from, the side that it stands for and the label
it is known by. -/
structure Handle where
  base : Side
  side : Side
  label : String
  deriving DecidableEq, Repr

/-- The handle of a label: the letter of a side, followed by `~` for each step to the other side
and `+` for each further handle on the same side. -/
def Handle.ofLabel (label : String) : Handle :=
  let base : Side := if label.toList.head? = some 'b' then .b else .a
  let side := label.toList.foldl (fun s c => if c = '~' then s.other else s) base
  ⟨base, side, label⟩

/-- What can be asked for through a handle. -/
inductive HandleOp where
  | write (token : Option String)
  | send (data : Bytes) (cancel : Bool)
  | receive (actions : List Action)
  | sink
  | shutDown
  | close
  | isOpen
  | onClose (reaction : Option Reaction)
  | awaitClosed
  /-- Make a future for the close of the side. -/
  | closed
  /-- Which way the handle points. -/
  | direction
  | connection
  | config
  | feature (name : String)
  | keyed (key : String) (op : KeyedOp)

/-- What can be asked for. -/
inductive Command where
  | on (h : Handle) (op : HandleOp)
  | stream (name : String) (op : StreamOp)
  | pollSink (number : Nat)
  /-- Run up to `count` tasks, each the one at position `i`. -/
  | run (count i : Nat)
  | counts
  | poll (future : Nat)
  | await (future : Nat)
  | interrupt (token : String)
  | clear (token : String)
  | isInterrupted (token : String)
  | dropHandle (s : Side)

/-- What a command came to: its outcome, the events in the groups in which they happened, and the
log lines, the oldest first. -/
structure Report where
  outcome : Outcome
  events : List (List Event)
  log : List Line

/-! ## Tokens, streams and books -/

/-- The number of the token of this name, which is made when the name is new. -/
def token (name : String) (r : Replay) : Replay × Nat :=
  match r.tokens.lookup name with
  | some t => (r, t)
  | none =>
      let (link, t) := r.link.addToken
      ({ r.setLink link with tokens := (name, t) :: r.tokens }, t)

/-- A call on the stream of this name has not returned. -/
def isBusy (name : String) (r : Replay) : Bool :=
  r.callers.any (·.origin == .stream name)

/-- Takes the events that happened since the last time, oldest first. -/
def takeEvents (r : Replay) : Replay × List Event :=
  ({ r with events := [] }, r.events.reverse)

/-- Takes the log lines since the last time, oldest first. -/
def takeLog (r : Replay) : Replay × List Line :=
  (r.setLink { r.link with log := [] }, r.link.log.reverse)

/-! ## Carrying out commands -/

/-- Answers `outcome` once everything has settled. -/
def answer (outcome : Outcome) (r : Replay) : Replay × Outcome × List (List Event) :=
  let (r, events) := r.settle.takeEvents
  (r, outcome, [events])

/-- Starts a caller and lets everything settle; answers what the caller returned. -/
def call (origin : Origin) (holdsPair : Bool) (script : Script Outcome) (r : Replay) :
    Replay × Outcome × List (List Event) :=
  let r := { r with current := some (r.nextCaller, none) }
  let r := (r.start origin holdsPair script).settle
  let outcome :=
    match r.current with
    | some (_, some outcome) => outcome
    | _ => .blocked
  { r with current := none }.answer outcome

/-- Makes one call that cannot block. -/
def ask (holdsPair : Bool) (c : Call Receiver CloseHandler) (r : Replay) :
    Replay × Outcome × List (List Event) :=
  r.call .silent holdsPair do return .ofResult (← Script.make c)

/-- Runs up to `count` tasks at position `i`, each until everything has settled. Answers how many
ran, how many of them had not returned then, and the events of each. -/
def runTasks (i : Nat) : Nat → Replay → Replay × Nat × Nat × List (List Event)
  | 0, r => (r, 0, 0, [])
  | count + 1, r =>
      match r.startTask? i with
      | none => (r, 0, 0, [])
      | some (r, id) =>
          let (r, events) := r.settle.takeEvents
          let late := if r.callers.any (·.id == id) then 1 else 0
          let (r, ran, blocked, groups) := runTasks i count r
          (r, ran + 1, blocked + late, events :: groups)

/-- Registers a sink on `side`. -/
def registerSink (number : Nat) (side : Side) : Script Outcome := do
  match ← Script.make (.receive side (.sink number Tally.zero)) with
  | .ok _ => return .sink number
  | result =>
      let _ ← Script.put (.lost number)
      return .ofResult result

/-- Carries out an operation through an existing handle. -/
def performOn (h : Handle) (r : Replay) : HandleOp → Replay × Outcome × List (List Event)
  | .write name =>
      let (r, token) :=
        match name with
        | some name => (r.token name).map id some
        | none => (r, none)
      r.call (.write h.label name) true do
        match ← Script.make (.write h.side token false) with
        | .ok (.message m) => return .writer (← Script.put (.writer m))
        | result => return .ofResult result
  | .send data cancel => r.call (.send h.label) true (Replay.send h.side data cancel)
  | .receive actions =>
      let number := r.receivers.size
      { r with receivers := r.receivers.push 0 }.call .silent true do
        match ← Script.make (.receive h.side (.scripted number actions)) with
        | .ok _ => return .receiver number
        | result => return .ofResult result
  | .sink =>
      let number := r.sinks.size
      { r with sinks := r.sinks.push .pending }.call .silent true (registerSink number h.side)
  | .shutDown => r.ask true (.shutDown h.side)
  | .close => r.ask true (.close h.side)
  | .isOpen => r.ask true (.isOpen h.side)
  | .onClose reaction =>
      let number := r.closeHandlers
      { r with closeHandlers := number + 1 }.call .silent true do
        let _ ← Script.make (.onClose h.side (.scripted number reaction))
        return .handler number
  | .awaitClosed =>
      r.call (.awaitClosed h.label) true do
        let _ ← Script.make (.awaitClosed h.side)
        return .closed
  | .closed =>
      let (link, signal) := r.link.addSignal
      let number := r.futures.size
      { r.setLink link with futures := r.futures.push (some signal) }.call .silent true do
        let _ ← Script.make (.onClose h.side (.signal signal))
        return .future number
  | .direction => r.answer (.stream (.text h.side.arrow))
  | .connection => r.answer (.connection (r.link.context h.side).connection)
  | .config => r.answer (.sizes (r.link.stations.get h.side).config)
  | .feature name =>
      let f : Feature Unit := ⟨name⟩
      r.answer (.feature f.isSupported f.value (f.offer ()) f.value)
  | .keyed key op =>
      let station := r.link.stations.get h.side
      let (keys, attachments, value) := r.keys.perform key op station.attachments
      let stations := r.link.stations.set h.side { station with attachments }
      { r.setLink { r.link with stations } with keys }.answer (.keyed value)

/-- Carries out an operation on the stream of this name. -/
def performStream (name : String) (op : StreamOp) (r : Replay) :
    Replay × Outcome × List (List Event) :=
  match r.streams.find? (·.name == name) with
  | none => r.answer .missing
  | some s =>
      if r.isBusy name then r.answer .busy
      else if s.dropped then r.answer .gone
      else
        let streams :=
          match op with
          | .letGo _ =>
              r.streams.map fun s => if s.name == name then { s with dropped := true } else s
          | _ => r.streams
        { r with streams }.call (.stream name) false (op.script s.message)

/-- The future of this number, unless it was taken. -/
def future? (number : Nat) (r : Replay) : Option Nat := (r.futures[number]?).join

/-- Carries out a command. An operation through a handle that was let go of does nothing. -/
def carryOut (r : Replay) : Command → Replay × Outcome × List (List Event)
  | .on h op => if r.handles.get h.base then r.performOn h op else r.answer .gone
  | .stream name op => r.performStream name op
  | .pollSink k =>
      match r.sinks[k]? with
      | none => r.answer .missing
      | some .pending => r.answer .pending
      | some .gone => r.answer .lost
      | some (.reported t) => { r with sinks := r.sinks.setIfInBounds k .gone }.answer (.tally t)
  | .run count i =>
      let (r, ran, blocked, groups) := r.runTasks i count
      (r, .ran ran r.link.tasks.length blocked, groups)
  | .counts =>
      r.answer (.counts (r.link.context .a).remoteClosed (r.link.context .b).remoteClosed)
  | .poll f =>
      match (r.future? f).bind fun i => r.link.signals[i]? with
      | none => r.answer .missing
      | some signal => r.answer (if signal.raised then .ready else .pending)
  | .await f =>
      match r.future? f with
      | none => r.answer .missing
      | some i =>
          { r with futures := r.futures.setIfInBounds f none }.call (.future f) false do
            let _ ← Script.make (.await i)
            return .ready
  | .interrupt name =>
      let (r, t) := r.token name
      r.ask false (.interrupt t)
  | .clear name =>
      let (r, t) := r.token name
      r.ask false (.clear t)
  | .isInterrupted name =>
      let (r, t) := r.token name
      r.ask false (.isInterrupted t)
  | .dropHandle s => { r with handles := r.handles.set s false }.answer (.flag (r.handles.get s))

/-- Carries out a command and reports what it came to. -/
def perform (c : Command) (r : Replay) : Replay × Report :=
  let (r, outcome, events) := r.carryOut c
  let (r, log) := r.takeLog
  (r, ⟨outcome, events, log⟩)

end Loopback.Replay
