import Loopback.Link.Machine
import Loopback.Replay.Handler

/-!
# Runs of callers on a link

A replay is a machine together with the callers that are at work on it and the books of the run:
the named stream handles, the sinks, the futures. Each caller follows a script, whose calls it makes
through the machine. `Replay.settle` steps the callers until each one has returned or sleeps, which
is one schedule of the machine: a caller goes on until it returns or sleeps, then the
longest-living caller that can go on has its turn.
-/

namespace Loopback

namespace Replay

/-- What a caller was started for, which decides how its return is told. -/
inductive Origin where
  /-- A call on the stream of this name. -/
  | stream (name : String)
  | write (label : String) (token : Option String)
  | send (label : String)
  | awaitClosed (label : String)
  | future (number : Nat)
  /-- A task of the executor, or a command that cannot block. -/
  | silent
  deriving DecidableEq, Repr

/-- The event that tells a late return. -/
def Origin.event? (o : Origin) (r : Outcome) : Option Event :=
  match o with
  | .stream name => some (.stream name r)
  | .write label token => some (.write label token r)
  | .send label => some (.send label r)
  | .awaitClosed label => some (.awaitClosed label r)
  | .future number => some (.future number r)
  | .silent => none

/-- A caller at work. -/
structure Caller where
  id : Nat
  origin : Origin
  /-- The caller has a handle on the pair, which keeps both endpoints alive. -/
  holdsPair : Bool
  script : Script Outcome

/-- A stream known by name: one end of a message. -/
structure StreamHandle where
  name : String
  message : Nat
  /-- The end was let go of. -/
  dropped : Bool

/-- What is known of a sink. -/
inductive SinkState where
  | pending
  | reported (t : Tally)
  /-- It was let go of, or its tally was taken. -/
  | gone
  deriving DecidableEq, Repr

end Replay

/-- A machine, its callers and the books of the run. -/
structure Replay where
  machine : Machine Replay.Receiver Replay.CloseHandler
  /-- Tasks start as soon as they are handed over. -/
  immediate : Bool
  /-- The handle of each side exists. -/
  handles : Both Bool
  /-- Both endpoints went away. -/
  released : Bool
  /-- The callers that have not returned, in the order in which they were started. -/
  callers : List Replay.Caller
  nextCaller : Nat
  /-- The caller that had the last turn. -/
  focus : Nat
  /-- The caller that carries out the current command, and what it returned. -/
  current : Option (Nat × Option Replay.Outcome)
  streams : List Replay.StreamHandle
  writers : Nat
  /-- How often each receiver was invoked, by number. -/
  receivers : Array Nat
  closeHandlers : Nat
  sinks : Array Replay.SinkState
  /-- The signal of each future that was not taken. -/
  futures : Array (Option Nat)
  /-- The number of each token known by name. -/
  tokens : List (String × Nat)
  keys : KeyRing
  /-- Newest first. -/
  events : List Replay.Event

namespace Replay

/-- A fresh pair and nobody at work. -/
def create (config : Config) (first : String) (second : Option String) (immediate : Bool) :
    Replay where
  machine := Machine.create (Link.create config first second)
  immediate := immediate
  handles := Both.same true
  released := false
  callers := []
  nextCaller := 0
  focus := 0
  current := none
  streams := []
  writers := 0
  receivers := #[]
  closeHandlers := 0
  sinks := #[]
  futures := #[]
  tokens := []
  keys := KeyRing.empty
  events := []

/-- The link that the run is about. -/
def link (r : Replay) : Link Receiver CloseHandler := r.machine.link

/-- Replaces the link. -/
def setLink (l : Link Receiver CloseHandler) (r : Replay) : Replay :=
  { r with machine := { r.machine with link := l } }

/-! ## Callers -/

/-- Starts a caller, whose turn it is next. -/
def start (origin : Origin) (holdsPair : Bool) (script : Script Outcome) (r : Replay) : Replay :=
  { r with
    callers := r.callers ++ [⟨r.nextCaller, origin, holdsPair, script⟩]
    nextCaller := r.nextCaller + 1
    focus := r.nextCaller }

/-- The caller can go on: it is in no call, or in one that is not asleep. -/
def canGoOn (c : Caller) (r : Replay) : Bool :=
  r.machine.isIdle c.id || r.machine.canStep c.id

/-- The caller whose turn it is: the one that had the last turn if it can go on, else the one that
was started first of those that can. -/
def turn? (r : Replay) : Option Caller :=
  match r.callers.find? fun c => c.id == r.focus && r.canGoOn c with
  | some c => some c
  | none => r.callers.find? r.canGoOn

/-- Replaces what is left of the script of the caller `id`. -/
def setScript (id : Nat) (script : Script Outcome) (r : Replay) : Replay :=
  { r with
    callers := r.callers.map fun c => if c.id == id then { c with script } else c }

/-- The caller returns. -/
def finish (c : Caller) (outcome : Outcome) (r : Replay) : Replay :=
  let r := { r with callers := r.callers.filter (·.id != c.id) }
  match r.current with
  | some (id, none) =>
      if id == c.id then { r with current := some (id, some outcome) }
      else { r with events := (c.origin.event? outcome).toList ++ r.events }
  | _ => { r with events := (c.origin.event? outcome).toList ++ r.events }

/-- Makes an entry in the books; answers the number that it was given. -/
def enter (n : Note) (r : Replay) : Replay × Nat :=
  match n with
  | .event e => ({ r with events := e :: r.events }, 0)
  | .invocation i =>
      ({ r with receivers := r.receivers.modify i (· + 1) }, (r.receivers[i]?).getD 0)
  | .writer m =>
      let handle : StreamHandle := ⟨s!"w{r.writers}", m, false⟩
      ({ r with streams := r.streams ++ [handle], writers := r.writers + 1 }, r.writers)
  | .reader name m =>
      ({ r with streams := r.streams ++ [⟨"m" ++ name, m, false⟩] }, 0)
  | .tally k t => ({ r with sinks := r.sinks.setIfInBounds k (.reported t) }, 0)
  | .lost k => ({ r with sinks := r.sinks.setIfInBounds k .gone }, 0)

/-- The caller `c`, whose script comes to the call `call`, begins it or takes one step of it; a
result of the call decides by `k` how the script goes on. -/
def stepCall (pick : Nat) (c : Caller) (call : Call Receiver CloseHandler)
    (k : Result → Script Outcome) (r : Replay) : Replay :=
  let (machine, result) := (r.machine.begin c.id call).step c.id pick
  let r := { r with machine }
  match result with
  | some result => r.setScript c.id (k result)
  | none => r

/-- One step of the caller `c`. -/
def stepCaller (pick : Nat) (c : Caller) (r : Replay) : Replay :=
  match c.script with
  | .done outcome => r.finish c outcome
  | .call call k => r.stepCall pick c call k
  | .transfer m t k =>
      match t.next with
      | .inr answer => r.setScript c.id (k answer)
      | .inl call =>
          r.stepCall pick c (.stream m (.start call)) fun result => .transfer m (t.feed result) k
  | .note n k =>
      let (r, number) := r.enter n
      r.setScript c.id (k number)

/-! ## Tasks and lifetimes -/

/-- Starts the task at position `i`; answers the number of its caller. -/
def startTask? (i : Nat) (r : Replay) : Option (Replay × Nat) :=
  (r.machine.takeTask? i).map fun (task, machine) =>
    ({ r with machine }.start .silent true (taskScript task), r.nextCaller)

/-- Something still refers to the pair: a handle, a task, or a caller at work on it. -/
def isReferred (r : Replay) : Bool :=
  r.handles.a || r.handles.b || !r.link.tasks.isEmpty || r.callers.any (·.holdsPair)

/-- A receiver is let go of. -/
def dropReceiver (r : Replay) : Receiver → Replay
  | .scripted _ _ => r
  | .sink k _ => (r.enter (.lost k)).1

/-- A close handler is let go of; a future that waits for it has nothing more to wait for. -/
def dropHandler (r : Replay) : CloseHandler → Replay
  | .signal i => r.setLink { r.link with signals := r.link.signals.modify i Signal.raise }
  | _ => r

/-- Both endpoints go away, with all that they keep. -/
def release (r : Replay) : Replay :=
  let (link, receivers, handlers) := r.link.release
  let r := { r.setLink link with released := true }
  handlers.foldl dropHandler (receivers.foldl dropReceiver r)

/-- One step of the whole: of the caller whose turn it is, or the start of a task that waits for
nothing, or the release of a pair that nothing refers to. -/
def step? (r : Replay) : Option Replay :=
  match r.turn? with
  | some c => some ({ r with focus := c.id }.stepCaller 0 c)
  | none =>
      match if r.immediate then r.startTask? 0 else none with
      | some (r, _) => some r
      | none => if r.released || r.isReferred then none else some r.release

/-- Steps until nobody can go on, for at most `fuel` steps. -/
def settleWithin : Nat → Replay → Replay
  | 0, r => r
  | fuel + 1, r =>
      match r.step? with
      | some r => settleWithin fuel r
      | none => r

/-- More steps than a run takes. -/
def plenty : Nat := 1 <<< 62

/-- Steps until nobody can go on. -/
def settle (r : Replay) : Replay := settleWithin plenty r

end Replay

end Loopback
