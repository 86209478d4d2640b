import Loopback.Attachments.KeyRing
import Loopback.Closing
import Loopback.Config
import Loopback.Context
import Loopback.Endpoint
import Loopback.Message
import Loopback.Side
import Loopback.Signal
import Loopback.Token
import Loopback.Trace

/-!
# Links

A link is everything that the callers on a pair share: the two stations, the messages written so
far, the interrupt tokens, the contexts, the tasks handed to the executor and not started, and the
log. What callers do to it, step by step, is in `Loopback.Link.Call`.
-/

namespace Loopback

/-- One side of a pair: its sizes, its receiving endpoint, its close state and its attachments. -/
structure Station (ρ η : Type) where
  config : Config
  endpoint : Endpoint ρ Nat
  closing : Closing η
  attachments : Attachments Kind.Value

/-- Work for the executor: to run a receiver or a close handler with a handle on `side`. -/
inductive Task (ρ η : Type) where
  | receive (side : Side) (d : Dispatch ρ Nat)
  | closed (side : Side) (handler : η)

/-- The state shared by all callers on one pair, with receivers of type `ρ` and close handlers of
type `η`. -/
structure Link (ρ η : Type) where
  stations : Both (Station ρ η)
  /-- The context of each side; when `shared`, both sides report to that of side `a`. -/
  contexts : Both Context
  shared : Bool
  /-- Every message ever written, by number. -/
  messages : Array Message
  tokens : Array (Token Side)
  signals : Array Signal
  /-- Tasks that were handed over and not started, oldest first. -/
  tasks : List (Task ρ η)
  /-- Newest line first. -/
  log : List Line

namespace Link

variable {ρ η : Type}

/-- A fresh pair on one connection (`second` is `none`) or on one connection for each side. -/
def create (config : Config) (first : String) (second : Option String) : Link ρ η where
  stations :=
    Both.same ⟨config, Endpoint.create config.queueLength, Closing.create, Attachments.empty⟩
  contexts := ⟨Context.ofName first, Context.ofName (second.getD first)⟩
  shared := second.isNone
  messages := #[]
  tokens := #[]
  signals := #[]
  tasks := []
  log := [.created]

/-- Whose context a side reports to. -/
def owner (l : Link ρ η) (s : Side) : Side := if l.shared then .a else s

/-- The context of a side. -/
def context (l : Link ρ η) (s : Side) : Context := l.contexts.get (l.owner s)

/-- The endpoint of a side. -/
def endpoint (l : Link ρ η) (s : Side) : Endpoint ρ Nat := (l.stations.get s).endpoint

/-- The close state of a side. -/
def closing (l : Link ρ η) (s : Side) : Closing η := (l.stations.get s).closing

/-- Replaces the endpoint of a side. -/
def setEndpoint (s : Side) (e : Endpoint ρ Nat) (l : Link ρ η) : Link ρ η :=
  { l with stations := l.stations.modify s fun st => { st with endpoint := e } }

/-- Replaces the close state of a side. -/
def setClosing (s : Side) (c : Closing η) (l : Link ρ η) : Link ρ η :=
  { l with stations := l.stations.modify s fun st => { st with closing := c } }

/-- Adds a line to the log. -/
def report (line : Line) (l : Link ρ η) : Link ρ η := { l with log := line :: l.log }

/-- Tells the context of a side that its remote side has closed. -/
def notifyRemoteClosed (s : Side) (l : Link ρ η) : Link ρ η :=
  let c := (l.context s).notify
  ({ l with contexts := l.contexts.set (l.owner s) c } : Link ρ η).report
    (.remoteClosed c.connection.name c.remoteClosed)

/-- The token is set; a write without a token is never interrupted. -/
def isInterrupted (token : Option Nat) (l : Link ρ η) : Bool :=
  match token.bind fun t => l.tokens[t]? with
  | some t => t.isSet
  | none => false

/-- Changes one token. -/
def modifyToken (t : Nat) (f : Token Side → Token Side) (l : Link ρ η) : Link ρ η :=
  { l with tokens := l.tokens.modify t f }

/-- Changes the token of a write, if it has one. -/
def modifyToken? (token : Option Nat) (f : Token Side → Token Side) (l : Link ρ η) :
    Link ρ η :=
  match token with
  | some t => l.modifyToken t f
  | none => l

/-- Adds a fresh message written by side `s`. -/
def addMessage (s : Side) (l : Link ρ η) : Link ρ η :=
  { l with messages := l.messages.push (Message.create (l.stations.get s).config.bufferSize) }

/-- Adds a token; answers its number. -/
def addToken (l : Link ρ η) : Link ρ η × Nat :=
  ({ l with tokens := l.tokens.push Token.create }, l.tokens.size)

/-- Adds a signal; answers its number. -/
def addSignal (l : Link ρ η) : Link ρ η × Nat :=
  ({ l with signals := l.signals.push Signal.create }, l.signals.size)

/-- Closes the read end of a message whose reader went away. -/
def dropReader (m : Nat) (l : Link ρ η) : Link ρ η :=
  { l with messages := l.messages.modify m fun msg => { msg with pipe := msg.pipe.closeReader } }

/-- The pair goes away: the readers of queued messages are dropped, and so are waiting receivers
and close handlers, which are answered. -/
def release (l : Link ρ η) : Link ρ η × List ρ × List η :=
  let queued := l.stations.a.endpoint.mailbox.queue ++ l.stations.b.endpoint.mailbox.queue
  let receivers := l.stations.a.endpoint.pending.toList ++ l.stations.b.endpoint.pending.toList
  let handlers := l.stations.a.closing.handlers ++ l.stations.b.closing.handlers
  let strip (st : Station ρ η) : Station ρ η :=
    { st with
      endpoint :=
        { st.endpoint with
          mailbox := { st.endpoint.mailbox with queue := [] }
          pending := none }
      closing := { st.closing with handlers := [] } }
  let l := queued.foldl (fun l m => l.dropReader m) l
  ({ l with stations := ⟨strip l.stations.a, strip l.stations.b⟩ }, receivers, handlers)

end Link

end Loopback
