import Loopback.Link.Machine

/-!
# What happens along a schedule

A step of a caller shows what was decided under the lock: that a message was taken, that a receiver
was registered, that a receiver was given something to run with, or what became of the bytes of a
message. These are the events of the step, read off the answer that the caller gets. A history is
the list of the events of a schedule, oldest first, together with the tasks that the executor
started. No step looks at it.
-/

namespace Loopback

/-- What becomes of the bytes of one message. -/
inductive StreamEvent where
  /-- A write was answered: the pipe took `data`. -/
  | wrote (data : Bytes)
  /-- The writer closed the message, or let go of it. -/
  | ended
  /-- The cancel flag was set. -/
  | cancelled
  /-- A read of at most `asked` bytes, or a skip of as many, took `data` out of the pipe. -/
  | drew (asked : Nat) (data : Bytes)
  /-- The read or skip that was in the pipe last is answered with `r`. -/
  | answered (r : Result)

/-- What happens on a link. -/
inductive Event (ρ η : Type) where
  /-- The endpoint of `side` took the message `m`. -/
  | delivered (side : Side) (m : Nat)
  /-- The endpoint of `side` took the receiver `r`. -/
  | registered (side : Side) (r : ρ)
  /-- It was decided what a receiver gets, to be run with a handle on `side`. -/
  | dispatched (side : Side) (d : Dispatch ρ Nat)
  /-- The executor started a task. -/
  | started (t : Task ρ η)
  | stream (m : Nat) (e : StreamEvent)

namespace Message

/-- The events of one step of the call `c` that leads to `p`. The bytes that a skip throws away are
those in front of the queue in the ring. -/
def events (m : Message) (c : MessageCall) (p : Progress MessageCall Result) :
    List StreamEvent :=
  match c, p with
  | .start (.write data), .done (.ok (.count n)) => [.wrote (data.take n)]
  | .inPipe _ (.write data), .done (.ok (.count n)) => [.wrote (data.take n)]
  | .start .closeWriter, .done _ => [.ended]
  | .inPipe _ .closeWriter, .done _ => [.ended]
  | .raiseFlag _, _ => [.cancelled]
  | .inPipe _ (.read limit), .more (.settle (.ok (.bytes data))) => [.drew limit data]
  | .inPipe _ (.skip count), .more (.settle (.ok (.count n))) =>
      [.drew count (m.pipe.ring.contents.take n)]
  | .settle _, .done r => [.answered r]
  | _, _ => []

end Message

namespace Link

variable {ρ η : Type}

/-- The receivers among `tasks` and what they are given. -/
def dispatches (tasks : List (Task ρ η)) : List (Event ρ η) :=
  tasks.filterMap fun
    | .receive side d => some (.dispatched side d)
    | .closed _ _ => none

/-- The events of one step of the call `c` of the caller `who`. -/
def events (pick who : Nat) (c : Call ρ η) (l : Link ρ η) : List (Event ρ η) :=
  match c, (l.step pick who c).2 with
  | .write source _ _, .done (.ok (.message m)) => [.delivered source.other m]
  | .write source _ _, .more (.submit tasks (.ok (.message m))) =>
      .delivered source.other m :: dispatches tasks
  | .receive side r, .done (.ok _) => [.registered side r]
  | .receive side r, .more (.submit tasks _) => .registered side r :: dispatches tasks
  | .shutDown _, .more (.submit tasks _) => dispatches tasks
  | .stream k c, _ =>
      match l.messages[k]? with
      | some m => (m.events c (m.step who c).2).map (.stream k)
      | none => []
  | _, _ => []

end Link

namespace Machine

variable {ρ η : Type}

/-- The events of one move. -/
def events (m : Machine ρ η) : Move ρ η → List (Event ρ η)
  | .step who pick =>
      match m.call? who with
      | some c => if m.link.isAsleep who c then [] else m.link.events pick who c
      | none => []
  | .takeTask i => m.link.tasks[i]?.toList.map .started
  | _ => []

/-- The events of a schedule, oldest first. -/
def history (m : Machine ρ η) : List (Move ρ η) → List (Event ρ η)
  | [] => []
  | mv :: moves => m.events mv ++ (m.move mv).history moves

/-- A fresh pair with so many tokens and signals, on which nobody is in a call. -/
def fresh (config : Config) (first : String) (second : Option String) (tokens signals : Nat) :
    Machine ρ η :=
  create
    { Link.create config first second with
      tokens := Array.replicate tokens Token.create
      signals := Array.replicate signals Signal.create }

end Machine

/-! ## Reading a history -/

namespace Event

variable {ρ η : Type}

/-- The message that the endpoint of `side` took, if that is what happened. -/
def delivered? (side : Side) : Event ρ η → Option Nat
  | .delivered s m => if s = side then some m else none
  | _ => none

/-- The receiver that the endpoint of `side` took. -/
def registered? (side : Side) : Event ρ η → Option ρ
  | .registered s r => if s = side then some r else none
  | _ => none

/-- What a receiver gets, to be run with a handle on `side`. -/
def dispatched? (side : Side) : Event ρ η → Option (Dispatch ρ Nat)
  | .dispatched s d => if s = side then some d else none
  | _ => none

/-- What a receiver is run with, on a handle of `side`. -/
def started? (side : Side) : Event ρ η → Option (Dispatch ρ Nat)
  | .started (.receive s d) => if s = side then some d else none
  | _ => none

/-- What became of the bytes of message `m`. -/
def stream? (m : Nat) : Event ρ η → Option StreamEvent
  | .stream k e => if k = m then some e else none
  | _ => none

end Event

section Readings

variable {ρ η β : Type} {f : Event ρ η → Option β}

/-- A reading that looks for something else finds nothing among decisions. -/
theorem filterMap_dispatches (blind : ∀ s d, f (.dispatched s d) = none)
    (tasks : List (Task ρ η)) : (Link.dispatches tasks).filterMap f = [] := by
  induction tasks with
  | nil => rfl
  | cons t tasks ih =>
    cases t with
    | closed side handler => exact ih
    | receive side d =>
      show (Event.dispatched side d :: Link.dispatches tasks).filterMap f = []
      rw [List.filterMap_cons_none (blind side d)]
      exact ih

/-- A reading that looks for something else finds nothing in the stream of message `k`. -/
theorem filterMap_stream {k : Nat} (blind : ∀ e, f (.stream k e) = none)
    (es : List StreamEvent) : (es.map (.stream k : _ → Event ρ η)).filterMap f = [] := by
  induction es with
  | nil => rfl
  | cons e es ih =>
    rw [List.map_cons, List.filterMap_cons_none (blind e)]
    exact ih

end Readings

end Loopback
