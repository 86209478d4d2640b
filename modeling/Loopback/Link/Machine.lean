import Loopback.Link.Call

/-!
# Interleaved callers

A machine is a link together with the calls in progress on it. A `Move` is what can happen next: a
caller begins a call, a caller takes one step of its call, a sleeper wakes without a notification,
or the executor takes a task off its queue. Any sequence of moves is a schedule, so what holds
after every list of moves holds for every interleaving of the callers. A move that is not possible
changes nothing: a caller is in one call at a time, and so is an end of a message.
-/

namespace Loopback

namespace Condition

variable {ι : Type}

/-- The longest-asleep caller that `p` accepts wakes without a notification. -/
def rouseWhere (p : ι → Bool) (c : Condition ι) : Condition ι := c.rouse (c.asleep.findIdx p)

end Condition

/-- The caller `who` wakes from a sleep on the pipe without a notification. -/
def Pipe.rouse (who : Nat) (p : Pipe) : Pipe :=
  { p with
    readable := p.readable.rouseWhere (· == who)
    writable := p.writable.rouseWhere (· == who) }

namespace Link

variable {ρ η : Type}

/-- The caller `who` of the call `c` wakes without a notification. -/
def rouse (who : Nat) (c : Call ρ η) (l : Link ρ η) : Link ρ η :=
  match c with
  | .write source _ _ =>
      let e := l.endpoint source.other
      l.setEndpoint source.other { e with writers := e.writers.rouseWhere (·.caller == who) }
  | .awaitClosed side =>
      let c := l.closing side
      l.setClosing side { c with finished := c.finished.rouseWhere (· == who) }
  | .await i =>
      { l with
        signals := l.signals.modify i fun s =>
          { s with waiting := s.waiting.rouseWhere (· == who) } }
  | .stream m _ =>
      { l with messages := l.messages.modify m fun msg => { msg with pipe := msg.pipe.rouse who } }
  | _ => l

/-- Takes the task at position `i` off the queue. -/
def takeTask? (i : Nat) (l : Link ρ η) : Option (Task ρ η × Link ρ η) :=
  l.tasks[i]?.map fun t => (t, { l with tasks := l.tasks.eraseIdx i })

end Link

/-- A link and the calls in progress on it. -/
structure Machine (ρ η : Type) where
  link : Link ρ η
  /-- The call of each caller that is inside one. -/
  calls : List (Nat × Call ρ η)

/-- What can happen next. -/
inductive Move (ρ η : Type) where
  /-- A caller that is in no call begins one, on a stream that nobody uses. -/
  | begin (who : Nat) (c : Call ρ η)
  /-- A caller that is not asleep takes one step. -/
  | step (who pick : Nat)
  /-- A caller wakes without a notification. -/
  | rouse (who : Nat)
  /-- The executor takes the task at position `i`. -/
  | takeTask (i : Nat)

namespace Machine

variable {ρ η : Type}

/-- A fresh machine: nobody is in a call. -/
def create (l : Link ρ η) : Machine ρ η := ⟨l, []⟩

/-- The call that the caller `who` is in. -/
def call? (who : Nat) (m : Machine ρ η) : Option (Call ρ η) := m.calls.lookup who

/-- The caller `who` is in no call. -/
def isIdle (who : Nat) (m : Machine ρ η) : Bool := (m.call? who).isNone

/-- The caller `who` is in a call and can take a step. -/
def canStep (who : Nat) (m : Machine ρ η) : Bool :=
  match m.call? who with
  | some c => !m.link.isAsleep who c
  | none => false

/-- No call in progress is made on the end of a message that `c` is made on. -/
def isFree (c : Call ρ η) (m : Machine ρ η) : Bool :=
  match c.madeOn? with
  | none => true
  | some e => m.calls.all fun (_, other) => other.madeOn? != some e

/-- The caller `who` can begin the call `c`. -/
def canBegin (who : Nat) (c : Call ρ η) (m : Machine ρ η) : Bool :=
  m.isIdle who && c.isEntry && m.isFree c

/-- The caller `who` begins the call `c`. -/
def begin (who : Nat) (c : Call ρ η) (m : Machine ρ η) : Machine ρ η :=
  if m.canBegin who c then { m with calls := m.calls ++ [(who, c)] } else m

/-- Replaces the call of the caller `who`. -/
def setCall (who : Nat) (c : Call ρ η) (m : Machine ρ η) : Machine ρ η :=
  { m with calls := m.calls.map fun (id, old) => (id, if id == who then c else old) }

/-- The caller `who` takes one step; answers the result of a call that is over. -/
def step (who pick : Nat) (m : Machine ρ η) : Machine ρ η × Option Result :=
  match m.call? who with
  | none => (m, none)
  | some c =>
      if m.link.isAsleep who c then (m, none)
      else
        let (link, progress) := m.link.step pick who c
        let m := { m with link }
        match progress with
        | .more c => (m.setCall who c, none)
        | .asleep c => (m.setCall who c, none)
        | .done r => ({ m with calls := m.calls.filter (·.1 != who) }, some r)

/-- The caller `who` wakes without a notification. -/
def rouse (who : Nat) (m : Machine ρ η) : Machine ρ η :=
  match m.call? who with
  | none => m
  | some c => { m with link := m.link.rouse who c }

/-- The executor takes the task at position `i`. -/
def takeTask? (i : Nat) (m : Machine ρ η) : Option (Task ρ η × Machine ρ η) :=
  (m.link.takeTask? i).map fun (t, link) => (t, { m with link })

/-- The machine after one move. -/
def move (m : Machine ρ η) : Move ρ η → Machine ρ η
  | .begin who c => m.begin who c
  | .step who pick => (m.step who pick).1
  | .rouse who => m.rouse who
  | .takeTask i => ((m.takeTask? i).map (·.2)).getD m

/-- The machine after a schedule. -/
def run (m : Machine ρ η) (moves : List (Move ρ η)) : Machine ρ η := moves.foldl move m

end Machine

end Loopback
