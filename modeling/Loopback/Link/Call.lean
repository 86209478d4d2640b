import Loopback.Link

/-!
# Calls on a link

A `Call` is a call in progress, at the stage it has reached: what is left of it begins with one
section under one lock, or with one access to a flag. `Link.step` carries out that one step. Any
number of callers may be between their steps at the same time, so every interleaving of calls is a
sequence of steps.

Two numbers make a step deterministic: `who` names the caller, and `pick` says which sleeper a
single notification wakes.
-/

namespace Loopback

/-- A call in progress. -/
inductive Call (ρ η : Type) where
  /-- Start a message from side `source`; `woken` when the caller slept and was woken. -/
  | write (source : Side) (token : Option Nat) (woken : Bool)
  /-- Hand tasks to the executor, one by one, then end in `r`. -/
  | submit (tasks : List (Task ρ η)) (r : Result)
  /-- Stop writes from side `source`. -/
  | shutDown (source : Side)
  /-- Register a receiver on `side`. -/
  | receive (side : Side) (receiver : ρ)
  /-- Close `side`. -/
  | close (side : Side)
  /-- This caller closes `side`: its endpoint comes next. -/
  | closeEndpoint (side : Side)
  /-- The endpoint is closed: that is reported next. -/
  | closeReport (side : Side)
  /-- The context of the other side is told next. -/
  | closeNotify (side : Side)
  /-- The other side knows: the close is completed next. -/
  | closeComplete (side : Side)
  /-- Register a close handler on `side`. -/
  | onClose (side : Side) (handler : η)
  /-- Wait until `side` has completed its close. -/
  | awaitClosed (side : Side)
  /-- Ask whether closing `side` was not begun. -/
  | isOpen (side : Side)
  /-- Set a token and wake every writer blocked under it. -/
  | interrupt (token : Nat)
  /-- The token is set: its registry is copied next. -/
  | interruptCopy (token : Nat)
  /-- Wake the writers at each of these places, one place after the other. -/
  | interruptWake (places : List Side)
  /-- Clear a token. -/
  | clear (token : Nat)
  /-- Ask whether a token is set. -/
  | isInterrupted (token : Nat)
  /-- Raise a signal. -/
  | raise (signal : Nat)
  /-- Wait for a signal. -/
  | await (signal : Nat)
  /-- Use one end of a message. -/
  | stream (m : Nat) (c : MessageCall)
  /-- Add a line to the log. -/
  | report (line : Line)

namespace Call

variable {ρ η : Type}

/-- A call begins here; what is no entry is a later stage of a call. Only a line that a receiver
reports is a call of its own. -/
def isEntry : Call ρ η → Bool
  | .write _ _ woken => !woken
  | .stream _ c => c.isEntry
  | .report line => line.isFromReceiver
  | .submit _ _ | .closeEndpoint _ | .closeReport _ | .closeNotify _ | .closeComplete _ => false
  | .interruptCopy _ | .interruptWake _ => false
  | _ => true

/-- The message and the end of it that a call is made on. -/
def madeOn? : Call ρ η → Option (Nat × PipeEnd)
  | .stream m c => c.madeOn?.map (m, ·)
  | _ => none

end Call

namespace Link

variable {ρ η : Type}

/-- The outcome of one attempt to write from `source`: a message that was taken is created, and one
that was handed over becomes a task of the other side. -/
def finishWrite (source : Side) (token : Option Nat) (e : Endpoint ρ Nat) (entry : Entry ρ)
    (l : Link ρ η) : Link ρ η × Progress (Call ρ η) Result :=
  let target := source.other
  let m := l.messages.size
  let l := l.setEndpoint target e
  match entry with
  | .refused why => (l, .done (.error why))
  | .sleeps => (l.modifyToken? token (·.park target), .asleep (.write source token true))
  | .queued =>
      ((l.addMessage source).report (.queued target e.mailbox.size e.mailbox.capacity),
        .done (.ok (.message m)))
  | .handed r =>
      ((l.addMessage source).report (.handed target),
        .more (.submit [.receive target ⟨r, .message m⟩] (.ok (.message m))))

/-- One attempt of the caller `who` to write from `source`. A writer that slept takes its entry out
of the registry of its token first. -/
def stepWrite (pick who : Nat) (source : Side) (token : Option Nat) (woken : Bool)
    (l : Link ρ η) : Link ρ η × Progress (Call ρ η) Result :=
  let target := source.other
  let l := if woken then l.modifyToken? token (·.unpark target) else l
  let interrupted := l.isInterrupted token
  let attempt := if woken then Endpoint.resume else Endpoint.enter
  let (e, entry) := attempt pick ⟨who, token⟩ interrupted l.messages.size (l.endpoint target)
  l.finishWrite source token e entry

/-- One registration of a receiver on `side`. -/
def stepReceive (pick : Nat) (side : Side) (r : ρ) (l : Link ρ η) :
    Link ρ η × Progress (Call ρ η) Result :=
  let (e, registration) := (l.endpoint side).register pick r
  let l := l.setEndpoint side e
  match registration with
  | .refused => (l, .done (.error .alreadyWaiting))
  | .waits => (l, .done (.ok .unit))
  | .given d =>
      let l :=
        match d.delivery with
        | .message _ => l.report (.dequeued side e.mailbox.size)
        | .finish => l
      (l, .more (.submit [.receive side d] (.ok .unit)))

/-- Stops writes from `source`. -/
def stepShutDown (source : Side) (l : Link ρ η) : Link ρ η × Progress (Call ρ η) Result :=
  let target := source.other
  let first := !(l.endpoint target).closed
  let (e, d?) := (l.endpoint target).shutDown
  let l := l.setEndpoint target e
  let l := if first then l.report (.shutDown target) else l
  match d? with
  | some d => (l, .more (.submit [.receive target d] (.ok .unit)))
  | none => (l, .done (.ok .unit))

/-- One step of the call `c` of the caller `who`. -/
def step (pick who : Nat) (c : Call ρ η) (l : Link ρ η) :
    Link ρ η × Progress (Call ρ η) Result :=
  match c with
  | .write source token woken => l.stepWrite pick who source token woken
  | .submit [] r => (l, .done r)
  | .submit [t] r => ({ l with tasks := l.tasks ++ [t] }, .done r)
  | .submit (t :: ts) r => ({ l with tasks := l.tasks ++ [t] }, .more (.submit ts r))
  | .shutDown source => l.stepShutDown source
  | .receive side r => l.stepReceive pick side r
  | .close side =>
      let (closing, first) := (l.closing side).begin
      (l.setClosing side closing, if first then .more (.closeEndpoint side) else .done (.ok .unit))
  | .closeEndpoint side =>
      (l.setEndpoint side (l.endpoint side).closeOff, .more (.closeReport side))
  | .closeReport side => (l.report (.closed side), .more (.closeNotify side))
  | .closeNotify side => (l.notifyRemoteClosed side.other, .more (.closeComplete side))
  | .closeComplete side =>
      let (closing, handlers) := (l.closing side).complete
      (l.setClosing side closing, .more (.submit (handlers.map (.closed side ·)) (.ok .unit)))
  | .onClose side h =>
      let (closing, back) := (l.closing side).add h
      (l.setClosing side closing,
        match back with
        | some h => .more (.submit [.closed side h] (.ok .unit))
        | none => .done (.ok .unit))
  | .awaitClosed side =>
      let (closing, complete) := (l.closing side).wait who
      (l.setClosing side closing, if complete then .done (.ok .unit) else .asleep c)
  | .isOpen side => (l, .done (.ok (.flag (l.closing side).isOpen)))
  | .interrupt t => (l.modifyToken t Token.interrupt, .more (.interruptCopy t))
  | .interruptCopy t =>
      (l, .more (.interruptWake ((l.tokens[t]?.map Token.parked).getD [])))
  | .interruptWake [] => (l, .done (.ok .unit))
  | .interruptWake (s :: places) =>
      (l.setEndpoint s (l.endpoint s).wakeWriters, .more (.interruptWake places))
  | .clear t =>
      (l.modifyToken t fun token => token.clear.1,
        .done (.ok (.flag (l.isInterrupted (some t)))))
  | .isInterrupted t => (l, .done (.ok (.flag (l.isInterrupted (some t)))))
  | .raise i => ({ l with signals := l.signals.modify i Signal.raise }, .done (.ok .unit))
  | .await i =>
      match l.signals[i]? with
      | none => (l, .done (.ok .unit))
      | some signal =>
          let (signal, complete) := signal.wait who
          ({ l with signals := l.signals.setIfInBounds i signal },
            if complete then .done (.ok .unit) else .asleep c)
  | .stream m c =>
      match l.messages[m]? with
      | none => (l, .done (.error .pipeClosed))
      | some message =>
          let (message, progress) := message.step who c
          let l := { l with messages := l.messages.setIfInBounds m message }
          let l :=
            match c with
            | .hangUp _ => l.report .cancelled
            | _ => l
          (l,
            match progress with
            | .more c => .more (.stream m c)
            | .asleep c => .asleep (.stream m c)
            | .done r => .done r)
  | .report line => (l.report line, .done (.ok .unit))

/-- The caller `who` of the call `c` sleeps, so that its call cannot go on. -/
def isAsleep (who : Nat) (c : Call ρ η) (l : Link ρ η) : Bool :=
  match c with
  | .write source _ _ => (l.endpoint source.other).writers.asleep.any (·.caller == who)
  | .awaitClosed side => (l.closing side).finished.asleep.contains who
  | .await i =>
      match l.signals[i]? with
      | some signal => signal.waiting.asleep.contains who
      | none => false
  | .stream m _ =>
      match l.messages[m]? with
      | some message => message.pipe.isAsleep who
      | none => false
  | _ => false

end Link

end Loopback
