import Loopback.Proofs.Journal
import Loopback.Replay.Command

/-!
# Sizes of zero count as one

The builder functions raise a size of zero to one, and a mailbox and a ring buffer that are asked to
hold nothing hold one as well. So it makes no difference who raises it: a pair made from sizes that
may be zero and one made from the sizes that the builder functions give do the same at every step,
and only the sizes they tell may differ.

A `Retuning` changes the sizes that are kept on the two sides of a pair, which decide nothing but
how much room there is in the pipe of a new message. Everything that a pair does commutes with it
(`Link.step_retune`, `Machine.run_retune`, `Replay.perform_retune`). One retuning raises sizes of
zero (`Config.clamping`). Another changes all sizes but those of `c` (`Config.sparing`), and that a
run commutes with it as well says that a pair made with `c` keeps `c`.
-/

namespace Loopback

/-- A change of the sizes that leaves as much room in a pipe. -/
structure Retuning where
  apply : Config → Config
  room : ∀ c, max (apply c).bufferSize 1 = max c.bufferSize 1

namespace Config

/-- Each size is at least one. -/
def clamped (c : Config) : Config := ⟨max c.queueLength 1, max c.bufferSize 1⟩

/-- Sizes of zero become one. -/
def clamping : Retuning where
  apply := clamped
  room _ := by
    simp only [clamped]
    omega

/-- All sizes but those of `c` are changed, so what stays as it is keeps `c`. -/
def sparing (c : Config) : Retuning where
  apply d := if d = c then d else { d with queueLength := d.queueLength + 1 }
  room d := by split <;> rfl

theorem eq_of_sparing {c d : Config} (h : (sparing c).apply d = d) : d = c := by
  by_contra other
  simp only [sparing, if_neg other] at h
  exact absurd (congrArg queueLength h) (Nat.succ_ne_self _)

/-- The two differ just where a size is zero. -/
theorem clamped_eq_iff (c : Config) :
    (c.clamped.queueLength = c.queueLength ↔ c.queueLength ≠ 0) ∧
      (c.clamped.bufferSize = c.bufferSize ↔ c.bufferSize ≠ 0) := by
  simp only [clamped]
  constructor <;> omega

end Config

/-! ## The builder functions -/

/-- A call of a builder function. -/
inductive Setting where
  | queueLength (n : Nat)
  | bufferSize (n : Nat)

namespace Setting

/-- The sizes after the call. -/
def apply : Setting → Config → Config
  | .queueLength n => Config.withQueueLength n
  | .bufferSize n => Config.withBufferSize n

/-- The queue length that the call asks for. -/
def queueLength? : Setting → Option Nat
  | .queueLength n => some n
  | .bufferSize _ => none

/-- The buffer size that the call asks for. -/
def bufferSize? : Setting → Option Nat
  | .queueLength _ => none
  | .bufferSize n => some n

end Setting

/-- The sizes that some calls of the builder functions give, one after the other. -/
def Config.built (calls : List Setting) : Config :=
  calls.foldl (fun c s => s.apply c) Config.standard

/-- Of all calls with which a size is asked for the last one decides. -/
theorem Config.built_eq (calls : List Setting) :
    Config.built calls =
      ⟨((calls.filterMap Setting.queueLength?).getLast?.map (max · 1)).getD
          Config.defaultQueueLength,
        ((calls.filterMap Setting.bufferSize?).getLast?.map (max · 1)).getD
          Config.defaultBufferSize⟩ := by
  induction calls using List.reverseRecOn with
  | nil => rfl
  | append_singleton calls s ih =>
    rw [Config.built, List.foldl_append, ← Config.built, ih]
    cases s <;> simp [Setting.apply, Setting.queueLength?, Setting.bufferSize?,
      Config.withQueueLength, Config.withBufferSize]

/-! ## The link -/

section Retuned

variable {ρ η : Type}

/-- Other sizes on one side. -/
def Station.retune (f : Retuning) (st : Station ρ η) : Station ρ η :=
  { st with config := f.apply st.config }

/-- Other sizes on both sides. -/
def Link.retune (f : Retuning) (l : Link ρ η) : Link ρ η :=
  { l with stations := ⟨l.stations.a.retune f, l.stations.b.retune f⟩ }

/-- Other sizes on both sides. -/
def Machine.retune (f : Retuning) (m : Machine ρ η) : Machine ρ η :=
  { m with link := m.link.retune f }

end Retuned

theorem Message.create_congr {size size' : Nat} (same : max size 1 = max size' 1) :
    Message.create size = Message.create size' := by
  simp only [Message.create, Pipe.create, Ring.create, same]

namespace Link

variable {ρ η : Type} (f : Retuning) (l : Link ρ η)

@[simp] theorem config_retune (s : Side) :
    ((l.retune f).stations.get s).config = f.apply (l.stations.get s).config := by
  cases s <;> rfl

@[simp] theorem attachments_retune (s : Side) :
    ((l.retune f).stations.get s).attachments = (l.stations.get s).attachments := by
  cases s <;> rfl

@[simp] theorem endpoint_retune (s : Side) : (l.retune f).endpoint s = l.endpoint s := by
  cases s <;> rfl

@[simp] theorem closing_retune (s : Side) : (l.retune f).closing s = l.closing s := by
  cases s <;> rfl

@[simp] theorem isInterrupted_retune (token : Option Nat) :
    (l.retune f).isInterrupted token = l.isInterrupted token := rfl

@[simp] theorem setEndpoint_retune (s : Side) (e : Endpoint ρ Nat) :
    (l.retune f).setEndpoint s e = (l.setEndpoint s e).retune f := by
  cases s <;> rfl

@[simp] theorem setClosing_retune (s : Side) (c : Closing η) :
    (l.retune f).setClosing s c = (l.setClosing s c).retune f := by
  cases s <;> rfl

@[simp] theorem report_retune (x : Line) : (l.retune f).report x = (l.report x).retune f := rfl

@[simp] theorem modifyToken?_retune (token : Option Nat) (g : Token Side → Token Side) :
    (l.retune f).modifyToken? token g = (l.modifyToken? token g).retune f := by
  cases token <;> rfl

/-- A new message gets as much room. -/
@[simp] theorem addMessage_retune (s : Side) :
    (l.retune f).addMessage s = (l.addMessage s).retune f := by
  simp only [addMessage, config_retune, Message.create_congr (f.room _)]
  rfl

/-- Whoever sleeps does so whatever the sizes. -/
@[simp] theorem isAsleep_retune (who : Nat) (c : Call ρ η) :
    (l.retune f).isAsleep who c = l.isAsleep who c := by
  cases c <;> simp only [isAsleep, endpoint_retune, closing_retune] <;> rfl

@[simp] theorem rouse_retune (who : Nat) (c : Call ρ η) :
    (l.retune f).rouse who c = (l.rouse who c).retune f := by
  cases c <;> simp only [rouse, endpoint_retune, closing_retune, setEndpoint_retune,
    setClosing_retune] <;> rfl

theorem finishWrite_retune (source : Side) (token : Option Nat) (e : Endpoint ρ Nat)
    (entry : Entry ρ) :
    (l.retune f).finishWrite source token e entry =
      (l.finishWrite source token e entry).map (retune f) id := by
  cases entry <;>
    simp only [finishWrite, setEndpoint_retune, addMessage_retune, report_retune,
      modifyToken?_retune] <;> rfl

theorem stepWrite_retune (pick who : Nat) (source : Side) (token : Option Nat) (woken : Bool) :
    (l.retune f).stepWrite pick who source token woken =
      (l.stepWrite pick who source token woken).map (retune f) id := by
  cases woken with
  | false =>
    simp only [stepWrite_first, isInterrupted_retune, endpoint_retune, finishWrite_retune]
    rfl
  | true =>
    simp only [stepWrite_woken, isInterrupted_retune, endpoint_retune, finishWrite_retune,
      modifyToken?_retune]
    rfl

/-- Every caller takes the same step whatever the sizes. -/
theorem step_retune (pick who : Nat) (c : Call ρ η) :
    (l.retune f).step pick who c = (l.step pick who c).map (retune f) id := by
  cases c with
  | write source token woken => exact stepWrite_retune f l pick who source token woken
  | submit tasks r =>
    match tasks with
    | [] => rfl
    | [x] => rfl
    | x :: y :: tasks => rfl
  | shutDown source =>
    simp only [step, stepShutDown, endpoint_retune, setEndpoint_retune, report_retune]
    cases (l.endpoint source.other).shutDown.2 <;> cases (l.endpoint source.other).closed <;> rfl
  | receive side r =>
    simp only [step, stepReceive, endpoint_retune, setEndpoint_retune, report_retune]
    cases ((l.endpoint side).register pick r).2 with
    | given d => cases h : d.delivery <;> simp [h]
    | _ => rfl
  | close side =>
    simp only [step, closing_retune, setClosing_retune]
    rfl
  | onClose side h =>
    simp only [step, closing_retune, setClosing_retune]
    rfl
  | awaitClosed side =>
    simp only [step, closing_retune, setClosing_retune]
    rfl
  | closeEndpoint side =>
    simp only [step, endpoint_retune, setEndpoint_retune]
    rfl
  | closeComplete side =>
    simp only [step, closing_retune, setClosing_retune]
    rfl
  | isOpen side =>
    simp only [step, closing_retune]
    rfl
  | interruptWake places =>
    cases places with
    | nil => rfl
    | cons s places =>
      simp only [step, endpoint_retune, setEndpoint_retune]
      rfl
  | await i =>
    have signals : (l.retune f).signals = l.signals := rfl
    simp only [step, signals]
    split <;> rfl
  | stream k c =>
    have messages : (l.retune f).messages = l.messages := rfl
    simp only [step, messages]
    split
    · rfl
    · next m found => cases c <;> rfl
  | _ => rfl

/-- What a step decides does not depend on the sizes. -/
theorem events_retune (pick who : Nat) (c : Call ρ η) :
    (l.retune f).events pick who c = l.events pick who c := by
  simp only [events, step_retune, Prod.map_snd, id]
  rfl

/-- The pair goes away in the same way whatever the sizes. -/
theorem release_retune : (l.retune f).release = l.release.map (retune f) id := by
  -- Dropping the readers of queued messages touches messages only.
  have dropped (queued : List Nat) : queued.foldl (fun l m => l.dropReader m) (l.retune f) =
      (queued.foldl (fun l m => l.dropReader m) l).retune f :=
    List.foldl_hom (Link.retune f) fun _ _ => rfl
  simp only [release, dropped]
  rfl

end Link

/-! ## The machine -/

namespace Machine

variable {ρ η : Type} (f : Retuning) (m : Machine ρ η)

@[simp] theorem call?_retune (who : Nat) : (m.retune f).call? who = m.call? who := rfl

@[simp] theorem isIdle_retune (who : Nat) : (m.retune f).isIdle who = m.isIdle who := rfl

@[simp] theorem canStep_retune (who : Nat) : (m.retune f).canStep who = m.canStep who := by
  simp only [canStep, call?, retune, Link.isAsleep_retune]

@[simp] theorem begin_retune (who : Nat) (c : Call ρ η) :
    (m.retune f).begin who c = (m.begin who c).retune f := by
  simp only [begin]
  rw [show (m.retune f).canBegin who c = m.canBegin who c from rfl]
  split <;> rfl

theorem step_retune (who pick : Nat) :
    (m.retune f).step who pick = (m.step who pick).map (retune f) id := by
  simp only [step, call?_retune]
  cases m.call? who with
  | none => rfl
  | some c =>
    simp only [retune, Link.isAsleep_retune, Link.step_retune, Prod.map_fst, Prod.map_snd, id]
    split
    · rfl
    · cases (m.link.step pick who c).2 <;> rfl

theorem takeTask?_retune (i : Nat) :
    (m.retune f).takeTask? i = (m.takeTask? i).map (Prod.map id (retune f)) := by
  simp only [takeTask?, Link.takeTask?]
  rw [show (m.retune f).link.tasks = m.link.tasks from rfl]
  cases m.link.tasks[i]? <;> rfl

/-- At every move the machine does the same whatever the sizes. -/
theorem move_retune (mv : Move ρ η) :
    (m.retune f).move mv = (m.move mv).retune f ∧ (m.retune f).taken? mv = m.taken? mv ∧
      (m.retune f).events mv = m.events mv := by
  cases mv with
  | begin who c => exact ⟨begin_retune f m who c, rfl, rfl⟩
  | rouse who =>
    refine ⟨?_, rfl, rfl⟩
    simp only [move, rouse, call?_retune]
    cases m.call? who with
    | none => rfl
    | some c => simp only [retune, Link.rouse_retune]
  | takeTask i =>
    refine ⟨?_, rfl, rfl⟩
    simp only [move, takeTask?_retune]
    cases m.takeTask? i <;> rfl
  | step who pick =>
    refine ⟨by simp only [move, step_retune, Prod.map_fst], ?_, ?_⟩
    · simp only [taken?, call?_retune]
      simp only [retune, Link.isAsleep_retune, Link.step_retune, Prod.map_snd, id]
    · simp only [events, call?_retune]
      simp only [retune, Link.isAsleep_retune, Link.events_retune]

/-- Along every schedule the machine does the same whatever the sizes. -/
theorem run_retune (schedule : List (Move ρ η)) :
    (m.retune f).run schedule = (m.run schedule).retune f ∧
      (m.retune f).journal schedule = m.journal schedule ∧
      (m.retune f).history schedule = m.history schedule := by
  induction schedule generalizing m with
  | nil => exact ⟨rfl, rfl, rfl⟩
  | cons mv schedule ih =>
    obtain ⟨next, taken, events⟩ := move_retune f m mv
    obtain ⟨run, journal, history⟩ := ih (m.move mv)
    refine ⟨?_, ?_, ?_⟩
    · rw [Machine.run, List.foldl_cons, next]
      exact run
    · rw [Machine.journal, Machine.journal, next, taken, journal]
    · rw [Machine.history, Machine.history, next, events, history]

end Machine

/-! ## Runs of commands -/

/-- Other sizes on both sides. -/
def Replay.retune (f : Retuning) (r : Replay) : Replay := { r with machine := r.machine.retune f }

namespace Replay

variable (f : Retuning) (r : Replay)

@[simp] theorem link_retune : (r.retune f).link = r.link.retune f := rfl

@[simp] theorem machine_retune : (r.retune f).machine = r.machine.retune f := rfl

@[simp] theorem canGoOn_retune (c : Caller) : (r.retune f).canGoOn c = r.canGoOn c := by
  simp only [canGoOn, retune, Machine.isIdle_retune, Machine.canStep_retune]

@[simp] theorem turn?_retune : (r.retune f).turn? = r.turn? := by
  simp only [turn?, canGoOn_retune]
  rfl

@[simp] theorem finish_retune (c : Caller) (outcome : Outcome) :
    (r.retune f).finish c outcome = (r.finish c outcome).retune f := by
  simp only [finish]
  rw [show (r.retune f).current = r.current from rfl]
  split
  · split <;> rfl
  · rfl

@[simp] theorem enter_retune (n : Note) :
    (r.retune f).enter n = (r.enter n).map (retune f) id := by
  cases n <;> rfl

theorem stepCall_retune (pick : Nat) (c : Caller) (call : Call Receiver CloseHandler)
    (k : Result → Script Outcome) :
    (r.retune f).stepCall pick c call k = (r.stepCall pick c call k).retune f := by
  simp only [stepCall, machine_retune, Machine.begin_retune, Machine.step_retune]
  generalize (r.machine.begin c.id call).step c.id pick = stepped
  obtain ⟨machine, result⟩ := stepped
  cases result <;> rfl

theorem stepCaller_retune (pick : Nat) (c : Caller) :
    (r.retune f).stepCaller pick c = (r.stepCaller pick c).retune f := by
  unfold stepCaller
  cases c.script with
  | done outcome => exact finish_retune f r c outcome
  | call call k => exact stepCall_retune f r pick c call k
  | transfer m t k =>
    cases next : t.next with
    | inl call =>
      simp only [next]
      exact stepCall_retune f r pick c _ _
    | inr answer =>
      simp only [next]
      rfl
  | note n k =>
    simp only [enter_retune]
    rfl

theorem startTask?_retune (i : Nat) :
    (r.retune f).startTask? i = (r.startTask? i).map (Prod.map (retune f) id) := by
  simp only [startTask?, machine_retune, Machine.takeTask?_retune]
  cases r.machine.takeTask? i <;> rfl

theorem release_retune : (r.retune f).release = r.release.retune f := by
  have receivers (rs : List Receiver) (r : Replay) :
      rs.foldl dropReceiver (r.retune f) = (rs.foldl dropReceiver r).retune f :=
    List.foldl_hom (retune f) fun r receiver => by cases receiver <;> rfl
  have handlers (hs : List CloseHandler) (r : Replay) :
      hs.foldl dropHandler (r.retune f) = (hs.foldl dropHandler r).retune f :=
    List.foldl_hom (retune f) fun r handler => by cases handler <;> rfl
  simp only [release, link_retune, Link.release_retune, Prod.map_fst, Prod.map_snd, id]
  rw [← handlers, ← receivers]
  rfl

theorem step?_retune : (r.retune f).step? = r.step?.map (retune f) := by
  simp only [step?, turn?_retune, startTask?_retune]
  cases r.turn? with
  | some c => exact congrArg some (stepCaller_retune f { r with focus := c.id } 0 c)
  | none =>
    rw [show (r.retune f).immediate = r.immediate from rfl,
      show (r.retune f).released = r.released from rfl,
      show (r.retune f).isReferred = r.isReferred from rfl]
    cases r.immediate with
    | false =>
      simp only [Bool.false_eq_true, if_false, release_retune]
      split <;> rfl
    | true =>
      simp only [if_true, release_retune]
      cases r.startTask? 0 with
      | some started => rfl
      | none =>
        simp only [Option.map_none]
        split <;> rfl

theorem settleWithin_retune (fuel : Nat) :
    (r.retune f).settleWithin fuel = (r.settleWithin fuel).retune f := by
  induction fuel generalizing r with
  | zero => rfl
  | succ fuel ih =>
    simp only [settleWithin, step?_retune]
    cases r.step? with
    | none => rfl
    | some r => exact ih r

@[simp] theorem settle_retune : (r.retune f).settle = r.settle.retune f :=
  settleWithin_retune f r plenty

theorem answer_retune (outcome : Outcome) :
    (r.retune f).answer outcome = (r.answer outcome).map (retune f) id := by
  simp only [answer, settle_retune]
  rfl

@[simp] theorem takeEvents_retune :
    (r.retune f).takeEvents = r.takeEvents.map (retune f) id :=
  rfl

/-- The caller that carries out a command is started. -/
def launch (origin : Origin) (holdsPair : Bool) (script : Script Outcome) (r : Replay) : Replay :=
  { r with current := some (r.nextCaller, none) }.start origin holdsPair script

/-- The command is answered with what its caller has returned. -/
def conclude (r : Replay) : Replay × Outcome × List (List Event) :=
  { r with current := none }.answer
    (match r.current with
    | some (_, some outcome) => outcome
    | _ => .blocked)

theorem call_eq (origin : Origin) (holdsPair : Bool) (script : Script Outcome) :
    r.call origin holdsPair script = (r.launch origin holdsPair script).settle.conclude :=
  rfl

theorem call_retune (origin : Origin) (holdsPair : Bool) (script : Script Outcome) :
    (r.retune f).call origin holdsPair script =
      (r.call origin holdsPair script).map (retune f) id := by
  -- Settling must not be unfolded: it may take very many steps.
  have launched : (r.retune f).launch origin holdsPair script =
      (r.launch origin holdsPair script).retune f := rfl
  rw [call_eq, call_eq, launched, settle_retune]
  exact answer_retune f { (r.launch origin holdsPair script).settle with current := none } _

theorem ask_retune (holdsPair : Bool) (c : Call Receiver CloseHandler) :
    (r.retune f).ask holdsPair c = (r.ask holdsPair c).map (retune f) id :=
  call_retune f r ..

theorem runTasks_retune (i count : Nat) :
    (r.retune f).runTasks i count = (r.runTasks i count).map (retune f) id := by
  induction count generalizing r with
  | zero => rfl
  | succ count ih =>
    simp only [runTasks, startTask?_retune]
    cases r.startTask? i with
    | none => rfl
    | some started =>
      simp only [Option.map_some, Prod.map_fst, Prod.map_snd, settle_retune, takeEvents_retune, ih,
        id]
      rfl

theorem token_retune (name : String) :
    (r.retune f).token name = (r.token name).map (retune f) id := by
  simp only [token]
  rw [show (r.retune f).tokens = r.tokens from rfl]
  cases r.tokens.lookup name <;> rfl

/-- The command asks for the sizes of a pair. -/
def Command.asksSizes : Command → Bool
  | .on _ .config => true
  | _ => false

theorem Command.eq_of_asksSizes {c : Command} (asks : c.asksSizes = true) :
    ∃ h, c = .on h .config := by
  unfold asksSizes at asks
  split at asks
  · exact ⟨_, rfl⟩
  · cases asks

theorem performOn_retune (h : Handle) (op : HandleOp)
    (other : (Command.on h op).asksSizes = false) :
    (r.retune f).performOn h op = (r.performOn h op).map (retune f) id := by
  cases op with
  | write name =>
    cases name with
    | none => exact call_retune f r ..
    | some name =>
      simp only [performOn, token_retune]
      exact call_retune f (r.token name).1 ..
  | send data cancel => exact call_retune f r ..
  | receive actions => exact call_retune f { r with receivers := r.receivers.push 0 } ..
  | sink => exact call_retune f { r with sinks := r.sinks.push .pending } ..
  | shutDown | close | isOpen => exact ask_retune f r ..
  | onClose reaction =>
    exact call_retune f { r with closeHandlers := r.closeHandlers + 1 } ..
  | awaitClosed => exact call_retune f r ..
  | closed =>
    exact call_retune f
      { r.setLink r.link.addSignal.1 with futures := r.futures.push (some r.link.addSignal.2) } ..
  | direction => exact answer_retune f r _
  | connection => exact answer_retune f r _
  | config => cases other
  | feature name => exact answer_retune f r _
  | keyed key op =>
    obtain ⟨base, side, label⟩ := h
    simp only [performOn, link_retune, Link.attachments_retune]
    rw [show (r.retune f).keys = r.keys from rfl]
    generalize r.keys.perform key op (r.link.stations.get side).attachments = performed
    obtain ⟨keys, attachments, value⟩ := performed
    cases side with
    | a =>
      exact answer_retune f { r.setLink { r.link with
        stations := r.link.stations.set .a { r.link.stations.a with attachments } } with keys } _
    | b =>
      exact answer_retune f { r.setLink { r.link with
        stations := r.link.stations.set .b { r.link.stations.b with attachments } } with keys } _

theorem performStream_retune (name : String) (op : StreamOp) :
    (r.retune f).performStream name op = (r.performStream name op).map (retune f) id := by
  simp only [performStream]
  rw [show (r.retune f).streams = r.streams from rfl,
    show (r.retune f).isBusy name = r.isBusy name from rfl]
  cases r.streams.find? (·.name == name) with
  | none => exact answer_retune f r _
  | some s =>
    simp only
    split
    · exact answer_retune f r _
    · split
      · exact answer_retune f r _
      · cases op with
        | letGo e =>
          exact call_retune f { r with
            streams := r.streams.map fun s =>
              if s.name == name then { s with dropped := true } else s } ..
        | _ => exact call_retune f r ..

/-- Every command that does not ask for the sizes answers the same whatever they are. -/
theorem carryOut_retune (c : Command) (other : c.asksSizes = false) :
    (r.retune f).carryOut c = (r.carryOut c).map (retune f) id := by
  cases c with
  | on h op =>
    simp only [carryOut]
    rw [show (r.retune f).handles = r.handles from rfl]
    split
    · exact performOn_retune f r h op other
    · exact answer_retune f r _
  | stream name op => exact performStream_retune f r name op
  | pollSink k =>
    simp only [carryOut]
    rw [show (r.retune f).sinks = r.sinks from rfl]
    split
    · exact answer_retune f r _
    · exact answer_retune f r _
    · exact answer_retune f r _
    · exact answer_retune f { r with sinks := r.sinks.setIfInBounds k .gone } _
  | run count i =>
    simp only [carryOut, runTasks_retune]
    rfl
  | counts => exact answer_retune f r _
  | poll k =>
    simp only [carryOut]
    rw [show ((r.retune f).future? k).bind (fun i => (r.retune f).link.signals[i]?) =
      (r.future? k).bind (fun i => r.link.signals[i]?) from rfl]
    split <;> exact answer_retune f r _
  | await k =>
    simp only [carryOut]
    rw [show (r.retune f).future? k = r.future? k from rfl]
    split
    · exact answer_retune f r _
    · exact call_retune f { r with futures := r.futures.setIfInBounds k none } ..
  | interrupt name | clear name | isInterrupted name =>
    simp only [carryOut, token_retune]
    exact ask_retune f (r.token name).1 ..
  | dropHandle s => exact answer_retune f { r with handles := r.handles.set s false } _

/-- A command that asks for the sizes tells those that are kept. -/
theorem carryOut_config (h : Handle) :
    (r.retune f).carryOut (.on h .config) =
      ((r.carryOut (.on h .config)).1.retune f,
        if r.handles.get h.base then .sizes (f.apply (r.link.stations.get h.side).config)
        else .gone,
        (r.carryOut (.on h .config)).2.2) := by
  simp only [carryOut]
  rw [show (r.retune f).handles = r.handles from rfl]
  cases r.handles.get h.base with
  | true =>
    simp only [if_true, performOn, link_retune, Link.config_retune, answer_retune]
    rfl
  | false =>
    simp only [Bool.false_eq_true, if_false, answer_retune]
    rfl

theorem carryOut_config_outcome (h : Handle) :
    (r.carryOut (.on h .config)).2.1 =
      if r.handles.get h.base then .sizes (r.link.stations.get h.side).config else .gone := by
  simp only [carryOut]
  split <;> rfl

@[simp] theorem takeLog_retune : (r.retune f).takeLog = r.takeLog.map (retune f) id := rfl

theorem perform_retune (c : Command) (other : c.asksSizes = false) :
    (r.retune f).perform c = (r.perform c).map (retune f) id := by
  simp only [perform, carryOut_retune f r c other, Prod.map_fst, Prod.map_snd, id, takeLog_retune]
  rfl

/-- What is left after a command is the same whatever the sizes. -/
theorem state_perform_retune (c : Command) :
    ((r.retune f).perform c).1 = (r.perform c).1.retune f := by
  cases asks : c.asksSizes with
  | false => rw [perform_retune f r c asks, Prod.map_fst]
  | true =>
    obtain ⟨h, rfl⟩ := Command.eq_of_asksSizes asks
    simp only [perform, carryOut_config, takeLog_retune, Prod.map_fst]

/-- What some commands came to, one after the other. -/
def transcript (r : Replay) : List Command → List (Command × Report)
  | [] => []
  | c :: commands => (c, (r.perform c).2) :: (r.perform c).1.transcript commands

/-- Two reports on a command are the same, or it has asked for the sizes and one report tells `c`
and the other `c'`. -/
inductive Matches (c c' : Config) : Command × Report → Command × Report → Prop where
  | same (x : Command × Report) : Matches c c' x x
  | sizes (h : Handle) (events : List (List Event)) (log : List Line) :
      Matches c c' (.on h .config, ⟨.sizes c, events, log⟩)
        (.on h .config, ⟨.sizes c', events, log⟩)

theorem matches_perform {c : Config} (sizes : ∀ s, (r.link.stations.get s).config = c)
    (command : Command) :
    Matches c (f.apply c) (command, (r.perform command).2)
      (command, ((r.retune f).perform command).2) := by
  cases asks : command.asksSizes with
  | false =>
    rw [perform_retune f r command asks]
    exact .same _
  | true =>
    obtain ⟨h, rfl⟩ := Command.eq_of_asksSizes asks
    have outcome := carryOut_config_outcome r h
    simp only [perform, carryOut_config, takeLog_retune, Prod.map_snd, id, sizes] at outcome ⊢
    rw [outcome]
    cases r.handles.get h.base with
    | true => exact .sizes h _ _
    | false => exact .same _

/-- The reports on a run differ in what is told of the sizes, and in nothing else. -/
theorem matches_transcript {c : Config} (spared : r.retune c.sparing = r)
    (commands : List Command) :
    List.Forall₂ (Matches c (f.apply c)) (r.transcript commands)
      ((r.retune f).transcript commands) := by
  induction commands generalizing r with
  | nil => exact .nil
  | cons command commands ih =>
    -- The sizes that are kept are still `c`, and the command does not change that.
    have sizes : ∀ s, (r.link.stations.get s).config = c := by
      intro s
      have kept := r.link.config_retune c.sparing s
      rw [← link_retune, spared] at kept
      exact Config.eq_of_sparing kept.symm
    have spared' : (r.perform command).1.retune c.sparing = (r.perform command).1 := by
      rw [← state_perform_retune, spared]
    apply List.Forall₂.cons (matches_perform f r sizes command)
    rw [state_perform_retune]
    exact ih _ spared'

end Replay

/-! ## Whoever raises a size of zero -/

theorem Link.create_clamped {ρ η : Type} (c : Config) (first : String) (second : Option String) :
    (Link.create c.clamped first second : Link ρ η) =
      (Link.create c first second).retune Config.clamping := by
  have endpoint : (Endpoint.create c.clamped.queueLength : Endpoint ρ Nat) =
      Endpoint.create c.queueLength := by
    simp only [Endpoint.create, Mailbox.create, Config.clamped, Nat.max_assoc, Nat.max_self]
  simp only [Link.create, endpoint]
  rfl

theorem Link.create_spared {ρ η : Type} (c : Config) (first : String) (second : Option String) :
    (Link.create c first second : Link ρ η) = (Link.create c first second).retune c.sparing := by
  have spared : c.sparing.apply c = c := if_pos rfl
  simp only [retune, create, Station.retune, Both.same, spared]

theorem Machine.fresh_retune {ρ η : Type} {f : Retuning} {c c' : Config} {first : String}
    {second : Option String}
    (link : (Link.create c' first second : Link ρ η) = (Link.create c first second).retune f)
    (tokens signals : Nat) : (Machine.fresh c' first second tokens signals : Machine ρ η) =
      (Machine.fresh c first second tokens signals).retune f := by
  simp only [Machine.fresh, link]
  rfl

theorem Replay.create_retune {f : Retuning} {c c' : Config} {first : String}
    {second : Option String}
    (link : (Link.create c' first second : Link Receiver CloseHandler) =
      (Link.create c first second).retune f) (immediate : Bool) :
    Replay.create c' first second immediate =
      (Replay.create c first second immediate).retune f := by
  simp only [Replay.create, link]
  rfl

namespace Machine

variable {ρ η : Type}

/-- The two differ in the sizes kept on the two sides, `c` here and `c'` there, and in nothing else;
so a caller can go on in one if it can in the other. -/
structure Twins (c c' : Config) (m m' : Machine ρ η) : Prop where
  sizes : ∀ s, (m.link.stations.get s).config = c
  link : m'.link =
    { m.link with
      stations.a := { m.link.stations.a with config := c' }
      stations.b := { m.link.stations.b with config := c' } }
  calls : m'.calls = m.calls
  canStep : ∀ who, m'.canStep who = m.canStep who

theorem twins_retune (f : Retuning) {c : Config} {m : Machine ρ η}
    (spared : m.retune c.sparing = m) : Twins c (f.apply c) m (m.retune f) := by
  have sizes : ∀ s, (m.link.stations.get s).config = c := by
    intro s
    have kept := m.link.config_retune c.sparing s
    rw [show m.link.retune c.sparing = m.link from congrArg Machine.link spared] at kept
    exact Config.eq_of_sparing kept.symm
  refine ⟨sizes, ?_, rfl, canStep_retune f m⟩
  have a : m.link.stations.a.config = c := sizes .a
  have b : m.link.stations.b.config = c := sizes .b
  simp only [retune, Link.retune, Station.retune, a, b]

end Machine

/-- For all sizes, zero included, and any calls of the builder functions that ask for them last: a
pair made from the sizes as they are and one made from those that were built do the same. Under
every schedule the same callers take the same steps, come to the same results and sleep at the same
times, and the same is decided; the two pairs are the same then but for the sizes that they keep. A
run of commands is answered alike, with the same events and log lines, except that one that asks for
the sizes is told those that the pair was made with. The two differ only where zero was asked for.
-/
theorem built_alike (q b : Nat) (calls : List Setting)
    (queueLength : (calls.filterMap Setting.queueLength?).getLast? = some q)
    (bufferSize : (calls.filterMap Setting.bufferSize?).getLast? = some b) :
    ((Config.built calls).queueLength = q ↔ q ≠ 0) ∧
      ((Config.built calls).bufferSize = b ↔ b ≠ 0) ∧
      (∀ (ρ η : Type) (first : String) (second : Option String) (tokens signals : Nat)
        (schedule : List (Move ρ η)),
        let given := Machine.fresh ⟨q, b⟩ first second tokens signals
        let built := Machine.fresh (Config.built calls) first second tokens signals
        built.journal schedule = given.journal schedule ∧
          built.history schedule = given.history schedule ∧
          (given.run schedule).Twins ⟨q, b⟩ (Config.built calls) (built.run schedule)) ∧
      ∀ (first : String) (second : Option String) (immediate : Bool)
        (commands : List Replay.Command),
        List.Forall₂ (Replay.Matches ⟨q, b⟩ (Config.built calls))
          ((Replay.create ⟨q, b⟩ first second immediate).transcript commands)
          ((Replay.create (Config.built calls) first second immediate).transcript commands) := by
  have clamped : Config.built calls = (⟨q, b⟩ : Config).clamped := by
    rw [Config.built_eq, queueLength, bufferSize]
    rfl
  rw [clamped]
  refine ⟨(Config.clamped_eq_iff ⟨q, b⟩).1, (Config.clamped_eq_iff ⟨q, b⟩).2, ?_, ?_⟩
  · intro ρ η first second tokens signals schedule given built
    -- The one pair is the other with its sizes raised, and what raises sizes is not seen in a run.
    have raised : built = given.retune Config.clamping :=
      Machine.fresh_retune (Link.create_clamped ⟨q, b⟩ first second) tokens signals
    have spared : given = given.retune (Config.sparing ⟨q, b⟩) :=
      Machine.fresh_retune (Link.create_spared ⟨q, b⟩ first second) tokens signals
    obtain ⟨run, journal, history⟩ := given.run_retune Config.clamping schedule
    obtain ⟨run', -, -⟩ := given.run_retune (Config.sparing ⟨q, b⟩) schedule
    rw [← spared] at run'
    rw [raised]
    exact ⟨journal, history, run ▸ Machine.twins_retune Config.clamping run'.symm⟩
  · intro first second immediate commands
    rw [Replay.create_retune (Link.create_clamped ⟨q, b⟩ first second) immediate]
    have spared := Replay.create_retune (Link.create_spared ⟨q, b⟩ first second) immediate
    exact Replay.matches_transcript Config.clamping _ spared.symm commands

/-- Two messages are written through a pair on which nobody receives. -/
def twoWrites : List (Move Unit Unit) :=
  [.begin 0 (.write .a none false), .step 0 0, .begin 0 (.write .a none false), .step 0 0]

/-- A pair that is to queue nothing queues one message and makes the second writer wait, as one does
that was built to queue nothing, and keeps its zeros. -/
theorem alike_after_twoWrites :
    ∃ given built : Machine Unit Unit,
      given = (Machine.fresh ⟨0, 0⟩ "link" none 0 0).run twoWrites ∧
      built = (Machine.fresh (Config.built [.bufferSize 9, .queueLength 0, .bufferSize 0]) "link"
        none 0 0).run twoWrites ∧
      (given.link.endpoint .b).mailbox.size = 1 ∧ given.canStep 0 = false ∧
      given.Twins ⟨0, 0⟩ ⟨1, 1⟩ built := by
  obtain ⟨-, -, alike, -⟩ := built_alike 0 0 [.bufferSize 9, .queueLength 0, .bufferSize 0] rfl rfl
  exact ⟨_, _, rfl, rfl, rfl, rfl, (alike Unit Unit "link" none 0 0 twoWrites).2.2⟩

end Loopback
