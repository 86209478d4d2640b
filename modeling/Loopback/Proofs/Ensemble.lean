import Loopback.Proofs.Handling
import Loopback.Replay.Command

/-!
# A sink among other callers

The handlers of a sink are scripts, run by the executor in whatever order it likes, and between any
two of their steps all other callers on the pair can do what they please: write, end and cancel
messages, shut writes down, wake up without a reason. `Replay.tick` is what happens next in such a
run: a step of a handler is a step of its script, and anything else is a move of the machine. So a
run of ticks is a schedule of the machine (`Replay.machine_ticks`), and what holds after every
schedule holds in every such run.
-/

namespace Loopback

/-- The call leaves three things to others: the receivers of side `b`, the close of that side, and
the read ends of the messages `mine`. -/
def Call.leaves {ρ η : Type} (mine : List Nat) : Call ρ η → Bool
  | .receive .b _ | .close .b | .closeEndpoint .b => false
  | .stream k c => c.madeOn? != some .reader || !mine.contains k
  | _ => true

theorem Call.Follows.leaves {ρ η : Type} {mine : List Nat} {c c' : Call ρ η} (h : c.Follows c')
    (staged : c.Staged) (left : c.leaves mine = true) : c'.leaves mine = true := by
  cases h with
  | @closes side => cases side <;> exact left
  | @streams k who m c c' next =>
    rw [Call.leaves, (Message.next_step staged next).1]
    exact left
  | awaitsClosed | awaits => exact left
  | _ => rfl

namespace Replay

namespace Script

variable {α : Type}

/-- The call that a script comes to next. -/
def call? : Script α → Option (Call Receiver CloseHandler)
  | .call c _ => some c
  | .transfer m t _ =>
      match t.next with
      | .inl c => some (.stream m (.start c))
      | .inr _ => none
  | _ => none

/-- The script once its call has ended in `r`. -/
def resume (r : Result) : Script α → Script α
  | .call _ k => k r
  | .transfer m t k => .transfer m (t.feed r) k
  | s => s

end Script

theorem stepCaller_of_call? {c : Caller} {call : Call Receiver CloseHandler}
    (next : c.script.call? = some call) (pick : Nat) (r : Replay) :
    r.stepCaller pick c = r.stepCall pick c call fun result => c.script.resume result := by
  obtain ⟨id, origin, holdsPair, script⟩ := c
  cases script with
  | call c k =>
    cases next
    rfl
  | transfer m t k =>
    simp only [Script.call?] at next
    split at next
    · next c same =>
      cases next
      simp [stepCaller, same, Script.resume]
    · cases next
  | _ => cases next

/-- What can happen next. -/
inductive Tick where
  /-- A caller begins a call. -/
  | begin (who : Nat) (c : Call Receiver CloseHandler)
  /-- A caller takes a step, of its script if it follows one. -/
  | step (who pick : Nat)
  /-- A caller wakes without a notification. -/
  | rouse (who : Nat)
  /-- The executor starts the task at position `i`. -/
  | start (i : Nat)

/-- What happens at a tick. A receiver of side `b` that is started becomes a caller with a script;
what other tasks do is left to the callers that follow none. -/
def tick (r : Replay) : Tick → Replay
  | .begin who c => { r with machine := r.machine.begin who c }
  | .step who pick =>
      match r.callers.find? (·.id == who) with
      | some c => r.stepCaller pick c
      | none => { r with machine := (r.machine.step who pick).1 }
  | .rouse who => { r with machine := r.machine.rouse who }
  | .start i =>
      match r.link.tasks[i]? with
      | some (.receive .b _) => (r.startTask? i).elim r Prod.fst
      | _ => { r with machine := r.machine.move (.takeTask i) }

/-- The moves of the machine at a tick. -/
def moves (r : Replay) : Tick → List (Move Receiver CloseHandler)
  | .begin who c => [.begin who c]
  | .step who pick =>
      match r.callers.find? (·.id == who) with
      | some c => c.script.call?.toList.flatMap fun call => [.begin c.id call, .step c.id pick]
      | none => [.step who pick]
  | .rouse who => [.rouse who]
  | .start i => [.takeTask i]

/-- The tally that is told at a tick, and the sink that it is told of. -/
def told (r : Replay) : Tick → List (Nat × Tally)
  | .step who _ =>
      match r.callers.find? (·.id == who) with
      | some ⟨_, _, _, .note (.tally k t) _⟩ => [(k, t)]
      | _ => []
  | _ => []

/-- The replay after some ticks. -/
def ticks (r : Replay) (ts : List Tick) : Replay := ts.foldl tick r

/-- The moves of the machine along some ticks. -/
def schedule (r : Replay) : List Tick → List (Move Receiver CloseHandler)
  | [] => []
  | t :: ts => r.moves t ++ (r.tick t).schedule ts

/-- The tallies that are told along some ticks, the first one first. -/
def reports (r : Replay) : List Tick → List (Nat × Tally)
  | [] => []
  | t :: ts => r.told t ++ (r.tick t).reports ts

theorem machine_stepCall (pick : Nat) (c : Caller) (call : Call Receiver CloseHandler)
    (k : Result → Script Outcome) (r : Replay) :
    (r.stepCall pick c call k).machine = ((r.machine.begin c.id call).step c.id pick).1 := by
  simp only [stepCall]
  split <;> rfl

/-- A caller that returns is gone; its return is told or kept for the command it carries out. -/
theorem finish_eq (c : Caller) (outcome : Outcome) (r : Replay) :
    ∃ current events, r.finish c outcome =
      { r with callers := r.callers.filter (·.id != c.id), current, events } := by
  simp only [finish]
  split
  · split
    · exact ⟨_, _, rfl⟩
    · exact ⟨_, _, rfl⟩
  · exact ⟨_, _, rfl⟩

/-- A caller that comes to no call leaves the machine alone. -/
theorem machine_stepCaller_of_none {c : Caller} (none : c.script.call? = none) (pick : Nat)
    (r : Replay) : (r.stepCaller pick c).machine = r.machine := by
  obtain ⟨id, origin, holdsPair, script⟩ := c
  cases script with
  | done outcome =>
    obtain ⟨current, events, returned⟩ := finish_eq ⟨id, origin, holdsPair, .done outcome⟩ outcome r
    simp only [stepCaller, returned]
  | call c k => cases none
  | transfer m t k =>
    simp only [Script.call?] at none
    split at none
    · cases none
    · next answer same =>
      simp only [stepCaller, same]
      rfl
  | note n k => cases n <;> rfl

/-- A tick moves the machine by its moves. -/
theorem machine_tick (r : Replay) (t : Tick) :
    (r.tick t).machine = r.machine.run (r.moves t) := by
  cases t with
  | begin who c => rfl
  | step who pick =>
    simp only [tick, moves]
    split
    · next c found =>
      cases next : c.script.call? with
      | none => exact machine_stepCaller_of_none next pick r
      | some call =>
        rw [stepCaller_of_call? next, machine_stepCall]
        rfl
    · rfl
  | rouse who => rfl
  | start i =>
    simp only [tick, moves]
    split
    · next d found =>
      have found : r.machine.link.tasks[i]? = some (.receive .b d) := found
      simp [startTask?, Machine.takeTask?, Link.takeTask?, found, start, Machine.run, Machine.move]
    · rfl

theorem machine_ticks (r : Replay) (ts : List Tick) :
    (r.ticks ts).machine = r.machine.run (r.schedule ts) := by
  induction ts generalizing r with
  | nil => rfl
  | cons t ts ih =>
    rw [ticks, List.foldl_cons, ← ticks, ih, schedule, Machine.run_append, machine_tick]

theorem ticks_append (r : Replay) (ts ts' : List Tick) :
    r.ticks (ts ++ ts') = (r.ticks ts).ticks ts' := List.foldl_append

theorem schedule_append (r : Replay) (ts ts' : List Tick) :
    r.schedule (ts ++ ts') = r.schedule ts ++ (r.ticks ts).schedule ts' := by
  induction ts generalizing r with
  | nil => rfl
  | cons t ts ih =>
    rw [List.cons_append, schedule, ih, schedule, List.append_assoc]
    rfl

theorem reports_append (r : Replay) (ts ts' : List Tick) :
    r.reports (ts ++ ts') = r.reports ts ++ (r.ticks ts).reports ts' := by
  induction ts generalizing r with
  | nil => rfl
  | cons t ts ih =>
    rw [List.cons_append, reports, ih, reports, List.append_assoc]
    rfl

/-! ## A sink on side `b` -/

/-- A fresh pair on which a sink is about to be registered on side `b`, as the command for a sink
does it, by the caller `others`; the callers with smaller numbers follow no script. -/
def withSink (config : Config) (first : String) (second : Option String)
    (tokens signals others : Nat) : Replay :=
  ({ create config first second false with
      machine := Machine.fresh config first second tokens signals
      sinks := #[.pending]
      nextCaller := others } : Replay).start .silent true (registerSink 0 .b)

/-- Only the callers below `others` begin calls of their own accord, and their calls leave the
messages `mine` to the receivers of side `b`. -/
def Tick.leaves (others : Nat) (mine : List Nat) : Tick → Bool
  | .begin who c => who < others && c.leaves mine
  | _ => true

/-- No further step is possible: nobody who is in a call is awake, nobody who follows a script can
go on, and no task is left. -/
def isStill (r : Replay) : Bool :=
  r.link.tasks.isEmpty && r.machine.calls.all (fun (who, c) => r.link.isAsleep who c) &&
    r.callers.all fun c => !r.canGoOn c

end Replay

end Loopback
