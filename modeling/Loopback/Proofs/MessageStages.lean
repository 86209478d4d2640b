import Loopback.Proofs.ByteFlow

/-!
# The stages of a call on a message

A call on a message goes through the cancel flag and the pipe in a fixed order, and may end on the
way. `MessageCall.Stage` lists the stages that a call can be at, for each call that can begin, and
`MessageCall.Stage.next` that a step leads from one of them to another. What a step does to the flag
and to the pipe is told by its stage (`Message.cancelled_step`, `Message.pipe_step`).
-/

namespace Loopback

namespace PipeCall

/-- The pipe refuses the call once an end is closed. -/
def isRefusable : PipeCall → Bool
  | .write data => !data.isEmpty
  | .flush => true
  | _ => false

/-- A set flag refuses the call from the outset. -/
def isGated : PipeCall → Bool
  | .read _ | .skip _ | .available | .closeReader | .reset => true
  | _ => false

end PipeCall

namespace Pipe

variable {p : Pipe} {c : PipeCall}

theorem refused_of_broken (who : Nat) (refusable : c.isRefusable = true)
    (broken : p.isBroken = true) : (p.step who c).2 = .done (.error .pipeClosed) := by
  cases c with
  | write data =>
    have some : ¬ data.isEmpty = true := by simpa [PipeCall.isRefusable] using refusable
    have broken' : (p.writerClosed || p.readerClosed) = true := broken
    simp [step, write, isBroken, some, broken', progress, Except.map]
  | flush => simp [step, flush, broken, Except.map]
  | _ => cases refusable

theorem accepted_of_whole (who : Nat) (refusable : c.isRefusable = true)
    (whole : p.isBroken = false) :
    (p.step who c).2 = .asleep c ∨ ∃ reply, (p.step who c).2 = .done (.ok reply) := by
  cases c with
  | write data =>
    have some : ¬ data.isEmpty = true := by simpa [PipeCall.isRefusable] using refusable
    have whole' : (p.writerClosed || p.readerClosed) = false := whole
    by_cases full : p.ring.remaining = 0
    · exact .inl (by simp [step, write, isBroken, some, whole', full, progress])
    · exact .inr ⟨.count (p.ring.write data).2,
        by simp [step, write, isBroken, some, whole', full, progress, Except.map]⟩
  | flush => exact .inr ⟨.unit, by simp [step, flush, whole, Except.map]⟩
  | _ => cases refusable

/-- A call of the writer fails only because an end is closed. -/
theorem broken_of_refused {who : Nat} {why : Failure} (on : c.madeOn = .writer)
    (h : (p.step who c).2 = .done (.error why)) :
    c.isRefusable = true ∧ why = .pipeClosed ∧ p.isBroken = true := by
  have refused : c.isRefusable = true → why = .pipeClosed ∧ p.isBroken = true := by
    intro refusable
    cases broken : p.isBroken with
    | true =>
      rw [refused_of_broken who refusable broken] at h
      cases h
      exact ⟨rfl, rfl⟩
    | false =>
      rcases accepted_of_whole who refusable broken with asleep | ⟨reply, done⟩
      · rw [asleep] at h
        cases h
      · rw [done] at h
        cases h
  cases c with
  | write data =>
    cases data with
    | nil => cases h
    | cons first rest => exact ⟨rfl, refused rfl⟩
  | flush => exact ⟨rfl, refused rfl⟩
  | closeWriter => cases h
  | writerClosed => cases h
  | _ => cases on

end Pipe

namespace MessageCall

/-- The call on the pipe that is made at this stage. -/
def pipeCall? : MessageCall → Option PipeCall
  | .start c => if c.isGated then none else some c
  | .inPipe _ c => some c
  | .hangUp _ => some .closeWriter
  | _ => none

/-- The flag is set at this stage. -/
def isRaising : MessageCall → Bool
  | .raiseFlag _ => true
  | _ => false

end MessageCall

namespace Message

variable {m : Message} {who : Nat} {c : MessageCall}

theorem pipe_step (who : Nat) (c : MessageCall) (m : Message) :
    (m.step who c).1.pipe = (c.pipeCall?.map fun c => (m.pipe.step who c).1).getD m.pipe := by
  cases c with
  | start c => cases c <;> rfl
  | _ => rfl

theorem cancelled_step (who : Nat) (c : MessageCall) (m : Message) :
    (m.step who c).1.cancelled = (m.cancelled || c.isRaising) := by
  cases c with
  | start c => cases c <;> exact (Bool.or_false _).symm
  | raiseFlag r => exact (Bool.or_true _).symm
  | _ => exact (Bool.or_false _).symm

theorem step_gated {c : PipeCall} (gated : c.isGated = true) (who : Nat) (m : Message) :
    m.step who (.start c) =
      (m, if m.cancelled then .done (.error .cancelled) else .more (.inPipe c.flagRule c)) := by
  cases c <;> first | rfl | cases gated

theorem step_ungated {c : PipeCall} (ungated : c.isGated = false) (who : Nat) (m : Message) :
    m.step who (.start c) = m.stepPipe who c.flagRule c := by
  cases c <;> first | rfl | cases ungated

/-- The pipe makes the caller sleep, or answers. -/
theorem stepPipe_outcome (who : Nat) (rule : FlagRule) (c : PipeCall) (m : Message) :
    ((m.pipe.step who c).2 = .asleep c ∧
        (m.stepPipe who rule c).2 = .asleep (.inPipe rule c)) ∨
      ∃ r, (m.pipe.step who c).2 = .done r ∧
        (m.stepPipe who rule c).2 = MessageCall.afterPipe rule r := by
  rcases Pipe.step_progress who c m.pipe with asleep | ⟨r, done⟩
  · exact .inl ⟨asleep, by simp [stepPipe, asleep]⟩
  · exact .inr ⟨r, done, by simp [stepPipe, done]⟩

/-- A step is one on the pipe, or its caller neither falls asleep nor raises the flag. -/
theorem step_inPipe_or (who : Nat) (c : MessageCall) (m : Message) :
    (∃ rule d, c.pipeCall? = some d ∧ m.step who c = m.stepPipe who rule d) ∨
      ((∀ d, c.pipeCall? = some d → d = .closeWriter) ∧ (∀ c', (m.step who c).2 ≠ .asleep c') ∧
        (∀ r, (m.step who c).2.next? ≠ some (.raiseFlag r)) ∧
        ∀ r, (m.step who c).2.next? = some (.hangUp r) → c = .raiseFlag r) := by
  cases c with
  | start c =>
    cases gated : c.isGated with
    | false => exact .inl ⟨_, c, by simp [MessageCall.pipeCall?, gated], step_ungated gated who m⟩
    | true =>
      have aside : ∀ d, (MessageCall.start c).pipeCall? = some d → d = .closeWriter := by
        simp [MessageCall.pipeCall?, gated]
      -- A reader that has looked at the flag is refused, or goes on to the pipe.
      rw [step_gated gated]
      cases m.cancelled with
      | true => exact .inr ⟨aside, by rintro _ ⟨⟩, by rintro _ ⟨⟩, by rintro _ ⟨⟩⟩
      | false => exact .inr ⟨aside, by rintro _ ⟨⟩, by rintro _ ⟨⟩, by rintro _ ⟨⟩⟩
  | inPipe rule d => exact .inl ⟨rule, d, rfl, rfl⟩
  | raiseFlag r =>
    refine .inr ⟨by rintro _ ⟨⟩, by rintro _ ⟨⟩, by rintro _ ⟨⟩, ?_⟩
    rintro _ ⟨⟩
    rfl
  | hangUp r =>
    refine .inr ⟨?_, by rintro _ ⟨⟩, by rintro _ ⟨⟩, by rintro _ ⟨⟩⟩
    rintro _ ⟨⟩
    rfl
  | _ => exact .inr ⟨by rintro _ ⟨⟩, by rintro _ ⟨⟩, by rintro _ ⟨⟩, by rintro _ ⟨⟩⟩

/-- Who falls asleep does so in the pipe. -/
theorem asleep_step {c' : MessageCall} (h : (m.step who c).2 = .asleep c') :
    ∃ rule d, c.pipeCall? = some d ∧ c' = .inPipe rule d ∧ (m.pipe.step who d).2 = .asleep d := by
  rcases step_inPipe_or who c m with ⟨rule, d, call, same⟩ | ⟨-, wakeful, -⟩
  · rw [same] at h
    rcases stepPipe_outcome who rule d m with ⟨asleep, outcome⟩ | ⟨r, -, outcome⟩
    · rw [outcome] at h
      cases h
      exact ⟨rule, d, call, rfl, asleep⟩
    · rw [outcome] at h
      cases rule <;> cases r <;> cases h
  · exact absurd h (wakeful c')

/-- A call sleeps when the pipe makes it. -/
theorem asleep_of_pipe {d : PipeCall} (call : c.pipeCall? = some d)
    (asleep : (m.pipe.step who d).2 = .asleep d) : ∃ c', (m.step who c).2 = .asleep c' := by
  rcases step_inPipe_or who c m with ⟨rule, d', call', same⟩ | ⟨aside, -⟩
  · cases call.symm.trans call'
    rcases stepPipe_outcome who rule d m with ⟨-, outcome⟩ | ⟨r, done, -⟩
    · exact ⟨_, same ▸ outcome⟩
    · rw [asleep] at done
      cases done
  · cases aside d call
    cases asleep

/-- Who raises the flag next was refused by the pipe. -/
theorem raise_step {r : Result} (h : (m.step who c).2.next? = some (.raiseFlag r)) :
    ∃ d why, c.pipeCall? = some d ∧ (m.pipe.step who d).2 = .done (.error why) := by
  rcases step_inPipe_or who c m with ⟨rule, d, call, same⟩ | ⟨-, -, never, -⟩
  · rw [same] at h
    rcases stepPipe_outcome who rule d m with ⟨-, outcome⟩ | ⟨answer, done, outcome⟩
    · rw [outcome] at h
      cases h
    · rw [outcome] at h
      cases answer with
      | ok reply => cases rule <;> cases h
      | error why => exact ⟨d, why, call, done⟩
  · exact absurd h (never r)

/-- Who closes the write end next, to end in `r`, sets the flag now. -/
theorem hangUp_step {r : Result} (h : (m.step who c).2.next? = some (.hangUp r)) :
    c = .raiseFlag r := by
  rcases step_inPipe_or who c m with ⟨rule, d, -, same⟩ | ⟨-, -, -, only⟩
  · rw [same] at h
    rcases next_stepPipe h with h | ⟨-, r', h⟩ | ⟨-, r', h⟩ <;> cases h
  · exact only r h

end Message

namespace MessageCall

/-- A call that began as `begun` at the end `e` can be at the stage `c`. -/
inductive Stage : PipeEnd → (begun c : MessageCall) → Prop where
  | begins {e : PipeEnd} {c : MessageCall} (entry : c.isEntry = true)
      (on : c.madeOn? = some e ∨ c.madeOn? = none) : Stage e c c
  /-- A write found no room. -/
  | waits {data : Bytes} (some : data ≠ []) :
      Stage .writer (.start (.write data)) (.inPipe .cancelsOnFailure (.write data))
  /-- The pipe has refused a write or a flush. -/
  | raises {c : PipeCall} (refusable : c.isRefusable = true) :
      Stage .writer (.start c) (.raiseFlag (.error .pipeClosed))
  | hangsUp {c : PipeCall} (refusable : c.isRefusable = true) :
      Stage .writer (.start c) (.hangUp (.error .pipeClosed))
  | cancels : Stage .writer .cancel (.hangUp (.ok .unit))
  /-- The flag was not set. -/
  | enters {c : PipeCall} (gated : c.isGated = true) :
      Stage .reader (.start c) (.inPipe c.flagRule c)
  /-- The pipe has answered a read or a skip. -/
  | settles {c : PipeCall} {size : Nat} {r : Result} (asks : c.asks? = some size) :
      Stage .reader (.start c) (.settle r)

variable {e : PipeEnd} {begun c c' : MessageCall} {m : Message} {who : Nat}

/-- Only the call that cancels the message begins with the flag. -/
theorem eq_of_isEntry_raiseFlag {r : Result} (entry : (raiseFlag r).isEntry = true) :
    r = .ok .unit := by
  cases r with
  | error why => cases entry
  | ok reply =>
    cases reply with
    | unit => rfl
    | _ => cases entry

theorem madeOn_of_isGated {c : PipeCall} (gated : c.isGated = true) : c.madeOn = .reader := by
  cases c <;> first | rfl | cases gated

/-- The pipe is used at the end that the call was made on. -/
theorem Stage.madeOn (stage : Stage e begun c) {d : PipeCall} (inPipe : c.pipeCall? = some d) :
    d.madeOn = e := by
  cases stage with
  | begins entry on =>
    cases begun with
    | start c =>
      simp only [pipeCall?] at inPipe
      split at inPipe
      · cases inPipe
      · cases inPipe
        rcases on with on | on <;> cases on
        rfl
    | inPipe rule c =>
      cases inPipe
      rcases on with on | on <;> cases on
      rfl
    | hangUp r => cases entry
    | _ => cases inPipe
  | waits | hangsUp | cancels =>
    cases inPipe
    rfl
  | raises | settles => cases inPipe
  | enters gated =>
    cases inPipe
    exact madeOn_of_isGated gated

theorem rule_of_refusable {c : PipeCall} (h : c.isRefusable = true) :
    c.flagRule = .cancelsOnFailure ∧ c.madeOn = .writer ∧ c.isGated = false := by
  cases c <;> first | exact ⟨rfl, rfl, rfl⟩ | cases h

/-- A call of the writer on the pipe sleeps as a write, or is answered; a failure raises the flag.
-/
theorem Stage.of_stepPipe {d : PipeCall} (on : d.madeOn = .writer)
    (h : (m.stepPipe who d.flagRule d).2.next? = some c') : Stage .writer (.start d) c' := by
  rcases Message.stepPipe_outcome who d.flagRule d m with ⟨asleep, outcome⟩ | ⟨r, done, outcome⟩
  · rw [outcome] at h
    cases h
    cases d with
    | write data =>
      refine .waits ?_
      rintro rfl
      cases asleep
    | flush | closeWriter | writerClosed => cases asleep
    | _ => cases on
  · rw [outcome] at h
    cases r with
    | ok reply =>
      cases d with
      | write | flush | closeWriter | writerClosed => cases h
      | _ => cases on
    | error why =>
      obtain ⟨refusable, rfl, -⟩ := Pipe.broken_of_refused on done
      rw [(rule_of_refusable refusable).1] at h
      cases h
      exact .raises refusable

/-- A step leads from one stage of a call to another. -/
theorem Stage.next (stage : Stage e begun c) (h : (m.step who c).2.next? = some c') :
    Stage e begun c' := by
  cases stage with
  | begins entry on =>
    cases begun with
    | start d =>
      obtain rfl : d.madeOn = e := by
        rcases on with on | on <;> cases on
        rfl
      -- A call of the reader looks at the flag first; one of the writer is in the pipe at once.
      cases gated : d.isGated with
      | false =>
        rw [Message.step_ungated gated] at h
        cases d with
        | write | flush | closeWriter | writerClosed => exact Stage.of_stepPipe rfl h
        | mark | markSupported => cases h
        | _ => cases gated
      | true =>
        rw [Message.step_gated gated] at h
        simp only at h
        split at h
        · cases h
        · cases h
          rw [madeOn_of_isGated gated]
          exact .enters gated
    | inPipe rule d =>
      cases rule with
      | ignores =>
        -- Whoever lets go of an end is done at once.
        rw [eq_of_beq entry] at h
        cases on' : d.madeOn <;> rw [on'] at h <;> cases h
      | _ => cases entry
    | raiseFlag r =>
      cases eq_of_isEntry_raiseFlag entry
      rcases on with on | on <;> cases on
      cases h
      exact .cancels
    | wasCancelled => cases h
    | _ => cases entry
  | waits some => exact Stage.of_stepPipe rfl h
  | raises refusable =>
    cases h
    exact .hangsUp refusable
  | @enters d gated =>
    have inPipe : (m.stepPipe who d.flagRule d).2.next? = some c' := h
    rcases Message.stepPipe_outcome who d.flagRule d m with ⟨asleep, outcome⟩ | ⟨r, done, outcome⟩
    · rw [outcome] at inPipe
      cases inPipe
      exact .enters gated
    · rw [outcome] at inPipe
      cases d with
      | read | skip =>
        cases inPipe
        exact .settles rfl
      | available | closeReader | reset => cases inPipe
      | _ => cases gated
  | hangsUp | cancels | settles => cases h

/-- The pipe refuses a write or a flush just when an end is closed. -/
theorem step_refusable {d : PipeCall} (refusable : d.isRefusable = true)
    (inPipe : c = .start d ∨ c = .inPipe .cancelsOnFailure d) (who : Nat) (m : Message) :
    (m.pipe.isBroken = true ∧ (m.step who c).2 = .more (.raiseFlag (.error .pipeClosed))) ∨
      (m.pipe.isBroken = false ∧ ((m.step who c).2 = .asleep (.inPipe .cancelsOnFailure d) ∨
        ∃ reply, (m.step who c).2 = .done (.ok reply))) := by
  obtain ⟨rule, -, ungated⟩ := rule_of_refusable refusable
  have same : m.step who c = m.stepPipe who .cancelsOnFailure d := by
    rcases inPipe with rfl | rfl
    · rw [Message.step_ungated ungated, rule]
    · rfl
  rw [same]
  simp only [Message.stepPipe]
  cases broken : m.pipe.isBroken with
  | true =>
    rw [Pipe.refused_of_broken who refusable broken]
    exact .inl ⟨rfl, rfl⟩
  | false =>
    refine .inr ⟨rfl, ?_⟩
    rcases Pipe.accepted_of_whole who refusable broken with asleep | ⟨reply, done⟩
    · rw [asleep]
      exact .inl rfl
    · rw [done]
      exact .inr ⟨reply, rfl⟩

theorem rule_of_asks {d : PipeCall} {size : Nat} (asks : d.asks? = some size) :
    d.isGated = true ∧ d.flagRule = .checksTwice := by
  cases d <;> first | exact ⟨rfl, rfl⟩ | cases asks

/-- A write or a flush is about to use the pipe, or on its way out after the pipe has refused it. -/
theorem Stage.of_isRefusable {d : PipeCall} (stage : Stage e (.start d) c)
    (refusable : d.isRefusable = true) :
    e = .writer ∧
      ((c = .start d ∨ c = .inPipe .cancelsOnFailure d) ∨
        c = .raiseFlag (.error .pipeClosed) ∨ c = .hangUp (.error .pipeClosed)) := by
  obtain ⟨rule, writer, ungated⟩ := rule_of_refusable refusable
  cases stage with
  | begins entry on =>
    refine ⟨?_, .inl (.inl rfl)⟩
    rcases on with on | on <;> cases on
    exact writer
  | waits some => exact ⟨rfl, .inl (.inr rfl)⟩
  | raises => exact ⟨rfl, .inr (.inl rfl)⟩
  | hangsUp => exact ⟨rfl, .inr (.inr rfl)⟩
  | enters gated =>
    rw [ungated] at gated
    cases gated
  | settles asks =>
    rw [(rule_of_asks asks).1] at ungated
    cases ungated

/-- A call that neither the flag nor the pipe refuses is over after its first stage. -/
theorem Stage.eq_start {d : PipeCall} (stage : Stage e (.start d) c)
    (accepted : d.isRefusable = false) (ungated : d.isGated = false) : c = .start d := by
  cases stage with
  | begins => rfl
  | @waits data some =>
    have empty : data.isEmpty = true := by simpa [PipeCall.isRefusable] using accepted
    exact absurd (List.isEmpty_iff.1 empty) some
  | raises refusable | hangsUp refusable =>
    rw [accepted] at refusable
    cases refusable
  | enters gated =>
    rw [ungated] at gated
    cases gated
  | settles asks =>
    rw [(rule_of_asks asks).1] at ungated
    cases ungated

/-- Only a call that cancels the message, or one that the pipe refuses, comes to set the flag. -/
theorem Stage.isRaising_eq_false (stage : Stage e begun c) (told : begun ≠ .cancel)
    (accepted : ∀ d, begun = .start d → d.isRefusable = false) : c.isRaising = false := by
  apply Bool.eq_false_iff.2
  intro raising
  cases stage with
  | begins entry on =>
    cases begun with
    | raiseFlag r =>
      cases eq_of_isEntry_raiseFlag entry
      exact told rfl
    | _ => cases raising
  | @raises d refusable =>
    rw [accepted d rfl] at refusable
    cases refusable
  | _ => cases raising

/-- A read or a skip is at one of three stages. -/
theorem Stage.of_asks {d : PipeCall} {size : Nat} (stage : Stage e (.start d) c)
    (asks : d.asks? = some size) :
    d.isGated = true ∧ (c = .start d ∨ c = .inPipe .checksTwice d ∨ ∃ r, c = .settle r) := by
  obtain ⟨gated, rule⟩ := rule_of_asks asks
  refine ⟨gated, ?_⟩
  cases stage with
  | begins => exact .inl rfl
  | waits => cases asks
  | raises refusable | hangsUp refusable =>
    rw [(rule_of_refusable refusable).2.2] at gated
    cases gated
  | enters =>
    rw [rule]
    exact .inr (.inl rfl)
  | settles => exact .inr (.inr ⟨_, rfl⟩)

/-! ## The pipe of a message -/

section Pipe

variable (stage : Stage e begun c) (valid : m.pipe.ring.Valid) (justified : m.pipe.Justified)
  (awake : m.pipe.isAsleep e.caller = false)

include valid in
theorem valid_step (who : Nat) : (m.step who c).1.pipe.ring.Valid := by
  rw [Message.pipe_step]
  cases c.pipeCall? with
  | none => exact valid
  | some d => exact (Pipe.conserves_step valid who d).valid

include valid in
/-- No step opens an end again. -/
theorem closed_step (who : Nat) :
    (m.pipe.writerClosed = true → (m.step who c).1.pipe.writerClosed = true) ∧
      (m.pipe.isBroken = true → (m.step who c).1.pipe.isBroken = true) := by
  rw [Message.pipe_step]
  cases c.pipeCall? with
  | none => exact ⟨id, id⟩
  | some d =>
    have kept := Pipe.conserves_step valid who d
    refine ⟨fun shut => ?_, kept.isBroken⟩
    exact kept.writer.trans ((Bool.or_eq_true ..).mpr (.inl shut))

include stage valid justified awake

theorem Stage.justified_step : (m.step e.caller c).1.pipe.Justified := by
  rw [Message.pipe_step]
  cases call : c.pipeCall? with
  | none => exact justified
  | some d => exact justified.step valid (stage.madeOn call) awake

/-- Who sleeps after a step fell asleep in it, or slept at the other end before. -/
theorem Stage.asleep_before {e' : PipeEnd}
    (asleep : (m.step e.caller c).1.pipe.isAsleep e'.caller = true) :
    (e' = e ∧ ∃ c', (m.step e.caller c).2 = .asleep c') ∨
      (e' ≠ e ∧ m.pipe.isAsleep e'.caller = true) := by
  rw [Message.pipe_step] at asleep
  cases call : c.pipeCall? with
  | none =>
    rw [call] at asleep
    refine .inr ⟨?_, asleep⟩
    rintro rfl
    rw [show m.pipe.isAsleep e'.caller = true from asleep] at awake
    exact Bool.noConfusion awake
  | some d =>
    rw [call] at asleep
    have stirs := Pipe.stirs_step valid (stage.madeOn call)
    rcases stirs.asleep_before justified awake asleep with ⟨rfl, slept⟩ | before
    · exact .inl ⟨rfl, Message.asleep_of_pipe call slept⟩
    · exact .inr before

end Pipe

end MessageCall

end Loopback
