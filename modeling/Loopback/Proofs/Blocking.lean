import Loopback.Proofs.Cancellation

/-!
# Blocked calls are blocked rightly

A writer waits for room and a reader for bytes, each on a condition of its own, and each is woken by
what the other end does. A notification that is missing shows only as a call that sleeps for ever.
`Session.RightlyBlocked` says that none is missing: whoever sleeps would sleep again if it ran, a
full buffer holds up the writer and an empty one the reader, and the two are never held up at the
same time, since a buffer holds at least one byte. It holds of a bare pipe and of the pipe of a
message, whatever is done at the two ends (`Session.always_rightlyBlocked`).
-/

namespace Loopback

/-- A call that waits when it finds no room, or no byte. -/
def PipeCall.mayWait : PipeCall → Bool
  | .write data => !data.isEmpty
  | .read size | .skip size => size != 0
  | _ => false

namespace Pipe

variable {p : Pipe} {c : PipeCall} {e : PipeEnd}

/-- A call falls asleep just when it may wait and is held up. -/
theorem asleep_iff (who : Nat) (c : PipeCall) (p : Pipe) :
    (p.step who c).2 = .asleep c ↔ c.mayWait = true ∧ p.holdsUp c.madeOn = true := by
  cases c with
  | write data =>
    simp only [step, write, PipeCall.mayWait, PipeCall.madeOn, holdsUp, isBroken]
    cases data.isEmpty <;> cases p.writerClosed <;> cases p.readerClosed <;>
      by_cases full : p.ring.remaining = 0 <;> simp [full, progress]
  | read limit =>
    simp only [step, read, PipeCall.mayWait, PipeCall.madeOn, holdsUp, isBroken]
    by_cases none : limit = 0 <;> cases p.writerClosed <;> cases p.readerClosed <;>
      cases p.ring.isEmpty <;> simp [none, progress]
  | skip count =>
    simp only [step, skip, PipeCall.mayWait, PipeCall.madeOn, holdsUp, isBroken]
    by_cases none : count = 0 <;> cases p.writerClosed <;> cases p.readerClosed <;>
      cases p.ring.isEmpty <;> simp [none, progress]
  | _ => simp [step, PipeCall.mayWait]

/-- The writer is held up by a full buffer, with both ends open. -/
theorem full_of_holdsUp (valid : p.ring.Valid) (h : p.holdsUp .writer = true) :
    p.ring.contents.length = p.ring.capacity ∧ p.writerClosed = false ∧
      p.readerClosed = false := by
  simp only [holdsUp, isBroken, Ring.remaining, Bool.and_eq_true, Bool.not_eq_true',
    Bool.or_eq_false_iff, beq_iff_eq] at h
  refine ⟨?_, h.1⟩
  rw [Ring.length_contents valid]
  exact Nat.le_antisymm valid.len_le (Nat.sub_eq_zero_iff_le.1 h.2)

/-- The reader is held up by an empty buffer, with both ends open. -/
theorem empty_of_holdsUp (valid : p.ring.Valid) (h : p.holdsUp .reader = true) :
    p.ring.contents = [] ∧ p.writerClosed = false ∧ p.readerClosed = false := by
  simp only [holdsUp, isBroken, Bool.and_eq_true, Bool.not_eq_true', Bool.or_eq_false_iff] at h
  exact ⟨(contents_eq_nil_iff valid).2 h.2, h.1⟩

/-- A buffer of at least one byte is not full and empty at once. -/
theorem not_both_heldUp (valid : p.ring.Valid) :
    ¬(p.holdsUp .writer = true ∧ p.holdsUp .reader = true) := by
  rintro ⟨writer, reader⟩
  have full := (full_of_holdsUp valid writer).1
  rw [(empty_of_holdsUp valid reader).1] at full
  exact absurd full.symm (Nat.ne_of_gt valid.capacity_pos)

/-- The writer takes no byte out, and the reader puts none in. -/
theorem accepted_eq_nil (on : c.madeOn = .reader) (outcome : Progress PipeCall Result) :
    c.accepted outcome = [] := by
  cases c <;> first | rfl | cases on

theorem consumed_eq_nil (on : c.madeOn = .writer) (outcome : Progress PipeCall Result) :
    c.consumed p outcome = [] := by
  cases c <;> first | rfl | cases on

/-- A step that leaves the other end held up moved no byte. -/
theorem same_contents_of_holdsUp (valid : p.ring.Valid) (who : Nat) (on : c.madeOn = e)
    (h : (p.step who c).1.holdsUp e.other = true) :
    (p.step who c).1.ring.contents = p.ring.contents := by
  have kept := conserves_step valid who c
  cases e with
  | writer =>
    obtain ⟨empty, -, opened⟩ := empty_of_holdsUp kept.valid h
    have flow := kept.flow opened
    rw [consumed_eq_nil on, empty] at flow
    rw [empty]
    exact (List.append_eq_nil_iff.1 flow).1.symm
  | reader =>
    obtain ⟨full, -, opened⟩ := full_of_holdsUp kept.valid h
    have flow := kept.flow opened
    rw [accepted_eq_nil on, List.append_nil] at flow
    -- The buffer was no fuller before, so nothing was taken out.
    have before := valid.len_le
    rw [← Ring.length_contents valid, flow, List.length_append, full, capacity_step] at before
    have none : (c.consumed p (p.step who c).2).length = 0 := by omega
    rw [flow, List.length_eq_zero_iff.1 none]
    rfl

end Pipe

namespace Session

variable {σ κ : Type} [TwoEnded σ κ]

/-- Whoever is blocked is so rightly. A call at the stage `k` is in the pipe with `inPipe k`, if it
is there, and `capacity` is what the buffer was asked to hold. -/
structure RightlyBlocked (pipe : σ → Pipe) (inPipe : κ → Option PipeCall) (capacity : Nat)
    (s : Session σ κ) : Prop where
  /-- A blocked writer has bytes to write, the buffer is full and both ends are open. -/
  writer : TwoEnded.isAsleep .writer s.state = true →
    (∃ o data, s.calls .writer = some o ∧ inPipe o.stage = some (.write data) ∧ data ≠ []) ∧
      (pipe s.state).ring.contents.length = max capacity 1 ∧
      (pipe s.state).writerClosed = false ∧ (pipe s.state).readerClosed = false
  /-- A blocked reader asks for bytes, the buffer is empty and both ends are open. -/
  reader : TwoEnded.isAsleep .reader s.state = true →
    (∃ o size, s.calls .reader = some o ∧ size ≠ 0 ∧
      (inPipe o.stage = some (.read size) ∨ inPipe o.stage = some (.skip size))) ∧
      (pipe s.state).ring.contents = [] ∧
      (pipe s.state).writerClosed = false ∧ (pipe s.state).readerClosed = false
  apart : ¬(TwoEnded.isAsleep .writer s.state = true ∧ TwoEnded.isAsleep .reader s.state = true)
  /-- No call is asleep that could return. -/
  stuck : ∀ e o c, TwoEnded.isAsleep e s.state = true → s.calls e = some o →
    inPipe o.stage = some c → ((pipe s.state).step e.caller c).2 = .asleep c
  /-- A step that moves bytes or closes an end leaves the other end awake. -/
  heard : ∀ e x, s.next? e = some x →
    (pipe x.after).ring.contents ≠ (pipe x.before).ring.contents ∨
      (pipe x.after).isBroken = true → TwoEnded.isAsleep e.other x.after = false

/-- Whoever sleeps is in the pipe, with a call that may wait. -/
def Waits (inPipe : κ → Option PipeCall) (s : Session σ κ) : Prop :=
  ∀ e, TwoEnded.isAsleep e s.state = true → ∃ o c, s.calls e = some o ∧
    inPipe o.stage = some c ∧ c.madeOn = e ∧ c.mayWait = true

/-- Who waits in a pipe at which everybody who sleeps is held up is blocked rightly. -/
theorem rightlyBlocked_of_waits {pipe : σ → Pipe} {inPipe : κ → Option PipeCall} {capacity : Nat}
    {s : Session σ κ} (sleeps : ∀ e x, TwoEnded.isAsleep e x = (pipe x).isAsleep e.caller)
    (valid : (pipe s.state).ring.Valid) (justified : (pipe s.state).Justified)
    (size : (pipe s.state).ring.capacity = max capacity 1) (waits : s.Waits inPipe)
    (steps : ∀ e x, s.next? e = some x → pipe x.after = pipe x.before ∨
      ∃ c, c.madeOn = e ∧ pipe x.after = ((pipe x.before).step e.caller c).1) :
    s.RightlyBlocked pipe inPipe capacity := by
  have heldUp {e : PipeEnd} (asleep : TwoEnded.isAsleep e s.state = true) :
      (pipe s.state).holdsUp e = true := by
    rw [sleeps] at asleep
    exact justified.holdsUp asleep
  refine ⟨?_, ?_, ?_, ?_, ?_⟩
  · intro asleep
    obtain ⟨o, c, now, inside, on, may⟩ := waits .writer asleep
    refine ⟨?_, size ▸ Pipe.full_of_holdsUp valid (heldUp asleep)⟩
    cases c with
    | write data =>
      refine ⟨o, data, now, inside, ?_⟩
      rintro rfl
      cases may
    | flush | closeWriter | writerClosed => cases may
    | _ => cases on
  · intro asleep
    obtain ⟨o, c, now, inside, on, may⟩ := waits .reader asleep
    refine ⟨?_, Pipe.empty_of_holdsUp valid (heldUp asleep)⟩
    cases c with
    | read size => exact ⟨o, size, now, bne_iff_ne.1 may, .inl inside⟩
    | skip size => exact ⟨o, size, now, bne_iff_ne.1 may, .inr inside⟩
    | write | flush | closeWriter | writerClosed => cases on
    | _ => cases may
  · rintro ⟨writer, reader⟩
    exact Pipe.not_both_heldUp valid ⟨heldUp writer, heldUp reader⟩
  · intro e o c asleep now inside
    obtain ⟨o', c', now', inside', rfl, may⟩ := waits e asleep
    cases now.symm.trans now'
    cases inside.symm.trans inside'
    exact (Pipe.asleep_iff _ c _).2 ⟨may, heldUp asleep⟩
  · intro e x next changed
    obtain ⟨begun, stage, hx, -, awake⟩ := next?_eq_some next
    have found : x.before = s.state := by rw [hx]
    have moves := steps e x next
    rw [found] at changed moves
    rw [sleeps] at awake ⊢
    apply Bool.eq_false_iff.2
    intro asleep
    rcases moves with same | ⟨c, on, same⟩
    · rw [same] at changed asleep
      rcases changed with moved | broken
      · exact moved rfl
      · rw [justified.awake_of_broken broken] at asleep
        exact Bool.noConfusion asleep
    · rw [same] at changed asleep
      have later := justified.step valid on awake
      rcases changed with moved | broken
      · exact moved (Pipe.same_contents_of_holdsUp valid _ on (later.holdsUp asleep))
      · rw [later.awake_of_broken broken] at asleep
        exact Bool.noConfusion asleep

/-! ## Every run -/

section Keeping

variable {inPipe : κ → Option PipeCall} {s : Session σ κ} {e : PipeEnd}

/-- Whoever sleeps is in no call that just began. -/
theorem Waits.began (waits : s.Waits inPipe) (idle : s.calls e = none) (c : κ) :
    (s.after (.began e c)).Waits inPipe := by
  intro e' asleep
  obtain ⟨o, d, now, inside⟩ := waits e' asleep
  have other : e' ≠ e := by
    rintro rfl
    rw [idle] at now
    cases now
  exact ⟨o, d, (calls_began_of_ne other c).trans now, inside⟩

theorem Waits.roused (waits : s.Waits inPipe)
    (fewer : ∀ e', TwoEnded.isAsleep e' (TwoEnded.rouse e s.state) = true →
      TwoEnded.isAsleep e' s.state = true) : (s.after (.roused e)).Waits inPipe :=
  fun e' asleep => waits e' (fewer e' asleep)

/-- Whoever sleeps after a step fell asleep in it, or slept at the other end before. -/
theorem Waits.stepped (waits : s.Waits inPipe) {x : Step σ κ}
    (before : ∀ e', TwoEnded.isAsleep e' x.after = true →
      (e' = x.on ∧ ∃ k c, x.outcome = .asleep k ∧ inPipe k = some c ∧ c.madeOn = e' ∧
        c.mayWait = true) ∨ (e' ≠ x.on ∧ TwoEnded.isAsleep e' s.state = true)) :
    (s.after (.stepped x)).Waits inPipe := by
  intro e' asleep
  rcases before e' asleep with ⟨rfl, k, c, slept, inside⟩ | ⟨other, slept⟩
  · refine ⟨⟨x.begun, k⟩, c, ?_, inside⟩
    rw [calls_stepped_self, slept]
    rfl
  · obtain ⟨o, c, now, inside⟩ := waits e' slept
    exact ⟨o, c, (calls_stepped_of_ne other).trans now, inside⟩

end Keeping

/-- Nobody sleeps at the start. -/
theorem not_isAsleep_create (capacity who : Nat) :
    (Pipe.create capacity).isAsleep who = false := rfl

/-- A wakeup without a notification puts nobody to sleep. -/
theorem isAsleep_of_rouse {p : Pipe} {who w : Nat} (asleep : (p.rouse who).isAsleep w = true) :
    p.isAsleep w = true := by
  obtain ⟨e, here⟩ := Pipe.isAsleep_iff.1 asleep
  exact Pipe.isAsleep_iff.2 ⟨e, Pipe.sleepers_rouse_subset e here⟩

theorem waits_pipe (capacity : Nat) (schedule : List (Move PipeCall)) :
    ((create (Pipe.create capacity)).run schedule).Waits some := by
  refine (run_induction (P := fun h s => Carries capacity (steps h) s ∧ s.Waits some)
    ⟨carries_create capacity, fun e asleep => ?_⟩ ?_ schedule).2
  · exact Bool.noConfusion ((not_isAsleep_create capacity e.caller).symm.trans asleep)
  · rintro h s ev ⟨carries, waits⟩ can
    refine ⟨carries.after can, ?_⟩
    cases can with
    | begins idle may => exact waits.began idle _
    | rouses => exact waits.roused fun _ => isAsleep_of_rouse
    | @steps e begun stage now awake =>
      have on := carries.placed e _ now
      apply waits.stepped
      intro e' asleep
      have stirs := Pipe.stirs_step carries.valid on
      rcases stirs.asleep_before carries.justified awake asleep with ⟨rfl, slept⟩ | before
      · exact .inl ⟨rfl, stage, stage, slept, rfl, on, ((Pipe.asleep_iff _ _ _).1 slept).1⟩
      · exact .inr before

/-- The call that a call on a message is in the pipe with. -/
def inPipe? : MessageCall → Option PipeCall
  | .inPipe _ c => some c
  | _ => none

/-- The pipe of a message holds as much after a step as before. -/
theorem capacity_message_step (who : Nat) (c : MessageCall) (m : Message) :
    (m.step who c).1.pipe.ring.capacity = m.pipe.ring.capacity := by
  rw [Message.pipe_step]
  cases c.pipeCall? with
  | none => rfl
  | some d => exact Pipe.capacity_step who d m.pipe

theorem waits_message (capacity : Nat) (schedule : List (Move MessageCall)) :
    ((create (Message.create capacity)).run schedule).state.pipe.ring.capacity = max capacity 1 ∧
      ((create (Message.create capacity)).run schedule).Waits inPipe? := by
  refine (run_induction (P := fun h s => Minded (steps h) s ∧
    s.state.pipe.ring.capacity = max capacity 1 ∧ s.Waits inPipe?)
    ⟨minded_create capacity, Ring.capacity_create capacity, fun e asleep => ?_⟩ ?_ schedule).2
  · exact Bool.noConfusion ((not_isAsleep_create capacity e.caller).symm.trans asleep)
  · rintro h s ev ⟨minded, size, waits⟩ can
    refine ⟨minded.after can, ?_⟩
    cases can with
    | begins idle may => exact ⟨size, waits.began idle _⟩
    | rouses => exact ⟨size, waits.roused fun _ => isAsleep_of_rouse⟩
    | @steps e begun stage now awake =>
      refine ⟨(capacity_message_step e.caller stage s.state).trans size, waits.stepped ?_⟩
      intro e' asleep
      have stages := minded.stages e _ now
      rcases stages.asleep_before minded.valid minded.justified awake asleep with
        ⟨rfl, c', slept⟩ | before
      · obtain ⟨rule, d, call, rfl, asleep⟩ := Message.asleep_step slept
        exact .inl ⟨rfl, _, d, slept, rfl, stages.madeOn call, ((Pipe.asleep_iff _ _ _).1 asleep).1⟩
      · exact .inr before

theorem rightlyBlocked_pipe (capacity : Nat) (schedule : List (Move PipeCall)) :
    ((create (Pipe.create capacity)).run schedule).RightlyBlocked id some capacity := by
  have carries := carries_run capacity schedule
  refine rightlyBlocked_of_waits (fun _ _ => rfl) carries.valid carries.justified carries.size
    (waits_pipe capacity schedule) ?_
  intro e x next
  obtain ⟨begun, stage, rfl, now, -⟩ := next?_eq_some next
  exact .inr ⟨stage, carries.placed e _ now, rfl⟩

theorem rightlyBlocked_message (capacity : Nat) (schedule : List (Move MessageCall)) :
    ((create (Message.create capacity)).run schedule).RightlyBlocked Message.pipe inPipe?
      capacity := by
  have minded := minded_run capacity schedule
  obtain ⟨size, waits⟩ := waits_message capacity schedule
  refine rightlyBlocked_of_waits (fun _ _ => rfl) minded.valid minded.justified size waits ?_
  intro e x next
  obtain ⟨begun, stage, rfl, now, -⟩ := next?_eq_some next
  have after := Message.pipe_step e.caller stage
  cases call : stage.pipeCall? with
  | none => exact .inl ((after _).trans (by rw [call]; rfl))
  | some d =>
    exact .inr ⟨d, (minded.stages e _ now).madeOn call, (after _).trans (by rw [call]; rfl)⟩

/-- For every capacity, whatever is done at the two ends of a pipe or of a message, in whatever
order the steps are taken and whoever wakes without a notification: a writer that sleeps has found
the buffer full and a reader the buffer empty, with both ends open, so the two never sleep at the
same time, no call is asleep that could return, and a step that moves bytes or closes an end leaves
nobody asleep at the other end. -/
theorem always_rightlyBlocked (capacity : Nat) (onPipe : List (Move PipeCall))
    (onMessage : List (Move MessageCall)) :
    ((create (Pipe.create capacity)).run onPipe).RightlyBlocked id some capacity ∧
      ((create (Message.create capacity)).run onMessage).RightlyBlocked Message.pipe inPipe?
        capacity :=
  ⟨rightlyBlocked_pipe capacity onPipe, rightlyBlocked_message capacity onMessage⟩

/-- A pipe that was asked to hold nothing holds one byte, and blocks the writer of a second one. -/
example : ((create (Pipe.create 0)).run
    [.begin .writer (.write [1]), .step .writer, .begin .writer (.write [2]),
      .step .writer]).state.isAsleep PipeEnd.writer.caller = true := rfl

end Session

end Loopback
