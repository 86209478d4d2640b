import Loopback.Proofs.Cancellation
import Loopback.Proofs.RingQueue

/-!
# A skip is a read thrown away

A ring, a pipe and a message each have a read and a skip, written apart. A skip leaves behind what a
read of as many bytes leaves behind, waits when that waits and fails as that fails; only, it answers
how many bytes there were in place of the bytes. This is said of whole runs: put skips in place of
any of the reads of a schedule, and every step finds the same state, leaves the same state and comes
to the same (`Session.alike_of_retold`), wherever a cancellation falls between the steps.

How much more is asked for than there is makes no difference to a skip that asks for anything at
all. A skip of nothing is answered at once, without a look at the ends of the pipe
(`Session.not_every_greater_skip_alike`).
-/

namespace Loopback

/-! ## Other calls in the same run -/

/-- The same outcome, with `f` in place of calls and `g` of answers. -/
def Progress.retold {κ α : Type} (f : κ → κ) (g : α → α) : Progress κ α → Progress κ α
  | .more c => .more (f c)
  | .asleep c => .asleep (f c)
  | .done r => .done (g r)

theorem Progress.next?_retold {κ α : Type} (f : κ → κ) (g : α → α) (p : Progress κ α) :
    (p.retold f g).next? = p.next?.map f := by
  cases p <;> rfl

/-- The same progress of another call. -/
def Ongoing.retold {κ : Type} (f : κ → κ) (o : Ongoing κ) : Ongoing κ := ⟨f o.begun, f o.stage⟩

namespace Session

section Retold

variable {σ κ : Type} (f : κ → κ) (g : Result → Result)

/-- The same request for another call. -/
def Move.retold : Move κ → Move κ
  | .begin e c => .begin e (f c)
  | .step e => .step e
  | .rouse e => .rouse e

/-- The same step of another call. -/
def Step.retold (x : Step σ κ) : Step σ κ := { x with begun := f x.begun, stage := f x.stage }

/-- The same event with another call. -/
def Event.retold : Event σ κ → Event σ κ
  | .began e c => .began e (f c)
  | .stepped x => .stepped (x.retold f)
  | .roused e => .roused e

/-- The same state with other calls in progress. -/
def retold (s : Session σ κ) : Session σ κ := ⟨s.state, Option.map (Ongoing.retold f) ∘ s.calls⟩

@[simp] theorem calls_retold (s : Session σ κ) (e : PipeEnd) :
    (s.retold f).calls e = (s.calls e).map (Ongoing.retold f) := rfl

theorem steps_retold (h : List (Event σ κ)) :
    steps (h.map (Event.retold f)) = (steps h).map (Step.retold f) := by
  rw [steps, steps, List.filterMap_map, List.map_filterMap]
  congr 1
  funext ev
  cases ev <;> rfl

variable [TwoEnded σ κ]

/-- In every state that is `sound` a call and the call that `f` puts in its place do the same, and
`g` says what the latter answers. -/
structure Retells (sound : σ → Prop) : Prop where
  begins : ∀ e c, TwoEnded.mayBegin (σ := σ) e (f c) = TwoEnded.mayBegin (σ := σ) e c
  steps : ∀ e c x, sound x →
    TwoEnded.step e (f c) x = ((TwoEnded.step e c x).1, (TwoEnded.step e c x).2.retold f g)
  kept : ∀ e c x, sound x → sound (TwoEnded.step e c x).1
  rouses : ∀ e x, sound x → sound (TwoEnded.rouse e x)

variable {f g} {sound : σ → Prop} {s : Session σ κ} {ev : Event σ κ}

theorem Retells.step (h : Retells f g sound) {x : Step σ κ} (found : sound x.before) :
    (x.retold f).after = x.after ∧ (x.retold f).outcome = x.outcome.retold f g :=
  Prod.mk.inj (h.steps x.on x.stage x.before found)

theorem next?_retold (e : PipeEnd) : (s.retold f).next? e = (s.next? e).map (Step.retold f) := by
  rw [next?, next?, calls_retold]
  cases s.calls e with
  | none => rfl
  | some o =>
    show (if TwoEnded.isAsleep e s.state then none
      else some ⟨e, f o.begun, f o.stage, s.state⟩) =
        (if TwoEnded.isAsleep e s.state then none
          else some ⟨e, o.begun, o.stage, s.state⟩).map (Step.retold f)
    split <;> rfl

theorem Retells.event? (h : Retells f g sound) (mv : Move κ) :
    (s.retold f).event? (mv.retold f) = (s.event? mv).map (Event.retold f) := by
  cases mv with
  | begin e c =>
    simp only [Move.retold, Session.event?, calls_retold, Option.isNone_map, h.begins]
    split <;> rfl
  | step e =>
    rw [Move.retold, Session.event?, Session.event?, next?_retold, Option.map_map, Option.map_map]
    rfl
  | rouse e =>
    show (if TwoEnded.isAsleep e s.state then some (.roused e) else none) =
      (if TwoEnded.isAsleep e s.state then some (.roused e) else none).map (Event.retold f)
    split <;> rfl

theorem Retells.after (h : Retells f g sound) (here : sound s.state) (can : s.Can ev) :
    (s.retold f).after (ev.retold f) = (s.after ev).retold f ∧ sound (s.after ev).state := by
  cases can with
  | @begins e c idle may =>
    refine ⟨?_, here⟩
    simp only [Session.after, Event.retold, retold, Function.comp_update]
    rfl
  | @steps e begun stage now awake =>
    refine ⟨?_, h.kept e stage s.state here⟩
    obtain ⟨after, outcome⟩ := h.step (x := ⟨e, begun, stage, s.state⟩) here
    simp only [Session.after, Event.retold, after, outcome, retold, Function.comp_update,
      Progress.next?_retold, Option.map_map]
    rfl
  | rouses asleep => exact ⟨rfl, h.rouses _ _ here⟩

theorem Retells.move (h : Retells f g sound) (here : sound s.state) (mv : Move κ) :
    (s.retold f).move (mv.retold f) = (s.move mv).retold f ∧ sound (s.move mv).state := by
  rw [Session.move, Session.move, h.event?]
  cases took : s.event? mv with
  | none => exact ⟨rfl, here⟩
  | some ev => exact h.after here (can_of_event? took)

/-- With other calls a schedule runs as before, and the same takes effect. -/
theorem Retells.run (h : Retells f g sound) (here : sound s.state) (schedule : List (Move κ)) :
    (s.retold f).run (schedule.map (Move.retold f)) = (s.run schedule).retold f ∧
      (s.retold f).history (schedule.map (Move.retold f)) =
        (s.history schedule).map (Event.retold f) ∧
      ∀ x ∈ Session.steps (s.history schedule), sound x.before := by
  induction schedule generalizing s with
  | nil => exact ⟨rfl, rfl, by simp [history, Session.steps]⟩
  | cons mv schedule ih =>
    obtain ⟨same, there⟩ := h.move here mv
    obtain ⟨run, history, found⟩ := ih there
    refine ⟨?_, ?_, ?_⟩
    · rw [List.map_cons, Session.run, List.foldl_cons, same]
      exact run
    · rw [List.map_cons, Session.history, Session.history, h.event?, same, history, List.map_append]
      cases s.event? mv <;> rfl
    · intro x mem
      rw [Session.history, Session.steps, List.filterMap_append, List.mem_append] at mem
      rcases mem with now | later
      · cases took : s.event? mv with
        | none => simp [took] at now
        | some ev =>
          rw [took] at now
          cases can_of_event? took with
          | begins | rouses => simp [Event.step?] at now
          | steps =>
            obtain rfl : x = _ := by simpa [Event.step?] using now
            exact here
      · exact found x later

/-- What a step shows: the end and the call that took it, the states on either side of it, and what
it came to. -/
structure Seen (σ κ : Type) where
  on : PipeEnd
  begun : κ
  before : σ
  after : σ
  outcome : Progress κ Result

variable (f g)

/-- What a step shows, with `f` in place of calls and `g` of answers. -/
def Step.seen (x : Step σ κ) : Seen σ κ :=
  ⟨x.on, f x.begun, x.before, x.after, x.outcome.retold f g⟩

/-- Two schedules have the same effect, but for the difference between calls that `f` makes the
same and between answers that `g` makes the same. -/
structure Alike (s : Session σ κ) (one other : List (Move κ)) : Prop where
  state : (s.run one).state = (s.run other).state
  calls : ∀ e, ((s.run one).calls e).map (Ongoing.retold f) =
    ((s.run other).calls e).map (Ongoing.retold f)
  seen : (steps (s.history one)).map (Step.seen f g) = (steps (s.history other)).map (Step.seen f g)

variable {f g}

/-- Schedules that differ only in calls that `f` makes the same have the same effect. -/
theorem alike_of_retold (h : Retells f g sound) (here : sound s.state) {one other : List (Move κ)}
    (same : one.map (Move.retold f) = other.map (Move.retold f)) : Alike f g s one other := by
  obtain ⟨run, history, found⟩ := h.run here one
  obtain ⟨run', history', found'⟩ := h.run here other
  rw [same] at run history
  have runs := run.symm.trans run'
  have state := congrArg Session.state runs
  have calls := congrArg Session.calls runs
  have steps := congrArg Session.steps (history.symm.trans history')
  rw [steps_retold, steps_retold] at steps
  -- What a step shows can be read off the step with the other call.
  have read (schedule : List (Move κ))
      (found : ∀ x ∈ Session.steps (s.history schedule), sound x.before) :
      (Session.steps (s.history schedule)).map (Step.seen f g) =
        ((Session.steps (s.history schedule)).map (Step.retold f)).map fun y =>
          ⟨y.on, y.begun, y.before, y.after, y.outcome⟩ := by
    rw [List.map_map]
    apply List.map_congr_left
    intro x mem
    obtain ⟨after, outcome⟩ := h.step (found x mem)
    simp only [Function.comp, after, outcome]
    rfl
  refine ⟨state, fun e => congrFun calls e, ?_⟩
  rw [read one found, read other found', steps]

end Retold

end Session

/-! ## Skips in place of reads -/

/-- How many bytes an answer gives, in place of the bytes. -/
def Reply.counted : Reply → Reply
  | .bytes data => .count data.length
  | r => r

/-- The same answer with a count in place of bytes; a failure stays as it is. -/
def Result.counted (r : Result) : Result := r.map Reply.counted

/-- A skip in place of a read. -/
def PipeCall.discarding : PipeCall → PipeCall
  | .read limit => .skip limit
  | c => c

/-- A skip in place of a read, at every stage. -/
def MessageCall.discarding : MessageCall → MessageCall
  | .start c => .start c.discarding
  | .inPipe rule c => .inPipe rule c.discarding
  | .settle r => .settle (Result.counted r)
  | .raiseFlag r => .raiseFlag (Result.counted r)
  | .hangUp r => .hangUp (Result.counted r)
  | .wasCancelled => .wasCancelled

namespace PipeCall

variable (c : PipeCall)

@[simp] theorem madeOn_discarding : c.discarding.madeOn = c.madeOn := by cases c <;> rfl

@[simp] theorem flagRule_discarding : c.discarding.flagRule = c.flagRule := by cases c <;> rfl

@[simp] theorem isGated_discarding : c.discarding.isGated = c.isGated := by cases c <;> rfl

end PipeCall

namespace MessageCall

variable (c : MessageCall)

theorem madeOn?_discarding : c.discarding.madeOn? = c.madeOn? := by
  cases c <;> simp [discarding, madeOn?]

theorem isEntry_discarding : c.discarding.isEntry = c.isEntry := by
  cases c with
  | inPipe rule c => cases rule <;> cases c <;> rfl
  | raiseFlag r =>
    cases r with
    | error why => rfl
    | ok reply => cases reply <;> rfl
  | _ => rfl

end MessageCall

namespace Pipe

variable {p : Pipe}

/-- An answer that is a count already stays as it is. -/
theorem retold_progress {c : PipeCall} (same : c.discarding = c)
    (turn : Turn (Except Failure Nat)) :
    (progress c .count turn).retold PipeCall.discarding Result.counted =
      progress c .count turn := by
  cases turn with
  | sleeps => exact congrArg Progress.asleep same
  | returns r => cases r <;> rfl

/-- A skip does to the pipe what a read of as many bytes does, and answers how many those are. -/
theorem step_discarding (valid : p.ring.Valid) (who : Nat) (c : PipeCall) :
    p.step who c.discarding =
      ((p.step who c).1, (p.step who c).2.retold PipeCall.discarding Result.counted) := by
  cases c with
  | read limit =>
    simp only [PipeCall.discarding, step, skip_eq_read valid]
    generalize p.read who limit = turn
    obtain ⟨p', answer⟩ := turn
    cases answer with
    | sleeps => rfl
    | returns r => cases r <;> rfl
  | write data => exact Prod.ext rfl (retold_progress rfl (p.write who data).2).symm
  | skip count => exact Prod.ext rfl (retold_progress rfl (p.skip who count).2).symm
  | flush => cases broken : p.isBroken <;> simp [PipeCall.discarding, step, flush, broken] <;> rfl
  | available =>
    simp only [PipeCall.discarding, step, available]
    split <;> rfl
  | _ => rfl

/-- A skip of more than there is takes all there is, whatever number it is given. -/
theorem skip_eq_skip (valid : p.ring.Valid) (who : Nat) {n k : Nat} (asks : n ≠ 0) (asks' : k ≠ 0)
    (all : p.ring.contents.length ≤ n) (all' : p.ring.contents.length ≤ k) :
    p.skip who n = p.skip who k := by
  rw [Ring.length_contents valid] at all all'
  have rings : p.ring.skip n = p.ring.skip k := by
    rw [Ring.skip, Ring.skip, Nat.min_eq_right all, Nat.min_eq_right all']
  simp only [skip, if_neg asks, if_neg asks', rings]

end Pipe

namespace Message

variable {m : Message}

theorem stepPipe_discarding (valid : m.pipe.ring.Valid) (who : Nat) (rule : FlagRule)
    (c : PipeCall) :
    m.stepPipe who rule c.discarding =
      ((m.stepPipe who rule c).1,
        (m.stepPipe who rule c).2.retold MessageCall.discarding Result.counted) := by
  simp only [stepPipe, Pipe.step_discarding valid]
  generalize m.pipe.step who c = turn
  obtain ⟨pipe, progress⟩ := turn
  cases progress with
  | more c | asleep c => rfl
  | done r => cases rule <;> cases r <;> rfl

/-- A skip does to a message what a read of as many bytes does, at every stage of the two. -/
theorem step_discarding (valid : m.pipe.ring.Valid) (who : Nat) (c : MessageCall) :
    m.step who c.discarding =
      ((m.step who c).1, (m.step who c).2.retold MessageCall.discarding Result.counted) := by
  cases c with
  | start c =>
    rw [MessageCall.discarding]
    cases gated : c.isGated with
    | true =>
      rw [step_gated gated, step_gated (c.isGated_discarding.trans gated), c.flagRule_discarding]
      cases m.cancelled <;> rfl
    | false =>
      rw [step_ungated gated, step_ungated (c.isGated_discarding.trans gated),
        c.flagRule_discarding]
      exact stepPipe_discarding valid who c.flagRule c
  | inPipe rule c => exact stepPipe_discarding valid who rule c
  | settle r =>
    simp only [MessageCall.discarding, step]
    cases m.cancelled <;> rfl
  | _ => rfl

/-- In the pipe of a message, too, a skip of more than there is takes all there is. -/
theorem step_inPipe_skip (valid : m.pipe.ring.Valid) (who : Nat) {n k : Nat} (asks : n ≠ 0)
    (asks' : k ≠ 0) (all : m.pipe.ring.contents.length ≤ n)
    (all' : m.pipe.ring.contents.length ≤ k) :
    (m.step who (.inPipe .checksTwice (.skip n))).1 =
        (m.step who (.inPipe .checksTwice (.skip k))).1 ∧
      (((m.step who (.inPipe .checksTwice (.skip n))).2 = .asleep (.inPipe .checksTwice (.skip n)) ∧
          (m.step who (.inPipe .checksTwice (.skip k))).2 =
            .asleep (.inPipe .checksTwice (.skip k))) ∨
        ∃ r, (m.step who (.inPipe .checksTwice (.skip n))).2 = .more (.settle r) ∧
          (m.step who (.inPipe .checksTwice (.skip k))).2 = .more (.settle r)) := by
  simp only [step, stepPipe, Pipe.step, Pipe.skip_eq_skip valid who asks asks' all all']
  generalize m.pipe.skip who k = turn
  obtain ⟨pipe, answer⟩ := turn
  cases answer with
  | sleeps => exact ⟨rfl, .inl ⟨rfl, rfl⟩⟩
  | returns r => exact ⟨rfl, .inr ⟨_, rfl, rfl⟩⟩

end Message

namespace Session

theorem retells_pipe :
    Retells PipeCall.discarding Result.counted fun p : Pipe => p.ring.Valid where
  begins e c := congrArg (· == e) c.madeOn_discarding
  steps e c _ valid := Pipe.step_discarding valid e.caller c
  kept e c _ valid := (Pipe.conserves_step valid e.caller c).valid
  rouses _ _ valid := valid

theorem retells_message :
    Retells MessageCall.discarding Result.counted fun m : Message => m.pipe.ring.Valid where
  begins e c := by
    simp only [TwoEnded.mayBegin, c.isEntry_discarding, c.madeOn?_discarding]
  steps e c _ valid := Message.step_discarding valid e.caller c
  kept e _ _ valid := MessageCall.valid_step valid e.caller
  rouses _ _ valid := valid

/-- A skip is a read thrown away, of a ring, of a pipe and of a message of every size. Of a ring: it
removes and counts what a read of as many bytes removes and gives. Of a pipe and of a message: two
schedules that differ only in whether they read or skip find the same states all along, sleep at the
same time, and come to the same, with a count in place of bytes; so does a single step, at any
moment and at every stage of the call. When a ring has no more than `n` bytes it makes no difference
how much more than that is skipped; nor does it when a pipe or the pipe of a message has no more, as
long as anything is skipped at all. -/
theorem skip_is_read_thrown_away (capacity : Nat) :
    (∀ ops : List ByteOp,
      let r := (Ring.create capacity).after ops
      (∀ n, r.skip n = ((r.read n).1, (r.read n).2.length)) ∧
        (∀ dest : Bytes, r.skip dest.length = ((r.readInto dest).1, (r.readInto dest).2.2)) ∧
        ∀ n k, r.len ≤ n → r.len ≤ k → r.skip n = r.skip k) ∧
    ((∀ one other : List (Move PipeCall),
        one.map (Move.retold PipeCall.discarding) = other.map (Move.retold PipeCall.discarding) →
        Alike PipeCall.discarding Result.counted (create (Pipe.create capacity)) one other) ∧
      ∀ (schedule : List (Move PipeCall)) (who : Nat),
        let p := ((create (Pipe.create capacity)).run schedule).state
        (∀ n, p.step who (.skip n) = ((p.step who (.read n)).1,
          (p.step who (.read n)).2.retold PipeCall.discarding Result.counted)) ∧
        ∀ n k, n ≠ 0 → k ≠ 0 → p.ring.contents.length ≤ n → p.ring.contents.length ≤ k →
          p.skip who n = p.skip who k) ∧
    (∀ one other : List (Move MessageCall),
      one.map (Move.retold MessageCall.discarding) =
          other.map (Move.retold MessageCall.discarding) →
      Alike MessageCall.discarding Result.counted (create (Message.create capacity)) one other) ∧
    ∀ (schedule : List (Move MessageCall)) (who : Nat),
      let m := ((create (Message.create capacity)).run schedule).state
      (∀ c : MessageCall, m.step who c.discarding = ((m.step who c).1,
        (m.step who c).2.retold MessageCall.discarding Result.counted)) ∧
      ∀ n k, n ≠ 0 → k ≠ 0 → m.pipe.ring.contents.length ≤ n → m.pipe.ring.contents.length ≤ k →
        let (m₁, p₁) := m.step who (.inPipe .checksTwice (.skip n))
        let (m₂, p₂) := m.step who (.inPipe .checksTwice (.skip k))
        m₁ = m₂ ∧
          ((p₁ = .asleep (.inPipe .checksTwice (.skip n)) ∧
              p₂ = .asleep (.inPipe .checksTwice (.skip k))) ∨
            ∃ r, p₁ = .more (.settle r) ∧ p₂ = .more (.settle r)) := by
  refine ⟨?_, ⟨?_, ?_⟩, ?_, ?_⟩
  · intro ops r
    have valid : r.Valid := ((Ring.standsFor_create capacity).after ops).layout
    refine ⟨Ring.skip_eq_read valid, fun dest => Ring.skip_eq_read valid dest.length, ?_⟩
    intro n k all all'
    rw [Ring.skip, Ring.skip, Nat.min_eq_right all, Nat.min_eq_right all']
  · intro one other same
    exact alike_of_retold retells_pipe (Ring.valid_create capacity) same
  · intro schedule who p
    have valid : p.ring.Valid := (carries_run capacity schedule).valid
    refine ⟨fun n => Pipe.step_discarding valid who (.read n), ?_⟩
    intro n k asks asks' all all'
    exact Pipe.skip_eq_skip valid who asks asks' all all'
  · intro one other same
    exact alike_of_retold retells_message (Ring.valid_create capacity) same
  · intro schedule who m
    have valid : m.pipe.ring.Valid := (minded_run capacity schedule).valid
    refine ⟨Message.step_discarding valid who, ?_⟩
    intro n k asks asks' all all'
    exact Message.step_inPipe_skip valid who asks asks' all all'

/-- `callingOff` with a skip in place of its read. -/
def skippingOff : List (Move MessageCall) :=
  [.begin .reader (.start (.skip 3)), .step .reader, .step .reader,
    .begin .writer .cancel, .step .writer, .step .writer, .step .reader]

/-- The writer writes three bytes into a pipe of four. -/
def writingThree : List (Move PipeCall) := [.begin .writer (.write [7, 8, 9]), .step .writer]

/-- A read and a skip fall asleep and are both cancelled in their sleep; and a skip of five takes
the three bytes that are there, as does a skip of the greatest machine word. -/
theorem alike_after_skippingOff :
    (∃ m : Message, m = ((create (Message.create 2)).run callingOff).state ∧
      m = ((create (Message.create 2)).run skippingOff).state ∧ m.cancelled = true) ∧
    ∃ p : Pipe, p = ((create (Pipe.create 4)).run writingThree).state ∧
      p.ring.contents = [7, 8, 9] ∧ p.skip 1 5 = p.skip 1 18446744073709551615 ∧
      (p.skip 1 5).1.ring.contents = [] := by
  obtain ⟨-, -, alike, -⟩ := skip_is_read_thrown_away 2
  obtain ⟨-, ⟨-, pipe⟩, -⟩ := skip_is_read_thrown_away 4
  obtain ⟨-, greater⟩ := pipe writingThree 1
  refine ⟨⟨_, rfl, (alike callingOff skippingOff rfl).state, rfl⟩, _, rfl, rfl, ?_, rfl⟩
  exact greater 5 18446744073709551615 (by decide) (by decide) (by decide) (by decide)

/-- A skip of more than there is and a skip of nothing are not alike, although there may be nothing:
the one waits for bytes, and the other is answered. -/
theorem not_every_greater_skip_alike :
    ¬ ∀ (capacity : Nat) (schedule : List (Move PipeCall)) (who n k : Nat),
      let p := ((create (Pipe.create capacity)).run schedule).state
      p.ring.contents.length < n → p.ring.contents.length ≤ k → p.skip who n = p.skip who k := by
  intro alike
  have same := alike 4 [] 1 5 0 (by decide) (by decide)
  have answered : ((Pipe.create 4).skip 1 0).2 = .returns (.ok 0) := rfl
  have waits : ((Pipe.create 4).skip 1 5).2 = .sleeps := rfl
  rw [show (Pipe.create 4).skip 1 5 = (Pipe.create 4).skip 1 0 from same, answered] at waits
  cases waits

end Session

end Loopback
