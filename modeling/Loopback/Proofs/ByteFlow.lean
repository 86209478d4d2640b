import Loopback.Proofs.PipeSleepers

/-!
# The bytes that go through a pipe

Each step of a call on a pipe accepts bytes from the writer or hands bytes to the reader, if it
moves any (`PipeCall.accepted`, `PipeCall.consumed`). While the read end is open no byte is lost and
none is added: what was queued and what a step accepts is what the step hands out and what is queued
then (`Pipe.Conserves`). Along a schedule, what was written is what was taken followed by what is
queued (`Session.Carries`), and every answer is in keeping with that (`Session.Step.Honest`).
-/

namespace Loopback

/-- How many bytes an answer is about. -/
def Reply.amount : Reply → Nat
  | .count n => n
  | .bytes data => data.length
  | _ => 0

namespace PipeCall

/-- The call asks for at most so many bytes. -/
def asks? : PipeCall → Option Nat
  | .read limit => some limit
  | .skip count => some count
  | _ => none

/-- The bytes that the pipe accepts in a step of the call that comes to `outcome`. -/
def accepted (c : PipeCall) (outcome : Progress PipeCall Result) : Bytes :=
  match c, outcome with
  | .write data, .done (.ok (.count n)) => data.take n
  | _, _ => []

/-- The bytes that the pipe hands out in a step of the call. Those that a skip throws away stand in
front of the queue. -/
def consumed (c : PipeCall) (p : Pipe) (outcome : Progress PipeCall Result) : Bytes :=
  match c, outcome with
  | .read _, .done (.ok (.bytes data)) => data
  | .skip _, .done (.ok (.count n)) => p.ring.contents.take n
  | _, _ => []

end PipeCall

/-! ## One step -/

namespace Pipe

/-- No call changes how much the pipe holds. -/
theorem capacity_step (who : Nat) (c : PipeCall) (p : Pipe) :
    (p.step who c).1.ring.capacity = p.ring.capacity := by
  cases c with
  | write data =>
    simp only [step, write]
    repeat' split
    all_goals first | rfl | exact Ring.capacity_write data p.ring
  | read limit =>
    simp only [step, read]
    repeat' split
    all_goals first | rfl | exact Ring.capacity_read limit p.ring
  | skip count =>
    simp only [step, skip]
    repeat' split
    all_goals rfl
  | closeWriter =>
    simp only [step, closeWriter]
    split <;> rfl
  | closeReader =>
    simp only [step, closeReader]
    split <;> rfl
  | _ => rfl

/-- A step of the call `c` that comes to `outcome` loses no byte and adds none, unless the read end
is closed; and an end is closed only by the call that does so. -/
structure Conserves (c : PipeCall) (p p' : Pipe) (outcome : Progress PipeCall Result) : Prop where
  valid : p'.ring.Valid
  writer : p'.writerClosed = (p.writerClosed || c == .closeWriter)
  reader : p'.readerClosed = (p.readerClosed || c == .closeReader)
  flow : p'.readerClosed = false →
    p.ring.contents ++ c.accepted outcome = c.consumed p outcome ++ p'.ring.contents

variable {p p' : Pipe} {c : PipeCall} {outcome : Progress PipeCall Result}

theorem Conserves.opened (h : Conserves c p p' outcome) (opened : p'.readerClosed = false) :
    p.readerClosed = false := by
  rw [h.reader, Bool.or_eq_false_iff] at opened
  exact opened.1

/-- No step opens an end again. -/
theorem Conserves.isBroken (h : Conserves c p p' outcome) (broken : p.isBroken = true) :
    p'.isBroken = true := by
  rw [Pipe.isBroken, h.writer, h.reader]
  rcases (Bool.or_eq_true ..).mp broken with shut | shut
  · simp [shut]
  · simp [shut]

/-- A step that moves no byte and closes no end. -/
theorem Conserves.of_same (valid : p.ring.Valid) (same : p.Same p')
    (accepted : c.accepted outcome = []) (consumed : c.consumed p outcome = [])
    (stays : (c == .closeWriter) = false) (stays' : (c == .closeReader) = false) :
    Conserves c p p' outcome where
  valid := same.ring ▸ valid
  writer := by rw [same.writerClosed, stays, Bool.or_false]
  reader := by rw [same.readerClosed, stays', Bool.or_false]
  flow _ := by rw [accepted, consumed, same.ring, List.append_nil, List.nil_append]

theorem conserves_write (valid : p.ring.Valid) (who : Nat) (data : Bytes) :
    Conserves (.write data) p (p.step who (.write data)).1 (p.step who (.write data)).2 := by
  have pour := pour_write valid who data
  simp only [step]
  generalize p.write who data = turn at pour ⊢
  obtain ⟨p', answer⟩ := turn
  cases pour with
  | nothing empty => exact .of_same valid (.refl _) rfl rfl rfl rfl
  | refused same | waits same => exact .of_same valid same rfl rfl rfl rfl
  | takes writer reader valid' more writer' reader' =>
    -- Both ends were open, and stay so.
    refine ⟨valid', ?_, ?_, fun _ => more.symm⟩
    · rw [writer, Bool.false_or]
      exact writer'
    · rw [reader, Bool.false_or]
      exact reader'

/-- Taking bytes off the front, for a call that is answered with `reply`. -/
theorem Draw.conserves {α : Type} {asked : Nat} {f : Bytes → α} {reply : α → Reply}
    {turn : Turn (Except Failure α)} (draw : Draw asked f p p' turn) (valid : p.ring.Valid)
    (stays : (c == .closeWriter) = false) (stays' : (c == .closeReader) = false)
    (reads : ∀ outcome, c.accepted outcome = [])
    (refuses : ∀ why, c.consumed p (.done (.error why)) = [])
    (sleeps : c.consumed p (.asleep c) = [])
    (takes : ∀ data, data <+: p.ring.contents →
      c.consumed p (.done (.ok (reply (f data)))) = data) :
    Conserves c p p' (progress c reply turn) := by
  cases draw with
  | nothing none => exact .of_same valid (.refl _) (reads _) (takes [] List.nil_prefix) stays stays'
  | refused same => exact .of_same valid same (reads _) (refuses _) stays stays'
  | waits same => exact .of_same valid same (reads _) sleeps stays stays'
  | final reader empty shut same =>
    exact .of_same valid same (reads _) (takes [] List.nil_prefix) stays stays'
  | front reader some valid' rest writer' reader' =>
    refine ⟨valid', ?_, ?_, ?_⟩
    · rw [writer', stays, Bool.or_false]
    · rw [reader', reader, stays', Bool.or_false]
    · intro _
      have taken := takes _ (List.take_prefix asked p.ring.contents)
      rw [reads, rest, List.append_nil]
      exact (congrArg (· ++ _) taken).trans (List.take_append_drop asked _) |>.symm

theorem conserves_read (valid : p.ring.Valid) (who limit : Nat) :
    Conserves (.read limit) p (p.step who (.read limit)).1 (p.step who (.read limit)).2 := by
  refine (draw_read valid who limit).conserves valid rfl rfl ?_ (fun _ => rfl) rfl (fun _ _ => rfl)
  intro outcome
  rfl

theorem conserves_skip (valid : p.ring.Valid) (who count : Nat) :
    Conserves (.skip count) p (p.step who (.skip count)).1 (p.step who (.skip count)).2 := by
  refine (draw_skip valid who count).conserves valid rfl rfl ?_ (fun _ => rfl) rfl ?_
  · intro outcome
    rfl
  · intro data front
    exact (List.prefix_iff_eq_take.1 front).symm

theorem conserves_step (valid : p.ring.Valid) (who : Nat) (c : PipeCall) :
    Conserves c p (p.step who c).1 (p.step who c).2 := by
  cases c with
  | write data => exact conserves_write valid who data
  | read limit => exact conserves_read valid who limit
  | skip count => exact conserves_skip valid who count
  | closeWriter =>
    simp only [step, closeWriter]
    split
    · next shut => exact ⟨valid, by simp [shut], (Bool.or_false _).symm, fun _ => List.append_nil _⟩
    · exact ⟨valid, by simp, (Bool.or_false _).symm, fun _ => List.append_nil _⟩
  | closeReader =>
    simp only [step, closeReader]
    split
    · next shut => exact ⟨valid, (Bool.or_false _).symm, by simp [shut], fun _ => List.append_nil _⟩
    · refine ⟨Ring.clear_valid valid, (Bool.or_false _).symm, by simp, ?_⟩
      -- What was queued is lost, with the read end closed.
      rintro ⟨⟩
  | _ => exact .of_same valid (.refl p) rfl rfl rfl rfl

/-- An operation that may wait is answered when its turn returns. -/
theorem progress_eq_done {α : Type} {reply : α → Reply} {turn : Turn (Except Failure α)}
    {r : Reply} (h : progress c reply turn = .done (.ok r)) :
    ∃ a, turn = .returns (.ok a) ∧ reply a = r := by
  cases turn with
  | sleeps => cases h
  | returns answer =>
    cases answer with
    | error why => cases h
    | ok a =>
      cases h
      exact ⟨a, rfl, rfl⟩

/-- A call that sleeps starts over. -/
theorem eq_of_next? {who : Nat} {c' : PipeCall} (h : (p.step who c).2.next? = some c') :
    c' = c := by
  rcases step_progress who c p with asleep | ⟨r, done⟩
  · rw [asleep] at h
    exact (Option.some.inj h).symm
  · rw [done] at h
    exact absurd h.symm (Option.some_ne_none _)

/-- A write that succeeds takes at least one byte, and a front of its data. -/
theorem count_of_write {who n : Nat} {data : Bytes} (valid : p.ring.Valid) (some : data ≠ [])
    (h : (p.step who (.write data)).2 = .done (.ok (.count n))) :
    0 < n ∧ n ≤ data.length ∧
      (p.step who (.write data)).1.ring.contents = p.ring.contents ++ data.take n := by
  obtain ⟨a, answer, same⟩ :
      ∃ a, (p.write who data).2 = .returns (.ok a) ∧ Reply.count a = .count n :=
    progress_eq_done h
  cases same
  have pour : Pour data p (p.write who data).1 (.returns (.ok n)) :=
    answer ▸ pour_write valid who data
  show 0 < n ∧ n ≤ data.length ∧ (p.write who data).1.ring.contents = p.ring.contents ++ data.take n
  generalize (p.write who data).1 = p' at pour
  cases pour with
  | nothing empty => exact absurd empty some
  | takes writer reader valid' more writer' reader' pos within => exact ⟨pos, within, more⟩

/-- Taking some bytes off the front yields none only at the end of the stream, and else as many as
were asked for or as many as there are. -/
theorem Draw.amount {α : Type} {asked : Nat} {f : Bytes → α} {reply : α → Reply} {a : α}
    (draw : Draw asked f p p' (.returns (.ok a))) (some : 0 < asked)
    (amount : ∀ data, (reply (f data)).amount = data.length) :
    ((reply a).amount = 0 ∧ p.writerClosed = true ∧ p.ring.contents = [] ∧
        p.readerClosed = false) ∨
      (0 < (reply a).amount ∧ (reply a).amount = min asked p.ring.contents.length) := by
  cases draw with
  | nothing none => omega
  | final reader empty shut same => exact .inl ⟨amount [], shut, empty, reader⟩
  | front reader some valid rest writer' reader' =>
    rw [amount]
    exact .inr ⟨List.length_pos_iff.2 some, List.length_take⟩

theorem amount_of_step {who size : Nat} {r : Reply} (valid : p.ring.Valid)
    (asks : c.asks? = some size) (some : 0 < size) (h : (p.step who c).2 = .done (.ok r)) :
    (r.amount = 0 ∧ p.writerClosed = true ∧ p.ring.contents = [] ∧ p.readerClosed = false) ∨
      (0 < r.amount ∧ r.amount = min size p.ring.contents.length) := by
  cases c with
  | read limit =>
    cases asks
    obtain ⟨a, answer, rfl⟩ := progress_eq_done h
    exact Draw.amount (f := id) (answer ▸ draw_read valid who size) some fun _ => rfl
  | skip count =>
    cases asks
    obtain ⟨a, answer, rfl⟩ := progress_eq_done h
    exact Draw.amount (answer ▸ draw_skip valid who size) some fun _ => rfl
  | _ => cases asks

end Pipe

/-! ## Along a schedule -/

namespace Session

/-- The bytes that the pipe accepts in a step. -/
def Step.accepted (x : Step Pipe PipeCall) : Bytes := x.stage.accepted x.outcome

/-- The bytes that the pipe hands out in a step. -/
def Step.consumed (x : Step Pipe PipeCall) : Bytes := x.stage.consumed x.before x.outcome

section Readings

variable (xs : List (Step Pipe PipeCall)) (x : Step Pipe PipeCall)

/-- The bytes that the writes among these steps wrote. -/
def written : Bytes := xs.flatMap Step.accepted

/-- The bytes that the reads among these steps returned and the skips threw away. -/
def taken : Bytes := xs.flatMap Step.consumed

/-- The write end was closed, or let go of. -/
def hungUp : Bool := xs.any (·.stage == .closeWriter)

theorem written_concat : written (xs ++ [x]) = written xs ++ x.accepted := by
  simp [written]

theorem taken_concat : taken (xs ++ [x]) = taken xs ++ x.consumed := by
  simp [taken]

theorem hungUp_concat : hungUp (xs ++ [x]) = (hungUp xs || x.stage == .closeWriter) := by
  simp [hungUp]

end Readings

/-- What the steps of every schedule on a fresh pipe come to. -/
structure Carries (capacity : Nat) (xs : List (Step Pipe PipeCall)) (s : Session Pipe PipeCall) :
    Prop where
  valid : s.state.ring.Valid
  size : s.state.ring.capacity = max capacity 1
  justified : s.state.Justified
  placed : ∀ e o, s.calls e = some o → o.stage.madeOn = e
  writer : s.state.writerClosed = hungUp xs
  flow : s.state.readerClosed = false → written xs = taken xs ++ s.state.ring.contents

variable {capacity : Nat} {xs : List (Step Pipe PipeCall)} {s : Session Pipe PipeCall}

theorem carries_create (capacity : Nat) :
    Carries capacity [] (create (Pipe.create capacity)) where
  valid := Ring.valid_create capacity
  size := Ring.capacity_create capacity
  justified := Pipe.justified_create capacity
  placed _ _ now := absurd now.symm (Option.some_ne_none _)
  writer := rfl
  flow _ := by
    have length := Ring.length_contents (Ring.valid_create capacity)
    exact (List.length_eq_zero_iff.1 length).symm

theorem Carries.began (carries : Carries capacity xs s) {e : PipeEnd} {c : PipeCall}
    (on : c.madeOn = e) : Carries capacity xs (s.after (.began e c)) := by
  refine ⟨carries.valid, carries.size, carries.justified, ?_, carries.writer, carries.flow⟩
  intro e' o now
  rcases eq_of_calls_began now with ⟨rfl, rfl⟩ | ⟨-, before⟩
  · exact on
  · exact carries.placed e' o before

theorem Carries.roused (carries : Carries capacity xs s) (e : PipeEnd) :
    Carries capacity xs (s.after (.roused e)) :=
  ⟨carries.valid, carries.size, carries.justified.rouse _, carries.placed, carries.writer,
    carries.flow⟩

theorem Carries.stepped (carries : Carries capacity xs s) {e : PipeEnd} {begun stage : PipeCall}
    (now : s.calls e = some ⟨begun, stage⟩) (awake : s.state.isAsleep e.caller = false) :
    Carries capacity (xs ++ [⟨e, begun, stage, s.state⟩])
      (s.after (.stepped ⟨e, begun, stage, s.state⟩)) := by
  have on := carries.placed e _ now
  have kept := Pipe.conserves_step carries.valid e.caller stage
  refine ⟨kept.valid, (Pipe.capacity_step _ _ _).trans carries.size,
    carries.justified.step carries.valid on awake, ?_, ?_, ?_⟩
  · intro e' o later
    rcases eq_of_calls_stepped later with ⟨rfl, c, onward, rfl⟩ | ⟨-, before⟩
    · -- A call that is not over starts over.
      rw [Pipe.eq_of_next? onward]
      exact on
    · exact carries.placed e' o before
  · rw [hungUp_concat, ← carries.writer]
    exact kept.writer
  · intro opened
    rw [written_concat, taken_concat, carries.flow (kept.opened opened), List.append_assoc,
      List.append_assoc]
    exact congrArg (taken xs ++ ·) (kept.flow opened)

theorem Carries.after {h : List (Event Pipe PipeCall)} (carries : Carries capacity (steps h) s)
    {ev : Event Pipe PipeCall} (can : s.Can ev) :
    Carries capacity (steps (h ++ [ev])) (s.after ev) := by
  cases can with
  | rouses asleep =>
    rw [steps_roused]
    exact carries.roused _
  | begins idle may =>
    rw [steps_began]
    exact carries.began (eq_of_beq may)
  | steps now awake =>
    rw [steps_stepped]
    exact carries.stepped now awake

theorem carries_run (capacity : Nat) (schedule : List (Move PipeCall)) :
    Carries capacity (steps ((create (Pipe.create capacity)).history schedule))
      ((create (Pipe.create capacity)).run schedule) :=
  run_induction (P := fun h s => Carries capacity (steps h) s) (carries_create capacity)
    (fun carries can => carries.after can) schedule

/-- What the answer of a step tells, after the steps `xs`. A write that is not empty and succeeds
takes at least one byte, and a front of its data. Who asks for some bytes gets none only when the
write end is closed and everything written was taken, and else as many as were asked for or as many
as are queued. -/
structure Step.Honest (xs : List (Step Pipe PipeCall)) (x : Step Pipe PipeCall) : Prop where
  writes : ∀ data n, x.stage = .write data → data ≠ [] → x.outcome = .done (.ok (.count n)) →
    0 < n ∧ n ≤ data.length ∧ x.after.ring.contents = x.before.ring.contents ++ data.take n
  reads : ∀ size r, x.stage.asks? = some size → 0 < size → x.outcome = .done (.ok r) →
    (r.amount = 0 ∧ x.before.writerClosed = true ∧ x.before.ring.contents = [] ∧
        written xs = taken xs) ∨
      (0 < r.amount ∧ r.amount = min size x.before.ring.contents.length)

theorem Carries.honest (carries : Carries capacity xs s) {e : PipeEnd} {x : Step Pipe PipeCall}
    (next : s.next? e = some x) : x.Honest xs := by
  obtain ⟨begun, stage, rfl, -, -⟩ := next?_eq_some next
  constructor
  · rintro data n rfl some outcome
    exact Pipe.count_of_write carries.valid some outcome
  · intro size r asks some outcome
    rcases Pipe.amount_of_step carries.valid asks some outcome with
      ⟨none, shut, empty, opened⟩ | more
    · have flow := carries.flow opened
      rw [empty, List.append_nil] at flow
      exact .inl ⟨none, shut, empty, flow⟩
    · exact .inr more

end Session

end Loopback
