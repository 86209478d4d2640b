import Loopback.Proofs.Blocking
import Loopback.Transfer

/-!
# Writing all of some bytes

A transfer that writes all of some bytes makes one write after the other, each of what is left,
until nothing is left or a write fails. Whatever goes on at the other end of the pipe, each write
that succeeds takes at least one byte, so no more writes are made than there are bytes, and a write
that fails finds the pipe closed. `Session.Phase` says how far such a transfer has come, and
`Session.WritesAll` what its caller sees, for a bare pipe and for a message alike.
-/

namespace Loopback

/-- Something with two ends whose bytes go through a pipe. -/
class Piped (σ : Type) (κ : outParam Type) [TwoEnded σ κ] where
  pipe : σ → Pipe
  /-- The call on a stream that begins here. -/
  entry? : κ → Option PipeCall
  /-- The call on the pipe that is made at this stage. -/
  inPipe? : κ → Option PipeCall
  /-- How many steps a write at this stage takes at most, those apart that end in sleep. -/
  stepsLeft : κ → Nat
  some_left : ∀ c, 0 < stepsLeft c
  few_left : ∀ c, stepsLeft c ≤ 3

instance : Piped Pipe PipeCall where
  pipe := id
  entry? := some
  inPipe? := some
  stepsLeft _ := 1
  some_left _ := Nat.one_pos
  few_left _ := by decide

instance : Piped Message MessageCall where
  pipe := Message.pipe
  entry?
    | .start c => some c
    | _ => none
  inPipe? := MessageCall.pipeCall?
  stepsLeft
    | .raiseFlag _ => 2
    | .hangUp _ => 1
    | _ => 3
  some_left c := by cases c <;> exact Nat.succ_pos _
  few_left c := by cases c <;> simp

/-- The transfer after the calls that it made came to `rs`, one after the other. -/
def Transfer.after (t : Transfer) (rs : List Result) : Transfer := rs.foldl (fun t r => t.feed r) t

theorem Transfer.after_append (t : Transfer) (rs rs' : List Result) :
    t.after (rs ++ rs') = (t.after rs).after rs' :=
  List.foldl_append

namespace Session

variable {σ κ : Type}

/-! ## Reading a history at the writing end -/

/-- The writer begins a call. -/
def Event.beginsWriting : Event σ κ → Bool
  | .began .writer _ => true
  | _ => false

/-- How many calls the writer began. -/
def begun (h : List (Event σ κ)) : Nat := h.countP Event.beginsWriting

variable [TwoEnded σ κ]

/-- What a call of the writer comes to in this step, if it is over. -/
def Step.answer? (x : Step σ κ) : Option Result :=
  match x.on, x.outcome with
  | .writer, .done r => some r
  | _, _ => none

/-- What the calls of the writer came to. -/
def answers (h : List (Event σ κ)) : List Result := (steps h).filterMap Step.answer?

/-- A step of the writer that does not end in sleep. -/
def Step.advances (x : Step σ κ) : Bool :=
  match x.on, x.outcome with
  | .reader, _ => false
  | .writer, .asleep _ => false
  | .writer, _ => true

/-- How many steps of the writer did not end in sleep. -/
def advanced (h : List (Event σ κ)) : Nat := (steps h).countP Step.advances

variable [Piped σ κ]

/-- The bytes that a step of the writer got into the pipe. -/
def Step.wrote (x : Step σ κ) : Bytes :=
  match x.on, Piped.inPipe? (σ := σ) x.stage, x.outcome with
  | .writer, some (.write data), .done (.ok (.count n)) => data.take n
  | _, _, _ => []

/-- The bytes that the writer got into the pipe. -/
def sent (h : List (Event σ κ)) : Bytes := (steps h).flatMap Step.wrote

/-- The writer makes the calls that the transfer asks for, each when the one before is over; the
reader does as it likes. -/
def follows (t : Transfer) (h : List (Event σ κ)) : PipeEnd → κ → Bool
  | .reader, _ => true
  | .writer, c =>
      match (t.after (answers h)).next with
      | .inl d => Piped.entry? (σ := σ) c == some d
      | .inr _ => false

/-! ## One write -/

/-- What a step of a write of `rest` comes to: the write goes on, with one step fewer left unless it
fell asleep, or it has taken a front of `rest`, or it has failed and the stream is spoilt. -/
inductive OneWrite (spoilt : σ → Prop) (rest : Bytes) (x : Step σ κ) : Prop where
  | onward {c : κ} (next : x.outcome.next? = some c)
      (left : x.advances.toNat + Piped.stepsLeft σ c ≤ Piped.stepsLeft σ x.stage)
      (nothing : x.wrote = [])
  | takes {n : Nat} (some : 0 < n) (within : n ≤ rest.length)
      (outcome : x.outcome = .done (.ok (.count n))) (front : x.wrote = rest.take n)
  | fails (outcome : x.outcome = .done (.error .pipeClosed)) (nothing : x.wrote = [])
      (spoilt : spoilt x.after)

/-- The bytes of a step of the writer stand behind those that were queued. -/
def Step.Queues (x : Step σ κ) : Prop :=
  (Piped.pipe x.after).ring.contents = (Piped.pipe x.before).ring.contents ++ x.wrote

section OneWrite

variable {x : Step σ κ} {spoilt : σ → Prop} {rest : Bytes}

omit [Piped σ κ] in
theorem answer?_eq_none {c : κ} (next : x.outcome.next? = some c) : x.answer? = none := by
  unfold Step.answer?
  split
  · next done =>
    rw [done] at next
    cases next
  · rfl

omit [Piped σ κ] in
theorem answer?_eq_some {r : Result} (on : x.on = .writer) (done : x.outcome = .done r) :
    x.answer? = some r ∧ x.advances = true := by
  simp only [Step.answer?, Step.advances, on, done, and_self]

theorem wrote_eq_nil (h : ∀ n, x.outcome ≠ .done (.ok (.count n))) : x.wrote = [] := by
  unfold Step.wrote
  split
  · next n _ _ done => exact absurd done (h n)
  · rfl

theorem wrote_eq_take {n : Nat} (on : x.on = .writer)
    (inside : Piped.inPipe? (σ := σ) x.stage = some (.write rest))
    (done : x.outcome = .done (.ok (.count n))) : x.wrote = rest.take n := by
  simp only [Step.wrote, on, inside, done]

/-- The write sleeps, as it is or at another stage. -/
theorem oneWrite_of_asleep {c : κ} (on : x.on = .writer) (asleep : x.outcome = .asleep c)
    (left : Piped.stepsLeft σ c ≤ Piped.stepsLeft σ x.stage) : OneWrite spoilt rest x := by
  refine .onward (c := c) (by rw [asleep]; rfl) ?_ (wrote_eq_nil (by simp [asleep]))
  rw [show x.advances = false by simp [Step.advances, on, asleep], Bool.toNat_false, Nat.zero_add]
  exact left

/-- The write goes on at once, at a later stage. -/
theorem oneWrite_of_more {c : κ} (on : x.on = .writer) (more : x.outcome = .more c)
    (left : Piped.stepsLeft σ c < Piped.stepsLeft σ x.stage) : OneWrite spoilt rest x := by
  refine .onward (c := c) (by rw [more]; rfl) ?_ (wrote_eq_nil (by simp [more]))
  rw [show x.advances = true by simp [Step.advances, on, more], Bool.toNat_true, Nat.add_comm]
  exact left

/-- A step in the pipe is one of a write when it sleeps where the pipe sleeps and answers what the
pipe answers. A refusal by the pipe is passed on, or first leads to another stage. -/
theorem oneWrite_of_pour {p p' : Pipe} {turn : Turn (Except Failure Nat)} (on : x.on = .writer)
    (inside : Piped.inPipe? (σ := σ) x.stage = some (.write rest)) (some : rest ≠ [])
    (before : Piped.pipe x.before = p) (after : Piped.pipe x.after = p')
    (pour : Pipe.Pour rest p p' turn)
    (sleeps : turn = .sleeps → ∃ c, x.outcome = .asleep c ∧
      Piped.stepsLeft σ c ≤ Piped.stepsLeft σ x.stage)
    (returns : ∀ n, turn = .returns (.ok n) → x.outcome = .done (.ok (.count n)))
    (refused : p'.isBroken = true → turn = .returns (.error .pipeClosed) →
      (∃ c, x.outcome = .more c ∧ Piped.stepsLeft σ c < Piped.stepsLeft σ x.stage) ∨
        (x.outcome = .done (.error .pipeClosed) ∧ spoilt x.after)) :
    OneWrite spoilt rest x ∧ x.Queues := by
  have still (same : p.Same p') (nothing : x.wrote = []) : x.Queues := by
    rw [Step.Queues, before, after, nothing, List.append_nil, same.ring]
  cases pour with
  | nothing empty => exact absurd empty some
  | refused same broken =>
    have shut : p'.isBroken = true := by
      rw [Pipe.isBroken, same.writerClosed, same.readerClosed]
      exact broken
    rcases refused shut rfl with ⟨c, more, left⟩ | ⟨failed, bad⟩
    · exact ⟨oneWrite_of_more on more left, still same (wrote_eq_nil (by simp [more]))⟩
    · have nothing : x.wrote = [] := wrote_eq_nil (by simp [failed])
      exact ⟨.fails failed nothing bad, still same nothing⟩
  | waits same full whole =>
    obtain ⟨c, asleep, left⟩ := sleeps rfl
    exact ⟨oneWrite_of_asleep on asleep left, still same (wrote_eq_nil (by simp [asleep]))⟩
  | @takes _ n writer reader valid more writer' reader' pos within =>
    have done := returns n rfl
    have front := wrote_eq_take on inside done
    exact ⟨.takes pos within done front, by rw [Step.Queues, before, after, front, more]⟩

end OneWrite

/-- How a stream deals with a writer that makes one write after the other, in every session of which
`sound` holds: a write can always begin, each step of it is `OneWrite`, and a writer that sleeps is
held up by its pipe. A stream that is spoilt stays so. -/
structure Serves (sound : Session σ κ → Prop) (spoilt : σ → Prop) : Prop where
  begins : ∀ data, ∃ c, TwoEnded.mayBegin (σ := σ) .writer c = true ∧
    Piped.entry? (σ := σ) c = some (.write data)
  kept : ∀ {s : Session σ κ} {ev : Event σ κ}, sound s → s.Can ev → sound (s.after ev)
  stays : ∀ {s : Session σ κ} {ev : Event σ κ}, sound s → s.Can ev → spoilt s.state →
    spoilt (s.after ev).state
  writes : ∀ {s : Session σ κ} {begun stage : κ} {rest : Bytes}, sound s →
    s.calls .writer = some ⟨begun, stage⟩ → Piped.entry? (σ := σ) begun = some (.write rest) →
    rest ≠ [] → OneWrite spoilt rest ⟨.writer, begun, stage, s.state⟩ ∧
      Step.Queues ⟨.writer, begun, stage, s.state⟩
  heldUp : ∀ {s : Session σ κ}, sound s → TwoEnded.isAsleep .writer s.state = true →
    (Piped.pipe s.state).holdsUp .writer = true

/-! ## The bare pipe -/

/-- A pipe in order, with calls that start over until they are over. -/
def SoundPipe (s : Session Pipe PipeCall) : Prop :=
  (∃ capacity h, Carries capacity (steps h) s) ∧
    ∀ e o, s.calls e = some o → o.begun = o.stage

theorem serves_pipe : Serves SoundPipe fun p : Pipe => p.isBroken = true where
  begins data := ⟨.write data, rfl, rfl⟩
  kept := by
    rintro s ev ⟨⟨capacity, h, carries⟩, same⟩ can
    refine ⟨⟨capacity, _, carries.after can⟩, ?_⟩
    intro e o now
    cases can with
    | begins idle may =>
      rcases eq_of_calls_began now with ⟨-, rfl⟩ | ⟨-, before⟩
      · rfl
      · exact same e o before
    | steps was awake =>
      rcases eq_of_calls_stepped now with ⟨rfl, c, onward, rfl⟩ | ⟨-, before⟩
      · -- A call that fell asleep starts over.
        rw [Pipe.eq_of_next? onward]
        exact same _ _ was
      · exact same e o before
    | rouses => exact same e o now
  stays := by
    rintro s ev ⟨⟨capacity, h, carries⟩, -⟩ can broken
    cases can with
    | begins | rouses => exact broken
    | @steps e begun stage was awake =>
      exact (Pipe.conserves_step carries.valid e.caller stage).isBroken broken
  writes := by
    rintro s begun stage rest ⟨⟨capacity, h, carries⟩, same⟩ now entry some
    obtain rfl : begun = stage := same _ _ now
    obtain rfl : begun = .write rest := Option.some.inj entry
    have pour := Pipe.pour_write carries.valid PipeEnd.writer.caller rest
    refine oneWrite_of_pour rfl rfl some rfl rfl pour ?_ ?_ ?_
    · intro sleeps
      exact ⟨.write rest, congrArg (Pipe.progress (.write rest) .count) sleeps, Nat.le_refl _⟩
    · intro n returns
      exact congrArg (Pipe.progress (.write rest) .count) returns
    · intro broken refused
      exact .inr ⟨congrArg (Pipe.progress (.write rest) .count) refused, broken⟩
  heldUp := by
    rintro s ⟨⟨capacity, h, carries⟩, -⟩ asleep
    exact carries.justified.holdsUp asleep

/-! ## The message -/

/-- A message in order. -/
def SoundMessage (s : Session Message MessageCall) : Prop := ∃ h, Minded (steps h) s

/-- A write in the pipe sleeps, or takes bytes, or raises the flag. -/
theorem stepPipe_write (who : Nat) (data : Bytes) (m : Message) :
    m.stepPipe who .cancelsOnFailure (.write data) =
      ({ m with pipe := (m.pipe.write who data).1 },
        match (m.pipe.write who data).2 with
        | .sleeps => .asleep (.inPipe .cancelsOnFailure (.write data))
        | .returns (.ok n) => .done (.ok (.count n))
        | .returns (.error why) => .more (.raiseFlag (.error why))) := by
  simp only [Message.stepPipe, Pipe.step, Prod.map, id]
  rcases (m.pipe.write who data).2 with _ | _ | _ <;> rfl

theorem serves_message : Serves SoundMessage fun m : Message => m.cancelled = true where
  begins data := ⟨.start (.write data), rfl, rfl⟩
  kept := by
    rintro s ev ⟨h, minded⟩ can
    exact ⟨_, minded.after can⟩
  stays := by
    rintro s ev - can cancelled
    cases can with
    | begins | rouses => exact cancelled
    | steps was awake =>
      refine (Message.cancelled_step _ _ _).trans ?_
      rw [show s.state.cancelled = true from cancelled, Bool.true_or]
  writes := by
    rintro s begun stage rest ⟨h, minded⟩ now entry bytes
    obtain rfl : begun = .start (.write rest) := by
      cases begun with
      | start c => exact congrArg _ (Option.some.inj entry)
      | _ => cases entry
    have refusable : (PipeCall.write rest).isRefusable = true := by
      simpa [PipeCall.isRefusable] using bytes
    -- The write is in the pipe, or the pipe has refused it: then the flag comes next, and the write
    -- end after it.
    obtain ⟨-, inPipe | rfl | rfl⟩ := (minded.stages _ _ now).of_isRefusable refusable
    · have same : s.state.step 0 stage = s.state.stepPipe 0 .cancelsOnFailure (.write rest) := by
        rcases inPipe with rfl | rfl <;> rfl
      have pour := Pipe.pour_write minded.valid 0 rest
      have inside : Piped.inPipe? (σ := Message) stage = some (.write rest) := by
        rcases inPipe with rfl | rfl <;> rfl
      have left : Piped.stepsLeft Message stage = 3 := by
        rcases inPipe with rfl | rfl <;> rfl
      rw [stepPipe_write] at same
      have outcome := congrArg Prod.snd same
      refine oneWrite_of_pour rfl inside bytes rfl (congrArg (Message.pipe ∘ Prod.fst) same) pour
        ?_ ?_ ?_
      · intro sleeps
        rw [sleeps] at outcome
        exact ⟨_, outcome, left ▸ Nat.le_refl 3⟩
      · intro n returns
        rw [returns] at outcome
        exact outcome
      · intro broken refused
        rw [refused] at outcome
        exact .inl ⟨_, outcome, left ▸ Nat.lt_succ_self 2⟩
    · exact ⟨oneWrite_of_more rfl rfl (Nat.lt_succ_self 1), (List.append_nil _).symm⟩
    · refine ⟨.fails rfl rfl (minded.flagged ⟨_, _, now⟩), ?_⟩
      -- Closing the write end leaves the queue as it is.
      show s.state.pipe.closeWriter.ring.contents = s.state.pipe.ring.contents ++ []
      rw [List.append_nil, Pipe.closeWriter]
      split <;> rfl
  heldUp := by
    rintro s ⟨h, minded⟩ asleep
    exact minded.justified.holdsUp asleep

/-! ## One write after the other -/

section Readings

omit [Piped σ κ] in
theorem answers_concat (h : List (Event σ κ)) (ev : Event σ κ) :
    answers (h ++ [ev]) = answers h ++ (ev.step?.bind Step.answer?).toList := by
  cases ev with
  | stepped x =>
    cases answer : x.answer? <;> simp [answers, steps, Event.step?, answer]
  | _ => simp [answers, steps, Event.step?]

theorem sent_concat (h : List (Event σ κ)) (ev : Event σ κ) :
    sent (h ++ [ev]) = sent h ++ ev.step?.elim [] Step.wrote := by
  cases ev <;> simp [sent, steps, Event.step?]

omit [Piped σ κ] in
theorem advanced_concat (h : List (Event σ κ)) (ev : Event σ κ) :
    advanced (h ++ [ev]) = advanced h + (ev.step?.any Step.advances).toNat := by
  cases ev with
  | stepped x => cases stride : x.advances <;> simp [advanced, steps, Event.step?, stride]
  | _ => simp [advanced, steps, Event.step?]

omit [TwoEnded σ κ] [Piped σ κ] in
theorem begun_concat (h : List (Event σ κ)) (ev : Event σ κ) :
    begun (h ++ [ev]) = begun h + ev.beginsWriting.toNat := by
  cases writes : ev.beginsWriting <;> simp [begun, writes]

end Readings

/-- How far a transfer of `data` has come that is `t` now, has got `sent` into the stream, began
`begun` writes and made `advanced` steps with them. -/
inductive Phase (spoilt : σ → Prop) (data : Bytes) (t : Transfer) (sent : Bytes)
    (begun advanced : Nat) (s : Session σ κ) : Prop where
  /-- No write is under way, and `rest` is left. -/
  | between {rest : Bytes} (left : t = .writeAll rest) (split : sent ++ rest = data)
      (idle : s.calls .writer = none) (few : begun ≤ sent.length) (brief : advanced ≤ 3 * begun)
  /-- A write of `rest` is under way. -/
  | writing {rest : Bytes} {o : Ongoing κ} (left : t = .writeAll rest)
      (split : sent ++ rest = data) (bytes : rest ≠ []) (now : s.calls .writer = some o)
      (entry : Piped.entry? (σ := σ) o.begun = some (.write rest))
      (few : begun ≤ sent.length + 1)
      (brief : advanced + Piped.stepsLeft σ o.stage ≤ 3 * begun)
  /-- A write of `rest` has failed. -/
  | failed {rest : Bytes} (ended : t = .finished (.ioFailed (.ofFailure .pipeClosed)))
      (split : sent ++ rest = data) (bytes : rest ≠ []) (idle : s.calls .writer = none)
      (spoilt : spoilt s.state) (few : begun ≤ sent.length + 1) (brief : advanced ≤ 3 * begun)

/-- What a step of a write comes to: its bytes are queued, and an answer tells how many there are,
at least one, or that the pipe is closed. -/
structure Step.Fair (x : Step σ κ) : Prop where
  queues : x.Queues
  answers : ∀ r, x.outcome = .done r →
    (∃ n, 0 < n ∧ r = .ok (.count n) ∧ x.wrote.length = n) ∨
      (r = .error .pipeClosed ∧ x.wrote = [])

/-- What holds while a transfer of `data` makes its calls. -/
structure Sending (spoilt : σ → Prop) (data : Bytes) (h : List (Event σ κ)) (s : Session σ κ) :
    Prop where
  phase : Phase spoilt data ((Transfer.writeAll data).after (answers h)) (sent h) (begun h)
    (advanced h) s
  fair : ∀ x ∈ steps h, x.on = .writer → x.Fair ∧ data ≠ []

section Sending

variable {sound : Session σ κ → Prop} {spoilt : σ → Prop} {data : Bytes}
  {h : List (Event σ κ)} {s : Session σ κ}

theorem OneWrite.fair {rest : Bytes} {x : Step σ κ} (one : OneWrite spoilt rest x)
    (queues : x.Queues) : x.Fair := by
  refine ⟨queues, fun r done => ?_⟩
  cases one with
  | onward next =>
    rw [done] at next
    cases next
  | takes some within outcome front =>
    cases outcome.symm.trans done
    exact .inl ⟨_, some, rfl, front ▸ List.length_take_of_le within⟩
  | fails outcome nothing =>
    cases outcome.symm.trans done
    exact .inr ⟨rfl, nothing⟩

/-- The transfer is where it was when nothing happens at the writing end. -/
theorem Phase.aside {t : Transfer} {sent : Bytes} {begun advanced : Nat} {s' : Session σ κ}
    (phase : Phase spoilt data t sent begun advanced s)
    (calls : s'.calls .writer = s.calls .writer) (stays : spoilt s.state → spoilt s'.state) :
    Phase spoilt data t sent begun advanced s' := by
  cases phase with
  | between left split idle few brief => exact .between left split (calls.trans idle) few brief
  | writing left split bytes now entry few brief =>
    exact .writing left split bytes (calls.trans now) entry few brief
  | failed ended split bytes idle bad few brief =>
    exact .failed ended split bytes (calls.trans idle) (stays bad) few brief

/-- What happens elsewhere is not seen at the writing end. -/
theorem readings_aside {ev : Event σ κ} (other : ∀ x, ev.step? = some x → x.on = .reader)
    (idle : ev.beginsWriting = false) :
    answers (h ++ [ev]) = answers h ∧ sent (h ++ [ev]) = sent h ∧ begun (h ++ [ev]) = begun h ∧
      advanced (h ++ [ev]) = advanced h := by
  rw [answers_concat, sent_concat, begun_concat, advanced_concat, idle]
  cases ev with
  | stepped x =>
    have on : x.on = .reader := other x rfl
    simp [Event.step?, Step.answer?, Step.wrote, Step.advances, on]
  | _ => simp [Event.step?]

theorem Sending.aside (sending : Sending spoilt data h s) {ev : Event σ κ} {s' : Session σ κ}
    (calls : s'.calls .writer = s.calls .writer) (stays : spoilt s.state → spoilt s'.state)
    (other : ∀ x, ev.step? = some x → x.on = .reader) (idle : ev.beginsWriting = false) :
    Sending spoilt data (h ++ [ev]) s' := by
  obtain ⟨answered, wrote, began, strode⟩ := readings_aside (h := h) other idle
  constructor
  · rw [answered, wrote, began, strode]
    exact sending.phase.aside calls stays
  · intro x here on
    rw [steps, List.filterMap_append, List.mem_append] at here
    rcases here with before | now
    · exact sending.fair x before on
    · obtain ⟨ev', is, step⟩ := List.mem_filterMap.1 now
      rw [List.mem_singleton.1 is] at step
      cases (other x step).symm.trans on

/-- The next write begins. -/
theorem Sending.begins (sending : Sending spoilt data h s) {c : κ}
    (idle : s.calls .writer = none) (allowed : follows (.writeAll data) h .writer c = true) :
    Sending spoilt data (h ++ [.began .writer c]) (s.after (.began .writer c)) := by
  refine ⟨?_, fun x here => sending.fair x (steps_began h .writer c ▸ here)⟩
  rw [answers_concat, sent_concat, begun_concat, advanced_concat]
  simp only [Event.step?, Option.bind_none, Option.toList_none, List.append_nil, Option.elim_none,
    Option.any_none, Bool.toNat_false, Nat.add_zero, Event.beginsWriting, Bool.toNat_true]
  cases sending.phase with
  | @between rest left split _ few brief =>
    simp only [follows, left] at allowed
    cases rest with
    | nil => cases allowed
    | cons first more =>
      -- The write that begins makes up for one of the bytes that are left.
      refine .writing left split (List.cons_ne_nil _ _) (calls_began_self c) (eq_of_beq allowed)
        (Nat.succ_le_succ few) ?_
      have few := Piped.few_left (σ := σ) c
      show advanced h + Piped.stepsLeft σ c ≤ 3 * (begun h + 1)
      omega
  | writing left split bytes now => cases idle.symm.trans now
  | failed ended =>
    simp only [follows, ended] at allowed
    cases allowed

/-- A write takes a step. -/
theorem Phase.stepped {rest sent : Bytes} {t : Transfer} {begun advanced : Nat}
    {s' : Session σ κ} {x : Step σ κ} (left : t = .writeAll rest) (split : sent ++ rest = data)
    (bytes : rest ≠ []) (entry : Piped.entry? (σ := σ) x.begun = some (.write rest))
    (few : begun ≤ sent.length + 1)
    (brief : advanced + Piped.stepsLeft σ x.stage ≤ 3 * begun) (one : OneWrite spoilt rest x)
    (on : x.on = .writer) (state : s'.state = x.after)
    (calls : s'.calls .writer = x.outcome.next?.map fun c => ⟨x.begun, c⟩) :
    Phase spoilt data (t.after x.answer?.toList) (sent ++ x.wrote) begun
      (advanced + x.advances.toNat) s' := by
  subst left
  -- The steps that a write had left pay for the one that it takes.
  have some_left := Piped.some_left (σ := σ) x.stage
  cases one with
  | @onward c next less nothing =>
    rw [next] at calls
    rw [answer?_eq_none next, nothing, List.append_nil]
    refine .writing rfl split bytes calls entry few ?_
    show advanced + x.advances.toNat + Piped.stepsLeft σ c ≤ 3 * begun
    omega
  | @takes n some within outcome front =>
    obtain ⟨answer, advances⟩ := answer?_eq_some on outcome
    rw [outcome] at calls
    rw [answer, advances, front]
    have left : (Transfer.writeAll rest).after [.ok (.count n)] = .writeAll (rest.drop n) := by
      -- Nothing written would be taken for a failure.
      cases n with
      | zero => exact absurd some (Nat.lt_irrefl 0)
      | succ n => rfl
    refine .between left ?_ calls ?_ ?_
    · rw [List.append_assoc, List.take_append_drop, split]
    · rw [List.length_append, List.length_take_of_le within]
      omega
    · show advanced + 1 ≤ 3 * begun
      omega
  | fails outcome nothing bad =>
    obtain ⟨answer, advances⟩ := answer?_eq_some on outcome
    rw [outcome] at calls
    rw [answer, advances, nothing, List.append_nil]
    refine .failed rfl split bytes calls (state ▸ bad) few ?_
    show advanced + 1 ≤ 3 * begun
    omega

theorem Sending.stepped (serves : Serves sound spoilt) (ok : sound s)
    (sending : Sending spoilt data h s) {begun stage : κ}
    (now : s.calls .writer = some ⟨begun, stage⟩) :
    Sending spoilt data (h ++ [.stepped ⟨.writer, begun, stage, s.state⟩])
      (s.after (.stepped ⟨.writer, begun, stage, s.state⟩)) := by
  cases sending.phase with
  | between _ _ idle => cases idle.symm.trans now
  | failed _ _ _ idle => cases idle.symm.trans now
  | @writing rest o left split bytes now' entry few brief =>
    cases now.symm.trans now'
    obtain ⟨one, queues⟩ := serves.writes ok now entry bytes
    constructor
    · rw [answers_concat, sent_concat, begun_concat, advanced_concat, Transfer.after_append]
      exact Phase.stepped left split bytes entry few brief one rfl rfl (s.calls_stepped_self _)
    · intro y here writer
      rw [steps_stepped, List.mem_append, List.mem_singleton] at here
      rcases here with before | rfl
      · exact sending.fair y before writer
      · refine ⟨one.fair queues, ?_⟩
        rintro rfl
        exact bytes (List.append_eq_nil_iff.1 split).2

theorem Sending.after (serves : Serves sound spoilt) (ok : sound s)
    (sending : Sending spoilt data h s) {ev : Event σ κ} (can : s.Can ev)
    (allowed : ev.isAllowed (follows (.writeAll data)) h = true) :
    Sending spoilt data (h ++ [ev]) (s.after ev) := by
  have stays := serves.stays ok can
  -- What the reader does, and a wakeup without a notification, leaves the transfer where it is.
  cases can with
  | @begins e c idle may =>
    cases e with
    | writer => exact sending.begins idle allowed
    | reader =>
      refine sending.aside (calls_began_of_ne PipeEnd.noConfusion c) stays ?_ rfl
      rintro x ⟨⟩
  | @steps e begun stage now awake =>
    cases e with
    | writer => exact sending.stepped serves ok now
    | reader =>
      refine sending.aside (calls_stepped_of_ne PipeEnd.noConfusion) stays ?_ rfl
      rintro x ⟨⟩
      rfl
  | rouses asleep =>
    refine sending.aside rfl stays ?_ rfl
    rintro x ⟨⟩

/-- What `sound` holds of at the start it holds of after every schedule. -/
theorem Serves.sound_run (serves : Serves sound spoilt) (ok : sound s)
    (schedule : List (Move κ)) : sound (s.run schedule) :=
  run_induction (P := fun _ s => sound s) ok (fun ok can => serves.kept ok can) schedule

/-- Whatever the reader does, a transfer that starts at an idle writing end makes its calls. -/
theorem Serves.sending_run (serves : Serves sound spoilt) (ok : sound s)
    (idle : s.calls .writer = none) (schedule : List (Move κ))
    (own : keeps (follows (.writeAll data)) [] (s.history schedule) = true) :
    sound (s.run schedule) ∧ Sending spoilt data (s.history schedule) (s.run schedule) := by
  -- By induction on the schedule: what happens is allowed by what happened before it.
  refine (run_induction (P := fun h s => sound s ∧
    (keeps (follows (.writeAll data)) [] h = true → Sending spoilt data h s)) ⟨ok, fun _ => ?_⟩
    ?_ schedule).imp_right fun sending => sending own
  · refine ⟨.between rfl rfl idle (Nat.le_refl 0) (Nat.zero_le _), ?_⟩
    rintro x ⟨⟩
  · rintro h s ev ⟨ok, sending⟩ can
    refine ⟨serves.kept ok can, fun own => ?_⟩
    rw [keeps_concat, Bool.and_eq_true] at own
    exact (sending own.1).after serves ok can own.2

end Sending

/-! ## What the caller gets -/

/-- What a transfer of `data` comes to, of which the history `h` tells up to the session `s`. -/
structure WritesAll (spoilt : σ → Prop) (data : Bytes) (h : List (Event σ κ)) (s : Session σ κ) :
    Prop where
  /-- Each write that succeeds takes at least one byte. -/
  fair : ∀ x ∈ steps h, x.on = .writer → x.Fair
  /-- There are no more writes than bytes. -/
  few : begun h ≤ data.length
  /-- A write takes three steps at most, those apart that end in sleep. -/
  brief : advanced h ≤ 3 * begun h
  front : sent h <+: data
  /-- No write is made again because it failed. -/
  once : ∀ why, .error why ∈ answers h → ∀ t : Transfer, t.retries (.ofFailure why) = false
  /-- The transfer succeeds just when everything is written. -/
  whole : ((Transfer.writeAll data).after (answers h)).next = .inr (.reply .unit) ↔ sent h = data
  /-- It fails on a closed pipe only, which the failure tells, with some bytes left. -/
  fails : ∀ a, ((Transfer.writeAll data).after (answers h)).next = .inr a → a = .reply .unit ∨
    ∃ e, a = .ioFailed e ∧ e.kind = .brokenPipe ∧ e.channel? = some .pipeClosed ∧
      sent h ≠ data ∧ spoilt s.state
  notZero : ((Transfer.writeAll data).after (answers h)).next ≠ .inr (.ioFailed .nothingWritten)
  /-- Until then a write can begin or take a step, or it sleeps on a full pipe with open ends. -/
  goesOn : ∀ d, ((Transfer.writeAll data).after (answers h)).next = .inl d →
    (∃ c, Piped.entry? (σ := σ) c = some d ∧ s.Can (.began .writer c)) ∨
      (∃ x, x.on = .writer ∧ s.Can (.stepped x)) ∨
      (TwoEnded.isAsleep .writer s.state = true ∧ (Piped.pipe s.state).holdsUp .writer = true)
  /-- Nothing is done to write nothing. -/
  nothing : data = [] →
    ((Transfer.writeAll data).after (answers h)).next = .inr (.reply .unit) ∧ begun h = 0 ∧
      ∀ x ∈ steps h, x.on = .reader

section WritesAll

variable {sound : Session σ κ → Prop} {spoilt : σ → Prop} {data : Bytes}
  {h : List (Event σ κ)} {s : Session σ κ}

/-- Where a transfer stands: it is over and everything is written, or some bytes are left, and it
goes on or has failed. -/
theorem Phase.standing {t : Transfer} {sent : Bytes} {begun advanced : Nat}
    (serves : Serves sound spoilt) (ok : sound s)
    (phase : Phase spoilt data t sent begun advanced s) :
    (t.next = .inr (.reply .unit) ∧ sent = data) ∨
      (sent ≠ data ∧ ∃ rest, t.next = .inl (.write rest) ∧
        ((∃ c, Piped.entry? (σ := σ) c = some (.write rest) ∧ s.Can (.began .writer c)) ∨
          (∃ x, x.on = .writer ∧ s.Can (.stepped x)) ∨
          (TwoEnded.isAsleep .writer s.state = true ∧
            (Piped.pipe s.state).holdsUp .writer = true))) ∨
      (sent ≠ data ∧ t.next = .inr (.ioFailed (.ofFailure .pipeClosed)) ∧ spoilt s.state) := by
  have some_left {rest : Bytes} (split : sent ++ rest = data) (bytes : rest ≠ []) :
      sent ≠ data := by
    intro all
    subst all
    exact bytes (List.append_right_eq_self.1 split)
  cases phase with
  | @between rest left split idle =>
    subst left
    cases rest with
    | nil => exact .inl ⟨rfl, (List.append_nil sent).symm.trans split⟩
    | cons first rest =>
      obtain ⟨c, may, entry⟩ := serves.begins (first :: rest)
      exact .inr (.inl ⟨some_left split (List.cons_ne_nil _ _), _, rfl,
        .inl ⟨c, entry, .begins idle may⟩⟩)
  | @writing rest o left split bytes now =>
    subst left
    refine .inr (.inl ⟨some_left split bytes, rest, ?_, .inr ?_⟩)
    · cases rest with
      | nil => exact absurd rfl bytes
      | cons => rfl
    · cases asleep : TwoEnded.isAsleep .writer s.state with
      | false => exact .inl ⟨_, rfl, .steps now asleep⟩
      | true => exact .inr ⟨rfl, serves.heldUp ok asleep⟩
  | failed ended split bytes idle bad =>
    subst ended
    exact .inr (.inr ⟨some_left split bytes, rfl, bad⟩)

theorem Phase.counts {t : Transfer} {sent : Bytes} {begun advanced : Nat}
    (phase : Phase spoilt data t sent begun advanced s) :
    begun ≤ data.length ∧ advanced ≤ 3 * begun ∧ sent <+: data := by
  -- While some bytes are left, one of them makes up for the write that is not over or has failed.
  cases phase with
  | between left split idle few brief =>
    subst split
    rw [List.length_append]
    exact ⟨by omega, brief, List.prefix_append _ _⟩
  | writing left split bytes now entry few brief =>
    have some := List.length_pos_iff.2 bytes
    subst split
    rw [List.length_append]
    exact ⟨by omega, by omega, List.prefix_append _ _⟩
  | failed ended split bytes idle bad few brief =>
    have some := List.length_pos_iff.2 bytes
    subst split
    rw [List.length_append]
    exact ⟨by omega, brief, List.prefix_append _ _⟩

/-- A failure of a write is that the pipe is closed. -/
theorem Sending.eq_pipeClosed (sending : Sending spoilt data h s) {why : Failure}
    (failed : .error why ∈ answers h) : why = .pipeClosed := by
  obtain ⟨x, here, answer⟩ := List.mem_filterMap.1 failed
  unfold Step.answer? at answer
  split at answer
  · next r on outcome =>
    cases answer
    rcases (sending.fair x here on).1.answers _ outcome with ⟨n, -, ok, -⟩ | ⟨same, -⟩
    · cases ok
    · cases same
      rfl
  · cases answer

theorem Sending.writesAll (serves : Serves sound spoilt) (ok : sound s)
    (sending : Sending spoilt data h s) : WritesAll spoilt data h s := by
  obtain ⟨few, brief, front⟩ := sending.phase.counts
  -- Each of the facts below is read off one of the three ways in which the transfer can stand.
  have standing := sending.phase.standing serves ok
  refine ⟨fun x here on => (sending.fair x here on).1, few, brief, front, ?_, ?_, ?_, ?_, ?_, ?_⟩
  · rintro why failed t
    rw [sending.eq_pipeClosed failed]
    cases t <;> rfl
  · rcases standing with ⟨ended, all⟩ | ⟨left, rest, next, -⟩ | ⟨left, ended, -⟩
    · exact iff_of_true ended all
    · exact iff_of_false (by simp [next]) left
    · exact iff_of_false (by simp [ended]) left
  · intro a now
    rcases standing with ⟨ended, -⟩ | ⟨-, rest, next, -⟩ | ⟨left, ended, bad⟩
    · cases ended.symm.trans now
      exact .inl rfl
    · cases next.symm.trans now
    · cases ended.symm.trans now
      exact .inr ⟨_, rfl, rfl, rfl, left, bad⟩
  · intro zero
    rcases standing with ⟨ended, -⟩ | ⟨-, rest, next, -⟩ | ⟨-, ended, -⟩
    · cases ended.symm.trans zero
    · cases next.symm.trans zero
    · cases ended.symm.trans zero
  · intro d now
    rcases standing with ⟨ended, -⟩ | ⟨-, rest, next, possible⟩ | ⟨-, ended, -⟩
    · cases ended.symm.trans now
    · cases next.symm.trans now
      exact possible
    · cases ended.symm.trans now
  · rintro rfl
    have idle : ∀ x ∈ steps h, x.on = .reader := by
      intro x here
      cases on : x.on with
      | reader => rfl
      | writer => exact absurd rfl (sending.fair x here on).2
    rcases standing with ⟨ended, -⟩ | ⟨left, -⟩ | ⟨left, -⟩
    · exact ⟨ended, Nat.le_zero.1 few, idle⟩
    · exact absurd (List.prefix_nil.1 front) left
    · exact absurd (List.prefix_nil.1 front) left

end WritesAll

theorem soundPipe_create (capacity : Nat) : SoundPipe (create (Pipe.create capacity)) :=
  ⟨⟨capacity, [], carries_create capacity⟩,
    fun _ _ now => absurd now.symm (Option.some_ne_none _)⟩

theorem soundMessage_create (bufferSize : Nat) :
    SoundMessage (create (Message.create bufferSize)) :=
  ⟨[], minded_create bufferSize⟩

/-- On a pipe and on a message that were used in any way before, with a buffer of any size, for any
bytes and whatever the reader does meanwhile: who writes all of some bytes gets every byte into the
pipe, in order, with no more writes than bytes, or is told that the pipe is closed, with some bytes
left. Then an end of the pipe is closed, and a message is cancelled. A write never takes nothing and
is never made again, and to write nothing the pipe is not asked. -/
theorem writeAll_whole_or_closed (capacity : Nat) (data : Bytes) :
    (∀ before schedule : List (Move PipeCall),
      let s := (create (Pipe.create capacity)).run before
      s.calls .writer = none →
      keeps (follows (.writeAll data)) [] (s.history schedule) = true →
      WritesAll (fun p : Pipe => p.isBroken = true) data (s.history schedule) (s.run schedule)) ∧
    ∀ before schedule : List (Move MessageCall),
      let s := (create (Message.create capacity)).run before
      s.calls .writer = none →
      keeps (follows (.writeAll data)) [] (s.history schedule) = true →
      WritesAll (fun m : Message => m.cancelled = true) data (s.history schedule)
        (s.run schedule) := by
  constructor
  · intro before schedule s idle own
    have ok : SoundPipe s := serves_pipe.sound_run (soundPipe_create capacity) before
    obtain ⟨ok, sending⟩ := serves_pipe.sending_run ok idle schedule own
    exact sending.writesAll serves_pipe ok
  · intro before schedule s idle own
    have ok : SoundMessage s := serves_message.sound_run (soundMessage_create capacity) before
    obtain ⟨ok, sending⟩ := serves_message.sending_run ok idle schedule own
    exact sending.writesAll serves_message ok

/-- Three bytes go through a pipe of two. The reader sleeps when the first two come, and takes them
while the writer sleeps. -/
def sending : List (Move PipeCall) :=
  [.begin .writer (.write [1, 2, 3]), .step .writer, .begin .writer (.write [3]), .step .writer,
    .step .reader, .step .writer]

/-- The reader of a message goes away while the writer sleeps. -/
def deserting : List (Move MessageCall) :=
  [.begin .writer (.start (.write [1, 2, 3])), .step .writer,
    .begin .writer (.start (.write [3])), .step .writer, .begin .reader (.letGo .reader),
    .step .reader, .step .writer, .step .writer, .step .writer]

theorem writesAll_sending_deserting :
    ∃ (p : Session Pipe PipeCall) (m : Session Message MessageCall),
      p = (create (Pipe.create 2)).run [.begin .reader (.read 2), .step .reader] ∧
      m = create (Message.create 2) ∧
      WritesAll (fun p : Pipe => p.isBroken = true) [1, 2, 3] (p.history sending)
        (p.run sending) ∧
      sent (p.history sending) = [1, 2, 3] ∧
      WritesAll (fun m : Message => m.cancelled = true) [1, 2, 3] (m.history deserting)
        (m.run deserting) ∧
      sent (m.history deserting) = [1, 2] ∧ (m.run deserting).state.cancelled = true := by
  obtain ⟨onPipe, onMessage⟩ := writeAll_whole_or_closed 2 [1, 2, 3]
  exact ⟨_, _, rfl, rfl, onPipe [.begin .reader (.read 2), .step .reader] sending rfl rfl, rfl,
    onMessage [] deserting rfl rfl, rfl, rfl⟩

end Session

end Loopback
