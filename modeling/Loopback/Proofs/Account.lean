import Loopback.Proofs.Schedule
import Loopback.Proofs.Turns

/-!
# The account of a message

The account of a message follows its bytes along a history: taken in, drawn out of the pipe, in the
hand of a reader that looks at the flag once more, and read. `Account.Matches` ties the account to
the message, and `Account.Stage` to the call that uses the read end. Every step of a call on the
message keeps both (`Message.served_step`).
-/

namespace Loopback

/-- What became of the bytes of one message so far. -/
structure Account where
  /-- What the writes were answered to have taken. -/
  written : Bytes
  /-- The writer closed the message, or let go of it. -/
  ended : Bool
  cancelled : Bool
  /-- What reads and skips took out of the pipe. -/
  drawn : Bytes
  /-- How much the reader that is not answered yet asked for, and what it took. -/
  inHand : Option (Nat × Bytes)
  /-- What reads and skips were answered to have taken. -/
  consumed : Bytes

namespace Account

/-- Nothing happened. -/
def empty : Account := ⟨[], false, false, [], none, []⟩

/-- The bytes that the answer `r` says were read or skipped. -/
def confirmed (a : Account) (r : Result) : Bytes :=
  match r, a.inHand with
  | .ok (.bytes data), _ => data
  | .ok (.count n), some (_, data) => data.take n
  | _, _ => []

/-- The account after one more event. -/
def after (a : Account) : StreamEvent → Account
  | .wrote data => { a with written := a.written ++ data }
  | .ended => { a with ended := true }
  | .cancelled => { a with cancelled := true }
  | .drew asked data => { a with drawn := a.drawn ++ data, inHand := some (asked, data) }
  | .answered r => { a with inHand := none, consumed := a.consumed ++ a.confirmed r }

/-- The account after some events, oldest first. -/
def afterAll (a : Account) (es : List StreamEvent) : Account := es.foldl after a

/-- The account of message `k`, read off a history. -/
def ofHistory {ρ η : Type} (k : Nat) (h : List (Event ρ η)) : Account :=
  empty.afterAll (h.filterMap (Event.stream? k))

theorem ofHistory_append {ρ η : Type} (k : Nat) (h h' : List (Event ρ η)) :
    ofHistory k (h ++ h') = (ofHistory k h).afterAll (h'.filterMap (Event.stream? k)) := by
  rw [ofHistory, List.filterMap_append, afterAll, List.foldl_append]
  rfl

/-- The bytes in the hand of the reader. -/
def hand (a : Account) : Bytes := (a.inHand.map Prod.snd).getD []

/-- The account agrees with the message. -/
structure Matches (a : Account) (m : Message) : Prop where
  valid : m.pipe.ring.Valid
  flag : a.cancelled = m.cancelled
  /-- Only an ending or a cancellation closes the write end. -/
  stopped : m.pipe.writerClosed = true → a.ended = true ∨ a.cancelled = true
  /-- While the reader is there, every byte taken in was drawn or is in the ring. -/
  flow : m.pipe.readerClosed = false → a.drawn ++ m.pipe.ring.contents = a.written
  drawn_le : a.drawn <+: a.written
  consumed_le : a.consumed <+: a.written
  /-- Without a cancellation nothing that was drawn is lost. -/
  kept : a.cancelled = false → a.drawn = a.consumed ++ a.hand
  /-- Who asked for bytes and drew none found the write end closed and the pipe drained. -/
  drained : ∀ asked, a.inHand = some (asked, []) → 0 < asked →
    m.pipe.writerClosed = true ∧ a.drawn = a.written

/-- What the account says of a call on the message: a reader has something in hand just when it is
about to look at the flag again, and who hangs up has raised the flag. -/
def Stage (a : Account) : MessageCall → Prop
  | .settle (.ok (.bytes data)) => ∃ asked, a.inHand = some (asked, data)
  | .settle (.ok (.count n)) => ∃ asked data, a.inHand = some (asked, data) ∧ n = data.length
  | .settle (.ok _) => False
  | .settle (.error _) => a.inHand = none
  | .hangUp _ => a.cancelled = true
  | c => c.madeOn? = some .reader → a.inHand = none

theorem matches_create (n : Nat) : empty.Matches (Message.create n) where
  valid := Ring.valid_create n
  flag := rfl
  stopped shut := Bool.noConfusion shut
  flow _ := by
    rw [show (Message.create n).pipe.ring = Ring.create n from rfl]
    rw [Ring.contents_eq (Ring.valid_create n)]
    rfl
  drawn_le := List.prefix_refl _
  consumed_le := List.prefix_refl _
  kept _ := rfl
  drained _ h := by simp [empty] at h

section Matches

variable {a : Account} {m : Message} {p' : Pipe}

/-- Nothing that the account speaks of changes with who waits on the pipe. -/
theorem Matches.of_same (h : a.Matches m) (same : m.pipe.Same p') :
    a.Matches { m with pipe := p' } where
  valid := same.ring ▸ h.valid
  flag := h.flag
  stopped shut := h.stopped (same.writerClosed ▸ shut)
  flow opened := by
    rw [show ({ m with pipe := p' } : Message).pipe.ring = m.pipe.ring from same.ring]
    exact h.flow (same.readerClosed ▸ opened)
  drawn_le := h.drawn_le
  consumed_le := h.consumed_le
  kept := h.kept
  drained asked hand pos := by
    obtain ⟨shut, all⟩ := h.drained asked hand pos
    exact ⟨same.writerClosed.trans shut, all⟩

/-- A write puts the bytes it is answered to have taken into the pipe. -/
theorem Matches.wrote (h : a.Matches m) {data : Bytes} {n : Nat}
    (pour : m.pipe.Pour data p' (.returns (.ok n))) :
    (a.after (.wrote (data.take n))).Matches { m with pipe := p' } := by
  cases pour with
  | nothing empty =>
    have same : a.after (.wrote (data.take 0)) = a := by simp [after]
    rw [same]
    exact h
  | takes writer reader valid more writer' reader' =>
    -- A write that takes something found both ends open, so nobody has drawn the end.
    have flow := h.flow reader
    refine ⟨valid, h.flag, ?_, ?_, ?_, ?_, h.kept, ?_⟩
    · intro shut
      rw [writer'] at shut
      exact Bool.noConfusion shut
    · intro _
      show a.drawn ++ p'.ring.contents = a.written ++ data.take n
      rw [more, ← flow, List.append_assoc]
    · exact h.drawn_le.trans (List.prefix_append _ _)
    · exact h.consumed_le.trans (List.prefix_append _ _)
    · intro asked hand pos
      have shut := (h.drained asked hand pos).1
      rw [writer] at shut
      exact Bool.noConfusion shut

/-- A reader that took `data` holds it, until it has looked at the flag again. -/
theorem Matches.drew (h : a.Matches m) (idle : a.inHand = none) {α : Type} {asked : Nat}
    {reply : Bytes → α} {x : α} (draw : m.pipe.Draw asked reply p' (.returns (.ok x))) :
    ∃ data, x = reply data ∧ data <+: m.pipe.ring.contents ∧
      (a.after (.drew asked data)).Matches { m with pipe := p' } := by
  have kept : ∀ data, (a.after (.drew asked data)).cancelled = false →
      (a.after (.drew asked data)).drawn =
        (a.after (.drew asked data)).consumed ++ (a.after (.drew asked data)).hand := by
    intro data clear
    have before := h.kept clear
    rw [hand, idle] at before
    show a.drawn ++ data = a.consumed ++ data
    rw [before]
    simp
  have same : (a.after (.drew asked [])).drawn = a.drawn := List.append_nil _
  cases draw with
  | nothing none =>
    refine ⟨[], rfl, List.nil_prefix, h.valid, h.flag, h.stopped, ?_, ?_, h.consumed_le, kept [],
      ?_⟩
    · rw [same]
      exact h.flow
    · rw [same]
      exact h.drawn_le
    -- Who asks for no byte learns nothing about the end.
    · intro n hand pos
      obtain ⟨rfl, -⟩ := Prod.mk.inj (Option.some.inj hand)
      omega
  | front reader some valid rest writer' reader' =>
    have flow := h.flow reader
    have all : (a.drawn ++ m.pipe.ring.contents.take asked) ++ p'.ring.contents = a.written := by
      rw [rest, List.append_assoc, List.take_append_drop, flow]
    refine ⟨_, rfl, List.take_prefix _ _, valid, h.flag, ?_, fun _ => all, ?_,
      h.consumed_le, kept _, ?_⟩
    · intro shut
      exact h.stopped (writer' ▸ shut)
    · exact ⟨_, all⟩
    · intro n hand pos
      exact absurd (Prod.mk.inj (Option.some.inj hand)).2 some
  | final reader empty shut pipe =>
    have flow := h.flow reader
    rw [empty, List.append_nil] at flow
    -- An open read end and an empty ring: all that was written is drawn.
    have kept_pipe := h.of_same pipe
    refine ⟨[], rfl, List.nil_prefix, kept_pipe.valid, h.flag, kept_pipe.stopped, ?_, ?_,
      h.consumed_le, kept [], ?_⟩
    · rw [same]
      exact kept_pipe.flow
    · rw [same]
      exact h.drawn_le
    · intro n hand pos
      exact ⟨pipe.writerClosed.trans shut, same.trans flow⟩

/-- The write end is closed, by an ending or because of a cancellation. -/
theorem Matches.closeWriter (h : a.Matches m) (why : a.ended = true ∨ a.cancelled = true) :
    a.Matches { m with pipe := m.pipe.closeWriter } := by
  unfold Pipe.closeWriter
  split
  · exact h
  · refine ⟨h.valid, h.flag, fun _ => why, h.flow, h.drawn_le, h.consumed_le, h.kept, ?_⟩
    intro asked hand pos
    exact ⟨rfl, (h.drained asked hand pos).2⟩

/-- The read end is closed; what was in the pipe is lost. -/
theorem Matches.closeReader (h : a.Matches m) :
    a.Matches { m with pipe := m.pipe.closeReader } := by
  unfold Pipe.closeReader
  split
  · exact h
  · refine ⟨Ring.clear_valid h.valid, h.flag, h.stopped, ?_, h.drawn_le,
      h.consumed_le, h.kept, h.drained⟩
    intro opened
    exact Bool.noConfusion opened

theorem Matches.ended (h : a.Matches m) : (a.after .ended).Matches m :=
  ⟨h.valid, h.flag, fun _ => .inl rfl, h.flow, h.drawn_le, h.consumed_le, h.kept, h.drained⟩

theorem Matches.raised (h : a.Matches m) :
    (a.after .cancelled).Matches { m with cancelled := true } :=
  ⟨h.valid, rfl, fun _ => .inr rfl, h.flow, h.drawn_le, h.consumed_le,
    fun clear => Bool.noConfusion clear, h.drained⟩

/-- What a reader is told to have taken is what it holds, unless the message was cancelled. -/
theorem confirmed_of_stage {r : Result} (stage : a.Stage (.settle r)) : a.confirmed r = a.hand := by
  cases r with
  | error why =>
    have none : a.inHand = none := stage
    simp [confirmed, hand, none]
  | ok reply =>
    cases reply with
    | bytes data =>
      obtain ⟨asked, holds⟩ := stage
      simp [confirmed, hand, holds]
    | count n =>
      obtain ⟨asked, data, holds, rfl⟩ := stage
      simp [confirmed, hand, holds]
    | _ => exact stage.elim

/-- The reader looks at the flag again and is answered. -/
theorem Matches.answered (h : a.Matches m) {r : Result} (stage : a.Stage (.settle r)) :
    (a.after (.answered (if m.cancelled then .error .cancelled else r))).Matches m := by
  cases flag : m.cancelled with
  | true =>
    -- What the reader holds is taken from it: it was drawn, and is never read.
    have same : a.consumed ++ a.confirmed (.error .cancelled) = a.consumed := List.append_nil _
    refine ⟨h.valid, h.flag, h.stopped, h.flow, h.drawn_le, ?_, ?_, ?_⟩
    · rw [if_pos rfl]
      show a.consumed ++ _ <+: a.written
      rw [same]
      exact h.consumed_le
    · intro clear
      have set := h.flag
      rw [flag] at set
      exact absurd (set.symm.trans clear) (by decide)
    · intro asked hand
      exact absurd hand.symm (Option.some_ne_none _)
  | false =>
    have clear : a.cancelled = false := h.flag.trans flag
    -- The flag is clear, so nothing was ever taken from the reader.
    have all : a.drawn = a.consumed ++ a.confirmed r := by
      rw [confirmed_of_stage stage]
      exact h.kept clear
    refine ⟨h.valid, h.flag, h.stopped, h.flow, h.drawn_le, ?_, ?_, ?_⟩
    · rw [if_neg Bool.false_ne_true]
      show a.consumed ++ a.confirmed r <+: a.written
      rw [← all]
      exact h.drawn_le
    · intro _
      rw [if_neg Bool.false_ne_true]
      show a.drawn = (a.consumed ++ a.confirmed r) ++ []
      rw [List.append_nil, all]
    · intro asked hand
      exact absurd hand.symm (Option.some_ne_none _)

end Matches

end Account

/-! ## One step on a message -/

/-- A step of the call `c`, which goes on as `next` if at all, took the account from `a` to `a'` and
left the message `m'`. -/
structure Account.Served (a a' : Account) (m' : Message) (c : MessageCall)
    (next : Option MessageCall) : Prop where
  matched : a'.Matches m'
  stage : ∀ c', next = some c' → a'.Stage c'
  done : next = none → c.madeOn? = some .reader → a'.inHand = none
  others : c.madeOn? ≠ some .reader → a'.inHand = a.inHand
  flag : a.cancelled = true → a'.cancelled = true

/-- The same step of a call at another stage on the same end. -/
theorem Account.Served.of_madeOn {a a' : Account} {m' : Message} {c c' : MessageCall}
    {next : Option MessageCall} (h : a.Served a' m' c next) (same : c'.madeOn? = c.madeOn?) :
    a.Served a' m' c' next :=
  ⟨h.matched, h.stage, same ▸ h.done, same ▸ h.others, h.flag⟩

namespace Message

variable {a : Account} {m : Message} {who : Nat}

/-- A step that takes no bytes in or out. -/
theorem served_quietly {m' : Message} {c : MessageCall} {next : Option MessageCall}
    (h : a.Matches m') (idle : c.madeOn? = some .reader → a.inHand = none)
    (stage : ∀ c', next = some c' → a.Stage c') : a.Served a m' c next :=
  ⟨h, stage, fun _ => idle, fun _ => rfl, id⟩

/-- A step of a writer that ends its call. -/
theorem served_writer {a' : Account} {m' : Message} {c : MessageCall} (h : a'.Matches m')
    (writer : c.madeOn? ≠ some .reader) (others : a'.inHand = a.inHand)
    (flag : a.cancelled = true → a'.cancelled = true) : a.Served a' m' c none := by
  refine ⟨h, ?_, fun _ on => absurd on writer, fun _ => others, flag⟩
  rintro c' ⟨⟩

theorem served_write (h : a.Matches m) (data : Bytes) :
    a.Served
      (a.afterAll (m.events (.inPipe .cancelsOnFailure (.write data))
        (m.stepPipe who .cancelsOnFailure (.write data)).2))
      (m.stepPipe who .cancelsOnFailure (.write data)).1
      (.inPipe .cancelsOnFailure (.write data))
      (m.stepPipe who .cancelsOnFailure (.write data)).2.next? := by
  have pour := Pipe.pour_write h.valid who data
  simp only [stepPipe, Pipe.step]
  generalize m.pipe.write who data = turn at pour ⊢
  obtain ⟨p', answer⟩ := turn
  have writer : (MessageCall.inPipe .cancelsOnFailure (.write data)).madeOn? ≠ some .reader := by
    simp [MessageCall.madeOn?, PipeCall.madeOn]
  cases pour with
  | waits same =>
    refine served_quietly (h.of_same same) (fun on => absurd on writer) ?_
    rintro c' ⟨⟩
    exact fun on => absurd on writer
  | refused same =>
    refine served_quietly (h.of_same same) (fun on => absurd on writer) ?_
    rintro c' ⟨⟩
    intro on
    simp [MessageCall.madeOn?] at on
  | nothing empty => exact served_writer (h.wrote (.nothing empty)) writer rfl id
  | takes opened reader valid more writer' reader' some within =>
    have taken := h.wrote (.takes opened reader valid more writer' reader' some within)
    exact served_writer taken writer rfl id

theorem events_asleep (rule : FlagRule) (c : PipeCall) (c' : MessageCall) :
    m.events (.inPipe rule c) (.asleep c') = [] := by
  cases c <;> rfl

theorem events_failed (rule : FlagRule) (c : PipeCall) (why : Failure) :
    m.events (.inPipe rule c) (.more (.settle (.error why))) = [] := by
  cases c <;> rfl

/-- A reader in the pipe sleeps, or goes on to look at the flag again with what it took. -/
theorem served_draw {α : Type} {c : PipeCall} {asked : Nat} {reply : Bytes → α}
    {f : α → Reply} {turn : Pipe × Turn (Except Failure α)} (h : a.Matches m)
    (idle : a.inHand = none) (reader : c.madeOn = .reader)
    (draw : m.pipe.Draw asked reply turn.1 turn.2)
    (told : ∀ data, data <+: m.pipe.ring.contents →
      m.events (.inPipe .checksTwice c) (.more (.settle (.ok (f (reply data))))) =
        [.drew asked data])
    (holds : ∀ (a : Account) (data : Bytes), a.inHand = some (asked, data) →
      a.Stage (.settle (.ok (f (reply data)))))
    (step : m.pipe.step who c = turn.map id (Pipe.progress c f)) :
    a.Served
      (a.afterAll (m.events (.inPipe .checksTwice c) (m.stepPipe who .checksTwice c).2))
      (m.stepPipe who .checksTwice c).1 (.inPipe .checksTwice c)
      (m.stepPipe who .checksTwice c).2.next? := by
  have on : (MessageCall.inPipe .checksTwice c).madeOn? = some .reader := congrArg some reader
  obtain ⟨p', answer⟩ := turn
  simp only [stepPipe, step, Prod.map, Pipe.progress]
  cases answer with
  | sleeps =>
    cases draw with
    | waits same =>
      simp only [events_asleep]
      refine served_quietly (h.of_same same) (fun _ => idle) ?_
      rintro c' ⟨⟩
      exact fun _ => idle
  | returns r =>
    cases r with
    | error why =>
      cases draw with
      | refused same =>
        simp only [Except.map, MessageCall.afterPipe, events_failed]
        refine served_quietly (h.of_same same) (fun _ => idle) ?_
        rintro c' ⟨⟩
        exact idle
    | ok x =>
      obtain ⟨data, rfl, front, drew⟩ := h.drew idle draw
      simp only [Except.map, MessageCall.afterPipe, told data front]
      refine ⟨drew, ?_, ?_, ?_, id⟩
      · rintro c' ⟨⟩
        exact holds _ data rfl
      · rintro ⟨⟩
      · intro writer
        exact absurd on writer

theorem served_read (h : a.Matches m) (idle : a.inHand = none) (limit : Nat) :
    a.Served
      (a.afterAll (m.events (.inPipe .checksTwice (.read limit))
        (m.stepPipe who .checksTwice (.read limit)).2))
      (m.stepPipe who .checksTwice (.read limit)).1 (.inPipe .checksTwice (.read limit))
      (m.stepPipe who .checksTwice (.read limit)).2.next? := by
  refine served_draw (f := .bytes) h idle rfl (Pipe.draw_read h.valid who limit) ?_ ?_ rfl
  · intro data front
    rfl
  · intro a data hand
    exact ⟨limit, hand⟩

/-- A skip is told by the number of the bytes it threw away, which stood in front. -/
theorem served_skip (h : a.Matches m) (idle : a.inHand = none) (count : Nat) :
    a.Served
      (a.afterAll (m.events (.inPipe .checksTwice (.skip count))
        (m.stepPipe who .checksTwice (.skip count)).2))
      (m.stepPipe who .checksTwice (.skip count)).1 (.inPipe .checksTwice (.skip count))
      (m.stepPipe who .checksTwice (.skip count)).2.next? := by
  refine served_draw (f := .count) h idle rfl (Pipe.draw_skip h.valid who count) ?_ ?_ rfl
  · intro data front
    have same := List.prefix_iff_eq_take.1 front
    rw [events, ← same]
  · intro a data hand
    exact ⟨count, data, hand, rfl⟩

theorem rule_of_staged {rule : FlagRule} {c : PipeCall}
    (staged : (MessageCall.inPipe rule c).Staged) (keeps : c ≠ c.madeOn.letGo) :
    rule = c.flagRule := by
  rcases staged with own | ⟨-, letGo⟩
  · exact own
  · exact absurd letGo keeps

/-- Both ways to close the write end are an ending. -/
theorem served_closeWriter (h : a.Matches m) {rule : FlagRule}
    (staged : (MessageCall.inPipe rule .closeWriter).Staged) :
    a.Served
      (a.afterAll (m.events (.inPipe rule .closeWriter) (m.stepPipe who rule .closeWriter).2))
      (m.stepPipe who rule .closeWriter).1 (.inPipe rule .closeWriter)
      (m.stepPipe who rule .closeWriter).2.next? := by
  have writer : (MessageCall.inPipe rule .closeWriter).madeOn? ≠ some .reader := by
    simp [MessageCall.madeOn?, PipeCall.madeOn]
  have closed := h.ended.closeWriter (.inl rfl)
  rcases staged with rfl | ⟨rfl, -⟩
  · exact served_writer closed writer rfl id
  · exact served_writer closed writer rfl id

theorem served_closeReader (h : a.Matches m) (idle : a.inHand = none) {rule : FlagRule}
    (staged : (MessageCall.inPipe rule .closeReader).Staged) :
    a.Served
      (a.afterAll (m.events (.inPipe rule .closeReader) (m.stepPipe who rule .closeReader).2))
      (m.stepPipe who rule .closeReader).1 (.inPipe rule .closeReader)
      (m.stepPipe who rule .closeReader).2.next? := by
  rcases staged with rfl | ⟨rfl, -⟩
  · refine served_quietly h.closeReader (fun _ => idle) ?_
    rintro c' ⟨⟩
  · refine served_quietly h.closeReader (fun _ => idle) ?_
    rintro c' ⟨⟩

/-- A flush that fails goes on to cancel the message. -/
theorem served_flush (h : a.Matches m) :
    a.Served (a.afterAll (m.events (.inPipe .cancelsOnFailure .flush)
        (m.stepPipe who .cancelsOnFailure .flush).2))
      (m.stepPipe who .cancelsOnFailure .flush).1 (.inPipe .cancelsOnFailure .flush)
      (m.stepPipe who .cancelsOnFailure .flush).2.next? := by
  have writer : (MessageCall.inPipe .cancelsOnFailure .flush).madeOn? ≠ some .reader := by
    simp [MessageCall.madeOn?, PipeCall.madeOn]
  refine served_quietly h (fun on => absurd on writer) ?_
  -- Whatever it goes on as is on the write end.
  intro c' next
  rcases next_stepPipe next with rfl | ⟨rule, -⟩ | ⟨-, r, rfl⟩
  · exact fun on => absurd on writer
  · exact FlagRule.noConfusion rule
  · intro on
    simp [MessageCall.madeOn?] at on

/-- A step on the pipe. -/
theorem served_inPipe (h : a.Matches m) {rule : FlagRule} {c : PipeCall}
    (staged : (MessageCall.inPipe rule c).Staged) (stage : a.Stage (.inPipe rule c)) :
    a.Served (a.afterAll (m.events (.inPipe rule c) (m.stepPipe who rule c).2))
      (m.stepPipe who rule c).1 (.inPipe rule c) (m.stepPipe who rule c).2.next? := by
  cases c with
  | closeWriter => exact served_closeWriter h staged
  | closeReader => exact served_closeReader h (stage rfl) staged
  | write data =>
    obtain rfl := rule_of_staged staged (by simp [PipeCall.madeOn, PipeEnd.letGo])
    exact served_write h data
  | read limit =>
    obtain rfl := rule_of_staged staged (by simp [PipeCall.madeOn, PipeEnd.letGo])
    exact served_read h (stage rfl) limit
  | skip count =>
    obtain rfl := rule_of_staged staged (by simp [PipeCall.madeOn, PipeEnd.letGo])
    exact served_skip h (stage rfl) count
  | flush =>
    obtain rfl := rule_of_staged staged (by simp [PipeCall.madeOn, PipeEnd.letGo])
    exact served_flush h
  | _ =>
    obtain rfl := rule_of_staged staged (by simp [PipeCall.madeOn, PipeEnd.letGo])
    apply served_quietly h stage
    rintro c' ⟨⟩

/-- A call that goes to the pipe at once has the events it has there. -/
theorem events_start {c : PipeCall} (rule : FlagRule) (p : Progress MessageCall Result)
    (h : c.madeOn = .writer) : m.events (.start c) p = m.events (.inPipe rule c) p := by
  cases c with
  | write data =>
    cases p with
    | done r => rcases r with _ | ⟨_ | _ | _ | _ | _⟩ <;> rfl
    | _ => rfl
  | flush | closeWriter | writerClosed => cases p <;> rfl
  | _ => simp [PipeCall.madeOn] at h

theorem step_start_writer {c : PipeCall} (h : c.madeOn = .writer) :
    m.step who (.start c) = m.stepPipe who c.flagRule c := by
  cases c with
  | write | flush | closeWriter | writerClosed => rfl
  | _ => simp [PipeCall.madeOn] at h

/-- A reader begins: nothing is done but to look at the flag. -/
theorem step_start_reader (m : Message) (who : Nat) {c : PipeCall} (h : c.madeOn = .reader) :
    (m.step who (.start c)).1 = m ∧ m.events (.start c) (m.step who (.start c)).2 = [] ∧
      ∀ c', (m.step who (.start c)).2.next? = some c' → c' = .inPipe c.flagRule c := by
  cases c with
  | read | skip | available | closeReader | reset =>
    refine ⟨rfl, rfl, ?_⟩
    intro c' next
    simp only [step, PipeCall.flagRule] at next
    split at next
    · exact absurd next (by simp [Progress.next?])
    · exact (Option.some.inj next).symm
  | mark | markSupported =>
    refine ⟨rfl, rfl, ?_⟩
    rintro c' ⟨⟩
  | _ => simp [PipeCall.madeOn] at h

/-- A call begins: the flag is looked at, or the pipe is used at once. -/
theorem served_start (h : a.Matches m) {c : PipeCall} (stage : a.Stage (.start c)) :
    a.Served (a.afterAll (m.events (.start c) (m.step who (.start c)).2))
      (m.step who (.start c)).1 (.start c) (m.step who (.start c)).2.next? := by
  cases on : c.madeOn with
  | writer =>
    have same : (MessageCall.start c).madeOn? = (MessageCall.inPipe c.flagRule c).madeOn? := rfl
    rw [step_start_writer on, events_start c.flagRule _ on]
    exact (served_inPipe h (.inl rfl) stage).of_madeOn same
  | reader =>
    -- The reader has not been in the pipe yet.
    obtain ⟨kept, none, next⟩ := step_start_reader m who on
    rw [kept, none]
    apply served_quietly h stage
    intro c' follows
    rw [next c' follows]
    exact stage

/-- Every step on a message keeps its account. -/
theorem served_step (who : Nat) (h : a.Matches m) {c : MessageCall} (staged : c.Staged)
    (stage : a.Stage c) :
    a.Served (a.afterAll (m.events c (m.step who c).2)) (m.step who c).1 c
      (m.step who c).2.next? := by
  cases c with
  | inPipe rule c => exact served_inPipe h staged stage
  | start c => exact served_start h stage
  | settle r =>
    refine ⟨h.answered stage, ?_, fun _ _ => rfl, fun other => absurd rfl other, id⟩
    rintro c' ⟨⟩
  | raiseFlag r =>
    -- The flag comes first: when the end is closed, the account knows the reason.
    refine ⟨h.raised, ?_, ?_, fun _ => rfl, fun _ => rfl⟩
    · rintro c' ⟨⟩
      rfl
    · rintro ⟨⟩
  | hangUp r =>
    refine served_quietly (h.closeWriter (.inr stage)) ?_ ?_
    · intro on
      simp [MessageCall.madeOn?] at on
    · rintro c' ⟨⟩
  | wasCancelled =>
    refine served_quietly h ?_ ?_
    · intro on
      simp [MessageCall.madeOn?] at on
    · rintro c' ⟨⟩

end Message

end Loopback
