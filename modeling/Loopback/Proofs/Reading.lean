import Loopback.Proofs.Tethers
import Mathlib.Data.List.TakeWhile

/-!
# What was read, and what was accepted

Only the answer to a read moves what was read of a message, and only a write that finds both ends
open moves what was accepted. So a message that has been read out stays read out
(`Machine.ReadOut.of_handles`), and nothing is accepted once the flag of a message is set: whoever
sets it has the write end to itself until the end is closed (`Machine.accepted_before_flag`).
-/

namespace Loopback

/-- The flag was set. -/
def StreamEvent.isCancelled : StreamEvent → Bool
  | .cancelled => true
  | _ => false

namespace Account

variable {a : Account}

theorem afterAll_append (a : Account) (es es' : List StreamEvent) :
    a.afterAll (es ++ es') = (a.afterAll es).afterAll es' := List.foldl_append

theorem cancelled_afterAll (a : Account) (es : List StreamEvent) :
    (a.afterAll es).cancelled = (a.cancelled || es.any StreamEvent.isCancelled) := by
  induction es generalizing a with
  | nil => exact (Bool.or_false _).symm
  | cons e es ih =>
    rw [List.any_cons, ← Bool.or_assoc, afterAll, List.foldl_cons, ← afterAll, ih]
    cases e <;> simp [after, StreamEvent.isCancelled]

/-- What the writes were answered to have taken before the flag was set. -/
def acceptedFirst (es : List StreamEvent) : Bytes :=
  (empty.afterAll (es.takeWhile (!·.isCancelled))).written

end Account

namespace Message

variable {a : Account} {m : Message} {c : MessageCall} {who : Nat}

/-- Only the answer to a read or a skip says that bytes were read. -/
theorem consumed_events (a : Account) (m : Message) (settles : ∀ r, c ≠ .settle r)
    (p : Progress MessageCall Result) : (a.afterAll (m.events c p)).consumed = a.consumed := by
  unfold events
  split <;> first | rfl | exact absurd rfl (settles _)

/-- Only the answer to a write says that bytes were accepted. -/
theorem written_events (a : Account) (m : Message) (p : Progress MessageCall Result)
    (none : ∀ data n, c.pipeCall? = some (.write data) → p = .done (.ok (.count n)) →
      data.take n = []) :
    (a.afterAll (m.events c p)).written = a.written := by
  have wrote (data : Bytes) (n : Nat) (inPipe : c.pipeCall? = some (.write data))
      (answer : p = .done (.ok (.count n))) :
      (a.afterAll [.wrote (data.take n)]).written = a.written := by
    rw [none data n inPipe answer]
    exact List.append_nil _
  unfold events
  split
  · exact wrote _ _ rfl rfl
  · exact wrote _ _ rfl rfl
  all_goals rfl

/-- A closed pipe accepts nothing. -/
theorem written_events_of_broken (a : Account) (broken : m.pipe.isBroken = true) (who : Nat)
    (c : MessageCall) : (a.afterAll (m.events c (m.step who c).2)).written = a.written := by
  apply written_events
  intro data n inPipe answer
  by_cases empty : data = []
  · rw [empty, List.take_nil]
  -- A write of some bytes is refused.
  · have refusable : (PipeCall.write data).isRefusable = true := by
      simp [PipeCall.isRefusable, empty]
    have refused := Pipe.refused_of_broken who refusable broken
    rcases step_inPipe_or who c m with ⟨rule, d, inPipe', step⟩ | ⟨only, -⟩
    · obtain rfl := Option.some.inj (inPipe.symm.trans inPipe')
      have outcome : (m.stepPipe who rule (.write data)).2 =
          MessageCall.afterPipe rule (.error .pipeClosed) := by simp only [stepPipe, refused]
      rw [step, outcome] at answer
      cases rule <;> simp [MessageCall.afterPipe] at answer
    · exact PipeCall.noConfusion (only _ inPipe)

/-- Only the writer has bytes accepted. -/
theorem written_events_of_apart (a : Account) (m : Message) (apart : c.madeOn? ≠ some .writer)
    (p : Progress MessageCall Result) : (a.afterAll (m.events c p)).written = a.written := by
  apply written_events
  intro data n inPipe
  exact absurd (MessageCall.madeOn?_of_pipeCall? inPipe) apart

/-- The flag is set by the step that is about to set it. -/
theorem cancelled_events (a : Account) (m : Message) (c : MessageCall)
    (p : Progress MessageCall Result) :
    (a.afterAll (m.events c p)).cancelled = (a.cancelled || c.isRaising) := by
  unfold events
  split <;>
    first
    | exact (Bool.or_true _).symm
    | exact (Bool.or_false _).symm
    | (cases c <;> first | exact (Bool.or_false _).symm | simp_all)

end Message

namespace Machine

variable {ρ η : Type} {m m' : Machine ρ η} {k : Nat} {mv : Move ρ η} {es : List StreamEvent}

namespace Handles

/-- What was read moves only with the answer to a read. -/
theorem consumed_eq (handled : Handles k m mv m' es)
    (apart : ∀ who pick r, mv = .step who pick → (who, .stream k (.settle r)) ∉ m.calls)
    (a : Account) : (a.afterAll es).consumed = a.consumed := by
  cases handled with
  | serves now here =>
    apply Message.consumed_events
    rintro r rfl
    exact apart _ _ r now here
  | _ => rfl

/-- What a reader has in its hand is its own business. -/
theorem inHand_eq (handled : Handles k m mv m' es) (orderly : m.Orderly) {a : Account}
    (accounted : m.Accounted k a)
    (apart : ∀ who pick c, mv = .step who pick → (who, .stream k c) ∈ m.calls →
      c.madeOn? ≠ some .reader) : (a.afterAll es).inHand = a.inHand := by
  cases handled with
  | @serves who _ _ _ now here awake found =>
    have served := Message.served_step who (accounted.matched _ found) (orderly.staged _ here)
      (accounted.stages _ _ here)
    exact served.others (apart _ _ _ now here)
  | _ => rfl

/-- A message stays, a closed write end stays closed, and a flag stays set. -/
theorem message (handled : Handles k m mv m' es) {msg : Message}
    (valid : msg.pipe.ring.Valid) (found : m.link.messages[k]? = some msg) :
    ∃ msg', m'.link.messages[k]? = some msg' ∧
      (msg.pipe.writerClosed = true → msg'.pipe.writerClosed = true) ∧
      (msg.cancelled = true → msg'.cancelled = true) := by
  cases handled with
  | leaves same => exact ⟨msg, same.trans found, id, id⟩
  | rouses found₀ found' =>
    obtain rfl := Option.some.inj (found.symm.trans found₀)
    exact ⟨_, found', id, id⟩
  | creates absent =>
    rw [absent] at found
    cases found
  | @serves who pick c msg₀ now here awake found₀ found' =>
    obtain rfl := Option.some.inj (found.symm.trans found₀)
    refine ⟨_, found', (MessageCall.closed_step valid who).1, ?_⟩
    intro flag
    rw [Message.cancelled_step, flag, Bool.true_or]

/-- A read end stays open until a caller closes it. -/
theorem reader_open (handled : Handles k m mv m' es) {msg : Message}
    (valid : msg.pipe.ring.Valid) (found : m.link.messages[k]? = some msg)
    (opened : msg.pipe.readerClosed = false)
    (apart : ∀ who pick c, mv = .step who pick → (who, .stream k c) ∈ m.calls →
      c.pipeCall? ≠ some .closeReader) :
    ∃ msg', m'.link.messages[k]? = some msg' ∧ msg'.pipe.readerClosed = false := by
  cases handled with
  | leaves same => exact ⟨msg, same.trans found, opened⟩
  | rouses found₀ found' =>
    obtain rfl := Option.some.inj (found.symm.trans found₀)
    exact ⟨_, found', opened⟩
  | creates absent =>
    rw [absent] at found
    cases found
  | @serves who pick c msg₀ now here awake found₀ found' =>
    obtain rfl := Option.some.inj (found.symm.trans found₀)
    refine ⟨_, found', ?_⟩
    rw [Message.pipe_step]
    cases inPipe : c.pipeCall? with
    | none => exact opened
    | some d =>
      have kept := (Pipe.conserves_step valid who d).reader
      have stays : (d == .closeReader) = false := by
        apply beq_eq_false_iff_ne.2
        rintro rfl
        exact apart who pick c now here inPipe
      exact kept.trans (by rw [opened, stays]; rfl)

end Handles

/-! ## Read out -/

/-- There is nothing more to read of message `k`: it was cancelled, or its write end is closed and
all that was accepted was read. -/
def ReadOut (k : Nat) (a : Account) (m : Machine ρ η) : Prop :=
  a.cancelled = true ∨
    (a.consumed = a.written ∧
      ∃ msg, m.link.messages[k]? = some msg ∧ msg.pipe.writerClosed = true)

/-- A message that was read out stays so, as long as no read of it is answered. -/
theorem ReadOut.of_handles {a : Account} (h : m.ReadOut k a) (accounted : m.Accounted k a)
    (handled : Handles k m mv m' es)
    (apart : ∀ who pick r, mv = .step who pick → (who, .stream k (.settle r)) ∉ m.calls) :
    m'.ReadOut k (a.afterAll es) := by
  rcases h with flag | ⟨all, msg, found, shut⟩
  · left
    rw [Account.cancelled_afterAll, flag, Bool.true_or]
  · right
    have valid := (accounted.matched msg found).valid
    obtain ⟨msg', found', shut', -⟩ := handled.message valid found
    refine ⟨?_, msg', found', shut' shut⟩
    rw [handled.consumed_eq apart, all]
    cases handled with
    | @serves who pick c msg₀ now here awake found₀ =>
      obtain rfl := Option.some.inj (found.symm.trans found₀)
      have broken : msg.pipe.isBroken = true := by rw [Pipe.isBroken, shut, Bool.true_or]
      exact (Message.written_events_of_broken a broken who c).symm
    | _ => rfl

/-! ## Accepted before the flag -/

/-- Once the flag of message `k` is set nothing is accepted any more: the write end is closed, or
the caller that set the flag is about to close it. -/
def Sealed (k : Nat) (es : List StreamEvent) (m : Machine ρ η) : Prop :=
  es.any StreamEvent.isCancelled = true →
    (Account.empty.afterAll es).written = Account.acceptedFirst es ∧
      ∃ msg, m.link.messages[k]? = some msg ∧
        (msg.pipe.writerClosed = true ∨ ∃ who r, (who, .stream k (.hangUp r)) ∈ m.calls)

section Sealing

variable {past : List StreamEvent}

/-- What comes after the flag does not count as accepted before it. -/
theorem acceptedFirst_append (flag : past.any StreamEvent.isCancelled = true)
    (es : List StreamEvent) : Account.acceptedFirst (past ++ es) = Account.acceptedFirst past := by
  obtain ⟨e, here, set⟩ := List.any_eq_true.1 flag
  have short : (past.takeWhile (!·.isCancelled)).length ≠ past.length := by
    intro all
    have same := (List.takeWhile_prefix fun e : StreamEvent => !e.isCancelled).eq_of_length all
    have clear := List.takeWhile_eq_self_iff.1 same e here
    simp [set] at clear
  rw [Account.acceptedFirst, List.takeWhile_append, if_neg short]
  rfl

theorem acceptedFirst_of_clear (clear : past.any StreamEvent.isCancelled = false) :
    Account.acceptedFirst (past ++ [.cancelled]) = (Account.empty.afterAll past).written := by
  have all : ∀ e ∈ past, (!e.isCancelled) = true := by
    intro e here
    rw [Bool.not_eq_true', ← Bool.not_eq_true]
    exact List.any_eq_false.1 clear e here
  rw [Account.acceptedFirst, List.takeWhile_append_of_pos all]
  simp [StreamEvent.isCancelled]

/-- Whoever is about to close the write end has it to itself, so no write is answered. -/
theorem Sealed.written_kept (orderly : m.Orderly) {who : Nat} {c : MessageCall} {msg : Message}
    (here : (who, .stream k c) ∈ m.calls)
    (how : msg.pipe.writerClosed = true ∨ ∃ x r, (x, .stream k (.hangUp r)) ∈ m.calls)
    (a : Account) : (a.afterAll (msg.events c (msg.step who c).2)).written = a.written := by
  rcases how with shut | ⟨x, r, there⟩
  · exact Message.written_events_of_broken a (by rw [Pipe.isBroken, shut, Bool.true_or]) who c
  · by_cases on : c.madeOn? = some .writer
    · have same := orderly.eq_of_madeOn? here there (e := (k, .writer))
        (by simp [Call.madeOn?, on]) rfl
      subst same
      have mine := call?_of_mem orderly here
      rw [call?_of_mem orderly there] at mine
      obtain rfl := (Call.stream.inj (Option.some.inj mine)).2
      rfl
    · exact Message.written_events_of_apart a msg on _

/-- The write end is closed by the caller that is about to close it, or that caller still is. -/
theorem Sealed.closes (orderly : m.Orderly) {who : Nat} {c : MessageCall} {msg : Message}
    (valid : msg.pipe.ring.Valid) (here : (who, .stream k c) ∈ m.calls)
    (others : ∀ x c', x ≠ who → ((x, c') ∈ m'.calls ↔ (x, c') ∈ m.calls))
    (how : msg.pipe.writerClosed = true ∨ ∃ x r, (x, .stream k (.hangUp r)) ∈ m.calls) :
    (msg.step who c).1.pipe.writerClosed = true ∨
      ∃ x r, (x, .stream k (.hangUp r)) ∈ m'.calls := by
  rcases how with shut | ⟨x, r, there⟩
  · exact .inl ((MessageCall.closed_step valid who).1 shut)
  · by_cases same : x = who
    · subst same
      have mine := call?_of_mem orderly here
      rw [call?_of_mem orderly there] at mine
      obtain rfl := (Call.stream.inj (Option.some.inj mine)).2
      left
      simp only [Message.step, Pipe.closeWriter]
      split
      · assumption
      · rfl
    · exact .inr ⟨x, r, (others x _ same).2 there⟩

theorem Sealed.of_handles (h : m.Sealed k past) (orderly : m.Orderly)
    (accounted : m.Accounted k (Account.empty.afterAll past)) (handled : Handles k m mv m' es) :
    m'.Sealed k (past ++ es) := by
  intro set
  cases flag : past.any StreamEvent.isCancelled with
  | true =>
    obtain ⟨same, msg, found, how⟩ := h flag
    rw [acceptedFirst_append flag, Account.afterAll_append]
    cases handled with
    | leaves stays stay =>
      refine ⟨same, msg, stays.trans found, how.imp_right ?_⟩
      rintro ⟨who, r, there⟩
      exact ⟨who, r, stay msg found who _ there⟩
    | rouses found₀ found' calls =>
      obtain rfl := Option.some.inj (found.symm.trans found₀)
      exact ⟨same, _, found', calls ▸ how⟩
    | creates absent =>
      rw [absent] at found
      cases found
    | serves now here awake found₀ found' own others =>
      obtain rfl := Option.some.inj (found.symm.trans found₀)
      have valid := (accounted.matched msg found).valid
      exact ⟨(Sealed.written_kept orderly here how _).trans same, _, found',
        Sealed.closes orderly valid here others how⟩
  | false =>
    rw [List.any_append, flag, Bool.false_or] at set
    cases handled with
    | @serves who pick c msg now here awake found found' own others =>
      have raises : c.isRaising = true := by
        have after := Message.cancelled_events Account.empty msg c (msg.step who c).2
        rw [Account.cancelled_afterAll, set] at after
        simpa [Account.empty] using after.symm
      -- The step that sets the flag accepts nothing, and its caller goes on to close the end.
      cases c with
      | raiseFlag r =>
        refine ⟨?_, _, found', .inr ⟨who, r, (own _).2 rfl⟩⟩
        rw [show msg.events (.raiseFlag r) (msg.step who (.raiseFlag r)).2 = [.cancelled] from rfl,
          acceptedFirst_of_clear flag, Account.afterAll_append]
        rfl
      | _ => cases raises
    | _ => cases set

end Sealing

/-- After every schedule: once the flag of a message is set, what was accepted is what was accepted
before. -/
theorem accepted_before_flag (config : Config) (first : String) (second : Option String)
    (tokens signals : Nat) (schedule : List (Move ρ η)) (k : Nat) :
    ((fresh config first second tokens signals).run schedule).Sealed k
      (((fresh config first second tokens signals).history schedule).filterMap
        (Event.stream? k)) := by
  induction schedule using List.reverseRecOn with
  | nil =>
    intro set
    cases set
  | append_singleton schedule mv ih =>
    have orderly := orderly_run (orderly_fresh config first second tokens signals) schedule
    have one := moves orderly mv
    rw [run_append, history_append, List.filterMap_append]
    simp only [history, List.append_nil]
    exact ih.of_handles orderly (accounted_run config first second tokens signals schedule k)
      (one.handles orderly k)

end Machine

end Loopback
