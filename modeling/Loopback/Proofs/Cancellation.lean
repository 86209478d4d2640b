import Loopback.Proofs.MessageStages

/-!
# Cancellation

A message is cancelled by its writer: by a call that says so, or by a write or flush that the pipe
refuses. From then on it stays cancelled, and no byte comes out of it any more. The two steps of a
cancellation are apart, the flag first and the write end after it, and a reader may take steps in
between. `Session.Minded` says what holds at every moment all the same.
-/

namespace Loopback

namespace Session

/-- Why a message is cancelled: it was told so, or a write or flush failed, or one has raised the
flag and is about to tell of its failure. -/
def Caused (xs : List (Step Message MessageCall)) (s : Session Message MessageCall) : Prop :=
  (∃ x ∈ xs, x.begun = .cancel) ∨
    (∃ x ∈ xs, ∃ c why, x.begun = .start c ∧ c.isRefusable = true ∧
      x.outcome = .done (.error why)) ∨
    ∃ c why, s.calls .writer = some ⟨.start c, .hangUp (.error why)⟩

/-- The writer has raised the flag and is about to close the write end. -/
def IsHangingUp (s : Session Message MessageCall) : Prop :=
  ∃ begun r, s.calls .writer = some ⟨begun, .hangUp r⟩

/-- The flag tells of its causes, and the write end is closed behind it. -/
structure FlagInOrder (xs : List (Step Message MessageCall)) (s : Session Message MessageCall) :
    Prop where
  flagged : s.IsHangingUp → s.state.cancelled = true
  shut : s.state.cancelled = true → s.state.pipe.writerClosed = true ∨ s.IsHangingUp
  caused : s.state.cancelled = true ↔ Caused xs s

/-- What holds of a session at a message after the steps `xs`. -/
structure Minded (xs : List (Step Message MessageCall)) (s : Session Message MessageCall) : Prop
    extends FlagInOrder xs s where
  valid : s.state.pipe.ring.Valid
  justified : s.state.pipe.Justified
  stages : ∀ e o, s.calls e = some o → MessageCall.Stage e o.begun o.stage
  /-- Whoever sleeps does so in the pipe. -/
  sleeping : ∀ e, TwoEnded.isAsleep e s.state = true →
    ∃ begun rule c, s.calls e = some ⟨begun, .inPipe rule c⟩
  /-- A failure was due to a closed end. -/
  refused : ∀ begun why, s.calls .writer = some ⟨begun, .raiseFlag (.error why)⟩ ∨
    s.calls .writer = some ⟨begun, .hangUp (.error why)⟩ → s.state.pipe.isBroken = true

variable {xs : List (Step Message MessageCall)} {s : Session Message MessageCall}

theorem minded_create (bufferSize : Nat) : Minded [] (create (Message.create bufferSize)) where
  valid := Ring.valid_create bufferSize
  justified := Pipe.justified_create bufferSize
  stages _ _ now := absurd now.symm (Option.some_ne_none _)
  sleeping e asleep := by
    obtain ⟨e', here⟩ := Pipe.isAsleep_iff.1 asleep
    cases e' <;> exact absurd here List.not_mem_nil
  refused := by rintro _ _ (⟨⟨⟩⟩ | ⟨⟨⟩⟩)
  flagged := by rintro ⟨_, _, ⟨⟩⟩
  shut := by rintro ⟨⟩
  caused := by
    constructor
    · rintro ⟨⟩
    · rintro (⟨x, here, -⟩ | ⟨x, here, -⟩ | ⟨c, why, now⟩)
      · exact absurd here List.not_mem_nil
      · exact absurd here List.not_mem_nil
      · cases now

/-! ## What can happen -/

/-- The cause of a cancellation does not change while the writer neither comes to close the write
end nor is done with that. -/
theorem caused_congr {s' : Session Message MessageCall}
    (same : ∀ begun r, s'.calls .writer = some ⟨begun, .hangUp r⟩ ↔
      s.calls .writer = some ⟨begun, .hangUp r⟩) : Caused xs s' ↔ Caused xs s := by
  simp only [Caused, same]

theorem isHangingUp_congr {s' : Session Message MessageCall}
    (same : ∀ begun r, s'.calls .writer = some ⟨begun, .hangUp r⟩ ↔
      s.calls .writer = some ⟨begun, .hangUp r⟩) : s'.IsHangingUp ↔ s.IsHangingUp := by
  simp only [IsHangingUp, same]

/-- A step that neither tells the message to be cancelled nor tells of a failure gives no cause. -/
theorem caused_concat {x : Step Message MessageCall} (told : x.begun ≠ .cancel)
    (failed : ∀ c why, x.begun = .start c → c.isRefusable = true →
      x.outcome ≠ .done (.error why)) : Caused (xs ++ [x]) s ↔ Caused xs s := by
  constructor
  · rintro (⟨y, here, cancel⟩ | ⟨y, here, c, why, begun, refusable, outcome⟩ | late)
    · rcases List.mem_append.1 here with before | now
      · exact .inl ⟨y, before, cancel⟩
      · rw [List.mem_singleton.1 now] at cancel
        exact absurd cancel told
    · rcases List.mem_append.1 here with before | now
      · exact .inr (.inl ⟨y, before, c, why, begun, refusable, outcome⟩)
      · rw [List.mem_singleton.1 now] at begun outcome
        exact absurd outcome (failed c why begun refusable)
    · exact .inr (.inr late)
  · rintro (⟨y, here, cancel⟩ | ⟨y, here, failure⟩ | late)
    · exact .inl ⟨y, List.mem_append_left _ here, cancel⟩
    · exact .inr (.inl ⟨y, List.mem_append_left _ here, failure⟩)
    · exact .inr (.inr late)

/-- A call that begins has not raised the flag. -/
theorem Minded.began (minded : Minded xs s) {e : PipeEnd} {c : MessageCall}
    (idle : s.calls e = none) (entry : c.isEntry = true)
    (on : c.madeOn? = some e ∨ c.madeOn? = none) : Minded xs (s.after (.began e c)) := by
  -- A call that begins is at an entry, so any other stage was reached before.
  have before : ∀ begun stage, stage.isEntry = false →
      ((s.after (.began e c)).calls .writer = some ⟨begun, stage⟩ ↔
        s.calls .writer = some ⟨begun, stage⟩) := by
    intro begun stage later
    by_cases here : .writer = e
    · subst here
      rw [calls_began_self, idle]
      constructor
      · rintro ⟨⟩
        rw [entry] at later
        exact Bool.noConfusion later
      · rintro ⟨⟩
    · rw [calls_began_of_ne here]
  have hanging := fun begun r => before begun (.hangUp r) rfl
  refine ⟨⟨?_, ?_, ?_⟩, minded.valid, minded.justified, ?_, ?_, ?_⟩
  · intro late
    exact minded.flagged ((isHangingUp_congr hanging).1 late)
  · intro cancelled
    rcases minded.shut cancelled with shut | late
    · exact .inl shut
    · exact .inr ((isHangingUp_congr hanging).2 late)
  · exact minded.caused.trans (caused_congr hanging).symm
  · intro e' o now
    rcases eq_of_calls_began now with ⟨rfl, rfl⟩ | ⟨-, old⟩
    · exact .begins entry on
    · exact minded.stages e' o old
  · intro e' asleep
    obtain ⟨begun, rule, c', now⟩ := minded.sleeping e' asleep
    have other : e' ≠ e := by
      rintro rfl
      rw [idle] at now
      cases now
    exact ⟨begun, rule, c', (calls_began_of_ne other c).trans now⟩
  · rintro begun why (now | now)
    · exact minded.refused begun why (.inl ((before _ _ rfl).1 now))
    · exact minded.refused begun why (.inr ((before _ _ rfl).1 now))

theorem Minded.roused (minded : Minded xs s) (e : PipeEnd) : Minded xs (s.after (.roused e)) := by
  refine ⟨⟨minded.flagged, minded.shut, minded.caused⟩, minded.valid, minded.justified.rouse _,
    minded.stages, ?_, minded.refused⟩
  intro e' asleep
  obtain ⟨e'', here⟩ := Pipe.isAsleep_iff.1 asleep
  exact minded.sleeping e' (Pipe.isAsleep_iff.2 ⟨e'', Pipe.sleepers_rouse_subset e'' here⟩)

section Stepped

variable {e : PipeEnd} {begun stage : MessageCall} {x : Step Message MessageCall}
  {s' : Session Message MessageCall}

/-- A step of the writer that sets the flag. -/
theorem Minded.flag_raised (minded : Minded xs s) {r : Result}
    (now : s.calls e = some ⟨begun, .raiseFlag r⟩) (hx : x = ⟨e, begun, .raiseFlag r, s.state⟩)
    (later : s' = s.after (.stepped x)) : FlagInOrder (xs ++ [x]) s' := by
  have set : s'.state.cancelled = true := by
    subst hx later
    rfl
  have own : s'.calls e = some ⟨begun, .hangUp r⟩ := by
    subst hx later
    exact calls_stepped_self _
  have here : x ∈ xs ++ [x] := List.mem_append_right _ (List.mem_singleton.2 rfl)
  cases minded.stages e _ now with
  | begins entry on =>
    cases MessageCall.eq_of_isEntry_raiseFlag entry
    rcases on with on | on <;> cases on
    have cause : Caused (xs ++ [x]) s' := .inl ⟨x, here, by rw [hx]; rfl⟩
    exact ⟨fun _ => set, fun _ => .inr ⟨_, _, own⟩, fun _ => cause, fun _ => set⟩
  | @raises c refusable =>
    have cause : Caused (xs ++ [x]) s' := .inr (.inr ⟨c, _, own⟩)
    exact ⟨fun _ => set, fun _ => .inr ⟨_, _, own⟩, fun _ => cause, fun _ => set⟩

/-- A step of the writer that closes the write end, the flag being set. -/
theorem Minded.flag_hungUp (minded : Minded xs s) {r : Result}
    (now : s.calls e = some ⟨begun, .hangUp r⟩) (hx : x = ⟨e, begun, .hangUp r, s.state⟩)
    (later : s' = s.after (.stepped x)) : FlagInOrder (xs ++ [x]) s' := by
  have here : x ∈ xs ++ [x] := List.mem_append_right _ (List.mem_singleton.2 rfl)
  have own : s'.calls e = none := by
    subst hx later
    exact calls_stepped_self _
  have shut : s'.state.pipe.writerClosed = true := by
    subst hx later
    exact (Pipe.conserves_step minded.valid e.caller .closeWriter).writer.trans (Bool.or_true _)
  obtain ⟨rfl, cause⟩ : e = .writer ∧ Caused (xs ++ [x]) s' := by
    cases minded.stages e _ now with
    | begins entry => cases entry
    | @hangsUp c refusable =>
      exact ⟨rfl, .inr (.inl ⟨x, here, c, .pipeClosed, by rw [hx], refusable, by rw [hx]; rfl⟩)⟩
    | cancels => exact ⟨rfl, .inl ⟨x, here, by rw [hx]; rfl⟩⟩
  have set : s'.state.cancelled = true := by
    have before := minded.flagged ⟨begun, r, now⟩
    subst hx later
    exact before
  refine ⟨fun _ => set, fun _ => .inl shut, fun _ => cause, fun _ => set⟩

/-- No other step brings the writer there, or takes it away from there. -/
theorem hangingUp_kept (now : s.calls e = some ⟨begun, stage⟩) (low : stage.isRaising = false)
    (apart : ∀ r, stage ≠ .hangUp r) (hx : x = ⟨e, begun, stage, s.state⟩)
    (later : s' = s.after (.stepped x)) (begun' : MessageCall) (r : Result) :
    s'.calls .writer = some ⟨begun', .hangUp r⟩ ↔ s.calls .writer = some ⟨begun', .hangUp r⟩ := by
  subst hx later
  by_cases writer : .writer = e
  · subst writer
    rw [now]
    constructor
    · intro late
      obtain ⟨c, onward, same⟩ :=
        Option.map_eq_some_iff.1 ((calls_stepped_self _).symm.trans late)
      cases same
      have raising : stage = .raiseFlag r := Message.hangUp_step onward
      rw [raising] at low
      cases low
    · rintro ⟨⟩
      exact absurd rfl (apart r)
  · rw [calls_stepped_of_ne writer]

/-- Any other step leaves the flag and its causes alone. -/
theorem Minded.flag_kept (minded : Minded xs s) (now : s.calls e = some ⟨begun, stage⟩)
    (low : stage.isRaising = false) (apart : ∀ r, stage ≠ .hangUp r)
    (hx : x = ⟨e, begun, stage, s.state⟩) (later : s' = s.after (.stepped x)) :
    FlagInOrder (xs ++ [x]) s' := by
  have stays := minded.stages e _ now
  have told : x.begun ≠ .cancel := by
    intro cancel
    rw [hx] at cancel
    cases cancel
    cases stays with
    | begins => cases low
    | cancels => exact apart _ rfl
  have failed : ∀ c why, x.begun = .start c → c.isRefusable = true →
      x.outcome ≠ .done (.error why) := by
    intro c why start refusable outcome
    rw [hx] at start outcome
    cases start
    obtain ⟨-, inPipe | rfl | rfl⟩ := stays.of_isRefusable refusable
    · rcases MessageCall.step_refusable refusable inPipe e.caller s.state with
        ⟨-, more⟩ | ⟨-, asleep | ⟨reply, done⟩⟩
      · cases more.symm.trans outcome
      · cases asleep.symm.trans outcome
      · cases done.symm.trans outcome
    · cases low
    · exact apart _ rfl
  have same := hangingUp_kept now low apart hx later
  have flag : s'.state.cancelled = s.state.cancelled := by
    subst hx later
    exact (Message.cancelled_step _ _ _).trans (by rw [low, Bool.or_false])
  have shut : s.state.pipe.writerClosed = true → s'.state.pipe.writerClosed = true := by
    subst hx later
    exact (MessageCall.closed_step minded.valid e.caller).1
  refine ⟨?_, ?_, ?_⟩
  · intro late
    rw [flag]
    exact minded.flagged ((isHangingUp_congr same).1 late)
  · intro cancelled
    rw [flag] at cancelled
    rcases minded.shut cancelled with closed | late
    · exact .inl (shut closed)
    · exact .inr ((isHangingUp_congr same).2 late)
  · rw [flag, caused_concat told failed, caused_congr same]
    exact minded.caused

theorem Minded.flag_stepped (minded : Minded xs s) (now : s.calls e = some ⟨begun, stage⟩)
    (hx : x = ⟨e, begun, stage, s.state⟩) (later : s' = s.after (.stepped x)) :
    FlagInOrder (xs ++ [x]) s' := by
  cases stage with
  | raiseFlag r => exact minded.flag_raised now hx later
  | hangUp r => exact minded.flag_hungUp now hx later
  | _ => exact minded.flag_kept now rfl (by rintro r ⟨⟩) hx later

/-- Whoever is about to tell of a failure was refused by the pipe. -/
theorem Minded.refused_stepped (minded : Minded xs s) (now : s.calls e = some ⟨begun, stage⟩)
    (hx : x = ⟨e, begun, stage, s.state⟩) (later : s' = s.after (.stepped x)) (begun' : MessageCall)
    (why : Failure)
    (late : s'.calls .writer = some ⟨begun', .raiseFlag (.error why)⟩ ∨
      s'.calls .writer = some ⟨begun', .hangUp (.error why)⟩) :
    s'.state.pipe.isBroken = true := by
  subst hx later
  have stays := (MessageCall.closed_step (c := stage) minded.valid e.caller).2
  apply stays
  rcases late with late | late
  · rcases eq_of_calls_stepped late with ⟨writer, c, onward, same⟩ | ⟨-, before⟩
    · cases same
      obtain ⟨d, why', call, failed⟩ := Message.raise_step onward
      have on : d.madeOn = .writer := ((minded.stages e _ now).madeOn call).trans writer.symm
      exact (Pipe.broken_of_refused on failed).2.2
    · exact minded.refused begun' why (.inl before)
  · rcases eq_of_calls_stepped late with ⟨writer, c, onward, same⟩ | ⟨-, before⟩
    · cases same
      -- The flag is raised now, so the refusal came before.
      have raising : stage = .raiseFlag (.error why) := Message.hangUp_step onward
      have writer : .writer = e := writer
      subst raising writer
      exact minded.refused begun why (.inl now)
    · exact minded.refused begun' why (.inr before)

theorem Minded.stepped (minded : Minded xs s) (now : s.calls e = some ⟨begun, stage⟩)
    (awake : TwoEnded.isAsleep e s.state = false) (hx : x = ⟨e, begun, stage, s.state⟩)
    (later : s' = s.after (.stepped x)) : Minded (xs ++ [x]) s' := by
  have stays := minded.stages e _ now
  refine ⟨minded.flag_stepped now hx later, ?_, ?_, ?_, ?_, minded.refused_stepped now hx later⟩
  · subst hx later
    exact MessageCall.valid_step minded.valid e.caller
  · subst hx later
    exact stays.justified_step minded.valid minded.justified awake
  · subst hx later
    intro e' o here
    rcases eq_of_calls_stepped here with ⟨rfl, c, onward, rfl⟩ | ⟨-, before⟩
    · exact stays.next onward
    · exact minded.stages e' o before
  · subst hx later
    intro e' asleep
    rcases stays.asleep_before minded.valid minded.justified awake asleep with
      ⟨rfl, c, slept⟩ | ⟨other, before⟩
    · obtain ⟨rule, d, -, rfl, -⟩ := Message.asleep_step slept
      refine ⟨begun, rule, d, (calls_stepped_self _).trans ?_⟩
      rw [show Step.outcome ⟨e', begun, stage, s.state⟩ = .asleep (.inPipe rule d) from slept]
      rfl
    · obtain ⟨begun', rule, d, there⟩ := minded.sleeping e' before
      exact ⟨begun', rule, d, (calls_stepped_of_ne other).trans there⟩

end Stepped

theorem Minded.after {h : List (Event Message MessageCall)} {s : Session Message MessageCall}
    (minded : Minded (steps h) s) {ev : Event Message MessageCall} (can : s.Can ev) :
    Minded (steps (h ++ [ev])) (s.after ev) := by
  cases can with
  | rouses asleep =>
    rw [steps_roused]
    exact minded.roused _
  | begins idle may =>
    obtain ⟨entry, on⟩ := (Bool.and_eq_true ..).mp may
    rw [steps_began]
    refine minded.began idle entry ?_
    simpa using on
  | steps now awake =>
    rw [steps_stepped]
    exact minded.stepped now awake rfl rfl

theorem minded_run (bufferSize : Nat) (schedule : List (Move MessageCall)) :
    Minded (steps ((create (Message.create bufferSize)).history schedule))
      ((create (Message.create bufferSize)).run schedule) :=
  run_induction (P := fun h s => Minded (steps h) s) (minded_create bufferSize)
    (fun minded can => minded.after can) schedule

/-! ## What a caller sees -/

/-- What a step does, cancelled or not. Either end can ask whether the message was cancelled. A
write that is not empty, or a flush, is refused by the pipe just when an end is closed; it then
raises the flag, closes the write end and fails. Nothing else cancels a message that was not told
so, and closing, letting go and an empty write succeed. -/
structure Step.Plain (x : Step Message MessageCall) : Prop where
  tells : x.stage = .wasCancelled → x.outcome = .done (.ok (.flag x.before.cancelled))
  refuses : ∀ c, c.isRefusable = true →
    x.stage = .start c ∨ x.stage = .inPipe .cancelsOnFailure c →
    (x.before.pipe.isBroken = true ∧ x.outcome = .more (.raiseFlag (.error .pipeClosed))) ∨
      (x.before.pipe.isBroken = false ∧
        (x.outcome = .asleep (.inPipe .cancelsOnFailure c) ∨
          ∃ reply, x.outcome = .done (.ok reply)))
  raises : ∀ r, x.stage = .raiseFlag r → x.outcome = .more (.hangUp r)
  hangsUp : ∀ r, x.stage = .hangUp r → x.outcome = .done r
  fails : ∀ c r, x.begun = .start c → c.isRefusable = true → x.outcome = .done r →
    if x.before.pipe.isBroken then r = .error .pipeClosed else ∃ reply, r = .ok reply
  spares : x.begun ≠ .cancel → (∀ c, x.begun = .start c → c.isRefusable = false) →
    x.after.cancelled = x.before.cancelled
  succeeds : x.begun = .start .closeWriter ∨ (∃ e, x.begun = .letGo e) ∨
    x.begun = .start (.write []) → ∃ reply, x.outcome = .done (.ok reply)
  marks : ∀ limit, x.begun = .start (.mark limit) →
    x.outcome = .done (.ok .unit) ∧ x.after = x.before
  asks : x.begun = .start .markSupported →
    x.outcome = .done (.ok (.flag false)) ∧ x.after = x.before

/-- What a step does once the message is cancelled. A reader that begins to read, to skip, to ask
how much there is, to close or to reset is refused at once and changes nothing; a read or a skip
that is under way ends as a refusal. A write that is not empty, or a flush, is on its way to
failing. -/
structure Step.Refused (x : Step Message MessageCall) : Prop where
  gated : ∀ c, c.isGated = true → x.stage = .start c →
    x.outcome = .done (.error .cancelled) ∧ x.after = x.before
  silent : ∀ c size r, c.asks? = some size → x.begun = .start c → x.outcome = .done r →
    r = .error .cancelled
  settles : ∀ r, x.stage = .settle r → x.outcome = .done (.error .cancelled)
  writes : ∀ c, c.isRefusable = true → x.begun = .start c →
    x.outcome = .more (.raiseFlag (.error .pipeClosed)) ∨
      x.outcome = .more (.hangUp (.error .pipeClosed)) ∨
      x.outcome = .done (.error .pipeClosed)

theorem Minded.plain (minded : Minded xs s) {e : PipeEnd} {x : Step Message MessageCall}
    (next : s.next? e = some x) : x.Plain := by
  obtain ⟨begun, stage, rfl, now, -⟩ := next?_eq_some next
  have stays := minded.stages e _ now
  constructor
  case tells =>
    rintro rfl
    rfl
  case refuses =>
    intro c refusable inPipe
    exact MessageCall.step_refusable refusable inPipe e.caller s.state
  case raises =>
    rintro r rfl
    rfl
  case hangsUp =>
    rintro r rfl
    rfl
  case fails =>
    rintro c r rfl refusable done
    obtain ⟨rfl, inPipe | rfl | rfl⟩ := stays.of_isRefusable refusable
    · rcases MessageCall.step_refusable refusable inPipe 0 s.state with
        ⟨-, more⟩ | ⟨whole, asleep | ⟨reply, ok⟩⟩
      · cases more.symm.trans done
      · cases asleep.symm.trans done
      · cases ok.symm.trans done
        rw [whole, if_neg Bool.false_ne_true]
        exact ⟨reply, rfl⟩
    · cases done
    · cases done
      rw [minded.refused _ _ (.inr now), if_pos rfl]
  case spares =>
    intro told accepted
    refine (Message.cancelled_step e.caller stage s.state).trans ?_
    rw [stays.isRaising_eq_false told accepted, Bool.or_false]
  case succeeds =>
    rintro (rfl | ⟨e', rfl⟩ | rfl)
    · cases stays.eq_start rfl rfl
      exact ⟨.unit, rfl⟩
    · cases stays with
      | begins => cases e' <;> exact ⟨.unit, rfl⟩
    · cases stays.eq_start rfl rfl
      exact ⟨.count 0, rfl⟩
  case marks =>
    rintro limit rfl
    cases stays.eq_start rfl rfl
    exact ⟨rfl, rfl⟩
  case asks =>
    rintro rfl
    cases stays.eq_start rfl rfl
    exact ⟨rfl, rfl⟩

theorem Minded.refusal (minded : Minded xs s) (cancelled : s.state.cancelled = true)
    {e : PipeEnd} {x : Step Message MessageCall} (next : s.next? e = some x) : x.Refused := by
  obtain ⟨begun, stage, rfl, now, -⟩ := next?_eq_some next
  have stays := minded.stages e _ now
  have set : ∀ c, c.isGated = true →
      s.state.step e.caller (.start c) = (s.state, .done (.error .cancelled)) := by
    intro c gated
    rw [Message.step_gated gated, cancelled, if_pos rfl]
  have settled : ∀ r, (s.state.step e.caller (.settle r)).2 = .done (.error .cancelled) := by
    intro r
    simp only [Message.step, cancelled, if_true]
  constructor
  case gated =>
    rintro c gated rfl
    exact ⟨congrArg Prod.snd (set c gated), congrArg Prod.fst (set c gated)⟩
  case silent =>
    rintro c size r asks rfl done
    have done : (s.state.step e.caller stage).2 = .done r := done
    obtain ⟨gated, rfl | rfl | ⟨answer, rfl⟩⟩ := stays.of_asks asks
    · rw [set c gated] at done
      cases done
      rfl
    · rcases Message.stepPipe_outcome e.caller .checksTwice c s.state with
        ⟨-, asleep⟩ | ⟨answer, -, more⟩
      · cases asleep.symm.trans done
      · cases more.symm.trans done
    · cases (settled answer).symm.trans done
      rfl
  case settles =>
    rintro r rfl
    exact settled r
  case writes =>
    rintro c refusable rfl
    obtain ⟨rfl, inPipe | rfl | rfl⟩ := stays.of_isRefusable refusable
    · -- The flag is set, and it is not this writer who is about to close the write end.
      have shut : s.state.pipe.writerClosed = true := by
        rcases minded.shut cancelled with shut | ⟨begun, r, late⟩
        · exact shut
        · cases now.symm.trans late
          rcases inPipe with inPipe | inPipe <;> cases inPipe
      rcases MessageCall.step_refusable refusable inPipe 0 s.state with ⟨-, more⟩ | ⟨whole, -⟩
      · exact .inl more
      · rw [Pipe.isBroken, shut, Bool.true_or] at whole
        cases whole
    · exact .inr (.inl rfl)
    · exact .inr (.inr rfl)

/-- A reader that sleeps when the flag is set is woken by the next step of the writer. -/
theorem Minded.wakes (minded : Minded xs s) (cancelled : s.state.cancelled = true)
    (asleep : s.state.pipe.isAsleep PipeEnd.reader.caller = true) :
    ∃ x r, s.next? .writer = some x ∧ x.stage = .hangUp r ∧
      x.after.pipe.isAsleep PipeEnd.reader.caller = false := by
  have stuck := minded.justified.holdsUp asleep
  simp only [Pipe.holdsUp, Pipe.isBroken, Bool.and_eq_true, Bool.not_eq_true',
    Bool.or_eq_false_iff] at stuck
  obtain ⟨begun, r, now⟩ : s.IsHangingUp := by
    rcases minded.shut cancelled with shut | late
    · rw [stuck.1.1] at shut
      cases shut
    · exact late
  have awake : TwoEnded.isAsleep PipeEnd.writer s.state = false := by
    apply Bool.eq_false_iff.2
    intro asleep'
    obtain ⟨begun', rule, c, now'⟩ := minded.sleeping .writer asleep'
    cases now.symm.trans now'
  refine ⟨⟨.writer, begun, .hangUp r, s.state⟩, r, by simp [next?, now, awake], rfl, ?_⟩
  -- That step closes the write end, and nobody sleeps on a pipe with a closed end.
  have later := minded.stepped now awake rfl rfl
  refine later.justified.awake_of_broken ?_ .reader
  have kept := Pipe.conserves_step minded.valid PipeEnd.writer.caller .closeWriter
  exact (Bool.or_eq_true ..).mpr (.inl (kept.writer.trans (Bool.or_true _)))

/-- Behind a cancellation no reader sleeps, and one that is in a read or a skip goes on to be
refused. -/
theorem Minded.unblocked (minded : Minded xs s) (cancelled : s.state.cancelled = true)
    (finished : ¬ s.IsHangingUp) :
    s.state.pipe.isAsleep PipeEnd.reader.caller = false ∧
      ∀ x c size, s.next? .reader = some x → c.asks? = some size → x.begun = .start c →
        x.outcome = .done (.error .cancelled) ∨ ∃ r, x.outcome = .more (.settle r) := by
  have broken : s.state.pipe.isBroken = true := by
    rcases minded.shut cancelled with shut | late
    · rw [Pipe.isBroken, shut, Bool.true_or]
    · exact absurd late finished
  refine ⟨minded.justified.awake_of_broken broken .reader, ?_⟩
  intro x c size next asks start
  have refusal := minded.refusal cancelled next
  obtain ⟨begun, stage, rfl, now, -⟩ := next?_eq_some next
  cases start
  obtain ⟨gated, rfl | rfl | ⟨r, rfl⟩⟩ := (minded.stages .reader _ now).of_asks asks
  · exact .inl (refusal.gated c gated rfl).1
  · have on := MessageCall.madeOn_of_isGated gated
    rcases Message.stepPipe_outcome PipeEnd.reader.caller .checksTwice c s.state with
      ⟨asleep, -⟩ | ⟨r, -, more⟩
    · exact absurd asleep (Pipe.wakeful_of_broken minded.valid on broken)
    · exact .inr ⟨r, more⟩
  · exact .inl (refusal.settles r rfl)

/-- Once cancelled, a message stays so. -/
theorem cancelled_run (cancelled : s.state.cancelled = true) (later : List (Move MessageCall)) :
    (s.run later).state.cancelled = true := by
  refine run_induction (P := fun _ (s : Session Message MessageCall) => s.state.cancelled = true)
    cancelled ?_ later
  intro h s ev set can
  cases can with
  | begins | rouses => exact set
  | steps =>
    refine (Message.cancelled_step _ _ _).trans ?_
    rw [set, Bool.true_or]

/-- A message is cancelled just when it was told so, or when a write or flush of it was refused, and
those are refused just when an end of the pipe is closed. Cancelled it stays for good: whatever the
reader begins then is refused and changes nothing, no read or skip ends with a byte, and each write
or flush fails. A reader that slept is woken by the writer that cancelled the message, and goes on
to be refused. All this holds for every size of the buffer and every interleaving of the calls at
the two ends. -/
theorem cancellation_exact_and_final (bufferSize : Nat) (schedule : List (Move MessageCall)) :
    let s := (create (Message.create bufferSize)).run schedule
    let xs := steps ((create (Message.create bufferSize)).history schedule)
    (s.state.cancelled = true ↔ Caused xs s) ∧
      (∀ e x, s.next? e = some x → x.Plain ∧ (s.state.cancelled = true → x.Refused)) ∧
      (s.state.cancelled = true →
        (∀ later, (s.run later).state.cancelled = true) ∧
        (s.state.pipe.isAsleep PipeEnd.reader.caller = true →
          ∃ x r, s.next? .writer = some x ∧ x.stage = .hangUp r ∧
            x.after.pipe.isAsleep PipeEnd.reader.caller = false) ∧
        (¬ s.IsHangingUp →
          s.state.pipe.isAsleep PipeEnd.reader.caller = false ∧
            ∀ x c size, s.next? .reader = some x → c.asks? = some size → x.begun = .start c →
              x.outcome = .done (.error .cancelled) ∨ ∃ r, x.outcome = .more (.settle r))) := by
  intro s xs
  have minded : Minded xs s := minded_run bufferSize schedule
  refine ⟨minded.caused, ?_, ?_⟩
  · intro e x next
    exact ⟨minded.plain next, fun cancelled => minded.refusal cancelled next⟩
  · intro cancelled
    exact ⟨cancelled_run cancelled, minded.wakes cancelled, minded.unblocked cancelled⟩

/-- The reader falls asleep in a read of an empty message. The writer cancels the message, which
sets the flag and wakes the reader, and the pipe answers the read with the end of the stream. -/
def callingOff : List (Move MessageCall) :=
  [.begin .reader (.start (.read 3)), .step .reader, .step .reader,
    .begin .writer .cancel, .step .writer, .step .writer, .step .reader]

/-- The reader slept when the flag was set, and after `callingOff` its read ends as refused. -/
theorem refused_after_callingOff :
    ∃ (s : Session Message MessageCall) (x : Step Message MessageCall),
      ((create (Message.create 2)).run (callingOff.take 5)).state.pipe.isAsleep
        PipeEnd.reader.caller = true ∧
      s = (create (Message.create 2)).run callingOff ∧ s.state.cancelled = true ∧
      s.next? .reader = some x ∧ x.begun = .start (.read 3) ∧
      x.stage = .settle (.ok (.bytes [])) ∧ x.outcome = .done (.error .cancelled) := by
  refine ⟨_, ⟨.reader, .start (.read 3), .settle (.ok (.bytes [])), _⟩,
    rfl, rfl, rfl, rfl, rfl, rfl, ?_⟩
  obtain ⟨-, seen, -⟩ := cancellation_exact_and_final 2 callingOff
  exact ((seen .reader _ rfl).2 rfl).settles (.ok (.bytes [])) rfl

end Session

end Loopback
