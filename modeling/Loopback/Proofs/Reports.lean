import Loopback.Proofs.Occupancy

/-!
# What a step reports

A step of a call adds at most one line to the log: `Link.line?` says which one, and `Link.log_step`
that nothing else is done to the log. `Line.read?` reads a line with a counter of the messages in
one mailbox, and refuses a line that cannot come next. `Endpoint.Told` says of each line that an
endpoint reports what was done to the endpoint, so a step leads the reader from the mailbox as it
was to the mailbox as it is (`Link.read_step`). `Call.Course` follows one call to its answer,
whatever others do between its steps, and its lines are counted there.
-/

namespace Loopback

namespace Line

/-- The endpoint that a line is about. -/
def side? : Line → Option Side
  | .handed s | .queued s _ _ | .dequeued s _ | .shutDown s | .closed s => some s
  | _ => none

/-- The endpoint of `s` took a message. -/
def isTaking (s : Side) : Line → Bool
  | .handed t | .queued t _ _ => t = s
  | _ => false

/-- A receiver on `s` got a queued message. -/
def isDequeuing (s : Side) : Line → Bool
  | .dequeued t _ => t = s
  | _ => false

/-- The endpoint of `s` takes no further message. -/
def isEnding (s : Side) : Line → Bool
  | .shutDown t | .closed t => t = s
  | _ => false

/-- The counter of the messages queued on `s` after a line, where it was `count` before. There is
none when the line cannot come next on a mailbox for `capacity` messages. -/
def read? (s : Side) (capacity count : Nat) : Line → Option Nat
  | .queued t n c =>
      if t ≠ s then some count
      else if c = capacity ∧ n = count + 1 ∧ n ≤ c then some n else none
  | .dequeued t n =>
      if t ≠ s then some count
      else if n + 1 = count then some n else none
  | .handed t => if t = s ∧ count ≠ 0 then none else some count
  | _ => some count

/-- Only a line about an endpoint says anything about it. -/
theorem silent_of_side {s : Side} {line : Line} (other : line.side? ≠ some s) :
    line.isTaking s = false ∧ line.isDequeuing s = false ∧ line.isEnding s = false := by
  cases line <;> simp_all [side?, isTaking, isDequeuing, isEnding]

theorem read?_of_side {s : Side} {line : Line} (other : line.side? ≠ some s)
    (capacity count : Nat) : line.read? s capacity count = some count := by
  cases line <;> simp_all [side?, read?]

/-- What a receiver reports is about no endpoint. -/
theorem side?_of_isFromReceiver {line : Line} (own : line.isFromReceiver = true) :
    line.side? = none := by
  cases line <;> simp_all [isFromReceiver, side?]

end Line

/-! ## Lines about an endpoint -/

/-- The line about an attempt to write that left the endpoint `e` of `s`. -/
def Entry.line? {ρ μ : Type} (s : Side) (e : Endpoint ρ μ) : Entry ρ → Option Line
  | .queued => some (.queued s e.mailbox.size e.mailbox.capacity)
  | .handed _ => some (.handed s)
  | .refused _ | .sleeps => none

/-- The line about a registration that left the endpoint `e` of `s`. -/
def Registration.line? {ρ μ : Type} (s : Side) (e : Endpoint ρ μ) :
    Registration ρ μ → Option Line
  | .given ⟨_, .message _⟩ => some (.dequeued s e.mailbox.size)
  | _ => none

namespace Endpoint

variable {ρ μ : Type} {s : Side} {pick : Nat} {m : μ} {e e' : Endpoint ρ μ}

/-- The line about one hold of the lock of the endpoint of `s`. -/
def line? (s : Side) (pick : Nat) (m : μ) (e : Endpoint ρ μ) : Hold ρ → Option Line
  | .enter w interrupted =>
      let (e', entry) := e.enter pick w interrupted m
      entry.line? s e'
  | .resume w interrupted =>
      let (e', entry) := e.resume pick w interrupted m
      entry.line? s e'
  | .register r =>
      let (e', registration) := e.register pick r
      registration.line? s e'
  | .shutDown => if e.closed then none else some (.shutDown s)
  | .closeOff | .wakeWriters | .rouse _ => none

/-- What was done to the mailbox and the closed flag of the endpoint of `s`, and the line about
it. -/
inductive Told (s : Side) (e e' : Endpoint ρ μ) : Option Line → Prop where
  | nothing (same : e'.mailbox.size = e.mailbox.size) : Told s e e' none
  | handed (opened : e.closed = false) (empty : e.mailbox.size = 0)
      (same : e'.mailbox.size = e.mailbox.size) : Told s e e' (some (.handed s))
  | queued (opened : e.closed = false) (room : e.mailbox.size < e.mailbox.capacity)
      (more : e'.mailbox.size = e.mailbox.size + 1) :
      Told s e e' (some (.queued s e'.mailbox.size e.mailbox.capacity))
  | dequeued (fewer : e'.mailbox.size + 1 = e.mailbox.size) :
      Told s e e' (some (.dequeued s e'.mailbox.size))
  | shutDown (opened : e.closed = false) (shut : e'.closed = true)
      (same : e'.mailbox.size = e.mailbox.size) : Told s e e' (some (.shutDown s))

theorem Attempt.told {w : Writer} {interrupted : Bool} {entry : Entry ρ}
    (h : Attempt pick w interrupted m e e' entry) : Told s e e' (entry.line? s e') := by
  cases h with
  | closed | interrupted | sleeps => exact .nothing rfl
  | handed opened room empty => exact .handed opened (by simp [Mailbox.size, empty]) rfl
  | queued opened room =>
    exact .queued opened (by simpa [Mailbox.isFull] using room) (Mailbox.size_push m _)

theorem Registering.told {r : ρ} {answer : Registration ρ μ}
    (h : Registering pick r e e' answer) : Told s e e' (answer.line? s e') := by
  cases h with
  | refused | finish | waits => exact .nothing rfl
  | message nobody front => exact .dequeued (by simp [Mailbox.size, front])

/-- Who sleeps there, and which receiver waits, has no part in it. -/
theorem Told.of_same {e₀ : Endpoint ρ μ} {line? : Option Line} (h : Told s e₀ e' line?)
    (mailbox : e₀.mailbox = e.mailbox) (closed : e₀.closed = e.closed) : Told s e e' line? := by
  cases h with
  | nothing same => exact .nothing (mailbox ▸ same)
  | handed opened empty same =>
    exact .handed (closed ▸ opened) (mailbox ▸ empty) (mailbox ▸ same)
  | queued opened room more =>
    rw [mailbox] at room more ⊢
    exact .queued (closed ▸ opened) room more
  | dequeued fewer => exact .dequeued (mailbox ▸ fewer)
  | shutDown opened shut same => exact .shutDown (closed ▸ opened) shut (mailbox ▸ same)

/-- Every hold of the lock is reported as it is. -/
theorem told_after (s : Side) (pick : Nat) (m : μ) (e : Endpoint ρ μ) (hold : Hold ρ) :
    Told s e (e.after pick m hold) (e.line? s pick m hold) := by
  cases hold with
  | enter w interrupted => exact (attempt_enter pick w interrupted m e).told
  | resume w interrupted =>
    cases interrupted with
    | true => exact .nothing rfl
    | false => exact (attempt_enter pick w false m _).told.of_same rfl rfl
  | register r => exact (registering_register pick r e).told
  | shutDown =>
    have stopping := stopping_shutDown e
    simp only [after, line?]
    generalize e.shutDown = stopped at stopping
    obtain ⟨e', d?⟩ := stopped
    cases stopping with
    -- Only the first shutdown is reported.
    | again shut =>
      rw [if_pos shut]
      exact .nothing rfl
    | ends opened | quietly opened =>
      rw [opened]
      exact .shutDown opened rfl rfl
  | closeOff | wakeWriters | rouse => exact .nothing rfl

/-- A reader of the line finds the mailbox as it is afterwards. -/
theorem Told.read {line? : Option Line} (h : Told s e e' line?) :
    line?.toList.foldlM (Line.read? s e.mailbox.capacity) e.mailbox.size =
      some e'.mailbox.size := by
  cases h with
  | nothing same => rw [same]; rfl
  | handed opened empty same => simp [Line.read?, empty, same]
  | queued opened room more => simp [Line.read?, more, Nat.succ_le_of_lt room]
  | dequeued fewer => simp [Line.read?, fewer]
  | shutDown opened shut same => simp [Line.read?, same]

theorem Told.side {line : Line} (h : Told s e e' (some line)) : line.side? = some s := by
  cases h <;> rfl

end Endpoint

/-! ## Lines of a step -/

/-- What is reported as a call of its own comes from a receiver. -/
def Call.isHonest {ρ η : Type} : Call ρ η → Bool
  | .report line => line.isFromReceiver
  | _ => true

namespace Link

variable {ρ η : Type} (l : Link ρ η)

/-- The line that the next step of the call `c` of the caller `who` adds to the log. -/
def line? (pick who : Nat) (c : Call ρ η) (l : Link ρ η) : Option Line :=
  match c.hold? l who, c with
  | some (s, hold), _ => (l.endpoint s).line? s pick l.messages.size hold
  | none, .closeReport side => some (.closed side)
  | none, .closeNotify side =>
      let context := (l.context side.other).notify
      some (.remoteClosed context.connection.name context.remoteClosed)
  | none, .stream k (.hangUp _) => l.messages[k]?.map fun _ => .cancelled
  | none, .report line => some line
  | none, _ => none

@[simp] theorem log_modifyToken? (t : Option Nat) (f : Token Side → Token Side) :
    (l.modifyToken? t f).log = l.log := by
  cases t <;> rfl

theorem log_finishWrite (source : Side) (token : Option Nat) (e : Endpoint ρ Nat)
    (entry : Entry ρ) :
    (l.finishWrite source token e entry).1.log =
      (entry.line? source.other e).toList ++ l.log := by
  cases entry with
  | sleeps => exact log_modifyToken? _ _ _
  | _ => rfl

/-- A step adds its line to the log, if it has one, and nothing else. -/
theorem log_step (pick who : Nat) (c : Call ρ η) :
    (l.step pick who c).1.log = (l.line? pick who c).toList ++ l.log := by
  cases c with
  | write source token woken =>
    cases woken with
    | false => exact log_finishWrite l source token _ _
    | true =>
      rw [step, stepWrite_woken, log_finishWrite, log_modifyToken?]
      rfl
  | submit ts r =>
    rcases ts with _ | ⟨t, _ | ⟨t', ts⟩⟩ <;> rfl
  | shutDown source =>
    simp only [step, stepShutDown, line?, Call.hold?, Endpoint.line?]
    cases (l.endpoint source.other).closed <;>
      cases (l.endpoint source.other).shutDown.2 <;> rfl
  | receive side r =>
    simp only [step, stepReceive, line?, Call.hold?, Endpoint.line?]
    cases ((l.endpoint side).register pick r).2 with
    | given d =>
      obtain ⟨receiver, delivery⟩ := d
      cases delivery <;> rfl
    | _ => rfl
  | interruptWake places => cases places <;> rfl
  | await i =>
    simp only [step]
    split <;> rfl
  | stream k c =>
    simp only [step, line?, Call.hold?]
    cases found : l.messages[k]? with
    | none => cases c <;> simp [found]
    | some m => cases c <;> simp [found, report]
  | _ => rfl

/-- What a step does to the endpoint of `s`, and what it reports about it. -/
inductive Tells (s : Side) (e e' : Endpoint ρ Nat) (c : Call ρ η) (line? : Option Line) :
    Prop where
  | own (told : e.Told s e' line?)
  | apart (same : e' = e) (other : ∀ line, line? = some line → line.side? ≠ some s)
  | closes (same : e' = e) (now : c = .closeReport s) (told : line? = some (.closed s))

theorem tells_step (pick who : Nat) {c : Call ρ η} (honest : c.isHonest = true) (s : Side) :
    Tells s (l.endpoint s) ((l.step pick who c).1.endpoint s) c (l.line? pick who c) := by
  have after := l.endpoint_step pick who c s
  cases held : c.hold? l who with
  | some place =>
    obtain ⟨t, hold⟩ := place
    have line : l.line? pick who c = (l.endpoint t).line? t pick l.messages.size hold := by
      simp only [line?, held]
    have told := (l.endpoint t).told_after t pick l.messages.size hold
    simp only [held] at after
    rw [line]
    -- The line is about the endpoint that the step works on, be it that of `s` or the other one.
    by_cases here : s = t
    · subst here
      rw [after, if_pos rfl]
      exact .own told
    · refine .apart (after.trans (if_neg here)) fun line reported => ?_
      rw [reported] at told
      rw [told.side]
      exact fun same => here (Option.some.inj same).symm
  | none =>
    rw [held] at after
    -- Of the steps that work on no endpoint, only one tells about the end of `s`.
    by_cases closes : c = .closeReport s
    · subst closes
      exact .closes after rfl rfl
    · refine .apart after fun line reported => ?_
      simp only [line?, held] at reported
      cases c with
      | closeReport t =>
        cases reported
        exact fun same => closes (congrArg _ (Option.some.inj same))
      | closeNotify =>
        cases reported
        exact nofun
      | stream k c =>
        cases c with
        | hangUp r =>
          obtain ⟨m, -, rfl⟩ := Option.map_eq_some_iff.1 reported
          exact nofun
        | _ => cases reported
      | report line' =>
        cases reported
        rw [Line.side?_of_isFromReceiver honest]
        exact nofun
      | _ => cases reported

/-- A mailbox keeps its room. -/
theorem capacity_step (pick who : Nat) (c : Call ρ η) (s : Side) :
    ((l.step pick who c).1.endpoint s).mailbox.capacity = (l.endpoint s).mailbox.capacity := by
  rw [endpoint_step]
  split
  · split
    · next t hold _ here =>
      subst here
      exact (Endpoint.shift_after pick _ _ hold).capacity
    · rfl
  · rfl

/-- A reader of the log knows the mailbox after a step if he knew it before. -/
theorem read_step (pick who : Nat) {c : Call ρ η} (honest : c.isHonest = true) (s : Side) :
    (l.line? pick who c).toList.foldlM (Line.read? s (l.endpoint s).mailbox.capacity)
      (l.endpoint s).mailbox.size = some ((l.step pick who c).1.endpoint s).mailbox.size := by
  cases l.tells_step pick who honest s with
  | own told => exact told.read
  | apart same other =>
    rw [same]
    cases reported : l.line? pick who c with
    | none => rfl
    | some line => simp [Line.read?_of_side (other line reported)]
  | closes same now told =>
    rw [same, told]
    rfl

/-- An endpoint takes a message while it is open, and reports once that it was shut down. -/
theorem opened_step (pick who : Nat) {c : Call ρ η} (honest : c.isHonest = true) (s : Side)
    {line : Line} (reported : l.line? pick who c = some line) :
    (line.isTaking s = true → (l.endpoint s).closed = false) ∧
      (line.isEnding s = true →
        (line = .shutDown s ∧ (l.endpoint s).closed = false ∧
          ((l.step pick who c).1.endpoint s).closed = true) ∨
        (line = .closed s ∧ c = .closeReport s)) := by
  have tells := l.tells_step pick who honest s
  rw [reported] at tells
  cases tells with
  | own told =>
    cases told with
    | handed opened | queued opened => exact ⟨fun _ => opened, nofun⟩
    | dequeued => exact ⟨nofun, nofun⟩
    | shutDown opened shut => exact ⟨nofun, fun _ => .inl ⟨rfl, opened, shut⟩⟩
  | apart same other =>
    obtain ⟨taking, -, ending⟩ := Line.silent_of_side (other line rfl)
    rw [taking, ending]
    exact ⟨nofun, nofun⟩
  | closes same now told =>
    cases told
    exact ⟨nofun, fun _ => .inr ⟨rfl, now⟩⟩

end Link

/-! ## Lines of a call -/

/-- A receiver on `s` is given a message. -/
def Event.isGiving {ρ η : Type} (s : Side) : Event ρ η → Bool
  | .dispatched t ⟨_, .message _⟩ => t = s
  | _ => false

namespace Call

variable {ρ η : Type} {c c' : Call ρ η}

/-- The call writes towards `s`. -/
def writesTo (s : Side) : Call ρ η → Bool
  | .write source _ _ => source.other = s
  | _ => false

/-- The call registers a receiver. -/
def isReceive : Call ρ η → Bool
  | .receive _ _ => true
  | _ => false

theorem isHonest_of_isEntry (entry : c.isEntry = true) : c.isHonest = true := by
  cases c with
  | report line => exact entry
  | _ => rfl

theorem Follows.isHonest (h : c.Follows c') : c'.isHonest = true := by
  cases h <;> rfl

/-- Only a write goes on as one. -/
theorem Follows.isWrite (h : c.Follows c') (other : c.isWrite = false) : c'.isWrite = false := by
  cases h with
  | sleeps => cases other
  | _ => rfl

/-- No call goes on as a registration. -/
theorem Follows.isReceive (h : c.Follows c') : c'.isReceive = false := by
  cases h <;> rfl

end Call

namespace Link

variable {ρ η : Type} {l : Link ρ η} {pick who : Nat} {c : Call ρ η}

/-- The line of an attempt to write. -/
theorem line?_write (pick who : Nat) (source : Side) (token : Option Nat) (woken : Bool) :
    ∃ (l' : Link ρ η) (e : Endpoint ρ Nat) (entry : Entry ρ),
      l.stepWrite pick who source token woken = l'.finishWrite source token e entry ∧
      l.line? pick who (.write source token woken) = entry.line? source.other e := by
  cases woken with
  | false => exact ⟨_, _, _, stepWrite_first l pick who source token, rfl⟩
  | true => exact ⟨_, _, _, stepWrite_woken l pick who source token, rfl⟩

theorem not_dequeuing_of_write {source : Side} {token : Option Nat} {woken : Bool} {line : Line}
    (told : l.line? pick who (.write source token woken) = some line) (s : Side) :
    line.isDequeuing s = false := by
  obtain ⟨l', e, entry, -, same⟩ := l.line?_write pick who source token woken
  rw [same] at told
  cases entry <;> cases told <;> rfl

theorem not_taking_of_receive {side : Side} {r : ρ} {line : Line}
    (told : l.line? pick who (.receive side r) = some line) (s : Side) :
    line.isTaking s = false := by
  simp only [line?, Call.hold?, Endpoint.line?] at told
  cases answer : ((l.endpoint side).register pick r).2 with
  | given d =>
    obtain ⟨receiver, delivery⟩ := d
    rw [answer] at told
    cases delivery <;> cases told
    rfl
  | _ => rw [answer] at told; cases told

/-- Only a write reports that a message was taken, and only a registration that one left the
queue. -/
theorem line?_sorts (honest : c.isHonest = true) {line : Line}
    (told : l.line? pick who c = some line) (s : Side) :
    (c.isWrite = false → line.isTaking s = false) ∧
      (c.isReceive = false → line.isDequeuing s = false) := by
  cases c with
  | write =>
    refine ⟨fun other => ?_, fun _ => not_dequeuing_of_write told s⟩
    cases other
  | receive =>
    refine ⟨fun _ => not_taking_of_receive told s, fun other => ?_⟩
    cases other
  | shutDown source =>
    simp only [line?, Call.hold?, Endpoint.line?] at told
    split at told <;> cases told
    exact ⟨fun _ => rfl, fun _ => rfl⟩
  | report line' =>
    cases told
    have elsewhere : line.side? ≠ some s := by simp [Line.side?_of_isFromReceiver honest]
    obtain ⟨taking, dequeuing, -⟩ := Line.silent_of_side elsewhere
    exact ⟨fun _ => taking, fun _ => dequeuing⟩
  | interruptWake places => cases places <;> cases told
  | stream k c =>
    cases c with
    | hangUp r =>
      obtain ⟨m, -, rfl⟩ := Option.map_eq_some_iff.1 told
      exact ⟨fun _ => rfl, fun _ => rfl⟩
    | _ => cases told
  | closeReport | closeNotify =>
    cases told
    exact ⟨fun _ => rfl, fun _ => rfl⟩
  | _ => cases told

/-- A step of a write reports the message that was taken in it. The write then succeeds. -/
theorem taking_of_write (pick who : Nat) (source : Side) (token : Option Nat) (woken : Bool)
    (s : Side) :
    let lines := (l.line? pick who (.write source token woken)).toList
    match (l.step pick who (.write source token woken)).2 with
    | .done r => lines.countP (Line.isTaking s) = if source.other = s ∧ r.isOk then 1 else 0
    | .asleep c' => lines = [] ∧ c' = .write source token true
    | .more c' =>
      lines.countP (Line.isTaking s) = (if source.other = s then 1 else 0) ∧
        ∃ tasks reply, c' = .submit tasks (.ok reply) := by
  obtain ⟨l', e, entry, stepped, same⟩ := l.line?_write pick who source token woken
  simp only [step, stepped, same]
  cases entry with
  | refused why => simp [finishWrite, Entry.line?, Except.isOk, Except.toBool]
  | sleeps => simp [finishWrite, Entry.line?]
  | queued | handed r =>
    by_cases here : source.other = s <;>
      simp [finishWrite, Entry.line?, Line.isTaking, Except.isOk, Except.toBool, here]

/-- A registration reports the queued message that its receiver is given. -/
theorem dequeuing_of_receive (pick who : Nat) (side : Side) (r : ρ) (s : Side) :
    let lines := (l.line? pick who (.receive side r)).toList
    let given := (l.events pick who (.receive side r)).countP (Event.isGiving s)
    match (l.step pick who (.receive side r)).2 with
    | .done _ => lines.countP (Line.isDequeuing s) = 0 ∧ given = 0
    | .more c' =>
      lines.countP (Line.isDequeuing s) = given ∧ given ≤ 1 ∧
        ∃ tasks reply, c' = .submit tasks (.ok reply)
    | .asleep _ => False := by
  simp only [events, step, stepReceive, line?, Call.hold?, Endpoint.line?]
  cases ((l.endpoint side).register pick r).2 with
  | refused | waits => simp [Registration.line?, Event.isGiving]
  | given d =>
    obtain ⟨receiver, delivery⟩ := d
    by_cases here : side = s <;> cases delivery <;>
      simp [Registration.line?, Line.isDequeuing, Event.isGiving, dispatches, here]

end Link

/-- The course of the call `c` of the caller `who` to its result `r`, with the lines and the events
of its steps. Between two steps others change the link as they like. -/
inductive Call.Course {ρ η : Type} (who : Nat) (r : Result) :
    Call ρ η → List Line → List (Event ρ η) → Prop where
  | ends {l : Link ρ η} {pick : Nat} {c : Call ρ η} (done : (l.step pick who c).2 = .done r) :
      Course who r c (l.line? pick who c).toList (l.events pick who c)
  | goesOn {l : Link ρ η} {pick : Nat} {c c' : Call ρ η} {lines : List Line}
      {es : List (Event ρ η)} (onward : (l.step pick who c).2.next? = some c')
      (rest : Course who r c' lines es) :
      Course who r c ((l.line? pick who c).toList ++ lines) (l.events pick who c ++ es)

namespace Call.Course

variable {ρ η : Type} {who : Nat} {r : Result} {c : Call ρ η} {lines : List Line}
  {es : List (Event ρ η)}

/-- A call that hands over tasks was answered before, and has nothing to add. -/
theorem of_submit {tasks : List (Task ρ η)} {r' : Result}
    (course : Course who r (.submit tasks r') lines es) : r' = r ∧ lines = [] ∧ es = [] := by
  generalize started : Call.submit tasks r' = c at course
  induction course generalizing tasks with
  | ends done =>
    subst started
    rcases tasks with _ | ⟨t, _ | ⟨t', rest⟩⟩ <;> cases done <;> exact ⟨rfl, rfl, rfl⟩
  | goesOn onward rest ih =>
    subst started
    rcases tasks with _ | ⟨t, _ | ⟨t', more⟩⟩ <;> cases onward
    obtain ⟨same, silent, quiet⟩ := ih rfl
    exact ⟨same, by rw [silent]; rfl, by rw [quiet]; rfl⟩

/-- Lines that no stage of the call reports are not among those of its course. -/
theorem countP_eq_zero {q : Line → Bool} {P : Call ρ η → Prop}
    (kept : ∀ {c c'}, P c → c.Follows c' → P c')
    (silent : ∀ {l : Link ρ η} {pick c line}, P c → l.line? pick who c = some line →
      q line = false)
    (course : Course who r c lines es) (stage : P c) : lines.countP q = 0 := by
  have quiet : ∀ {l : Link ρ η} {pick : Nat} {c : Call ρ η}, P c →
      (l.line? pick who c).toList.countP q = 0 := by
    intro l pick c stage
    rw [List.countP_eq_zero]
    intro line told
    simp [silent stage (Option.mem_toList.1 told)]
  induction course with
  | ends done => exact quiet stage
  | goesOn onward rest ih =>
    rw [List.countP_append, quiet stage, ih (kept stage (Link.follows_step onward))]

/-- A write that succeeds reports once that its message was taken. -/
theorem taking_of_write {source : Side} {token : Option Nat} {woken : Bool}
    (course : Course who r (.write source token woken) lines es) (s : Side) :
    lines.countP (Line.isTaking s) = if source.other = s ∧ r.isOk then 1 else 0 := by
  -- Over the steps of the call: it sleeps any number of times and reports nothing meanwhile.
  generalize started : Call.write source token woken = c at course
  induction course generalizing woken with
  | @ends l pick c done =>
    subst started
    have taking := l.taking_of_write pick who source token woken s
    rwa [done] at taking
  | @goesOn l pick c c' lines es onward rest ih =>
    subst started
    have taking := l.taking_of_write pick who source token woken s
    rw [List.countP_append]
    cases outcome : (l.step pick who (.write source token woken)).2 with
    | done =>
      rw [outcome] at onward
      cases onward
    | asleep c'' =>
      rw [outcome] at taking onward
      obtain ⟨silent, rfl⟩ := taking
      cases onward
      rw [silent, ih rfl]
      exact Nat.zero_add _
    | more c'' =>
      rw [outcome] at taking onward
      obtain ⟨told, tasks, reply, rfl⟩ := taking
      cases onward
      -- The message was handed to a receiver, so the write succeeds once the task is handed over.
      obtain ⟨rfl, silent, -⟩ := of_submit rest
      simp [told, silent, Except.isOk, Except.toBool]

/-- A write that succeeds reports once that its message was taken, and no other call does. -/
theorem taking (course : Course who r c lines es) (honest : c.isHonest = true) (s : Side) :
    lines.countP (Line.isTaking s) = if c.writesTo s ∧ r.isOk then 1 else 0 := by
  cases other : c.isWrite with
  | true =>
    cases c with
    | write source token woken => simpa [writesTo] using course.taking_of_write s
    | _ => cases other
  | false =>
    have elsewhere : c.writesTo s = false := by
      cases c with
      | write => cases other
      | _ => rfl
    rw [elsewhere]
    refine (course.countP_eq_zero
      (P := fun c => c.isWrite = false ∧ c.isHonest = true) ?_ ?_ ⟨other, honest⟩).trans (by simp)
    · rintro c c' ⟨other, -⟩ follows
      exact ⟨follows.isWrite other, follows.isHonest⟩
    · rintro l pick c line ⟨other, honest⟩ told
      exact (Link.line?_sorts honest told s).1 other

/-- Nothing but a registration reports that a message left the queue. -/
theorem not_dequeuing (course : Course who r c lines es) (honest : c.isHonest = true)
    (other : c.isReceive = false) (s : Side) : lines.countP (Line.isDequeuing s) = 0 := by
  refine course.countP_eq_zero
    (P := fun c => c.isReceive = false ∧ c.isHonest = true) ?_ ?_ ⟨other, honest⟩
  · rintro c c' - follows
    exact ⟨follows.isReceive, follows.isHonest⟩
  · rintro l pick c line ⟨other, honest⟩ told
    exact (Link.line?_sorts honest told s).2 other

/-- A registration reports the queued message that its receiver is given, and fails without. -/
theorem dequeuing_of_receive {side : Side} {x : ρ}
    (course : Course who r (.receive side x) lines es) (s : Side) :
    lines.countP (Line.isDequeuing s) = es.countP (Event.isGiving s) ∧
      es.countP (Event.isGiving s) ≤ 1 ∧ (r.isOk = false → es.countP (Event.isGiving s) = 0) := by
  cases course with
  | @ends l pick c done =>
    have dequeuing := l.dequeuing_of_receive pick who side x s
    rw [done] at dequeuing
    obtain ⟨silent, nothing⟩ := dequeuing
    exact ⟨silent.trans nothing.symm, nothing ▸ Nat.zero_le 1, fun _ => nothing⟩
  | @goesOn l pick c c' lines es onward rest =>
    have dequeuing := l.dequeuing_of_receive pick who side x s
    cases outcome : (l.step pick who (.receive side x)).2 with
    | done => rw [outcome] at onward; cases onward
    | asleep => rw [outcome] at dequeuing; exact dequeuing.elim
    | more c'' =>
      rw [outcome] at dequeuing onward
      obtain ⟨same, once, tasks, reply, rfl⟩ := dequeuing
      cases onward
      obtain ⟨rfl, rfl, rfl⟩ := of_submit rest
      rw [List.append_nil, List.append_nil]
      exact ⟨same, once, nofun⟩

end Call.Course

end Loopback
