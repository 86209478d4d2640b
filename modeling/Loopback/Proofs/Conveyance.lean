import Loopback.Proofs.ByteFlow

/-!
# A payload goes through a pipe

A writer writes a payload, in any pieces, and closes the pipe; a reader reads, as much at a time as
it likes, until it is told the end (`Session.conveys`). However the two are interleaved, the reader
has then read the payload and nothing else. Nor can they go on for ever: each thing that happens
brings the two nearer to the end, except that a wakeup without a notification may cost one more step
(`Session.toDo`). And as long as the reader was not told the end, one of them can go on
(`Session.Conveying.goes_on`).
-/

namespace Loopback

/-- A reader that asked for some byte is told that there is none any more. -/
def PipeCall.isEnd (c : PipeCall) (outcome : Progress PipeCall Result) : Bool :=
  match c, outcome with
  | .read limit, .done (.ok (.bytes [])) => limit != 0
  | _, _ => false

namespace Pipe

variable {p : Pipe} {who : Nat}

/-- A write that is not empty sleeps or takes something, while both ends are open. -/
theorem write_goes_on {data : Bytes} (valid : p.ring.Valid) (some : data ≠ [])
    (whole : p.isBroken = false) :
    (p.step who (.write data)).2 = .asleep (.write data) ∨
      ∃ n, 0 < n ∧ n ≤ data.length ∧ (p.step who (.write data)).2 = .done (.ok (.count n)) := by
  have pour := pour_write valid who data
  simp only [step]
  generalize p.write who data = turn at pour ⊢
  obtain ⟨p', answer⟩ := turn
  cases pour with
  | nothing empty => exact absurd empty some
  | refused same broken =>
    rw [whole] at broken
    exact Bool.noConfusion broken
  | waits same full whole => exact .inl rfl
  | takes writer reader valid' more writer' reader' pos within => exact .inr ⟨_, pos, within, rfl⟩

/-- A read sleeps, or takes something, or tells the end, while the read end is open. -/
theorem read_goes_on {limit : Nat} (valid : p.ring.Valid) (some : limit ≠ 0)
    (opened : p.readerClosed = false) :
    (p.step who (.read limit)).2 = .asleep (.read limit) ∨
      (∃ data, data ≠ [] ∧ (p.step who (.read limit)).2 = .done (.ok (.bytes data))) ∨
      (p.writerClosed = true ∧ p.ring.contents = [] ∧
        (p.step who (.read limit)).2 = .done (.ok (.bytes []))) := by
  have draw := draw_read valid who limit
  simp only [step]
  generalize p.read who limit = turn at draw ⊢
  obtain ⟨p', answer⟩ := turn
  cases draw with
  | nothing none => exact absurd none some
  | refused same shut =>
    rw [opened] at shut
    exact Bool.noConfusion shut
  | waits same empty whole => exact .inl rfl
  | front reader some valid' rest => exact .inr (.inl ⟨_, some, rfl⟩)
  | final reader empty shut same => exact .inr (.inr ⟨shut, empty, rfl⟩)

end Pipe

namespace Session

/-- How far the end is from being asleep: idle, in a call and awake, asleep. -/
def rank {σ κ : Type} [TwoEnded σ κ] (e : PipeEnd) (s : Session σ κ) : Nat :=
  match s.calls e with
  | none => 2
  | some _ => if TwoEnded.isAsleep e s.state then 0 else 1

/-- The reader was told the end. -/
def toldEnd (xs : List (Step Pipe PipeCall)) : Bool := xs.any fun x => x.stage.isEnd x.outcome

/-- What the two ends may begin to get the payload across, after the history `h`: the writer writes
some of what is left, and closes once when nothing is; the reader reads until it is told the end. -/
def conveys (payload : Bytes) (h : List (Event Pipe PipeCall)) : PipeEnd → PipeCall → Bool
  | .writer, .write data =>
      !data.isEmpty && data.isPrefixOf (payload.drop (written (steps h)).length)
  | .writer, .closeWriter => written (steps h) == payload && !hungUp (steps h)
  | .reader, .read limit => limit != 0 && !toldEnd (steps h)
  | _, _ => false

/-- The begun calls and the steps of a history. -/
def effort {σ κ : Type} (h : List (Event σ κ)) : Nat := h.countP (!·.isRousing)

/-- The wakeups without a notification. -/
def rousings {σ κ : Type} (h : List (Event σ κ)) : Nat := h.countP Event.isRousing

theorem effort_concat {σ κ : Type} (h : List (Event σ κ)) (ev : Event σ κ) :
    effort (h ++ [ev]) = effort h + if ev.isRousing then 0 else 1 := by
  cases ev <;> simp [effort, Event.isRousing]

theorem rousings_concat {σ κ : Type} (h : List (Event σ κ)) (ev : Event σ κ) :
    rousings (h ++ [ev]) = rousings h + if ev.isRousing then 1 else 0 := by
  cases ev <;> simp [rousings, Event.isRousing]

/-- A bound on the begun calls and the steps that are still to come. -/
def toDo (payload : Bytes) (xs : List (Step Pipe PipeCall)) (s : Session Pipe PipeCall) : Nat :=
  3 * (payload.length - (written xs).length) + 3 * (payload.length - (taken xs).length) +
    (if hungUp xs then 0 else 3) + (if toldEnd xs then 0 else 3) +
    (s.rank .writer + s.rank .reader)

/-- What is left to do with the payload when `w` was written and `t` taken of it. -/
def leftOver (payload w t : Bytes) (hung told : Bool) : Nat :=
  3 * (payload.length - w.length) + 3 * (payload.length - t.length) + (if hung then 0 else 3) +
    (if told then 0 else 3)

/-- The payload counts three times, so that each piece of it makes up for two ends that are idle or
awake again. -/
theorem toDo_eq (payload : Bytes) (xs : List (Step Pipe PipeCall)) (s : Session Pipe PipeCall) :
    toDo payload xs s = leftOver payload (written xs) (taken xs) (hungUp xs) (toldEnd xs) +
      (s.rank .writer + s.rank .reader) := rfl

/-- The payload is on its way: `w` was written and `t` was taken of it, and the calls in progress
are those that `conveys` allows. -/
structure Underway (payload w t : Bytes) (hung told : Bool)
    (calls : PipeEnd → Option (Ongoing PipeCall)) : Prop where
  onward : w <+: payload
  writing : ∀ o, calls .writer = some o → hung = false ∧
    ((∃ data, o.stage = .write data ∧ data ≠ [] ∧ data <+: payload.drop w.length) ∨
      (o.stage = .closeWriter ∧ w = payload))
  reading : ∀ o, calls .reader = some o →
    told = false ∧ ∃ limit, o.stage = .read limit ∧ limit ≠ 0
  shut : hung = true → w = payload
  ended : told = true → hung = true ∧ w = t

/-- A session at which nothing but the payload went through the pipe. -/
structure Conveying (payload : Bytes) (capacity : Nat) (xs : List (Step Pipe PipeCall))
    (s : Session Pipe PipeCall) : Prop where
  carries : Carries capacity xs s
  opened : s.state.readerClosed = false
  underway : Underway payload (written xs) (taken xs) (hungUp xs) (toldEnd xs) s.calls

variable {payload : Bytes} {capacity : Nat} {xs : List (Step Pipe PipeCall)}
  {s : Session Pipe PipeCall}

theorem conveying_create (payload : Bytes) (capacity : Nat) :
    Conveying payload capacity [] (create (Pipe.create capacity)) := by
  refine ⟨carries_create capacity, rfl, List.nil_prefix, ?_, ?_, ?_, ?_⟩
  · rintro o ⟨⟩
  · rintro o ⟨⟩
  · rintro ⟨⟩
  · rintro ⟨⟩

theorem Conveying.taken_le (conveying : Conveying payload capacity xs s) :
    (taken xs).length ≤ payload.length := by
  have flow := conveying.carries.flow conveying.opened
  have all := conveying.underway.onward.length_le
  rw [flow, List.length_append] at all
  omega

/-! ## What may happen to the payload -/

namespace Underway

variable {w t data : Bytes} {hung told : Bool} {calls calls' : PipeEnd → Option (Ongoing PipeCall)}

/-- The writer gets a piece of what is left across, and is idle then. -/
theorem wrote (h : Underway payload w t hung told calls) (opened : hung = false)
    (piece : data <+: payload.drop w.length) (n : Nat) (idle : calls' .writer = none)
    (other : calls' .reader = calls .reader) :
    Underway payload (w ++ data.take n) t hung told calls' where
  onward := by
    obtain ⟨rest, rfl⟩ := h.onward
    rw [List.drop_left] at piece
    rw [List.prefix_append_right_inj]
    exact (List.take_prefix n data).trans piece
  writing o now := absurd (now.symm.trans idle) (Option.some_ne_none _)
  reading o now := h.reading o (other ▸ now)
  shut shut := by
    rw [opened] at shut
    exact Bool.noConfusion shut
  ended told := by
    -- Nobody is told the end before the writer has closed.
    have shut := (h.ended told).1
    rw [opened] at shut
    exact Bool.noConfusion shut

/-- The writer closes when everything is written. -/
theorem closed (h : Underway payload w t hung told calls) (opened : hung = false)
    (all : w = payload) (idle : calls' .writer = none) (other : calls' .reader = calls .reader) :
    Underway payload w t true told calls' where
  onward := h.onward
  writing _ now := absurd (now.symm.trans idle) (Option.some_ne_none _)
  reading o now := h.reading o (other ▸ now)
  shut _ := all
  ended told := by
    have shut := (h.ended told).1
    rw [opened] at shut
    exact Bool.noConfusion shut

/-- The reader gets some bytes. -/
theorem drew (h : Underway payload w t hung told calls) (untold : told = false) (data : Bytes)
    (idle : calls' .reader = none) (other : calls' .writer = calls .writer) :
    Underway payload w (t ++ data) hung told calls' where
  onward := h.onward
  writing o now := h.writing o (other ▸ now)
  reading o now := absurd (now.symm.trans idle) (Option.some_ne_none _)
  shut := h.shut
  ended told := by
    rw [untold] at told
    exact Bool.noConfusion told

/-- The reader is told the end. -/
theorem finished (h : Underway payload w t hung told calls) (shut : hung = true) (all : w = t)
    (idle : calls' .reader = none) (other : calls' .writer = calls .writer) :
    Underway payload w t hung true calls' where
  onward := h.onward
  writing o now := h.writing o (other ▸ now)
  reading _ now := absurd (now.symm.trans idle) (Option.some_ne_none _)
  shut := h.shut
  ended _ := ⟨shut, all⟩

/-- The writer begins a call. -/
theorem writes (h : Underway payload w t hung told calls) (opened : hung = false)
    {c : PipeCall} (next : (∃ data, c = .write data ∧ data ≠ [] ∧ data <+: payload.drop w.length) ∨
      (c = .closeWriter ∧ w = payload)) (new : calls' .writer = some ⟨c, c⟩)
    (other : calls' .reader = calls .reader) : Underway payload w t hung told calls' where
  onward := h.onward
  writing _ now := by
    cases new.symm.trans now
    exact ⟨opened, next⟩
  reading o now := h.reading o (other ▸ now)
  shut := h.shut
  ended := h.ended

/-- The reader begins a call. -/
theorem reads (h : Underway payload w t hung told calls) (untold : told = false) {limit : Nat}
    (asks : limit ≠ 0) (new : calls' .reader = some ⟨.read limit, .read limit⟩)
    (other : calls' .writer = calls .writer) : Underway payload w t hung told calls' where
  onward := h.onward
  writing o now := h.writing o (other ▸ now)
  reading o now := by
    cases new.symm.trans now
    exact ⟨untold, limit, rfl, asks⟩
  shut := h.shut
  ended := h.ended

end Underway

/-! ## Ranks -/

theorem rank_of_idle {e : PipeEnd} (idle : s.calls e = none) : s.rank e = 2 := by
  simp [rank, idle]

theorem rank_of_awake {e : PipeEnd} {o : Ongoing PipeCall} (now : s.calls e = some o)
    (awake : TwoEnded.isAsleep e s.state = false) : s.rank e = 1 := by
  simp [rank, now, awake]

theorem rank_of_asleep {e : PipeEnd} {o : Ongoing PipeCall} (now : s.calls e = some o)
    (asleep : TwoEnded.isAsleep e s.state = true) : s.rank e = 0 := by
  simp [rank, now, asleep]

theorem rank_le_one {e : PipeEnd} {o : Ongoing PipeCall} (now : s.calls e = some o) :
    s.rank e ≤ 1 := by
  unfold rank
  rw [now]
  simp only
  split <;> omega

theorem rank_congr {s' : Session Pipe PipeCall} {e : PipeEnd} (calls : s'.calls e = s.calls e)
    (state : s'.state = s.state) : s'.rank e = s.rank e := by
  rw [rank, rank, calls, state]

/-- An end that is in a call after a change of the other end was in it before. -/
theorem rank_le_succ {s' : Session Pipe PipeCall} {e : PipeEnd} (same : s'.calls e = s.calls e) :
    s'.rank e ≤ s.rank e + 1 := by
  unfold rank
  rw [same]
  repeat' split
  all_goals omega

/-- An end that slept before a change of the other end, and sleeps after it. -/
theorem rank_le_of_asleep {s' : Session Pipe PipeCall} {e : PipeEnd}
    (same : s'.calls e = s.calls e)
    (asleep : TwoEnded.isAsleep e s.state = true → TwoEnded.isAsleep e s'.state = true) :
    s'.rank e ≤ s.rank e := by
  unfold rank
  rw [same]
  split
  · exact Nat.le_refl 2
  · split
    · exact Nat.zero_le _
    · next awake =>
      have awake' : ¬ TwoEnded.isAsleep e s.state = true := fun slept => awake (asleep slept)
      exact Nat.le_of_eq (if_neg awake').symm

theorem ranks_eq (e : PipeEnd) (s : Session Pipe PipeCall) :
    s.rank .writer + s.rank .reader = s.rank e + s.rank e.other := by
  cases e with
  | writer => rfl
  | reader => exact Nat.add_comm _ _

section Stepped

variable {e : PipeEnd} {begun stage : PipeCall} {x : Step Pipe PipeCall}
  {s' : Session Pipe PipeCall}

section Any

variable (now : s.calls e = some ⟨begun, stage⟩) (awake : TwoEnded.isAsleep e s.state = false)
  (hx : x = ⟨e, begun, stage, s.state⟩) (later : s' = s.after (.stepped x))

include now awake hx later

/-- A step that ends in sleep lowers the rank of its end and leaves the other alone. -/
theorem Carries.ranks_of_asleep (carries : Carries capacity xs s)
    (asleep : x.outcome = .asleep stage) :
    s'.calls = s.calls ∧
      s'.rank .writer + s'.rank .reader + 1 ≤ s.rank .writer + s.rank .reader := by
  subst hx later
  have stirs := Pipe.stirs_step (c := stage) carries.valid (carries.placed e _ now)
  rw [show (s.state.step e.caller stage).2 = .asleep stage from asleep] at stirs
  have own := s.calls_stepped_self ⟨e, begun, stage, s.state⟩
  have other := s.calls_stepped_of_ne (x := ⟨e, begun, stage, s.state⟩) e.other_ne
  rw [asleep] at own
  cases stirs with
  | sleeps slept same =>
    -- The own rank falls from one to zero, and nobody at the other end wakes.
    have mine : (s.after (.stepped ⟨e, begun, stage, s.state⟩)).rank e = 0 := by
      refine rank_of_asleep own (Pipe.isAsleep_iff.2 ⟨e, ?_⟩)
      exact slept ▸ List.mem_append_right _ (List.mem_singleton.2 rfl)
    have theirs : (s.after (.stepped ⟨e, begun, stage, s.state⟩)).rank e.other ≤
        s.rank e.other := by
      apply rank_le_of_asleep other
      intro slept'
      exact Pipe.isAsleep_iff.2 ⟨e.other, same ▸ carries.justified.mem_sleepers slept'⟩
    have before := rank_of_awake now awake
    constructor
    · funext e'
      rcases e.eq_or_eq_other e' with rfl | rfl
      · exact own.trans now.symm
      · exact other
    · rw [ranks_eq e, ranks_eq e]
      omega

/-- A step that ends the call makes its end idle, and may wake the other. -/
theorem ranks_of_done {r : Result} (done : x.outcome = .done r) :
    s'.calls e = none ∧ s'.calls e.other = s.calls e.other ∧
      s'.rank .writer + s'.rank .reader ≤ s.rank .writer + s.rank .reader + 2 := by
  subst hx later
  have own := s.calls_stepped_self ⟨e, begun, stage, s.state⟩
  have other := s.calls_stepped_of_ne (x := ⟨e, begun, stage, s.state⟩) e.other_ne
  rw [done] at own
  have mine : (s.after (.stepped ⟨e, begun, stage, s.state⟩)).rank e = 2 := rank_of_idle own
  have theirs := rank_le_succ other
  have before := rank_of_awake now awake
  refine ⟨own, other, ?_⟩
  rw [ranks_eq e, ranks_eq e]
  omega

/-- What the session carries, and that its read end stays open. -/
theorem Conveying.carries_stepped (conveying : Conveying payload capacity xs s)
    (stays : (stage == .closeReader) = false) :
    Carries capacity (xs ++ [x]) s' ∧ s'.state.readerClosed = false := by
  subst hx later
  have kept := Pipe.conserves_step conveying.carries.valid e.caller stage
  refine ⟨conveying.carries.stepped now awake, kept.reader.trans ?_⟩
  rw [conveying.opened, stays]
  rfl

omit now awake later in
variable (xs) in
/-- What a step adds to what was written and taken, as its outcome tells. -/
theorem readings_stepped {o : Progress PipeCall Result} (outcome : x.outcome = o) :
    written (xs ++ [x]) = written xs ++ stage.accepted o ∧
      taken (xs ++ [x]) = taken xs ++ stage.consumed s.state o ∧
      hungUp (xs ++ [x]) = (hungUp xs || stage == .closeWriter) ∧
      toldEnd (xs ++ [x]) = (toldEnd xs || stage.isEnd o) := by
  subst hx outcome
  refine ⟨written_concat .., taken_concat .., hungUp_concat .., ?_⟩
  simp [toldEnd]

/-- A step that ends in sleep leaves the payload where it is. -/
theorem Conveying.slept (conveying : Conveying payload capacity xs s)
    (asleep : x.outcome = .asleep stage) (stays : (stage == .closeWriter) = false)
    (stays' : (stage == .closeReader) = false) :
    Conveying payload capacity (xs ++ [x]) s' ∧
      toDo payload (xs ++ [x]) s' + 1 ≤ toDo payload xs s := by
  obtain ⟨calls, ranks⟩ := conveying.carries.ranks_of_asleep now awake hx later asleep
  obtain ⟨w, t, hung, told⟩ := readings_stepped xs hx asleep
  have quiet : stage.accepted (.asleep stage) = [] ∧
      stage.consumed s.state (.asleep stage) = [] ∧ stage.isEnd (.asleep stage) = false := by
    cases stage <;> exact ⟨rfl, rfl, rfl⟩
  rw [quiet.1, List.append_nil] at w
  rw [quiet.2.1, List.append_nil] at t
  rw [stays, Bool.or_false] at hung
  rw [quiet.2.2, Bool.or_false] at told
  constructor
  · obtain ⟨carries, opened⟩ := conveying.carries_stepped now awake hx later stays'
    refine ⟨carries, opened, ?_⟩
    rw [w, t, hung, told, calls]
    exact conveying.underway
  · rw [toDo_eq, toDo_eq, w, t, hung, told]
    omega

/-- A step that answers its call keeps the payload on its way, when the answer does. It brings the
payload nearer to the end when the answer makes up for the end that is idle now, and for the other
one, which may have woken. -/
theorem Conveying.answered (conveying : Conveying payload capacity xs s) {r : Result}
    (done : x.outcome = .done r) (stays : (stage == .closeReader) = false) {w t : Bytes}
    {hung told : Bool}
    (readings : written (xs ++ [x]) = w ∧ taken (xs ++ [x]) = t ∧ hungUp (xs ++ [x]) = hung ∧
      toldEnd (xs ++ [x]) = told)
    (underway : ∀ calls', calls' e = none → calls' e.other = s.calls e.other →
      Underway payload w t hung told calls')
    (nearer : t.length ≤ payload.length → leftOver payload w t hung told + 3 ≤
      leftOver payload (written xs) (taken xs) (hungUp xs) (toldEnd xs)) :
    Conveying payload capacity (xs ++ [x]) s' ∧
      toDo payload (xs ++ [x]) s' + 1 ≤ toDo payload xs s := by
  obtain ⟨rfl, rfl, rfl, rfl⟩ := readings
  obtain ⟨idle, other, ranks⟩ := ranks_of_done now awake hx later done
  obtain ⟨carries, opened⟩ := conveying.carries_stepped now awake hx later stays
  have after : Conveying payload capacity (xs ++ [x]) s' :=
    ⟨carries, opened, underway s'.calls idle other⟩
  have less := nearer after.taken_le
  refine ⟨after, ?_⟩
  rw [toDo_eq, toDo_eq]
  omega

end Any

/-- A step of a write: the writer sleeps, or the pipe accepts some of the payload. -/
theorem Conveying.stepped_write {data : Bytes} (conveying : Conveying payload capacity xs s)
    (now : s.calls .writer = some ⟨begun, .write data⟩)
    (awake : TwoEnded.isAsleep PipeEnd.writer s.state = false) (opened : hungUp xs = false)
    (some : data ≠ []) (piece : data <+: payload.drop (written xs).length)
    (hx : x = ⟨.writer, begun, .write data, s.state⟩) (later : s' = s.after (.stepped x)) :
    Conveying payload capacity (xs ++ [x]) s' ∧
      toDo payload (xs ++ [x]) s' + 1 ≤ toDo payload xs s := by
  have whole : s.state.isBroken = false := by
    rw [Pipe.isBroken, conveying.carries.writer, opened, conveying.opened]
    rfl
  rcases Pipe.write_goes_on conveying.carries.valid some whole with asleep | ⟨n, pos, within, done⟩
  · exact conveying.slept now awake hx later (hx ▸ asleep) rfl rfl
  · have outcome : x.outcome = .done (.ok (.count n)) := hx ▸ done
    obtain ⟨w, t, hung, told⟩ : written (xs ++ [x]) = written xs ++ data.take n ∧
        taken (xs ++ [x]) = taken xs ++ [] ∧ hungUp (xs ++ [x]) = (hungUp xs || false) ∧
        toldEnd (xs ++ [x]) = (toldEnd xs || false) := readings_stepped xs hx outcome
    rw [List.append_nil] at t
    rw [Bool.or_false] at hung told
    apply conveying.answered now awake hx later outcome rfl ⟨w, t, hung, told⟩
    · intro calls' idle other
      exact conveying.underway.wrote opened piece n idle other
    · intro _
      have room := piece.length_le
      have length : (data.take n).length = n := List.length_take_of_le within
      rw [List.length_drop] at room
      rw [leftOver, leftOver, List.length_append, length]
      omega

/-- A step of the close: the writer has written everything. -/
theorem Conveying.stepped_close (conveying : Conveying payload capacity xs s)
    (now : s.calls .writer = some ⟨begun, .closeWriter⟩)
    (awake : TwoEnded.isAsleep PipeEnd.writer s.state = false) (opened : hungUp xs = false)
    (all : written xs = payload) (hx : x = ⟨.writer, begun, .closeWriter, s.state⟩)
    (later : s' = s.after (.stepped x)) :
    Conveying payload capacity (xs ++ [x]) s' ∧
      toDo payload (xs ++ [x]) s' + 1 ≤ toDo payload xs s := by
  have outcome : x.outcome = .done (.ok .unit) := by rw [hx]; rfl
  obtain ⟨w, t, hung, told⟩ : written (xs ++ [x]) = written xs ++ [] ∧
      taken (xs ++ [x]) = taken xs ++ [] ∧ hungUp (xs ++ [x]) = (hungUp xs || true) ∧
      toldEnd (xs ++ [x]) = (toldEnd xs || false) := readings_stepped xs hx outcome
  rw [List.append_nil] at w t
  rw [Bool.or_true] at hung
  rw [Bool.or_false] at told
  apply conveying.answered now awake hx later outcome rfl ⟨w, t, hung, told⟩
  · intro calls' idle other
    exact conveying.underway.closed opened all idle other
  · intro _
    rw [leftOver, leftOver, opened, if_pos rfl, if_neg Bool.false_ne_true]
    omega

/-- A step of a read: the reader sleeps, or gets some bytes, or is told the end. -/
theorem Conveying.stepped_read {limit : Nat} (conveying : Conveying payload capacity xs s)
    (now : s.calls .reader = some ⟨begun, .read limit⟩)
    (awake : TwoEnded.isAsleep PipeEnd.reader s.state = false) (untold : toldEnd xs = false)
    (asks : limit ≠ 0) (hx : x = ⟨.reader, begun, .read limit, s.state⟩)
    (later : s' = s.after (.stepped x)) :
    Conveying payload capacity (xs ++ [x]) s' ∧
      toDo payload (xs ++ [x]) s' + 1 ≤ toDo payload xs s := by
  rcases Pipe.read_goes_on conveying.carries.valid asks conveying.opened with
    asleep | ⟨data, some, done⟩ | ⟨shut, empty, done⟩
  · exact conveying.slept now awake hx later (hx ▸ asleep) rfl rfl
  · have outcome : x.outcome = .done (.ok (.bytes data)) := hx ▸ done
    have more : (PipeCall.read limit).isEnd (.done (.ok (.bytes data))) = false := by
      cases data with
      | nil => exact absurd rfl some
      | cons first rest => rfl
    obtain ⟨w, t, hung, told⟩ : written (xs ++ [x]) = written xs ++ [] ∧
        taken (xs ++ [x]) = taken xs ++ data ∧ hungUp (xs ++ [x]) = (hungUp xs || false) ∧
        toldEnd (xs ++ [x]) = (toldEnd xs || _) := readings_stepped xs hx outcome
    rw [List.append_nil] at w
    rw [Bool.or_false] at hung
    rw [more, Bool.or_false] at told
    apply conveying.answered now awake hx later outcome rfl ⟨w, t, hung, told⟩
    · intro calls' idle other
      exact conveying.underway.drew untold data idle other
    · intro room
      have pos := List.length_pos_iff.2 some
      rw [List.length_append] at room
      rw [leftOver, leftOver, List.length_append]
      omega
  · have outcome : x.outcome = .done (.ok (.bytes [])) := hx ▸ done
    obtain ⟨w, t, hung, told⟩ : written (xs ++ [x]) = written xs ++ [] ∧
        taken (xs ++ [x]) = taken xs ++ [] ∧ hungUp (xs ++ [x]) = (hungUp xs || false) ∧
        toldEnd (xs ++ [x]) = (toldEnd xs || limit != 0) := readings_stepped xs hx outcome
    rw [List.append_nil] at w t
    rw [Bool.or_false] at hung
    rw [bne_iff_ne.2 asks, Bool.or_true] at told
    -- The write end is closed and nothing is queued, so the reader has all that was written.
    have closed : hungUp xs = true := conveying.carries.writer.symm.trans shut
    have all := conveying.carries.flow conveying.opened
    rw [empty, List.append_nil] at all
    apply conveying.answered now awake hx later outcome rfl ⟨w, t, hung, told⟩
    · intro calls' idle other
      exact conveying.underway.finished closed all idle other
    · intro _
      -- That the reader is told the end counts three.
      rw [untold]
      exact Nat.le_refl _

/-- Every step brings the payload nearer to the end. -/
theorem Conveying.stepped (conveying : Conveying payload capacity xs s)
    (now : s.calls e = some ⟨begun, stage⟩) (awake : TwoEnded.isAsleep e s.state = false)
    (hx : x = ⟨e, begun, stage, s.state⟩) (later : s' = s.after (.stepped x)) :
    Conveying payload capacity (xs ++ [x]) s' ∧
      toDo payload (xs ++ [x]) s' + 1 ≤ toDo payload xs s := by
  cases e with
  | writer =>
    obtain ⟨opened, ⟨data, same, some, piece⟩ | ⟨same, all⟩⟩ := conveying.underway.writing _ now
    · cases same
      exact conveying.stepped_write now awake opened some piece hx later
    · cases same
      exact conveying.stepped_close now awake opened all hx later
  | reader =>
    obtain ⟨untold, limit, same, asks⟩ := conveying.underway.reading _ now
    cases same
    exact conveying.stepped_read now awake untold asks hx later

end Stepped

variable {h : List (Event Pipe PipeCall)}

/-- A call that is allowed keeps the payload on its way. -/
theorem Conveying.began (conveying : Conveying payload capacity (steps h) s) {e : PipeEnd}
    {c : PipeCall} (idle : s.calls e = none) (on : c.madeOn = e)
    (allowed : conveys payload h e c = true) :
    Conveying payload capacity (steps h) (s.after (.began e c)) ∧
      toDo payload (steps h) (s.after (.began e c)) + 1 ≤ toDo payload (steps h) s := by
  have own := s.calls_began_self (e := e) c
  have other := s.calls_began_of_ne e.other_ne c
  constructor
  · refine ⟨conveying.carries.began on, conveying.opened, ?_⟩
    cases e with
    | writer =>
      cases c with
      | write data =>
        simp only [conveys, Bool.and_eq_true, Bool.not_eq_true', List.isEmpty_eq_false_iff,
          List.isPrefixOf_iff_prefix] at allowed
        obtain ⟨some, piece⟩ := allowed
        have opened : hungUp (steps h) = false := by
          apply Bool.eq_false_iff.2
          intro shut
          -- Behind a payload that is written nothing is left to write.
          rw [conveying.underway.shut shut, List.drop_length] at piece
          exact some (List.prefix_nil.1 piece)
        exact conveying.underway.writes opened (.inl ⟨data, rfl, some, piece⟩) own other
      | closeWriter =>
        simp only [conveys, Bool.and_eq_true, beq_iff_eq, Bool.not_eq_true'] at allowed
        exact conveying.underway.writes allowed.2 (.inr ⟨rfl, allowed.1⟩) own other
      | _ => cases allowed
    | reader =>
      cases c with
      | read limit =>
        simp only [conveys, Bool.and_eq_true, bne_iff_ne, Bool.not_eq_true'] at allowed
        exact conveying.underway.reads allowed.2 allowed.1 own other
      | _ => cases allowed
  · have mine := rank_le_one own
    have before := rank_of_idle idle
    have theirs := rank_congr other (s := s) rfl
    rw [toDo, toDo, ranks_eq e, ranks_eq e]
    omega

/-- A wakeup without a notification costs at most one more step. -/
theorem Conveying.roused (conveying : Conveying payload capacity (steps h) s) (e : PipeEnd) :
    Conveying payload capacity (steps h) (s.after (.roused e)) ∧
      toDo payload (steps h) (s.after (.roused e)) ≤ toDo payload (steps h) s + 1 := by
  constructor
  · exact ⟨conveying.carries.roused e, conveying.opened, conveying.underway⟩
  · have mine : (s.after (.roused e)).rank e ≤ s.rank e + 1 := rank_le_succ rfl
    have theirs : (s.after (.roused e)).rank e.other ≤ s.rank e.other := by
      refine rank_le_of_asleep rfl ?_
      intro asleep
      refine Pipe.isAsleep_iff.2 ⟨e.other, ?_⟩
      have apart : e.other.caller ≠ e.caller := fun same => e.other_ne (PipeEnd.caller_inj same)
      exact (Pipe.mem_sleepers_rouse apart).2 (conveying.carries.justified.mem_sleepers asleep)
    rw [toDo, toDo, ranks_eq e, ranks_eq e]
    omega

/-- However the two ends are interleaved, the payload stays on its way, and the begun calls and
steps are bounded. -/
theorem conveying_run (payload : Bytes) (capacity : Nat) (schedule : List (Move PipeCall)) :
    keeps (conveys payload) [] ((create (Pipe.create capacity)).history schedule) = true →
      Conveying payload capacity (steps ((create (Pipe.create capacity)).history schedule))
        ((create (Pipe.create capacity)).run schedule) ∧
      effort ((create (Pipe.create capacity)).history schedule) +
          toDo payload (steps ((create (Pipe.create capacity)).history schedule))
            ((create (Pipe.create capacity)).run schedule) ≤
        6 * payload.length + 10 +
          rousings ((create (Pipe.create capacity)).history schedule) := by
  refine run_induction
    (P := fun h s => keeps (conveys payload) [] h = true →
      Conveying payload capacity (steps h) s ∧
        effort h + toDo payload (steps h) s ≤ 6 * payload.length + 10 + rousings h) ?_ ?_ schedule
  · intro _
    refine ⟨conveying_create payload capacity, ?_⟩
    show 0 + (3 * (payload.length - 0) + 3 * (payload.length - 0) + 3 + 3 + (2 + 2)) ≤
      6 * payload.length + 10 + 0
    omega
  · intro h s ev before can kept
    rw [keeps_concat, Bool.and_eq_true] at kept
    obtain ⟨conveying, bound⟩ := before kept.1
    rw [effort_concat, rousings_concat]
    cases can with
    | @begins e c idle may =>
      obtain ⟨later, less⟩ := conveying.began idle (eq_of_beq may) kept.2
      rw [steps_began]
      refine ⟨later, ?_⟩
      simp only [Event.isRousing, Bool.false_eq_true, if_false]
      omega
    | @steps e begun stage now awake =>
      obtain ⟨later, less⟩ := conveying.stepped now awake rfl rfl
      rw [steps_stepped]
      refine ⟨later, ?_⟩
      simp only [Event.isRousing, Bool.false_eq_true, if_false]
      omega
    | @rouses e asleep =>
      obtain ⟨later, less⟩ := conveying.roused e
      rw [steps_roused]
      refine ⟨later, ?_⟩
      simp only [Event.isRousing, if_true]
      omega

/-- What a writer may do that is not asleep. -/
theorem Conveying.writer_goes_on (conveying : Conveying payload capacity (steps h) s)
    (opened : hungUp (steps h) = false) (awake : TwoEnded.isAsleep PipeEnd.writer s.state = false) :
    ∃ ev, s.Can ev ∧ ev.isRousing = false ∧ ev.isAllowed (conveys payload) h = true := by
  cases now : s.calls .writer with
  | some o => exact ⟨_, .steps now awake, rfl, rfl⟩
  | none =>
    by_cases all : written (steps h) = payload
    · refine ⟨.began .writer .closeWriter, .begins now rfl, rfl, ?_⟩
      simp [Event.isAllowed, conveys, all, opened]
    · refine ⟨.began .writer (.write (payload.drop (written (steps h)).length)), .begins now rfl,
        rfl, ?_⟩
      have some : payload.drop (written (steps h)).length ≠ [] := by
        intro none
        -- Nothing is left, so what was written is all of the payload.
        have length := List.drop_eq_nil_iff.1 none
        exact all (conveying.underway.onward.eq_of_length_le length)
      simp [Event.isAllowed, conveys, some]

/-- As long as the reader was not told the end, a call that is allowed can begin or a call can take
a step. -/
theorem Conveying.goes_on (conveying : Conveying payload capacity (steps h) s)
    (untold : toldEnd (steps h) = false) :
    ∃ ev, s.Can ev ∧ ev.isRousing = false ∧ ev.isAllowed (conveys payload) h = true := by
  cases now : s.calls .reader with
  | none =>
    refine ⟨.began .reader (.read 1), .begins now rfl, rfl, ?_⟩
    simp [Event.isAllowed, conveys, untold]
  | some o =>
    cases asleep : TwoEnded.isAsleep PipeEnd.reader s.state with
    | false => exact ⟨_, .steps now asleep, rfl, rfl⟩
    | true =>
      -- The reader found nothing, so the writer has not closed and finds room.
      have waits := conveying.carries.justified.holdsUp asleep
      simp only [Pipe.holdsUp, Pipe.isBroken, Bool.and_eq_true, Bool.not_eq_true',
        Bool.or_eq_false_iff] at waits
      obtain ⟨⟨opened, -⟩, empty⟩ := waits
      have opened' : hungUp (steps h) = false := conveying.carries.writer.symm.trans opened
      refine conveying.writer_goes_on opened' (Bool.eq_false_iff.2 ?_)
      intro asleep'
      have full := conveying.carries.justified.holdsUp asleep'
      have pos := conveying.carries.valid.capacity_pos
      have length : s.state.ring.len = 0 := eq_of_beq empty
      simp only [Pipe.holdsUp, Bool.and_eq_true, beq_iff_eq, Ring.remaining, length] at full
      omega

/-- A pipe carries what is written, for every capacity and however the calls at its two ends are
interleaved. While the read end is open, what was written is what was taken followed by what is
queued, which is never more than the capacity; and every answer is in keeping with that. Hence a
payload that is written in any pieces and then closed is what a reader has read who reads until it
is told the end: the two can go on until then, and each wakeup without a notification apart, only a
bounded number of calls and steps takes them there. -/
theorem carries_what_was_written (capacity : Nat) :
    (∀ schedule : List (Move PipeCall),
      let s := (create (Pipe.create capacity)).run schedule
      let xs := steps ((create (Pipe.create capacity)).history schedule)
      (s.state.readerClosed = false →
        written xs = taken xs ++ s.state.ring.contents ∧
          s.state.available = .ok s.state.ring.contents.length) ∧
      s.state.ring.contents.length ≤ max capacity 1 ∧
      ∀ e x, s.next? e = some x → x.Honest xs) ∧
    ∀ (payload : Bytes) (schedule : List (Move PipeCall)),
      let s := (create (Pipe.create capacity)).run schedule
      let h := (create (Pipe.create capacity)).history schedule
      keeps (conveys payload) [] h = true →
        effort h ≤ 6 * payload.length + 10 + rousings h ∧
        (toldEnd (steps h) = true → taken (steps h) = payload) ∧
        (toldEnd (steps h) = false →
          ∃ mv ev, s.event? mv = some ev ∧ ev.isRousing = false ∧
            ev.isAllowed (conveys payload) h = true) := by
  constructor
  · intro schedule s xs
    have carries : Carries capacity xs s := carries_run capacity schedule
    refine ⟨?_, ?_, ?_⟩
    · intro opened
      refine ⟨carries.flow opened, ?_⟩
      rw [Pipe.available, if_neg (Bool.eq_false_iff.1 opened), Ring.length_contents carries.valid]
    · rw [Ring.length_contents carries.valid, ← carries.size]
      exact carries.valid.len_le
    · intro e x next
      exact carries.honest next
  · intro payload schedule s h kept
    obtain ⟨conveying, bound⟩ : Conveying payload capacity (steps h) s ∧
        effort h + toDo payload (steps h) s ≤ 6 * payload.length + 10 + rousings h :=
      conveying_run payload capacity schedule kept
    refine ⟨by omega, ?_, ?_⟩
    · intro told
      obtain ⟨shut, all⟩ := conveying.underway.ended told
      exact all.symm.trans (conveying.underway.shut shut)
    · intro untold
      obtain ⟨ev, can, effective, allowed⟩ := conveying.goes_on untold
      obtain ⟨mv, asked⟩ := can.asked
      exact ⟨mv, ev, asked, effective, allowed⟩

/-- Five bytes through a pipe that holds two. Both ends fall asleep on the way, and the writer wakes
once without a notification. -/
def squeezing : List (Move PipeCall) :=
  [.begin .reader (.read 3), .step .reader,
    .begin .writer (.write [1, 2, 3]), .step .writer, .step .reader,
    .begin .writer (.write [3, 4, 5]), .step .writer,
    .begin .writer (.write [5]), .step .writer, .rouse .writer, .step .writer,
    .begin .reader (.read 1), .step .reader, .step .writer,
    .begin .writer .closeWriter, .step .writer,
    .begin .reader (.read 9), .step .reader, .begin .reader (.read 9), .step .reader]

/-- Along `squeezing` the reader is told the end, and has read the five bytes. -/
theorem taken_after_squeezing :
    ∃ h : List (Event Pipe PipeCall), h = (create (Pipe.create 2)).history squeezing ∧
      keeps (conveys [1, 2, 3, 4, 5]) [] h = true ∧ rousings h = 1 ∧
      toldEnd (steps h) = true ∧ taken (steps h) = [1, 2, 3, 4, 5] := by
  refine ⟨_, rfl, ?_⟩
  have kept : keeps (conveys [1, 2, 3, 4, 5]) []
      ((create (Pipe.create 2)).history squeezing) = true := by decide +kernel
  have told : toldEnd (steps ((create (Pipe.create 2)).history squeezing)) = true := by
    decide +kernel
  have woken : rousings ((create (Pipe.create 2)).history squeezing) = 1 := by decide +kernel
  obtain ⟨-, all, -⟩ := (carries_what_was_written 2).2 [1, 2, 3, 4, 5] squeezing kept
  exact ⟨kept, woken, told, all told⟩

end Session

end Loopback
