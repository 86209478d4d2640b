import Loopback.Proofs.ClosingOrder
import Loopback.Proofs.NoTrace
import Loopback.Proofs.Callers
import Loopback.Proofs.Reports

/-!
# The log is a faithful trace

The log tells of each endpoint what was done to its mailbox, and that it was shut down or closed.
`Machine.Chronicled` says what a reader of the lines about one endpoint can rely on; every step
keeps it, given who closes the side (`Machine.ClosesOnce`). The lines of one call are found along a
schedule by `Machine.own`, and they are a course of the call (`Machine.Ends.course`).
`Machine.log_is_faithful` puts together what holds of the log after every schedule.
-/

namespace Loopback

namespace Machine

variable {ρ η : Type} {m m' : Machine ρ η}

/-! ## The lines of a call -/

/-- The lines that a move adds to the log. -/
def lines (m : Machine ρ η) (mv : Move ρ η) : List Line :=
  (m.move mv).link.log.take ((m.move mv).link.log.length - m.link.log.length)

/-- What the moves of the caller `who` contribute along a schedule, oldest first. -/
def own {α : Type} (contribution : Machine ρ η → Move ρ η → List α) (who : Nat) :
    Machine ρ η → List (Move ρ η) → List α
  | _, [] => []
  | m, mv :: moves =>
      (if mv.who? = some who then contribution m mv else []) ++
        own contribution who (m.move mv) moves

theorem lines_eq {mv : Move ρ η} {new : List Line}
    (grown : (m.move mv).link.log = new ++ m.link.log) : m.lines mv = new := by
  simp [lines, grown]

/-- Nothing but a step of a caller adds to the log. -/
theorem log_move (orderly : m.Orderly) (mv : Move ρ η) :
    (m.move mv).link.log = m.link.log ∨
      ∃ who pick c, mv = .step who pick ∧ m.call? who = some c ∧
        (m.move mv).link.log = (m.link.line? pick who c).toList ++ m.link.log := by
  cases mv with
  | begin who c => exact .inl (congrArg Link.log (link_begin who c))
  | step who pick =>
    rcases step_cases orderly who pick with ⟨same, -, -⟩ | ⟨c, call, -, -, -, link, -⟩
    · exact .inl (congrArg (·.link.log) same)
    · refine .inr ⟨who, pick, c, rfl, call, ?_⟩
      show (m.step who pick).1.link.log = _
      rw [link, Link.log_step]
  | rouse who =>
    refine .inl ?_
    rcases m.rouse_cases who with same | ⟨c, -, roused⟩
    · exact congrArg (·.link.log) same
    · show (m.rouse who).link.log = _
      rw [roused]
      cases c <;> rfl
  | takeTask i =>
    refine .inl ?_
    simp only [move, takeTask?, Link.takeTask?]
    cases m.link.tasks[i]? <;> rfl

section Caller

variable {who pick : Nat} {c : Call ρ η} {mv : Move ρ η} {during : List (Move ρ η)} {r : Result}

/-- A caller that can take a step contributes its line and its events, and nothing otherwise. -/
theorem step_contributes (orderly : m.Orderly) (call : m.call? who = some c) (p : Nat) :
    (m.lines (.step who p) = [] ∧ m.events (.step who p) = [] ∧ m.step who p = (m, none)) ∨
      (m.lines (.step who p) = (m.link.line? p who c).toList ∧
        m.events (.step who p) = m.link.events p who c ∧
        (m.step who p).1.call? who = (m.link.step p who c).2.next?) := by
  cases awake : m.link.isAsleep who c with
  | true =>
    have same : m.step who p = (m, none) := by simp [step, call, awake]
    exact .inl ⟨lines_eq (congrArg (·.1.link.log) same), by simp [events, call, awake], same⟩
  | false =>
    obtain ⟨_, -, link, -⟩ := step_of_awake orderly call awake p
    refine .inr ⟨lines_eq ?_, by simp [events, call, awake], call?_step orderly call awake p⟩
    show (m.step who p).1.link.log = _
    rw [link, Link.log_step]

/-- In the middle of its call a caller takes a step and goes on, or a move is nothing to it. -/
theorem Ends.onward (orderly : m.Orderly) (call : m.call? who = some c)
    (ends : m.Ends who (mv :: during) pick r) :
    (∃ p c', mv = .step who p ∧ (m.link.step p who c).2.next? = some c' ∧
        (m.move mv).call? who = some c' ∧ m.lines mv = (m.link.line? p who c).toList ∧
        m.events mv = m.link.events p who c) ∨
      ((m.move mv).call? who = some c ∧
        (mv.who? = some who → m.lines mv = [] ∧ m.events mv = [])) := by
  have busy : (m.move mv).isIdle who = false := ends.busy [mv] (List.prefix_append [_] during)
  by_cases own : mv.who? = some who
  · cases mv with
    | begin x c₀ =>
      obtain rfl := Option.some.inj own
      -- Who is in a call begins no other.
      have same : m.begin x c₀ = m := by simp [begin, canBegin, isIdle, call]
      exact .inr ⟨(congrArg (call? x) same).trans call,
        fun _ => ⟨lines_eq (congrArg (·.link.log) same), rfl⟩⟩
    | step x p =>
      obtain rfl := Option.some.inj own
      rcases step_contributes orderly call p with
        ⟨silent, quiet, same⟩ | ⟨lines, events, next⟩
      · exact .inr ⟨(congrArg (·.1.call? x) same).trans call, fun _ => ⟨silent, quiet⟩⟩
      · cases onward : (m.link.step p x c).2.next? with
        | none =>
          rw [onward] at next
          simp [move, isIdle, next] at busy
        | some c' => exact .inl ⟨p, c', rfl, onward, next.trans onward, lines, events⟩
    | rouse | takeTask => cases own
  · have here := (call?_eq_some_iff orderly).1 call
    have one := moves orderly mv
    refine .inr ⟨?_, fun mine => absurd mine own⟩
    rw [one.call?_other orderly own]
    exact call

/-- At the end of its call a caller takes the step that answers. -/
theorem Ends.final (orderly : m.Orderly) (call : m.call? who = some c)
    (ends : m.Ends who [] pick r) :
    (m.link.step pick who c).2 = .done r ∧
      m.lines (.step who pick) = (m.link.line? pick who c).toList ∧
      m.events (.step who pick) = m.link.events pick who c := by
  refine ⟨answer_of_step call ends.answer, ?_⟩
  rcases step_contributes orderly call pick with ⟨-, -, same⟩ | ⟨lines, events, -⟩
  · have answer : (m.step who pick).2 = some r := ends.answer
    rw [same] at answer
    cases answer
  · exact ⟨lines, events⟩

/-- What a caller does in its call, and what it reports, is a course of the call. -/
theorem Ends.course (orderly : m.Orderly) (call : m.call? who = some c)
    (ends : m.Ends who during pick r) :
    c.Course who r (m.own lines who (during ++ [.step who pick]))
      (m.own events who (during ++ [.step who pick])) := by
  -- Move by move; what others do meanwhile is nothing to the call, and not in its course.
  induction during generalizing m c with
  | nil =>
    obtain ⟨done, told, happened⟩ := ends.final orderly call
    simpa [own, Move.who?, told, happened] using Call.Course.ends done
  | cons mv during ih =>
    have later := orderly.of_moves (moves orderly mv)
    rcases ends.onward orderly call with ⟨p, c', rfl, onward, call', told, happened⟩ | ⟨same, idle⟩
    · have rest := ih later call' ends.tail
      simpa [own, Move.who?, told, happened] using Call.Course.goesOn onward rest
    · have rest := ih later same ends.tail
      rw [List.cons_append, own, own]
      split
      · next mine => simpa [idle mine] using rest
      · exact rest

end Caller

/-! ## The log of a run -/

/-- What the log tells of the endpoint of `s`, whose mailbox has room for `capacity` messages. The
log has its newest line first. -/
structure Chronicled (s : Side) (capacity : Nat) (j : List (Taken ρ η)) (m : Machine ρ η) :
    Prop where
  room : (m.link.endpoint s).mailbox.capacity = capacity
  read : m.link.log.reverse.foldlM (Line.read? s capacity) 0 =
    some (m.link.endpoint s).mailbox.size
  ended : ∀ line ∈ m.link.log, line.isEnding s = true → (m.link.endpoint s).closed = true
  /-- The line that `s` was closed belongs to the close of `s`. -/
  closed : .closed s ∈ m.link.log → .report ∈ (closeActions s j).map Prod.snd
  once : m.link.log.count (.shutDown s) ≤ 1 ∧ m.link.log.count (.closed s) ≤ 1
  final : m.link.log.Pairwise fun later earlier =>
    earlier.isEnding s = true → later.isTaking s = false

/-- Whoever is about to report that `s` is closed is the one that closes it, and nobody has reported
that before. -/
theorem ClosesOnce.unreported {s : Side} {j : List (Taken ρ η)} (once : ClosesOnce s j m)
    {who : Nat} (here : (who, .closeReport s) ∈ m.calls) :
    .endpoint ∈ (closeActions s j).map Prod.snd ∧ .report ∉ (closeActions s j).map Prod.snd := by
  have mine : (who, CloseStage.report) ∈ m.closersAtWork s :=
    List.mem_filterMap.2 ⟨_, here, by simp [closerAt?, Call.closeStage?]⟩
  cases once with
  | untouched phase asked acted nobody | completed phase asked acted nobody =>
    rw [nobody] at mine
    cases mine
  | underway phase asked acted alone =>
    rw [alone] at mine
    cases List.mem_singleton.1 mine
    simp [acted, CloseStage.before]

namespace Chronicled

variable {s : Side} {capacity : Nat} {j : List (Taken ρ η)}

/-- The log does not change, and the endpoint only in who sleeps there. -/
theorem of_same (h : Chronicled s capacity j m) (log : m'.link.log = m.link.log)
    (mailbox : (m'.link.endpoint s).mailbox = (m.link.endpoint s).mailbox)
    (shut : (m'.link.endpoint s).closed = (m.link.endpoint s).closed) :
    Chronicled s capacity j m' where
  room := by rw [mailbox, h.room]
  read := by rw [log, mailbox, h.read]
  ended := by rw [log, shut]; exact h.ended
  closed := by rw [log]; exact h.closed
  once := by rw [log]; exact h.once
  final := by rw [log]; exact h.final

section Step

variable {who pick : Nat} {c : Call ρ η} {line : Line}

/-- A line that tells the end of `s` was not there before, and afterwards the endpoint is closed. -/
theorem ending (h : Chronicled s capacity j m) (once : ClosesOnce s j m) (tallied : Tallied j m)
    (here : (who, c) ∈ m.calls) (honest : c.isHonest = true)
    (reported : m.link.line? pick who c = some line) (ends : line.isEnding s = true) :
    line ∉ m.link.log ∧ ((m.link.step pick who c).1.endpoint s).closed = true ∧
      (line = .closed s → c = .closeReport s) := by
  rcases (m.link.opened_step pick who honest s reported).2 ends with
    ⟨rfl, opened, shut⟩ | ⟨rfl, rfl⟩
  · refine ⟨fun before => ?_, shut, nofun⟩
    rw [h.ended _ before ends] at opened
    cases opened
  · obtain ⟨done, unreported⟩ := once.unreported here
    exact ⟨fun before => unreported (h.closed before),
      Link.closed_step (.inl (tallied.shut s done)), fun _ => rfl⟩

/-- A step keeps the log a faithful one. -/
theorem of_step (h : Chronicled s capacity j m) (once : ClosesOnce s j m) (tallied : Tallied j m)
    (here : (who, c) ∈ m.calls) (honest : c.isHonest = true) (calls : List (Nat × Call ρ η)) :
    Chronicled s capacity (j ++ [⟨who, c, (m.link.step pick who c).2⟩])
      ⟨(m.link.step pick who c).1, calls⟩ where
  room := (m.link.capacity_step pick who c s).trans h.room
  read := by
    have read := m.link.read_step pick who honest s
    rw [h.room] at read
    have order : (m.link.line? pick who c).toList.reverse = (m.link.line? pick who c).toList := by
      cases m.link.line? pick who c <;> rfl
    rw [Link.log_step, List.reverse_append, order, List.foldlM_append, h.read]
    exact read
  ended line told ends := by
    rw [Link.log_step, List.mem_append, Option.mem_toList] at told
    rcases told with now | before
    · exact (h.ending once tallied here honest now ends).2.1
    · exact Link.closed_step (.inl (h.ended line before ends))
  closed told := by
    rw [Link.log_step, List.mem_append, Option.mem_toList] at told
    rw [closeActions_snoc, List.map_append, List.mem_append]
    rcases told with now | before
    · obtain rfl := (h.ending once tallied here honest now (by simp [Line.isEnding])).2.2 rfl
      exact .inr (by simp [closerAt?, Call.closeStage?])
    · exact .inl (h.closed before)
  once := by
    have one : ∀ x : Line, x.isEnding s = true → m.link.log.count x ≤ 1 →
        ((m.link.line? pick who c).toList ++ m.link.log).count x ≤ 1 := by
      intro x ends before
      cases reported : m.link.line? pick who c with
      | none => exact before
      | some line =>
        -- A line that tells an end is a new one.
        by_cases same : line = x
        · subst same
          have none := List.count_eq_zero.2 (h.ending once tallied here honest reported ends).1
          simp [none]
        · simpa [List.count_cons, same] using before
    rw [Link.log_step]
    exact ⟨one _ (by simp [Line.isEnding]) h.once.1, one _ (by simp [Line.isEnding]) h.once.2⟩
  final := by
    rw [Link.log_step]
    cases reported : m.link.line? pick who c with
    | none => exact h.final
    | some line =>
      refine List.pairwise_cons.2 ⟨fun earlier before ends => ?_, h.final⟩
      -- What was taken was taken by an open endpoint, and this one was closed.
      have shut := h.ended earlier before ends
      cases taking : line.isTaking s with
      | false => rfl
      | true =>
        rw [(m.link.opened_step pick who honest s reported).1 taking] at shut
        cases shut

end Step

theorem of_advances {t? : Option (Taken ρ η)} (h : Chronicled s capacity j m)
    (once : ClosesOnce s j m) (tallied : Tallied j m)
    (honest : ∀ x ∈ m.calls, x.2.isHonest = true) (one : Advances m m' t?) :
    Chronicled s capacity (j ++ t?.toList) m' := by
  cases one with
  | steps now awake next =>
    have here := now.mem_iff.2 List.mem_cons_self
    exact h.of_step once tallied here (honest _ here) _
  | stays | begins | takes =>
    rw [Option.toList_none, List.append_nil]
    exact h.of_same rfl rfl rfl
  | @rouses who c now =>
    rw [Option.toList_none, List.append_nil]
    have log : (m.link.rouse who c).log = m.link.log := by cases c <;> rfl
    rcases m.link.endpoint_rouse who c s with same | ⟨i, roused⟩
    · exact h.of_same log (by rw [same]) (by rw [same])
    · exact h.of_same log (by rw [roused]) (by rw [roused])

end Chronicled

/-- Nothing but a receiver's own line is ever reported as a call. -/
theorem honest_of_advances {t? : Option (Taken ρ η)} (honest : ∀ x ∈ m.calls, x.2.isHonest = true)
    (one : Advances m m' t?) : ∀ x ∈ m'.calls, x.2.isHonest = true := by
  cases one with
  | stays | rouses | takes => exact honest
  | begins idle entry =>
    intro x hx
    rcases List.mem_append.1 hx with old | new
    · exact honest x old
    · rw [List.mem_singleton.1 new]
      exact Call.isHonest_of_isEntry entry
  | steps now awake next =>
    intro x hx
    rcases List.mem_append.1 (next.mem_iff.1 hx) with mine | others
    · obtain ⟨c', onward, rfl⟩ := List.mem_map.1 mine
      exact (Link.follows_step (Option.mem_toList.1 onward)).isHonest
    · exact honest x (now.mem_iff.2 (List.mem_cons_of_mem _ others))

theorem chronicled_run (config : Config) (first : String) (second : Option String)
    (tokens signals : Nat) (schedule : List (Move ρ η)) (s : Side) :
    Chronicled s (max config.queueLength 1)
      ((fresh config first second tokens signals).journal schedule)
      ((fresh config first second tokens signals).run schedule) := by
  -- The log is read together with who closes `s`, and with what the calls in progress report.
  have all := journal_induction
    (P := fun j m => Chronicled s (max config.queueLength 1) j m ∧ ClosesOnce s j m ∧
      Tallied j m ∧ ∀ x ∈ m.calls, x.2.isHonest = true)
    (orderly_fresh (ρ := ρ) (η := η) config first second tokens signals) ?_ ?_ schedule
  · exact all.1
  · refine ⟨?_, closesOnce_run config first second tokens signals [] s,
      tallied_run config first second tokens signals [], nofun⟩
    refine ⟨?_, ?_, ?_, ?_, ?_, ?_⟩
    · rw [endpoint_fresh]; rfl
    · rw [endpoint_fresh]; rfl
    · simp [fresh, create, Link.create, Line.isEnding]
    · simp [fresh, create, Link.create]
    · simp [fresh, create, Link.create]
    · simp [fresh, create, Link.create]
  · rintro j m m' t? - ⟨log, once, tallied, honest⟩ one
    exact ⟨log.of_advances once tallied honest one, once.of_advances one, tallied.of_advances one,
      honest_of_advances honest one⟩

/-- The log is a faithful trace of each endpoint, along every schedule on a pair of any sizes. Who
reads it with a counter can read every line of it, and the counter is the size of the mailbox; that
holds after each line, since the schedule is any and a move adds one line at most. That writes were
shut down and that the side was closed is told once at most, and after it no message is taken. A
call that succeeded in writing reported one message that was taken, a registration the queued
message that its receiver was given, and a call that failed none. -/
theorem log_is_faithful (config : Config) (first : String) (second : Option String)
    (tokens signals : Nat) (schedule : List (Move ρ η)) (s : Side) :
    let m := (fresh config first second tokens signals : Machine ρ η).run schedule
    let e := m.link.endpoint s
    let log := m.link.log.reverse
    (e.mailbox.capacity = max config.queueLength 1 ∧
      log.foldlM (Line.read? s e.mailbox.capacity) 0 = some e.mailbox.size) ∧
    (∀ mv, (m.move mv).link.log = m.lines mv ++ m.link.log ∧ (m.lines mv).length ≤ 1) ∧
    (log.count (.shutDown s) ≤ 1 ∧ log.count (.closed s) ≤ 1 ∧
      log.Pairwise fun earlier later =>
        earlier.isEnding s = true → later.isTaking s = false) ∧
    ∀ who c during pick r, m.canBegin who c = true → (m.begin who c).Ends who during pick r →
      let told := (m.begin who c).own lines who (during ++ [.step who pick])
      let happened := (m.begin who c).own events who (during ++ [.step who pick])
      told.countP (Line.isTaking s) = (if c.writesTo s ∧ r.isOk then 1 else 0) ∧
        told.countP (Line.isDequeuing s) =
          (if c.isReceive then happened.countP (Event.isGiving s) else 0) ∧
        told.countP (Line.isDequeuing s) ≤ 1 ∧
        (r.isOk = false → told.countP (Line.isDequeuing s) = 0) := by
  intro m e log
  have orderly : m.Orderly :=
    orderly_run (orderly_fresh config first second tokens signals) schedule
  have told := chronicled_run config first second tokens signals schedule s
  refine ⟨⟨told.room, told.room.symm ▸ told.read⟩, ?_, ⟨?_, ?_, ?_⟩, ?_⟩
  · intro mv
    rcases log_move orderly mv with same | ⟨who, pick, c, -, -, grown⟩
    · have none : m.lines mv = [] := lines_eq same
      rw [none]
      exact ⟨same, Nat.zero_le 1⟩
    · rw [lines_eq grown]
      exact ⟨grown, Option.length_toList_le⟩
  · rw [List.count_reverse]
    exact told.once.1
  · rw [List.count_reverse]
    exact told.once.2
  · exact List.pairwise_reverse.2 told.final
  · intro who c during pick r can ends lines happened
    have course : c.Course who r lines happened :=
      ends.course (orderly.of_moves (moves_begin who c)) (call?_begin orderly can)
    have honest : c.isHonest = true := by
      simp only [canBegin, Bool.and_eq_true] at can
      exact Call.isHonest_of_isEntry can.1.2
    refine ⟨course.taking honest s, ?_⟩
    cases other : c.isReceive with
    | false => simp [course.not_dequeuing honest other s]
    | true =>
      cases c with
      | receive side x =>
        obtain ⟨same, once, failed⟩ := course.dequeuing_of_receive s
        rw [same]
        exact ⟨rfl, once, failed⟩
      | _ => cases other

/-- Caller 2 finds the mailbox of `b` full and sleeps, until caller 3 takes the message in it. -/
def waitingForRoom : List (Move Nat Nat) :=
  [.step 2 0, .begin 3 (.receive .b 7), .step 3 0, .step 3 0]

/-- Side `a` stops writing, and then side `b` is closed. -/
def endingTwice : List (Move Nat Nat) :=
  [.begin 4 (.shutDown .a), .step 4 0, .begin 5 (.close .b), .step 5 0, .step 5 0, .step 5 0]

/-- A write that has to wait for room reports its message once. The log of the whole run is read
with a counter that ends at the one message that is left. -/
theorem faithful_after_waitingForRoom :
    let pair := (fresh ⟨1, 16⟩ "pair" none 0 0 : Machine Nat Nat)
    let m := pair.run filledUp
    let write := .write .a none false
    let log := (pair.run (filledUp ++ .begin 2 write :: waitingForRoom ++
      .step 2 0 :: endingTwice)).link.log.reverse
    m.canBegin 2 write = true ∧ (m.begin 2 write).Ends 2 waitingForRoom 0 (.ok (.message 1)) ∧
      ((m.begin 2 write).own lines 2 (waitingForRoom ++ [.step 2 0])).countP
        (Line.isTaking .b) = 1 ∧
      log = [.created, .queued .b 1 1, .dequeued .b 0, .queued .b 1 1, .shutDown .b, .closed .b] ∧
      log.foldlM (Line.read? .b 1) 0 = some 1 := by
  intro pair m write log
  have can : m.canBegin 2 write = true := by decide +kernel
  have ends : (m.begin 2 write).Ends 2 waitingForRoom 0 (.ok (.message 1)) := by
    refine ⟨fun front begins => ?_, by decide +kernel⟩
    have all : ∀ front ∈ waitingForRoom.inits,
        ((m.begin 2 write).run front).isIdle 2 = false := by decide +kernel
    exact all front ((List.mem_inits _ _).2 begins)
  obtain ⟨⟨room, read⟩, -⟩ := log_is_faithful (ρ := Nat) (η := Nat) ⟨1, 16⟩ "pair" none 0 0
    (filledUp ++ .begin 2 write :: waitingForRoom ++ .step 2 0 :: endingTwice) .b
  have left : ((pair.run (filledUp ++ .begin 2 write :: waitingForRoom ++
      .step 2 0 :: endingTwice)).link.endpoint .b).mailbox.size = 1 := by decide +kernel
  rw [room, left] at read
  obtain ⟨-, -, -, calls⟩ := log_is_faithful (ρ := Nat) (η := Nat) ⟨1, 16⟩ "pair" none 0 0
    filledUp .b
  refine ⟨can, ends, (calls 2 write waitingForRoom 0 _ can ends).1, by decide +kernel, ?_⟩
  simp only [log, pair]
  exact read

end Machine

end Loopback
