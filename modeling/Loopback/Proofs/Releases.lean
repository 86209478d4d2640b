import Loopback.Proofs.Aftermath

/-!
# What releases blocked writers

A machine is at rest, and one call is made that can release writers: a receiver is registered, the
writes towards a side are shut down, a side is closed, or a token is set. Then nothing happens but
that its caller and the writers take their steps, in any order, until all is settled.
`Machine.Aftermath` says what each endpoint and each token can look like meanwhile, given what was
done so far, and `Machine.Course` how far the call is and what it has done.
`Machine.releases_exactly` states what that leaves when all is settled: the writers that left are
those that the call is meant to release, each with its answer, and the others still sleep.
-/

namespace Loopback

variable {ρ η : Type}

/-- The answer that the caller `who` has with this step. -/
def Taken.answer? (who : Nat) (x : Taken ρ η) : Option Result :=
  match x.outcome with
  | .done r => if x.caller = who then some r else none
  | _ => none

/-- The writers that a call is meant to abort. -/
def Call.hits : Call ρ η → Writer → Bool
  | .interrupt t, w => w.token == some t
  | _, _ => false

/-- Setting a token interrupts those who write under it. -/
theorem Link.isInterrupted_interrupt {l : Link ρ η} {t : Nat} (there : t < l.tokens.size)
    (token : Option Nat) :
    (l.modifyToken t Token.interrupt).isInterrupted token =
      (token == some t || l.isInterrupted token) := by
  cases token with
  | none => rfl
  | some u =>
    simp only [isInterrupted, Option.bind_some, getElem?_modifyToken]
    by_cases same : t = u
    · subst same
      simp [Array.getElem?_eq_getElem there, Token.interrupt]
    · have apart : ¬u = t := fun h => same h.symm
      simp [same, apart]

/-- Who ends a call has its answer. -/
theorem Taken.answer?_done (who : Nat) (c : Call ρ η) (r : Result) :
    (⟨who, c, .done r⟩ : Taken ρ η).answer? who = some r := if_pos rfl

/-- Neither a call begins nor a task is started: a caller takes a step, or wakes. -/
def Move.goesOn : Move ρ η → Bool
  | .step _ _ | .rouse _ => true
  | .begin _ _ | .takeTask _ => false

namespace Machine

variable {m₀ m m' : Machine ρ η} {who x pick : Nat} {c : Call ρ η} {hit : Writer → Bool}
  {deeds : Side → Deed} {set : Bool} {handed : List (Task ρ η)} {j : List (Taken ρ η)}

/-- The answers that the caller `who` had. -/
def answers (who : Nat) (j : List (Taken ρ η)) : List Result := j.filterMap (Taken.answer? who)

theorem answers_snoc (who : Nat) (j : List (Taken ρ η)) (x : Taken ρ η) :
    answers who (j ++ [x]) = answers who j ++ (x.answer? who).toList := filterMap_snoc _ j x

/-! ## The call that is made -/

/-- The deeds when `deed` was done to the endpoint of `s`, and nothing to the other one. -/
def doneAt (s : Side) (deed : Deed) (t : Side) : Deed := if t = s then deed else .nothing

/-- The call may be made to release writers: some are blocked at the endpoint that it concerns, or
the token is there. -/
def MayRelease (m : Machine ρ η) : Call ρ η → Prop
  | .receive s _ | .close s => (m.link.endpoint s).writers.asleep ≠ []
  | .shutDown source => (m.link.endpoint source.other).writers.asleep ≠ []
  | .interrupt t => t < m.link.tokens.size
  | _ => False

/-- A stage of closing `s` that comes after its endpoint was closed. -/
inductive WindsUp (s : Side) : Call ρ η → Prop where
  | reports : WindsUp s (.closeReport s)
  | notifies : WindsUp s (.closeNotify s)
  | completes : WindsUp s (.closeComplete s)
  | handsOver (tasks : List (Task ρ η)) : WindsUp s (.submit tasks (.ok .unit))

/-- How far a call is that was made on `m₀`: what is left of it, what was done to the endpoints,
whether its token is set, what was handed to the executor, and the answers so far. -/
inductive Course (m₀ : Machine ρ η) : Call ρ η → Option (Call ρ η) → (Side → Deed) → Bool →
    List (Task ρ η) → List Result → Prop where
  | asks (s : Side) (r : ρ) :
      Course m₀ (.receive s r) (some (.receive s r)) (fun _ => .nothing) false [] []
  | gives {s : Side} {r : ρ} {oldest : Nat} {rest : List Nat}
      (front : (m₀.link.endpoint s).mailbox.queue = oldest :: rest) :
      Course m₀ (.receive s r) (some (.submit [.receive s ⟨r, .message oldest⟩] (.ok .unit)))
        (doneAt s .served) false [] []
  | gave {s : Side} {r : ρ} {oldest : Nat} {rest : List Nat}
      (front : (m₀.link.endpoint s).mailbox.queue = oldest :: rest) :
      Course m₀ (.receive s r) none (doneAt s .served) false [.receive s ⟨r, .message oldest⟩]
        [.ok .unit]
  | stops (source : Side) :
      Course m₀ (.shutDown source) (some (.shutDown source)) (fun _ => .nothing) false [] []
  | stopped (source : Side) :
      Course m₀ (.shutDown source) none (doneAt source.other .shut) false [] [.ok .unit]
  | closes (s : Side) : Course m₀ (.close s) (some (.close s)) (fun _ => .nothing) false [] []
  | shuts (s : Side) :
      Course m₀ (.close s) (some (.closeEndpoint s)) (fun _ => .nothing) false [] []
  | windsUp {s : Side} {c : Call ρ η} (handed : List (Task ρ η)) (late : WindsUp s c) :
      Course m₀ (.close s) (some c) (doneAt s .shut) false handed []
  | closed (s : Side) (handed : List (Task ρ η)) :
      Course m₀ (.close s) none (doneAt s .shut) false handed [.ok .unit]
  | sets (t : Nat) :
      Course m₀ (.interrupt t) (some (.interrupt t)) (fun _ => .nothing) false [] []
  | copies (t : Nat) :
      Course m₀ (.interrupt t) (some (.interruptCopy t)) (fun _ => .nothing) true [] []
  | wakes (t : Nat) (places : List Side) :
      Course m₀ (.interrupt t) (some (.interruptWake places)) (fun _ => .nothing) true [] []
  | woke (t : Nat) : Course m₀ (.interrupt t) none (fun _ => .nothing) true [] [.ok .unit]

variable {event : Call ρ η} {answered : List Result} {now : Option (Call ρ η)}

/-- Whoever made the call never sleeps in it. -/
theorem Course.neverSleeps (course : Course m₀ event (some c) deeds set handed answered) :
    c.neverSleeps = true := by
  cases course with
  | windsUp _ late => cases late <;> rfl
  | _ => rfl

theorem Course.not_isWrite (course : Course m₀ event (some c) deeds set handed answered) :
    c.isWrite = false := by
  cases course with
  | windsUp _ late => cases late <;> rfl
  | _ => rfl

theorem Course.start (may : m₀.MayRelease event) :
    Course m₀ event (some event) (fun _ => .nothing) false [] [] := by
  cases event with
  | receive s r => exact .asks s r
  | shutDown source => exact .stops source
  | close s => exact .closes s
  | interrupt t => exact .sets t
  | _ => exact may.elim

/-- What may release writers can begin when its caller is idle. -/
theorem canBegin_of_mayRelease (may : m₀.MayRelease event) (idle : m₀.isIdle who = true) :
    m₀.canBegin who event = true := by
  cases event with
  | receive | shutDown | close | interrupt =>
    simp [canBegin, idle, Call.isEntry, isFree, Call.madeOn?]
  | _ => exact may.elim

theorem Aftermath.sides_untouched (h : Aftermath who hit m₀ deeds set handed j m)
    (hold : c.hold? m.link x = none) (s : Side) :
    (m₀.link.endpoint s).Since hit (deeds s) (departures s j)
      ((m.link.step pick x c).1.endpoint s) := by
  rw [Link.endpoint_step, hold]
  exact h.sides s

theorem Aftermath.sides_doneAt (h : Aftermath who hit m₀ (fun _ => .nothing) set handed j m)
    {s : Side} {hold : Hold ρ} {deed : Deed} (held : c.hold? m.link x = some (s, hold))
    (since : (m₀.link.endpoint s).Since hit deed (departures s j)
      ((m.link.endpoint s).after pick m.link.messages.size hold)) (t : Side) :
    (m₀.link.endpoint t).Since hit (doneAt s deed t) (departures t j)
      ((m.link.step pick x c).1.endpoint t) := by
  rw [Link.endpoint_step, held]
  by_cases here : t = s
  · subst here
    simpa [doneAt] using since
  · simpa [doneAt, here] using h.sides t

/-- Only setting and clearing a token changes a flag. -/
theorem Aftermath.flags_step (h : Aftermath who hit m₀ deeds set handed j m)
    (same : (m.link.step pick x c).1.tokens = m.link.tokens) {s : Side} {w : Writer}
    (there : w ∈ (m₀.link.endpoint s).writers.asleep) :
    (m.link.step pick x c).1.isInterrupted w.token = (set && hit w) := by
  rw [Link.isInterrupted, same]
  exact h.flags s w there

/-- While nobody is at work on closing a side that takes messages, closing was not begun. -/
theorem Reachable.phase_opened (reached : m.Reachable) {s : Side}
    (opened : (m.link.endpoint s).closed = false)
    (nobody : ∀ x c, m.call? x = some c → c.closeStage? s = none) :
    (m.link.closing s).phase = .opened := by
  have orderly := reached.orderly
  have atWork : m.closersAtWork s = [] := by
    rw [closersAtWork, List.filterMap_eq_nil_iff]
    rintro ⟨x, c⟩ here
    rw [closerAt?, nobody x c (call?_of_mem orderly here)]
    rfl
  obtain ⟨config, first, second, tokens, signals, schedule, rfl⟩ := reached
  have once := closesOnce_run (ρ := ρ) (η := η) config first second tokens signals schedule s
  have tallied := tallied_run (ρ := ρ) (η := η) config first second tokens signals schedule
  generalize (fresh config first second tokens signals).run schedule = m at *
  cases phase : (m.link.closing s).phase with
  | opened => rfl
  | closing =>
    cases once with
    | untouched other | completed other => cases other.symm.trans phase
    | underway _ _ _ alone => cases atWork.symm.trans alone
  | closed => cases opened.symm.trans (once.shut_of_closed tallied phase)

/-- What the next step of a call does, given how far the call is: it goes on in its course, or has
its answer. -/
def Course.Onward (m₀ : Machine ρ η) (who : Nat) (event : Call ρ η) (handed : List (Task ρ η))
    (answered : List Result) (j : List (Taken ρ η)) (c : Call ρ η)
    (after : Link ρ η × Progress (Call ρ η) Result) : Prop :=
  ∃ deeds set, Course m₀ event after.2.next? deeds set (handed ++ c.handed?.toList)
      (answered ++ ((⟨who, c, after.2⟩ : Taken ρ η).answer? who).toList) ∧
    (∀ s, (m₀.link.endpoint s).Since event.hits (deeds s) (departures s j) (after.1.endpoint s)) ∧
    ∀ s, ∀ w ∈ (m₀.link.endpoint s).writers.asleep,
      after.1.isInterrupted w.token = (set && event.hits w)

/-- A step that touches no token keeps the flags as they were. -/
theorem Aftermath.onward (h : Aftermath who event.hits m₀ deeds set handed j m)
    (tokens : (m.link.step pick who c).1.tokens = m.link.tokens) {deeds' : Side → Deed}
    (course : Course m₀ event (m.link.step pick who c).2.next? deeds' set
      (handed ++ c.handed?.toList)
      (answered ++ ((⟨who, c, (m.link.step pick who c).2⟩ : Taken ρ η).answer? who).toList))
    (sides : ∀ s, (m₀.link.endpoint s).Since event.hits (deeds' s) (departures s j)
      ((m.link.step pick who c).1.endpoint s)) :
    Course.Onward m₀ who event handed answered j c (m.link.step pick who c) :=
  ⟨deeds', set, course, sides, fun _ _ there => h.flags_step tokens there⟩

section Course

variable (reached₀ : m₀.Reachable) (rest : m₀.AtRest)

include reached₀ rest

theorem Aftermath.onward_receive {s : Side} {r : ρ}
    (h : Aftermath who (.receive s r : Call ρ η).hits m₀ (fun _ => .nothing) false [] j m)
    (may : m₀.MayRelease (.receive s r)) (pick : Nat) :
    Course.Onward m₀ who (.receive s r) [] [] j (.receive s r)
      (m.link.step pick who (.receive s r)) := by
  have blocks := rest.holdsUp reached₀ may
  obtain ⟨oldest, queue, front⟩ := reached₀.front_of_holdsUp blocks
  obtain ⟨given, since⟩ := (h.sides s).register (fun _ => rfl) blocks.nobody blocks.opened front
    pick r
  have outcome : (m.link.step pick who (.receive s r)).2 =
      .more (.submit [.receive s ⟨r, .message oldest⟩] (.ok .unit)) := by
    simp only [Link.step, Link.stepReceive, given]
  refine h.onward (m.link.step_frame pick who rfl).1 ?_ (h.sides_doneAt rfl since)
  rw [outcome]
  exact .gives front

theorem Aftermath.onward_shutDown {source : Side}
    (h : Aftermath who (.shutDown source : Call ρ η).hits m₀ (fun _ => .nothing) false [] j m)
    (may : m₀.MayRelease (.shutDown source)) (pick : Nat) :
    Course.Onward m₀ who (.shutDown source) [] [] j (.shutDown source)
      (m.link.step pick who (.shutDown source)) := by
  have blocks := rest.holdsUp reached₀ may
  obtain ⟨nobody, since⟩ := (h.sides source.other).shutDown (fun _ => rfl) blocks.nobody
    blocks.opened
  have outcome : (m.link.step pick who (.shutDown source)).2 = .done (.ok .unit) := by
    simp only [Link.step, Link.stepShutDown, nobody]
  refine h.onward (m.link.step_frame pick who rfl).1 ?_ (h.sides_doneAt rfl since)
  rw [outcome, Taken.answer?_done]
  exact .stopped source

theorem Aftermath.onward_close {s : Side}
    (h : Aftermath who (.close s : Call ρ η).hits m₀ (fun _ => .nothing) false [] j m)
    (may : m₀.MayRelease (.close s)) (reached : m.Reachable) (call : m.call? who = some (.close s))
    (pick : Nat) :
    Course.Onward m₀ who (.close s) [] [] j (.close s) (m.link.step pick who (.close s)) := by
  have blocks := rest.holdsUp reached₀ may
  have opened : (m.link.endpoint s).closed = false := by
    cases h.sides s with
    | waits _ closed => exact closed.trans blocks.opened
  -- Nobody else is at work on closing, since all others are in calls that wait for something.
  have phase : (m.link.closing s).phase = .opened := by
    refine reached.phase_opened opened fun x c there => ?_
    by_cases own : x = who
    · subst own
      cases call.symm.trans there
      rfl
    · have waits := h.others x c own there
      cases c with
      | write | awaitClosed | await | stream => rfl
      | _ => cases waits
  have outcome : (m.link.step pick who (.close s)).2 = .more (.closeEndpoint s) := by
    simp [Link.step, Closing.begin, phase]
  refine h.onward (m.link.step_frame pick who rfl).1 ?_ (h.sides_untouched rfl)
  rw [outcome]
  exact .shuts s

omit reached₀ rest in
theorem Aftermath.onward_windsUp {s : Side}
    (h : Aftermath who (.close s : Call ρ η).hits m₀ (doneAt s .shut) false handed j m)
    (late : WindsUp s c) (pick : Nat) :
    Course.Onward m₀ who (.close s) handed [] j c (m.link.step pick who c) := by
  have course : Course m₀ (.close s) (m.link.step pick who c).2.next? (doneAt s .shut) false
      (handed ++ c.handed?.toList) (((⟨who, c, (m.link.step pick who c).2⟩ :
        Taken ρ η).answer? who).toList) := by
    cases late with
    | reports => exact .windsUp _ .notifies
    | notifies => exact .windsUp _ .completes
    | completes => exact .windsUp _ (.handsOver _)
    | handsOver tasks =>
      match tasks with
      | [] | [_] =>
        rw [Link.step, Taken.answer?_done]
        exact .closed s _
      | t :: t' :: tasks => exact .windsUp _ (.handsOver _)
  have hold : c.hold? m.link who = none := by cases late <;> rfl
  have tokens : (m.link.step pick who c).1.tokens = m.link.tokens := by
    cases late <;> exact (m.link.step_frame pick who rfl).1
  exact h.onward tokens course (h.sides_untouched hold)

/-- The call goes on in its course, whatever the others did meanwhile. -/
theorem Course.onward (course : Course m₀ event (some c) deeds set handed answered)
    (h : Aftermath who event.hits m₀ deeds set handed j m) (may : m₀.MayRelease event)
    (reached : m.Reachable) (call : m.call? who = some c) (pick : Nat) :
    Course.Onward m₀ who event handed answered j c (m.link.step pick who c) := by
  cases course with
  | asks s r => exact h.onward_receive reached₀ rest may pick
  | stops source => exact h.onward_shutDown reached₀ rest may pick
  | closes s => exact h.onward_close reached₀ rest may reached call pick
  | windsUp handed late => exact h.onward_windsUp late pick
  | gives front =>
    refine h.onward (m.link.step_frame pick who rfl).1 ?_ (h.sides_untouched rfl)
    rw [Link.step, Taken.answer?_done]
    exact .gave front
  | shuts s =>
    exact h.onward (m.link.step_frame pick who rfl).1 (.windsUp _ .reports)
      (h.sides_doneAt rfl ((h.sides s).closeOff fun _ => rfl))
  | sets t =>
    -- No flag of a sleeper was set before, so that afterwards exactly those that are hit are set.
    refine ⟨_, true, .copies t, h.sides_untouched rfl, fun s w there => ?_⟩
    have clear := h.flags s w there
    rw [Bool.false_and] at clear
    rw [Link.step, Link.isInterrupted_interrupt (h.tokens ▸ may), clear, Bool.or_false,
      Bool.true_and]
    rfl
  | copies t =>
    exact h.onward (m.link.step_frame pick who rfl).1 (.wakes t _) (h.sides_untouched rfl)
  | wakes t places =>
    cases places with
    | nil =>
      refine h.onward (m.link.step_frame pick who rfl).1 ?_ (h.sides_untouched rfl)
      rw [Link.step, Taken.answer?_done]
      exact .woke t
    | cons p places =>
      refine h.onward (m.link.step_frame pick who rfl).1 (.wakes t places) fun s => ?_
      have after : (m.link.step pick who (.interruptWake (p :: places))).1.endpoint s =
          if s = p then (m.link.endpoint p).wakeWriters else m.link.endpoint s :=
        m.link.endpoint_step pick who (.interruptWake (p :: places)) s
      rw [after]
      by_cases here : s = p
      · subst here
        rw [if_pos rfl]
        exact (h.sides s).of_same rfl rfl rfl
      · rw [if_neg here]
        exact h.sides s

/-- The call is underway or over, and everything is as it can be by then. -/
def Underway (m₀ : Machine ρ η) (who : Nat) (event : Call ρ η) (j : List (Taken ρ η))
    (m : Machine ρ η) : Prop :=
  ∃ deeds set handed, Course m₀ event (m.call? who) deeds set handed (answers who j) ∧
    Aftermath who event.hits m₀ deeds set handed j m

theorem underway_begin (may : m₀.MayRelease event) (idle : m₀.isIdle who = true) :
    Underway m₀ who event [] (m₀.begin who event) := by
  have orderly := reached₀.orderly
  have can := canBegin_of_mayRelease may idle
  refine ⟨fun _ => .nothing, false, [], ?_, ?_, ?_, ?_, ?_, ?_, ?_⟩
  · rw [call?_begin orderly can]
    exact Course.start may
  · intro s
    rw [link_begin]
    exact Endpoint.since_self _ _
  · intro s
    rw [link_begin, Condition.waiting, rest.woken_eq_nil reached₀ s, List.append_nil]
    exact .refl _
  · intro s w there
    rw [link_begin]
    exact rest.not_interrupted reached₀ there
  · rw [link_begin]
  · rw [link_begin, List.append_nil]
  · intro x c apart there
    rw [call?_begin_other orderly apart] at there
    exact rest.isWaiting reached₀ ((call?_eq_some_iff orderly).1 there)

theorem underway_move (may : m₀.MayRelease event) (reached : m.Reachable)
    (h : Underway m₀ who event j m) {mv : Move ρ η} (goesOn : mv.goesOn = true) :
    Underway m₀ who event (j ++ (m.taken? mv).toList) (m.move mv) := by
  obtain ⟨deeds, set, handed, course, aftermath⟩ := h
  have orderly := reached.orderly
  cases mv with
  | begin | takeTask => cases goesOn
  | rouse x =>
    have calls : (m.rouse x).call? who = m.call? who := by
      rcases m.rouse_cases x with same | ⟨c, -, after⟩
      · rw [same]
      · rw [after]
        rfl
    show Underway m₀ who event (j ++ []) (m.rouse x)
    rw [List.append_nil]
    exact ⟨deeds, set, handed, calls ▸ course, aftermath.rouse x⟩
  | step x pick =>
    have elsewhere (y : Nat) (apart : y ≠ x) : (m.step x pick).1.call? y = m.call? y :=
      call?_step_other orderly apart pick
    rcases step_cases orderly x pick with ⟨same, none, -⟩ | ⟨c, call, awake, taken, -, link, next⟩
    · rw [none, Option.toList_none, List.append_nil, move, same]
      exact ⟨deeds, set, handed, course, aftermath⟩
    · rw [taken, Option.toList_some, move]
      by_cases own : x = who
      · subst own
        rw [call] at course
        obtain ⟨deeds', set', course', sides, flags⟩ := course.onward reached₀ rest aftermath may
          reached call pick
        refine ⟨deeds', set', _, ?_, aftermath.plain_step call link next elsewhere
          course.not_isWrite sides flags fun apart => absurd rfl apart⟩
        rw [next, answers_snoc]
        exact course'
      · have other : (⟨x, c, (m.link.step pick x c).2⟩ : Taken ρ η).answer? who = Option.none := by
          unfold Taken.answer?
          split
          · exact if_neg own
          · rfl
        have blocks (s : Side) : (m₀.link.endpoint s).writers.asleep ≠ [] →
            (m₀.link.endpoint s).HoldsUp := rest.holdsUp reached₀
        refine ⟨deeds, set, handed, ?_, aftermath.other_step orderly reached.booked blocks own call
          awake link next elsewhere⟩
        rw [elsewhere who fun same => own same.symm, answers_snoc, other, Option.toList_none,
          List.append_nil]
        exact course

theorem underway_run (may : m₀.MayRelease event) (idle : m₀.isIdle who = true)
    (moves : List (Move ρ η)) (alone : ∀ mv ∈ moves, mv.goesOn = true) :
    Underway m₀ who event ((m₀.begin who event).journal moves)
      ((m₀.begin who event).run moves) := by
  induction moves using List.reverseRecOn with
  | nil => exact underway_begin reached₀ rest may idle
  | append_singleton front mv ih =>
    have so_far := ih fun mv here => alone mv (List.mem_append_left _ here)
    have reached : ((m₀.begin who event).run front).Reachable :=
      (reached₀.run [.begin who event]).run front
    have one := underway_move reached₀ rest may reached so_far
      (alone mv (List.mem_append_right _ List.mem_cons_self))
    rw [journal_append, run_append]
    simpa [journal, run] using one

end Course

/-! ## When all is settled -/

/-- Nothing happened at the endpoint of `s`: nobody left, the mailbox is as it was, and the same
writers sleep. -/
structure NoneReleased (s : Side) (m₀ : Machine ρ η) (j : List (Taken ρ η)) (m : Machine ρ η) :
    Prop where
  nobody : departures s j = []
  mailbox : (m.link.endpoint s).mailbox = (m₀.link.endpoint s).mailbox
  asleep : (m.link.endpoint s).writers.asleep.Perm (m₀.link.endpoint s).writers.asleep

/-- The receiver `r` is given the oldest message of `s`; the message of one writer that was blocked
took its place behind the others, so that the mailbox is full again; and the other writers sleep. -/
inductive OneAdmitted (s : Side) (r : ρ) (m₀ : Machine ρ η) (j : List (Taken ρ η))
    (m : Machine ρ η) : Prop where
  | mk {oldest new : Nat} {queue : List Nat} {w : Writer}
      (front : (m₀.link.endpoint s).mailbox.queue = oldest :: queue)
      (dispatched : m.link.tasks = m₀.link.tasks ++ [.receive s ⟨r, .message oldest⟩])
      (blocked : w ∈ (m₀.link.endpoint s).writers.asleep)
      (one : departures s j = [(w, .ok (.message new))])
      (mailbox : (m.link.endpoint s).mailbox =
        { (m₀.link.endpoint s).mailbox with queue := queue ++ [new] })
      (full : (m.link.endpoint s).mailbox.isFull = true)
      (others : (m.link.endpoint s).writers.asleep.Perm
        ((m₀.link.endpoint s).writers.asleep.erase w))

/-- All writers that were blocked at `s` were told that it is not open, and the mailbox is as it
was. -/
structure AllTurnedAway (s : Side) (m₀ : Machine ρ η) (j : List (Taken ρ η)) (m : Machine ρ η) :
    Prop where
  all : ((departures s j).map Prod.fst).Perm (m₀.link.endpoint s).writers.asleep
  notOpen : ∀ x ∈ departures s j, x.2 = .error .notOpen
  nobody : (m.link.endpoint s).writers.asleep = []
  mailbox : (m.link.endpoint s).mailbox = (m₀.link.endpoint s).mailbox

/-- The writers that were blocked at `s` under the token `t` were interrupted, the others sleep, and
the mailbox is as it was. -/
structure OnlyAborted (s : Side) (t : Nat) (m₀ : Machine ρ η) (j : List (Taken ρ η))
    (m : Machine ρ η) : Prop where
  under : ((departures s j).map Prod.fst).Perm
    ((m₀.link.endpoint s).writers.asleep.filter (·.token == some t))
  interrupted : ∀ x ∈ departures s j, x.2 = .error .interrupted
  others : (m.link.endpoint s).writers.asleep.Perm
    ((m₀.link.endpoint s).writers.asleep.filter (!·.token == some t))
  mailbox : (m.link.endpoint s).mailbox = (m₀.link.endpoint s).mailbox

/-- What a call releases that is made on `m₀`. -/
def Released (m₀ : Machine ρ η) (j : List (Taken ρ η)) (m : Machine ρ η) : Call ρ η → Prop
  | .receive s r => OneAdmitted s r m₀ j m ∧ NoneReleased s.other m₀ j m
  | .shutDown source => AllTurnedAway source.other m₀ j m ∧ NoneReleased source m₀ j m
  | .close s => AllTurnedAway s m₀ j m ∧ NoneReleased s.other m₀ j m
  | .interrupt t => ∀ s, OnlyAborted s t m₀ j m
  | _ => False

section Settled

variable (h : Aftermath who hit m₀ deeds set handed j m) {s : Side}
  (woken : (m.link.endpoint s).writers.woken = [])

include h woken

theorem Aftermath.left_or_asleep : ((departures s j).map Prod.fst ++
    (m.link.endpoint s).writers.asleep).Perm (m₀.link.endpoint s).writers.asleep := by
  have left := h.left s
  rwa [Condition.waiting, woken, List.append_nil] at left

theorem Aftermath.noneReleased (unhit : ∀ w, hit w = false) (nothing : deeds s = .nothing) :
    NoneReleased s m₀ j m := by
  have left := h.left_or_asleep woken
  have since := h.sides s
  rw [nothing] at since
  have nobody := since.left_eq_nil unhit
  rw [nobody] at left
  cases since with
  | waits mailbox => exact ⟨nobody, mailbox, left⟩

theorem Aftermath.allTurnedAway (reached : m.Reachable) (shut : deeds s = .shut) :
    AllTurnedAway s m₀ j m := by
  have left := h.left_or_asleep woken
  have since := h.sides s
  rw [shut] at since
  cases since with
  | shut _ mailbox closed refused =>
    have nobody := (reached.covered s).opened closed
    rw [nobody, List.append_nil] at left
    exact ⟨left, refused, nobody, mailbox⟩

/-- A free slot does not last, since a writer that is woken for it takes it. -/
theorem Aftermath.oneAdmitted (reached : m.Reachable)
    (blocked : (m₀.link.endpoint s).writers.asleep ≠ []) (blocks : (m₀.link.endpoint s).HoldsUp)
    (served : deeds s = .served) {r : ρ} {oldest : Nat} {queue : List Nat}
    (front : (m₀.link.endpoint s).mailbox.queue = oldest :: queue)
    (dispatched : m.link.tasks = m₀.link.tasks ++ [.receive s ⟨r, .message oldest⟩]) :
    OneAdmitted s r m₀ j m := by
  have left := h.left_or_asleep woken
  have since := h.sides s
  have length := blocks.full
  rw [Mailbox.size, front, List.length_cons] at length
  rw [served] at since
  generalize gone : departures s j = d at since left
  cases since with
  | freed _ front' mailbox =>
    -- Then everybody still sleeps although there is room, with no wakeup on its way.
    rw [front] at front'
    obtain ⟨rfl, rfl⟩ := List.cons.inj front'
    have asleep : (m.link.endpoint s).writers.asleep ≠ [] := by
      intro nobody
      rw [nobody] at left
      exact blocked (List.nil_perm.1 left)
    have slots := (reached.covered s).slots asleep
    rw [woken, mailbox] at slots
    simp only [Mailbox.size, List.length_nil] at slots
    omega
  | @refilled _ _ new _ w _ front' mailbox =>
    rw [front] at front'
    obtain ⟨rfl, rfl⟩ := List.cons.inj front'
    have mine : w ∈ (m₀.link.endpoint s).writers.asleep :=
      left.mem_iff.1 (List.mem_append_left _ (List.mem_singleton.2 rfl))
    refine .mk front dispatched mine gone mailbox ?_ ?_
    · rw [mailbox]
      refine decide_eq_true ?_
      show (m₀.link.endpoint s).mailbox.capacity ≤ (queue ++ [new]).length
      rw [List.length_append, List.length_singleton]
      omega
    · exact ((List.perm_cons_erase mine).symm.trans left.symm).cons_inv.symm

end Settled

/-- Who left and who stayed, told apart by what they are. -/
theorem perm_filter_of_append {α : Type} {p : α → Bool} {gone stay all : List α}
    (whole : (gone ++ stay).Perm all) (left : ∀ x ∈ gone, p x = true)
    (stayed : ∀ x ∈ stay, p x = false) :
    gone.Perm (all.filter p) ∧ stay.Perm (all.filter (!p ·)) := by
  have first := whole.filter p
  have second := whole.filter (!p ·)
  have none : stay.filter p = [] := List.filter_eq_nil_iff.2 fun x here => by simp [stayed x here]
  have none' : gone.filter (!p ·) = [] :=
    List.filter_eq_nil_iff.2 fun x here => by simp [left x here]
  have all_gone : gone.filter p = gone := List.filter_eq_self.2 left
  have all_stay : stay.filter (!p ·) = stay :=
    List.filter_eq_self.2 fun x here => by simp [stayed x here]
  rw [List.filter_append, none, all_gone, List.append_nil] at first
  rw [List.filter_append, none', all_stay, List.nil_append] at second
  exact ⟨first, second⟩

/-- Once the call that set the token is over, nobody sleeps under it. -/
theorem Aftermath.onlyAborted {t : Nat}
    (h : Aftermath who (.interrupt t : Call ρ η).hits m₀ (fun _ => .nothing) true handed j m)
    (reached : m.Reachable) (settled : m.Settled who) (s : Side) : OnlyAborted s t m₀ j m := by
  have left := h.left_or_asleep (settled.woken s)
  have since := h.sides s
  cases since with
  | waits mailbox _ _ aborted =>
    have mine : ∀ w ∈ (departures s j).map Prod.fst, (w.token == some t) = true := by
      intro w there
      obtain ⟨x, here, rfl⟩ := List.mem_map.1 there
      exact (aborted x here).1
    have others : ∀ w ∈ (m.link.endpoint s).writers.asleep, (w.token == some t) = false := by
      intro w asleep
      cases under : w.token == some t with
      | false => rfl
      | true =>
        -- A sleeper under a set token is owed a wakeup by whoever set it, who is done by now.
        have flag := h.flags s w (left.mem_iff.1 (List.mem_append_right _ asleep))
        obtain same : w.token = some t := eq_of_beq under
        rw [Call.hits, under, same] at flag
        obtain ⟨⟨x, c⟩, here, wakes⟩ := reached.heeded s w t asleep same flag
        have call := call?_of_mem reached.orderly here
        have waits := h.others x c (by rintro rfl; cases settled.idle.symm.trans call) call
        cases c with
        | interruptCopy | interruptWake => cases waits
        | _ => exact wakes.elim
    obtain ⟨gone, stay⟩ := perm_filter_of_append left mine others
    exact ⟨gone, fun x here => (aborted x here).2, stay, mailbox⟩

/-- A call that may release writers is made on a machine at rest, and nothing else happens but that
callers take their steps, in any order, or wake without a notification. All can be settled, and when
it is, the call succeeded and exactly the right writers were released: when a message was received,
one of those that were blocked there; when an endpoint was closed, all of them; when a token was
set, those under it at either endpoint. -/
theorem releases_exactly (reached : m.Reachable) (rest : m.AtRest) (idle : m.isIdle who = true)
    (may : m.MayRelease event) (moves : List (Move ρ η))
    (alone : ∀ mv ∈ moves, mv.goesOn = true) :
    (∃ more : List (Move ρ η), (∀ mv ∈ more, ∃ x pick, mv = .step x pick) ∧
      (((m.begin who event).run moves).run more).Settled who) ∧
    (((m.begin who event).run moves).Settled who →
      answers who ((m.begin who event).journal moves) = [.ok .unit] ∧
        m.Released ((m.begin who event).journal moves) ((m.begin who event).run moves) event) := by
  have later := (reached.run [.begin who event]).run moves
  obtain ⟨deeds, set, handed, course, aftermath⟩ := underway_run reached rest may idle moves alone
  have run : (m.run [.begin who event]).run moves = (m.begin who event).run moves := rfl
  rw [run] at later
  generalize (m.begin who event).run moves = after,
    (m.begin who event).journal moves = j at later course aftermath
  refine ⟨exists_settled later fun c call => (call ▸ course).neverSleeps, fun settled => ?_⟩
  rw [settled.idle] at course
  generalize answers who j = answered at course
  cases course with
  | @gave s r oldest queue front =>
    have away : doneAt s .served s.other = .nothing := if_neg s.other_ne
    exact ⟨rfl, aftermath.oneAdmitted (settled.woken s) later may (rest.holdsUp reached may)
      (if_pos rfl) front aftermath.tasks,
      aftermath.noneReleased (settled.woken _) (fun _ => rfl) away⟩
  | stopped source =>
    have away : doneAt source.other .shut source = .nothing := if_neg source.ne_other
    exact ⟨rfl, aftermath.allTurnedAway (settled.woken _) later (if_pos rfl),
      aftermath.noneReleased (settled.woken _) (fun _ => rfl) away⟩
  | closed s =>
    have away : doneAt s .shut s.other = .nothing := if_neg s.other_ne
    exact ⟨rfl, aftermath.allTurnedAway (settled.woken _) later (if_pos rfl),
      aftermath.noneReleased (settled.woken _) (fun _ => rfl) away⟩
  | woke t => exact ⟨rfl, aftermath.onlyAborted later settled⟩

/-- Queue length one. Caller 0 fills the mailbox of `b`, and callers 1, 2 and 3 sleep there: under
token 0, under none and under token 1. -/
def threeBlocked : List (Move Nat Nat) :=
  [.begin 0 (.write .a none false), .step 0 0,
    .begin 1 (.write .a (some 0) false), .step 1 0,
    .begin 2 (.write .a none false), .step 2 0,
    .begin 3 (.write .a (some 1) false), .step 3 0]

/-- After `threeBlocked` caller 4 registers a receiver, which wakes caller 2; or it shuts the writes
down; or it sets token 0, and caller 1 wakes caller 2 in vain as it leaves. -/
theorem released_after_threeBlocked :
    let m := (fresh ⟨1, 1⟩ "pair" none 2 0).run threeBlocked
    let received : List (Move Nat Nat) := [.step 4 1, .step 2 0, .step 1 0, .step 4 0]
    let shut : List (Move Nat Nat) := [.step 4 0, .step 3 0, .step 1 0, .step 2 0]
    let set : List (Move Nat Nat) := [.step 4 0, .step 4 0, .step 4 0, .step 4 0, .step 2 0,
      .step 3 0, .step 1 0, .step 2 0]
    m.AtRest ∧ m.Released ((m.begin 4 (.receive .b 7)).journal received)
        ((m.begin 4 (.receive .b 7)).run received) (.receive .b 7) ∧
      m.Released ((m.begin 4 (.shutDown .a)).journal shut)
        ((m.begin 4 (.shutDown .a)).run shut) (.shutDown .a) ∧
      m.Released ((m.begin 4 (.interrupt 0)).journal set)
        ((m.begin 4 (.interrupt 0)).run set) (.interrupt 0) := by
  intro m received shut set
  have reached : m.Reachable := ⟨⟨1, 1⟩, "pair", none, 2, 0, threeBlocked, rfl⟩
  have rest : m.AtRest := by
    show ∀ x ∈ m.calls, m.link.isAsleep x.1 x.2 = true
    decide
  have blocked : (m.link.endpoint .b).writers.asleep = [⟨1, some 0⟩, ⟨2, none⟩, ⟨3, some 1⟩] := rfl
  have somebody : (m.link.endpoint .b).writers.asleep ≠ [] := blocked ▸ List.cons_ne_nil _ _
  have receive : m.MayRelease (.receive .b 7) := somebody
  have shutDown : m.MayRelease (.shutDown .a) := somebody
  have interrupt : m.MayRelease (.interrupt 0) := by
    show 0 < m.link.tokens.size
    decide
  have settled (after : Machine Nat Nat) (idle : after.isIdle 4 = true)
      (a : (after.link.endpoint .a).writers.woken = [])
      (b : (after.link.endpoint .b).writers.woken = []) : after.Settled 4 :=
    ⟨Option.isNone_iff_eq_none.1 idle, fun s => by cases s <;> assumption⟩
  have idle : m.isIdle 4 = true := by decide
  refine ⟨rest, ?_, ?_, ?_⟩
  · refine ((releases_exactly reached rest idle receive received (by decide)).2 ?_).2
    exact settled _ (by decide +kernel) (by decide +kernel) (by decide +kernel)
  · refine ((releases_exactly reached rest idle shutDown shut (by decide)).2 ?_).2
    exact settled _ (by decide +kernel) (by decide +kernel) (by decide +kernel)
  · refine ((releases_exactly reached rest idle interrupt set (by decide)).2 ?_).2
    exact settled _ (by decide +kernel) (by decide +kernel) (by decide +kernel)

end Machine

end Loopback
