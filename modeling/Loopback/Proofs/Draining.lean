import Loopback.Proofs.Occupancy

/-!
# A closed endpoint drains and ends for good

From the moment an endpoint is closed and nobody waits at it, its future is settled: the messages it
holds go to the next receivers, in order and one each, every later receiver is told the end, and no
write adds anything. `Endpoint.Drains` says so of the ledger kept since that moment, and every hold
of the lock keeps it, whatever is called in whatever order (`Machine.closed_drains_then_ends`).
-/

namespace Loopback

/-- What the receiver gets that comes after `n` others to the messages `ms`, when no message follows
them. -/
def Delivery.nth (ms : List Nat) (n : Nat) : Delivery Nat := ms[n]?.elim .finish .message

namespace Endpoint

variable {ρ : Type} {pick m : Nat} {e e' : Endpoint ρ Nat} {ms : List Nat} {g : Ledger ρ}

/-- Since a closed endpoint held the messages `ms` it took no message and let no receiver wait: the
ledger `g` lists receivers that got those messages in order, and then receivers that were told the
end. -/
structure Drains (ms : List Nat) (g : Ledger ρ) (e : Endpoint ρ Nat) : Prop where
  closed : e.closed = true
  nobody : e.pending = none
  refused : g.delivered = []
  queued : e.mailbox.queue = ms.drop g.registered.length
  dispatched : g.dispatched =
    pairUp g.registered ms ++ (g.registered.drop ms.length).map (⟨·, .finish⟩)

theorem Drains.start (closed : e.closed = true) (nobody : e.pending = none) :
    Drains e.mailbox.queue .empty e where
  closed := closed
  nobody := nobody
  refused := rfl
  queued := rfl
  dispatched := by simp [Ledger.empty, pairUp]

/-- Writers may come and go. -/
theorem Drains.congr (h : Drains ms g e) (closed : e'.closed = true)
    (pending : e'.pending = e.pending) (mailbox : e'.mailbox = e.mailbox) : Drains ms g e' where
  closed := closed
  nobody := by rw [pending, h.nobody]
  refused := h.refused
  queued := by rw [mailbox, h.queued]
  dispatched := h.dispatched

theorem Attempt.drains {w : Writer} {interrupted : Bool} {entry : Entry ρ}
    (ha : Attempt pick w interrupted m e e' entry) (h : Drains ms g e) :
    Drains ms (g.append (entry.ledger m)) e' := by
  have shut := h.closed
  cases ha with
  | closed =>
    rw [Entry.ledger, Ledger.append_empty]
    exact h
  | handed opened | queued opened | interrupted opened | sleeps opened =>
    -- Every other outcome needs an open endpoint.
    rw [shut] at opened
    exact Bool.noConfusion opened

/-- The next receiver gets the message in front, or is told the end. -/
theorem Registering.drains {r : ρ} {answer : Registration ρ Nat}
    (hr : Registering pick r e e' answer) (h : Drains ms g e) :
    Drains ms (g.append (answer.ledger r)) e' := by
  cases hr with
  | refused waits =>
    rw [h.nobody] at waits
    exact absurd waits.symm (Option.some_ne_none _)
  | waits nobody empty opened =>
    rw [h.closed] at opened
    exact Bool.noConfusion opened
  | @message x rest nobody front =>
    have next : ms.drop g.registered.length = x :: rest := by rw [← h.queued, front]
    -- A message is left for this receiver, so nobody was told the end yet.
    have short : g.registered.length < ms.length := by
      apply Nat.lt_of_not_le
      intro long
      rw [List.drop_eq_nil_of_le long] at next
      exact List.cons_ne_nil _ _ next.symm
    have told : g.registered.drop ms.length = [] := List.drop_eq_nil_of_le (Nat.le_of_lt short)
    have told' : (g.registered ++ [r]).drop ms.length = [] := by
      apply List.drop_eq_nil_of_le
      rw [List.length_append, List.length_singleton]
      exact short
    refine ⟨h.closed, h.nobody, ?_, ?_, ?_⟩
    · simpa only [Ledger.append, Registration.ledger, List.append_nil] using h.refused
    · simp only [Ledger.append, Registration.ledger, List.length_append, List.length_singleton]
      rw [← List.drop_drop, next]
      rfl
    · simp only [Ledger.append, Registration.ledger]
      rw [h.dispatched, told, told', pairUp_next_receiver next, List.map_nil, List.append_nil,
        List.append_nil]
  | finish nobody empty shut =>
    have long : ms.length ≤ g.registered.length := by
      rw [← List.drop_eq_nil_iff, ← h.queued]
      exact empty
    refine ⟨h.closed, h.nobody, ?_, ?_, ?_⟩
    · simpa only [Ledger.append, Registration.ledger, List.append_nil] using h.refused
    · simp only [Ledger.append, Registration.ledger, List.length_append, List.length_singleton]
      rw [empty, List.drop_eq_nil_of_le (Nat.le_succ_of_le long)]
    · simp only [Ledger.append, Registration.ledger]
      rw [h.dispatched, pairUp_late_receiver long, List.drop_append_of_le_length long,
        List.map_append, List.append_assoc]
      rfl

theorem Drains.after (h : Drains ms g e) (pick m : Nat) (hold : Hold ρ) :
    Drains ms (g.append (e.ledger pick m hold)) (e.after pick m hold) := by
  cases hold with
  | enter w interrupted => exact (attempt_enter pick w interrupted m e).drains h
  | resume w interrupted =>
    have left : Drains ms g { e with writers := e.writers.leave w } := h.congr h.closed rfl rfl
    cases interrupted with
    | true =>
      rw [ledger, resume_interrupted, Entry.ledger, Ledger.append_empty]
      exact h.congr h.closed rfl rfl
    | false => exact (attempt_enter pick w false m _).drains left
  | register r => exact (registering_register pick r e).drains h
  | shutDown =>
    have again : e.shutDown = (e, none) := by simp [shutDown, h.closed]
    rw [ledger, Endpoint.after, again, Option.toList_none, ← Ledger.empty, Ledger.append_empty]
    exact h
  | closeOff =>
    rw [ledger, Ledger.append_empty]
    exact h.congr rfl rfl rfl
  | wakeWriters | rouse =>
    rw [ledger, Ledger.append_empty]
    exact h.congr h.closed rfl rfl

/-- A receiver that comes now is not refused, and does not wait. -/
theorem Drains.register_eq (h : Drains ms g e) (pick : Nat) (r : ρ) :
    (e.register pick r).2 = .given ⟨r, .nth ms g.registered.length⟩ := by
  have front : ms[g.registered.length]? = e.mailbox.queue.head? := by
    rw [h.queued, List.head?_drop]
  rw [Delivery.nth, front]
  have registering := registering_register pick r e
  generalize e.register pick r = turn at registering
  obtain ⟨e', answer⟩ := turn
  cases registering with
  | refused waits =>
    rw [h.nobody] at waits
    exact absurd waits.symm (Option.some_ne_none _)
  | waits nobody empty opened =>
    rw [h.closed] at opened
    exact Bool.noConfusion opened
  | message nobody front => rw [front]; rfl
  | finish nobody empty shut => rw [empty]; rfl

end Endpoint

namespace Link

variable {ρ η : Type} {l : Link ρ η} {pick who : Nat}

/-- A write towards a closed endpoint fails, and does not wait. A writer that slept looks at its
token first. -/
theorem write_of_closed {source : Side} (shut : (l.endpoint source.other).closed = true)
    (token : Option Nat) (woken : Bool) :
    (l.step pick who (.write source token woken)).2 =
      .done (.error (if woken && l.isInterrupted token then .interrupted else .notOpen)) := by
  cases woken with
  | false =>
    rw [step, stepWrite_first]
    simp [finishWrite, Endpoint.enter, shut]
  | true =>
    rw [step, stepWrite_woken]
    cases set : l.isInterrupted token with
    | true => simp [finishWrite, Endpoint.resume_interrupted]
    | false => simp [finishWrite, Endpoint.resume_again, Endpoint.enter, shut]

theorem receive_of_drains {s : Side} {ms : List Nat} {g : Ledger ρ}
    (h : Endpoint.Drains ms g (l.endpoint s)) (r : ρ) :
    (l.step pick who (.receive s r)).2 =
      .more (.submit [.receive s ⟨r, .nth ms g.registered.length⟩] (.ok .unit)) := by
  simp only [step, stepReceive, h.register_eq pick r]

end Link

namespace Machine

variable {ρ η : Type} {m m' : Machine ρ η} {s : Side}

theorem Reachable.orderly (h : m.Reachable) : m.Orderly :=
  h.induct orderly_fresh fun orderly _ one => orderly.of_moves one

theorem Reachable.run (h : m.Reachable) (later : List (Move ρ η)) : (m.run later).Reachable := by
  obtain ⟨config, first, second, tokens, signals, schedule, rfl⟩ := h
  exact ⟨config, first, second, tokens, signals, schedule ++ later, run_append _ _ _⟩

/-- The calls of the writers towards `s` that have slept are calls of `m`. -/
def SleptBefore (s : Side) (m m' : Machine ρ η) : Prop :=
  ∀ who source token, source.other = s → (who, .write source token true) ∈ m'.calls →
    (who, .write source token true) ∈ m.calls

/-- Nobody falls asleep at a closed endpoint. -/
theorem SleptBefore.of_moves {m₀ : Machine ρ η} (h : SleptBefore s m₀ m)
    (shut : (m.link.endpoint s).closed = true) {mv : Move ρ η} {es : List (Event ρ η)}
    (one : Moves m mv m' es) : SleptBefore s m₀ m' := by
  intro who source token towards here
  cases one with
  | stays | rouses | takes => exact h who source token towards here
  | @begins who' c idle entry =>
    rcases List.mem_append.1 here with old | new
    · exact h who source token towards old
    · -- A call that begins has not slept.
      obtain ⟨-, rfl⟩ := Prod.mk.inj (List.mem_singleton.1 new)
      simp [Call.isEntry] at entry
  | @steps who' pick c rest calls now awake next =>
    rcases List.mem_append.1 (next.mem_iff.1 here) with mine | others
    · obtain ⟨c', hc, same⟩ := List.mem_map.1 mine
      obtain ⟨rfl, rfl⟩ := Prod.mk.inj same
      have onward := Option.mem_toList.1 hc
      cases Link.follows_step onward with
      | @sleeps _ _ woken =>
        subst towards
        rw [Link.write_of_closed shut] at onward
        exact absurd onward.symm (Option.some_ne_none _)
    · exact h who source token towards (now.mem_iff.2 (List.mem_cons_of_mem _ others))

theorem drains_run (orderly : m.Orderly) (shut : (m.link.endpoint s).closed = true)
    (nobody : (m.link.endpoint s).pending = none) (later : List (Move ρ η)) :
    Endpoint.Drains (m.link.endpoint s).mailbox.queue (Ledger.ofHistory s (m.history later))
        ((m.run later).link.endpoint s) ∧ SleptBefore s m (m.run later) := by
  refine run_induction
    (P := fun h m' => Endpoint.Drains (m.link.endpoint s).mailbox.queue (Ledger.ofHistory s h)
      (m'.link.endpoint s) ∧ SleptBefore s m m')
    orderly ⟨.start shut nobody, fun _ _ _ _ here => here⟩ ?_ later
  rintro h m₁ mv m₂ es - ⟨drains, slept⟩ one
  constructor
  · rw [Ledger.ofHistory_append]
    rcases one.ledger s with ⟨same, none⟩ | ⟨pick, n, hold, after, added⟩
    · rw [same, none, Ledger.append_empty]
      exact drains
    · rw [after, added]
      exact drains.after pick n hold
  · exact slept.of_moves drains.closed one

/-- A caller that writes towards a closed endpoint is answered with its next step. -/
theorem step_write_of_closed (reached : m.Reachable) {who pick : Nat} {source : Side}
    {token : Option Nat} {woken : Bool} (here : (who, .write source token woken) ∈ m.calls)
    (shut : (m.link.endpoint source.other).closed = true) :
    (m.step who pick).2 =
      some (.error (if woken && m.link.isInterrupted token then .interrupted else .notOpen)) := by
  have call := call?_of_mem reached.orderly here
  have awake : m.link.isAsleep who (.write source token woken) = false := by
    simp [Link.isAsleep, (reached.covered source.other).opened shut]
  have answer : (m.link.step pick who (.write source token woken)).2 = _ :=
    Link.write_of_closed shut token woken
  simp only [step, call, awake, Bool.false_eq_true, if_false, answer]

/-- A closed endpoint at which nobody waits drains, and then ends for good, whatever follows. No
write adds a message and no receiver waits there any more; the receivers that come get the messages
it held, in order and one each, and then the end. A receiver that comes next is given its share at
once. Every write towards it is answered with its next step: the endpoint is not open, or, if the
writer slept since before, its token was set. -/
theorem closed_drains_then_ends (reached : m.Reachable) (s : Side)
    (shut : (m.link.endpoint s).closed = true) (nobody : (m.link.endpoint s).pending = none)
    (later : List (Move ρ η)) :
    let ms := (m.link.endpoint s).mailbox.queue
    let g := Ledger.ofHistory s (m.history later)
    let m' := m.run later
    Endpoint.Drains ms g (m'.link.endpoint s) ∧
      (∀ pick who r, (m'.link.step pick who (.receive s r)).2 =
        .more (.submit [.receive s ⟨r, .nth ms g.registered.length⟩] (.ok .unit))) ∧
      ∀ who source token woken, (who, .write source token woken) ∈ m'.calls → source.other = s →
        (∀ pick, (m'.step who pick).2 =
          some (.error (if woken && m'.link.isInterrupted token then .interrupted
            else .notOpen))) ∧
        (woken = true → (who, .write source token true) ∈ m.calls) := by
  intro ms g m'
  obtain ⟨drains, slept⟩ : Endpoint.Drains ms g (m'.link.endpoint s) ∧ SleptBefore s m m' :=
    drains_run reached.orderly shut nobody later
  refine ⟨drains, ?_, ?_⟩
  · intro pick who r
    exact Link.receive_of_drains drains r
  · intro who source token woken here towards
    constructor
    · intro pick
      subst towards
      exact step_write_of_closed (reached.run later) here drains.closed
    · rintro rfl
      exact slept who source token towards here

/-- Caller 0 fills the mailbox of `b`, caller 1 sleeps under a token, `a` shuts its writes down, and
the token is set. -/
def halfClosing : List (Move Nat Nat) :=
  [.begin 0 (.write .a none false), .step 0 0,
    .begin 1 (.write .a (some 0) false), .step 1 0,
    .begin 2 (.shutDown .a), .step 2 0,
    .begin 3 (.interrupt 0), .step 3 0]

/-- After `halfClosing` one receiver gets the message, and another one is told the end. A write that
begins now finds the endpoint closed, and the writer that slept finds its token set. -/
theorem drained_after_halfClosing :
    ∃ m m' : Machine Nat Nat, m.Reachable ∧
      m' = m.run [.begin 4 (.receive .b 7), .step 4 0, .begin 5 (.write .a none false)] ∧
      (m.link.endpoint .b).closed = true ∧ (m.link.endpoint .b).pending = none ∧
      (m'.link.step 0 6 (.receive .b 8)).2 =
        .more (.submit [.receive .b ⟨8, .finish⟩] (.ok .unit)) ∧
      (m'.step 1 0).2 = some (.error .interrupted) ∧
      (m'.step 5 0).2 = some (.error .notOpen) := by
  have reached : ((fresh ⟨1, 4⟩ "pair" none 1 0).run halfClosing).Reachable :=
    ⟨⟨1, 4⟩, "pair", none, 1, 0, halfClosing, rfl⟩
  refine ⟨_, _, reached, rfl, rfl, rfl, ?_⟩
  obtain ⟨-, next, writes⟩ := closed_drains_then_ends reached .b rfl rfl
    [.begin 4 (.receive .b 7), .step 4 0, .begin 5 (.write .a none false)]
  refine ⟨next 0 6 8, ?_, ?_⟩
  · exact (writes 1 .a (some 0) true List.mem_cons_self rfl).1 0
  · -- The call that began last stands behind those of callers 1, 3 and 4.
    have new : ((1, .write .a (some 0) true) :: (3, .interruptCopy 0) ::
        (4, .submit [.receive .b ⟨7, .message 0⟩] (.ok .unit)) ::
          [(5, .write .a none false)] : List (Nat × Call Nat Nat))[3]? = _ := rfl
    exact (writes 5 .a none false (List.mem_of_getElem? new) rfl).1 0

end Machine

end Loopback
