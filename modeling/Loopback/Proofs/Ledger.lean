import Loopback.Proofs.Attempts
import Loopback.Proofs.History
import Mathlib.Tactic.ByContra

/-!
# The ledger of an endpoint

Four code paths pair receivers with messages: a message goes to the receiver that waits, it is
queued, a receiver takes it from the queue, or the end of the stream is told. The ledger of an
endpoint lists what it took in and gave out along a history. `Paired` says that all four keep to one
order: the j-th receiver got the j-th message, the mailbox holds the messages nobody has asked for,
and a receiver beyond the last message waits or was told the end. Whatever is done to an endpoint
keeps that (`Paired.after`), and what a step adds to the ledger is what it does to the endpoint it
works on (`Link.ledger_step`).
-/

namespace Loopback

/-- What an endpoint has taken in and given out so far, oldest first. -/
structure Ledger (ρ : Type) where
  delivered : List Nat
  registered : List ρ
  dispatched : List (Dispatch ρ Nat)

namespace Ledger

variable {ρ η : Type}

/-- Nothing happened. -/
def empty : Ledger ρ := ⟨[], [], []⟩

/-- What happened first and what happened next. -/
def append (g g' : Ledger ρ) : Ledger ρ :=
  ⟨g.delivered ++ g'.delivered, g.registered ++ g'.registered, g.dispatched ++ g'.dispatched⟩

@[simp] theorem append_empty (g : Ledger ρ) : g.append empty = g := by
  simp [append, empty]

/-- The ledger of the endpoint of `s`, read off a history. -/
def ofHistory (s : Side) (h : List (Event ρ η)) : Ledger ρ :=
  ⟨h.filterMap (Event.delivered? s), h.filterMap (Event.registered? s),
    h.filterMap (Event.dispatched? s)⟩

theorem ofHistory_append (s : Side) (h h' : List (Event ρ η)) :
    ofHistory s (h ++ h') = (ofHistory s h).append (ofHistory s h') := by
  simp [ofHistory, append]

end Ledger

/-! ## Pairing in order -/

section Pairing

variable {ρ : Type}

/-- The receivers and the messages, first with first. -/
def pairUp (rs : List ρ) (ms : List Nat) : List (Dispatch ρ Nat) :=
  rs.zipWith (fun r m => ⟨r, .message m⟩) ms

/-- A receiver that comes too late for every message changes no pair. -/
theorem pairUp_late_receiver {rs : List ρ} {ms : List Nat} (h : ms.length ≤ rs.length) (r : ρ) :
    pairUp (rs ++ [r]) ms = pairUp rs ms := by
  induction rs generalizing ms with
  | nil =>
    obtain rfl : ms = [] := List.length_eq_zero_iff.1 (Nat.le_zero.1 h)
    rfl
  | cons r' rs ih =>
    cases ms with
    | nil => rfl
    | cons m ms => exact congrArg (List.cons _) (ih (Nat.le_of_succ_le_succ h))

/-- A message that comes too late for every receiver changes no pair. -/
theorem pairUp_late_message {rs : List ρ} {ms : List Nat} (h : rs.length ≤ ms.length) (m : Nat) :
    pairUp rs (ms ++ [m]) = pairUp rs ms := by
  induction rs generalizing ms with
  | nil => rfl
  | cons r rs ih =>
    cases ms with
    | nil => exact absurd h (Nat.not_succ_le_zero _)
    | cons m' ms => exact congrArg (List.cons _) (ih (Nat.le_of_succ_le_succ h))

/-- A new receiver gets the first message that nobody has. -/
theorem pairUp_next_receiver {rs : List ρ} {ms rest : List Nat} {m : Nat}
    (h : ms.drop rs.length = m :: rest) (r : ρ) :
    pairUp (rs ++ [r]) ms = pairUp rs ms ++ [⟨r, .message m⟩] := by
  induction rs generalizing ms with
  | nil =>
    obtain rfl : ms = m :: rest := h
    rfl
  | cons r' rs ih =>
    cases ms with
    | nil => simp at h
    | cons m' ms => exact congrArg (List.cons _) (ih h)

/-- A new message goes to the first receiver that has none. -/
theorem pairUp_next_message {rs rest : List ρ} {ms : List Nat} {r : ρ}
    (h : rs.drop ms.length = r :: rest) (m : Nat) :
    pairUp rs (ms ++ [m]) = pairUp rs ms ++ [⟨r, .message m⟩] := by
  induction ms generalizing rs with
  | nil =>
    obtain rfl : rs = r :: rest := h
    simp [pairUp]
  | cons m' ms ih =>
    cases rs with
    | nil => simp at h
    | cons r' rs => exact congrArg (List.cons _) (ih h)

/-- The receivers of the pairs are those that came before the messages ran out. -/
theorem receiver_pairUp (rs : List ρ) (ms : List Nat) :
    (pairUp rs ms).map Dispatch.receiver = rs.take ms.length := by
  induction rs generalizing ms with
  | nil => simp [pairUp]
  | cons r rs ih =>
    cases ms with
    | nil => rfl
    | cons m ms => exact congrArg (List.cons r) (ih ms)

end Pairing

/-- The ledger of an endpoint agrees with what the endpoint holds; `ended` are the receivers that
were told the end of the stream. -/
structure Paired {ρ : Type} (g : Ledger ρ) (ended : List ρ) (e : Endpoint ρ Nat) : Prop where
  /-- The receivers got the messages in order, and after the last one the end. -/
  dispatched : g.dispatched = pairUp g.registered g.delivered ++ ended.map (⟨·, .finish⟩)
  /-- A receiver beyond the last message was told the end, or is the one that waits. -/
  beyond : g.registered.drop g.delivered.length = ended ++ e.pending.toList
  /-- The mailbox holds the messages beyond the last receiver. -/
  queued : e.mailbox.queue = g.delivered.drop g.registered.length
  /-- The end is told only by a closed endpoint whose mailbox is empty. -/
  finished : ended ≠ [] → e.closed = true ∧ e.mailbox.queue = []

namespace Paired

variable {ρ : Type} {g : Ledger ρ} {ended : List ρ} {e e' : Endpoint ρ Nat}

theorem start (n : Nat) : Paired (.empty : Ledger ρ) [] (Endpoint.create n) :=
  ⟨rfl, rfl, rfl, fun h => absurd rfl h⟩

/-- An open endpoint told nobody the end. -/
theorem ended_of_open (h : Paired g ended e) (opened : e.closed = false) : ended = [] := by
  by_cases none : ended = []
  · exact none
  · have shut := (h.finished none).1
    rw [opened] at shut
    exact Bool.noConfusion shut

/-- While messages are queued no receiver is beyond the last one. -/
theorem length_lt_of_queue (h : Paired g ended e) {m : Nat} {rest : List Nat}
    (front : e.mailbox.queue = m :: rest) : g.registered.length < g.delivered.length := by
  by_contra beyond
  have queued := h.queued
  rw [List.drop_eq_nil_of_le (Nat.le_of_not_lt beyond), front] at queued
  exact List.cons_ne_nil _ _ queued

theorem length_le_of_empty (h : Paired g ended e) (empty : e.mailbox.queue = []) :
    g.delivered.length ≤ g.registered.length := by
  rw [← List.drop_eq_nil_iff, ← h.queued]
  exact empty

/-- A receiver waits only while the mailbox is empty. -/
theorem empty_of_pending (h : Paired g ended e) {r : ρ} (waits : e.pending = some r) :
    e.mailbox.queue = [] := by
  cases front : e.mailbox.queue with
  | nil => rfl
  | cons m rest =>
    have beyond := h.beyond
    rw [List.drop_eq_nil_of_le (Nat.le_of_lt (h.length_lt_of_queue front)), waits] at beyond
    simp at beyond

/-- Every receiver was dispatched once, in the order of registration, but for the one that waits. -/
theorem registered_eq (h : Paired g ended e) :
    g.registered = g.dispatched.map Dispatch.receiver ++ e.pending.toList := by
  rw [h.dispatched, List.map_append, receiver_pairUp, List.map_map, List.append_assoc]
  have told : ended.map (Dispatch.receiver ∘ fun r => (⟨r, .finish⟩ : Dispatch ρ Nat)) = ended :=
    List.map_id ended
  rw [told, ← h.beyond, List.take_append_drop]

/-- Nothing of what the ledger speaks of changes when writers wake or fall asleep. -/
theorem congr (h : Paired g ended e) (mailbox : e'.mailbox = e.mailbox)
    (pending : e'.pending = e.pending) (closed : e.closed = true → e'.closed = true) :
    Paired g ended e' where
  dispatched := h.dispatched
  beyond := by rw [pending, h.beyond]
  queued := by rw [mailbox, h.queued]
  finished some := by
    rw [mailbox]
    exact ⟨closed (h.finished some).1, (h.finished some).2⟩

end Paired

/-! ## What an operation adds to the ledger -/

section Operations

variable {ρ : Type}

/-- What an attempt to write the message `m` adds. -/
def Entry.ledger (m : Nat) : Entry ρ → Ledger ρ
  | .queued => ⟨[m], [], []⟩
  | .handed r => ⟨[m], [], [⟨r, .message m⟩]⟩
  | .refused _ | .sleeps => .empty

/-- What the registration of `r` adds. -/
def Registration.ledger (r : ρ) : Registration ρ Nat → Ledger ρ
  | .refused => .empty
  | .waits => ⟨[], [r], []⟩
  | .given d => ⟨[], [r], [d]⟩

/-- What one hold of the lock of an endpoint adds. -/
def Endpoint.ledger (pick m : Nat) (e : Endpoint ρ Nat) : Hold ρ → Ledger ρ
  | .enter w interrupted => (e.enter pick w interrupted m).2.ledger m
  | .resume w interrupted => (e.resume pick w interrupted m).2.ledger m
  | .register r => (e.register pick r).2.ledger r
  | .shutDown => ⟨[], [], e.shutDown.2.toList⟩
  | .closeOff | .wakeWriters | .rouse _ => .empty

/-- Only an attempt to write adds a message. -/
theorem Endpoint.delivered_ledger {pick m : Nat} {e : Endpoint ρ Nat} {h : Hold ρ}
    (other : h.isAttempt = false) : (e.ledger pick m h).delivered = [] := by
  cases h with
  | enter w i => simp [Hold.isAttempt] at other
  | resume w i => simp [Hold.isAttempt] at other
  | register r =>
    rw [ledger]
    cases (e.register pick r).2 <;> rfl
  | _ => rfl

variable {g : Ledger ρ} {ended : List ρ} {e e' : Endpoint ρ Nat} {pick : Nat}

/-- A message that is taken goes to the receiver beyond the last one, or behind those queued. -/
theorem Endpoint.Attempt.paired {w : Writer} {interrupted : Bool} {m : Nat} {entry : Entry ρ}
    (ha : Attempt pick w interrupted m e e' entry) (h : Paired g ended e) :
    Paired (g.append (entry.ledger m)) ended e' := by
  cases ha with
  | closed | interrupted =>
    rw [Entry.ledger, Ledger.append_empty]
    exact h
  | sleeps =>
    rw [Entry.ledger, Ledger.append_empty]
    exact h.congr rfl rfl id
  | @handed r opened room empty waits =>
    obtain rfl := h.ended_of_open opened
    -- The receiver that waits is the only one beyond the last message.
    have beyond : g.registered.drop g.delivered.length = [r] := by
      rw [h.beyond, waits]
      rfl
    refine ⟨?_, ?_, ?_, fun some => absurd rfl some⟩
    · simp only [Ledger.append, Entry.ledger, List.append_nil, List.map_nil]
      rw [pairUp_next_message beyond, h.dispatched, List.map_nil, List.append_nil]
    · simp only [Ledger.append, Entry.ledger, List.append_nil, List.length_append]
      rw [List.length_singleton, ← List.drop_drop, beyond]
      rfl
    · have short := congrArg List.length beyond
      rw [List.length_drop, List.length_singleton] at short
      show e.mailbox.queue = _
      simp only [Ledger.append, Entry.ledger, List.append_nil]
      rw [empty, List.drop_eq_nil_of_le]
      rw [List.length_append, List.length_singleton]
      omega
  | queued opened room order =>
    obtain rfl := h.ended_of_open opened
    have nobody : e.pending = none := by
      cases waits : e.pending with
      | none => rfl
      | some r =>
        -- A receiver that waits finds the mailbox empty, and an empty mailbox hands over.
        have nobody := order (h.empty_of_pending waits)
        rw [waits] at nobody
        exact absurd nobody (Option.some_ne_none r)
    have short : g.registered.length ≤ g.delivered.length := by
      rw [← List.drop_eq_nil_iff, h.beyond, nobody]
      rfl
    refine ⟨?_, ?_, ?_, fun some => absurd rfl some⟩
    · simp only [Ledger.append, Entry.ledger, List.append_nil]
      rw [pairUp_late_message short]
      exact h.dispatched
    · simp only [Ledger.append, Entry.ledger, List.append_nil]
      show _ = [] ++ e.pending.toList
      rw [nobody, List.drop_eq_nil_of_le]
      · rfl
      · rw [List.length_append]
        omega
    · show e.mailbox.queue ++ [m] = _
      simp only [Ledger.append, Entry.ledger, List.append_nil]
      rw [List.drop_append_of_le_length short, h.queued]

/-- A receiver gets the front of the queue, or is beyond the last message. -/
theorem Endpoint.Registering.paired {r : ρ} {answer : Registration ρ Nat}
    (hr : Registering pick r e e' answer) (h : Paired g ended e) :
    ∃ ended', Paired (g.append (answer.ledger r)) ended' e' := by
  cases hr with
  | refused waits =>
    refine ⟨ended, ?_⟩
    rw [Registration.ledger, Ledger.append_empty]
    exact h
  | @message m rest nobody front =>
    have short := h.length_lt_of_queue front
    -- The end is told only when nothing is queued.
    have none : ended = [] := by
      by_contra some
      rw [(h.finished some).2] at front
      simp at front
    subst none
    have next : g.delivered.drop g.registered.length = m :: rest := by rw [← h.queued, front]
    refine ⟨[], ?_, ?_, ?_, fun some => absurd rfl some⟩
    · simp only [Ledger.append, Registration.ledger, List.append_nil, List.map_nil]
      rw [pairUp_next_receiver next, h.dispatched, List.map_nil, List.append_nil]
    · simp only [Ledger.append, Registration.ledger, List.append_nil]
      show _ = [] ++ e.pending.toList
      rw [nobody, List.drop_eq_nil_of_le]
      · rfl
      · rw [List.length_append, List.length_singleton]
        exact short
    · simp only [Ledger.append, Registration.ledger, List.append_nil, List.length_append]
      rw [List.length_singleton, ← List.drop_drop, next]
      rfl
  | finish nobody empty shut =>
    have long := h.length_le_of_empty empty
    -- Every message has been asked for, so the receiver changes no pair.
    refine ⟨ended ++ [r], ?_, ?_, ?_, fun _ => ⟨shut, empty⟩⟩
    · simp only [Ledger.append, Registration.ledger, List.append_nil]
      rw [pairUp_late_receiver long, h.dispatched, List.map_append, List.append_assoc]
      rfl
    · simp only [Ledger.append, Registration.ledger, List.append_nil]
      rw [List.drop_append_of_le_length long, h.beyond, nobody]
      simp
    · simp only [Ledger.append, Registration.ledger, List.append_nil]
      rw [empty, List.drop_eq_nil_of_le]
      rw [List.length_append]
      omega
  | waits nobody empty opened =>
    have long := h.length_le_of_empty empty
    obtain rfl := h.ended_of_open opened
    refine ⟨[], ?_, ?_, ?_, fun some => absurd rfl some⟩
    · simp only [Ledger.append, Registration.ledger, List.append_nil]
      rw [pairUp_late_receiver long]
      exact h.dispatched
    · simp only [Ledger.append, Registration.ledger, List.append_nil]
      rw [List.drop_append_of_le_length long, h.beyond, nobody]
      rfl
    · show e.mailbox.queue = _
      simp only [Ledger.append, Registration.ledger, List.append_nil]
      rw [empty, List.drop_eq_nil_of_le]
      rw [List.length_append]
      omega

/-- A shutdown tells the end to the receiver that waits on an empty mailbox. -/
theorem Endpoint.Stopping.paired {d? : Option (Dispatch ρ Nat)} (hs : Stopping e e' d?)
    (h : Paired g ended e) : ∃ ended', Paired (g.append ⟨[], [], d?.toList⟩) ended' e' := by
  cases hs with
  | again shut =>
    refine ⟨ended, ?_⟩
    rw [Option.toList_none, ← Ledger.empty, Ledger.append_empty]
    exact h
  | @ends r opened empty waits =>
    obtain rfl := h.ended_of_open opened
    -- An open endpoint told nobody the end; the one that waits is the first.
    refine ⟨[r], ?_, ?_, ?_, fun _ => ⟨rfl, empty⟩⟩
    · simp only [Ledger.append, List.append_nil, Option.toList_some]
      rw [h.dispatched, List.map_nil, List.append_nil]
      rfl
    · simp only [Ledger.append, List.append_nil]
      rw [h.beyond, waits]
      rfl
    · simp only [Ledger.append, List.append_nil]
      exact h.queued
  | quietly opened order =>
    refine ⟨ended, ?_⟩
    rw [Option.toList_none, ← Ledger.empty, Ledger.append_empty]
    exact h.congr rfl rfl fun _ => rfl

/-- Whatever is done to an endpoint keeps its receivers and messages paired. -/
theorem Paired.after (h : Paired g ended e) (pick m : Nat) (hold : Hold ρ) :
    ∃ ended', Paired (g.append (e.ledger pick m hold)) ended' (e.after pick m hold) := by
  cases hold with
  | enter w interrupted =>
    exact ⟨ended, (Endpoint.attempt_enter pick w interrupted m e).paired h⟩
  | resume w interrupted =>
    -- Leaving the woken writers touches neither receivers nor messages.
    have left : Paired g ended { e with writers := e.writers.leave w } := h.congr rfl rfl id
    refine ⟨ended, ?_⟩
    cases interrupted with
    | true =>
      rw [Endpoint.ledger, Endpoint.resume_interrupted, Entry.ledger, Ledger.append_empty]
      exact h.congr rfl rfl id
    | false => exact (Endpoint.attempt_enter pick w false m _).paired left
  | register r => exact (Endpoint.registering_register pick r e).paired h
  | shutDown => exact (Endpoint.stopping_shutDown e).paired h
  | closeOff =>
    refine ⟨ended, ?_⟩
    rw [Endpoint.ledger, Ledger.append_empty]
    exact h.congr rfl rfl fun _ => rfl
  | wakeWriters | rouse =>
    refine ⟨ended, ?_⟩
    rw [Endpoint.ledger, Ledger.append_empty]
    exact h.congr rfl rfl id

end Operations

/-! ## What a step adds to the ledger -/

namespace Link

variable {ρ η : Type} (l : Link ρ η) {pick who : Nat}

@[simp] theorem dispatches_receive (s : Side) (d : Dispatch ρ Nat) :
    dispatches [(.receive s d : Task ρ η)] = [.dispatched s d] := rfl

/-- The events of an attempt to write, in the ledger of the endpoint it is made on. -/
theorem ledger_write {source : Side} {token : Option Nat} {woken : Bool} {l' : Link ρ η}
    {e : Endpoint ρ Nat} {entry : Entry ρ}
    (h : l.stepWrite pick who source token woken = l'.finishWrite source token e entry)
    (size : l'.messages.size = l.messages.size) (s : Side) :
    Ledger.ofHistory s (l.events pick who (.write source token woken)) =
      if source.other = s then entry.ledger l.messages.size else .empty := by
  simp only [events, step, h]
  cases entry with
  | refused | sleeps => simp [finishWrite, Ledger.ofHistory, Entry.ledger, Ledger.empty]
  | queued | handed =>
    by_cases here : source.other = s
    · simp [finishWrite, Ledger.ofHistory, Entry.ledger, Event.delivered?, Event.registered?,
        Event.dispatched?, List.filterMap_cons, size, here]
    · simp [finishWrite, Ledger.ofHistory, Ledger.empty, Event.delivered?, Event.registered?,
        Event.dispatched?, here]

theorem ledger_receive (side s : Side) (r : ρ) :
    Ledger.ofHistory s (l.events pick who (.receive side r)) =
      if side = s then ((l.endpoint side).register pick r).2.ledger r else .empty := by
  simp only [events, step, stepReceive]
  cases ((l.endpoint side).register pick r).2 with
  | refused => simp [Ledger.ofHistory, Registration.ledger, Ledger.empty]
  | waits | given =>
    by_cases here : side = s
    · simp [Ledger.ofHistory, Registration.ledger, Event.delivered?, Event.registered?,
        Event.dispatched?, List.filterMap_cons, here]
    · simp [Ledger.ofHistory, Ledger.empty, Event.delivered?, Event.registered?,
        Event.dispatched?, here]

theorem ledger_shutDown (source s : Side) :
    Ledger.ofHistory s (l.events pick who (.shutDown source)) =
      if source.other = s then ⟨[], [], (l.endpoint source.other).shutDown.2.toList⟩
      else .empty := by
  simp only [events, step, stepShutDown]
  cases (l.endpoint source.other).shutDown.2 with
  | none => simp [Ledger.ofHistory, Ledger.empty]
  | some d =>
    by_cases here : source.other = s
    · simp [Ledger.ofHistory, Event.delivered?, Event.registered?, Event.dispatched?, here]
    · simp [Ledger.ofHistory, Ledger.empty, Event.delivered?, Event.registered?,
        Event.dispatched?, here]

/-- What becomes of the bytes of a message is in no ledger. -/
theorem ledger_stream (k : Nat) (c : MessageCall) (s : Side) :
    Ledger.ofHistory s (l.events pick who (.stream k c)) = .empty := by
  simp only [events]
  split
  · rw [Ledger.ofHistory, filterMap_stream fun _ => rfl, filterMap_stream fun _ => rfl,
      filterMap_stream fun _ => rfl]
    rfl
  · rfl

/-- The ledgers after a step: what the step adds is what it does to the endpoint it works on. -/
theorem ledger_step (pick who : Nat) (c : Call ρ η) (s : Side) :
    Ledger.ofHistory s (l.events pick who c) =
      match c.hold? l who with
      | some (t, h) =>
        if s = t then (l.endpoint t).ledger pick l.messages.size h else .empty
      | none => .empty := by
  cases c with
  | write source token woken =>
    cases woken with
    | false =>
      rw [ledger_write l (stepWrite_first l pick who source token) rfl s]
      simp only [Call.hold?, Endpoint.ledger, eq_comm]
    | true =>
      have size := congrArg Array.size (messages_modifyToken? l token (·.unpark source.other))
      rw [ledger_write l (stepWrite_woken l pick who source token) size s]
      simp only [Call.hold?, Endpoint.ledger, eq_comm]
  | receive side r =>
    rw [ledger_receive]
    simp only [Call.hold?, Endpoint.ledger, eq_comm]
  | shutDown source =>
    rw [ledger_shutDown]
    simp only [Call.hold?, Endpoint.ledger, eq_comm]
  | stream k c => exact ledger_stream l k c s
  | closeEndpoint side =>
    simp [events, Call.hold?, Endpoint.ledger, Ledger.ofHistory, Ledger.empty]
  | interruptWake places =>
    cases places with
    | nil => rfl
    | cons p places =>
      simp [events, Call.hold?, Endpoint.ledger, Ledger.ofHistory, Ledger.empty]
  | _ => rfl

/-- A message that is taken bears the number of the messages before it. -/
theorem delivered_step (pick who : Nat) (c : Call ρ η) (s : Side) :
    ((Ledger.ofHistory s (l.events pick who c)).delivered = [] ∧
      l.messages.size ≤ (l.step pick who c).1.messages.size) ∨
    ((Ledger.ofHistory s (l.events pick who c)).delivered = [l.messages.size] ∧
      (l.step pick who c).1.messages.size = l.messages.size + 1) := by
  cases other : c.isWrite with
  | true =>
    cases c with
    | write source token woken =>
      obtain ⟨l', e, entry, h, same, -⟩ := l.exists_finishWrite pick who source token woken
      rw [ledger_write l h (congrArg Array.size same), step, h, messages_finishWrite, same]
      by_cases here : source.other = s
      · cases entry <;> simp [Entry.ledger, Entry.isTaken, Ledger.empty, here]
      · cases entry <;> simp [Entry.isTaken, Ledger.empty, here]
    | _ => simp [Call.isWrite] at other
  | false =>
    refine .inl ⟨?_, ?_⟩
    · rw [ledger_step]
      split
      · next t h hold =>
        split
        · exact Endpoint.delivered_ledger ((Call.isAttempt_of_hold? hold).trans other)
        · rfl
      · rfl
    · rw [(step_frame l pick who other).2.1]
      split
      · split
        · exact Nat.le_of_eq Array.size_setIfInBounds.symm
        · exact Nat.le_refl _
      · exact Nat.le_refl _

end Link

end Loopback
