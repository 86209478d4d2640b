import Loopback.Proofs.Sleepers

/-!
# No wakeup is lost

One condition wakes writers for three reasons: a slot is free, the endpoint is closed, a token was
set. A notification wakes one writer, whatever the reason, and that writer may leave or find the
mailbox full again. Two invariants show that no writer sleeps in vain.

`Endpoint.Covered` counts: while somebody sleeps, there are at least as many woken writers as free
slots, and nobody sleeps at a closed endpoint. `Machine.Heeded` follows an interrupt from the flag
over the copy of the registry to the wakeup: as long as a writer sleeps under a set token, a caller
is on its way to wake it. Together they give `writer_asleep_of_quiet`.
-/

namespace Loopback

namespace Endpoint

variable {ρ μ : Type}

/-- Every free slot but `spare` has a woken writer to take it, as long as anybody sleeps. -/
structure Covered (spare : Nat) (e : Endpoint ρ μ) : Prop where
  fits : e.mailbox.size ≤ e.mailbox.capacity
  opened : e.closed = true → e.writers.asleep = []
  slots : e.writers.asleep ≠ [] →
    e.mailbox.capacity ≤ e.mailbox.size + e.writers.woken.length + spare

variable {pick : Nat} {m : μ} {e e' : Endpoint ρ μ}

theorem covered_create (n : Nat) : (create n : Endpoint ρ μ).Covered 0 :=
  ⟨Nat.zero_le _, fun _ => rfl, fun h => absurd rfl h⟩

/-- Whoever sleeps after a notification slept before it. -/
theorem asleep_ne_nil_of_notifyOne {c : Condition Writer}
    (h : (c.notifyOne pick).asleep ≠ []) : c.asleep ≠ [] := by
  intro empty
  have shrunk := c.asleep_notifyOne_sublist pick
  rw [empty, List.sublist_nil] at shrunk
  exact h shrunk

/-- A notification covers one slot more. -/
theorem Covered.notifyOne {spare : Nat} (h : e.Covered (spare + 1)) :
    (e.notifyOne pick).Covered spare where
  fits := h.fits
  opened shut := by
    have shrunk := e.writers.asleep_notifyOne_sublist pick
    rw [h.opened shut, List.sublist_nil] at shrunk
    exact shrunk
  slots asleep := by
    have before := asleep_ne_nil_of_notifyOne asleep
    have slots := h.slots before
    -- Somebody sleeps even now, so the notification did wake a writer.
    rw [mailbox_notifyOne, writers_notifyOne, Condition.length_woken_notifyOne _ _ before]
    omega

/-- A full mailbox has no slot to cover. -/
theorem Covered.of_full {spare : Nat} (h : e.Covered spare) (full : e.mailbox.isFull = true) :
    e.Covered 0 where
  fits := h.fits
  opened := h.opened
  slots _ := by
    have filled : e.mailbox.capacity ≤ e.mailbox.size := of_decide_eq_true full
    omega

/-- An attempt to write covers the slot of a writer that has just left the woken ones. -/
theorem Attempt.covered {w : Writer} {interrupted : Bool} {entry : Entry ρ}
    (ha : Attempt pick w interrupted m e e' entry) (h : e.Covered 1) : e'.Covered 0 := by
  cases ha with
  | closed shut => exact ⟨h.fits, h.opened, fun asleep => absurd (h.opened shut) asleep⟩
  | handed opened room empty waits =>
    -- No slot is filled, and the notification covers the spare one.
    exact Covered.notifyOne ⟨h.fits, h.opened, h.slots⟩
  | queued opened room order =>
    -- One slot is filled and one more writer is woken.
    have room : e.mailbox.size < e.mailbox.capacity := by
      simpa [Mailbox.isFull] using room
    refine Covered.notifyOne ⟨?_, h.opened, ?_⟩
    · rw [Mailbox.size_push, Mailbox.capacity_push]
      exact room
    · intro asleep
      have slots := h.slots asleep
      rw [Mailbox.size_push, Mailbox.capacity_push]
      show e.mailbox.capacity ≤ e.mailbox.size + 1 + e.writers.woken.length + 1
      omega
  | interrupted opened full flag => exact h.of_full full
  | sleeps opened full flag =>
    refine ⟨h.fits, ?_, ?_⟩
    · intro shut
      simp [opened] at shut
    · intro _
      have filled : e.mailbox.capacity ≤ e.mailbox.size := of_decide_eq_true full
      show e.mailbox.capacity ≤ e.mailbox.size + e.writers.woken.length + 0
      omega

/-- A writer that leaves the woken ones uncovers at most one slot. -/
theorem Covered.leave (h : e.Covered 0) (w : Writer) :
    ({ e with writers := e.writers.leave w } : Endpoint ρ μ).Covered 1 where
  fits := h.fits
  opened := h.opened
  slots asleep := by
    have slots := h.slots asleep
    have one : e.writers.woken.length ≤ (e.writers.leave w).woken.length + 1 := by
      simp only [Condition.leave, List.length_erase]
      split <;> omega
    show e.mailbox.capacity ≤ e.mailbox.size + (e.writers.leave w).woken.length + 1
    omega

/-- An endpoint at which nobody sleeps is covered. -/
theorem covered_of_nobody (fits : e.mailbox.size ≤ e.mailbox.capacity)
    (nobody : e.writers.asleep = []) : e.Covered 0 :=
  ⟨fits, fun _ => nobody, fun asleep => absurd nobody asleep⟩

theorem Covered.weaken (h : e.Covered 0) : e.Covered 1 :=
  ⟨h.fits, h.opened, fun asleep => Nat.le_succ_of_le (h.slots asleep)⟩

theorem Registering.covered {r : ρ} {answer : Registration ρ μ}
    (hr : Registering pick r e e' answer) (h : e.Covered 0) : e'.Covered 0 := by
  cases hr with
  | refused | finish => exact h
  | @message m rest nobody front =>
    -- The slot of the front message is free now, and the notification covers it.
    have fits := h.fits
    simp only [Mailbox.size, front, List.length_cons] at fits
    refine Covered.notifyOne ⟨?_, h.opened, ?_⟩
    · simp only [Mailbox.size]
      omega
    · intro asleep
      have slots := h.slots asleep
      simp only [Mailbox.size, front, List.length_cons] at slots ⊢
      omega
  | waits nobody empty opened => exact Covered.notifyOne ⟨h.fits, h.opened, h.weaken.slots⟩

theorem Stopping.covered {d? : Option (Dispatch ρ μ)} (hs : Stopping e e' d?)
    (h : e.Covered 0) : e'.Covered 0 := by
  cases hs with
  | again => exact h
  | ends | quietly => exact covered_of_nobody h.fits rfl

/-- A wakeup without a notification uncovers no slot. -/
theorem Covered.rouse {spare : Nat} (h : e.Covered spare) (i : Nat) :
    ({ e with writers := e.writers.rouse i } : Endpoint ρ μ).Covered spare where
  fits := h.fits
  opened shut := by
    have shrunk := e.writers.asleep_rouse_sublist i
    rw [h.opened shut, List.sublist_nil] at shrunk
    exact shrunk
  slots asleep := by
    have before : e.writers.asleep ≠ [] := by
      intro empty
      have shrunk := e.writers.asleep_rouse_sublist i
      rw [empty, List.sublist_nil] at shrunk
      exact asleep shrunk
    have slots := h.slots before
    have grown := e.writers.length_woken_le_rouse i
    show e.mailbox.capacity ≤ e.mailbox.size + (e.writers.rouse i).woken.length + spare
    omega

/-- Whoever sleeps while no woken writer is left does so at an open endpoint and a full mailbox. -/
theorem Covered.full_of_settled (h : e.Covered 0) (settled : e.writers.woken = [])
    (somebody : e.writers.asleep ≠ []) :
    e.closed = false ∧ e.mailbox.size = e.mailbox.capacity := by
  constructor
  · cases shut : e.closed with
    | false => rfl
    | true => exact absurd (h.opened shut) somebody
  · have slots := h.slots somebody
    have fits := h.fits
    rw [settled, List.length_nil] at slots
    omega

/-- Whatever is done to an endpoint leaves the free slots covered. -/
theorem Covered.after (h : e.Covered 0) (hold : Hold ρ) : (e.after pick m hold).Covered 0 := by
  cases hold with
  | enter w interrupted => exact (attempt_enter pick w interrupted m e).covered h.weaken
  | resume w interrupted =>
    cases interrupted with
    -- The writer leaves without a slot, and wakes another one in its place.
    | true => exact (h.leave w).notifyOne
    | false => exact (attempt_enter pick w false m _).covered (h.leave w)
  | register r => exact (registering_register pick r e).covered h
  | shutDown => exact (stopping_shutDown e).covered h
  | closeOff => exact covered_of_nobody (e := e.closeOff) h.fits rfl
  | wakeWriters => exact covered_of_nobody (e := e.wakeWriters) h.fits rfl
  | rouse i => exact h.rouse i

end Endpoint

/-! ## Interrupts on their way -/

/-- The call is going to wake the writers that sleep at `s` under the token `t`. -/
def Call.WillWake {ρ η : Type} (s : Side) (t : Nat) : Call ρ η → Prop
  | .interruptCopy u => u = t
  | .interruptWake places => s ∈ places
  | _ => False

/-- The call interrupts, and has not woken the writers at `s` yet. -/
def Call.owesWakeup {ρ η : Type} (s : Side) : Call ρ η → Bool
  | .interruptCopy _ => true
  | .interruptWake places => places.contains s
  | _ => false

theorem Call.WillWake.owesWakeup {ρ η : Type} {s : Side} {t : Nat} {c : Call ρ η}
    (h : c.WillWake s t) : c.owesWakeup s = true := by
  cases c with
  | interruptCopy u => rfl
  | interruptWake places => exact List.contains_iff_mem.2 h
  | _ => exact h.elim

namespace Link

variable {ρ η : Type} {l : Link ρ η}

/-- A token that is set is there. -/
theorem isInterrupted_iff {t : Nat} :
    l.isInterrupted (some t) = true ↔ ∃ token, l.tokens[t]? = some token ∧ token.isSet = true := by
  cases found : l.tokens[t]? <;> simp [isInterrupted, found]

/-- An attempt to write leaves every flag as it was. -/
theorem isInterrupted_finishWrite (source : Side) (token : Option Nat) (e : Endpoint ρ Nat)
    (entry : Entry ρ) (u : Option Nat) :
    (l.finishWrite source token e entry).1.isInterrupted u = l.isInterrupted u := by
  cases entry with
  | sleeps => exact isInterrupted_modifyToken? _ token u (Token.isSet_park source.other)
  | _ => rfl

theorem isInterrupted_stepWrite (pick who : Nat) (source : Side) (token : Option Nat)
    (woken : Bool) (u : Option Nat) :
    (l.stepWrite pick who source token woken).1.isInterrupted u = l.isInterrupted u := by
  cases woken with
  | false => rw [stepWrite_first, isInterrupted_finishWrite]
  | true =>
    rw [stepWrite_woken, isInterrupted_finishWrite]
    exact isInterrupted_modifyToken? l token u (Token.isSet_unpark source.other)

/-- Only an interrupt sets a flag. -/
theorem isInterrupted_step {pick who : Nat} {c : Call ρ η} {t : Nat}
    (h : (l.step pick who c).1.isInterrupted (some t) = true) :
    c = .interrupt t ∨ l.isInterrupted (some t) = true := by
  cases other : c.isWrite with
  | true =>
    cases c with
    | write source token woken =>
      rw [step, isInterrupted_stepWrite] at h
      exact .inr h
    | _ => simp [Call.isWrite] at other
  | false =>
    obtain ⟨token, found, set⟩ := isInterrupted_iff.1 h
    rw [(step_frame l pick who other).1] at found
    split at found
    · next u =>
      rw [Array.getElem?_modify] at found
      split at found
      · next same => exact .inl (congrArg _ same)
      · exact .inr (isInterrupted_iff.2 ⟨token, found, set⟩)
    · next u =>
      rw [Array.getElem?_modify] at found
      split at found
      -- The token was cleared by this very step.
      · obtain ⟨before, -, rfl⟩ := Option.map_eq_some_iff.1 found
        exact Bool.noConfusion set
      · exact .inr (isInterrupted_iff.2 ⟨token, found, set⟩)
    · exact .inr (isInterrupted_iff.2 ⟨token, found, set⟩)

/-- Who falls asleep does so while its token is not set. -/
theorem mem_asleep_step {pick who : Nat} {c : Call ρ η} {s : Side} {w : Writer}
    (h : w ∈ ((l.step pick who c).1.endpoint s).writers.asleep) :
    w ∈ (l.endpoint s).writers.asleep ∨ l.isInterrupted w.token = false := by
  rw [endpoint_step] at h
  split at h
  · next t hold held =>
    split at h
    · next here =>
      subst here
      rcases Endpoint.mem_asleep_after h with before | rfl | rfl
      · exact .inl before
      · exact .inr (Call.interrupted_of_hold? (.inl held))
      · exact .inr (Call.interrupted_of_hold? (.inr held))
    · exact .inl h
  · exact .inl h

end Link

namespace Machine

variable {ρ η : Type} {m m' : Machine ρ η}

/-- Whenever a writer sleeps under a token that is set, a caller is going to wake it. -/
def Heeded (m : Machine ρ η) : Prop :=
  ∀ (s : Side) (w : Writer) (t : Nat), w ∈ (m.link.endpoint s).writers.asleep →
    w.token = some t → m.link.isInterrupted (some t) = true → ∃ x ∈ m.calls, x.2.WillWake s t

/-- The registry of the token of a sleeping writer names the place where it sleeps. -/
theorem Booked.mem_parked (h : m.Booked) {s : Side} {w : Writer} {t : Nat} {token : Token Side}
    (asleep : w ∈ (m.link.endpoint s).writers.asleep) (under : w.token = some t)
    (found : m.link.tokens[t]? = some token) : s ∈ token.parked := by
  have waits : w ∈ (m.link.endpoint s).writers.waiting := List.mem_append_left _ asleep
  obtain ⟨x, hx, entry⟩ := List.mem_filterMap.1 ((h.sleepers s).mem_iff.1 waits)
  refine (h.registry t token found).mem_iff.2 (List.mem_filterMap.2 ⟨x, hx, ?_⟩)
  exact Call.place?_of_sleeper? entry under

/-- The caller that is going to wake a writer still is after its step, unless that woke it. -/
theorem willWake_step (h : m.Booked) {pick who : Nat} {c : Call ρ η} {s : Side} {w : Writer}
    {t : Nat} (before : w ∈ (m.link.endpoint s).writers.asleep) (under : w.token = some t)
    (set : m.link.isInterrupted (some t) = true) (wakes : c.WillWake s t)
    (asleep : w ∈ ((m.link.step pick who c).1.endpoint s).writers.asleep) :
    ∃ c', (m.link.step pick who c).2.next? = some c' ∧ c'.WillWake s t := by
  cases c with
  | interruptCopy u =>
    obtain rfl : u = t := wakes
    obtain ⟨token, found, -⟩ := Link.isInterrupted_iff.1 set
    refine ⟨_, rfl, ?_⟩
    simp only [found, Option.map_some, Option.getD_some]
    -- The copy is of the whole registry, where the writer has an entry.
    exact h.mem_parked before under found
  | interruptWake places =>
    cases places with
    | nil => exact absurd wakes List.not_mem_nil
    | cons p places =>
      refine ⟨_, rfl, ?_⟩
      -- If the place of the writer had been first, the writer would be awake.
      rcases List.mem_cons.1 wakes with rfl | later
      · simp [Link.endpoint_step, Call.hold?, Endpoint.after] at asleep
      · exact later
  | _ => exact wakes.elim

theorem Heeded.of_moves (h : m.Heeded) (booked : m.Booked) {mv : Move ρ η}
    {es : List (Event ρ η)} (hm : Moves m mv m' es) : m'.Heeded := by
  intro s w t asleep under set
  cases hm with
  | stays => exact h s w t asleep under set
  | takes => exact h s w t asleep under set
  | begins =>
    obtain ⟨x, hx, wakes⟩ := h s w t asleep under set
    exact ⟨x, List.mem_append_left _ hx, wakes⟩
  | @rouses who c now =>
    refine h s w t ?_ under ?_
    · rcases m.link.endpoint_rouse who c s with same | ⟨i, roused⟩
      · exact same ▸ asleep
      · rw [roused] at asleep
        exact (Condition.asleep_rouse_sublist _ _).subset asleep
    · rw [Link.isInterrupted, m.link.tokens_rouse] at set
      exact set
  | @steps who pick c rest calls now awake next =>
    rcases Link.isInterrupted_step set with rfl | before
    · -- The flag is new: the copy of the registry comes next.
      exact ⟨(who, .interruptCopy t), next.mem_iff.2 List.mem_cons_self, rfl⟩
    rcases Link.mem_asleep_step asleep with slept | clear
    · obtain ⟨x, hx, wakes⟩ := h s w t slept under before
      rcases List.mem_cons.1 (now.mem_iff.1 hx) with rfl | elsewhere
      · obtain ⟨c', hc, still⟩ := willWake_step booked slept under before wakes asleep
        refine ⟨(who, c'), next.mem_iff.2 ?_, still⟩
        simp [hc]
      · exact ⟨x, next.mem_iff.2 (List.mem_append_right _ elsewhere), wakes⟩
    · rw [under, before] at clear
      exact Bool.noConfusion clear

theorem Reachable.heeded (h : m.Reachable) : m.Heeded := by
  -- Only the books show that the copy of a registry misses nobody.
  have both : m.Booked ∧ m.Heeded := by
    refine h.induct (P := fun m => m.Booked ∧ m.Heeded) ?_
      fun _ held one => ⟨held.1.of_moves one, held.2.of_moves held.1 one⟩
    intro config first second tokens signals
    refine ⟨booked_fresh .., ?_⟩
    intro s w t asleep
    rw [endpoint_fresh] at asleep
    exact absurd asleep List.not_mem_nil
  exact both.2

theorem Reachable.covered (h : m.Reachable) (s : Side) : (m.link.endpoint s).Covered 0 := by
  refine h.induct (P := fun m => (m.link.endpoint s).Covered 0) ?_ ?_
  · intro config first second tokens signals
    rw [endpoint_fresh]
    exact Endpoint.covered_create _
  · intro m mv m' es _ covered one
    rcases one.endpoint s with same | ⟨pick, n, hold, after⟩
    · rw [same]
      exact covered
    · rw [after]
      exact covered.after hold

/-- No wakeup is lost. When no woken writer is left at an endpoint and no interrupt is on its way to
wake the writers there, whoever still sleeps has reason to: the endpoint is open, the mailbox is
full, and the token of the writer, if it has one, is not set. -/
theorem writer_asleep_of_quiet (h : m.Reachable) (s : Side) (w : Writer)
    (settled : (m.link.endpoint s).writers.woken = [])
    (quiet : ∀ x ∈ m.calls, x.2.owesWakeup s = false)
    (asleep : w ∈ (m.link.endpoint s).writers.asleep) :
    (m.link.endpoint s).closed = false ∧
      (m.link.endpoint s).mailbox.size = (m.link.endpoint s).mailbox.capacity ∧
      m.link.isInterrupted w.token = false := by
  obtain ⟨opened, full⟩ := (h.covered s).full_of_settled settled (List.ne_nil_of_mem asleep)
  refine ⟨opened, full, ?_⟩
  cases under : w.token with
  | none => rfl
  | some t =>
    cases set : m.link.isInterrupted (some t) with
    | false => rfl
    | true =>
      obtain ⟨x, hx, wakes⟩ := h.heeded s w t asleep under set
      have owes := wakes.owesWakeup
      rw [quiet x hx] at owes
      exact Bool.noConfusion owes

/-- Queue length one. Caller 0 fills the mailbox, callers 1 and 2 sleep, and a receiver frees the
slot, which wakes caller 1. It runs again under a token that was set meanwhile, so it leaves and
passes the wakeup on to caller 2, which takes the slot. Caller 5 finds the mailbox full. -/
def passingOn : List (Move Nat Nat) :=
  [.begin 0 (.write .a none false), .step 0 0,
    .begin 1 (.write .a (some 0) false), .step 1 0,
    .begin 2 (.write .a none false), .step 2 0,
    .begin 3 (.receive .b 7), .step 3 0, .step 3 0,
    .begin 4 (.interrupt 0), .step 4 0, .step 4 0,
    .step 1 0, .step 4 0, .step 4 0, .step 2 0,
    .begin 5 (.write .a (some 1) false), .step 5 0]

/-- After `passingOn` caller 5 sleeps, with nobody to wake it, at a full and open endpoint. -/
theorem writer_asleep_after_passingOn :
    ∃ m : Machine Nat Nat, m.Reachable ∧ (m.link.endpoint .b).writers.asleep = [⟨5, some 1⟩] ∧
      (m.link.endpoint .b).closed = false ∧
      (m.link.endpoint .b).mailbox.size = (m.link.endpoint .b).mailbox.capacity ∧
      m.link.isInterrupted (some 1) = false := by
  have reached : ((fresh ⟨1, 1⟩ "pair" none 2 0).run passingOn).Reachable :=
    ⟨⟨1, 1⟩, "pair", none, 2, 0, passingOn, rfl⟩
  refine ⟨_, reached, rfl, ?_⟩
  exact writer_asleep_of_quiet reached .b ⟨5, some 1⟩ rfl (by decide) (by decide)

end Machine

end Loopback
