import Loopback.Proofs.Frame

/-!
# The outcomes of an operation on an endpoint

`Endpoint.Attempt`, `Endpoint.Registering` and `Endpoint.Stopping` list what an attempt to write, a
registration and a shutdown can come to, each outcome with the conditions under which it comes about
and the endpoint that it leaves. Whatever an endpoint keeps is proved by cases on these.
-/

namespace Loopback

/-! ## Sleepers -/

namespace Condition

variable {ι : Type} (c : Condition ι)

theorem asleep_rouse_sublist (i : Nat) : (c.rouse i).asleep.Sublist c.asleep := by
  unfold rouse
  split
  · exact List.Sublist.refl _
  · exact List.eraseIdx_sublist _ _

theorem asleep_notifyOne_sublist (pick : Nat) : (c.notifyOne pick).asleep.Sublist c.asleep :=
  c.asleep_rouse_sublist _

theorem length_woken_le_rouse (i : Nat) : c.woken.length ≤ (c.rouse i).woken.length := by
  unfold rouse
  split
  · exact Nat.le_refl _
  · simp

/-- A notification wakes somebody whenever somebody sleeps. -/
theorem length_woken_notifyOne (pick : Nat) (h : c.asleep ≠ []) :
    (c.notifyOne pick).woken.length = c.woken.length + 1 := by
  have here : pick % c.asleep.length < c.asleep.length :=
    Nat.mod_lt _ (List.length_pos_iff.2 h)
  simp [notifyOne, rouse, List.getElem?_eq_getElem here]

/-- A caller that runs again was one of those that waited. -/
theorem waiting_leave [BEq ι] [LawfulBEq ι] {w : ι} (h : w ∈ c.woken) :
    c.waiting.Perm (w :: (c.leave w).waiting) := by
  have taken : c.woken.Perm (w :: c.woken.erase w) := List.perm_cons_erase h
  exact (taken.append_left c.asleep).trans List.perm_middle

end Condition

namespace Endpoint

variable {ρ μ : Type}

@[simp] theorem mailbox_notifyOne (pick : Nat) (e : Endpoint ρ μ) :
    (e.notifyOne pick).mailbox = e.mailbox := rfl

@[simp] theorem pending_notifyOne (pick : Nat) (e : Endpoint ρ μ) :
    (e.notifyOne pick).pending = e.pending := rfl

@[simp] theorem closed_notifyOne (pick : Nat) (e : Endpoint ρ μ) :
    (e.notifyOne pick).closed = e.closed := rfl

@[simp] theorem writers_notifyOne (pick : Nat) (e : Endpoint ρ μ) :
    (e.notifyOne pick).writers = e.writers.notifyOne pick := rfl

@[simp] theorem pending_wakeWriters (e : Endpoint ρ μ) : e.wakeWriters.pending = e.pending := rfl

@[simp] theorem closed_wakeWriters (e : Endpoint ρ μ) : e.wakeWriters.closed = e.closed := rfl

@[simp] theorem writers_wakeWriters (e : Endpoint ρ μ) :
    e.wakeWriters.writers = e.writers.notifyAll := rfl

/-! ## Writing -/

/-- What an attempt of the writer `w` to write the message `m` comes to, and the endpoint it
leaves. -/
inductive Attempt (pick : Nat) (w : Writer) (interrupted : Bool) (m : μ) (e : Endpoint ρ μ) :
    Endpoint ρ μ → Entry ρ → Prop where
  | closed (shut : e.closed = true) : Attempt pick w interrupted m e e (.refused .notOpen)
  | handed {r : ρ} (opened : e.closed = false) (room : e.mailbox.isFull = false)
      (empty : e.mailbox.queue = []) (waits : e.pending = some r) :
      Attempt pick w interrupted m e (({ e with pending := none } : Endpoint ρ μ).notifyOne pick)
        (.handed r)
  | queued (opened : e.closed = false) (room : e.mailbox.isFull = false)
      (order : e.mailbox.queue = [] → e.pending = none) :
      Attempt pick w interrupted m e
        (({ e with mailbox := e.mailbox.push m } : Endpoint ρ μ).notifyOne pick) .queued
  | interrupted (opened : e.closed = false) (full : e.mailbox.isFull = true)
      (flag : interrupted = true) : Attempt pick w interrupted m e e (.refused .interrupted)
  | sleeps (opened : e.closed = false) (full : e.mailbox.isFull = true)
      (flag : interrupted = false) :
      Attempt pick w interrupted m e { e with writers := e.writers.sleep w } .sleeps

/-- A message that fits goes to the waiting receiver past an empty mailbox, else it is queued. -/
theorem attempt_accept (pick : Nat) (w : Writer) (interrupted : Bool) (m : μ) {e : Endpoint ρ μ}
    (opened : e.closed = false) (room : e.mailbox.isFull = false) :
    Attempt pick w interrupted m e (e.accept pick m).1 (e.accept pick m).2 := by
  rcases e with ⟨⟨queue, capacity⟩, pending, closed, writers⟩
  cases queue with
  | cons m rest => exact .queued opened room fun empty => (List.cons_ne_nil _ _ empty).elim
  | nil =>
    cases pending with
    | some r => exact .handed opened room rfl rfl
    | none => exact .queued opened room fun _ => rfl

theorem attempt_enter (pick : Nat) (w : Writer) (interrupted : Bool) (m : μ) (e : Endpoint ρ μ) :
    Attempt pick w interrupted m e (e.enter pick w interrupted m).1
      (e.enter pick w interrupted m).2 := by
  unfold enter
  split
  · next shut => exact .closed shut
  · next opened =>
    rw [Bool.not_eq_true] at opened
    split
    · next room => exact attempt_accept pick w interrupted m opened (by simpa using room)
    · next full =>
      have full : e.mailbox.isFull = true := by simpa using full
      split
      · next flag => exact .interrupted opened full flag
      · next flag => exact .sleeps opened full (Bool.not_eq_true _ ▸ flag)

/-- A woken writer whose token is set leaves and passes the wakeup on. -/
theorem resume_interrupted (pick : Nat) (w : Writer) (m : μ) (e : Endpoint ρ μ) :
    e.resume pick w true m =
      (({ e with writers := e.writers.leave w } : Endpoint ρ μ).notifyOne pick,
        .refused .interrupted) := rfl

/-- A woken writer whose token is not set starts over. -/
theorem resume_again (pick : Nat) (w : Writer) (m : μ) (e : Endpoint ρ μ) :
    e.resume pick w false m =
      ({ e with writers := e.writers.leave w } : Endpoint ρ μ).enter pick w false m := rfl

/-! ## Receiving -/

/-- What the registration of `r` comes to, and the endpoint it leaves. -/
inductive Registering (pick : Nat) (r : ρ) (e : Endpoint ρ μ) :
    Endpoint ρ μ → Registration ρ μ → Prop where
  | refused {r' : ρ} (waits : e.pending = some r') : Registering pick r e e .refused
  | message {m : μ} {rest : List μ} (nobody : e.pending = none)
      (front : e.mailbox.queue = m :: rest) :
      Registering pick r e
        (({ e with mailbox := { e.mailbox with queue := rest } } : Endpoint ρ μ).notifyOne pick)
        (.given ⟨r, .message m⟩)
  | finish (nobody : e.pending = none) (empty : e.mailbox.queue = []) (shut : e.closed = true) :
      Registering pick r e e (.given ⟨r, .finish⟩)
  | waits (nobody : e.pending = none) (empty : e.mailbox.queue = [])
      (opened : e.closed = false) :
      Registering pick r e (({ e with pending := some r } : Endpoint ρ μ).notifyOne pick) .waits

theorem registering_register (pick : Nat) (r : ρ) (e : Endpoint ρ μ) :
    Registering pick r e (e.register pick r).1 (e.register pick r).2 := by
  rcases e with ⟨⟨queue, capacity⟩, pending, closed, writers⟩
  cases pending with
  | some r' => exact .refused rfl
  | none =>
    cases queue with
    | cons m rest => exact .message rfl rfl
    | nil =>
      cases closed with
      | true => exact .finish rfl rfl rfl
      | false => exact .waits rfl rfl rfl

/-! ## Closing -/

/-- What a shutdown comes to, and the endpoint it leaves. -/
inductive Stopping (e : Endpoint ρ μ) : Endpoint ρ μ → Option (Dispatch ρ μ) → Prop where
  | again (shut : e.closed = true) : Stopping e e none
  | ends {r : ρ} (opened : e.closed = false) (empty : e.mailbox.queue = [])
      (waits : e.pending = some r) :
      Stopping e (({ e with closed := true, pending := none } : Endpoint ρ μ).wakeWriters)
        (some ⟨r, .finish⟩)
  | quietly (opened : e.closed = false) (order : e.mailbox.queue = [] → e.pending = none) :
      Stopping e (({ e with closed := true } : Endpoint ρ μ).wakeWriters) none

theorem stopping_shutDown (e : Endpoint ρ μ) : Stopping e e.shutDown.1 e.shutDown.2 := by
  rcases e with ⟨⟨queue, capacity⟩, pending, closed, writers⟩
  cases closed with
  | true => exact .again rfl
  | false =>
    cases queue with
    | cons m rest => exact .quietly rfl fun empty => (List.cons_ne_nil _ _ empty).elim
    | nil =>
      cases pending with
      | some r => exact .ends rfl rfl rfl
      | none => exact .quietly rfl fun _ => rfl

/-! ## The sleepers of an endpoint -/

section Sleepers

variable {pick : Nat} {m : μ} {e e' : Endpoint ρ μ} {v w : Writer} {interrupted : Bool}

theorem Attempt.mem_asleep {entry : Entry ρ} (h : Attempt pick w interrupted m e e' entry)
    (hv : v ∈ e'.writers.asleep) :
    v ∈ e.writers.asleep ∨ (v = w ∧ interrupted = false) := by
  cases h with
  | closed | interrupted => exact .inl hv
  | handed | queued => exact .inl ((Condition.asleep_notifyOne_sublist _ _).subset hv)
  | sleeps opened full flag =>
    rcases List.mem_append.1 hv with hv | hv
    · exact .inl hv
    · exact .inr ⟨List.mem_singleton.1 hv, flag⟩

theorem Registering.asleep_sublist {r : ρ} {answer : Registration ρ μ}
    (h : Registering pick r e e' answer) : e'.writers.asleep.Sublist e.writers.asleep := by
  cases h with
  | refused | finish => exact List.Sublist.refl _
  | message | waits => exact Condition.asleep_notifyOne_sublist _ _

theorem Stopping.asleep_sublist {d? : Option (Dispatch ρ μ)} (h : Stopping e e' d?) :
    e'.writers.asleep.Sublist e.writers.asleep := by
  cases h with
  | again => exact List.Sublist.refl _
  | ends | quietly => exact List.nil_sublist _

/-- Nobody falls asleep but the writer of an attempt, and only while its token is not set. -/
theorem mem_asleep_after {h : Hold ρ} (hv : v ∈ (e.after pick m h).writers.asleep) :
    v ∈ e.writers.asleep ∨ h = .enter v false ∨ h = .resume v false := by
  cases h with
  | enter w interrupted =>
    rcases (attempt_enter pick w interrupted m e).mem_asleep hv with hv | ⟨rfl, rfl⟩
    · exact .inl hv
    · exact .inr (.inl rfl)
  | resume w interrupted =>
    cases interrupted with
    | true =>
      have left := (e.writers.leave w).asleep_notifyOne_sublist pick
      exact .inl (left.subset hv)
    | false =>
      simp only [after, resume_again] at hv
      rcases (attempt_enter pick w false m _).mem_asleep hv with hv | ⟨rfl, -⟩
      · exact .inl hv
      · exact .inr (.inr rfl)
  | register r => exact .inl ((registering_register pick r e).asleep_sublist.subset hv)
  | shutDown => exact .inl ((stopping_shutDown e).asleep_sublist.subset hv)
  | closeOff => simp [after, closeOff] at hv
  | wakeWriters => simp [after] at hv
  | rouse i => exact .inl ((Condition.asleep_rouse_sublist _ _).subset hv)

end Sleepers

end Endpoint

end Loopback
