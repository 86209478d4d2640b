import Loopback.Proofs.Schedule

/-!
# Renaming messages and writers

An endpoint moves messages about without looking at them, and of a writer it minds only which of
those it woke runs again. So what is done to an endpoint whose messages and writers are renamed is
the renaming of what would have been done, as long as the writer that runs again is not taken for
another. The message of an attempt needs its new name only if it is taken (`Endpoint.enter_named`).
-/

namespace Loopback

namespace Condition

variable {ι κ : Type} (f : ι → κ) (c : Condition ι)

/-- Renames the callers. -/
def map (f : ι → κ) (c : Condition ι) : Condition κ := ⟨c.asleep.map f, c.woken.map f⟩

theorem sleep_map (w : ι) : (c.map f).sleep (f w) = (c.sleep w).map f := by
  simp [map, sleep]

theorem rouse_map (i : Nat) : (c.map f).rouse i = (c.rouse i).map f := by
  simp only [rouse, map, List.getElem?_map]
  cases c.asleep[i]? with
  | none => rfl
  | some w => simp [List.eraseIdx_eq_take_drop_succ, List.map_take, List.map_drop]

theorem notifyOne_map (pick : Nat) : (c.map f).notifyOne pick = (c.notifyOne pick).map f := by
  have length : (c.map f).asleep.length = c.asleep.length := List.length_map f
  rw [notifyOne, length, rouse_map, notifyOne]

theorem notifyAll_map : (c.map f).notifyAll = c.notifyAll.map f := by
  simp [map, notifyAll]

theorem rouseWhere_map {p : ι → Bool} {q : κ → Bool} (same : ∀ w, q (f w) = p w) :
    (c.map f).rouseWhere q = (c.rouseWhere p).map f := by
  have position : (c.map f).asleep.findIdx q = c.asleep.findIdx p := by
    simp [map, List.findIdx_map, Function.comp_def, same]
  rw [rouseWhere, position, rouse_map, rouseWhere]

/-- The caller that runs again is told from the others by its new name, too. -/
theorem leave_map [BEq ι] [LawfulBEq ι] [BEq κ] [LawfulBEq κ] {w : ι}
    (alone : ∀ x ∈ c.woken, f x = f w → x = w) :
    (c.map f).leave (f w) = (c.leave w).map f := by
  have erased : ∀ l : List ι, (∀ x ∈ l, f x = f w → x = w) →
      (l.map f).erase (f w) = (l.erase w).map f := by
    intro l alone
    induction l with
    | nil => rfl
    | cons x l ih =>
      by_cases same : x = w
      · subst same
        simp
      · have apart : f x ≠ f w := fun h => same (alone x List.mem_cons_self h)
        rw [List.map_cons, List.erase_cons_tail (by simpa using apart),
          List.erase_cons_tail (by simpa using same),
          ih fun y hy => alone y (List.mem_cons_of_mem _ hy), List.map_cons]
  simp only [leave, map, erased c.woken alone]

end Condition

/-- Renames the message that a receiver is given. -/
def Delivery.map {μ ν : Type} (f : μ → ν) : Delivery μ → Delivery ν
  | .message m => .message (f m)
  | .finish => .finish

/-- Renames the message that a receiver is given. -/
def Dispatch.map {ρ μ ν : Type} (f : μ → ν) (d : Dispatch ρ μ) : Dispatch ρ ν :=
  ⟨d.receiver, d.delivery.map f⟩

/-- Renames the message that a receiver is given. -/
def Registration.map {ρ μ ν : Type} (f : μ → ν) : Registration ρ μ → Registration ρ ν
  | .refused => .refused
  | .waits => .waits
  | .given d => .given (d.map f)

@[simp] theorem Dispatch.map_id {ρ μ : Type} (d : Dispatch ρ μ) : d.map id = d := by
  obtain ⟨r, _ | _⟩ := d <;> rfl

@[simp] theorem Registration.map_id {ρ μ : Type} (r : Registration ρ μ) : r.map id = r := by
  cases r <;> simp [map]

namespace Endpoint

variable {ρ μ ν : Type} (f : μ → ν) (g : Writer → Writer)

/-- Renames the messages that are queued and the writers that wait. -/
def rename (e : Endpoint ρ μ) : Endpoint ρ ν :=
  ⟨⟨e.mailbox.queue.map f, e.mailbox.capacity⟩, e.pending, e.closed, e.writers.map g⟩

@[simp] theorem size_rename (e : Endpoint ρ μ) :
    (e.rename f g).mailbox.size = e.mailbox.size := by
  simp [rename, Mailbox.size]

@[simp] theorem isFull_rename (e : Endpoint ρ μ) :
    (e.rename f g).mailbox.isFull = e.mailbox.isFull := by
  rw [Mailbox.isFull, size_rename]
  rfl

@[simp] theorem closed_rename (e : Endpoint ρ μ) : (e.rename f g).closed = e.closed := rfl

variable (pick : Nat) (w : Writer) (interrupted : Bool) (m : μ) (e : Endpoint ρ μ)

theorem notifyOne_rename : (e.rename f g).notifyOne pick = (e.notifyOne pick).rename f g := by
  simp [rename, notifyOne, Condition.notifyOne_map]

theorem wakeWriters_rename : (e.rename f g).wakeWriters = e.wakeWriters.rename f g := by
  simp [rename, wakeWriters, Condition.notifyAll_map]

theorem closeOff_rename : (e.rename f g).closeOff = e.closeOff.rename f g := by
  simp [rename, closeOff, wakeWriters, Condition.notifyAll_map]

theorem accept_rename :
    (e.rename f g).accept pick (f m) = (e.accept pick m).map (rename f g) id := by
  obtain ⟨⟨queue, capacity⟩, pending, closed, writers⟩ := e
  cases queue with
  | cons m' rest =>
    simp [accept, rename, Mailbox.isEmpty, Mailbox.push, notifyOne, Condition.notifyOne_map]
  | nil =>
    cases pending <;>
      simp [accept, rename, Mailbox.isEmpty, Mailbox.push, notifyOne, Condition.notifyOne_map]

theorem enter_rename :
    (e.rename f g).enter pick (g w) interrupted (f m) =
      (e.enter pick w interrupted m).map (rename f g) id := by
  simp only [enter, closed_rename, isFull_rename, accept_rename]
  split
  · rfl
  · split
    · rfl
    · split
      · rfl
      · simp [rename, Condition.sleep_map]

theorem resume_rename (alone : ∀ x ∈ e.writers.woken, g x = g w → x = w) :
    (e.rename f g).resume pick (g w) interrupted (f m) =
      (e.resume pick w interrupted m).map (rename f g) id := by
  have left : ({ e.rename f g with writers := (e.rename f g).writers.leave (g w) } :
      Endpoint ρ ν) = ({ e with writers := e.writers.leave w } : Endpoint ρ μ).rename f g := by
    simp only [rename, Condition.leave_map g e.writers alone]
  unfold resume
  simp only [left]
  split
  · rw [notifyOne_rename]
    rfl
  · exact enter_rename f g pick w interrupted m _

theorem register_rename (r : ρ) :
    (e.rename f g).register pick r =
      (e.register pick r).map (rename f g) (Registration.map f) := by
  obtain ⟨⟨queue, capacity⟩, pending, closed, writers⟩ := e
  cases pending with
  | some r' => rfl
  | none =>
    cases queue with
    | cons m rest =>
      simp [register, rename, Mailbox.pop?, notifyOne, Condition.notifyOne_map, Registration.map,
        Dispatch.map, Delivery.map]
    | nil =>
      cases closed <;>
        simp [register, rename, Mailbox.pop?, notifyOne, Condition.notifyOne_map, Registration.map,
          Dispatch.map, Delivery.map]

theorem shutDown_rename :
    (e.rename f g).shutDown = e.shutDown.map (rename f g) (Option.map (Dispatch.map f)) := by
  obtain ⟨⟨queue, capacity⟩, pending, closed, writers⟩ := e
  cases closed with
  | true => rfl
  | false =>
    cases queue with
    | cons m rest =>
      simp [shutDown, rename, Mailbox.isEmpty, wakeWriters, Condition.notifyAll_map]
    | nil =>
      cases pending <;>
        simp [shutDown, rename, Mailbox.isEmpty, wakeWriters, Condition.notifyAll_map, Dispatch.map,
          Delivery.map]

/-! ## A message that is not taken -/

variable {f g pick w interrupted m e} {m' : ν}

/-- An attempt that does not take its message comes to the same with any other. -/
theorem enter_untaken (untaken : (e.enter pick w interrupted m).2.isTaken = false) (n : μ) :
    e.enter pick w interrupted n = e.enter pick w interrupted m := by
  unfold enter at untaken ⊢
  split
  · rfl
  · next opened =>
    rw [if_neg opened] at untaken
    split
    · next room =>
      rw [if_pos room] at untaken
      unfold accept at untaken
      split at untaken <;> cases untaken
    · rfl

theorem resume_untaken (untaken : (e.resume pick w interrupted m).2.isTaken = false) (n : μ) :
    e.resume pick w interrupted n = e.resume pick w interrupted m := by
  cases interrupted with
  | true => rfl
  | false => exact enter_untaken (e := { e with writers := e.writers.leave w }) untaken n

/-- The message of an attempt need not have its new name unless it is taken. -/
theorem enter_named
    (named : ((e.rename f id).enter pick w interrupted m').2.isTaken = true → f m = m') :
    (e.rename f id).enter pick w interrupted m' =
      (e.enter pick w interrupted m).map (rename f id) id := by
  have renamed : (e.rename f id).enter pick w interrupted (f m) = _ :=
    enter_rename f id pick w interrupted m e
  cases taken : ((e.rename f id).enter pick w interrupted m').2.isTaken with
  | true => rw [← named taken, renamed]
  | false => rw [← renamed, enter_untaken taken (f m)]

theorem resume_named
    (named : ((e.rename f id).resume pick w interrupted m').2.isTaken = true → f m = m') :
    (e.rename f id).resume pick w interrupted m' =
      (e.resume pick w interrupted m).map (rename f id) id := by
  have renamed : (e.rename f id).resume pick w interrupted (f m) = _ :=
    resume_rename f id pick w interrupted m e fun _ _ same => same
  cases taken : ((e.rename f id).resume pick w interrupted m').2.isTaken with
  | true => rw [← named taken, renamed]
  | false => rw [← renamed, resume_untaken taken (f m)]

end Endpoint

/-! ## Messages that calls carry -/

/-- Renames the message that a call answers with. -/
def Reply.rename (f : Nat → Nat) : Reply → Reply
  | .message m => .message (f m)
  | r => r

section Calls

variable {ρ η : Type} (f : Nat → Nat)

/-- Renames the message that a task hands to its receiver. -/
def Task.rename : Task ρ η → Task ρ η
  | .receive side d => .receive side (d.map f)
  | .closed side handler => .closed side handler

/-- Renames the messages that a call is about to hand over or to answer with. -/
def Call.rename : Call ρ η → Call ρ η
  | .submit tasks r => .submit (tasks.map (Task.rename f)) (r.map (Reply.rename f))
  | c => c

/-- Renames the messages in what a step leads to. -/
def Progress.rename : Progress (Call ρ η) Result → Progress (Call ρ η) Result
  | .more c => .more (c.rename f)
  | .asleep c => .asleep (c.rename f)
  | .done r => .done (r.map (Reply.rename f))

@[simp] theorem Progress.next?_rename (p : Progress (Call ρ η) Result) :
    (p.rename f).next? = p.next?.map (Call.rename f) := by
  cases p <;> rfl

theorem Call.rename_of_isEntry {c : Call ρ η} (entry : c.isEntry = true) : c.rename f = c := by
  cases c with
  | submit => cases entry
  | _ => rfl

end Calls

end Loopback
