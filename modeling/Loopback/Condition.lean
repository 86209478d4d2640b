/-!
# Condition variables

A caller that cannot go on sleeps on a condition. A notification moves it to the woken callers,
which run again later, in any order. `Condition.notifyOne` wakes one sleeper of the scheduler's
choice, `Condition.notifyAll` wakes them all, and `Condition.rouse` is a wakeup without a
notification. Waking keeps who waits in total (`waiting_rouse`, `waiting_notifyAll`); only
`sleep` and `leave` change it.
-/

namespace Loopback

/-- The callers that wait on one condition. -/
structure Condition (ι : Type) where
  /-- Callers not notified yet, longest asleep first. -/
  asleep : List ι
  /-- Callers that were woken and have not run again, in the order they were woken. -/
  woken : List ι
  deriving Repr

namespace Condition

variable {ι : Type}

/-- Nobody waits. -/
def empty : Condition ι := ⟨[], []⟩

/-- The caller `w` goes to sleep. -/
def sleep (w : ι) (c : Condition ι) : Condition ι :=
  { c with asleep := c.asleep ++ [w] }

/-- The `i`-th sleeper wakes; nothing happens when there is none. -/
def rouse (i : Nat) (c : Condition ι) : Condition ι :=
  match c.asleep[i]? with
  | none => c
  | some w => ⟨c.asleep.eraseIdx i, c.woken ++ [w]⟩

/-- One sleeper wakes if there is one. Which one is the scheduler's choice: any `pick` denotes a
sleeper, counted round the list. -/
def notifyOne (pick : Nat) (c : Condition ι) : Condition ι :=
  c.rouse (pick % c.asleep.length)

/-- Every sleeper wakes. -/
def notifyAll (c : Condition ι) : Condition ι := ⟨[], c.woken ++ c.asleep⟩

/-- The woken caller `w` runs again. -/
def leave [BEq ι] (w : ι) (c : Condition ι) : Condition ι :=
  { c with woken := c.woken.erase w }

/-- Everybody who waits, woken or not. -/
def waiting (c : Condition ι) : List ι := c.asleep ++ c.woken

theorem waiting_sleep (w : ι) (c : Condition ι) :
    (c.sleep w).waiting.Perm (w :: c.waiting) := by
  simp [waiting, sleep]

theorem waiting_rouse (i : Nat) (c : Condition ι) : (c.rouse i).waiting.Perm c.waiting := by
  unfold rouse
  split
  · exact .refl _
  · next w h =>
    obtain ⟨hi, rfl⟩ := List.getElem?_eq_some_iff.1 h
    have taken : (c.asleep[i] :: c.asleep.eraseIdx i).Perm c.asleep := by
      conv => rhs; rw [← List.take_append_drop i c.asleep, List.drop_eq_getElem_cons hi]
      rw [List.eraseIdx_eq_take_drop_succ]
      exact List.perm_middle.symm
    have moved : (c.asleep.eraseIdx i ++ (c.woken ++ [c.asleep[i]])).Perm
        (c.asleep[i] :: (c.asleep.eraseIdx i ++ c.woken)) := by
      rw [← List.append_assoc]
      exact List.perm_append_singleton _ _
    exact moved.trans (taken.append_right c.woken)

theorem waiting_notifyOne (pick : Nat) (c : Condition ι) :
    (c.notifyOne pick).waiting.Perm c.waiting :=
  waiting_rouse _ c

theorem waiting_notifyAll (c : Condition ι) : c.notifyAll.waiting.Perm c.waiting := by
  simp [waiting, notifyAll, List.perm_append_comm]

@[simp] theorem asleep_notifyAll (c : Condition ι) : c.notifyAll.asleep = [] := rfl

@[simp] theorem asleep_leave [BEq ι] (w : ι) (c : Condition ι) :
    (c.leave w).asleep = c.asleep := rfl

end Condition

end Loopback
