/-!
# The two sides of a pair

A pair has a side `a` and a side `b`; whatever exists once per side is kept in a `Both`.
`Both.get_set` and `Both.get_set_other` say that writing one side leaves the other alone.
-/

namespace Loopback

/-- One side of a pair. -/
inductive Side where
  | a
  | b
  deriving DecidableEq, Repr

namespace Side

/-- The opposite side. -/
def other : Side → Side
  | .a => .b
  | .b => .a

@[simp] theorem other_other (s : Side) : s.other.other = s := by cases s <;> rfl

@[simp] theorem other_ne (s : Side) : s.other ≠ s := by cases s <;> decide

@[simp] theorem ne_other (s : Side) : s ≠ s.other := by cases s <;> decide

/-- The letter of a side in texts. -/
def letter : Side → String
  | .a => "a"
  | .b => "b"

/-- How a handle on side `s` shows which way it points: from its own side to the other. -/
def arrow (s : Side) : String := s.letter ++ "->" ++ s.other.letter

end Side

/-- One value for each side. -/
structure Both (α : Type) where
  a : α
  b : α
  deriving Repr

namespace Both

variable {α : Type}

/-- The same value on both sides. -/
def same (x : α) : Both α := ⟨x, x⟩

/-- The value of one side. -/
def get (p : Both α) : Side → α
  | .a => p.a
  | .b => p.b

/-- Replaces the value of one side. -/
def set (p : Both α) : Side → α → Both α
  | .a, x => { p with a := x }
  | .b, x => { p with b := x }

/-- Changes the value of one side. -/
def modify (p : Both α) (s : Side) (f : α → α) : Both α := p.set s (f (p.get s))

@[simp] theorem get_set (p : Both α) (s : Side) (x : α) : (p.set s x).get s = x := by
  cases s <;> rfl

@[simp] theorem get_set_other (p : Both α) (s : Side) (x : α) :
    (p.set s x).get s.other = p.get s.other := by
  cases s <;> rfl

end Both

end Loopback
