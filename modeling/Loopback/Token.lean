/-!
# Interrupt tokens

A token lets anyone abort the writers that are blocked under it. It is a flag, which stays set
until it is cleared, and a registry with one entry per blocked writer: the place where that writer
sleeps. Interrupting sets the flag, takes a copy of the registry and wakes the places on it, in
three separate steps.
-/

namespace Loopback

/-- A token whose writers block at places of type `ι`. -/
structure Token (ι : Type) where
  isSet : Bool
  /-- One entry per blocked writer. -/
  parked : List ι
  deriving DecidableEq, Repr

namespace Token

variable {ι : Type}

/-- A token that is not set. -/
def create : Token ι := ⟨false, []⟩

/-- Sets the flag. -/
def interrupt (t : Token ι) : Token ι := { t with isSet := true }

/-- Clears the flag; answers whether it was set. -/
def clear (t : Token ι) : Token ι × Bool := ({ t with isSet := false }, t.isSet)

/-- One more writer is about to block at `place`. -/
def park (place : ι) (t : Token ι) : Token ι := { t with parked := t.parked ++ [place] }

/-- One writer no longer blocks at `place`: the first entry for it gives way to the last entry of
the registry. -/
def unpark [BEq ι] (place : ι) (t : Token ι) : Token ι :=
  match t.parked.idxOf? place, t.parked.getLast? with
  | some i, some final => { t with parked := (t.parked.set i final).dropLast }
  | _, _ => t

/-- Diagnostic text. -/
def describe (t : Token ι) : String := s!"Interrupt \x7b interrupted: {t.isSet} \x7d"

end Token

end Loopback
