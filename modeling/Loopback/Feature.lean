import Loopback.Text.Quoted

/-!
# Channel options

A named option of a channel. In-process pairs recognise none, so every query answers "absent" and
a value offered is discarded; the type exists so that they offer the same surface as channels over
a network.
-/

namespace Loopback

/-- A named option whose values have type `α`. -/
structure Feature (α : Type) where
  name : String

namespace Feature

variable {α : Type}

/-- No option is recognised. -/
def isSupported (_ : Feature α) : Bool := false

/-- No option has a value. -/
def value (_ : Feature α) : Option α := none

/-- Offering a value has no effect, and there is no earlier value to return. -/
def offer (_ : Feature α) (_ : α) : Option α := none

/-- Diagnostic text. -/
def describe (f : Feature α) : String := "ChannelOption(" ++ Text.quoted f.name ++ ")"

end Feature

end Loopback
