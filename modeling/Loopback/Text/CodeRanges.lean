/-!
# Ranges of code points

A table of characters as closed ranges of their code points, ascending and apart. Looking a code
point up stops at the first range beyond it.
-/

namespace Loopback.Text

/-- Closed ranges of code points, in ascending order. -/
abbrev CodeRanges := List (Nat × Nat)

/-- The code point `n` lies in a range. -/
def CodeRanges.contains (n : Nat) : CodeRanges → Bool
  | [] => false
  | r :: rest => r.1 ≤ n && (n ≤ r.2 || contains n rest)

end Loopback.Text
