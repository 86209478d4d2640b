import Loopback.Text.Attached
import Loopback.Text.Invisible
import Loopback.Text.Unassigned

/-!
# Quoted text

How a string stands inside a diagnostic text: between double quotes, with the quote, the
backslash and the characters that cannot be seen by themselves written as escapes. All other
characters stand for themselves.
-/

namespace Loopback.Text

/-- The digits of `n` in base sixteen, without leading zeros. -/
def hexDigits (n : Nat) : String := String.ofList (Nat.toDigits 16 n)

/-- Characters shown by their number: those without a visible form, those drawn on the character
before them, and code points that stand for no character. -/
def isHidden (c : Char) : Bool :=
  let n := c.toNat
  invisible.contains n || attached.contains n || unassignedLow.contains n ||
    unassignedHigh.contains n

/-- The written form of one character. -/
def escape (c : Char) : String :=
  match c with
  | '"' => "\\\""
  | '\\' => "\\\\"
  | '\n' => "\\n"
  | '\r' => "\\r"
  | '\t' => "\\t"
  | '\x00' => "\\0"
  | c => if isHidden c then "\\u\x7b" ++ hexDigits c.toNat ++ "\x7d" else String.singleton c

/-- The quoted form of a string. -/
def quoted (s : String) : String := "\"" ++ String.join (s.toList.map escape) ++ "\""

end Loopback.Text
