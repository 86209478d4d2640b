import Loopback.Token

/-!
# Handles on interrupt tokens

Numbered handles on tokens. Cloning a handle makes another handle on the same token, so an
interrupt through one shows through all of them.
-/

namespace Loopback.Replay

/-- Tokens, and the token that each handle stands for. -/
structure TokenDesk where
  tokens : Array (Token Unit)
  handles : Array Nat
  deriving Repr

/-- What can be asked for through a handle. -/
inductive TokenOp where
  | interrupt
  | clear
  | isSet
  | describe
  /-- Another handle on the same token. -/
  | clone
  /-- A handle on a new token. -/
  | create
  deriving DecidableEq, Repr

/-- What an operation answers. -/
inductive TokenAnswer where
  | nothing
  | flag (b : Bool)
  | text (s : String)
  /-- The number of a new handle. -/
  | handle (i : Nat)
  deriving DecidableEq, Repr

namespace TokenDesk

/-- A handle on a new token. -/
def issue (d : TokenDesk) : TokenDesk :=
  ⟨d.tokens.push Token.create, d.handles.push d.tokens.size⟩

/-- Two handles, each on a token of its own. -/
def create : TokenDesk := issue (issue ⟨#[], #[]⟩)

/-- The token of a handle; handles are counted round. -/
def tokenOf (d : TokenDesk) (i : Nat) : Nat :=
  (d.handles[i % d.handles.size]?).getD 0

/-- The token of a number is set. -/
def isSet (d : TokenDesk) (t : Nat) : Bool := ((d.tokens[t]?).map Token.isSet).getD false

/-- Carries out one operation through a handle. -/
def perform (i : Nat) (op : TokenOp) (d : TokenDesk) : TokenDesk × TokenAnswer :=
  let t := d.tokenOf i
  match op with
  | .interrupt => ({ d with tokens := d.tokens.modify t Token.interrupt }, .nothing)
  | .clear =>
      ({ d with tokens := d.tokens.modify t fun token => token.clear.1 }, .flag (d.isSet t))
  | .isSet => (d, .flag (d.isSet t))
  | .describe => (d, .text (((d.tokens[t]?).map Token.describe).getD ""))
  | .clone => ({ d with handles := d.handles.push t }, .handle d.handles.size)
  | .create => (d.issue, .handle d.handles.size)

/-- Which handles stand for a token that is set. -/
def flags (d : TokenDesk) : List Bool := d.handles.toList.map d.isSet

end TokenDesk

end Loopback.Replay
