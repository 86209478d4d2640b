import Loopback.Attachments

/-!
# Keys by name

Three kinds of values, and a ring of keys that are known by name. The first letter of a name says
which kind its key is for. A key is allocated when its name is first used, or anew, in place of
the old one, on request.
-/

namespace Loopback

/-- The kinds of values that named keys stand for. -/
inductive Kind where
  | int
  | text
  | bytes
  deriving DecidableEq, Repr

/-- The values of a kind. -/
def Kind.Value : Kind → Type
  | .int => Int
  | .text => String
  | .bytes => List UInt8

/-- A value of some kind. -/
abbrev AnyValue := (k : Kind) × k.Value

/-- The kind that a name stands for. -/
def Kind.ofName (name : String) : Kind :=
  match name.toList.head? with
  | some 's' => .text
  | some 'v' => .bytes
  | _ => .int

/-- Keys known by name, and where new ones come from. -/
structure KeyRing where
  source : KeySource
  /-- The identity of the key of each name, the newest first. -/
  ids : List (String × Nat)

/-- What can be asked of a store through a named key. A value of a kind other than the key's counts
as missing, and `fallback` stands for it. -/
inductive KeyedOp where
  | attach (v : AnyValue)
  | attachIfAbsent (v : AnyValue)
  | get
  | remove
  /-- Describe the store. -/
  | describeStore
  /-- Describe the key. -/
  | describeKey
  /-- Allocate the key anew and describe it. -/
  | renew

/-- What a keyed operation answers. -/
inductive KeyedAnswer where
  | value (v : Option AnyValue)
  | text (s : String)

/-- The value that stands for a missing one. -/
def Kind.fallback : (k : Kind) → k.Value
  | .int => (0 : Int)
  | .text => ""
  | .bytes => []

/-- The given value as one of kind `k`. -/
def Kind.expect (k : Kind) (v : AnyValue) : k.Value :=
  (Attachments.cast? k v).getD k.fallback

namespace KeyRing

/-- No key was allocated. -/
def empty : KeyRing := ⟨⟨0⟩, []⟩

/-- Allocates a key for a name, in place of an earlier one. -/
def renew (name : String) (r : KeyRing) : KeyRing × Key (Kind.ofName name) :=
  let (source, key) := r.source.fresh (Kind.ofName name)
  (⟨source, (name, key.id) :: r.ids⟩, key)

/-- The key of a name, allocated when the name is new. -/
def key (name : String) (r : KeyRing) : KeyRing × Key (Kind.ofName name) :=
  match r.ids.lookup name with
  | some id => (r, ⟨id⟩)
  | none => r.renew name

/-- Carries out one operation on a store through the key of a name. -/
def perform (name : String) (op : KeyedOp) (r : KeyRing) (s : Attachments Kind.Value) :
    KeyRing × Attachments Kind.Value × KeyedAnswer :=
  let k := Kind.ofName name
  let answer (v : Option k.Value) : KeyedAnswer := .value (v.map fun v => ⟨k, v⟩)
  match op with
  | .describeStore => (r, s, .text s.describe)
  | .renew =>
      let (r, key) := r.renew name
      (r, s, .text key.describe)
  | .describeKey =>
      let (r, key) := r.key name
      (r, s, .text key.describe)
  | .attach v =>
      let (r, key) := r.key name
      let (s, old) := s.attach key (k.expect v)
      (r, s, answer old)
  | .attachIfAbsent v =>
      let (r, key) := r.key name
      let (s, present) := s.attachIfAbsent key (k.expect v)
      (r, s, answer present)
  | .get =>
      let (r, key) := r.key name
      (r, s, answer (s.get key))
  | .remove =>
      let (r, key) := r.key name
      let (s, old) := s.remove key
      (r, s, answer old)

end KeyRing

end Loopback
