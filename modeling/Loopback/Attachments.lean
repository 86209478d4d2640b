/-!
# Typed attachments

A store of values of many types, bound to one side of a pair. A key is an identity together with
the kind of value that it stands for; the store itself only knows identities, and a value taken out
is checked against the kind of the key. Keys come from one counter, so two keys never share an
identity, even when they stand for the same kind.
-/

namespace Loopback

/-- The identity of one slot for values of kind `k`. -/
structure Key {κ : Type} (k : κ) where
  id : Nat
  deriving DecidableEq, Repr

/-- Diagnostic text. -/
def Key.describe {κ : Type} {k : κ} (key : Key k) : String :=
  s!"AttachmentKey \x7b id: {key.id} \x7d"

/-- Where new keys come from: the identity of the next one. -/
structure KeySource where
  next : Nat
  deriving DecidableEq, Repr

/-- A key never given out before. -/
def KeySource.fresh {κ : Type} (k : κ) (s : KeySource) : KeySource × Key k :=
  (⟨s.next + 1⟩, ⟨s.next⟩)

/-- Values of any of the kinds `κ`, each under the identity of a key. -/
structure Attachments {κ : Type} (V : κ → Type) where
  entries : List (Nat × (k : κ) × V k)

namespace Attachments

variable {κ : Type} {V : κ → Type}

/-- Nothing is attached. -/
def empty : Attachments V := ⟨[]⟩

/-- How many values are attached. -/
def size (s : Attachments V) : Nat := s.entries.length

/-- The value under an identity, of whatever kind. -/
def find? (id : Nat) (s : Attachments V) : Option ((k : κ) × V k) := s.entries.lookup id

/-- The store without the value under an identity. -/
def erase (id : Nat) (s : Attachments V) : Attachments V :=
  ⟨s.entries.filter (·.1 != id)⟩

/-- The store with a value under an identity, in place of an earlier one. -/
def insert (id : Nat) (v : (k : κ) × V k) (s : Attachments V) : Attachments V :=
  ⟨(id, v) :: (s.erase id).entries⟩

variable [DecidableEq κ]

/-- A value as one of kind `k`, if it is one. -/
def cast? (k : κ) (v : (k : κ) × V k) : Option (V k) :=
  if h : v.1 = k then some (h ▸ v.2) else none

/-- The value under a key. -/
def get {k : κ} (key : Key k) (s : Attachments V) : Option (V k) :=
  (s.find? key.id).bind (cast? k)

/-- Puts a value under a key; answers the one that stood there. -/
def attach {k : κ} (key : Key k) (v : V k) (s : Attachments V) :
    Attachments V × Option (V k) :=
  (s.insert key.id ⟨k, v⟩, s.get key)

/-- Puts a value under a key if nothing stands there; answers the value that does. -/
def attachIfAbsent {k : κ} (key : Key k) (v : V k) (s : Attachments V) :
    Attachments V × Option (V k) :=
  match s.find? key.id with
  | some present => (s, cast? k present)
  | none => (s.insert key.id ⟨k, v⟩, none)

/-- Takes the value under a key out of the store. -/
def remove {k : κ} (key : Key k) (s : Attachments V) : Attachments V × Option (V k) :=
  (s.erase key.id, s.get key)

omit [DecidableEq κ] in
/-- Diagnostic text. -/
def describe (s : Attachments V) : String := s!"Attachments \x7b len: {s.size} \x7d"

end Attachments

end Loopback
