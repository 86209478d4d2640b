import Loopback.Attachments.KeyRing
import Mathlib.Data.Finmap
import Mathlib.Data.List.Nodup
import Mathlib.Logic.Function.Basic

/-!
# Stores as typed maps

A store finds a value by a bare number and then checks its kind, so two things could go wrong: two
keys with one number, and a value of another kind under the number of a key. Neither happens as long
as keys are only allocated (`Holdings.ask`): the keys given out bear the numbers from zero on, in
the order of their allocation, and what stands under the number of a key was put there through that
key. So each store does what a finite map of its own from typed keys to values does
(`Agrees.serve`), and what stands under a key of a store is decided by the operations under that key
on that store alone (`Holdings.get_after`).
-/

namespace Loopback

namespace Attachments

variable {κ : Type} {V : κ → Type}

/-! ## The values under identities -/

/-- The identities under which a value stands. -/
def ids (s : Attachments V) : List Nat := s.entries.map Prod.fst

theorem mem_ids_iff {id : Nat} {s : Attachments V} : id ∈ s.ids ↔ (s.find? id).isSome := by
  rw [← not_iff_not, Option.not_isSome_iff_eq_none, find?, List.lookup_eq_none_iff, ids,
    List.mem_map]
  simp only [bne_iff_ne, not_exists, not_and]
  exact ⟨fun absent x hx same => absent x hx same.symm,
    fun absent x hx same => absent x hx same.symm⟩

theorem find?_erase (id other : Nat) (s : Attachments V) :
    (s.erase id).find? other = if other = id then none else s.find? other := by
  simp only [find?, erase]
  induction s.entries with
  | nil => simp
  | cons x entries ih =>
    obtain ⟨n, v⟩ := x
    by_cases gone : n = id
    · subst gone
      rw [List.filter_cons_of_neg (by simp), ih]
      by_cases same : other = n
      · simp [same]
      · simp [same, List.lookup_cons, beq_eq_false_iff_ne.2 same]
    · rw [List.filter_cons_of_pos (by simpa using gone)]
      by_cases same : other = n
      · simp [same, gone]
      · simp [ih, List.lookup_cons, beq_eq_false_iff_ne.2 same]

theorem find?_insert (id other : Nat) (v : (k : κ) × V k) (s : Attachments V) :
    (s.insert id v).find? other = if other = id then some v else s.find? other := by
  by_cases same : other = id
  · simp [find?, insert, same]
  · have rest : (s.insert id v).find? other = (s.erase id).find? other := by
      simp [find?, insert, List.lookup_cons, beq_eq_false_iff_ne.2 same]
    rw [rest, find?_erase]
    simp [same]

theorem ids_erase (id : Nat) (s : Attachments V) : (s.erase id).ids = s.ids.filter (· != id) := by
  rw [ids, ids, erase, List.filter_map]
  rfl

theorem ids_insert (id : Nat) (v : (k : κ) × V k) (s : Attachments V) :
    (s.insert id v).ids = id :: s.ids.filter (· != id) := by
  rw [← ids_erase]
  rfl

/-- A value of the kind it is asked for. -/
@[simp] theorem cast?_self [DecidableEq κ] (k : κ) (v : V k) : cast? k ⟨k, v⟩ = some v := by
  simp [cast?]

/-! ## Operations -/

/-- What can be done about the value under a key. -/
inductive Op (α : Type) where
  | attach (v : α)
  | attachIfAbsent (v : α)
  | get
  | remove
  deriving DecidableEq

/-- What an operation leaves under a key at which `cell` stood. -/
def Op.leaves {α : Type} (cell : Option α) : Op α → Option α
  | .attach v => some v
  | .attachIfAbsent v => some (cell.getD v)
  | .get => cell
  | .remove => none

/-- A key of any kind. -/
abbrev AnyKey (κ : Type) := (k : κ) × Key k

variable [DecidableEq κ]

/-- Carries out an operation under a key of a store, and answers what the store answers. -/
def serve (key : AnyKey κ) (s : Attachments V) : Op (V key.1) → Attachments V × Option (V key.1)
  | .attach v => s.attach key.2 v
  | .attachIfAbsent v => s.attachIfAbsent key.2 v
  | .get => (s, s.get key.2)
  | .remove => s.remove key.2

/-- A finite map from keys to values of their kinds. -/
abbrev TypedMap (V : κ → Type) := Finmap fun key : AnyKey κ => V key.1

/-- Carries out an operation under a key of a map, and answers the value that stood there. -/
def TypedMap.serve (key : AnyKey κ) (m : TypedMap V) :
    Op (V key.1) → TypedMap V × Option (V key.1)
  | .attach v => (m.insert key v, m.lookup key)
  | .attachIfAbsent v => (if key ∈ m then m else m.insert key v, m.lookup key)
  | .get => (m, m.lookup key)
  | .remove => (m.erase key, m.lookup key)

/-! ## A store and a map -/

/-- The keys given out bear the numbers from zero on. -/
def Numbered (keys : List (AnyKey κ)) : Prop := keys.map (·.2.id) = List.range keys.length

omit [DecidableEq κ] in
/-- No two keys share an identity, whatever their kinds. -/
theorem Numbered.eq_of_id {keys : List (AnyKey κ)} (numbered : Numbered keys) {x y : AnyKey κ}
    (hx : x ∈ keys) (hy : y ∈ keys) (same : x.2.id = y.2.id) : x = y := by
  have distinct : (keys.map (·.2.id)).Nodup := by
    rw [numbered]
    exact List.nodup_range
  exact List.inj_on_of_nodup_map distinct hx hy same

omit [DecidableEq κ] in
theorem Numbered.id_lt {keys : List (AnyKey κ)} (numbered : Numbered keys) {key : AnyKey κ}
    (known : key ∈ keys) : key.2.id < keys.length := by
  have below : key.2.id ∈ keys.map (·.2.id) := List.mem_map_of_mem known
  rw [numbered] at below
  exact List.mem_range.1 below

/-- The store holds what the map does, under the identities of keys that were given out. -/
structure Agrees (keys : List (AnyKey κ)) (s : Attachments V) (m : TypedMap V) : Prop where
  /-- Under the identity of a key stands the value under the key, which is of the kind of the key,
  and nothing else. -/
  found : ∀ key ∈ keys, s.find? key.2.id = (m.lookup key).map (⟨key.1, ·⟩)
  /-- Values stand under the identities of keys only. -/
  owned : ∀ id ∈ s.ids, ∃ key ∈ keys, key.2.id = id
  given : ∀ key ∈ m, key ∈ keys
  once : s.ids.Nodup

theorem agrees_empty : Agrees (V := V) [] empty ∅ where
  found _ absent := absurd absent List.not_mem_nil
  owned _ absent := absurd absent List.not_mem_nil
  given _ absent := absurd absent Finmap.notMem_empty
  once := List.nodup_nil

namespace Agrees

variable {keys : List (AnyKey κ)} {s : Attachments V} {m : TypedMap V} {key : AnyKey κ}

/-- No value under a key is of another kind than the key. -/
theorem get_eq (h : Agrees keys s m) (here : key ∈ keys) : s.get key.2 = m.lookup key := by
  rw [get, h.found key here]
  cases m.lookup key <;> simp

/-- As many values stand in the store as keys are occupied. -/
theorem size_eq (h : Agrees keys s m) (numbered : Numbered keys) : s.size = m.keys.card := by
  -- The identities in the store are those of the occupied keys.
  have occupied : s.ids.toFinset = m.keys.image (·.2.id) := by
    ext id
    rw [List.mem_toFinset, Finset.mem_image]
    constructor
    · intro stands
      obtain ⟨key, here, rfl⟩ := h.owned id stands
      rw [mem_ids_iff, h.found key here, Option.isSome_map, Finmap.lookup_isSome] at stands
      exact ⟨key, Finmap.mem_keys.2 stands, rfl⟩
    · rintro ⟨key, occupied, rfl⟩
      have occupied := Finmap.mem_keys.1 occupied
      rw [mem_ids_iff, h.found key (h.given key occupied), Option.isSome_map]
      exact Finmap.lookup_isSome.2 occupied
  have apart : Set.InjOn (fun key : AnyKey κ => key.2.id) m.keys := by
    intro x hx y hy same
    exact numbered.eq_of_id (h.given x (Finmap.mem_keys.1 hx)) (h.given y (Finmap.mem_keys.1 hy))
      same
  calc s.size
    _ = s.ids.length := (List.length_map _).symm
    _ = s.ids.toFinset.card := (List.toFinset_card_of_nodup h.once).symm
    _ = (m.keys.image (·.2.id)).card := by rw [occupied]
    _ = m.keys.card := Finset.card_image_of_injOn apart

/-- A new key finds nothing under its identity. -/
theorem allocate (h : Agrees keys s m) (numbered : Numbered keys) (key : AnyKey κ)
    (fresh : key.2.id = keys.length) : Agrees (keys ++ [key]) s m := by
  have unknown : key ∉ keys := fun known => (numbered.id_lt known).ne fresh
  refine ⟨?_, ?_, ?_, h.once⟩
  · intro other here
    rcases List.mem_append.1 here with old | new
    · exact h.found other old
    · obtain rfl := List.mem_singleton.1 new
      have vacant : m.lookup other = none :=
        Finmap.lookup_eq_none.2 fun occupied => unknown (h.given other occupied)
      rw [vacant, Option.map_none, ← Option.not_isSome_iff_eq_none, ← mem_ids_iff]
      intro stands
      -- Whatever stands in the store does so under the number of an older key.
      obtain ⟨old, known, same⟩ := h.owned _ stands
      exact (numbered.id_lt known).ne (same.trans fresh)
  · intro id stands
    obtain ⟨old, known, same⟩ := h.owned id stands
    exact ⟨old, List.mem_append_left _ known, same⟩
  · intro other occupied
    exact List.mem_append_left _ (h.given other occupied)

theorem insert (h : Agrees keys s m) (numbered : Numbered keys) (here : key ∈ keys)
    (v : V key.1) : Agrees keys (s.insert key.2.id ⟨key.1, v⟩) (m.insert key v) where
  found other known := by
    rw [find?_insert]
    by_cases same : other = key
    · subst same
      simp
    · have apart : other.2.id ≠ key.2.id := fun id => same (numbered.eq_of_id known here id)
      rw [if_neg apart, h.found other known, Finmap.lookup_insert_of_ne m same]
  owned id stands := by
    rw [ids_insert] at stands
    rcases List.mem_cons.1 stands with rfl | old
    · exact ⟨key, here, rfl⟩
    · exact h.owned id (List.mem_filter.1 old).1
  given other occupied := by
    rcases Finmap.mem_insert.1 occupied with rfl | old
    · exact here
    · exact h.given other old
  once := by
    rw [ids_insert, List.nodup_cons]
    exact ⟨by simp, h.once.filter _⟩

theorem erase (h : Agrees keys s m) (numbered : Numbered keys) (here : key ∈ keys) :
    Agrees keys (s.erase key.2.id) (m.erase key) where
  found other known := by
    rw [find?_erase]
    by_cases same : other = key
    · subst same
      simp
    · have apart : other.2.id ≠ key.2.id := fun id => same (numbered.eq_of_id known here id)
      rw [if_neg apart, h.found other known, Finmap.lookup_erase_ne same]
  owned id stands := by
    rw [ids_erase] at stands
    exact h.owned id (List.mem_filter.1 stands).1
  given other occupied := h.given other (Finmap.mem_erase.1 occupied).2
  once := by
    rw [ids_erase]
    exact h.once.filter _

/-- A store and a map answer alike, and agree afterwards. -/
theorem serve (h : Agrees keys s m) (numbered : Numbered keys) (here : key ∈ keys)
    (op : Op (V key.1)) :
    (Attachments.serve key s op).2 = (TypedMap.serve key m op).2 ∧
      Agrees keys (Attachments.serve key s op).1 (TypedMap.serve key m op).1 := by
  have same := h.get_eq here
  cases op with
  | attach v => exact ⟨same, h.insert numbered here v⟩
  | get => exact ⟨same, h⟩
  | remove => exact ⟨same, h.erase numbered here⟩
  | attachIfAbsent v =>
    have found := h.found key here
    simp only [Attachments.serve, TypedMap.serve, attachIfAbsent]
    cases occupied : m.lookup key with
    | none =>
      rw [occupied, Option.map_none] at found
      rw [found, if_neg (Finmap.lookup_eq_none.1 occupied)]
      exact ⟨rfl, h.insert numbered here v⟩
    | some present =>
      rw [occupied, Option.map_some] at found
      rw [found, if_pos (Finmap.mem_of_lookup_eq_some occupied)]
      exact ⟨cast?_self _ _, h⟩

end Agrees

namespace TypedMap

variable (m : TypedMap V) (key : AnyKey κ) (op : Op (V key.1))

/-- Under its key an operation leaves what it says. -/
theorem lookup_serve_self : (TypedMap.serve key m op).1.lookup key = op.leaves (m.lookup key) := by
  cases op with
  | attach v => exact Finmap.lookup_insert m
  | get => rfl
  | remove => exact Finmap.lookup_erase key m
  | attachIfAbsent v =>
    simp only [TypedMap.serve, Op.leaves]
    cases occupied : m.lookup key with
    | none =>
      rw [if_neg (Finmap.lookup_eq_none.1 occupied)]
      exact Finmap.lookup_insert m
    | some present =>
      rw [if_pos (Finmap.mem_of_lookup_eq_some occupied)]
      exact occupied

/-- Under every other key an operation leaves what stood there. -/
theorem lookup_serve_of_ne {other : AnyKey κ} (apart : other ≠ key) :
    (TypedMap.serve key m op).1.lookup other = m.lookup other := by
  cases op with
  | attach v => exact Finmap.lookup_insert_of_ne m apart
  | get => rfl
  | remove => exact Finmap.lookup_erase_ne apart
  | attachIfAbsent v =>
    simp only [TypedMap.serve]
    split
    · rfl
    · exact Finmap.lookup_insert_of_ne m apart

end TypedMap

/-! ## Many stores and many keys -/

/-- What is asked of stores that are named by `σ`. -/
inductive Request (σ : Type) {κ : Type} (V : κ → Type) where
  /-- Give out a new key for values of kind `k`. -/
  | allocate (k : κ)
  /-- Carry out an operation under a key of a store. -/
  | perform (store : σ) (key : AnyKey κ) (op : Op (V key.1))

/-- What is answered. -/
inductive Reply {κ : Type} (V : κ → Type) where
  | key (key : AnyKey κ)
  | value (k : κ) (v : Option (V k))
  /-- The key was never given out. -/
  | unknown

variable {σ S : Type}

/-- The operation that is asked for under one key of one store. -/
def Request.opAt? [DecidableEq σ] (s : σ) (key : AnyKey κ) : Request σ V → Option (Op (V key.1))
  | .allocate _ => none
  | .perform store other op =>
      if same : other = key then if store = s then some (same ▸ op) else none else none

/-- A store for each name, and the keys given out so far. -/
structure Holdings (σ κ S : Type) where
  source : KeySource
  keys : List (AnyKey κ)
  stores : σ → S

namespace Holdings

/-- No key was given out, and every store is empty. -/
def fresh (empty : S) : Holdings σ κ S := ⟨⟨0⟩, [], fun _ => empty⟩

section Asking

variable [DecidableEq σ] (serve : (key : AnyKey κ) → S → Op (V key.1) → S × Option (V key.1))

/-- Does what is asked, with stores that serve an operation as `serve` says. Keys come from nowhere
but the source: a request through any other key changes nothing. -/
def ask (h : Holdings σ κ S) : Request σ V → Holdings σ κ S × Reply V
  | .allocate k =>
      let (source, key) := h.source.fresh k
      ({ h with source, keys := h.keys ++ [⟨k, key⟩] }, .key ⟨k, key⟩)
  | .perform store key op =>
      if key ∈ h.keys then
        let (s, v) := serve key (h.stores store) op
        ({ h with stores := Function.update h.stores store s }, .value key.1 v)
      else (h, .unknown)

/-- The stores and the keys after all that was asked. -/
def after (h : Holdings σ κ S) (requests : List (Request σ V)) : Holdings σ κ S :=
  requests.foldl (fun h r => (h.ask serve r).1) h

/-- All that was answered, in order. -/
def replies (h : Holdings σ κ S) : List (Request σ V) → List (Reply V)
  | [] => []
  | r :: requests => (h.ask serve r).2 :: (h.ask serve r).1.replies requests

end Asking

/-- Stores and maps that were asked the same so far. -/
structure Twins (h : Holdings σ κ (Attachments V)) (i : Holdings σ κ (TypedMap V)) : Prop where
  source : i.source = h.source
  keys : i.keys = h.keys
  next : h.source.next = h.keys.length
  numbered : Numbered h.keys
  agree : ∀ s, Agrees h.keys (h.stores s) (i.stores s)

theorem twins_fresh : (fresh empty : Holdings σ κ (Attachments V)).Twins (fresh ∅) where
  source := rfl
  keys := rfl
  next := rfl
  numbered := rfl
  agree _ := agrees_empty

section Twins

variable [DecidableEq σ] {h : Holdings σ κ (Attachments V)} {i : Holdings σ κ (TypedMap V)}

/-- Whatever is asked, stores and maps answer alike and stay twins. -/
theorem Twins.ask (twins : h.Twins i) (r : Request σ V) :
    (h.ask Attachments.serve r).2 = (i.ask TypedMap.serve r).2 ∧
      (h.ask Attachments.serve r).1.Twins (i.ask TypedMap.serve r).1 := by
  obtain ⟨source, keys, next, numbered, agree⟩ := twins
  cases r with
  | allocate k =>
    have fresh : (h.source.fresh k).2.id = h.keys.length := next
    refine ⟨by simp only [Holdings.ask, source], ?_⟩
    refine ⟨?_, ?_, ?_, ?_, fun s => (agree s).allocate numbered ⟨k, _⟩ fresh⟩
    · simp only [Holdings.ask, source]
    · simp only [Holdings.ask, source, keys]
    · simp [Holdings.ask, KeySource.fresh, next]
    · simp only [Holdings.ask, Numbered, List.map_append, List.length_append, List.map_cons,
        List.map_nil, List.length_singleton, List.range_succ, fresh]
      rw [numbered]
  | perform store key op =>
    by_cases here : key ∈ h.keys
    · obtain ⟨same, onward⟩ := (agree store).serve numbered here op
      simp only [Holdings.ask, keys, here, if_true, same]
      refine ⟨trivial, source, rfl, next, numbered, ?_⟩
      intro s
      by_cases there : s = store
      · subst there
        simpa using onward
      · simpa [there] using agree s
    · simp only [Holdings.ask, keys, here, if_false]
      exact ⟨trivial, source, keys, next, numbered, agree⟩

theorem Twins.run (twins : h.Twins i) (requests : List (Request σ V)) :
    h.replies Attachments.serve requests = i.replies TypedMap.serve requests ∧
      (h.after Attachments.serve requests).Twins (i.after TypedMap.serve requests) := by
  induction requests generalizing h i with
  | nil => exact ⟨rfl, twins⟩
  | cons r requests ih =>
    obtain ⟨same, onward⟩ := twins.ask r
    obtain ⟨replies, after⟩ := ih onward
    exact ⟨List.cons_eq_cons.2 ⟨same, replies⟩, after⟩

/-- A key that was given out stays so. -/
theorem mem_keys_ask {key : AnyKey κ} (here : key ∈ h.keys) (r : Request σ V) :
    key ∈ (h.ask Attachments.serve r).1.keys := by
  cases r with
  | allocate k => exact List.mem_append_left _ here
  | perform store other op =>
    simp only [Holdings.ask]
    split <;> exact here

/-- What one request leaves under a key of a store: what it asks for there, if it does. -/
theorem Twins.get_ask (twins : h.Twins i) {key : AnyKey κ} (here : key ∈ h.keys) (s : σ)
    (r : Request σ V) :
    ((h.ask Attachments.serve r).1.stores s).get key.2 =
      (r.opAt? s key).toList.foldl Op.leaves ((h.stores s).get key.2) := by
  obtain ⟨-, onward⟩ := twins.ask r
  -- The twin of the store is easier to look at: its keys are apart from the start.
  rw [(onward.agree s).get_eq (mem_keys_ask here r), (twins.agree s).get_eq here]
  cases r with
  | allocate k => rfl
  | perform store other op =>
    by_cases known : other ∈ h.keys
    · simp only [Holdings.ask, twins.keys, known, if_true, Request.opAt?]
      by_cases there : store = s
      · subst there
        rw [Function.update_self]
        by_cases same : other = key
        · subst same
          simpa using (i.stores store).lookup_serve_self other op
        · simpa [same] using (i.stores store).lookup_serve_of_ne other op fun eq => same eq.symm
      · simp [there, Function.update_of_ne (Ne.symm there)]
    · have other_key : other ≠ key := fun same => known (same ▸ here)
      simp only [Holdings.ask, twins.keys, known, if_false, Request.opAt?, other_key]
      rfl

/-- What stands under a key of a store is decided by what stood there and the operations that were
asked for under that key on that store, and by nothing else. -/
theorem Twins.get_after (twins : h.Twins i) {key : AnyKey κ} (here : key ∈ h.keys) (s : σ)
    (later : List (Request σ V)) :
    ((h.after Attachments.serve later).stores s).get key.2 =
      (later.filterMap (Request.opAt? s key)).foldl Op.leaves ((h.stores s).get key.2) := by
  induction later generalizing h i with
  | nil => rfl
  | cons r later ih =>
    obtain ⟨-, onward⟩ := twins.ask r
    have rest := ih onward (mem_keys_ask here r)
    rw [twins.get_ask here] at rest
    rw [Holdings.after, List.foldl_cons, ← Holdings.after, rest]
    cases asked : r.opAt? s key with
    | none => rw [List.filterMap_cons_none asked, Option.toList_none, List.foldl_nil]
    | some op =>
      rw [List.filterMap_cons_some asked, Option.toList_some, List.foldl_cons, List.foldl_nil,
        List.foldl_cons]

end Twins

/-- Stores are typed maps. Whatever is asked of any number of stores through keys that were given
out, they answer just as finite maps from typed keys to values would, each store a map of its own:
an operation answers the value that stood under its key, and none exactly when the key was vacant.
The keys bear the numbers from zero on, so fewer than so many keys have no number in common. The
text of a store tells how many of its keys are occupied. Under the number of a key stands a value of
the kind of the key or nothing, and what that is after any further requests is decided by the
operations under that very key on that very store: the value attached last and not removed since. -/
theorem stores_are_typed_maps [DecidableEq σ] (requests : List (Request σ V)) :
    let held := (fresh empty : Holdings σ κ (Attachments V)).after serve requests
    let maps := (fresh ∅ : Holdings σ κ (TypedMap V)).after TypedMap.serve requests
    (fresh empty).replies serve requests = (fresh ∅).replies TypedMap.serve requests ∧
      (Numbered held.keys ∧ maps.keys = held.keys) ∧
      (∀ s, (held.stores s).describe =
        s!"Attachments \x7b len: {(maps.stores s).keys.card} \x7d") ∧
      ∀ s, ∀ key ∈ held.keys,
        (held.stores s).find? key.2.id = ((maps.stores s).lookup key).map (⟨key.1, ·⟩) ∧
        ∀ later, ((held.after serve later).stores s).get key.2 =
          (later.filterMap (Request.opAt? s key)).foldl Op.leaves ((held.stores s).get key.2) := by
  intro held maps
  obtain ⟨replies, twins⟩ := (twins_fresh (σ := σ) (V := V)).run requests
  refine ⟨replies, ⟨twins.numbered, twins.keys⟩, ?_, ?_⟩
  · intro s
    have size : (held.stores s).size = (maps.stores s).keys.card :=
      (twins.agree s).size_eq twins.numbered
    unfold describe
    rw [size]
  · intro s key here
    exact ⟨(twins.agree s).found key here, twins.get_after here s⟩

/-- Two keys for numbers and one for texts are given out. On store 0 each gets a value, and on
store 1 the first key does. -/
def twoStores : List (Request Nat Kind.Value) :=
  [.allocate .int, .allocate .int, .allocate .text,
    .perform 0 ⟨.int, ⟨0⟩⟩ (.attach (5 : Int)), .perform 0 ⟨.int, ⟨1⟩⟩ (.attach (6 : Int)),
    .perform 0 ⟨.text, ⟨2⟩⟩ (.attach "six"),
    .perform 1 ⟨.int, ⟨0⟩⟩ (.attachIfAbsent (7 : Int))]

/-- The second key is vacated on store 0, and the first one is not overwritten there. A request
through the number of the text key, as if it were one for numbers, does nothing. -/
def vacating : List (Request Nat Kind.Value) :=
  [.perform 0 ⟨.int, ⟨1⟩⟩ .remove, .perform 0 ⟨.int, ⟨0⟩⟩ (.attachIfAbsent (8 : Int)),
    .perform 1 ⟨.int, ⟨0⟩⟩ (.attach (9 : Int)), .perform 0 ⟨.int, ⟨2⟩⟩ .remove]

/-- After `twoStores` and `vacating` store 0 still has the first value under the first key, nothing
under the second and its text under the third; store 1 has a value of its own. -/
theorem typed_after_vacating :
    let held := (fresh empty : Holdings Nat Kind (Attachments Kind.Value)).after serve twoStores
    let later := held.after serve vacating
    (⟨.int, ⟨0⟩⟩ ∈ held.keys ∧ ⟨.int, ⟨1⟩⟩ ∈ held.keys ∧ ⟨.text, ⟨2⟩⟩ ∈ held.keys) ∧
      (later.stores 0).get (⟨0⟩ : Key Kind.int) = some (5 : Int) ∧
      (later.stores 0).get (⟨1⟩ : Key Kind.int) = none ∧
      (later.stores 0).get (⟨2⟩ : Key Kind.text) = some "six" ∧
      (later.stores 1).get (⟨0⟩ : Key Kind.int) = some (9 : Int) := by
  intro held later
  obtain ⟨-, -, -, under⟩ := stores_are_typed_maps (σ := Nat) (V := Kind.Value) twoStores
  have first : (⟨.int, ⟨0⟩⟩ : AnyKey Kind) ∈ held.keys := by decide
  have second : (⟨.int, ⟨1⟩⟩ : AnyKey Kind) ∈ held.keys := by decide
  have third : (⟨.text, ⟨2⟩⟩ : AnyKey Kind) ∈ held.keys := by decide
  exact ⟨⟨first, second, third⟩, (under 0 _ first).2 vacating, (under 0 _ second).2 vacating,
    (under 0 _ third).2 vacating, (under 1 _ first).2 vacating⟩

end Holdings

end Attachments

end Loopback
