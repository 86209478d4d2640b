import Loopback.Proofs.RingContents

/-!
# Ring operations in checked words

The counters of a ring are machine words, and its bytes are copied slice by slice. `Ring.write?`,
`Ring.readInto?` and `Ring.skip?` carry out the operations with every step checked: they answer
nothing as soon as a sum or a difference is no word, a slice reaches past the end of its bytes, or
two slices of different lengths are copied. A ring whose layout is valid and whose storage could be
allocated passes every check (`Ring.write?_eq`, `Ring.readInto?_eq`, `Ring.skip?_eq`).
-/

namespace Loopback

namespace Word

/-- The first number that is no machine word. -/
def bound : Nat := 18446744073709551616

/-- The most bytes that one allocation can have, which is the greatest signed word. -/
def mostAllocated : Nat := 9223372036854775807

/-- The sum, if it is a word. -/
def add? (a b : Nat) : Option Nat := if a + b < bound then some (a + b) else none

/-- The difference, if it is a word. -/
def sub? (a b : Nat) : Option Nat := if b ≤ a then some (a - b) else none

/-- The remainder, if there is one. -/
def mod? (a b : Nat) : Option Nat := if b = 0 then none else some (a % b)

variable {a b : Nat}

theorem add?_eq (h : a + b < bound) : add? a b = some (a + b) := if_pos h

theorem sub?_eq (h : b ≤ a) : sub? a b = some (a - b) := if_pos h

theorem mod?_eq (h : 0 < b) : mod? a b = some (a % b) := if_neg (Nat.ne_of_gt h)

end Word

/-! ## Slices -/

/-- The bytes from `start` up to `stop`, if there are so many. -/
def slice? (data : Bytes) (start stop : Nat) : Option Bytes :=
  if start ≤ stop ∧ stop ≤ data.length then some ((data.take stop).drop start) else none

/-- Puts `data` in place of the bytes from `start` up to `stop`, if it is as long as these. -/
def replace? (dest : Bytes) (start stop : Nat) (data : Bytes) : Option Bytes :=
  if start ≤ stop ∧ stop ≤ dest.length ∧ data.length = stop - start then
    some (dest.take start ++ data ++ dest.drop stop)
  else none

section Slices

variable {data dest : Bytes} {start stop : Nat}

theorem slice?_eq (order : start ≤ stop) (inside : stop ≤ data.length) :
    slice? data start stop = some ((data.take stop).drop start) := if_pos ⟨order, inside⟩

theorem replace?_eq (order : start ≤ stop) (inside : stop ≤ dest.length)
    (alike : data.length = stop - start) :
    replace? dest start stop data = some (dest.take start ++ data ++ dest.drop stop) :=
  if_pos ⟨order, inside, alike⟩

end Slices

namespace Ring

/-- Copies `data` onto the slots from `start` up to `stop`, if it is as long as these. -/
def paste? (storage : Array UInt8) (start stop : Nat) (data : Bytes) : Option (Array UInt8) :=
  if start ≤ stop ∧ stop ≤ storage.size ∧ data.length = stop - start then
    some (paste storage start data)
  else none

/-- The bytes in the slots from `start` up to `stop`, if there are so many. -/
def cut? (storage : Array UInt8) (start stop : Nat) : Option Bytes :=
  if start ≤ stop ∧ stop ≤ storage.size then some (cut storage ⟨start, stop - start⟩) else none

theorem paste?_eq {storage : Array UInt8} {start stop : Nat} {data : Bytes}
    (order : start ≤ stop) (inside : stop ≤ storage.size) (alike : data.length = stop - start) :
    paste? storage start stop data = some (paste storage start data) :=
  if_pos ⟨order, inside, alike⟩

theorem cut?_eq {storage : Array UInt8} {start stop : Nat} (order : start ≤ stop)
    (inside : stop ≤ storage.size) :
    cut? storage start stop = some (cut storage ⟨start, stop - start⟩) :=
  if_pos ⟨order, inside⟩

/-! ## The operations, step by step -/

/-- Appends as much of `data` as fits, with every step checked. -/
def write? (data : Bytes) (r : Ring) : Option (Ring × Nat) := do
  let n := min data.length (← Word.sub? r.capacity r.len)
  if n = 0 then
    return (r, 0)
  let first := min n (← Word.sub? r.capacity r.tail)
  let storage ←
    paste? r.storage r.tail (← Word.add? r.tail first) (← slice? data 0 first)
  let storage ←
    if first < n then paste? storage 0 (← Word.sub? n first) (← slice? data first n)
    else pure storage
  let tail ← Word.mod? (← Word.add? r.tail n) r.capacity
  let len ← Word.add? r.len n
  return (⟨storage, r.head, tail, len⟩, n)

/-- Reads into the front of a destination, with every step checked. -/
def readInto? (dest : Bytes) (r : Ring) : Option (Ring × Bytes × Nat) := do
  let n := min dest.length r.len
  if n = 0 then
    return (r, dest, 0)
  let first := min n (← Word.sub? r.capacity r.head)
  let dest ← replace? dest 0 first (← cut? r.storage r.head (← Word.add? r.head first))
  let dest ←
    if first < n then replace? dest first n (← cut? r.storage 0 (← Word.sub? n first))
    else pure dest
  let head ← Word.mod? (← Word.add? r.head n) r.capacity
  let len ← Word.sub? r.len n
  return ({ r with head, len }, dest, n)

/-- Removes up to `count` bytes from the front, with every step checked. -/
def skip? (count : Nat) (r : Ring) : Option (Ring × Nat) := do
  let n := min count r.len
  let head ← Word.mod? (← Word.add? r.head n) r.capacity
  let len ← Word.sub? r.len n
  return ({ r with head, len }, n)

/-! ## No check fails -/

variable {r : Ring}

theorem tail_lt (h : r.Valid) : r.tail < r.capacity := by
  rw [h.tail_eq]
  exact Nat.mod_lt _ h.capacity_pos

/-- Sums of two places in a ring are words. -/
theorem add?_of_le (allocated : r.capacity ≤ Word.mostAllocated) {a b : Nat}
    (ha : a ≤ r.capacity) (hb : b ≤ r.capacity) : Word.add? a b = some (a + b) := by
  apply Word.add?_eq
  simp only [Word.mostAllocated, Word.bound] at allocated ⊢
  omega

/-- What a write pastes, told slice by slice. -/
theorem pasted_take (r : Ring) (start : Nat) {data : Bytes} {n : Nat} (hn : n ≤ data.length) :
    r.pasted start (data.take n) =
      paste (paste r.storage start (data.take (min n (r.capacity - start)))) 0
        ((data.take n).drop (min n (r.capacity - start))) := by
  have length : (data.take n).length = n := by
    rw [List.length_take]
    omega
  have whole : ((data.take n).drop (min n (r.capacity - start))).take
      (n - min n (r.capacity - start)) = (data.take n).drop (min n (r.capacity - start)) := by
    exact List.take_of_length_le (Nat.le_of_eq (by rw [List.length_drop, length]))
  simp only [pasted, spans, length, whole, List.take_take,
    Nat.min_eq_left (Nat.min_le_left n (r.capacity - start))]

/-- A write passes every check. -/
theorem write?_eq (h : r.Valid) (allocated : r.capacity ≤ Word.mostAllocated) (data : Bytes) :
    r.write? data = some (r.write data) := by
  have len := h.len_le
  have tail := tail_lt h
  have size : r.storage.size = r.capacity := rfl
  have room : r.remaining = r.capacity - r.len := rfl
  have taken : data.take r.remaining = data.take (min data.length r.remaining) := by
    rw [Nat.min_comm]
    exact List.take_eq_take_min
  have count : (data.take r.remaining).length = min data.length r.remaining := by
    rw [List.length_take, Nat.min_comm]
  rw [write_eq, count, taken, write?, Word.sub?_eq len, ← room]
  simp only [Option.bind_eq_bind, Option.bind_some]
  generalize counted : min data.length r.remaining = n
  have fits : n ≤ data.length := by omega
  by_cases none : n = 0
  · rw [if_pos none, if_pos none]
    rfl
  rw [if_neg none, if_neg none, Word.sub?_eq (Nat.le_of_lt tail), pasted_take r r.tail fits]
  simp only [Option.bind_some]
  generalize ended : min n (r.capacity - r.tail) = first
  have front : (data.take first).length = first := by
    rw [List.length_take]
    omega
  rw [add?_of_le allocated (by omega) (by omega), slice?_eq (by omega) (by omega)]
  simp only [Option.bind_some, List.drop_zero]
  rw [paste?_eq (by omega) (by omega) (by omega), add?_of_le allocated (by omega) (by omega),
    add?_of_le allocated (by omega) (by omega)]
  simp only [Option.bind_some]
  rw [Word.mod?_eq h.capacity_pos]
  by_cases wraps : first < n
  · have back : ((data.take n).drop first).length = n - first := by
      rw [List.length_drop, List.length_take]
      omega
    have onto : n - first ≤ (paste r.storage r.tail (data.take first)).size := by
      rw [size_paste]
      omega
    rw [if_pos wraps, Word.sub?_eq (by omega), slice?_eq (by omega) fits]
    simp only [Option.bind_some]
    rw [paste?_eq (Nat.zero_le _) onto back]
    rfl
  · have nothing : (data.take n).drop first = [] := by
      apply List.drop_eq_nil_of_le
      rw [List.length_take]
      omega
    rw [if_neg wraps, nothing]
    rfl

/-- A read passes every check. -/
theorem readInto?_eq (h : r.Valid) (allocated : r.capacity ≤ Word.mostAllocated) (dest : Bytes) :
    r.readInto? dest = some (r.readInto dest) := by
  have len := h.len_le
  have head := h.head_lt
  have size : r.storage.size = r.capacity := rfl
  rw [readInto, read_eq, readInto?]
  generalize counted : min dest.length r.len = n
  have fits : n ≤ dest.length := by omega
  by_cases none : n = 0
  · rw [if_pos none, if_pos none]
    rfl
  rw [if_neg none, if_neg none, Word.sub?_eq (Nat.le_of_lt head)]
  simp only [Option.bind_eq_bind, Option.bind_some, spans]
  generalize ended : min n (r.capacity - r.head) = first
  rw [add?_of_le allocated (by omega) (by omega)]
  simp only [Option.bind_some]
  have front : (cut r.storage ⟨r.head, first⟩).length = first := length_cut (by omega)
  have back : (cut r.storage ⟨0, n - first⟩).length = n - first := length_cut (by omega)
  rw [cut?_eq (by omega) (by omega), Nat.add_sub_cancel_left]
  simp only [Option.bind_some]
  rw [replace?_eq (Nat.zero_le _) (by omega) front]
  simp only [Option.bind_some, List.take_zero, List.nil_append]
  have both : (cut r.storage ⟨r.head, first⟩ ++ cut r.storage ⟨0, n - first⟩).length = n := by
    rw [List.length_append, front, back]
    omega
  have filled : (cut r.storage ⟨r.head, first⟩ ++ dest.drop first).length = dest.length := by
    rw [List.length_append, front, List.length_drop]
    omega
  rw [add?_of_le allocated (by omega) (by omega), both]
  simp only [Option.bind_some]
  rw [Word.mod?_eq h.capacity_pos, Word.sub?_eq (show n ≤ r.len by omega)]
  by_cases wraps : first < n
  · have rest : (cut r.storage ⟨r.head, first⟩ ++ dest.drop first).drop n = dest.drop n := by
      rw [List.drop_append, front, List.drop_eq_nil_of_le (by omega), List.nil_append,
        List.drop_drop]
      congr 1
      omega
    rw [if_pos wraps, Word.sub?_eq (by omega)]
    simp only [Option.bind_some]
    rw [cut?_eq (Nat.zero_le _) (by omega), Nat.sub_zero]
    simp only [Option.bind_some]
    rw [replace?_eq (by omega) (by omega) back, List.take_left' front, rest]
    rfl
  · have same : first = n := by omega
    have nothing : cut r.storage ⟨0, n - first⟩ = [] := by
      apply List.eq_nil_of_length_eq_zero
      omega
    rw [if_neg wraps, nothing, List.append_nil, same]
    rfl

/-- A skip passes every check. -/
theorem skip?_eq (h : r.Valid) (allocated : r.capacity ≤ Word.mostAllocated) (count : Nat) :
    r.skip? count = some (r.skip count) := by
  have len := h.len_le
  have head := h.head_lt
  rw [skip?, add?_of_le allocated (by omega) (by omega)]
  simp only [Option.bind_eq_bind, Option.bind_some]
  rw [Word.mod?_eq h.capacity_pos, Word.sub?_eq (Nat.min_le_right count r.len)]
  rfl

end Ring

end Loopback
