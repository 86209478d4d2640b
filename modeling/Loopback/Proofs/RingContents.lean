import Loopback.Ring

/-!
# The queue that a ring stands for

A ring keeps its bytes in at most two stretches of storage. `Ring.circle` reads the storage slot by
slot, going round at the end, and `Ring.contents` is the circle of `len` slots from `head` on. Seen
that way a write appends to the queue, and a read or a skip takes from its front
(`Ring.contents_write`, `Ring.contents_read`, `Ring.skip_eq_read`).
-/

namespace Loopback

namespace Ring

/-- The bytes of `n` slots from `start` on, going round at the end of the storage. -/
def circle (storage : Array UInt8) (start n : Nat) : Bytes :=
  (List.range n).map fun i => storage.getD ((start + i) % storage.size) 0

@[simp] theorem length_circle (storage : Array UInt8) (start n : Nat) :
    (circle storage start n).length = n := by
  simp [circle]

/-- Going round at most once. -/
theorem mod_eq_ite {a c : Nat} (h : a < 2 * c) : a % c = if a < c then a else a - c := by
  split
  · next inside => exact Nat.mod_eq_of_lt inside
  · next outside =>
    rw [Nat.mod_eq_sub_mod (Nat.le_of_not_lt outside)]
    exact Nat.mod_eq_of_lt (by omega)

/-! ## Reading the storage -/

theorem length_cut {storage : Array UInt8} {start n : Nat} (h : start + n ≤ storage.size) :
    (cut storage ⟨start, n⟩).length = n := by
  simp only [cut, Array.length_toList, Array.size_extract]
  omega

theorem getElem_cut {storage : Array UInt8} {start n i : Nat}
    (hi : i < (cut storage ⟨start, n⟩).length) :
    (cut storage ⟨start, n⟩)[i] = storage.getD (start + i) 0 := by
  simp only [cut, Array.length_toList, Array.size_extract] at hi
  have inside : start + i < storage.size := by omega
  simp [cut, Array.getD_eq_getD_getElem?, Array.getElem?_eq_getElem inside]

/-- The two stretches together are the circle. -/
theorem cut_spans {r : Ring} {start n : Nat} (hs : start < r.capacity) (hn : n ≤ r.capacity) :
    cut r.storage (r.spans start n).1 ++ cut r.storage (r.spans start n).2 =
      circle r.storage start n := by
  have size : r.capacity = r.storage.size := rfl
  have first : start + min n (r.capacity - start) ≤ r.storage.size := by omega
  have second : 0 + (n - min n (r.capacity - start)) ≤ r.storage.size := by omega
  apply List.ext_getElem
  · simp only [spans, List.length_append, length_cut first, length_cut second, length_circle]
    omega
  · intro i hi hi'
    rw [length_circle] at hi'
    simp only [spans, circle, List.getElem_map, List.getElem_range, ← size]
    -- Slots before the end of the storage are in the first stretch, the others in the second.
    rw [mod_eq_ite (by omega), List.getElem_append]
    split
    · next before =>
      rw [length_cut first] at before
      rw [getElem_cut, if_pos (by omega)]
    · next behind =>
      rw [length_cut first] at behind
      rw [getElem_cut, length_cut first, if_neg (by omega)]
      congr 1
      omega

/-! ## Writing the storage -/

@[simp] theorem size_paste (data : Bytes) (storage : Array UInt8) (start : Nat) :
    (paste storage start data).size = storage.size := by
  induction data generalizing storage start with
  | nil => rfl
  | cons x xs ih => rw [paste, ih, Array.size_setIfInBounds]

/-- Pasted bytes stand one after the other, and every other slot keeps its byte. -/
theorem getD_paste {storage : Array UInt8} {start i : Nat} {data : Bytes}
    (h : start + data.length ≤ storage.size) :
    (paste storage start data).getD i 0 =
      if start ≤ i ∧ i < start + data.length then data.getD (i - start) 0
      else storage.getD i 0 := by
  induction data generalizing storage start with
  | nil =>
    rw [if_neg (by simp only [List.length_nil]; omega)]
    rfl
  | cons x xs ih =>
    rw [List.length_cons] at h ⊢
    rw [paste, ih (by rw [Array.size_setIfInBounds]; omega)]
    by_cases here : i = start
    · subst here
      rw [if_neg (by omega), if_pos (by omega), Nat.sub_self]
      simp [Array.getD_eq_getD_getElem?, show i < storage.size by omega]
    · have kept : (storage.setIfInBounds start x).getD i 0 = storage.getD i 0 := by
        simp [Array.getD_eq_getD_getElem?, Ne.symm here]
      rw [kept]
      by_cases later : start + 1 ≤ i ∧ i < start + 1 + xs.length
      · have next : i - start = i - (start + 1) + 1 := by omega
        rw [if_pos later, if_pos (by omega), next, List.getD_cons_succ]
      · rw [if_neg later, if_neg (by omega)]

/-- The storage after `data` was written into the two stretches from `start` on. -/
def pasted (r : Ring) (start : Nat) (data : Bytes) : Array UInt8 :=
  paste (paste r.storage (r.spans start data.length).1.start
      (data.take (r.spans start data.length).1.count))
    (r.spans start data.length).2.start
    ((data.drop (r.spans start data.length).1.count).take (r.spans start data.length).2.count)

theorem size_pasted (r : Ring) (start : Nat) (data : Bytes) :
    (r.pasted start data).size = r.capacity := by
  rw [pasted, size_paste, size_paste, capacity]

/-- What was written stands in a circle from `start` on, and the rest of the circle is as it was. -/
theorem getD_pasted {r : Ring} {start i : Nat} {data : Bytes} (hs : start < r.capacity)
    (hn : data.length ≤ r.capacity) (hi : i < r.capacity) :
    (r.pasted start data).getD ((start + i) % r.capacity) 0 =
      if i < data.length then data.getD i 0 else r.storage.getD ((start + i) % r.capacity) 0 := by
  have size : r.capacity = r.storage.size := rfl
  simp only [pasted, spans]
  have first : (data.take (min data.length (r.capacity - start))).length =
      min data.length (r.capacity - start) := by
    rw [List.length_take]
    omega
  have whole : (data.drop (min data.length (r.capacity - start))).take
      (data.length - min data.length (r.capacity - start)) =
        data.drop (min data.length (r.capacity - start)) := by
    exact List.take_of_length_le (Nat.le_of_eq List.length_drop)
  rw [whole, getD_paste (by rw [size_paste, List.length_drop]; omega),
    getD_paste (by rw [first]; omega), first, List.length_drop, mod_eq_ite (by omega)]
  by_cases inside : start + i < r.capacity
  · -- The slot is in the first stretch or behind the data; the second stretch ends before it.
    rw [if_pos inside, if_neg (by omega)]
    by_cases new : i < data.length
    · rw [if_pos (by omega), if_pos new, Nat.add_sub_cancel_left]
      simp only [List.getD_eq_getElem?_getD]
      rw [List.getElem?_take_of_lt (by omega)]
    · rw [if_neg (by omega), if_neg new]
  · rw [if_neg inside]
    by_cases new : i < data.length
    · rw [if_pos (by omega), if_pos new, Nat.sub_zero]
      simp only [List.getD_eq_getElem?_getD, List.getElem?_drop]
      congr 2
      omega
    · rw [if_neg (by omega), if_neg (by omega), if_neg new]

/-! ## The operations -/

theorem contents_eq {r : Ring} (h : r.Valid) : r.contents = circle r.storage r.head r.len :=
  cut_spans h.head_lt h.len_le

theorem length_contents {r : Ring} (h : r.Valid) : r.contents.length = r.len := by
  rw [contents_eq h, length_circle]

theorem valid_create (n : Nat) : (create n).Valid := by
  have pos : 0 < (create n).capacity := by
    simp only [create, capacity, Array.size_replicate]
    omega
  exact ⟨pos, pos, (Nat.zero_mod _).symm, Nat.zero_le _⟩

/-- The front of a circle, and the circle behind it. -/
theorem circle_split {storage : Array UInt8} (start : Nat) {n k : Nat} (hk : k ≤ n) :
    circle storage start n =
      circle storage start k ++ circle storage ((start + k) % storage.size) (n - k) := by
  apply List.ext_getElem
  · rw [List.length_append, length_circle, length_circle, length_circle]
    omega
  · intro i hi hi'
    simp only [circle, List.getElem_append, List.getElem_map, List.getElem_range, List.length_map,
      List.length_range]
    split
    · rfl
    · next behind =>
      rw [Nat.mod_add_mod]
      congr 2
      omega

/-- A ring whose front was taken away. -/
theorem valid_drop {r : Ring} (h : r.Valid) {k : Nat} (hk : k ≤ r.len) :
    ({ r with head := (r.head + k) % r.capacity, len := r.len - k } : Ring).Valid where
  capacity_pos := h.capacity_pos
  head_lt := Nat.mod_lt _ h.capacity_pos
  tail_eq := by
    show r.tail = ((r.head + k) % r.capacity + (r.len - k)) % r.capacity
    rw [Nat.mod_add_mod, h.tail_eq]
    congr 1
    omega
  len_le := Nat.le_trans (Nat.sub_le _ _) h.len_le

theorem contents_drop {r : Ring} (h : r.Valid) {k : Nat} (hk : k ≤ r.len) :
    ({ r with head := (r.head + k) % r.capacity, len := r.len - k } : Ring).contents =
      r.contents.drop k := by
  rw [contents_eq (valid_drop h hk), contents_eq h, circle_split r.head hk,
    List.drop_append_of_le_length (Nat.le_of_eq (length_circle ..).symm)]
  rw [List.drop_eq_nil_of_le (Nat.le_of_eq (length_circle ..)), List.nil_append]
  rfl

theorem take_min_len {r : Ring} (h : r.Valid) (n : Nat) :
    r.contents.take (min n r.len) = r.contents.take n := by
  rw [← length_contents h, ← List.take_eq_take_min]

theorem drop_min_len {r : Ring} (h : r.Valid) (n : Nat) :
    r.contents.drop (min n r.len) = r.contents.drop n := by
  rw [← length_contents h, ← List.drop_eq_drop_min]

theorem read_eq (r : Ring) (n : Nat) :
    r.read n =
      if min n r.len = 0 then (r, [])
      else
        ({ r with head := (r.head + min n r.len) % r.capacity, len := r.len - min n r.len },
          cut r.storage (r.spans r.head (min n r.len)).1 ++
            cut r.storage (r.spans r.head (min n r.len)).2) := rfl

theorem read_valid {r : Ring} (h : r.Valid) (n : Nat) : (r.read n).1.Valid := by
  rw [read_eq]
  split
  · exact h
  · exact valid_drop h (Nat.min_le_right n r.len)

/-- A read takes from the front of the queue. -/
theorem contents_read {r : Ring} (h : r.Valid) (n : Nat) :
    (r.read n).1.contents = r.contents.drop n := by
  rw [← drop_min_len h]
  rw [read_eq]
  split
  · next none => rw [none, List.drop_zero]
  · exact contents_drop h (Nat.min_le_right n r.len)

theorem bytes_read {r : Ring} (h : r.Valid) (n : Nat) : (r.read n).2 = r.contents.take n := by
  rw [← take_min_len h]
  rw [read_eq]
  split
  · next none => rw [none, List.take_zero]
  · have fits : min n r.len ≤ r.capacity := Nat.le_trans (Nat.min_le_right ..) h.len_le
    rw [contents_eq h, circle_split r.head (Nat.min_le_right n r.len)]
    rw [List.take_append_of_le_length (Nat.le_of_eq (length_circle ..).symm)]
    rw [List.take_of_length_le (Nat.le_of_eq (length_circle ..))]
    exact cut_spans h.head_lt fits

/-- A skip is a read that throws the bytes away. -/
theorem skip_eq_read {r : Ring} (h : r.Valid) (n : Nat) :
    r.skip n = ((r.read n).1, (r.read n).2.length) := by
  have count : (r.read n).2.length = min n r.len := by
    rw [bytes_read h, List.length_take, length_contents h]
  rw [count, read_eq]
  split
  · next none =>
    have head : r.head % r.capacity = r.head := Nat.mod_eq_of_lt h.head_lt
    simp only [skip, none, Nat.add_zero, Nat.sub_zero, head]
  · rfl

theorem clear_valid {r : Ring} (h : r.Valid) : r.clear.Valid :=
  ⟨h.capacity_pos, h.capacity_pos, (Nat.zero_mod _).symm, Nat.zero_le _⟩

theorem write_eq (data : Bytes) (r : Ring) :
    r.write data =
      if (data.take r.remaining).length = 0 then (r, 0)
      else
        (⟨r.pasted r.tail (data.take r.remaining), r.head,
          (r.tail + (data.take r.remaining).length) % r.capacity,
          r.len + (data.take r.remaining).length⟩, (data.take r.remaining).length) := rfl

/-- A write takes as much as fits. -/
theorem count_write (data : Bytes) (r : Ring) :
    (r.write data).2 = (data.take r.remaining).length := by
  rw [write_eq]
  split
  · next none => exact none.symm
  · rfl

theorem write_valid {r : Ring} (h : r.Valid) (data : Bytes) : (r.write data).1.Valid := by
  have fits : (data.take r.remaining).length ≤ r.remaining := List.length_take_le ..
  have room : r.remaining = r.capacity - r.len := rfl
  have len := h.len_le
  rw [write_eq]
  split
  · exact h
  · refine ⟨?_, ?_, ?_, ?_⟩
    · exact Nat.lt_of_lt_of_eq h.capacity_pos (size_pasted ..).symm
    · exact Nat.lt_of_lt_of_eq h.head_lt (size_pasted ..).symm
    · show _ % r.capacity = _ % (r.pasted ..).size
      rw [size_pasted, h.tail_eq, Nat.mod_add_mod, Nat.add_assoc]
    · show _ ≤ (r.pasted ..).size
      rw [size_pasted]
      show r.len + (data.take r.remaining).length ≤ r.capacity
      omega

/-- A write appends to the queue. -/
theorem contents_write {r : Ring} (h : r.Valid) (data : Bytes) :
    (r.write data).1.contents = r.contents ++ data.take r.remaining := by
  have fits : (data.take r.remaining).length ≤ r.remaining := List.length_take_le ..
  have room : r.remaining = r.capacity - r.len := rfl
  have len := h.len_le
  have head := h.head_lt
  rw [contents_eq (write_valid h data), contents_eq h]
  rw [write_eq]
  split
  · next none => rw [List.length_eq_zero_iff.1 none, List.append_nil]
  · have tail_lt : r.tail < r.capacity := by
      rw [h.tail_eq]
      exact Nat.mod_lt _ h.capacity_pos
    apply List.ext_getElem
    · rw [List.length_append, length_circle, length_circle]
    · intro i hi hi'
      have within : i < r.len + (data.take r.remaining).length := by
        rw [length_circle] at hi
        exact hi
      rw [List.getElem_append]
      simp only [circle, List.getElem_map, List.getElem_range, List.length_map, List.length_range]
      rw [size_pasted]
      split
      · next old =>
        -- Counted from the tail, the slots of the queue come after those that are free.
        have slot :
            (r.head + i) % r.capacity = (r.tail + (r.capacity - r.len + i)) % r.capacity := by
          rw [h.tail_eq, Nat.mod_add_mod,
            show r.head + r.len + (r.capacity - r.len + i) = r.head + i + r.capacity by omega,
            Nat.add_mod_right]
        rw [slot, getD_pasted tail_lt (by omega) (by omega), if_neg (by omega), ← slot]
        rfl
      · next new =>
        have slot : (r.head + i) % r.capacity = (r.tail + (i - r.len)) % r.capacity := by
          rw [h.tail_eq, Nat.mod_add_mod,
            show r.head + r.len + (i - r.len) = r.head + i by omega]
        have inside : i - r.len < (data.take r.remaining).length := by omega
        rw [slot, getD_pasted tail_lt (by omega) (by omega), if_pos inside]
        rw [List.getD_eq_getElem?_getD, List.getElem?_eq_getElem inside, Option.getD_some]

/-! ## Capacity -/

@[simp] theorem capacity_create (n : Nat) : (create n).capacity = max n 1 := by
  simp [create, capacity]

@[simp] theorem capacity_write (data : Bytes) (r : Ring) :
    (r.write data).1.capacity = r.capacity := by
  rw [write_eq]
  split
  · rfl
  · exact size_pasted ..

@[simp] theorem capacity_read (n : Nat) (r : Ring) : (r.read n).1.capacity = r.capacity := by
  rw [read_eq]
  split <;> rfl

end Ring

end Loopback
