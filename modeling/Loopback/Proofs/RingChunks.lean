import Loopback.Proofs.RingQueue

/-!
# Chunks make no difference

Writing two pieces of data one after the other leaves a ring in the very state in which writing them
at once leaves it, stale bytes included, wherever the pieces are parted: before, at or behind the
end of the storage, and before or after the ring is full. The same holds of reading and of skipping
(`Ring.chunks_make_no_difference`). An operation that moves nothing returns early, so each operation
is first given one form for all counts (`Ring.write_whole`, `Ring.read_whole`).
-/

namespace Loopback

namespace Ring

variable {r : Ring}

theorem valid_after (capacity : Nat) (ops : List ByteOp) : ((create capacity).after ops).Valid :=
  ((standsFor_create capacity).after ops).layout

/-! ## Writing -/

theorem pasted_nil (r : Ring) (start : Nat) : r.pasted start [] = r.storage := by
  simp [pasted, paste]

/-- A write, whether anything fits or not. -/
theorem write_whole (h : r.Valid) (data : Bytes) :
    r.write data =
      (⟨r.pasted r.tail (data.take r.remaining), r.head,
        (r.tail + (data.take r.remaining).length) % r.capacity,
        r.len + (data.take r.remaining).length⟩, (data.take r.remaining).length) := by
  rw [write_eq]
  split
  · next none =>
    rw [List.length_eq_zero_iff.1 none, pasted_nil, List.length_nil, Nat.add_zero, Nat.add_zero,
      Nat.mod_eq_of_lt (tail_lt h)]
  · rfl

/-- Every slot of a circle is met once on the way round from `start`. -/
theorem exists_slot {start j capacity : Nat} (hs : start < capacity) (hj : j < capacity) :
    ∃ i, i < capacity ∧ (start + i) % capacity = j := by
  by_cases behind : start ≤ j
  · exact ⟨j - start, by omega, by rw [Nat.add_sub_cancel' behind, Nat.mod_eq_of_lt hj]⟩
  · refine ⟨j + capacity - start, by omega, ?_⟩
    rw [show start + (j + capacity - start) = j + capacity by omega, Nat.add_mod_right,
      Nat.mod_eq_of_lt hj]

/-- Pasting behind what was pasted is pasting both at once. -/
theorem pasted_append {r' : Ring} {start : Nat} {d₁ d₂ : Bytes} (hs : start < r.capacity)
    (hn : d₁.length + d₂.length ≤ r.capacity) (storage : r'.storage = r.pasted start d₁) :
    r'.pasted ((start + d₁.length) % r.capacity) d₂ = r.pasted start (d₁ ++ d₂) := by
  have pos : 0 < r.capacity := Nat.zero_lt_of_lt hs
  have capacity : r'.capacity = r.capacity := by rw [Ring.capacity, storage, size_pasted]
  have next : (start + d₁.length) % r.capacity < r'.capacity := by
    rw [capacity]
    exact Nat.mod_lt _ pos
  apply Array.ext
  · rw [size_pasted, size_pasted, capacity]
  intro j hj hj'
  rw [size_pasted] at hj'
  obtain ⟨i, hi, rfl⟩ := exists_slot hs hj'
  have left : (r'.pasted ((start + d₁.length) % r.capacity) d₂).getD
      ((start + i) % r.capacity) 0 = (r.pasted start (d₁ ++ d₂)).getD
        ((start + i) % r.capacity) 0 := by
    have before := @getD_pasted r start i d₁ hs (by omega) hi
    rw [getD_pasted hs (by rw [List.length_append]; exact hn) hi, List.length_append]
    by_cases old : i < d₁.length
    · -- Counted from behind the first piece, its slots come last.
      have slot : (start + i) % r.capacity =
          ((start + d₁.length) % r.capacity + (r.capacity - d₁.length + i)) % r'.capacity := by
        rw [capacity, Nat.mod_add_mod,
          show start + d₁.length + (r.capacity - d₁.length + i) = start + i + r.capacity by omega,
          Nat.add_mod_right]
      rw [slot, getD_pasted next (by omega) (by omega), if_neg (by omega), ← slot, storage, before,
        if_pos old, if_pos (by omega)]
      simp [List.getElem?_append_left old]
    · have slot : (start + i) % r.capacity =
          ((start + d₁.length) % r.capacity + (i - d₁.length)) % r'.capacity := by
        rw [capacity, Nat.mod_add_mod,
          show start + d₁.length + (i - d₁.length) = start + i by omega]
      rw [slot, getD_pasted next (by omega) (by omega), ← slot, storage, before, if_neg old]
      by_cases new : i < d₁.length + d₂.length
      · rw [if_pos (by omega), if_pos new]
        simp [List.getElem?_append_right (Nat.le_of_not_lt old)]
      · rw [if_neg (by omega), if_neg new]
  rw [Array.getD_eq_getD_getElem?, Array.getD_eq_getD_getElem?, Array.getElem?_eq_getElem hj,
    Array.getElem?_eq_getElem (by rw [size_pasted]; exact hj')] at left
  exact left

/-- Two writes in a row are one write of both pieces. -/
theorem write_append (h : r.Valid) (d₁ d₂ : Bytes) :
    r.write (d₁ ++ d₂) =
      (((r.write d₁).1.write d₂).1, (r.write d₁).2 + ((r.write d₁).1.write d₂).2) := by
  have len := h.len_le
  have room : r.remaining = r.capacity - r.len := rfl
  have first : (d₁.take r.remaining).length = min r.remaining d₁.length := List.length_take
  -- The first write leaves room for what the whole would still have taken.
  have left : (r.write d₁).1.remaining = r.remaining - d₁.length := by
    rw [remaining, capacity_write, write_whole h]
    show r.capacity - (r.len + (d₁.take r.remaining).length) = _
    omega
  have parts : (d₁ ++ d₂).take r.remaining =
      d₁.take r.remaining ++ d₂.take (r.write d₁).1.remaining := by
    rw [List.take_append, left]
  have second : (d₂.take (r.write d₁).1.remaining).length ≤ r.remaining - d₁.length := by
    rw [left]
    exact List.length_take_le ..
  rw [write_whole h (d₁ ++ d₂), parts, write_whole (write_valid h d₁), capacity_write]
  generalize d₂.take (r.write d₁).1.remaining = t₂ at second
  have storage := congrArg (fun x : Ring × Nat => x.1.storage) (write_whole h d₁)
  have joined : (r.write d₁).1.pasted ((r.tail + (d₁.take r.remaining).length) % r.capacity) t₂ =
      r.pasted r.tail (d₁.take r.remaining ++ t₂) :=
    pasted_append (tail_lt h) (by omega) storage
  rw [write_whole h d₁] at joined ⊢
  simp only at joined ⊢
  rw [joined, List.length_append, Nat.mod_add_mod, Nat.add_assoc, Nat.add_assoc]

/-! ## Reading and skipping -/

/-- A read, whether anything is there or not. -/
theorem read_whole (h : r.Valid) (n : Nat) :
    r.read n =
      ({ r with head := (r.head + min n r.len) % r.capacity, len := r.len - min n r.len },
        r.contents.take n) := by
  rw [← bytes_read h, read_eq]
  split
  · next none =>
    rw [none, Nat.add_zero, Nat.sub_zero, Nat.mod_eq_of_lt h.head_lt]
  · rfl

/-- Two reads in a row are one read of as much as both. -/
theorem read_add (h : r.Valid) (n m : Nat) :
    r.read (n + m) =
      (((r.read n).1.read m).1, (r.read n).2 ++ ((r.read n).1.read m).2) := by
  have bytes : r.contents.take (n + m) = (r.read n).2 ++ ((r.read n).1.read m).2 := by
    rw [bytes_read h, bytes_read (read_valid h n), contents_read h, List.take_add]
  have counts : min n r.len + min m (r.len - min n r.len) = min (n + m) r.len := by omega
  rw [read_whole h (n + m), bytes, read_whole (read_valid h n), capacity_read]
  congr 1
  rw [read_whole h n]
  simp only [Nat.mod_add_mod, Nat.add_assoc, Nat.sub_sub, counts]

/-- Two reads into neighbouring destinations are one read into both. -/
theorem readInto_append (h : r.Valid) (dest₁ dest₂ : Bytes) :
    r.readInto (dest₁ ++ dest₂) =
      (((r.readInto dest₁).1.readInto dest₂).1,
        (r.readInto dest₁).2.1 ++ ((r.readInto dest₁).1.readInto dest₂).2.1,
        (r.readInto dest₁).2.2 + ((r.readInto dest₁).1.readInto dest₂).2.2) := by
  have first : (r.read dest₁.length).2.length = min dest₁.length r.len := by
    rw [bytes_read h, List.length_take, length_contents h]
  have second : ((r.read dest₁.length).1.read dest₂.length).2.length =
      min dest₂.length (r.len - min dest₁.length r.len) := by
    rw [bytes_read (read_valid h _), List.length_take, contents_read h, List.length_drop,
      length_contents h]
    omega
  simp only [readInto, List.length_append, read_add h]
  congr 2
  generalize (r.read dest₁.length).2 = b₁ at first
  generalize ((r.read dest₁.length).1.read dest₂.length).2 = b₂ at second
  -- Either the first destination is filled, or nothing is left for the second one.
  by_cases filled : b₁.length = dest₁.length
  · rw [filled, List.drop_length, List.drop_append, List.drop_eq_nil_of_le (by omega),
      Nat.add_sub_cancel_left]
    simp
  · have nothing : b₂ = [] := by
      apply List.eq_nil_of_length_eq_zero
      omega
    rw [nothing, List.length_nil, Nat.add_zero, List.drop_append_of_le_length (by omega)]
    simp

/-- Two skips in a row are one skip of as much as both. -/
theorem skip_add (h : r.Valid) (n m : Nat) :
    r.skip (n + m) =
      (((r.skip n).1.skip m).1, (r.skip n).2 + ((r.skip n).1.skip m).2) := by
  rw [skip_eq_read h, skip_eq_read h, skip_eq_read (read_valid h n), read_add h,
    List.length_append]

/-- Chunks make no difference. Whatever operations were carried out on a fresh ring, writing two
pieces of data at once leaves the same ring, stale bytes and counters included, as writing one and
then the other, and the counts add up; so it is with reading, into two destinations that stand side
by side, and with skipping. -/
theorem chunks_make_no_difference (capacity : Nat) (ops : List ByteOp) :
    let r := (create capacity).after ops
    (∀ d₁ d₂ : Bytes,
      let (r₁, n₁) := r.write d₁
      let (r₂, n₂) := r₁.write d₂
      r.write (d₁ ++ d₂) = (r₂, n₁ + n₂)) ∧
    (∀ n m : Nat,
      let (r₁, b₁) := r.read n
      let (r₂, b₂) := r₁.read m
      r.read (n + m) = (r₂, b₁ ++ b₂)) ∧
    (∀ dest₁ dest₂ : Bytes,
      let (r₁, filled₁, n₁) := r.readInto dest₁
      let (r₂, filled₂, n₂) := r₁.readInto dest₂
      r.readInto (dest₁ ++ dest₂) = (r₂, filled₁ ++ filled₂, n₁ + n₂)) ∧
    ∀ n m : Nat,
      let (r₁, n₁) := r.skip n
      let (r₂, n₂) := r₁.skip m
      r.skip (n + m) = (r₂, n₁ + n₂) := by
  intro r
  have valid : r.Valid := valid_after capacity ops
  refine ⟨?_, ?_, ?_, ?_⟩
  · exact write_append valid
  · exact read_add valid
  · exact readInto_append valid
  · exact skip_add valid

end Ring

end Loopback
