import Loopback.Proofs.RingBounds

/-!
# A ring is a bounded queue

`ByteQueue` is a list of bytes with a limit on its length, and says of each operation what it
appends, removes and answers. `Ring.StandsFor` ties a ring to the queue that it stands for, with the
layout that finds the bytes. Every operation keeps the tie and gives the same answer on both sides
(`Ring.StandsFor.step`), so a ring does what the queue does along any sequence of operations, and
no check of its arithmetic and of its copies ever fails (`Ring.refines_bounded_queue`).
-/

namespace Loopback

/-- A queue of bytes that holds at most `capacity` of them, oldest first. -/
structure ByteQueue where
  capacity : Nat
  bytes : Bytes

namespace ByteQueue

/-- An empty queue. -/
def empty (capacity : Nat) : ByteQueue := ⟨capacity, []⟩

/-- Bytes that still fit. -/
def room (q : ByteQueue) : Nat := q.capacity - q.bytes.length

/-- Nothing more fits. -/
def isFull (q : ByteQueue) : Bool := q.bytes.length == q.capacity

/-- Appends as much of the front of `data` as fits; answers how many bytes that were. -/
def write (data : Bytes) (q : ByteQueue) : ByteQueue × Nat :=
  ({ q with bytes := q.bytes ++ data.take q.room }, min data.length q.room)

/-- Moves bytes from the front to the front of a destination, whose rest stays as it is; answers the
destination and how many bytes that were. -/
def readInto (dest : Bytes) (q : ByteQueue) : ByteQueue × Bytes × Nat :=
  let n := min dest.length q.bytes.length
  ({ q with bytes := q.bytes.drop n }, q.bytes.take n ++ dest.drop n, n)

/-- Removes bytes from the front; answers how many that were. -/
def skip (count : Nat) (q : ByteQueue) : ByteQueue × Nat :=
  let n := min count q.bytes.length
  ({ q with bytes := q.bytes.drop n }, n)

/-- Removes all bytes. -/
def clear (q : ByteQueue) : ByteQueue := { q with bytes := [] }

end ByteQueue

/-! ## Operations in sequence -/

/-- An operation on a byte queue. -/
inductive ByteOp where
  | write (data : Bytes)
  /-- Read into a destination that holds `dest`. -/
  | read (dest : Bytes)
  | skip (count : Nat)
  | clear

/-- What an operation answers: the destination of a read as it is afterwards, and a count. -/
structure ByteAnswer where
  dest : Bytes
  count : Nat
  deriving DecidableEq

namespace ByteOp

/-- The operation on a ring. -/
def onRing (r : Ring) : ByteOp → Ring × ByteAnswer
  | write data => ((r.write data).1, ⟨[], (r.write data).2⟩)
  | read dest => ((r.readInto dest).1, ⟨(r.readInto dest).2.1, (r.readInto dest).2.2⟩)
  | skip count => ((r.skip count).1, ⟨[], (r.skip count).2⟩)
  | clear => (r.clear, ⟨[], 0⟩)

/-- The operation on a ring with every step checked. -/
def checked? (r : Ring) : ByteOp → Option (Ring × ByteAnswer)
  | write data => (r.write? data).map fun (r', n) => (r', ⟨[], n⟩)
  | read dest => (r.readInto? dest).map fun (r', dest, n) => (r', ⟨dest, n⟩)
  | skip count => (r.skip? count).map fun (r', n) => (r', ⟨[], n⟩)
  | clear => some (r.clear, ⟨[], 0⟩)

/-- The operation on a queue. -/
def onQueue (q : ByteQueue) : ByteOp → ByteQueue × ByteAnswer
  | write data => ((q.write data).1, ⟨[], (q.write data).2⟩)
  | read dest => ((q.readInto dest).1, ⟨(q.readInto dest).2.1, (q.readInto dest).2.2⟩)
  | skip count => ((q.skip count).1, ⟨[], (q.skip count).2⟩)
  | clear => (q.clear, ⟨[], 0⟩)

end ByteOp

/-- The ring after a sequence of operations. -/
def Ring.after (r : Ring) (ops : List ByteOp) : Ring := ops.foldl (fun r op => (op.onRing r).1) r

/-- The queue after a sequence of operations. -/
def ByteQueue.after (q : ByteQueue) (ops : List ByteOp) : ByteQueue :=
  ops.foldl (fun q op => (op.onQueue q).1) q

theorem ByteQueue.capacity_after (q : ByteQueue) (ops : List ByteOp) :
    (q.after ops).capacity = q.capacity := by
  induction ops generalizing q with
  | nil => rfl
  | cons op ops ih =>
    refine (ih _).trans ?_
    cases op <;> rfl

namespace Ring

variable {r : Ring} {q : ByteQueue}

/-! ## What a ring stands for -/

/-- The ring stands for the queue: its layout is in order, it holds the bytes of the queue, and it
answers every question about them as the queue does. -/
structure StandsFor (r : Ring) (q : ByteQueue) : Prop where
  layout : r.Valid
  bytes : r.contents = q.bytes
  capacity : r.capacity = q.capacity
  len : r.len = q.bytes.length
  room : r.remaining = q.room
  empty : r.isEmpty = q.bytes.isEmpty
  full : r.isFull = q.isFull

/-- The bytes and the capacity say everything about a ring whose layout is in order. -/
theorem standsFor_of (layout : r.Valid) (bytes : r.contents = q.bytes)
    (capacity : r.capacity = q.capacity) : r.StandsFor q := by
  have len : r.len = q.bytes.length := by rw [← bytes, length_contents layout]
  refine ⟨layout, bytes, capacity, len, ?_, ?_, ?_⟩
  · rw [remaining, ByteQueue.room, capacity, len]
  · rw [isEmpty, len]
    cases q.bytes <;> rfl
  · rw [isFull, ByteQueue.isFull, capacity, len]

theorem standsFor_create (n : Nat) : (create n).StandsFor (.empty (max n 1)) := by
  refine standsFor_of (valid_create n) ?_ (capacity_create n)
  exact List.eq_nil_of_length_eq_zero (length_contents (valid_create n))

theorem StandsFor.write (h : r.StandsFor q) (data : Bytes) :
    (r.write data).1.StandsFor (q.write data).1 ∧ (r.write data).2 = (q.write data).2 := by
  constructor
  · refine standsFor_of (write_valid h.layout data) ?_ ((capacity_write data r).trans h.capacity)
    rw [contents_write h.layout, h.bytes, h.room]
    rfl
  · rw [count_write, h.room, List.length_take, Nat.min_comm]
    rfl

theorem StandsFor.readInto (h : r.StandsFor q) (dest : Bytes) :
    (r.readInto dest).1.StandsFor (q.readInto dest).1 ∧
      (r.readInto dest).2 = (q.readInto dest).2 := by
  have count : (r.read dest.length).2.length = min dest.length q.bytes.length := by
    rw [bytes_read h.layout, List.length_take, h.bytes]
  constructor
  · refine standsFor_of (read_valid h.layout _) ?_ ((capacity_read _ r).trans h.capacity)
    show (r.read dest.length).1.contents = _
    rw [contents_read h.layout, h.bytes]
    exact List.drop_eq_drop_min
  · show ((r.read dest.length).2 ++ dest.drop (r.read dest.length).2.length,
      (r.read dest.length).2.length) = _
    rw [count, bytes_read h.layout, h.bytes, List.take_eq_take_min]
    rfl

theorem StandsFor.skip (h : r.StandsFor q) (count : Nat) :
    (r.skip count).1.StandsFor (q.skip count).1 ∧ (r.skip count).2 = (q.skip count).2 := by
  -- A skip is a read whose bytes nobody looks at.
  rw [skip_eq_read h.layout]
  constructor
  · refine standsFor_of (read_valid h.layout _) ?_ ((capacity_read _ r).trans h.capacity)
    rw [contents_read h.layout, h.bytes]
    exact List.drop_eq_drop_min
  · show (r.read count).2.length = min count q.bytes.length
    rw [bytes_read h.layout, List.length_take, h.bytes]

theorem StandsFor.clear (h : r.StandsFor q) : r.clear.StandsFor q.clear := by
  refine standsFor_of (clear_valid h.layout) ?_ h.capacity
  exact List.eq_nil_of_length_eq_zero (length_contents (clear_valid h.layout))

/-- One operation does the same to the ring and to the queue, and answers the same. -/
theorem StandsFor.step (h : r.StandsFor q) (op : ByteOp) :
    (op.onRing r).1.StandsFor (op.onQueue q).1 ∧ (op.onRing r).2 = (op.onQueue q).2 := by
  cases op with
  | write data =>
    obtain ⟨after, count⟩ := h.write data
    exact ⟨after, congrArg (ByteAnswer.mk []) count⟩
  | read dest =>
    obtain ⟨after, answer⟩ := h.readInto dest
    exact ⟨after, congrArg (fun a => ByteAnswer.mk a.1 a.2) answer⟩
  | skip count =>
    obtain ⟨after, number⟩ := h.skip count
    exact ⟨after, congrArg (ByteAnswer.mk []) number⟩
  | clear => exact ⟨h.clear, rfl⟩

theorem StandsFor.after (h : r.StandsFor q) (ops : List ByteOp) :
    (r.after ops).StandsFor (q.after ops) := by
  induction ops generalizing r q with
  | nil => exact h
  | cons op ops ih => exact ih (h.step op).1

/-- An operation on a ring that could be allocated passes every check. -/
theorem checked?_eq (h : r.Valid) (allocated : r.capacity ≤ Word.mostAllocated) (op : ByteOp) :
    op.checked? r = some (op.onRing r) := by
  cases op with
  | write data => simp only [ByteOp.checked?, write?_eq h allocated, Option.map_some]; rfl
  | read dest => simp only [ByteOp.checked?, readInto?_eq h allocated, Option.map_some]; rfl
  | skip count => simp only [ByteOp.checked?, skip?_eq h allocated, Option.map_some]; rfl
  | clear => rfl

/-- A ring is a bounded queue of bytes. Whatever operations were carried out on a fresh ring, it
stands for the queue on which the same operations were carried out, and the next operation, on any
data, any destination and any count, answers what it answers on the queue. If the storage could be
allocated, every operation passes all checks: no sum and no difference leaves the machine words, and
no slice reaches past its end. -/
theorem refines_bounded_queue (capacity : Nat) (ops : List ByteOp) :
    let r := (create capacity).after ops
    let q := (ByteQueue.empty (max capacity 1)).after ops
    r.StandsFor q ∧
      (∀ op : ByteOp, (op.onRing r).2 = (op.onQueue q).2) ∧
      (max capacity 1 ≤ Word.mostAllocated →
        ∀ op : ByteOp, op.checked? r = some (op.onRing r)) := by
  intro r q
  have stands : r.StandsFor q := (standsFor_create capacity).after ops
  refine ⟨stands, fun op => (stands.step op).2, ?_⟩
  intro allocated op
  have same : r.capacity = max capacity 1 := by
    rw [stands.capacity]
    exact ByteQueue.capacity_after _ ops
  exact checked?_eq stands.layout (same ▸ allocated) op

/-- Three bytes go into a ring of four, two are skipped, and three of four more fit: they go round
the end of the storage. -/
def goingRound : List ByteOp := [.write [1, 2, 3], .skip 2, .write [4, 5, 6, 7]]

/-- After `goingRound` the ring is full, with its oldest byte in the middle, and a read into six
bytes that passes every check leaves the last two of them alone. -/
theorem full_after_goingRound :
    ∃ r : Ring, r = (create 4).after goingRound ∧ r.storage = #[5, 6, 3, 4] ∧ r.head = 2 ∧
      r.StandsFor ⟨4, [3, 4, 5, 6]⟩ ∧ max 4 1 ≤ Word.mostAllocated ∧
      (ByteOp.read [0, 0, 0, 0, 8, 9]).checked? r =
        some (⟨#[5, 6, 3, 4], 2, 2, 0⟩, ⟨[3, 4, 5, 6, 8, 9], 4⟩) := by
  obtain ⟨stands, answers, checked⟩ := refines_bounded_queue 4 goingRound
  have allocated : max 4 1 ≤ Word.mostAllocated := by decide
  refine ⟨_, rfl, by decide, by decide, stands, allocated, ?_⟩
  rw [checked allocated]
  decide

end Ring

end Loopback
