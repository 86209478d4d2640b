/-!
# Ring buffer of bytes

A fixed storage of at least one byte that carries a byte queue: `len` bytes stand from `head` on,
going round at the end of the storage, and the next byte goes to `tail`. Writing takes as many
bytes as fit, reading and skipping as many as are there. Storage outside the queue keeps stale
bytes, which the diagnostic text shows.

`Ring.contents` is the queue that a ring stands for; `Ring.Valid` is what every operation keeps.
-/

namespace Loopback

/-- A run of bytes. -/
abbrev Bytes := List UInt8

/-- A stretch of storage: `count` slots from `start` on. -/
structure Span where
  start : Nat
  count : Nat
  deriving DecidableEq, Repr

/-- A bounded byte queue laid out in a circle. -/
structure Ring where
  /-- The raw storage. -/
  storage : Array UInt8
  /-- Where the oldest byte stands. -/
  head : Nat
  /-- Where the next byte goes. -/
  tail : Nat
  /-- How many bytes are queued. -/
  len : Nat
  deriving DecidableEq, Repr

namespace Ring

/-- An empty ring of at least one byte. -/
def create (capacity : Nat) : Ring := ⟨Array.replicate (max capacity 1) 0, 0, 0, 0⟩

/-- Most bytes that the ring can hold. -/
def capacity (r : Ring) : Nat := r.storage.size

/-- Bytes that still fit. -/
def remaining (r : Ring) : Nat := r.capacity - r.len

/-- Nothing is queued. -/
def isEmpty (r : Ring) : Bool := r.len == 0

/-- Nothing more fits. -/
def isFull (r : Ring) : Bool := r.len == r.capacity

/-- The two stretches that `n` slots from `start` on occupy: up to the end of the storage, then
the rest from its beginning. -/
def spans (r : Ring) (start n : Nat) : Span × Span :=
  let first := min n (r.capacity - start)
  (⟨start, first⟩, ⟨0, n - first⟩)

/-- Writes `data` into the storage from `start` on. -/
def paste (storage : Array UInt8) (start : Nat) : Bytes → Array UInt8
  | [] => storage
  | x :: xs => paste (storage.setIfInBounds start x) (start + 1) xs

/-- The bytes of one stretch of storage. -/
def cut (storage : Array UInt8) (s : Span) : Bytes :=
  (storage.extract s.start (s.start + s.count)).toList

/-- Appends as much of `data` as fits; answers how many bytes that were. -/
def write (data : Bytes) (r : Ring) : Ring × Nat :=
  let taken := data.take r.remaining
  let n := taken.length
  if n = 0 then (r, 0)
  else
    let (first, second) := r.spans r.tail n
    let storage := paste r.storage first.start (taken.take first.count)
    let storage := paste storage second.start ((taken.drop first.count).take second.count)
    ({ storage, head := r.head, tail := (r.tail + n) % r.capacity, len := r.len + n }, n)

/-- Removes up to `n` bytes from the front and answers them. -/
def read (n : Nat) (r : Ring) : Ring × Bytes :=
  let n := min n r.len
  if n = 0 then (r, [])
  else
    let (first, second) := r.spans r.head n
    ({ r with head := (r.head + n) % r.capacity, len := r.len - n },
      cut r.storage first ++ cut r.storage second)

/-- Reads into the front of a destination; answers the destination and the count. -/
def readInto (dest : Bytes) (r : Ring) : Ring × Bytes × Nat :=
  let (r, data) := r.read dest.length
  (r, data ++ dest.drop data.length, data.length)

/-- Removes up to `count` bytes from the front and answers how many that were. -/
def skip (count : Nat) (r : Ring) : Ring × Nat :=
  let n := min count r.len
  ({ r with head := (r.head + n) % r.capacity, len := r.len - n }, n)

/-- Discards everything that is queued. -/
def clear (r : Ring) : Ring := { r with head := 0, tail := 0, len := 0 }

/-- The queue that the ring stands for, oldest byte first. -/
def contents (r : Ring) : Bytes :=
  let (first, second) := r.spans r.head r.len
  cut r.storage first ++ cut r.storage second

/-- The layout that every operation keeps. -/
structure Valid (r : Ring) : Prop where
  capacity_pos : 0 < r.capacity
  head_lt : r.head < r.capacity
  tail_eq : r.tail = (r.head + r.len) % r.capacity
  len_le : r.len ≤ r.capacity

/-- Diagnostic text: the raw storage with stale bytes, and the three counters. -/
def describe (r : Ring) : String :=
  let bytes := ", ".intercalate (r.storage.toList.map toString)
  s!"RingBuffer \x7b buffer: [{bytes}], head: {r.head}, tail: {r.tail}, len: {r.len} \x7d"

end Ring

end Loopback
