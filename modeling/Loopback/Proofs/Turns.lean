import Loopback.Pipe
import Loopback.Proofs.RingContents

/-!
# The outcomes of an operation on a pipe

`Pipe.Pour` and `Pipe.Draw` list what a write and a read can come to, each outcome with the
conditions under which it comes about and the pipe that it leaves. A skip is a read that answers
how many bytes it threw away, so `Pipe.Draw` speaks of both.
-/

namespace Loopback

namespace Pipe

/-- The pipes differ at most in who waits on them. -/
structure Same (p p' : Pipe) : Prop where
  ring : p'.ring = p.ring
  writerClosed : p'.writerClosed = p.writerClosed
  readerClosed : p'.readerClosed = p.readerClosed

theorem Same.refl (p : Pipe) : p.Same p := ⟨rfl, rfl, rfl⟩

/-- What a write of `data` comes to, and the pipe it leaves. -/
inductive Pour (data : Bytes) (p : Pipe) : Pipe → Turn (Except Failure Nat) → Prop where
  | nothing (empty : data = []) : Pour data p p (.returns (.ok 0))
  | refused {p' : Pipe} (same : p.Same p') (broken : p.isBroken = true) :
      Pour data p p' (.returns (.error .pipeClosed))
  | waits {p' : Pipe} (same : p.Same p') (full : p.ring.remaining = 0)
      (whole : p.isBroken = false) : Pour data p p' .sleeps
  | takes {p' : Pipe} {n : Nat} (writer : p.writerClosed = false) (reader : p.readerClosed = false)
      (valid : p'.ring.Valid) (more : p'.ring.contents = p.ring.contents ++ data.take n)
      (writer' : p'.writerClosed = false) (reader' : p'.readerClosed = false)
      (some : 0 < n) (within : n ≤ data.length) : Pour data p p' (.returns (.ok n))

theorem pour_write {p : Pipe} (valid : p.ring.Valid) (who : Nat) (data : Bytes) :
    Pour data p (p.write who data).1 (p.write who data).2 := by
  unfold write
  split
  · next empty => exact .nothing (List.isEmpty_iff.1 empty)
  · next some =>
    simp only []
    split
    · next broken => exact .refused ⟨rfl, rfl, rfl⟩ broken
    · next whole =>
      split
      · next full => exact .waits ⟨rfl, rfl, rfl⟩ full (Bool.eq_false_iff.2 whole)
      · next room =>
        simp only [isBroken, Bool.or_eq_true, not_or, Bool.not_eq_true] at whole
        have length : 0 < data.length := List.length_pos_iff.2 fun h => some (List.isEmpty_iff.2 h)
        refine .takes whole.1 whole.2 (Ring.write_valid valid data) ?_ whole.1 whole.2 ?_ ?_
        · show (p.ring.write data).1.contents = p.ring.contents ++ data.take (p.ring.write data).2
          rw [Ring.contents_write valid, Ring.count_write, List.length_take]
          rw [← List.take_eq_take_min]
        · rw [Ring.count_write, List.length_take]
          exact Nat.lt_min.2 ⟨Nat.pos_of_ne_zero room, length⟩
        · rw [Ring.count_write]
          exact List.length_take_le' ..

/-- What taking `asked` bytes off the front comes to, and the pipe it leaves. The answer to taking
`data` is `reply data`. -/
inductive Draw {α : Type} (asked : Nat) (reply : Bytes → α) (p : Pipe) :
    Pipe → Turn (Except Failure α) → Prop where
  | nothing (none : asked = 0) : Draw asked reply p p (.returns (.ok (reply [])))
  | refused {p' : Pipe} (same : p.Same p') (reader : p.readerClosed = true) :
      Draw asked reply p p' (.returns (.error .pipeClosed))
  | waits {p' : Pipe} (same : p.Same p') (empty : p.ring.contents = [])
      (whole : p.isBroken = false) : Draw asked reply p p' .sleeps
  | front {p' : Pipe} (reader : p.readerClosed = false)
      (some : p.ring.contents.take asked ≠ []) (valid : p'.ring.Valid)
      (rest : p'.ring.contents = p.ring.contents.drop asked)
      (writer' : p'.writerClosed = p.writerClosed) (reader' : p'.readerClosed = false) :
      Draw asked reply p p' (.returns (.ok (reply (p.ring.contents.take asked))))
  | final {p' : Pipe} (reader : p.readerClosed = false) (empty : p.ring.contents = [])
      (shut : p.writerClosed = true) (same : p.Same p') :
      Draw asked reply p p' (.returns (.ok (reply [])))

theorem contents_eq_nil_iff {r : Ring} (h : r.Valid) : r.contents = [] ↔ r.isEmpty = true := by
  rw [← List.length_eq_zero_iff, Ring.length_contents h, Ring.isEmpty, beq_iff_eq]

/-- While something is queued, taking at least one byte takes something. -/
theorem take_contents_ne_nil {r : Ring} (h : r.Valid) {n : Nat} (hn : n ≠ 0)
    (some : r.isEmpty = false) : r.contents.take n ≠ [] := by
  intro none
  rcases List.take_eq_nil_iff.1 none with zero | empty
  · exact hn zero
  · rw [(contents_eq_nil_iff h).1 empty] at some
    exact Bool.noConfusion some

theorem draw_read {p : Pipe} (valid : p.ring.Valid) (who limit : Nat) :
    Draw limit id p (p.read who limit).1 (p.read who limit).2 := by
  unfold read
  split
  · next none => exact .nothing none
  · next asked =>
    simp only []
    split
    · next shut => exact .refused ⟨rfl, rfl, rfl⟩ shut
    · next reader =>
      rw [Bool.not_eq_true] at reader
      split
      · next some =>
        have some : p.ring.isEmpty = false := by simpa using some
        rw [Ring.bytes_read valid]
        exact .front reader (take_contents_ne_nil valid asked some) (Ring.read_valid valid limit)
          (Ring.contents_read valid limit) rfl reader
      · next empty =>
        have empty : p.ring.contents = [] := (contents_eq_nil_iff valid).2 (by simpa using empty)
        -- Nothing is queued: the stream has ended, or somebody has to write first.
        split
        · next shut => exact .final reader empty shut ⟨rfl, rfl, rfl⟩
        · next opened =>
          exact .waits ⟨rfl, rfl, rfl⟩ empty (by simpa [isBroken, reader] using opened)

theorem skip_eq_read {p : Pipe} (valid : p.ring.Valid) (who count : Nat) :
    p.skip who count = ((p.read who count).1,
      match (p.read who count).2 with
      | .sleeps => .sleeps
      | .returns r => .returns (r.map List.length)) := by
  unfold skip read
  split
  · rfl
  · simp only []
    split
    · rfl
    · split
      · rw [Ring.skip_eq_read valid]
        rfl
      · split <;> rfl

theorem draw_skip {p : Pipe} (valid : p.ring.Valid) (who count : Nat) :
    Draw count List.length p (p.skip who count).1 (p.skip who count).2 := by
  have taken := draw_read valid who count
  rw [skip_eq_read valid]
  generalize p.read who count = turn at taken ⊢
  obtain ⟨p', answer⟩ := turn
  cases taken with
  | nothing none => exact .nothing none
  | refused same shut => exact .refused same shut
  | waits same empty whole => exact .waits same empty whole
  | front reader some valid rest writer' reader' =>
    exact .front reader some valid rest writer' reader'
  | final reader empty shut same => exact .final reader empty shut same

end Pipe

end Loopback
