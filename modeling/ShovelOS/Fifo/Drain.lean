import ShovelOS.Fifo.Buffer

namespace ShovelOS
namespace Fifo

/-!
# The loops of `_read` and `_write` around the byte queue

The character devices fill the caller's memory from a queue, and fill a queue
from the caller's memory, in the same two loops.  A call that is under way is
what it has done so far and what is left.
-/

/-- A call of `_read` under way: the flags that it has read, the number of
bytes it was asked for, the bytes that it has stored, and how many are left. -/
structure Reading where
  flags : UInt32
  requested : Nat
  got : List UInt8
  count : Nat

/-- Take note of bytes that have been stored. -/
def Reading.take (call : Reading) (bytes : List UInt8) (left : Nat) : Reading :=
  { call with got := call.got ++ bytes, count := left }

/-- The inner loop of `_read`. -/
def getBytes (memory : Memory) (buffer : FifoBuffer) : Nat → FifoBuffer × List UInt8 × Nat
  | 0 => (buffer, [], 0)
  | count + 1 =>
      let (ret, buffer', b) := fifoBufferGetb buffer memory 0
      if ret = fifoBufferGetSuccess then
        let (buffer', bytes, left) := getBytes memory buffer' count
        (buffer', b :: bytes, left)
      else (buffer', [], count + 1)

/-- The loop takes the oldest bytes, and stops early only when the queue is
empty. -/
theorem getBytes_spec (memory : Memory) {buffer : FifoBuffer} (wellFormed : WellFormed buffer)
    (count : Nat) :
    ∃ buffer' bytes left, getBytes memory buffer count = (buffer', bytes, left) ∧
      WellFormed buffer' ∧
      buffer'.sz = buffer.sz ∧ held buffer memory = bytes ++ held buffer' memory ∧
      bytes.length + left = count ∧ (0 < left → held buffer' memory = []) := by
  induction count generalizing buffer with
  | zero =>
      exact ⟨buffer, [], 0, rfl, wellFormed, rfl, rfl, rfl,
        fun positive => absurd positive (Nat.lt_irrefl 0)⟩
  | succ count inductionHypothesis =>
      rw [getBytes]
      rcases fifoBufferGetb_spec wellFormed memory 0 with
        ⟨first, rest, buffer₁, queue, result, wellFormed₁, size, _, remains⟩ | ⟨empty, result⟩
      · rcases inductionHypothesis wellFormed₁ with
          ⟨buffer', bytes, left, gets, wellFormed', size', split, counted, drained⟩
        rw [result]
        dsimp only
        rw [if_pos rfl, gets]
        refine ⟨buffer', first :: bytes, left, rfl, wellFormed', size'.trans size, ?_, ?_, drained⟩
        · rw [queue, ← remains, split, List.cons_append]
        · rw [List.length_cons, Nat.succ_add, counted]
      · rw [result]
        exact ⟨buffer, [], count + 1, rfl, wellFormed, rfl, rfl, Nat.zero_add _, fun _ => empty⟩

/-! ## Who took what -/

section Threads

variable {ι : Type} [DecidableEq ι]

/-- The bytes that a thread took, of those that the threads took. -/
def takenBy (thread : ι) (log : List (ι × UInt8)) : List UInt8 :=
  (log.filter fun entry => entry.1 = thread).map Prod.snd

@[simp] theorem takenBy_append (thread : ι) (log more : List (ι × UInt8)) :
    takenBy thread (log ++ more) = takenBy thread log ++ takenBy thread more := by
  simp [takenBy]

@[simp] theorem takenBy_self (thread : ι) (bytes : List UInt8) :
    takenBy thread (bytes.map fun b => (thread, b)) = bytes := by
  simp [takenBy, List.filter_map, Function.comp_def]

theorem takenBy_of_ne {thread other : ι} (different : other ≠ thread) (bytes : List UInt8) :
    takenBy thread (bytes.map fun b => (other, b)) = [] := by
  simp [takenBy, List.filter_map, Function.comp_def, different]

/-- A call has stored the bytes that its thread took last, and no more than it
was asked for. -/
structure Reading.Follows (log : List (ι × UInt8)) (thread : ι) (call : Reading) : Prop where
  counted : call.got.length + call.count = call.requested
  latest : call.got <:+ takenBy thread log

theorem Reading.Follows.of_ne {log : List (ι × UInt8)} {thread other : ι} {call : Reading}
    (follows : call.Follows log thread) (different : other ≠ thread) (bytes : List UInt8) :
    call.Follows (log ++ bytes.map fun b => (other, b)) thread := by
  refine ⟨follows.counted, ?_⟩
  rw [takenBy_append, takenBy_of_ne different, List.append_nil]
  exact follows.latest

theorem Reading.Follows.take {log : List (ι × UInt8)} {thread : ι} {call : Reading}
    (follows : call.Follows log thread) {bytes : List UInt8} {left : Nat}
    (counted : bytes.length + left = call.count) :
    (call.take bytes left).Follows (log ++ bytes.map fun b => (thread, b)) thread := by
  refine ⟨?_, ?_⟩
  · have total := follows.counted
    rw [← counted, ← Nat.add_assoc] at total
    rwa [Reading.take, List.length_append]
  · rw [takenBy_append, takenBy_self]
    rcases follows.latest with ⟨before, isSuffix⟩
    exact ⟨before, by simp only [Reading.take, ← isSuffix, List.append_assoc]⟩

theorem Reading.Follows.fresh (log : List (ι × UInt8)) (thread : ι) (flags : UInt32) (count : Nat) :
    Reading.Follows log thread ⟨flags, count, [], count⟩ :=
  ⟨Nat.zero_add _, List.nil_suffix⟩

end Threads

end Fifo
end ShovelOS
