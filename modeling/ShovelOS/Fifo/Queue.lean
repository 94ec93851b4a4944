import ShovelOS.Fifo.Buffer
import ShovelOS.Library.Refinement

namespace ShovelOS
namespace Fifo

open RingBuffer Refinement

/-!
# The byte queue refines a bounded queue

A run is any sequence of puts and gets on a buffer that starts empty.  The
state keeps, next to the buffer, the bytes whose put succeeded and the bytes
that were read.  Both are recorded from what the caller sees.  The buffer
answers every call as a queue of bounded length does, so what is known of
that queue holds of the buffer.
-/

/-- The buffer, its memory, and the bytes that its callers have put and got. -/
structure FifoRun where
  buffer : FifoBuffer
  memory : Memory
  put : List UInt8
  got : List UInt8

namespace FifoRun

def step (s : FifoRun) : Call UInt8 → Answer UInt8 × FifoRun
  | .put b =>
      let (ret, buffer, memory) := fifoBufferPutb s.buffer s.memory b
      if ret = fifoBufferPutSuccess then (.done, ⟨buffer, memory, s.put ++ [b], s.got⟩)
      else (.refused, ⟨buffer, memory, s.put, s.got⟩)
  | .take =>
      let (ret, buffer, b) := fifoBufferGetb s.buffer s.memory 0
      if ret = fifoBufferGetSuccess then (.value b, ⟨buffer, s.memory, s.put, s.got ++ [b]⟩)
      else (.refused, ⟨buffer, s.memory, s.put, s.got⟩)

def empty (bp : Nat) (sz : UInt16) (memory : Memory) : FifoRun :=
  ⟨⟨bp, 0, 0, sz, 0, sz⟩, memory, [], []⟩

end FifoRun

/-- The buffer holds the queue, and its callers have seen what the log says. -/
structure Represents (sz : UInt16) (s : FifoRun) (log : Log UInt8) : Prop where
  wellFormed : WellFormed s.buffer
  size : s.buffer.sz = sz
  queue : held s.buffer s.memory = log.queue
  put : s.put = log.put
  got : s.got = log.taken

theorem wellFormed_empty (bp : Nat) (sz : UInt16) : WellFormed ⟨bp, 0, 0, sz, 0, sz⟩ where
  sizes := Nat.zero_add _
  ri_lt := fun positive => positive
  wi_eq := (Nat.zero_mod _).symm

theorem represents_empty (bp : Nat) (sz : UInt16) (memory : Memory) :
    Represents sz (FifoRun.empty bp sz memory) Log.empty :=
  ⟨wellFormed_empty bp sz, rfl, rfl, rfl, rfl⟩

theorem Represents.step {sz : UInt16} {s : FifoRun} {log : Log UInt8}
    (represents : Represents sz s log) (call : Call UInt8) :
    (s.step call).1 = (log.step sz.toNat call).1 ∧
      Represents sz (s.step call).2 (log.step sz.toNat call).2 := by
  cases call with
  | put b =>
      rw [FifoRun.step, Log.step, ← represents.queue, ← represents.size]
      rcases fifoBufferPutb_spec represents.wellFormed s.memory b with
        ⟨room, buffer', memory', result, wellFormed, size, _base, appended⟩ | ⟨full, result⟩
      · rw [result, if_pos room]
        refine ⟨rfl, wellFormed, size, appended.trans ?_, ?_, represents.got⟩
        · rw [represents.queue]
        · change s.put ++ [b] = log.put ++ [b]
          rw [represents.put]
      · rw [result, if_neg full]
        exact ⟨rfl, represents.wellFormed, rfl, represents.queue, represents.put, represents.got⟩
  | take =>
      rw [FifoRun.step, Log.step, ← represents.queue]
      rcases fifoBufferGetb_spec represents.wellFormed s.memory 0 with
        ⟨first, rest, buffer', queue, result, wellFormed, size, _base, remains⟩ | ⟨empty, result⟩
      · rw [result, queue]
        refine ⟨rfl, wellFormed, size.trans represents.size, remains, represents.put, ?_⟩
        change s.got ++ [first] = log.taken ++ [first]
        rw [represents.got]
      · rw [result, empty]
        exact ⟨rfl, represents.wellFormed, represents.size, represents.queue, represents.put,
          represents.got⟩

theorem refines (sz : UInt16) : Refines (Represents sz) FifoRun.step (Log.step sz.toNat) where
  answer := fun _s _log call represents => (represents.step call).1
  next := fun _s _log call represents => (represents.step call).2

/-- After any calls, the log of the queue stands for what the callers of the
buffer have seen. -/
theorem represented_after (bp : Nat) (sz : UInt16) (memory : Memory) (calls : List (Call UInt8)) :
    ∃ log, Represents sz (after FifoRun.step (FifoRun.empty bp sz memory) calls) log ∧
      log.Balanced := by
  have kept : ∀ (log : Log UInt8) call, log.Balanced → (log.step sz.toNat call).2.Balanced :=
    fun _log call balanced => balanced.step call
  have start : (Log.empty : Log UInt8).Balanced := rfl
  exact ⟨after (Log.step sz.toNat) Log.empty calls,
    (refines sz).related_after (represents_empty bp sz memory) calls,
    after_induction kept start calls⟩

/-- After any sequence of calls, and for the next one: the answers are those
of a bounded queue, a put succeeds if and only if fewer bytes are held than
the size, a get if and only if one is held, what was read is a prefix of
what was put, and a call that fails changes nothing. -/
theorem fifo_buffer_refines_queue (bp : Nat) (sz : UInt16) (positive : 0 < sz) (memory : Memory)
    (calls : List (Call UInt8)) (s : FifoRun)
    (reached : s = after FifoRun.step (FifoRun.empty bp sz memory) calls) :
    answers FifoRun.step (FifoRun.empty bp sz memory) calls =
        answers (Log.step sz.toNat) Log.empty calls ∧
      s.got <+: s.put ∧
      (∀ b, (fifoBufferPutb s.buffer s.memory b).1 = fifoBufferPutSuccess ↔
        s.put.length - s.got.length < sz.toNat) ∧
      (∀ b, (fifoBufferGetb s.buffer s.memory b).1 = fifoBufferGetSuccess ↔
        0 < s.put.length - s.got.length) ∧
      (∀ b, (fifoBufferPutb s.buffer s.memory b).1 ≠ fifoBufferPutSuccess →
        fifoBufferPutb s.buffer s.memory b = (fifoBufferPutFailure, s.buffer, s.memory)) ∧
      (∀ b, (fifoBufferGetb s.buffer s.memory b).1 ≠ fifoBufferGetSuccess →
        fifoBufferGetb s.buffer s.memory b = (fifoBufferGetFailure, s.buffer, b)) ∧
      s.buffer.rsz.toNat + s.buffer.wsz.toNat = sz.toNat ∧
      s.buffer.ri < sz ∧ s.buffer.wi < sz := by
  rcases represented_after bp sz memory calls with ⟨log, represents, balanced⟩
  rw [← reached] at represents
  have holds : (held s.buffer s.memory).length = s.put.length - s.got.length := by
    rw [represents.put, represents.got, balanced.length_queue, represents.queue]
  have size := represents.size
  have putFacts := fun b => fifoBufferPutb_spec represents.wellFormed s.memory b
  have getFacts := fun b => fifoBufferGetb_spec represents.wellFormed s.memory b
  rw [size, holds] at putFacts
  have inRing : 0 < s.buffer.sz.toNat := by
    rw [size]
    exact UInt16.lt_iff_toNat_lt.mp positive
  refine ⟨(refines sz).answers_eq (represents_empty bp sz memory) calls, ?_, ?_, ?_, ?_, ?_,
    ?_, ?_, ?_⟩
  · rw [represents.put, represents.got]
    exact balanced.taken_prefix
  · intro b
    rcases putFacts b with ⟨room, _buffer, _memory, result, _⟩ | ⟨full, result⟩
    · rw [result]
      exact iff_of_true rfl room
    · rw [result]
      exact iff_of_false (show ¬ fifoBufferPutFailure = fifoBufferPutSuccess by decide) full
  · intro b
    rw [← holds]
    rcases getFacts b with ⟨first, rest, _buffer, queue, result, _⟩ | ⟨empty, result⟩
    · rw [result, queue]
      exact iff_of_true rfl (Nat.succ_pos _)
    · rw [result, empty]
      exact iff_of_false (show ¬ fifoBufferGetFailure = fifoBufferGetSuccess by decide)
        (Nat.lt_irrefl 0)
  · intro b fails
    rcases putFacts b with ⟨_room, _buffer, _memory, result, _⟩ | ⟨_full, result⟩
    · rw [result] at fails
      exact absurd rfl fails
    · exact result
  · intro b fails
    rcases getFacts b with ⟨_first, _rest, _buffer, _queue, result, _⟩ | ⟨_empty, result⟩
    · rw [result] at fails
      exact absurd rfl fails
    · exact result
  · rw [← size]
    exact represents.wellFormed.sizes
  · rw [UInt16.lt_iff_toNat_lt, ← size]
    exact represents.wellFormed.ri_lt inRing
  · rw [UInt16.lt_iff_toNat_lt, ← size]
    exact represents.wellFormed.wi_lt inRing

/-- A ring of two bytes, after a put that wraps around. -/
theorem fifo_buffer_refines_queue_two :
    let calls : List (Call UInt8) := [.put 7, .put 8, .take, .put 9]
    let s := after FifoRun.step (FifoRun.empty 4096 2 (fun _address => 0)) calls
    answers FifoRun.step (FifoRun.empty 4096 2 (fun _address => 0)) calls =
        answers (Log.step (2 : UInt16).toNat) Log.empty calls ∧
      s.got <+: s.put ∧
      (∀ b, (fifoBufferPutb s.buffer s.memory b).1 = fifoBufferPutSuccess ↔
        s.put.length - s.got.length < (2 : UInt16).toNat) ∧
      (∀ b, (fifoBufferGetb s.buffer s.memory b).1 = fifoBufferGetSuccess ↔
        0 < s.put.length - s.got.length) ∧
      (∀ b, (fifoBufferPutb s.buffer s.memory b).1 ≠ fifoBufferPutSuccess →
        fifoBufferPutb s.buffer s.memory b = (fifoBufferPutFailure, s.buffer, s.memory)) ∧
      (∀ b, (fifoBufferGetb s.buffer s.memory b).1 ≠ fifoBufferGetSuccess →
        fifoBufferGetb s.buffer s.memory b = (fifoBufferGetFailure, s.buffer, b)) ∧
      s.buffer.rsz.toNat + s.buffer.wsz.toNat = (2 : UInt16).toNat ∧
      s.buffer.ri < 2 ∧ s.buffer.wi < 2 :=
  fifo_buffer_refines_queue 4096 2 (by decide) (fun _address => 0)
    [.put 7, .put 8, .take, .put 9] _ rfl

end Fifo
end ShovelOS
