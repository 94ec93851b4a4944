import ShovelOS.Fifo.Queue
import ShovelOS.Uart.Driver

namespace ShovelOS
namespace Uart

open Fifo

/-!
# No byte is lost, and no wake-up

What was written to `TXD` followed by what is still in the write buffer is
what was accepted.  And whenever the buffer is not empty, the TX-ready
interrupt is enabled or some thread is about to enable it: the handler
disables the interrupt only when it finds the buffer empty, and a critical
section that fills it leaves its thread in front of `INTENSET`.
-/

variable {ι : Type}

def Driver.pending (s : Driver ι) : List UInt8 := held s.writeBuffer s.memory

/-- Some thread is between its critical section and its `INTENSET`. -/
def Driver.Waking (s : Driver ι) : Prop := ∃ thread call, s.writers thread = .enabling call

/-- What every step keeps. -/
structure Sound (s : Driver ι) : Prop where
  wellFormed : WellFormed s.writeBuffer
  conserved : s.txd ++ s.pending = s.accepted
  awake : s.pending ≠ [] → s.intenTxReady = true ∨ s.Waking

/-- The inner loop of `_write` appends what it accepts. -/
theorem putBytes_spec {buffer : FifoBuffer} (wellFormed : WellFormed buffer) (memory : Memory)
    (bytes : List UInt8) :
    ∃ buffer' memory' accepted rest, putBytes buffer memory bytes =
      (buffer', memory', accepted, rest) ∧
      WellFormed buffer' ∧ held buffer' memory' = held buffer memory ++ accepted ∧
      bytes = accepted ++ rest := by
  induction bytes generalizing buffer memory with
  | nil => exact ⟨buffer, memory, [], [], rfl, wellFormed, (List.append_nil _).symm, rfl⟩
  | cons b bytes inductionHypothesis =>
      rw [putBytes]
      rcases fifoBufferPutb_spec wellFormed memory b with
        ⟨_room, buffer₁, memory₁, result, wellFormed₁, _, _, appended⟩ | ⟨_full, result⟩
      · rcases inductionHypothesis wellFormed₁ memory₁ with
          ⟨buffer', memory', accepted, rest, puts, wellFormed', more, split⟩
        rw [result]
        dsimp only
        rw [if_pos rfl, puts]
        refine ⟨buffer', memory', b :: accepted, rest, rfl, wellFormed', ?_, ?_⟩
        · rw [more, appended, List.append_assoc, List.singleton_append]
        · rw [split, List.cons_append]
      · rw [result]
        exact ⟨buffer, memory, [], b :: bytes, rfl, wellFormed, (List.append_nil _).symm, rfl⟩

/-- The handler moves the oldest byte to `TXD`, or finds no byte and disables
the interrupt. -/
theorem Sound.irq {s : Driver ι} (sound : Sound s) : Sound (_IRQ s) := by
  unfold _IRQ
  have received : Sound (if s.rxdrdy then { s with rxdrdy := false } else s) := by
    by_cases rxdrdy : s.rxdrdy = true
    · rw [if_pos rxdrdy]
      exact ⟨sound.wellFormed, sound.conserved, sound.awake⟩
    · rw [if_neg rxdrdy]
      exact sound
  generalize (if s.rxdrdy then { s with rxdrdy := false } else s) = s' at received
  dsimp only
  by_cases txdrdy : s'.txdrdy = true
  · rw [if_pos txdrdy]
    rcases fifoBufferGetb_spec received.wellFormed s'.memory 0 with
      ⟨first, rest, buffer', queue, result, wellFormed, _, _, remains⟩ | ⟨empty, result⟩
    · rw [result]
      have conserved := received.conserved
      rw [Driver.pending, queue] at conserved
      refine ⟨wellFormed, ?_, fun _pending => ?_⟩
      · change s'.txd ++ [first] ++ held buffer' s'.memory = s'.accepted
        rw [remains, List.append_assoc, List.singleton_append]
        exact conserved
      · apply received.awake
        rw [Driver.pending, queue]
        exact List.cons_ne_nil first rest
    · rw [result]
      exact ⟨received.wellFormed, received.conserved, fun pending => absurd empty pending⟩
  · rw [if_neg txdrdy]
    exact received

theorem sound_opened (bp : Nat) (sz : UInt16) (memory : Memory) (flags : UInt32)
    (rxdrdy txdrdy intenRxReady intenTxReady : Bool) :
    Sound (opened bp sz memory flags rxdrdy txdrdy intenRxReady intenTxReady : Driver ι) :=
  ⟨wellFormed_empty bp sz, rfl, fun pending => absurd rfl pending⟩

variable [DecidableEq ι]

/-- A thread that is not in front of `INTENSET` may move anywhere. -/
theorem Sound.setWriter {s : Driver ι} (sound : Sound s) {thread : ι}
    (notEnabling : ∀ call, s.writers thread ≠ .enabling call) (writer : Writer) :
    Sound (s.setWriter thread writer) := by
  refine ⟨sound.wellFormed, sound.conserved, fun pending => ?_⟩
  rcases sound.awake pending with enabled | ⟨other, call, waking⟩
  · exact Or.inl enabled
  · refine Or.inr ⟨other, call, ?_⟩
    have different : other ≠ thread := fun same => notEnabling call (same ▸ waking)
    exact (Function.update_of_ne different _ _).trans waking

theorem Sound.criticalSection {s : Driver ι} (sound : Sound s) (thread : ι) (call : Writing) :
    Sound (criticalSection s thread call) := by
  unfold Uart.criticalSection
  rcases putBytes_spec sound.wellFormed s.memory call.rest with
    ⟨buffer', memory', accepted, rest, puts, wellFormed, appended, _split⟩
  rw [puts]
  refine ⟨wellFormed, ?_, fun _pending => Or.inr ⟨thread, _, Function.update_self ..⟩⟩
  change s.txd ++ held buffer' memory' = s.accepted ++ accepted
  rw [appended, ← List.append_assoc]
  exact congrArg (· ++ accepted) sound.conserved

theorem Sound.step {s next : Driver ι} {event : Event ι} (sound : Sound s)
    (stepped : step s event = some next) : Sound next := by
  cases event with
  | write thread inInterrupt vbuffer =>
      rw [Uart.step] at stepped
      cases writer : s.writers thread with
      | returned count =>
          rw [writer] at stepped
          cases stepped
          exact sound.setWriter (fun call enabling => by rw [writer] at enabling; cases enabling) _
      | locking call | enabling call | deciding call =>
          rw [writer] at stepped
          cases stepped
  | criticalSection thread =>
      rw [Uart.step] at stepped
      cases writer : s.writers thread with
      | locking call =>
          rw [writer] at stepped
          cases stepped
          exact sound.criticalSection thread call
      | returned count | enabling call | deciding call =>
          rw [writer] at stepped
          cases stepped
  | intenset thread =>
      rw [Uart.step] at stepped
      cases writer : s.writers thread with
      | enabling call =>
          rw [writer] at stepped
          cases stepped
          exact ⟨sound.wellFormed, sound.conserved, fun _pending => Or.inl rfl⟩
      | returned count | locking call | deciding call =>
          rw [writer] at stepped
          cases stepped
  | decide thread =>
      rw [Uart.step] at stepped
      cases writer : s.writers thread with
      | deciding call =>
          rw [writer] at stepped
          cases stepped
          exact sound.setWriter (fun call enabling => by rw [writer] at enabling; cases enabling) _
      | returned count | locking call | enabling call =>
          rw [writer] at stepped
          cases stepped
  | irq =>
      cases stepped
      exact sound.irq
  | rxdrdy | txdrdy =>
      cases stepped
      exact ⟨sound.wellFormed, sound.conserved, sound.awake⟩

/-- In every state that any interleaving of threads, handler and hardware
reaches: what was written to `TXD` and what is in the buffer is what was
accepted, in order; and a buffer that is not empty has the interrupt enabled
or a thread about to enable it. -/
theorem transmit_conserves_and_wakes (bp : Nat) (sz : UInt16) (memory : Memory) (flags : UInt32)
    (rxdrdy txdrdy intenRxReady intenTxReady : Bool) (s : Driver ι)
    (reachable : Transition.Reachable step
      (opened bp sz memory flags rxdrdy txdrdy intenRxReady intenTxReady) s) :
    s.txd ++ held s.writeBuffer s.memory = s.accepted ∧
      ¬ (held s.writeBuffer s.memory ≠ [] ∧ s.intenTxReady = false ∧
        ∀ thread call, s.writers thread ≠ .enabling call) := by
  have sound : Sound s :=
    reachable.invariant (fun _s _event _next sound stepped => sound.step stepped)
    (sound_opened bp sz memory flags rxdrdy txdrdy intenRxReady intenTxReady)
  refine ⟨sound.conserved, ?_⟩
  rintro ⟨pending, disabled, noWriter⟩
  rcases sound.awake pending with enabled | ⟨thread, call, waking⟩
  · rw [disabled] at enabled
    cases enabled
  · exact noWriter thread call waking

/-- Two threads write; the handler runs before the first has enabled the
interrupt, and again once both have. -/
def twoWriters : List (Event Bool) :=
  [.write true false [65, 66], .criticalSection true, .write false false [67], .txdrdy, .irq,
    .criticalSection false, .intenset true, .txdrdy, .irq, .intenset false, .decide true]

/-- A driver with a write buffer of one page of the microbit. -/
def microbit : Driver Bool := opened 0x20001000 32 (fun _address => 0) 2 false false true false

theorem twoWriters_run : (Transition.run step microbit twoWriters).isSome = true := by
  decide +kernel

def twoWritten : Driver Bool := (Transition.run step microbit twoWriters).get twoWriters_run

theorem twoWritten_reachable : Transition.Reachable step microbit twoWritten :=
  ⟨twoWriters, (Option.some_get twoWriters_run).symm⟩

theorem transmit_conserves_and_wakes_twoWritten :
    twoWritten.txd ++ held twoWritten.writeBuffer twoWritten.memory = twoWritten.accepted ∧
      ¬ (held twoWritten.writeBuffer twoWritten.memory ≠ [] ∧ twoWritten.intenTxReady = false ∧
        ∀ thread call, twoWritten.writers thread ≠ .enabling call) :=
  transmit_conserves_and_wakes 0x20001000 32 (fun _address => 0) 2 false false true false twoWritten
    twoWritten_reachable

end Uart
end ShovelOS
