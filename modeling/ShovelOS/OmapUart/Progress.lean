import ShovelOS.Library.Observation
import ShovelOS.OmapUart.Guarantees

namespace ShovelOS
namespace OmapUart

open Fifo Transition

/-!
# What was accepted is sent

The threads need not do anything for it: the enabled interrupts and the turns
of the handler empty the write queue, and the hardware its FIFO.
-/

variable {ι : Type}

/-- What goes on without the threads: turns of the handler, bytes that the
hardware sends, and the interrupt for them where it is enabled. -/
def Unattended (s : Driver ι) : Event ι → Prop
  | .irq iir => s.thrIt = true ∧ iir &&& itTypeMask = itTypeThr
  | .turn | .shift => True
  | _ => False

/-- None of these is a call. -/
theorem Unattended.alone [DecidableEq ι] {s : Driver ι} {event : Event ι}
    (unattended : Unattended s event) :
    Alone s event := by
  cases event with
  | write | read => exact False.elim unattended
  | _ => trivial

def Driver.AllSent (s : Driver ι) : Prop := s.txFifo = [] ∧ s.outgoing = []

/-- A bound on the steps until a byte leaves the write queue, or the hardware
is done. -/
def stepsLeft (s : Driver ι) : Nat :=
  match s.handler with
  | .idle => s.txFifo.length + 1
  | .sending => if s.txFifo = [] then 0 else s.txFifo.length + 2
  | .receiving => s.rxFifo.length + s.txFifo.length + 2

/-- Each byte in the queue may cost an interrupt, a turn that sends it, one
that ends the loop, and a byte of the hardware. -/
def work (s : Driver ι) : Nat := 5 * s.outgoing.length + stepsLeft s

theorem work_idle {s : Driver ι} (idle : s.handler = .idle) :
    work s = 5 * s.outgoing.length + (s.txFifo.length + 1) := by
  rw [work, stepsLeft, idle]

theorem work_sending {s : Driver ι} (sending : s.handler = .sending) (busy : s.txFifo ≠ []) :
    work s = 5 * s.outgoing.length + (s.txFifo.length + 2) := by
  rw [work, stepsLeft, sending]
  dsimp only
  rw [if_neg busy]

theorem work_sending_empty {s : Driver ι} (sending : s.handler = .sending) (empty : s.txFifo = []) :
    work s = 5 * s.outgoing.length := by
  rw [work, stepsLeft, sending]
  dsimp only
  rw [if_pos empty, Nat.add_zero]

theorem work_receiving {s : Driver ι} (receiving : s.handler = .receiving) :
    work s = 5 * s.outgoing.length + (s.rxFifo.length + s.txFifo.length + 2) := by
  rw [work, stepsLeft, receiving]

variable [DecidableEq ι] {sz : UInt16} {s : Driver ι}

theorem sendTurn_work (sound : Sound sz s) (sending : s.handler = .sending)
    (notDone : ¬ s.AllSent) :
    (sendTurn s).accepted = s.accepted ∧ work (sendTurn s) < work s := by
  rw [sendTurn]
  split
  · next full =>
      have busy : s.txFifo ≠ [] := by
        intro empty
        rw [Driver.txFull, empty] at full
        exact absurd full (by decide)
      refine ⟨rfl, ?_⟩
      rw [work_sending sending busy, work_idle rfl]
      exact Nat.lt_succ_self _
  · rcases fifoBufferGetb_spec sound.writeWell s.writeMemory 0 with
      ⟨first, rest, buffer', queue, result, _, _, _, remains⟩ | ⟨empty, result⟩
    · rw [result]
      refine ⟨rfl, ?_⟩
      have before : s.outgoing = first :: rest := queue
      set moved : Driver ι := { s with writeBuffer := buffer', txFifo := s.txFifo ++ [first] }
      have after : moved.outgoing = rest := remains
      have busy : moved.txFifo ≠ [] :=
        List.append_ne_nil_of_right_ne_nil _ (List.cons_ne_nil first [])
      have longer : moved.txFifo.length = s.txFifo.length + 1 := List.length_append
      change work moved < work s
      rw [work_sending (s := moved) sending busy, after, longer]
      by_cases empty : s.txFifo = []
      · rw [work_sending_empty sending empty, before, empty, List.length_cons, List.length_nil]
        omega
      · rw [work_sending sending empty, before, List.length_cons]
        omega
    · rw [result]
      refine ⟨rfl, ?_⟩
      have busy : s.txFifo ≠ [] := fun done => notDone ⟨done, empty⟩
      change work { s with writeBuffer := s.writeBuffer, thrIt := false, handler := .idle } < work s
      rw [work_sending sending busy, work_idle rfl]
      exact Nat.lt_succ_self _

omit [DecidableEq ι] in
theorem receiveTurn_work (s : Driver ι) (receiving : s.handler = .receiving) :
    (receiveTurn s).accepted = s.accepted ∧ work (receiveTurn s) < work s := by
  rw [receiveTurn]
  split
  · refine ⟨rfl, ?_⟩
    rw [work_receiving receiving, work_idle rfl]
    change 5 * s.outgoing.length + (s.txFifo.length + 1) < _
    omega
  · next b rxFifo isFifo =>
      have shorter : s.rxFifo.length = rxFifo.length + 1 := by rw [isFifo, List.length_cons]
      rcases fifoBufferPutb s.readBuffer s.readMemory b with ⟨ret, buffer', memory'⟩
      dsimp only
      split
      · refine ⟨rfl, ?_⟩
        rw [work_receiving receiving, work_receiving (by exact receiving)]
        change 5 * s.outgoing.length + (rxFifo.length + s.txFifo.length + 2) < _
        omega
      · refine ⟨rfl, ?_⟩
        rw [work_receiving receiving, work_idle rfl]
        change 5 * s.outgoing.length + (s.txFifo.length + 1) < _
        omega

/-- While something is left to send, something goes on. -/
theorem unattended_progress (sound : Sound sz s) (notDone : ¬ s.AllSent) :
    ∃ event next, Unattended s event ∧ step s event = some next ∧ next.accepted = s.accepted ∧
      work next < work s := by
  cases handler : s.handler with
  | sending =>
      rcases sendTurn_work sound handler notDone with ⟨accepted, falls⟩
      exact ⟨.turn, sendTurn s, trivial, by rw [step, handler], accepted, falls⟩
  | receiving =>
      rcases receiveTurn_work s handler with ⟨accepted, falls⟩
      exact ⟨.turn, receiveTurn s, trivial, by rw [step, handler], accepted, falls⟩
  | idle =>
      cases isFifo : s.txFifo with
      | cons b txFifo =>
          refine ⟨.shift, { s with txFifo := txFifo, sent := s.sent ++ [b] },
            trivial, by rw [step, isFifo], rfl, ?_⟩
          rw [work_idle handler, work_idle (by exact handler), isFifo, List.length_cons]
          exact Nat.lt_succ_self _
      | nil =>
          have pending : s.outgoing ≠ [] := fun empty => notDone ⟨isFifo, empty⟩
          refine ⟨.irq itTypeThr, { s with handler := .sending },
            ⟨sound.enabled pending, by decide⟩, ?_, rfl, ?_⟩
          · rw [step, if_pos ⟨handler, fun isRhr => absurd isRhr (by decide)⟩]
            rfl
          · rw [work_idle handler, work_sending_empty rfl (by exact isFifo)]
            exact Nat.lt_add_of_pos_right (Nat.succ_pos _)

/-- From every state of a run in which calls of one direction on the
development console come one after the other, the hardware, the handler and
the interrupts that are enabled send all that has been accepted, in order,
with no step of a thread, and so whatever the threads do next. -/
theorem accepted_bytes_are_sent (readBp writeBp : Nat) (sz : UInt16)
    (readMemory writeMemory : Memory) (flags : UInt32) (events : List (Event ι)) (s : Driver ι)
    (alone : StepsMeet step Alone (opened readBp writeBp sz readMemory writeMemory flags) events)
    (reaches : run step (opened readBp writeBp sz readMemory writeMemory flags) events = some s) :
    ∃ events final, StepsMeet step Unattended s events ∧ run step s events = some final ∧
      final.sent = s.accepted.map Prod.snd := by
  have sound : Sound sz s := sound_of_run alone reaches
  have progress : ∀ state : Driver ι, (Sound sz state ∧ state.accepted = s.accepted) →
      ¬ state.AllSent →
      ∃ event next, Unattended state event ∧ step state event = some next ∧
        (Sound sz next ∧ next.accepted = s.accepted) ∧ work next < work state := by
    rintro state ⟨sound, accepted⟩ notDone
    rcases unattended_progress sound notDone with ⟨event, next, allowed, stepped, same, falls⟩
    exact ⟨event, next, allowed, stepped,
      ⟨sound.step allowed.alone stepped, same.trans accepted⟩, falls⟩
  rcases exists_run_to_goal Unattended work progress ⟨sound, rfl⟩ with
    ⟨events, final, _, meets, reaches, ⟨finalSound, accepted⟩, txEmpty, queueEmpty⟩
  have ordered := finalSound.ordered
  rw [txEmpty, queueEmpty, accepted, List.append_nil, List.append_nil] at ordered
  exact ⟨events, final, meets, reaches, ordered⟩

/-- The development console, where one thread writes and another one reads,
and the store follows the read of `SSR` only after the other thread has run. -/
def console : Driver Bool :=
  opened 0x80500000 0x80501000 4096 (fun _address => 0) (fun _address => 0) 4

def consoleCalls : List (Event Bool) :=
  [.write true false [65, 66], .arrive 7, .read false false 1, .advance true 0, .advance false 0,
    .advance true 0,
    .advance false 0, .advance true 0, .advance false 0, .advance true 0, .shift]

theorem consoleCalls_run : (run step console consoleCalls).isSome = true := by decide +kernel

/-- The state after these steps, in which one byte is in the FIFO. -/
def consoleDone : Driver Bool := (run step console consoleCalls).get consoleCalls_run

theorem consoleCalls_alone : StepsMeet step Alone console consoleCalls := by decide +kernel

theorem accepted_bytes_are_sent_consoleDone :
    ∃ events final, StepsMeet step Unattended consoleDone events ∧
    run step consoleDone events = some final ∧ final.sent = consoleDone.accepted.map Prod.snd :=
  accepted_bytes_are_sent 0x80500000 0x80501000 4096 (fun _address => 0)
    (fun _address => 0) 4 consoleCalls
    consoleDone consoleCalls_alone (Option.some_get consoleCalls_run).symm

end OmapUart
end ShovelOS
