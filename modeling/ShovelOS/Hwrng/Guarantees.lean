import ShovelOS.Fifo.Queue
import ShovelOS.Hwrng.Driver

namespace ShovelOS
namespace Hwrng

open Fifo

/-!
# Every random byte is used at most once, and no reader is forgotten

The bytes that the threads took and those still in the buffer are the bytes
that were accepted, and these are some of the bytes that the hardware
produced, in order: what was stored goes on with a byte that is in `VALUE`
or in the handler's hands, never with one that was stored before.

A thread that waits for bytes finds some, or the interrupt is enabled, or
another thread is about to enable it: the handler disables the interrupt
only when it leaves a full buffer behind, and a critical section that empties
the buffer leaves its thread in front of `INTENSET`.
-/

variable {ι : Type}

/-- The call that a thread is in, or its last one. -/
def Reader.call : Reader → Reading
  | .returned call | .locking call | .enabling call | .deciding call | .waiting call => call

/-- A thread that has enabled the interrupt and is not done. -/
def Reader.Waits : Reader → Prop
  | .deciding _ | .waiting _ => True
  | _ => False

/-- Some thread is between its critical section and its `INTENSET`. -/
def Driver.Waking (s : Driver ι) : Prop := ∃ thread call, s.readers thread = .enabling call

def Driver.pending (s : Driver ι) : List UInt8 := held s.readBuffer s.memory

/-- A blocking call that has returned has all that it was asked for. -/
def Reader.Complete : Reader → Prop
  | .returned call => call.flags &&& nonblock = 0 → call.count = 0
  | _ => True

/-- What every step keeps. -/
structure Sound [DecidableEq ι] (s : Driver ι) : Prop where
  wellFormed : WellFormed s.readBuffer
  room : 0 < s.readBuffer.sz.toNat
  conserved : s.delivered.map Prod.snd ++ s.pending = s.stored
  sublist : s.stored.Sublist s.generated
  ready : s.valrdy = true → (s.stored ++ [s.value]).Sublist s.generated
  reading : ∀ value, s.handler = some value → (s.stored ++ [value]).Sublist s.generated
  awake : (∃ thread, (s.readers thread).Waits) → s.pending = [] → s.inten = true ∨ s.Waking
  follows : ∀ thread, (s.readers thread).call.Follows s.delivered thread
  complete : ∀ thread, (s.readers thread).Complete

variable [DecidableEq ι] {s : Driver ι}

theorem Sound.irq (sound : Sound s) : Sound (_IRQ s) := by
  rw [_IRQ]
  split
  · next valrdy =>
      refine { sound with reading := fun value isValue => ?_ }
      cases isValue
      exact sound.ready valrdy
  · exact sound

/-- The handler stores the byte that it has read, or disables the interrupt
and leaves a full buffer. -/
theorem Sound.finishIRQ (sound : Sound s) {value : UInt8} (isReading : s.handler = some value) :
    Sound (finishIRQ s value) := by
  rw [Hwrng.finishIRQ]
  rcases fifoBufferPutb_spec sound.wellFormed s.memory value with
    ⟨_, buffer', memory', result, wellFormed, size, _, appended⟩ | ⟨full, result⟩
  · rw [result]
    have conserved : s.delivered.map Prod.snd ++ held buffer' memory' = s.stored ++ [value] := by
      rw [appended, ← List.append_assoc]
      exact congrArg (· ++ [value]) sound.conserved
    refine ⟨wellFormed, size ▸ sound.room, conserved, sound.reading value isReading, nofun, nofun,
      fun _ empty => ?_, sound.follows, sound.complete⟩
    exact absurd (appended.symm.trans empty)
      (List.append_ne_nil_of_right_ne_nil _ (List.cons_ne_nil value []))
  · rw [result]
    refine ⟨sound.wellFormed, sound.room, sound.conserved, sound.sublist, sound.ready, nofun,
      fun _ empty => ?_, sound.follows, sound.complete⟩
    rw [show held s.readBuffer s.memory = [] from empty] at full
    exact absurd sound.room full

theorem Sound.generate (sound : Sound s) (value : UInt8) :
    Sound { s with valrdy := true, value := value, generated := s.generated ++ [value] } where
  wellFormed := sound.wellFormed
  room := sound.room
  conserved := sound.conserved
  sublist := sound.sublist.trans (List.sublist_append_left ..)
  ready := fun _ => sound.sublist.append_right [value]
  reading := fun read isRead => (sound.reading read isRead).trans (List.sublist_append_left ..)
  awake := sound.awake
  follows := sound.follows
  complete := sound.complete

/-- A thread that is not in front of `INTENSET` may move, if it does not begin
to wait. -/
theorem Sound.setReader (sound : Sound s) {thread : ι} {reader : Reader}
    (notEnabling : ∀ call, s.readers thread ≠ .enabling call)
    (waits : reader.Waits → (s.readers thread).Waits)
    (follows : reader.call.Follows s.delivered thread) (complete : reader.Complete) :
    Sound (s.setReader thread reader) := by
  have moved : ∀ other, other ≠ thread →
      (s.setReader thread reader).readers other = s.readers other :=
    fun other different => Function.update_of_ne different ..
  have here : (s.setReader thread reader).readers thread = reader := Function.update_self ..
  refine { sound with awake := ?_, follows := ?_, complete := ?_ }
  · rintro ⟨other, otherWaits⟩ empty
    have waited : ∃ waiting, (s.readers waiting).Waits := by
      by_cases same : other = thread
      · subst same
        rw [here] at otherWaits
        exact ⟨other, waits otherWaits⟩
      · rw [moved other same] at otherWaits
        exact ⟨other, otherWaits⟩
    rcases sound.awake waited empty with enabled | ⟨waking, call, isEnabling⟩
    · exact Or.inl enabled
    · have different : waking ≠ thread := fun same => notEnabling call (same ▸ isEnabling)
      exact Or.inr ⟨waking, call, (moved waking different).trans isEnabling⟩
  · intro other
    by_cases same : other = thread
    · subst same
      rw [here]
      exact follows
    · rw [moved other same]
      exact sound.follows other
  · intro other
    by_cases same : other = thread
    · subst same
      rw [here]
      exact complete
    · rw [moved other same]
      exact sound.complete other

theorem Sound.intenset (sound : Sound s) {thread : ι} {call : Reading}
    (isEnabling : s.readers thread = .enabling call) :
    Sound ({ s with inten := true }.setReader thread (.deciding call)) := by
  have moved : ∀ other, other ≠ thread →
      ({ s with inten := true }.setReader thread (.deciding call)).readers other =
        s.readers other :=
    fun other different => Function.update_of_ne different ..
  have here : ({ s with inten := true }.setReader thread (.deciding call)).readers thread =
      .deciding call :=
    Function.update_self ..
  refine { sound with
    awake := fun _ _ => Or.inl rfl, follows := fun other => ?_, complete := fun other => ?_ }
  · by_cases same : other = thread
    · subst same
      have follows := sound.follows other
      rw [isEnabling] at follows
      rw [here]
      exact follows
    · rw [moved other same]
      exact sound.follows other
  · by_cases same : other = thread
    · subst same
      rw [here]
      trivial
    · rw [moved other same]
      exact sound.complete other

/-- A critical section takes the oldest bytes, and leaves its thread in front
of `INTENSET`. -/
theorem Sound.criticalSection (sound : Sound s) {thread : ι} {call : Reading}
    (isCall : (s.readers thread).call = call) : Sound (criticalSection s thread call) := by
  rw [Hwrng.criticalSection]
  rcases getBytes_spec s.memory sound.wellFormed call.count with
    ⟨buffer', bytes, left, gets, wellFormed, size, split, counted, _⟩
  rw [gets]
  have taken : (s.delivered ++ bytes.map fun b => (thread, b)).map Prod.snd ++
      held buffer' s.memory = s.stored := by
    rw [List.map_append, List.map_map, List.append_assoc]
    rw [show bytes.map (Prod.snd ∘ fun b => (thread, b)) = bytes from List.map_id bytes, ← split]
    exact sound.conserved
  have ownCall := sound.follows thread
  rw [isCall] at ownCall
  refine ⟨wellFormed, size ▸ sound.room, taken, sound.sublist, sound.ready, sound.reading,
    fun _ _ => Or.inr ⟨thread, _, Function.update_self ..⟩, fun other => ?_, fun other => ?_⟩
  · by_cases same : other = thread
    · subst same
      change (Function.update s.readers other (.enabling (call.take bytes left))
        other).call.Follows _ other
      rw [Function.update_self]
      exact ownCall.take counted
    · change (Function.update s.readers thread (.enabling (call.take bytes left))
        other).call.Follows _ other
      rw [Function.update_of_ne same]
      exact (sound.follows other).of_ne (Ne.symm same) bytes
  · by_cases same : other = thread
    · subst same
      change (Function.update s.readers other (.enabling (call.take bytes left)) other).Complete
      rw [Function.update_self]
      trivial
    · change (Function.update s.readers thread (.enabling (call.take bytes left)) other).Complete
      rw [Function.update_of_ne same]
      exact sound.complete other

theorem enterRead_spec (s : Driver ι) (thread : ι) (count : Nat) :
    ¬ (enterRead s count).Waits ∧ (enterRead s count).call.Follows s.delivered thread ∧
      (enterRead s count).Complete := by
  rw [enterRead]
  split
  · exact ⟨id, Reading.Follows.fresh _ _ _ 0, fun _ => rfl⟩
  · exact ⟨id, Reading.Follows.fresh _ _ _ count, trivial⟩

theorem decideRead_spec (call : Reading) :
    (decideRead call).call = call ∧ (decideRead call).Complete := by
  rw [decideRead]
  split
  · next done =>
      refine ⟨rfl, fun blocking => ?_⟩
      exact done.resolve_right fun notBlocking => notBlocking blocking
  · exact ⟨rfl, trivial⟩

theorem Sound.readerStep {next : Driver ι} {event : Event ι} (sound : Sound s)
    (stepped : readerStep s event = some next) : Sound next := by
  cases event with
  | read thread count =>
      rw [Hwrng.readerStep] at stepped
      cases reader : s.readers thread with
      | returned call =>
          rw [reader] at stepped
          cases stepped
          rcases enterRead_spec s thread count with ⟨notWaits, follows, complete⟩
          exact sound.setReader (by simp [reader]) (fun waits => absurd waits notWaits)
            follows complete
      | locking | enabling | deciding | waiting => simp [reader] at stepped
  | criticalSection thread =>
      rw [Hwrng.readerStep] at stepped
      cases reader : s.readers thread with
      | locking call | waiting call =>
          rw [reader] at stepped
          cases stepped
          exact sound.criticalSection (congrArg Reader.call reader)
      | returned | enabling | deciding => simp [reader] at stepped
  | intenset thread =>
      rw [Hwrng.readerStep] at stepped
      cases reader : s.readers thread with
      | enabling call =>
          rw [reader] at stepped
          cases stepped
          exact sound.intenset reader
      | returned | locking | deciding | waiting => simp [reader] at stepped
  | decide thread =>
      rw [Hwrng.readerStep] at stepped
      cases reader : s.readers thread with
      | deciding call =>
          rw [reader] at stepped
          cases stepped
          rcases decideRead_spec call with ⟨isCall, complete⟩
          have follows := sound.follows thread
          rw [reader] at follows
          refine sound.setReader (by simp [reader]) (fun _ => by simp [reader, Reader.Waits])
            ?_ complete
          rw [isCall]
          exact follows
      | returned | locking | enabling | waiting => simp [reader] at stepped
  | irq | finishIRQ | generate => cases stepped

theorem Sound.step {next : Driver ι} {event : Event ι} (sound : Sound s)
    (stepped : step s event = some next) : Sound next := by
  cases event with
  | generate value =>
      cases stepped
      exact sound.generate value
  | finishIRQ =>
      rcases Option.map_eq_some_iff.mp stepped with ⟨value, isReading, rfl⟩
      exact sound.finishIRQ isReading
  | irq =>
      rcases Option.ite_none_right_eq_some.mp stepped with ⟨_, result⟩
      cases result
      exact sound.irq
  | read | criticalSection | intenset | decide =>
      exact sound.readerStep (Option.ite_none_right_eq_some.mp stepped).2

theorem sound_opened (bp : Nat) {sz : UInt16} (positive : 0 < sz.toNat) (memory : Memory)
    (flags : UInt32) (valrdy : Bool) (value : UInt8) (inten : Bool) :
    Sound (opened bp sz memory flags valrdy value inten : Driver ι) where
  wellFormed := wellFormed_empty bp sz
  room := positive
  conserved := rfl
  sublist := List.nil_sublist _
  ready := by
    rintro rfl
    exact List.Sublist.refl _
  reading := nofun
  awake := fun ⟨_, waits⟩ => absurd waits id
  follows := fun thread => Reading.Follows.fresh _ thread flags 0
  complete := fun _ _ => rfl

/-- In every state that any interleaving of threads, handler and hardware
reaches: the bytes that were taken and those in the buffer are those that were
accepted, in order, and different bytes among those the hardware produced; a
call has stored the bytes that its thread took last, and all that it was
asked for if it blocks and has returned; and no thread waits at an empty
buffer with the interrupt disabled, unless another is about to enable it. -/
theorem random_bytes_delivered_and_wakes (bp : Nat) (sz : UInt16) (positive : 0 < sz.toNat)
    (memory : Memory) (flags : UInt32) (valrdy : Bool) (value : UInt8) (inten : Bool) (s : Driver ι)
    (reachable : Transition.Reachable step (opened bp sz memory flags valrdy value inten) s) :
    s.delivered.map Prod.snd ++ held s.readBuffer s.memory = s.stored ∧
      s.stored.Sublist s.generated ∧
      (∀ thread, (s.readers thread).call.got <:+ takenBy thread s.delivered) ∧
      (∀ thread call, s.readers thread = .returned call → call.got.length ≤ call.requested ∧
        (call.flags &&& nonblock = 0 → call.got.length = call.requested)) ∧
      ¬ ((∃ thread, (s.readers thread).Waits) ∧ held s.readBuffer s.memory = [] ∧ s.inten = false ∧
        ∀ thread call, s.readers thread ≠ .enabling call) := by
  have sound : Sound s :=
    reachable.invariant (fun _s _event _next sound stepped => sound.step stepped)
    (sound_opened bp positive memory flags valrdy value inten)
  refine ⟨sound.conserved, sound.sublist, fun thread => (sound.follows thread).latest,
    fun thread call isReturned => ?_, ?_⟩
  · have follows := sound.follows thread
    have complete := sound.complete thread
    rw [isReturned] at follows complete
    have counted : call.got.length + call.count = call.requested := follows.counted
    refine ⟨Nat.le.intro counted, fun blocking => ?_⟩
    rwa [show call.count = 0 from complete blocking] at counted
  · rintro ⟨waits, empty, disabled, noReader⟩
    rcases sound.awake waits empty with enabled | ⟨thread, call, waking⟩
    · exact absurd (disabled.symm.trans enabled) nofun
    · exact noReader thread call waking

/-- Two threads read; the hardware replaces a byte while the handler has one,
and another one that nobody has read. -/
def twoReaders : List (Event Bool) :=
  [.read true 2, .criticalSection true, .intenset true, .decide true, .generate 7, .irq,
    .generate 8, .finishIRQ,
    .generate 9, .read false 1, .criticalSection false, .intenset false, .decide false,
    .generate 10, .irq,
    .finishIRQ, .criticalSection true]

def microbit : Driver Bool := opened 0x20001000 32 (fun _address => 0) 0 false 0 false

theorem twoReaders_run : (Transition.run step microbit twoReaders).isSome = true := by
  decide +kernel

def twoRead : Driver Bool := (Transition.run step microbit twoReaders).get twoReaders_run

theorem twoRead_reachable : Transition.Reachable step microbit twoRead :=
  ⟨twoReaders, (Option.some_get twoReaders_run).symm⟩

theorem random_bytes_delivered_and_wakes_twoRead :
    twoRead.delivered.map Prod.snd ++ held twoRead.readBuffer twoRead.memory = twoRead.stored ∧
      twoRead.stored.Sublist twoRead.generated ∧
      (∀ thread, (twoRead.readers thread).call.got <:+ takenBy thread twoRead.delivered) ∧
      (∀ thread call, twoRead.readers thread = .returned call → call.got.length ≤ call.requested ∧
        (call.flags &&& nonblock = 0 → call.got.length = call.requested)) ∧
      ¬ ((∃ thread, (twoRead.readers thread).Waits) ∧ held twoRead.readBuffer twoRead.memory = [] ∧
        twoRead.inten = false ∧ ∀ thread call, twoRead.readers thread ≠ .enabling call) :=
  random_bytes_delivered_and_wakes 0x20001000 32 (by decide)
    (fun _address => 0) 0 false 0 false twoRead
    twoRead_reachable

end Hwrng
end ShovelOS
