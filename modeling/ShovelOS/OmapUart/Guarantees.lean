import Mathlib.Data.Fintype.Defs
import ShovelOS.Library.WordFields
import ShovelOS.OmapUart.Driver
import ShovelOS.Uart.Transmit

namespace ShovelOS
namespace OmapUart

open Fifo Uart

/-!
# Bytes keep their order, and are lost only at a full queue

What the hardware has sent, what is in its FIFO and what waits in the write
queue is what the writers got accepted, and the interrupt is enabled as long
as something waits.  What was read from `RHR` and what is in the hardware's
FIFO is what has arrived; all of it was stored but for the bytes that found
the read queue full; and what was stored was taken or is still there.

On the development console the queues are empty and the calls pass by them,
without a lock.  What a call has read from a status register is still so at
its access to the FIFO if no other thread is in a call in the same direction;
with two of them, bytes are lost.
-/

variable {ι : Type}

def Driver.outgoing (s : Driver ι) : List UInt8 := held s.writeBuffer s.writeMemory

def Driver.incoming (s : Driver ι) : List UInt8 := held s.readBuffer s.readMemory

section Threads

variable [DecidableEq ι]

/-- The bytes of a call are accepted in order, and are the last ones of its
thread. -/
structure WriteCall.Follows (log : List (ι × UInt8)) (thread : ι) (call : WriteCall) : Prop where
  given : call.done ++ call.rest = call.given
  latest : call.done <:+ takenBy thread log

/-- A call has done what it is supposed to have done where it is. -/
def Caller.Fits (flags : UInt32) (accepted delivered : List (ι × UInt8)) (thread : ι) :
    Caller → Prop
  | .wrote call => call.Follows accepted thread ∧ (call.flags &&& nonblock = 0 → call.rest = [])
  | .writeLocking call | .writeDeciding call => call.Follows accepted thread ∧ flags &&& dev = 0
  | .writePolling call => call.Follows accepted thread ∧ flags &&& dev ≠ 0
  | .writeStoring call b rest => call.Follows accepted thread ∧ call.rest = b :: rest ∧
      flags &&& dev ≠ 0
  | .writeFlushing call => call.Follows accepted thread ∧ call.rest = []
  | .read call => call.Follows delivered thread ∧ (call.flags &&& nonblock = 0 → call.count = 0)
  | .readLocking call | .readDeciding call => call.Follows delivered thread ∧ flags &&& dev = 0
  | .readPolling call => call.Follows delivered thread ∧ flags &&& dev ≠ 0
  | .readFetching call count => call.Follows delivered thread ∧ call.count = count + 1 ∧
      flags &&& dev ≠ 0

theorem WriteCall.Follows.of_ne {log : List (ι × UInt8)} {thread other : ι} {call : WriteCall}
    (follows : call.Follows log thread) (different : other ≠ thread) (bytes : List UInt8) :
    call.Follows (log ++ bytes.map fun b => (other, b)) thread := by
  refine ⟨follows.given, ?_⟩
  rw [takenBy_append, takenBy_of_ne different, List.append_nil]
  exact follows.latest

theorem WriteCall.Follows.accept {log : List (ι × UInt8)} {thread : ι} {call : WriteCall}
    (follows : call.Follows log thread) {bytes rest : List UInt8}
    (split : call.rest = bytes ++ rest) :
    WriteCall.Follows (log ++ bytes.map fun b => (thread, b)) thread
      { call with done := call.done ++ bytes, rest := rest } := by
  refine ⟨?_, ?_⟩
  · rw [← follows.given, split, List.append_assoc]
  · rw [takenBy_append, takenBy_self]
    rcases follows.latest with ⟨before, isSuffix⟩
    exact ⟨before, by rw [← isSuffix, List.append_assoc]⟩

/-- What other threads do does not concern a call. -/
theorem Caller.Fits.of_ne {flags : UInt32} {accepted delivered : List (ι × UInt8)}
    {thread other : ι}
    {caller : Caller} (fits : caller.Fits flags accepted delivered thread)
    (different : other ≠ thread) (written taken : List UInt8) :
    caller.Fits flags (accepted ++ written.map fun b => (other, b))
      (delivered ++ taken.map fun b => (other, b))
      thread := by
  cases caller with
  | wrote | writeLocking | writeDeciding | writePolling | writeStoring | writeFlushing =>
      exact ⟨fits.1.of_ne different written, fits.2⟩
  | read | readLocking | readDeciding | readPolling | readFetching =>
      exact ⟨fits.1.of_ne different taken, fits.2⟩

/-! ## Two steps on one status register -/

/-- The thread is in the loop of `_write` that watches `SSR`. -/
def Caller.WatchesSsr : Caller → Prop
  | .writePolling _ | .writeStoring .. => True
  | _ => False

/-- The thread has seen room in the FIFO. -/
def Caller.Stores : Caller → Prop
  | .writeStoring .. => True
  | _ => False

/-- The thread is in the loop of `_read` that watches `LSR`. -/
def Caller.WatchesLsr : Caller → Prop
  | .readPolling _ | .readFetching .. => True
  | _ => False

/-- The thread has seen a byte in the FIFO. -/
def Caller.Fetches : Caller → Prop
  | .readFetching .. => True
  | _ => False

instance Caller.watchesSsrDecidable : (caller : Caller) → Decidable caller.WatchesSsr
  | .writePolling _ | .writeStoring .. => isTrue trivial
  | .wrote _ | .writeLocking _ | .writeDeciding _ | .writeFlushing _ | .read _ | .readLocking _
  | .readDeciding _
  | .readPolling _ | .readFetching .. => isFalse id

instance Caller.watchesLsrDecidable : (caller : Caller) → Decidable caller.WatchesLsr
  | .readPolling _ | .readFetching .. => isTrue trivial
  | .wrote _ | .writeLocking _ | .writeDeciding _ | .writePolling _ | .writeStoring ..
  | .writeFlushing _ | .read _
  | .readLocking _ | .readDeciding _ => isFalse id

theorem Caller.Stores.watches {caller : Caller} (stores : caller.Stores) : caller.WatchesSsr := by
  cases caller with
  | writeStoring => trivial
  | _ => exact False.elim stores

theorem Caller.Fetches.watches {caller : Caller} (fetches : caller.Fetches) :
    caller.WatchesLsr := by
  cases caller with
  | readFetching => trivial
  | _ => exact False.elim fetches

/-- A call on the development console begins only while no other thread is in
the loop of one in the same direction. -/
def Alone (s : Driver ι) : Event ι → Prop
  | .write thread _ _ => s.flags &&& dev ≠ 0 → ∀ other, other ≠ thread →
      ¬ (s.callers other).WatchesSsr
  | .read thread _ _ => s.flags &&& dev ≠ 0 → ∀ other, other ≠ thread →
      ¬ (s.callers other).WatchesLsr
  | _ => True

instance Alone.decidable [Fintype ι] (s : Driver ι) : (event : Event ι) → Decidable (Alone s event)
  | .write thread _ _ =>
      inferInstanceAs
        (Decidable (s.flags &&& dev ≠ 0 → ∀ other, other ≠ thread → ¬ (s.callers other).WatchesSsr))
  | .read thread _ _ =>
      inferInstanceAs
        (Decidable (s.flags &&& dev ≠ 0 → ∀ other, other ≠ thread → ¬ (s.callers other).WatchesLsr))
  | .advance .. | .irq _ | .turn | .shift | .arrive _ => isTrue trivial

/-- Two writers that have both seen the last place in the FIFO lose a byte that
counts as written. -/
theorem second_store_is_lost {s : Driver ι} {one other : ι} {first second : WriteCall} {b c : UInt8}
    {firstRest secondRest : List UInt8} (different : other ≠ one) (idle : s.handler = .idle)
    (lastPlace : s.txFifo.length + 1 = fifoDepth)
    (oneStores : s.callers one = .writeStoring first b firstRest)
    (otherStores : s.callers other = .writeStoring second c secondRest) (rhr : UInt8) :
    ∃ next, Transition.run step s [.advance one rhr, .advance other rhr] = some next ∧
      next.txFifo = s.txFifo ++ [b] ∧ next.accepted = s.accepted ++ [(one, b)] ++ [(other, c)] := by
  have room : ¬ s.txFull := by
    rw [Driver.txFull]
    omega
  have firstStep : step s (.advance one rhr) = some (storeThr s one first b firstRest) := by
    rw [step, if_pos idle, advance, oneStores]
  set middle := storeThr s one first b firstRest
  have stored : middle.txFifo = s.txFifo ++ [b] := if_neg room
  have full : middle.txFull := by
    rw [Driver.txFull, stored, List.length_append, List.length_singleton]
    exact lastPlace.ge
  have otherStays : middle.callers other = .writeStoring second c secondRest :=
    (Function.update_of_ne different _ _).trans otherStores
  have secondStep : step middle (.advance other rhr) =
      some (storeThr middle other second c secondRest) := by
    rw [step, if_pos (show middle.handler = .idle from idle), advance, otherStays]
  refine ⟨storeThr middle other second c secondRest, ?_, (if_pos full).trans stored, rfl⟩
  rw [Transition.run_cons_eq_some]
  exact ⟨middle, firstStep, Transition.run_cons_eq_some.mpr ⟨_, secondStep, rfl⟩⟩

/-- At most one thread watches a register, and what it has seen there is still
so. -/
structure Watched (watches sees : Caller → Prop) (callers : ι → Caller) (ready : Prop) : Prop where
  single : ∀ one other, watches (callers one) → watches (callers other) → one = other
  seen : ∀ thread, sees (callers thread) → ready

section Watched

variable {watches sees : Caller → Prop} {callers : ι → Caller} {ready : Prop} {thread : ι}
  {caller : Caller}

omit [DecidableEq ι] in
theorem Watched.mono (watched : Watched watches sees callers ready) {other : Prop}
    (stays : ready → other) :
    Watched watches sees callers other :=
  ⟨watched.single, fun thread sees => stays (watched.seen thread sees)⟩

omit [DecidableEq ι] in
theorem Watched.others (watched : Watched watches sees callers ready)
    (isWatching : watches (callers thread))
    (other : ι) (different : other ≠ thread) : ¬ watches (callers other) :=
  fun otherWatches => different (watched.single other thread otherWatches isWatching)

/-- A thread moves, and watches the register only if no other thread does. -/
theorem Watched.update (watched : Watched watches sees callers ready)
    (alone : watches caller → ∀ other, other ≠ thread → ¬ watches (callers other))
    (isReady : sees caller → ready) :
    Watched watches sees (Function.update callers thread caller) ready where
  single := by
    intro one other oneWatches otherWatches
    by_cases isOne : one = thread
    · by_cases isOther : other = thread
      · exact isOne.trans isOther.symm
      · rw [isOne, Function.update_self] at oneWatches
        rw [Function.update_of_ne isOther] at otherWatches
        exact absurd otherWatches (alone oneWatches other isOther)
    · rw [Function.update_of_ne isOne] at oneWatches
      by_cases isOther : other = thread
      · rw [isOther, Function.update_self] at otherWatches
        exact absurd oneWatches (alone otherWatches one isOne)
      · rw [Function.update_of_ne isOther] at otherWatches
        exact watched.single one other oneWatches otherWatches
  seen := by
    intro moved movedSees
    by_cases same : moved = thread
    · rw [same, Function.update_self] at movedSees
      exact isReady movedSees
    · rw [Function.update_of_ne same] at movedSees
      exact watched.seen moved movedSees

/-- A thread acts on what it has seen, after which it may no longer be so. -/
theorem Watched.spend (watched : Watched watches sees callers ready)
    (within : ∀ {caller}, sees caller → watches caller)
    (isWatching : watches (callers thread)) (acted : ¬ sees caller) (other : Prop) :
    Watched watches sees (Function.update callers thread caller) other where
  single := (watched.update (fun _ => watched.others isWatching)
    (fun sees => absurd sees acted)).single
  seen := by
    intro moved movedSees
    by_cases same : moved = thread
    · rw [same, Function.update_self] at movedSees
      exact absurd movedSees acted
    · rw [Function.update_of_ne same] at movedSees
      exact absurd (within movedSees) (watched.others isWatching moved same)

end Watched

/-- What every step keeps. -/
structure Sound (sz : UInt16) (s : Driver ι) : Prop where
  readWell : WellFormed s.readBuffer
  writeWell : WellFormed s.writeBuffer
  size : s.readBuffer.sz = sz
  ordered : s.sent ++ s.txFifo ++ s.outgoing = s.accepted.map Prod.snd
  enabled : s.outgoing ≠ [] → s.thrIt = true
  received : s.fetched ++ s.rxFifo = s.arrived
  sublist : s.stored.Sublist s.fetched
  counted : s.fetched.length = s.stored.length + s.losses.length
  full : ∀ load ∈ s.losses, load = sz.toNat
  taken : s.delivered.map Prod.snd ++ s.incoming = s.stored
  polled : s.flags &&& dev ≠ 0 → s.outgoing = [] ∧ s.incoming = [] ∧ s.rhrIt = false ∧
    s.handler ≠ .receiving
  calls : ∀ thread, (s.callers thread).Fits s.flags s.accepted s.delivered thread
  ssr : Watched Caller.WatchesSsr Caller.Stores s.callers (s.txFifo.length < fifoDepth)
  lsr : Watched Caller.WatchesLsr Caller.Fetches s.callers (s.rxFifo ≠ [])

variable {sz : UInt16} {s : Driver ι}

/-! ## The handler and the hardware -/

/-- Only on the development console a thread stores to `THR`. -/
theorem Sound.polls_of_stores (sound : Sound sz s) {thread : ι}
    (stores : (s.callers thread).Stores) :
    s.flags &&& dev ≠ 0 := by
  have fits := sound.calls thread
  cases caller : s.callers thread with
  | writeStoring call b rest =>
      rw [caller] at fits
      exact fits.2.2
  | _ =>
      rw [caller] at stores
      exact False.elim stores

/-- Only on the development console a thread reads `RHR`. -/
theorem Sound.polls_of_fetches (sound : Sound sz s) {thread : ι}
    (fetches : (s.callers thread).Fetches) :
    s.flags &&& dev ≠ 0 := by
  have fits := sound.calls thread
  cases caller : s.callers thread with
  | readFetching call count =>
      rw [caller] at fits
      exact fits.2.2
  | _ =>
      rw [caller] at fetches
      exact False.elim fetches

theorem Sound.irq (sound : Sound sz s) {iir : UInt32}
    (reported : iir &&& itTypeMask = itTypeRhr → s.rhrIt = true) :
    Sound sz (_IRQ s iir) := by
  rw [_IRQ]
  split_ifs with isThr isRhr
  · refine { sound with polled := fun polling => ?_ }
    rcases sound.polled polling with ⟨outgoing, incoming, disabled, _⟩
    exact ⟨outgoing, incoming, disabled, nofun⟩
  · refine { sound with polled := fun polling => ?_ }
    rcases sound.polled polling with ⟨_, _, disabled, _⟩
    exact absurd (disabled.symm.trans (reported isRhr)) nofun
  · exact sound

theorem Sound.leave (sound : Sound sz s) : Sound sz { s with handler := .idle } := by
  refine { sound with polled := fun polling => ?_ }
  rcases sound.polled polling with ⟨outgoing, incoming, disabled, _⟩
  exact ⟨outgoing, incoming, disabled, nofun⟩

/-- A byte goes from the write queue to the hardware; or there is none, and the
interrupt can be disabled. -/
theorem Sound.sendTurn (sound : Sound sz s) : Sound sz (sendTurn s) := by
  rw [OmapUart.sendTurn]
  split
  · exact sound.leave
  · rcases fifoBufferGetb_spec sound.writeWell s.writeMemory 0 with
      ⟨first, rest, buffer', queue, result, wellFormed, _, _, remains⟩ | ⟨empty, result⟩
    · rw [result]
      have outgoing : s.outgoing = first :: rest := queue
      have ordered := sound.ordered
      rw [outgoing] at ordered
      have notPolled : ¬ s.flags &&& dev ≠ 0 := fun polling =>
        List.cons_ne_nil first rest (outgoing.symm.trans (sound.polled polling).1)
      refine { sound with
        writeWell := wellFormed
        ordered := ?_
        enabled := ?_
        polled := fun polling => absurd polling notPolled
        ssr := ⟨sound.ssr.single,
          fun _thread stores => absurd (sound.polls_of_stores stores) notPolled⟩ }
      · change s.sent ++ (s.txFifo ++ [first]) ++ held buffer' s.writeMemory =
          s.accepted.map Prod.snd
        rw [remains, ← ordered]
        simp only [List.append_assoc, List.singleton_append]
      · intro _
        apply sound.enabled
        rw [outgoing]
        exact List.cons_ne_nil first rest
    · rw [result]
      refine { sound with
        enabled := fun pending => absurd empty pending, polled := fun polling => ?_ }
      rcases sound.polled polling with ⟨outgoing, incoming, disabled, _⟩
      exact ⟨outgoing, incoming, disabled, nofun⟩

theorem load_of_full {buffer : FifoBuffer} (wellFormed : WellFormed buffer) {memory : Memory}
    (noRoom : ¬ (held buffer memory).length < buffer.sz.toNat) :
    buffer.rsz.toNat = buffer.sz.toNat := by
  have sizes := wellFormed.sizes
  rw [length_held] at noRoom
  omega

/-- A byte goes from the hardware to the read queue, or is lost when that is
full. -/
theorem Sound.receiveTurn (sound : Sound sz s) (isReceiving : s.handler = .receiving) :
    Sound sz (receiveTurn s) := by
  have notPolled : ¬ s.flags &&& dev ≠ 0 := fun polling => (sound.polled polling).2.2.2 isReceiving
  rw [OmapUart.receiveTurn]
  split
  · exact sound.leave
  · next b rxFifo isFifo =>
      have lsr : Watched Caller.WatchesLsr Caller.Fetches s.callers (rxFifo ≠ []) :=
        ⟨sound.lsr.single, fun _thread fetches => absurd (sound.polls_of_fetches fetches) notPolled⟩
      have received : s.fetched ++ [b] ++ rxFifo = s.arrived := by
        rw [← sound.received, isFifo, List.append_assoc, List.singleton_append]
      have counted := sound.counted
      rcases fifoBufferPutb_spec sound.readWell s.readMemory b with
        ⟨_, buffer', memory', result, wellFormed, size, _, appended⟩ | ⟨noRoom, result⟩
      · rw [result]
        refine { sound with
          readWell := wellFormed
          size := size.trans sound.size
          received := received
          sublist := sound.sublist.append_right [b]
          counted := ?_
          taken := ?_
          polled := fun polling => absurd polling notPolled
          lsr := lsr }
        · change (s.fetched ++ [b]).length = (s.stored ++ [b]).length + s.losses.length
          simp only [List.length_append, List.length_singleton]
          omega
        · change s.delivered.map Prod.snd ++ held buffer' memory' = s.stored ++ [b]
          rw [appended, ← List.append_assoc]
          exact congrArg (· ++ [b]) sound.taken
      · rw [result]
        refine { sound with
          received := received
          sublist := sound.sublist.trans (List.sublist_append_left ..)
          counted := ?_
          full := ?_
          polled := fun polling => absurd polling notPolled
          lsr := lsr }
        · change (s.fetched ++ [b]).length =
            s.stored.length + (s.losses ++ [s.readBuffer.rsz.toNat]).length
          simp only [List.length_append, List.length_singleton]
          omega
        · intro load isLoss
          rcases List.mem_append.mp isLoss with old | new
          · exact sound.full load old
          · rw [List.mem_singleton.mp new, load_of_full sound.readWell noRoom, sound.size]

theorem Sound.shift (sound : Sound sz s) {b : UInt8} {txFifo : List UInt8}
    (isFifo : s.txFifo = b :: txFifo) :
    Sound sz { s with txFifo := txFifo, sent := s.sent ++ [b] } := by
  refine { sound with ordered := ?_, ssr := sound.ssr.mono fun room => ?_ }
  · change s.sent ++ [b] ++ txFifo ++ s.outgoing = s.accepted.map Prod.snd
    rw [← sound.ordered, isFifo]
    simp only [List.append_assoc, List.cons_append, List.nil_append]
  · rw [isFifo, List.length_cons] at room
    exact Nat.lt_of_succ_lt room

theorem Sound.arrive (sound : Sound sz s) (b : UInt8) :
    Sound sz { s with rxFifo := s.rxFifo ++ [b], arrived := s.arrived ++ [b] } := by
  refine { sound with
    received := ?_
    lsr := sound.lsr.mono fun _ => List.append_ne_nil_of_right_ne_nil _ (List.cons_ne_nil b []) }
  change s.fetched ++ (s.rxFifo ++ [b]) = s.arrived ++ [b]
  rw [← sound.received, List.append_assoc]

/-! ## The threads -/

/-- One thread moves, and may have written or taken bytes. -/
theorem Sound.update_calls (sound : Sound sz s) (thread : ι) (caller : Caller)
    (written taken : List UInt8)
    (fits : caller.Fits s.flags (s.accepted ++ written.map fun b => (thread, b))
      (s.delivered ++ taken.map fun b => (thread, b)) thread) (other : ι) :
    (Function.update s.callers thread caller other).Fits s.flags
      (s.accepted ++ written.map fun b => (thread, b))
        (s.delivered ++ taken.map fun b => (thread, b)) other := by
  by_cases same : other = thread
  · subst same
    rwa [Function.update_self]
  · rw [Function.update_of_ne same]
    exact (sound.calls other).of_ne (Ne.symm same) written taken

/-- What a thread may come to watch, and to have seen. -/
structure Entitled (s : Driver ι) (thread : ι) (caller : Caller) : Prop where
  ssr : caller.WatchesSsr → ∀ other, other ≠ thread → ¬ (s.callers other).WatchesSsr
  room : caller.Stores → s.txFifo.length < fifoDepth
  lsr : caller.WatchesLsr → ∀ other, other ≠ thread → ¬ (s.callers other).WatchesLsr
  available : caller.Fetches → s.rxFifo ≠ []

omit [DecidableEq ι] in
theorem entitled_of_locked (s : Driver ι) (thread : ι) {caller : Caller}
    (noSsr : ¬ caller.WatchesSsr) (noLsr : ¬ caller.WatchesLsr) : Entitled s thread caller where
  ssr := fun watches => absurd watches noSsr
  room := fun stores => absurd stores.watches noSsr
  lsr := fun watches => absurd watches noLsr
  available := fun fetches => absurd fetches.watches noLsr

theorem Sound.setCaller (sound : Sound sz s) {thread : ι} {caller : Caller}
    (fits : caller.Fits s.flags s.accepted s.delivered thread)
    (entitled : Entitled s thread caller) :
    Sound sz (s.setCaller thread caller) := by
  refine { sound with
    calls := ?_
    ssr := sound.ssr.update entitled.ssr entitled.room
    lsr := sound.lsr.update entitled.lsr entitled.available }
  have moved := sound.update_calls thread caller [] []
  simp only [List.map_nil, List.append_nil] at moved
  exact moved fits

theorem Sound.writeSection (sound : Sound sz s) {thread : ι} {call : WriteCall}
    (follows : call.Follows s.accepted thread) (queued : s.flags &&& dev = 0) :
    Sound sz (writeSection s thread call) := by
  rw [OmapUart.writeSection]
  rcases putBytes_spec sound.writeWell s.writeMemory call.rest with
    ⟨buffer', memory', accepted, rest, puts, wellFormed, appended, split⟩
  rw [puts]
  refine { sound with
    writeWell := wellFormed
    ordered := ?_
    enabled := fun _ => rfl
    polled := fun polling => absurd queued polling
    calls := ?_
    ssr := sound.ssr.update nofun nofun
    lsr := sound.lsr.update nofun nofun }
  · change s.sent ++ s.txFifo ++ held buffer' memory' =
      (s.accepted ++ accepted.map fun b => (thread, b)).map Prod.snd
    rw [appended, List.map_append, ← sound.ordered, List.map_map]
    rw [show accepted.map (Prod.snd ∘ fun b => (thread, b)) = accepted from List.map_id accepted]
    simp only [Driver.outgoing, List.append_assoc]
  · have moved := sound.update_calls thread
      (.writeDeciding { call with done := call.done ++ accepted, rest := rest }) accepted []
    simp only [List.map_nil, List.append_nil] at moved
    exact moved ⟨follows.accept split, queued⟩

theorem Sound.readSection (sound : Sound sz s) {thread : ι} {call : Reading}
    (follows : call.Follows s.delivered thread) (queued : s.flags &&& dev = 0) :
    Sound sz (readSection s thread call) := by
  rw [OmapUart.readSection]
  rcases getBytes_spec s.readMemory sound.readWell call.count with
    ⟨buffer', bytes, left, gets, wellFormed, size, split, counted, _⟩
  rw [gets]
  refine { sound with
    readWell := wellFormed
    size := size.trans sound.size
    taken := ?_
    polled := fun polling => absurd queued polling
    calls := ?_
    ssr := sound.ssr.update nofun nofun
    lsr := sound.lsr.update nofun nofun }
  · change (s.delivered ++ bytes.map fun b => (thread, b)).map Prod.snd ++
      held buffer' s.readMemory = s.stored
    rw [List.map_append, List.map_map, List.append_assoc]
    rw [show bytes.map (Prod.snd ∘ fun b => (thread, b)) = bytes from List.map_id bytes, ← split]
    exact sound.taken
  · have moved := sound.update_calls thread (.readDeciding (call.take bytes left)) [] bytes
    simp only [List.map_nil, List.append_nil] at moved
    exact moved ⟨follows.take counted, queued⟩

/-- A write that does without the queue reads `SSR`. -/
theorem Sound.pollSsr (sound : Sound sz s) {thread : ι} {call : WriteCall}
    (caller : s.callers thread = .writePolling call) : Sound sz (pollSsr s thread call) := by
  have fits := sound.calls thread
  rw [caller] at fits
  rcases fits with ⟨follows, polling⟩
  have watching : (s.callers thread).WatchesSsr := by
    rw [caller]
    trivial
  have others := sound.ssr.others watching
  rw [OmapUart.pollSsr]
  split
  · next done => exact sound.setCaller ⟨follows, done⟩ (entitled_of_locked s thread id id)
  · next b rest isRest =>
      split
      · exact sound
      · next room =>
          exact sound.setCaller ⟨follows, isRest, polling⟩
            ⟨fun _ => others, fun _ => Nat.lt_of_not_le room, nofun, nofun⟩

/-- It stores a byte, and there is room. -/
theorem Sound.storeThr (sound : Sound sz s) {thread : ι} {call : WriteCall} {b : UInt8}
    {rest : List UInt8}
    (caller : s.callers thread = .writeStoring call b rest) :
    Sound sz (storeThr s thread call b rest) := by
  have fits := sound.calls thread
  rw [caller] at fits
  rcases fits with ⟨follows, isRest, polling⟩
  have room : ¬ s.txFull := Nat.not_le_of_lt (sound.ssr.seen thread (by rw [caller]; trivial))
  refine { sound with
    ordered := ?_
    calls := ?_
    ssr := sound.ssr.spend Caller.Stores.watches (by rw [caller]; trivial) id _
    lsr := sound.lsr.update nofun nofun }
  · change s.sent ++ (if s.txFull then s.txFifo else s.txFifo ++ [b]) ++ s.outgoing =
      (s.accepted ++ [(thread, b)]).map Prod.snd
    have ordered := sound.ordered
    rw [(sound.polled polling).1, List.append_nil] at ordered ⊢
    rw [if_neg room, List.map_append, ← ordered, List.append_assoc]
    rfl
  · have moved := sound.update_calls thread
      (.writePolling { call with done := call.done ++ [b], rest := rest }) [b] []
    simp only [List.map_nil, List.append_nil] at moved
    exact moved ⟨follows.accept isRest, polling⟩

/-- A read that does without the queue reads `LSR`. -/
theorem Sound.pollLsr (sound : Sound sz s) {thread : ι} {call : Reading}
    (caller : s.callers thread = .readPolling call) : Sound sz (pollLsr s thread call) := by
  have fits := sound.calls thread
  rw [caller] at fits
  rcases fits with ⟨follows, polling⟩
  have watching : (s.callers thread).WatchesLsr := by
    rw [caller]
    trivial
  have others := sound.lsr.others watching
  rw [OmapUart.pollLsr]
  split
  · next done => exact sound.setCaller ⟨follows, fun _ => done⟩ (entitled_of_locked s thread id id)
  · next count isCount =>
      split
      · exact sound
      · next available =>
          exact sound.setCaller ⟨follows, isCount, polling⟩
            ⟨nofun, nofun, fun _ => others, fun _ => available⟩

/-- It reads `RHR`, and there is a byte. -/
theorem Sound.fetchRhr (sound : Sound sz s) {thread : ι} {call : Reading} {count : Nat}
    (caller : s.callers thread = .readFetching call count) (rhr : UInt8) :
    Sound sz (fetchRhr s thread call count rhr) := by
  have fits := sound.calls thread
  rw [caller] at fits
  rcases fits with ⟨follows, isCount, polling⟩
  rcases List.exists_cons_of_ne_nil (sound.lsr.seen thread (by rw [caller]; trivial)) with
    ⟨b, rxFifo, isFifo⟩
  have empty := (sound.polled polling).2.1
  have taken := sound.taken
  rw [empty, List.append_nil] at taken
  rw [OmapUart.fetchRhr, isFifo]
  refine { sound with
    received := ?_
    sublist := sound.sublist.append_right [b]
    counted := ?_
    taken := ?_
    calls := ?_
    ssr := sound.ssr.update nofun nofun
    lsr := sound.lsr.spend Caller.Fetches.watches (by rw [caller]; trivial) id _ }
  · change s.fetched ++ [b] ++ rxFifo = s.arrived
    rw [← sound.received, isFifo, List.append_assoc, List.singleton_append]
  · change (s.fetched ++ [b]).length = (s.stored ++ [b]).length + s.losses.length
    have counted := sound.counted
    simp only [List.length_append, List.length_singleton]
    omega
  · change (s.delivered ++ [(thread, b)]).map Prod.snd ++ s.incoming = s.stored ++ [b]
    rw [empty, List.append_nil, List.map_append, taken]
    rfl
  · have moved := sound.update_calls thread (.readPolling (call.take [b] count)) [] [b]
    simp only [List.map_nil, List.append_nil] at moved
    have counted : [b].length + count = call.count := by
      rw [isCount, Nat.add_comm]
      rfl
    exact moved ⟨follows.take counted, polling⟩

omit [DecidableEq ι] in
/-- Whether a call is made in an interrupt does not matter for the mode. -/
theorem callFlags_dev (s : Driver ι) (inInterrupt : Bool) :
    callFlags s inInterrupt &&& dev = s.flags &&& dev := by
  rw [callFlags]
  split
  · rw [WordFields.or_eq_insert, WordFields.insert_and_outside (by decide)]
  · rfl

theorem enterWrite_fits (s : Driver ι) (thread : ι) (inInterrupt : Bool) (vbuffer : List UInt8) :
    (enterWrite s inInterrupt vbuffer).Fits s.flags s.accepted s.delivered thread := by
  have follows :
      WriteCall.Follows s.accepted thread ⟨callFlags s inInterrupt, vbuffer, [], vbuffer⟩ :=
    ⟨rfl, List.nil_suffix⟩
  have mode := callFlags_dev s inInterrupt
  rw [enterWrite]
  dsimp only
  rw [mode]
  split_ifs with polling empty
  · exact ⟨follows, polling⟩
  · exact ⟨follows, fun _ => empty⟩
  · exact ⟨follows, not_not.mp polling⟩

theorem enterRead_fits (s : Driver ι) (thread : ι) (inInterrupt : Bool) (count : Nat) :
    (enterRead s inInterrupt count).Fits s.flags s.accepted s.delivered thread := by
  have follows := Reading.Follows.fresh s.delivered thread (callFlags s inInterrupt) count
  have mode := callFlags_dev s inInterrupt
  rw [enterRead]
  dsimp only
  rw [mode]
  split_ifs with polling
  · exact ⟨follows, polling⟩
  · exact ⟨follows, not_not.mp polling⟩

omit [DecidableEq ι] in
/-- A writer begins on the development console where no other one watches
`SSR`. -/
theorem enterWrite_entitled {s : Driver ι} {thread : ι} {inInterrupt : Bool} {vbuffer : List UInt8}
    (alone : Alone s (.write thread inInterrupt vbuffer)) :
    Entitled s thread (enterWrite s inInterrupt vbuffer) := by
  have mode := callFlags_dev s inInterrupt
  rw [enterWrite]
  dsimp only
  rw [mode]
  split_ifs with polling empty
  · exact ⟨fun _ => alone polling, nofun, nofun, nofun⟩
  · exact entitled_of_locked s thread id id
  · exact entitled_of_locked s thread id id

omit [DecidableEq ι] in
theorem enterRead_entitled {s : Driver ι} {thread : ι} {inInterrupt : Bool} {count : Nat}
    (alone : Alone s (.read thread inInterrupt count)) :
    Entitled s thread (enterRead s inInterrupt count) := by
  have mode := callFlags_dev s inInterrupt
  rw [enterRead]
  dsimp only
  rw [mode]
  split_ifs with polling
  · exact ⟨nofun, nofun, fun _ => alone polling, nofun⟩
  · exact entitled_of_locked s thread id id

theorem Sound.advance {next : Driver ι} {thread : ι} {rhr : UInt8} (sound : Sound sz s)
    (advanced : advance s thread rhr = some next) : Sound sz next := by
  have fits := sound.calls thread
  rw [OmapUart.advance] at advanced
  cases caller : s.callers thread with
  | wrote call | read call => simp [caller] at advanced
  | writeLocking call =>
      rw [caller] at advanced fits
      cases advanced
      exact sound.writeSection fits.1 fits.2
  | readLocking call =>
      rw [caller] at advanced fits
      cases advanced
      exact sound.readSection fits.1 fits.2
  | writePolling call =>
      rw [caller] at advanced
      cases advanced
      exact sound.pollSsr caller
  | writeStoring call b rest =>
      rw [caller] at advanced
      cases advanced
      exact sound.storeThr caller
  | readPolling call =>
      rw [caller] at advanced
      cases advanced
      exact sound.pollLsr caller
  | readFetching call count =>
      rw [caller] at advanced
      cases advanced
      exact sound.fetchRhr caller rhr
  | writeFlushing call =>
      rw [caller] at advanced fits
      cases advanced
      split
      · exact sound.setCaller ⟨fits.1, fun _ => fits.2⟩ (entitled_of_locked s thread id id)
      · exact sound
  | writeDeciding call =>
      rw [caller] at advanced fits
      cases advanced
      split_ifs with goesRound
      · exact sound.setCaller fits (entitled_of_locked s thread id id)
      · refine sound.setCaller ⟨fits.1, fun blocking => ?_⟩ (entitled_of_locked s thread id id)
        by_contra left
        exact goesRound ⟨left, blocking⟩
  | readDeciding call =>
      rw [caller] at advanced fits
      cases advanced
      split_ifs with goesRound
      · exact sound.setCaller fits (entitled_of_locked s thread id id)
      · refine sound.setCaller ⟨fits.1, fun blocking => ?_⟩ (entitled_of_locked s thread id id)
        by_contra left
        exact goesRound ⟨left, blocking⟩

theorem Sound.enter {next : Driver ι} {thread : ι} {caller : Caller} (sound : Sound sz s)
    (fits : caller.Fits s.flags s.accepted s.delivered thread) (entitled : Entitled s thread caller)
    (entered : enter s thread caller = some next) : Sound sz next := by
  rw [OmapUart.enter] at entered
  split at entered
  · cases entered
    exact sound.setCaller fits entitled
  · cases entered
    exact sound.setCaller fits entitled
  · cases entered

theorem Sound.step {next : Driver ι} {event : Event ι} (sound : Sound sz s) (alone : Alone s event)
    (stepped : step s event = some next) : Sound sz next := by
  cases event with
  | write thread inInterrupt vbuffer =>
      exact sound.enter (enterWrite_fits s thread inInterrupt vbuffer) (enterWrite_entitled alone)
        (Option.ite_none_right_eq_some.mp stepped).2
  | read thread inInterrupt count =>
      exact sound.enter (enterRead_fits s thread inInterrupt count) (enterRead_entitled alone)
        (Option.ite_none_right_eq_some.mp stepped).2
  | advance thread rhr => exact sound.advance (Option.ite_none_right_eq_some.mp stepped).2
  | irq iir =>
      rcases Option.ite_none_right_eq_some.mp stepped with ⟨⟨_, reported⟩, result⟩
      cases result
      exact sound.irq reported
  | turn =>
      rw [OmapUart.step] at stepped
      split at stepped
      · cases stepped
      · cases stepped
        exact sound.sendTurn
      · next isReceiving =>
          cases stepped
          exact sound.receiveTurn isReceiving
  | shift =>
      rw [OmapUart.step] at stepped
      split at stepped
      · cases stepped
      · next b txFifo isFifo =>
          cases stepped
          exact sound.shift isFifo
  | arrive b =>
      rcases Option.ite_none_right_eq_some.mp stepped with ⟨_, result⟩
      cases result
      exact sound.arrive b

theorem sound_opened (readBp writeBp : Nat) (sz : UInt16) (readMemory writeMemory : Memory)
    (flags : UInt32) :
    Sound sz (opened readBp writeBp sz readMemory writeMemory flags : Driver ι) where
  readWell := wellFormed_empty readBp sz
  writeWell := wellFormed_empty writeBp sz
  size := rfl
  ordered := rfl
  enabled := fun pending => absurd rfl pending
  received := rfl
  sublist := List.nil_sublist _
  counted := rfl
  full := nofun
  taken := rfl
  polled := fun polling => ⟨rfl, rfl, decide_eq_false polling, nofun⟩
  calls := fun thread => ⟨Reading.Follows.fresh _ thread flags 0, fun _ => rfl⟩
  ssr := ⟨nofun, nofun⟩
  lsr := ⟨nofun, nofun⟩

/-- So it holds wherever a run leads in which no two polled calls meet. -/
theorem sound_of_run {readBp writeBp : Nat} {readMemory writeMemory : Memory} {flags : UInt32}
    {events : List (Event ι)}
    (alone : Transition.StepsMeet step Alone
      (opened readBp writeBp sz readMemory writeMemory flags) events)
    (reaches : Transition.run step (opened readBp writeBp sz readMemory writeMemory flags) events =
      some s) :
    Sound sz s :=
  Transition.invariant_of_stepsMeet
    (fun _s _event _next sound alone stepped => sound.step alone stepped)
    (sound_opened readBp writeBp sz readMemory writeMemory flags) alone reaches

/-- In every state that any interleaving of threads, handler turns and
hardware reaches, calls of one direction on the development console one after
the other: bytes are sent in the order in which they were accepted, and none
is forgotten while it waits, since the interrupt is enabled then; the bytes
that were read from `RHR` are the arrived ones in order, those that the queue
took are all of them but for the counted losses, each at a full queue; the
readers got these in order; and each call has accepted or stored a contiguous
part of them, all it was given or asked for if it blocks and has returned. -/
theorem serial_bytes_keep_order (readBp writeBp : Nat) (sz : UInt16)
    (readMemory writeMemory : Memory) (flags : UInt32) (events : List (Event ι)) (s : Driver ι)
    (alone : Transition.StepsMeet step Alone
      (opened readBp writeBp sz readMemory writeMemory flags) events)
    (reaches : Transition.run step (opened readBp writeBp sz readMemory writeMemory flags) events =
      some s) :
    s.sent ++ s.txFifo ++ held s.writeBuffer s.writeMemory = s.accepted.map Prod.snd ∧
      (held s.writeBuffer s.writeMemory ≠ [] → s.thrIt = true) ∧
      s.fetched ++ s.rxFifo = s.arrived ∧
      s.stored.Sublist s.fetched ∧ s.fetched.length = s.stored.length + s.losses.length ∧
      (∀ load ∈ s.losses, load = sz.toNat) ∧
      s.delivered.map Prod.snd ++ held s.readBuffer s.readMemory = s.stored ∧
      ∀ thread, (s.callers thread).Fits s.flags s.accepted s.delivered thread := by
  have sound : Sound sz s := sound_of_run alone reaches
  exact ⟨sound.ordered, sound.enabled, sound.received, sound.sublist, sound.counted, sound.full,
    sound.taken, sound.calls⟩

end Threads

/-- One thread writes and another one reads, while two bytes arrive and the
handler sends and receives. -/
def bothDirections : List (Event Bool) :=
  [.write true false [65, 66, 67], .advance true 0, .irq 2, .turn, .arrive 7, .turn, .shift,
    .turn, .turn,
    .advance true 0, .irq 4, .turn, .arrive 8, .turn, .turn, .read false false 2, .advance false 0,
    .advance false 0]

/-- A port of the BeagleBoard with queues of a page. -/
def beagleboard : Driver Bool :=
  opened 0x80500000 0x80501000 4096 (fun _address => 0) (fun _address => 0) 2

theorem bothDirections_run : (Transition.run step beagleboard bothDirections).isSome = true := by
  decide +kernel

def bothDone : Driver Bool :=
  (Transition.run step beagleboard bothDirections).get bothDirections_run

theorem bothDirections_alone : Transition.StepsMeet step Alone beagleboard bothDirections := by
  decide +kernel

theorem serial_bytes_keep_order_bothDone :
    bothDone.sent ++ bothDone.txFifo ++ held bothDone.writeBuffer bothDone.writeMemory =
        bothDone.accepted.map Prod.snd ∧
      (held bothDone.writeBuffer bothDone.writeMemory ≠ [] → bothDone.thrIt = true) ∧
      bothDone.fetched ++ bothDone.rxFifo = bothDone.arrived ∧
      bothDone.stored.Sublist bothDone.fetched ∧
      bothDone.fetched.length = bothDone.stored.length + bothDone.losses.length ∧
      (∀ load ∈ bothDone.losses, load = 4096) ∧
      bothDone.delivered.map Prod.snd ++ held bothDone.readBuffer bothDone.readMemory =
        bothDone.stored ∧
      ∀ thread, (bothDone.callers thread).Fits bothDone.flags bothDone.accepted
        bothDone.delivered thread :=
  serial_bytes_keep_order 0x80500000 0x80501000 4096 (fun _address => 0)
    (fun _address => 0) 2 bothDirections
    bothDone bothDirections_alone (Option.some_get bothDirections_run).symm

end OmapUart
end ShovelOS
