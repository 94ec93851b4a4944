import ShovelOS.Fifo.PacketBuffer
import ShovelOS.Fifo.Queue
import ShovelOS.Library.Transition

namespace ShovelOS
namespace Fifo

open RingBuffer

/-!
# The packet queue refines a bounded queue of packets

A writer locks the queue, stores bytes into the packet that it has been
given, and releases or cancels.  A reader does the same, but looks at the
packet.  One flag is the lock of both sides.  Callers keep to the protocol:
only the holder of the lock releases or cancels, on its own side, and only
a writer stores, inside its packet.  All other memory may change at any time.

The queue that is refined knows nothing of rings and memory.  A packet is
what its writer has stored, at some offsets and not at others.
-/

/-! ## The calls -/

def packetFifoSize (buffer : PacketFifo) : Int := buffer.rsz.toNat

/-- `packet_fifo_write_lock`; the pointer is what the caller's variable holds
afterwards. -/
def packetFifoWriteLock (buffer : PacketFifo) (packet : Nat) : Int × PacketFifo × Nat :=
  if buffer.flags &&& locked = 0 ∧ buffer.wsz ≠ 0 then
    (fifoPacketSuccess, { buffer with flags := buffer.flags ||| locked },
      buffer.array buffer.wi.toNat)
  else (fifoPacketFailure, buffer, packet)

def packetFifoWriteCancel (buffer : PacketFifo) : Int × PacketFifo :=
  (fifoPacketSuccess, { buffer with flags := buffer.flags &&& ~~~locked })

def packetFifoWriteRelease (buffer : PacketFifo) : Int × PacketFifo :=
  let wi := buffer.wi + 1
  let wi := if wi = buffer.sz then 0 else wi
  (fifoPacketSuccess,
    { buffer with
      wi := wi, wsz := buffer.wsz - 1, rsz := buffer.rsz + 1, flags := buffer.flags &&& ~~~locked })

def packetFifoReadLock (buffer : PacketFifo) (packet : Nat) : Int × PacketFifo × Nat :=
  if buffer.flags &&& locked = 0 ∧ buffer.rsz ≠ 0 then
    (fifoPacketSuccess, { buffer with flags := buffer.flags ||| locked },
      buffer.array buffer.ri.toNat)
  else (fifoPacketFailure, buffer, packet)

def packetFifoReadCancel (buffer : PacketFifo) : Int × PacketFifo :=
  (fifoPacketSuccess, { buffer with flags := buffer.flags &&& ~~~locked })

def packetFifoReadRelease (buffer : PacketFifo) : Int × PacketFifo :=
  let ri := buffer.ri + 1
  let ri := if ri = buffer.sz then 0 else ri
  (fifoPacketSuccess,
    { buffer with
      ri := ri, rsz := buffer.rsz - 1, wsz := buffer.wsz + 1, flags := buffer.flags &&& ~~~locked })

/-! ## Runs -/

/-- A call of the queue, a byte that the writer stores into its packet, or
one that anything stores outside the packets. -/
inductive PacketCall where
  | writeLock
  | store (offset : Nat) (b : UInt8)
  | writeCancel
  | writeRelease
  | readLock
  | readCancel
  | readRelease
  | other (address : Nat) (b : UInt8)

inductive Side where
  | write
  | read
  deriving DecidableEq

/-- The queue and the bytes of memory, with what the callers have seen: the
pointer of the last successful lock, and its side while they hold it. -/
structure PacketRun where
  buffer : PacketFifo
  memory : Memory
  packet : Nat
  holder : Option Side

def OutsidePackets (packetSize : Nat) (buffer : PacketFifo) (address : Nat) : Prop :=
  ∀ i < buffer.sz.toNat, address < buffer.array i ∨ buffer.array i + packetSize ≤ address

instance OutsidePackets.decidable (packetSize : Nat) (buffer : PacketFifo) (address : Nat) :
    Decidable (OutsidePackets packetSize buffer address) :=
  inferInstanceAs (Decidable (∀ i < buffer.sz.toNat, _))

namespace PacketRun

/-- One step of callers that keep to the protocol. -/
def step (packetSize : Nat) (s : PacketRun) : PacketCall → Option PacketRun
  | .writeLock =>
      let (ret, buffer, packet) := packetFifoWriteLock s.buffer s.packet
      some ⟨buffer, s.memory, packet, if ret = fifoPacketSuccess then some .write else s.holder⟩
  | .store offset b =>
      if s.holder = some .write ∧ offset < packetSize then
        some { s with memory := Function.update s.memory (s.packet + offset) b }
      else none
  | .writeCancel =>
      if s.holder = some .write then
        some { s with buffer := (packetFifoWriteCancel s.buffer).2, holder := none }
      else none
  | .writeRelease =>
      if s.holder = some .write then
        some { s with buffer := (packetFifoWriteRelease s.buffer).2, holder := none }
      else none
  | .readLock =>
      let (ret, buffer, packet) := packetFifoReadLock s.buffer s.packet
      some ⟨buffer, s.memory, packet, if ret = fifoPacketSuccess then some .read else s.holder⟩
  | .readCancel =>
      if s.holder = some .read then
        some { s with buffer := (packetFifoReadCancel s.buffer).2, holder := none }
      else none
  | .readRelease =>
      if s.holder = some .read then
        some { s with buffer := (packetFifoReadRelease s.buffer).2, holder := none }
      else none
  | .other address b =>
      if OutsidePackets packetSize s.buffer address then
        some { s with memory := Function.update s.memory address b }
      else none

/-- A queue as `packet_fifo_create` leaves it. -/
def created (bp : Nat) (array : Nat → Nat) (packetSize packets : Nat) (memory : Memory) :
    PacketRun where
  buffer :=
    { bp := bp
      array := array
      flags := 0
      ri := 0
      wi := 0
      sz := UInt16.ofNat packets
      rsz := 0
      wsz := UInt16.ofNat packets
      plen := UInt16.ofNat packetSize }
  memory := memory
  packet := 0
  holder := none

end PacketRun

/-! ## The queue that is refined -/

/-- What a writer has stored: a byte at some offsets, the last one that
counts. -/
abbrev Packet : Type := Nat → Option UInt8

/-- Who holds the lock; a writer with what it has stored so far. -/
inductive Lock where
  | free
  | writer (packet : Packet)
  | reader

/-- The released packets that have not been given up, the oldest first, and
the lock. -/
structure PacketQueue where
  queue : List Packet
  lock : Lock

namespace PacketQueue

def empty : PacketQueue := ⟨[], .free⟩

/-- A bounded queue of packets under one lock. -/
def step (capacity : Nat) (q : PacketQueue) : PacketCall → Option PacketQueue
  | .writeLock =>
      match q.lock with
      | .free =>
          if q.queue.length < capacity then some { q with lock := .writer fun _offset => none }
          else some q
      | _ => some q
  | .store offset b =>
      match q.lock with
      | .writer packet => some { q with lock := .writer (Function.update packet offset (some b)) }
      | _ => none
  | .writeCancel =>
      match q.lock with
      | .writer _packet => some { q with lock := .free }
      | _ => none
  | .writeRelease =>
      match q.lock with
      | .writer packet => some ⟨q.queue ++ [packet], .free⟩
      | _ => none
  | .readLock =>
      match q.lock, q.queue with
      | .free, _first :: _rest => some { q with lock := .reader }
      | _, _ => some q
  | .readCancel =>
      match q.lock with
      | .reader => some { q with lock := .free }
      | _ => none
  | .readRelease =>
      match q.lock with
      | .reader => some ⟨q.queue.tail, .free⟩
      | _ => none
  | .other _address _b => some q

end PacketQueue

/-! ## The queue in the ring -/

theorem packetFifoWriteLock_success_iff (buffer : PacketFifo) (packet : Nat) :
    (packetFifoWriteLock buffer packet).1 = fifoPacketSuccess ↔
      buffer.flags &&& locked = 0 ∧ buffer.wsz ≠ 0 := by
  unfold packetFifoWriteLock
  split
  · rename_i succeeds
    exact iff_of_true rfl succeeds
  · rename_i fails
    exact iff_of_false (show ¬ fifoPacketFailure = fifoPacketSuccess by decide) fails

theorem packetFifoReadLock_success_iff (buffer : PacketFifo) (packet : Nat) :
    (packetFifoReadLock buffer packet).1 = fifoPacketSuccess ↔
      buffer.flags &&& locked = 0 ∧ buffer.rsz ≠ 0 := by
  unfold packetFifoReadLock
  split
  · rename_i succeeds
    exact iff_of_true rfl succeeds
  · rename_i fails
    exact iff_of_false (show ¬ fifoPacketFailure = fifoPacketSuccess by decide) fails

/-- The memory at the pointer holds what has been stored into the packet. -/
def Holds (packetSize : Nat) (memory : Memory) (pointer : Nat) (packet : Packet) : Prop :=
  ∀ offset < packetSize, ∀ b, packet offset = some b → memory (pointer + offset) = b

def PacketsApart (packetSize packets : Nat) (array : Nat → Nat) : Prop :=
  ∀ i < packets, ∀ j < packets, i ≠ j →
    array i + packetSize ≤ array j ∨ array j + packetSize ≤ array i

/-- The indices and counters, which are those of a byte queue. -/
def PacketFifo.ring (buffer : PacketFifo) : FifoBuffer :=
  ⟨buffer.bp, buffer.ri, buffer.wi, buffer.sz, buffer.rsz, buffer.wsz⟩

/-- The pointers of the packets that can be read, in the order in which they
will be. -/
def slots (buffer : PacketFifo) : List Nat :=
  contents buffer.array buffer.sz.toNat buffer.ri.toNat buffer.rsz.toNat

variable {packetSize : Nat} {buffer : PacketFifo} {memory : Memory}

theorem Holds.nothing (packetSize : Nat) (memory : Memory) (pointer : Nat) :
    Holds packetSize memory pointer fun _offset => none := by
  intro _offset _inPacket _b stored
  cases stored

/-- A byte outside a packet does not change what it holds. -/
theorem Holds.update_outside {pointer address : Nat} {packet : Packet} (b : UInt8)
    (outside : address < pointer ∨ pointer + packetSize ≤ address)
    (holds : Holds packetSize memory pointer packet) :
    Holds packetSize (Function.update memory address b) pointer packet := by
  intro offset inPacket stored isStored
  rw [Function.update_of_ne (by omega)]
  exact holds offset inPacket stored isStored

/-- A byte that is stored is held from then on. -/
theorem Holds.store {pointer : Nat} {packet : Packet} (offset : Nat) (b : UInt8)
    (holds : Holds packetSize memory pointer packet) :
    Holds packetSize (Function.update memory (pointer + offset) b) pointer
      (Function.update packet offset (some b)) := by
  intro other inPacket stored isStored
  by_cases same : other = offset
  · rw [same, Function.update_self] at isStored
    rw [same, Function.update_self]
    exact Option.some.inj isStored
  · rw [Function.update_of_ne same] at isStored
    rw [Function.update_of_ne fun equal => same (Nat.add_left_cancel equal)]
    exact holds other inPacket stored isStored

/-- A byte outside all packets changes none of them. -/
theorem holds_update_outside {address : Nat} (b : UInt8) {pointers : List Nat} {queue : List Packet}
    (outside : ∀ pointer ∈ pointers, address < pointer ∨ pointer + packetSize ≤ address)
    (holds : List.Forall₂ (Holds packetSize memory) pointers queue) :
    List.Forall₂ (Holds packetSize (Function.update memory address b)) pointers queue := by
  induction holds with
  | nil => exact List.Forall₂.nil
  | cons first rest inductionHypothesis =>
      rw [List.forall_mem_cons] at outside
      exact List.Forall₂.cons (first.update_outside b outside.1) (inductionHypothesis outside.2)

/-- A pointer that can be read is in the array. -/
theorem exists_index_of_mem_slots {pointer : Nat} (isSlot : pointer ∈ slots buffer) :
    ∃ i < buffer.rsz.toNat, pointer = buffer.array ((buffer.ri.toNat + i) % buffer.sz.toNat) := by
  rcases List.mem_map.mp isSlot with ⟨i, inRange, rfl⟩
  exact ⟨i, List.mem_range.mp inRange, rfl⟩

/-- A release of the writer appends its packet. -/
theorem slots_writeRelease (wellFormed : WellFormed buffer.ring)
    (room : buffer.rsz.toNat < buffer.sz.toNat) :
    slots (packetFifoWriteRelease buffer).2 = slots buffer ++ [buffer.array buffer.wi.toNat] := by
  have index : buffer.wi.toNat = (buffer.ri.toNat + buffer.rsz.toNat) % buffer.sz.toNat :=
    wellFormed.wi_eq
  change contents buffer.array buffer.sz.toNat buffer.ri.toNat (buffer.rsz + 1).toNat = _
  rw [toNat_succ buffer.sz.toNat_lt room, contents_succ, index]
  rfl

/-- A release of the reader gives up the oldest packet. -/
theorem slots_readRelease (wellFormed : WellFormed buffer.ring) (readable : buffer.rsz ≠ 0) :
    slots buffer = buffer.array buffer.ri.toNat :: slots (packetFifoReadRelease buffer).2 :=
  wellFormed.contents_eq_cons readable buffer.array

/-- The packet that is written overlaps none that can be read. -/
theorem wi_apart (wellFormed : WellFormed buffer.ring) (room : buffer.rsz.toNat < buffer.sz.toNat)
    (apart : PacketsApart packetSize buffer.sz.toNat buffer.array) {pointer : Nat}
    (isSlot : pointer ∈ slots buffer) :
    buffer.array buffer.wi.toNat + packetSize ≤ pointer ∨
      pointer + packetSize ≤ buffer.array buffer.wi.toNat := by
  rcases exists_index_of_mem_slots isSlot with ⟨i, below, rfl⟩
  have index : buffer.wi.toNat = (buffer.ri.toNat + buffer.rsz.toNat) % buffer.sz.toNat :=
    wellFormed.wi_eq
  have positive : 0 < buffer.sz.toNat := Nat.lt_of_le_of_lt (Nat.zero_le _) room
  rw [index]
  exact apart _ (Nat.mod_lt _ positive) _ (Nat.mod_lt _ positive) (behind_ne room below).symm

/-! ## The refinement -/

/-- Who holds the lock, and the packet that a writer holds. -/
def Locks (packetSize : Nat) (s : PacketRun) : Lock → Prop
  | .free => s.buffer.flags = 0 ∧ s.holder = none
  | .writer packet => s.buffer.flags = locked ∧ s.holder = some .write ∧
      s.buffer.rsz.toNat < s.buffer.sz.toNat ∧ s.packet = s.buffer.array s.buffer.wi.toNat ∧
      Holds packetSize s.memory s.packet packet
  | .reader => s.buffer.flags = locked ∧ s.holder = some .read ∧ s.buffer.rsz ≠ 0 ∧
      s.packet = s.buffer.array s.buffer.ri.toNat

/-- The ring holds the queue, packet by packet. -/
structure RepresentsPackets (packetSize : Nat) (array : Nat → Nat) (packets : Nat) (s : PacketRun)
    (q : PacketQueue) : Prop where
  array : s.buffer.array = array
  size : s.buffer.sz.toNat = packets
  wellFormed : WellFormed s.buffer.ring
  queue : List.Forall₂ (Holds packetSize s.memory) (slots s.buffer) q.queue
  lock : Locks packetSize s q.lock

variable {array : Nat → Nat} {packets : Nat} {s : PacketRun} {q : PacketQueue}

namespace RepresentsPackets

theorem length_queue (represents : RepresentsPackets packetSize array packets s q) :
    s.buffer.rsz.toNat = q.queue.length :=
  (length_contents _ _ _ _).symm.trans represents.queue.length_eq

theorem free_iff (represents : RepresentsPackets packetSize array packets s q) :
    s.buffer.flags &&& locked = 0 ↔ q.lock = .free := by
  have lock := represents.lock
  cases isLock : q.lock with
  | free =>
      rw [isLock] at lock
      rw [lock.1]
      exact iff_of_true rfl rfl
  | writer packet =>
      rw [isLock] at lock
      rw [lock.1]
      exact iff_of_false (by decide) Lock.noConfusion
  | reader =>
      rw [isLock] at lock
      rw [lock.1]
      exact iff_of_false (by decide) Lock.noConfusion

/-- A writer gets the lock exactly when nobody has it and there is room. -/
theorem writeLock_iff (represents : RepresentsPackets packetSize array packets s q) :
    (s.buffer.flags &&& locked = 0 ∧ s.buffer.wsz ≠ 0) ↔ q.lock = .free ∧
      q.queue.length < packets := by
  have room : s.buffer.wsz ≠ 0 ↔ s.buffer.rsz.toNat < s.buffer.sz.toNat :=
    represents.wellFormed.room_iff
  rw [represents.free_iff, room, represents.size, represents.length_queue]

/-- A reader gets the lock exactly when nobody has it and there is a packet. -/
theorem readLock_iff (represents : RepresentsPackets packetSize array packets s q) :
    (s.buffer.flags &&& locked = 0 ∧ s.buffer.rsz ≠ 0) ↔ q.lock = .free ∧ q.queue ≠ [] := by
  have zero : s.buffer.rsz = 0 ↔ s.buffer.rsz.toNat = 0 := UInt16.toNat_inj.symm
  rw [represents.free_iff, Ne, zero, represents.length_queue, List.length_eq_zero_iff]

theorem writeLock (represents : RepresentsPackets packetSize array packets s q) {s' : PacketRun}
    (stepped : s.step packetSize .writeLock = some s') :
    ∃ q', q.step packets .writeLock = some q' ∧
      RepresentsPackets packetSize array packets s' q' := by
  unfold PacketRun.step packetFifoWriteLock at stepped
  dsimp only at stepped
  by_cases succeeds : s.buffer.flags &&& locked = 0 ∧ s.buffer.wsz ≠ 0
  · rw [if_pos succeeds] at stepped
    cases stepped
    rcases represents.writeLock_iff.mp succeeds with ⟨isFree, room⟩
    have lock := represents.lock
    rw [isFree] at lock
    refine ⟨{ q with lock := .writer fun _offset => none }, ?_, represents.array, represents.size,
      represents.wellFormed, represents.queue, ?_, rfl, ?_, rfl, Holds.nothing _ _ _⟩
    · unfold PacketQueue.step
      rw [isFree]
      exact if_pos room
    · dsimp only
      rw [lock.1]
      rfl
    · exact represents.wellFormed.room_iff.mp succeeds.2
  · rw [if_neg succeeds] at stepped
    cases stepped
    refine ⟨q, ?_, represents⟩
    have fails := fun both => succeeds (represents.writeLock_iff.mpr both)
    unfold PacketQueue.step
    cases isLock : q.lock with
    | free => exact if_neg fun room => fails ⟨isLock, room⟩
    | writer packet => rfl
    | reader => rfl

theorem readLock (represents : RepresentsPackets packetSize array packets s q) {s' : PacketRun}
    (stepped : s.step packetSize .readLock = some s') :
    ∃ q', q.step packets .readLock = some q' ∧
      RepresentsPackets packetSize array packets s' q' := by
  unfold PacketRun.step packetFifoReadLock at stepped
  dsimp only at stepped
  by_cases succeeds : s.buffer.flags &&& locked = 0 ∧ s.buffer.rsz ≠ 0
  · rw [if_pos succeeds] at stepped
    cases stepped
    rcases represents.readLock_iff.mp succeeds with ⟨isFree, nonempty⟩
    have lock := represents.lock
    rw [isFree] at lock
    refine ⟨{ q with lock := .reader }, ?_, represents.array, represents.size,
      represents.wellFormed, represents.queue, ?_, rfl, succeeds.2, rfl⟩
    · rcases List.exists_cons_of_ne_nil nonempty with ⟨first, rest, isCons⟩
      unfold PacketQueue.step
      rw [isFree, isCons]
    · dsimp only
      rw [lock.1]
      rfl
  · rw [if_neg succeeds] at stepped
    cases stepped
    refine ⟨q, ?_, represents⟩
    have fails := fun both => succeeds (represents.readLock_iff.mpr both)
    unfold PacketQueue.step
    cases isLock : q.lock with
    | free =>
        cases isQueue : q.queue with
        | nil => rfl
        | cons first rest =>
            exact absurd ⟨isLock, isQueue ▸ List.cons_ne_nil first rest⟩ fails
    | writer packet => rfl
    | reader => rfl

/-- The lock is held on the side that the callers know of. -/
theorem isWriter (represents : RepresentsPackets packetSize array packets s q)
    (isHolder : s.holder = some .write) :
    ∃ packet, q.lock = .writer packet := by
  have lock := represents.lock
  cases isLock : q.lock with
  | free =>
      rw [isLock] at lock
      rw [lock.2] at isHolder
      cases isHolder
  | writer packet => exact ⟨packet, rfl⟩
  | reader =>
      rw [isLock] at lock
      rw [lock.2.1] at isHolder
      cases isHolder

theorem isReader (represents : RepresentsPackets packetSize array packets s q)
    (isHolder : s.holder = some .read) :
    q.lock = .reader := by
  have lock := represents.lock
  cases isLock : q.lock with
  | free =>
      rw [isLock] at lock
      rw [lock.2] at isHolder
      cases isHolder
  | writer packet =>
      rw [isLock] at lock
      rw [lock.2.1] at isHolder
      cases isHolder
  | reader => rfl

/-- A byte in the locked packet is in none that can be read. -/
theorem store (apart : PacketsApart packetSize packets array)
    (represents : RepresentsPackets packetSize array packets s q) {s' : PacketRun} {offset : Nat}
    {b : UInt8} (stepped : s.step packetSize (.store offset b) = some s') :
    ∃ q', q.step packets (.store offset b) = some q' ∧
      RepresentsPackets packetSize array packets s' q' := by
  unfold PacketRun.step at stepped
  dsimp only at stepped
  split at stepped
  · rename_i enabled
    cases stepped
    rcases represents.isWriter enabled.1 with ⟨packet, isLock⟩
    have lock := represents.lock
    rw [isLock] at lock
    rcases lock with ⟨flags, holder, room, pointer, holds⟩
    refine ⟨{ q with lock := .writer (Function.update packet offset (some b)) }, ?_,
      represents.array,
      represents.size, represents.wellFormed, ?_, flags, holder, room, pointer,
      holds.store offset b⟩
    · unfold PacketQueue.step
      rw [isLock]
    · rw [← represents.array, ← represents.size] at apart
      refine holds_update_outside b (fun other isSlot => ?_) represents.queue
      have away := wi_apart represents.wellFormed room apart isSlot
      rw [← pointer] at away
      have inPacket := enabled.2
      omega
  · cases stepped

/-- A byte outside the packets is in none of them. -/
theorem other (represents : RepresentsPackets packetSize array packets s q) {s' : PacketRun}
    {address : Nat} {b : UInt8} (stepped : s.step packetSize (.other address b) = some s') :
    ∃ q', q.step packets (.other address b) = some q' ∧
      RepresentsPackets packetSize array packets s' q' := by
  unfold PacketRun.step at stepped
  dsimp only at stepped
  split at stepped
  · rename_i outside
    cases stepped
    refine ⟨q, rfl, represents.array, represents.size, represents.wellFormed, ?_, ?_⟩
    · refine holds_update_outside b (fun pointer isSlot => ?_) represents.queue
      rcases exists_index_of_mem_slots isSlot with ⟨i, inQueue, rfl⟩
      have below : i < s.buffer.rsz.toNat := inQueue
      have sizes : s.buffer.rsz.toNat + s.buffer.wsz.toNat = s.buffer.sz.toNat :=
        represents.wellFormed.sizes
      have positive : 0 < s.buffer.sz.toNat := by omega
      exact outside _ (Nat.mod_lt _ positive)
    · have lock := represents.lock
      cases isLock : q.lock with
      | free =>
          rw [isLock] at lock
          exact lock
      | writer packet =>
          rw [isLock] at lock
          rcases lock with ⟨flags, holder, room, pointer, holds⟩
          refine ⟨flags, holder, room, pointer, holds.update_outside b ?_⟩
          rw [pointer]
          exact outside _ (represents.wellFormed.wi_lt (Nat.lt_of_le_of_lt (Nat.zero_le _) room))
      | reader =>
          rw [isLock] at lock
          exact lock
  · cases stepped

/-- A writer that cancels leaves the queue as it is. -/
theorem writeCancel (represents : RepresentsPackets packetSize array packets s q) {s' : PacketRun}
    (stepped : s.step packetSize .writeCancel = some s') :
    ∃ q', q.step packets .writeCancel = some q' ∧
      RepresentsPackets packetSize array packets s' q' := by
  unfold PacketRun.step at stepped
  dsimp only at stepped
  split at stepped
  · rename_i enabled
    cases stepped
    rcases represents.isWriter enabled with ⟨packet, isLock⟩
    have lock := represents.lock
    rw [isLock] at lock
    refine ⟨{ q with lock := .free }, ?_, represents.array, represents.size, represents.wellFormed,
      represents.queue, ?_, rfl⟩
    · unfold PacketQueue.step
      rw [isLock]
    · change s.buffer.flags &&& ~~~locked = 0
      rw [lock.1]
      rfl
  · cases stepped

theorem readCancel (represents : RepresentsPackets packetSize array packets s q) {s' : PacketRun}
    (stepped : s.step packetSize .readCancel = some s') :
    ∃ q', q.step packets .readCancel = some q' ∧
      RepresentsPackets packetSize array packets s' q' := by
  unfold PacketRun.step at stepped
  dsimp only at stepped
  split at stepped
  · rename_i enabled
    cases stepped
    have isLock := represents.isReader enabled
    have lock := represents.lock
    rw [isLock] at lock
    refine ⟨{ q with lock := .free }, ?_, represents.array, represents.size, represents.wellFormed,
      represents.queue, ?_, rfl⟩
    · unfold PacketQueue.step
      rw [isLock]
    · change s.buffer.flags &&& ~~~locked = 0
      rw [lock.1]
      rfl
  · cases stepped

/-- A writer that releases appends what it has stored. -/
theorem writeRelease (represents : RepresentsPackets packetSize array packets s q) {s' : PacketRun}
    (stepped : s.step packetSize .writeRelease = some s') :
    ∃ q', q.step packets .writeRelease = some q' ∧
      RepresentsPackets packetSize array packets s' q' := by
  unfold PacketRun.step at stepped
  dsimp only at stepped
  split at stepped
  · rename_i enabled
    cases stepped
    rcases represents.isWriter enabled with ⟨packet, isLock⟩
    have lock := represents.lock
    rw [isLock] at lock
    rcases lock with ⟨flags, holder, room, pointer, holds⟩
    refine ⟨⟨q.queue ++ [packet], .free⟩, ?_, represents.array, represents.size,
      represents.wellFormed.put (represents.wellFormed.room_iff.mpr room), ?_, ?_, rfl⟩
    · unfold PacketQueue.step
      rw [isLock]
    · dsimp only
      rw [slots_writeRelease represents.wellFormed room, ← pointer]
      exact List.rel_append represents.queue (List.Forall₂.cons holds List.Forall₂.nil)
    · change s.buffer.flags &&& ~~~locked = 0
      rw [flags]
      rfl
  · cases stepped

/-- A reader that releases gives up the oldest packet. -/
theorem readRelease (represents : RepresentsPackets packetSize array packets s q) {s' : PacketRun}
    (stepped : s.step packetSize .readRelease = some s') :
    ∃ q', q.step packets .readRelease = some q' ∧
      RepresentsPackets packetSize array packets s' q' := by
  unfold PacketRun.step at stepped
  dsimp only at stepped
  split at stepped
  · rename_i enabled
    cases stepped
    have isLock := represents.isReader enabled
    have lock := represents.lock
    rw [isLock] at lock
    rcases lock with ⟨flags, holder, readable, pointer⟩
    refine ⟨⟨q.queue.tail, .free⟩, ?_, represents.array, represents.size,
      represents.wellFormed.get readable, ?_, ?_, rfl⟩
    · unfold PacketQueue.step
      rw [isLock]
    · have queue := represents.queue
      rw [slots_readRelease represents.wellFormed readable] at queue
      rcases List.forall₂_cons_left_iff.mp queue with ⟨first, rest, _holds, remains, isCons⟩
      dsimp only
      rw [isCons]
      exact remains
    · change s.buffer.flags &&& ~~~locked = 0
      rw [flags]
      rfl
  · cases stepped

theorem step (apart : PacketsApart packetSize packets array)
    (represents : RepresentsPackets packetSize array packets s q) {call : PacketCall}
    {s' : PacketRun} (stepped : s.step packetSize call = some s') :
    ∃ q', q.step packets call = some q' ∧ RepresentsPackets packetSize array packets s' q' := by
  cases call with
  | writeLock => exact represents.writeLock stepped
  | store offset b => exact represents.store apart stepped
  | writeCancel => exact represents.writeCancel stepped
  | writeRelease => exact represents.writeRelease stepped
  | readLock => exact represents.readLock stepped
  | readCancel => exact represents.readCancel stepped
  | readRelease => exact represents.readRelease stepped
  | other address b => exact represents.other stepped

/-- The oldest packet is where the read index points. -/
theorem oldest (represents : RepresentsPackets packetSize array packets s q)
    (readable : s.buffer.rsz ≠ 0) :
    ∃ first ∈ q.queue.head?,
      Holds packetSize s.memory (s.buffer.array s.buffer.ri.toNat) first := by
  have queue := represents.queue
  rw [slots_readRelease represents.wellFormed readable] at queue
  rcases List.forall₂_cons_left_iff.mp queue with ⟨first, rest, holds, _remains, isCons⟩
  rw [isCons]
  exact ⟨first, rfl, holds⟩

theorem created (bp : Nat) (array : Nat → Nat) (packetSize : Nat) {packets : Nat}
    (fits : packets ≤ 65535) (memory : Memory) :
    RepresentsPackets packetSize array packets
      (PacketRun.created bp array packetSize packets memory)
      PacketQueue.empty where
  array := rfl
  size := Nat.mod_eq_of_lt (Nat.lt_succ_of_le fits)
  wellFormed := wellFormed_empty bp (UInt16.ofNat packets)
  queue := List.Forall₂.nil
  lock := ⟨rfl, rfl⟩

end RepresentsPackets

/-! ## The packets that are obtained -/

section Create

variable {σ : Type*} {m : Machine} {heap : Kmalloc σ} {size : σ → Nat → Nat} {packetSize : Nat}

/-- The first packets of an array are live blocks of their own. -/
structure Obtained (heap : Kmalloc σ) (size : σ → Nat → Nat) (packetSize : Nat) (state : σ)
    (array : Nat → Nat) (count : Nat) : Prop where
  live : ∀ i < count, array i ∈ heap.live state
  sized : ∀ i < count, size state (array i) = packetSize
  distinct : ∀ i < count, ∀ j < count, array i = array j → i = j

theorem Obtained.none (state : σ) (array : Nat → Nat) :
    Obtained heap size packetSize state array 0 :=
  ⟨nofun, nofun, nofun⟩

/-- Another packet is obtained. -/
theorem Obtained.succ (lawful : heap.Lawful) (sized : heap.Sized Prod.fst size) {state : σ}
    {array : Nat → Nat} {count : Nat} (obtained : Obtained heap size packetSize state array count)
    {flags : Nat} (notNull : (heap.malloc state (packetSize, flags)).1 ≠ 0) :
    Obtained heap size packetSize (heap.malloc state (packetSize, flags)).2
      (Function.update array count (heap.malloc state (packetSize, flags)).1) (count + 1) := by
  rcases lawful.granted state (packetSize, flags) notNull with ⟨isNew, live⟩
  have old : ∀ i < count + 1, i ≠ count → i < count ∧
      Function.update array count (heap.malloc state (packetSize, flags)).1 i = array i :=
    fun i below different => ⟨by omega, Function.update_of_ne different _ _⟩
  constructor
  · intro i below
    rw [live]
    by_cases last : i = count
    · rw [last, Function.update_self]
      exact Set.mem_insert _ _
    · rw [(old i below last).2]
      exact Set.mem_insert_of_mem _ (obtained.live i (old i below last).1)
  · intro i below
    by_cases last : i = count
    · rw [last, Function.update_self]
      exact sized.granted state (packetSize, flags) notNull
    · rcases old i below last with ⟨before, same⟩
      rw [same, sized.kept state _ _ (obtained.live i before)]
      exact obtained.sized i before
  · -- The new pointer was not live, and the old ones were.
    have apart : ∀ i < count, array i ≠ (heap.malloc state (packetSize, flags)).1 := by
      intro i below same
      exact isNew (same ▸ obtained.live i below)
    intro i iBelow j jBelow
    by_cases iLast : i = count
    · by_cases jLast : j = count
      · exact fun _same => iLast.trans jLast.symm
      · rw [iLast, Function.update_self, (old j jBelow jLast).2]
        exact fun same => absurd same.symm (apart j (old j jBelow jLast).1)
    · by_cases jLast : j = count
      · rw [jLast, Function.update_self, (old i iBelow iLast).2]
        exact fun same => absurd same (apart i (old i iBelow iLast).1)
      · rw [(old i iBelow iLast).2, (old j jBelow jLast).2]
        exact obtained.distinct i (old i iBelow iLast).1 j (old j jBelow jLast).1

/-- The blocks of live pointers do not overlap, so the packets do not. -/
theorem Obtained.apart (sized : heap.Sized Prod.fst size) {state : σ} {array : Nat → Nat}
    {count : Nat}
    (obtained : Obtained heap size packetSize state array count) :
    PacketsApart packetSize count array := by
  intro i iBelow j jBelow different
  have apart := sized.apart state _ (obtained.live i iBelow) _ (obtained.live j jBelow)
    fun same => different (obtained.distinct i iBelow j jBelow same)
  rwa [obtained.sized i iBelow, obtained.sized j jBelow] at apart

/-- The loop of `packet_fifo_create`, when no packet is refused. -/
theorem createPackets_obtained (lawful : heap.Lawful) (sized : heap.Sized Prod.fst size)
    (turns : Nat) {i : Nat} {buffer filled : PacketFifo} {state after : σ}
    (obtained : Obtained heap size packetSize state buffer.array i)
    (complete : createPackets heap packetSize turns i buffer state = (true, filled, after)) :
    Obtained heap size packetSize after filled.array (i + turns) := by
  induction turns generalizing i buffer state with
  | zero =>
      cases complete
      exact obtained
  | succ turns inductionHypothesis =>
      rw [createPackets] at complete
      dsimp only at complete
      split at complete
      · cases complete
      · next notNull =>
          rw [← Nat.add_assoc, Nat.add_right_comm]
          exact inductionHypothesis (obtained.succ lawful sized notNull) complete

/-- What a successful `packet_fifo_create` leaves is where the runs start, and
its packets do not overlap since `kmalloc` keeps live blocks apart. -/
theorem packetFifoCreate_created (lawful : heap.Lawful) (sized : heap.Sized Prod.fst size)
    {buffer created : PacketFifo} {packets : Nat} {state after : σ} {pointers : List Nat}
    (success : packetFifoCreate m heap buffer packetSize packets state =
      (fifoPacketSuccess, created, after, pointers)) (memory : Memory) :
    created = (PacketRun.created created.bp created.array packetSize packets memory).buffer ∧
      PacketsApart packetSize packets created.array := by
  rw [packetFifoCreate] at success
  dsimp only at success
  split at success
  · cases success
  · generalize loop : createPackets heap packetSize packets 0 _ _ = result at success
    rcases result with ⟨complete, filled, state'⟩
    cases complete with
    | false => cases success
    | true =>
        have obtained := createPackets_obtained lawful sized packets (Obtained.none _ _) loop
        rw [Nat.zero_add] at obtained
        cases success
        exact ⟨rfl, obtained.apart sized⟩

end Create

/-! ## Every run -/

/-- For every run of callers that keep to the protocol there is the same run
of a bounded queue.  In every state it reaches, a writer gets the lock
exactly when nobody has it and fewer packets are queued than there are, a
reader exactly when nobody has it and a packet is queued.  The reader is
given the oldest packet with the bytes that its writer has stored, and they
stay until the reader gives the packet up. -/
theorem packet_fifo_refines_queue {packets packetSize : Nat} (fits : packets ≤ 65535)
    (bp : Nat) {array : Nat → Nat} (apart : PacketsApart packetSize packets array) (memory : Memory)
    (calls : List PacketCall) (s : PacketRun)
    (reached : Transition.run (PacketRun.step packetSize)
      (PacketRun.created bp array packetSize packets memory) calls = some s) :
    ∃ q, Transition.run (PacketQueue.step packets) PacketQueue.empty calls = some q ∧
      ((packetFifoWriteLock s.buffer s.packet).1 = fifoPacketSuccess ↔
        q.lock = .free ∧ q.queue.length < packets) ∧
      ((packetFifoReadLock s.buffer s.packet).1 = fifoPacketSuccess ↔ q.lock = .free ∧
      q.queue ≠ []) ∧
      ((packetFifoReadLock s.buffer s.packet).1 = fifoPacketSuccess →
        ∃ first ∈ q.queue.head?,
          Holds packetSize s.memory (packetFifoReadLock s.buffer s.packet).2.2 first) ∧
      (q.lock = .reader → ∃ first ∈ q.queue.head?, Holds packetSize s.memory s.packet first) ∧
      (s.buffer.flags &&& locked = 0 ↔ q.lock = .free) ∧
      packetFifoSize s.buffer = q.queue.length ∧
      s.buffer.rsz.toNat + s.buffer.wsz.toNat = s.buffer.sz.toNat ∧
      s.buffer.sz.toNat = packets := by
  have start := RepresentsPackets.created bp array packetSize fits memory
  rcases Transition.run_simulates (fun _state _specState _call _next represents stepped =>
    represents.step apart stepped) start reached with ⟨q, specReached, represents⟩
  refine ⟨q, specReached, ?_, ?_, ?_, ?_, represents.free_iff, ?_, represents.wellFormed.sizes,
    represents.size⟩
  · rw [packetFifoWriteLock_success_iff]
    exact represents.writeLock_iff
  · rw [packetFifoReadLock_success_iff]
    exact represents.readLock_iff
  · intro success
    have readable := (packetFifoReadLock_success_iff s.buffer s.packet).mp success
    rw [packetFifoReadLock, if_pos readable]
    exact represents.oldest readable.2
  · intro isLock
    have lock := represents.lock
    rw [isLock] at lock
    rw [lock.2.2.2]
    exact represents.oldest lock.2.2.1
  · exact congrArg Int.ofNat represents.length_queue

/-- Two packets of two bytes: one has been written, and is being read. -/
theorem packet_fifo_refines_queue_twoPackets :
    ∃ s q, Transition.run (PacketRun.step 2)
        (PacketRun.created 4096 (fun i => 4160 + 64 * i) 2 2 fun _address => 0)
        [.writeLock, .store 0 7, .store 1 8, .writeRelease, .readLock] = some s ∧
      Transition.run (PacketQueue.step 2) PacketQueue.empty
        [.writeLock, .store 0 7, .store 1 8, .writeRelease, .readLock] = some q ∧
      (q.lock = .reader → ∃ first ∈ q.queue.head?, Holds 2 s.memory s.packet first) ∧
      packetFifoSize s.buffer = q.queue.length := by
  have apart : PacketsApart 2 2 fun i => 4160 + 64 * i := by
    unfold PacketsApart
    decide
  rcases packet_fifo_refines_queue (show 2 ≤ 65535 by decide) 4096 apart (fun _address => 0)
    [.writeLock, .store 0 7, .store 1 8, .writeRelease, .readLock] _ rfl with
    ⟨q, specReached, _, _, _, reading, _, size, _⟩
  exact ⟨_, q, rfl, specReached, reading, size⟩

end Fifo
end ShovelOS
