import ShovelOS.Machine
import ShovelOS.Library.RingBuffer

namespace ShovelOS
namespace Fifo

open RingBuffer

/-!
# The byte queue (`memory/fifo_buffer.c`)

A queue of bytes in a ring of memory.  Two indices say where the next byte
is read and written, and two counters say how many bytes can be read and
written.  All four and the size are 16-bit numbers.  The bytes are in memory
that the base pointer reaches, so the memory is passed along.

`fifo_buffer_create` takes whole pages from `get_free_pages`, which is a
parameter here: any function that has a pointer, or null, for each number of
pages.
-/

def fifoBufferPutSuccess : Int := 0

def fifoBufferPutFailure : Int := -1

def fifoBufferGetSuccess : Int := 0

def fifoBufferGetFailure : Int := -1

structure FifoBuffer where
  bp : Nat
  ri : UInt16
  wi : UInt16
  sz : UInt16
  rsz : UInt16
  wsz : UInt16
  deriving DecidableEq, Repr

abbrev Memory : Type := Nat → UInt8

def fifoBufferPutb (buffer : FifoBuffer) (memory : Memory) (b : UInt8) :
    Int × FifoBuffer × Memory :=
  if buffer.wsz ≠ 0 then
    let memory := Function.update memory (buffer.bp + buffer.wi.toNat) b
    let wi := buffer.wi + 1
    let wi := if wi = buffer.sz then 0 else wi
    (fifoBufferPutSuccess, { buffer with wi := wi, wsz := buffer.wsz - 1, rsz := buffer.rsz + 1 },
      memory)
  else (fifoBufferPutFailure, buffer, memory)

/-- `fifo_buffer_getb`; the byte is what the caller's variable holds
afterwards. -/
def fifoBufferGetb (buffer : FifoBuffer) (memory : Memory) (b : UInt8) : Int × FifoBuffer × UInt8 :=
  if buffer.rsz ≠ 0 then
    let b := memory (buffer.bp + buffer.ri.toNat)
    let ri := buffer.ri + 1
    let ri := if ri = buffer.sz then 0 else ri
    (fifoBufferGetSuccess,
      { buffer with ri := ri, rsz := buffer.rsz - 1, wsz := buffer.wsz + 1 }, b)
  else (fifoBufferGetFailure, buffer, b)

section Create

variable (m : Machine)

def createPages (size : Nat) : Nat := (size + (m.pageSize - 1)) % m.wordLimit / m.pageSize

def fifoBufferCreate (getFreePages : Nat → Nat) (buffer : FifoBuffer) (size : Nat) :
    Int × FifoBuffer :=
  let pages := createPages m size
  let bp := getFreePages pages
  if bp ≠ 0 then
    let sz := UInt16.ofNat (pages * m.pageSize % m.wordLimit)
    (0, ⟨bp, 0, 0, sz, 0, sz⟩)
  else (-1, { buffer with bp := bp })

/-- `fifo_buffer_destroy`: the arguments of its call of `free_pages`. -/
def fifoBufferDestroy (buffer : FifoBuffer) : Nat × Nat := (buffer.bp, buffer.sz.toNat / m.pageSize)

end Create

/-! ## The queue in the ring -/

/-- The bytes that can be read, in the order in which they will be. -/
def held (buffer : FifoBuffer) (memory : Memory) : List UInt8 :=
  contents (fun i => memory (buffer.bp + i)) buffer.sz.toNat buffer.ri.toNat buffer.rsz.toNat

/-- The counters share out the size, the read index is in the ring, and the
write index is behind the bytes that can be read. -/
structure WellFormed (buffer : FifoBuffer) : Prop where
  sizes : buffer.rsz.toNat + buffer.wsz.toNat = buffer.sz.toNat
  ri_lt : 0 < buffer.sz.toNat → buffer.ri.toNat < buffer.sz.toNat
  wi_eq : buffer.wi.toNat = (buffer.ri.toNat + buffer.rsz.toNat) % buffer.sz.toNat

variable {buffer : FifoBuffer} {memory : Memory}

theorem length_held (buffer : FifoBuffer) (memory : Memory) :
    (held buffer memory).length = buffer.rsz.toNat := length_contents _ _ _ _

/-- An index that goes on by one, as the 16-bit arithmetic has it. -/
theorem toNat_advance {index sz : UInt16} (inside : index.toNat < sz.toNat) :
    (if index + 1 = sz then 0 else index + 1).toNat = advance sz.toNat index.toNat := by
  have bound := sz.toNat_lt
  have next : (index + 1).toNat = index.toNat + 1 := by
    rw [UInt16.toNat_add]
    exact Nat.mod_eq_of_lt (by change index.toNat + 1 < 2 ^ 16; omega)
  unfold advance
  by_cases atEnd : index + 1 = sz
  · rw [if_pos atEnd, if_pos (by rw [← next, atEnd])]
    rfl
  · rw [if_neg atEnd, if_neg, next]
    intro same
    exact atEnd (UInt16.toNat_inj.mp (next.trans same))

theorem toNat_succ {counter : UInt16} {bound : Nat} (fits : bound < 2 ^ 16)
    (below : counter.toNat < bound) : (counter + 1).toNat = counter.toNat + 1 := by
  rw [UInt16.toNat_add]
  exact Nat.mod_eq_of_lt (by change counter.toNat + 1 < 2 ^ 16; omega)

theorem toNat_pred {counter : UInt16} (positive : counter ≠ 0) :
    (counter - 1).toNat + 1 = counter.toNat := by
  have nonzero : counter.toNat ≠ 0 := fun zero => positive (UInt16.toNat_inj.mp zero)
  have bound := counter.toNat_lt
  rw [UInt16.toNat_sub]
  change (2 ^ 16 - 1 + counter.toNat) % 2 ^ 16 + 1 = counter.toNat
  omega

/-- The cell that is written is not that of another byte. -/
theorem update_bp (memory : Memory) (bp place : Nat) (b : UInt8) :
    (fun i => Function.update memory (bp + place) b (bp + i)) =
      Function.update (fun i => memory (bp + i)) place b := by
  funext i
  by_cases same : i = place
  · rw [same, Function.update_self, Function.update_self]
  · rw [Function.update_of_ne same, Function.update_of_ne]
    exact fun equal => same (Nat.add_left_cancel equal)

namespace WellFormed

theorem room_iff (wellFormed : WellFormed buffer) :
    buffer.wsz ≠ 0 ↔ buffer.rsz.toNat < buffer.sz.toNat := by
  have sizes := wellFormed.sizes
  have zero : buffer.wsz = 0 ↔ buffer.wsz.toNat = 0 := UInt16.toNat_inj.symm
  rw [Ne, zero]
  omega

theorem wi_lt (wellFormed : WellFormed buffer) (positive : 0 < buffer.sz.toNat) :
    buffer.wi.toNat < buffer.sz.toNat := by
  rw [wellFormed.wi_eq]
  exact Nat.mod_lt _ positive

theorem put (wellFormed : WellFormed buffer) (room : buffer.wsz ≠ 0) :
    WellFormed { buffer with
      wi := if buffer.wi + 1 = buffer.sz then 0 else buffer.wi + 1
      wsz := buffer.wsz - 1
      rsz := buffer.rsz + 1 } := by
  have below := wellFormed.room_iff.mp room
  have inside := wellFormed.wi_lt (Nat.lt_of_le_of_lt (Nat.zero_le _) below)
  have moreRead : (buffer.rsz + 1).toNat = buffer.rsz.toNat + 1 :=
    toNat_succ buffer.sz.toNat_lt below
  have lessWritten := toNat_pred room
  refine ⟨?_, wellFormed.ri_lt, ?_⟩
  · change (buffer.rsz + 1).toNat + (buffer.wsz - 1).toNat = buffer.sz.toNat
    rw [moreRead, Nat.add_right_comm, Nat.add_assoc, lessWritten]
    exact wellFormed.sizes
  · change (if buffer.wi + 1 = buffer.sz then 0 else buffer.wi + 1).toNat =
      (buffer.ri.toNat + (buffer.rsz + 1).toNat) % buffer.sz.toNat
    rw [toNat_advance inside, advance_eq inside, moreRead, wellFormed.wi_eq, Nat.mod_add_mod,
      Nat.add_assoc]

theorem ri_lt_of_readable (wellFormed : WellFormed buffer) (readable : buffer.rsz ≠ 0) :
    buffer.ri.toNat < buffer.sz.toNat := by
  have sizes := wellFormed.sizes
  have lessRead := toNat_pred readable
  exact wellFormed.ri_lt (by omega)

theorem get (wellFormed : WellFormed buffer) (readable : buffer.rsz ≠ 0) :
    WellFormed { buffer with
      ri := if buffer.ri + 1 = buffer.sz then 0 else buffer.ri + 1
      rsz := buffer.rsz - 1
      wsz := buffer.wsz + 1 } := by
  have lessRead := toNat_pred readable
  have sizes := wellFormed.sizes
  have bound := buffer.sz.toNat_lt
  have inside := wellFormed.ri_lt_of_readable readable
  have moreWritten : (buffer.wsz + 1).toNat = buffer.wsz.toNat + 1 := toNat_succ bound (by omega)
  refine ⟨?_, fun _positive => ?_, ?_⟩
  · change (buffer.rsz - 1).toNat + (buffer.wsz + 1).toNat = buffer.sz.toNat
    omega
  · change (if buffer.ri + 1 = buffer.sz then 0 else buffer.ri + 1).toNat < buffer.sz.toNat
    rw [toNat_advance inside]
    exact advance_lt inside
  · change buffer.wi.toNat = ((if buffer.ri + 1 = buffer.sz then 0 else buffer.ri + 1).toNat +
      (buffer.rsz - 1).toNat) % buffer.sz.toNat
    rw [toNat_advance inside, advance_eq inside, wellFormed.wi_eq, Nat.mod_add_mod, ← lessRead,
      Nat.add_right_comm, Nat.add_assoc]

/-- The oldest cell and those behind it. -/
theorem contents_eq_cons {α : Type*} (wellFormed : WellFormed buffer) (readable : buffer.rsz ≠ 0)
    (cells : Nat → α) :
    contents cells buffer.sz.toNat buffer.ri.toNat buffer.rsz.toNat = cells buffer.ri.toNat ::
      contents cells buffer.sz.toNat (if buffer.ri + 1 = buffer.sz then 0 else buffer.ri + 1).toNat
        (buffer.rsz - 1).toNat := by
  have inside := wellFormed.ri_lt_of_readable readable
  rw [← toNat_pred readable, toNat_advance inside]
  exact contents_advance cells inside _

end WellFormed

theorem nonempty_iff (buffer : FifoBuffer) (memory : Memory) :
    buffer.rsz ≠ 0 ↔ held buffer memory ≠ [] := by
  have zero : buffer.rsz = 0 ↔ buffer.rsz.toNat = 0 := UInt16.toNat_inj.symm
  rw [Ne, Ne, zero, ← List.length_eq_zero_iff, length_held]

/-- A put appends its byte when there is room, and fails otherwise. -/
theorem fifoBufferPutb_spec (wellFormed : WellFormed buffer) (memory : Memory) (b : UInt8) :
    ((held buffer memory).length < buffer.sz.toNat ∧
      ∃ buffer' memory', fifoBufferPutb buffer memory b = (fifoBufferPutSuccess, buffer', memory') ∧
        WellFormed buffer' ∧ buffer'.sz = buffer.sz ∧ buffer'.bp = buffer.bp ∧
        held buffer' memory' = held buffer memory ++ [b]) ∨
    (¬(held buffer memory).length < buffer.sz.toNat ∧
      fifoBufferPutb buffer memory b = (fifoBufferPutFailure, buffer, memory)) := by
  rw [length_held, ← wellFormed.room_iff]
  unfold fifoBufferPutb
  by_cases room : buffer.wsz ≠ 0
  · rw [if_pos room]
    refine Or.inl ⟨room, _, _, rfl, wellFormed.put room, rfl, rfl, ?_⟩
    have below := wellFormed.room_iff.mp room
    have moreRead : (buffer.rsz + 1).toNat = buffer.rsz.toNat + 1 :=
      toNat_succ buffer.sz.toNat_lt below
    change contents
      (fun i => Function.update memory (buffer.bp + buffer.wi.toNat) b (buffer.bp + i))
      buffer.sz.toNat buffer.ri.toNat (buffer.rsz + 1).toNat = _
    rw [update_bp, moreRead, wellFormed.wi_eq]
    exact contents_write _ below b
  · rw [if_neg room]
    exact Or.inr ⟨room, rfl⟩

/-- A get returns the oldest byte when there is one, and fails otherwise. -/
theorem fifoBufferGetb_spec (wellFormed : WellFormed buffer) (memory : Memory) (b : UInt8) :
    (∃ first rest buffer', held buffer memory = first :: rest ∧
      fifoBufferGetb buffer memory b = (fifoBufferGetSuccess, buffer', first) ∧
        WellFormed buffer' ∧ buffer'.sz = buffer.sz ∧ buffer'.bp = buffer.bp ∧
        held buffer' memory = rest) ∨
    (held buffer memory = [] ∧
      fifoBufferGetb buffer memory b = (fifoBufferGetFailure, buffer, b)) := by
  unfold fifoBufferGetb
  by_cases readable : buffer.rsz ≠ 0
  · rw [if_pos readable]
    have splits := wellFormed.contents_eq_cons readable fun i => memory (buffer.bp + i)
    exact Or.inl ⟨_, _, _, splits, rfl, wellFormed.get readable, rfl, rfl, rfl⟩
  · rw [if_neg readable]
    refine Or.inr ⟨?_, rfl⟩
    by_contra nonempty
    exact readable ((nonempty_iff buffer memory).mpr nonempty)

end Fifo
end ShovelOS
