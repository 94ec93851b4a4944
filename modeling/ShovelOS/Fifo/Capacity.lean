import ShovelOS.Fifo.Queue

namespace ShovelOS
namespace Fifo

open RingBuffer Refinement

/-!
# The capacity of a buffer that has been created

`fifo_buffer_create` rounds the size up to whole pages and keeps the number
of bytes in a 16-bit field.  The put limit comes from that field, and
`fifo_buffer_destroy` computes the number of pages from it.  Both are what
the caller asked for as long as the rounded size fits the field.
-/

variable (m : Machine)

/-- Whatever the page allocator returns, a buffer that has been created takes
`size` bytes, and it is destroyed with the pages that it was created with. -/
def DeliversCapacity (size : Nat) : Prop :=
  ∀ (getFreePages : Nat → Nat) (buffer : FifoBuffer) (memory : Memory),
    (fifoBufferCreate m getFreePages buffer size).1 = 0 →
      (∀ bytes : List UInt8, bytes.length = size →
        ∀ answer ∈ answers FifoRun.step
            ⟨(fifoBufferCreate m getFreePages buffer size).2, memory, [], []⟩
          (bytes.map .put), answer = .done) ∧
      fifoBufferDestroy m (fifoBufferCreate m getFreePages buffer size).2 =
        (getFreePages (createPages m size), createPages m size)

variable {m}

theorem createPages_mul_lt {size : Nat} : createPages m size * m.pageSize < m.wordLimit :=
  Nat.lt_of_le_of_lt (Nat.div_mul_le_self _ _) (Nat.mod_lt _ m.wordLimit_pos)

theorem fifoBufferCreate_eq (getFreePages : Nat → Nat) {size : Nat}
    (obtained : getFreePages (createPages m size) ≠ 0) (buffer : FifoBuffer) :
    fifoBufferCreate m getFreePages buffer size =
      (0, ⟨getFreePages (createPages m size), 0, 0,
        UInt16.ofNat (createPages m size * m.pageSize), 0,
        UInt16.ofNat (createPages m size * m.pageSize)⟩) := by
  unfold fifoBufferCreate
  dsimp only
  rw [if_pos obtained, Nat.mod_eq_of_lt createPages_mul_lt]

theorem fifoBufferCreate_obtained {getFreePages : Nat → Nat} {buffer : FifoBuffer} {size : Nat}
    (created : (fifoBufferCreate m getFreePages buffer size).1 = 0) :
    getFreePages (createPages m size) ≠ 0 := by
  intro refused
  unfold fifoBufferCreate at created
  dsimp only at created
  rw [if_neg (not_not_intro refused)] at created
  cases created

/-- The puts of a fresh buffer succeed as long as they are no more than its
size. -/
theorem fresh_puts_iff (bp : Nat) (sz : UInt16) (memory : Memory) (bytes : List UInt8) :
    (∀ answer ∈ answers FifoRun.step ⟨⟨bp, 0, 0, sz, 0, sz⟩, memory, [], []⟩ (bytes.map .put),
      answer = .done) ↔ bytes.length ≤ sz.toNat := by
  have same := (refines sz).answers_eq (represents_empty bp sz memory) (bytes.map .put)
  rw [FifoRun.empty] at same
  rw [same, Log.puts_done_iff bytes (Nat.zero_le _)]
  simp [Log.empty]

def roundedSize (m : Machine) (size : Nat) : Nat :=
  (size + (m.pageSize - 1)) / m.pageSize * m.pageSize

theorem le_roundedSize (size : Nat) : size ≤ roundedSize m size := by
  have positive := m.pageSize_pos
  have split := Nat.div_add_mod (size + (m.pageSize - 1)) m.pageSize
  have below := Nat.mod_lt (size + (m.pageSize - 1)) positive
  rw [Nat.mul_comm] at split
  unfold roundedSize
  omega

/-- A size that fits the field does not overflow when it is rounded. -/
theorem createPages_mul {size : Nat} (small : size < 2 ^ 16) :
    createPages m size * m.pageSize = roundedSize m size := by
  have page := m.pageSize_le
  have word := m.two_pow_32_le_wordLimit
  rw [createPages, Nat.mod_eq_of_lt (by omega), roundedSize]

/-- A created buffer takes the bytes that were asked for, and gives back its
pages, if and only if the size, rounded up to whole pages, fits 16 bits. -/
theorem fifo_buffer_create_delivers_iff (m : Machine) (size : Nat) :
    DeliversCapacity m size ↔ roundedSize m size < 2 ^ 16 := by
  constructor
  · intro delivers
    have obtained : (fun _pages : Nat => 1) (createPages m size) ≠ 0 := Nat.one_ne_zero
    have created : fifoBufferCreate m (fun _pages => 1) ⟨0, 0, 0, 0, 0, 0⟩ size = _ :=
      fifoBufferCreate_eq _ obtained _
    have facts :=
      delivers (fun _pages => 1) ⟨0, 0, 0, 0, 0, 0⟩ (fun _address => 0) (by rw [created])
    rw [created] at facts
    have enough :=
      (fresh_puts_iff _ _ _ _).mp (facts.1 (List.replicate size 0) List.length_replicate)
    rw [List.length_replicate, UInt16.toNat_ofNat'] at enough
    have small : size < 2 ^ 16 := Nat.lt_of_le_of_lt enough (Nat.mod_lt _ (by decide))
    have pages := congrArg Prod.snd facts.2
    change (UInt16.ofNat (createPages m size * m.pageSize)).toNat / m.pageSize =
      createPages m size at pages
    rw [UInt16.toNat_ofNat'] at pages
    have atMost := Nat.div_mul_le_self (createPages m size * m.pageSize % 2 ^ 16) m.pageSize
    rw [pages, createPages_mul small] at atMost
    exact Nat.lt_of_le_of_lt atMost (Nat.mod_lt _ (by decide))
  · intro fits getFreePages buffer memory created
    have obtained := fifoBufferCreate_obtained created
    have small : size < 2 ^ 16 := Nat.lt_of_le_of_lt (le_roundedSize size) fits
    have size16 : (UInt16.ofNat (createPages m size * m.pageSize)).toNat =
        createPages m size * m.pageSize := by
      rw [UInt16.toNat_ofNat', createPages_mul small]
      exact Nat.mod_eq_of_lt fits
    rw [fifoBufferCreate_eq getFreePages obtained]
    constructor
    · intro bytes length
      rw [fresh_puts_iff, size16, createPages_mul small, length]
      exact le_roundedSize size
    · unfold fifoBufferDestroy
      rw [size16, Nat.mul_div_cancel _ m.pageSize_pos]

/-- On the beagleboard a buffer of 65536 bytes is created with a size of zero
and destroyed with no pages. -/
theorem not_fifo_buffer_create_delivers_sixteenPages :
    ¬ DeliversCapacity Machine.beaglexm 65536 := by
  intro delivers
  have facts := (delivers (fun _pages => 4096) ⟨0, 0, 0, 0, 0, 0⟩ (fun _address => 0) (by decide)).2
  revert facts
  decide

end Fifo
end ShovelOS
