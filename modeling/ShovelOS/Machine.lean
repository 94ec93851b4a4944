import Mathlib.Data.Nat.Bitwise
import Mathlib.Tactic.Ring

namespace ShovelOS

/-!
# The target machine

Every configured build fixes a word type and a page size.  `word_t` and
`size_t` have the width of a pointer, which is 32 or 64 bits, and each
`PAGE_SIZE` of the build configuration is a power of two: 32 bytes on the
small machines, 128 in the unit tests and 4096 elsewhere.  The record below
carries exactly these facts, so that a development over it covers all the
builds at once.

Addresses, sizes and counters are natural numbers below `wordLimit`.  Where
the source can leave that range the reduction is written out.  Words that
are read bit by bit are bit vectors of the machine's width.
-/

/-- Word width and page size of a build, with what the configurations share. -/
structure Machine where
  wordTBits : Nat
  pageShift : Nat
  wordTBits_eq : wordTBits = 32 ∨ wordTBits = 64
  five_le_pageShift : 5 ≤ pageShift
  pageShift_lt : pageShift < 32

namespace Machine

/-- `WORD_T_BYTES`, also the size of every pointer. -/
def wordTBytes (m : Machine) : Nat := m.wordTBits / 8

def pageSize (m : Machine) : Nat := 2 ^ m.pageShift

def wordLimit (m : Machine) : Nat := 2 ^ m.wordTBits

/-- `WORD_T_MAX`, which the page allocator also uses as its failure value. -/
def wordTMax (m : Machine) : Nat := m.wordLimit - 1

/-- The beagleboard build: 32-bit words and pages of 4096 bytes. -/
def beaglexm : Machine := ⟨32, 12, Or.inl rfl, by decide, by decide⟩

def bit (m : Machine) (shift : Nat) : BitVec m.wordTBits := 1#m.wordTBits <<< shift

def fractionMask (m : Machine) (whole : Nat) : BitVec m.wordTBits :=
  BitVec.ofNat m.wordTBits whole - 1#m.wordTBits

/-- `ALIGN_U(i, whole)`: the sum wraps at the word width, and the fraction
bits are then masked out. -/
def alignU (m : Machine) (i whole : Nat) : Nat :=
  ((BitVec.ofNat m.wordTBits i + m.fractionMask whole) &&& ~~~(m.fractionMask whole)).toNat

variable (m : Machine)

theorem wordTBits_pos : 0 < m.wordTBits := by
  rcases m.wordTBits_eq with width | width <;> omega

theorem wordTBits_even : 2 ∣ m.wordTBits := by
  rcases m.wordTBits_eq with width | width <;> omega

theorem wordTBits_eq_mul : m.wordTBits = m.wordTBytes * 8 := by
  rcases m.wordTBits_eq with width | width <;> simp [wordTBytes, width]

theorem wordTBytes_pos : 0 < m.wordTBytes := by
  rcases m.wordTBits_eq with width | width <;> simp [wordTBytes, width]

theorem pageSize_pos : 0 < m.pageSize := Nat.two_pow_pos _

theorem thirtyTwo_le_pageSize : 32 ≤ m.pageSize := by
  change 2 ^ 5 ≤ 2 ^ m.pageShift
  exact Nat.pow_le_pow_right (by decide) m.five_le_pageShift

theorem pageShift_lt_wordTBits : m.pageShift < m.wordTBits := by
  have below := m.pageShift_lt
  rcases m.wordTBits_eq with width | width <;> omega

theorem wordLimit_pos : 0 < m.wordLimit := Nat.two_pow_pos _

theorem two_pow_32_le_wordLimit : 2 ^ 32 ≤ m.wordLimit := by
  unfold wordLimit
  apply Nat.pow_le_pow_right (by decide)
  rcases m.wordTBits_eq with width | width <;> omega

theorem pageSize_le : m.pageSize ≤ 2 ^ 31 := by
  have below := m.pageShift_lt
  exact Nat.pow_le_pow_right (by decide) (by omega)

/-- Masking the low bits of a word rounds it down to a multiple. -/
theorem toNat_and_not_mask {w shift : Nat} (below : shift < w) (x : BitVec w) :
    (x &&& ~~~(BitVec.ofNat w (2 ^ shift) - 1#w)).toNat = x.toNat / 2 ^ shift * 2 ^ shift := by
  have maskValue : (BitVec.ofNat w (2 ^ shift) - 1#w).toNat = 2 ^ shift - 1 := by
    have positive : 0 < 2 ^ shift := Nat.two_pow_pos shift
    have small : 2 ^ shift < 2 ^ w := Nat.pow_lt_pow_right (by decide) below
    have oneSmall : 1 < 2 ^ w := Nat.one_lt_two_pow (by omega)
    rw [BitVec.toNat_sub, BitVec.toNat_ofNat, BitVec.toNat_ofNat, Nat.mod_eq_of_lt small,
      Nat.mod_eq_of_lt oneSmall]
    rw [show 2 ^ w - 1 + 2 ^ shift = (2 ^ shift - 1) + 2 ^ w by omega, Nat.add_mod_right]
    exact Nat.mod_eq_of_lt (by omega)
  apply Nat.eq_of_testBit_eq
  intro i
  rw [← Nat.shiftRight_eq_div_pow, ← Nat.shiftLeft_eq, Nat.testBit_shiftLeft,
    Nat.testBit_shiftRight]
  by_cases inRange : i < w
  · simp only [BitVec.toNat_and, Nat.testBit_and, BitVec.testBit_toNat, BitVec.getLsbD_not,
      inRange, decide_true, Bool.true_and]
    rw [← BitVec.testBit_toNat, ← BitVec.testBit_toNat, maskValue, Nat.testBit_two_pow_sub_one]
    by_cases low : i < shift
    · simp [low]
    · simp [low, Nat.le_of_not_lt low, Nat.add_sub_cancel' (Nat.le_of_not_lt low),
        BitVec.testBit_toNat]
  · have outside : ∀ y : BitVec w, y.toNat.testBit i = false := fun y =>
      Nat.testBit_lt_two_pow
        (Nat.lt_of_lt_of_le y.isLt (Nat.pow_le_pow_right (by decide) (by omega)))
    rw [outside]
    by_cases low : shift ≤ i
    · simp [low, Nat.add_sub_cancel' low, outside]
    · simp [low]

/-- `ALIGN_U` to a power of two rounds the wrapped sum down. -/
theorem alignU_eq_mod {shift : Nat} (i : Nat) (below : shift < m.wordTBits) :
    m.alignU i (2 ^ shift) = (i + (2 ^ shift - 1)) % m.wordLimit / 2 ^ shift * 2 ^ shift := by
  have positive : 0 < 2 ^ shift := Nat.two_pow_pos shift
  have small : 2 ^ shift < 2 ^ m.wordTBits := Nat.pow_lt_pow_right (by decide) below
  have sum : BitVec.ofNat m.wordTBits i + m.fractionMask (2 ^ shift) =
      BitVec.ofNat m.wordTBits (i + (2 ^ shift - 1)) := by
    rw [fractionMask, BitVec.ofNat_add]
    congr 1
    apply BitVec.eq_of_toNat_eq
    have oneSmall : 1 < 2 ^ m.wordTBits := Nat.one_lt_two_pow (by omega)
    rw [BitVec.toNat_sub, BitVec.toNat_ofNat, BitVec.toNat_ofNat, BitVec.toNat_ofNat,
      Nat.mod_eq_of_lt small, Nat.mod_eq_of_lt oneSmall,
      show 2 ^ m.wordTBits - 1 + 2 ^ shift = (2 ^ shift - 1) + 2 ^ m.wordTBits by omega,
      Nat.add_mod_right]
  rw [alignU, sum, fractionMask, toNat_and_not_mask below, BitVec.toNat_ofNat, wordLimit]

/-- `ALIGN_U` to a power of two rounds up, as long as the sum does not wrap. -/
theorem alignU_eq {i shift : Nat} (below : shift < m.wordTBits)
    (fits : i + (2 ^ shift - 1) < m.wordLimit) :
    m.alignU i (2 ^ shift) = (i + (2 ^ shift - 1)) / 2 ^ shift * 2 ^ shift := by
  rw [alignU_eq_mod m i below, Nat.mod_eq_of_lt fits]

end Machine

end ShovelOS
