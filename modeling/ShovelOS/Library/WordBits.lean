import Mathlib.Data.Nat.Bitwise
import Mathlib.Data.BitVec

namespace ShovelOS
namespace WordBits

/-!
# Single bits and twin pairs of a word

Bitmap code sets, clears and tests one bit of a word through a one-bit mask,
and tests a pair of neighbouring bits, an even one and the odd one after it,
through a two-bit mask.  The lemmas below turn each of these word
expressions into a statement about the bits themselves.
-/

variable {w : Nat}

/-- The bit that shares a pair with bit `i`. -/
def twin (i : Nat) : Nat := if i % 2 = 0 then i + 1 else i - 1

/-- The mask with the two bits of a pair. -/
def pairMask (w shift : Nat) : BitVec w :=
  (1#w <<< (shift ||| 1)) ||| (1#w <<< ((shift ||| 1) - 1))

theorem twin_twin (i : Nat) : twin (twin i) = i := by
  unfold twin
  split <;> split <;> omega

theorem twin_ne (i : Nat) : twin i ≠ i := by
  unfold twin
  split <;> omega

theorem twin_div_two (i : Nat) : twin i / 2 = i / 2 := by
  unfold twin
  split <;> omega

/-- Two indices below one parent are equal or twins. -/
theorem eq_or_eq_twin {i j : Nat} (sameParent : i / 2 = j / 2) : i = j ∨ i = twin j := by
  unfold twin
  split <;> omega

theorem or_one_eq (shift : Nat) : shift ||| 1 = 2 * (shift / 2) + 1 := by
  apply Nat.eq_of_testBit_eq
  intro i
  cases i with
  | zero => simp
  | succ i =>
      rw [Nat.testBit_or, Nat.testBit_succ, Nat.testBit_succ, Nat.testBit_succ]
      simp [show (2 * (shift / 2) + 1) / 2 = shift / 2 by omega]

theorem getLsbD_bit {shift i : Nat} (inside : i < w) :
    (1#w <<< shift).getLsbD i = decide (i = shift) := by
  have positive : 0 < w := Nat.lt_of_le_of_lt (Nat.zero_le i) inside
  rw [BitVec.getLsbD_shiftLeft, BitVec.getLsbD_one]
  by_cases same : i = shift
  · subst same
    simp [inside, positive]
  · by_cases below : i < shift
    · simp [below, same]
    · simp [below, same, show i - shift ≠ 0 by omega]

theorem getLsbD_or_bit {x : BitVec w} {shift i : Nat} (inside : i < w) :
    (x ||| (1#w <<< shift)).getLsbD i = (x.getLsbD i || decide (i = shift)) := by
  rw [BitVec.getLsbD_or, getLsbD_bit inside]

theorem getLsbD_and_not_bit {x : BitVec w} {shift i : Nat} (inside : i < w) :
    (x &&& ~~~(1#w <<< shift)).getLsbD i = (x.getLsbD i && !decide (i = shift)) := by
  rw [BitVec.getLsbD_and, BitVec.getLsbD_not, getLsbD_bit inside]
  simp [inside]

theorem and_bit_eq_zero {x : BitVec w} {shift : Nat} (inside : shift < w) :
    x &&& (1#w <<< shift) = 0#w ↔ x.getLsbD shift = false := by
  constructor
  · intro zero
    have bitZero := congrArg (fun y : BitVec w => y.getLsbD shift) zero
    simpa [BitVec.getLsbD_and, getLsbD_bit inside] using bitZero
  · intro clear
    apply BitVec.eq_of_getLsbD_eq
    intro i below
    rw [BitVec.getLsbD_and, getLsbD_bit below, BitVec.getLsbD_zero]
    by_cases same : i = shift
    · simp [same, clear]
    · simp [same]

theorem getLsbD_pairMask {shift i : Nat} (inside : i < w) :
    (pairMask w shift).getLsbD i = (decide (i = shift) || decide (i = twin shift)) := by
  rw [pairMask, BitVec.getLsbD_or, getLsbD_bit inside, getLsbD_bit inside, or_one_eq]
  apply Bool.eq_iff_iff.mpr
  simp only [Bool.or_eq_true, decide_eq_true_eq]
  unfold twin
  split <;> omega

theorem twin_lt {shift : Nat} (even : 2 ∣ w) (inside : shift < w) : twin shift < w := by
  unfold twin
  split <;> omega

theorem and_pairMask_eq_zero {x : BitVec w} {shift : Nat} (even : 2 ∣ w) (inside : shift < w) :
    x &&& pairMask w shift = 0#w ↔ x.getLsbD shift = false ∧ x.getLsbD (twin shift) = false := by
  constructor
  · intro zero
    have bitZero : ∀ i, i < w → (x.getLsbD i && (pairMask w shift).getLsbD i) = false := by
      intro i _below
      rw [← BitVec.getLsbD_and, zero, BitVec.getLsbD_zero]
    have atShift := bitZero shift inside
    have atTwin := bitZero (twin shift) (twin_lt even inside)
    rw [getLsbD_pairMask inside] at atShift
    rw [getLsbD_pairMask (twin_lt even inside)] at atTwin
    exact ⟨by simpa using atShift, by simpa using atTwin⟩
  · rintro ⟨clear, twinClear⟩
    apply BitVec.eq_of_getLsbD_eq
    intro i below
    rw [BitVec.getLsbD_and, getLsbD_pairMask below, BitVec.getLsbD_zero]
    by_cases same : i = shift
    · simp [same, clear]
    · by_cases isTwin : i = twin shift
      · simp [isTwin, twinClear]
      · simp [same, isTwin]

theorem and_pairMask_eq_pairMask {x : BitVec w} {shift : Nat} (even : 2 ∣ w) (inside : shift < w) :
    x &&& pairMask w shift = pairMask w shift ↔
      x.getLsbD shift = true ∧ x.getLsbD (twin shift) = true := by
  constructor
  · intro full
    have bitFull : ∀ i, i < w → (x.getLsbD i && (pairMask w shift).getLsbD i) =
        (pairMask w shift).getLsbD i := by
      intro i _below
      rw [← BitVec.getLsbD_and, full]
    have atShift := bitFull shift inside
    have atTwin := bitFull (twin shift) (twin_lt even inside)
    rw [getLsbD_pairMask inside] at atShift
    rw [getLsbD_pairMask (twin_lt even inside)] at atTwin
    exact ⟨by simpa using atShift, by simpa using atTwin⟩
  · rintro ⟨set, twinSet⟩
    apply BitVec.eq_of_getLsbD_eq
    intro i below
    rw [BitVec.getLsbD_and, getLsbD_pairMask below]
    by_cases same : i = shift
    · simp [same, set]
    · by_cases isTwin : i = twin shift
      · simp [isTwin, twinSet]
      · simp [same, isTwin]

/-! ## Bits of an array of words -/

theorem twin_div {i : Nat} (even : 2 ∣ w) : twin i / w = i / w := by
  rcases even with ⟨half, rfl⟩
  rw [← Nat.div_div_eq_div_mul, ← Nat.div_div_eq_div_mul, twin_div_two]

theorem twin_mod {i : Nat} (even : 2 ∣ w) : twin i % w = twin (i % w) := by
  have parity : i % w % 2 = i % 2 := Nat.mod_mod_of_dvd i even
  have split := Nat.div_add_mod i w
  have splitTwin := Nat.div_add_mod (twin i) w
  rw [twin_div even] at splitTwin
  unfold twin at splitTwin ⊢
  rw [parity]
  by_cases isEven : i % 2 = 0
  · simp only [if_pos isEven] at splitTwin ⊢
    omega
  · simp only [if_neg isEven] at splitTwin ⊢
    omega

/-- Word and shift determine the bit index. -/
theorem eq_of_div_mod_eq {i j : Nat} (sameWord : i / w = j / w) (sameShift : i % w = j % w) :
    i = j := by
  rw [← Nat.div_add_mod i w, ← Nat.div_add_mod j w, sameWord, sameShift]

end WordBits
end ShovelOS
