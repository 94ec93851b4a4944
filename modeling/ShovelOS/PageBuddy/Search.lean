import ShovelOS.PageBuddy.Bits
import ShovelOS.Library.Bitmap
import ShovelOS.Stdlib.Emit

namespace ShovelOS
namespace PageBuddy

open WordBits

/-!
# The search for a clear bit

`buddy_alloc` looks at whole words first, and within a word it begins at a byte
in front of which every bit is set.  It finds the first clear bit below the
limit of the order, or there is none.
-/

variable {m : Machine} {b : Buddy m}

/-! ## Fast forward -/

/-- When no bit of a mask is free, its bits are set in the word. -/
theorem set_of_not_ffFree {w : Nat} {word p : BitVec w} (full : ffFree word p = false) {i : Nat}
    (inMask : p.getLsbD i = true) : word.getLsbD i = true := by
  have equal : word &&& p = p := by simpa [ffFree] using full
  have bit := congrArg (fun x : BitVec w => x.getLsbD i) equal
  simp only [BitVec.getLsbD_and, inMask, Bool.and_true] at bit
  exact bit

/-- The bits of a mask by its number. -/
theorem mask_getLsbD {w mask i : Nat} (inWord : i < w) (inMask : mask.testBit i = true) :
    (BitVec.ofNat w mask).getLsbD i = true := by
  rw [BitVec.getLsbD_ofNat, inMask, decide_eq_true inWord, Bool.and_true]

/-- No clear bit of the low half lies in front of the start. -/
theorem _fastForward32_le {w : Nat} (wide : 32 ≤ w) {word : BitVec w} {i : Nat} (low : i < 32)
    (clear : word.getLsbD i = false) : _fastForward32 word ≤ i := by
  have below16 : ∀ i, i < 16 → (0x0000ffff).testBit i = true := by decide
  have below8 : ∀ i, i < 8 → (0x000000ff).testBit i = true := by decide
  have below24 : ∀ i, i < 24 → 16 ≤ i → (0x00ff0000).testBit i = true := by decide
  have notSet : ∀ mask, ffFree word (BitVec.ofNat w mask) = false → Nat.testBit mask i ≠ true := by
    intro mask full inMask
    have set := set_of_not_ffFree full (mask_getLsbD (by omega) inMask)
    rw [clear] at set
    cases set
  rw [_fastForward32]
  by_cases free16 : ffFree word 0x0000ffff#w = true
  · rw [if_pos free16]
    by_cases free8 : ffFree word 0x000000ff#w = true
    · rw [if_pos free8]
      exact Nat.zero_le i
    · rw [if_neg free8]
      by_contra small
      exact notSet _ (Bool.eq_false_iff.mpr free8) (below8 i (by omega))
  · have atLeast16 : 16 ≤ i := by
      by_contra small
      exact notSet _ (Bool.eq_false_iff.mpr free16) (below16 i (by omega))
    rw [if_neg free16]
    by_cases free24 : ffFree word 0x00ff0000#w = true
    · rw [if_pos free24]
      exact atLeast16
    · rw [if_neg free24]
      by_contra small
      exact notSet _ (Bool.eq_false_iff.mpr free24) (below24 i (by omega) atLeast16)

/-- No clear bit of a word lies in front of the start. -/
theorem _fastForward_le {word : BitVec m.wordTBits} {i : Nat} (inWord : i < m.wordTBits)
    (clear : word.getLsbD i = false) : _fastForward m word ≤ i := by
  rw [_fastForward]
  by_cases narrow : m.wordTBits = 32
  · rw [if_pos narrow]
    exact _fastForward32_le (by omega) (by omega) clear
  · have wide : m.wordTBits = 64 := m.wordTBits_eq.resolve_left narrow
    have below32 : ∀ i, i < 32 → (0xffffffff).testBit i = true := by decide
    rw [if_neg narrow]
    by_cases freeLow : ffFree word 0xffffffff#m.wordTBits = true
    · rw [if_pos freeLow]
      by_cases low : i < 32
      · exact _fastForward32_le (by omega) low clear
      · have small : _fastForward32 word ≤ 24 := by
          rw [_fastForward32]
          split
          · split <;> omega
          · split <;> omega
        omega
    · rw [if_neg freeLow]
      have high : 32 ≤ i := by
        by_contra low
        have set := set_of_not_ffFree (Bool.eq_false_iff.mpr freeLow)
          (mask_getLsbD inWord (below32 i (by omega)))
        rw [clear] at set
        cases set
      have shifted : ((word >>> 16) >>> 16).getLsbD (i - 32) = false := by
        have index : 16 + (16 + (i - 32)) = i := by omega
        rw [BitVec.getLsbD_ushiftRight, BitVec.getLsbD_ushiftRight, index, clear]
      have bound := _fastForward32_le (by omega) (show i - 32 < 32 by omega) shifted
      omega

/-! ## One word -/

theorem searchWord_some {word : BitVec m.wordTBits} {turns start i : Nat}
    (found : searchWord word turns start = some i) (inWord : start + turns ≤ m.wordTBits) :
    start ≤ i ∧ i < start + turns ∧ word.getLsbD i = false := by
  induction turns generalizing start with
  | zero => cases found
  | succ turns inductionHypothesis =>
      rw [searchWord] at found
      split at found
      · rename_i clear
        cases found
        exact ⟨Nat.le_refl _, by omega, (and_bit_eq_zero (by omega)).mp clear⟩
      · rcases inductionHypothesis found (by omega) with ⟨atLeast, below, clear⟩
        exact ⟨by omega, by omega, clear⟩

theorem searchWord_none {word : BitVec m.wordTBits} {turns start : Nat}
    (fails : searchWord word turns start = none) (inWord : start + turns ≤ m.wordTBits) {i : Nat}
    (atLeast : start ≤ i) (below : i < start + turns) : word.getLsbD i = true := by
  induction turns generalizing start with
  | zero => omega
  | succ turns inductionHypothesis =>
      rw [searchWord] at fails
      split at fails
      · cases fails
      · rename_i notClear
        by_cases first : i = start
        · rw [first]
          exact Bool.of_not_eq_false fun clear => notClear ((and_bit_eq_zero (by omega)).mpr clear)
        · exact inductionHypothesis fails (by omega) (by omega) (by omega)

/-- The limit of the search in a word: the bits of the word that the bitmap
has. -/
theorem searchMax_eq {bits w : Nat} (small : bits < 2 ^ 31) (inside : w < bitmapWords m bits) :
    searchMax m bits w = min m.wordTBits (bits - w * m.wordTBits) := by
  have positive := m.wordTBits_pos
  have width : m.wordTBits ≤ 64 := by
    rcases m.wordTBits_eq with width | width <;> omega
  have begins : w * m.wordTBits < bits := by
    have range := Nat.mul_le_of_le_div m.wordTBits (w + 1) (bits + (m.wordTBits - 1)) inside
    rw [Nat.add_mul, Nat.one_mul] at range
    omega
  have mask : bits &&& (m.wordTBits - 1) = bits % m.wordTBits := by
    rcases m.wordTBits_eq with width | width
    · rw [width]
      exact Nat.and_two_pow_sub_one_eq_mod bits 5
    · rw [width]
      exact Nat.and_two_pow_sub_one_eq_mod bits 6
  have next : (w + 1) * m.wordTBits = w * m.wordTBits + m.wordTBits := by
    rw [Nat.add_mul, Nat.one_mul]
  rw [searchMax, Nat.mod_eq_of_lt (by omega), mask]
  by_cases last : (w + 1) * m.wordTBits > bits
  · have rest : bits - w * m.wordTBits < m.wordTBits := by omega
    have remainder : bits % m.wordTBits = bits - w * m.wordTBits := by
      conv_lhs => rw [← Nat.sub_add_cancel (Nat.le_of_lt begins)]
      rw [Nat.add_mul_mod_self_right, Nat.mod_eq_of_lt rest]
    rw [if_pos last, remainder]
    omega
  · rw [if_neg last]
    omega

/-- What the search in one word finds. -/
def searchAt (b : Buddy m) (order w : Nat) : Option Nat :=
  if ~~~(b.load order w) ≠ 0#m.wordTBits then
    searchWord (b.load order w)
      (searchMax m (b.order order).bits w - _fastForward m (b.load order w))
        (_fastForward m (b.load order w))
  else none

theorem searchWords_succ (b : Buddy m) (order remaining w : Nat) :
    searchWords b order (remaining + 1) w =
      match searchAt b order w with
      | some bit => some ((w * m.wordTBits + bit) % 2 ^ 32)
      | none => searchWords b order remaining (w + 1) := rfl

theorem isSet_word {order w bit : Nat} (inWord : bit < m.wordTBits) :
    b.isSet order (w * m.wordTBits + bit) = (b.load order w).getLsbD bit := by
  rw [Buddy.isSet, Bitmap.index_div inWord, Bitmap.index_mod inWord]

theorem searchAt_some {order w bit : Nat} (small : (b.order order).bits < 2 ^ 31)
    (inside : w < bitmapWords m (b.order order).bits) (found : searchAt b order w = some bit) :
    bit < m.wordTBits ∧ w * m.wordTBits + bit < (b.order order).bits ∧
      b.isSet order (w * m.wordTBits + bit) = false := by
  rw [searchAt] at found
  split at found
  · have max := searchMax_eq small inside
    have bound := searchWord_some (i := bit) found
    by_cases enough : _fastForward m (b.load order w) ≤ searchMax m (b.order order).bits w
    · rcases bound (by omega) with ⟨_atLeast, below, clear⟩
      have inWord : bit < m.wordTBits := by omega
      exact ⟨inWord, by omega, (isSet_word inWord).trans clear⟩
    · have none : searchMax m (b.order order).bits w - _fastForward m (b.load order w) =
        0 := by omega
      rw [none] at found
      cases found
  · cases found

theorem searchAt_none {order w : Nat} (small : (b.order order).bits < 2 ^ 31)
    (inside : w < bitmapWords m (b.order order).bits) (fails : searchAt b order w = none)
    {bit : Nat}
    (inWord : bit < m.wordTBits) (below : w * m.wordTBits + bit < (b.order order).bits) :
    b.isSet order (w * m.wordTBits + bit) = true := by
  rw [isSet_word inWord]
  rw [searchAt] at fails
  split at fails
  · have max := searchMax_eq small inside
    by_contra notSet
    have clear := Bool.eq_false_iff.mpr notSet
    have start := _fastForward_le inWord clear
    have set := searchWord_none fails (by omega) start (by omega)
    rw [clear] at set
    cases set
  · rename_i full
    have allSet : ~~~(b.load order w) = 0#m.wordTBits := not_ne_iff.mp full
    have bitZero := congrArg (fun x : BitVec m.wordTBits => x.getLsbD bit) allSet
    simpa [BitVec.getLsbD_not, inWord] using bitZero

/-! ## All words -/

theorem searchWords_some {order : Nat} (small : (b.order order).bits < 2 ^ 31)
    {remaining w index : Nat} (inside : w + remaining = bitmapWords m (b.order order).bits)
    (found : searchWords b order remaining w = some index) :
    index < (b.order order).bits ∧ b.isSet order index = false := by
  induction remaining generalizing w with
  | zero => cases found
  | succ remaining inductionHypothesis =>
      rw [searchWords_succ] at found
      split at found
      · rename_i bit inWordFound
        rcases searchAt_some small (by omega) inWordFound with ⟨_inWord, below, clear⟩
        cases found
        rw [Nat.mod_eq_of_lt (by omega)]
        exact ⟨below, clear⟩
      · exact inductionHypothesis (by omega) found

theorem searchWords_none {order : Nat} (small : (b.order order).bits < 2 ^ 31) {remaining w : Nat}
    (inside : w + remaining = bitmapWords m (b.order order).bits)
    (fails : searchWords b order remaining w = none) {index : Nat} (from_ : w * m.wordTBits ≤ index)
    (below : index < (b.order order).bits) : b.isSet order index = true := by
  have positive := m.wordTBits_pos
  induction remaining generalizing w with
  | zero =>
      have ends : (b.order order).bits ≤ w * m.wordTBits := by
        rw [Nat.add_zero] at inside
        have range := Nat.lt_div_mul_add (a := (b.order order).bits + (m.wordTBits - 1)) positive
        rw [inside, bitmapWords]
        omega
      omega
  | succ remaining inductionHypothesis =>
      rw [searchWords_succ] at fails
      split at fails
      · cases fails
      · rename_i noneHere
        have next : (w + 1) * m.wordTBits = w * m.wordTBits + m.wordTBits := by
          rw [Nat.add_mul, Nat.one_mul]
        by_cases here : index < (w + 1) * m.wordTBits
        · have split : index = w * m.wordTBits + (index - w * m.wordTBits) := by omega
          rw [split] at below ⊢
          exact searchAt_none small (by omega) noneHere (by omega) below
        · exact inductionHypothesis (by omega) fails (by omega)

/-! ## The order of a request -/

theorem buddyOrder_eq_some {nb order : Nat} (isOrder : buddyOrder nb = some order) :
    order < nbOrders ∧ nb ≤ 2 ^ order ∧ ∀ lower, lower < order → 2 ^ lower < nb := by
  rcases List.find?_range_eq_some.mp isOrder with ⟨enough, inRange, least⟩
  rw [decide_eq_true_eq, Nat.one_shiftLeft] at enough
  refine ⟨List.mem_range.mp inRange, enough, fun lower below => ?_⟩
  have small := least lower below
  rw [Bool.not_eq_true', decide_eq_false_iff_not, Nat.one_shiftLeft] at small
  omega

theorem buddyOrder_eq_none_iff (nb : Nat) : buddyOrder nb = none ↔ 4096 < nb := by
  rw [buddyOrder, List.find?_eq_none]
  constructor
  · intro none
    have top := none 12 (by decide)
    rw [decide_eq_true_eq] at top
    change ¬ 4096 ≥ nb at top
    omega
  · intro large order inRange
    have below : order ≤ 12 := Nat.le_of_lt_succ (List.mem_range.mp inRange)
    have power : 2 ^ order ≤ 2 ^ 12 := Nat.pow_le_pow_right (by decide) below
    rw [decide_eq_true_eq, Nat.one_shiftLeft]
    omega

end PageBuddy
end ShovelOS
