import ShovelOS.Library.WordBits
import Mathlib.Data.Finset.Card
import Mathlib.Logic.Function.Basic

namespace ShovelOS
namespace Bitmap

open WordBits

/-!
# Counting the bits of an array of words

A bitmap spreads its bits over words of a fixed width, bit `i` being bit
`i % w` of word `i / w`.  A counter that is kept next to a bitmap is right
when it is the number of set bits.  The lemmas say how setting and clearing
one bit changes the bits and their number, and what the number tells about
the bits when it is extreme.
-/

variable {w : Nat}

def isSet (words : Nat → BitVec w) (i : Nat) : Bool := (words (i / w)).getLsbD (i % w)

def setBit (words : Nat → BitVec w) (word bit : Nat) : Nat → BitVec w :=
  Function.update words word (words word ||| (1#w <<< bit))

def clearBit (words : Nat → BitVec w) (word bit : Nat) : Nat → BitVec w :=
  Function.update words word (words word &&& ~~~(1#w <<< bit))

/-- The set bits among the first `n`. -/
def setBits (words : Nat → BitVec w) (n : Nat) : Finset Nat :=
  (Finset.range n).filter (fun i => isSet words i = true)

/-- Their number. -/
def count (words : Nat → BitVec w) (n : Nat) : Nat := (setBits words n).card

theorem mem_setBits {words : Nat → BitVec w} {n i : Nat} :
    i ∈ setBits words n ↔ i < n ∧ isSet words i = true := by
  rw [setBits, Finset.mem_filter, Finset.mem_range]

/-- Word and shift of a bit index give the index back. -/
theorem index_div {word bit : Nat} (inside : bit < w) : (word * w + bit) / w = word := by
  have positive : 0 < w := Nat.lt_of_le_of_lt (Nat.zero_le _) inside
  rw [Nat.add_comm, Nat.add_mul_div_right _ _ positive, Nat.div_eq_of_lt inside, Nat.zero_add]

theorem index_mod {word bit : Nat} (inside : bit < w) : (word * w + bit) % w = bit := by
  rw [Nat.mul_add_mod_self_right, Nat.mod_eq_of_lt inside]

theorem isSet_index {words : Nat → BitVec w} {word bit : Nat} (inside : bit < w) :
    isSet words (word * w + bit) = (words word).getLsbD bit := by
  rw [isSet, index_div inside, index_mod inside]

/-- Another index differs in the word or in the shift. -/
theorem shift_ne_of_same_word {word bit i : Nat} (inside : bit < w) (same : i / w = word)
    (different : i ≠ word * w + bit) : i % w ≠ bit := by
  intro sameShift
  apply different
  apply eq_of_div_mod_eq (w := w)
  · rw [same, index_div inside]
  · rw [sameShift, index_mod inside]

theorem isSet_setBit {words : Nat → BitVec w} {word bit i : Nat} (inside : bit < w) :
    isSet (setBit words word bit) i = (isSet words i || decide (i = word * w + bit)) := by
  have positive : 0 < w := Nat.lt_of_le_of_lt (Nat.zero_le _) inside
  unfold isSet setBit
  by_cases same : i / w = word
  · subst same
    rw [Function.update_self, getLsbD_or_bit (Nat.mod_lt _ positive)]
    by_cases isBit : i = i / w * w + bit
    · have shift : i % w = bit := by
        rw [isBit]
        exact index_mod inside
      simp only [shift, decide_true, Bool.or_true, ← isBit]
    · simp only [shift_ne_of_same_word inside rfl isBit, isBit, decide_false, Bool.or_false]
  · have different : i ≠ word * w + bit := by
      intro isBit
      rw [isBit, index_div inside] at same
      exact same rfl
    simp only [Function.update_of_ne same, different, decide_false, Bool.or_false]

theorem isSet_clearBit {words : Nat → BitVec w} {word bit i : Nat} (inside : bit < w) :
    isSet (clearBit words word bit) i = (isSet words i && !decide (i = word * w + bit)) := by
  have positive : 0 < w := Nat.lt_of_le_of_lt (Nat.zero_le _) inside
  unfold isSet clearBit
  by_cases same : i / w = word
  · subst same
    rw [Function.update_self, getLsbD_and_not_bit (Nat.mod_lt _ positive)]
    by_cases isBit : i = i / w * w + bit
    · have shift : i % w = bit := by
        rw [isBit]
        exact index_mod inside
      simp only [shift, decide_true, Bool.not_true, Bool.and_false, ← isBit]
    · simp only [shift_ne_of_same_word inside rfl isBit, isBit, decide_false, Bool.not_false,
        Bool.and_true]
  · have different : i ≠ word * w + bit := by
      intro isBit
      rw [isBit, index_div inside] at same
      exact same rfl
    simp only [Function.update_of_ne same, different, decide_false, Bool.not_false, Bool.and_true]

/-! ## The number of set bits -/

theorem setBits_setBit {words : Nat → BitVec w} {word bit n : Nat} (inside : bit < w)
    (below : word * w + bit < n) :
    setBits (setBit words word bit) n = insert (word * w + bit) (setBits words n) := by
  ext i
  rw [Finset.mem_insert, mem_setBits, mem_setBits, isSet_setBit inside, Bool.or_eq_true,
    decide_eq_true_eq]
  constructor
  · rintro ⟨inRange, set | isBit⟩
    · exact Or.inr ⟨inRange, set⟩
    · exact Or.inl isBit
  · rintro (isBit | ⟨inRange, set⟩)
    · exact ⟨isBit ▸ below, Or.inr isBit⟩
    · exact ⟨inRange, Or.inl set⟩

theorem setBits_clearBit {words : Nat → BitVec w} {word bit n : Nat} (inside : bit < w) :
    setBits (clearBit words word bit) n = (setBits words n).erase (word * w + bit) := by
  ext i
  rw [Finset.mem_erase, mem_setBits, mem_setBits, isSet_clearBit inside, Bool.and_eq_true,
    Bool.not_eq_true', decide_eq_false_iff_not]
  constructor
  · rintro ⟨inRange, set, different⟩
    exact ⟨different, inRange, set⟩
  · rintro ⟨different, inRange, set⟩
    exact ⟨inRange, set, different⟩

theorem count_setBit {words : Nat → BitVec w} {word bit n : Nat} (inside : bit < w)
    (below : word * w + bit < n) (clear : isSet words (word * w + bit) = false) :
    count (setBit words word bit) n = count words n + 1 := by
  rw [count, setBits_setBit inside below, count]
  apply Finset.card_insert_of_notMem
  rw [mem_setBits]
  rintro ⟨_inRange, set⟩
  rw [clear] at set
  cases set

theorem count_clearBit {words : Nat → BitVec w} {word bit n : Nat} (inside : bit < w)
    (below : word * w + bit < n) (set : isSet words (word * w + bit) = true) :
    count (clearBit words word bit) n + 1 = count words n := by
  rw [count, setBits_clearBit inside, count]
  exact Finset.card_erase_add_one (mem_setBits.mpr ⟨below, set⟩)

variable {words : Nat → BitVec w} {bits n : Nat}

/-- When no bit from `bits` on is set, the set bits lie below. -/
theorem setBits_subset (within : ∀ i, isSet words i = true → i < bits) :
    setBits words n ⊆ Finset.range bits := by
  intro i isMember
  exact Finset.mem_range.mpr (within i (mem_setBits.mp isMember).2)

theorem count_le (within : ∀ i, isSet words i = true → i < bits) : count words n ≤ bits := by
  have bound := Finset.card_le_card (setBits_subset (n := n) within)
  rwa [Finset.card_range] at bound

/-- All bits are set exactly when their number is the largest possible. -/
theorem count_eq_iff (within : ∀ i, isSet words i = true → i < bits) (fits : bits ≤ n) :
    count words n = bits ↔ ∀ i, i < bits → isSet words i = true := by
  constructor
  · intro full i below
    have everything : setBits words n = Finset.range bits := by
      apply Finset.eq_of_subset_of_card_le (setBits_subset within)
      rw [Finset.card_range]
      exact Nat.le_of_eq full.symm
    have isMember : i ∈ setBits words n := by
      rw [everything]
      exact Finset.mem_range.mpr below
    exact (mem_setBits.mp isMember).2
  · intro all
    have everything : setBits words n = Finset.range bits := by
      apply Finset.Subset.antisymm (setBits_subset within)
      intro i isMember
      have below := Finset.mem_range.mp isMember
      exact mem_setBits.mpr ⟨Nat.lt_of_lt_of_le below fits, all i below⟩
    rw [count, everything, Finset.card_range]

/-- Some bit is clear exactly when their number is smaller. -/
theorem count_lt_iff (within : ∀ i, isSet words i = true → i < bits) (fits : bits ≤ n) :
    count words n < bits ↔ ∃ i, i < bits ∧ isSet words i = false := by
  rw [Nat.lt_iff_le_and_ne, and_iff_right (count_le within), Ne, count_eq_iff within fits]
  simp only [not_forall, exists_prop, Bool.not_eq_true]

theorem count_eq_zero_iff (within : ∀ i, isSet words i = true → i < bits) (fits : bits ≤ n) :
    count words n = 0 ↔ ∀ i, isSet words i = false := by
  rw [count, Finset.card_eq_zero, Finset.eq_empty_iff_forall_notMem]
  constructor
  · intro empty i
    apply Bool.eq_false_iff.mpr
    intro set
    exact empty i (mem_setBits.mpr ⟨Nat.lt_of_lt_of_le (within i set) fits, set⟩)
  · intro clear i isMember
    have set := (mem_setBits.mp isMember).2
    rw [clear i] at set
    cases set

end Bitmap
end ShovelOS
