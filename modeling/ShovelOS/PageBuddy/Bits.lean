import ShovelOS.PageBuddy.Allocator
import ShovelOS.Library.PageRange

namespace ShovelOS
namespace PageBuddy

open WordBits PageRanges

/-!
# What the updates do to single bits

Each loop of the allocator is described by the bits that it changes, for
bitmaps whose words are different words.  The numbers of the loops are `int`s,
and they are natural numbers as long as they are not negative.
-/

variable {m : Machine} {b : Buddy m}

/-! ## What stays -/

theorem order_updateBits (update : BitVec m.wordTBits → Nat → BitVec m.wordTBits)
    (order turns n : Nat) (b : Buddy m) : (updateBits update order turns n b).order = b.order := by
  induction turns generalizing n b with
  | zero => rfl
  | succ turns inductionHypothesis =>
      rw [updateBits, inductionHypothesis]
      rfl

theorem order_setUsedOrders (remaining order : Nat) (block bits : Int) (b : Buddy m) :
    (setUsedOrders remaining order block bits b).order = b.order := by
  induction remaining generalizing order block bits b with
  | zero => rfl
  | succ remaining inductionHypothesis =>
      rw [setUsedOrders]
      split
      · rfl
      · rw [inductionHypothesis, order_updateBits]

theorem order_joinPair (order b0 : Nat) (b : Buddy m) : (joinPair order b0 b).order = b.order := by
  rw [joinPair]
  split
  · rfl
  · rfl

theorem order_joinPairs (order turns b0 : Nat) (b : Buddy m) :
    (joinPairs order turns b0 b).order = b.order := by
  induction turns generalizing b0 b with
  | zero => rfl
  | succ turns inductionHypothesis => rw [joinPairs, inductionHypothesis, order_joinPair]

theorem order_joinOrders (remaining order : Nat) (first last : Int) (b : Buddy m) :
    (joinOrders remaining order first last b).order = b.order := by
  induction remaining generalizing order first last b with
  | zero => rfl
  | succ remaining inductionHypothesis =>
      rw [joinOrders]
      split
      · rfl
      · rw [inductionHypothesis, order_joinPairs]

theorem order_freeOrders (remaining order : Nat) (block bits : Int) (b : Buddy m) :
    (freeOrders remaining order block bits b).order = b.order := by
  induction remaining generalizing order block bits b with
  | zero => rfl
  | succ remaining inductionHypothesis =>
      rw [freeOrders]
      split
      · rfl
      · dsimp only
        split
        · rw [order_updateBits]
        · rw [inductionHypothesis, order_updateBits]

theorem order_buddySetUsed (b : Buddy m) (block : Int) (nb : Nat) :
    (buddySetUsed b block nb).order = b.order := order_setUsedOrders ..

theorem order_buddyFree (b : Buddy m) (block : Int) (nb : Nat) :
    (buddyFree b block nb).order = b.order := by
  rw [buddyFree, buddyJoinFree, order_joinOrders, order_freeOrders]

theorem order_buddyAlloc (b : Buddy m) (nb : Nat) : (buddyAlloc b nb).2.order = b.order := by
  rw [buddyAlloc]
  split
  · rfl
  · split
    · exact order_buddySetUsed ..
    · rfl

/-- Words of different places are different words. -/
def Separate (b : Buddy m) : Prop :=
  ∀ order word order' word', order < nbOrders → order' < nbOrders →
    b.wordAt order word = b.wordAt order' word' → order = order' ∧ word = word'

theorem Separate.of_order {b' : Buddy m} (separate : Separate b) (same : b'.order = b.order) :
    Separate b' := by
  intro order word order' word' inOrders inOrders' equal
  rw [Buddy.wordAt, Buddy.wordAt, same] at equal
  exact separate order word order' word' inOrders inOrders' equal

/-! ## One bit -/

/-- The update gives one bit a value and keeps the others. -/
def Writes (m : Machine) (update : BitVec m.wordTBits → Nat → BitVec m.wordTBits)
    (value : Bool) : Prop :=
  ∀ word shift i, i < m.wordTBits → (update word shift).getLsbD i = if i = shift then value else
    word.getLsbD i

theorem setShift_writes : Writes m setShift true := by
  intro word shift i inWord
  rw [setShift, Machine.bit, getLsbD_or_bit inWord]
  by_cases same : i = shift
  · rw [if_pos same, same, decide_eq_true rfl, Bool.or_true]
  · rw [if_neg same, decide_eq_false same, Bool.or_false]

theorem clearShift_writes : Writes m clearShift false := by
  intro word shift i inWord
  rw [clearShift, Machine.bit, getLsbD_and_not_bit inWord]
  by_cases same : i = shift
  · rw [if_pos same, same, decide_eq_true rfl, Bool.not_true, Bool.and_false]
  · rw [if_neg same, decide_eq_false same, Bool.not_false, Bool.and_true]

variable {update : BitVec m.wordTBits → Nat → BitVec m.wordTBits} {value : Bool}

theorem isSet_updateBit (writes : Writes m update value) (separate : Separate b)
    {order order' : Nat}
    (inOrders : order < nbOrders) (inOrders' : order' < nbOrders) (n bit : Nat) :
    (updateBit update order n b).isSet order' bit =
      if order' = order ∧ bit = n then value else b.isSet order' bit := by
  have inWord : bit % m.wordTBits < m.wordTBits := Nat.mod_lt _ m.wordTBits_pos
  change (Function.update b.words (b.wordAt order (n / m.wordTBits)) _
    (b.wordAt order' (bit / m.wordTBits))).getLsbD (bit % m.wordTBits) = _
  by_cases sameWord : b.wordAt order' (bit / m.wordTBits) = b.wordAt order (n / m.wordTBits)
  · rcases separate _ _ _ _ inOrders' inOrders sameWord with ⟨sameOrder, sameIndex⟩
    rw [sameWord, Function.update_self, writes _ _ _ inWord]
    by_cases sameBit : bit % m.wordTBits = n % m.wordTBits
    · rw [if_pos sameBit, if_pos ⟨sameOrder, eq_of_div_mod_eq sameIndex sameBit⟩]
    · rw [if_neg sameBit, if_neg fun same => sameBit (by rw [same.2]), ← sameOrder, ← sameIndex]
      rfl
  · rw [Function.update_of_ne sameWord, if_neg]
    · rfl
    · rintro ⟨rfl, rfl⟩
      exact sameWord rfl

theorem isSet_updateBits (writes : Writes m update value) (separate : Separate b)
    {order order' : Nat}
    (inOrders : order < nbOrders) (inOrders' : order' < nbOrders) (turns n bit : Nat) :
    (updateBits update order turns n b).isSet order' bit =
      if order' = order ∧ n ≤ bit ∧ bit < n + turns then value else b.isSet order' bit := by
  induction turns generalizing n b with
  | zero => exact (if_neg (by omega)).symm
  | succ turns inductionHypothesis =>
      have first : Separate (updateBit update order n b) := separate.of_order rfl
      rw [updateBits, inductionHypothesis first, isSet_updateBit writes separate inOrders inOrders']
      by_cases later : order' = order ∧ n + 1 ≤ bit ∧ bit < n + 1 + turns
      · rw [if_pos later, if_pos (by omega)]
      · rw [if_neg later]
        exact if_congr (by omega) rfl rfl

/-! ## Marking blocks as used -/

/-- The bits of the touched blocks are set, at every order that is reached. -/
theorem isSet_setUsedOrders (separate : Separate b) (remaining : Nat) {order order' : Nat}
    (inOrders : order + remaining ≤ nbOrders) (inOrders' : order' < nbOrders)
    (tracked : ∀ k, order ≤ k → k ≤ order' → (b.order k).bits ≠ 0) (block bits bit : Nat) :
    (setUsedOrders remaining order block bits b).isSet order' bit = true ↔
      b.isSet order' bit = true ∨ (order ≤ order' ∧ order' < order + remaining ∧
        block >>> (order' - order) ≤ bit ∧
        bit < block >>> (order' - order) + roundUp bits (order' - order)) := by
  induction remaining generalizing order block bits b with
  | zero => exact ⟨Or.inl, fun either => either.elim id fun marked => absurd marked.2.1 (by omega)⟩
  | succ remaining inductionHypothesis =>
      rw [setUsedOrders]
      by_cases empty : (b.order order).bits = 0
      · rw [if_pos empty]
        refine ⟨Or.inl, fun either => either.elim id fun marked => ?_⟩
        exact absurd empty (tracked order (Nat.le_refl _) marked.1)
      · have half : (block : Int).tdiv 2 = (block / 2 : Nat) := rfl
        have halfBits : ((bits : Int) + 1).tdiv 2 = ((bits + 1) / 2 : Nat) := rfl
        have rest := inductionHypothesis
          (separate.of_order (order_updateBits setShift order bits block b))
          (show order + 1 + remaining ≤ nbOrders by omega)
          (fun k atLeast below => by
            rw [order_updateBits]
            exact tracked k (by omega) below) (block / 2) ((bits + 1) / 2)
        rw [if_neg empty, half, halfBits, Int.toNat_natCast, Int.toNat_natCast, rest,
          isSet_updateBits setShift_writes separate (by omega) inOrders']
        by_cases here : order' = order
        · have none : ¬ order + 1 ≤ order' := by omega
          rw [here, Nat.sub_self, roundUp_zero, Nat.shiftRight_zero]
          by_cases inside : block ≤ bit ∧ bit < block + bits
          · rw [if_pos ⟨rfl, inside⟩]
            exact iff_of_true (Or.inl rfl) (Or.inr ⟨Nat.le_refl _, by omega, inside⟩)
          · rw [if_neg fun both => inside both.2]
            refine or_congr_right (iff_of_false (fun marked => none (here ▸ marked.1)) ?_)
            exact fun marked => inside marked.2.2
        · rw [if_neg fun both => here both.1]
          refine or_congr_right ?_
          by_cases above : order + 1 ≤ order'
          · have split : order' - order = order' - (order + 1) + 1 := by omega
            rw [split, Nat.shiftRight_succ_inside, roundUp_succ]
            refine and_congr (by omega) (and_congr_left fun _ => by omega)
          · exact iff_of_false (fun marked => above marked.1) fun marked => here (by omega)

/-! ## Clearing freed blocks -/

/-- The bits of the blocks that lie in the range are cleared. -/
theorem isSet_freeOrders (separate : Separate b) (remaining : Nat) {order order' : Nat}
    (inOrders : order + remaining ≤ nbOrders) (inOrders' : order' < nbOrders)
    (tracked : ∀ k, order ≤ k → k ≤ order' → (b.order k).bits ≠ 0) (block bits bit : Nat) :
    (freeOrders remaining order block bits b).isSet order' bit = true ↔
      b.isSet order' bit = true ∧ ¬ (order ≤ order' ∧ order' < order + remaining ∧
        block >>> (order' - order) ≤ bit ∧
        bit < block >>> (order' - order) + bits >>> (order' - order)) := by
  induction remaining generalizing order block bits b with
  | zero => exact ⟨fun set => ⟨set, fun cleared => absurd cleared.2.1 (by omega)⟩, And.left⟩
  | succ remaining inductionHypothesis =>
      rw [freeOrders]
      by_cases empty : (b.order order).bits = 0
      · rw [if_pos empty]
        exact ⟨fun set => ⟨set, fun cleared => tracked order (Nat.le_refl _) cleared.1 empty⟩,
          And.left⟩
      · have half : (block : Int).tdiv 2 = (block / 2 : Nat) := rfl
        have halfBits : (bits : Int).tdiv 2 = (bits / 2 : Nat) := rfl
        have here :=
          isSet_updateBits clearShift_writes separate (show order < nbOrders by omega) inOrders'
          bits block bit
        have cleared : (updateBits clearShift order bits block b).isSet order' bit = true ↔
            b.isSet order' bit = true ∧ ¬ (order' = order ∧ block ≤ bit ∧ bit < block + bits) := by
          rw [here]
          split
          · rename_i inside
            exact iff_of_false Bool.false_ne_true fun both => both.2 inside
          · rename_i outside
            exact (and_iff_left outside).symm
        rw [if_neg empty, halfBits, Int.toNat_natCast, Int.toNat_natCast]
        have stays : (order ≤ order' ∧ order' < order + (remaining + 1) ∧
            block >>> (order' - order) ≤ bit ∧
            bit < block >>> (order' - order) + bits >>> (order' - order)) ↔
            (order' = order ∧ block ≤ bit ∧ bit < block + bits) ∨
              (order + 1 ≤ order' ∧ order' < order + 1 + remaining ∧
                (block / 2) >>> (order' - (order + 1)) ≤ bit ∧
                bit < (block / 2) >>> (order' - (order + 1)) + (bits / 2) >>>
                  (order' - (order + 1))) := by
          by_cases same : order' = order
          · rw [same, Nat.sub_self, Nat.shiftRight_zero, Nat.shiftRight_zero]
            omega
          · by_cases above : order + 1 ≤ order'
            · have split : order' - order = order' - (order + 1) + 1 := by omega
              rw [split, Nat.shiftRight_succ_inside, Nat.shiftRight_succ_inside]
              omega
            · omega
        rw [stays, not_or, ← and_assoc, ← cleared]
        by_cases last : ((bits / 2 : Nat) : Int) = 0
        · have noBits : bits / 2 = 0 := Int.natCast_eq_zero.mp last
          rw [if_pos last, noBits, Nat.zero_shiftRight]
          exact (and_iff_left (by omega)).symm
        · have rest := inductionHypothesis
            (separate.of_order (order_updateBits clearShift order bits block b))
            (show order + 1 + remaining ≤ nbOrders by omega)
            (fun k atLeast below => by
              rw [order_updateBits]
              exact tracked k (by omega) below) (block / 2) (bits / 2)
          rw [if_neg last, half]
          exact rest

/-! ## Joining free twins -/

theorem three_shiftLeft (m : Machine) {shift : Nat} (even : shift % 2 = 0) :
    3#m.wordTBits <<< shift = pairMask m.wordTBits shift := by
  have three : ∀ w, w = 32 ∨ w = 64 → 3#w = (1#w <<< 1) ||| 1#w := by
    rintro w (rfl | rfl)
    · decide
    · decide
  have odd : shift ||| 1 = 1 + shift := by
    rw [or_one_eq]
    omega
  rw [three _ m.wordTBits_eq, BitVec.shiftLeft_or_distrib, ← BitVec.shiftLeft_add, pairMask, odd,
    Nat.add_sub_cancel_left]

/-- The test of a pair that begins at an even bit. -/
theorem pair_clear_iff (b : Buddy m) (order c : Nat) :
    b.load order (2 * c / m.wordTBits) &&& (3#m.wordTBits <<< (2 * c % m.wordTBits)) =
      0#m.wordTBits ↔
      b.isSet order (2 * c) = false ∧ b.isSet order (2 * c + 1) = false := by
  have inWord : 2 * c % m.wordTBits < m.wordTBits := Nat.mod_lt _ m.wordTBits_pos
  have parity : 2 * c % m.wordTBits % 2 = 0 := by
    rw [Nat.mod_mod_of_dvd _ m.wordTBits_even]
    omega
  have next : twin (2 * c) = 2 * c + 1 := if_pos (by omega)
  rw [three_shiftLeft m parity, and_pairMask_eq_zero m.wordTBits_even inWord,
    ← twin_mod m.wordTBits_even, ← next, Buddy.isSet, Buddy.isSet, twin_div m.wordTBits_even]

theorem isSet_joinPair (separate : Separate b) {order order' : Nat}
    (inOrders : order + 1 < nbOrders) (inOrders' : order' < nbOrders) (c bit : Nat) :
    (joinPair order (2 * c) b).isSet order' bit = true ↔
      b.isSet order' bit = true ∧ ¬ (order' = order + 1 ∧ bit = c ∧
        b.isSet order (2 * c) = false ∧ b.isSet order (2 * c + 1) = false) := by
  have visited : Separate (b.visit order (2 * c / m.wordTBits)) := separate.of_order rfl
  have parent : 2 * c / 2 = c := by omega
  rw [joinPair]
  by_cases clear : b.isSet order (2 * c) = false ∧ b.isSet order (2 * c + 1) = false
  · rw [if_pos ((pair_clear_iff (b.visit order (2 * c / m.wordTBits)) order c).mpr clear),
      isSet_updateBit clearShift_writes visited inOrders inOrders', parent]
    by_cases here : order' = order + 1 ∧ bit = c
    · rw [if_pos here]
      exact iff_of_false Bool.false_ne_true fun both => both.2 ⟨here.1, here.2, clear⟩
    · rw [if_neg here]
      exact (and_iff_left fun both => here ⟨both.1, both.2.1⟩).symm
  · rw [if_neg fun free =>
      clear ((pair_clear_iff (b.visit order (2 * c / m.wordTBits)) order c).mp free)]
    exact (and_iff_left fun both => clear both.2.2).symm

theorem isSet_joinPairs (separate : Separate b) {order order' : Nat}
    (inOrders : order + 1 < nbOrders) (inOrders' : order' < nbOrders) (turns c bit : Nat) :
    (joinPairs order turns (2 * c) b).isSet order' bit = true ↔
      b.isSet order' bit = true ∧ ¬ (order' = order + 1 ∧ c ≤ bit ∧ bit < c + turns ∧
        b.isSet order (2 * bit) = false ∧ b.isSet order (2 * bit + 1) = false) := by
  induction turns generalizing c b with
  | zero => exact (and_iff_left (by omega)).symm
  | succ turns inductionHypothesis =>
      have joined : Separate (joinPair order (2 * c) b) :=
        separate.of_order (order_joinPair order (2 * c) b)
      -- The pairs of this order are read, and only their parents change.
      have kept : ∀ child, (joinPair order (2 * c) b).isSet order child = b.isSet order child := by
        intro child
        apply Bool.eq_iff_iff.mpr
        rw [isSet_joinPair separate inOrders (by omega)]
        exact and_iff_left fun both => absurd both.1 (by omega)
      have next : 2 * c + 2 = 2 * (c + 1) := by omega
      rw [joinPairs, next, inductionHypothesis joined, kept, kept,
        isSet_joinPair separate inOrders inOrders', and_assoc]
      refine and_congr_right fun _set => ?_
      rw [← not_or, not_iff_not]
      constructor
      · rintro (⟨above, rfl, clear⟩ | ⟨above, atLeast, below, clear⟩)
        · exact ⟨above, Nat.le_refl _, by omega, clear⟩
        · exact ⟨above, by omega, by omega, clear⟩
      · rintro ⟨above, atLeast, below, clear⟩
        by_cases first : bit = c
        · exact Or.inl ⟨above, first, first ▸ clear⟩
        · exact Or.inr ⟨above, by omega, by omega, clear⟩

end PageBuddy
end ShovelOS
