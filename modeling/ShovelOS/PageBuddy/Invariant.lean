import ShovelOS.PageBuddy.Search

namespace ShovelOS
namespace PageBuddy

open BlockTree PageRanges
open Stdlib (wrap32 wrap32_of_lt)

/-!
# What the bitmaps say

A bit is set exactly when some page of its block is taken.  Marking keeps this
at every order by itself.  A free leaves it true of the single pages, and no
bit is clear that must be set.  The joining pass then makes it true of one
order after the other, from the order below.  It looks at one group of 4096
pages only, and outside of it nothing has changed.
-/

variable {m : Machine} {b : Buddy m} {pages : Nat} {taken : List PageRange}

/-- The bitmaps of a heap of so many pages describe the taken pages. -/
structure Described (b : Buddy m) (pages : Nat) (taken : List PageRange) : Prop where
  bits : ∀ order, order < nbOrders → (b.order order).bits = pages >>> order
  separate : Separate b
  isSet_iff : ∀ order index, order < nbOrders → index < pages >>> order →
    (b.isSet order index = true ↔ Touched taken ⟨order, index⟩)

/-- Lower orders have more blocks. -/
theorem shiftRight_ne_zero {order k : Nat} (below : k ≤ order) (some_ : pages >>> order ≠ 0) :
    pages >>> k ≠ 0 := by
  intro none
  rw [Block.shiftRight_split pages below, none, Nat.zero_shiftRight] at some_
  exact some_ rfl

/-- Every order up to one that has blocks is reached by the loops. -/
theorem tracked_of_lt (bits : ∀ order, order < nbOrders → (b.order order).bits = pages >>> order)
    {order index : Nat} (inOrders : order < nbOrders) (below : index < pages >>> order) :
    ∀ k, 0 ≤ k → k ≤ order → (b.order k).bits ≠ 0 := by
  intro k _atLeast atMost
  rw [bits k (by omega)]
  exact shiftRight_ne_zero atMost (by omega)

theorem Described.congr {other : List PageRange} (described : Described b pages taken)
    (same : ∀ range, range ∈ taken ↔ range ∈ other) : Described b pages other where
  bits := described.bits
  separate := described.separate
  isSet_iff := by
    intro order index inOrders below
    rw [described.isSet_iff order index inOrders below]
    exact exists_congr fun page => and_congr_right fun _inBlock => taken_congr same page

/-! ## Marking -/

/-- Marking a range that fits adds it to the taken pages. -/
theorem Described.setUsed (described : Described b pages taken) {range : PageRange}
    (fits : range.Fits) (isInt : range.count < 2 ^ 31) :
    Described (buddySetUsed b range.first range.count) pages (range :: taken) where
  bits := by
    intro order inOrders
    rw [order_buddySetUsed]
    exact described.bits order inOrders
  separate := described.separate.of_order (order_buddySetUsed b range.first range.count)
  isSet_iff := by
    intro order index inOrders below
    rw [buddySetUsed, wrap32_of_lt isInt,
      isSet_setUsedOrders described.separate nbOrders (by decide) inOrders
      (tracked_of_lt described.bits inOrders below), described.isSet_iff order index inOrders below,
      touched_cons_iff, PageRange.exists_contains_iff fits, Nat.sub_zero, or_comm]
    exact or_congr_left
      ⟨fun marked => marked.2.2, fun inRange => ⟨Nat.zero_le _, by omega, inRange⟩⟩

/-! ## Joining -/

/-- The last page that the joining pass looks at. -/
def groupLast (pages group : Nat) : Nat := min (group * 4096 + 4095) (pages - 1)

/-- A block of the group whose halves are both in the heap is reached by the
loop over pairs. -/
theorem pair_reached {order index group remaining : Nat} (top : order + remaining + 2 = nbOrders)
    (below : index < pages >>> (order + 1)) (inGroup : index >>> remaining = group) :
    group * 2 ^ remaining ≤ index ∧ 2 * index ≤ groupLast pages group >>> order := by
  have positive := Nat.two_pow_pos order
  have size : 4096 = 2 ^ (order + 1) * 2 ^ remaining := by
    rw [← Nat.pow_add]
    have exponent : order + 1 + remaining = 12 := by
      change order + remaining + 2 = 13 at top
      omega
    rw [exponent]
  have inBlock : (Block.mk remaining group).Contains index := inGroup
  rw [block_contains_iff] at inBlock
  refine ⟨inBlock.1, ?_⟩
  rw [Nat.shiftRight_eq_div_pow] at below ⊢
  rw [Nat.le_div_iff_mul_le positive, groupLast, Nat.le_min]
  have double : 2 ^ (order + 1) = 2 * 2 ^ order := Nat.pow_succ' ..
  have ends : 2 * index * 2 ^ order = index * 2 ^ (order + 1) := by
    rw [double, Nat.mul_comm 2, Nat.mul_assoc]
  have whole : (index + 1) * 2 ^ (order + 1) ≤ pages := by
    rw [← Nat.le_div_iff_mul_le (Nat.two_pow_pos _)]
    exact below
  have inside : (index + 1) * 2 ^ (order + 1) ≤ group * 4096 + 4096 := by
    have last : index + 1 ≤ (group + 1) * 2 ^ remaining := by
      rw [Nat.add_mul, Nat.one_mul]
      exact inBlock.2
    have scaled := Nat.mul_le_mul_right (2 ^ (order + 1)) last
    rw [Nat.mul_assoc, Nat.mul_comm (2 ^ remaining), ← size, Nat.add_mul group,
      Nat.one_mul] at scaled
    exact scaled
  rw [Nat.add_mul, Nat.one_mul] at whole inside
  omega

/-- Where the joining pass stands: the orders up to this one are exact, the
bits above say too much only inside the group. -/
structure Joined (b : Buddy m) (pages group : Nat) (taken : List PageRange)
    (order : Nat) : Prop where
  bits : ∀ order, order < nbOrders → (b.order order).bits = pages >>> order
  separate : Separate b
  exact_ : ∀ o index, o < nbOrders → o ≤ order → index < pages >>> o →
    b.isSet o index = true → Touched taken ⟨o, index⟩
  sound : ∀ o index, o < nbOrders → index < pages >>> o →
    Touched taken ⟨o, index⟩ → b.isSet o index = true
  outside : ∀ o index, o < nbOrders → index < pages >>> o → index >>> (12 - o) ≠ group →
    b.isSet o index = true → Touched taken ⟨o, index⟩

/-- The pairs of one order make the next order exact. -/
theorem Joined.pairs {group order remaining : Nat} (joined : Joined b pages group taken order)
    (top : order + remaining + 2 = nbOrders) {turns : Nat}
    (reaches : groupLast pages group >>> order < 2 * (group * 2 ^ remaining + turns)) :
    Joined (joinPairs order turns (2 * (group * 2 ^ remaining)) b) pages group taken
      (order + 1) := by
  have isSet_iff : ∀ {o}, o < nbOrders → ∀ index,
      (joinPairs order turns (2 * (group * 2 ^ remaining)) b).isSet o index = true ↔
        b.isSet o index = true ∧ ¬ (o = order + 1 ∧ group * 2 ^ remaining ≤ index ∧
          index < group * 2 ^ remaining + turns ∧
          b.isSet order (2 * index) = false ∧ b.isSet order (2 * index + 1) = false) :=
    fun inOrders index =>
      isSet_joinPairs joined.separate (by omega) inOrders turns (group * 2 ^ remaining) index
  have halves : ∀ {index}, index < pages >>> (order + 1) → 2 * index + 1 < pages >>> order := by
    intro index below
    rw [Nat.shiftRight_succ] at below
    omega
  constructor
  · intro o inOrders
    rw [order_joinPairs]
    exact joined.bits o inOrders
  · exact joined.separate.of_order (order_joinPairs ..)
  · intro o index inOrders atMost below set
    rw [isSet_iff inOrders] at set
    by_cases now : o = order + 1
    · subst now
      by_cases inGroup : index >>> remaining = group
      · rcases pair_reached top below inGroup with ⟨low, high⟩
        have children := halves below
        rw [touched_parent_iff]
        -- If neither half is touched, both bits are clear and the pair has been joined.
        by_contra untouched
        rw [not_or] at untouched
        refine set.2 ⟨rfl, low, by omega, ?_, ?_⟩
        · refine Bool.eq_false_iff.mpr fun leftSet => untouched.1 ?_
          exact joined.exact_ order (2 * index) (by omega) (Nat.le_refl _) (by omega) leftSet
        · refine Bool.eq_false_iff.mpr fun rightSet => untouched.2 ?_
          exact joined.exact_ order (2 * index + 1) (by omega) (Nat.le_refl _) children rightSet
      · refine joined.outside (order + 1) index inOrders below ?_ set.1
        have exponent : 12 - (order + 1) = remaining := by
          change order + remaining + 2 = 13 at top
          omega
        rwa [exponent]
    · exact joined.exact_ o index inOrders (by omega) below set.1
  · intro o index inOrders below touched
    rw [isSet_iff inOrders]
    refine ⟨joined.sound o index inOrders below touched, ?_⟩
    rintro ⟨rfl, _low, _high, leftClear, rightClear⟩
    have children := halves below
    rcases (touched_parent_iff taken order index).mp touched with left | right
    · have set := joined.sound order (2 * index) (by omega) (by omega) left
      rw [leftClear] at set
      cases set
    · have set := joined.sound order (2 * index + 1) (by omega) children right
      rw [rightClear] at set
      cases set
  · intro o index inOrders below notInGroup set
    rw [isSet_iff inOrders] at set
    exact joined.outside o index inOrders below notInGroup set.1

/-- The joining pass makes every order exact. -/
theorem Joined.describes {group order remaining : Nat} (joined : Joined b pages group taken order)
    (top : order + remaining + 1 = nbOrders) :
    Described (joinOrders remaining order (group * 2 ^ remaining : Nat)
      (groupLast pages group >>> order : Nat) b) pages taken := by
  induction remaining generalizing order b with
  | zero =>
      rw [joinOrders]
      refine ⟨joined.bits, joined.separate, fun o index inOrders below => ⟨?_, ?_⟩⟩
      · exact joined.exact_ o index inOrders (by omega) below
      · exact joined.sound o index inOrders below
  | succ remaining inductionHypothesis =>
      rw [joinOrders]
      by_cases empty : (b.order (order + 1)).bits = 0
      · -- The higher orders have no blocks at all.
        rw [if_pos empty]
        rw [joined.bits (order + 1) (by omega)] at empty
        refine ⟨joined.bits, joined.separate, fun o index inOrders below => ⟨?_, ?_⟩⟩
        · have reached : o ≤ order := by
            by_contra above
            exact shiftRight_ne_zero (show order + 1 ≤ o by omega) (by omega) empty
          exact joined.exact_ o index inOrders reached below
        · exact joined.sound o index inOrders below
      · have first : group * 2 ^ (remaining + 1) = 2 * (group * 2 ^ remaining) := by
          rw [Nat.pow_succ', Nat.mul_left_comm]
        have halfFirst : ((2 * (group * 2 ^ remaining) : Nat) : Int).tdiv 2 =
            (group * 2 ^ remaining : Nat) := by
          change ((2 * (group * 2 ^ remaining) / 2 : Nat) : Int) = _
          rw [Nat.mul_div_cancel_left _ (by decide)]
        have halfLast : ((groupLast pages group >>> order : Nat) : Int).tdiv 2 =
            (groupLast pages group >>> (order + 1) : Nat) := rfl
        rw [if_neg empty, first, halfFirst, halfLast, Int.toNat_natCast]
        exact inductionHypothesis (joined.pairs (by omega) (by omega)) (by omega)

/-! ## Freeing -/

/-- A range lies in one group of 4096 pages. -/
def InGroup (range : PageRange) (group : Nat) : Prop :=
  ∀ page, range.Contains page → page >>> 12 = group

/-- The state after the clearing loop.  The freed range is apart from the pages
that remain taken. -/
theorem Described.cleared {range : PageRange} {group : Nat}
    (described : Described b pages (range :: taken))
    (fits : range.Fits) (inGroup : InGroup range group)
    (apart : ∀ other ∈ taken, range.Apart other) :
    Joined (freeOrders nbOrders 0 range.first range.count b) pages group taken 0 := by
  have isSet_iff : ∀ {order index}, order < nbOrders → index < pages >>> order →
      ((freeOrders nbOrders 0 range.first range.count b).isSet order index = true ↔
        Touched (range :: taken) ⟨order, index⟩ ∧ ¬ (range.first >>> order ≤ index ∧
          index < range.first >>> order + range.count >>> order)) := by
    intro order index inOrders below
    rw [isSet_freeOrders described.separate nbOrders (by decide) inOrders
      (tracked_of_lt described.bits inOrders below), described.isSet_iff order index inOrders below,
      Nat.sub_zero]
    refine and_congr_right fun _touched => not_congr ?_
    exact ⟨fun cleared => cleared.2.2, fun inRange => ⟨Nat.zero_le _, by omega, inRange⟩⟩
  have apart' : ∀ page, range.Contains page → ¬ Taken taken page := by
    rintro page inRange ⟨other, isMember, inOther⟩
    exact apart other isMember page inRange inOther
  constructor
  · intro order inOrders
    rw [order_freeOrders]
    exact described.bits order inOrders
  · exact described.separate.of_order (order_freeOrders ..)
  · intro order index inOrders lowest below set
    have zero : order = 0 := Nat.le_zero.mp lowest
    subst zero
    rw [isSet_iff inOrders below, touched_page_iff, taken_cons_iff] at set
    rw [touched_page_iff]
    exact set.1.resolve_left set.2
  · intro order index inOrders below touched
    rw [isSet_iff inOrders below]
    refine ⟨touched_cons_iff.mpr (Or.inr touched), fun cleared => ?_⟩
    rcases touched with ⟨page, inBlock, isTaken⟩
    exact apart' page (PageRange.contains_of_lt fits cleared.1 cleared.2 inBlock) isTaken
  · intro order index inOrders below notInGroup set
    rw [isSet_iff inOrders below, touched_cons_iff] at set
    refine set.1.resolve_left ?_
    rintro ⟨page, inBlock, inRange⟩
    apply notInGroup
    have atMost : order ≤ 12 := Nat.le_of_lt_succ inOrders
    rw [← inGroup page inRange, Block.shiftRight_split page atMost]
    exact congrArg (· >>> (12 - order)) (Eq.symm inBlock)

/-- The arguments that `buddy_free` passes on are the first and the last page
of the group. -/
theorem joinArguments {range : PageRange} {group : Nat} (inGroup : InGroup range group)
    (nonempty : 0 < range.count) (inHeap : range.first + range.count ≤ pages)
    (isInt : pages < 2 ^ 31) :
    wrap32 (firstGroup range.first * multiple : Nat) = (group * 2 ^ 12 : Nat) ∧
      wrap32 (joinLast m pages (lastGroup m range.first range.count)) =
        (groupLast pages group >>> 0 : Nat) := by
  have words := m.two_pow_32_le_wordLimit
  have size : multiple = 4096 := rfl
  have first := inGroup range.first ⟨Nat.le_refl _, by omega⟩
  have last := inGroup (range.first + range.count - 1) ⟨by omega, by omega⟩
  rw [Nat.shiftRight_eq_div_pow] at first last
  have firstEq : firstGroup range.first = group := by
    have small : ((range.first : Int) % 2 ^ 32).toNat = range.first := by omega
    rw [firstGroup, small, size]
    exact first
  have sum : ((range.first : Int) + range.count + (multiple - 1 : Nat)) =
      ((range.first + range.count + 4095 : Nat) : Int) := by
    rw [size]
    omega
  have inWord : range.first + range.count + 4095 < m.wordLimit := by omega
  have next : (range.first + range.count + 4095) / 4096 = group + 1 := by omega
  have lastEq : lastGroup m range.first range.count = group + 1 := by
    rw [lastGroup, sum, ← Int.natCast_mod, Int.toNat_natCast, Nat.mod_eq_of_lt inWord, size, next]
    omega
  have limit : (pages + m.wordLimit - 1) % m.wordLimit = pages - 1 := by
    have regroup : pages + m.wordLimit - 1 = pages - 1 + m.wordLimit := by omega
    rw [regroup, Nat.add_mod_right, Nat.mod_eq_of_lt (by omega)]
  have unsigned : ((group + 1) * 4096 + 2 ^ 32 - 1) % 2 ^ 32 = group * 4096 + 4095 := by
    have regroup : (group + 1) * 4096 + 2 ^ 32 - 1 = group * 4096 + 4095 + 2 ^ 32 := by omega
    rw [regroup, Nat.add_mod_right, Nat.mod_eq_of_lt (by omega)]
  have joinLastEq : joinLast m pages (group + 1) = groupLast pages group := by
    rw [joinLast, groupLast, limit, size, unsigned]
  constructor
  · have power : 2 ^ 12 = 4096 := by decide
    rw [firstEq, size, power, wrap32_of_lt (by omega)]
  · rw [lastEq, joinLastEq, Nat.shiftRight_zero]
    refine wrap32_of_lt ?_
    rw [groupLast]
    omega

/-- Freeing a range takes its pages out of the taken ones. -/
theorem Described.free {range : PageRange} {group : Nat}
    (described : Described b pages (range :: taken))
    (fits : range.Fits) (inGroup : InGroup range group) (nonempty : 0 < range.count)
    (inHeap : range.first + range.count ≤ pages) (isInt : pages < 2 ^ 31)
    (apart : ∀ other ∈ taken, range.Apart other) :
    Described (buddyFree b range.first range.count) pages taken := by
  have cleared := described.cleared fits inGroup apart
  have zeroOrder := cleared.bits 0 (by decide)
  rw [Nat.shiftRight_zero] at zeroOrder
  have arguments := joinArguments (m := m) inGroup nonempty inHeap isInt
  rw [buddyFree]
  rw [wrap32_of_lt (show range.count < 2 ^ 31 by omega), zeroOrder, arguments.1, arguments.2]
  have top : 0 + 12 + 1 = nbOrders := rfl
  exact cleared.describes top

end PageBuddy
end ShovelOS
