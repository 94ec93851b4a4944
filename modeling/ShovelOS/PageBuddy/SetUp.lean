import ShovelOS.PageBuddy.Invariant
import ShovelOS.Buddy.Layout

namespace ShovelOS
namespace PageBuddy

open BlockTree PageRanges
open BuddyAlloc (WordPtr Layout cursor orderWords)

/-!
# The heap after set-up

Set-up lays out one bitmap after the other behind `struct buddy`, clears them,
and marks the pages up to their end as used.
-/

variable {m : Machine}

/-- `free_base` in words behind the start of the heap, when the bitmaps of so
many orders have been laid out. -/
def freeBase (m : Machine) (pages order : Nat) : Nat := cursor (orderWords m pages) buddyWords order

theorem bitmapWords_eq (m : Machine) (pages order : Nat) :
    bitmapWords m (pages / (1 <<< order)) = orderWords m pages order := by
  rw [Nat.one_shiftLeft, ← Nat.shiftRight_eq_div_pow]
  rfl

/-! ## The loop over the orders -/

/-- What the loop leaves, from one order on. -/
structure LaidOut (layout : Layout) (pages first count : Nat) (b b' : Buddy m) : Prop where
  order : ∀ k, first ≤ k → k < first + count →
    b'.order k = ⟨pages >>> k, place layout k (freeBase m pages k)⟩
  before : ∀ k, k < first → b'.order k = b.order k
  cleared : ∀ k word, first ≤ k → k < first + count → word < orderWords m pages k →
    b'.words ((place layout k (freeBase m pages k)).add word) = 0#m.wordTBits
  stillClear : ∀ pointer, b.words pointer = 0#m.wordTBits → b'.words pointer = 0#m.wordTBits
  accesses : b'.accesses = b.accesses

theorem clearWords_eq_zero {p pointer : WordPtr} {words : Nat}
    {memory : WordPtr → BitVec m.wordTBits}
    (zero : memory pointer = 0#m.wordTBits) :
    clearWords p words memory pointer = 0#m.wordTBits := by
  rw [clearWords]
  split
  · rfl
  · exact zero

theorem clearWords_add (p : WordPtr) {word words : Nat} (inside : word < words)
    (memory : WordPtr → BitVec m.wordTBits) :
    clearWords p words memory (p.add word) = 0#m.wordTBits :=
  if_pos ⟨rfl, Nat.le_add_right _ _, Nat.add_lt_add_left inside _⟩

theorem setUpOrders_laidOut (layout : Layout) (pages remaining order : Nat) (b : Buddy m) :
    (setUpOrders layout pages remaining order (freeBase m pages order) b).1 =
        freeBase m pages (order + remaining) ∧
      LaidOut layout pages order remaining b
        (setUpOrders layout pages remaining order (freeBase m pages order) b).2 := by
  induction remaining generalizing order b with
  | zero =>
      refine ⟨rfl, ?_, fun k _before => rfl, ?_, fun pointer zero => zero, rfl⟩
      · intro k atLeast below
        omega
      · intro k word atLeast below
        omega
  | succ remaining inductionHypothesis =>
      have next : freeBase m pages order + bitmapWords m (pages / (1 <<< order)) =
          freeBase m pages (order + 1) := by
        rw [bitmapWords_eq]
        rfl
      rw [setUpOrders, next]
      have isOrder : (setUpOrder layout pages order (freeBase m pages order) b).order order =
          ⟨pages >>> order, place layout order (freeBase m pages order)⟩ := by
        rw [Nat.shiftRight_eq_div_pow, ← Nat.one_shiftLeft]
        exact Function.update_self ..
      have words : ∀ word, word < orderWords m pages order →
          (setUpOrder layout pages order (freeBase m pages order) b).words
            ((place layout order (freeBase m pages order)).add word) = 0#m.wordTBits := by
        intro word inside
        rw [← bitmapWords_eq] at inside
        exact clearWords_add _ inside b.words
      rcases inductionHypothesis (order + 1)
          (setUpOrder layout pages order (freeBase m pages order) b) with
        ⟨passed, laid⟩
      refine ⟨?_, ?_, ?_, ?_, ?_, laid.accesses⟩
      · rw [passed, Nat.add_assoc, Nat.add_comm 1]
      · intro k atLeast below
        by_cases now : k = order
        · rw [now, laid.before order (Nat.lt_succ_self _), isOrder]
        · exact laid.order k (by omega) (by omega)
      · intro k before
        rw [laid.before k (by omega)]
        exact Function.update_of_ne (by omega) _ _
      · intro k word atLeast below inside
        by_cases now : k = order
        · rw [now] at inside ⊢
          exact laid.stillClear _ (words word inside)
        · exact laid.cleared k word (by omega) (by omega) inside
      · exact fun pointer zero => laid.stillClear pointer (clearWords_eq_zero zero)

/-! ## The pages that set-up uses -/

/-- A number of words, as a number of bits. -/
theorem lt_orderWords_iff {pages order word : Nat} :
    word < orderWords m pages order ↔ word * m.wordTBits < pages >>> order := by
  have positive := m.wordTBits_pos
  rw [orderWords, Nat.lt_iff_add_one_le, Nat.le_div_iff_mul_le positive, Nat.add_mul, Nat.one_mul]
  omega

theorem word_lt_of_lt {pages order n : Nat} (below : n < pages >>> order) :
    n / m.wordTBits < orderWords m pages order :=
  lt_orderWords_iff.mpr (Nat.lt_of_le_of_lt (Nat.div_mul_le_self n m.wordTBits) below)

/-- A bitmap rounds up to a word at most. -/
theorem orderWords_le (m : Machine) (pages order : Nat) :
    orderWords m pages order ≤ pages / m.wordTBits + 1 := by
  have positive := m.wordTBits_pos
  have fewer := Nat.shiftRight_le pages order
  calc orderWords m pages order ≤ (pages + m.wordTBits) / m.wordTBits :=
    Nat.div_le_div_right (by omega)
    _ = pages / m.wordTBits + 1 := Nat.add_div_right _ positive

theorem freeBase_le (m : Machine) (pages order : Nat) :
    freeBase m pages order ≤ buddyWords + order * (pages / m.wordTBits + 1) := by
  induction order with
  | zero => exact Nat.le_add_right _ _
  | succ order inductionHypothesis =>
      have size := orderWords_le m pages order
      change freeBase m pages order + orderWords m pages order ≤ _
      rw [Nat.add_mul]
      omega

/-- The bytes of `struct buddy` and of all bitmaps. -/
theorem freeBase_bytes_le (m : Machine) (pages : Nat) :
    freeBase m pages nbOrders * m.wordTBytes ≤ 312 + 13 * (pages / 8) := by
  have words := Nat.mul_le_mul_right m.wordTBytes (freeBase_le m pages nbOrders)
  have width : m.wordTBytes ≤ 8 := by
    have bits := m.wordTBits_eq_mul
    rcases m.wordTBits_eq with width | width <;> omega
  have quotient : pages / m.wordTBits * m.wordTBytes ≤ pages / 8 := by
    rw [m.wordTBits_eq_mul, Nat.mul_comm m.wordTBytes 8, ← Nat.div_div_eq_div_mul]
    exact Nat.div_mul_le_self _ _
  have expand : (buddyWords + nbOrders * (pages / m.wordTBits + 1)) * m.wordTBytes =
      39 * m.wordTBytes + 13 * (pages / m.wordTBits * m.wordTBytes) := by
    change (26 + 13 * (pages / m.wordTBits + 1)) * m.wordTBytes = _
    ring
  omega

/-- `pages_used` is the number of pages that hold these bytes.  The sums wrap
and unwrap with the address of the heap. -/
theorem pagesUsed_eq {heapBase pages : Nat} (isAddress : heapBase < m.wordLimit)
    (measurable : pages * m.pageSize < m.wordLimit) :
    pagesUsed m heapBase (freeBase m pages nbOrders) =
      (freeBase m pages nbOrders * m.wordTBytes + (m.pageSize - 1)) / m.pageSize := by
  have bytes := freeBase_bytes_le m pages
  have page := m.thirtyTwo_le_pageSize
  have pageSmall := m.pageSize_le
  have words := m.two_pow_32_le_wordLimit
  have many := Nat.mul_le_mul_left pages page
  rw [pagesUsed]
  generalize freeBase m pages nbOrders * m.wordTBytes = used at bytes ⊢
  have back : ((heapBase + used) % m.wordLimit + (m.pageSize - 1)) % m.wordLimit +
      m.wordLimit - heapBase =
      (heapBase + (used + (m.pageSize - 1))) % m.wordLimit + (m.wordLimit - heapBase) := by
    rw [Nat.mod_add_mod, Nat.add_assoc, Nat.add_sub_assoc (Nat.le_of_lt isAddress)]
  have regroup : heapBase + (used + (m.pageSize - 1)) + (m.wordLimit - heapBase) =
      used + (m.pageSize - 1) + m.wordLimit := by omega
  rw [back, Nat.mod_add_mod, regroup, Nat.add_mod_right, Nat.mod_eq_of_lt (by omega)]

/-- They are few pages of a large heap. -/
theorem pagesUsed_le {heapBase pages : Nat} (isAddress : heapBase < m.wordLimit)
    (measurable : pages * m.pageSize < m.wordLimit) :
    pagesUsed m heapBase (freeBase m pages nbOrders) ≤ 11 + pages / 16 := by
  have bytes := freeBase_bytes_le m pages
  have page := m.thirtyTwo_le_pageSize
  rw [pagesUsed_eq isAddress measurable]
  generalize freeBase m pages nbOrders * m.wordTBytes = used at bytes ⊢
  calc (used + (m.pageSize - 1)) / m.pageSize ≤ (used + m.pageSize) / m.pageSize :=
        Nat.div_le_div_right (by omega)
    _ = used / m.pageSize + 1 := Nat.add_div_right _ m.pageSize_pos
    _ ≤ used / 32 + 1 := Nat.add_le_add_right (Nat.div_le_div_left page (by decide)) 1
    _ ≤ 11 + pages / 16 := by omega

/-! ## A heap -/

/-- What `_get_free_page_setup` is called with, and the memory it finds. -/
structure PageHeap (m : Machine) where
  heapBase : Nat
  heapSize : Nat
  memory : WordPtr → BitVec m.wordTBits
  isAddress : heapBase < m.wordLimit
  isWord : heapSize < m.wordLimit

namespace PageHeap

variable (heap : PageHeap m)

def pages : Nat := heap.heapSize / m.pageSize

/-- The pages that set-up uses itself. -/
def used : Nat := pagesUsed m heap.heapBase (freeBase m heap.pages nbOrders)

def setUp (layout : Layout) : Buddy m :=
  _getFreePageSetup layout heap.memory heap.heapBase heap.heapSize

theorem measurable : heap.pages * m.pageSize < m.wordLimit :=
  Nat.lt_of_le_of_lt (Nat.div_mul_le_self _ _) heap.isWord

theorem used_le : heap.used ≤ 11 + heap.pages / 16 := pagesUsed_le heap.isAddress heap.measurable

/-- Set-up marks its own pages in bitmaps that are clear. -/
theorem setUp_eq (layout : Layout) : ∃ b : Buddy m,
    heap.setUp layout = buddySetUsed b 0 heap.used ∧ b.accesses = [] ∧
      (∀ order, order < nbOrders →
        b.order order = ⟨heap.pages >>> order, place layout order (freeBase m heap.pages order)⟩) ∧
      ∀ order word, order < nbOrders → word < orderWords m heap.pages order →
        b.load order word = 0#m.wordTBits := by
  rcases setUpOrders_laidOut layout heap.pages nbOrders 0
    (⟨fun _ => ⟨0, ⟨0, 0⟩⟩, heap.memory, []⟩ : Buddy m) with ⟨passed, laid⟩
  rw [Nat.zero_add] at passed
  have laidOrder : ∀ order, order < nbOrders → _ := fun order inOrders =>
    laid.order order (Nat.zero_le _) (by omega)
  refine ⟨_, ?_, laid.accesses, laidOrder, fun order word inOrders inside => ?_⟩
  · rw [used, ← passed]
    rfl
  · rw [Buddy.load, Buddy.wordAt, laidOrder order inOrders]
    exact laid.cleared order word (Nat.zero_le _) (by omega) inside

/-- Where set-up leaves the bitmaps. -/
theorem order_setUp (layout : Layout) {order : Nat} (inOrders : order < nbOrders) :
    (heap.setUp layout).order order =
      ⟨heap.pages >>> order, place layout order (freeBase m heap.pages order)⟩ := by
  rcases heap.setUp_eq layout with ⟨b, result, _accesses, orders, _clear⟩
  rw [result, order_buddySetUsed]
  exact orders order inOrders

/-- With an array for each bitmap, words of different places are different. -/
theorem ownArrays_separate {b : Buddy m} {pages : Nat} (orders : ∀ order, order < nbOrders →
    b.order order = ⟨pages >>> order, place .ownArrays order (freeBase m pages order)⟩) :
    Separate b := by
  intro order word order' word' inOrders inOrders' same
  rw [Buddy.wordAt, Buddy.wordAt, orders order inOrders, orders order' inOrders'] at same
  have object : order + 1 = order' + 1 := congrArg WordPtr.object same
  have offset : 0 + word = 0 + word' := congrArg WordPtr.offset same
  exact ⟨by omega, by omega⟩

/-- After set-up the bitmaps describe the pages that it has used. -/
theorem described_setUp (isInt : heap.pages < 2 ^ 31) :
    Described (heap.setUp .ownArrays) heap.pages [⟨0, heap.used⟩] := by
  rcases heap.setUp_eq .ownArrays with ⟨b, result, _accesses, orders, clear⟩
  have usedSmall := heap.used_le
  have cleared : Described b heap.pages [] := by
    refine ⟨?_, ownArrays_separate orders, ?_⟩
    · intro order inOrders
      rw [orders order inOrders]
    · intro order index inOrders below
      rw [Buddy.isSet, clear order _ inOrders (word_lt_of_lt below), BitVec.getLsbD_zero]
      refine iff_of_false Bool.false_ne_true ?_
      rintro ⟨page, _inBlock, range, isMember, _inRange⟩
      cases isMember
  rw [result]
  have marked :=
    cleared.setUsed (PageRange.fits_of_first_eq_zero heap.used) (show heap.used < 2 ^ 31 by omega)
  exact marked

end PageHeap

end PageBuddy
end ShovelOS
