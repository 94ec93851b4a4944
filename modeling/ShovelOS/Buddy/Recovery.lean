import ShovelOS.Buddy.Invariant

namespace ShovelOS
namespace BuddyAlloc

open WordBits BlockTree

/-!
# Orders, sizes and the page counter

A request names a number of pages, and the allocator works with an order.
The order of a live block is not stored: a free probes the dirty bits of the
blocks that start at the same page.  The page counter is a word, so its two
updates are reductions; the bound on the total number of live pages says
that they never reduce.
-/

variable {m : Machine}

/-- The bounds of a geometry that set-up accepts: no more orders than the
loop tries, a whole block at each of them, and page addresses that fit in a
word. -/
structure Accepted (m : Machine) (pages orders : Nat) : Prop where
  positive : 0 < orders
  orders_le : orders ≤ 31
  whole : ∀ order, order < orders → 2 ^ order ≤ pages
  fits : pages * 32 ≤ m.wordLimit

theorem Accepted.pages_pos {pages orders : Nat} (accepted : Accepted m pages orders) : 0 < pages :=
  Nat.lt_of_lt_of_le (Nat.two_pow_pos 0) (accepted.whole 0 accepted.positive)

theorem Accepted.order_lt {pages orders order : Nat} (accepted : Accepted m pages orders)
    (inOrders : order < orders) : order < m.wordTBits := by
  have limit := accepted.orders_le
  rcases m.wordTBits_eq with width | width <;> omega

theorem bit_toNat {order : Nat} (below : order < m.wordTBits) :
    (m.bit order).toNat = 2 ^ order := by
  have small : 2 ^ order < 2 ^ m.wordTBits := Nat.pow_lt_pow_right (by decide) below
  have one : 1 < 2 ^ m.wordTBits := Nat.one_lt_two_pow (Nat.ne_of_gt m.wordTBits_pos)
  rw [Machine.bit, BitVec.toNat_shiftLeft, BitVec.toNat_ofNat, Nat.mod_eq_of_lt one,
    Nat.one_shiftLeft, Nat.mod_eq_of_lt small]

/-! ## The order of a request -/

theorem pagesOrderFrom_spec {pages : Nat} (remaining order : Nat)
    (width : order + remaining = m.wordTBits) (reached : pages ≤ 2 ^ (m.wordTBits - 1))
    (started : 0 < remaining) :
    ∃ result, pagesOrderFrom m pages remaining order = some result ∧ order ≤ result ∧
      result < m.wordTBits ∧ pages ≤ 2 ^ result ∧ ∀ low, order ≤ low → low < result →
        2 ^ low < pages := by
  induction remaining generalizing order with
  | zero => exact absurd started (Nat.lt_irrefl 0)
  | succ remaining inductionHypothesis =>
      have below : order < m.wordTBits := by omega
      rw [pagesOrderFrom, bit_toNat below]
      by_cases less : 2 ^ order < pages
      · have notLast : 0 < remaining := by
          by_contra last
          have top : order = m.wordTBits - 1 := by omega
          rw [top] at less
          exact absurd reached (Nat.not_le_of_lt less)
        rw [if_pos less]
        rcases inductionHypothesis (order + 1) (by omega) notLast with
          ⟨result, equal, atLeast, inWord, enough, least⟩
        refine ⟨result, equal, Nat.le_of_succ_le atLeast, inWord, enough,
          fun low lowest below => ?_⟩
        by_cases same : low = order
        · rw [same]
          exact less
        · exact least low (by omega) below
      · rw [if_neg less]
        exact ⟨order, rfl, Nat.le_refl _, below, Nat.le_of_not_lt less,
          fun low lowest below => absurd below (Nat.not_lt_of_le lowest)⟩

/-- Every request of at most half the word range has an order: the least one
with enough pages. -/
theorem _pagesOrder_spec {pages : Nat} (reached : pages ≤ 2 ^ (m.wordTBits - 1)) :
    ∃ order, _pagesOrder m pages = some order ∧ order < m.wordTBits ∧ pages ≤ 2 ^ order ∧
      ∀ low, low < order → 2 ^ low < pages := by
  rcases pagesOrderFrom_spec m.wordTBits 0 (Nat.zero_add _) reached m.wordTBits_pos with
    ⟨order, equal, _, inWord, enough, least⟩
  exact ⟨order, equal, inWord, enough, fun low below => least low (Nat.zero_le _) below⟩

/-! ## The order of a live block -/

theorem determineOrderFrom_above {b : Buddies m} {page low : Nat} {high : Nat}
    (atLeast : low ≤ high)
    (dirty : ∀ order, low ≤ order → order < high → b.isSet .dirty order (page >>> order) = true) :
    determineOrderFrom b page high = determineOrderFrom b page low := by
  induction atLeast with
  | refl => rfl
  | step atLeast inductionHypothesis =>
      rename_i high
      rw [determineOrderFrom, isClear_eq, dirty high atLeast (Nat.lt_succ_self _)]
      exact inductionHypothesis fun order least below => dirty order least (Nat.lt_succ_of_lt below)

/-- The order of a live block is found again from its first page: down to
that order every block on the left edge is dirty, and the next one is
clean. -/
theorem _determineAllocatedPageOrder_eq {b : Buddies m} {pages orders : Nat} {live : List Block}
    (invariant : Invariant b pages orders live) {block : Block} (isLive : block ∈ live) :
    _determineAllocatedPageOrder b block.first = block.order := by
  have inHeap := invariant.inHeap block isLive
  have sameOrders : b.dirty.orders = orders := invariant.geometry.orders .dirty
  have atMostTop : block.order ≤ orders - 1 := Nat.le_sub_one_of_lt inHeap.1
  have dirty : ∀ order, block.order ≤ order → order < orders - 1 →
      b.isSet .dirty order (block.first >>> order) = true := by
    intro order atLeast below
    have above : block.first >>> order = (block.above order).index := by
      rw [Block.shiftRight_split block.first atLeast, Block.first_shiftRight]
      rfl
    rw [above]
    exact invariant.dirty_above inHeap (invariant.dirty_of_mem block isLive) atLeast (by omega)
  rw [_determineAllocatedPageOrder, sameOrders, determineOrderFrom_above atMostTop dirty]
  cases sameOrder : block.order with
  | zero => rfl
  | succ order =>
      have smaller : order < block.order := by
        rw [sameOrder]
        exact Nat.lt_succ_self order
      have leftEdge : (Block.mk order (block.first >>> order)).Contains block.first := rfl
      have inner := Block.within_of_contains (Nat.le_of_lt smaller) leftEdge block.contains_first
      have started := Nat.lt_of_le_of_lt ((Block.contains_iff _ _).mp leftEdge).1 inHeap.2
      have clean := invariant.clean_below block isLive _ inner smaller started
      change b.isSet .dirty order (block.first >>> order) = false at clean
      rw [determineOrderFrom, isClear_eq, clean]
      rfl

/-! ## The page counter -/

def totalPages (live : List Block) : Nat := (live.map Block.size).sum

section Counter

variable {b : Buddies m} {pages orders : Nat} {live : List Block}

/-- A block that starts inside the heap ends before twice its length. -/
theorem InHeap.ends {block : Block} (accepted : Accepted m pages orders)
    (inHeap : InHeap pages orders block) : block.first + block.size ≤ 2 * pages := by
  have size : block.size ≤ pages := accepted.whole block.order inHeap.1
  have started := inHeap.2
  omega

theorem Invariant.totalPages_lt (invariant : Invariant b pages orders live)
    (accepted : Accepted m pages orders) : totalPages live < m.wordLimit := by
  have total : totalPages live ≤ 2 * pages :=
    sum_size_le invariant.apart fun member isMember =>
      (invariant.inHeap member isMember).ends accepted
  have fits := accepted.fits
  have some := accepted.pages_pos
  omega

theorem reserve_total {new : Block}
    (invariant : Invariant (reserve b new.order new.index) pages orders (new :: live))
    (accepted : Accepted m pages orders) (total : b.totalPagesAllocated = totalPages live) :
    (reserve b new.order new.index).totalPagesAllocated = totalPages (new :: live) := by
  have sum : totalPages (new :: live) = new.size + totalPages live := List.sum_cons
  have bound := invariant.totalPages_lt accepted
  have inOrders := (invariant.inHeap new List.mem_cons_self).1
  rw [reserve_totalPagesAllocated, bit_toNat (accepted.order_lt inOrders), total, sum, Nat.add_comm]
  rw [sum] at bound
  exact Nat.mod_eq_of_lt bound

theorem release_total {old : Block} (invariant : Invariant b pages orders live)
    (isLive : old ∈ live)
    (accepted : Accepted m pages orders) (total : b.totalPagesAllocated = totalPages live) :
    (release b old.order old.index).totalPagesAllocated = totalPages (live.erase old) := by
  have sum : totalPages (live.erase old) + old.size = totalPages live := sum_size_erase isLive
  have bound := invariant.totalPages_lt accepted
  have inOrders := (invariant.inHeap old isLive).1
  rw [release_totalPagesAllocated, bit_toNat (accepted.order_lt inOrders), total, ← sum]
  change (totalPages (live.erase old) + old.size + m.wordLimit - old.size) % m.wordLimit = _
  have cancel : totalPages (live.erase old) + old.size + m.wordLimit - old.size =
      totalPages (live.erase old) + m.wordLimit := by omega
  rw [cancel, Nat.add_mod_right]
  exact Nat.mod_eq_of_lt (by omega)

end Counter

end BuddyAlloc
end ShovelOS
