import ShovelOS.Library.BlockTree

namespace ShovelOS
namespace PageRanges

open BlockTree

/-!
# Page ranges and aligned blocks

An allocator that hands out any number of pages keeps ranges, while its search
structure is made of aligned blocks.  A block is touched when some page of it
is in a range.  A parent is touched exactly when one of its halves is, so the
touched blocks of all orders follow from the touched pages.

A range that is aligned for its size touches consecutive blocks of every order:
their number is the number of pages divided by the size of the block, rounded
up.  The blocks that lie wholly in it are counted by the quotient rounded down.
-/

/-- So many pages from a first one on. -/
structure PageRange where
  first : Nat
  count : Nat
  deriving DecidableEq, Repr

/-- The number of blocks of `2 ^ order` pages that so many pages make, rounded
up. -/
def roundUp (n order : Nat) : Nat := (n + (2 ^ order - 1)) / 2 ^ order

theorem roundUp_zero (n : Nat) : roundUp n 0 = n := by rw [roundUp, Nat.pow_zero, Nat.div_one]; rfl

/-- Halving with rounding, order by order. -/
theorem roundUp_succ (n order : Nat) : roundUp n (order + 1) = roundUp ((n + 1) / 2) order := by
  have positive := Nat.two_pow_pos order
  have half : (n + (2 * 2 ^ order - 1)) / 2 = (n + 1) / 2 + (2 ^ order - 1) := by omega
  rw [roundUp, roundUp, Nat.pow_succ', ← Nat.div_div_eq_div_mul, half]

/-- The halves of a rounded quotient, rounded. -/
theorem roundUp_half (n order : Nat) : (roundUp n order + 1) / 2 = roundUp n (order + 1) := by
  have positive := Nat.two_pow_pos order
  have sum : n + (2 ^ order - 1) + 2 ^ order = n + (2 ^ order * 2 - 1) := by omega
  rw [roundUp, roundUp, Nat.pow_succ, ← Nat.div_div_eq_div_mul, ← sum,
    Nat.add_div_right _ positive]

theorem shiftRight_mono {n n' : Nat} (atMost : n ≤ n') (order : Nat) :
    n >>> order ≤ n' >>> order := by
  rw [Nat.shiftRight_eq_div_pow, Nat.shiftRight_eq_div_pow]
  exact Nat.div_le_div_right atMost

/-- The quotient rounded down is no larger. -/
theorem shiftRight_le_roundUp (n order : Nat) : n >>> order ≤ roundUp n order := by
  rw [Nat.shiftRight_eq_div_pow]
  exact Nat.div_le_div_right (Nat.le_add_right _ _)

/-- A number is below the rounded quotient when its multiple is below the
dividend. -/
theorem lt_roundUp_iff {n order k : Nat} : k < roundUp n order ↔ k * 2 ^ order < n := by
  have positive := Nat.two_pow_pos order
  rw [roundUp, Nat.lt_iff_add_one_le, Nat.le_div_iff_mul_le positive, Nat.add_mul, Nat.one_mul]
  omega

theorem block_contains_iff {order index page : Nat} :
    (Block.mk order index).Contains page ↔
      index * 2 ^ order ≤ page ∧ page < index * 2 ^ order + 2 ^ order := by
  rw [Block.contains_iff, Block.first_eq]
  rfl

namespace PageRange

def Contains (range : PageRange) (page : Nat) : Prop :=
  range.first ≤ page ∧ page < range.first + range.count

instance (range : PageRange) (page : Nat) : Decidable (range.Contains page) :=
  inferInstanceAs (Decidable (_ ∧ _))

def Apart (left right : PageRange) : Prop := ∀ page, left.Contains page → ¬ right.Contains page

theorem Apart.symm {left right : PageRange} (apart : left.Apart right) : right.Apart left :=
  fun page inRight inLeft => apart page inLeft inRight

/-- For every order the range begins at a block, or lies in a single one. -/
def Fits (range : PageRange) : Prop :=
  ∀ order, range.first % 2 ^ order = 0 ∨ range.first % 2 ^ order + range.count ≤ 2 ^ order

theorem fits_of_first_eq_zero (count : Nat) : Fits ⟨0, count⟩ :=
  fun _order => Or.inl (Nat.zero_mod _)

/-- A range at the start of a block, and no longer than it, fits. -/
theorem fits_of_block {block : Block} {count : Nat} (within : count ≤ block.size) :
    Fits ⟨block.first, count⟩ := by
  intro order
  have divides : 2 ^ block.order ∣ block.first := by
    rw [Block.first_eq]
    exact Nat.dvd_mul_left _ _
  rcases Nat.le_total order block.order with smaller | larger
  · exact Or.inl (Nat.mod_eq_zero_of_dvd (Nat.dvd_trans (Nat.pow_dvd_pow 2 smaller) divides))
  · right
    have power : 2 ^ block.order ∣ 2 ^ order := Nat.pow_dvd_pow 2 larger
    have remainder : 2 ^ block.order ∣ block.first % 2 ^ order :=
      (Nat.dvd_mod_iff power).mpr divides
    have below : block.first % 2 ^ order < 2 ^ order := Nat.mod_lt _ (Nat.two_pow_pos order)
    rcases remainder with ⟨k, isMultiple⟩
    rcases power with ⟨l, isPower⟩
    have size : block.size = 2 ^ block.order := rfl
    have positive := block.size_pos
    have smaller : k < l := by
      rw [isMultiple, isPower] at below
      exact Nat.lt_of_mul_lt_mul_left below
    have room := Nat.mul_le_mul_left (2 ^ block.order) (Nat.succ_le_of_lt smaller)
    rw [← isPower, Nat.mul_succ] at room
    change block.first % 2 ^ order + count ≤ 2 ^ order
    omega

/-- A multiple that a page reaches is not above the one that it does not leave. -/
theorem le_of_mul_le {size low high page : Nat} (reached : low * size ≤ page)
    (notLeft : page < high * size + size) : low ≤ high := by
  have bound : low * size < (high + 1) * size := by
    rw [Nat.add_mul, Nat.one_mul]
    omega
  exact Nat.le_of_lt_succ (Nat.lt_of_mul_lt_mul_right bound)

/-- A range that begins at a block touches consecutive ones. -/
theorem exists_contains_iff_of_aligned (first count order index : Nat) :
    (∃ page, (Block.mk order index).Contains page ∧
      (PageRange.mk (first * 2 ^ order) count).Contains page) ↔
      first ≤ index ∧ index < first + roundUp count order := by
  have positive := Nat.two_pow_pos order
  constructor
  · rintro ⟨page, inBlock, atLeast, before⟩
    rw [block_contains_iff] at inBlock
    change first * 2 ^ order ≤ page at atLeast
    change page < first * 2 ^ order + count at before
    have low : first ≤ index := le_of_mul_le atLeast inBlock.2
    have high : index - first < roundUp count order := by
      rw [lt_roundUp_iff, Nat.sub_mul]
      omega
    omega
  · rintro ⟨low, high⟩
    have inRange : (index - first) * 2 ^ order < count := lt_roundUp_iff.mp (by omega)
    have above := Nat.mul_le_mul_right (2 ^ order) low
    rw [Nat.sub_mul] at inRange
    refine ⟨index * 2 ^ order, block_contains_iff.mpr ⟨Nat.le_refl _, by omega⟩, above, ?_⟩
    change index * 2 ^ order < first * 2 ^ order + count
    omega

/-- A range within one block touches that one, unless it is empty. -/
theorem exists_contains_iff_of_inOne {range : PageRange} {order : Nat}
    (inOne : range.first % 2 ^ order + range.count ≤ 2 ^ order) (index : Nat) :
    (∃ page, (Block.mk order index).Contains page ∧ range.Contains page) ↔
      range.first / 2 ^ order ≤ index ∧
        index < range.first / 2 ^ order + roundUp range.count order := by
  have positive := Nat.two_pow_pos order
  have split := Nat.div_add_mod range.first (2 ^ order)
  have below := Nat.mod_lt range.first positive
  have one : ¬ 1 < roundUp range.count order := by
    rw [lt_roundUp_iff, Nat.one_mul]
    omega
  have nonempty : 0 < roundUp range.count order ↔
    0 < range.count := by rw [lt_roundUp_iff, Nat.zero_mul]
  rw [Nat.mul_comm] at split
  constructor
  · rintro ⟨page, inBlock, atLeast, before⟩
    rw [block_contains_iff] at inBlock
    have low : range.first / 2 ^ order ≤ index :=
      le_of_mul_le (Nat.le_trans (Nat.le.intro split) atLeast) inBlock.2
    have high : index ≤ range.first / 2 ^ order := le_of_mul_le inBlock.1 (by omega)
    omega
  · rintro ⟨low, high⟩
    have same : index = range.first / 2 ^ order := by omega
    refine ⟨range.first, block_contains_iff.mpr ?_, Nat.le_refl _, by omega⟩
    rw [same]
    omega

/-- Which blocks a range touches. -/
theorem exists_contains_iff {range : PageRange} (fits : range.Fits) (order index : Nat) :
    (∃ page, (Block.mk order index).Contains page ∧ range.Contains page) ↔
      range.first >>> order ≤ index ∧
        index < range.first >>> order + roundUp range.count order := by
  rw [Nat.shiftRight_eq_div_pow]
  rcases fits order with aligned | inOne
  · have whole : range.first = range.first / 2 ^ order * 2 ^ order :=
      (Nat.div_mul_cancel (Nat.dvd_of_mod_eq_zero aligned)).symm
    have touches := exists_contains_iff_of_aligned (range.first / 2 ^ order) range.count order index
    rwa [← whole] at touches
  · exact exists_contains_iff_of_inOne inOne index

/-- The blocks that the rounded-down quotient counts lie in the range. -/
theorem contains_of_lt {range : PageRange} (fits : range.Fits) {order index page : Nat}
    (low : range.first >>> order ≤ index)
    (high : index < range.first >>> order + range.count >>> order)
    (inBlock : (Block.mk order index).Contains page) : range.Contains page := by
  have positive := Nat.two_pow_pos order
  have split := Nat.div_add_mod range.first (2 ^ order)
  rw [Nat.shiftRight_eq_div_pow] at low high
  rw [Nat.shiftRight_eq_div_pow] at high
  rw [block_contains_iff] at inBlock
  have whole : (index - range.first / 2 ^ order + 1) * 2 ^ order ≤ range.count := by
    rw [← Nat.le_div_iff_mul_le positive]
    omega
  have lowPages := Nat.mul_le_mul_right (2 ^ order) low
  rw [Nat.add_mul, Nat.one_mul, Nat.sub_mul] at whole
  rw [Nat.mul_comm] at split
  have aligned : range.first % 2 ^ order = 0 := by
    rcases fits order with aligned | inOne
    · exact aligned
    · omega
  exact ⟨by omega, by omega⟩

end PageRange

/-! ## Touched blocks -/

def Taken (ranges : List PageRange) (page : Nat) : Prop := ∃ range ∈ ranges, range.Contains page

instance (ranges : List PageRange) (page : Nat) : Decidable (Taken ranges page) :=
  inferInstanceAs (Decidable (∃ range ∈ ranges, range.Contains page))

/-- Some page of the block lies in one of the ranges. -/
def Touched (ranges : List PageRange) (block : Block) : Prop :=
  ∃ page, block.Contains page ∧ Taken ranges page

variable {ranges : List PageRange} {range : PageRange}

theorem taken_cons_iff {page : Nat} :
    Taken (range :: ranges) page ↔ range.Contains page ∨ Taken ranges page := by
  simp only [Taken, List.mem_cons, or_and_right, exists_or, exists_eq_left]

theorem touched_cons_iff {block : Block} : Touched (range :: ranges) block ↔
    (∃ page, block.Contains page ∧ range.Contains page) ∨ Touched ranges block := by
  simp only [Touched, taken_cons_iff, and_or_left, exists_or]

theorem taken_congr {other : List PageRange} (same : ∀ range, range ∈ ranges ↔ range ∈ other)
    (page : Nat) :
    Taken ranges page ↔ Taken other page :=
  exists_congr fun range => and_congr_left fun _inRange => same range

/-- A parent is touched when one of its halves is. -/
theorem touched_parent_iff (ranges : List PageRange) (order index : Nat) :
    Touched ranges ⟨order + 1, index⟩ ↔
      Touched ranges ⟨order, 2 * index⟩ ∨ Touched ranges ⟨order, 2 * index + 1⟩ := by
  have halves : ∀ page, (Block.mk (order + 1) index).Contains page ↔
      (Block.mk order (2 * index)).Contains page ∨
        (Block.mk order (2 * index + 1)).Contains page := by
    intro page
    change page >>> (order + 1) = index ↔ page >>> order = 2 * index ∨
      page >>> order = 2 * index + 1
    rw [Nat.shiftRight_succ]
    omega
  simp only [Touched, halves, or_and_right, exists_or]

theorem touched_page_iff (ranges : List PageRange) (page : Nat) :
    Touched ranges ⟨0, page⟩ ↔ Taken ranges page := by
  constructor
  · rintro ⟨other, same, taken⟩
    have equal : other = page := same
    rwa [equal] at taken
  · exact fun taken => ⟨page, rfl, taken⟩

end PageRanges
end ShovelOS
