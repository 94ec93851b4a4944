import Mathlib.Data.List.Pairwise
import Mathlib.Algebra.BigOperators.Group.List.Basic
import ShovelOS.Library.WordBits

namespace ShovelOS
namespace BlockTree

open WordBits

/-!
# Aligned power-of-two blocks

A block of order `k` holds `2 ^ k` consecutive pages and starts at a
multiple of its size, so an order and an index name it.  A page lies in the
block exactly when the index is what remains of the page number after its
`k` low bits are dropped.  Two blocks are therefore apart, or one lies
within the other, and the blocks form one binary tree whose siblings are
twins.

For a family of blocks that are pairwise apart, the second half describes
when a block holds a member of the family and when members cover it
completely, and how both change when a block joins or leaves the family.
The two change laws for coverage walk from the block towards the root.
-/

/-- A block by its order and its index among the blocks of that order. -/
structure Block where
  order : Nat
  index : Nat
  deriving DecidableEq, Repr

namespace Block

def size (block : Block) : Nat := 2 ^ block.order

def first (block : Block) : Nat := block.index <<< block.order

def Contains (block : Block) (page : Nat) : Prop := page >>> block.order = block.index

def Within (inner outer : Block) : Prop :=
  inner.order ≤ outer.order ∧ inner.index >>> (outer.order - inner.order) = outer.index

def Apart (left right : Block) : Prop := ∀ page, left.Contains page → ¬ right.Contains page

instance (block : Block) (page : Nat) : Decidable (block.Contains page) :=
  inferInstanceAs (Decidable (_ = _))

instance (inner outer : Block) : Decidable (inner.Within outer) :=
  inferInstanceAs (Decidable (_ ∧ _))

theorem size_pos (block : Block) : 0 < block.size := Nat.two_pow_pos _

theorem first_eq (block : Block) : block.first = block.index * block.size :=
  Nat.shiftLeft_eq _ _

theorem contains_iff (block : Block) (page : Nat) :
    block.Contains page ↔ block.first ≤ page ∧ page < block.first + block.size := by
  rw [Contains, first_eq, Nat.shiftRight_eq_div_pow]
  change page / block.size = block.index ↔ _
  rw [Nat.div_eq_iff block.size_pos]
  have positive := block.size_pos
  rw [Nat.mul_comm block.index]
  omega

theorem contains_first (block : Block) : block.Contains block.first :=
  (block.contains_iff _).mpr ⟨Nat.le_refl _, Nat.lt_add_of_pos_right block.size_pos⟩

theorem first_shiftRight (block : Block) : block.first >>> block.order = block.index :=
  block.contains_first

theorem Apart.symm {left right : Block} (apart : left.Apart right) : right.Apart left :=
  fun page inRight inLeft => apart page inLeft inRight

instance : Std.Symm Apart := ⟨fun _left _right apart => apart.symm⟩

theorem not_apart_self (block : Block) : ¬ block.Apart block :=
  fun apart => apart block.first block.contains_first block.contains_first

theorem Apart.ranges {left right : Block} (apart : left.Apart right) :
    left.first + left.size ≤ right.first ∨ right.first + right.size ≤ left.first := by
  by_contra overlapping
  have leftFirst := apart left.first left.contains_first
  have rightFirst := apart.symm right.first right.contains_first
  rw [contains_iff] at leftFirst rightFirst
  omega

theorem shiftRight_split (page : Nat) {low high : Nat} (below : low ≤ high) :
    page >>> high = (page >>> low) >>> (high - low) := by
  rw [← Nat.shiftRight_add, Nat.add_sub_cancel' below]

theorem Within.contains {inner outer : Block} (within : inner.Within outer) {page : Nat}
    (inside : inner.Contains page) : outer.Contains page := by
  rw [Contains, shiftRight_split page within.1, show page >>> inner.order = inner.index from inside]
  exact within.2

theorem within_of_contains {inner outer : Block} (smaller : inner.order ≤ outer.order) {page : Nat}
    (insideInner : inner.Contains page) (insideOuter : outer.Contains page) :
    inner.Within outer := by
  refine ⟨smaller, ?_⟩
  rw [← show page >>> inner.order = inner.index from insideInner,
    ← show page >>> outer.order = outer.index from insideOuter]
  exact (shiftRight_split page smaller).symm

theorem Within.refl (block : Block) : block.Within block := by
  refine ⟨Nat.le_refl _, ?_⟩
  rw [Nat.sub_self]
  rfl

theorem Within.trans {inner middle outer : Block} (low : inner.Within middle)
    (high : middle.Within outer) : inner.Within outer :=
  within_of_contains (Nat.le_trans low.1 high.1) inner.contains_first
    (high.contains (low.contains inner.contains_first))

theorem Within.eq_of_order {inner outer : Block} (within : inner.Within outer)
    (sameOrder : inner.order = outer.order) : inner = outer := by
  have index := within.2
  rw [sameOrder, Nat.sub_self] at index
  cases inner
  cases outer
  cases sameOrder
  exact congrArg _ index

/-- Blocks that share a page are nested. -/
theorem nested_of_contains {left right : Block} {page : Nat} (inLeft : left.Contains page)
    (inRight : right.Contains page) : left.Within right ∨ right.Within left := by
  rcases Nat.le_total left.order right.order with smaller | smaller
  · exact Or.inl (within_of_contains smaller inLeft inRight)
  · exact Or.inr (within_of_contains smaller inRight inLeft)

theorem Within.range {inner outer : Block} (within : inner.Within outer) :
    outer.first ≤ inner.first ∧ inner.first + inner.size ≤ outer.first + outer.size := by
  have positive := inner.size_pos
  have lowest := (outer.contains_iff _).mp (within.contains inner.contains_first)
  have last : inner.Contains (inner.first + inner.size - 1) :=
    (inner.contains_iff _).mpr ⟨by omega, by omega⟩
  have highest := (outer.contains_iff _).mp (within.contains last)
  omega

theorem Within.not_apart {inner outer : Block} (within : inner.Within outer) :
    ¬ inner.Apart outer :=
  fun apart => apart inner.first inner.contains_first (within.contains inner.contains_first)

/-- The block of the given order that a page number lies in. -/
def above (block : Block) (order : Nat) : Block := ⟨order, block.index >>> (order - block.order)⟩

theorem within_above {block : Block} {order : Nat} (smaller : block.order ≤ order) :
    block.Within (block.above order) := ⟨smaller, rfl⟩

theorem within_iff_above {inner outer : Block} :
    inner.Within outer ↔ inner.order ≤ outer.order ∧ inner.above outer.order = outer := by
  cases outer with
  | mk order index => simp [Within, above]

theorem above_self (block : Block) : block.above block.order = block := by
  simp [above]

theorem above_succ_index {block : Block} {order : Nat} (smaller : block.order ≤ order) :
    (block.above (order + 1)).index = (block.above order).index / 2 := by
  change block.index >>> (order + 1 - block.order) = block.index >>> (order - block.order) / 2
  rw [Nat.succ_sub smaller, Nat.shiftRight_succ]

def sibling (block : Block) : Block := ⟨block.order, twin block.index⟩

theorem sibling_above_within {block : Block} {low high : Nat} (smaller : block.order ≤ low)
    (below : low < high) : (block.above low).sibling.Within (block.above high) := by
  refine ⟨Nat.le_of_lt below, ?_⟩
  change twin (block.index >>> (low - block.order)) >>> (high - low) =
    block.index >>> (high - block.order)
  have split : high - low = 1 + (high - low - 1) := by omega
  rw [split, Nat.shiftRight_add, Nat.shiftRight_one, twin_div_two, ← Nat.shiftRight_one,
    ← Nat.shiftRight_add, ← Nat.shiftRight_add]
  congr 1
  omega

/-- A page of an ancestor lies in the block itself, or in a sibling on the
way up. -/
theorem contains_or_sibling {block : Block} {order page : Nat} (smaller : block.order ≤ order)
    (inside : (block.above order).Contains page) :
    block.Contains page ∨ ∃ low, block.order ≤ low ∧ low < order ∧
      (block.above low).sibling.Contains page := by
  induction order with
  | zero =>
      have zero : block.order = 0 := Nat.le_zero.mp smaller
      rw [← zero, above_self] at inside
      exact Or.inl inside
  | succ order inductionHypothesis =>
      by_cases top : block.order = order + 1
      · rw [← top, above_self] at inside
        exact Or.inl inside
      · have smaller : block.order ≤ order := by omega
        have halves : page >>> order / 2 = (block.above order).index / 2 := by
          rw [← above_succ_index smaller, ← Nat.shiftRight_succ]
          exact inside
        rcases eq_or_eq_twin halves with same | other
        · rcases inductionHypothesis smaller same with inBlock | ⟨low, atLeast, below, inSibling⟩
          · exact Or.inl inBlock
          · exact Or.inr ⟨low, atLeast, Nat.lt_succ_of_lt below, inSibling⟩
        · exact Or.inr ⟨order, smaller, Nat.lt_succ_self _, other⟩

theorem sibling_not_contains {block : Block} {page : Nat} (inside : block.sibling.Contains page) :
    ¬ block.Contains page := by
  intro same
  have equal : twin block.index = block.index :=
    (show page >>> block.order = twin block.index from inside).symm.trans same
  exact twin_ne _ equal

/-- A page of a sibling on the way up is outside the block. -/
theorem sibling_above_not_contains {block : Block} {low page : Nat} (smaller : block.order ≤ low)
    (inside : (block.above low).sibling.Contains page) : ¬ block.Contains page :=
  fun same => sibling_not_contains inside ((within_above smaller).contains same)

theorem half_within {order index child : Nat} (parent : child / 2 = index) :
    (Block.mk order child).Within ⟨order + 1, index⟩ := by
  refine ⟨Nat.le_succ _, ?_⟩
  change child >>> (order + 1 - order) = index
  rw [Nat.add_sub_cancel_left, Nat.shiftRight_one, parent]

end Block

/-! ## Families of blocks -/

/-- Some member lies within the block. -/
def Occupied (family : List Block) (block : Block) : Prop :=
  ∃ member ∈ family, member.Within block

/-- Members no larger than the block hold every page of it. -/
def Covered (family : List Block) (block : Block) : Prop :=
  ∀ page, block.Contains page →
    ∃ member ∈ family, member.order ≤ block.order ∧ member.Contains page

/-- Some page of the block is in no member. -/
def Open (family : List Block) (block : Block) : Prop :=
  ∃ page, block.Contains page ∧ ∀ member ∈ family, ¬ member.Contains page

/-- No page of the block is in a member. -/
def Free (family : List Block) (block : Block) : Prop :=
  ∀ page, block.Contains page → ∀ member ∈ family, ¬ member.Contains page

variable {family : List Block} {block new : Block}

theorem Free.apart (free : Free family block) : ∀ member ∈ family, block.Apart member :=
  fun member isMember page inside => free page inside member isMember

theorem Free.not_occupied (free : Free family block) : ¬ Occupied family block := by
  rintro ⟨member, isMember, within⟩
  exact free member.first (within.contains member.contains_first)
    member isMember member.contains_first

theorem Covered.occupied (covered : Covered family block) : Occupied family block := by
  rcases covered block.first block.contains_first with ⟨member, isMember, smaller, inside⟩
  exact ⟨member, isMember, Block.within_of_contains smaller inside block.contains_first⟩

theorem covered_of_mem (isMember : block ∈ family) : Covered family block :=
  fun _page inside => ⟨block, isMember, Nat.le_refl _, inside⟩

theorem Open.outer {inner outer : Block} (isOpen : Open family inner)
    (within : inner.Within outer) :
    Open family outer := by
  rcases isOpen with ⟨page, inside, outside⟩
  exact ⟨page, within.contains inside, outside⟩

theorem Open.not_covered (isOpen : Open family block) : ¬ Covered family block := by
  rcases isOpen with ⟨page, inside, outside⟩
  intro covered
  rcases covered page inside with ⟨member, isMember, _smaller, inMember⟩
  exact outside member isMember inMember

/-! ## A block joins the family -/

theorem occupied_cons_iff :
    Occupied (new :: family) block ↔ Occupied family block ∨ new.Within block := by
  constructor
  · rintro ⟨member, isMember, within⟩
    rcases List.mem_cons.mp isMember with same | old
    · exact Or.inr (same ▸ within)
    · exact Or.inl ⟨member, old, within⟩
  · rintro (⟨member, isMember, within⟩ | within)
    · exact ⟨member, List.mem_cons_of_mem _ isMember, within⟩
    · exact ⟨new, List.mem_cons_self, within⟩

/-- A joining block covers itself, and an ancestor becomes covered exactly
when every sibling on the way up to it already was. -/
theorem covered_cons_iff (free : Free family new) :
    Covered (new :: family) block ↔ Covered family block ∨
      (new.Within block ∧ ∀ low, new.order ≤ low → low < block.order →
        Covered family (new.above low).sibling) := by
  constructor
  · intro covered
    by_cases ancestor : new.Within block
    · right
      refine ⟨ancestor, fun low atLeast below page inside => ?_⟩
      have aboveEq := (Block.within_iff_above.mp ancestor).2
      have inBlock : block.Contains page := by
        have within := Block.sibling_above_within atLeast below
        rw [aboveEq] at within
        exact within.contains inside
      rcases covered page inBlock with ⟨member, isMember, _smaller, inMember⟩
      rcases List.mem_cons.mp isMember with same | old
      · subst same
        exact absurd inMember (Block.sibling_above_not_contains atLeast inside)
      · refine ⟨member, old, ?_, inMember⟩
        change member.order ≤ low
        by_contra larger
        have within : (new.above low).sibling.Within (new.above member.order) :=
          Block.sibling_above_within atLeast (by omega)
        have aboveWithin : (new.above member.order).Within member :=
          Block.within_of_contains (Nat.le_refl _) (within.contains inside) inMember
        have sameBlock : new.above member.order = member := aboveWithin.eq_of_order rfl
        have newWithin : new.Within member := by
          rw [← sameBlock]
          exact Block.within_above (by omega)
        exact newWithin.not_apart (free.apart member old)
    · left
      intro page inside
      rcases covered page inside with ⟨member, isMember, smaller, inMember⟩
      rcases List.mem_cons.mp isMember with same | old
      · subst same
        exact absurd (Block.within_of_contains smaller inMember inside) ancestor
      · exact ⟨member, old, smaller, inMember⟩
  · rintro (covered | ⟨ancestor, siblings⟩) page inside
    · rcases covered page inside with ⟨member, isMember, smaller, inMember⟩
      exact ⟨member, List.mem_cons_of_mem _ isMember, smaller, inMember⟩
    · have aboveEq := (Block.within_iff_above.mp ancestor).2
      rw [← aboveEq] at inside
      rcases Block.contains_or_sibling ancestor.1 inside with inNew |
        ⟨low, atLeast, below, inSibling⟩
      · exact ⟨new, List.mem_cons_self, ancestor.1, inNew⟩
      · rcases siblings low atLeast below page inSibling with ⟨member, isMember, smaller, inMember⟩
        exact ⟨member, List.mem_cons_of_mem _ isMember,
          Nat.le_trans smaller (Nat.le_of_lt below), inMember⟩

/-! ## A block leaves the family -/

theorem nodup_of_pairwise_apart (apart : family.Pairwise Block.Apart) : family.Nodup := by
  refine List.Pairwise.imp ?_ apart
  intro left right isApart same
  rw [← same] at isApart
  exact Block.not_apart_self left isApart

theorem mem_erase_iff (apart : family.Pairwise Block.Apart) :
    block ∈ family.erase new ↔ block ≠ new ∧ block ∈ family :=
  (nodup_of_pairwise_apart apart).mem_erase_iff

theorem apart_of_mem (apart : family.Pairwise Block.Apart) (isMember : block ∈ family)
    (isOther : new ∈ family) (different : block ≠ new) : block.Apart new :=
  apart.forall isMember isOther different

theorem covered_erase_iff (apart : family.Pairwise Block.Apart) (isMember : new ∈ family) :
    Covered (family.erase new) block ↔ Covered family block ∧ ¬ new.Within block := by
  constructor
  · intro covered
    constructor
    · intro page inside
      rcases covered page inside with ⟨member, remains, smaller, inMember⟩
      exact ⟨member, ((mem_erase_iff apart).mp remains).2, smaller, inMember⟩
    · intro ancestor
      rcases covered new.first (ancestor.contains new.contains_first) with
        ⟨member, remains, _smaller, inMember⟩
      rcases (mem_erase_iff apart).mp remains with ⟨different, old⟩
      exact apart_of_mem apart old isMember different new.first inMember new.contains_first
  · rintro ⟨covered, notAncestor⟩ page inside
    rcases covered page inside with ⟨member, old, smaller, inMember⟩
    refine ⟨member, (mem_erase_iff apart).mpr ⟨?_, old⟩, smaller, inMember⟩
    intro same
    subst same
    exact notAncestor (Block.within_of_contains smaller inMember inside)

theorem occupied_erase_of_not_within (apart : family.Pairwise Block.Apart)
    (occupied : Occupied family block) (notWithin : ¬ new.Within block) :
    Occupied (family.erase new) block := by
  rcases occupied with ⟨member, old, within⟩
  refine ⟨member, (mem_erase_iff apart).mpr ⟨?_, old⟩, within⟩
  intro same
  exact notWithin (same ▸ within)

theorem pairwise_apart_erase (apart : family.Pairwise Block.Apart) (block : Block) :
    (family.erase block).Pairwise Block.Apart :=
  apart.sublist List.erase_sublist

/-! ## How many pages a family holds -/

def Block.pages (block : Block) : List Nat := List.range' block.first block.size

theorem Block.mem_pages {block : Block} {page : Nat} :
    page ∈ block.pages ↔ block.Contains page := by
  rw [Block.pages, List.mem_range'_1, Block.contains_iff]

theorem nodup_pages (apart : family.Pairwise Block.Apart) : (family.flatMap Block.pages).Nodup := by
  refine List.nodup_flatMap.mpr ⟨fun member _isMember => List.nodup_range', apart.imp ?_⟩
  intro left right isApart page inLeft inRight
  exact isApart page (Block.mem_pages.mp inLeft) (Block.mem_pages.mp inRight)

/-- Blocks that are pairwise apart and end at or before a limit have at most
so many pages in total. -/
theorem sum_size_le {limit : Nat} (apart : family.Pairwise Block.Apart)
    (inside : ∀ member ∈ family, member.first + member.size ≤ limit) :
    (family.map Block.size).sum ≤ limit := by
  have below : ∀ page ∈ family.flatMap Block.pages, page ∈ List.range limit := by
    intro page isPage
    rcases List.mem_flatMap.mp isPage with ⟨member, isMember, inMember⟩
    have range := (Block.contains_iff _ _).mp (Block.mem_pages.mp inMember)
    exact List.mem_range.mpr (Nat.lt_of_lt_of_le range.2 (inside member isMember))
  have count := ((nodup_pages apart).subperm below).length_le
  rw [List.length_range, List.length_flatMap] at count
  have lengths : family.map (fun member => member.pages.length) = family.map Block.size :=
    List.map_congr_left fun member _isMember => List.length_range'
  rwa [lengths] at count

theorem sum_size_erase (isMember : block ∈ family) :
    ((family.erase block).map Block.size).sum + block.size = (family.map Block.size).sum := by
  have same := ((List.perm_cons_erase isMember).map Block.size).sum_eq
  rw [List.map_cons, List.sum_cons] at same
  omega

end BlockTree
end ShovelOS
