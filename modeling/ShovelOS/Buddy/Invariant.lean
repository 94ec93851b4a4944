import ShovelOS.Buddy.Layout

namespace ShovelOS
namespace BuddyAlloc

open WordBits BlockTree

/-!
# The bitmaps and the live blocks

The invariant relates both hierarchies to the family of live blocks.  On
blocks that memory backs completely, a dirty bit says that a live block lies
within, and a saturated bit says that live blocks cover the block.  A block
at the end of the heap that memory backs only in part is treated apart: its
dirty bit was set before any block was live, and a free below it may clear
it.  What the walks need of it is weaker and survives both: dirt goes up,
and no block below a live one is dirty.

The two step lemmas are for the states after `reserve` and `release`.  The
search provides the hypotheses of the first, and liveness of the block those
of the second.
-/

variable {m : Machine}

def Backed (pages : Nat) (block : Block) : Prop := block.first + block.size ≤ pages

instance (pages : Nat) (block : Block) : Decidable (Backed pages block) :=
  inferInstanceAs (Decidable (_ ≤ _))

/-- The block belongs to an order that is tracked and starts inside the
heap. -/
def InHeap (pages orders : Nat) (block : Block) : Prop := block.order < orders ∧ block.first < pages

instance (pages orders : Nat) (block : Block) : Decidable (InHeap pages orders block) :=
  inferInstanceAs (Decidable (_ ∧ _))

/-- The bit of a block. -/
def Buddies.marks (b : Buddies m) (hierarchy : Hierarchy) (block : Block) : Bool :=
  b.isSet hierarchy block.order block.index

/-- The bitmaps describe the live blocks. -/
structure Invariant (b : Buddies m) (pages orders : Nat) (live : List Block) : Prop where
  geometry : Geometry b pages orders
  separate : Separate b
  inHeap : ∀ block ∈ live, InHeap pages orders block
  apart : live.Pairwise Block.Apart
  dirty_of_mem : ∀ block ∈ live, b.marks .dirty block = true
  dirty_parent : ∀ block, block.order + 1 < orders → block.first < pages →
    b.marks .dirty block = true → b.marks .dirty (block.above (block.order + 1)) = true
  clean_below : ∀ block ∈ live, ∀ inner : Block, inner.Within block → inner.order < block.order →
    inner.first < pages → b.marks .dirty inner = false
  occupied : ∀ block : Block, block.order < orders → Backed pages block →
    b.marks .dirty block = true → Occupied live block
  saturated : ∀ block : Block, Reserved b .saturated block.order block.index →
    (b.marks .saturated block = true ↔ Covered live block)

theorem Backed.inHeap {pages orders : Nat} {block : Block} (backed : Backed pages block)
    (inOrders : block.order < orders) : InHeap pages orders block :=
  ⟨inOrders, Nat.lt_of_lt_of_le (Nat.lt_add_of_pos_right block.size_pos) backed⟩

theorem Backed.within {pages : Nat} {inner outer : Block} (backed : Backed pages outer)
    (within : inner.Within outer) : Backed pages inner :=
  Nat.le_trans within.range.2 backed

theorem InHeap.above {pages orders order : Nat} {block : Block} (inHeap : InHeap pages orders block)
    (atLeast : block.order ≤ order) (inOrders : order < orders) :
    InHeap pages orders (block.above order) :=
  ⟨inOrders, Nat.lt_of_le_of_lt (Block.within_above atLeast).range.1 inHeap.2⟩

theorem Geometry.reserved {b : Buddies m} {pages orders : Nat} {block : Block}
    (geometry : Geometry b pages orders) (hierarchy : Hierarchy)
    (inHeap : InHeap pages orders block) :
    Reserved b hierarchy block.order block.index :=
  reserved_of_used (by rw [geometry.orders]; exact inHeap.1)
    ((geometry.used_iff hierarchy block).mpr inHeap.2)

theorem Geometry.reserved_sibling {b : Buddies m} {pages orders order : Nat} {block : Block}
    (geometry : Geometry b pages orders) (hierarchy : Hierarchy)
    (inHeap : InHeap pages orders block)
    (atLeast : block.order ≤ order) (inOrders : order < orders) :
    Reserved b hierarchy order (block.above order).sibling.index :=
  (geometry.reserved hierarchy (inHeap.above atLeast inOrders)).twin

namespace Invariant

variable {b : Buddies m} {pages orders : Nat} {live : List Block} {block : Block}
variable (invariant : Invariant b pages orders live)
include invariant

/-- Dirt goes up to the top order. -/
theorem dirty_above (inHeap : InHeap pages orders block) (dirty : b.marks .dirty block = true)
    {order : Nat} (atLeast : block.order ≤ order) (inOrders : order < orders) :
    b.marks .dirty (block.above order) = true := by
  induction atLeast with
  | refl =>
      rw [Block.above_self]
      exact dirty
  | step atLeast inductionHypothesis =>
      rename_i order
      have belowTop : order < orders := Nat.lt_of_succ_lt inOrders
      have parent := invariant.dirty_parent (block.above order) inOrders
        (inHeap.above atLeast belowTop).2 (inductionHypothesis belowTop)
      have parentEq : (block.above order).above (order + 1) = block.above (order + 1) :=
        above_above atLeast (Nat.le_succ order)
      rw [← parentEq]
      exact parent

theorem dirty_within {inner : Block} (inHeap : InHeap pages orders inner)
    (dirty : b.marks .dirty inner = true) (within : inner.Within block)
    (inOrders : block.order < orders) : b.marks .dirty block = true := by
  rw [← (Block.within_iff_above.mp within).2]
  exact invariant.dirty_above inHeap dirty within.1 inOrders

/-- On a completely backed block the dirty bit says whether a live block
lies within. -/
theorem dirty_iff (inOrders : block.order < orders) (backed : Backed pages block) :
    b.marks .dirty block = true ↔ Occupied live block := by
  constructor
  · exact invariant.occupied block inOrders backed
  · rintro ⟨member, isMember, within⟩
    exact invariant.dirty_within (invariant.inHeap member isMember)
      (invariant.dirty_of_mem member isMember) within inOrders

theorem saturated_iff (inHeap : InHeap pages orders block) :
    b.marks .saturated block = true ↔ Covered live block :=
  invariant.saturated block (invariant.geometry.reserved .saturated inHeap)

/-- A clean block without a saturated ancestor is free. -/
theorem free_of_clean (inHeap : InHeap pages orders block)
    (clean : b.marks .dirty block = false)
    (unsaturated : ∀ order, block.order ≤ order → order < orders →
      b.marks .saturated (block.above order) = false) : Free live block := by
  intro page inBlock member isMember inMember
  have memberInHeap := invariant.inHeap member isMember
  rcases Block.nested_of_contains inMember inBlock with within | within
  · have dirty :=
      invariant.dirty_within memberInHeap (invariant.dirty_of_mem member isMember) within
      inHeap.1
    rw [clean] at dirty
    cases dirty
  · have saturated := (invariant.saturated_iff memberInHeap).mpr (covered_of_mem isMember)
    rw [← (Block.within_iff_above.mp within).2,
      unsaturated member.order within.1 memberInHeap.1] at saturated
    cases saturated

end Invariant

/-! ## A block is taken -/

section Reserve

variable {b : Buddies m} {pages orders : Nat} {live : List Block} {new : Block}
variable (invariant : Invariant b pages orders live) (inHeap : InHeap pages orders new)
variable (clean : b.marks .dirty new = false)
variable (unsaturated : ∀ order, new.order ≤ order → order < orders →
  b.marks .saturated (new.above order) = false)

include invariant inHeap in
theorem marks_dirty_reserve {block : Block} (reserved : Reserved b .dirty block.order block.index) :
    (reserve b new.order new.index).marks .dirty block = true ↔
      b.marks .dirty block = true ∨ new.Within block :=
  isSet_dirty_reserve invariant.separate invariant.geometry inHeap.1 inHeap.2 reserved

include invariant inHeap in
/-- The walk over the saturated bits reaches exactly the ancestors whose
other pages were covered. -/
theorem onWalk_saturated_iff {block : Block} (inOrders : block.order < orders) :
    OnWalk b .saturated (fun twin => twin) new block ↔
      new.Within block ∧ ∀ low, new.order ≤ low → low < block.order →
        Covered live (new.above low).sibling := by
  refine and_congr_right fun within => ?_
  refine forall_congr' fun low => forall_congr' fun atLeast => forall_congr' fun below => ?_
  exact invariant.saturated (new.above low).sibling
    (invariant.geometry.reserved_sibling .saturated inHeap atLeast (Nat.lt_trans below inOrders))

include invariant inHeap clean unsaturated

/-- Taking a clean block whose ancestors are not saturated keeps the
invariant. -/
theorem Invariant.reserve :
    Invariant (reserve b new.order new.index) pages orders (new :: live) := by
  have free : Free live new := invariant.free_of_clean inHeap clean unsaturated
  have frame := reserve_sameFrame b new.order new.index
  have dirtyIff : ∀ block, InHeap pages orders block →
      ((BuddyAlloc.reserve b new.order new.index).marks .dirty block = true ↔
        b.marks .dirty block = true ∨ new.Within block) :=
    fun block blockInHeap => marks_dirty_reserve invariant inHeap
      (invariant.geometry.reserved .dirty blockInHeap)
  refine ⟨frame.geometry invariant.geometry, frame.separate invariant.separate, ?_, ?_, ?_, ?_,
    ?_, ?_, ?_⟩
  · intro block isMember
    rcases List.mem_cons.mp isMember with rfl | old
    · exact inHeap
    · exact invariant.inHeap block old
  · exact List.pairwise_cons.mpr ⟨free.apart, invariant.apart⟩
  · intro block isMember
    rcases List.mem_cons.mp isMember with rfl | old
    · exact (dirtyIff block inHeap).mpr (Or.inr (Block.Within.refl block))
    · exact (dirtyIff block (invariant.inHeap block old)).mpr
        (Or.inl (invariant.dirty_of_mem block old))
  · intro block belowTop started dirty
    have blockInHeap : InHeap pages orders block := ⟨Nat.lt_of_succ_lt belowTop, started⟩
    have parentInHeap := blockInHeap.above (Nat.le_succ block.order) belowTop
    refine (dirtyIff _ parentInHeap).mpr ?_
    rcases (dirtyIff block blockInHeap).mp dirty with old | within
    · exact Or.inl (invariant.dirty_parent block belowTop started old)
    · exact Or.inr (within.trans (Block.within_above (Nat.le_succ block.order)))
  · intro block isMember inner within smaller started
    apply Bool.eq_false_iff.mpr
    intro dirty
    rcases List.mem_cons.mp isMember with same | old
    · subst same
      have innerInHeap : InHeap pages orders inner := ⟨Nat.lt_trans smaller inHeap.1, started⟩
      rcases (dirtyIff inner innerInHeap).mp dirty with wasDirty | contains
      · have dirtyBlock := invariant.dirty_within innerInHeap wasDirty within inHeap.1
        rw [clean] at dirtyBlock
        cases dirtyBlock
      · exact absurd contains.1 (Nat.not_le_of_lt smaller)
    · have innerInHeap : InHeap pages orders inner :=
        ⟨Nat.lt_trans smaller (invariant.inHeap block old).1, started⟩
      rcases (dirtyIff inner innerInHeap).mp dirty with wasDirty | contains
      · rw [invariant.clean_below block old inner within smaller started] at wasDirty
        cases wasDirty
      · exact (contains.trans within).not_apart (free.apart block old)
  · intro block inOrders backed dirty
    rw [occupied_cons_iff]
    rcases (dirtyIff block (backed.inHeap inOrders)).mp dirty with old | within
    · exact Or.inl (invariant.occupied block inOrders backed old)
    · exact Or.inr within
  · intro block reserved
    have reservedBefore := frame.reserved_iff.mp reserved
    have inOrders : block.order < orders := by
      rw [← invariant.geometry.orders .saturated]
      exact reservedBefore.1
    rw [covered_cons_iff free, ← onWalk_saturated_iff invariant inHeap inOrders,
      ← invariant.saturated block reservedBefore]
    exact isSet_saturated_reserve invariant.separate invariant.geometry inHeap.1 inHeap.2
      reservedBefore

end Reserve

/-! ## A block is given back -/

section Release

variable {b : Buddies m} {pages orders : Nat} {live : List Block} {old : Block}
variable (invariant : Invariant b pages orders live) (isLive : old ∈ live)
include invariant isLive

theorem marks_dirty_release {block : Block} (reserved : Reserved b .dirty block.order block.index) :
    (release b old.order old.index).marks .dirty block = true ↔
      b.marks .dirty block = true ∧ ¬ OnWalk b .dirty (fun twin => !twin) old block := by
  have inHeap := invariant.inHeap old isLive
  exact isSet_dirty_release invariant.separate invariant.geometry inHeap.1 inHeap.2 reserved

/-- A block that stays dirty keeps its parent dirty: a parent on the walk
has a clean child besides the one on the walk. -/
theorem release_dirty_parent {block : Block} (started : block.first < pages)
    (dirty : b.marks .dirty block = true)
    (notOnWalk : ¬ OnWalk b .dirty (fun twin => !twin) old block) :
    ¬ OnWalk b .dirty (fun twin => !twin) old (block.above (block.order + 1)) := by
  rintro ⟨within, twins⟩
  rcases Nat.lt_or_ge block.order old.order with smaller | larger
  · -- The parent is the freed block, and nothing strictly inside it is dirty.
    have sameOrder : old.order = block.order + 1 :=
      Nat.le_antisymm within.1 smaller
    have same : old = block.above (block.order + 1) := within.eq_of_order sameOrder
    have inside : block.Within old := by
      rw [same]
      exact Block.within_above (Nat.le_succ _)
    rw [invariant.clean_below old isLive block inside smaller started] at dirty
    cases dirty
  · have sameParent : (old.above block.order).index / 2 = block.index / 2 := by
      rw [← Block.above_succ_index larger]
      have index := congrArg Block.index (Block.within_iff_above.mp within).2
      change (old.above (block.order + 1)).index = _ at index
      rw [index]
      have parent := Block.above_succ_index (Nat.le_refl block.order)
      rw [Block.above_self] at parent
      exact parent
    rcases eq_or_eq_twin sameParent with same | other
    · refine notOnWalk ⟨⟨larger, same⟩, fun low atLeast below => ?_⟩
      exact twins low atLeast (Nat.lt_succ_of_lt below)
    · have clean := twins block.order larger (Nat.lt_succ_self _)
      have siblingIndex : (old.above block.order).sibling.index = block.index := by
        change twin (old.above block.order).index = block.index
        rw [other, twin_twin]
      rw [siblingIndex, show b.isSet .dirty block.order block.index = true from dirty] at clean
      cases clean

omit isLive in
/-- A completely backed ancestor that stays dirty has a live block besides
the one given back. -/
theorem release_occupied {block : Block} (inOrders : block.order < orders)
    (backed : Backed pages block) (dirty : b.marks .dirty block = true)
    (notOnWalk : ¬ OnWalk b .dirty (fun twin => !twin) old block) :
    Occupied (live.erase old) block := by
  by_cases within : old.Within block
  · have someTwin : ∃ low, old.order ≤ low ∧ low < block.order ∧
        b.marks .dirty (old.above low).sibling = true := by
      by_contra none
      refine notOnWalk ⟨within, fun low atLeast below => ?_⟩
      apply Bool.not_eq_true' _ |>.mpr
      apply Bool.eq_false_iff.mpr
      exact fun isDirty => none ⟨low, atLeast, below, isDirty⟩
    rcases someTwin with ⟨low, atLeast, below, twinDirty⟩
    have twinWithin : (old.above low).sibling.Within block := by
      rw [← (Block.within_iff_above.mp within).2]
      exact Block.sibling_above_within atLeast below
    rcases invariant.occupied (old.above low).sibling
      (Nat.lt_trans below inOrders) (backed.within twinWithin) twinDirty with
      ⟨member, isMember, memberWithin⟩
    refine ⟨member, (mem_erase_iff invariant.apart).mpr ⟨?_, isMember⟩,
      memberWithin.trans twinWithin⟩
    intro same
    rw [same] at memberWithin
    exact Block.sibling_above_not_contains atLeast (memberWithin.contains old.contains_first)
      old.contains_first
  · exact occupied_erase_of_not_within invariant.apart
      (invariant.occupied block inOrders backed dirty)
      within

/-- Giving back a live block keeps the invariant. -/
theorem Invariant.release :
    Invariant (release b old.order old.index) pages orders (live.erase old) := by
  have oldInHeap := invariant.inHeap old isLive
  have frame := release_sameFrame b old.order old.index
  have dirtyIff : ∀ block, InHeap pages orders block →
      ((BuddyAlloc.release b old.order old.index).marks .dirty block = true ↔
        b.marks .dirty block = true ∧ ¬ OnWalk b .dirty (fun twin => !twin) old block) :=
    fun block blockInHeap => marks_dirty_release invariant isLive
      (invariant.geometry.reserved .dirty blockInHeap)
  have remains : ∀ block ∈ live.erase old, block ≠ old ∧ block ∈ live :=
    fun block isMember => (mem_erase_iff invariant.apart).mp isMember
  refine ⟨frame.geometry invariant.geometry, frame.separate invariant.separate, ?_,
    pairwise_apart_erase invariant.apart old, ?_, ?_, ?_, ?_, ?_⟩
  · exact fun block isMember => invariant.inHeap block (remains block isMember).2
  · intro block isMember
    rcases remains block isMember with ⟨different, wasLive⟩
    refine (dirtyIff block (invariant.inHeap block wasLive)).mpr
      ⟨invariant.dirty_of_mem block wasLive, fun onWalk => ?_⟩
    exact onWalk.1.not_apart (apart_of_mem invariant.apart wasLive isLive different).symm
  · intro block belowTop started dirty
    have blockInHeap : InHeap pages orders block := ⟨Nat.lt_of_succ_lt belowTop, started⟩
    rcases (dirtyIff block blockInHeap).mp dirty with ⟨wasDirty, notOnWalk⟩
    exact (dirtyIff _ (blockInHeap.above (Nat.le_succ block.order) belowTop)).mpr
      ⟨invariant.dirty_parent block belowTop started wasDirty,
        release_dirty_parent invariant isLive started wasDirty notOnWalk⟩
  · intro block isMember inner within smaller started
    rcases remains block isMember with ⟨_different, wasLive⟩
    apply Bool.eq_false_iff.mpr
    intro dirty
    have innerInHeap : InHeap pages orders inner :=
      ⟨Nat.lt_trans smaller (invariant.inHeap block wasLive).1, started⟩
    have wasDirty := ((dirtyIff inner innerInHeap).mp dirty).1
    rw [invariant.clean_below block wasLive inner within smaller started] at wasDirty
    cases wasDirty
  · intro block inOrders backed dirty
    rcases (dirtyIff block (backed.inHeap inOrders)).mp dirty with ⟨wasDirty, notOnWalk⟩
    exact release_occupied invariant inOrders backed wasDirty notOnWalk
  · intro block reserved
    have reservedBefore := frame.reserved_iff.mp reserved
    rw [covered_erase_iff invariant.apart isLive, ← invariant.saturated block reservedBefore]
    exact isSet_saturated_release invariant.separate invariant.geometry oldInHeap.1 oldInHeap.2
      reservedBefore

end Release

/-! ## The state after set-up -/

section Initial

variable {layout : Layout} {b : Buddies m} {pages orders start : Nat}
variable (built : Built layout pages orders start b) (separate : Separate b)
include built separate

theorem Built.dirty_iff {block : Block} (reserved : Reserved b .dirty block.order block.index) :
    b.marks .dirty block = true ↔ PartlyBacked pages block := by
  have inWord : block.index % m.wordTBits < m.wordTBits := Nat.mod_lt _ m.wordTBits_pos
  have inOrders : block.order < orders := by
    rw [← built.geometry.orders .dirty]
    exact reserved.1
  refine (built.words _ _ inWord).trans ⟨?_, fun partlyBacked => ?_⟩
  · rintro ⟨order, below, partlyBacked, samePointer, sameShift⟩
    have markedReserved : Reserved b .dirty order (pages >>> order) :=
      built.geometry.reserved .dirty (show InHeap pages orders ⟨order, pages >>> order⟩ from
      ⟨below, partlyBacked.1⟩)
    rcases separate _ _ _ _ _ _ reserved markedReserved samePointer with ⟨_, sameOrder, sameWord⟩
    have sameBit : block.index = pages >>> order := eq_of_div_mod_eq sameWord sameShift
    have same : block = ⟨order, pages >>> order⟩ := by
      cases block
      exact congrArg₂ Block.mk sameOrder sameBit
    rw [same]
    exact partlyBacked
  · have index := ((partlyBacked_iff pages block.order block.index).mp partlyBacked).2
    refine ⟨block.order, inOrders, ?_, ?_, ?_⟩ <;> rw [← index]
    exact partlyBacked

theorem Built.saturated_clear {block : Block}
    (reserved : Reserved b .saturated block.order block.index) :
    b.marks .saturated block = false := by
  have inWord : block.index % m.wordTBits < m.wordTBits := Nat.mod_lt _ m.wordTBits_pos
  apply Bool.eq_false_iff.mpr
  intro isSet
  rcases (built.words _ _ inWord).mp isSet with ⟨order, below, partlyBacked, samePointer, _⟩
  have markedReserved : Reserved b .dirty order (pages >>> order) :=
    built.geometry.reserved .dirty (show InHeap pages orders ⟨order, pages >>> order⟩ from
      ⟨below, partlyBacked.1⟩)
  rcases separate _ _ _ _ _ _ reserved markedReserved samePointer with ⟨sameHierarchy, _⟩
  cases sameHierarchy

theorem Built.invariant : Invariant b pages orders [] := by
  refine ⟨built.geometry, separate, ?_, List.Pairwise.nil, ?_, ?_, ?_, ?_, ?_⟩
  · exact fun block isMember => absurd isMember List.not_mem_nil
  · exact fun block isMember => absurd isMember List.not_mem_nil
  · intro block belowTop started dirty
    have inHeap : InHeap pages orders block := ⟨Nat.lt_of_succ_lt belowTop, started⟩
    have partlyBacked := (built.dirty_iff separate (built.geometry.reserved .dirty inHeap)).mp dirty
    have parentInHeap := inHeap.above (Nat.le_succ block.order) belowTop
    refine (built.dirty_iff separate (built.geometry.reserved .dirty parentInHeap)).mpr
      ⟨parentInHeap.2, ?_⟩
    exact Nat.lt_of_lt_of_le partlyBacked.2 (Block.within_above (Nat.le_succ block.order)).range.2
  · exact fun block isMember => absurd isMember List.not_mem_nil
  · intro block inOrders backed dirty
    have reserved := built.geometry.reserved .dirty (backed.inHeap inOrders)
    exact absurd ((built.dirty_iff separate reserved).mp dirty).2 (Nat.not_lt_of_le backed)
  · intro block reserved
    rw [built.saturated_clear separate reserved]
    refine ⟨fun isSet => (Bool.false_ne_true isSet).elim, fun covered => ?_⟩
    rcases covered.occupied with ⟨member, isMember, _⟩
    exact absurd isMember List.not_mem_nil

end Initial

end BuddyAlloc
end ShovelOS
