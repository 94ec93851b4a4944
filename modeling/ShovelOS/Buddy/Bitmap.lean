import ShovelOS.Buddy.Page
import ShovelOS.Library.BlockTree

namespace ShovelOS
namespace BuddyAlloc

open WordBits BlockTree

/-!
# What the walks do to single bits

The update functions of the source rewrite whole words through pointers.
This module says what they do to each bit, once and for all: the bits on the
way from a block towards the root take the new value for as long as the
stopping rule lets the walk go on, and every other bit of either hierarchy
keeps its value.

That statement needs the reserved words of different bitmaps to be
different words, which is `Separate`.  It holds of the layout that gives
each bitmap its own array, and of the packed layout exactly when no order
uses more bits than were reserved for it.
-/

variable {m : Machine}

/-- Both hierarchies track `pages` pages with `orders` orders. -/
structure Geometry (b : Buddies m) (pages orders : Nat) : Prop where
  order0Bits : ∀ hierarchy, (b.buddy hierarchy).order0Bits = pages
  orders : ∀ hierarchy, (b.buddy hierarchy).orders = orders

/-- A bit is used when its block starts inside the tracked pages. -/
theorem lt_buddyOrderBits_iff (b : Buddy) (order bit : Nat) :
    bit < buddyOrderBits b order ↔ (Block.mk order bit).first < b.order0Bits := by
  have positive : 0 < 2 ^ order := Nat.two_pow_pos order
  rw [buddyOrderBits, Block.first_eq, Nat.shiftRight_eq_div_pow, Nat.one_shiftLeft]
  change _ ↔ bit * 2 ^ order < b.order0Bits
  by_cases whole : b.order0Bits % 2 ^ order = 0
  · have cancel : b.order0Bits / 2 ^ order * 2 ^ order = b.order0Bits :=
      Nat.div_mul_cancel (Nat.dvd_of_mod_eq_zero whole)
    rw [if_neg (by simp [whole]), Nat.add_zero, ← Nat.mul_lt_mul_right positive, cancel]
  · rw [if_pos whole, Nat.lt_succ_iff, Nat.le_div_iff_mul_le positive]
    constructor
    · intro low
      refine Nat.lt_of_le_of_ne low ?_
      intro same
      rw [← same, Nat.mul_mod_left] at whole
      exact whole rfl
    · exact Nat.le_of_lt

/-- The bit lies in a word of the bitmap that some used bit also lies in. -/
def Reserved (b : Buddies m) (hierarchy : Hierarchy) (order bit : Nat) : Prop :=
  order < (b.buddy hierarchy).orders ∧
    ∃ used, used < buddyOrderBits (b.buddy hierarchy) order ∧
      used / m.wordTBits = bit / m.wordTBits

/-- Words of different bitmaps are different words. -/
def Separate (b : Buddies m) : Prop :=
  ∀ hierarchy order bit hierarchy' order' bit',
    Reserved b hierarchy order bit → Reserved b hierarchy' order' bit' →
    b.wordAt hierarchy order (bit / m.wordTBits) = b.wordAt hierarchy' order' (bit' / m.wordTBits) →
    hierarchy = hierarchy' ∧ order = order' ∧ bit / m.wordTBits = bit' / m.wordTBits

theorem reserved_of_used {b : Buddies m} {hierarchy : Hierarchy} {order bit : Nat}
    (inOrders : order < (b.buddy hierarchy).orders)
    (used : bit < buddyOrderBits (b.buddy hierarchy) order) : Reserved b hierarchy order bit :=
  ⟨inOrders, bit, used, rfl⟩

theorem Reserved.twin {b : Buddies m} {hierarchy : Hierarchy} {order bit : Nat}
    (reserved : Reserved b hierarchy order bit) : Reserved b hierarchy order (twin bit) := by
  rcases reserved with ⟨inOrders, used, isUsed, sameWord⟩
  refine ⟨inOrders, used, isUsed, ?_⟩
  rw [twin_div m.wordTBits_even]
  exact sameWord

/-! ## Only the words change -/

namespace Buddies

@[simp] theorem buddy_store (b : Buddies m) (hierarchy other : Hierarchy) (order word : Nat)
    (value : BitVec m.wordTBits) :
    (b.store hierarchy order word value).buddy other = b.buddy other := by
  cases other <;> rfl

@[simp] theorem wordAt_store (b : Buddies m) (hierarchy other : Hierarchy)
    (order order' word word' : Nat) (value : BitVec m.wordTBits) :
    (b.store hierarchy order word value).wordAt other order' word' =
      b.wordAt other order' word' := by
  simp [wordAt]

end Buddies

/-- The walks change nothing but the metadata words. -/
theorem walkUp_eq (hierarchy : Hierarchy) (update : BitVec m.wordTBits → Nat → BitVec m.wordTBits)
    (goesOn : BitVec m.wordTBits → Nat → Bool) (remaining order bit : Nat) (b : Buddies m) :
    ∃ words, walkUp hierarchy update goesOn remaining order bit b = { b with words := words } := by
  induction remaining generalizing order bit b with
  | zero => exact ⟨b.words, rfl⟩
  | succ remaining inductionHypothesis =>
      rw [walkUp]
      split
      · rcases inductionHypothesis (order + 1) (bit >>> 1)
          (b.store hierarchy order (bit / m.wordTBits)
            (update (b.load hierarchy order (bit / m.wordTBits)) (bit % m.wordTBits))) with
          ⟨words, equal⟩
        exact ⟨words, equal⟩
      · exact ⟨_, rfl⟩

/-- Two states that differ in the metadata words and the page counter only. -/
structure SameFrame (b b' : Buddies m) : Prop where
  dirty : b'.dirty = b.dirty
  saturated : b'.saturated = b.saturated
  heapBase : b'.heapBase = b.heapBase

namespace SameFrame

variable {b b' b'' : Buddies m}

theorem refl (b : Buddies m) : SameFrame b b := ⟨rfl, rfl, rfl⟩

theorem trans (first : SameFrame b b') (second : SameFrame b' b'') : SameFrame b b'' :=
  ⟨second.dirty.trans first.dirty, second.saturated.trans first.saturated,
    second.heapBase.trans first.heapBase⟩

theorem buddy (frame : SameFrame b b') (hierarchy : Hierarchy) :
    b'.buddy hierarchy = b.buddy hierarchy := by
  cases hierarchy
  · exact frame.dirty
  · exact frame.saturated

theorem wordAt (frame : SameFrame b b') (hierarchy : Hierarchy) (order word : Nat) :
    b'.wordAt hierarchy order word = b.wordAt hierarchy order word := by
  rw [Buddies.wordAt, Buddies.wordAt, frame.buddy]

theorem reserved_iff (frame : SameFrame b b') {hierarchy : Hierarchy} {order bit : Nat} :
    Reserved b' hierarchy order bit ↔ Reserved b hierarchy order bit := by
  rw [Reserved, Reserved, frame.buddy]

theorem geometry (frame : SameFrame b b') {pages orders : Nat}
    (geometry : Geometry b pages orders) :
    Geometry b' pages orders :=
  ⟨fun hierarchy => by rw [frame.buddy]; exact geometry.order0Bits hierarchy,
    fun hierarchy => by rw [frame.buddy]; exact geometry.orders hierarchy⟩

theorem separate (frame : SameFrame b b') (separate : Separate b) : Separate b' := by
  intro hierarchy order bit hierarchy' order' bit' reserved reserved' same
  rw [frame.wordAt, frame.wordAt] at same
  exact separate _ _ _ _ _ _ (frame.reserved_iff.mp reserved) (frame.reserved_iff.mp reserved') same

end SameFrame

theorem walkUp_sameFrame (hierarchy : Hierarchy)
    (update : BitVec m.wordTBits → Nat → BitVec m.wordTBits)
    (goesOn : BitVec m.wordTBits → Nat → Bool) (remaining order bit : Nat) (b : Buddies m) :
    SameFrame b (walkUp hierarchy update goesOn remaining order bit b) ∧
      (walkUp hierarchy update goesOn remaining order bit b).totalPagesAllocated =
        b.totalPagesAllocated := by
  rcases walkUp_eq hierarchy update goesOn remaining order bit b with ⟨words, equal⟩
  rw [equal]
  exact ⟨⟨rfl, rfl, rfl⟩, rfl⟩

/-! ## Reading a bit after one store -/

theorem isSet_store {b : Buddies m} (separate : Separate b) {hierarchy other : Hierarchy}
    {order bit order' bit' : Nat} (value : BitVec m.wordTBits)
    (reserved : Reserved b hierarchy order bit) (reserved' : Reserved b other order' bit') :
    (b.store hierarchy order (bit / m.wordTBits) value).isSet other order' bit' =
      if other = hierarchy ∧ order' = order ∧ bit' / m.wordTBits = bit / m.wordTBits then
        value.getLsbD (bit' % m.wordTBits)
      else b.isSet other order' bit' := by
  rw [Buddies.isSet, Buddies.load, Buddies.wordAt_store]
  rw [Buddies.store]
  dsimp only
  by_cases sameWord : b.wordAt other order' (bit' / m.wordTBits) =
      b.wordAt hierarchy order (bit / m.wordTBits)
  · have same := separate _ _ _ _ _ _ reserved' reserved sameWord
    rw [if_pos sameWord, if_pos same]
  · rw [if_neg sameWord, if_neg]
    · rfl
    · rintro ⟨sameHierarchy, sameOrder, sameIndex⟩
      apply sameWord
      rw [sameHierarchy, sameOrder, sameIndex]

theorem isClear_eq (b : Buddies m) (hierarchy : Hierarchy) (order bit : Nat) :
    isClear b hierarchy order bit = !b.isSet hierarchy order bit := by
  have inside : bit % m.wordTBits < m.wordTBits := Nat.mod_lt _ m.wordTBits_pos
  apply Bool.eq_iff_iff.mpr
  rw [isClear, decide_eq_true_eq, Machine.bit, and_bit_eq_zero inside, Bool.not_eq_true']
  rfl

/-! ## The walk as a whole -/

/-- What a walk writes, and when it goes on to the parent: `value` is the
value the bit takes, and `proceeds` decides on the value of the twin. -/
structure WalkRule (m : Machine) (update : BitVec m.wordTBits → Nat → BitVec m.wordTBits)
    (goesOn : BitVec m.wordTBits → Nat → Bool) (value : Bool) (proceeds : Bool → Bool) : Prop where
  update_bit : ∀ data shift i, shift < m.wordTBits → i < m.wordTBits →
    (update data shift).getLsbD i = if i = shift then value else data.getLsbD i
  goesOn_eq : ∀ data shift, shift < m.wordTBits →
    goesOn (update data shift) shift = proceeds (data.getLsbD (twin shift))

/-- The block is the start or an ancestor of it, and every twin on the way
up lets the walk proceed. -/
def OnWalk (b : Buddies m) (hierarchy : Hierarchy) (proceeds : Bool → Bool) (start block : Block) :
    Prop :=
  start.Within block ∧ ∀ low, start.order ≤ low → low < block.order →
    proceeds (b.isSet hierarchy low (start.above low).sibling.index) = true

theorem onWalk_self (b : Buddies m) (hierarchy : Hierarchy) (proceeds : Bool → Bool)
    (start : Block) :
    OnWalk b hierarchy proceeds start start :=
  ⟨Block.Within.refl start, fun _low atLeast below => absurd below (Nat.not_lt_of_ge atLeast)⟩

theorem OnWalk.order_le {b : Buddies m} {hierarchy : Hierarchy} {proceeds : Bool → Bool}
    {start block : Block} (onWalk : OnWalk b hierarchy proceeds start block) :
    start.order ≤ block.order := onWalk.1.1

theorem above_above {block : Block} {low high : Nat} (atLeast : block.order ≤ low)
    (below : low ≤ high) :
    (block.above low).above high = block.above high := by
  have within : (block.above low).Within (block.above high) :=
    Block.within_of_contains below ((Block.within_above atLeast).contains block.contains_first)
      ((Block.within_above (Nat.le_trans atLeast below)).contains block.contains_first)
  exact (Block.within_iff_above.mp within).2

/-- Above the start itself, the walk is the walk from the parent, if the
twin of the start lets it proceed. -/
theorem onWalk_iff_parent {b : Buddies m} {hierarchy : Hierarchy} {proceeds : Bool → Bool}
    {start block : Block} (different : block ≠ start) :
    OnWalk b hierarchy proceeds start block ↔
      proceeds (b.isSet hierarchy start.order start.sibling.index) = true ∧
        OnWalk b hierarchy proceeds (start.above (start.order + 1)) block := by
  constructor
  · rintro ⟨within, twins⟩
    have strict : start.order < block.order := by
      refine Nat.lt_of_le_of_ne within.1 ?_
      intro same
      exact different (within.eq_of_order same).symm
    have atStart := twins start.order (Nat.le_refl _) strict
    rw [Block.above_self] at atStart
    refine ⟨atStart, ?_, ?_⟩
    · refine Block.within_iff_above.mpr ⟨strict, ?_⟩
      rw [above_above (Nat.le_succ _) strict]
      exact (Block.within_iff_above.mp within).2
    · intro low atLeast below
      rw [above_above (Nat.le_succ _) atLeast]
      exact twins low (Nat.le_of_succ_le atLeast) below
  · rintro ⟨atStart, within, twins⟩
    refine ⟨(Block.within_above (Nat.le_succ _)).trans within, ?_⟩
    intro low atLeast below
    by_cases same : low = start.order
    · rw [same, Block.above_self]
      exact atStart
    · have strict : start.order + 1 ≤ low := by omega
      have twin := twins low strict below
      rwa [above_above (Nat.le_succ _) strict] at twin

theorem used_above {b : Buddies m} {hierarchy : Hierarchy} {start : Block} {order : Nat}
    (used : start.index < buddyOrderBits (b.buddy hierarchy) start.order)
    (atLeast : start.order ≤ order) :
    (start.above order).index < buddyOrderBits (b.buddy hierarchy) order := by
  rw [lt_buddyOrderBits_iff] at used ⊢
  have inside := (Block.within_above atLeast).contains start.contains_first
  exact Nat.lt_of_le_of_lt ((Block.contains_iff _ _).mp inside).1 used

/-- The walk reads twins only, and those of a used block are reserved. -/
theorem reserved_sibling_above {b : Buddies m} {hierarchy : Hierarchy} {start : Block} {order : Nat}
    (used : start.index < buddyOrderBits (b.buddy hierarchy) start.order)
    (atLeast : start.order ≤ order) (inOrders : order < (b.buddy hierarchy).orders) :
    Reserved b hierarchy order (start.above order).sibling.index :=
  (reserved_of_used inOrders (used_above used atLeast)).twin

/-- A walk reads nothing but the twins above a used block. -/
theorem onWalk_congr {b b' : Buddies m} {hierarchy : Hierarchy} {proceeds : Bool → Bool}
    {start block : Block} (inOrders : block.order < (b.buddy hierarchy).orders)
    (used : start.index < buddyOrderBits (b.buddy hierarchy) start.order)
    (same : ∀ order bit, start.order ≤ order → Reserved b hierarchy order bit →
      b'.isSet hierarchy order bit = b.isSet hierarchy order bit) :
    OnWalk b' hierarchy proceeds start block ↔ OnWalk b hierarchy proceeds start block := by
  refine and_congr_right fun within => ?_
  refine forall_congr' fun low => forall_congr' fun atLeast => forall_congr' fun below => ?_
  rw [same low _ atLeast (reserved_sibling_above used atLeast (Nat.lt_trans below inOrders))]

section Walk

variable {update : BitVec m.wordTBits → Nat → BitVec m.wordTBits}
variable {goesOn : BitVec m.wordTBits → Nat → Bool} {value : Bool} {proceeds : Bool → Bool}
variable {hierarchy : Hierarchy}

theorem isSet_update {b : Buddies m} (rule : WalkRule m update goesOn value proceeds)
    (separate : Separate b) {other : Hierarchy} {order bit order' bit' : Nat}
    (reserved : Reserved b hierarchy order bit) (reserved' : Reserved b other order' bit') :
    (b.store hierarchy order (bit / m.wordTBits)
        (update (b.load hierarchy order (bit / m.wordTBits)) (bit % m.wordTBits))).isSet
      other order' bit' =
      if other = hierarchy ∧ Block.mk order' bit' = ⟨order, bit⟩ then value
      else b.isSet other order' bit' := by
  have positive := m.wordTBits_pos
  rw [isSet_store separate _ reserved reserved']
  by_cases sameWord : other = hierarchy ∧ order' = order ∧ bit' / m.wordTBits = bit / m.wordTBits
  · rcases sameWord with ⟨rfl, rfl, sameIndex⟩
    rw [if_pos ⟨rfl, rfl, sameIndex⟩,
      rule.update_bit _ _ _ (Nat.mod_lt _ positive) (Nat.mod_lt _ positive)]
    by_cases sameShift : bit' % m.wordTBits = bit % m.wordTBits
    · have sameBit : bit' = bit := eq_of_div_mod_eq sameIndex sameShift
      rw [if_pos sameShift, if_pos ⟨rfl, by rw [sameBit]⟩]
    · rw [if_neg sameShift, if_neg]
      · rw [Buddies.isSet, sameIndex]
      · rintro ⟨_, same⟩
        exact sameShift (by rw [(Block.mk.inj same).2])
  · rw [if_neg sameWord, if_neg]
    rintro ⟨sameHierarchy, same⟩
    rcases Block.mk.inj same with ⟨sameOrder, sameBit⟩
    exact sameWord ⟨sameHierarchy, sameOrder, by rw [sameBit]⟩

/-- An iteration goes on to the parent when the twin lets it proceed. -/
theorem goesOn_update (rule : WalkRule m update goesOn value proceeds) (b : Buddies m)
    (order bit : Nat) :
    goesOn (update (b.load hierarchy order (bit / m.wordTBits)) (bit % m.wordTBits))
        (bit % m.wordTBits) = proceeds (b.isSet hierarchy order (twin bit)) := by
  rw [rule.goesOn_eq _ _ (Nat.mod_lt _ m.wordTBits_pos), Buddies.isSet,
    twin_div m.wordTBits_even, twin_mod m.wordTBits_even]

open Classical in
/-- The effect of a walk on every bit that lies in a reserved word.  The
induction follows the iterations; each one writes its own bit and reads a
twin that no earlier iteration has written. -/
theorem isSet_walkUp (rule : WalkRule m update goesOn value proceeds) (remaining : Nat)
    (start : Block) (b : Buddies m) (separate : Separate b)
    (orders : (b.buddy hierarchy).orders = start.order + remaining)
    (used : start.index < buddyOrderBits (b.buddy hierarchy) start.order)
    {other : Hierarchy} {order bit : Nat} (reserved : Reserved b other order bit) :
    (walkUp hierarchy update goesOn remaining start.order start.index b).isSet other order bit =
      if other = hierarchy ∧ OnWalk b hierarchy proceeds start ⟨order, bit⟩ then value
      else b.isSet other order bit := by
  induction remaining generalizing start b with
  | zero =>
      rw [walkUp, if_neg]
      rintro ⟨rfl, onWalk⟩
      have inOrders := reserved.1
      have atLeast : start.order ≤ order := onWalk.order_le
      omega
  | succ remaining inductionHypothesis =>
      have startReserved : Reserved b hierarchy start.order start.index :=
        reserved_of_used (by omega) used
      have parentUsed := used_above used (Nat.le_succ start.order)
      have parentOrders : (b.buddy hierarchy).orders = start.order + 1 + remaining := by omega
      rw [walkUp, goesOn_update rule]
      have stored := fun other order bit (reserved : Reserved b other order bit) =>
        isSet_update rule separate startReserved reserved
      generalize storedState : b.store hierarchy start.order (start.index / m.wordTBits)
        (update (b.load hierarchy start.order (start.index / m.wordTBits))
          (start.index % m.wordTBits)) = b' at stored ⊢
      have frame : SameFrame b b' := by
        rw [← storedState]
        exact ⟨rfl, rfl, rfl⟩
      have fromParent := inductionHypothesis (start.above (start.order + 1)) b'
        (frame.separate separate) (by rw [frame.buddy]; exact parentOrders)
        (by rw [frame.buddy]; exact parentUsed) (frame.reserved_iff.mpr reserved)
      have parentIndex : (start.above (start.order + 1)).index = start.index >>> 1 := by
        simp [Block.above]
      rw [parentIndex] at fromParent
      by_cases atStart : Block.mk order bit = start
      · -- The start itself is written first and never again.
        have sameOrder : order = start.order := congrArg Block.order atStart
        have written : b'.isSet other order bit =
            if other = hierarchy ∧ OnWalk b hierarchy proceeds start ⟨order, bit⟩ then value
            else b.isSet other order bit := by
          rw [stored other order bit reserved, atStart]
          simp [onWalk_self]
        rw [← written]
        split
        · refine fromParent.trans (if_neg ?_)
          rintro ⟨_, onWalk⟩
          have atLeast : start.order + 1 ≤ order := onWalk.order_le
          omega
        · rfl
      · have kept : b'.isSet other order bit = b.isSet other order bit := by
          rw [stored other order bit reserved, if_neg]
          exact fun written => atStart written.2
        by_cases proceed : proceeds (b.isSet hierarchy start.order (twin start.index)) = true
        · rw [if_pos proceed]
          refine fromParent.trans ?_
          rw [kept]
          congr 1
          refine propext (and_congr_right fun sameHierarchy => ?_)
          subst sameHierarchy
          -- The twins above the start are not the bit that was written.
          have sameTwins : ∀ low bit, start.order + 1 ≤ low → Reserved b other low bit →
              b'.isSet other low bit = b.isSet other low bit := by
            intro low bit above lowReserved
            rw [stored other low bit lowReserved, if_neg]
            rintro ⟨_, same⟩
            have sameOrder : low = start.order := congrArg Block.order same
            omega
          have atTwin : proceeds (b.isSet other start.order start.sibling.index) = true := proceed
          rw [onWalk_iff_parent atStart, and_iff_right atTwin]
          exact onWalk_congr reserved.1 parentUsed sameTwins
        · rw [if_neg proceed, kept, if_neg]
          rintro ⟨_, onWalk⟩
          exact proceed ((onWalk_iff_parent atStart).mp onWalk).1

end Walk

/-! ## The four walks of the source -/

theorem setRule_update_bit (data : BitVec m.wordTBits) (shift i : Nat)
    (_shiftBelow : shift < m.wordTBits) (below : i < m.wordTBits) :
    (data ||| m.bit shift).getLsbD i = if i = shift then true else data.getLsbD i := by
  rw [Machine.bit, getLsbD_or_bit below]
  by_cases same : i = shift <;> simp [same]

theorem clearRule_update_bit (data : BitVec m.wordTBits) (shift i : Nat)
    (_shiftBelow : shift < m.wordTBits) (below : i < m.wordTBits) :
    (data &&& ~~~(m.bit shift)).getLsbD i = if i = shift then false else data.getLsbD i := by
  rw [Machine.bit, getLsbD_and_not_bit below]
  by_cases same : i = shift <;> simp [same]

theorem setDirtyRule :
    WalkRule m (fun data shift => data ||| m.bit shift) (fun _data _shift => true)
    true (fun _twin => true) :=
  ⟨setRule_update_bit, fun _data _shift _below => rfl⟩

theorem clearSaturatedRule : WalkRule m (fun data shift => data &&& ~~~(m.bit shift))
    (fun _data _shift => true) false (fun _twin => true) :=
  ⟨clearRule_update_bit, fun _data _shift _below => rfl⟩

theorem clearDirtyRule : WalkRule m (fun data shift => data &&& ~~~(m.bit shift))
    (fun data shift => data &&& _twinMaskFromShift m shift = 0#m.wordTBits) false
      (fun twin => !twin) where
  update_bit := clearRule_update_bit
  goesOn_eq := by
    intro data shift below
    have twinBelow := twin_lt m.wordTBits_even below
    apply Bool.eq_iff_iff.mpr
    rw [decide_eq_true_eq, Bool.not_eq_true']
    change _ &&& pairMask m.wordTBits shift = _ ↔ _
    rw [and_pairMask_eq_zero m.wordTBits_even below,
      clearRule_update_bit data shift shift below below,
      clearRule_update_bit data shift (twin shift) below twinBelow, if_pos rfl,
      if_neg (twin_ne shift)]
    exact and_iff_right rfl

theorem setSaturatedRule : WalkRule m (fun data shift => data ||| m.bit shift)
    (fun data shift => data &&& _twinMaskFromShift m shift = _twinMaskFromShift m shift)
    true (fun twin => twin) where
  update_bit := setRule_update_bit
  goesOn_eq := by
    intro data shift below
    have twinBelow := twin_lt m.wordTBits_even below
    apply Bool.eq_iff_iff.mpr
    rw [decide_eq_true_eq]
    change _ &&& pairMask m.wordTBits shift = pairMask m.wordTBits shift ↔ _
    rw [and_pairMask_eq_pairMask m.wordTBits_even below,
      setRule_update_bit data shift shift below below,
      setRule_update_bit data shift (twin shift) below twinBelow, if_pos rfl,
      if_neg (twin_ne shift)]
    exact and_iff_right rfl

theorem onWalk_always {b : Buddies m} {hierarchy : Hierarchy} {start block : Block} :
    OnWalk b hierarchy (fun _twin => true) start block ↔ start.Within block :=
  ⟨fun onWalk => onWalk.1, fun within => ⟨within, fun _low _atLeast _below => rfl⟩⟩

theorem Geometry.used_iff {b : Buddies m} {pages orders : Nat} (geometry : Geometry b pages orders)
    (hierarchy : Hierarchy) (block : Block) :
    block.index < buddyOrderBits (b.buddy hierarchy) block.order ↔ block.first < pages := by
  rw [lt_buddyOrderBits_iff, geometry.order0Bits]

theorem buddySetDirty_sameFrame (b : Buddies m) (order bit : Nat) :
    SameFrame b (buddySetDirty b order bit) ∧
      (buddySetDirty b order bit).totalPagesAllocated = b.totalPagesAllocated :=
  walkUp_sameFrame _ _ _ _ _ _ _

theorem buddyClearDirty_sameFrame (b : Buddies m) (order bit : Nat) :
    SameFrame b (buddyClearDirty b order bit) ∧
      (buddyClearDirty b order bit).totalPagesAllocated = b.totalPagesAllocated :=
  walkUp_sameFrame _ _ _ _ _ _ _

theorem buddySetSaturated_sameFrame (b : Buddies m) (order bit : Nat) :
    SameFrame b (buddySetSaturated b order bit) ∧
      (buddySetSaturated b order bit).totalPagesAllocated = b.totalPagesAllocated :=
  walkUp_sameFrame _ _ _ _ _ _ _

theorem buddyClearSaturated_sameFrame (b : Buddies m) (order bit : Nat) :
    SameFrame b (buddyClearSaturated b order bit) ∧
      (buddyClearSaturated b order bit).totalPagesAllocated = b.totalPagesAllocated :=
  walkUp_sameFrame _ _ _ _ _ _ _

section Effects

variable {b : Buddies m} {pages orders : Nat} {start : Block}
variable (separate : Separate b) (geometry : Geometry b pages orders)
variable (inOrders : start.order < orders) (inHeap : start.first < pages)

include geometry inOrders in
theorem walk_orders_dirty :
    (b.buddy .dirty).orders = start.order + (b.dirty.orders - start.order) := by
  have same := geometry.orders .dirty
  change b.dirty.orders = orders at same
  change b.dirty.orders = _
  omega

include geometry inOrders in
theorem walk_orders_saturated :
    (b.buddy .saturated).orders = start.order + (b.saturated.orders - start.order) := by
  have same := geometry.orders .saturated
  change b.saturated.orders = orders at same
  change b.saturated.orders = _
  omega

include separate geometry inOrders inHeap

theorem isSet_buddySetDirty {order bit : Nat} (reserved : Reserved b .dirty order bit) :
    (buddySetDirty b start.order start.index).isSet .dirty order bit = true ↔
      b.isSet .dirty order bit = true ∨ start.Within ⟨order, bit⟩ := by
  rw [buddySetDirty, isSet_walkUp setDirtyRule _ start b separate
    (walk_orders_dirty geometry inOrders) ((geometry.used_iff .dirty start).mpr inHeap) reserved,
    onWalk_always]
  by_cases within : start.Within ⟨order, bit⟩ <;> simp [within]

theorem isSet_buddySetSaturated {order bit : Nat} (reserved : Reserved b .saturated order bit) :
    (buddySetSaturated b start.order start.index).isSet .saturated order bit = true ↔
      b.isSet .saturated order bit = true ∨
        OnWalk b .saturated (fun twin => twin) start ⟨order, bit⟩ := by
  rw [buddySetSaturated, isSet_walkUp setSaturatedRule _ start b separate
    (walk_orders_saturated geometry inOrders) ((geometry.used_iff .saturated start).mpr inHeap)
      reserved]
  by_cases onWalk : OnWalk b .saturated (fun twin => twin) start ⟨order, bit⟩ <;> simp [onWalk]

theorem isSet_buddyClearSaturated {order bit : Nat} (reserved : Reserved b .saturated order bit) :
    (buddyClearSaturated b start.order start.index).isSet .saturated order bit = true ↔
      b.isSet .saturated order bit = true ∧ ¬ start.Within ⟨order, bit⟩ := by
  rw [buddyClearSaturated, isSet_walkUp clearSaturatedRule _ start b separate
    (walk_orders_saturated geometry inOrders) ((geometry.used_iff .saturated start).mpr inHeap)
      reserved,
    onWalk_always]
  by_cases within : start.Within ⟨order, bit⟩ <;> simp [within]

theorem isSet_buddyClearDirty {order bit : Nat} (reserved : Reserved b .dirty order bit) :
    (buddyClearDirty b start.order start.index).isSet .dirty order bit = true ↔
      b.isSet .dirty order bit = true ∧
        ¬ OnWalk b .dirty (fun twin => !twin) start ⟨order, bit⟩ := by
  rw [buddyClearDirty, isSet_walkUp clearDirtyRule _ start b separate
    (walk_orders_dirty geometry inOrders) ((geometry.used_iff .dirty start).mpr inHeap) reserved]
  by_cases onWalk : OnWalk b .dirty (fun twin => !twin) start ⟨order, bit⟩ <;> simp [onWalk]

theorem isSet_saturated_buddySetDirty {order bit : Nat}
    (reserved : Reserved b .saturated order bit) :
    (buddySetDirty b start.order start.index).isSet .saturated order bit =
      b.isSet .saturated order bit := by
  rw [buddySetDirty, isSet_walkUp setDirtyRule _ start b separate
    (walk_orders_dirty geometry inOrders) ((geometry.used_iff .dirty start).mpr inHeap) reserved]
  simp

theorem isSet_saturated_buddyClearDirty {order bit : Nat}
    (reserved : Reserved b .saturated order bit) :
    (buddyClearDirty b start.order start.index).isSet .saturated order bit =
      b.isSet .saturated order bit := by
  rw [buddyClearDirty, isSet_walkUp clearDirtyRule _ start b separate
    (walk_orders_dirty geometry inOrders) ((geometry.used_iff .dirty start).mpr inHeap) reserved]
  simp

theorem isSet_dirty_buddySetSaturated {order bit : Nat} (reserved : Reserved b .dirty order bit) :
    (buddySetSaturated b start.order start.index).isSet .dirty order bit =
      b.isSet .dirty order bit := by
  rw [buddySetSaturated, isSet_walkUp setSaturatedRule _ start b separate
    (walk_orders_saturated geometry inOrders) ((geometry.used_iff .saturated start).mpr inHeap)
      reserved]
  simp

theorem isSet_dirty_buddyClearSaturated {order bit : Nat} (reserved : Reserved b .dirty order bit) :
    (buddyClearSaturated b start.order start.index).isSet .dirty order bit =
      b.isSet .dirty order bit := by
  rw [buddyClearSaturated, isSet_walkUp clearSaturatedRule _ start b separate
    (walk_orders_saturated geometry inOrders) ((geometry.used_iff .saturated start).mpr inHeap)
      reserved]
  simp

end Effects

/-! ## Taking and giving back a block -/

theorem reserve_sameFrame (b : Buddies m) (order bit : Nat) :
    SameFrame b (reserve b order bit) := by
  have both := (buddySetSaturated_sameFrame b order bit).1.trans
    (buddySetDirty_sameFrame (buddySetSaturated b order bit) order bit).1
  exact ⟨both.dirty, both.saturated, both.heapBase⟩

theorem release_sameFrame (b : Buddies m) (order bit : Nat) :
    SameFrame b (release b order bit) := by
  have both := (buddyClearSaturated_sameFrame b order bit).1.trans
    (buddyClearDirty_sameFrame (buddyClearSaturated b order bit) order bit).1
  exact ⟨both.dirty, both.saturated, both.heapBase⟩

theorem reserve_totalPagesAllocated (b : Buddies m) (order bit : Nat) :
    (reserve b order bit).totalPagesAllocated =
      (b.totalPagesAllocated + (m.bit order).toNat) % m.wordLimit := by
  change ((buddySetDirty (buddySetSaturated b order bit) order bit).totalPagesAllocated + _) % _ = _
  rw [(buddySetDirty_sameFrame _ order bit).2, (buddySetSaturated_sameFrame b order bit).2]

theorem release_totalPagesAllocated (b : Buddies m) (order bit : Nat) :
    (release b order bit).totalPagesAllocated =
      (b.totalPagesAllocated + m.wordLimit - (m.bit order).toNat) % m.wordLimit := by
  change ((buddyClearDirty (buddyClearSaturated b order bit) order bit).totalPagesAllocated +
    _ - _) % _ = _
  rw [(buddyClearDirty_sameFrame _ order bit).2, (buddyClearSaturated_sameFrame b order bit).2]

section Effects

variable {b : Buddies m} {pages orders : Nat} {start : Block}
variable (separate : Separate b) (geometry : Geometry b pages orders)
variable (inOrders : start.order < orders) (inHeap : start.first < pages)
include separate geometry inOrders inHeap

theorem isSet_dirty_reserve {order bit : Nat} (reserved : Reserved b .dirty order bit) :
    (reserve b start.order start.index).isSet .dirty order bit = true ↔
      b.isSet .dirty order bit = true ∨ start.Within ⟨order, bit⟩ := by
  have frame := (buddySetSaturated_sameFrame b start.order start.index).1
  rw [← isSet_dirty_buddySetSaturated separate geometry inOrders inHeap reserved]
  exact isSet_buddySetDirty (frame.separate separate) (frame.geometry geometry) inOrders inHeap
    (frame.reserved_iff.mpr reserved)

theorem isSet_saturated_reserve {order bit : Nat} (reserved : Reserved b .saturated order bit) :
    (reserve b start.order start.index).isSet .saturated order bit = true ↔
      b.isSet .saturated order bit = true ∨
        OnWalk b .saturated (fun twin => twin) start ⟨order, bit⟩ := by
  have frame := (buddySetSaturated_sameFrame b start.order start.index).1
  rw [← isSet_buddySetSaturated separate geometry inOrders inHeap reserved,
    ← isSet_saturated_buddySetDirty (frame.separate separate)
      (frame.geometry geometry) inOrders inHeap
      (frame.reserved_iff.mpr reserved)]
  rfl

theorem isSet_saturated_release {order bit : Nat} (reserved : Reserved b .saturated order bit) :
    (release b start.order start.index).isSet .saturated order bit = true ↔
      b.isSet .saturated order bit = true ∧ ¬ start.Within ⟨order, bit⟩ := by
  have frame := (buddyClearSaturated_sameFrame b start.order start.index).1
  rw [← isSet_buddyClearSaturated separate geometry inOrders inHeap reserved,
    ← isSet_saturated_buddyClearDirty (frame.separate separate)
      (frame.geometry geometry) inOrders inHeap
      (frame.reserved_iff.mpr reserved)]
  rfl

/-- The dirty walk runs after the saturated one, but reads the dirty bits,
which are still those of the state before. -/
theorem isSet_dirty_release {order bit : Nat} (reserved : Reserved b .dirty order bit) :
    (release b start.order start.index).isSet .dirty order bit = true ↔
      b.isSet .dirty order bit = true ∧
        ¬ OnWalk b .dirty (fun twin => !twin) start ⟨order, bit⟩ := by
  have frame := (buddyClearSaturated_sameFrame b start.order start.index).1
  have same : ∀ order bit, Reserved b .dirty order bit →
      (buddyClearSaturated b start.order start.index).isSet .dirty order bit =
        b.isSet .dirty order bit :=
    fun _order _bit reserved =>
      isSet_dirty_buddyClearSaturated separate geometry inOrders inHeap reserved
  rw [← onWalk_congr reserved.1 ((geometry.used_iff .dirty start).mpr inHeap)
    (fun order bit _atLeast => same order bit), ← same _ _ reserved]
  exact isSet_buddyClearDirty (frame.separate separate) (frame.geometry geometry) inOrders inHeap
    (frame.reserved_iff.mpr reserved)

end Effects

end BuddyAlloc
end ShovelOS
