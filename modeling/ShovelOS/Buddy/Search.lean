import ShovelOS.Buddy.Recovery

namespace ShovelOS
namespace BuddyAlloc

open WordBits BlockTree

/-!
# What the search finds

The search descends from the top order.  At each order above the target it
enters the first block that is not saturated, and returns whatever it finds
below, so there is no way back to a second block.  Under the invariant an
unsaturated block all of whose ancestors are unsaturated is an open one: some
page of it is in no live block.  The block entered at an order is therefore
the first open block of that order in the whole heap, and the search
succeeds exactly when that block, one order above the target, has a clean
half.

Pages after the end of the heap are in no live block either.  They make the
last block of an order open, although no half of it may be in use.
-/

variable {m : Machine}

/-! ## The loop -/

/-- The first index of a range at which the predicate holds. -/
def firstBit (p : Nat → Bool) (count first : Nat) : Option Nat :=
  forBits (fun bit => if p bit then some bit else none) count first

theorem firstBit_succ (p : Nat → Bool) (count first : Nat) :
    firstBit p (count + 1) first = if p first then some first else
      firstBit p count (first + 1) := by
  rw [firstBit, forBits]
  by_cases holds : p first = true
  · simp only [holds, if_true]
  · simp only [holds, if_false, Bool.false_eq_true]
    rfl

theorem firstBit_eq_none {p : Nat → Bool} {count first : Nat} (none : firstBit p count first = none)
    {bit : Nat} (atLeast : first ≤ bit) (below : bit < first + count) : p bit = false := by
  induction count generalizing first with
  | zero => omega
  | succ count inductionHypothesis =>
      rw [firstBit_succ] at none
      by_cases holds : p first = true
      · rw [if_pos holds] at none
        cases none
      · rw [if_neg holds] at none
        by_cases same : bit = first
        · rw [same]
          exact Bool.eq_false_iff.mpr holds
        · exact inductionHypothesis none (by omega) (by omega)

theorem firstBit_eq_some {p : Nat → Bool} {count first found : Nat}
    (some : firstBit p count first = some found) :
    first ≤ found ∧ found < first + count ∧ p found = true ∧
      ∀ bit, first ≤ bit → bit < found → p bit = false := by
  induction count generalizing first with
  | zero => cases some
  | succ count inductionHypothesis =>
      rw [firstBit_succ] at some
      by_cases holds : p first = true
      · rw [if_pos holds] at some
        cases some
        exact ⟨Nat.le_refl _, by omega, holds, fun bit atLeast below => by omega⟩
      · rw [if_neg holds] at some
        rcases inductionHypothesis some with ⟨atLeast, below, found, before⟩
        refine ⟨by omega, by omega, found, fun bit lowest lower => ?_⟩
        by_cases same : bit = first
        · rw [same]
          exact Bool.eq_false_iff.mpr holds
        · exact before bit (by omega) lower

theorem firstBit_isSome_iff {p : Nat → Bool} {count first : Nat} :
    (firstBit p count first).isSome = true ↔ ∃ bit, first ≤ bit ∧ bit < first + count ∧
      p bit = true := by
  constructor
  · intro isSome
    rcases Option.isSome_iff_exists.mp isSome with ⟨found, equal⟩
    rcases firstBit_eq_some equal with ⟨atLeast, below, holds, _⟩
    exact ⟨found, atLeast, below, holds⟩
  · rintro ⟨bit, atLeast, below, holds⟩
    rw [Option.isSome_iff_ne_none]
    intro none
    rw [firstBit_eq_none none atLeast below] at holds
    cases holds

theorem forBits_eq_firstBit (p : Nat → Bool) (result : Nat → Nat) (count first : Nat) :
    forBits (fun bit => if p bit then some (result bit) else none) count first =
      (firstBit p count first).map result := by
  induction count generalizing first with
  | zero => rfl
  | succ count inductionHypothesis =>
      rw [firstBit_succ, forBits, inductionHypothesis]
      by_cases holds : p first = true
      · simp only [holds, if_true, Option.map_some]
      · simp only [holds, if_false, Bool.false_eq_true]

/-! ## The equations of the search -/

variable {b : Buddies m} {pages orders : Nat} {live : List Block}

/-- The end of the range that the search passes to the next order. -/
def halvesEnd (b : Buddies m) (order bit : Nat) : Nat :=
  if bit <<< 1 + 2 > buddyOrderBits b.saturated order then buddyOrderBits b.saturated order
  else bit <<< 1 + 2

/-- At the target order: the first block that is neither saturated nor
dirty. -/
theorem search_at (b : Buddies m) (order first last : Nat) :
    buddySearchUnsaturated b order order first last =
      (firstBit (fun bit => isClear b .saturated order bit && isClear b .dirty order bit)
        (last - first) first).getD m.wordTMax := by
  have body : ∀ bit, (if isClear b .saturated order bit then
      if isClear b .dirty order bit then some bit else none else none) =
      if isClear b .saturated order bit && isClear b .dirty order bit then some bit else none := by
    intro bit
    cases isClear b .saturated order bit <;> rfl
  cases order with
  | zero =>
      rw [buddySearchUnsaturated, firstBit]
      simp only [if_true, body]
  | succ order =>
      rw [buddySearchUnsaturated, firstBit]
      simp only [Nat.lt_irrefl, gt_iff_lt, if_false, if_true, body]

/-- Above the target: enter the first block that is not saturated. -/
theorem search_above (b : Buddies m) {target order : Nat} (above : target ≤ order)
    (first last : Nat) :
    buddySearchUnsaturated b target (order + 1) first last =
      ((firstBit (isClear b .saturated (order + 1)) (last - first) first).map fun bit =>
        buddySearchUnsaturated b target order (bit <<< 1) (halvesEnd b order bit)).getD
          m.wordTMax := by
  rw [buddySearchUnsaturated, ← forBits_eq_firstBit]
  simp only [gt_iff_lt, Nat.lt_succ_of_le above, if_true]
  rfl

/-- Below the target nothing is found. -/
theorem search_below (b : Buddies m) {target order : Nat} (below : order < target)
    (first last : Nat) :
    buddySearchUnsaturated b target order first last = m.wordTMax := by
  have nothing : ∀ (body : Nat → Bool) count first,
      forBits (fun bit => if body bit then (none : Option Nat) else none) count first = none := by
    intro body count first
    induction count generalizing first with
    | zero => rfl
    | succ count inductionHypothesis =>
        rw [forBits, ite_self]
        exact inductionHypothesis (first + 1)
  cases order with
  | zero =>
      rw [buddySearchUnsaturated]
      simp only [Nat.ne_of_lt below, if_false]
      rw [nothing]
      rfl
  | succ order =>
      rw [buddySearchUnsaturated]
      simp only [gt_iff_lt, Nat.not_lt_of_lt below, Nat.ne_of_lt below, if_false]
      rw [nothing]
      rfl

/-! ## Open blocks -/

/-- The blocks that the search looks at in one call: they are in use, no
ancestor of them is saturated, and the first open block of the order is
among them if there is one. -/
structure Frontier (b : Buddies m) (pages orders : Nat) (live : List Block)
    (order first last : Nat) : Prop where
  inOrders : order < orders
  used : ∀ bit, first ≤ bit → bit < last → (Block.mk order bit).first < pages
  unsaturated : ∀ bit, first ≤ bit → bit < last → ∀ high, order < high → high < orders →
    b.marks .saturated ((Block.mk order bit).above high) = false
  complete : ∀ bit, (Block.mk order bit).first < pages → Open live ⟨order, bit⟩ →
    ∃ bit', first ≤ bit' ∧ bit' < last ∧ bit' ≤ bit ∧ Open live ⟨order, bit'⟩

/-- The first block of its order with a page that is in no live block. -/
def FirstOpen (pages : Nat) (live : List Block) (block : Block) : Prop :=
  block.first < pages ∧ Open live block ∧
    ∀ index, index < block.index → ¬ Open live ⟨block.order, index⟩

theorem isClear_iff (b : Buddies m) (hierarchy : Hierarchy) (block : Block) :
    isClear b hierarchy block.order block.index = true ↔ b.marks hierarchy block = false := by
  rw [isClear_eq, Bool.not_eq_true']
  rfl

/-- Between unsaturated ancestors, a block is unsaturated exactly when it is
open. -/
theorem Invariant.unsaturated_iff (invariant : Invariant b pages orders live) {block : Block}
    (inHeap : InHeap pages orders block)
    (unsaturated : ∀ high, block.order < high → high < orders →
      b.marks .saturated (block.above high) = false) :
    b.marks .saturated block = false ↔ Open live block := by
  rw [← Bool.not_eq_true, invariant.saturated_iff inHeap]
  constructor
  · intro notCovered
    by_contra notOpen
    refine notCovered fun page inside => ?_
    by_contra uncovered
    refine notOpen ⟨page, inside, fun member isMember inMember => ?_⟩
    by_cases small : member.order ≤ block.order
    · exact uncovered ⟨member, isMember, small, inMember⟩
    · have larger := Nat.lt_of_not_le small
      have memberInHeap := invariant.inHeap member isMember
      have within := Block.within_of_contains (Nat.le_of_lt larger) inside inMember
      have saturated := (invariant.saturated_iff memberInHeap).mpr (covered_of_mem isMember)
      rw [← (Block.within_iff_above.mp within).2,
        unsaturated member.order larger memberInHeap.1] at saturated
      cases saturated
  · exact Open.not_covered

theorem Frontier.isClear_iff_open (invariant : Invariant b pages orders live)
    {order first last : Nat}
    (frontier : Frontier b pages orders live order first last) {bit : Nat} (atLeast : first ≤ bit)
    (below : bit < last) : isClear b .saturated order bit = true ↔ Open live ⟨order, bit⟩ := by
  refine (isClear_iff b .saturated ⟨order, bit⟩).trans ?_
  exact invariant.unsaturated_iff ⟨frontier.inOrders, frontier.used bit atLeast below⟩
    (frontier.unsaturated bit atLeast below)

/-- The block entered from a frontier is the first open block of the order
in the whole heap. -/
theorem Frontier.entered (invariant : Invariant b pages orders live) {order first last bit : Nat}
    (frontier : Frontier b pages orders live order first last)
    (found : firstBit (isClear b .saturated order) (last - first) first = some bit) :
    first ≤ bit ∧ bit < last ∧ FirstOpen pages live ⟨order, bit⟩ := by
  rcases firstBit_eq_some found with ⟨atLeast, below, clear, before⟩
  have belowLast : bit < last := by omega
  refine ⟨atLeast, belowLast, frontier.used bit atLeast belowLast,
    (frontier.isClear_iff_open invariant atLeast belowLast).mp clear, ?_⟩
  intro index lower isOpen
  have started : (Block.mk order index).first < pages := by
    refine Nat.lt_of_le_of_lt ?_ (frontier.used bit atLeast belowLast)
    rw [Block.first_eq, Block.first_eq]
    exact Nat.mul_le_mul_right _ (Nat.le_of_lt lower)
  rcases frontier.complete index started isOpen with ⟨index', atLeast', below', lower', isOpen'⟩
  have clear' := (frontier.isClear_iff_open invariant atLeast' below').mpr isOpen'
  rw [before index' atLeast' (Nat.lt_of_le_of_lt lower' lower)] at clear'
  cases clear'

theorem Frontier.not_entered (invariant : Invariant b pages orders live) {order first last : Nat}
    (frontier : Frontier b pages orders live order first last)
    (none : firstBit (isClear b .saturated order) (last - first) first = none) :
    ∀ bit, (Block.mk order bit).first < pages → ¬ Open live ⟨order, bit⟩ := by
  intro bit started isOpen
  rcases frontier.complete bit started isOpen with ⟨bit', atLeast, below, _, isOpen'⟩
  have clear := (frontier.isClear_iff_open invariant atLeast below).mpr isOpen'
  rw [firstBit_eq_none none atLeast (by omega)] at clear
  cases clear

/-! ## The descent -/

/-- The halves of a block that are in use are those of the next range. -/
theorem halves_iff (invariant : Invariant b pages orders live) {order bit child : Nat} :
    (bit <<< 1 ≤ child ∧ child < halvesEnd b order bit) ↔
      child / 2 = bit ∧ (Block.mk order child).first < pages := by
  have used : child < buddyOrderBits b.saturated order ↔ (Block.mk order child).first < pages :=
    invariant.geometry.used_iff .saturated ⟨order, child⟩
  rw [← used, halvesEnd, Nat.shiftLeft_eq]
  split <;> omega

theorem Frontier.halves (invariant : Invariant b pages orders live) {order first last bit : Nat}
    (frontier : Frontier b pages orders live (order + 1) first last)
    (atLeast : first ≤ bit) (below : bit < last)
    (firstOpen : FirstOpen pages live ⟨order + 1, bit⟩) :
    Frontier b pages orders live order (bit <<< 1) (halvesEnd b order bit) := by
  have aboveHalf : ∀ child high, child / 2 = bit → order < high →
      (Block.mk order child).above high = (Block.mk (order + 1) bit).above high := by
    intro child high parent strict
    have within : (Block.mk order child).Within ⟨order + 1, bit⟩ := Block.half_within parent
    rw [← (Block.within_iff_above.mp within).2]
    exact (above_above (Nat.le_succ order) strict).symm
  refine ⟨Nat.lt_of_succ_lt frontier.inOrders, ?_, ?_, ?_⟩
  · exact fun child lowest lower => ((halves_iff invariant).mp ⟨lowest, lower⟩).2
  · intro child lowest lower high strict inOrders
    have parent := ((halves_iff invariant).mp ⟨lowest, lower⟩).1
    rw [aboveHalf child high parent strict]
    rcases Nat.eq_or_lt_of_le strict with same | higher
    · rw [← same]
      have enteredClear := (frontier.isClear_iff_open invariant atLeast below).mpr firstOpen.2.1
      have unsaturated := (isClear_iff b .saturated ⟨order + 1, bit⟩).mp enteredClear
      rwa [← Block.above_self (Block.mk (order + 1) bit)] at unsaturated
    · exact frontier.unsaturated bit atLeast below high higher inOrders
  · intro child started isOpen
    have parentOpen : Open live ⟨order + 1, child / 2⟩ :=
      isOpen.outer (Block.half_within rfl)
    have notBefore : bit ≤ child / 2 := by
      by_contra before
      exact firstOpen.2.2 (child / 2) (Nat.lt_of_not_le before) parentOpen
    rcases Nat.eq_or_lt_of_le notBefore with same | after
    · rcases (halves_iff invariant).mpr ⟨same.symm, started⟩ with ⟨lowest, lower⟩
      exact ⟨child, lowest, lower, Nat.le_refl _, isOpen⟩
    · -- A later block is in use, so the open half of the entered one is in use as well.
      rcases firstOpen.2.1 with ⟨page, inside, outside⟩
      have halfParent : page >>> order / 2 = bit := by
        rw [← Nat.shiftRight_succ]
        exact inside
      have lower : page >>> order < child := by omega
      have halfStarted : (Block.mk order (page >>> order)).first < pages := by
        refine Nat.lt_of_le_of_lt ?_ started
        rw [Block.first_eq, Block.first_eq]
        exact Nat.mul_le_mul_right _ (Nat.le_of_lt lower)
      rcases (halves_iff invariant).mpr ⟨halfParent, halfStarted⟩ with ⟨lowest, highest⟩
      exact ⟨page >>> order, lowest, highest, Nat.le_of_lt lower, page, rfl, outside⟩

/-- The search from a frontier above the target ends in the halves of the
first open block one order above the target, or there is no such block and
nothing is found. -/
theorem Frontier.descend (invariant : Invariant b pages orders live) {target : Nat} (order : Nat)
    {first last : Nat} (frontier : Frontier b pages orders live (order + 1) first last)
    (above : target ≤ order) :
    (buddySearchUnsaturated b target (order + 1) first last = m.wordTMax ∧
      ∀ bit, ¬ FirstOpen pages live ⟨target + 1, bit⟩) ∨
    ∃ bit, FirstOpen pages live ⟨target + 1, bit⟩ ∧
      Frontier b pages orders live target (bit <<< 1) (halvesEnd b target bit) ∧
      buddySearchUnsaturated b target (order + 1) first last =
        buddySearchUnsaturated b target target (bit <<< 1) (halvesEnd b target bit) := by
  induction order generalizing first last with
  | zero =>
      have zero : target = 0 := Nat.le_zero.mp above
      subst zero
      rw [search_above b above]
      cases found : firstBit (isClear b .saturated (0 + 1)) (last - first) first with
      | none =>
          exact Or.inl ⟨rfl, fun bit firstOpen =>
            frontier.not_entered invariant found bit firstOpen.1 firstOpen.2.1⟩
      | some bit =>
          rcases frontier.entered invariant found with ⟨atLeast, below, firstOpen⟩
          exact Or.inr ⟨bit, firstOpen, frontier.halves invariant atLeast below firstOpen, rfl⟩
  | succ order inductionHypothesis =>
      rw [search_above b above]
      cases found : firstBit (isClear b .saturated (order + 1 + 1)) (last - first) first with
      | none =>
          refine Or.inl ⟨rfl, fun bit firstOpen => ?_⟩
          -- An open block has open ancestors up to the frontier.
          have within : (Block.mk (target + 1) bit).Within
              ((Block.mk (target + 1) bit).above (order + 1 + 1)) :=
            Block.within_above (Nat.succ_le_succ above)
          refine frontier.not_entered invariant found _ ?_ (firstOpen.2.1.outer within)
          exact Nat.lt_of_le_of_lt within.range.1 firstOpen.1
      | some bit =>
          rcases frontier.entered invariant found with ⟨atLeast, below, firstOpen⟩
          have next := frontier.halves invariant atLeast below firstOpen
          by_cases same : target = order + 1
          · subst same
            exact Or.inr ⟨bit, firstOpen, next, rfl⟩
          · exact inductionHypothesis next (by omega)

/-! ## The result -/

/-- The search that `_get_free_pages` starts. -/
def searchFromTop (b : Buddies m) (target : Nat) : Nat :=
  buddySearchUnsaturated b target (b.saturated.orders - 1) 0
    (buddyOrderBits b.saturated (b.saturated.orders - 1))

theorem InHeap.index_lt (accepted : Accepted m pages orders) {block : Block}
    (inHeap : InHeap pages orders block) : block.index < m.wordTMax := by
  have started := inHeap.2
  rw [Block.first_eq] at started
  have index : block.index ≤ block.index * block.size := Nat.le_mul_of_pos_right _ block.size_pos
  have fits := accepted.fits
  rw [Machine.wordTMax]
  omega

theorem Invariant.unsaturated_of_clean (invariant : Invariant b pages orders live) {block : Block}
    (inHeap : InHeap pages orders block) (clean : b.marks .dirty block = false) :
    b.marks .saturated block = false := by
  apply Bool.eq_false_iff.mpr
  intro saturated
  rcases ((invariant.saturated_iff inHeap).mp saturated).occupied with ⟨member, isMember, within⟩
  have dirty := invariant.dirty_within (invariant.inHeap member isMember)
    (invariant.dirty_of_mem member isMember) within inHeap.1
  rw [clean] at dirty
  cases dirty

/-- At the target order the search finds a clean block of the frontier, and
finds one if there is one. -/
theorem Frontier.search_at_iff (invariant : Invariant b pages orders live)
    (accepted : Accepted m pages orders) {order first last : Nat}
    (frontier : Frontier b pages orders live order first last) :
    buddySearchUnsaturated b order order first last ≠ m.wordTMax ↔
      ∃ bit, first ≤ bit ∧ bit < last ∧ b.marks .dirty ⟨order, bit⟩ = false := by
  rw [search_at]
  constructor
  · intro succeeds
    cases found : firstBit (fun bit => isClear b .saturated order bit && isClear b .dirty order bit)
        (last - first) first with
    | none =>
        rw [found] at succeeds
        exact absurd rfl succeeds
    | some bit =>
        rcases firstBit_eq_some found with ⟨atLeast, below, clear, _⟩
        rw [Bool.and_eq_true] at clear
        exact ⟨bit, atLeast, by omega, (isClear_iff b .dirty ⟨order, bit⟩).mp clear.2⟩
  · rintro ⟨bit, atLeast, below, clean⟩
    have inHeap : ∀ bit, first ≤ bit → bit < last → InHeap pages orders ⟨order, bit⟩ :=
      fun bit atLeast below => ⟨frontier.inOrders, frontier.used bit atLeast below⟩
    have clear : (isClear b .saturated order bit && isClear b .dirty order bit) = true := by
      rw [Bool.and_eq_true]
      exact ⟨(isClear_iff b .saturated ⟨order, bit⟩).mpr
        (invariant.unsaturated_of_clean (inHeap bit atLeast below) clean),
        (isClear_iff b .dirty ⟨order, bit⟩).mpr clean⟩
    have isSome :
        (firstBit (fun bit => isClear b .saturated order bit && isClear b .dirty order bit)
        (last - first) first).isSome = true :=
      firstBit_isSome_iff.mpr ⟨bit, atLeast, by omega, clear⟩
    rcases Option.isSome_iff_exists.mp isSome with ⟨found, equal⟩
    rcases firstBit_eq_some equal with ⟨atLeast', below', _⟩
    rw [equal]
    exact Nat.ne_of_lt ((inHeap found atLeast' (by omega)).index_lt accepted)

theorem Frontier.search_at_found {order first last : Nat}
    (frontier : Frontier b pages orders live order first last)
    (succeeds : buddySearchUnsaturated b order order first last ≠ m.wordTMax) :
    InHeap pages orders ⟨order, buddySearchUnsaturated b order order first last⟩ ∧
      b.marks .dirty ⟨order, buddySearchUnsaturated b order order first last⟩ = false ∧
      ∀ high, order ≤ high → high < orders →
        b.marks .saturated
          ((Block.mk order (buddySearchUnsaturated b order order first last)).above high) =
          false := by
  rw [search_at] at succeeds ⊢
  cases found : firstBit (fun bit => isClear b .saturated order bit && isClear b .dirty order bit)
      (last - first) first with
  | none =>
      rw [found] at succeeds
      exact absurd rfl succeeds
  | some bit =>
      rcases firstBit_eq_some found with ⟨atLeast, below, clear, _⟩
      have belowLast : bit < last := by omega
      rw [Bool.and_eq_true] at clear
      refine ⟨⟨frontier.inOrders, frontier.used bit atLeast belowLast⟩,
        (isClear_iff b .dirty ⟨order, bit⟩).mp clear.2, fun high least inOrders => ?_⟩
      rcases Nat.eq_or_lt_of_le least with same | strict
      · rw [← same]
        have unsaturated := (isClear_iff b .saturated ⟨order, bit⟩).mp clear.1
        rwa [← Block.above_self (Block.mk order bit)] at unsaturated
      · exact frontier.unsaturated bit atLeast belowLast high strict inOrders

theorem top_frontier (invariant : Invariant b pages orders live) (positive : 0 < orders) :
    Frontier b pages orders live (orders - 1) 0 (buddyOrderBits b.saturated (orders - 1)) := by
  have used : ∀ bit, bit < buddyOrderBits b.saturated (orders - 1) ↔
      (Block.mk (orders - 1) bit).first < pages :=
    fun bit => invariant.geometry.used_iff .saturated ⟨orders - 1, bit⟩
  refine ⟨Nat.sub_lt positive Nat.one_pos, fun bit _ below => (used bit).mp below, ?_, ?_⟩
  · exact fun bit _ _ high strict inOrders => absurd strict (by omega)
  · exact fun bit started isOpen =>
      ⟨bit, Nat.zero_le _, (used bit).mpr started, Nat.le_refl _, isOpen⟩

/-- Where the search from the top ends: in a frontier of the target order,
or with nothing. -/
theorem searchFromTop_cases (invariant : Invariant b pages orders live)
    (accepted : Accepted m pages orders) (target : Nat) :
    (searchFromTop b target = m.wordTMax ∧
      (target + 1 < orders → ∀ bit, ¬ FirstOpen pages live ⟨target + 1, bit⟩) ∧
      target + 1 ≠ orders) ∨
    ∃ first last, Frontier b pages orders live target first last ∧
      searchFromTop b target = buddySearchUnsaturated b target target first last ∧
      (target + 1 < orders → ∃ bit, FirstOpen pages live ⟨target + 1, bit⟩ ∧
        first = bit <<< 1 ∧ last = halvesEnd b target bit) ∧
      (target + 1 = orders → first = 0 ∧ last = buddyOrderBits b.saturated target) := by
  have sameOrders : b.saturated.orders = orders := invariant.geometry.orders .saturated
  have top := top_frontier invariant accepted.positive
  rw [searchFromTop, sameOrders]
  rcases Nat.lt_trichotomy (target + 1) orders with below | same | beyond
  · obtain ⟨order, equal⟩ : ∃ order, orders - 1 = order + 1 := ⟨orders - 2, by omega⟩
    rw [equal] at top ⊢
    have above : target ≤ order := by omega
    rcases top.descend invariant order above with ⟨fails, none⟩ | ⟨bit, firstOpen, frontier, ends⟩
    · exact Or.inl ⟨fails, fun _ => none, by omega⟩
    · exact Or.inr ⟨_, _, frontier, ends, fun _ => ⟨bit, firstOpen, rfl, rfl⟩,
        fun same => absurd same (Nat.ne_of_lt below)⟩
  · have equal : orders - 1 = target := by omega
    rw [equal] at top ⊢
    exact Or.inr ⟨_, _, top, rfl, fun below => by omega, fun _ => ⟨rfl, rfl⟩⟩
  · have positive := accepted.positive
    exact Or.inl ⟨search_below b (by omega) _ _, fun below => by omega, by omega⟩

/-- What the search returns is a clean block in the heap, and no block above
it is saturated. -/
theorem searchFromTop_found (invariant : Invariant b pages orders live)
    (accepted : Accepted m pages orders) {target : Nat}
    (succeeds : searchFromTop b target ≠ m.wordTMax) :
    InHeap pages orders ⟨target, searchFromTop b target⟩ ∧
      b.marks .dirty ⟨target, searchFromTop b target⟩ = false ∧
      ∀ high, target ≤ high → high < orders →
        b.marks .saturated ((Block.mk target (searchFromTop b target)).above high) = false := by
  rcases searchFromTop_cases invariant accepted target with ⟨fails, _⟩ |
    ⟨first, last, frontier, ends, _⟩
  · exact absurd fails succeeds
  · rw [ends] at succeeds ⊢
    exact frontier.search_at_found succeeds

/-- Below the top order the search succeeds exactly when the first open
block one order above the target has a clean half in use. -/
theorem searchFromTop_iff (invariant : Invariant b pages orders live)
    (accepted : Accepted m pages orders) {target : Nat} (below : target + 1 < orders) :
    searchFromTop b target ≠ m.wordTMax ↔
      ∃ bit child, FirstOpen pages live ⟨target + 1, bit⟩ ∧ child / 2 = bit ∧
        (Block.mk target child).first < pages ∧ b.marks .dirty ⟨target, child⟩ = false := by
  have unique : ∀ bit bit', FirstOpen pages live ⟨target + 1, bit⟩ →
      FirstOpen pages live ⟨target + 1, bit'⟩ → bit = bit' := by
    intro bit bit' firstOpen firstOpen'
    rcases Nat.lt_trichotomy bit bit' with lower | same | higher
    · exact absurd firstOpen.2.1 (firstOpen'.2.2 bit lower)
    · exact same
    · exact absurd firstOpen'.2.1 (firstOpen.2.2 bit' higher)
  rcases searchFromTop_cases invariant accepted target with ⟨fails, none, _⟩ |
    ⟨first, last, frontier, ends, entered, _⟩
  · refine ⟨fun succeeds => absurd fails succeeds, ?_⟩
    rintro ⟨bit, _child, firstOpen, _⟩
    exact absurd firstOpen (none below bit)
  · rcases entered below with ⟨bit, firstOpen, rfl, rfl⟩
    rw [ends, frontier.search_at_iff invariant accepted]
    constructor
    · rintro ⟨child, lowest, lower, clean⟩
      rcases (halves_iff invariant).mp ⟨lowest, lower⟩ with ⟨parent, started⟩
      exact ⟨bit, child, firstOpen, parent, started, clean⟩
    · rintro ⟨bit', child, firstOpen', parent, started, clean⟩
      have sameParent := parent.trans (unique bit' bit firstOpen' firstOpen)
      rcases (halves_iff invariant).mpr ⟨sameParent, started⟩ with ⟨lowest, lower⟩
      exact ⟨child, lowest, lower, clean⟩

/-- At the top order the search succeeds exactly when there is a clean
block. -/
theorem searchFromTop_top_iff (invariant : Invariant b pages orders live)
    (accepted : Accepted m pages orders) {target : Nat} (top : target + 1 = orders) :
    searchFromTop b target ≠ m.wordTMax ↔
      ∃ bit, (Block.mk target bit).first < pages ∧ b.marks .dirty ⟨target, bit⟩ = false := by
  have used : ∀ bit, bit < buddyOrderBits b.saturated target ↔
      (Block.mk target bit).first < pages :=
    fun bit => invariant.geometry.used_iff .saturated ⟨target, bit⟩
  rcases searchFromTop_cases invariant accepted target with ⟨_, _, notTop⟩ |
    ⟨first, last, frontier, ends, _, whole⟩
  · exact absurd top notTop
  · rcases whole top with ⟨rfl, rfl⟩
    rw [ends, frontier.search_at_iff invariant accepted]
    refine exists_congr fun bit => ?_
    rw [used]
    exact and_iff_right (Nat.zero_le _)

end BuddyAlloc
end ShovelOS
