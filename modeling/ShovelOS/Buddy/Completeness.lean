import ShovelOS.Buddy.HeapEnd

namespace ShovelOS
namespace BuddyAlloc

open WordBits BlockTree

/-!
# When a request fails although a block is free

A request fails when the search finds nothing, and the search looks at the
halves of one block only: the first block, one order above the target, that
has a page in no live block.  If that block is fragmented, so that neither
half is clean, a free block further up the heap is not found.  A request
for the top order looks at every block of it.

For every reachable state this decides when a request does what one expects
of it: to fail only if there is no free block of its order.
-/

variable {m : Machine}

/-- Some aligned block of the order lies wholly in the heap and has no page
in a live block. -/
def FreeBlock (pages : Nat) (live : List Block) (order : Nat) : Prop :=
  ∃ index, Backed pages ⟨order, index⟩ ∧ Free live ⟨order, index⟩

/-- The first block one order up with a page in no live block has a half that
can be handed out: a free one inside the heap, or a partly backed one whose
mark was cleared. -/
def HalfOffered (pages : Nat) (s : HeapState m) (order : Nat) : Prop :=
  ∃ index half, FirstOpen pages s.blocks ⟨order + 1, index⟩ ∧ half / 2 = index ∧
    ((Backed pages ⟨order, half⟩ ∧ Free s.blocks ⟨order, half⟩) ∨
      (PartlyBacked pages ⟨order, half⟩ ∧ s.buddies.marks .dirty ⟨order, half⟩ = false))

section Searches

variable {b : Buddies m} {pages orders : Nat} {live : List Block}

/-- A clean, completely backed half of an open block is free. -/
theorem Invariant.free_half (invariant : Invariant b pages orders live) {order half : Nat}
    (inOrders : order < orders) (backed : Backed pages ⟨order, half⟩)
    (isOpen : Open live ⟨order + 1, half / 2⟩) :
    b.marks .dirty ⟨order, half⟩ = false ↔ Free live ⟨order, half⟩ := by
  rw [← Bool.not_eq_true, invariant.dirty_iff inOrders backed]
  constructor
  · intro notOccupied page inside member isMember inMember
    rcases Nat.lt_or_ge order member.order with larger | smaller
    · have within : (Block.mk order half).Within ⟨order + 1, half / 2⟩ := Block.half_within rfl
      have outer : (Block.mk (order + 1) (half / 2)).Within member :=
        Block.within_of_contains larger (within.contains inside) inMember
      rcases isOpen with ⟨openPage, inOpen, outside⟩
      exact outside member isMember (outer.contains inOpen)
    · exact notOccupied ⟨member, isMember, Block.within_of_contains smaller inMember inside⟩
  · exact Free.not_occupied

theorem Invariant.clean_of_free (invariant : Invariant b pages orders live) {block : Block}
    (inOrders : block.order < orders) (backed : Backed pages block) (free : Free live block) :
    b.marks .dirty block = false := by
  rw [← Bool.not_eq_true, invariant.dirty_iff inOrders backed]
  exact free.not_occupied

end Searches

section Requests

variable {layout : Layout} {heap : TrackedHeap m layout} {s : HeapState m}

theorem Sound.halfOffered_iff (sound : Sound heap s) {order : Nat}
    (below : order + 1 < heap.orders) :
    searchFromTop s.buddies order ≠ m.wordTMax ↔ HalfOffered heap.pages s order := by
  have inOrders : order < heap.orders := Nat.lt_of_succ_lt below
  rw [searchFromTop_iff sound.invariant heap.isAccepted below]
  refine exists_congr fun index => exists_congr fun half => and_congr_right fun firstOpen =>
    and_congr_right fun parent => ?_
  have isOpen : Open s.blocks ⟨order + 1, half / 2⟩ := by
    rw [parent]
    exact firstOpen.2.1
  constructor
  · rintro ⟨started, clean⟩
    rcases partlyBacked_or_backed started with part | backed
    · exact Or.inr ⟨part, clean⟩
    · exact Or.inl ⟨backed, (sound.invariant.free_half inOrders backed isOpen).mp clean⟩
  · rintro (⟨backed, free⟩ | ⟨part, clean⟩)
    · exact ⟨(backed.inHeap inOrders).2,
        (sound.invariant.free_half inOrders backed isOpen).mpr free⟩
    · exact ⟨part.1, clean⟩

/-- The top order is searched completely. -/
theorem Sound.top_complete (sound : Sound heap s) {order : Nat} (top : order + 1 = heap.orders)
    (free : FreeBlock heap.pages s.blocks order) : searchFromTop s.buddies order ≠ m.wordTMax := by
  rcases free with ⟨index, backed, isFree⟩
  have inOrders : order < heap.orders := by omega
  exact (searchFromTop_top_iff sound.invariant heap.isAccepted top).mpr
    ⟨index, (backed.inHeap inOrders).2, sound.invariant.clean_of_free inOrders backed isFree⟩

/-- A request returns the null address exactly when the search finds
nothing. -/
theorem Sound.null_iff (sound : Sound heap s) {pages order : Nat}
    (isOrder : _pagesOrder m pages = some order) (flags : Nat) :
    (getFreePages s.buddies pages flags).map Prod.fst = some 0 ↔
      searchFromTop s.buddies order = m.wordTMax := by
  rw [getFreePages_eq sound.invariant heap.isAccepted isOrder]
  by_cases fails : searchFromTop s.buddies order = m.wordTMax
  · rw [if_pos fails]
    exact iff_of_true rfl fails
  · have started := (searchFromTop_found sound.invariant heap.isAccepted fails).1.2
    have notNull :
        pageAddress s.buddies (Block.mk order (searchFromTop s.buddies order)).first ≠ 0 := by
      rw [pageAddress, sound.frame.heapBase]
      exact heap.notNull _ started
    rw [if_neg fails]
    exact iff_of_false (fun null => notNull (Option.some.inj null)) fails

/-- A single page is found as long as one is in no live block. -/
theorem Sound.page_found_iff (sound : Sound heap s) :
    searchFromTop s.buddies 0 ≠ m.wordTMax ↔ FreeBlock heap.pages s.blocks 0 := by
  have accepted := heap.isAccepted
  constructor
  · intro succeeds
    rcases searchFromTop_found sound.invariant accepted succeeds with ⟨inHeap, clean, unsaturated⟩
    have backed : Backed heap.pages ⟨0, searchFromTop s.buddies 0⟩ := inHeap.2
    exact ⟨_, backed, sound.invariant.free_of_clean inHeap clean unsaturated⟩
  · rintro ⟨page, backed, free⟩
    rcases Nat.lt_or_ge 1 heap.orders with below | top
    · rw [sound.halfOffered_iff below]
      have holds : Open s.blocks ⟨1, page / 2⟩ :=
        Open.outer ⟨page, (Block.mk 0 page).contains_first, free page rfl⟩ (Block.half_within rfl)
      have first : ∃ index, Open s.blocks ⟨1, index⟩ ∧
          ∀ before, before < index → ¬ Open s.blocks ⟨1, before⟩ := by
        classical
        have some : ∃ index, Open s.blocks ⟨1, index⟩ := ⟨_, holds⟩
        exact ⟨Nat.find some, Nat.find_spec some, fun before => Nat.find_min some⟩
      rcases first with ⟨index, isOpen, isFirst⟩
      have notAfter : index ≤ page / 2 := Nat.le_of_not_lt fun after => isFirst _ after holds
      have inHeap : page < heap.pages := backed
      have firstOpen : FirstOpen heap.pages s.blocks ⟨0 + 1, index⟩ := by
        refine ⟨?_, isOpen, isFirst⟩
        change index <<< 1 < heap.pages
        rw [Nat.shiftLeft_eq]
        omega
      rcases isOpen with ⟨unused, inside, outside⟩
      have parent : unused / 2 = index := inside
      -- The unused page may lie behind the heap, but then the free one is the other half.
      rcases Nat.lt_or_ge unused heap.pages with inPages | beyond
      · refine ⟨index, unused, firstOpen, parent, Or.inl ⟨inPages, fun other same => ?_⟩⟩
        rwa [show other = unused from same]
      · exact ⟨index, page, firstOpen, by omega, Or.inl ⟨backed, free⟩⟩
    · exact sound.top_complete (Nat.le_antisymm accepted.positive top) ⟨page, backed, free⟩

/-- A single page is refused exactly when every page is in a live block. -/
theorem Sound.page_refused_iff (sound : Sound heap s) {request : Nat}
    (isOrder : _pagesOrder m request = some 0) (flags : Nat) :
    (getFreePages s.buddies request flags).map Prod.fst = some 0 ↔
      ∀ page, page < heap.pages → ∃ held ∈ s.blocks, held.Contains page := by
  rw [sound.null_iff isOrder, ← Decidable.not_not (p := _ = m.wordTMax)]
  refine (not_congr sound.page_found_iff).trans ?_
  constructor
  · intro noFree page inHeap
    by_contra unused
    refine noFree ⟨page, inHeap, fun other same held isHeld inHeld => unused ⟨held, isHeld, ?_⟩⟩
    rwa [← show other = page from same]
  · rintro allUsed ⟨page, backed, free⟩
    rcases allUsed page backed with ⟨held, isHeld, inHeld⟩
    exact free page rfl held isHeld inHeld

/-- What a request of any number of pages that has an order returns in a
state of a run. -/
theorem Sound.getFreePages_cases (sound : Sound heap s) {request order : Nat}
    (isOrder : _pagesOrder m request = some order) (flags : Nat) :
    getFreePages s.buddies request flags = some (0, s.buddies) ∨
      ∃ block : Block, block.order = order ∧ getFreePages s.buddies request flags =
          some (pageAddress s.buddies block.first, reserve s.buddies block.order block.index) ∧
        pageAddress s.buddies block.first ≠ 0 ∧ InHeap heap.pages heap.orders block ∧
        (∀ held ∈ s.blocks, block.Apart held) ∧
        (Guarded heap.pages heap.orders s → Backed heap.pages block) := by
  rw [getFreePages_eq sound.invariant heap.isAccepted isOrder]
  by_cases fails : searchFromTop s.buddies order = m.wordTMax
  · rw [if_pos fails]
    exact Or.inl rfl
  · rw [if_neg fails]
    rcases searchFromTop_found sound.invariant heap.isAccepted fails with
      ⟨inHeap, clean, unsaturated⟩
    have free := sound.invariant.free_of_clean inHeap clean unsaturated
    refine Or.inr ⟨⟨order, searchFromTop s.buddies order⟩, rfl, rfl, ?_, inHeap, free.apart, ?_⟩
    · rw [pageAddress, sound.frame.heapBase]
      exact heap.notNull _ inHeap.2
    · intro guarded
      rcases partlyBacked_or_backed inHeap.2 with part | whole
      · rw [guarded.guard _ inHeap part] at clean
        cases clean
      · exact whole

/-- In every reachable state, a request fails only for want of a free block
exactly when there is none, when it is for the top order, or when the first
block with an unused page, one order up, offers a half.  The packed bitmaps
are included where the reserved words suffice. -/
theorem request_complete_iff (heap : TrackedHeap m layout)
    (suffices_ : layout = .packed → ReservedSuffices m heap.pages heap.orders) (s : HeapState m)
    (reachable : heap.Reachable s) (pages flags order : Nat)
    (isOrder : _pagesOrder m pages = some order) (inOrders : order < heap.orders) :
    ((getFreePages s.buddies pages flags).map Prod.fst = some 0 →
      ¬ FreeBlock heap.pages s.blocks order) ↔
      (¬ FreeBlock heap.pages s.blocks order ∨ order + 1 = heap.orders ∨
        HalfOffered heap.pages s order) := by
  have sound := heap.sound_of_reachable (heap.separate suffices_) reachable
  rw [sound.null_iff isOrder]
  constructor
  · intro complete
    by_cases free : FreeBlock heap.pages s.blocks order
    · rcases Nat.lt_or_ge (order + 1) heap.orders with below | top
      · refine Or.inr (Or.inr ((sound.halfOffered_iff below).mp fun fails => ?_))
        exact complete fails free
      · exact Or.inr (Or.inl (Nat.le_antisymm inOrders top))
    · exact Or.inl free
  · rintro (none | top | offered) fails
    · exact none
    · exact fun free => sound.top_complete top free fails
    · intro free
      rcases Nat.lt_or_ge (order + 1) heap.orders with below | top
      · exact (sound.halfOffered_iff below).mpr offered fails
      · exact sound.top_complete (Nat.le_antisymm inOrders top) free fails

end Requests

/-! ## Eight tracked pages -/

/-- Eight tracked pages on the beagleboard, with packed bitmaps. -/
def eightPagesPacked : TrackedHeap Machine.beaglexm .packed where
  heapLength := 9 * 4096
  flags := 2
  allocFunc := fun _ _ => 0x80300000
  err := ((setUpAt .packed 9).get setUpAt_nine).1
  buddies := ((setUpAt .packed 9).get setUpAt_nine).2
  isWord := eightPages_isWord
  obtained := eightPages_obtained
  setUp := (Option.some_get setUpAt_nine).symm
  accepted := eightPages_accepted
  notNull := by decide +kernel

/-- A page and a pair of pages: the first four pages are fragmented. -/
def fragmenting : List Call := [.getFreePages 1 0, .getFreePages 2 0]

theorem fragmenting_run :
    (Transition.run step eightPagesPacked.boot fragmenting).isSome = true := by
  decide +kernel

def fragmented : HeapState Machine.beaglexm :=
  (Transition.run step eightPagesPacked.boot fragmenting).get fragmenting_run

theorem fragmented_reachable : eightPagesPacked.Reachable fragmented :=
  ⟨fragmenting, (Option.some_get fragmenting_run).symm⟩

theorem request_complete_iff_fragmented :
    ((getFreePages fragmented.buddies 1 0).map Prod.fst = some 0 →
        ¬ FreeBlock eightPagesPacked.pages fragmented.blocks 0) ↔
      (¬ FreeBlock eightPagesPacked.pages fragmented.blocks 0 ∨ 0 + 1 = eightPagesPacked.orders ∨
        HalfOffered eightPagesPacked.pages fragmented 0) :=
  request_complete_iff eightPagesPacked
    (fun _ => by decide +kernel) fragmented fragmented_reachable 1 0 0
    (by decide +kernel) (by decide +kernel)

/-- A request for two pages fails although pages four to seven are free. -/
theorem request_incomplete_fragmented :
    ∃ calls s, Transition.run step eightPagesPacked.boot calls = some s ∧
      _pagesOrder Machine.beaglexm 2 = some 1 ∧ 1 < eightPagesPacked.orders ∧
      (getFreePages s.buddies 2 0).map Prod.fst = some 0 ∧
      FreeBlock eightPagesPacked.pages s.blocks 1 := by
  refine ⟨fragmenting, fragmented, (Option.some_get fragmenting_run).symm, by decide +kernel,
    by decide +kernel, by decide +kernel, 2, by decide +kernel, ?_⟩
  have apart : ∀ held ∈ fragmented.blocks, held.first + held.size ≤ 4 := by decide +kernel
  intro page inside member isMember inMember
  have low := ((Block.contains_iff _ _).mp inMember).2
  have high : 4 ≤ page := ((Block.contains_iff _ _).mp inside).1
  exact absurd (Nat.lt_of_lt_of_le low (apart member isMember)) (Nat.not_lt_of_le high)

end BuddyAlloc
end ShovelOS
