import ShovelOS.Buddy.Heap

namespace ShovelOS
namespace BuddyAlloc

open WordBits BlockTree

/-!
# What every run of the page allocator guarantees

The statements here are about every state that a sequence of calls leads to
from set-up, with an array of its own for each bitmap.  They hold for every
number of pages that set-up accepts, the partly backed blocks at the end of
the heap included.
-/

variable {m : Machine}

/-! ## A heap to try them on -/

theorem setUpAt_nine_ownArrays : (setUpAt .ownArrays 9).isSome = true := by decide +kernel

theorem eightPages_isWord : 9 * 4096 < Machine.beaglexm.wordLimit := by decide

theorem eightPages_obtained :
    metadataBase Machine.beaglexm (9 * 4096) (fun _ _ => 0x80300000) 2 ≠ 0 := by decide

theorem eightPages_accepted :
    (_configureGeometry (measured Machine.beaglexm (9 * 4096))
      (trackedLength Machine.beaglexm (9 * 4096))).1 = 0 := by
  decide +kernel

def eightPages : TrackedHeap Machine.beaglexm .ownArrays where
  heapLength := 9 * 4096
  flags := 2
  allocFunc := fun _ _ => 0x80300000
  err := ((setUpAt .ownArrays 9).get setUpAt_nine_ownArrays).1
  buddies := ((setUpAt .ownArrays 9).get setUpAt_nine_ownArrays).2
  isWord := eightPages_isWord
  obtained := eightPages_obtained
  setUp := (Option.some_get setUpAt_nine_ownArrays).symm
  accepted := eightPages_accepted
  notNull := by decide +kernel

/-- Three requests of different sizes and a free. -/
def mixedCalls : List Call :=
  [.getFreePages 1 0, .getFreePages 3 0, .freePages ⟨1, 0, 0⟩ 7, .getFreePages 2 0]

theorem mixedCalls_run : (Transition.run step eightPages.boot mixedCalls).isSome = true := by
  decide +kernel

def mixedState : HeapState Machine.beaglexm :=
  (Transition.run step eightPages.boot mixedCalls).get mixedCalls_run

theorem mixedState_reachable : eightPages.Reachable mixedState :=
  ⟨mixedCalls, (Option.some_get mixedCalls_run).symm⟩

/-! ## Live blocks -/

/-- The live blocks are pairwise disjoint, and every block ever returned has
the pages asked for. -/
theorem live_disjoint (heap : TrackedHeap m .ownArrays) (s : HeapState m)
    (reachable : heap.Reachable s) :
    s.live.Pairwise (fun left right =>
      left.pn + 2 ^ left.order ≤ right.pn ∨ right.pn + 2 ^ right.order ≤ left.pn) ∧
    ∀ held ∈ s.returned, held.pages ≤ 2 ^ held.order := by
  have sound := heap.sound_of_reachable heap.ownArrays_separate reachable
  refine ⟨?_, sound.enough⟩
  refine (List.pairwise_map.mp sound.invariant.apart).imp_of_mem ?_
  intro left right isLeft isRight apart
  have ranges := apart.ranges
  rw [sound.aligned left isLeft, sound.aligned right isRight] at ranges
  exact ranges

theorem live_disjoint_mixedState :
    mixedState.live.Pairwise (fun left right =>
      left.pn + 2 ^ left.order ≤ right.pn ∨ right.pn + 2 ^ right.order ≤ left.pn) ∧
    ∀ held ∈ mixedState.returned, held.pages ≤ 2 ^ held.order :=
  live_disjoint eightPages mixedState mixedState_reachable

/-! ## The bitmaps -/

/-- On every block wholly inside the tracked pages the dirty bit says
whether a live block lies within, and the saturated bit whether live blocks
cover it.  Once nothing is live, both are clear. -/
theorem bitmaps_describe_live (heap : TrackedHeap m .ownArrays) (s : HeapState m)
    (reachable : heap.Reachable s) (block : Block) (inOrders : block.order < heap.orders)
    (backed : Backed heap.pages block) :
    (s.buddies.isSet .dirty block.order block.index = true ↔
      ∃ held ∈ s.live, held.block.Within block) ∧
    (s.buddies.isSet .saturated block.order block.index = true ↔
      ∀ page, block.Contains page →
        ∃ held ∈ s.live, held.order ≤ block.order ∧ held.block.Contains page) ∧
    (s.live = [] → s.buddies.isSet .dirty block.order block.index = false ∧
      s.buddies.isSet .saturated block.order block.index = false) := by
  have sound := heap.sound_of_reachable heap.ownArrays_separate reachable
  have dirtyIff : s.buddies.isSet .dirty block.order block.index = true ↔
      ∃ held ∈ s.live, held.block.Within block := by
    refine (sound.invariant.dirty_iff inOrders backed).trans ?_
    simp only [Occupied, HeapState.blocks, List.mem_map, exists_exists_and_eq_and]
  have saturatedIff : s.buddies.isSet .saturated block.order block.index = true ↔
      ∀ page, block.Contains page →
        ∃ held ∈ s.live, held.order ≤ block.order ∧ held.block.Contains page := by
    refine (sound.invariant.saturated_iff (backed.inHeap inOrders)).trans ?_
    simp only [Covered, HeapState.blocks, List.mem_map, exists_exists_and_eq_and]
    rfl
  refine ⟨dirtyIff, saturatedIff, fun freed => ⟨?_, ?_⟩⟩
  · apply Bool.eq_false_iff.mpr
    intro dirty
    rcases dirtyIff.mp dirty with ⟨held, isMember, _⟩
    rw [freed] at isMember
    cases isMember
  · apply Bool.eq_false_iff.mpr
    intro saturated
    rcases saturatedIff.mp saturated block.first block.contains_first with ⟨held, isMember, _⟩
    rw [freed] at isMember
    cases isMember

/-- In the state after the mixed calls, for the block of pages four to
seven. -/
theorem bitmaps_describe_live_mixedState :
    (mixedState.buddies.isSet .dirty 2 1 = true ↔
      ∃ held ∈ mixedState.live, held.block.Within ⟨2, 1⟩) ∧
    (mixedState.buddies.isSet .saturated 2 1 = true ↔
      ∀ page, (Block.mk 2 1).Contains page →
        ∃ held ∈ mixedState.live, held.order ≤ 2 ∧ held.block.Contains page) ∧
    (mixedState.live = [] → mixedState.buddies.isSet .dirty 2 1 = false ∧
      mixedState.buddies.isSet .saturated 2 1 = false) :=
  bitmaps_describe_live eightPages mixedState mixedState_reachable ⟨2, 1⟩ (by decide +kernel)
    (by decide +kernel)

/-! ## Sizes -/

/-- The order of every live block is found again, so that a free gives back
exactly that block whatever page count is passed, and the counter is the
number of live pages. -/
theorem live_sizes_recovered (heap : TrackedHeap m .ownArrays) (s : HeapState m)
    (reachable : heap.Reachable s) :
    (∀ held ∈ s.live, _determineAllocatedPageOrder s.buddies held.pn = held.order ∧
      freePages2 s.buddies (pageAddress s.buddies held.pn) =
        release s.buddies held.order (held.pn >>> held.order) ∧
      ∀ pages, freePages s.buddies (pageAddress s.buddies held.pn) pages =
        release s.buddies held.order (held.pn >>> held.order)) ∧
    getTotalPagesAllocated s.buddies = (s.live.map fun held => 2 ^ held.order).sum := by
  have sound := heap.sound_of_reachable heap.ownArrays_separate reachable
  constructor
  · intro held isLive
    have recovered := _determineAllocatedPageOrder_eq sound.invariant (List.mem_map_of_mem isLive)
    rw [sound.aligned held isLive] at recovered
    exact ⟨recovered, sound.freePages2_eq isLive, fun _pages => sound.freePages2_eq isLive⟩
  · have total := sound.total
    rw [totalPages, HeapState.blocks, List.map_map] at total
    exact total

theorem live_sizes_recovered_mixedState :
    (∀ held ∈ mixedState.live, _determineAllocatedPageOrder mixedState.buddies held.pn =
      held.order ∧
      freePages2 mixedState.buddies (pageAddress mixedState.buddies held.pn) =
        release mixedState.buddies held.order (held.pn >>> held.order) ∧
      ∀ pages, freePages mixedState.buddies (pageAddress mixedState.buddies held.pn) pages =
        release mixedState.buddies held.order (held.pn >>> held.order)) ∧
    getTotalPagesAllocated mixedState.buddies =
      (mixedState.live.map fun held => 2 ^ held.order).sum :=
  live_sizes_recovered eightPages mixedState mixedState_reachable

end BuddyAlloc
end ShovelOS
