import ShovelOS.Buddy.Metadata
import ShovelOS.Buddy.Search
import ShovelOS.Library.Transition

namespace ShovelOS
namespace BuddyAlloc

open WordBits BlockTree

/-!
# Runs of the page allocator

A heap that set-up has laid out is driven by calls of the page interface.
A request may ask for any number of pages up to half the word range, so that
the shift of `_pages_order` reaches it.  A free names a block that is live,
by the address that was handed out for it.

The state keeps, next to the bitmaps, the blocks that are live and all
blocks ever returned.  Both are recorded from what the caller sees: the
number of the page at the returned address, and the order of the request.
The invariant of the bitmaps, which speaks of blocks by order and index, is
then an invariant of all runs.
-/

variable {m : Machine}

/-- A heap that set-up has accepted and laid out.  No tracked page has the
null address, which `get_free_pages` returns for a failure. -/
structure TrackedHeap (m : Machine) (layout : Layout) where
  heapLength : Nat
  flags : Nat
  allocFunc : Nat → Nat → Nat
  err : Int
  buddies : Buddies m
  isWord : heapLength < m.wordLimit
  obtained : metadataBase m heapLength allocFunc flags ≠ 0
  setUp : buddyAllocData layout (Buddies.zero m) heapLength allocFunc flags = some (err, buddies)
  accepted : (_configureGeometry (measured m heapLength) (trackedLength m heapLength)).1 = 0
  notNull : ∀ pn, pn < buddies.dirty.order0Bits → pageAddress buddies pn ≠ 0

/-- What a caller holds: the size asked for, the order and the first page. -/
structure LiveBlock where
  pages : Nat
  order : Nat
  pn : Nat
  deriving DecidableEq, Repr

def LiveBlock.block (held : LiveBlock) : Block := ⟨held.order, held.pn >>> held.order⟩

/-- The allocator and the blocks it has handed out. -/
structure HeapState (m : Machine) where
  buddies : Buddies m
  live : List LiveBlock
  returned : List LiveBlock

/-- The blocks of the tree that are live. -/
def HeapState.blocks (s : HeapState m) : List Block := s.live.map LiveBlock.block

/-- The calls of the page interface.  `get_free_page` and `free_page` are
requests and frees of one page. -/
inductive Call where
  | getFreePages (pages flags : Nat)
  | freePages2 (held : LiveBlock)
  | freePages (held : LiveBlock) (pages : Nat)
  deriving DecidableEq, Repr

/-- The number of the page at an address, as `free_pages2` computes it. -/
def pageNumber (b : Buddies m) (page : Nat) : Nat :=
  (page + m.wordLimit - b.heapBase) % m.wordLimit / m.pageSize

/-- One call.  A free of a block that is not live is not a step. -/
def step (s : HeapState m) : Call → Option (HeapState m)
  | .getFreePages pages flags =>
      if pages ≤ 2 ^ (m.wordTBits - 1) then do
        let order ← _pagesOrder m pages
        let (page, b) ← getFreePages s.buddies pages flags
        if page = 0 then
          return { s with buddies := b }
        else
          let held := ⟨pages, order, pageNumber b page⟩
          return ⟨b, held :: s.live, held :: s.returned⟩
      else none
  | .freePages2 held =>
      if held ∈ s.live then
        some { s with
          buddies := freePages2 s.buddies (pageAddress s.buddies held.pn)
          live := s.live.erase held }
      else none
  | .freePages held pages =>
      if held ∈ s.live then
        some { s with
          buddies := freePages s.buddies (pageAddress s.buddies held.pn) pages
          live := s.live.erase held }
      else none

namespace TrackedHeap

variable {layout : Layout} (heap : TrackedHeap m layout)

def pages : Nat := heap.buddies.dirty.order0Bits

def orders : Nat := heap.buddies.dirty.orders

def boot : HeapState m := ⟨heap.buddies, [], []⟩

/-- A state that some sequence of calls leads to. -/
def Reachable (s : HeapState m) : Prop := Transition.Reachable step heap.boot s

theorem built : Built layout heap.pages heap.orders
    (metadataBase m heap.heapLength heap.allocFunc heap.flags / m.wordTBytes) heap.buddies := by
  have built := buddyAllocData_built heap.isWord heap.obtained heap.setUp
  rw [pages, orders]
  have bits : heap.buddies.dirty.order0Bits = _ := built.geometry.order0Bits .dirty
  have sameOrders : heap.buddies.dirty.orders = _ := built.geometry.orders .dirty
  rw [bits, sameOrders]
  exact built

theorem pages_eq : heap.pages = trackedLength m heap.heapLength / m.pageSize :=
  (buddyAllocData_built heap.isWord heap.obtained heap.setUp).geometry.order0Bits .dirty

theorem orders_eq : heap.orders = findOrders heap.pages 31 ∧ 0 < heap.orders := by
  have orders : heap.orders = trackedOrders m heap.heapLength :=
    (buddyAllocData_built heap.isWord heap.obtained heap.setUp).geometry.orders .dirty
  have accepted := heap.accepted
  rw [_configureGeometry] at accepted
  dsimp only at accepted
  by_cases none : findOrders (trackedLength m heap.heapLength / m.pageSize) 31 = 0
  · rw [if_pos none] at accepted
    cases accepted
  · rw [orders, trackedOrders, if_neg none, heap.pages_eq]
    exact ⟨rfl, Nat.pos_of_ne_zero none⟩

theorem pages_mul_lt : heap.pages * m.pageSize < m.wordLimit := by
  rw [heap.pages_eq]
  exact Nat.lt_of_le_of_lt (Nat.le_trans (Nat.div_mul_le_self _ _) (Nat.sub_le _ _)) heap.isWord

theorem isAccepted : Accepted m heap.pages heap.orders := by
  rcases heap.orders_eq with ⟨orders, positive⟩
  refine ⟨positive, ?_, fun order below => ?_, ?_⟩
  · rw [orders]
    exact findOrders_le _ _
  · rw [orders] at below
    exact two_pow_le_of_lt_findOrders below
  · exact Nat.le_of_lt (Nat.lt_of_le_of_lt (Nat.mul_le_mul_left _ m.thirtyTwo_le_pageSize)
      heap.pages_mul_lt)

end TrackedHeap

/-! ## The calls on a described state -/

section Calls

variable {b : Buddies m} {pages orders : Nat} {live : List Block}

theorem getFreePages_eq (invariant : Invariant b pages orders live)
    (accepted : Accepted m pages orders)
    {request order : Nat} (isOrder : _pagesOrder m request = some order) (flags : Nat) :
    getFreePages b request flags = some (if searchFromTop b order = m.wordTMax then (0, b)
      else (pageAddress b (Block.mk order (searchFromTop b order)).first,
        reserve b order (searchFromTop b order))) := by
  rw [getFreePages, _getFreePages, isOrder]
  change some ((fun (pn, b) => if pn = m.wordTMax then (0, b) else (pageAddress b pn, b))
    (if searchFromTop b order ≠ m.wordTMax then
      ((searchFromTop b order <<< order) % m.wordLimit, reserve b order (searchFromTop b order))
    else (searchFromTop b order, b))) = _
  by_cases fails : searchFromTop b order = m.wordTMax
  · rw [if_neg (not_not_intro fails), if_pos fails]
    exact congrArg some (if_pos fails)
  · have inHeap := (searchFromTop_found invariant accepted fails).1
    have started : searchFromTop b order <<< order < pages := inHeap.2
    have fits := accepted.fits
    have small : searchFromTop b order <<< order < m.wordTMax := by
      rw [Machine.wordTMax]
      omega
    have address :
        pageAddress (reserve b order (searchFromTop b order)) (searchFromTop b order <<< order) =
        pageAddress b (searchFromTop b order <<< order) := by
      rw [pageAddress, (reserve_sameFrame b order (searchFromTop b order)).heapBase]
      rfl
    rw [if_pos fails, if_neg fails, Nat.mod_eq_of_lt (Nat.lt_of_lt_of_le small (Nat.sub_le _ _))]
    change some (if searchFromTop b order <<< order = m.wordTMax then _ else _) = _
    rw [if_neg (Nat.ne_of_lt small), address]
    rfl

theorem pageNumber_pageAddress {pn : Nat} (inWord : pn * m.pageSize < m.wordLimit)
    (base : b.heapBase ≤ m.wordLimit) : pageNumber b (pageAddress b pn) = pn := by
  have back : ((pn * m.pageSize + b.heapBase) % m.wordLimit + m.wordLimit - b.heapBase) %
      m.wordLimit =
      pn * m.pageSize := by
    rw [Nat.add_sub_assoc base, Nat.mod_add_mod]
    have regroup : pn * m.pageSize + b.heapBase + (m.wordLimit - b.heapBase) =
        pn * m.pageSize + m.wordLimit := by omega
    rw [regroup, Nat.add_mod_right, Nat.mod_eq_of_lt inWord]
  rw [pageNumber, pageAddress, back, Nat.mul_div_cancel _ m.pageSize_pos]

/-- A free of a live block finds its order and gives back exactly it. -/
theorem freePages2_eq (invariant : Invariant b pages orders live)
    (accepted : Accepted m pages orders)
    {old : Block} (isLive : old ∈ live) (inWord : old.first * m.pageSize < m.wordLimit)
    (base : b.heapBase ≤ m.wordLimit) (notNull : pageAddress b old.first ≠ 0) :
    freePages2 b (pageAddress b old.first) = release b old.order old.index := by
  have notMax : old.first ≠ m.wordTMax := by
    have started := (invariant.inHeap old isLive).2
    have fits := accepted.fits
    rw [Machine.wordTMax]
    omega
  have number : pageNumber b (pageAddress b old.first) = old.first :=
    pageNumber_pageAddress inWord base
  rw [freePages2, if_pos notNull]
  change _freePages2 b (pageNumber b (pageAddress b old.first)) = _
  rw [number, _freePages2, if_pos notMax, _determineAllocatedPageOrder_eq invariant isLive]
  change release b old.order (old.first >>> old.order) = _
  rw [Block.first_shiftRight]

end Calls

/-! ## The invariant of a run -/

/-- The live blocks are those of the bitmaps, their first pages are aligned,
every block that was returned has the pages asked for, and the counter
counts the live pages. -/
structure Sound {layout : Layout} (heap : TrackedHeap m layout) (s : HeapState m) : Prop where
  frame : SameFrame heap.buddies s.buddies
  invariant : Invariant s.buddies heap.pages heap.orders s.blocks
  aligned : ∀ held ∈ s.live, held.block.first = held.pn
  enough : ∀ held ∈ s.returned, held.pages ≤ 2 ^ held.order
  total : s.buddies.totalPagesAllocated = totalPages s.blocks

/-- A state after a request that found nothing, after one that found a
block, or after a free. -/
inductive Outcome (s : HeapState m) : Call → HeapState m → Prop where
  | refused (pages flags order : Nat) (isOrder : _pagesOrder m pages = some order)
      (fails : searchFromTop s.buddies order = m.wordTMax) : Outcome s (.getFreePages pages flags) s
  | granted (pages flags order : Nat) (isOrder : _pagesOrder m pages = some order)
      (enough : pages ≤ 2 ^ order) (succeeds : searchFromTop s.buddies order ≠ m.wordTMax) :
      Outcome s (.getFreePages pages flags)
        ⟨reserve s.buddies order (searchFromTop s.buddies order),
          ⟨pages, order, (Block.mk order (searchFromTop s.buddies order)).first⟩ :: s.live,
          ⟨pages, order, (Block.mk order (searchFromTop s.buddies order)).first⟩ :: s.returned⟩
  | freed (held : LiveBlock) (isLive : held ∈ s.live) (call : Call)
      (isFree : call = .freePages2 held ∨ ∃ pages, call = .freePages held pages) :
      Outcome s call
        ⟨release s.buddies held.block.order held.block.index, s.live.erase held, s.returned⟩

theorem block_mk_first (pages : Nat) (block : Block) :
    (LiveBlock.mk pages block.order block.first).block = block := by
  rw [LiveBlock.block]
  exact congrArg (Block.mk block.order) block.first_shiftRight

theorem blocks_erase {live : List LiveBlock} (aligned : ∀ held ∈ live, held.block.first = held.pn)
    (apart : (live.map LiveBlock.block).Pairwise Block.Apart) {held : LiveBlock}
    (isLive : held ∈ live) :
    (live.erase held).map LiveBlock.block = (live.map LiveBlock.block).erase held.block := by
  induction live with
  | nil => cases isLive
  | cons first rest inductionHypothesis =>
      rw [List.map_cons, List.pairwise_cons] at apart
      by_cases same : first = held
      · rw [same, List.erase_cons_head, List.map_cons, List.erase_cons_head]
      · have inRest : held ∈ rest := (List.mem_cons.mp isLive).resolve_left (Ne.symm same)
        have different : first.block ≠ held.block := by
          intro equal
          have isApart := apart.1 held.block (List.mem_map_of_mem inRest)
          rw [equal] at isApart
          exact Block.not_apart_self _ isApart
        rw [List.erase_cons_tail (by simpa using same), List.map_cons, List.map_cons,
          List.erase_cons_tail (by simpa using different),
          inductionHypothesis (fun held isMember => aligned held (List.mem_cons_of_mem _ isMember))
            apart.2 inRest]

section Steps

variable {layout : Layout} {heap : TrackedHeap m layout} {s s' : HeapState m}

theorem Sound.addresses (sound : Sound heap s) {held : LiveBlock} (isLive : held ∈ s.live) :
    pageAddress s.buddies held.pn ≠ 0 ∧ held.pn * m.pageSize < m.wordLimit ∧
      s.buddies.heapBase ≤ m.wordLimit := by
  have started := (sound.invariant.inHeap held.block (List.mem_map_of_mem isLive)).2
  rw [sound.aligned held isLive] at started
  have base := (buddyAllocData_fresh heap.isWord heap.obtained heap.setUp).2
  refine ⟨?_, ?_, ?_⟩
  · rw [pageAddress, sound.frame.heapBase]
    exact heap.notNull held.pn started
  · exact Nat.lt_of_le_of_lt (Nat.mul_le_mul_right _ (Nat.le_of_lt started)) heap.pages_mul_lt
  · rw [sound.frame.heapBase]
    exact Nat.le_of_lt base

theorem Sound.freePages2_eq (sound : Sound heap s) {held : LiveBlock} (isLive : held ∈ s.live) :
    freePages2 s.buddies (pageAddress s.buddies held.pn) =
      release s.buddies held.block.order held.block.index := by
  rcases sound.addresses isLive with ⟨notNull, inWord, base⟩
  rw [← sound.aligned held isLive] at notNull inWord ⊢
  exact BuddyAlloc.freePages2_eq sound.invariant heap.isAccepted (List.mem_map_of_mem isLive) inWord
    base notNull

theorem Sound.outcome (sound : Sound heap s) {call : Call} (stepped : step s call = some s') :
    Outcome s call s' := by
  cases call with
  | getFreePages pages flags =>
      rw [step] at stepped
      by_cases reached : pages ≤ 2 ^ (m.wordTBits - 1)
      · rcases _pagesOrder_spec reached with ⟨order, isOrder, _, enough, _⟩
        rw [if_pos reached, isOrder,
          getFreePages_eq sound.invariant heap.isAccepted isOrder] at stepped
        simp only [Option.bind_eq_bind, Option.bind_some, Option.pure_def] at stepped
        by_cases fails : searchFromTop s.buddies order = m.wordTMax
        · simp only [if_pos fails, if_true, Option.some.injEq] at stepped
          rw [← stepped]
          exact Outcome.refused pages flags order isOrder fails
        · have inHeap := (searchFromTop_found sound.invariant heap.isAccepted fails).1
          have started := inHeap.2
          have notNull :
              pageAddress s.buddies (Block.mk order (searchFromTop s.buddies order)).first ≠ 0 := by
            rw [pageAddress, sound.frame.heapBase]
            exact heap.notNull _ started
          have base := (buddyAllocData_fresh heap.isWord heap.obtained heap.setUp).2
          have number : pageNumber (reserve s.buddies order (searchFromTop s.buddies order))
              (pageAddress s.buddies (Block.mk order (searchFromTop s.buddies order)).first) =
              (Block.mk order (searchFromTop s.buddies order)).first := by
            rw [pageNumber, (reserve_sameFrame _ _ _).heapBase]
            refine pageNumber_pageAddress ?_ ?_
            · exact Nat.lt_of_le_of_lt (Nat.mul_le_mul_right _ (Nat.le_of_lt started))
                heap.pages_mul_lt
            · rw [sound.frame.heapBase]
              exact Nat.le_of_lt base
          simp only [if_neg fails, if_neg notNull, number, Option.some.injEq] at stepped
          rw [← stepped]
          exact Outcome.granted pages flags order isOrder enough fails
      · rw [if_neg reached] at stepped
        cases stepped
  | freePages2 held =>
      rw [step] at stepped
      split at stepped
      · rename_i isLive
        rw [sound.freePages2_eq isLive, Option.some.injEq] at stepped
        rw [← stepped]
        exact Outcome.freed held isLive _ (Or.inl rfl)
      · cases stepped
  | freePages held pages =>
      rw [step] at stepped
      split at stepped
      · rename_i isLive
        rw [freePages, sound.freePages2_eq isLive, Option.some.injEq] at stepped
        rw [← stepped]
        exact Outcome.freed held isLive _ (Or.inr ⟨pages, rfl⟩)
      · cases stepped

theorem Sound.step (sound : Sound heap s) {call : Call} (stepped : step s call = some s') :
    Sound heap s' := by
  have accepted := heap.isAccepted
  cases sound.outcome stepped with
  | refused pages flags order isOrder fails => exact sound
  | granted pages flags order isOrder enough succeeds =>
      rcases searchFromTop_found sound.invariant accepted succeeds with ⟨inHeap, clean, unsaturated⟩
      have invariant := sound.invariant.reserve inHeap clean unsaturated
      have blockEq := block_mk_first pages ⟨order, searchFromTop s.buddies order⟩
      have blocks : HeapState.blocks ⟨reserve s.buddies order (searchFromTop s.buddies order),
          ⟨pages, order, (Block.mk order (searchFromTop s.buddies order)).first⟩ :: s.live,
          ⟨pages, order, (Block.mk order (searchFromTop s.buddies order)).first⟩ :: s.returned⟩ =
          ⟨order, searchFromTop s.buddies order⟩ :: s.blocks := by
        rw [HeapState.blocks, List.map_cons, blockEq]
        rfl
      refine ⟨sound.frame.trans (reserve_sameFrame _ _ _), ?_, ?_, ?_, ?_⟩
      · rw [blocks]
        exact invariant
      · intro held isMember
        rcases List.mem_cons.mp isMember with rfl | old
        · rw [blockEq]
        · exact sound.aligned held old
      · intro held isMember
        rcases List.mem_cons.mp isMember with rfl | old
        · exact enough
        · exact sound.enough held old
      · rw [blocks]
        have total := reserve_total invariant accepted sound.total
        exact total
  | freed held isLive call isFree =>
      have isBlock : held.block ∈ s.blocks := List.mem_map_of_mem isLive
      have blocks : HeapState.blocks ⟨release s.buddies held.block.order held.block.index,
          s.live.erase held, s.returned⟩ = s.blocks.erase held.block :=
        blocks_erase sound.aligned sound.invariant.apart isLive
      refine ⟨sound.frame.trans (release_sameFrame _ _ _), ?_, ?_, ?_, ?_⟩
      · rw [blocks]
        exact sound.invariant.release isBlock
      · exact fun held isMember => sound.aligned held (List.mem_of_mem_erase isMember)
      · exact sound.enough
      · rw [blocks]
        exact release_total sound.invariant isBlock accepted sound.total

end Steps

namespace TrackedHeap

variable {layout : Layout} (heap : TrackedHeap m layout) (separate : Separate heap.buddies)
include separate

theorem sound_boot : Sound heap heap.boot := by
  refine ⟨SameFrame.refl _, heap.built.invariant separate, ?_, ?_, ?_⟩
  · exact fun held isMember => absurd isMember List.not_mem_nil
  · exact fun held isMember => absurd isMember List.not_mem_nil
  · exact (buddyAllocData_fresh heap.isWord heap.obtained heap.setUp).1

/-- Every reachable state satisfies the invariant, when the bitmaps of the
layout keep apart. -/
theorem sound_of_reachable {s : HeapState m} (reachable : heap.Reachable s) : Sound heap s :=
  reachable.invariant (fun _s _call _s' sound stepped => sound.step stepped)
    (heap.sound_boot separate)

end TrackedHeap

/-- With an array for each bitmap the bitmaps keep apart for every heap. -/
theorem TrackedHeap.ownArrays_separate (heap : TrackedHeap m .ownArrays) : Separate heap.buddies :=
  BuddyAlloc.ownArrays_separate heap.built

/-- The packed bitmaps keep apart when the reserved words suffice. -/
theorem TrackedHeap.separate {layout : Layout} (heap : TrackedHeap m layout)
    (suffices_ : layout = .packed → ReservedSuffices m heap.pages heap.orders) :
    Separate heap.buddies := by
  cases layout with
  | packed => exact packed_separate heap.built (suffices_ rfl)
  | ownArrays => exact heap.ownArrays_separate

end BuddyAlloc
end ShovelOS
