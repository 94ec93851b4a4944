import ShovelOS.PageBuddy.Heap

namespace ShovelOS
namespace PageBuddy

open BlockTree PageRanges
open BuddyAlloc (WordPtr Layout cursor_mono_order orderWords)
open Stdlib (wrap32 wrap32_of_lt)

/-!
# The words of each bitmap

The lengths of the bitmaps halve with truncation, while the loops over the
orders follow a page to the block that holds it.  At the end of the heap that
block can be the one behind the last bit of its order.  Its bit lies in the
words of the bitmap unless the last bit is also the last of a word.

The access log of the updates is followed through each loop, and from set-up
through every run.  Nothing is needed of the contents of the bitmaps.
-/

variable {m : Machine} {b : Buddy m} {pages : Nat}

/-- Wherever a bitmap is rounded down, its last word has a bit to spare. -/
def WordsSuffice (m : Machine) (pages : Nat) : Prop :=
  ∀ order, order < nbOrders → pages >>> order ≠ 0 → pages % 2 ^ order ≠ 0 →
    (pages >>> order) % m.wordTBits ≠ 0

instance (m : Machine) (pages : Nat) : Decidable (WordsSuffice m pages) :=
  inferInstanceAs (Decidable (∀ order, order < nbOrders → _))

/-- The block behind the last whole one is that of a page only when the heap
ends inside it. -/
theorem not_whole_of_le {order : Nat} (some_ : pages >>> order ≠ 0)
    (reached : pages >>> order ≤ (pages - 1) >>> order) : pages % 2 ^ order ≠ 0 := by
  have positive := Nat.two_pow_pos order
  have split := Nat.div_add_mod pages (2 ^ order)
  intro isWhole
  rw [Nat.shiftRight_eq_div_pow] at some_
  rw [Nat.shiftRight_eq_div_pow, Nat.shiftRight_eq_div_pow,
    Nat.le_div_iff_mul_le positive] at reached
  rw [isWhole, Nat.mul_comm, Nat.add_zero] at split
  have nonempty := Nat.mul_pos (Nat.pos_of_ne_zero some_) positive
  omega

/-- The block of a page of the heap has its bit in the words of the bitmap, and
so have the first blocks of a bitmap that is not empty. -/
theorem word_lt (suffice : WordsSuffice m pages) {order : Nat} (inOrders : order < nbOrders)
    (some_ : pages >>> order ≠ 0) {n : Nat} (reached : n ≤ (pages - 1) >>> order ∨ n < 32) :
    n / m.wordTBits < orderWords m pages order := by
  rcases reached with ofPage | small
  · by_cases below : n < pages >>> order
    · exact word_lt_of_lt below
    · have fewer := shiftRight_mono (Nat.sub_le pages 1) order
      have last : n = pages >>> order :=
        Nat.le_antisymm (Nat.le_trans ofPage fewer) (Nat.le_of_not_lt below)
      rw [last] at ofPage ⊢
      have spare := suffice order inOrders some_ (not_whole_of_le some_ ofPage)
      have words := Nat.div_add_mod (pages >>> order) m.wordTBits
      rw [Nat.mul_comm] at words
      rw [lt_orderWords_iff]
      omega
  · have width : 32 ≤ m.wordTBits := by
      rcases m.wordTBits_eq with width | width <;> omega
    rw [Nat.div_eq_of_lt (Nat.lt_of_lt_of_le small width), lt_orderWords_iff, Nat.zero_mul]
    exact Nat.pos_of_ne_zero some_

/-! ## The log of each loop -/

/-- Every access so far was to a word of its own bitmap. -/
def Kept (b : Buddy m) (pages : Nat) : Prop :=
  ∀ access ∈ b.accesses, access.1 < nbOrders ∧ access.2 < orderWords m pages access.1

theorem Kept.visit (kept : Kept b pages) {order word : Nat} (inOrders : order < nbOrders)
    (inside : word < orderWords m pages order) : Kept (b.visit order word) pages := by
  intro access isMember
  rcases List.mem_cons.mp isMember with rfl | earlier
  · exact ⟨inOrders, inside⟩
  · exact kept access earlier

theorem Kept.updateBit (kept : Kept b pages)
    (update : BitVec m.wordTBits → Nat → BitVec m.wordTBits)
    {order n : Nat} (inOrders : order < nbOrders)
    (inside : n / m.wordTBits < orderWords m pages order) :
    Kept (updateBit update order n b) pages := kept.visit inOrders inside

theorem Kept.updateBits (kept : Kept b pages)
    (update : BitVec m.wordTBits → Nat → BitVec m.wordTBits)
    {order n turns : Nat} (inOrders : order < nbOrders)
    (inside : ∀ k, n ≤ k → k < n + turns → k / m.wordTBits < orderWords m pages order) :
    Kept (updateBits update order turns n b) pages := by
  induction turns generalizing n b with
  | zero => exact kept
  | succ turns inductionHypothesis =>
      rw [PageBuddy.updateBits]
      refine inductionHypothesis
        (kept.updateBit update inOrders (inside n (Nat.le_refl _) (by omega))) ?_
      exact fun k atLeast below => inside k (by omega) (by omega)

theorem Kept.joinPairs (kept : Kept b pages) {order b0 turns : Nat}
    (inOrders : order + 1 < nbOrders)
    (pair : ∀ i, i < turns → (b0 + 2 * i) / m.wordTBits < orderWords m pages order)
    (parent : ∀ i, i < turns → (b0 + 2 * i) / 2 / m.wordTBits < orderWords m pages (order + 1)) :
    Kept (joinPairs order turns b0 b) pages := by
  induction turns generalizing b0 b with
  | zero => exact kept
  | succ turns inductionHypothesis =>
      have visited := kept.visit (Nat.lt_of_succ_lt inOrders) (pair 0 (Nat.succ_pos _))
      have joined : Kept (joinPair order b0 b) pages := by
        rw [joinPair]
        split
        · exact visited.updateBit clearShift inOrders (parent 0 (Nat.succ_pos _))
        · exact visited
      have next : ∀ i, b0 + 2 + 2 * i = b0 + 2 * (i + 1) := fun i => by omega
      rw [PageBuddy.joinPairs]
      refine inductionHypothesis joined (fun i below => ?_) fun i below => ?_
      · rw [next]
        exact pair (i + 1) (Nat.succ_lt_succ below)
      · rw [next]
        exact parent (i + 1) (Nat.succ_lt_succ below)

section Orders

variable (suffice : WordsSuffice m pages)
include suffice

/-- What the loops over the orders touch when they follow a range: blocks of
its pages.  Set-up follows a range that may leave a small heap. -/
theorem word_lt_of_touched {range : PageRange} (fits : range.Fits)
    (reaches : ∀ page, range.Contains page → page < pages ∨ page < 32) {order : Nat}
    (inOrders : order < nbOrders) (some_ : pages >>> order ≠ 0) {n : Nat}
    (low : range.first >>> order ≤ n)
    (high : n < range.first >>> order + roundUp range.count order) :
    n / m.wordTBits < orderWords m pages order := by
  rcases (PageRange.exists_contains_iff fits order n).mpr ⟨low, high⟩ with ⟨page, isBlock, inRange⟩
  have block : page >>> order = n := isBlock
  refine word_lt suffice inOrders some_ ?_
  rw [← block]
  rcases reaches page inRange with inHeap | small
  · exact Or.inl (shiftRight_mono (Nat.le_sub_one_of_lt inHeap) order)
  · exact Or.inr (Nat.lt_of_le_of_lt (Nat.shiftRight_le page order) small)

theorem Kept.setUsedOrders {range : PageRange} (fits : range.Fits)
    (reaches : ∀ page, range.Contains page → page < pages ∨ page < 32)
    (bits : ∀ order, order < nbOrders → (b.order order).bits = pages >>> order)
    (kept : Kept b pages) {remaining order : Nat} (inOrders : order + remaining ≤ nbOrders) :
    Kept (setUsedOrders remaining order (range.first >>> order : Nat)
      (roundUp range.count order : Nat) b)
      pages := by
  induction remaining generalizing order b with
  | zero => exact kept
  | succ remaining inductionHypothesis =>
      have here : order < nbOrders := by omega
      rw [PageBuddy.setUsedOrders]
      by_cases empty : (b.order order).bits = 0
      · rw [if_pos empty]
        exact kept
      · have half : ((range.first >>> order : Nat) : Int).tdiv 2 =
          (range.first >>> (order + 1) : Nat) := rfl
        have halfBits : ((roundUp range.count order : Nat) + 1 : Int).tdiv 2 =
            (roundUp range.count (order + 1) : Nat) := by
          rw [← roundUp_half]
          rfl
        rw [if_neg empty, half, halfBits, Int.toNat_natCast, Int.toNat_natCast]
        rw [bits order here] at empty
        refine inductionHypothesis ?_ (kept.updateBits setShift here ?_) (by omega)
        · rw [order_updateBits]
          exact bits
        · exact fun n low high => word_lt_of_touched suffice fits reaches here empty low high

theorem Kept.freeOrders {range : PageRange} (fits : range.Fits)
    (reaches : ∀ page, range.Contains page → page < pages ∨ page < 32)
    (bits : ∀ order, order < nbOrders → (b.order order).bits = pages >>> order)
    (kept : Kept b pages) {remaining order : Nat} (inOrders : order + remaining ≤ nbOrders) :
    Kept (freeOrders remaining order (range.first >>> order : Nat)
      (range.count >>> order : Nat) b) pages := by
  induction remaining generalizing order b with
  | zero => exact kept
  | succ remaining inductionHypothesis =>
      have here : order < nbOrders := by omega
      rw [PageBuddy.freeOrders]
      by_cases empty : (b.order order).bits = 0
      · rw [if_pos empty]
        exact kept
      · have half : ((range.first >>> order : Nat) : Int).tdiv 2 =
          (range.first >>> (order + 1) : Nat) := rfl
        have halfBits : ((range.count >>> order : Nat) : Int).tdiv 2 =
            (range.count >>> (order + 1) : Nat) := rfl
        rw [if_neg empty, half, halfBits, Int.toNat_natCast, Int.toNat_natCast]
        rw [bits order here] at empty
        have cleared : Kept (PageBuddy.updateBits clearShift order (range.count >>> order)
            (range.first >>> order) b) pages := by
          refine kept.updateBits clearShift here fun n low high => ?_
          have fewer := shiftRight_le_roundUp range.count order
          exact word_lt_of_touched suffice fits reaches here empty low (by omega)
        dsimp only
        split
        · exact cleared
        · refine inductionHypothesis ?_ cleared (by omega)
          rw [order_updateBits]
          exact bits

/-- The joining pass looks at blocks between those of two pages of the heap. -/
theorem Kept.joinOrders {first last : Nat} (inHeap : last ≤ pages - 1)
    (bits : ∀ order, order < nbOrders → (b.order order).bits = pages >>> order)
    (kept : Kept b pages) {remaining order : Nat} (inOrders : order + remaining < nbOrders) :
    Kept (joinOrders remaining order (first >>> order : Nat) (last >>> order : Nat) b) pages := by
  induction remaining generalizing order b with
  | zero => exact kept
  | succ remaining inductionHypothesis =>
      have next : order + 1 < nbOrders := by omega
      rw [PageBuddy.joinOrders]
      by_cases empty : (b.order (order + 1)).bits = 0
      · rw [if_pos empty]
        exact kept
      · have half : ∀ page : Nat, ((page >>> order : Nat) : Int).tdiv 2 =
            (page >>> (order + 1) : Nat) :=
          fun page => rfl
        rw [if_neg empty, half, half, Int.toNat_natCast]
        rw [bits (order + 1) next] at empty
        refine inductionHypothesis ?_ (kept.joinPairs next (fun i below => ?_) fun i below => ?_)
          (by omega)
        · rw [order_joinPairs]
          exact bits
        · have reached : first >>> order + 2 * i ≤ last >>> order := by omega
          exact word_lt suffice (by omega) (shiftRight_ne_zero (Nat.le_succ order) empty)
            (Or.inl (Nat.le_trans reached (shiftRight_mono inHeap order)))
        · have reached : (first >>> order + 2 * i) / 2 ≤ last >>> (order + 1) := by
            rw [Nat.shiftRight_succ]
            omega
          exact word_lt suffice next empty
            (Or.inl (Nat.le_trans reached (shiftRight_mono inHeap (order + 1))))

theorem Kept.setUsed {range : PageRange} (fits : range.Fits)
    (reaches : ∀ page, range.Contains page → page < pages ∨ page < 32)
    (bits : ∀ order, order < nbOrders → (b.order order).bits = pages >>> order)
    (kept : Kept b pages)
    (isInt : range.count < 2 ^ 31) : Kept (buddySetUsed b range.first range.count) pages := by
  have run := kept.setUsedOrders suffice fits reaches bits (Nat.zero_add nbOrders).le
  rw [roundUp_zero, Nat.shiftRight_zero] at run
  rw [buddySetUsed, wrap32_of_lt isInt]
  exact run

theorem Kept.free {range : PageRange} (placed : Placed pages range)
    (bits : ∀ order, order < nbOrders → (b.order order).bits = pages >>> order)
    (kept : Kept b pages)
    (isInt : pages < 2 ^ 31) : Kept (buddyFree b range.first range.count) pages := by
  have inHeap := placed.inHeap
  have reaches : ∀ page, range.Contains page → page < pages ∨ page < 32 :=
    fun page inRange => Or.inl (Nat.lt_of_lt_of_le inRange.2 inHeap)
  have cleared := kept.freeOrders suffice placed.fits reaches bits (Nat.zero_add nbOrders).le
  have arguments := joinArguments (m := m) placed.inGroup placed.nonempty inHeap isInt
  have zeroOrder := bits 0 (by decide)
  have inOrders : 0 + (nbOrders - 1) < nbOrders := by decide
  rw [Nat.shiftRight_zero] at zeroOrder
  rw [Nat.shiftRight_zero, Nat.shiftRight_zero] at cleared
  rw [buddyFree, wrap32_of_lt (show range.count < 2 ^ 31 by omega), order_freeOrders, zeroOrder,
    arguments.1, arguments.2]
  refine cleared.joinOrders suffice (Nat.min_le_right _ _) ?_ inOrders
  rw [order_freeOrders]
  exact bits

end Orders

/-! ## Runs -/

/-- What holds of the allocator in every run: the bitmaps lie where set-up put
them, live blocks are where requests put them, and no update has left the words
of its bitmap. -/
structure InWords (heap : PageHeap m) (layout : Layout) (s : HeapState m) : Prop where
  order : ∀ order, order < nbOrders →
    s.buddy.order order = ⟨heap.pages >>> order, place layout order (freeBase m heap.pages order)⟩
  placed : ∀ held ∈ s.live, Placed heap.pages held
  kept : Kept s.buddy heap.pages

namespace InWords

variable {heap : PageHeap m} {layout : Layout} {s s' : HeapState m}

theorem bits (inWords : InWords heap layout s) (order : Nat) (inOrders : order < nbOrders) :
    (s.buddy.order order).bits = heap.pages >>> order := by rw [inWords.order order inOrders]

theorem boot (suffice : WordsSuffice m heap.pages) (isInt : heap.pages < 2 ^ 31) :
    InWords heap layout (heap.boot layout) := by
  rcases heap.setUp_eq layout with ⟨b, result, noAccesses, orders, _clear⟩
  have usedSmall := heap.used_le
  have kept : Kept b heap.pages := by
    intro access isMember
    rw [noAccesses] at isMember
    cases isMember
  refine ⟨fun _order inOrders => heap.order_setUp layout inOrders,
    fun _held isMember => absurd isMember List.not_mem_nil, ?_⟩
  change Kept (heap.setUp layout) heap.pages
  rw [result]
  have reaches : ∀ page, (PageRange.mk 0 heap.used).Contains page → page < heap.pages ∨
      page < 32 := by
    intro page inRange
    have below : page < 0 + heap.used := inRange.2
    omega
  have bits : ∀ order, order < nbOrders → (b.order order).bits = heap.pages >>> order := by
    intro order inOrders
    rw [orders order inOrders]
  have marked := kept.setUsed suffice (PageRange.fits_of_first_eq_zero heap.used) reaches bits
    (show heap.used < 2 ^ 31 by omega)
  exact marked

theorem step (suffice : WordsSuffice m heap.pages) (isInt : heap.pages < 2 ^ 31)
    (inWords : InWords heap layout s) {call : Call} (stepped : step s call = some s') :
    InWords heap layout s' := by
  cases step_effect inWords.bits isInt stepped with
  | refused => exact inWords
  | granted block nb inOrders below clear some_ enough =>
      have placed : Placed heap.pages ⟨block.first, nb⟩ :=
        ⟨block, inOrders, below, rfl, some_, enough⟩
      have inHeap : block.first + nb ≤ heap.pages := placed.inHeap
      refine ⟨?_, List.forall_mem_cons.mpr ⟨placed, inWords.placed⟩, ?_⟩
      · change ∀ order, order < nbOrders → (buddySetUsed s.buddy block.first nb).order order = _
        rw [order_buddySetUsed]
        exact inWords.order
      · have marked := inWords.kept.setUsed suffice placed.fits
          (fun page inRange => Or.inl (Nat.lt_of_lt_of_le inRange.2 inHeap)) inWords.bits
          (show nb < 2 ^ 31 by omega)
        exact marked
  | freed held isLive =>
      refine ⟨?_, fun other isMember => inWords.placed other (List.mem_of_mem_erase isMember), ?_⟩
      · change ∀ order, order < nbOrders → (buddyFree s.buddy held.first held.count).order order = _
        rw [order_buddyFree]
        exact inWords.order
      · exact inWords.kept.free suffice (inWords.placed held isLive) inWords.bits isInt

end InWords

/-- The bitmaps lie one after the other, so words of different bitmaps are
different words. -/
theorem InWords.separate {heap : PageHeap m} {s : HeapState m} (inWords : InWords heap .packed s)
    {order order' word word' : Nat} (inOrders : order < nbOrders) (inOrders' : order' < nbOrders)
    (inside : word < orderWords m heap.pages order)
    (inside' : word' < orderWords m heap.pages order')
    (different : order' ≠ order) : s.buddy.wordAt order word ≠ s.buddy.wordAt order' word' := by
  intro same
  rw [Buddy.wordAt, Buddy.wordAt, inWords.order order inOrders,
    inWords.order order' inOrders'] at same
  have offset : freeBase m heap.pages order + word = freeBase m heap.pages order' + word' :=
    congrArg WordPtr.offset same
  rcases Nat.lt_or_gt_of_ne different with lower | higher
  · have next : freeBase m heap.pages order' + orderWords m heap.pages order' ≤
        freeBase m heap.pages order :=
      cursor_mono_order (orderWords m heap.pages) buddyWords lower
    omega
  · have next : freeBase m heap.pages order + orderWords m heap.pages order ≤
        freeBase m heap.pages order' :=
      cursor_mono_order (orderWords m heap.pages) buddyWords higher
    omega

/-- On a heap whose bitmaps have bits to spare, every word that an update has
read or written in a run is a word of its own bitmap, and of no other. -/
theorem page_accesses_inside (heap : PageHeap m) (isInt : heap.pages + 1 < 2 ^ 31)
    (suffice : WordsSuffice m heap.pages) (s : HeapState m) (reachable : heap.Reachable .packed s) :
    ∀ access ∈ s.buddy.accesses,
      access.1 < nbOrders ∧ access.2 < orderWords m heap.pages access.1 ∧
      ∀ order word, order < nbOrders → word < orderWords m heap.pages order → order ≠ access.1 →
        s.buddy.wordAt access.1 access.2 ≠ s.buddy.wordAt order word := by
  have small : heap.pages < 2 ^ 31 := by omega
  have inWords : InWords heap .packed s :=
    reachable.invariant (fun _s _call _s' holds stepped => holds.step suffice small stepped)
      (InWords.boot suffice small)
  intro access isMember
  rcases inWords.kept access isMember with ⟨inOrders, inside⟩
  exact ⟨inOrders, inside, fun order word inOrders' inside' different =>
    inWords.separate inOrders inOrders' inside inside' different⟩

theorem sixtyFourPages_isWord : 64 * 4096 < Machine.beaglexm.wordLimit := by decide

def sixtyFourPages : PageHeap Machine.beaglexm :=
  ⟨0x80100000, 64 * 4096, fun _ => 0#32, sixtyFivePages.isAddress, sixtyFourPages_isWord⟩

/-- The first free page is handed out and taken back. -/
def onePage : List Call := [.buddyAlloc 1, .buddyFree ⟨1, 1⟩]

theorem onePage_run :
    (Transition.run step (sixtyFourPages.boot .packed) onePage).isSome = true := by
  decide +kernel

def pageReturned : HeapState Machine.beaglexm :=
  (Transition.run step (sixtyFourPages.boot .packed) onePage).get onePage_run

theorem pageReturned_reachable : sixtyFourPages.Reachable .packed pageReturned :=
  ⟨onePage, (Option.some_get onePage_run).symm⟩

theorem page_accesses_inside_pageReturned :
    pageReturned.live = [] ∧ ∀ access ∈ pageReturned.buddy.accesses,
      access.1 < nbOrders ∧ access.2 < orderWords Machine.beaglexm sixtyFourPages.pages access.1 ∧
      ∀ order word, order < nbOrders →
        word < orderWords Machine.beaglexm sixtyFourPages.pages order →
        order ≠ access.1 →
        pageReturned.buddy.wordAt access.1 access.2 ≠ pageReturned.buddy.wordAt order word :=
  ⟨by decide +kernel,
    page_accesses_inside sixtyFourPages (by decide) (by decide) pageReturned pageReturned_reachable⟩

/-! ## The page behind the last word -/

/-- What joining does to the rest: the log grows, and no clear bit is set. -/
structure Joins (b b' : Buddy m) : Prop where
  logged : b.accesses ⊆ b'.accesses
  order : b'.order = b.order
  clear : ∀ pointer i, (b.words pointer).getLsbD i = false → (b'.words pointer).getLsbD i = false

namespace Joins

variable {b' b'' : Buddy m}

theorem isSet (joins : Joins b b') {order bit : Nat} (clear : b.isSet order bit = false) :
    b'.isSet order bit = false := by
  rw [Buddy.isSet, Buddy.load, Buddy.wordAt, joins.order]
  exact joins.clear _ _ clear

theorem refl (b : Buddy m) : Joins b b := ⟨List.Subset.refl _, rfl, fun _pointer _i clear => clear⟩

theorem trans (first : Joins b b') (second : Joins b' b'') : Joins b b'' where
  logged := List.Subset.trans first.logged second.logged
  order := second.order.trans first.order
  clear := fun pointer i clear => second.clear pointer i (first.clear pointer i clear)

theorem updateBit (order n : Nat) (b : Buddy m) : Joins b (updateBit clearShift order n b) where
  logged := List.subset_cons_self _ _
  order := rfl
  clear := by
    intro pointer i clear
    change (Function.update b.words (b.wordAt order (n / m.wordTBits)) _ pointer).getLsbD i = false
    by_cases same : pointer = b.wordAt order (n / m.wordTBits)
    · rw [same] at clear ⊢
      rw [Function.update_self, clearShift, BitVec.getLsbD_and, Buddy.load, clear, Bool.false_and]
    · rwa [Function.update_of_ne same]

theorem joinPair (order b0 : Nat) (b : Buddy m) : Joins b (joinPair order b0 b) := by
  have visited : Joins b (b.visit order (b0 / m.wordTBits)) :=
    ⟨List.subset_cons_self _ _, rfl, fun _pointer _i clear => clear⟩
  rw [PageBuddy.joinPair]
  split
  · exact visited.trans (updateBit (order + 1) (b0 / 2) _)
  · exact visited

theorem joinPairs (order turns b0 : Nat) (b : Buddy m) : Joins b (joinPairs order turns b0 b) := by
  induction turns generalizing b0 b with
  | zero => exact refl b
  | succ turns inductionHypothesis =>
      exact (joinPair order b0 b).trans (inductionHypothesis (b0 + 2) _)

theorem joinOrders (remaining order : Nat) (first last : Int) (b : Buddy m) :
    Joins b (joinOrders remaining order first last b) := by
  induction remaining generalizing order first last b with
  | zero => exact refl b
  | succ remaining inductionHypothesis =>
      rw [PageBuddy.joinOrders]
      split
      · exact refl b
      · exact (joinPairs _ _ _ b).trans (inductionHypothesis _ _ _ _)

end Joins

theorem joinPairs_last (order turns b0 : Nat) (b : Buddy m) :
    joinPairs order (turns + 1) b0 b =
      joinPair order (b0 + 2 * turns) (joinPairs order turns b0 b) := by
  induction turns generalizing b0 b with
  | zero => rfl
  | succ turns inductionHypothesis =>
      have next : b0 + 2 * (turns + 1) = b0 + 2 + 2 * turns := by omega
      rw [joinPairs, inductionHypothesis, next]
      rfl

/-- A free pair whose parent has its bit in another bitmap clears it there. -/
theorem joinPair_clears {order order' c bit : Nat}
    (pair : b.isSet order (2 * c) = false ∧ b.isSet order (2 * c + 1) = false)
    (sameWord : b.wordAt (order + 1) (c / m.wordTBits) = b.wordAt order' (bit / m.wordTBits))
    (sameBit : c % m.wordTBits = bit % m.wordTBits) :
    (order + 1, c / m.wordTBits) ∈ (joinPair order (2 * c) b).accesses ∧
      (joinPair order (2 * c) b).isSet order' bit = false := by
  have parent : 2 * c / 2 = c := by omega
  rw [joinPair,
    if_pos ((pair_clear_iff (b.visit order (2 * c / m.wordTBits)) order c).mpr pair), parent]
  refine ⟨List.mem_cons_self, ?_⟩
  change (Function.update b.words (b.wordAt (order + 1) (c / m.wordTBits)) _
    (b.wordAt order' (bit / m.wordTBits))).getLsbD (bit % m.wordTBits) = false
  rw [← sameWord, Function.update_self, clearShift_writes _ _ _ (Nat.mod_lt _ m.wordTBits_pos),
    if_pos sameBit.symm]

/-- The allocator of sixty-five pages when the first free one is handed out. -/
def pageTaken : Buddy Machine.beaglexm := (buddyAlloc (sixtyFivePages.setUp .packed) 1).2

theorem pageTaken_first : (buddyAlloc (sixtyFivePages.setUp .packed) 1).1 = 1 := by decide +kernel

theorem pageTaken_result : buddyAlloc (sixtyFivePages.setUp .packed) 1 = (1, pageTaken) :=
  Prod.ext_iff.mpr ⟨pageTaken_first, by rw [pageTaken]⟩

theorem sixtyFivePages_pages : sixtyFivePages.pages = 65 := by decide

theorem order_pageTaken {order : Nat} (inOrders : order < nbOrders) :
    pageTaken.order order = ⟨65 >>> order, ⟨0, freeBase Machine.beaglexm 65 order⟩⟩ := by
  have laid := sixtyFivePages.order_setUp .packed inOrders
  rw [sixtyFivePages_pages] at laid
  rw [pageTaken, order_buddyAlloc]
  exact laid

/-- The state before the joining pass. -/
def pageCleared : Buddy Machine.beaglexm := freeOrders nbOrders 0 1 1 pageTaken

theorem order_pageCleared {order : Nat} (inOrders : order < nbOrders) :
    pageCleared.order order = ⟨65 >>> order, ⟨0, freeBase Machine.beaglexm 65 order⟩⟩ := by
  rw [pageCleared, order_freeOrders]
  exact order_pageTaken inOrders

theorem pageCleared_last : pageCleared.isSet 0 64 = false ∧ pageCleared.isSet 0 65 = false := by
  decide +kernel

/-- The last pair of the lowest order is free.  Its parent is bit 32 of a bitmap
of 32 bits. -/
theorem pageFreed_strays :
    (1, 1) ∈ (buddyFree pageTaken 1 1).accesses ∧ (buddyFree pageTaken 1 1).isSet 2 0 = false := by
  have bits : (pageCleared.order 1).bits = 32 := congrArg Order.bits (order_pageCleared (by decide))
  have free : buddyFree pageTaken 1 1 =
      joinOrders 11 1 0 32 (joinPair 0 (2 * 32) (joinPairs 0 32 0 pageCleared)) := by
    have run : buddyFree pageTaken 1 1 = joinOrders 12 0 0 64 pageCleared := by
      have count : wrap32 ((1 : Nat) : Int) = 1 := by decide
      have first : wrap32 (firstGroup 1 * multiple : Nat) = 0 := by decide
      have last : wrap32 (joinLast Machine.beaglexm 65 (lastGroup Machine.beaglexm 1 1)) =
        64 := by decide
      have zeroOrder : (pageTaken.order 0).bits = 65 :=
        congrArg Order.bits (order_pageTaken (by decide))
      have top : nbOrders - 1 = 12 := rfl
      rw [buddyFree, order_freeOrders, zeroOrder, first, last, count, pageCleared,
        buddyJoinFree, top]
    rw [run, joinOrders, bits, if_neg (by decide)]
    change joinOrders 11 1 0 32 (joinPairs 0 (32 + 1) 0 pageCleared) = _
    rw [joinPairs_last]
  have before := Joins.joinPairs 0 32 0 pageCleared
  have sameWord : (joinPairs 0 32 0 pageCleared).wordAt 1 (32 / 32) =
      (joinPairs 0 32 0 pageCleared).wordAt 2 (0 / 32) := by
    rw [Buddy.wordAt, Buddy.wordAt, before.order, order_pageCleared (by decide),
      order_pageCleared (by decide)]
    decide
  have pair : (joinPairs 0 32 0 pageCleared).isSet 0 (2 * 32) = false ∧
      (joinPairs 0 32 0 pageCleared).isSet 0 (2 * 32 + 1) = false :=
    ⟨before.isSet pageCleared_last.1, before.isSet pageCleared_last.2⟩
  have strays := joinPair_clears pair sameWord rfl
  have rest := Joins.joinOrders 11 1 0 32 (joinPair 0 (2 * 32) (joinPairs 0 32 0 pageCleared))
  rw [free]
  exact ⟨rest.logged strays.1, rest.isSet strays.2⟩

/-- When set-up leaves the second page free, it can be handed out and taken
back. -/
theorem reachable_onePage {heap : PageHeap m} {layout : Layout}
    (taken : buddyAlloc (heap.setUp layout) 1 = (1, b)) :
    heap.Reachable layout ⟨buddyFree b 1 1, []⟩ := by
  have granted : step (heap.boot layout) (.buddyAlloc 1) = some ⟨b, [⟨1, 1⟩]⟩ := by
    rw [step, if_pos (by decide), PageHeap.boot, taken]
    rfl
  have freed : step ⟨b, [⟨1, 1⟩]⟩ (.buddyFree ⟨1, 1⟩) = some ⟨buddyFree b 1 1, []⟩ := by
    rw [step, if_pos List.mem_cons_self]
    rfl
  exact ⟨onePage, Transition.run_cons_eq_some.mpr
    ⟨_, granted, Transition.run_cons_eq_some.mpr ⟨_, freed, Transition.run_nil _⟩⟩⟩

/-- Set-up uses the first page.  When the second is handed out and taken back,
joining clears the bit of the first four pages. -/
theorem not_page_accesses_inside :
    ∃ s, sixtyFivePages.Reachable .packed s ∧ (1, 1) ∈ s.buddy.accesses ∧
      orderWords Machine.beaglexm sixtyFivePages.pages 1 = 1 ∧
      s.buddy.wordAt 1 1 = s.buddy.wordAt 2 0 ∧
      s.buddy.isSet 2 0 = false ∧ ¬ sixtyFivePages.FreePage s 0 := by
  have used : 0 < 0 + sixtyFivePages.used := by decide +kernel
  rcases (⟨pageTaken, pageTaken_result, pageFreed_strays, order_pageTaken⟩ :
      ∃ b, buddyAlloc (sixtyFivePages.setUp .packed) 1 = (1, b) ∧
        ((1, 1) ∈ (buddyFree b 1 1).accesses ∧ (buddyFree b 1 1).isSet 2 0 = false) ∧
        ∀ {order}, order < nbOrders →
          b.order order = ⟨65 >>> order, ⟨0, freeBase Machine.beaglexm 65 order⟩⟩)
    with ⟨b, taken, ⟨logged, clear⟩, orders⟩
  refine ⟨_, reachable_onePage taken, logged, ?_, ?_, clear, fun isFree => ?_⟩
  · rw [sixtyFivePages_pages]
    decide
  · rw [Buddy.wordAt, Buddy.wordAt, order_buddyFree, orders (by decide), orders (by decide)]
    decide
  · exact isFree ⟨⟨0, sixtyFivePages.used⟩, List.mem_cons_self, Nat.le_refl _, used⟩

end PageBuddy
end ShovelOS
