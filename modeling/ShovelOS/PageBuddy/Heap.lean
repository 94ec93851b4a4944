import ShovelOS.PageBuddy.SetUp
import ShovelOS.Library.Transition

namespace ShovelOS
namespace PageBuddy

open BlockTree PageRanges
open BuddyAlloc (Layout)
open Stdlib (wrap32 wrap32_of_lt)

/-!
# Runs of the earlier page allocator

After set-up the allocator is called for any numbers of pages, and blocks are
freed with the numbers they were allocated with.  The pages that set-up uses
and those of the live blocks are taken.  The bitmaps describe exactly these,
as long as the page numbers are `int`s.
-/

variable {m : Machine}

/-- The allocator and the blocks that its callers hold. -/
structure HeapState (m : Machine) where
  buddy : Buddy m
  live : List PageRange

inductive Call where
  | buddyAlloc (nb : Nat)
  | buddyFree (held : PageRange)
  deriving DecidableEq, Repr

/-- One call.  A request is for a page at least, and a free is of a block that
is live. -/
def step (s : HeapState m) : Call → Option (HeapState m)
  | .buddyAlloc nb =>
      if 1 ≤ nb then
        let (block, b) := buddyAlloc s.buddy nb
        some (if block = -1 then { s with buddy := b } else ⟨b, ⟨block.toNat, nb⟩ :: s.live⟩)
      else none
  | .buddyFree held =>
      if held ∈ s.live then
        some ⟨buddyFree s.buddy held.first held.count, s.live.erase held⟩
      else none

namespace PageHeap

variable (heap : PageHeap m)

def boot (layout : Layout) : HeapState m := ⟨heap.setUp layout, []⟩

/-- A state that some sequence of calls leads to. -/
def Reachable (layout : Layout) (s : HeapState m) : Prop :=
  Transition.Reachable step (heap.boot layout) s

/-- The ranges of pages that are in use. -/
def taken (s : HeapState m) : List PageRange := ⟨0, heap.used⟩ :: s.live

def FreePage (s : HeapState m) (page : Nat) : Prop := ¬ Taken (heap.taken s) page

end PageHeap

/-- A range at the start of a block of the heap, of a page at least and no
longer than the block. -/
def Placed (pages : Nat) (range : PageRange) : Prop :=
  ∃ block : Block, block.order < nbOrders ∧ block.index < pages >>> block.order ∧
    range.first = block.first ∧ 0 < range.count ∧ range.count ≤ block.size

namespace Placed

variable {pages : Nat} {range : PageRange}

theorem nonempty (placed : Placed pages range) : 0 < range.count := by
  rcases placed with ⟨block, _inOrders, _below, _first, positive, _atMost⟩
  exact positive

theorem fits (placed : Placed pages range) : range.Fits := by
  rcases placed with ⟨block, _inOrders, _below, first, _positive, atMost⟩
  have fits := PageRange.fits_of_block atMost
  rwa [← first] at fits

theorem block_le {block : Block} (below : block.index < pages >>> block.order) :
    block.first + block.size ≤ pages := by
  rw [Nat.shiftRight_eq_div_pow, Nat.lt_iff_add_one_le, Nat.le_div_iff_mul_le (Nat.two_pow_pos _),
    Nat.add_mul, Nat.one_mul] at below
  rw [Block.first_eq]
  exact below

theorem inHeap (placed : Placed pages range) : range.first + range.count ≤ pages := by
  rcases placed with ⟨block, _inOrders, below, first, _positive, atMost⟩
  have inside := block_le below
  omega

/-- No order is larger than a group. -/
theorem inGroup (placed : Placed pages range) : InGroup range (range.first >>> 12) := by
  rcases placed with ⟨block, inOrders, _below, first, positive, atMost⟩
  have atMost12 : block.order ≤ 12 := Nat.le_of_lt_succ inOrders
  intro page inRange
  have inBlock : block.Contains page := by
    rw [Block.contains_iff, ← first]
    exact ⟨inRange.1, Nat.lt_of_lt_of_le inRange.2 (Nat.add_le_add_left atMost _)⟩
  have inSame := (Block.within_above atMost12).contains inBlock
  have firstInSame := (Block.within_above atMost12).contains block.contains_first
  rw [first]
  exact inSame.trans firstInSame.symm

end Placed

/-! ## A request -/

section Requests

variable {b : Buddy m} {pages : Nat} {taken : List PageRange}

theorem buddyAlloc_none {nb : Nat} (none : buddyOrder nb = none) : buddyAlloc b nb = (-1, b) := by
  rw [buddyAlloc, none]

theorem buddyAlloc_notFound {nb order : Nat} (isOrder : buddyOrder nb = some order)
    (search : searchWords b order (bitmapWords m (b.order order).bits) 0 = none) :
    buddyAlloc b nb = (-1, b) := by
  rw [buddyAlloc, isOrder]
  dsimp only
  rw [search]

theorem buddyAlloc_found {nb order index : Nat} (isOrder : buddyOrder nb = some order)
    (search : searchWords b order (bitmapWords m (b.order order).bits) 0 = some index) :
    buddyAlloc b nb = (wrap32 (1 <<< order * index % m.wordLimit : Nat),
      buddySetUsed b (wrap32 (1 <<< order * index % m.wordLimit : Nat)) nb) := by
  rw [buddyAlloc, isOrder]
  dsimp only
  rw [search]

/-- A request is refused, or it gets the pages at the start of a block whose
bit is clear. -/
inductive Answer (b : Buddy m) (pages nb : Nat) : Prop where
  | tooMany (large : 4096 < nb) (result : buddyAlloc b nb = (-1, b))
  | noneClear (order : Nat) (isOrder : buddyOrder nb = some order)
      (set : ∀ index, index < pages >>> order → b.isSet order index = true)
      (result : buddyAlloc b nb = (-1, b))
  | granted (block : Block) (isOrder : buddyOrder nb = some block.order)
      (below : block.index < pages >>> block.order)
        (clear : b.isSet block.order block.index = false)
      (result : buddyAlloc b nb = ((block.first : Int), buddySetUsed b (block.first : Int) nb))

/-- This needs nothing of the contents of the bitmaps. -/
theorem answer (bits : ∀ order, order < nbOrders → (b.order order).bits = pages >>> order)
    (isInt : pages < 2 ^ 31) (nb : Nat) : Answer b pages nb := by
  cases request : buddyOrder nb with
  | none => exact Answer.tooMany ((buddyOrder_eq_none_iff nb).mp request) (buddyAlloc_none request)
  | some order =>
      rcases buddyOrder_eq_some request with ⟨inOrders, _enough, _least⟩
      have length := bits order inOrders
      have fewer := Nat.shiftRight_le pages order
      have small : (b.order order).bits < 2 ^ 31 := by
        rw [length]
        exact Nat.lt_of_le_of_lt fewer isInt
      cases search : searchWords b order (bitmapWords m (b.order order).bits) 0 with
      | none =>
          refine Answer.noneClear order request (fun index below => ?_)
            (buddyAlloc_notFound request search)
          exact searchWords_none small (Nat.zero_add _) search (by omega) (by omega)
      | some index =>
          have result := buddyAlloc_found request search
          rcases searchWords_some small (Nat.zero_add _) search with ⟨below, clear⟩
          rw [length] at below
          have inside : (Block.mk order index).first + (Block.mk order index).size ≤ pages :=
            Placed.block_le below
          have positive := Block.size_pos ⟨order, index⟩
          have words := m.two_pow_32_le_wordLimit
          have first : 1 <<< order * index = (Block.mk order index).first := by
            rw [Nat.one_shiftLeft, Nat.mul_comm]
            exact (Nat.shiftLeft_eq _ _).symm
          rw [first, Nat.mod_eq_of_lt (by omega), wrap32_of_lt (by omega)] at result
          exact Answer.granted ⟨order, index⟩ request below clear result

/-- A request is refused exactly when it is for too many pages or no block of
its order is free. -/
theorem Described.refused_iff (described : Described b pages taken) (isInt : pages < 2 ^ 31)
    (nb : Nat) :
    (buddyAlloc b nb).1 = -1 ↔ 4096 < nb ∨ ∃ order, buddyOrder nb = some order ∧
      ∀ index, index < pages >>> order → Touched taken ⟨order, index⟩ := by
  cases answer described.bits isInt nb with
  | tooMany large result =>
      rw [result]
      exact iff_of_true rfl (Or.inl large)
  | noneClear order isOrder set result =>
      have inOrders := (buddyOrder_eq_some isOrder).1
      rw [result]
      refine iff_of_true rfl (Or.inr ⟨order, isOrder, fun index below => ?_⟩)
      exact (described.isSet_iff order index inOrders below).mp (set index below)
  | granted block isOrder below clear result =>
      have inOrders := (buddyOrder_eq_some isOrder).1
      rw [result]
      refine iff_of_false (fun refused => ?_) ?_
      · change (block.first : Int) = -1 at refused
        omega
      · rintro (large | ⟨order, isOrder', touched⟩)
        · rw [(buddyOrder_eq_none_iff nb).mpr large] at isOrder
          cases isOrder
        · rw [isOrder] at isOrder'
          cases isOrder'
          have set := (described.isSet_iff _ _ inOrders below).mpr (touched block.index below)
          rw [clear] at set
          cases set

/-- What a call does: nothing, or it hands out the pages at the start of a block
whose bit is clear, or it takes back a live block. -/
inductive Effect (s : HeapState m) (pages : Nat) : HeapState m → Prop where
  | refused : Effect s pages s
  | granted (block : Block) (nb : Nat) (inOrders : block.order < nbOrders)
      (below : block.index < pages >>> block.order)
        (clear : s.buddy.isSet block.order block.index = false)
      (some_ : 1 ≤ nb) (enough : nb ≤ block.size) :
      Effect s pages ⟨buddySetUsed s.buddy block.first nb, ⟨block.first, nb⟩ :: s.live⟩
  | freed (held : PageRange) (isLive : held ∈ s.live) :
      Effect s pages ⟨buddyFree s.buddy held.first held.count, s.live.erase held⟩

theorem step_effect {s s' : HeapState m}
    (bits : ∀ order, order < nbOrders → (s.buddy.order order).bits = pages >>> order)
    (isInt : pages < 2 ^ 31)
    {call : Call} (stepped : step s call = some s') : Effect s pages s' := by
  cases call with
  | buddyAlloc nb =>
      rw [step] at stepped
      by_cases some_ : 1 ≤ nb
      · rw [if_pos some_] at stepped
        cases answer bits isInt nb with
        | tooMany large result =>
            rw [result] at stepped
            cases stepped
            exact Effect.refused
        | noneClear order isOrder set result =>
            rw [result] at stepped
            cases stepped
            exact Effect.refused
        | granted block isOrder below clear result =>
            rcases buddyOrder_eq_some isOrder with ⟨inOrders, enough, _least⟩
            have notMinus : (block.first : Int) ≠ -1 := by omega
            rw [result] at stepped
            dsimp only at stepped
            rw [if_neg notMinus, Int.toNat_natCast] at stepped
            cases stepped
            exact Effect.granted block nb inOrders below clear some_ enough
      · rw [if_neg some_] at stepped
        cases stepped
  | buddyFree held =>
      rw [step] at stepped
      split at stepped
      · rename_i isLive
        cases stepped
        exact Effect.freed held isLive
      · cases stepped

end Requests

/-! ## The invariant of a run -/

/-- The bitmaps describe the taken pages, which are apart, and each live block
is where a request puts it. -/
structure Sound (heap : PageHeap m) (s : HeapState m) : Prop where
  described : Described s.buddy heap.pages (heap.taken s)
  apart : (heap.taken s).Pairwise PageRange.Apart
  placed : ∀ held ∈ s.live, Placed heap.pages held

section Steps

variable {heap : PageHeap m} {s s' : HeapState m}

theorem apart_of_not_touched {taken : List PageRange} {block : Block}
    (untouched : ¬ Touched taken block)
    {nb : Nat} (atMost : nb ≤ block.size) :
    ∀ range ∈ taken, (PageRange.mk block.first nb).Apart range := by
  intro range isMember page inNew inRange
  refine untouched ⟨page, ?_, range, isMember, inRange⟩
  rw [Block.contains_iff]
  exact ⟨inNew.1, Nat.lt_of_lt_of_le inNew.2 (Nat.add_le_add_left atMost _)⟩

/-- The ranges with the first two exchanged. -/
theorem pairwise_apart_swap {first second : PageRange} {rest : List PageRange}
    (apart : (first :: second :: rest).Pairwise PageRange.Apart) :
    (second :: first :: rest).Pairwise PageRange.Apart :=
  (List.Perm.swap second first rest).pairwise apart
    fun {left right} (isApart : left.Apart right) => isApart.symm

theorem Sound.step (isInt : heap.pages < 2 ^ 31) (sound : Sound heap s) {call : Call}
    (stepped : step s call = some s') : Sound heap s' := by
  cases step_effect sound.described.bits isInt stepped with
  | refused => exact sound
  | granted block nb inOrders below clear some_ enough =>
      have untouched : ¬ Touched (heap.taken s) block := by
        rw [← sound.described.isSet_iff block.order block.index inOrders below, clear]
        exact Bool.false_ne_true
      have placed : Placed heap.pages ⟨block.first, nb⟩ :=
        ⟨block, inOrders, below, rfl, some_, enough⟩
      have inHeap : block.first + nb ≤ heap.pages := placed.inHeap
      refine ⟨?_, ?_, List.forall_mem_cons.mpr ⟨placed, sound.placed⟩⟩
      · refine (sound.described.setUsed placed.fits (show nb < 2 ^ 31 by omega)).congr fun range =>
          ?_
        simp only [PageHeap.taken, List.mem_cons]
        exact or_left_comm
      · exact pairwise_apart_swap
          (List.pairwise_cons.mpr ⟨apart_of_not_touched untouched enough, sound.apart⟩)
  | freed held isLive =>
      have placed := sound.placed held isLive
      have permuted : (heap.taken s).Perm (held :: heap.taken ⟨s.buddy, s.live.erase held⟩) :=
        ((List.perm_cons_erase isLive).cons _).trans (List.Perm.swap _ _ _)
      have apart := permuted.pairwise sound.apart
        fun {left right} (isApart : left.Apart right) => isApart.symm
      rcases List.pairwise_cons.mp apart with ⟨apartFromHeld, apartRest⟩
      refine ⟨?_, apartRest,
        fun other isMember => sound.placed other (List.mem_of_mem_erase isMember)⟩
      exact (sound.described.congr fun range => permuted.mem_iff).free placed.fits placed.inGroup
        placed.nonempty placed.inHeap isInt apartFromHeld

end Steps

namespace PageHeap

variable (heap : PageHeap m) (isInt : heap.pages < 2 ^ 31)
include isInt

theorem sound_boot : Sound heap (heap.boot .ownArrays) where
  described := heap.described_setUp isInt
  apart := List.pairwise_singleton _ _
  placed := fun _held isMember => absurd isMember List.not_mem_nil

theorem sound_of_reachable {s : HeapState m} (reachable : heap.Reachable .ownArrays s) :
    Sound heap s :=
  reachable.invariant (fun _s _call _s' sound stepped => sound.step isInt stepped)
    (heap.sound_boot isInt)

end PageHeap

/-- With 32-bit words the page numbers of every heap are `int`s. -/
theorem PageHeap.isInt_of_narrow (heap : PageHeap m) (narrow : m.wordTBits = 32) :
    heap.pages + 1 < 2 ^ 31 := by
  have bytes := heap.measurable
  have many := Nat.mul_le_mul_left heap.pages m.thirtyTwo_le_pageSize
  rw [Machine.wordLimit, narrow] at bytes
  omega

/-- A block is untouched when all its pages are free. -/
theorem not_touched_iff {heap : PageHeap m} {s : HeapState m} {block : Block} :
    ¬ Touched (heap.taken s) block ↔ ∀ page, block.Contains page → heap.FreePage s page := by
  simp only [Touched, PageHeap.FreePage, not_exists, not_and]

/-- In every reachable state a bit is clear exactly when all pages of its block
are free, the taken ranges are apart, and a request is refused exactly when it
is for more than 4096 pages or no block of its order is free. -/
theorem page_bitmaps_exact (heap : PageHeap m) (isInt : heap.pages + 1 < 2 ^ 31) (s : HeapState m)
    (reachable : heap.Reachable .ownArrays s) :
    (∀ order index, order < nbOrders → index < (s.buddy.order order).bits →
      (s.buddy.isSet order index = false ↔
        ∀ page, (Block.mk order index).Contains page → heap.FreePage s page)) ∧
    (heap.taken s).Pairwise PageRange.Apart ∧
    ∀ nb, 1 ≤ nb → ((buddyAlloc s.buddy nb).1 = -1 ↔ 4096 < nb ∨
      ∃ order, nb ≤ 2 ^ order ∧ (∀ lower, lower < order → 2 ^ lower < nb) ∧
        ∀ index, index < (s.buddy.order order).bits →
          ¬ ∀ page, (Block.mk order index).Contains page → heap.FreePage s page) := by
  have sound := heap.sound_of_reachable (by omega) reachable
  have described := sound.described
  refine ⟨?_, sound.apart, ?_⟩
  · intro order index inOrders below
    rw [described.bits order inOrders] at below
    rw [← not_touched_iff, ← described.isSet_iff order index inOrders below, Bool.not_eq_true]
  · intro nb some_
    rw [described.refused_iff (by omega)]
    constructor
    · rintro (large | ⟨order, isOrder, touched⟩)
      · exact Or.inl large
      · rcases buddyOrder_eq_some isOrder with ⟨inOrders, enough, least⟩
        refine Or.inr ⟨order, enough, least, fun index below free => ?_⟩
        rw [described.bits order inOrders] at below
        exact not_touched_iff.mpr free (touched index below)
    · rintro (large | ⟨order, enough, least, noneFree⟩)
      · exact Or.inl large
      · cases request : buddyOrder nb with
        | none => exact Or.inl ((buddyOrder_eq_none_iff nb).mp request)
        | some found =>
            rcases buddyOrder_eq_some request with ⟨inOrders, enoughFound, leastFound⟩
            have same : found = order := by
              rcases Nat.lt_trichotomy found order with lower | same | higher
              · exact absurd enoughFound (Nat.not_le_of_lt (least found lower))
              · exact same
              · exact absurd enough (Nat.not_le_of_lt (leastFound order higher))
            rw [same] at inOrders
            refine Or.inr ⟨found, rfl, fun index below => ?_⟩
            rw [same] at below ⊢
            by_contra untouched
            refine noneFree index ?_ (not_touched_iff.mp untouched)
            rw [described.bits order inOrders]
            exact below

def sixtyFivePages : PageHeap Machine.beaglexm :=
  ⟨0x80100000, 65 * 4096, fun _ => 0#32, by decide, by decide⟩

/-- Three pages behind the one that set-up uses, one page between them, and the
three are given back. -/
def threeAndOne : List Call := [.buddyAlloc 3, .buddyAlloc 1, .buddyFree ⟨4, 3⟩]

theorem threeAndOne_run :
    (Transition.run step (sixtyFivePages.boot .ownArrays) threeAndOne).isSome = true := by
  decide +kernel

def oneLeft : HeapState Machine.beaglexm :=
  (Transition.run step (sixtyFivePages.boot .ownArrays) threeAndOne).get threeAndOne_run

theorem oneLeft_reachable : sixtyFivePages.Reachable .ownArrays oneLeft :=
  ⟨threeAndOne, (Option.some_get threeAndOne_run).symm⟩

theorem page_bitmaps_exact_oneLeft :
    (oneLeft.buddy.isSet 2 1 = false ↔
      ∀ page, (Block.mk 2 1).Contains page → sixtyFivePages.FreePage oneLeft page) ∧
    ((buddyAlloc oneLeft.buddy 64).1 = -1 ↔ 4096 < 64 ∨
      ∃ order, 64 ≤ 2 ^ order ∧ (∀ lower, lower < order → 2 ^ lower < 64) ∧
        ∀ index, index < (oneLeft.buddy.order order).bits →
          ¬ ∀ page, (Block.mk order index).Contains page →
          sixtyFivePages.FreePage oneLeft page) := by
  have exact_ := page_bitmaps_exact sixtyFivePages (by decide) oneLeft oneLeft_reachable
  have bits :=
    (sixtyFivePages.sound_of_reachable (by decide) oneLeft_reachable).described.bits 2 (by decide)
  refine ⟨exact_.1 2 1 (by decide) ?_, exact_.2.2 64 (by decide)⟩
  rw [bits]
  decide

theorem wideMachine_wordTBits : 64 = 32 ∨ 64 = 64 := Or.inr rfl

def wideMachine : Machine :=
  ⟨64, 12, wideMachine_wordTBits, Machine.beaglexm.five_le_pageShift, Machine.beaglexm.pageShift_lt⟩

/-- A heap of `2 ^ 46` pages. -/
def hugeHeap : PageHeap wideMachine := ⟨0x80100000, 2 ^ 58, fun _ => 0#64, by decide, by decide⟩

/-- The pages that set-up uses are more than an `int` counts.  It marks none of
them, and the first page looks free. -/
theorem not_page_bitmaps_exact :
    hugeHeap.Reachable .ownArrays (hugeHeap.boot .ownArrays) ∧
      0 < ((hugeHeap.boot .ownArrays).buddy.order 0).bits ∧
      (hugeHeap.boot .ownArrays).buddy.isSet 0 0 = false ∧
      ¬ ∀ page, (Block.mk 0 0).Contains page →
        hugeHeap.FreePage (hugeHeap.boot .ownArrays) page := by
  refine ⟨Transition.Reachable.refl _, by decide +kernel, by decide +kernel, fun free => ?_⟩
  refine free 0 rfl ⟨⟨0, hugeHeap.used⟩, List.mem_cons_self, Nat.le_refl _, ?_⟩
  change 0 < 0 + hugeHeap.used
  decide +kernel

end PageBuddy
end ShovelOS
