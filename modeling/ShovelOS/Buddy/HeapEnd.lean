import ShovelOS.Buddy.Guarantees

namespace ShovelOS
namespace BuddyAlloc

open WordBits BlockTree

/-!
# The end of the heap

A block that memory backs only in part is kept from callers by its dirty
bit, which set-up sets and no live block stands for.  A free walks up and
clears dirty bits until it meets a dirty twin.  Below a partly backed block
there is almost always one: the twin is itself partly backed, or holds a
live block.  The exception is a free that empties the last whole block of
the heap when this block is the left half of its parent.  Its twin lies
beyond the end, is never marked, and so the walk clears the guard of the
parent, which may then be handed out.

The runs in which no free does this return blocks inside the heap only.
-/

variable {m : Machine}

/-- The block ends where the heap ends, and is the left half of a tracked
parent, which it leaves half backed. -/
def LastWhole (pages orders : Nat) (block : Block) : Prop :=
  block.order + 1 < orders ∧ block.index % 2 = 0 ∧ block.first + block.size = pages

/-- Giving back the block leaves another live one in the last whole block,
if it lies there. -/
def KeepsLastWhole (pages orders : Nat) (live : List Block) (old : Block) : Prop :=
  ∀ order, order < orders → old.order ≤ order → LastWhole pages orders (old.above order) →
    Occupied (live.erase old) (old.above order)

/-- The condition on a call: a free does not empty the last whole block. -/
def CallKeepsLastWhole (pages orders : Nat) (s : HeapState m) : Call → Prop
  | .getFreePages _pages _flags => True
  | .freePages2 held => KeepsLastWhole pages orders s.blocks held.block
  | .freePages held _pages => KeepsLastWhole pages orders s.blocks held.block

instance (pages orders : Nat) (block : Block) : Decidable (LastWhole pages orders block) :=
  inferInstanceAs (Decidable (_ ∧ _))

instance (family : List Block) (block : Block) : Decidable (Occupied family block) :=
  inferInstanceAs (Decidable (∃ member ∈ family, member.Within block))

instance (pages orders : Nat) (live : List Block) (old : Block) :
    Decidable (KeepsLastWhole pages orders live old) :=
  inferInstanceAs (Decidable (∀ order, order < orders → _))

instance (pages orders : Nat) (s : HeapState m) : (call : Call) →
    Decidable (CallKeepsLastWhole pages orders s call)
  | .getFreePages _pages _flags => isTrue trivial
  | .freePages2 held =>
      inferInstanceAs (Decidable (KeepsLastWhole pages orders s.blocks held.block))
  | .freePages held _pages =>
      inferInstanceAs (Decidable (KeepsLastWhole pages orders s.blocks held.block))

/-- Every partly backed block is marked, and every block that was returned is
backed. -/
structure Guarded (pages orders : Nat) (s : HeapState m) : Prop where
  guard : ∀ block, InHeap pages orders block → PartlyBacked pages block →
    s.buddies.marks .dirty block = true
  returned : ∀ held ∈ s.returned, held.pn + 2 ^ held.order ≤ pages
  live : ∀ held ∈ s.live, held ∈ s.returned

theorem partlyBacked_or_backed {pages : Nat} {block : Block} (started : block.first < pages) :
    PartlyBacked pages block ∨ Backed pages block := by
  rcases Nat.lt_or_ge pages (block.first + block.size) with beyond | inside
  · exact Or.inl ⟨started, beyond⟩
  · exact Or.inr inside

section Release

variable {b : Buddies m} {pages orders : Nat} {live : List Block} {old : Block}

/-- The clearing walk passes a completely backed block only if it leaves no
live block there. -/
theorem not_occupied_of_onWalk (invariant : Invariant b pages orders live) (isLive : old ∈ live)
    {block : Block} (inOrders : block.order < orders) (backed : Backed pages block)
    (onWalk : OnWalk b .dirty (fun twin => !twin) old block) :
    ¬ Occupied (live.erase old) block := by
  intro occupied
  have dirty := ((invariant.release isLive).dirty_iff inOrders backed).mpr occupied
  have reserved := invariant.geometry.reserved .dirty (backed.inHeap inOrders)
  exact ((marks_dirty_release invariant isLive reserved).mp dirty).2 onWalk

theorem above_succ_range {block : Block} {order : Nat} (atLeast : block.order ≤ order) :
    ((block.above order).index % 2 = 0 ∧
      (block.above order).sibling.first = (block.above order).first + (block.above order).size ∧
      (block.above (order + 1)).first + (block.above (order + 1)).size =
        (block.above order).sibling.first + (block.above order).size) ∨
    (block.above (order + 1)).first + (block.above (order + 1)).size =
      (block.above order).first + (block.above order).size := by
  have parent := Block.above_succ_index atLeast
  have size : (block.above (order + 1)).size = 2 * (block.above order).size := by
    change 2 ^ (order + 1) = 2 * 2 ^ order
    rw [Nat.pow_succ, Nat.mul_comm]
  simp only [Block.first_eq, size, parent]
  change _ ∨ _ = _
  have siblingSize : (block.above order).sibling.size = (block.above order).size := rfl
  have siblingIndex : (block.above order).sibling.index = twin (block.above order).index := rfl
  rw [siblingSize, siblingIndex, twin]
  generalize (block.above order).index = index
  generalize (block.above order).size = size
  by_cases even : index % 2 = 0
  · left
    have half : index = 2 * (index / 2) := by omega
    rw [if_pos even]
    refine ⟨even, by rw [Nat.add_mul, Nat.one_mul], ?_⟩
    rw [half, Nat.mul_div_cancel_left _ (by decide)]
    ring
  · right
    have half : index = 2 * (index / 2) + 1 := by omega
    rw [half, show (2 * (index / 2) + 1) / 2 = index / 2 by omega]
    ring

/-- A free of a backed block that keeps the last whole block in use walks
past no partly backed block. -/
theorem not_onWalk_of_partlyBacked (invariant : Invariant b pages orders live) (isLive : old ∈ live)
    (guard : ∀ block, InHeap pages orders block → PartlyBacked pages block →
      b.marks .dirty block = true)
    (backed : Backed pages old) (keeps : KeepsLastWhole pages orders live old) {order : Nat}
    (atLeast : old.order ≤ order) (inOrders : order < orders)
    (partlyBacked : PartlyBacked pages (old.above order)) :
    ¬ OnWalk b .dirty (fun twin => !twin) old (old.above order) := by
  induction atLeast with
  | refl =>
      rw [Block.above_self] at partlyBacked
      exact absurd partlyBacked.2 (Nat.not_lt_of_le backed)
  | step atLeast inductionHypothesis =>
      rename_i order
      rintro ⟨_, twins⟩
      have belowTop : order < orders := Nat.lt_of_succ_lt inOrders
      have halfInHeap := (invariant.inHeap old isLive).above atLeast belowTop
      have halfOnWalk : OnWalk b .dirty (fun twin => !twin) old (old.above order) :=
        ⟨Block.within_above atLeast,
          fun low least below => twins low least (Nat.lt_succ_of_lt below)⟩
      rcases partlyBacked_or_backed halfInHeap.2 with partHalf | wholeHalf
      · exact inductionHypothesis belowTop partHalf halfOnWalk
      · rcases above_succ_range atLeast with ⟨left, siblingFirst, ends⟩ | ends
        · rcases Nat.lt_or_ge (old.above order).sibling.first pages with started | atEnd
          · -- The right half is partly backed and still marked, so the walk stops at it.
            have siblingPart : PartlyBacked pages (old.above order).sibling := by
              refine ⟨started, ?_⟩
              have beyond := partlyBacked.2
              rw [ends] at beyond
              exact beyond
            have marked := guard _ ⟨belowTop, started⟩ siblingPart
            have clean := twins order atLeast (Nat.lt_succ_self _)
            rw [show b.isSet .dirty order (old.above order).sibling.index =
              true from marked] at clean
            cases clean
          · have endsThere : (old.above order).first + (old.above order).size = pages := by
              rw [siblingFirst] at atEnd
              exact Nat.le_antisymm wholeHalf atEnd
            exact not_occupied_of_onWalk invariant isLive belowTop wholeHalf halfOnWalk
              (keeps order belowTop atLeast ⟨inOrders, left, endsThere⟩)
        · have beyond := partlyBacked.2
          rw [ends] at beyond
          exact absurd wholeHalf (Nat.not_le_of_lt beyond)

end Release

section Runs

variable {layout : Layout} {heap : TrackedHeap m layout} {s s' : HeapState m}

theorem Guarded.backed (guarded : Guarded heap.pages heap.orders s) (sound : Sound heap s)
    {held : LiveBlock} (isLive : held ∈ s.live) : Backed heap.pages held.block := by
  have inside := guarded.returned held (guarded.live held isLive)
  rw [← sound.aligned held isLive] at inside
  exact inside

theorem Guarded.boot (separate : Separate heap.buddies) :
    Guarded heap.pages heap.orders heap.boot where
  guard := fun _block inHeap partlyBacked =>
    (heap.built.dirty_iff separate (heap.built.geometry.reserved .dirty inHeap)).mpr partlyBacked
  returned := fun _held isMember => absurd isMember List.not_mem_nil
  live := fun _held isMember => absurd isMember List.not_mem_nil

theorem Guarded.step (guarded : Guarded heap.pages heap.orders s) (sound : Sound heap s)
    {call : Call}
    (keeps : CallKeepsLastWhole heap.pages heap.orders s call) (stepped : step s call = some s') :
    Guarded heap.pages heap.orders s' := by
  cases sound.outcome stepped with
  | refused pages flags order isOrder fails => exact guarded
  | granted pages flags order isOrder enough succeeds =>
      rcases searchFromTop_found sound.invariant heap.isAccepted succeeds with ⟨inHeap, clean, _⟩
      have backed : Backed heap.pages ⟨order, searchFromTop s.buddies order⟩ := by
        rcases partlyBacked_or_backed inHeap.2 with part | whole
        · rw [guarded.guard _ inHeap part] at clean
          cases clean
        · exact whole
      refine ⟨fun block blockInHeap part => ?_, fun held isMember => ?_, fun held isMember => ?_⟩
      · exact (marks_dirty_reserve sound.invariant inHeap
          (sound.invariant.geometry.reserved .dirty blockInHeap)).mpr
            (Or.inl (guarded.guard block blockInHeap part))
      · rcases List.mem_cons.mp isMember with rfl | old
        · exact backed
        · exact guarded.returned held old
      · rcases List.mem_cons.mp isMember with rfl | old
        · exact List.mem_cons_self
        · exact List.mem_cons_of_mem _ (guarded.live held old)
  | freed held isLive call isFree =>
      have isBlock : held.block ∈ s.blocks := List.mem_map_of_mem isLive
      have keepsBlock : KeepsLastWhole heap.pages heap.orders s.blocks held.block := by
        rcases isFree with rfl | ⟨_pages, rfl⟩ <;> exact keeps
      refine ⟨fun block inHeap part => ?_, guarded.returned, fun other isMember => ?_⟩
      · refine (marks_dirty_release sound.invariant isBlock
          (sound.invariant.geometry.reserved .dirty inHeap)).mpr
            ⟨guarded.guard block inHeap part, ?_⟩
        intro onWalk
        have same := (Block.within_iff_above.mp onWalk.1).2
        rw [← same] at part onWalk
        exact not_onWalk_of_partlyBacked sound.invariant isBlock guarded.guard
          (guarded.backed sound isLive) keepsBlock onWalk.order_le inHeap.1 part onWalk
      · exact guarded.live other (List.mem_of_mem_erase isMember)

/-- In a run whose frees never empty the last whole block, every block ever
returned lies inside the heap.  The packed bitmaps are included where the
reserved words suffice. -/
theorem returned_inside (heap : TrackedHeap m layout)
    (suffices_ : layout = .packed → ReservedSuffices m heap.pages heap.orders) (calls : List Call)
    (s : HeapState m)
    (keeps : Transition.StepsMeet step (CallKeepsLastWhole heap.pages heap.orders) heap.boot calls)
    (reaches : Transition.run step heap.boot calls = some s) :
    ∀ held ∈ s.returned, held.pn + 2 ^ held.order ≤ heap.pages := by
  have separate := heap.separate suffices_
  have kept : ∀ state call next, (Sound heap state ∧ Guarded heap.pages heap.orders state) →
      CallKeepsLastWhole heap.pages heap.orders state call → step state call = some next →
      (Sound heap next ∧ Guarded heap.pages heap.orders next) := by
    rintro state call next ⟨sound, guarded⟩ keepsCall stepped
    exact ⟨sound.step stepped, guarded.step sound keepsCall stepped⟩
  exact (Transition.invariant_of_stepsMeet kept
    ⟨heap.sound_boot separate, Guarded.boot separate⟩ keeps
    reaches).2.returned

end Runs

/-! ## Three tracked pages -/

theorem setUpAt_four : (setUpAt .packed 4).isSome = true := by decide +kernel

/-- Three tracked pages on the beagleboard.  The last page is the left half
of a block of two. -/
def threePages : TrackedHeap Machine.beaglexm .packed where
  heapLength := 4 * 4096
  flags := 2
  allocFunc := fun _ _ => 0x80300000
  err := ((setUpAt .packed 4).get setUpAt_four).1
  buddies := ((setUpAt .packed 4).get setUpAt_four).2
  isWord := by decide
  obtained := by decide
  setUp := (Option.some_get setUpAt_four).symm
  accepted := by decide +kernel
  notNull := by decide +kernel

/-- The first page is freed and taken again, the last page stays in use. -/
def lastPageKept : List Call :=
  [.getFreePages 1 0, .getFreePages 1 0, .getFreePages 1 0, .freePages2 ⟨1, 0, 0⟩,
    .getFreePages 1 0]

theorem lastPageKept_run : (Transition.run step threePages.boot lastPageKept).isSome = true := by
  decide +kernel

theorem returned_inside_three_pages :
    ((Transition.run step threePages.boot lastPageKept).get lastPageKept_run).returned.all
      (fun held => decide (held.pn + 2 ^ held.order ≤ 3)) = true :=
  List.all_eq_true.mpr (fun held isReturned => decide_eq_true
    (returned_inside threePages (fun _ => by decide +kernel) lastPageKept _ (by decide +kernel)
      (Option.some_get lastPageKept_run).symm held isReturned))

/-- The last page is freed, and a block of two pages is taken there. -/
def lastPageFreed : List Call :=
  [.getFreePages 1 0, .getFreePages 1 0, .getFreePages 1 0, .freePages2 ⟨1, 0, 2⟩,
    .getFreePages 2 0]

theorem lastPageFreed_run : (Transition.run step threePages.boot lastPageFreed).isSome = true := by
  decide +kernel

theorem not_returned_inside_three_pages :
    ∃ s, Transition.run step threePages.boot lastPageFreed = some s ∧
      ∃ held ∈ s.returned, threePages.pages < held.pn + 2 ^ held.order :=
  ⟨(Transition.run step threePages.boot lastPageFreed).get lastPageFreed_run,
    (Option.some_get lastPageFreed_run).symm, ⟨2, 1, 2⟩, by decide +kernel, by decide +kernel⟩

end BuddyAlloc
end ShovelOS
