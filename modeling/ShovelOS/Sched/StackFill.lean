import ShovelOS.Sched.Kernel

namespace ShovelOS
namespace Sched

/-!
# The bytes that a new stack is filled with (`memory/stack.c`)

`stack_alloc` asks for pages and then calls `_fill_stack`, which stores a
canary at the base and a pattern behind it, so that `stack_remaining` can see
how far the stack was used.  The canary is stored if there is a base.  The
loop for the pattern does not ask, and goes by the size alone.
-/

variable (m : Machine)

/-- The loop of `_fill_stack` with so many turns left: the addresses and bytes
that it stores. -/
def fillLoop : Nat → (i s : Nat) → List (Nat × UInt8)
  | 0, _i, _s => []
  | turns + 1, i, s => (s, UInt8.ofNat i) :: fillLoop turns (i + 1) ((s + 1) % m.wordLimit)

def _fillStack (ss : Stack) : List (Nat × UInt8) :=
  if ss.stackBase ≠ 0 then
    (ss.stackBase, 0xFF) :: fillLoop m (ss.stackSize - 1) 1 ((ss.stackBase + 1) % m.wordLimit)
  else fillLoop m (ss.stackSize - 1) 1 0

/-- What `stack_alloc` stores, with the result of `get_free_pages`. -/
def stackAllocWrites (size stackBase : Nat) : List (Nat × UInt8) :=
  _fillStack m (stackAlloc m size stackBase).2

/-- All that is stored is in the block that has been obtained.  Without one,
nothing is stored and the call fails. -/
def WritesOwnBlock (size stackBase : Nat) : Prop :=
  if stackBase ≠ 0 then
    ∀ write ∈ stackAllocWrites m size stackBase,
      stackBase ≤ write.1 ∧ write.1 < stackBase + (stackAlloc m size stackBase).2.stackSize
  else stackAllocWrites m size stackBase = [] ∧ (stackAlloc m size stackBase).1 = false

variable {m}

/-- The loop stores the pattern in consecutive bytes. -/
theorem fillLoop_eq (turns : Nat) {i s : Nat} (inside : s + turns ≤ m.wordLimit) :
    fillLoop m turns i s = (List.range turns).map fun j => (s + j, UInt8.ofNat (i + j)) := by
  induction turns generalizing i s with
  | zero => rfl
  | succ turns inductionHypothesis =>
      rw [fillLoop, List.range_succ_eq_map, List.map_cons, List.map_map]
      congr 1
      cases turns with
      | zero => rfl
      | succ turns =>
          rw [Nat.mod_eq_of_lt (by omega), inductionHypothesis (by omega)]
          apply List.map_congr_left
          intro j _inRange
          simp only [Function.comp_apply, Nat.succ_eq_add_one]
          congr 1
          · omega
          · rw [Nat.add_assoc, Nat.add_comm 1 j]

theorem fillLoop_length (turns i s : Nat) : (fillLoop m turns i s).length = turns := by
  induction turns generalizing i s with
  | zero => rfl
  | succ turns inductionHypothesis => rw [fillLoop, List.length_cons, inductionHypothesis]

/-- A stack with pages has room for more than a canary. -/
theorem two_le_stackSize {size : Nat} (stackBase : Nat) (some_ : stackPages m size ≠ 0) :
    2 ≤ (stackAlloc m size stackBase).2.stackSize := by
  have page := m.thirtyTwo_le_pageSize
  have grown := Nat.mul_le_mul_right m.pageSize (Nat.pos_of_ne_zero some_)
  change 2 ≤ stackPages m size * m.pageSize
  omega

theorem stackSize_eq_zero {size : Nat} (stackBase : Nat) (none : stackPages m size = 0) :
    (stackAlloc m size stackBase).2.stackSize = 0 := by
  change stackPages m size * m.pageSize = 0
  rw [none, Nat.zero_mul]

/-- With a block, the canary goes to its base and the pattern behind it. -/
theorem stackAllocWrites_granted {size stackBase : Nat} (granted : stackBase ≠ 0) :
    stackAllocWrites m size stackBase =
      (stackBase, 0xFF) :: fillLoop m ((stackAlloc m size stackBase).2.stackSize - 1) 1
        ((stackBase + 1) % m.wordLimit) :=
  if_pos granted

/-- Without one there is no canary, but the pattern starts at address zero. -/
theorem stackAllocWrites_refused (size : Nat) :
    stackAllocWrites m size 0 = fillLoop m ((stackAlloc m size 0).2.stackSize - 1) 1 0 := rfl

/-- The writes into a block with pages are its bytes in order. -/
theorem stackAllocWrites_addresses {size stackBase : Nat} (granted : stackBase ≠ 0)
    (some_ : stackPages m size ≠ 0)
    (inside : stackBase + stackPages m size * m.pageSize ≤ m.wordLimit) :
    (stackAllocWrites m size stackBase).map Prod.fst =
      List.range' stackBase (stackAlloc m size stackBase).2.stackSize := by
  have two := two_le_stackSize stackBase some_
  have room : stackBase + (stackAlloc m size stackBase).2.stackSize ≤ m.wordLimit := inside
  rw [stackAllocWrites_granted granted]
  generalize (stackAlloc m size stackBase).2.stackSize = stackSize at two room ⊢
  obtain ⟨turns, rfl⟩ : ∃ turns, stackSize = turns + 1 := ⟨stackSize - 1, by omega⟩
  rw [Nat.add_sub_cancel, Nat.mod_eq_of_lt (by omega), fillLoop_eq turns (by omega), List.map_cons,
    List.map_map, List.range'_succ, List.range'_eq_map_range]
  rfl

/-- `stack_alloc` stores only into its own block exactly when it obtains a
block for at least a page, or obtains none and asked for no page. -/
theorem stack_alloc_writes_own_block_iff {size stackBase : Nat}
    (inside : stackBase + stackPages m size * m.pageSize ≤ m.wordLimit) :
    WritesOwnBlock m size stackBase ↔ (stackBase ≠ 0 ↔ stackPages m size ≠ 0) := by
  unfold WritesOwnBlock
  by_cases granted : stackBase ≠ 0
  · rw [if_pos granted, iff_true_left granted]
    constructor
    · intro own none
      have canary := own (stackBase, 0xFF) (by
        rw [stackAllocWrites_granted granted]
        exact List.mem_cons_self)
      rw [stackSize_eq_zero stackBase none] at canary
      exact Nat.lt_irrefl _ canary.2
    · intro some_ write stored
      have address := List.mem_map_of_mem (f := Prod.fst) stored
      rw [stackAllocWrites_addresses granted some_ inside] at address
      exact List.mem_range'_1.mp address
  · rw [if_neg granted, iff_false_left granted, not_ne_iff]
    obtain rfl : stackBase = 0 := not_ne_iff.mp granted
    constructor
    · rintro ⟨silent, _fails⟩
      by_contra some_
      have two := two_le_stackSize 0 some_
      have turns := congrArg List.length silent
      rw [stackAllocWrites_refused, fillLoop_length, List.length_nil] at turns
      omega
    · intro none
      refine ⟨?_, rfl⟩
      rw [stackAllocWrites_refused, stackSize_eq_zero 0 none]
      rfl

/-- A stack of one page at the first address behind the boot area. -/
theorem stack_alloc_writes_own_block_iff_onePage :
    WritesOwnBlock Machine.beaglexm 1024 0x80100000 :=
  (stack_alloc_writes_own_block_iff (by decide)).mpr (by decide)

/-- A thread's stack that is refused is filled all the same: 4095 bytes are
stored from address zero on. -/
theorem not_stack_alloc_writes_own_block_refused :
    (stackAllocWrites Machine.beaglexm 1024 0).length = 4095 ∧
      ¬ WritesOwnBlock Machine.beaglexm 1024 0 := by
  have turns : (stackAllocWrites Machine.beaglexm 1024 0).length = 4095 := by
    rw [stackAllocWrites_refused, fillLoop_length]
    rfl
  refine ⟨turns, fun own => ?_⟩
  have silent : stackAllocWrites Machine.beaglexm 1024 0 = [] ∧ _ := own
  rw [silent.1] at turns
  cases turns

end Sched
end ShovelOS
