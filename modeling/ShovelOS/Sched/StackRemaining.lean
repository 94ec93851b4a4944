import ShovelOS.Sched.StackFill
import ShovelOS.Stdlib.Atoi

namespace ShovelOS
namespace Sched

open Stdlib

/-!
# How much of a stack is left (`memory/stack.c`)

`_fill_stack` leaves a canary and a pattern of consecutive bytes.  Threads use
a stack from its top, so `stack_remaining` looks for the first byte from the
base on that is no longer the one of the pattern.  It returns the offset of
that byte, which is the number of bytes below it.
-/

variable (m : Machine)

/-- The bytes of the memory after a list of stores. -/
def storeAll (writes : List (Nat × UInt8)) (memory : Nat → UInt8) : Nat → UInt8 :=
  writes.foldl (fun memory write => Function.update memory write.1 write.2) memory

/-- The loop of `stack_remaining` with so many turns left.  The result is an
`int`. -/
def remainingLoop (memory : Nat → UInt8) : Nat → (i s : Nat) → Int
  | 0, _i, _s => 0
  | turns + 1, i, s =>
      if memory s ≠ UInt8.ofNat i then wrap32 i
      else remainingLoop memory turns (i + 1) ((s + 1) % m.wordLimit)

def stackRemaining (memory : Nat → UInt8) : Option Stack → Int
  | none => 0
  | some ss =>
      if ss.stackBase ≠ 0 then
        if memory ss.stackBase ≠ 0xFF then -1
        else remainingLoop m memory (ss.stackSize - 1) 1 ((ss.stackBase + 1) % m.wordLimit)
      else 0

variable {m}

/-! ## What the filling leaves -/

/-- Stores to consecutive addresses. -/
theorem storeAll_range (f : Nat → UInt8) (s n : Nat) (memory : Nat → UInt8) (a : Nat) :
    storeAll ((List.range n).map fun j => (s + j, f j)) memory a =
      if s ≤ a ∧ a < s + n then f (a - s) else memory a := by
  induction n with
  | zero => exact (if_neg (by omega)).symm
  | succ n inductionHypothesis =>
      rw [List.range_succ, List.map_append, storeAll, List.foldl_append]
      change Function.update (storeAll _ memory) (s + n) (f n) a = _
      by_cases last : a = s + n
      · have offset : a - s = n := by omega
        rw [last, Function.update_self, if_pos (by omega), ← last, offset]
      · rw [Function.update_of_ne last, inductionHypothesis]
        exact if_congr (by omega) rfl rfl

/-- The bytes of a stack that has just been filled. -/
theorem storeAll_fillStack {ss : Stack} (granted : ss.stackBase ≠ 0)
    (inside : ss.stackBase + ss.stackSize ≤ m.wordLimit) (memory : Nat → UInt8) {i : Nat}
    (below : i < ss.stackSize) :
    storeAll (_fillStack m ss) memory (ss.stackBase + i) = if i = 0 then 0xFF else
      UInt8.ofNat i := by
  rw [_fillStack, if_pos granted]
  change storeAll (fillLoop m (ss.stackSize - 1) 1 ((ss.stackBase + 1) % m.wordLimit))
    (Function.update memory ss.stackBase 0xFF) (ss.stackBase + i) = _
  by_cases single : ss.stackSize = 1
  · have base : i = 0 := by omega
    rw [single, base, if_pos rfl]
    exact Function.update_self ..
  · rw [Nat.mod_eq_of_lt (by omega), fillLoop_eq (ss.stackSize - 1) (by omega),
      storeAll_range fun j => UInt8.ofNat (1 + j)]
    by_cases base : i = 0
    · rw [if_neg (by omega), if_pos base, base]
      exact Function.update_self ..
    · have offset : 1 + (ss.stackBase + i - (ss.stackBase + 1)) = i := by omega
      rw [if_pos (by omega), if_neg base, offset]

/-! ## What the scan finds -/

def PatternBelow (memory : Nat → UInt8) (ss : Stack) (i : Nat) : Prop :=
  ∀ j, 1 ≤ j → j < i → memory (ss.stackBase + j) = UInt8.ofNat j

/-- The scan returns the first offset that differs, or zero. -/
theorem remainingLoop_cases {ss : Stack} (inside : ss.stackBase + ss.stackSize ≤ m.wordLimit)
    (memory : Nat → UInt8) (turns : Nat) {i : Nat} (range : i + turns = ss.stackSize)
    (pattern : PatternBelow memory ss i) :
    (PatternBelow memory ss ss.stackSize ∧
        remainingLoop m memory turns i ((ss.stackBase + i) % m.wordLimit) = 0) ∨
      ∃ j, i ≤ j ∧ j < ss.stackSize ∧ PatternBelow memory ss j ∧
        memory (ss.stackBase + j) ≠ UInt8.ofNat j ∧
        remainingLoop m memory turns i ((ss.stackBase + i) % m.wordLimit) = wrap32 j := by
  induction turns generalizing i with
  | zero =>
      rw [Nat.add_zero] at range
      exact Or.inl ⟨range ▸ pattern, rfl⟩
  | succ turns inductionHypothesis =>
      rw [remainingLoop, Nat.mod_eq_of_lt (show ss.stackBase + i < m.wordLimit by omega)]
      by_cases differs : memory (ss.stackBase + i) ≠ UInt8.ofNat i
      · exact Or.inr ⟨i, Nat.le_refl i, by omega, pattern, differs, if_pos differs⟩
      · rw [if_neg differs]
        have longer : PatternBelow memory ss (i + 1) := by
          intro j positive below
          by_cases last : j = i
          · rw [last]
            exact not_ne_iff.mp differs
          · exact pattern j positive (by omega)
        rcases inductionHypothesis (by omega) longer with whole | ⟨j, atLeast, rest⟩
        · exact Or.inl whole
        · exact Or.inr ⟨j, by omega, rest⟩

/-- What `stack_remaining` returns while the canary is alive. -/
theorem stackRemaining_cases {ss : Stack} (granted : ss.stackBase ≠ 0) (nonempty : 0 < ss.stackSize)
    (inside : ss.stackBase + ss.stackSize ≤ m.wordLimit) {memory : Nat → UInt8}
    (canary : memory ss.stackBase = 0xFF) :
    (PatternBelow memory ss ss.stackSize ∧ stackRemaining m memory (some ss) = 0) ∨
      ∃ j, 1 ≤ j ∧ j < ss.stackSize ∧ PatternBelow memory ss j ∧
        memory (ss.stackBase + j) ≠ UInt8.ofNat j ∧
        stackRemaining m memory (some ss) = wrap32 j := by
  have empty : PatternBelow memory ss 1 := fun j positive below => absurd below (by omega)
  rw [stackRemaining, if_pos granted, if_neg (not_not_intro canary)]
  exact remainingLoop_cases inside memory (ss.stackSize - 1) (by omega) empty

/-! ## Bytes that are known to be untouched -/

/-- A filled stack of which only the top `k` bytes have been written to. -/
def TopWritten (m : Machine) (ss : Stack) (k : Nat) (memory : Nat → UInt8) : Prop :=
  ∃ before : Nat → UInt8, ∀ i, i < ss.stackSize - k →
    memory (ss.stackBase + i) = storeAll (_fillStack m ss) before (ss.stackBase + i)

theorem TopWritten.untouched {ss : Stack} {k : Nat} {memory : Nat → UInt8}
    (written : TopWritten m ss k memory) (granted : ss.stackBase ≠ 0)
    (inside : ss.stackBase + ss.stackSize ≤ m.wordLimit) {i : Nat} (below : i < ss.stackSize - k) :
    memory (ss.stackBase + i) = if i = 0 then 0xFF else UInt8.ofNat i := by
  rcases written with ⟨before, same⟩
  rw [same i below]
  exact storeAll_fillStack granted inside before (by omega)

/-- What `stack_remaining` returns for such a stack: the lowest byte that differs
is not below the top. -/
theorem TopWritten.stackRemaining_cases {ss : Stack} {k : Nat} {memory : Nat → UInt8}
    (written : TopWritten m ss k memory) (granted : ss.stackBase ≠ 0)
    (inside : ss.stackBase + ss.stackSize ≤ m.wordLimit) (some_ : k < ss.stackSize) :
    (PatternBelow memory ss ss.stackSize ∧ stackRemaining m memory (some ss) = 0) ∨
      ∃ first, 1 ≤ first ∧ ss.stackSize - k ≤ first ∧ first < ss.stackSize ∧
        PatternBelow memory ss first ∧
        memory (ss.stackBase + first) ≠ UInt8.ofNat first ∧
        stackRemaining m memory (some ss) = wrap32 first := by
  have canary : memory ss.stackBase = 0xFF :=
    written.untouched (i := 0) granted inside (by omega)
  have untouched : ∀ j, 1 ≤ j → j < ss.stackSize - k →
      memory (ss.stackBase + j) = UInt8.ofNat j := by
    intro j positive below
    rw [written.untouched granted inside below, if_neg (by omega)]
  rcases Sched.stackRemaining_cases granted (by omega) inside canary with
    whole | ⟨first, positive, below, pattern, differs, result⟩
  · exact Or.inl whole
  · have atLeast : ss.stackSize - k ≤ first := by
      by_contra low
      exact differs (untouched first positive (by omega))
    exact Or.inr ⟨first, positive, atLeast, below, pattern, differs, result⟩

theorem wrap32_le (n : Nat) : wrap32 n ≤ n := by
  rw [wrap32, Int.bmod_def]
  split <;> omega

/-- `stack_remaining` reports at least the bytes that are known to be
untouched exactly when a byte that was written differs from the pattern, and
the offset of the lowest such byte is, as an `int`, not below them. -/
theorem stack_remaining_reports_iff {ss : Stack} {k : Nat} {memory : Nat → UInt8}
    (granted : ss.stackBase ≠ 0) (inside : ss.stackBase + ss.stackSize ≤ m.wordLimit)
    (some_ : k < ss.stackSize) (written : TopWritten m ss k memory) :
    (((ss.stackSize - k : Nat) : Int) ≤ stackRemaining m memory (some ss) ∧
        stackRemaining m memory (some ss) ≤ ss.stackSize) ↔
      ∃ i, ss.stackSize - k ≤ i ∧ i < ss.stackSize ∧ memory (ss.stackBase + i) ≠ UInt8.ofNat i ∧
        (∀ j, ss.stackSize - k ≤ j → j < i → memory (ss.stackBase + j) = UInt8.ofNat j) ∧
        ((ss.stackSize - k : Nat) : Int) ≤ wrap32 i := by
  rcases written.stackRemaining_cases granted inside some_ with
    ⟨pattern, result⟩ | ⟨first, positive, atLeast, below, pattern, differs, result⟩
  · rw [result]
    constructor
    · rintro ⟨enough, _atMost⟩
      omega
    · rintro ⟨i, atLeast, inStack, written_, _lowest, _isInt⟩
      exact absurd (pattern i (by omega) inStack) written_
  · rw [result]
    constructor
    · rintro ⟨enough, _atMost⟩
      exact ⟨first, atLeast, below, differs,
        fun j _from before => pattern j (by omega) before, enough⟩
    · rintro ⟨i, fromTop, inStack, written_, lowest, isInt⟩
      have same : i = first := by
        rcases Nat.lt_trichotomy i first with before | same | after
        · exact absurd (pattern i (by omega) before) written_
        · exact same
        · exact absurd (lowest first atLeast after) differs
      have atMost := wrap32_le first
      rw [same] at isInt
      exact ⟨isInt, by omega⟩

/-- Of a stack of at most 2 ^ 31 bytes every offset is an `int`, so it is enough
that one of the bytes that were written differs from the pattern. -/
theorem stackRemaining_iff_of_small {ss : Stack} {k : Nat} {memory : Nat → UInt8}
    (granted : ss.stackBase ≠ 0) (inside : ss.stackBase + ss.stackSize ≤ m.wordLimit)
    (some_ : k < ss.stackSize) (small : ss.stackSize ≤ 2 ^ 31)
    (written : TopWritten m ss k memory) :
    (((ss.stackSize - k : Nat) : Int) ≤ stackRemaining m memory (some ss) ∧
        stackRemaining m memory (some ss) ≤ ss.stackSize) ↔
      ∃ i, ss.stackSize - k ≤ i ∧ i < ss.stackSize ∧ memory (ss.stackBase + i) ≠ UInt8.ofNat i := by
  rcases written.stackRemaining_cases granted inside some_ with
    ⟨pattern, result⟩ | ⟨first, _positive, atLeast, below, _pattern, differs, result⟩
  · rw [result]
    refine iff_of_false (fun reported => by omega) ?_
    rintro ⟨i, fromTop, inStack, written_⟩
    exact written_ (pattern i (by omega) inStack)
  · have value : wrap32 first = first := by
      rw [wrap32, Int.bmod_def, if_pos (by omega)]
      omega
    rw [result, value]
    exact iff_of_true ⟨by omega, by omega⟩ ⟨first, atLeast, below, differs⟩

def onePageStack : Stack := ⟨0x80100000, 4096⟩

/-- Its bytes after it has been filled. -/
def filledPage : Nat → UInt8 := storeAll (_fillStack Machine.beaglexm onePageStack) fun _ => 0

theorem filledPage_untouched : TopWritten Machine.beaglexm onePageStack 0 filledPage :=
  ⟨fun _ => 0, fun _i _below => rfl⟩

/-- Two bytes are pushed, a zero and the byte that was there. -/
theorem stack_remaining_reports_iff_twoBytes :
    ((4094 : Int) ≤ stackRemaining Machine.beaglexm
        (Function.update filledPage (0x80100000 + 4095) 0) (some onePageStack)) ∧
      stackRemaining Machine.beaglexm (Function.update filledPage (0x80100000 + 4095) 0)
        (some onePageStack) ≤ (4096 : Nat) := by
  have granted : onePageStack.stackBase ≠ 0 := by decide
  have inside : onePageStack.stackBase + onePageStack.stackSize ≤
    Machine.beaglexm.wordLimit := by decide
  have written : TopWritten Machine.beaglexm onePageStack 2
      (Function.update filledPage (0x80100000 + 4095) 0) := by
    refine ⟨fun _ => 0, fun i below => Function.update_of_ne ?_ _ _⟩
    change i < 4096 - 2 at below
    change 0x80100000 + i ≠ _
    omega
  refine (stack_remaining_reports_iff granted inside (by decide) written).mpr ?_
  refine ⟨4095, by decide, by decide, ?_, ?_, by decide⟩
  · change Function.update filledPage (0x80100000 + 4095) 0 (0x80100000 + 4095) ≠ _
    rw [Function.update_self]
    decide
  · intro j fromTop before
    have second : j = 4094 := by
      change 4096 - 2 ≤ j at fromTop
      omega
    have kept :=
      storeAll_fillStack granted inside (fun _ => 0) (show 4094 < onePageStack.stackSize by decide)
    rw [second, Function.update_of_ne (by decide)]
    exact kept

/-- Of a stack that nobody has used, nothing is reported to be left. -/
theorem not_stack_remaining_reports :
    stackRemaining Machine.beaglexm filledPage (some onePageStack) = 0 ∧
      ¬ ∀ k memory, k < onePageStack.stackSize → TopWritten Machine.beaglexm onePageStack k memory →
        ((onePageStack.stackSize - k : Nat) : Int) ≤
          stackRemaining Machine.beaglexm memory (some onePageStack) := by
  have granted : onePageStack.stackBase ≠ 0 := by decide
  have inside : onePageStack.stackBase + onePageStack.stackSize ≤
    Machine.beaglexm.wordLimit := by decide
  have zero : stackRemaining Machine.beaglexm filledPage (some onePageStack) = 0 := by
    have canary : filledPage onePageStack.stackBase = 0xFF :=
      filledPage_untouched.untouched (i := 0) granted inside (by decide)
    rcases stackRemaining_cases granted (by decide) inside canary with
      ⟨_pattern, result⟩ | ⟨first, positive, below, _pattern, differs, _result⟩
    · exact result
    · have same := filledPage_untouched.untouched granted inside (i := first) below
      rw [if_neg (by omega)] at same
      exact absurd same differs
  refine ⟨zero, fun reports => ?_⟩
  have enough := reports 0 filledPage (by decide) filledPage_untouched
  rw [zero] at enough
  change (4096 : Int) ≤ 0 at enough
  omega

end Sched
end ShovelOS
