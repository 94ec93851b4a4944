import Mathlib.Algebra.Ring.Nat
import Mathlib.Logic.Function.Basic

namespace ShovelOS
namespace WordStack

/-!
# A stack of words

A full descending stack in a memory of 32-bit words at byte addresses, where
addresses wrap.  Only the live words are specified: what lies below the stack
pointer may be anything.
-/

def words (memory : UInt32 → UInt32) : UInt32 → Nat → List UInt32
  | _address, 0 => []
  | address, n + 1 => memory address :: words memory (address + 4) n

/-- Push words, the last one first, so that the first ends at the lowest
address. -/
def pushAll (memory : UInt32 → UInt32) (sp : UInt32) : List UInt32 → (UInt32 → UInt32) × UInt32
  | [] => (memory, sp)
  | word :: rest =>
      let (memory, sp) := pushAll memory sp rest
      (Function.update memory (sp - 4) word, sp - 4)

variable {memory : UInt32 → UInt32} {sp : UInt32}

theorem offset_add (address : UInt32) (i j : Nat) :
    address + 4 * UInt32.ofNat i + 4 * UInt32.ofNat j = address + 4 * UInt32.ofNat (i + j) := by
  rw [UInt32.ofNat_add, UInt32.mul_add, UInt32.add_assoc]

theorem words_getD (memory : UInt32 → UInt32) (address : UInt32) {n i : Nat} (inside : i < n) :
    (words memory address n).getD i 0 = memory (address + 4 * UInt32.ofNat i) := by
  induction n generalizing address i with
  | zero => exact absurd inside (Nat.not_lt_zero i)
  | succ n inductionHypothesis =>
      cases i with
      | zero => simp [words]
      | succ i =>
          rw [words, List.getD_cons_succ,
            inductionHypothesis (address + 4) (Nat.lt_of_succ_lt_succ inside),
            UInt32.ofNat_add, UInt32.mul_add, UInt32.add_assoc,
            UInt32.add_comm (4 * UInt32.ofNat i)]
          rfl

/-- Fewer than 2^30 words up, the address is another one. -/
theorem offset_ne (address : UInt32) {k : Nat} (positive : 0 < k) (below : k < 2 ^ 30) :
    address + 4 * UInt32.ofNat k ≠ address := by
  intro same
  have toNat := congrArg UInt32.toNat same
  rw [UInt32.toNat_add, UInt32.toNat_mul, UInt32.toNat_ofNat'] at toNat
  have bound := address.toNat_lt
  change (address.toNat + 4 * (k % 2 ^ 32) % 2 ^ 32) % 2 ^ 32 = address.toNat at toNat
  omega

/-- A store below the words leaves them alone. -/
theorem words_update_below (address word : UInt32) {k n : Nat} (positive : 0 < k)
    (below : k + n < 2 ^ 30) :
    words (Function.update memory address word) (address + 4 * UInt32.ofNat k) n =
      words memory (address + 4 * UInt32.ofNat k) n := by
  induction n generalizing k with
  | zero => rfl
  | succ n inductionHypothesis =>
      have next : address + 4 * UInt32.ofNat k + 4 = address + 4 * UInt32.ofNat (k + 1) := by
        rw [UInt32.ofNat_add, UInt32.mul_add, UInt32.add_assoc]
        rfl
      rw [words, words, next, inductionHypothesis (Nat.succ_pos k) (by omega),
        Function.update_of_ne (offset_ne address positive (by omega))]

theorem words_pushAll (memory : UInt32 → UInt32) (sp : UInt32) (pushed : List UInt32) (n : Nat)
    (fits : pushed.length + n < 2 ^ 30) :
    words (pushAll memory sp pushed).1 (pushAll memory sp pushed).2 (pushed.length + n) =
      pushed ++ words memory sp n := by
  induction pushed with
  | nil => simp [pushAll]
  | cons word rest inductionHypothesis =>
      rw [List.length_cons] at fits
      have restored : (pushAll memory sp rest).2 - 4 + 4 = (pushAll memory sp rest).2 :=
        UInt32.sub_add_cancel _ _
      have above :
          words (Function.update (pushAll memory sp rest).1 ((pushAll memory sp rest).2 - 4) word)
          ((pushAll memory sp rest).2 - 4 + 4) (rest.length + n) =
          words (pushAll memory sp rest).1 ((pushAll memory sp rest).2 - 4 + 4) (rest.length + n) :=
        words_update_below _ word (k := 1) Nat.zero_lt_one (by omega)
      rw [restored] at above
      rw [List.length_cons, Nat.succ_add_eq_add_succ, pushAll]
      change words (Function.update _ _ _) _ (rest.length + n + 1) = _
      rw [words, restored, above, inductionHypothesis (by omega), Function.update_self,
        List.cons_append]

theorem pushAll_append (first second : List UInt32) :
    pushAll memory sp (first ++ second) =
      pushAll (pushAll memory sp second).1 (pushAll memory sp second).2 first := by
  induction first with
  | nil => rfl
  | cons word rest inductionHypothesis =>
      rw [List.cons_append, pushAll, inductionHypothesis, pushAll]

theorem pushAll_sp (memory : UInt32 → UInt32) (sp : UInt32) (pushed : List UInt32) :
    (pushAll memory sp pushed).2 + 4 * UInt32.ofNat pushed.length = sp := by
  induction pushed with
  | nil => simp [pushAll]
  | cons word rest inductionHypothesis =>
      rw [List.length_cons, UInt32.ofNat_add, UInt32.mul_add, pushAll]
      change (pushAll memory sp rest).2 - 4 + (4 * UInt32.ofNat rest.length + 4) = sp
      rw [UInt32.add_comm (4 * UInt32.ofNat rest.length), ← UInt32.add_assoc, UInt32.sub_add_cancel,
        inductionHypothesis]

/-- The stack pointer, from above. -/
theorem pushAll_sp_eq (memory : UInt32 → UInt32) (sp : UInt32) (pushed : List UInt32) :
    (pushAll memory sp pushed).2 = sp - 4 * UInt32.ofNat pushed.length :=
  UInt32.eq_sub_iff_add_eq.mpr (pushAll_sp memory sp pushed)

/-- A push writes only below the stack pointer. -/
theorem pushAll_outside (pushed : List UInt32) {address : UInt32}
    (outside : ∀ i < pushed.length, address ≠ sp - 4 * UInt32.ofNat i - 4) :
    (pushAll memory sp pushed).1 address = memory address := by
  induction pushed with
  | nil => rfl
  | cons word rest inductionHypothesis =>
      rw [List.length_cons] at outside
      rw [pushAll]
      change Function.update (pushAll memory sp rest).1
        ((pushAll memory sp rest).2 - 4) word address = _
      rw [pushAll_sp_eq, Function.update_of_ne (outside rest.length (Nat.lt_succ_self _))]
      exact inductionHypothesis fun i inside => outside i (Nat.lt_succ_of_lt inside)

end WordStack
end ShovelOS
