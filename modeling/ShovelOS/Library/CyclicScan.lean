import Mathlib.Algebra.Group.Fin.Basic
import Mathlib.Algebra.GroupWithZero.Nat
import Mathlib.Data.Fin.Basic

namespace ShovelOS
namespace CyclicScan

/-!
# Scanning the places of a ring

A scan over finitely many places goes from a place to its successor and
wraps around at the end.  The gap from a place to a target is the number of
places that the scan passes before it reaches the target.  It shrinks by one
with each place that is not the target, which bounds the scan, and it is the
measure by which a position that never jumps over the target must reach it
before it can return to where it was.
-/

variable {n : Nat} [NeZero n]

/-- The places passed on the way from `place` to `target`. -/
def gap (place target : Fin n) : Nat := (target - (place + 1)).val

theorem gap_lt (place target : Fin n) : gap place target < n := (target - (place + 1)).isLt

/-- Passing a place that is not the target shrinks the gap by one. -/
theorem gap_succ {place target : Fin n} (different : place + 1 ≠ target) :
    gap (place + 1) target + 1 = gap place target := by
  have nonzero : target - (place + 1) ≠ 0 := sub_ne_zero.mpr different.symm
  have positive : 0 < (target - (place + 1)).val := Fin.pos_iff_ne_zero.mpr nonzero
  unfold gap
  rw [← sub_sub target (place + 1) 1, Fin.val_sub_one_of_ne_zero nonzero]
  exact Nat.sub_add_cancel positive

/-- A scan that starts behind the target comes past it before it comes back
to its start. -/
theorem gap_lt_of_ne {place target start : Fin n} (behind : gap place target ≤ gap start target)
    (different : place + 1 ≠ target) : place + 1 ≠ start := by
  intro same
  have shrinks := gap_succ different
  rw [same] at shrinks
  omega

theorem gap_succ_self (place : Fin n) : gap place (place + 1) = 0 := by
  rw [gap, sub_self]
  rfl

/-- The scan comes back to where it started at the very end. -/
theorem gap_le_gap_self (place target : Fin n) : gap place target ≤ gap place place := by
  have below := gap_lt place target
  cases n with
  | zero => exact Nat.le_of_lt_succ (Nat.lt_of_lt_of_le below (Nat.zero_le _))
  | succ n =>
      have last : gap place place = n := by
        rw [gap, sub_add_cancel_left, Fin.coe_neg_one]
      rw [last]
      exact Nat.le_of_lt_succ below

/-- The first place that the scan comes to with a property. -/
def IsFirst (start : Fin n) (p : Fin n → Prop) (place : Fin n) : Prop :=
  p place ∧ ∀ other, p other → gap start place ≤ gap start other

/-- The next place is the first one if it has the property. -/
theorem isFirst_succ {start : Fin n} {p : Fin n → Prop} (holds : p (start + 1)) :
    IsFirst start p (start + 1) := by
  refine ⟨holds, fun other _holds => ?_⟩
  rw [gap_succ_self]
  exact Nat.zero_le _

/-- Passing a place without the property does not change which is first. -/
theorem IsFirst.of_succ {start place : Fin n} {p : Fin n → Prop} (without : ¬p (start + 1))
    (first : IsFirst (start + 1) p place) : IsFirst start p place := by
  have passed : ∀ other, p other → gap (start + 1) other + 1 = gap start other := by
    intro other holds
    apply gap_succ
    rintro rfl
    exact without holds
  refine ⟨first.1, fun other holds => ?_⟩
  rw [← passed place first.1, ← passed other holds]
  exact Nat.succ_le_succ (first.2 other holds)

/-- The position at one time and at the next: it lands on the target, or
comes closer to it. -/
def Approaches (target before after : Fin n) : Prop :=
  after = target ∨ gap after target < gap before target

/-- Along positions that approach a target, the target is met strictly
between any two visits of another place. -/
theorem meets_target_between {target : Fin n} {position : Nat → Fin n} {first last : Nat}
    (approaches : ∀ time, first ≤ time → time < last →
      Approaches target (position time) (position (time + 1)))
    (earlier : first < last) (same : position first = position last)
    (different : position last ≠ target) :
    ∃ time, first < time ∧ time < last ∧ position time = target := by
  by_contra never
  have closer : ∀ steps, first + steps + 1 ≤ last →
      gap (position (first + steps + 1)) target < gap (position first) target := by
    intro steps
    induction steps with
    | zero =>
        intro within
        rcases approaches first (Nat.le_refl _) (by omega) with met | closer
        · by_cases isLast : first + 1 = last
          · rw [isLast] at met
            exact absurd met different
          · exact absurd ⟨first + 1, by omega, by omega, met⟩ never
        · exact closer
    | succ steps inductionHypothesis =>
        intro within
        have before := inductionHypothesis (by omega)
        rcases approaches (first + steps + 1) (by omega) (by omega) with met | closer
        · by_cases isLast : first + steps + 1 + 1 = last
          · rw [isLast] at met
            exact absurd met different
          · exact absurd ⟨first + steps + 1 + 1, by omega, by omega, met⟩ never
        · exact Nat.lt_trans closer before
  have atLast := closer (last - first - 1) (by omega)
  have isLast : first + (last - first - 1) + 1 = last := by omega
  rw [isLast, ← same] at atLast
  exact Nat.lt_irrefl _ atLast

end CyclicScan
end ShovelOS
