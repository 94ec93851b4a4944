import ShovelOS.Sched.RunQueue

namespace ShovelOS
namespace Timer

open Sched

/-!
# Arithmetic of times (`timer/system_time.c`, `timer/timespec.h`)

A `timespec` is normal when its nanoseconds are less than a second.  A normal
one stands for a number of nanoseconds.  `add_system_time` carries and
`sub_system_time` borrows, and the seconds wrap.  As long as they do not,
adding is the addition of these numbers, and comparing is their order, from
which the laws of both follow.
-/

def subSystemTime (accum sub : Timespec) : Timespec :=
  if accum.nanoseconds ≥ sub.nanoseconds then
    ⟨accum.seconds - sub.seconds, accum.nanoseconds - sub.nanoseconds⟩
  else
    ⟨accum.seconds - 1 - sub.seconds, 1000000000 - (sub.nanoseconds - accum.nanoseconds)⟩

/-- The nanoseconds make less than a second. -/
def Normal (ts : Timespec) : Prop := ts.nanoseconds.toNat < 1000000000

instance (ts : Timespec) : Decidable (Normal ts) := inferInstanceAs (Decidable (_ < _))

/-- The number of nanoseconds that a time stands for. -/
def totalNanoseconds (ts : Timespec) : Nat :=
  ts.seconds.toNat * 1000000000 + ts.nanoseconds.toNat

/-- The sum and its carry fit the seconds. -/
def SumFits (accum add : Timespec) : Prop :=
  accum.seconds.toNat + add.seconds.toNat +
    (accum.nanoseconds.toNat + add.nanoseconds.toNat) / 1000000000 < 2 ^ 32

instance (accum add : Timespec) : Decidable (SumFits accum add) :=
  inferInstanceAs (Decidable (_ < _))

variable {a b d : Timespec}

theorem Normal.eq_of_total (aNormal : Normal a) (bNormal : Normal b)
    (same : totalNanoseconds a = totalNanoseconds b) : a = b := by
  unfold Normal at aNormal bNormal
  unfold totalNanoseconds at same
  have seconds : a.seconds = b.seconds := UInt32.toNat_inj.mp (by omega)
  have nanoseconds : a.nanoseconds = b.nanoseconds := UInt32.toNat_inj.mp (by omega)
  cases a
  cases b
  exact Timespec.mk.injEq _ _ _ _ ▸ ⟨seconds, nanoseconds⟩

/-! ## Adding -/

/-- The nanoseconds of two normal times can be added without a wrap. -/
theorem toNat_add_nanoseconds (aNormal : Normal a) (dNormal : Normal d) :
    (a.nanoseconds + d.nanoseconds).toNat = a.nanoseconds.toNat + d.nanoseconds.toNat := by
  unfold Normal at aNormal dNormal
  rw [UInt32.toNat_add]
  exact Nat.mod_eq_of_lt (by omega)

theorem toNat_nanoseconds_addSystemTime (aNormal : Normal a) (dNormal : Normal d) :
    (addSystemTime a d).nanoseconds.toNat =
      (a.nanoseconds.toNat + d.nanoseconds.toNat) % 1000000000 := by
  change ((a.nanoseconds + d.nanoseconds) % 1000000000).toNat = _
  rw [UInt32.toNat_mod, toNat_add_nanoseconds aNormal dNormal]
  rfl

theorem addSystemTime_normal (aNormal : Normal a) (dNormal : Normal d) :
    Normal (addSystemTime a d) := by
  unfold Normal
  rw [toNat_nanoseconds_addSystemTime aNormal dNormal]
  exact Nat.mod_lt _ (by decide)

theorem toNat_seconds_addSystemTime (aNormal : Normal a) (dNormal : Normal d) :
    (addSystemTime a d).seconds.toNat = (a.seconds.toNat + d.seconds.toNat +
      (a.nanoseconds.toNat + d.nanoseconds.toNat) / 1000000000) % 2 ^ 32 := by
  change (a.seconds + d.seconds + (a.nanoseconds + d.nanoseconds) / 1000000000).toNat = _
  rw [UInt32.toNat_add, UInt32.toNat_add, UInt32.toNat_div, toNat_add_nanoseconds aNormal dNormal,
    Nat.mod_add_mod]
  rfl

theorem totalNanoseconds_addSystemTime (aNormal : Normal a) (dNormal : Normal d)
    (fits : SumFits a d) :
    totalNanoseconds (addSystemTime a d) = totalNanoseconds a + totalNanoseconds d := by
  have carried := Nat.div_add_mod (a.nanoseconds.toNat + d.nanoseconds.toNat) 1000000000
  unfold totalNanoseconds
  rw [toNat_nanoseconds_addSystemTime aNormal dNormal, toNat_seconds_addSystemTime aNormal dNormal,
    Nat.mod_eq_of_lt fits, Nat.add_mul, Nat.add_mul]
  omega

/-! ## Subtracting -/

theorem carry_eq (aNormal : Normal a) (dNormal : Normal d) :
    (a.nanoseconds + d.nanoseconds) / 1000000000 =
      if 1000000000 ≤ a.nanoseconds.toNat + d.nanoseconds.toNat then 1 else 0 := by
  apply UInt32.toNat_inj.mp
  rw [UInt32.toNat_div, toNat_add_nanoseconds aNormal dNormal]
  unfold Normal at aNormal dNormal
  by_cases carries : 1000000000 ≤ a.nanoseconds.toNat + d.nanoseconds.toNat
  · rw [if_pos carries]
    change (a.nanoseconds.toNat + d.nanoseconds.toNat) / 1000000000 = 1
    omega
  · rw [if_neg carries]
    change (a.nanoseconds.toNat + d.nanoseconds.toNat) / 1000000000 = 0
    omega

/-- Subtracting takes back an addition, and the borrow its carry. -/
theorem subSystemTime_addSystemTime (aNormal : Normal a) (dNormal : Normal d) :
    subSystemTime (addSystemTime a d) d = a := by
  have sum := toNat_nanoseconds_addSystemTime aNormal dNormal
  have seconds : (addSystemTime a d).seconds =
    a.seconds + d.seconds + (a.nanoseconds + d.nanoseconds) / 1000000000 := rfl
  rw [carry_eq aNormal dNormal] at seconds
  unfold Normal at aNormal dNormal
  unfold subSystemTime
  by_cases carries : 1000000000 ≤ a.nanoseconds.toNat + d.nanoseconds.toNat
  · have remainder : (addSystemTime a d).nanoseconds.toNat =
        a.nanoseconds.toNat + d.nanoseconds.toNat - 1000000000 := by omega
    have borrowed : (d.nanoseconds - (addSystemTime a d).nanoseconds).toNat =
        1000000000 - a.nanoseconds.toNat := by
      rw [UInt32.toNat_sub_of_le _ _ (UInt32.le_iff_toNat_le.mpr (by omega))]
      omega
    have nanoseconds : 1000000000 - (d.nanoseconds - (addSystemTime a d).nanoseconds) =
        a.nanoseconds := by
      have whole : (1000000000 : UInt32).toNat = 1000000000 := rfl
      apply UInt32.toNat_inj.mp
      rw [UInt32.toNat_sub_of_le _ _ (UInt32.le_iff_toNat_le.mpr (by omega)), borrowed, whole]
      omega
    have borrows : ¬(addSystemTime a d).nanoseconds ≥ d.nanoseconds := by
      rw [ge_iff_le, UInt32.le_iff_toNat_le]
      omega
    rw [if_neg borrows, nanoseconds, seconds, if_pos carries, UInt32.add_sub_cancel,
      UInt32.add_sub_cancel]
  · have remainder : (addSystemTime a d).nanoseconds.toNat =
        a.nanoseconds.toNat + d.nanoseconds.toNat := by omega
    have enough : (addSystemTime a d).nanoseconds ≥ d.nanoseconds := by
      rw [ge_iff_le, UInt32.le_iff_toNat_le]
      omega
    have nanoseconds : (addSystemTime a d).nanoseconds - d.nanoseconds = a.nanoseconds := by
      apply UInt32.toNat_inj.mp
      rw [UInt32.toNat_sub_of_le _ _ enough, remainder]
      omega
    rw [if_pos enough, nanoseconds, seconds, if_neg carries, UInt32.add_zero, UInt32.add_sub_cancel]

/-! ## Comparing -/

theorem compareSystemTime_eq (aNormal : Normal a) (bNormal : Normal b) :
    compareSystemTime a b =
      if totalNanoseconds a < totalNanoseconds b then -1
      else if totalNanoseconds b < totalNanoseconds a then 1 else 0 := by
  unfold Normal at aNormal bNormal
  unfold compareSystemTime totalNanoseconds
  simp only [gt_iff_lt, UInt32.lt_iff_toNat_lt]
  grind

theorem compareSystemTime_le_zero_iff (aNormal : Normal a) (bNormal : Normal b) :
    compareSystemTime a b ≤ 0 ↔ totalNanoseconds a ≤ totalNanoseconds b := by
  rw [compareSystemTime_eq aNormal bNormal]
  split
  · omega
  · split <;> omega

/-- Adding the same time on both sides does not change a comparison. -/
theorem compareSystemTime_addSystemTime (aNormal : Normal a) (bNormal : Normal b)
    (dNormal : Normal d) (aFits : SumFits a d) (bFits : SumFits b d) :
    compareSystemTime (addSystemTime a d) (addSystemTime b d) = compareSystemTime a b := by
  rw [compareSystemTime_eq (addSystemTime_normal aNormal dNormal)
    (addSystemTime_normal bNormal dNormal),
    compareSystemTime_eq aNormal bNormal, totalNanoseconds_addSystemTime aNormal dNormal aFits,
    totalNanoseconds_addSystemTime bNormal dNormal bFits]
  simp only [Nat.add_lt_add_iff_right]

/-- What makes the results of `compare_system_time` a total order: they are
antisymmetric and transitive, and zero for equal times only. -/
structure TotallyOrdered (a b c : Timespec) : Prop where
  zero_iff : compareSystemTime a b = 0 ↔ a = b
  swap : compareSystemTime b a = -compareSystemTime a b
  total : compareSystemTime a b ≤ 0 ∨ compareSystemTime b a ≤ 0
  trans : compareSystemTime a b ≤ 0 → compareSystemTime b c ≤ 0 → compareSystemTime a c ≤ 0

theorem totallyOrdered {c : Timespec} (aNormal : Normal a) (bNormal : Normal b)
    (cNormal : Normal c) :
    TotallyOrdered a b c where
  zero_iff := by
    constructor
    · intro zero
      rw [compareSystemTime_eq aNormal bNormal] at zero
      apply aNormal.eq_of_total bNormal
      split at zero
      · cases zero
      · split at zero
        · cases zero
        · omega
    · rintro rfl
      rw [compareSystemTime_eq aNormal aNormal, if_neg (Nat.lt_irrefl _), if_neg (Nat.lt_irrefl _)]
  swap := by
    rw [compareSystemTime_eq bNormal aNormal, compareSystemTime_eq aNormal bNormal]
    rcases Nat.lt_trichotomy (totalNanoseconds a) (totalNanoseconds b) with below | same | above
    · rw [if_neg (by omega), if_pos below, if_pos below]
      rfl
    · rw [same, if_neg (Nat.lt_irrefl _), if_neg (Nat.lt_irrefl _)]
      rfl
    · rw [if_pos above, if_neg (by omega), if_pos above]
  total := by
    rw [compareSystemTime_le_zero_iff aNormal bNormal,
      compareSystemTime_le_zero_iff bNormal aNormal]
    exact Nat.le_total _ _
  trans := by
    rw [compareSystemTime_le_zero_iff aNormal bNormal,
      compareSystemTime_le_zero_iff bNormal cNormal, compareSystemTime_le_zero_iff aNormal cNormal]
    exact Nat.le_trans

/-- Normal times add up to a normal one, subtracting takes an addition back,
and comparing is a total order that an addition without overflow keeps. -/
theorem timespec_arithmetic (aNormal : Normal a) (bNormal : Normal b) (dNormal : Normal d) :
    Normal (addSystemTime a d) ∧ subSystemTime (addSystemTime a d) d = a ∧
      (SumFits a d → SumFits b d →
        compareSystemTime (addSystemTime a d) (addSystemTime b d) = compareSystemTime a b) ∧
      TotallyOrdered a b d :=
  ⟨addSystemTime_normal aNormal dNormal, subSystemTime_addSystemTime aNormal dNormal,
    compareSystemTime_addSystemTime aNormal bNormal dNormal, totallyOrdered aNormal bNormal dNormal⟩

/-- Times one nanosecond apart, to which a second less one nanosecond is
added. -/
theorem timespec_arithmetic_carry :
    Normal (addSystemTime ⟨7, 1⟩ ⟨0, 999999999⟩) ∧
      subSystemTime (addSystemTime ⟨7, 1⟩ ⟨0, 999999999⟩) ⟨0, 999999999⟩ = ⟨7, 1⟩ ∧
      compareSystemTime (addSystemTime ⟨7, 1⟩ ⟨0, 999999999⟩)
        (addSystemTime ⟨7, 0⟩ ⟨0, 999999999⟩) =
        compareSystemTime ⟨7, 1⟩ ⟨7, 0⟩ ∧
      TotallyOrdered ⟨7, 1⟩ ⟨7, 0⟩ ⟨0, 999999999⟩ := by
  rcases timespec_arithmetic (a := ⟨7, 1⟩) (b := ⟨7, 0⟩) (d := ⟨0, 999999999⟩) (by decide)
    (by decide)
    (by decide) with ⟨normal, restored, compared, ordered⟩
  exact ⟨normal, restored, compared (by decide) (by decide), ordered⟩

end Timer
end ShovelOS
