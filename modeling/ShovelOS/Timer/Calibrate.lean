import Mathlib.Data.BitVec

namespace ShovelOS
namespace Timer

/-!
# Calibrating a timer (`drivers/ti/omap/timer/timer.c`)

`_calibrate` counts how far a timer runs while a free-running counter of 32
bits advances by a tenth of a second.  The counter may pass its limit in the
meantime.  There is a loop and a formula for that case, and a loop and a
formula for the other.

The two registers are modelled by what the reads of them return, one after
the other.  A calibration has no result when the reads end before its loops
do.
-/

def ticks32khz : BitVec 32 := 3200

/-- What `_calibrate` has measured and stored.  The frequency is a quotient,
and a division by zero has no value. -/
structure Calibration where
  beg32khz : BitVec 32
  cur32khz : BitVec 32
  actual32khzTicks : BitVec 32
  actualTimerTicks : BitVec 32
  freq : Option (BitVec 32)
  deriving DecidableEq, Repr

/-- `while(_32 == sync->REG_32KSYNCNT_CR)`. -/
def awaitChange (_32 : BitVec 32) : List (BitVec 32) → Option (List (BitVec 32))
  | [] => none
  | now :: sync => if _32 = now then awaitChange _32 sync else some sync

/-- The loop that waits for the timer to settle, by the number of its turns. -/
def settle : Nat → List (BitVec 32) → Option (List (BitVec 32))
  | 0, sync => some sync
  | _turns + 1, [] => none
  | turns + 1, _32 :: sync => (awaitChange _32 sync).bind (settle turns)

/-- The loop up to a target above the first count.  It returns the last values
of `cur_32khz` and `cur_timer`. -/
def reachTarget (target32khz : BitVec 32) :
    List (BitVec 32) → List (BitVec 32) → Option (BitVec 32 × BitVec 32)
  | cur32khz :: now :: sync, curTimer :: tcrr =>
      if now < target32khz then reachTarget target32khz sync tcrr else some (cur32khz, curTimer)
  | _, _ => none

/-- The loop across the limit of the counter.  The second operand of the
condition is a read of its own, if the first one is false. -/
def reachTargetWrapped (target32khz beg32khz : BitVec 32) :
    List (BitVec 32) → List (BitVec 32) → Option (BitVec 32 × BitVec 32)
  | cur32khz :: now :: sync, curTimer :: tcrr =>
      if now < target32khz then reachTargetWrapped target32khz beg32khz sync tcrr
      else match sync with
        | again :: sync =>
            if again ≥ beg32khz then reachTargetWrapped target32khz beg32khz sync tcrr
            else some (cur32khz, curTimer)
        | [] => none
  | _, _ => none

/-- `ctx->freq`, computed in 64 bits. -/
def frequency (actualTimerTicks actual32khzTicks : BitVec 32) : Option (BitVec 32) :=
  if actual32khzTicks = 0 then none
  else some (BitVec.ofNat 32 (32768 * actualTimerTicks.toNat % 2 ^ 64 / actual32khzTicks.toNat))

/-- `_calibrate`, from the reads of `REG_32KSYNCNT_CR` and those of `TCRR`. -/
def _calibrate (sync tcrr : List (BitVec 32)) : Option Calibration :=
  (settle 32 sync).bind fun sync =>
    match sync, tcrr with
    | beg32khz :: sync, begTimer :: tcrr =>
        let target32khz := beg32khz + ticks32khz
        if target32khz > beg32khz then
          (reachTarget target32khz sync tcrr).map fun (cur32khz, curTimer) =>
            let actual32khzTicks := cur32khz - beg32khz
            let actualTimerTicks := curTimer - begTimer
            ⟨beg32khz, cur32khz, actual32khzTicks, actualTimerTicks,
              frequency actualTimerTicks actual32khzTicks⟩
        else
          (reachTargetWrapped target32khz beg32khz sync tcrr).map fun (cur32khz, curTimer) =>
            let actual32khzTicks := cur32khz + (0xFFFFFFFF - beg32khz)
            let actualTimerTicks := curTimer - begTimer
            ⟨beg32khz, cur32khz, actual32khzTicks, actualTimerTicks,
              frequency actualTimerTicks actual32khzTicks⟩
    | _, _ => none

/-- The ticks between the first count and the last one, modulo `2 ^ 32`. -/
def Calibration.elapsed (calibration : Calibration) : BitVec 32 :=
  calibration.cur32khz - calibration.beg32khz

/-- The target lies above the first count when the sum does not wrap. -/
theorem target_gt_iff (beg32khz : BitVec 32) :
    beg32khz + ticks32khz > beg32khz ↔ beg32khz.toNat + 3200 < 2 ^ 32 := by
  have below := beg32khz.isLt
  have sum : (beg32khz + ticks32khz).toNat = (beg32khz.toNat + 3200) % 2 ^ 32 := BitVec.toNat_add ..
  change beg32khz.toNat < (beg32khz + ticks32khz).toNat ↔ _
  omega

/-- What each branch computes. -/
inductive Measured : Calibration → Prop where
  | direct (beg32khz cur32khz actualTimerTicks : BitVec 32)
      (above : beg32khz + ticks32khz > beg32khz) :
      Measured ⟨beg32khz, cur32khz, cur32khz - beg32khz, actualTimerTicks,
        frequency actualTimerTicks (cur32khz - beg32khz)⟩
  | wrapped (beg32khz cur32khz actualTimerTicks : BitVec 32)
      (notAbove : ¬ beg32khz + ticks32khz > beg32khz) :
      Measured ⟨beg32khz, cur32khz, cur32khz + (0xFFFFFFFF - beg32khz), actualTimerTicks,
        frequency actualTimerTicks (cur32khz + (0xFFFFFFFF - beg32khz))⟩

theorem calibrate_measured {sync tcrr : List (BitVec 32)} {calibration : Calibration}
    (ends : _calibrate sync tcrr = some calibration) : Measured calibration := by
  rcases Option.bind_eq_some_iff.mp ends with ⟨sync, _settled, ends⟩
  split at ends
  · rename_i beg32khz sync begTimer tcrr _reads
    dsimp only at ends
    split at ends
    · rename_i above
      rcases Option.map_eq_some_iff.mp ends with ⟨⟨cur32khz, curTimer⟩, _reached, rfl⟩
      exact Measured.direct beg32khz cur32khz (curTimer - begTimer) above
    · rename_i notAbove
      rcases Option.map_eq_some_iff.mp ends with ⟨⟨cur32khz, curTimer⟩, _reached, rfl⟩
      exact Measured.wrapped beg32khz cur32khz (curTimer - begTimer) notAbove
  · cases ends

namespace Measured

variable {calibration other : Calibration}

theorem actual_of_direct (measured : Measured calibration)
    (direct : calibration.beg32khz.toNat + 3200 < 2 ^ 32) :
    calibration.actual32khzTicks = calibration.elapsed := by
  cases measured with
  | direct beg32khz cur32khz actualTimerTicks above => rfl
  | wrapped beg32khz cur32khz actualTimerTicks notAbove =>
      exact absurd ((target_gt_iff beg32khz).mpr direct) notAbove

/-- Across the limit of the counter, one tick is missing. -/
theorem actual_of_wrapped (measured : Measured calibration)
    (wrapped : 2 ^ 32 ≤ calibration.beg32khz.toNat + 3200) :
    calibration.actual32khzTicks + 1 = calibration.elapsed := by
  cases measured with
  | direct beg32khz cur32khz actualTimerTicks above =>
      exact absurd ((target_gt_iff beg32khz).mp above) (Nat.not_lt_of_le wrapped)
  | wrapped beg32khz cur32khz actualTimerTicks notAbove =>
      change cur32khz + (0xFFFFFFFF - beg32khz) + 1 = cur32khz - beg32khz
      bv_omega

theorem actual_iff (measured : Measured calibration) :
    calibration.actual32khzTicks = calibration.elapsed ↔
      calibration.beg32khz.toNat + 3200 < 2 ^ 32 := by
  refine ⟨fun exact_ => ?_, measured.actual_of_direct⟩
  by_contra notDirect
  have short := measured.actual_of_wrapped (Nat.le_of_not_lt notDirect)
  rw [exact_] at short
  bv_omega

theorem freq_eq (measured : Measured calibration) :
    calibration.freq = frequency calibration.actualTimerTicks calibration.actual32khzTicks := by
  cases measured with
  | direct beg32khz cur32khz actualTimerTicks above => dsimp only
  | wrapped beg32khz cur32khz actualTimerTicks notAbove => dsimp only

end Measured

/-- The measured ticks are the elapsed ones exactly when the target is above
the first count.  Two such calibrations with the same ticks of both clocks
give the same frequency. -/
theorem calibrate_exact_iff {sync tcrr : List (BitVec 32)} {calibration : Calibration}
    (ends : _calibrate sync tcrr = some calibration) :
    (calibration.actual32khzTicks = calibration.elapsed ↔
      calibration.beg32khz.toNat + 3200 < 2 ^ 32) ∧
      ∀ sync' tcrr' other, _calibrate sync' tcrr' = some other →
        calibration.beg32khz.toNat + 3200 < 2 ^ 32 → other.beg32khz.toNat + 3200 < 2 ^ 32 →
        calibration.elapsed = other.elapsed →
        calibration.actualTimerTicks = other.actualTimerTicks →
        calibration.freq = other.freq := by
  have measured := calibrate_measured ends
  refine ⟨measured.actual_iff,
    fun sync' tcrr' other otherEnds direct otherDirect elapsed timer => ?_⟩
  have otherMeasured := calibrate_measured otherEnds
  rw [measured.freq_eq, otherMeasured.freq_eq, measured.actual_of_direct direct,
    otherMeasured.actual_of_direct otherDirect, elapsed, timer]

/-- The reads of a counter that starts at `start`, each after so many ticks. -/
def readsAfter (start : BitVec 32) (ticks : List Nat) : List (BitVec 32) :=
  ticks.map fun tick => start + BitVec.ofNat 32 tick

/-- The ticks of a calibration: the turns of the settling loop see the counter
change with every read, and the loop ends after its first turn. -/
def oneTurn (elapsed : Nat) : List Nat :=
  List.range 64 ++ [64, 64 + elapsed, 64 + elapsed, 64 + elapsed]

/-- A timer of thirteen megahertz. -/
def thirteenMegahertz : List (BitVec 32) := [0, 1269531]

/-- The result of a calibration that starts at the count 1000. -/
def midway : Calibration := ⟨1064, 4264, 3200, 1269531, some 12999997⟩

/-- The same ticks of both clocks, when the counter starts 3200 ticks before
its limit. -/
def acrossLimit : Calibration := ⟨4294964096, 0, 3199, 1269531, some 13004061⟩

theorem calibrate_midway :
    _calibrate (readsAfter 1000 (oneTurn 3200)) thirteenMegahertz = some midway := by decide +kernel

theorem calibrate_acrossLimit :
    _calibrate (readsAfter 4294964032 (oneTurn 3200)) thirteenMegahertz = some acrossLimit := by
  decide +kernel

theorem calibrate_exact_iff_midway :
    midway.actual32khzTicks = midway.elapsed ∧
      ∀ sync' tcrr' other, _calibrate sync' tcrr' = some other →
        other.beg32khz.toNat + 3200 < 2 ^ 32 →
        midway.elapsed = other.elapsed → midway.actualTimerTicks = other.actualTimerTicks →
        midway.freq = other.freq := by
  have direct : midway.beg32khz.toNat + 3200 < 2 ^ 32 := by decide
  have exact_ := calibrate_exact_iff calibrate_midway
  exact ⟨exact_.1.mpr direct, fun sync' tcrr' other ends => exact_.2 sync' tcrr' other ends direct⟩

/-- The counter advances by 3264 ticks in all, and the frequency is 4064 Hz
higher than midway. -/
theorem not_calibrate_exact :
    (oneTurn 3200).Pairwise (· ≤ ·) ∧ (∀ tick ∈ oneTurn 3200, tick < 2 ^ 31) ∧
      ∃ calibration other,
        _calibrate (readsAfter 4294964032 (oneTurn 3200)) thirteenMegahertz = some calibration ∧
        _calibrate (readsAfter 1000 (oneTurn 3200)) thirteenMegahertz = some other ∧
        calibration.actual32khzTicks ≠ calibration.elapsed ∧
        calibration.elapsed = other.elapsed ∧
        calibration.actualTimerTicks = other.actualTimerTicks ∧
        calibration.freq ≠ other.freq := by
  refine ⟨by decide, by decide, acrossLimit, midway, calibrate_acrossLimit, calibrate_midway, ?_⟩
  decide

end Timer
end ShovelOS
