import ShovelOS.Sched.Exit
import ShovelOS.Timer.Timespec

namespace ShovelOS
namespace Sched

open Timer

/-!
# Sleeping for a time (`sched/sched_sleep.c`)

`kthread_sleep_ms` and `kthread_sleep_ns` each turn a number into a
`timespec` and sleep on it.  Both compute in 64 bits and store 32.  The
nanoseconds are the exact ones; the milliseconds that are left over a second
are multiplied by a thousand, which makes microseconds of them.
-/

/-- The `timespec` that `kthread_sleep_ms` builds. -/
def sleepMsTimespec (ms : UInt32) : Timespec :=
  let s : UInt64 := ms.toUInt64 / 1000
  let n : UInt64 := 1000 * (ms.toUInt64 - s * 1000)
  ⟨s.toUInt32, n.toUInt32⟩

/-- The `timespec` that `kthread_sleep_ns` builds. -/
def sleepNsTimespec (ns : UInt64) : Timespec :=
  let s : UInt64 := ns / 1000000000
  let n : UInt64 := ns - s * 1000000000
  ⟨s.toUInt32, n.toUInt32⟩

variable {arch : Arch}

/-- `kthread_sleep_ms` up to its yield, at a system time. -/
def kthreadSleepMs (k : Kernel arch) (systemTime : Timespec) (ms : UInt32) : Kernel arch :=
  kthreadSleepTs k systemTime (sleepMsTimespec ms)

/-- `kthread_sleep_ns` up to its yield, at a system time. -/
def kthreadSleepNs (k : Kernel arch) (systemTime : Timespec) (ns : UInt64) : Kernel arch :=
  kthreadSleepTs k systemTime (sleepNsTimespec ns)

/-! ## The times that are built -/

/-- Whole seconds and what is left of a 64-bit number. -/
theorem toNat_remainder (number unit : UInt64) :
    (number - number / unit * unit).toNat = number.toNat % unit.toNat := by
  have whole := Nat.div_add_mod number.toNat unit.toNat
  have product : (number / unit * unit).toNat = unit.toNat * (number.toNat / unit.toNat) := by
    have below := number.toNat_lt
    rw [UInt64.toNat_mul, UInt64.toNat_div, Nat.mul_comm]
    exact Nat.mod_eq_of_lt (by omega)
  rw [UInt64.toNat_sub_of_le _ _ (UInt64.le_iff_toNat_le.mpr (by omega)), product]
  omega

theorem toNat_toUInt32_of_lt {number : UInt64} (fits : number.toNat < 2 ^ 32) :
    number.toUInt32.toNat = number.toNat := by
  rw [UInt64.toNat_toUInt32]
  exact Nat.mod_eq_of_lt fits

theorem sleepMsTimespec_eq (ms : UInt32) :
    (sleepMsTimespec ms).seconds.toNat = ms.toNat / 1000 ∧
      (sleepMsTimespec ms).nanoseconds.toNat = 1000 * (ms.toNat % 1000) := by
  have below := ms.toNat_lt
  have left : (ms.toUInt64 - ms.toUInt64 / 1000 * 1000).toNat = ms.toNat % 1000 := by
    rw [toNat_remainder, UInt32.toNat_toUInt64]
    rfl
  constructor
  · have seconds : (ms.toUInt64 / 1000).toNat = ms.toNat / 1000 := by
      rw [UInt64.toNat_div, UInt32.toNat_toUInt64]
      rfl
    change (ms.toUInt64 / 1000).toUInt32.toNat = _
    rw [toNat_toUInt32_of_lt (by omega), seconds]
  · have scaled : (1000 * (ms.toUInt64 - ms.toUInt64 / 1000 * 1000)).toNat =
        1000 * (ms.toNat % 1000) := by
      rw [UInt64.toNat_mul, left]
      exact Nat.mod_eq_of_lt (by change 1000 * (ms.toNat % 1000) < _; omega)
    change (1000 * (ms.toUInt64 - ms.toUInt64 / 1000 * 1000)).toUInt32.toNat = _
    rw [toNat_toUInt32_of_lt (by omega), scaled]

/-- So many milliseconds in nanoseconds fit 64 bits. -/
theorem toNat_milliseconds (ms : UInt32) : (ms.toUInt64 * 1000000).toNat = ms.toNat * 1000000 := by
  have below := ms.toNat_lt
  rw [UInt64.toNat_mul, UInt32.toNat_toUInt64]
  exact Nat.mod_eq_of_lt (by change ms.toNat * 1000000 < _; omega)

theorem sleepNsTimespec_eq (ms : UInt32) :
    (sleepNsTimespec (ms.toUInt64 * 1000000)).seconds.toNat = ms.toNat / 1000 ∧
      (sleepNsTimespec (ms.toUInt64 * 1000000)).nanoseconds.toNat =
        1000000 * (ms.toNat % 1000) := by
  have below := ms.toNat_lt
  have total := toNat_milliseconds ms
  constructor
  · have seconds : (ms.toUInt64 * 1000000 / 1000000000).toNat = ms.toNat / 1000 := by
      rw [UInt64.toNat_div, total]
      change ms.toNat * 1000000 / 1000000000 = _
      omega
    change (ms.toUInt64 * 1000000 / 1000000000).toUInt32.toNat = _
    rw [toNat_toUInt32_of_lt (by omega), seconds]
  · have left : (ms.toUInt64 * 1000000 - ms.toUInt64 * 1000000 / 1000000000 * 1000000000).toNat =
        1000000 * (ms.toNat % 1000) := by
      rw [toNat_remainder, total]
      change ms.toNat * 1000000 % 1000000000 = _
      omega
    change (ms.toUInt64 * 1000000 - ms.toUInt64 * 1000000 / 1000000000 *
      1000000000).toUInt32.toNat = _
    rw [toNat_toUInt32_of_lt (by omega), left]

theorem sleepNsTimespec_normal (ms : UInt32) :
    Timer.Normal (sleepNsTimespec (ms.toUInt64 * 1000000)) := by
  unfold Timer.Normal
  rw [(sleepNsTimespec_eq ms).2]
  omega

theorem sleepMsTimespec_normal (ms : UInt32) : Timer.Normal (sleepMsTimespec ms) := by
  unfold Timer.Normal
  rw [(sleepMsTimespec_eq ms).2]
  omega

theorem total_sleepNsTimespec (ms : UInt32) :
    totalNanoseconds (sleepNsTimespec (ms.toUInt64 * 1000000)) = ms.toNat * 1000000 := by
  rw [totalNanoseconds, (sleepNsTimespec_eq ms).1, (sleepNsTimespec_eq ms).2]
  omega

/-- The sleep is too short by what the milliseconds over a second make. -/
theorem total_sleepMsTimespec (ms : UInt32) :
    totalNanoseconds (sleepMsTimespec ms) + 999000 * (ms.toNat % 1000) = ms.toNat * 1000000 := by
  rw [totalNanoseconds, (sleepMsTimespec_eq ms).1, (sleepMsTimespec_eq ms).2]
  omega

/-- The entry points agree on whole seconds only. -/
theorem sleepMsTimespec_eq_sleepNs_iff (ms : UInt32) :
    sleepMsTimespec ms = sleepNsTimespec (ms.toUInt64 * 1000000) ↔ 1000 ∣ ms.toNat := by
  have short := total_sleepMsTimespec ms
  have exact_ := total_sleepNsTimespec ms
  rw [Nat.dvd_iff_mod_eq_zero]
  constructor
  · intro same
    rw [same] at short
    omega
  · intro whole
    apply (sleepMsTimespec_normal ms).eq_of_total (sleepNsTimespec_normal ms)
    omega

/-! ## The time at which a thread wakes -/

theorem sleepUntilTime_kthreadSleepTs {k : Kernel arch} {thr : KthreadPtr}
    (calling : runQueueCurrent k = some thr) (systemTime ts : Timespec) :
    ((kthreadSleepTs k systemTime ts).memory thr).sleepUntilTime = addSystemTime systemTime ts := by
  simp only [kthreadSleepTs, calling, Kernel.setKthread_same]

/-- A sum that stands for few enough nanoseconds does not overflow. -/
theorem sumFits_of_total {a d : Timespec}
    (fits : totalNanoseconds a + totalNanoseconds d < 2 ^ 32 * 1000000000) : SumFits a d := by
  unfold totalNanoseconds at fits
  unfold SumFits
  omega

/-- `kthread_sleep_ns` sleeps for exactly the time. -/
theorem kthreadSleepNs_exact {k : Kernel arch} {thr : KthreadPtr}
    (calling : runQueueCurrent k = some thr) {systemTime : Timespec}
    (normal : Timer.Normal systemTime)
    {ms : UInt32} (fits : totalNanoseconds systemTime + ms.toNat * 1000000 < 2 ^ 32 * 1000000000) :
    totalNanoseconds
      ((kthreadSleepNs k systemTime (ms.toUInt64 * 1000000)).memory thr).sleepUntilTime =
      totalNanoseconds systemTime + ms.toNat * 1000000 := by
  have total := total_sleepNsTimespec ms
  rw [kthreadSleepNs, sleepUntilTime_kthreadSleepTs calling,
    totalNanoseconds_addSystemTime normal (sleepNsTimespec_normal ms)
      (sumFits_of_total (by omega)), total]

/-- `kthread_sleep_ms` sleeps on the same time as `kthread_sleep_ns`, and
until the time that many milliseconds from now, exactly when they make whole
seconds. -/
theorem kthread_sleep_ms_exact_iff {k : Kernel arch} {thr : KthreadPtr}
    (calling : runQueueCurrent k = some thr) {systemTime : Timespec}
    (normal : Timer.Normal systemTime)
    {ms : UInt32} (fits : totalNanoseconds systemTime + ms.toNat * 1000000 < 2 ^ 32 * 1000000000) :
    (sleepMsTimespec ms = sleepNsTimespec (ms.toUInt64 * 1000000) ↔ 1000 ∣ ms.toNat) ∧
      (totalNanoseconds ((kthreadSleepMs k systemTime ms).memory thr).sleepUntilTime =
        totalNanoseconds systemTime + ms.toNat * 1000000 ↔ 1000 ∣ ms.toNat) := by
  refine ⟨sleepMsTimespec_eq_sleepNs_iff ms, ?_⟩
  have short := total_sleepMsTimespec ms
  rw [kthreadSleepMs, sleepUntilTime_kthreadSleepTs calling,
    totalNanoseconds_addSystemTime normal (sleepMsTimespec_normal ms) (sumFits_of_total (by omega)),
    Nat.dvd_iff_mod_eq_zero]
  omega

/-- The boot thread of the ARM port runs. -/
def armKernel : Kernel (armA 0x80001000) := armBoot.kernel Machine.beaglexm (armA 0x80001000)

/-- A second and a half: half a second is lost. -/
theorem kthread_sleep_ms_exact_iff_secondAndHalf :
    (sleepMsTimespec 1500 = sleepNsTimespec ((1500 : UInt32).toUInt64 * 1000000) ↔
        1000 ∣ (1500 : UInt32).toNat) ∧
      (totalNanoseconds ((kthreadSleepMs armKernel ⟨7, 0⟩ 1500).memory 0x80310000).sleepUntilTime =
        totalNanoseconds ⟨7, 0⟩ + (1500 : UInt32).toNat * 1000000 ↔ 1000 ∣ (1500 : UInt32).toNat) :=
  kthread_sleep_ms_exact_iff (show runQueueCurrent armKernel = some 0x80310000 by rfl) (by decide)
    (by decide)

/-- Sleeping for a millisecond is sleeping for a microsecond. -/
theorem not_kthread_sleep_ms_exact_one :
    sleepMsTimespec 1 ≠ sleepNsTimespec ((1 : UInt32).toUInt64 * 1000000) ∧
      ((kthreadSleepMs armKernel ⟨7, 0⟩ 1).memory 0x80310000).sleepUntilTime = ⟨7, 1000⟩ ∧
      totalNanoseconds ((kthreadSleepMs armKernel ⟨7, 0⟩ 1).memory 0x80310000).sleepUntilTime ≠
        totalNanoseconds ⟨7, 0⟩ + (1 : UInt32).toNat * 1000000 := by
  decide

end Sched
end ShovelOS
