import ShovelOS.Sched.RunQueue

namespace ShovelOS
namespace Timer

open Sched

/-!
# The time since boot (`timer/system_time.c`, `timer/sync_timer.c`)

A free-running counter of the hardware is turned into seconds and
nanoseconds.  The driver says how fast the counter runs and where it wraps.
The system time holds a base: a number of whole seconds and the count at
which they were complete.  Each call adds the ticks since the base, and moves
the base by whole seconds.

The hardware is a function of the number of ticks of its clock, which does
not wrap.  Every access is under a spinlock with interrupts off, so a call is
one step.
-/

/-- `struct sync_timer`: `cur` is what the driver returns after a number of
ticks. -/
structure SyncTimer where
  cur : Nat → UInt64
  freq : UInt64
  wrap : UInt64

/-! ## The drivers -/

/-- `drivers/ti/omap/timer/sync_timer.c`, over a 32-bit register. -/
def omapSyncTimer : SyncTimer := ⟨fun tick => UInt64.ofNat (tick % 2 ^ 32), 32768, 0xFFFFFFFF⟩

/-- `drivers/ns/nRF51822/timer/sync_timer.c`, over a 24-bit register. -/
def nRF51822SyncTimer : SyncTimer := ⟨fun tick => UInt64.ofNat (tick % 2 ^ 24), 32768, 0xFFFFFF⟩

def testSyncWrap : UInt64 := 1500

/-- `drivers/hosted/timer/sync_timer.c` over the millisecond clock of the
host. -/
def hostedSyncTimer : SyncTimer :=
  ⟨fun tick => UInt64.ofNat (tick % testSyncWrap.toNat), 1000, testSyncWrap⟩

/-- `sync_timer_open`: what the installed driver returns, if there is one. -/
def syncTimerOpen (installed : Option (Except Int SyncTimer)) : Except Int SyncTimer :=
  match installed with
  | some result => result
  | none => .error (-1)

/-! ## The system time -/

structure SystemTime where
  syncTimer : Option SyncTimer
  syncLoop : UInt64
  syncFreq : UInt64
  syncFreqFactor : UInt64
  baseTs : Timespec
  baseTick : UInt64
  currTs : Timespec

/-- The system time after the `memset` of `start_system_time`. -/
def SystemTime.zeroed : SystemTime := ⟨none, 0, 0, 0, ⟨0, 0⟩, 0, ⟨0, 0⟩⟩

def startSystemTime (installed : Option (Except Int SyncTimer)) (tick : Nat) : Int × SystemTime :=
  match syncTimerOpen installed with
  | .error e => (e, SystemTime.zeroed)
  | .ok syncTimer =>
      (0, { SystemTime.zeroed with
        syncTimer := some syncTimer
        baseTick := syncTimer.cur tick
        syncFreq := syncTimer.freq
        syncLoop := syncTimer.wrap
        syncFreqFactor := 1000000000 / syncTimer.freq })

def _forwardTime (systemTime : SystemTime) (addticks : UInt64) : SystemTime :=
  let addseconds := addticks / systemTime.syncFreq
  let rebase := addseconds * systemTime.syncFreq
  let seconds := (systemTime.baseTs.seconds.toUInt64 + addseconds).toUInt32
  let nanoseconds := ((addticks - rebase) * systemTime.syncFreqFactor).toUInt32
  let maxRebase := systemTime.syncLoop - systemTime.baseTick
  { systemTime with
    baseTs := { systemTime.baseTs with seconds := seconds }
    currTs := ⟨seconds, nanoseconds⟩
    baseTick :=
      if rebase ≤ maxRebase then systemTime.baseTick + rebase else rebase - maxRebase - 1 }

def _loopedTime (systemTime : SystemTime) (ticks : UInt64) : SystemTime :=
  _forwardTime systemTime (ticks + (systemTime.syncLoop - systemTime.baseTick))

/-- `get_system_time`; `ts` is what the caller's pointer reaches, or nothing
when it is null. -/
def getSystemTime (systemTime : SystemTime) (ts : Option Timespec) (tick : Nat) :
    Int × Option Timespec × SystemTime :=
  match systemTime.syncTimer with
  | none => (-1, ts, systemTime)
  | some syncTimer =>
      let tick := syncTimer.cur tick
      let base := systemTime.baseTick
      let systemTime :=
        if tick > base then _forwardTime systemTime (tick - base)
        else if tick < systemTime.baseTick then _loopedTime systemTime tick
        else systemTime
      (0, ts.map fun _ => systemTime.currTs, systemTime)

/-! ## Times as tick counts -/

/-- The time that a number of ticks makes: whole seconds, and nanoseconds by
the rounded-down length of a tick. -/
def timeAt (freq ticks : Nat) : Timespec :=
  ⟨UInt32.ofNat (ticks / freq), UInt32.ofNat (ticks % freq * (1000000000 / freq))⟩

theorem nanoseconds_lt {freq ticks : Nat} (positive : 0 < freq) :
    ticks % freq * (1000000000 / freq) < 1000000000 := by
  have below := Nat.mod_lt ticks positive
  rcases Nat.eq_zero_or_pos (1000000000 / freq) with zero | factorPositive
  · rw [zero]
    omega
  · calc ticks % freq * (1000000000 / freq)
        < freq * (1000000000 / freq) := Nat.mul_lt_mul_of_pos_right below factorPositive
      _ ≤ 1000000000 := Nat.mul_div_le _ _

theorem toNat_nanoseconds_timeAt {freq : Nat} (positive : 0 < freq) (ticks : Nat) :
    (timeAt freq ticks).nanoseconds.toNat = ticks % freq * (1000000000 / freq) := by
  have below : ticks % freq * (1000000000 / freq) < 1000000000 := nanoseconds_lt positive
  exact UInt32.toNat_ofNat_of_lt' (by change _ < 2 ^ 32; omega)

theorem toNat_seconds_timeAt {freq ticks : Nat} (fits : ticks / freq < 2 ^ 32) :
    (timeAt freq ticks).seconds.toNat = ticks / freq :=
  UInt32.toNat_ofNat_of_lt' fits

/-- Times of different tick counts differ, as long as a tick is at least a
nanosecond and the seconds fit. -/
theorem timeAt_inj {freq first second : Nat} (positive : 0 < freq) (bound : freq ≤ 1000000000)
    (firstFits : first / freq < 2 ^ 32) (secondFits : second / freq < 2 ^ 32)
    (same : timeAt freq first = timeAt freq second) : first = second := by
  have seconds : first / freq = second / freq := by
    rw [← toNat_seconds_timeAt firstFits, ← toNat_seconds_timeAt secondFits, same]
  have nanoseconds : first % freq * (1000000000 / freq) = second % freq * (1000000000 / freq) := by
    rw [← toNat_nanoseconds_timeAt positive, ← toNat_nanoseconds_timeAt positive, same]
  have factorPositive : 0 < 1000000000 / freq := Nat.div_pos bound positive
  have remainders := Nat.eq_of_mul_eq_mul_right factorPositive nanoseconds
  rw [← Nat.div_add_mod first freq, ← Nat.div_add_mod second freq, seconds, remainders]

/-- `compare_system_time` orders times as their tick counts are ordered. -/
theorem compareSystemTime_timeAt {freq earlier later : Nat} (positive : 0 < freq)
    (fits : later / freq < 2 ^ 32) (ordered : earlier ≤ later) :
    0 ≤ compareSystemTime (timeAt freq later) (timeAt freq earlier) := by
  have secondsOrdered : earlier / freq ≤ later / freq := Nat.div_le_div_right ordered
  have laterSeconds := toNat_seconds_timeAt fits
  have earlierSeconds := toNat_seconds_timeAt (Nat.lt_of_le_of_lt secondsOrdered fits)
  unfold compareSystemTime
  simp only [UInt32.lt_iff_toNat_lt, laterSeconds, earlierSeconds,
    toNat_nanoseconds_timeAt positive]
  rcases Nat.lt_or_eq_of_le secondsOrdered with strictly | same
  · rw [if_neg (by omega), if_pos strictly]
    decide
  · -- In the same second the remainders are ordered as the counts are.
    have remainders : earlier % freq ≤ later % freq := by
      have first := Nat.div_add_mod earlier freq
      have second := Nat.div_add_mod later freq
      rw [same] at first
      omega
    have nanosecondsOrdered := Nat.mul_le_mul_right (1000000000 / freq) remainders
    rw [if_neg (by omega), if_neg (by omega), if_neg (by omega)]
    split <;> decide

end Timer
end ShovelOS
