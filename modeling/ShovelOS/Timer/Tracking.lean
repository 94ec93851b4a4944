import ShovelOS.Timer.SystemTime
import ShovelOS.Library.Transition
import Mathlib.Data.Nat.ModEq

namespace ShovelOS
namespace Timer

open Sched Transition

/-!
# How far a reading is from the ticks that have passed

A run is a sequence of calls of `get_system_time`, each labelled with the
ticks since the call before it.  The counter starts again at zero after
`period` ticks.  Two formulas of the code are about the wrap: the one for the
elapsed ticks takes `wrap` for the period, and the one that moves the base
takes `wrap + 1`.  The development is therefore over an `overshoot`, by which
`wrap + 1` exceeds the period: it is zero for a driver whose counter runs
from zero to `wrap`, and one for the hosted driver.

The invariant says where the base is in the ticks that have passed.  The
current count is at most a second after it.
-/

/-! ## The calls -/

/-- What has happened since `start_system_time`.  `elapsed` are the ticks up
to the last call and `firstGap` those up to the first one.  `crossings` are
the calls that moved the base past the wrap.  The last reading comes first. -/
structure Calls where
  systemTime : SystemTime
  elapsed : Nat
  firstGap : Nat
  crossings : Nat
  readings : List Timespec

/-- The elapsed ticks of a call, as the branches of `get_system_time` have
them. -/
def addticks (systemTime : SystemTime) (tick : UInt64) : UInt64 :=
  if tick > systemTime.baseTick then tick - systemTime.baseTick
  else if tick < systemTime.baseTick then tick + (systemTime.syncLoop - systemTime.baseTick)
  else 0

/-- The whole seconds of a call reach past the last count of the timer, so
`_forward_time` takes its second branch. -/
def RebaseCrosses (systemTime : SystemTime) (tick : UInt64) : Prop :=
  systemTime.syncLoop - systemTime.baseTick <
    addticks systemTime tick / systemTime.syncFreq * systemTime.syncFreq

instance (systemTime : SystemTime) (tick : UInt64) : Decidable (RebaseCrosses systemTime tick) :=
  inferInstanceAs (Decidable (_ < _))

/-- One call of `get_system_time`, `gap` ticks after the call before it.  All
gaps but the first are shorter than the period less a second. -/
def call (timer : SyncTimer) (period startTick : Nat) (calls : Calls) (gap : Nat) : Option Calls :=
  if calls.readings ≠ [] ∧ period - timer.freq.toNat ≤ gap then none
  else
    let elapsed := calls.elapsed + gap
    let (_, ts, systemTime) := getSystemTime calls.systemTime (some ⟨0, 0⟩) (startTick + elapsed)
    ts.map fun reading =>
      { systemTime := systemTime
        elapsed := elapsed
        firstGap := if calls.readings = [] then gap else calls.firstGap
        crossings := calls.crossings +
          if RebaseCrosses calls.systemTime (timer.cur (startTick + elapsed)) then 1 else 0
        readings := reading :: calls.readings }

def started (timer : SyncTimer) (startTick : Nat) : Calls :=
  ⟨(startSystemTime (some (.ok timer)) startTick).2, 0, 0, 0, []⟩

/-- The ticks that the code can know of: the whole periods before the first
call are lost. -/
def counted (period : Nat) (calls : Calls) : Nat :=
  calls.elapsed - calls.firstGap / period * period

/-! ## The invariant -/

/-- The counter runs through `period` values, and `wrap` is the last of them
or, with an overshoot of one, the period. -/
structure Counts (timer : SyncTimer) (period overshoot : Nat) : Prop where
  cur_eq : ∀ tick, (timer.cur tick).toNat = tick % period
  period_eq : period + overshoot = timer.wrap.toNat + 1
  overshoot_le : overshoot ≤ 1
  freq_pos : 0 < timer.freq.toNat
  freq_lt : timer.freq.toNat < period

/-- The system time has the driver's constants. -/
structure Opened (timer : SyncTimer) (systemTime : SystemTime) : Prop where
  syncTimer : systemTime.syncTimer = some timer
  syncLoop : systemTime.syncLoop = timer.wrap
  syncFreq : systemTime.syncFreq = timer.freq
  syncFreqFactor : systemTime.syncFreqFactor = 1000000000 / timer.freq
  baseTick_le : systemTime.baseTick.toNat ≤ timer.wrap.toNat

/-- The base is `seconds` whole seconds after the start and `lag` ticks before
the last call.  Each crossing has put it back by the overshoot. -/
structure Tracks (timer : SyncTimer) (period overshoot startTick : Nat) (calls : Calls)
    (seconds lag : Nat) : Prop where
  opened : Opened timer calls.systemTime
  baseSeconds : calls.systemTime.baseTs.seconds = UInt32.ofNat seconds
  behind : counted period calls + calls.crossings * overshoot = seconds * timer.freq.toNat + lag
  lag_le : lag ≤ timer.freq.toNat
  position : (startTick + calls.elapsed) % period = (calls.systemTime.baseTick.toNat + lag) % period
  skipped_le : calls.firstGap / period * period ≤ calls.elapsed
  currTs : lag = 0 → calls.systemTime.currTs = timeAt timer.freq.toNat (seconds * timer.freq.toNat)
  unread : calls.readings = [] → lag = 0 ∧ calls.elapsed = 0 ∧ calls.firstGap = 0

variable {timer : SyncTimer} {period overshoot startTick : Nat}

theorem tracks_started (counts : Counts timer period overshoot) :
    Tracks timer period overshoot startTick (started timer startTick) 0 0 where
  opened :=
    { syncTimer := rfl
      syncLoop := rfl
      syncFreq := rfl
      syncFreqFactor := rfl
      baseTick_le := by
        change (timer.cur startTick).toNat ≤ timer.wrap.toNat
        have periodEq := counts.period_eq
        have overshootLe := counts.overshoot_le
        have below := Nat.mod_lt startTick (Nat.lt_of_le_of_lt (Nat.zero_le _) counts.freq_lt)
        rw [counts.cur_eq]
        omega }
  baseSeconds := rfl
  behind := by simp [started, counted]
  lag_le := Nat.zero_le _
  position := by
    change (startTick + 0) % period = ((timer.cur startTick).toNat + 0) % period
    rw [counts.cur_eq, Nat.add_zero, Nat.add_zero, Nat.mod_mod]
  skipped_le := by simp [started]
  currTs := fun _lag => by simp [started, startSystemTime, syncTimerOpen, SystemTime.zeroed, timeAt]
  unread := fun _none => ⟨rfl, rfl, rfl⟩

/-! ## One call -/

/-- What `_forward_time` makes of a system time whose base is `seconds` whole
seconds after the start. -/
structure Forwarded (timer : SyncTimer) (systemTime : SystemTime) (seconds added : Nat)
    (systemTime' : SystemTime) : Prop where
  opened : Opened timer systemTime'
  baseSeconds : systemTime'.baseTs.seconds = UInt32.ofNat (seconds + added / timer.freq.toNat)
  currTs : systemTime'.currTs = timeAt timer.freq.toNat (seconds * timer.freq.toNat + added)
  baseTick : systemTime'.baseTick.toNat +
      (if timer.wrap.toNat < systemTime.baseTick.toNat + added / timer.freq.toNat * timer.freq.toNat
        then timer.wrap.toNat + 1 else 0) =
    systemTime.baseTick.toNat + added / timer.freq.toNat * timer.freq.toNat

theorem toNat_rebase (addticks freq : UInt64) :
    (addticks / freq * freq).toNat = addticks.toNat / freq.toNat * freq.toNat := by
  rw [UInt64.toNat_mul, UInt64.toNat_div]
  exact Nat.mod_eq_of_lt (Nat.lt_of_le_of_lt (Nat.div_mul_le_self _ _) addticks.toNat_lt)

theorem toNat_maxRebase {systemTime : SystemTime} (opened : Opened timer systemTime) :
    (systemTime.syncLoop - systemTime.baseTick).toNat =
      timer.wrap.toNat - systemTime.baseTick.toNat := by
  rw [opened.syncLoop, UInt64.toNat_sub_of_le _ _ (UInt64.le_iff_toNat_le.mpr opened.baseTick_le)]

theorem _forwardTime_spec {systemTime : SystemTime} (opened : Opened timer systemTime)
    (positive : 0 < timer.freq.toNat) {seconds : Nat}
    (baseSeconds : systemTime.baseTs.seconds = UInt32.ofNat seconds) {addticks : UInt64}
    (small : addticks.toNat ≤ timer.wrap.toNat) :
    Forwarded timer systemTime seconds addticks.toNat (_forwardTime systemTime addticks) := by
  have rebase := toNat_rebase addticks timer.freq
  have maxRebase := toNat_maxRebase opened
  have baseLe := opened.baseTick_le
  have addedSeconds : (systemTime.baseTs.seconds.toUInt64 + addticks / timer.freq).toUInt32 =
      UInt32.ofNat (seconds + addticks.toNat / timer.freq.toNat) := by
    rw [baseSeconds]
    apply UInt32.toNat_inj.mp
    simp [UInt64.toNat_div]
  have rebaseLe : addticks.toNat / timer.freq.toNat * timer.freq.toNat ≤ addticks.toNat :=
    Nat.div_mul_le_self _ _
  have baseTick : (_forwardTime systemTime addticks).baseTick.toNat +
      (if timer.wrap.toNat < systemTime.baseTick.toNat +
          addticks.toNat / timer.freq.toNat * timer.freq.toNat
        then timer.wrap.toNat + 1 else 0) =
      systemTime.baseTick.toNat + addticks.toNat / timer.freq.toNat * timer.freq.toNat := by
    have wrapLt := timer.wrap.toNat_lt
    simp only [_forwardTime, opened.syncFreq, UInt64.le_iff_toNat_le, maxRebase, rebase]
    by_cases crosses : timer.wrap.toNat <
        systemTime.baseTick.toNat + addticks.toNat / timer.freq.toNat * timer.freq.toNat
    · have one : (1 : UInt64).toNat = 1 := rfl
      have past : (systemTime.syncLoop - systemTime.baseTick).toNat ≤
          (addticks / timer.freq * timer.freq).toNat := by
        rw [maxRebase, rebase]
        omega
      have difference := UInt64.toNat_sub_of_le _ _ (UInt64.le_iff_toNat_le.mpr past)
      rw [if_neg (by omega), if_pos crosses, UInt64.toNat_sub_of_le _ _ (by
        rw [UInt64.le_iff_toNat_le, difference, one, maxRebase, rebase]
        omega), difference, one, maxRebase, rebase]
      omega
    · rw [if_pos (by omega), if_neg crosses, UInt64.toNat_add, rebase, Nat.add_zero]
      exact Nat.mod_eq_of_lt (by omega)
  have nanoseconds : ((addticks - addticks / timer.freq * timer.freq) *
      systemTime.syncFreqFactor).toUInt32 =
      (timeAt timer.freq.toNat (seconds * timer.freq.toNat + addticks.toNat)).nanoseconds := by
    have below : addticks.toNat % timer.freq.toNat * (1000000000 / timer.freq.toNat) < 1000000000 :=
      nanoseconds_lt positive
    have rest : addticks.toNat - addticks.toNat / timer.freq.toNat * timer.freq.toNat =
        addticks.toNat % timer.freq.toNat := by
      have division := Nat.div_add_mod' addticks.toNat timer.freq.toNat
      omega
    apply UInt32.toNat_inj.mp
    rw [toNat_nanoseconds_timeAt positive, Nat.mul_add_mod', UInt64.toNat_toUInt32,
      UInt64.toNat_mul, UInt64.toNat_sub_of_le _ _ (by rw [UInt64.le_iff_toNat_le, rebase]; omega),
      rebase, rest, opened.syncFreqFactor, UInt64.toNat_div]
    change _ * (1000000000 / _) % 2 ^ 64 % 2 ^ 32 = _
    omega
  exact
    { opened :=
        { syncTimer := opened.syncTimer
          syncLoop := opened.syncLoop
          syncFreq := opened.syncFreq
          syncFreqFactor := opened.syncFreqFactor
          baseTick_le := by
            split at baseTick <;> omega }
      baseSeconds := by
        simp only [_forwardTime, opened.syncFreq]
        exact addedSeconds
      currTs := by
        simp only [_forwardTime, opened.syncFreq]
        rw [addedSeconds, nanoseconds, timeAt, Nat.mul_comm seconds, Nat.mul_add_div positive]
      baseTick := baseTick }

/-- The ticks that a call adds are those since the base, but for one that is
missing after a wrap when there is no overshoot. -/
theorem addticks_spec (counts : Counts timer period overshoot) {systemTime : SystemTime}
    (opened : Opened timer systemTime) {tick ahead : Nat} (aheadLt : ahead < period)
    (position : tick % period = (systemTime.baseTick.toNat + ahead) % period) :
    (addticks systemTime (timer.cur tick)).toNat +
      (if timer.cur tick < systemTime.baseTick then 1 - overshoot else 0) = ahead := by
  have curEq := counts.cur_eq tick
  have periodEq := counts.period_eq
  have overshootLe := counts.overshoot_le
  have baseLe := opened.baseTick_le
  have maxRebase := toNat_maxRebase opened
  have wrapLt := timer.wrap.toNat_lt
  rw [position] at curEq
  unfold addticks
  simp only [gt_iff_lt, UInt64.lt_iff_toNat_lt]
  by_cases wraps : systemTime.baseTick.toNat + ahead < period
  · -- The counter has not wrapped since the base.
    rw [Nat.mod_eq_of_lt wraps] at curEq
    have notLooped : ¬ (timer.cur tick).toNat < systemTime.baseTick.toNat := by omega
    by_cases progressed : 0 < ahead
    · rw [if_pos (by omega), if_neg notLooped,
        UInt64.toNat_sub_of_le _ _ (by rw [UInt64.le_iff_toNat_le]; omega)]
      omega
    · rw [if_neg (by omega), if_neg notLooped, if_neg notLooped]
      change 0 + 0 = ahead
      omega
  · rw [Nat.mod_eq_sub_mod (Nat.le_of_not_lt wraps), Nat.mod_eq_of_lt (by omega)] at curEq
    rw [if_neg (by omega), if_pos (by omega), if_pos (by omega), UInt64.toNat_add, maxRebase,
      Nat.mod_eq_of_lt (by omega)]
    omega

theorem toNat_addticks_of_le {systemTime : SystemTime} {tick : UInt64}
    (notLooped : systemTime.baseTick ≤ tick) :
    (addticks systemTime tick).toNat = tick.toNat - systemTime.baseTick.toNat := by
  unfold addticks
  by_cases progressed : tick > systemTime.baseTick
  · rw [if_pos progressed, UInt64.toNat_sub_of_le _ _ notLooped]
  · rw [if_neg progressed, if_neg (UInt64.not_lt.mpr notLooped)]
    rw [gt_iff_lt, UInt64.lt_iff_toNat_lt] at progressed
    change 0 = _
    omega

theorem rebaseCrosses_iff {systemTime : SystemTime} (opened : Opened timer systemTime)
    (tick : UInt64) :
    RebaseCrosses systemTime tick ↔ timer.wrap.toNat < systemTime.baseTick.toNat +
      (addticks systemTime tick).toNat / timer.freq.toNat * timer.freq.toNat := by
  have baseLe := opened.baseTick_le
  unfold RebaseCrosses
  rw [opened.syncFreq, UInt64.lt_iff_toNat_lt, toNat_maxRebase opened, toNat_rebase]
  omega

/-- Every branch of `get_system_time` adds its ticks to the base, also the
one that does nothing. -/
theorem getSystemTime_spec {systemTime : SystemTime} (opened : Opened timer systemTime)
    (positive : 0 < timer.freq.toNat) {seconds tick : Nat}
    (baseSeconds : systemTime.baseTs.seconds = UInt32.ofNat seconds)
    (small : (addticks systemTime (timer.cur tick)).toNat ≤ timer.wrap.toNat)
    (still : timer.cur tick = systemTime.baseTick →
      systemTime.currTs = timeAt timer.freq.toNat (seconds * timer.freq.toNat)) (ts : Timespec) :
    ∃ systemTime', getSystemTime systemTime (some ts) tick =
        (0, some systemTime'.currTs, systemTime') ∧
      Forwarded timer systemTime seconds
        (addticks systemTime (timer.cur tick)).toNat systemTime' := by
  unfold getSystemTime
  rw [opened.syncTimer]
  simp only [Option.map_some]
  unfold addticks at small ⊢
  by_cases progressed : timer.cur tick > systemTime.baseTick
  · rw [if_pos progressed] at small
    rw [if_pos progressed, if_pos progressed]
    exact ⟨_, rfl, _forwardTime_spec opened positive baseSeconds small⟩
  · by_cases looped : timer.cur tick < systemTime.baseTick
    · rw [if_neg progressed, if_pos looped] at small
      rw [if_neg progressed, if_neg progressed, if_pos looped, if_pos looped]
      exact ⟨_, rfl, _forwardTime_spec opened positive baseSeconds small⟩
    · rw [if_neg progressed, if_neg progressed, if_neg looped, if_neg looped]
      have same : timer.cur tick = systemTime.baseTick := by
        apply UInt64.toNat_inj.mp
        rw [gt_iff_lt, UInt64.lt_iff_toNat_lt] at progressed
        rw [UInt64.lt_iff_toNat_lt] at looped
        omega
      have baseLe := opened.baseTick_le
      refine ⟨_, rfl, ?_⟩
      exact
        { opened := opened
          baseSeconds := by simpa using baseSeconds
          currTs := by simpa using still same
          baseTick := by simp [baseLe] }

theorem counted_call (positive : 0 < period) {calls calls' : Calls} {gap : Nat}
    (skippedLe : calls.firstGap / period * period ≤ calls.elapsed)
    (unread : calls.readings = [] → calls.elapsed = 0 ∧ calls.firstGap = 0)
    (elapsed : calls'.elapsed = calls.elapsed + gap)
    (firstGap : calls'.firstGap = if calls.readings = [] then gap else calls.firstGap) :
    counted period calls' =
      counted period calls + (if calls.readings = [] then gap % period else gap) ∧
      calls'.firstGap / period * period ≤ calls'.elapsed := by
  have division := Nat.div_add_mod' gap period
  have below := Nat.mod_lt gap positive
  unfold counted
  rw [elapsed, firstGap]
  by_cases first : calls.readings = []
  · rcases unread first with ⟨elapsedZero, firstGapZero⟩
    rw [if_pos first, if_pos first, elapsedZero, firstGapZero, Nat.zero_div]
    omega
  · rw [if_neg first, if_neg first]
    omega

theorem call_eq_some {calls calls' : Calls} {gap : Nat}
    (called : call timer period startTick calls gap = some calls') :
    (calls.readings = [] ∨ gap < period - timer.freq.toNat) ∧
      calls'.elapsed = calls.elapsed + gap ∧
      calls'.firstGap = (if calls.readings = [] then gap else calls.firstGap) ∧
      calls'.crossings = calls.crossings +
        (if RebaseCrosses calls.systemTime (timer.cur (startTick + calls'.elapsed)) then 1 else 0) ∧
      ∃ reading, (getSystemTime calls.systemTime (some ⟨0, 0⟩) (startTick + calls'.elapsed)).2 =
          (some reading, calls'.systemTime) ∧ calls'.readings = reading :: calls.readings := by
  unfold call at called
  split at called
  · cases called
  rename_i paced
  rcases Option.map_eq_some_iff.mp called with ⟨reading, returned, rfl⟩
  refine ⟨?_, rfl, rfl, rfl, reading, Prod.ext returned rfl, rfl⟩
  by_cases first : calls.readings = []
  · exact Or.inl first
  · exact Or.inr (Nat.lt_of_not_le fun long => paced ⟨first, long⟩)

/-- A call finds the counter `ahead` ticks after the base, less than a period. -/
theorem Tracks.ahead_of_call (counts : Counts timer period overshoot) {calls calls' : Calls}
    {seconds lag gap : Nat} (tracks : Tracks timer period overshoot startTick calls seconds lag)
    (paced : calls.readings = [] ∨ gap < period - timer.freq.toNat)
    (elapsed : calls'.elapsed = calls.elapsed + gap) :
    ∃ ahead, lag + (if calls.readings = [] then gap % period else gap) = ahead ∧ ahead < period ∧
      (startTick + calls'.elapsed) % period =
        (calls.systemTime.baseTick.toNat + ahead) % period := by
  have periodPos : 0 < period := Nat.lt_of_le_of_lt (Nat.zero_le _) counts.freq_lt
  have gapBelow := Nat.mod_lt gap periodPos
  have lagLe := tracks.lag_le
  refine ⟨_, rfl, ?_, ?_⟩
  · by_cases first : calls.readings = []
    · have lagZero := (tracks.unread first).1
      rw [if_pos first]
      omega
    · have short := paced.resolve_left first
      rw [if_neg first]
      omega
  · have gapMod : (if calls.readings = [] then gap % period else gap) % period = gap % period := by
      split
      · exact Nat.mod_mod _ _
      · rfl
    rw [elapsed, ← Nat.add_assoc, ← Nat.add_assoc]
    exact Nat.ModEq.add tracks.position gapMod.symm

/-- A crossing moves the base back by a period and the overshoot, and a call
without one does not move it back. -/
theorem crossing_back (counts : Counts timer period overshoot) {systemTime : SystemTime}
    (opened : Opened timer systemTime) (tick : UInt64) :
    ∃ back, (if RebaseCrosses systemTime tick then 1 else 0) = back ∧ back * overshoot ≤ overshoot ∧
      (if timer.wrap.toNat < systemTime.baseTick.toNat +
        (addticks systemTime tick).toNat / timer.freq.toNat * timer.freq.toNat then
          timer.wrap.toNat + 1
        else 0) = back * period + back * overshoot := by
  have periodEq := counts.period_eq
  refine ⟨_, rfl, ?_, ?_⟩
  · split
    · rw [Nat.one_mul]
    · rw [Nat.zero_mul]
      exact Nat.zero_le _
  · simp only [← rebaseCrosses_iff opened tick]
    split <;> omega

/-- A call reads the counted ticks, the overshoots of the crossings before it
added and the tick missing after a wrap taken off, and keeps the invariant.
Without a wrap the base stays behind the counter. -/
theorem call_spec (counts : Counts timer period overshoot) {calls calls' : Calls}
    {seconds lag gap : Nat} (tracks : Tracks timer period overshoot startTick calls seconds lag)
    (called : call timer period startTick calls gap = some calls') :
    ∃ ticks seconds' lag', calls'.readings = timeAt timer.freq.toNat ticks :: calls.readings ∧
      ticks + (if timer.cur (startTick + calls'.elapsed) < calls.systemTime.baseTick
        then 1 - overshoot else 0) = counted period calls' + calls.crossings * overshoot ∧
      calls'.crossings = calls.crossings +
        (if RebaseCrosses calls.systemTime (timer.cur (startTick + calls'.elapsed)) then 1 else 0) ∧
      (calls.systemTime.baseTick ≤ timer.cur (startTick + calls'.elapsed) →
        calls'.systemTime.baseTick ≤ timer.cur (startTick + calls'.elapsed)) ∧
      Tracks timer period overshoot startTick calls' seconds' lag' := by
  have periodPos : 0 < period := Nat.lt_of_le_of_lt (Nat.zero_le _) counts.freq_lt
  have periodEq := counts.period_eq
  have overshootLe := counts.overshoot_le
  have opened := tracks.opened
  rcases call_eq_some called with ⟨paced, elapsed, firstGap, crossings, reading, returned, readings⟩
  rcases counted_call periodPos tracks.skipped_le (fun none => (tracks.unread none).2)
    elapsed firstGap
    with ⟨countedEq, skippedLe⟩
  rcases tracks.ahead_of_call counts paced elapsed with ⟨ahead, aheadEq, aheadLt, position⟩
  have lagLe := tracks.lag_le
  obtain ⟨tick, tickEq⟩ : ∃ tick, timer.cur (startTick + calls'.elapsed) = tick := ⟨_, rfl⟩
  obtain ⟨ticks, ticksEq⟩ : ∃ ticks, (addticks calls.systemTime tick).toNat = ticks := ⟨_, rfl⟩
  have added := addticks_spec counts opened aheadLt position
  have still : tick = calls.systemTime.baseTick →
      calls.systemTime.currTs = timeAt timer.freq.toNat (seconds * timer.freq.toNat) := by
    intro same
    apply tracks.currTs
    have nothing : addticks calls.systemTime tick = 0 := by simp [addticks, same]
    rw [tickEq, nothing, same, if_neg (UInt64.lt_irrefl _)] at added
    change 0 + 0 = ahead at added
    omega
  rw [tickEq, ticksEq] at added
  rw [← tickEq] at still
  rcases getSystemTime_spec opened counts.freq_pos tracks.baseSeconds
    (by rw [tickEq, ticksEq]; omega) still ⟨0, 0⟩ with ⟨systemTime', result, forwarded⟩
  rw [tickEq, ticksEq] at forwarded
  rcases crossing_back counts opened tick with ⟨back, backEq, backOvershoot, moved⟩
  rw [ticksEq] at moved
  rw [tickEq] at crossings ⊢
  rw [result] at returned
  cases returned
  have behind := tracks.behind
  have division := Nat.div_add_mod' ticks timer.freq.toNat
  have remainderLt := Nat.mod_lt ticks counts.freq_pos
  have missing : ahead ≤ ticks + (1 - overshoot) := by
    split at added <;> omega
  have baseTick := forwarded.baseTick
  rw [moved] at baseTick
  rw [backEq] at crossings ⊢
  refine ⟨seconds * timer.freq.toNat + ticks, seconds + ticks / timer.freq.toNat,
    ahead - ticks / timer.freq.toNat * timer.freq.toNat + back * overshoot, ?_, ?_,
    crossings, ?_, ?_⟩
  · rw [readings, forwarded.currTs]
  · omega
  · intro notLooped
    have upTo := toNat_addticks_of_le notLooped
    rw [UInt64.le_iff_toNat_le] at notLooped ⊢
    omega
  · exact
      { opened := forwarded.opened
        baseSeconds := forwarded.baseSeconds
        behind := by
          rw [countedEq, crossings, Nat.add_mul, Nat.add_mul]
          omega
        lag_le := by omega
        position := by
          have reached : calls.systemTime.baseTick.toNat + ahead =
              calls'.systemTime.baseTick.toNat +
                (ahead - ticks / timer.freq.toNat * timer.freq.toNat +
                back * overshoot) + back * period := by omega
          rw [position, reached, Nat.add_mul_mod_self_right]
        skipped_le := skippedLe
        currTs := by
          intro lagZero
          have exact : ticks = ticks / timer.freq.toNat * timer.freq.toNat := by omega
          rw [forwarded.currTs, Nat.add_mul, ← exact]
        unread := by
          intro none
          rw [readings] at none
          cases none }

theorem tracks_call (counts : Counts timer period overshoot) {calls calls' : Calls}
    {seconds lag gap : Nat} (tracks : Tracks timer period overshoot startTick calls seconds lag)
    (called : call timer period startTick calls gap = some calls') :
    ∃ seconds' lag', Tracks timer period overshoot startTick calls' seconds' lag' := by
  rcases call_spec counts tracks called with ⟨_, seconds', lag', _, _, _, _, tracks'⟩
  exact ⟨seconds', lag', tracks'⟩

/-- The counted ticks grow, and when they stay the counter is where it was. -/
theorem counted_of_call (counts : Counts timer period overshoot) {calls calls' : Calls}
    {seconds lag gap : Nat} (tracks : Tracks timer period overshoot startTick calls seconds lag)
    (called : call timer period startTick calls gap = some calls') :
    counted period calls ≤ counted period calls' ∧
      (counted period calls' = counted period calls →
        timer.cur (startTick + calls'.elapsed) = timer.cur (startTick + calls.elapsed)) := by
  have periodPos : 0 < period := Nat.lt_of_le_of_lt (Nat.zero_le _) counts.freq_lt
  rcases call_eq_some called with ⟨_paced, elapsed, firstGap, _⟩
  rcases counted_call periodPos tracks.skipped_le (fun none => (tracks.unread none).2)
    elapsed firstGap
    with ⟨countedEq, _skippedLe⟩
  rw [countedEq]
  refine ⟨Nat.le_add_right _ _, ?_⟩
  intro same
  have noGap : gap % period = 0 := by
    split at same
    · omega
    · have zero : gap = 0 := by omega
      rw [zero, Nat.zero_mod]
  apply UInt64.toNat_inj.mp
  rw [counts.cur_eq, counts.cur_eq, elapsed, ← Nat.add_assoc, Nat.add_mod _ gap, noGap,
    Nat.add_zero, Nat.mod_mod]

/-- Over the whole of a run the base is within a second of the last call. -/
theorem tracks_reachable (counts : Counts timer period overshoot) {calls : Calls}
    (reachable : Reachable (call timer period startTick) (started timer startTick) calls) :
    ∃ seconds lag, Tracks timer period overshoot startTick calls seconds lag := by
  have kept : ∀ calls gap calls',
      (∃ seconds lag, Tracks timer period overshoot startTick calls seconds lag) →
      call timer period startTick calls gap = some calls' →
      ∃ seconds lag, Tracks timer period overshoot startTick calls' seconds lag := by
    rintro calls gap calls' ⟨seconds, lag, tracks⟩ called
    exact tracks_call counts tracks called
  exact Reachable.invariant kept ⟨0, 0, tracks_started counts⟩ reachable

end Timer
end ShovelOS
