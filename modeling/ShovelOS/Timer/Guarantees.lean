import ShovelOS.Timer.Tracking

namespace ShovelOS
namespace Timer

open Sched Transition

/-!
# What the system time promises

A driver whose counter runs from zero to `wrap` has readings that are exact
but for one tick, which is missing from each call that finds the counter
behind the base.  Such readings never go back.  The hosted driver wraps a
tick earlier than it says, so the elapsed ticks are right, but each time the
base crosses the wrap it falls one tick behind, and all later readings are
ahead by it.
-/

variable {timer : SyncTimer} {period startTick : Nat}

/-! ## Drivers that count to `wrap` -/

/-- The counter runs from zero to `wrap` and starts again. -/
def SyncTimer.CountsToWrap (timer : SyncTimer) : Prop :=
  ∀ tick, (timer.cur tick).toNat = tick % (timer.wrap.toNat + 1)

theorem countsToWrap_omap : omapSyncTimer.CountsToWrap := by
  intro tick
  exact UInt64.toNat_ofNat_of_lt' (Nat.lt_trans (Nat.mod_lt _ (by decide)) (by decide))

theorem countsToWrap_nRF51822 : nRF51822SyncTimer.CountsToWrap := by
  intro tick
  exact UInt64.toNat_ofNat_of_lt' (Nat.lt_trans (Nat.mod_lt _ (by decide)) (by decide))

theorem counts_of_countsToWrap (counts : timer.CountsToWrap) (positive : 0 < timer.freq.toNat)
    (freqLt : timer.freq.toNat < timer.wrap.toNat + 1) : Counts timer (timer.wrap.toNat + 1) 0 :=
  ⟨counts, rfl, Nat.zero_le _, positive, freqLt⟩

/-- A reading shows a number of ticks. -/
def Shows (reading : Timespec) (freq ticks : Nat) : Prop :=
  reading.seconds.toNat = ticks / freq ∧
    reading.nanoseconds.toNat = ticks % freq * (1000000000 / freq)

instance (reading : Timespec) (freq ticks : Nat) : Decidable (Shows reading freq ticks) :=
  inferInstanceAs (Decidable (_ ∧ _))

theorem shows_timeAt_iff {freq ticks passed : Nat} (positive : 0 < freq) (bound : freq ≤ 1000000000)
    (ordered : ticks ≤ passed) (fits : passed / freq < 2 ^ 32) :
    Shows (timeAt freq ticks) freq passed ↔ ticks = passed := by
  have ticksFits := Nat.lt_of_le_of_lt (Nat.div_le_div_right ordered) fits
  constructor
  · rintro ⟨seconds, nanoseconds⟩
    apply timeAt_inj positive bound ticksFits fits
    have secondsSame : (timeAt freq ticks).seconds = (timeAt freq passed).seconds :=
      UInt32.toNat_inj.mp (seconds.trans (toNat_seconds_timeAt fits).symm)
    have nanosecondsSame : (timeAt freq ticks).nanoseconds = (timeAt freq passed).nanoseconds :=
      UInt32.toNat_inj.mp (nanoseconds.trans (toNat_nanoseconds_timeAt positive _).symm)
    exact congrArg₂ Timespec.mk secondsSame nanosecondsSame
  · rintro rfl
    exact ⟨toNat_seconds_timeAt fits, toNat_nanoseconds_timeAt positive _⟩

/-- A reading is exact if and only if the first call came within a period and
the counter is not behind the base when the call is made. -/
theorem get_system_time_exact_iff (counts : timer.CountsToWrap) (positive : 0 < timer.freq.toNat)
    (bound : timer.freq.toNat ≤ 1000000000) (freqLt : timer.freq.toNat < timer.wrap.toNat + 1)
    {calls calls' : Calls} {gap : Nat}
    (reachable : Reachable (call timer (timer.wrap.toNat + 1) startTick)
      (started timer startTick) calls)
    (called : call timer (timer.wrap.toNat + 1) startTick calls gap = some calls')
    (fits : calls'.elapsed / timer.freq.toNat < 2 ^ 32) :
    ∃ reading, calls'.readings.head? = some reading ∧
      (Shows reading timer.freq.toNat calls'.elapsed ↔
        calls'.firstGap < timer.wrap.toNat + 1 ∧
          calls.systemTime.baseTick ≤ timer.cur (startTick + calls'.elapsed)) := by
  have counts' := counts_of_countsToWrap counts positive freqLt
  rcases tracks_reachable counts' reachable with ⟨seconds, lag, tracks⟩
  rcases call_spec counts' tracks called with
    ⟨ticks, seconds', lag', readings, ticksEq, _crossings, _behind, tracks'⟩
  refine ⟨_, by rw [readings]; rfl, ?_⟩
  have skippedLe := tracks'.skipped_le
  have looped :
      (if timer.cur (startTick + calls'.elapsed) < calls.systemTime.baseTick then 1 - 0 else 0) =
        0 ↔
      calls.systemTime.baseTick ≤ timer.cur (startTick + calls'.elapsed) := by
    rw [← UInt64.not_lt]
    split <;> simp_all
  have skipped : calls'.firstGap / (timer.wrap.toNat + 1) * (timer.wrap.toNat + 1) = 0 ↔
      calls'.firstGap < timer.wrap.toNat + 1 := by
    rw [Nat.mul_eq_zero, or_iff_left (by omega), Nat.div_eq_zero_iff_lt (by omega)]
  unfold counted at ticksEq
  rw [shows_timeAt_iff positive bound (by omega) fits, ← looped, ← skipped]
  omega

/-- An OMAP timer that is started at its last count and read a tick later. -/
theorem omapWrap_run : (call omapSyncTimer (omapSyncTimer.wrap.toNat + 1) (2 ^ 32 - 1)
    (started omapSyncTimer (2 ^ 32 - 1)) 1).isSome = true := by decide +kernel

def omapWrap : Calls := (call omapSyncTimer (omapSyncTimer.wrap.toNat + 1) (2 ^ 32 - 1)
    (started omapSyncTimer (2 ^ 32 - 1)) 1).get omapWrap_run

theorem get_system_time_exact_iff_omapWrap : ∃ reading, omapWrap.readings.head? = some reading ∧
    (Shows reading 32768 omapWrap.elapsed ↔ omapWrap.firstGap < 2 ^ 32 ∧
      (started omapSyncTimer (2 ^ 32 - 1)).systemTime.baseTick ≤
        omapSyncTimer.cur (2 ^ 32 - 1 + omapWrap.elapsed)) :=
  get_system_time_exact_iff countsToWrap_omap (by decide) (by decide) (by decide)
    (Reachable.refl _) (Option.some_get omapWrap_run).symm (by decide +kernel)

/-- The reading is zero, although a tick of 30517 nanoseconds has passed. -/
theorem not_get_system_time_exact_omapWrap :
    ¬ ∀ (timer : SyncTimer) (startTick : Nat) (calls : Calls), timer.CountsToWrap →
      0 < timer.freq.toNat → timer.freq.toNat ≤ 1000000000 →
      timer.freq.toNat < timer.wrap.toNat + 1 →
      Reachable (call timer (timer.wrap.toNat + 1) startTick) (started timer startTick) calls →
      calls.firstGap < timer.wrap.toNat + 1 - timer.freq.toNat →
      calls.elapsed / timer.freq.toNat < 2 ^ 32 →
      ∀ reading, calls.readings.head? = some reading →
        Shows reading timer.freq.toNat calls.elapsed := by
  intro exact
  have shows_ := exact omapSyncTimer (2 ^ 32 - 1) omapWrap countsToWrap_omap (by decide) (by decide)
    (by decide) ((Reachable.refl _).tail (Option.some_get omapWrap_run).symm) (by decide +kernel)
    (by decide +kernel) ⟨0, 0⟩ (by decide +kernel)
  exact absurd shows_ (by decide +kernel)

/-! ## Readings never go back -/

/-- Every reading so far is of at most `last` ticks.  When these are all the
counted ticks, the base is not ahead of the counter, so a further call at the
same tick will not miss one. -/
structure Ordered (timer : SyncTimer) (period startTick : Nat) (calls : Calls) (last : Nat) :
    Prop where
  readings : ∀ reading ∈ calls.readings, ∃ ticks ≤ last, reading = timeAt timer.freq.toNat ticks
  last_le : last ≤ counted period calls
  behind : last = counted period calls →
    calls.systemTime.baseTick ≤ timer.cur (startTick + calls.elapsed)
  pairwise : counted period calls / timer.freq.toNat < 2 ^ 32 →
    calls.readings.Pairwise fun later earlier => 0 ≤ compareSystemTime later earlier

theorem ordered_started : Ordered timer period startTick (started timer startTick) 0 where
  readings := by simp [started]
  last_le := Nat.zero_le _
  behind := fun _all => UInt64.le_refl _
  pairwise := fun _fits => List.Pairwise.nil

theorem ordered_call (counts : Counts timer period 0) {calls calls' : Calls}
    {seconds lag last gap : Nat} (tracks : Tracks timer period 0 startTick calls seconds lag)
    (ordered : Ordered timer period startTick calls last)
    (called : call timer period startTick calls gap = some calls') :
    ∃ last', Ordered timer period startTick calls' last' := by
  rcases call_spec counts tracks called with
    ⟨ticks, _, _, readings, ticksEq, _, behind, tracks'⟩
  rcases counted_of_call counts tracks called with ⟨countedLe, sameTick⟩
  have lastLe := ordered.last_le
  have later : last ≤ ticks := by
    by_cases allCounted : last = counted period calls'
    · -- Nothing has been counted since the last reading, which missed no tick.
      have same := sameTick (by omega)
      have notLooped := ordered.behind (by omega)
      rw [← same, ← UInt64.not_lt] at notLooped
      rw [if_neg notLooped] at ticksEq
      omega
    · split at ticksEq <;> omega
  refine ⟨ticks, ?_⟩
  exact
    { readings := by
        intro reading isRead
        rw [readings, List.mem_cons] at isRead
        rcases isRead with rfl | before
        · exact ⟨ticks, Nat.le_refl _, rfl⟩
        · rcases ordered.readings reading before with ⟨earlier, earlierLe, shown⟩
          exact ⟨earlier, Nat.le_trans earlierLe later, shown⟩
      last_le := by omega
      behind := by
        intro allCounted
        apply behind
        rw [← UInt64.not_lt]
        intro looped
        rw [if_pos looped] at ticksEq
        omega
      pairwise := by
        intro fits
        rw [readings, List.pairwise_cons]
        constructor
        · intro reading before
          rcases ordered.readings reading before with ⟨earlier, earlierLe, rfl⟩
          apply compareSystemTime_timeAt counts.freq_pos _ (Nat.le_trans earlierLe later)
          exact Nat.lt_of_le_of_lt (Nat.div_le_div_right (by omega)) fits
        · exact ordered.pairwise (Nat.lt_of_le_of_lt (Nat.div_le_div_right countedLe) fits) }

/-- Each reading is at least every reading before it, as long as the seconds
fit, and always less than a second over its whole seconds. -/
theorem get_system_time_monotone (counts : timer.CountsToWrap) (positive : 0 < timer.freq.toNat)
    (freqLt : timer.freq.toNat < timer.wrap.toNat + 1) {calls : Calls}
    (reachable : Reachable (call timer (timer.wrap.toNat + 1) startTick)
      (started timer startTick) calls) :
    (counted (timer.wrap.toNat + 1) calls / timer.freq.toNat < 2 ^ 32 →
      calls.readings.Pairwise fun later earlier => 0 ≤ compareSystemTime later earlier) ∧
    ∀ reading ∈ calls.readings, reading.nanoseconds.toNat < 1000000000 := by
  have counts' := counts_of_countsToWrap counts positive freqLt
  have kept : ∀ calls gap calls', ((∃ seconds lag,
        Tracks timer (timer.wrap.toNat + 1) 0 startTick calls seconds lag) ∧
        ∃ last, Ordered timer (timer.wrap.toNat + 1) startTick calls last) →
      call timer (timer.wrap.toNat + 1) startTick calls gap = some calls' →
      (∃ seconds lag, Tracks timer (timer.wrap.toNat + 1) 0 startTick calls' seconds lag) ∧
        ∃ last, Ordered timer (timer.wrap.toNat + 1) startTick calls' last := by
    rintro calls gap calls' ⟨⟨seconds, lag, tracks⟩, last, ordered⟩ called
    exact ⟨tracks_call counts' tracks called, ordered_call counts' tracks ordered called⟩
  rcases Reachable.invariant kept ⟨⟨0, 0, tracks_started counts'⟩, 0, ordered_started⟩
      reachable with
    ⟨_tracked, last, ordered⟩
  refine ⟨ordered.pairwise, ?_⟩
  intro reading isRead
  rcases ordered.readings reading isRead with ⟨ticks, _ticksLe, rfl⟩
  rw [toNat_nanoseconds_timeAt positive]
  exact nanoseconds_lt positive

/-- An nRF51822 timer that is started at its last count, read right after the
wrap, again at the same tick, and some seconds later. -/
theorem nRF51822Wrap_run :
    (run (call nRF51822SyncTimer (nRF51822SyncTimer.wrap.toNat + 1) (2 ^ 24 - 1))
    (started nRF51822SyncTimer (2 ^ 24 - 1)) [1, 0, 100000]).isSome = true := by decide +kernel

def nRF51822Wrap : Calls :=
  (run (call nRF51822SyncTimer (nRF51822SyncTimer.wrap.toNat + 1) (2 ^ 24 - 1))
    (started nRF51822SyncTimer (2 ^ 24 - 1)) [1, 0, 100000]).get nRF51822Wrap_run

theorem get_system_time_monotone_nRF51822Wrap :
    (counted (2 ^ 24) nRF51822Wrap / 32768 < 2 ^ 32 →
      nRF51822Wrap.readings.Pairwise fun later earlier => 0 ≤ compareSystemTime later earlier) ∧
    ∀ reading ∈ nRF51822Wrap.readings, reading.nanoseconds.toNat < 1000000000 :=
  get_system_time_monotone countsToWrap_nRF51822 (by decide) (by decide)
    ⟨[1, 0, 100000], (Option.some_get nRF51822Wrap_run).symm⟩

/-! ## The hosted driver -/

/-- The hosted counter has 1500 values, one less than its `wrap` says. -/
theorem counts_hosted : Counts hostedSyncTimer 1500 1 where
  cur_eq := by
    intro tick
    exact UInt64.toNat_ofNat_of_lt' (Nat.lt_trans (Nat.mod_lt _ (by decide)) (by decide))
  period_eq := rfl
  overshoot_le := Nat.le_refl _
  freq_pos := by decide
  freq_lt := by decide

/-- A reading is at most the time that a number of milliseconds makes. -/
def NotAhead (reading : Timespec) (milliseconds : Nat) : Prop :=
  reading.seconds.toNat * 1000000000 + reading.nanoseconds.toNat ≤ milliseconds * 1000000

instance (reading : Timespec) (milliseconds : Nat) : Decidable (NotAhead reading milliseconds) :=
  inferInstanceAs (Decidable (_ ≤ _))

theorem notAhead_timeAt_iff {ticks milliseconds : Nat} (fits : ticks / 1000 < 2 ^ 32) :
    NotAhead (timeAt 1000 ticks) milliseconds ↔ ticks ≤ milliseconds := by
  have division := Nat.div_add_mod ticks 1000
  unfold NotAhead
  rw [toNat_seconds_timeAt fits, toNat_nanoseconds_timeAt (by decide)]
  omega

/-- Seconds that do not fit only make the reading smaller. -/
theorem notAhead_timeAt {ticks milliseconds : Nat} (bounded : ticks ≤ milliseconds) :
    NotAhead (timeAt 1000 ticks) milliseconds := by
  have division := Nat.div_add_mod ticks 1000
  have seconds : (timeAt 1000 ticks).seconds.toNat ≤ ticks / 1000 := Nat.mod_le _ _
  unfold NotAhead
  rw [toNat_nanoseconds_timeAt (by decide)]
  omega

/-- No call of the run so far has moved the base past the wrap. -/
theorem crossings_of_stepsMeet {timer : SyncTimer} {labels : List Nat} {calls calls' : Calls}
    (meets : StepsMeet (call timer period startTick)
      (fun calls gap => ¬ RebaseCrosses calls.systemTime
      (timer.cur (startTick + (calls.elapsed + gap)))) calls labels)
    (none : calls.crossings = 0)
    (reaches : run (call timer period startTick) calls labels = some calls') :
    calls'.crossings = 0 := by
  have kept : ∀ (calls : Calls) gap next, calls.crossings = 0 →
      ¬ RebaseCrosses calls.systemTime (timer.cur (startTick + (calls.elapsed + gap))) →
      call timer period startTick calls gap = some next → next.crossings = 0 := by
    intro calls gap next zero within called
    rcases call_eq_some called with ⟨_, elapsed, _, crossings, _⟩
    rw [crossings, elapsed, if_neg within, zero]
  exact invariant_of_stepsMeet kept none meets reaches

/-- A reading of the hosted system time is not ahead of the true time if and
only if no more earlier calls have moved the base past the wrap than ticks
were lost before the first call. -/
theorem hosted_get_system_time_not_ahead_iff {labels : List Nat} {calls calls' : Calls} {gap : Nat}
    (reaches : run (call hostedSyncTimer 1500 startTick) (started hostedSyncTimer startTick)
      labels =
      some calls)
    (called : call hostedSyncTimer 1500 startTick calls gap = some calls') :
    ∃ reading, calls'.readings.head? = some reading ∧
      ((counted 1500 calls' + calls.crossings) / 1000 < 2 ^ 32 →
        (NotAhead reading calls'.elapsed ↔ calls.crossings ≤ calls'.firstGap / 1500 * 1500)) ∧
      (StepsMeet (call hostedSyncTimer 1500 startTick)
          (fun calls gap => ¬ RebaseCrosses calls.systemTime
            (hostedSyncTimer.cur (startTick + (calls.elapsed + gap))))
          (started hostedSyncTimer startTick) labels →
        NotAhead reading calls'.elapsed) := by
  rcases tracks_reachable counts_hosted ⟨labels, reaches⟩ with ⟨seconds, lag, tracks⟩
  rcases call_spec counts_hosted tracks called with
    ⟨ticks, _, _, readings, ticksEq, _, _, tracks'⟩
  have skippedLe := tracks'.skipped_le
  have ticksIs : ticks = counted 1500 calls' + calls.crossings := by
    split at ticksEq <;> omega
  refine ⟨_, by rw [readings]; rfl, ?_, ?_⟩
  · intro fits
    change NotAhead (timeAt 1000 ticks) _ ↔ _
    rw [notAhead_timeAt_iff (by rw [ticksIs]; exact fits), ticksIs]
    unfold counted
    omega
  · intro meets
    have none := crossings_of_stepsMeet meets rfl reaches
    apply notAhead_timeAt
    rw [ticksIs, none]
    exact Nat.sub_le _ _

/-- Calls at 499, 998 and 1497 milliseconds, the last of which moves the base
past the wrap. -/
theorem hostedCrossing_run : (run (call hostedSyncTimer 1500 700) (started hostedSyncTimer 700)
    [499, 499, 499]).isSome = true := by decide +kernel

def hostedCrossing : Calls := (run (call hostedSyncTimer 1500 700) (started hostedSyncTimer 700)
    [499, 499, 499]).get hostedCrossing_run

/-- A call a millisecond later. -/
theorem hostedAfterCrossing_run :
    (call hostedSyncTimer 1500 700 hostedCrossing 1).isSome = true := by decide +kernel

def hostedAfterCrossing : Calls :=
  (call hostedSyncTimer 1500 700 hostedCrossing 1).get hostedAfterCrossing_run

theorem hosted_get_system_time_not_ahead_iff_afterCrossing :
    ∃ reading, hostedAfterCrossing.readings.head? = some reading ∧
      ((counted 1500 hostedAfterCrossing + hostedCrossing.crossings) / 1000 < 2 ^ 32 →
        (NotAhead reading hostedAfterCrossing.elapsed ↔
          hostedCrossing.crossings ≤ hostedAfterCrossing.firstGap / 1500 * 1500)) ∧
      (StepsMeet (call hostedSyncTimer 1500 700)
          (fun calls gap => ¬ RebaseCrosses calls.systemTime
            (hostedSyncTimer.cur (700 + (calls.elapsed + gap))))
          (started hostedSyncTimer 700) [499, 499, 499] →
        NotAhead reading hostedAfterCrossing.elapsed) :=
  hosted_get_system_time_not_ahead_iff (Option.some_get hostedCrossing_run).symm
    (Option.some_get hostedAfterCrossing_run).symm

/-- The reading is of 1499 milliseconds when 1498 have passed. -/
theorem not_hosted_get_system_time_not_ahead_afterCrossing :
    ¬ ∀ (startTick : Nat) (calls : Calls),
      Reachable (call hostedSyncTimer 1500 startTick) (started hostedSyncTimer startTick) calls →
      calls.firstGap < 500 →
      ∀ reading, calls.readings.head? = some reading → NotAhead reading calls.elapsed := by
  intro notAhead
  have reachable : Reachable (call hostedSyncTimer 1500 700) (started hostedSyncTimer 700)
      hostedAfterCrossing :=
    Reachable.tail ⟨[499, 499, 499], (Option.some_get hostedCrossing_run).symm⟩
      (Option.some_get hostedAfterCrossing_run).symm
  have bounded := notAhead 700 hostedAfterCrossing reachable (by decide +kernel) ⟨1, 499000000⟩
    (by decide +kernel)
  exact absurd bounded (by decide +kernel)

end Timer
end ShovelOS
