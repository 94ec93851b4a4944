import ShovelOS.Sched.Kernel

namespace ShovelOS
namespace Sched

open CyclicScan

/-!
# What `run_queue_next` returns (`sched/sched.c`)

The scan goes through the slots in a ring, from the one after the running
index to the running index itself, and leaves out the slot of the idle task.
It stops at the first thread that may run, and wakes it if it sleeps.  When
the whole ring has been passed the idle task runs.
-/

variable {arch : Arch}

/-- A slot of a thread that may run: no flag of it is set, or it sleeps and
its time has come. -/
def MayRun (k : Kernel arch) (slot : Fin 32) : Prop :=
  slot ≠ 0 ∧ ∃ th, k.kthreads slot = some th ∧
    ((k.memory th).flags = 0 ∨ (k.memory th).flags &&& kthreadSleepUntilTime ≠ 0 ∧
      0 ≤ compareSystemTime k.schedTime (k.memory th).sleepUntilTime)

/-- The kernel with another running slot whose thread does not sleep. -/
def awoken (k : Kernel arch) (slot : Fin 32) (th : KthreadPtr) : Kernel arch :=
  { k.setKthread th
      { k.memory th with flags := (k.memory th).flags &&& ~~~kthreadSleepUntilTime } with
    running := slot }

/-- Clearing the flag of a thread without flags changes nothing. -/
theorem setKthread_no_flags (k : Kernel arch) {th : KthreadPtr}
    (noFlags : (k.memory th).flags = 0) :
    k.setKthread th { k.memory th with flags := (k.memory th).flags &&& ~~~kthreadSleepUntilTime } =
      k := by
  have same : ({ k.memory th with flags := (k.memory th).flags &&& ~~~kthreadSleepUntilTime } :
      Kthread arch) = k.memory th := by
    rw [noFlags, UInt32.zero_and, ← noFlags]
  unfold Kernel.setKthread
  rw [same]
  congr 1
  funext other
  split
  · rename_i isThread
    rw [isThread]
  · rfl

theorem tryNext_mayRun {k : Kernel arch} {slot : Fin 32} {th : KthreadPtr} (mayRun : MayRun k slot)
    (isThread : k.kthreads slot = some th) : tryNext k slot = some (th, awoken k slot th) := by
  rcases mayRun with ⟨notIdle, other, isOther, reason⟩
  cases isThread.symm.trans isOther
  unfold tryNext _isRunnable awoken
  rw [if_pos notIdle, isThread]
  dsimp only
  by_cases noFlags : (k.memory th).flags = 0
  · rw [if_pos noFlags, if_pos rfl, setKthread_no_flags k noFlags]
    rfl
  · have sleeps := reason.resolve_left noFlags
    rw [if_neg noFlags, if_pos sleeps, if_pos rfl]
    rfl

theorem tryNext_not_mayRun {k : Kernel arch} {slot : Fin 32} (notMayRun : ¬MayRun k slot) :
    tryNext k slot = none := by
  unfold tryNext _isRunnable
  by_cases notIdle : slot ≠ 0
  · rw [if_pos notIdle]
    cases isThread : k.kthreads slot with
    | none => rfl
    | some th =>
        have noReason :
            ¬((k.memory th).flags = 0 ∨ (k.memory th).flags &&& kthreadSleepUntilTime ≠ 0 ∧
            0 ≤ compareSystemTime k.schedTime (k.memory th).sleepUntilTime) :=
          fun reason => notMayRun ⟨notIdle, th, isThread, reason⟩
        rw [not_or] at noReason
        dsimp only
        rw [if_neg noReason.1, if_neg noReason.2, if_neg Bool.false_ne_true]
  · rw [if_neg notIdle]

/-- What the scan from a place on returns: the first thread that may run, or
the idle task when there is none up to the current slot. -/
def ScanReturns (k : Kernel arch) (current running : Fin 32) (idle : KthreadPtr)
    (result : KthreadPtr × Kernel arch) : Prop :=
  (∃ slot th, IsFirst running (MayRun k) slot ∧ k.kthreads slot = some th ∧
    result = (th, awoken k slot th)) ∨
  ((∀ slot, MayRun k slot → gap running current < gap running slot) ∧
    result = (idle, { k with running := 0 }))

theorem runQueueNextFrom_returns {k : Kernel arch} {current : Fin 32} {idle : KthreadPtr}
    (isIdle : k.kthreads 0 = some idle) (remaining : Nat) (running : Fin 32)
    (enough : gap running current < remaining) :
    ∃ result, runQueueNextFrom k current remaining running = some result ∧
      ScanReturns k current running idle result := by
  induction remaining generalizing running with
  | zero => exact absurd enough (Nat.not_lt_zero _)
  | succ remaining inductionHypothesis =>
      unfold runQueueNextFrom
      by_cases mayRun : MayRun k (running + 1)
      · rcases mayRun.2 with ⟨th, isThread, _reason⟩
        rw [tryNext_mayRun mayRun isThread]
        exact ⟨_, rfl, Or.inl ⟨running + 1, th, isFirst_succ mayRun, isThread, rfl⟩⟩
      · rw [tryNext_not_mayRun mayRun]
        have passed : ∀ slot, MayRun k slot → gap (running + 1) slot + 1 = gap running slot := by
          intro slot slotMayRun
          apply gap_succ
          rintro rfl
          exact mayRun slotMayRun
        by_cases back : running + 1 = current
        · refine ⟨(idle, { k with running := 0 }), ?_, Or.inr ⟨fun slot slotMayRun => ?_, rfl⟩⟩
          · simp only [if_pos back, idleNext, isIdle, Option.map_some]
          · rw [← back, gap_succ_self, ← passed slot slotMayRun]
            exact Nat.succ_pos _
        · have closer := gap_succ back
          rcases inductionHypothesis (running + 1) (by omega) with ⟨result, returned, spec⟩
          refine ⟨result, by simp only [if_neg back, returned], ?_⟩
          rcases spec with ⟨slot, th, first, isThread, isResult⟩ | ⟨none, isResult⟩
          · exact Or.inl ⟨slot, th, first.of_succ mayRun, isThread, isResult⟩
          · refine Or.inr ⟨fun slot slotMayRun => ?_, isResult⟩
            have later := none slot slotMayRun
            have shrinks := passed slot slotMayRun
            omega

/-- `run_queue_next` returns the first thread in the ring that may run, awake
and in the running slot, and the idle task when there is none.  Nothing else
changes, and a thread that sleeps for longer is not returned from its slot. -/
theorem run_queue_next_returns {k : Kernel arch} {idle : KthreadPtr}
    (isIdle : k.kthreads 0 = some idle) :
    ∃ next k', runQueueNext k = some (next, k') ∧
      ((∃ slot, IsFirst k.running (MayRun k) slot ∧ k.kthreads slot = some next ∧
          k' = awoken k slot next) ∨
        ((∀ slot, ¬MayRun k slot) ∧ next = idle ∧ k' = { k with running := 0 })) ∧
      (k'.running ≠ 0 → (k.memory next).flags &&& kthreadSleepUntilTime ≠ 0 →
        0 ≤ compareSystemTime k.schedTime (k.memory next).sleepUntilTime) := by
  have enough : gap k.running k.running < 32 := gap_lt _ _
  rcases runQueueNextFrom_returns isIdle 32 k.running enough with
    ⟨⟨next, k'⟩, returned, ⟨slot, th, first, isThread, isResult⟩ | ⟨none, isResult⟩⟩
  · rcases Prod.mk.inj isResult with ⟨rfl, rfl⟩
    refine ⟨next, _, returned, Or.inl ⟨slot, first, isThread, rfl⟩, fun _notIdle sleeps => ?_⟩
    rcases first.1 with ⟨_notZero, other, isOther, reason⟩
    cases isThread.symm.trans isOther
    rcases reason with noFlags | ⟨_sleeps, due⟩
    · rw [noFlags] at sleeps
      exact absurd (UInt32.zero_and) sleeps
    · exact due
  · rcases Prod.mk.inj isResult with ⟨rfl, rfl⟩
    refine ⟨next, _, returned, Or.inr ⟨fun slot mayRun => ?_, rfl, rfl⟩,
      fun notIdle => absurd rfl notIdle⟩
    exact Nat.not_lt_of_le (gap_le_gap_self k.running slot) (none slot mayRun)

/-- Two threads sleep besides the idle task, and the time of the second one,
which is behind the running slot, has come. -/
def oneDue : Kernel (armA 0x80001000) where
  kthreads := fun slot =>
    if slot = 0 then some 0x80310000 else if slot = 3 then some 0x80311000
    else if slot = 2 then some 0x80312000 else none
  running := 2
  schedTime := ⟨5, 0⟩
  memory := fun thread => { Kthread.zeroed (armA 0x80001000) with
    flags := if thread = 0x80310000 then 0 else kthreadSleepUntilTime
    sleepUntilTime := if thread = 0x80312000 then ⟨4, 999999999⟩ else ⟨5, 1⟩ }
  held := []
  pending := []
  exiting := false

theorem run_queue_next_returns_oneDue :
    ∃ next k', runQueueNext oneDue = some (next, k') ∧
      ((∃ slot, IsFirst oneDue.running (MayRun oneDue) slot ∧ oneDue.kthreads slot = some next ∧
          k' = awoken oneDue slot next) ∨
        ((∀ slot, ¬MayRun oneDue slot) ∧ next = 0x80310000 ∧ k' = { oneDue with running := 0 })) ∧
      (k'.running ≠ 0 → (oneDue.memory next).flags &&& kthreadSleepUntilTime ≠ 0 →
        0 ≤ compareSystemTime oneDue.schedTime (oneDue.memory next).sleepUntilTime) :=
  run_queue_next_returns rfl

/-- The running thread itself is the one to wake. -/
example : (runQueueNext oneDue).map (fun (next, k') => (next, k'.running, (k'.memory next).flags)) =
    some (0x80312000, 2, 0) := by
  decide +kernel

end Sched
end ShovelOS
