import ShovelOS.Sched.Slots

namespace ShovelOS
namespace Sched

/-!
# When a switch finds the current slot empty

A thread whose start routine returns removes itself from the run queue and
yields.  The switch that the yield causes looks up the current thread in the
slot of the running index, which is now empty, and stops the machine.  No
other step empties that slot.  So in every run the current slot holds a
thread until the first exit, and a run that has seen an exit is at its end.
-/

variable (m : Machine) {arch : Arch}

theorem Boot.kernel_kthreads (arch : Arch) (boot : Boot) (slot : Fin 32) :
    (boot.kernel m arch).kthreads slot =
    if slot = 0 then some boot.idleThread else if slot = 1 then some boot.bootThread else none := by
  unfold Boot.kernel _kthreadCreate
  simp only [stackAlloc, ne_eq, boot.obtained, not_false_eq_true, decide_true, if_true]
  rfl

theorem Boot.kernel_held (arch : Arch) (boot : Boot) :
    (boot.kernel m arch).held = [boot.idleThread, boot.bootThread] ∧
      (boot.kernel m arch).pending = [] ∧ (boot.kernel m arch).exiting = false ∧
      (boot.kernel m arch).running = 1 := by
  unfold Boot.kernel _kthreadCreate
  simp only [stackAlloc, ne_eq, boot.obtained, not_false_eq_true, decide_true, if_true]
  exact ⟨rfl, rfl, rfl, rfl⟩

theorem Boot.consistent (arch : Arch) (boot : Boot) : Consistent (boot.kernel m arch) := by
  rcases boot.kernel_held m arch with ⟨held, pending, exiting, running⟩
  refine ⟨⟨boot.idleThread, boot.kernel_kthreads m arch 0⟩, ?_, ?_, ?_, ?_, ?_, ?_⟩
  · refine iff_of_true exiting ⟨boot.bootThread, ?_⟩
    unfold runQueueCurrent
    rw [running]
    exact boot.kernel_kthreads m arch 1
  · intro slot other thread isSlot isOther
    rw [boot.kernel_kthreads m arch] at isSlot isOther
    have different := boot.different
    split at isSlot <;> split at isOther
    · rename_i first second
      exact first.trans second.symm
    · split at isOther
      · exact absurd (Option.some.inj (isSlot.trans isOther.symm)) different
      · cases isOther
    · split at isSlot
      · exact absurd (Option.some.inj (isOther.trans isSlot.symm)) different
      · cases isSlot
    · split at isSlot <;> split at isOther
      · rename_i first second
        exact first.trans second.symm
      · cases isOther
      · cases isSlot
      · cases isSlot
  · intro slot thread isSlot
    rw [boot.kernel_kthreads m arch] at isSlot
    rw [held]
    split at isSlot
    · rw [← Option.some.inj isSlot]
      exact List.mem_cons_self
    · split at isSlot
      · rw [← Option.some.inj isSlot]
        exact List.mem_cons_of_mem _ List.mem_cons_self
      · cases isSlot
  · intro thread isPending
    rw [pending] at isPending
    cases isPending
  · intro slot thread isPending
    rw [pending] at isPending
    cases isPending
  · intro thread
    rw [pending]
    exact Nat.zero_le _

variable {m}

/-- Only an exit makes the running thread exit. -/
theorem Consistent.exiting_step {k k' : Kernel arch} (consistent : Consistent k)
    {event : Event arch}
    (stepped : Sched.step m k event = some k') : k'.exiting = true ↔ event = .exited := by
  rcases consistent.outcome stepped with ⟨notExiting, outcome⟩
  have unchanged : ∀ other : Event arch, other ≠ .exited →
      (k.exiting = true ↔ other = .exited) := by
    intro other different
    rw [notExiting]
    exact iff_of_false Bool.noConfusion different
  cases outcome with
  | unbuilt => exact unchanged _ nofun
  | noThread => exact unchanged _ nofun
  | built => exact unchanged _ nofun
  | added => exact unchanged _ nofun
  | full => exact unchanged _ nofun
  | slept systemTime ts k' same sameRunning =>
      rw [same.exiting]
      exact unchanged _ nofun
  | switched interrupt c n k' isCurrent isNext same =>
      change k'.exiting = true ↔ _
      rw [same.exiting]
      exact unchanged _ nofun
  | exited => exact iff_of_true rfl rfl

/-- Along a run the running thread exits exactly when an exit has been a
step. -/
theorem Consistent.exiting_run {events : List (Event arch)} {k k' : Kernel arch}
    (consistent : Consistent k) (notExiting : k.exiting = false)
    (reaches : Transition.run (Sched.step m) k events = some k') :
    Consistent k' ∧ (k'.exiting = true ↔ Event.exited ∈ events) := by
  induction events generalizing k with
  | nil =>
      cases reaches
      refine ⟨consistent, ?_⟩
      rw [notExiting]
      exact iff_of_false Bool.noConfusion List.not_mem_nil
  | cons event events inductionHypothesis =>
      rcases Transition.run_cons_eq_some.mp reaches with ⟨next, stepped, rest⟩
      have nextConsistent := consistent.step stepped
      have exits := consistent.exiting_step stepped
      by_cases isExit : event = .exited
      · -- An exiting thread makes no further step.
        have exiting := exits.mpr isExit
        cases events with
        | nil =>
            cases rest
            exact ⟨nextConsistent, iff_of_true exiting (isExit ▸ List.mem_cons_self)⟩
        | cons second events =>
            rcases Transition.run_cons_eq_some.mp rest with ⟨after, stepsOn, _⟩
            rw [(nextConsistent.outcome stepsOn).1] at exiting
            cases exiting
      · have continues : next.exiting = false := by
          rw [← Bool.not_eq_true, exits]
          exact isExit
        rcases inductionHypothesis nextConsistent continues rest with ⟨final, iff⟩
        refine ⟨final, iff.trans ?_⟩
        rw [List.mem_cons]
        exact (or_iff_right fun same => isExit same.symm).symm

/-- In every run, a switch finds a thread in the current slot exactly when no
thread has exited. -/
theorem current_nonempty_iff (boot : Boot) (events : List (Event arch)) (k : Kernel arch)
    (reaches : Transition.run (step m) (boot.kernel m arch) events = some k) :
    (∃ c, runQueueCurrent k = some c) ↔ Event.exited ∉ events := by
  have start := boot.consistent m arch
  rcases start.exiting_run (boot.kernel_held m arch).2.2.1 reaches with ⟨consistent, exits⟩
  rw [← consistent.current, ← Bool.not_eq_true, exits]

/-- With an empty current slot a switch stops the machine. -/
theorem switch_stops {k : Kernel arch} (isEmpty : runQueueCurrent k = none)
    (interrupt : Interrupt arch) :
    step m k (.taskSwitch interrupt) = none := by
  cases result : step m k (.taskSwitch interrupt) with
  | none => rfl
  | some k' =>
      unfold step at result
      rcases Option.map_eq_some_iff.mp result with ⟨⟨cpuState, k₂⟩, switched, _⟩
      rcases _archIrqTaskSwitch_eq_some switched with ⟨c, _, _, isCurrent, _⟩
      rw [isEmpty] at isCurrent
      cases isCurrent

/-! ## A thread that returns -/

/-- A boot of the ARM port. -/
def armBoot : Boot where
  bootThread := 0x80310000
  ss := ⟨0x80320000, 4096⟩
  idleThread := 0x80311000
  idleStackBase := 0x80321000
  idleTask := 0x80002000
  different := by decide
  obtained := by decide

/-- A timer interrupt with intact stack and working timer. -/
def tick (pc : UInt32) : Event (armA 0x80001000) :=
  .taskSwitch ⟨some ⟨0, 1000000⟩, ⟨19, pc, 0x80320f00, 0, fun _register => 0⟩, 0xFF, 0⟩

/-- A thread is created and runs. -/
def threadRuns : List (Event (armA 0x80001000)) :=
  [.build ⟨some 0x80312000, 0x80322000, 0x80003000, 0⟩, .add (some 0x80312000), tick 0x80000100]

theorem threadRuns_run :
    (Transition.run (step Machine.beaglexm) (armBoot.kernel Machine.beaglexm (armA 0x80001000))
      threadRuns).isSome = true := by
  decide +kernel

theorem current_nonempty_iff_threadRuns :
    (∃ c, runQueueCurrent
      ((Transition.run (step Machine.beaglexm) (armBoot.kernel Machine.beaglexm (armA 0x80001000))
      threadRuns).get threadRuns_run) = some c) ↔ Event.exited ∉ threadRuns :=
  current_nonempty_iff armBoot threadRuns _ (Option.some_get threadRuns_run).symm

theorem threadExits_run :
    (Transition.run (step Machine.beaglexm) (armBoot.kernel Machine.beaglexm (armA 0x80001000))
    (threadRuns ++ [.exited])).isSome = true := by
  decide +kernel

/-- When the thread returns from its start routine, the current slot is empty
and every switch stops the machine. -/
theorem current_empty_after_exit :
    ∃ events k, Transition.run (step Machine.beaglexm)
      (armBoot.kernel Machine.beaglexm (armA 0x80001000)) events = some k ∧
      runQueueCurrent k = none ∧
      ∀ interrupt, step Machine.beaglexm k (.taskSwitch interrupt) = none := by
  have isEmpty : runQueueCurrent ((Transition.run (step Machine.beaglexm)
      (armBoot.kernel Machine.beaglexm (armA 0x80001000)) (threadRuns ++ [.exited])).get
        threadExits_run) = none := by
    decide +kernel
  exact ⟨threadRuns ++ [.exited], _, (Option.some_get threadExits_run).symm, isEmpty,
    switch_stops isEmpty⟩

end Sched
end ShovelOS
