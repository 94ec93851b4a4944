import ShovelOS.Sched.Exit

namespace ShovelOS
namespace Sched

/-!
# Every thread resumes where it was

The history of a run records the CPU states that are meant to be kept: the
one `cpu_state_build` makes for a new thread, and the interrupted state of
the thread that a switch takes the processor from.  The last entry of a
thread is what it has to resume with.

The invariant says that the saved state of every thread but the running one
is its last entry.  The saved state of the running thread is out of date,
and the next switch brings it up to date before it reads any other.
-/

variable (m : Machine) {arch : Arch}

/-- A CPU state of a thread that has to be kept. -/
structure Entry (arch : Arch) where
  thread : KthreadPtr
  cpuState : arch.CpuState

/-- The state that a thread was last saved with, newest entry first. -/
def lastSaved : List (Entry arch) → KthreadPtr → Option arch.CpuState
  | [], _thread => none
  | entry :: entries, thread =>
      if entry.thread = thread then some entry.cpuState else lastSaved entries thread

/-- What a step adds to the history. -/
def recorded (k : Kernel arch) : Event arch → List (Entry arch)
  | .build creation =>
      match creation.thread with
      | some thread =>
          if creation.stackBase ≠ 0 then [⟨thread, (builtKthread m arch creation).cpuState⟩] else []
      | none => []
  | .taskSwitch interrupt =>
      match runQueueCurrent k with
      | some c => [⟨c, interrupt.cpuState⟩]
      | none => []
  | _ => []

/-- A kernel with its history. -/
structure History (arch : Arch) where
  kernel : Kernel arch
  entries : List (Entry arch)

/-- One step, recorded. -/
def historyStep (h : History arch) (event : Event arch) : Option (History arch) :=
  (step m h.kernel event).map fun k => ⟨k, recorded m h.kernel event ++ h.entries⟩

/-- The history at boot: the idle thread has been built. -/
def Boot.history (boot : Boot) (arch : Arch) : History arch :=
  ⟨boot.kernel m arch,
    [⟨boot.idleThread,
      (builtKthread m arch ⟨some boot.idleThread, boot.idleStackBase, boot.idleTask, 0⟩).cpuState⟩]⟩

variable {m}

/-- Every thread but the running one is saved as recorded. -/
structure Saved (h : History arch) : Prop where
  consistent : Consistent h.kernel
  slots : ∀ slot thread, h.kernel.kthreads slot = some thread →
    runQueueCurrent h.kernel ≠ some thread →
    lastSaved h.entries thread = some (h.kernel.memory thread).cpuState
  pending : ∀ thread, some thread ∈ h.kernel.pending →
    lastSaved h.entries thread = some (h.kernel.memory thread).cpuState

theorem recorded_noStack (k : Kernel arch) {creation : Creation}
    (noStack : creation.stackBase = 0) :
    recorded m k (.build creation) = [] := by
  unfold recorded
  dsimp only
  split
  · exact if_neg (not_not_intro noStack)
  · rfl

theorem recorded_noThread (k : Kernel arch) {creation : Creation}
    (isNull : creation.thread = none) :
    recorded m k (.build creation) = [] := by
  unfold recorded
  dsimp only
  rw [isNull]

theorem recorded_built (k : Kernel arch) {creation : Creation} {thread : KthreadPtr}
    (isThread : creation.thread = some thread) (hasStack : creation.stackBase ≠ 0) :
    recorded m k (.build creation) = [⟨thread, (builtKthread m arch creation).cpuState⟩] := by
  unfold recorded
  dsimp only
  rw [isThread]
  exact if_pos hasStack

theorem recorded_switch {k : Kernel arch} {c : KthreadPtr} (isCurrent : runQueueCurrent k = some c)
    (interrupt : Interrupt arch) :
    recorded m k (.taskSwitch interrupt) = [⟨c, interrupt.cpuState⟩] := by
  unfold recorded
  dsimp only
  rw [isCurrent]

theorem lastSaved_cons_same (entry : Entry arch) (entries : List (Entry arch)) :
    lastSaved (entry :: entries) entry.thread = some entry.cpuState := if_pos rfl

theorem lastSaved_cons_of_ne {entry : Entry arch} {thread : KthreadPtr}
    (different : entry.thread ≠ thread)
    (entries : List (Entry arch)) :
    lastSaved (entry :: entries) thread = lastSaved entries thread :=
  if_neg different

/-! ## The switch -/

/-- The switch writes the interrupted state to its thread and nothing to any
other, and leaves the saved state of the next thread, or the interrupted
one if that is the next. -/
theorem _switch_spec (k : Kernel arch) (c n : KthreadPtr) (cpuState : arch.CpuState) :
    ((_switch k c n cpuState).2.memory c).cpuState = cpuState ∧
    (∀ thread, thread ≠ c → ((_switch k c n cpuState).2.memory thread).cpuState =
      (k.memory thread).cpuState) ∧
    (_switch k c n cpuState).1 = if c = n then cpuState else (k.memory n).cpuState := by
  unfold _switch
  refine ⟨?_, fun thread different => ?_, ?_⟩
  · simp only [Kernel.setKthread_same]
  · simp only [Kernel.setKthread_of_ne k _ different]
  · by_cases same : c = n
    · rw [if_pos same]
      exact if_neg (not_not_intro same)
    · rw [if_neg same]
      refine (if_pos same).trans ?_
      rw [Kernel.setKthread_of_ne k _ (Ne.symm same)]

/-- What a switch does to a kernel whose threads are saved. -/
theorem Saved.switch {h : History arch} (saved : Saved h) {interrupt : Interrupt arch}
    {cpuState : arch.CpuState} {k' : Kernel arch}
    (switched : _archIrqTaskSwitch h.kernel interrupt = some (cpuState, k')) :
    ∃ c n, runQueueCurrent h.kernel = some c ∧ runQueueCurrent k' = some n ∧
      lastSaved (⟨c, interrupt.cpuState⟩ :: h.entries) n = some cpuState ∧
      (k'.memory c).cpuState = interrupt.cpuState ∧
      ∀ thread, thread ≠ c → (k'.memory thread).cpuState = (h.kernel.memory thread).cpuState := by
  rcases _archIrqTaskSwitch_eq_some switched with ⟨c, n, k₁, isCurrent, isNext, same, result⟩
  rcases _switch_spec k₁ c n interrupt.cpuState with ⟨writes, keeps, resumes⟩
  have kernel : k' = (_switch k₁ c n interrupt.cpuState).2 := congrArg Prod.snd result
  have state : cpuState = (_switch k₁ c n interrupt.cpuState).1 := congrArg Prod.fst result
  refine ⟨c, n, isCurrent, ?_, ?_, ?_, fun thread different => ?_⟩
  · rw [kernel]
    change k₁.kthreads k₁.running = some n
    rw [same.kthreads]
    exact isNext
  · rw [state, resumes]
    by_cases isSame : c = n
    · rw [if_pos isSame, ← isSame]
      exact lastSaved_cons_same ⟨c, interrupt.cpuState⟩ h.entries
    · have notCurrent : runQueueCurrent h.kernel ≠ some n := by
        rw [isCurrent]
        exact fun equal => isSame (Option.some.inj equal)
      rw [if_neg isSame, same.cpuState]
      exact (lastSaved_cons_of_ne isSame h.entries).trans (saved.slots _ n isNext notCurrent)
  · rw [kernel]
    exact writes
  · rw [kernel, keeps thread different, same.cpuState]

/-! ## The invariant along runs -/

/-! ### One lemma for each outcome -/

theorem ne_of_fresh {held : List KthreadPtr} {fresh pointer : KthreadPtr} (notHeld : fresh ∉ held)
    (isHeld : pointer ∈ held) : pointer ≠ fresh :=
  fun same => notHeld (same ▸ isHeld)

/-- Without a stack nothing is recorded, and the thread that was written is
not held. -/
theorem Saved.unbuilt {h : History arch} (saved : Saved h) {creation : Creation}
    {thread : KthreadPtr}
    (content : Kthread arch) (fresh : thread ∉ h.kernel.held) (noStack : creation.stackBase = 0)
    (consistent' : Consistent (h.kernel.setKthread thread content)) :
    Saved ⟨h.kernel.setKthread thread content,
      recorded m h.kernel (.build creation) ++ h.entries⟩ := by
  have nothing := recorded_noStack (m := m) h.kernel noStack
  refine ⟨consistent', fun slot pointer isSlot notCurrent => ?_, fun pointer isPending => ?_⟩
  · have different := ne_of_fresh fresh (saved.consistent.slot_held slot pointer isSlot)
    rw [nothing, List.nil_append, Kernel.setKthread_of_ne _ _ different]
    exact saved.slots slot pointer isSlot notCurrent
  · have different := ne_of_fresh fresh (saved.consistent.pending_held pointer isPending)
    rw [nothing, List.nil_append, Kernel.setKthread_of_ne _ _ different]
    exact saved.pending pointer isPending

/-- A thread that has been built is recorded with the state built for it. -/
theorem Saved.built {h : History arch} (saved : Saved h) {creation : Creation} {thread : KthreadPtr}
    (isThread : creation.thread = some thread) (hasStack : creation.stackBase ≠ 0)
    (fresh : thread ∉ h.kernel.held) {k' : Kernel arch}
    (isNext : k' = { h.kernel.setKthread thread (builtKthread m arch creation) with
      held := thread :: h.kernel.held
      pending := some thread :: h.kernel.pending })
    (consistent' : Consistent k') :
    Saved ⟨k', recorded m h.kernel (.build creation) ++ h.entries⟩ := by
  subst isNext
  have entry := recorded_built (m := m) h.kernel isThread hasStack
  have others : ∀ pointer, pointer ∈ h.kernel.held →
      lastSaved h.entries pointer = some (h.kernel.memory pointer).cpuState →
      lastSaved (recorded m h.kernel (.build creation) ++ h.entries) pointer =
        some ((h.kernel.setKthread thread (builtKthread m arch creation)).memory
          pointer).cpuState := by
    intro pointer isHeld before
    have different := ne_of_fresh fresh isHeld
    rw [entry, Kernel.setKthread_of_ne _ _ different]
    exact (lastSaved_cons_of_ne different.symm h.entries).trans before
  refine ⟨consistent', fun slot pointer isSlot notCurrent => ?_, fun pointer isPending => ?_⟩
  · exact others pointer (saved.consistent.slot_held slot pointer isSlot)
      (saved.slots slot pointer isSlot notCurrent)
  · rcases List.mem_cons.mp isPending with same | old
    · rw [Option.some.inj same, entry]
      change _ = some
        ((h.kernel.setKthread thread (builtKthread m arch creation)).memory thread).cpuState
      rw [Kernel.setKthread_same]
      exact lastSaved_cons_same ⟨thread, (builtKthread m arch creation).cpuState⟩ h.entries
    · exact others pointer (saved.consistent.pending_held pointer old) (saved.pending pointer old)

/-- A thread that is added was pending, and so was saved. -/
theorem Saved.added {h : History arch} (saved : Saved h) {thread : Option KthreadPtr}
    (isPending : thread ∈ h.kernel.pending) {slot : Fin 32}
    (isEmpty : h.kernel.kthreads slot = none)
    (consistent' : Consistent
      { h.kernel.setSlot slot thread with pending := h.kernel.pending.erase thread }) :
    Saved ⟨{ h.kernel.setSlot slot thread with pending := h.kernel.pending.erase thread },
      recorded m h.kernel (.add thread) ++ h.entries⟩ := by
  refine ⟨consistent', fun other pointer isSlot notCurrent => ?_, fun pointer isRemaining => ?_⟩
  · change (h.kernel.setSlot slot thread).kthreads other = some pointer at isSlot
    by_cases same : other = slot
    · rw [same, Kernel.setSlot_same] at isSlot
      rw [isSlot] at isPending
      exact saved.pending pointer isPending
    · have here := isSlot
      rw [Kernel.setSlot_of_ne _ _ same] at here
      refine saved.slots other pointer here ?_
      intro isCurrent
      apply notCurrent
      have different : h.kernel.running ≠ slot := by
        intro sameSlot
        unfold runQueueCurrent at isCurrent
        rw [sameSlot, isEmpty] at isCurrent
        cases isCurrent
      exact (Kernel.setSlot_of_ne h.kernel thread different).trans isCurrent
  · exact saved.pending pointer (List.mem_of_mem_erase isRemaining)

theorem Saved.slept {h : History arch} (saved : Saved h) {systemTime ts : Timespec}
    {k' : Kernel arch}
    (same : SameThreads h.kernel k') (sameRunning : k'.running = h.kernel.running)
    (consistent' : Consistent k') :
    Saved ⟨k', recorded m h.kernel (.sleep systemTime ts) ++ h.entries⟩ := by
  refine ⟨consistent', fun slot pointer isSlot notCurrent => ?_, fun pointer isPending => ?_⟩
  · have current : runQueueCurrent k' = runQueueCurrent h.kernel := by
      unfold runQueueCurrent
      rw [same.kthreads, sameRunning]
    change runQueueCurrent k' ≠ some pointer at notCurrent
    change k'.kthreads slot = some pointer at isSlot
    change lastSaved h.entries pointer = some (k'.memory pointer).cpuState
    rw [current] at notCurrent
    rw [same.kthreads] at isSlot
    rw [same.cpuState]
    exact saved.slots slot pointer isSlot notCurrent
  · change some pointer ∈ k'.pending at isPending
    change lastSaved h.entries pointer = some (k'.memory pointer).cpuState
    rw [same.pending] at isPending
    rw [same.cpuState]
    exact saved.pending pointer isPending

/-- The interrupted thread is recorded by the switch, and the others are as
they were. -/
theorem Saved.switched {h : History arch} (saved : Saved h) {interrupt : Interrupt arch}
    {c n : KthreadPtr} {k₁ : Kernel arch} (isCurrent : runQueueCurrent h.kernel = some c)
    (same : SameThreads h.kernel k₁)
    (consistent' : Consistent (_switch k₁ c n interrupt.cpuState).2) :
    Saved ⟨(_switch k₁ c n interrupt.cpuState).2,
      recorded m h.kernel (.taskSwitch interrupt) ++ h.entries⟩ := by
  rcases _switch_spec k₁ c n interrupt.cpuState with ⟨writes, keeps, _⟩
  have entry := recorded_switch (m := m) isCurrent interrupt
  have brought : ∀ pointer, (pointer ≠ c →
      lastSaved h.entries pointer = some (h.kernel.memory pointer).cpuState) →
      lastSaved (⟨c, interrupt.cpuState⟩ :: h.entries) pointer =
        some ((_switch k₁ c n interrupt.cpuState).2.memory pointer).cpuState := by
    intro pointer before
    by_cases isInterrupted : pointer = c
    · rw [isInterrupted, writes]
      exact lastSaved_cons_same ⟨c, interrupt.cpuState⟩ h.entries
    · rw [keeps pointer isInterrupted, same.cpuState]
      exact (lastSaved_cons_of_ne (Ne.symm isInterrupted) h.entries).trans (before isInterrupted)
  refine ⟨consistent', fun slot pointer isSlot _ => ?_, fun pointer isPending => ?_⟩
  · change k₁.kthreads slot = some pointer at isSlot
    rw [same.kthreads] at isSlot
    rw [entry]
    refine brought pointer fun different => saved.slots slot pointer isSlot ?_
    rw [isCurrent]
    exact fun equal => different (Option.some.inj equal).symm
  · change some pointer ∈ k₁.pending at isPending
    rw [same.pending] at isPending
    rw [entry]
    exact brought pointer fun _ => saved.pending pointer isPending

theorem Saved.exited {h : History arch} (saved : Saved h) {c : KthreadPtr}
    (isCurrent : runQueueCurrent h.kernel = some c) {slot : Fin 32}
    (isSlot : h.kernel.kthreads slot = some c) (content : Kthread arch)
    (consistent' : Consistent
      { (h.kernel.setSlot slot none).setKthread c content with exiting := true }) :
    Saved ⟨{ (h.kernel.setSlot slot none).setKthread c content with exiting := true },
      recorded m h.kernel .exited ++ h.entries⟩ := by
  have isRunning : slot = h.kernel.running := saved.consistent.distinct slot _ c isSlot isCurrent
  refine ⟨consistent', fun other pointer isOther _ => ?_, fun pointer isPending => ?_⟩
  · change (h.kernel.setSlot slot none).kthreads other = some pointer at isOther
    have notSlot : other ≠ slot := by
      rintro rfl
      rw [Kernel.setSlot_same] at isOther
      cases isOther
    rw [Kernel.setSlot_of_ne _ _ notSlot] at isOther
    have different : pointer ≠ c := by
      rintro rfl
      exact notSlot (saved.consistent.distinct other slot pointer isOther isSlot)
    change lastSaved h.entries pointer =
      some (((h.kernel.setSlot slot none).setKthread c content).memory pointer).cpuState
    rw [Kernel.setKthread_of_ne _ _ different]
    refine saved.slots other pointer isOther ?_
    rw [isCurrent]
    exact fun equal => different (Option.some.inj equal).symm
  · have different : pointer ≠ c := by
      rintro rfl
      exact saved.consistent.pending_out slot pointer isPending isSlot
    change lastSaved h.entries pointer =
      some (((h.kernel.setSlot slot none).setKthread c content).memory pointer).cpuState
    rw [Kernel.setKthread_of_ne _ _ different]
    exact saved.pending pointer isPending

theorem Saved.step {h h' : History arch} (saved : Saved h) {event : Event arch}
    (stepped : historyStep m h event = some h') : Saved h' := by
  rcases Option.map_eq_some_iff.mp stepped with ⟨k', kernelStep, rfl⟩
  have consistent' := saved.consistent.step kernelStep
  rcases saved.consistent.outcome kernelStep with ⟨_, outcome⟩
  cases outcome with
  | unbuilt creation thread content fresh noStack =>
      exact saved.unbuilt content fresh noStack consistent'
  | noThread creation isNull =>
      have nothing := recorded_noThread (m := m) h.kernel isNull
      refine ⟨consistent', fun slot pointer isSlot notCurrent => ?_, fun pointer isPending => ?_⟩
      · rw [nothing]
        exact saved.slots slot pointer isSlot notCurrent
      · rw [nothing]
        exact saved.pending pointer (List.mem_of_ne_of_mem (by simp) isPending)
  | built creation thread isThread hasStack fresh =>
      exact saved.built isThread hasStack fresh rfl consistent'
  | added thread isPending slot isEmpty => exact saved.added isPending isEmpty consistent'
  | full thread isPending =>
      exact ⟨consistent', saved.slots,
        fun pointer isRemaining => saved.pending pointer (List.mem_of_mem_erase isRemaining)⟩
  | slept systemTime ts k' same sameRunning => exact saved.slept same sameRunning consistent'
  | switched interrupt c n k₁ isCurrent isNext same =>
      exact saved.switched isCurrent same consistent'
  | exited c isCurrent notIdle slot isSlot content =>
      exact saved.exited isCurrent isSlot content consistent'

theorem Boot.saved (boot : Boot) (m : Machine) (arch : Arch) : Saved (boot.history m arch) := by
  rcases boot.kernel_held m arch with ⟨_, pending, _, running⟩
  have isCurrent : runQueueCurrent (boot.kernel m arch) = some boot.bootThread := by
    unfold runQueueCurrent
    rw [running]
    exact boot.kernel_kthreads m arch 1
  refine ⟨boot.consistent m arch, fun slot thread isSlot notCurrent => ?_,
    fun thread isPending => ?_⟩
  · change (boot.kernel m arch).kthreads slot = some thread at isSlot
    change runQueueCurrent (boot.kernel m arch) ≠ some thread at notCurrent
    rw [boot.kernel_kthreads m] at isSlot
    rw [isCurrent] at notCurrent
    split at isSlot
    · rw [← Option.some.inj isSlot]
      have isBuilt : (boot.kernel m arch).memory boot.idleThread =
          builtKthread m arch ⟨some boot.idleThread, boot.idleStackBase, boot.idleTask, 0⟩ := by
        unfold Boot.kernel _kthreadCreate
        simp only [stackAlloc, ne_eq, boot.obtained, not_false_eq_true, decide_true, if_true]
        exact Kernel.setKthread_same _ _ _
      change _ = some ((boot.kernel m arch).memory boot.idleThread).cpuState
      rw [isBuilt]
      exact if_pos rfl
    · split at isSlot
      · exact absurd isSlot notCurrent
      · cases isSlot
  · change some thread ∈ (boot.kernel m arch).pending at isPending
    rw [pending] at isPending
    cases isPending

/-- In every run, a switch takes the processor from the current thread and
leaves the next one with exactly what was last saved for it: the state that
its last switch captured, this one included, or the one it was built with.
The switch changes the saved state of the interrupted thread and of no
other. -/
theorem resumed_as_saved (boot : Boot) (events : List (Event arch)) (h : History arch)
    (reaches : Transition.run (historyStep m) (boot.history m arch) events = some h)
    (interrupt : Interrupt arch) (cpuState : arch.CpuState) (k' : Kernel arch)
    (switched : _archIrqTaskSwitch h.kernel interrupt = some (cpuState, k')) :
    ∃ c n, runQueueCurrent h.kernel = some c ∧ runQueueCurrent k' = some n ∧
      lastSaved (⟨c, interrupt.cpuState⟩ :: h.entries) n = some cpuState ∧
      (k'.memory c).cpuState = interrupt.cpuState ∧
      ∀ thread, thread ≠ c → (k'.memory thread).cpuState = (h.kernel.memory thread).cpuState := by
  have reachable : Transition.Reachable (historyStep m) (boot.history m arch) h := ⟨events, reaches⟩
  have saved : Saved h :=
    reachable.invariant (fun _h _event _h' saved stepped => saved.step stepped) (boot.saved m arch)
  exact saved.switch switched

/-- A yield of the thread that was created. -/
def yieldOfThread : Interrupt (armA 0x80001000) :=
  ⟨none, ⟨19, 0x80003040, 0x80322f00, 0, fun _register => 7⟩, 0xFF, 0⟩

theorem threadRuns_history : (Transition.run (historyStep Machine.beaglexm)
    (armBoot.history Machine.beaglexm (armA 0x80001000)) threadRuns).isSome = true := by
  decide +kernel

/-- The history when the thread runs. -/
def threadHistory : History (armA 0x80001000) :=
  (Transition.run (historyStep Machine.beaglexm)
    (armBoot.history Machine.beaglexm (armA 0x80001000)) threadRuns).get
    threadRuns_history

theorem yieldOfThread_switches :
    (_archIrqTaskSwitch threadHistory.kernel yieldOfThread).isSome = true := by
  decide +kernel

theorem resumed_as_saved_threadHistory :
    ∃ c n, runQueueCurrent threadHistory.kernel = some c ∧
      runQueueCurrent ((_archIrqTaskSwitch threadHistory.kernel yieldOfThread).get
        yieldOfThread_switches).2 = some n ∧
      lastSaved (⟨c, yieldOfThread.cpuState⟩ :: threadHistory.entries) n =
        some ((_archIrqTaskSwitch threadHistory.kernel yieldOfThread).get
          yieldOfThread_switches).1 ∧
      (((_archIrqTaskSwitch threadHistory.kernel yieldOfThread).get yieldOfThread_switches).2.memory
        c).cpuState = yieldOfThread.cpuState ∧
      ∀ thread, thread ≠ c →
        (((_archIrqTaskSwitch threadHistory.kernel yieldOfThread).get
          yieldOfThread_switches).2.memory
          thread).cpuState = (threadHistory.kernel.memory thread).cpuState :=
  resumed_as_saved armBoot threadRuns threadHistory
    (Option.some_get threadRuns_history).symm yieldOfThread _ _
    (Option.some_get yieldOfThread_switches).symm

end Sched
end ShovelOS
