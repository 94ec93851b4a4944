import ShovelOS.Sched.Context

namespace ShovelOS
namespace Sched

/-!
# Threads that wait for the processor

A thread waits when it has a slot or is about to be added, and is not the
current one.  What a port keeps of its state then lies where the scheduler
has saved it, and only a switch puts it anywhere else.
-/

variable {m : Machine} {arch : Arch}

def isSwitch : Event arch → Bool
  | .taskSwitch _interrupt => true
  | _ => false

/-- The threads that are saved. -/
structure Waiting (k : Kernel arch) (thread : KthreadPtr) : Prop where
  known : (∃ slot, k.kthreads slot = some thread) ∨ some thread ∈ k.pending
  notCurrent : runQueueCurrent k ≠ some thread

/-- Them all. -/
def waitingThreads (k : Kernel arch) : List KthreadPtr :=
  (((List.finRange 32).map k.kthreads ++ k.pending).filterMap id).filter fun thread =>
    runQueueCurrent k ≠ some thread

theorem mem_waitingThreads {k : Kernel arch} {thread : KthreadPtr} :
    thread ∈ waitingThreads k ↔ Waiting k thread := by
  simp only [waitingThreads, List.mem_filter, List.mem_filterMap, List.mem_append, List.mem_map,
    List.mem_finRange, true_and, id, decide_eq_true_eq]
  refine ⟨fun ⟨⟨_, known, rfl⟩, notCurrent⟩ => ⟨known, notCurrent⟩, fun waiting => ?_⟩
  exact ⟨⟨some thread, waiting.known, rfl⟩, waiting.notCurrent⟩

theorem Waiting.held {k : Kernel arch} {thread : KthreadPtr} (waiting : Waiting k thread)
    (consistent : Consistent k) : thread ∈ k.held := by
  rcases waiting.known with ⟨slot, isSlot⟩ | isPending
  · exact consistent.slot_held slot thread isSlot
  · exact consistent.pending_held thread isPending

/-- Between switches the current thread stays the same, until it exits. -/
theorem current_of_call {k k' : Kernel arch} (consistent : Consistent k) {event : Event arch}
    (stepped : step m k event = some k') (notSwitch : isSwitch event = false)
    {c : KthreadPtr} (isCurrent : runQueueCurrent k' = some c) : runQueueCurrent k = some c := by
  rcases consistent.outcome stepped with ⟨notExiting, outcome⟩
  rcases consistent.current.mp notExiting with ⟨before, wasCurrent⟩
  cases outcome with
  | unbuilt | noThread | built | full => exact isCurrent
  | added thread isPending slot isEmpty =>
      have different : k.running ≠ slot := by
        rintro rfl
        rw [runQueueCurrent, isEmpty] at wasCurrent
        cases wasCurrent
      exact (Kernel.setSlot_of_ne k thread different).symm.trans isCurrent
  | slept systemTime ts _ same sameRunning =>
      rw [runQueueCurrent, same.kthreads, sameRunning] at isCurrent
      exact isCurrent
  | switched => cases notSwitch
  | exited exited wasExited notIdle slot isSlot content =>
      have isRunning : slot = k.running := consistent.distinct slot _ exited isSlot wasExited
      subst isRunning
      have isEmpty : (k.setSlot k.running none).kthreads k.running = none :=
        Kernel.setSlot_same ..
      exact absurd (isEmpty.symm.trans isCurrent) nofun

/-- What a call of the scheduler does to the threads that wait: it may build
one, in memory that no thread has, and it leaves what is saved of the others
where it is. -/
theorem waiting_of_call {k k' : Kernel arch} (consistent : Consistent k) {event : Event arch}
    (stepped : step m k event = some k') (notSwitch : isSwitch event = false) {thread : KthreadPtr}
    (waiting : Waiting k' thread) :
    (Waiting k thread ∧ (k'.memory thread).cpuState = (k.memory thread).cpuState) ∨
      ∃ creation, event = .build creation ∧ creation.thread = some thread ∧ creation.stackBase ≠ 0 ∧
        thread ∉ k.held ∧
        (k'.memory thread).cpuState = (builtKthread m arch creation).cpuState := by
  rcases consistent.outcome stepped with ⟨notExiting, outcome⟩
  rcases waiting with ⟨known, notCurrent⟩
  cases outcome with
  | unbuilt creation other content fresh noStack =>
      have before : Waiting k thread := ⟨known, notCurrent⟩
      have different : thread ≠ other := by
        rintro rfl
        exact fresh (before.held consistent)
      exact Or.inl ⟨before, by rw [Kernel.setKthread_of_ne k content different]⟩
  | noThread creation isNull =>
      refine Or.inl ⟨⟨known.imp_right fun isPending => ?_, notCurrent⟩, rfl⟩
      exact (List.mem_cons.mp isPending).resolve_left nofun
  | built creation other isThread hasStack fresh =>
      by_cases same : thread = other
      · subst same
        exact Or.inr ⟨creation, rfl, isThread, hasStack, fresh,
          congrArg Kthread.cpuState
            (Kernel.setKthread_same k thread (builtKthread m arch creation))⟩
      · refine Or.inl ⟨⟨known.imp_right fun isPending => ?_, notCurrent⟩,
          congrArg Kthread.cpuState (Kernel.setKthread_of_ne k (builtKthread m arch creation) same)⟩
        exact (List.mem_cons.mp isPending).resolve_left fun isOther =>
          same (Option.some.inj isOther)
  | added other isPending slot isEmpty =>
      rcases consistent.current.mp notExiting with ⟨c, isCurrent⟩
      have notRunning : k.running ≠ slot := by
        rintro rfl
        rw [runQueueCurrent, isEmpty] at isCurrent
        cases isCurrent
      have current : runQueueCurrent k ≠ some thread := by
        rw [runQueueCurrent, ← Kernel.setSlot_of_ne k other notRunning]
        exact notCurrent
      refine Or.inl ⟨⟨?_, current⟩, rfl⟩
      rcases known with ⟨place, isPlace⟩ | isRemaining
      · by_cases same : place = slot
        · subst same
          have isThread : other = some thread :=
            (Kernel.setSlot_same k place other).symm.trans isPlace
          exact Or.inr (isThread ▸ isPending)
        · exact Or.inl ⟨place, (Kernel.setSlot_of_ne k other same).symm.trans isPlace⟩
      · exact Or.inr (List.mem_of_mem_erase isRemaining)
  | full other isPending =>
      exact Or.inl ⟨⟨known.imp_right List.mem_of_mem_erase, notCurrent⟩, rfl⟩
  | slept systemTime ts _ same sameRunning =>
      refine Or.inl ⟨⟨?_, ?_⟩, same.cpuState thread⟩
      · rwa [same.kthreads, same.pending] at known
      · rwa [runQueueCurrent, same.kthreads, sameRunning] at notCurrent
  | switched => cases notSwitch
  | exited c isCurrent notIdle slot isSlot content =>
      have isRunning : slot = k.running := consistent.distinct slot _ c isSlot isCurrent
      have known' : (∃ slot, k.kthreads slot = some thread) ∨ some thread ∈ k.pending := by
        rcases known with ⟨place, isPlace⟩ | isPending
        · by_cases same : place = slot
          · subst same
            exact absurd ((Kernel.setSlot_same k place none).symm.trans isPlace) nofun
          · exact Or.inl ⟨place, (Kernel.setSlot_of_ne k none same).symm.trans isPlace⟩
        · exact Or.inr isPending
      have different : thread ≠ c := by
        rintro rfl
        rcases known with ⟨place, isPlace⟩ | isPending
        · by_cases same : place = slot
          · subst same
            exact absurd ((Kernel.setSlot_same k place none).symm.trans isPlace) nofun
          · exact same (consistent.distinct place slot _
              ((Kernel.setSlot_of_ne k none same).symm.trans isPlace) isSlot)
        · exact consistent.pending_out slot _ isPending isSlot
      refine Or.inl ⟨⟨known', ?_⟩,
        congrArg Kthread.cpuState (Kernel.setKthread_of_ne (k.setSlot slot none) content different)⟩
      rw [isCurrent]
      exact fun same => different (Option.some.inj same).symm

/-- What a switch does to them: the interrupted thread begins to wait with the
interrupted state, and the next thread goes on with what it was saved with. -/
theorem waiting_of_switch {k k' : Kernel arch} {interrupt : Interrupt arch}
    {cpuState : arch.CpuState} (switched : _archIrqTaskSwitch k interrupt = some (cpuState, k')) :
    ∃ c n, runQueueCurrent k = some c ∧ runQueueCurrent k' = some n ∧
      ((n = c ∧ cpuState = interrupt.cpuState) ∨ (Waiting k n ∧ cpuState = (k.memory n).cpuState)) ∧
      ∀ thread, Waiting k' thread →
        (thread = c ∧ (k'.memory thread).cpuState = interrupt.cpuState) ∨
          (Waiting k thread ∧ (k'.memory thread).cpuState = (k.memory thread).cpuState) := by
  rcases _archIrqTaskSwitch_eq_some switched with ⟨c, n, k₁, isCurrent, isNext, same, result⟩
  rcases _switch_spec k₁ c n interrupt.cpuState with ⟨writes, keeps, resumes⟩
  have kernel : k' = (_switch k₁ c n interrupt.cpuState).2 := congrArg Prod.snd result
  have state : cpuState = (_switch k₁ c n interrupt.cpuState).1 := congrArg Prod.fst result
  have kthreads : k'.kthreads = k.kthreads := by
    rw [kernel]
    exact same.kthreads
  have pending : k'.pending = k.pending := by
    rw [kernel]
    exact same.pending
  refine ⟨c, n, isCurrent, ?_, ?_, fun thread waiting => ?_⟩
  · rw [kernel]
    change k₁.kthreads k₁.running = some n
    rw [same.kthreads]
    exact isNext
  · by_cases isSame : c = n
    · rw [if_pos isSame] at resumes
      exact Or.inl ⟨isSame.symm, state.trans resumes⟩
    · rw [if_neg isSame, same.cpuState] at resumes
      refine Or.inr ⟨⟨Or.inl ⟨_, isNext⟩, ?_⟩, state.trans resumes⟩
      rw [isCurrent]
      exact fun equal => isSame (Option.some.inj equal)
  · by_cases isInterrupted : thread = c
    · subst isInterrupted
      exact Or.inl ⟨rfl, by rw [kernel, writes]⟩
    · have known := waiting.known
      rw [kthreads, pending] at known
      refine Or.inr ⟨⟨known, ?_⟩, by rw [kernel, keeps thread isInterrupted, same.cpuState]⟩
      rw [isCurrent]
      exact fun equal => isInterrupted (Option.some.inj equal).symm

end Sched
end ShovelOS
