import ShovelOS.Machine
import ShovelOS.Library.CyclicScan

namespace ShovelOS
namespace Sched

open CyclicScan

/-!
# Kernel threads and the run queue (`sched/sched.c`)

The run queue holds pointers to at most 32 threads and the index of the
running one.  Slot zero is the idle task.  Threads are objects in memory
that the pointers reach, so a thread is changed through its pointer and the
slots keep their contents.  A null pointer is an empty slot.

The saved CPU state is opaque to the scheduler.  An architecture supplies
its type, the value in zeroed memory, and what `cpu_state_build` makes of it.

`_BUG` stops the machine for good, so a function that may call it has no
value in that case.
-/

/-- What the scheduler uses of an architecture.  `exitedKthread` is the
address at which a start routine returns. -/
structure Arch where
  CpuState : Type
  zeroed : CpuState
  cpuStateBuild : CpuState → (startRoutine args stack endRoutine : Nat) → CpuState
  exitedKthread : Nat

structure Timespec where
  seconds : UInt32
  nanoseconds : UInt32
  deriving DecidableEq, Repr

def compareSystemTime (ts0 ts1 : Timespec) : Int :=
  if ts0.seconds < ts1.seconds then -1
  else if ts0.seconds > ts1.seconds then 1
  else if ts0.nanoseconds < ts1.nanoseconds then -1
  else if ts0.nanoseconds > ts1.nanoseconds then 1
  else 0

def addSystemTime (accum add : Timespec) : Timespec :=
  let nanoseconds := accum.nanoseconds + add.nanoseconds
  ⟨accum.seconds + add.seconds + nanoseconds / 1000000000, nanoseconds % 1000000000⟩

structure Stack where
  stackBase : Nat
  stackSize : Nat
  deriving DecidableEq, Repr

def kthreadJoinable : UInt32 := 1

def kthreadSleepUntilTime : UInt32 := 2

structure Kthread (arch : Arch) where
  cpuState : arch.CpuState
  stack : Stack
  flags : UInt32
  sleepUntilTime : Timespec

/-- A thread in memory that `kmalloc` has just zeroed. -/
def Kthread.zeroed (arch : Arch) : Kthread arch := ⟨arch.zeroed, ⟨0, 0⟩, 0, ⟨0, 0⟩⟩

abbrev KthreadPtr := Nat

/-- The run queue has 32 slots. -/
instance slots_neZero : NeZero (32 : Nat) := ⟨by decide⟩

/-- The run queue and the threads.  `held` are the threads whose memory has
been obtained and not been given back.  `pending` are the results of
`_kthread_create` that `kthread_create` has not added to the queue yet, and
`exiting` says that the running thread is in `_exited_kthread`. -/
structure Kernel (arch : Arch) where
  kthreads : Fin 32 → Option KthreadPtr
  running : Fin 32
  schedTime : Timespec
  memory : KthreadPtr → Kthread arch
  held : List KthreadPtr
  pending : List (Option KthreadPtr)
  exiting : Bool

variable {arch : Arch}

namespace Kernel

def setKthread (k : Kernel arch) (pointer : KthreadPtr) (thread : Kthread arch) : Kernel arch :=
  { k with memory := fun other => if other = pointer then thread else k.memory other }

def setSlot (k : Kernel arch) (slot : Fin 32) (pointer : Option KthreadPtr) : Kernel arch :=
  { k with kthreads := fun other => if other = slot then pointer else k.kthreads other }

@[simp] theorem setKthread_same (k : Kernel arch) (pointer : KthreadPtr) (thread : Kthread arch) :
    (k.setKthread pointer thread).memory pointer = thread := if_pos rfl

theorem setKthread_of_ne (k : Kernel arch) {pointer other : KthreadPtr} (thread : Kthread arch)
    (different : other ≠ pointer) : (k.setKthread pointer thread).memory other = k.memory other :=
  if_neg different

@[simp] theorem setSlot_same (k : Kernel arch) (slot : Fin 32) (pointer : Option KthreadPtr) :
    (k.setSlot slot pointer).kthreads slot = pointer := if_pos rfl

theorem setSlot_of_ne (k : Kernel arch) {slot other : Fin 32} (pointer : Option KthreadPtr)
    (different : other ≠ slot) : (k.setSlot slot pointer).kthreads other = k.kthreads other :=
  if_neg different

end Kernel

/-! ## Choosing the next thread -/

/-- `_is_runnable`: a thread whose time has come is woken on the way. -/
def _isRunnable (k : Kernel arch) (th : Option KthreadPtr) : Bool × Kernel arch :=
  match th with
  | none => (false, k)
  | some th =>
      let thread := k.memory th
      if thread.flags = 0 then (true, k)
      else if thread.flags &&& kthreadSleepUntilTime ≠ 0 ∧
          compareSystemTime k.schedTime thread.sleepUntilTime ≥ 0 then
        (true, k.setKthread th { thread with flags := thread.flags &&& ~~~kthreadSleepUntilTime })
      else (false, k)

/-- The body of the loop of `run_queue_next`: take the slot if it is not the
idle task's and its thread is runnable. -/
def tryNext (k : Kernel arch) (running : Fin 32) : Option (KthreadPtr × Kernel arch) :=
  if running ≠ 0 then
    let (runnable, k') := _isRunnable k (k.kthreads running)
    if runnable then (k.kthreads running).map fun next => (next, { k' with running := running })
    else none
  else none

/-- The idle task, which has to exist. -/
def idleNext (k : Kernel arch) : Option (KthreadPtr × Kernel arch) :=
  (k.kthreads 0).map fun idle => (idle, { k with running := 0 })

/-- The loop of `run_queue_next`, for at most so many iterations. -/
def runQueueNextFrom (k : Kernel arch) (current : Fin 32) :
    Nat → Fin 32 → Option (KthreadPtr × Kernel arch)
  | 0, _running => none
  | remaining + 1, running =>
      match tryNext k (running + 1) with
      | some next => some next
      | none =>
          if running + 1 = current then idleNext k
          else runQueueNextFrom k current remaining (running + 1)

/-- `run_queue_next`.  The scan is back at the current index after as many
iterations as there are slots. -/
def runQueueNext (k : Kernel arch) : Option (KthreadPtr × Kernel arch) :=
  runQueueNextFrom k k.running 32 k.running

def runQueueCurrent (k : Kernel arch) : Option KthreadPtr := k.kthreads k.running

/-! ## Adding and removing threads -/

/-- The first slot that satisfies the predicate. -/
def firstSlot (p : Fin 32 → Bool) : Option (Fin 32) := (List.finRange 32).find? p

/-- `run_queue_add`: fill the first empty slot, with a null pointer too. -/
def runQueueAdd (k : Kernel arch) (kthread : Option KthreadPtr) : Int × Kernel arch :=
  match firstSlot fun slot => (k.kthreads slot).isNone with
  | some slot => (0, k.setSlot slot kthread)
  | none => (-1, k)

def runQueueRemove (k : Kernel arch) (kthread : KthreadPtr) : Int × Kernel arch :=
  match firstSlot fun slot => k.kthreads slot = some kthread with
  | some slot => (0, k.setSlot slot none)
  | none => (-1, k)

/-! ## What a scan changes -/

/-- Two kernels with the same slots and the same saved states.  Flags, the
running index and the time may differ. -/
structure SameThreads (k k' : Kernel arch) : Prop where
  kthreads : k'.kthreads = k.kthreads
  cpuState : ∀ thread, (k'.memory thread).cpuState = (k.memory thread).cpuState
  held : k'.held = k.held
  pending : k'.pending = k.pending
  exiting : k'.exiting = k.exiting

theorem SameThreads.refl (k : Kernel arch) : SameThreads k k :=
  ⟨rfl, fun _thread => rfl, rfl, rfl, rfl⟩

theorem _isRunnable_sameThreads (k : Kernel arch) (th : Option KthreadPtr) :
    SameThreads k (_isRunnable k th).2 := by
  unfold _isRunnable
  cases th with
  | none => exact SameThreads.refl k
  | some th =>
      dsimp only
      split
      · exact SameThreads.refl k
      · split
        · refine ⟨rfl, fun thread => ?_, rfl, rfl, rfl⟩
          by_cases same : thread = th
          · subst same
            simp only [Kernel.setKthread_same]
          · simp only [Kernel.setKthread_of_ne k _ same]
        · exact SameThreads.refl k

/-- A chosen slot is not the idle task's, and holds the thread returned. -/
theorem tryNext_eq_some {k k' : Kernel arch} {slot : Fin 32} {next : KthreadPtr}
    (chosen : tryNext k slot = some (next, k')) :
    slot ≠ 0 ∧ k'.running = slot ∧ k.kthreads slot = some next ∧ SameThreads k k' := by
  unfold tryNext at chosen
  split at chosen
  · rename_i notIdle
    dsimp only at chosen
    split at chosen
    · rcases Option.map_eq_some_iff.mp chosen with ⟨thread, isThread, same⟩
      rcases Prod.mk.inj same with ⟨rfl, rfl⟩
      have kept := _isRunnable_sameThreads k (k.kthreads slot)
      exact ⟨notIdle, rfl, isThread, kept.kthreads, kept.cpuState, kept.held, kept.pending,
        kept.exiting⟩
    · cases chosen
  · cases chosen

theorem tryNext_ready {k : Kernel arch} {slot : Fin 32} {thread : KthreadPtr} (notIdle : slot ≠ 0)
    (isThread : k.kthreads slot = some thread) (ready : (k.memory thread).flags = 0) :
    tryNext k slot = some (thread, { k with running := slot }) := by
  unfold tryNext _isRunnable
  simp only [isThread, ready, if_pos notIdle, if_true, Option.map_some]

/-- The scan returns the thread of the slot that it makes the running one. -/
theorem runQueueNextFrom_eq_some {k k' : Kernel arch} {current : Fin 32} {remaining : Nat}
    {running : Fin 32} {next : KthreadPtr}
    (chosen : runQueueNextFrom k current remaining running = some (next, k')) :
    k.kthreads k'.running = some next ∧ SameThreads k k' := by
  induction remaining generalizing running with
  | zero => cases chosen
  | succ remaining inductionHypothesis =>
      unfold runQueueNextFrom at chosen
      split at chosen
      · rename_i found
        rw [chosen] at found
        rcases tryNext_eq_some found with ⟨_, sameSlot, isThread, kept⟩
        rw [sameSlot]
        exact ⟨isThread, kept⟩
      · split at chosen
        · rcases Option.map_eq_some_iff.mp chosen with ⟨idle, isIdle, same⟩
          rcases Prod.mk.inj same with ⟨rfl, rfl⟩
          exact ⟨isIdle, rfl, fun _thread => rfl, rfl, rfl, rfl⟩
        · exact inductionHypothesis chosen

theorem runQueueNext_eq_some {k k' : Kernel arch} {next : KthreadPtr}
    (chosen : runQueueNext k = some (next, k')) :
    k.kthreads k'.running = some next ∧ SameThreads k k' :=
  runQueueNextFrom_eq_some chosen

end Sched
end ShovelOS
