import ShovelOS.Sched.RunQueue
import ShovelOS.Library.Transition

namespace ShovelOS
namespace Sched

/-!
# Threads, interrupts and runs (`sched/sched.c`, `sched/sched_sleep.c`)

The parts of the scheduler that run without being interrupted are the steps
of a run.  `kthread_create` makes two of them, since only its call of
`run_queue_add` is in a critical section: a switch may come between the
building of a thread and its insertion.  `kthread_sleep_ts` marks the thread
in a critical section and then yields.  A yield and a timer interrupt are
the same step, a call of `_arch_irq_task_switch`.  A thread whose start
routine returns enters `_exited_kthread`; nothing else of that thread can
follow, so that the next step is a switch.

What the environment supplies stands in the step: the addresses that the
memory allocators return, the time, the interrupted CPU state, the first
byte of the stack and the result of the timer.  `kmalloc` does not return a
thread that is still held.
-/

variable (m : Machine) {arch : Arch}

/-! ## Stacks -/

/-- `_pages` of `memory/stack.c`, where the sum may wrap. -/
def stackPages (size : Nat) : Nat := (size + (m.pageSize - 1)) % m.wordLimit / m.pageSize

/-- `stack_alloc` with the result of `get_free_pages`; the flag says whether
it returned the stack. -/
def stackAlloc (size stackBase : Nat) : Bool × Stack :=
  (stackBase ≠ 0, ⟨stackBase, stackPages m size * m.pageSize⟩)

def stackTop (ss : Stack) : Nat := if ss.stackBase ≠ 0 then ss.stackBase + ss.stackSize else 0

/-- `stack_check`, given the byte at the base of the stack. -/
def stackCheck (ss : Stack) (firstByte : UInt8) : Int :=
  if ss.stackBase ≠ 0 ∧ firstByte ≠ 0xFF then -1 else 0

/-! ## Creating a thread -/

/-- A call of `kthread_create`, with what `kmalloc` and `get_free_pages`
return for the thread and its stack. -/
structure Creation where
  thread : Option KthreadPtr
  stackBase : Nat
  startRoutine : Nat
  args : Nat
  deriving DecidableEq, Repr

/-- The thread that `_kthread_create` leaves in its memory on success. -/
def builtKthread (arch : Arch) (creation : Creation) : Kthread arch :=
  let ss := (stackAlloc m 1024 creation.stackBase).2
  { Kthread.zeroed arch with
    stack := ss
    cpuState := arch.cpuStateBuild arch.zeroed creation.startRoutine creation.args (stackTop ss)
      arch.exitedKthread }

/-- `_kthread_create`: the error code, the pointer that is stored for the
caller, and the kernel.  Without memory for the thread it reports success
and stores the null pointer. -/
def _kthreadCreate (k : Kernel arch) (creation : Creation) :
    Int × Option KthreadPtr × Kernel arch :=
  match creation.thread with
  | none => (0, none, k)
  | some thread =>
      if (stackAlloc m 1024 creation.stackBase).1 then
        (0, some thread,
          { k.setKthread thread (builtKthread m arch creation) with held := thread :: k.held })
      else
        (-1, none, k.setKthread thread { Kthread.zeroed arch with
          stack := (stackAlloc m 1024 creation.stackBase).2 })

/-- `kthread_create` up to its critical section. -/
def kthreadBuild (k : Kernel arch) (creation : Creation) : Kernel arch :=
  let (err, thread, k) := _kthreadCreate m k creation
  if err ≠ 0 then k else { k with pending := thread :: k.pending }

/-- `kthread_create` from its critical section on: add the thread, or free
it when the queue is full. -/
def kthreadAdd (k : Kernel arch) (thread : Option KthreadPtr) : Kernel arch :=
  let k := { k with pending := k.pending.erase thread }
  let (rqa, k) := runQueueAdd k thread
  if rqa ≠ 0 then
    match thread with
    | some thread => { k with held := k.held.erase thread }
    | none => k
  else k

/-! ## Sleeping and exiting -/

/-- The critical section of `kthread_sleep_ts`. -/
def kthreadSleepTs (k : Kernel arch) (systemTime ts : Timespec) : Kernel arch :=
  match runQueueCurrent k with
  | some thr =>
      let thread := k.memory thr
      k.setKthread thr { thread with
        flags := thread.flags ||| kthreadSleepUntilTime
        sleepUntilTime := addSystemTime systemTime ts }
  | none => k

/-- The critical section of `_exited_kthread`. -/
def _exitedKthread (k : Kernel arch) : Option (Kernel arch) :=
  if k.running = 0 then none
  else match runQueueCurrent k with
    | some c =>
        let k := (runQueueRemove k c).2
        let thread := k.memory c
        some { k.setKthread c
          { thread with flags := thread.flags ||| kthreadJoinable } with exiting := true }
    | none => some { k with exiting := true }

/-! ## Switching -/

/-- A call of `_arch_irq_task_switch`: the new time if it can be read, the
interrupted CPU state, the byte at the base of the interrupted stack, and
the result of starting the timer. -/
structure Interrupt (arch : Arch) where
  now : Option Timespec
  cpuState : arch.CpuState
  firstByte : UInt8
  oneshot : Int

/-- `_switch`: the CPU state that is left for the return from the interrupt,
and the kernel. -/
def _switch (k : Kernel arch) (source target : KthreadPtr) (cpuState : arch.CpuState) :
    arch.CpuState × Kernel arch :=
  let k := k.setKthread source { k.memory source with cpuState := cpuState }
  (if source ≠ target then (k.memory target).cpuState else cpuState, k)

def _archIrqTaskSwitch (k : Kernel arch) (interrupt : Interrupt arch) :
    Option (arch.CpuState × Kernel arch) :=
  let k := { k with schedTime := interrupt.now.getD k.schedTime }
  match runQueueCurrent k, runQueueNext k with
  | some c, some (n, k) =>
      if stackCheck (k.memory c).stack interrupt.firstByte < 0 then none
      else if interrupt.oneshot ≠ 0 then none
      else some (_switch k c n interrupt.cpuState)
  | _, _ => none

/-! ## Runs -/

inductive Event (arch : Arch) where
  | build (creation : Creation)
  | add (thread : Option KthreadPtr)
  | sleep (systemTime ts : Timespec)
  | taskSwitch (interrupt : Interrupt arch)
  | exited

/-- One step.  The running thread makes no step of its own once it exits. -/
def step (k : Kernel arch) : Event arch → Option (Kernel arch)
  | .build creation =>
      if k.exiting = false ∧ ∀ thread ∈ creation.thread, thread ∉ k.held then
        some (kthreadBuild m k creation)
      else none
  | .add thread =>
      if k.exiting = false ∧ thread ∈ k.pending then some (kthreadAdd k thread) else none
  | .sleep systemTime ts =>
      if k.exiting = false then some (kthreadSleepTs k systemTime ts) else none
  | .taskSwitch interrupt => (_archIrqTaskSwitch k interrupt).map fun (_cpuState, k) => k
  | .exited => if k.exiting = false then _exitedKthread k else none

/-- What `kthread_init` obtains: the boot thread and its stack, and the idle
thread with memory of its own. -/
structure Boot where
  bootThread : KthreadPtr
  ss : Stack
  idleThread : KthreadPtr
  idleStackBase : Nat
  idleTask : Nat
  different : idleThread ≠ bootThread
  obtained : idleStackBase ≠ 0

/-- The kernel that `kthread_init` sets up before its first yield: the boot
thread runs in slot one, and its saved state is still zero. -/
def Boot.kernel (boot : Boot) (arch : Arch) : Kernel arch :=
  let k : Kernel arch :=
    { kthreads := fun slot => if slot = 1 then some boot.bootThread else none
      running := 1
      schedTime := ⟨0, 0⟩
      memory := fun _thread => Kthread.zeroed arch
      held := [boot.bootThread]
      pending := []
      exiting := false }
  let k := k.setKthread boot.bootThread { Kthread.zeroed arch with stack := boot.ss }
  let (_err, idle, k) :=
    _kthreadCreate m k ⟨some boot.idleThread, boot.idleStackBase, boot.idleTask, 0⟩
  k.setSlot 0 idle

/-! ## An architecture -/

/-- `struct cpu_state_struct` of `arch/arm_a`. -/
structure ArmCpuState where
  cpsr : UInt32
  pc : UInt32
  sp : UInt32
  lr : UInt32
  r : Fin 13 → UInt32

/-- `cpu_state_build` of `arch/arm_a`: supervisor mode, little-endian, with
asynchronous aborts masked. -/
def ArmCpuState.build (cpuss : ArmCpuState) (start args stack endRoutine : Nat) : ArmCpuState where
  cpsr := (19 : UInt32) ||| (0 : UInt32) <<< 9 ||| (1 : UInt32) <<< 8
  pc := UInt32.ofNat start + 4
  sp := UInt32.ofNat stack
  lr := UInt32.ofNat endRoutine
  r := fun register => if register = 0 then UInt32.ofNat args else cpuss.r register

/-- The ARMv7-A port, with the address of `_exited_kthread`. -/
def armA (exited : Nat) : Arch where
  CpuState := ArmCpuState
  zeroed := ⟨0, 0, 0, 0, fun _register => 0⟩
  cpuStateBuild := ArmCpuState.build
  exitedKthread := exited

end Sched
end ShovelOS
