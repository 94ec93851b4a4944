import ShovelOS.Context.Stacked
import ShovelOS.Library.Observation
import ShovelOS.Library.Processors
import ShovelOS.Sched.Waiting

namespace ShovelOS
namespace Context
namespace Stacked

open Sched Transition

/-!
# Threads that share one memory

The processor of the ARMv6-M port together with the scheduler.  What is kept
of a thread that waits is on its stack, in memory that everything else can
write to.  The steps therefore ask that nothing writes to the words of a
thread that waits; what the routines push on the stack of the running thread
must find room there as well.
-/

variable (m : Machine) {exited : Nat}

/-- The ARMv6-M port, with the address of `_exited_kthread`. -/
def armM (exited : Nat) : Arch where
  CpuState := UInt32
  zeroed := 0
  cpuStateBuild := fun _cpuss _start _args stack _endRoutine => UInt32.ofNat stack - (32 + 36)
  exitedKthread := exited

structure System (exited : Nat) where
  cpu : Cpu
  kernel : Kernel (armM exited)

def savedAt (kernel : Kernel (armM exited)) (thread : KthreadPtr) : UInt32 :=
  (kernel.memory thread).cpuState

/-- Where the state of the interrupted thread begins. -/
def pointer (interrupt : Interrupt (armM exited)) : UInt32 := interrupt.cpuState

/-- The words of the threads that wait stay what they are. -/
def Spares (kernel : Kernel (armM exited)) (before after : UInt32 → UInt32) : Prop :=
  ∀ thread ∈ waitingThreads kernel, SameWords (savedAt kernel thread) before after

instance Spares.decidable (kernel : Kernel (armM exited)) (before after : UInt32 → UInt32) :
    Decidable (Spares kernel before after) :=
  inferInstanceAs (Decidable (∀ thread ∈ waitingThreads kernel, SameWords ..))

/-- What happens.  An interrupt or a supervisor call does not switch; only
`_PENDSV` does.  What C code makes of the memory stands in the event. -/
inductive SystemEvent (exited : Nat) where
  | compute (cpu : Cpu)
  | call (event : Event (armM exited))
  | interrupt (number : UInt32) (returned : Cpu)
  | pendSv (interrupt : Interrupt (armM exited)) (returned : Cpu)

/-- The stack of a new thread, as `cpu_state_build` writes it. -/
def buildStack (exited : Nat) (memory : UInt32 → UInt32) (creation : Creation) :
    Option (UInt32 × (UInt32 → UInt32)) :=
  cpuStateBuild memory (UInt32.ofNat creation.startRoutine) (UInt32.ofNat creation.args)
    (UInt32.ofNat (stackTop (stackAlloc m 1024 creation.stackBase).2)) (UInt32.ofNat exited)

/-- The call of the scheduler that builds a thread, if the allocations for it
succeed. -/
def building : Event (armM exited) → Option (KthreadPtr × Creation)
  | .build creation => if creation.stackBase ≠ 0 then creation.thread.map fun thread =>
      (thread, creation) else none
  | _ => none

/-- The memory behind a call of the scheduler. -/
def memoryAfter (memory : UInt32 → UInt32) (event : Event (armM exited)) :
    Option (UInt32 → UInt32) :=
  match building event with
  | some (_thread, creation) => (buildStack m exited memory creation).map Prod.snd
  | none => some memory

/-- Back from the C code: it leaves a pointer on the stack, and all that is
saved where it is. -/
def leave (kernel : Kernel (armM exited)) (captured returned : Cpu)
    (pointer : UInt32) : Option Cpu :=
  if returned.top 0 = pointer ∧ SameWords (captured.top 0) captured.memory returned.memory ∧
      Spares kernel captured.memory returned.memory then
    _irqTail returned
  else none

def systemStep (system : System exited) : SystemEvent exited → Option (System exited)
  | .compute cpu =>
      if cpu.xpsr &&& alignBit = 0 ∧ Spares system.kernel system.cpu.memory cpu.memory then
        some { system with cpu := cpu }
      else none
  | .call event =>
      if isSwitch event then none
      else (memoryAfter m system.cpu.memory event).bind fun memory =>
        if Spares system.kernel system.cpu.memory memory then
          (Sched.step m system.kernel event).map fun kernel =>
            ⟨{ system.cpu with memory := memory }, kernel⟩
        else none
  | .interrupt number returned =>
      let captured := saveState (system.cpu.takeException number)
      if Spares system.kernel system.cpu.memory captured.memory then
        (leave system.kernel captured returned (captured.top 0)).map fun cpu =>
          { system with cpu := cpu }
      else none
  | .pendSv interrupt returned =>
      let captured := saveState (system.cpu.takeException 14)
      if Spares system.kernel system.cpu.memory captured.memory ∧
          pointer interrupt = captured.top 0 then
        (_archIrqTaskSwitch system.kernel interrupt).bind fun (pointer, kernel) =>
          (leave system.kernel captured returned pointer).map fun cpu => ⟨cpu, kernel⟩
      else none

/-- What an event is for the threads. -/
def observe (system : System exited) (event : SystemEvent exited) :
    Option (Processors.Action KthreadPtr ThreadState) :=
  match event with
  | .compute cpu => some (.compute cpu.state)
  | .call event => (building event).bind fun (thread, creation) =>
      (buildStack m exited system.cpu.memory creation).map fun (sp, memory) =>
        .create thread (stateAt memory sp)
  | .interrupt _number _returned => none
  | .pendSv _interrupt _returned =>
      ((systemStep m system event).bind fun next => runQueueCurrent next.kernel).map .resume

/-! ## Each thread has a processor of its own -/

structure OnStack (memory : UInt32 → UInt32) (address : UInt32) (state : ThreadState) : Prop where
  suspended : Suspended memory address state
  reserved : state.xpsr &&& alignBit = 0

/-- The system shows the threads: the processor is that of the running thread,
and those that wait are on their stacks. -/
structure Shows (system : System exited)
    (threads : Processors.State KthreadPtr ThreadState) : Prop where
  consistent : Consistent system.kernel
  reserved : system.cpu.xpsr &&& alignBit = 0
  current : ∀ c, runQueueCurrent system.kernel = some c → threads.running = c
  apart : ∀ thread, Waiting system.kernel thread → thread ≠ threads.running
  here : threads.processors threads.running = some system.cpu.state
  away : ∀ thread, Waiting system.kernel thread → ∃ state, threads.processors thread = some state ∧
    OnStack system.cpu.memory (savedAt system.kernel thread) state

section Steps

variable {m} {system next : System exited} {threads : Processors.State KthreadPtr ThreadState}

/-- What spares the threads that wait leaves them on their stacks. -/
theorem Spares.onStack {kernel : Kernel (armM exited)} {before after : UInt32 → UInt32}
    (spares : Spares kernel before after)
    {thread : KthreadPtr} (waiting : Waiting kernel thread) {state : ThreadState}
    (onStack : OnStack before (savedAt kernel thread) state) :
    OnStack after (savedAt kernel thread) state :=
  ⟨onStack.suspended.of_words (spares thread (mem_waitingThreads.mpr waiting)), onStack.reserved⟩

/-- The running thread when its state has been pushed. -/
theorem Shows.captured (shows : Shows system threads) (number : UInt32) :
    OnStack (saveState (system.cpu.takeException number)).memory
      ((saveState (system.cpu.takeException number)).top 0) system.cpu.state := by
  rw [saveState_top]
  exact ⟨saveState_suspended shows.reserved number, shows.reserved⟩

theorem OnStack.leave {kernel : Kernel (armM exited)} {captured returned cpu : Cpu}
    {address : UInt32} {state : ThreadState}
    (onStack : OnStack captured.memory address state)
    (left : leave kernel captured returned address = some cpu)
    (saved : address = captured.top 0 ∨ ∃ thread, Waiting kernel thread ∧
      address = savedAt kernel thread) :
    cpu.state = state ∧ cpu.xpsr &&& alignBit = 0 ∧ cpu.memory = returned.memory ∧
      SameWords (captured.top 0) captured.memory cpu.memory ∧
      Spares kernel captured.memory cpu.memory := by
  rcases Option.ite_none_right_eq_some.mp left with ⟨⟨isPointer, own, spares⟩, result⟩
  have still : Suspended returned.memory address state := by
    rcases saved with rfl | ⟨thread, waiting, rfl⟩
    · exact onStack.suspended.of_words own
    · exact (spares.onStack waiting onStack).suspended
  rw [← isPointer] at still
  rcases still.resumes result with ⟨isState, contents⟩
  rw [contents]
  refine ⟨isState, ?_, rfl, own, spares⟩
  have status := congrArg ThreadState.xpsr isState
  rw [show cpu.xpsr = state.xpsr from status]
  exact onStack.reserved

theorem Shows.compute (shows : Shows system threads) {cpu : Cpu}
    (reserved : cpu.xpsr &&& alignBit = 0)
    (spares : Spares system.kernel system.cpu.memory cpu.memory) :
    Shows { system with cpu := cpu }
      { threads with
        processors := Function.update threads.processors threads.running (some cpu.state) } := by
  refine ⟨shows.consistent, reserved, shows.current, shows.apart, Function.update_self ..,
    fun thread waiting => ?_⟩
  rcases shows.away thread waiting with ⟨state, found, onStack⟩
  refine ⟨state, ?_, spares.onStack waiting onStack⟩
  exact (Function.update_of_ne (shows.apart thread waiting) ..).trans found

theorem Shows.interrupt (shows : Shows system threads) {number : UInt32} {returned : Cpu}
    (stepped : systemStep m system (.interrupt number returned) = some next) :
    Shows next threads := by
  rcases Option.ite_none_right_eq_some.mp stepped with ⟨room, left⟩
  rcases Option.map_eq_some_iff.mp left with ⟨cpu, isLeft, rfl⟩
  rcases (shows.captured number).leave isLeft (Or.inl rfl) with ⟨state, reserved, _, _, spares⟩
  refine ⟨shows.consistent, reserved, shows.current, shows.apart,
    shows.here.trans (congrArg some state.symm), ?_⟩
  intro thread waiting
  rcases shows.away thread waiting with ⟨state, found, onStack⟩
  exact ⟨state, found, spares.onStack waiting (room.onStack waiting onStack)⟩

theorem Shows.pendSv (shows : Shows system threads) {interrupt : Interrupt (armM exited)}
    {returned : Cpu} (stepped : systemStep m system (.pendSv interrupt returned) = some next) :
    ∃ n, runQueueCurrent next.kernel = some n ∧ (threads.processors n).isSome ∧
      Shows next { threads with running := n } := by
  rcases Option.ite_none_right_eq_some.mp stepped with ⟨⟨room, isPointer⟩, switched⟩
  rcases Option.bind_eq_some_iff.mp switched with ⟨⟨address, kernel⟩, exchanged, left⟩
  rcases Option.map_eq_some_iff.mp left with ⟨cpu, isLeft, rfl⟩
  rcases waiting_of_switch exchanged with ⟨c, n, isCurrent, isNext, resumed, waits⟩
  have running := shows.current c isCurrent
  have captured := shows.captured 14
  -- The running thread is now on its stack, like the others.
  have pushed : ∀ thread, Waiting system.kernel thread →
      ∃ state, threads.processors thread = some state ∧
      OnStack (saveState (system.cpu.takeException 14)).memory
        (savedAt system.kernel thread) state := by
    intro thread waiting
    rcases shows.away thread waiting with ⟨state, found, onStack⟩
    exact ⟨state, found, room.onStack waiting onStack⟩
  have next : ∃ state, threads.processors n = some state ∧
      OnStack (saveState (system.cpu.takeException 14)).memory address state ∧
      (address = (saveState (system.cpu.takeException 14)).top 0 ∨
        ∃ thread, Waiting system.kernel thread ∧ address = savedAt system.kernel thread) := by
    rcases resumed with ⟨rfl, same⟩ | ⟨waiting, same⟩
    · have isTop : address = (saveState (system.cpu.takeException 14)).top 0 := same.trans isPointer
      exact ⟨_, running ▸ shows.here, isTop ▸ captured, Or.inl isTop⟩
    · rcases pushed n waiting with ⟨state, found, onStack⟩
      exact ⟨state, found, same ▸ onStack, Or.inr ⟨n, waiting, same⟩⟩
  rcases next with ⟨state, found, onStack, saved⟩
  rcases onStack.leave isLeft saved with ⟨isState, reserved, _, own, spares⟩
  refine ⟨n, isNext, by rw [found]; rfl, ?_⟩
  have stepped : Sched.step m system.kernel (.taskSwitch interrupt) = some kernel := by
    rw [Sched.step, exchanged]
    rfl
  refine ⟨shows.consistent.step stepped, reserved,
    fun other isOther => Option.some.inj (isNext.symm.trans isOther),
    fun thread waiting => ?_, found.trans (congrArg some isState.symm), fun thread waiting => ?_⟩
  · rintro rfl
    exact waiting.notCurrent isNext
  · rcases waits thread waiting with ⟨rfl, isSaved⟩ | ⟨before, isSaved⟩
    · have isTop : savedAt kernel thread = (saveState (system.cpu.takeException 14)).top 0 :=
        isSaved.trans isPointer
      refine ⟨_, running ▸ shows.here, ?_⟩
      rw [isTop]
      exact ⟨captured.suspended.of_words own, captured.reserved⟩
    · rcases pushed thread before with ⟨state, isState, onStack⟩
      refine ⟨state, isState, ?_⟩
      rw [show savedAt kernel thread = savedAt system.kernel thread from isSaved]
      exact spares.onStack before onStack

theorem building_eq_some {event : Event (armM exited)} {thread : KthreadPtr} {creation : Creation}
    (isBuilding : building event = some (thread, creation)) :
    event = .build creation ∧ creation.thread = some thread ∧ creation.stackBase ≠ 0 := by
  cases event with
  | build other =>
      rcases Option.ite_none_right_eq_some.mp isBuilding with ⟨hasStack, isThread⟩
      rcases Option.map_eq_some_iff.mp isThread with ⟨_, isSome, same⟩
      cases same
      exact ⟨rfl, isSome, hasStack⟩
  | add | sleep | taskSwitch | exited => cases isBuilding

theorem building_build {creation : Creation} {thread : KthreadPtr}
    (isThread : creation.thread = some thread) (hasStack : creation.stackBase ≠ 0) :
    building (.build creation : Event (armM exited)) = some (thread, creation) := by
  rw [building, if_pos hasStack, isThread, Option.map_some]

theorem buildStack_onStack {memory built : UInt32 → UInt32} {creation : Creation} {sp : UInt32}
    (isBuilt : buildStack m exited memory creation = some (sp, built)) :
    (builtKthread m (armM exited) creation).cpuState = sp ∧
      OnStack built sp (stateAt built sp) := by
  rcases cpuStateBuild_suspended isBuilt with ⟨isPointer, suspended, starts⟩
  refine ⟨isPointer.symm, suspended, ?_⟩
  rw [starts.thumb]
  decide

/-- A call of the scheduler gives a processor to a thread that it builds. -/
theorem Shows.call (shows : Shows system threads) {event : Event (armM exited)}
    (stepped : systemStep m system (.call event) = some next) :
    ∃ threads', Answers Processors.step (observe m system (.call event)) threads threads' ∧
      Shows next threads' := by
  rcases Option.ite_none_left_eq_some.mp stepped with ⟨notSwitch, called⟩
  rw [Bool.not_eq_true] at notSwitch
  rcases Option.bind_eq_some_iff.mp called with ⟨memory, isMemory, result⟩
  rcases Option.ite_none_right_eq_some.mp result with ⟨spares, scheduled⟩
  rcases Option.map_eq_some_iff.mp scheduled with ⟨kernel, kernelStep, rfl⟩
  have consistent := shows.consistent
  have current : ∀ c, runQueueCurrent kernel = some c → threads.running = c := fun c isCurrent =>
    shows.current c (current_of_call consistent kernelStep notSwitch isCurrent)
  have waits : ∀ thread, Waiting kernel thread → _ := fun _thread waiting =>
    waiting_of_call consistent kernelStep notSwitch waiting
  -- A thread that already waited is where it was.
  have remains : ∀ thread, Waiting system.kernel thread →
      savedAt kernel thread = savedAt system.kernel thread →
      ∃ state, threads.processors thread = some state ∧
        OnStack memory (savedAt kernel thread) state := by
    intro thread waiting same
    rcases shows.away thread waiting with ⟨state, found, onStack⟩
    rw [same]
    exact ⟨state, found, spares.onStack waiting onStack⟩
  cases isBuilding : building event with
  | none =>
      refine ⟨threads, ?_, consistent.step kernelStep, shows.reserved, current, ?_, shows.here, ?_⟩
      · rw [observe, isBuilding]
        rfl
      · intro thread waiting
        rcases waits thread waiting with ⟨before, _⟩ | ⟨creation, rfl, isThread, hasStack, _⟩
        · exact shows.apart thread before
        · exact absurd ((building_build isThread hasStack).symm.trans isBuilding) nofun
      · intro thread waiting
        rcases waits thread waiting with ⟨before, same⟩ | ⟨creation, rfl, isThread, hasStack, _⟩
        · exact remains thread before same
        · exact absurd ((building_build isThread hasStack).symm.trans isBuilding) nofun
  | some built =>
      rcases built with ⟨thread, creation⟩
      rcases building_eq_some isBuilding with ⟨rfl, isThread, hasStack⟩
      rw [memoryAfter, isBuilding] at isMemory
      rcases Option.map_eq_some_iff.mp isMemory with ⟨⟨sp, written⟩, isBuilt, rfl⟩
      rcases buildStack_onStack isBuilt with ⟨isPointer, onStack⟩
      rcases Option.ite_none_right_eq_some.mp kernelStep with ⟨⟨notExiting, fresh⟩, _⟩
      have notHeld := fresh thread isThread
      have different : thread ≠ threads.running := by
        rcases consistent.current.mp notExiting with ⟨c, isCurrent⟩
        rw [shows.current c isCurrent]
        rintro rfl
        exact notHeld (consistent.slot_held _ _ isCurrent)
      refine ⟨⟨threads.running,
        Function.update threads.processors thread (some (stateAt written sp))⟩, ?_,
        consistent.step kernelStep, shows.reserved, current, ?_, ?_, ?_⟩
      · simp only [observe, isBuilding, Option.bind_some, isBuilt, Option.map_some]
        exact if_neg different
      · intro other waiting
        rcases waits other waiting with ⟨before, _⟩ | ⟨_, same, isOther, _⟩
        · exact shows.apart other before
        · cases same
          cases isThread.symm.trans isOther
          exact different
      · exact (Function.update_of_ne different.symm ..).trans shows.here
      · intro other waiting
        rcases waits other waiting with ⟨before, same⟩ | ⟨_, same, isOther, _, _, isSaved⟩
        · rcases remains other before same with ⟨state, found, stays⟩
          have notThread : other ≠ thread := ne_of_fresh notHeld (before.held consistent)
          exact ⟨state, (Function.update_of_ne notThread ..).trans found, stays⟩
        · cases same
          cases isThread.symm.trans isOther
          refine ⟨_, Function.update_self .., ?_⟩
          rw [show savedAt kernel thread = sp from isSaved.trans isPointer]
          exact onStack

theorem Shows.step (shows : Shows system threads) {event : SystemEvent exited}
    (stepped : systemStep m system event = some next) :
    ∃ threads', Answers Processors.step (observe m system event) threads threads' ∧
      Shows next threads' := by
  cases event with
  | compute cpu =>
      rcases Option.ite_none_right_eq_some.mp stepped with ⟨⟨reserved, spares⟩, result⟩
      cases result
      exact ⟨_, rfl, shows.compute reserved spares⟩
  | call event => exact shows.call stepped
  | interrupt number returned => exact ⟨threads, rfl, shows.interrupt stepped⟩
  | pendSv interrupt returned =>
      rcases shows.pendSv stepped with ⟨n, isNext, isThread, related⟩
      refine ⟨{ threads with running := n }, ?_, related⟩
      rw [observe, stepped, Option.bind_some, isNext]
      exact if_pos isThread

end Steps

/-! ## From boot on -/

def idleCreation (boot : Boot) : Creation :=
  ⟨some boot.idleThread, boot.idleStackBase, boot.idleTask, 0⟩

/-- The processor when `kthread_init` has set up the scheduler: the idle thread
is on its stack. -/
structure Booted (exited : Nat) (boot : Boot) (cpu : Cpu) : Prop where
  reserved : cpu.xpsr &&& alignBit = 0
  idle : ∃ memory sp built, buildStack m exited memory (idleCreation boot) = some (sp, built) ∧
    SameWords sp built cpu.memory

def bootThreads (exited : Nat) (boot : Boot) (cpu : Cpu) :
    Processors.State KthreadPtr ThreadState :=
  ⟨boot.bootThread, fun thread =>
    if thread = boot.bootThread then some cpu.state
    else if thread = boot.idleThread then
      some (stateAt cpu.memory (savedAt (boot.kernel m (armM exited)) boot.idleThread))
    else none⟩

variable {m}

theorem Booted.shows {boot : Boot} {cpu : Cpu} (booted : Booted m exited boot cpu) :
    Shows ⟨cpu, boot.kernel m (armM exited)⟩ (bootThreads m exited boot cpu) := by
  have isCurrent : runQueueCurrent (boot.kernel m (armM exited)) = some boot.bootThread := by
    rw [runQueueCurrent, (boot.kernel_held m (armM exited)).2.2.2]
    exact boot.kernel_kthreads m (armM exited) 1
  have onlyIdle : ∀ thread, Waiting (boot.kernel m (armM exited)) thread →
      thread = boot.idleThread := by
    intro thread waiting
    rcases waiting with ⟨⟨slot, isSlot⟩ | isPending, notCurrent⟩
    · rw [boot.kernel_kthreads] at isSlot
      split_ifs at isSlot
      · exact (Option.some.inj isSlot).symm
      · exact absurd (isCurrent.trans isSlot) notCurrent
    · rw [(boot.kernel_held m (armM exited)).2.1] at isPending
      cases isPending
  rcases booted.idle with ⟨memory, sp, built, isBuilt, same⟩
  have isSaved : savedAt (boot.kernel m (armM exited)) boot.idleThread = sp := by
    rw [← (buildStack_onStack isBuilt).1]
    have last := (boot.saved m (armM exited)).slots 0 boot.idleThread
      (boot.kernel_kthreads m (armM exited) 0) (by
      change runQueueCurrent (boot.kernel m (armM exited)) ≠ some boot.idleThread
      rw [isCurrent]
      exact fun equal => boot.different (Option.some.inj equal).symm)
    have first : lastSaved (boot.history m (armM exited)).entries boot.idleThread =
        some (builtKthread m (armM exited) (idleCreation boot)).cpuState := lastSaved_cons_same _ []
    exact Option.some.inj (last.symm.trans first)
  refine ⟨boot.consistent m (armM exited), booted.reserved,
    fun c isThread => Option.some.inj (isCurrent.symm.trans isThread),
    fun thread waiting => ?_, if_pos rfl, fun thread waiting => ?_⟩
  · rw [onlyIdle thread waiting]
    exact boot.different
  · rw [onlyIdle thread waiting]
    refine ⟨_, (if_neg boot.different).trans (if_pos rfl), ?_⟩
    rw [isSaved]
    rcases buildStack_onStack isBuilt with ⟨_, suspended, reserved⟩
    have still := suspended.of_words same
    exact ⟨⟨rfl, still.returns⟩, by rwa [still.state]⟩

variable (m)

/-! ### A run -/

theorem nrf51822_pageShift_lt : 5 < 32 := by decide

def nrf51822 : Machine := ⟨32, 5, Machine.beaglexm.wordTBits_eq, Nat.le.refl, nrf51822_pageShift_lt⟩

def nrfBoot : Boot where
  bootThread := 0x20000400
  ss := ⟨0x20000800, 1024⟩
  idleThread := 0x20000500
  idleStackBase := 0x20000c00
  idleTask := 0x1000
  different := by decide
  obtained := by decide

/-- What `cpu_state_build` leaves, if it does not stop. -/
def withStack (memory : UInt32 → UInt32) (creation : Creation) : UInt32 → UInt32 :=
  ((buildStack nrf51822 0x1001 memory creation).map Prod.snd).getD memory

def nrfThread : Cpu where
  r := fun register => UInt32.ofNat register + 100
  sp := 0x20000bc4
  lr := 0x1234
  pc := 0x1240
  xpsr := 0x61000000
  memory := withStack (fun _address => 0) (idleCreation nrfBoot)

def secondCreation : Creation := ⟨some 0x20000600, 0x20001000, 0x2000, 42⟩

/-- The scheduler puts another pointer in the place of the one that it finds. -/
def exchanged (cpu : Cpu) (pointer : UInt32) : Cpu :=
  let captured := saveState (cpu.takeException 14)
  { captured with memory := Function.update captured.memory captured.sp pointer }

/-- The boot thread behind the creation of a second one. -/
def nrfCreator : Cpu := { nrfThread with memory := withStack nrfThread.memory secondCreation }

/-- The second thread has computed for a while. -/
def secondThread : Cpu where
  r := fun _register => 7
  sp := 0x20001300
  lr := 0x2100
  pc := 0x2200
  xpsr := 0x01000000
  memory := (exchanged nrfCreator (0x20001400 - 68)).memory

/-- A thread is created and runs, until the boot thread runs again. -/
def createsAndSwitches : List (SystemEvent 0x1001) :=
  [.call (.build secondCreation), .call (.add (some 0x20000600)),
    .pendSv ⟨none, nrfCreator.savedPointer, 0xFF, 0⟩ (exchanged nrfCreator (0x20001400 - 68)),
    .compute secondThread,
    .pendSv ⟨none, secondThread.savedPointer, 0xFF, 0⟩
      (exchanged secondThread nrfCreator.savedPointer)]

/-- Every run of the ARMv6-M processor and the scheduler from boot is a run of
threads that have a processor each, as long as nothing writes to the saved
words of a thread that waits. -/
theorem stacked_threads_have_processors (boot : Boot) {cpu : Cpu}
    (booted : Booted m exited boot cpu) {events : List (SystemEvent exited)} {final : System exited}
    (reaches : run (systemStep m) ⟨cpu, boot.kernel m (armM exited)⟩ events = some final) :
    ∃ threads, run Processors.step (bootThreads m exited boot cpu)
        (visible (systemStep m) (observe m) ⟨cpu, boot.kernel m (armM exited)⟩ events) =
          some threads ∧
      (∀ c, runQueueCurrent final.kernel = some c → threads.running = c) ∧
      threads.processors threads.running = some final.cpu.state ∧
      ∀ thread, Waiting final.kernel thread → thread ≠ threads.running ∧
        ∃ state, threads.processors thread = some state ∧
          Suspended final.cpu.memory (savedAt final.kernel thread) state := by
  have simulates : ∀ (system : System exited) threads event next, Shows system threads → True →
      systemStep m system event = some next →
      ∃ threads', Answers Processors.step (observe m system event) threads threads' ∧
        Shows next threads' :=
    fun _system _threads _event _next shows _met stepped => shows.step stepped
  rcases run_shows simulates booted.shows (stepsMeet_true _ events) reaches with
    ⟨threads, specReaches, shows⟩
  refine ⟨threads, specReaches, shows.current, shows.here,
    fun thread waiting => ⟨shows.apart thread waiting, ?_⟩⟩
  rcases shows.away thread waiting with ⟨state, found, onStack⟩
  exact ⟨state, found, onStack.suspended⟩

theorem stacked_switches_have_processors :
    ∃ final, ∃ threads : Processors.State KthreadPtr ThreadState,
    run (systemStep nrf51822) ⟨nrfThread, nrfBoot.kernel nrf51822 (armM 0x1001)⟩
      createsAndSwitches = some final ∧
      run Processors.step (bootThreads nrf51822 0x1001 nrfBoot nrfThread)
        (visible (systemStep nrf51822) (observe nrf51822)
          ⟨nrfThread, nrfBoot.kernel nrf51822 (armM 0x1001)⟩
          createsAndSwitches) = some threads ∧
      (∀ c, runQueueCurrent final.kernel = some c → threads.running = c) ∧
      threads.processors threads.running = some final.cpu.state ∧
      ∀ thread, Waiting final.kernel thread → thread ≠ threads.running ∧
        ∃ state, threads.processors thread = some state ∧
          Suspended final.cpu.memory (savedAt final.kernel thread) state := by
  have enabled : (run (systemStep nrf51822) ⟨nrfThread, nrfBoot.kernel nrf51822 (armM 0x1001)⟩
      createsAndSwitches).isSome = true := by
    decide +kernel
  rcases Option.isSome_iff_exists.mp enabled with ⟨final, reaches⟩
  have booted : Booted nrf51822 0x1001 nrfBoot nrfThread :=
    ⟨by decide, _, _, _, rfl, fun _i _inside => rfl⟩
  rcases stacked_threads_have_processors nrf51822 nrfBoot booted reaches with ⟨threads, shown⟩
  exact ⟨final, threads, reaches, shown⟩

end Stacked
end Context
end ShovelOS
