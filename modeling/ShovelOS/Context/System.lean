import ShovelOS.Context.RoundTrip
import ShovelOS.Library.Observation
import ShovelOS.Library.Processors
import ShovelOS.Sched.Waiting

namespace ShovelOS
namespace Context

open Sched Transition WordStack

/-!
# Threads on one processor

The processor together with the scheduler.  A thread computes for a while,
and is interrupted anywhere or yields.  The routines then leave its state in
a frame, the scheduler exchanges the frame, and the routines give the
processor the state in the frame.

What C code does between the two routines stands in the event, as the
processor that it returns with: it must be in the interrupt mode again, with
the stack pointer that it was called with, and the frame must be the one that
the scheduler leaves.  Everything else may have changed.
-/

variable (link : CallSite → UInt32) (m : Machine) {exited : Nat}

structure System (exited : Nat) where
  cpu : Cpu
  kernel : Kernel (armA exited)

/-- What a switch learns apart from the interrupted state. -/
structure Occasion where
  now : Option Timespec
  firstByte : UInt8
  oneshot : Int

/-- The call of `_arch_irq_task_switch` with a frame. -/
def Occasion.interrupt (occasion : Occasion) (frame : ArmCpuState) : Interrupt (armA exited) :=
  ⟨occasion.now, frame, occasion.firstByte, occasion.oneshot⟩

/-- What happens.  An interrupt may be one that does not switch. -/
inductive SystemEvent (exited : Nat) where
  | compute (cpu : Cpu)
  | call (event : Event (armA exited))
  | interrupt (returned : Cpu)
  | tick (occasion : Occasion) (returned : Cpu)
  | yield (occasion : Occasion) (returned : Cpu)

instance ThreadMode.decidable (mode : UInt32) : Decidable (ThreadMode mode) :=
  decidable_of_iff (mode ≠ psrModeUsr ∧ mode ≠ psrModeFiq ∧ mode ≠ psrModeIrq)
    ⟨fun ⟨notUsr, notFiq, notIrq⟩ => ⟨notUsr, notFiq, notIrq⟩,
      fun threadMode => ⟨threadMode.notUsr, threadMode.notFiq, threadMode.notIrq⟩⟩

instance armCpuStateDecidableEq : DecidableEq ArmCpuState := fun first second =>
  decidable_of_iff (first.cpsr = second.cpsr ∧ first.pc = second.pc ∧ first.sp = second.sp ∧
      first.lr = second.lr ∧ ∀ register, first.r register = second.r register) <| by
    cases first
    cases second
    simp only [ArmCpuState.mk.injEq, funext_iff]

instance Returned.decidable (captured returned : Cpu) (frame : ArmCpuState) :
    Decidable (Returned captured returned frame) :=
  decidable_of_iff (returned.mode = psrModeIrq ∧ returned.sp psrModeIrq = captured.sp psrModeIrq ∧
      returned.frame = frame)
    ⟨fun ⟨mode, pointer, frame⟩ => ⟨mode, pointer, frame⟩,
      fun returns => ⟨returns.mode, returns.pointer, returns.frame⟩⟩

/-- A thread can yield where `_arm_svc` makes the supervisor call: the link
register has been pushed, `R0` is zero, and the thread's stack is not the one
of the interrupt mode. -/
structure CanYield (cpu : Cpu) : Prop where
  supervisor : cpu.mode = psrModeSvc
  zero : cpu.r 0 = 0
  pushed : cpu.memory cpu.getSp = cpu.getLr
  apart : ∀ i < 13, cpu.getSp ≠ cpu.sp psrModeIrq - 4 * UInt32.ofNat i - 4

instance CanYield.decidable (cpu : Cpu) : Decidable (CanYield cpu) :=
  decidable_of_iff (cpu.mode = psrModeSvc ∧ cpu.r 0 = 0 ∧ cpu.memory cpu.getSp = cpu.getLr ∧
      ∀ i < 13, cpu.getSp ≠ cpu.sp psrModeIrq - 4 * UInt32.ofNat i - 4)
    ⟨fun ⟨supervisor, zero, pushed, apart⟩ => ⟨supervisor, zero, pushed, apart⟩,
      fun canYield => ⟨canYield.supervisor, canYield.zero, canYield.pushed, canYield.apart⟩⟩

/-- Back from the C code to a thread. -/
def resume (captured returned : Cpu) (frame : ArmCpuState) : Option Cpu :=
  if Returned captured returned frame then wake link returned else none

/-- The scheduler exchanges the frame that has been captured. -/
def System.switch (system : System exited) (occasion : Occasion) (captured returned : Cpu) :
    Option (System exited) :=
  (_archIrqTaskSwitch system.kernel (occasion.interrupt captured.frame)).bind fun (frame, kernel) =>
    (resume link captured returned frame).map fun cpu => ⟨cpu, kernel⟩

/-- One step.  A thread does not touch the stack pointer of the interrupt
mode and stays in a mode that can be switched from. -/
def systemStep (system : System exited) : SystemEvent exited → Option (System exited)
  | .compute cpu =>
      if ThreadMode cpu.mode ∧ cpu.sp psrModeIrq = system.cpu.sp psrModeIrq then
        some { system with cpu := cpu }
      else none
  | .call event =>
      if isSwitch event then none
      else (Sched.step m system.kernel event).map fun kernel => { system with kernel := kernel }
  | .interrupt returned =>
      (irqCapture link (irqTaken system.cpu)).bind fun captured =>
        (resume link captured returned captured.frame).map fun cpu => { system with cpu := cpu }
  | .tick occasion returned =>
      (irqCapture link (irqTaken system.cpu)).bind fun captured =>
        system.switch link occasion captured returned
  | .yield occasion returned =>
      if CanYield system.cpu then
        system.switch link occasion (svcCapture link (svcTaken system.cpu)).2 returned
      else none

/-! ## Each thread has a processor of its own -/

/-- What a switch keeps of a state. -/
def kept (state : ArmCpuState) : ArmCpuState := { state with cpsr := state.cpsr &&& msrMask }

theorem kept_insert (state : ArmCpuState) (old : UInt32) :
    kept { state with cpsr := WordFields.insert msrMask old state.cpsr } = kept state := by
  rw [kept, kept, WordFields.insert_and_inside (by decide)]

/-- What an event is for the threads: only a computation and the building of a
thread concern their processors, and a switch resumes the thread that is then
the current one. -/
def observe (system : System exited) (event : SystemEvent exited) :
    Option (Processors.Action KthreadPtr ArmCpuState) :=
  match event with
  | .compute cpu => some (.compute (kept cpu.state))
  | .call event => (recorded m system.kernel event).head?.map fun entry =>
      .create entry.thread (kept entry.cpuState)
  | .interrupt _returned => none
  | .tick _occasion _returned | .yield _occasion _returned =>
      ((systemStep link m system event).bind fun next => runQueueCurrent next.kernel).map .resume

/-- The system shows the threads: the processor is that of the running thread,
and each of the others is as the scheduler has saved it. -/
structure Shows (irqStack : UInt32) (entries : List (Entry (armA exited))) (system : System exited)
    (threads : Processors.State KthreadPtr ArmCpuState) : Prop where
  saved : Saved ⟨system.kernel, entries⟩
  mode : ThreadMode system.cpu.mode
  modes : ∀ entry ∈ entries, ThreadMode (entry.cpuState.cpsr &&& modeMask)
  balanced : system.cpu.sp psrModeIrq = irqStack
  current : ∀ c, runQueueCurrent system.kernel = some c → threads.running = c
  here : threads.processors threads.running = some (kept system.cpu.state)
  away : ∀ thread, thread ≠ threads.running →
    threads.processors thread = (lastSaved entries thread).map kept

/-- A state of a thread, for the history. -/
def entryOf (thread : KthreadPtr) (state : ArmCpuState) : Entry (armA exited) := ⟨thread, state⟩

theorem lastSaved_mem {entries : List (Entry (armA exited))} {thread : KthreadPtr}
    {cpuState : ArmCpuState}
    (last : lastSaved entries thread = some cpuState) :
    ∃ entry ∈ entries, entry.cpuState = cpuState := by
  induction entries with
  | nil => cases last
  | cons entry entries inductionHypothesis =>
      by_cases same : entry.thread = thread
      · subst same
        rw [lastSaved_cons_same] at last
        exact ⟨entry, List.mem_cons_self, Option.some.inj last⟩
      · rw [lastSaved_cons_of_ne same] at last
        rcases inductionHypothesis last with ⟨found, isMember, isState⟩
        exact ⟨found, List.mem_cons_of_mem _ isMember, isState⟩

/-- A thread is resumed with the frame that its state was captured in. -/
theorem resume_eq_some {captured returned cpu : Cpu} {frame : ArmCpuState}
    (resumed : resume link captured returned frame = some cpu)
    (threadMode : ThreadMode (frame.cpsr &&& modeMask)) {sp : UInt32}
    (pointer : captured.sp psrModeIrq + 68 = sp) :
    kept cpu.state = kept frame ∧ ThreadMode cpu.mode ∧ cpu.sp psrModeIrq = sp := by
  rcases Option.ite_none_right_eq_some.mp resumed with ⟨returns, woke⟩
  rcases returns.wake link threadMode pointer with ⟨woken, result, state, balanced, _⟩
  rw [result] at woke
  cases woke
  refine ⟨by rw [state, kept_insert], ?_, balanced⟩
  have status : cpu.cpsr = WordFields.insert msrMask (returned.spsr psrModeIrq) frame.cpsr :=
    congrArg ArmCpuState.cpsr state
  rw [Cpu.mode, status, mode_of_msr]
  exact threadMode

section Steps

variable {link m} {irqStack : UInt32} {entries : List (Entry (armA exited))}
  {system next : System exited}
  {threads : Processors.State KthreadPtr ArmCpuState}

/-- The entry of an interrupted thread brings the saved states up to date: now
all of the processors are as they are saved. -/
theorem Shows.processors_eq (shows : Shows irqStack entries system threads) {c : KthreadPtr}
    (isCurrent : runQueueCurrent system.kernel = some c) (thread : KthreadPtr) :
    threads.processors thread =
      (lastSaved (entryOf c system.cpu.state :: entries) thread).map kept := by
  have running := shows.current c isCurrent
  by_cases same : c = thread
  · subst same
    have last := lastSaved_cons_same (entryOf c system.cpu.state) entries
    have here : threads.processors c = some (kept system.cpu.state) := by
      rw [← running]
      exact shows.here
    exact here.trans (congrArg (Option.map kept) last).symm
  · have last : lastSaved (entryOf c system.cpu.state :: entries) thread =
        lastSaved entries thread :=
      lastSaved_cons_of_ne same entries
    exact (shows.away thread fun isRunning => same (running.symm.trans isRunning.symm)).trans
      (congrArg (Option.map kept) last).symm

theorem Shows.modes_cons (shows : Shows irqStack entries system threads) (c : KthreadPtr) :
    ∀ entry ∈ entryOf c system.cpu.state :: entries,
      ThreadMode (entry.cpuState.cpsr &&& modeMask) := by
  intro entry isMember
  rcases List.mem_cons.mp isMember with rfl | old
  · exact shows.mode
  · exact shows.modes entry old

/-- A switch from a frame with the state of the running thread. -/
theorem Shows.switch (shows : Shows irqStack entries system threads) {occasion : Occasion}
    {captured returned : Cpu} (isState : captured.frame = system.cpu.state)
    (pointer : captured.sp psrModeIrq + 68 = irqStack)
    (switched : system.switch link occasion captured returned = some next) :
    ∃ n, runQueueCurrent next.kernel = some n ∧ (threads.processors n).isSome ∧
      ∃ entries, Shows irqStack entries next { threads with running := n } := by
  rw [System.switch, isState] at switched
  rcases Option.bind_eq_some_iff.mp switched with ⟨⟨frame, kernel⟩, exchanged, resumed⟩
  rcases Option.map_eq_some_iff.mp resumed with ⟨cpu, isResumed, rfl⟩
  rcases shows.saved.switch exchanged with ⟨c, n, isCurrent, isNext, last, _⟩
  have processors := shows.processors_eq isCurrent
  have modes := shows.modes_cons c
  rcases lastSaved_mem last with ⟨entry, isMember, isFrame⟩
  have resumable : ThreadMode (frame.cpsr &&& modeMask) := isFrame ▸ modes entry isMember
  rcases resume_eq_some link isResumed resumable pointer with ⟨state, mode, balanced⟩
  have found : threads.processors n = some (kept frame) :=
    (processors n).trans (congrArg (Option.map kept) last)
  have stepped : historyStep Machine.beaglexm ⟨system.kernel, entries⟩
      (.taskSwitch (occasion.interrupt system.cpu.state)) =
        some ⟨kernel, entryOf c system.cpu.state :: entries⟩ := by
    rw [historyStep, Sched.step, exchanged, recorded_switch isCurrent]
    rfl
  refine ⟨n, isNext, by rw [found]; rfl, entryOf c system.cpu.state :: entries, ?_⟩
  exact {
    saved := shows.saved.step stepped
    mode := mode
    modes := modes
    balanced := balanced
    current := fun other isOther => Option.some.inj (isNext.symm.trans isOther)
    here := by rw [found, state]
    away := fun thread _ => processors thread }

/-- Between switches only the building of a thread is recorded, in memory that
no thread has. -/
theorem recorded_of_call {kernel kernel' : Kernel (armA exited)} {event : Event (armA exited)}
    (stepped : Sched.step m kernel event = some kernel') (notSwitch : isSwitch event = false) :
    recorded m kernel event = [] ∨ ∃ thread creation, thread ∉ kernel.held ∧
      recorded m kernel event =
        [entryOf thread (builtKthread m (armA exited) creation).cpuState] := by
  cases event with
  | build creation =>
      rcases Option.ite_none_right_eq_some.mp stepped with ⟨⟨_, fresh⟩, _⟩
      cases isThread : creation.thread with
      | none => exact Or.inl (recorded_noThread kernel isThread)
      | some thread =>
          by_cases noStack : creation.stackBase = 0
          · exact Or.inl (recorded_noStack kernel noStack)
          · exact Or.inr ⟨thread, creation, fresh thread isThread,
              recorded_built kernel isThread noStack⟩
  | add | sleep | exited => exact Or.inl rfl
  | taskSwitch => cases notSwitch

/-- The state that a thread is built with is in the supervisor mode. -/
theorem builtKthread_mode (creation : Creation) :
    ThreadMode (ArmCpuState.cpsr (builtKthread m (armA exited) creation).cpuState &&&
      modeMask) := by
  have status : ArmCpuState.cpsr (builtKthread m (armA exited) creation).cpuState =
      (19 : UInt32) ||| (0 : UInt32) <<< 9 ||| (1 : UInt32) <<< 8 := rfl
  rw [status]
  exact ThreadMode.svc

/-- A call of the scheduler gives a processor to a thread that it builds, and
does nothing else to the processors. -/
theorem Shows.call (shows : Shows irqStack entries system threads) {event : Event (armA exited)}
    (stepped : systemStep link m system (.call event) = some next) :
    ∃ threads', Answers Processors.step (observe link m system (.call event)) threads threads' ∧
      ∃ entries, Shows irqStack entries next threads' := by
  rcases Option.ite_none_left_eq_some.mp stepped with ⟨notSwitch, called⟩
  rw [Bool.not_eq_true] at notSwitch
  rcases Option.map_eq_some_iff.mp called with ⟨kernel', kernelStep, rfl⟩
  have consistent := shows.saved.consistent
  have current : ∀ c, runQueueCurrent kernel' = some c → threads.running = c := fun c isCurrent =>
    shows.current c (current_of_call consistent kernelStep notSwitch isCurrent)
  have saved : Saved ⟨kernel', recorded m system.kernel event ++ entries⟩ :=
    shows.saved.step (by rw [historyStep, kernelStep]; rfl)
  rcases recorded_of_call kernelStep notSwitch with nothing | ⟨thread, creation, fresh, built⟩
  · rw [nothing] at saved
    refine ⟨threads, ?_, entries, { shows with saved := saved, current := current }⟩
    rw [observe, nothing]
    rfl
  · rw [built] at saved
    have different : thread ≠ threads.running := by
      rcases consistent.current.mp (consistent.outcome kernelStep).1 with ⟨c, isCurrent⟩
      rw [shows.current c isCurrent]
      rintro rfl
      exact fresh (consistent.slot_held _ _ isCurrent)
    refine ⟨⟨threads.running, Function.update threads.processors thread
      (some (kept (builtKthread m (armA exited) creation).cpuState))⟩, ?_, _, saved, shows.mode, ?_,
        shows.balanced,
      current, ?_, ?_⟩
    · rw [observe, built]
      exact if_neg different
    · intro entry isMember
      rcases List.mem_cons.mp isMember with rfl | old
      · exact builtKthread_mode creation
      · exact shows.modes entry old
    · exact (Function.update_of_ne different.symm ..).trans shows.here
    · intro other notRunning
      by_cases same : other = thread
      · subst same
        have last := lastSaved_cons_same
          (entryOf other (builtKthread m (armA exited) creation).cpuState) entries
        exact (Function.update_self ..).trans (congrArg (Option.map kept) last).symm
      · have last : lastSaved
            (entryOf thread (builtKthread m (armA exited) creation).cpuState :: entries) other =
            lastSaved entries other := lastSaved_cons_of_ne (Ne.symm same) entries
        exact (Function.update_of_ne same ..).trans
          ((shows.away other notRunning).trans (congrArg (Option.map kept) last).symm)

theorem Shows.step (shows : Shows irqStack entries system threads) {event : SystemEvent exited}
    (stepped : systemStep link m system event = some next) :
    ∃ threads', Answers Processors.step (observe link m system event) threads threads' ∧
      ∃ entries, Shows irqStack entries next threads' := by
  -- A switch resumes the thread that is then the current one.
  have resumed : ∀ n, runQueueCurrent next.kernel = some n → (threads.processors n).isSome →
      Answers Processors.step (((systemStep link m system event).bind fun next =>
        runQueueCurrent next.kernel).map .resume) threads { threads with running := n } := by
    intro n isNext isThread
    rw [stepped, Option.bind_some, isNext]
    exact if_pos isThread
  cases event with
  | compute cpu =>
      rcases Option.ite_none_right_eq_some.mp stepped with ⟨⟨mode, pointer⟩, result⟩
      cases result
      refine ⟨_, rfl, entries, shows.saved, mode, shows.modes, pointer.trans shows.balanced,
        shows.current,
        Function.update_self .., fun thread notRunning => ?_⟩
      exact (Function.update_of_ne notRunning ..).trans (shows.away thread notRunning)
  | call event => exact shows.call stepped
  | interrupt returned =>
      rcases irqCapture_pushed link system.cpu shows.mode with
        ⟨captured, isCaptured, irq, _, pushed⟩
      rcases pushed.frame irq with ⟨isState, pointer, _⟩
      rw [systemStep, isCaptured, Option.bind_some, isState] at stepped
      rcases Option.map_eq_some_iff.mp stepped with ⟨cpu, isResumed, rfl⟩
      rcases resume_eq_some link isResumed shows.mode pointer with ⟨state, mode, balanced⟩
      exact ⟨threads, rfl, entries, { shows with
        mode := mode
        balanced := balanced.trans shows.balanced
        here := shows.here.trans (congrArg some state.symm) }⟩
  | tick occasion returned =>
      rcases irqCapture_pushed link system.cpu shows.mode with
        ⟨captured, isCaptured, irq, _, pushed⟩
      rcases pushed.frame irq with ⟨isState, pointer, _⟩
      have switched := stepped
      rw [systemStep, isCaptured, Option.bind_some] at switched
      rcases shows.switch isState (pointer.trans shows.balanced) switched with
        ⟨n, isNext, isThread, related⟩
      exact ⟨_, resumed n isNext isThread, related⟩
  | yield occasion returned =>
      rcases Option.ite_none_right_eq_some.mp stepped with ⟨canYield, switched⟩
      rcases svcCapture_pushed link system.cpu canYield.supervisor canYield.zero canYield.apart with
        ⟨captured, isCaptured, irq, pushed⟩
      rcases pushed.frame irq with ⟨isState, pointer, _⟩
      rw [canYield.pushed] at isState
      rw [isCaptured] at switched
      rcases shows.switch isState (pointer.trans shows.balanced) switched with
        ⟨n, isNext, isThread, related⟩
      exact ⟨_, resumed n isNext isThread, related⟩

end Steps

/-! ## From boot on -/

def bootThreads (exited : Nat) (boot : Boot) (m : Machine) (cpu : Cpu) :
    Processors.State KthreadPtr ArmCpuState :=
  ⟨boot.bootThread, Function.update
    (fun thread => (lastSaved (boot.history m (armA exited)).entries thread).map kept)
    boot.bootThread (some (kept cpu.state))⟩

theorem bootThreads_shown (boot : Boot) (m : Machine) {cpu : Cpu}
    (threadMode : ThreadMode cpu.mode) :
    Shows (cpu.sp psrModeIrq) (boot.history m (armA exited)).entries
      ⟨cpu, boot.kernel m (armA exited)⟩ (bootThreads exited boot m cpu) := by
  have isCurrent : runQueueCurrent (boot.kernel m (armA exited)) = some boot.bootThread := by
    rw [runQueueCurrent, (boot.kernel_held m (armA exited)).2.2.2]
    exact boot.kernel_kthreads m (armA exited) 1
  exact {
    saved := boot.saved m (armA exited)
    mode := threadMode
    modes := fun entry isMember => by
      rw [List.mem_singleton.mp isMember]
      exact builtKthread_mode _
    balanced := rfl
    current := fun c isThread => Option.some.inj (isCurrent.symm.trans isThread)
    here := if_pos rfl
    away := fun thread notRunning => by
      change thread ≠ boot.bootThread at notRunning
      simp only [bootThreads, Function.update_of_ne notRunning] }

theorem exists_shows (boot : Boot) {cpu : Cpu} (threadMode : ThreadMode cpu.mode)
    {events : List (SystemEvent exited)} {final : System exited}
    (reaches : run (systemStep link m) ⟨cpu, boot.kernel m (armA exited)⟩ events = some final) :
    ∃ threads, run Processors.step (bootThreads exited boot m cpu)
        (visible (systemStep link m) (observe link m) ⟨cpu, boot.kernel m (armA exited)⟩ events) =
          some threads ∧
      ∃ entries, Shows (cpu.sp psrModeIrq) entries final threads := by
  have start : ∃ entries, Shows (cpu.sp psrModeIrq) entries ⟨cpu, boot.kernel m (armA exited)⟩
      (bootThreads exited boot m cpu) :=
    ⟨_, bootThreads_shown boot m threadMode⟩
  have simulates : ∀ (system : System exited) threads event next,
      (∃ entries, Shows (cpu.sp psrModeIrq) entries system threads) → True →
      systemStep link m system event = some next →
      ∃ threads', Answers Processors.step (observe link m system event) threads threads' ∧
        ∃ entries, Shows (cpu.sp psrModeIrq) entries next threads' :=
    fun _system _threads _event _next ⟨_, shows⟩ _met stepped => shows.step stepped
  exact run_shows simulates start (stepsMeet_true _ events) reaches

/-! ## A run -/

/-- C code that puts a frame in the place of the one it was given. -/
def withFrame (captured : Cpu) (frame : ArmCpuState) : Cpu :=
  { captured with
    memory := (pushAll captured.memory (captured.sp psrModeIrq + 68) (stateWords frame)).1 }

/-- The processor in the call of the interrupt controller. -/
def interrupted (cpu : Cpu) : Cpu := (irqCapture (fun _site => 0) (irqTaken cpu)).getD cpu

/-- A thread that has computed for a while. -/
def otherThread : Cpu where
  r := fun _register => 7
  sp := fun mode => if mode = psrModeIrq then 0x80400000 else 0x80322f00
  lr := fun _mode => 0x80003020
  spsr := fun _mode => 0
  cpsr := 0x13
  pc := 0x80003080
  memory := fun _address => 1
  exclusive := false

/-- A timer interrupt in time, with the stack intact. -/
def onTime : Occasion := ⟨none, 0xFF, 0⟩

/-- A thread is created while the boot thread runs. -/
def creates : List (SystemEvent 0x80001000) :=
  [.call (.build ⟨some 0x80312000, 0x80322000, 0x80003000, 0⟩), .call (.add (some 0x80312000))]

/-- It runs, computes, and is interrupted in favour of the boot thread. -/
def runsAndReturns : List (SystemEvent 0x80001000) :=
  [.tick onTime (withFrame (interrupted supervisorThread)
      (builtKthread Machine.beaglexm (armA 0x80001000) ⟨some 0x80312000, 0x80322000, 0x80003000,
        0⟩).cpuState),
    .compute otherThread,
    .tick onTime (withFrame (interrupted otherThread) supervisorThread.state)]

/-- The steps of a processor that branches to address zero. -/
def sampleStep : System 0x80001000 → SystemEvent 0x80001000 → Option (System 0x80001000) :=
  systemStep (fun _site => 0) Machine.beaglexm

def sampleBoot : System 0x80001000 :=
  ⟨supervisorThread, armBoot.kernel Machine.beaglexm (armA 0x80001000)⟩

/-- Every run of the processor and the scheduler from boot, whatever the
threads compute, wherever interrupts fall and whatever C code does in them, is
a run of threads that have a processor each.  The processor's state is that of
the running thread, the saved state of any other thread is that of its own
processor, and the stack of the interrupt mode is as it was at boot. -/
theorem threads_have_processors (boot : Boot) {cpu : Cpu} (threadMode : ThreadMode cpu.mode)
    {events : List (SystemEvent exited)} {final : System exited}
    (reaches : run (systemStep link m) ⟨cpu, boot.kernel m (armA exited)⟩ events = some final) :
    ∃ threads, run Processors.step (bootThreads exited boot m cpu)
        (visible (systemStep link m) (observe link m) ⟨cpu, boot.kernel m (armA exited)⟩ events) =
          some threads ∧
      (∀ c, runQueueCurrent final.kernel = some c → threads.running = c) ∧
      threads.processors threads.running = some (kept final.cpu.state) ∧
      (∀ slot thread, final.kernel.kthreads slot = some thread → thread ≠ threads.running →
        threads.processors thread = some (kept (final.kernel.memory thread).cpuState)) ∧
      final.cpu.sp psrModeIrq = cpu.sp psrModeIrq := by
  rcases exists_shows link m boot threadMode reaches with ⟨threads, specReaches, entries, shows⟩
  refine ⟨threads, specReaches, shows.current, shows.here, fun slot thread isSlot notRunning => ?_,
    shows.balanced⟩
  have saved := shows.saved.slots slot thread isSlot fun isCurrent =>
    notRunning (shows.current thread isCurrent).symm
  exact (shows.away thread notRunning).trans (congrArg (Option.map kept) saved)

theorem creation_has_processors : ∃ final, ∃ threads : Processors.State KthreadPtr ArmCpuState,
    run sampleStep sampleBoot (creates ++ runsAndReturns) = some final ∧
      run Processors.step (bootThreads 0x80001000 armBoot Machine.beaglexm supervisorThread)
        (visible sampleStep (observe (fun _site => 0) Machine.beaglexm) sampleBoot
          (creates ++ runsAndReturns)) =
          some threads ∧
      (∀ c, runQueueCurrent final.kernel = some c → threads.running = c) ∧
      threads.processors threads.running = some (kept final.cpu.state) ∧
      (∀ slot thread, final.kernel.kthreads slot = some thread → thread ≠ threads.running →
        threads.processors thread = some (kept (final.kernel.memory thread).cpuState)) ∧
      final.cpu.sp psrModeIrq = 0x80400000 := by
  have enabled : (run sampleStep sampleBoot (creates ++ runsAndReturns)).isSome = true := by
    decide +kernel
  rcases Option.isSome_iff_exists.mp enabled with ⟨final, reaches⟩
  rcases threads_have_processors (fun _site => 0) Machine.beaglexm armBoot
    (show ThreadMode supervisorThread.mode by decide) reaches with ⟨threads, shown⟩
  exact ⟨final, threads, reaches, shown⟩

/-! ## A thread that is interrupted -/

/-- An event in which a thread does not compute. -/
def Undisturbed (thread : KthreadPtr) (system : System exited) : SystemEvent exited → Prop
  | .compute _cpu => runQueueCurrent system.kernel ≠ some thread
  | _ => True

instance Undisturbed.decidable (thread : KthreadPtr) (system : System exited) :
    (event : SystemEvent exited) → Decidable (Undisturbed thread system event)
  | .compute _cpu => inferInstanceAs (Decidable (_ ≠ _))
  | .call _event | .interrupt _returned | .tick _occasion _returned
  | .yield _occasion _returned => isTrue trivial

section Unaware

variable {link m} {system next : System exited} {event : SystemEvent exited} {thread : KthreadPtr}

/-- Only the scheduler changes the kernel. -/
theorem kernel_of_systemStep (stepped : systemStep link m system event = some next) :
    next.kernel = system.kernel ∨
      ∃ called, Sched.step m system.kernel called = some next.kernel := by
  have switches : ∀ {occasion captured returned}, system.switch link occasion captured returned =
      some next →
      ∃ called, Sched.step m system.kernel called = some next.kernel := by
    intro occasion captured returned switched
    rcases Option.bind_eq_some_iff.mp switched with ⟨⟨frame, kernel⟩, exchanged, resumed⟩
    rcases Option.map_eq_some_iff.mp resumed with ⟨cpu, _, rfl⟩
    exact ⟨.taskSwitch _, Option.map_eq_some_iff.mpr ⟨_, exchanged, rfl⟩⟩
  cases event with
  | compute cpu =>
      rcases Option.ite_none_right_eq_some.mp stepped with ⟨_, result⟩
      cases result
      exact Or.inl rfl
  | call called =>
      rcases Option.map_eq_some_iff.mp (Option.ite_none_left_eq_some.mp stepped).2 with
        ⟨_, kernelStep, rfl⟩
      exact Or.inr ⟨called, kernelStep⟩
  | interrupt returned =>
      rcases Option.bind_eq_some_iff.mp stepped with ⟨captured, _, resumed⟩
      rcases Option.map_eq_some_iff.mp resumed with ⟨cpu, _, rfl⟩
      exact Or.inl rfl
  | tick occasion returned =>
      rcases Option.bind_eq_some_iff.mp stepped with ⟨captured, _, switched⟩
      exact Or.inr (switches switched)
  | yield occasion returned => exact Or.inr (switches (Option.ite_none_right_eq_some.mp stepped).2)

/-- A thread leaves its slot only by its exit. -/
theorem slot_of_step {kernel kernel' : Kernel (armA exited)} (consistent : Consistent kernel)
    {called : Event (armA exited)}
    (stepped : Sched.step m kernel called = some kernel') (notExiting : kernel'.exiting = false)
    {slot : Fin 32}
    (isSlot : kernel.kthreads slot = some thread) : kernel'.kthreads slot = some thread := by
  rcases (consistent.outcome stepped).2 with
    _ | _ | _ | ⟨added, _, empty, isEmpty⟩ | _ | ⟨_, _, _, same, _⟩ | ⟨_, _, _, _, _, _, same⟩ | _
  case added =>
    have different : slot ≠ empty := by
      rintro rfl
      rw [isEmpty] at isSlot
      cases isSlot
    exact (Kernel.setSlot_of_ne kernel added different).trans isSlot
  case slept => rwa [same.kthreads]
  case switched => exact (congrFun same.kthreads slot).trans isSlot
  case exited => cases notExiting
  all_goals exact isSlot

theorem exiting_of_systemStep {irqStack : UInt32} {entries : List (Entry (armA exited))}
    {threads : Processors.State KthreadPtr ArmCpuState}
    (shows : Shows irqStack entries system threads)
    (stepped : systemStep link m system event = some next)
    (notExiting : next.kernel.exiting = false) :
    system.kernel.exiting = false := by
  rcases kernel_of_systemStep stepped with same | ⟨called, kernelStep⟩
  · rwa [same] at notExiting
  · exact (shows.saved.consistent.outcome kernelStep).1

/-- What happens while a thread has a slot and does not compute spares its
processor. -/
theorem Shows.spares {irqStack : UInt32} {entries : List (Entry (armA exited))}
    {threads : Processors.State KthreadPtr ArmCpuState}
    (shows : Shows irqStack entries system threads)
    (stepped : systemStep link m system event = some next)
    (notExiting : system.kernel.exiting = false)
    {slot : Fin 32} (isSlot : system.kernel.kthreads slot = some thread)
    (undisturbed : Undisturbed thread system event) :
    ∀ action, observe link m system event = some action →
      Processors.Spares thread threads action := by
  intro action observed
  rcases shows.saved.consistent.current.mp notExiting with ⟨c, isCurrent⟩
  have running := shows.current c isCurrent
  cases event with
  | compute cpu =>
      cases observed
      intro same
      exact undisturbed (isCurrent.trans (congrArg some (running.symm.trans same)))
  | call called =>
      rcases Option.ite_none_left_eq_some.mp stepped with ⟨notSwitch, result⟩
      rcases Option.map_eq_some_iff.mp result with ⟨_, kernelStep, _⟩
      rcases recorded_of_call kernelStep (Bool.not_eq_true _ ▸ notSwitch) with
        nothing | ⟨built, creation, fresh, isBuilt⟩
      · rw [observe, nothing] at observed
        cases observed
      · rw [observe, isBuilt] at observed
        cases observed
        rintro rfl
        exact fresh (shows.saved.consistent.slot_held slot _ isSlot)
  | interrupt returned => cases observed
  | tick | yield =>
      rcases Option.map_eq_some_iff.mp observed with ⟨_, _, rfl⟩
      trivial

/-- The processor of a thread, while the thread has a slot. -/
def Away (irqStack : UInt32) (thread : KthreadPtr) (processor : ArmCpuState)
    (system : System exited) : Prop :=
  ∃ threads entries, Shows irqStack entries system threads ∧ (system.kernel.exiting = false →
    (∃ slot, system.kernel.kthreads slot = some thread) ∧
      threads.processors thread = some processor)

theorem Away.step {irqStack : UInt32} {processor : ArmCpuState}
    (away : Away irqStack thread processor system)
    (undisturbed : Undisturbed thread system event)
    (stepped : systemStep link m system event = some next) :
    Away irqStack thread processor next := by
  rcases away with ⟨threads, entries, shows, holds⟩
  rcases shows.step stepped with ⟨threads', answers, entries', shows'⟩
  refine ⟨threads', entries', shows', fun notExiting => ?_⟩
  have wasNotExiting := exiting_of_systemStep shows stepped notExiting
  rcases holds wasNotExiting with ⟨⟨slot, isSlot⟩, found⟩
  refine ⟨⟨slot, ?_⟩, ?_⟩
  · rcases kernel_of_systemStep stepped with same | ⟨called, kernelStep⟩
    · rwa [same]
    · exact slot_of_step shows.saved.consistent kernelStep notExiting isSlot
  · have spares := shows.spares stepped wasNotExiting isSlot undisturbed
    cases observed : observe link m system event with
    | none =>
        rw [observed] at answers
        cases answers
        exact found
    | some action =>
        rw [observed] at answers
        exact ((spares action observed).step answers).trans found

end Unaware

/-- A thread does not notice interrupts, nor that other threads run.  Wherever
it is interrupted or yields, when it runs again and has not computed meanwhile,
the processor has the state that it had. -/
theorem thread_unaware (boot : Boot) {cpu : Cpu} (threadMode : ThreadMode cpu.mode)
    {before after : List (SystemEvent exited)} {left back : System exited} {thread : KthreadPtr}
    (reaches : run (systemStep link m) ⟨cpu, boot.kernel m (armA exited)⟩ before = some left)
    (isLeft : runQueueCurrent left.kernel = some thread)
    (undisturbed : StepsMeet (systemStep link m) (Undisturbed thread) left after)
    (returns : run (systemStep link m) left after = some back)
    (isBack : runQueueCurrent back.kernel = some thread) :
    kept back.cpu.state = kept left.cpu.state := by
  rcases exists_shows link m boot threadMode reaches with ⟨threads, _, entries, shows⟩
  have running := shows.current thread isLeft
  have start : Away (cpu.sp psrModeIrq) thread (kept left.cpu.state) left :=
    ⟨threads, entries, shows, fun _ => ⟨⟨_, isLeft⟩, running ▸ shows.here⟩⟩
  have ends := invariant_of_stepsMeet (fun _system _event _next away undisturbed stepped =>
    away.step undisturbed stepped) start undisturbed returns
  rcases ends with ⟨threads', entries', shows', holds⟩
  have found := (holds (shows'.saved.consistent.current.mpr ⟨thread, isBack⟩)).2
  have here := shows'.here
  rw [shows'.current thread isBack, found] at here
  exact (Option.some.inj here).symm

theorem bootThread_unaware : ∃ left back, run sampleStep sampleBoot creates = some left ∧
    run sampleStep left runsAndReturns = some back ∧ kept back.cpu.state = kept left.cpu.state := by
  have enabled : (run sampleStep sampleBoot creates).isSome = true := by decide +kernel
  rcases Option.isSome_iff_exists.mp enabled with ⟨left, reaches⟩
  have leaves : (run sampleStep sampleBoot creates).map (fun system =>
      decide (runQueueCurrent system.kernel = some armBoot.bootThread ∧
        StepsMeet sampleStep (Undisturbed armBoot.bootThread) system runsAndReturns ∧
        (run sampleStep system runsAndReturns).map (fun system => runQueueCurrent system.kernel) =
          some (some armBoot.bootThread))) = some true := by
    decide +kernel
  rw [reaches, Option.map_some, Option.some.injEq, decide_eq_true_iff] at leaves
  rcases leaves with ⟨isLeft, undisturbed, returns⟩
  rcases Option.map_eq_some_iff.mp returns with ⟨back, isBack, current⟩
  exact ⟨left, back, reaches, isBack, thread_unaware (fun _site => 0) Machine.beaglexm armBoot
    (show ThreadMode supervisorThread.mode by decide) reaches isLeft undisturbed isBack current⟩

end Context
end ShovelOS
