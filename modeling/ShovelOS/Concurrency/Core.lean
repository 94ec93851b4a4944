import ShovelOS.Library.Lock

namespace ShovelOS
namespace Concurrency

/-!
# Threads on one core, instruction by instruction

The mutexes of the two ARM ports are written in assembly.  Their code is a
program of instructions here, and a step of a run executes one instruction of
the thread that the core is running.  Between any two instructions an
interrupt may be served, unless the thread has masked interrupts, and the
interrupt may resume another thread.

On the `arm_a` port the handlers of interrupts and of supervisor calls begin
with `clrex`, so a switch closes the exclusive monitor.  A `strex` that finds
the monitor open may fail all the same.  The barriers order the accesses of
several cores and do nothing to the state of one.

The code around the mutexes belongs to the callers.  It calls the functions
with any values in the registers that do not carry an argument, sets its
interrupt mask, and writes to memory.  When it yields, it unmasks interrupts
and another thread is resumed.  Next to the registers, a thread keeps what
the results of its calls have told its code: the mutexes that it holds.
-/

/-- The registers that the code uses. -/
inductive Register where
  | r0 | r1 | r2 | r3 | r4 | lr
deriving DecidableEq

/-- What a register holds: a word, or the return address of a call. -/
inductive Value where
  | word (value : UInt32)
  | caller
deriving DecidableEq

/-- The instructions that the code uses, with branches to points of type `ρ`. -/
inductive Instruction (ρ : Type) where
  | push (registers : List Register)
  | pop (registers : List Register)
  | popPc (registers : List Register)
  | mov (rd : Register) (immediate : UInt32)
  | movRegister (rd rm : Register)
  | movPcLr
  | ldr (rt rn : Register)
  | str (rt rn : Register)
  | ldrex (rt rn : Register)
  | strex (rd rt rn : Register)
  | cmp (rn : Register) (immediate : UInt32)
  | cmpRegister (rn rm : Register)
  | b (label : ρ)
  | beq (label : ρ)
  | dmb
  | dsb
  | isb
  | cpsid
  | cpsie
  | blKthreadYield

/-- The functions that `mutex.h` declares and `mutex.S` defines. -/
inductive MutexFunction where
  | mutexLock
  | mutexTrylock
  | mutexUnlock
deriving DecidableEq

/-- A program: the instruction at a point and the point that follows it in
the text, and the point where each function begins. -/
structure Program (ρ : Type) where
  fetch : ρ → Instruction ρ × ρ
  entry : MutexFunction → ρ

/-- A thread.  It is at a point of the program or, with no point, in its
caller's code.  The last three fields are the caller's: its interrupt mask,
the call it made last, and the mutexes that it holds. -/
structure Thread (ρ : Type) where
  registers : Register → Value
  z : Bool
  stack : List Value
  pc : Option ρ
  masked : Bool
  call : MutexFunction × UInt32
  held : UInt32 → Bool

/-- The core, the memory, and the threads. -/
structure Core (ι ρ : Type) where
  memory : UInt32 → UInt32
  exclusive : Bool
  current : ι
  threads : ι → Thread ρ

/-- What an instruction does not decide itself: whether a `strex` fails, and
for `kthread_yield` the thread that runs next and what is left in the
registers and flags that a function need not preserve. -/
structure World (ι : Type) where
  strexFails : Bool
  next : ι
  registers : Register → Value
  z : Bool

variable {ι ρ : Type}

namespace Thread

def set (thread : Thread ρ) (register : Register) (value : Value) : Thread ρ :=
  { thread with registers := Function.update thread.registers register value }

def goto (thread : Thread ρ) (point : ρ) : Thread ρ := { thread with pc := some point }

/-- Pop into registers, the lowest address first. -/
def pops (thread : Thread ρ) : List Register → Option (Thread ρ)
  | [] => some thread
  | register :: registers =>
      match thread.stack with
      | [] => none
      | value :: stack => pops ({ thread with stack := stack }.set register value) registers

/-- Return to the caller, who learns whether it holds the mutex. -/
def leave (thread : Thread ρ) : Thread ρ :=
  { thread with
    pc := none
    held := match thread.call with
      | (.mutexLock, address) => Function.update thread.held address true
      | (.mutexTrylock, address) =>
          if thread.registers .r0 = .word 0 then Function.update thread.held address true
          else thread.held
      | (.mutexUnlock, _address) => thread.held }

/-- Branch to the address in a value. -/
def branch (thread : Thread ρ) : Value → Option (Thread ρ)
  | .word _value => none
  | .caller => some thread.leave

/-- Compare two words. -/
def compare (thread : Thread ρ) : Value → Value → Option (Thread ρ)
  | .word first, .word second => some { thread with z := decide (first = second) }
  | _, _ => none

/-- Begin a call.  The registers that carry no argument hold anything. -/
def enter (thread : Thread ρ) (program : Program ρ) (function : MutexFunction) (address : UInt32)
    (registers : Register → Value) (z : Bool) : Thread ρ where
  registers := Function.update (Function.update registers .r0 (.word address)) .lr .caller
  z := z
  stack := []
  pc := some (program.entry function)
  masked := thread.masked
  call := (function, address)
  held := if function = .mutexUnlock then Function.update thread.held address false else thread.held

/-- What `kthread_yield` leaves: of the registers, `R4` and the stack are
preserved, and interrupts are enabled. -/
def yielded (thread : Thread ρ) (world : World ι) : Thread ρ :=
  { thread with
    registers := Function.update world.registers .r4 (thread.registers .r4)
    z := world.z
    masked := false }

end Thread

namespace Core

def thread (core : Core ι ρ) : Thread ρ := core.threads core.current

def address (core : Core ι ρ) (register : Register) : Option UInt32 :=
  match core.thread.registers register with
  | .word address => some address
  | .caller => none

theorem address_eq {core : Core ι ρ} {register : Register} {address : UInt32}
    (holds : core.thread.registers register = .word address) :
    core.address register = some address := by
  rw [Core.address, holds]

variable [DecidableEq ι]

def put (core : Core ι ρ) (thread : Thread ρ) : Core ι ρ :=
  { core with threads := Function.update core.threads core.current thread }

/-- Execute one instruction of the running thread, where `next` is the point
behind it. -/
def execute (core : Core ι ρ) (world : World ι) (next : ρ) : Instruction ρ → Option (Core ι ρ)
  | .push registers =>
      some (core.put ({ core.thread with
        stack := registers.map core.thread.registers ++ core.thread.stack }.goto next))
  | .pop registers => (core.thread.pops registers).map (fun thread => core.put (thread.goto next))
  | .popPc registers =>
      (core.thread.pops registers).bind (fun thread =>
        match thread.stack with
        | [] => none
        | value :: stack => ({ thread with stack := stack }.branch value).map core.put)
  | .mov rd immediate => some (core.put ((core.thread.set rd (.word immediate)).goto next))
  | .movRegister rd rm =>
      some (core.put ((core.thread.set rd (core.thread.registers rm)).goto next))
  | .movPcLr => (core.thread.branch (core.thread.registers .lr)).map core.put
  | .ldr rt rn =>
      (core.address rn).map (fun address =>
        core.put ((core.thread.set rt (.word (core.memory address))).goto next))
  | .str rt rn =>
      (core.address rn).bind (fun address => (core.address rt).map (fun value =>
        { core with memory := Function.update core.memory address value }.put
          (core.thread.goto next)))
  | .ldrex rt rn =>
      (core.address rn).map (fun address =>
        { core with exclusive := true }.put
          ((core.thread.set rt (.word (core.memory address))).goto next))
  | .strex rd rt rn =>
      (core.address rn).bind (fun address => (core.address rt).map (fun value =>
        if core.exclusive = true ∧ world.strexFails = false then
          { core with memory := Function.update core.memory address value, exclusive := false }.put
            ((core.thread.set rd (.word 0)).goto next)
        else { core with exclusive := false }.put ((core.thread.set rd (.word 1)).goto next)))
  | .cmp rn immediate =>
      (core.thread.compare (core.thread.registers rn) (.word immediate)).map
        (fun thread => core.put (thread.goto next))
  | .cmpRegister rn rm =>
      (core.thread.compare (core.thread.registers rn) (core.thread.registers rm)).map
        (fun thread => core.put (thread.goto next))
  | .b label => some (core.put (core.thread.goto label))
  | .beq label => some (core.put (core.thread.goto (if core.thread.z = true then label else next)))
  | .dmb | .dsb | .isb => some (core.put (core.thread.goto next))
  | .cpsid => some (core.put ({ core.thread with masked := true }.goto next))
  | .cpsie => some (core.put ({ core.thread with masked := false }.goto next))
  | .blKthreadYield =>
      some { core.put ((core.thread.yielded world).goto next) with
        exclusive := false
        current := world.next }

/-! Instructions whose operands are known. -/

variable {core : Core ι ρ} {world : World ι} {next : ρ} {address value first second : UInt32}
  {rd rn rm rt : Register}

theorem execute_ldr (holds : core.thread.registers rn = .word address) :
    core.execute world next (.ldr rt rn) =
      some (core.put ((core.thread.set rt (.word (core.memory address))).goto next)) := by
  rw [execute, address_eq holds, Option.map_some]

theorem execute_ldrex (holds : core.thread.registers rn = .word address) :
    core.execute world next (.ldrex rt rn) =
      some ({ core with exclusive := true }.put
        ((core.thread.set rt (.word (core.memory address))).goto next)) := by
  rw [execute, address_eq holds, Option.map_some]

theorem execute_str (holds : core.thread.registers rn = .word address)
    (stores : core.thread.registers rt = .word value) :
    core.execute world next (.str rt rn) =
      some ({ core with memory := Function.update core.memory address value }.put
        (core.thread.goto next)) := by
  rw [execute, address_eq holds, address_eq stores, Option.bind_some, Option.map_some]

theorem execute_strex_succeeds (holds : core.thread.registers rn = .word address)
    (stores : core.thread.registers rt = .word value)
    (succeeds : core.exclusive = true ∧ world.strexFails = false) :
    core.execute world next (.strex rd rt rn) =
      some ({ core with
          memory := Function.update core.memory address value
          exclusive := false }.put ((core.thread.set rd (.word 0)).goto next)) := by
  rw [execute, address_eq holds, address_eq stores, Option.bind_some, Option.map_some,
    if_pos succeeds]

theorem execute_strex_fails (holds : core.thread.registers rn = .word address)
    (stores : core.thread.registers rt = .word value)
    (fails : ¬ (core.exclusive = true ∧ world.strexFails = false)) :
    core.execute world next (.strex rd rt rn) =
      some ({ core with exclusive := false }.put ((core.thread.set rd (.word 1)).goto next)) := by
  rw [execute, address_eq holds, address_eq stores, Option.bind_some, Option.map_some, if_neg fails]

theorem execute_cmp (holds : core.thread.registers rn = .word first) :
    core.execute world next (.cmp rn second) =
      some (core.put ({ core.thread with z := decide (first = second) }.goto next)) := by
  rw [execute, holds, Thread.compare, Option.map_some]

theorem execute_cmpRegister (holds : core.thread.registers rn = .word first)
    (others : core.thread.registers rm = .word second) :
    core.execute world next (.cmpRegister rn rm) =
      some (core.put ({ core.thread with z := decide (first = second) }.goto next)) := by
  rw [execute, holds, others, Thread.compare, Option.map_some]

theorem execute_beq_taken {label : ρ} (equal : core.thread.z = true) :
    core.execute world next (.beq label) = some (core.put (core.thread.goto label)) := by
  rw [execute, if_pos equal]

theorem execute_beq_passed {label : ρ} (different : ¬ core.thread.z = true) :
    core.execute world next (.beq label) = some (core.put (core.thread.goto next)) := by
  rw [execute, if_neg different]

theorem execute_movPcLr (holds : core.thread.registers .lr = .caller) :
    core.execute world next .movPcLr = some (core.put core.thread.leave) := by
  rw [execute, holds, Thread.branch, Option.map_some]

end Core

/-- The steps of a run: the running thread's code calls a function, sets its
interrupt mask or writes to memory, its next instruction is executed, or an
interrupt is served and a thread resumed. -/
inductive Event (ι : Type) where
  | call (function : MutexFunction) (address : UInt32) (registers : Register → Value) (z : Bool)
  | mask (masked : Bool)
  | store (address value : UInt32)
  | execute (world : World ι)
  | interrupt (next : ι)

variable [DecidableEq ι]

def step (program : Program ρ) (core : Core ι ρ) : Event ι → Option (Core ι ρ)
  | .call function address registers z =>
      match core.thread.pc with
      | none => some (core.put (core.thread.enter program function address registers z))
      | some _point => none
  | .mask masked =>
      match core.thread.pc with
      | none => some (core.put { core.thread with masked := masked })
      | some _point => none
  | .store address value =>
      match core.thread.pc with
      | none => some { core with memory := Function.update core.memory address value }
      | some _point => none
  | .execute world =>
      match core.thread.pc with
      | none => none
      | some point => core.execute world (program.fetch point).2 (program.fetch point).1
  | .interrupt next =>
      if core.thread.masked = true then none
      else some { core with exclusive := false, current := next }

/-- What a store to a mutex does: it acquires the mutex by writing one, and
releases it otherwise. -/
def observeStore (core : Core ι ρ) (rt rn : Register) : Option (Lock.Action ι UInt32) :=
  (core.address rn).bind (fun address => (core.address rt).map (fun value =>
    if value = 1 then .acquire core.current address else .release core.current address))

/-- What a load from a mutex does: `mutex_trylock` is refused by a one. -/
def observeLoad (core : Core ι ρ) (rn : Register) : Option (Lock.Action ι UInt32) :=
  (core.address rn).bind (fun address =>
    if core.thread.call.1 = .mutexTrylock ∧ core.memory address = 1 then
      some (.refuse core.current address)
    else none)

/-- What an instruction does to a lock. -/
def observeInstruction (core : Core ι ρ) (world : World ι) :
    Instruction ρ → Option (Lock.Action ι UInt32)
  | .ldr _rt rn | .ldrex _rt rn => observeLoad core rn
  | .str rt rn => observeStore core rt rn
  | .strex _rd rt rn =>
      if core.exclusive = true ∧ world.strexFails = false then observeStore core rt rn else none
  | _ => none

/-- What a step does to a lock. -/
def observe (program : Program ρ) (core : Core ι ρ) : Event ι → Option (Lock.Action ι UInt32)
  | .execute world =>
      match core.thread.pc with
      | none => none
      | some point => observeInstruction core world (program.fetch point).1
  | _ => none

/-- What callers promise: they call the functions with mutexes, unlock only
what they hold, and write to a mutex only through the functions. -/
def Disciplined (mutexes : UInt32 → Prop) (core : Core ι ρ) : Event ι → Prop
  | .call function address _registers _z =>
      mutexes address ∧ (function = .mutexUnlock → core.thread.held address = true)
  | .store address _value => ¬ mutexes address
  | _ => True

/-- Whether a step keeps the promises can be evaluated. -/
instance Disciplined.decidable (mutexes : UInt32 → Prop) [DecidablePred mutexes] (core : Core ι ρ) :
    (event : Event ι) → Decidable (Disciplined mutexes core event)
  | .call function address _registers _z =>
      inferInstanceAs (Decidable (mutexes address ∧
        (function = .mutexUnlock → core.thread.held address = true)))
  | .store address _value => inferInstanceAs (Decidable (¬ mutexes address))
  | .mask _masked => isTrue trivial
  | .execute _world => isTrue trivial
  | .interrupt _next => isTrue trivial

/-- Every thread is in its caller's code with interrupts enabled and holds
nothing, and `mutex_init` has cleared the mutexes. -/
structure Initial (mutexes : UInt32 → Prop) (core : Core ι ρ) : Prop where
  cleared : ∀ address, mutexes address → core.memory address = 0
  outside : ∀ thread, (core.threads thread).pc = none
  unmasked : ∀ thread, (core.threads thread).masked = false
  holdsNothing : ∀ thread address, (core.threads thread).held address = false

def idle (current : ι) : Core ι ρ where
  memory := fun _address => 0
  exclusive := false
  current := current
  threads := fun _thread =>
    ⟨fun _register => .word 0, false, [], none, false, (.mutexLock, 0), fun _address => false⟩

omit [DecidableEq ι] in
theorem idle_initial (mutexes : UInt32 → Prop) (current : ι) :
    Initial mutexes (idle current : Core ι ρ) :=
  ⟨fun _address _mutex => rfl, fun _thread => rfl, fun _thread => rfl, fun _thread _address => rfl⟩

/-- An instruction of one of two threads.  A `strex` succeeds if it can, and
`kthread_yield` switches to the given thread. -/
def instruction (next : Bool) : Event Bool := .execute ⟨false, next, fun _register => .caller, true⟩

end Concurrency
end ShovelOS
