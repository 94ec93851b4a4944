import ShovelOS.Library.WordFields
import ShovelOS.Library.WordStack
import ShovelOS.Sched.Kernel
import Mathlib.Tactic.Simps.Basic

namespace ShovelOS
namespace Context

open Sched WordStack

/-!
# The processor state that a context switch works on

The registers of `arm_a` that `arch/arm_a/context/context_a.S` reads and
writes, with a stack pointer, a link register and a saved status for each
mode.  An instruction is a function on this state, and a routine performs
its instructions one after the other.

`msr` without a field list writes the flags and the control bits, and leaves
the bits from 8 to 23 of the status register as they are.  The flags that the
comparisons set are not kept, since nothing reads them behind their branches.
-/

/-- The general registers are numbered from zero. -/
instance registers_neZero : NeZero (13 : Nat) := ⟨by decide⟩

/-- The registers and the memory.  User and system mode share a bank. -/
@[ext]
structure Cpu where
  r : Fin 13 → UInt32
  sp : UInt32 → UInt32
  lr : UInt32 → UInt32
  spsr : UInt32 → UInt32
  cpsr : UInt32
  pc : UInt32
  memory : UInt32 → UInt32
  exclusive : Bool

def modeMask : UInt32 := 0x1F

def psrModeUsr : UInt32 := 16

def psrModeFiq : UInt32 := 17

def psrModeIrq : UInt32 := 18

def psrModeSvc : UInt32 := 19

def psrModeSys : UInt32 := 31

/-- The fields that `msr` writes. -/
def msrMask : UInt32 := 0xFF0000FF

def bank (mode : UInt32) : UInt32 := if mode = psrModeSys then psrModeUsr else mode

namespace Cpu

variable (cpu : Cpu)

def mode : UInt32 := cpu.cpsr &&& modeMask

def getSp : UInt32 := cpu.sp (bank cpu.mode)

def getLr : UInt32 := cpu.lr (bank cpu.mode)

def getSpsr : UInt32 := cpu.spsr cpu.mode

@[simps -fullyApplied] def set (rd : Fin 13) (value : UInt32) : Cpu :=
  { cpu with r := Function.update cpu.r rd value }

@[simps -fullyApplied] def setSp (value : UInt32) : Cpu :=
  { cpu with sp := Function.update cpu.sp (bank cpu.mode) value }

@[simps -fullyApplied] def setLr (value : UInt32) : Cpu :=
  { cpu with lr := Function.update cpu.lr (bank cpu.mode) value }

@[simps -fullyApplied] def msrCpsr (value : UInt32) : Cpu :=
  { cpu with cpsr := WordFields.insert msrMask cpu.cpsr value }

@[simps -fullyApplied] def msrSpsr (value : UInt32) : Cpu :=
  { cpu with
    spsr := Function.update cpu.spsr cpu.mode (WordFields.insert msrMask cpu.getSpsr value) }

@[simps -fullyApplied] def cps (mode : UInt32) : Cpu :=
  { cpu with cpsr := WordFields.insert modeMask cpu.cpsr mode }

/-- `push` of the given words, the first at the lowest address. -/
@[simps -fullyApplied] def push (pushed : List UInt32) : Cpu :=
  { cpu with
    memory := (pushAll cpu.memory cpu.getSp pushed).1
    sp := Function.update cpu.sp (bank cpu.mode) (pushAll cpu.memory cpu.getSp pushed).2 }

def top (i : Nat) : UInt32 := cpu.memory (cpu.getSp + 4 * UInt32.ofNat i)

/-- Take words off the stack of the current mode. -/
@[simps -fullyApplied] def drop (n : Nat) : Cpu :=
  { cpu with sp := Function.update cpu.sp (bank cpu.mode) (cpu.getSp + 4 * UInt32.ofNat n) }

def pop (rd : Fin 13) : Cpu := (cpu.set rd (cpu.top 0)).drop 1

def popRegisters : Cpu := { cpu with r := fun i => cpu.top i }.drop 13

/-- The entry of an exception: the mode changes, interrupts are masked, and
the mode's link register and saved status are written. -/
@[simps -fullyApplied] def takeException (mode link : UInt32) : Cpu :=
  { cpu with
    spsr := Function.update cpu.spsr mode cpu.cpsr
    lr := Function.update cpu.lr mode link
    cpsr := WordFields.insert 0xBF cpu.cpsr (mode ||| 0x80) }

@[simps -fullyApplied] def returnTo (address : UInt32) : Cpu :=
  { cpu with pc := address, cpsr := cpu.getSpsr }

/-- The state that a thread is interrupted in, as `struct cpu_state_struct`
keeps it: its program counter is four further. -/
def state : ArmCpuState := ⟨cpu.cpsr, cpu.pc + 4, cpu.getSp, cpu.getLr, cpu.r⟩

/-- The `struct cpu_state_struct` on the stack of the current mode. -/
def frame : ArmCpuState := ⟨cpu.top 0, cpu.top 1, cpu.top 2, cpu.top 3, fun i => cpu.top (4 + i)⟩

end Cpu

/-! ## The routines -/

/-- The calls whose return addresses `bl` leaves in `LR`. -/
inductive CallSite where
  | getMode
  | handler
  | setMode
deriving DecidableEq

def _armGetSpsrModeSpAndLr (cpu : Cpu) : Cpu :=
  let cpu := cpu.set 0 cpu.getSpsr
  let cpu := cpu.set 2 cpu.cpsr
  let cpu := cpu.set 1 (cpu.r 2 &&& ~~~modeMask)
  let cpu := cpu.set 0 (cpu.r 0 &&& modeMask)
  let cpu := cpu.set 1 (cpu.r 1 ||| cpu.r 0)
  let cpu := cpu.msrCpsr (cpu.r 1)
  let cpu := cpu.set 0 cpu.getSp
  let cpu := cpu.set 1 cpu.getLr
  cpu.msrCpsr (cpu.r 2)

/-- `_arm_get_INT_MODE_SP_and_LR`.  In user mode it branches to code with a
transfer of user registers that writes back, which is unpredictable. -/
def _armGetIntModeSpAndLr (cpu : Cpu) : Option Cpu :=
  let cpu := cpu.set 0 cpu.getSpsr
  let cpu := cpu.set 0 (cpu.r 0 &&& modeMask)
  if cpu.r 0 = 16 then none else some (_armGetSpsrModeSpAndLr cpu)

def _armSetSpsrModeSpAndLr (cpu : Cpu) : Cpu :=
  let cpu := cpu.push [cpu.r 4]
  let cpu := cpu.set 2 cpu.getSpsr
  let cpu := cpu.set 4 cpu.cpsr
  let cpu := cpu.set 2 (cpu.r 2 &&& modeMask)
  let cpu := cpu.set 3 (cpu.r 4 &&& ~~~modeMask)
  let cpu := cpu.set 2 (cpu.r 2 ||| cpu.r 3)
  let cpu := cpu.msrCpsr (cpu.r 2)
  let cpu := cpu.setSp (cpu.r 0)
  let cpu := cpu.setLr (cpu.r 1)
  let cpu := cpu.msrCpsr (cpu.r 4)
  cpu.pop 4

def _armSetIntModeSpAndLr (cpu : Cpu) : Option Cpu :=
  let cpu := cpu.set 2 cpu.getSpsr
  let cpu := cpu.set 2 (cpu.r 2 &&& modeMask)
  if cpu.r 2 = 16 then none else some (_armSetSpsrModeSpAndLr cpu)

/-- `_my_IRQ_handler` between its first two calls: the frame is completed. -/
def completeFrame (link : CallSite → UInt32) (cpu : Cpu) : Cpu :=
  let cpu := cpu.push [cpu.r 0, cpu.r 1]
  let cpu := cpu.push [cpu.r 4]
  let cpu := cpu.set 0 cpu.getSpsr
  let cpu := cpu.push [cpu.r 0]
  let cpu := cpu.set 0 cpu.getSp
  cpu.setLr (link .handler)

/-- `_my_IRQ_handler` up to the call of the interrupt controller, with the
frame on the stack of the interrupt mode. -/
def irqCapture (link : CallSite → UInt32) (cpu : Cpu) : Option Cpu :=
  let cpu := { cpu with exclusive := false }
  let cpu := cpu.push (List.ofFn cpu.r)
  let cpu := cpu.set 4 cpu.getLr
  (_armGetIntModeSpAndLr (cpu.setLr (link .getMode))).map (completeFrame link)

/-- `_svc_yield` in the supervisor mode: the rest of the frame is read. -/
def readSupervisor (cpu : Cpu) : Cpu :=
  let cpu := cpu.set 0 cpu.getSpsr
  let cpu := cpu.set 1 (cpu.getLr + 4)
  let cpu := cpu.set 2 cpu.getSp
  cpu.set 3 (cpu.memory cpu.getSp)

/-- `_svc_yield` up to the call of `_arch_irq_task_switch`. -/
def svcYield (link : CallSite → UInt32) (cpu : Cpu) : Cpu :=
  let cpu := cpu.cps 18
  let cpu := cpu.push (List.ofFn cpu.r)
  let cpu := cpu.cps 19
  let cpu := readSupervisor cpu
  let cpu := cpu.cps 18
  let cpu := cpu.push [cpu.r 0, cpu.r 1, cpu.r 2, cpu.r 3]
  let cpu := cpu.set 0 cpu.getSp
  cpu.setLr (link .handler)

/-- `_my_SVC_handler` up to its end or the call of `_arch_irq_task_switch`:
whether it yields.  The flags that its comparison sets are not kept. -/
def svcCapture (link : CallSite → UInt32) (cpu : Cpu) : Bool × Cpu :=
  let cpu := { cpu with exclusive := false }
  if cpu.r 0 = 0 then (true, svcYield link cpu) else (false, cpu.returnTo cpu.getLr)

/-- `___irq_wake_task_on_stack` up to its call: the first words of the frame
are read. -/
def loadFrame (link : CallSite → UInt32) (cpu : Cpu) : Cpu :=
  let cpu := cpu.pop 0
  let cpu := cpu.msrSpsr (cpu.r 0)
  let cpu := cpu.pop 4
  -- pop {R0, R1}
  let cpu := ((cpu.set 0 (cpu.top 0)).set 1 (cpu.top 1)).drop 2
  cpu.setLr (link .setMode)

/-- `___irq_wake_task_on_stack` behind its call: back to the thread. -/
def leaveIrq (cpu : Cpu) : Cpu :=
  let cpu := cpu.setLr (cpu.r 4)
  let cpu := cpu.popRegisters
  cpu.returnTo (cpu.getLr - 4)

/-- `___irq_wake_task_on_stack`. -/
def wake (link : CallSite → UInt32) (cpu : Cpu) : Option Cpu :=
  (_armSetIntModeSpAndLr (loadFrame link cpu)).map leaveIrq

end Context
end ShovelOS
