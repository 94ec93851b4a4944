import ShovelOS.Context.Cpu
import Mathlib.Data.Fintype.Basic
import Mathlib.Tactic.FinCases

namespace ShovelOS
namespace Context

open Sched WordStack

/-!
# What the routines save and restore

The frame that the two ways into the scheduler build is the state of the
interrupted thread, and the way out gives the processor the state that it
finds in the frame.  The interrupted and the resumed thread are in a mode
with a bank of its own that is neither that of users nor that of interrupts.
-/

/-- A mode that the routines can switch from and to. -/
structure ThreadMode (mode : UInt32) : Prop where
  notUsr : mode ≠ psrModeUsr
  notFiq : mode ≠ psrModeFiq
  notIrq : mode ≠ psrModeIrq

theorem ThreadMode.svc : ThreadMode psrModeSvc := ⟨by decide, by decide, by decide⟩

theorem ThreadMode.bank_ne {mode : UInt32} (threadMode : ThreadMode mode) :
    bank mode ≠ psrModeIrq := by
  rw [bank]
  split
  · decide
  · exact threadMode.notIrq

theorem mode_of_msr (old new : UInt32) :
    WordFields.insert msrMask old new &&& modeMask = new &&& modeMask :=
  WordFields.insert_and_inside (by decide)

theorem mode_of_cps (old mode : UInt32) :
    WordFields.insert modeMask old mode &&& modeMask = mode &&& modeMask :=
  WordFields.insert_and_inside (by decide)

/-- The status that the routines make to switch to the mode of another one. -/
theorem switch_status (old new : UInt32) :
    (old &&& ~~~modeMask) ||| (new &&& modeMask) = WordFields.insert modeMask old new := rfl

theorem bank_irq : bank psrModeIrq = psrModeIrq := if_neg (by decide)

theorem bank_svc : bank psrModeSvc = psrModeSvc := if_neg (by decide)

/-! ## The banked registers of the interrupted mode -/

theorem _armGetSpsrModeSpAndLr_eq (cpu : Cpu) : _armGetSpsrModeSpAndLr cpu =
    { cpu with
      r := Function.update (Function.update (Function.update cpu.r 2 cpu.cpsr) 0
        (cpu.sp (bank (cpu.getSpsr &&& modeMask)))) 1
          (cpu.lr (bank (cpu.getSpsr &&& modeMask))) } := by
  have switched :
      WordFields.insert msrMask cpu.cpsr (WordFields.insert modeMask cpu.cpsr cpu.getSpsr) &&&
      modeMask = cpu.getSpsr &&& modeMask := by rw [mode_of_msr, mode_of_cps]
  have oneZero : (1 : Fin 13) ≠ 0 := by decide
  have twoZero : (2 : Fin 13) ≠ 0 := by decide
  have twoOne : (2 : Fin 13) ≠ 1 := by decide
  simp only [_armGetSpsrModeSpAndLr, Cpu.set, Cpu.msrCpsr, Cpu.getSp, Cpu.getLr, Cpu.mode,
    Function.update_self, Function.update_of_ne oneZero, Function.update_of_ne oneZero.symm,
    Function.update_of_ne twoZero, Function.update_of_ne twoZero.symm, Function.update_of_ne twoOne]
  rw [switch_status, switched, WordFields.insert_insert_self]
  congr 1
  funext i
  simp only [Function.update_apply]
  split_ifs <;> rfl

/-- The routine that reads them, when the interrupted mode is not user mode. -/
theorem _armGetIntModeSpAndLr_eq (cpu : Cpu) (notUsr : cpu.getSpsr &&& modeMask ≠ psrModeUsr) :
    _armGetIntModeSpAndLr cpu = some { cpu with
      r := Function.update (Function.update (Function.update cpu.r 2 cpu.cpsr) 0
        (cpu.sp (bank (cpu.getSpsr &&& modeMask)))) 1
          (cpu.lr (bank (cpu.getSpsr &&& modeMask))) } := by
  simp only [_armGetIntModeSpAndLr, Cpu.set, Function.update_self]
  rw [if_neg (show ¬ cpu.getSpsr &&& modeMask = 16 from notUsr), _armGetSpsrModeSpAndLr_eq]
  congr 2
  funext i
  simp only [Function.update_apply]
  split_ifs <;> rfl

/-- The routine that writes them uses the stack of the interrupt mode. -/
theorem _armSetSpsrModeSpAndLr_eq (cpu : Cpu) (irq : cpu.cpsr &&& modeMask = psrModeIrq)
    (threadMode : ThreadMode (cpu.spsr psrModeIrq &&& modeMask)) :
    ∃ r, _armSetSpsrModeSpAndLr cpu = { cpu with
        r := r
        sp := Function.update cpu.sp (bank (cpu.spsr psrModeIrq &&& modeMask)) (cpu.r 0)
        lr := Function.update cpu.lr (bank (cpu.spsr psrModeIrq &&& modeMask)) (cpu.r 1)
        memory := Function.update cpu.memory (cpu.sp psrModeIrq - 4) (cpu.r 4) } ∧
          r 4 = cpu.r 4 := by
  have switched : WordFields.insert msrMask cpu.cpsr
      (cpu.spsr psrModeIrq &&& modeMask ||| cpu.cpsr &&& ~~~modeMask) &&& modeMask =
      cpu.spsr psrModeIrq &&& modeMask := by
    rw [UInt32.or_comm, switch_status, mode_of_msr, mode_of_cps]
  have different : psrModeIrq ≠ bank (cpu.spsr psrModeIrq &&& modeMask) := threadMode.bank_ne.symm
  refine ⟨(_armSetSpsrModeSpAndLr cpu).r, Cpu.ext rfl ?_ ?_ ?_ ?_ ?_ ?_ ?_, ?_⟩
  · simp [_armSetSpsrModeSpAndLr, Cpu.pop, Cpu.mode, Cpu.getSpsr, Cpu.getSp, pushAll, irq, bank_irq,
      switched, WordFields.insert_insert_self, Function.update_of_ne different]
    rw [Function.update_comm different, Function.update_idem, Function.update_comm different.symm,
      Function.update_eq_self]
  · simp [_armSetSpsrModeSpAndLr, Cpu.pop, Cpu.mode, Cpu.getSpsr, irq, switched]
  · simp [_armSetSpsrModeSpAndLr, Cpu.pop]
  · simp [_armSetSpsrModeSpAndLr, Cpu.pop, WordFields.insert_insert_self]
  · simp [_armSetSpsrModeSpAndLr, Cpu.pop]
  · simp [_armSetSpsrModeSpAndLr, Cpu.pop, Cpu.getSp, Cpu.mode, pushAll, irq, bank_irq]
  · simp [_armSetSpsrModeSpAndLr, Cpu.pop]
  · simp [_armSetSpsrModeSpAndLr, Cpu.pop, Cpu.top, Cpu.mode, Cpu.getSpsr, Cpu.getSp, pushAll, irq,
      bank_irq, switched, WordFields.insert_insert_self, Function.update_of_ne different]

theorem _armSetIntModeSpAndLr_eq (cpu : Cpu) (irq : cpu.cpsr &&& modeMask = psrModeIrq)
    (threadMode : ThreadMode (cpu.spsr psrModeIrq &&& modeMask)) :
    ∃ r, _armSetIntModeSpAndLr cpu = some { cpu with
        r := r
        sp := Function.update cpu.sp (bank (cpu.spsr psrModeIrq &&& modeMask)) (cpu.r 0)
        lr := Function.update cpu.lr (bank (cpu.spsr psrModeIrq &&& modeMask)) (cpu.r 1)
        memory := Function.update cpu.memory (cpu.sp psrModeIrq - 4) (cpu.r 4) } ∧
          r 4 = cpu.r 4 := by
  have notUsr : ¬ cpu.getSpsr &&& modeMask = 16 := by
    rw [Cpu.getSpsr, Cpu.mode, irq]
    exact threadMode.notUsr
  rcases _armSetSpsrModeSpAndLr_eq ((cpu.set 2 cpu.getSpsr).set 2 (cpu.getSpsr &&& modeMask)) irq
    threadMode with ⟨r, result, four⟩
  refine ⟨r, ?_, ?_⟩
  · simp only [_armSetIntModeSpAndLr, Cpu.set_r, Function.update_self]
    rw [if_neg notUsr, result]
    simp
  · rw [four]
    simp

/-! ## The frame -/

/-- The words of a `struct cpu_state_struct`, in memory order. -/
def stateWords (state : ArmCpuState) : List UInt32 :=
  [state.cpsr, state.pc, state.sp, state.lr] ++ List.ofFn state.r

theorem stateWords_length (state : ArmCpuState) : (stateWords state).length = 17 := by
  rw [stateWords, List.length_append, List.length_ofFn]
  rfl

/-- The frame that the words on top of the stack are. -/
theorem frame_of_words {cpu : Cpu} {state : ArmCpuState}
    (live : words cpu.memory cpu.getSp 17 = stateWords state) : cpu.frame = state := by
  have top : ∀ i, i < 17 → cpu.top i = (stateWords state).getD i 0 := by
    intro i inside
    rw [Cpu.top, ← words_getD cpu.memory cpu.getSp inside, live]
  have registers : (fun i : Fin 13 => cpu.top (4 + i)) = state.r := by
    funext i
    rw [top (4 + i) (by omega)]
    fin_cases i <;> rfl
  rw [Cpu.frame, registers, top 0 (by decide), top 1 (by decide), top 2 (by decide),
    top 3 (by decide)]
  rfl

/-- Words have been pushed on the stack of the interrupt mode. -/
structure Pushed (memory : UInt32 → UInt32) (sp : UInt32) (pushed : List UInt32)
    (cpu : Cpu) : Prop where
  contents : cpu.memory = (pushAll memory sp pushed).1
  pointer : cpu.sp psrModeIrq = (pushAll memory sp pushed).2

section Pushes

variable {memory : UInt32 → UInt32} {sp : UInt32} {before : List UInt32} {cpu : Cpu}

theorem Pushed.refl (cpu : Cpu) : Pushed cpu.memory (cpu.sp psrModeIrq) [] cpu := ⟨rfl, rfl⟩

theorem Pushed.push (stacked : Pushed memory sp before cpu)
    (irq : cpu.cpsr &&& modeMask = psrModeIrq)
    (pushed : List UInt32) : Pushed memory sp (pushed ++ before) (cpu.push pushed) := by
  have pointer : cpu.getSp = cpu.sp psrModeIrq := by rw [Cpu.getSp, Cpu.mode, irq, bank_irq]
  refine ⟨?_, ?_⟩
  · rw [Cpu.push_memory, pointer, stacked.contents, stacked.pointer, pushAll_append]
  · rw [Cpu.push_sp, Cpu.mode, irq, bank_irq, Function.update_self, pointer, stacked.contents,
      stacked.pointer, pushAll_append]

theorem Pushed.set (stacked : Pushed memory sp before cpu) (rd : Fin 13) (value : UInt32) :
    Pushed memory sp before (cpu.set rd value) := ⟨stacked.contents, stacked.pointer⟩

theorem Pushed.setLr (stacked : Pushed memory sp before cpu) (value : UInt32) :
    Pushed memory sp before (cpu.setLr value) := ⟨stacked.contents, stacked.pointer⟩

/-- The frame is completed with the registers that have been read. -/
theorem completeFrame_pushed (link : CallSite → UInt32) (stacked : Pushed memory sp before cpu)
    (irq : cpu.cpsr &&& modeMask = psrModeIrq) :
    Pushed memory sp ([cpu.spsr psrModeIrq, cpu.r 4, cpu.r 0, cpu.r 1] ++ before)
      (completeFrame link cpu) := by
  have saved : cpu.getSpsr = cpu.spsr psrModeIrq := by rw [Cpu.getSpsr, Cpu.mode, irq]
  rw [← saved]
  have banked := (stacked.push irq [cpu.r 0, cpu.r 1]).push irq [cpu.r 4]
  have status := (banked.set 0 cpu.getSpsr).push irq [cpu.getSpsr]
  exact (status.set 0 _).setLr (link .handler)

/-- What C code finds when the words of a state have been pushed: the state in
the frame, the stack pointer lower by the size of the frame, and the rest of
the memory as it was. -/
theorem Pushed.frame {state : ArmCpuState} (stacked : Pushed memory sp (stateWords state) cpu)
    (irq : cpu.mode = psrModeIrq) :
    cpu.frame = state ∧ cpu.sp psrModeIrq + 68 = sp ∧
      ∀ address, (∀ i < 17, address ≠ sp - 4 * UInt32.ofNat i - 4) →
        cpu.memory address = memory address := by
  have pointer : cpu.getSp = cpu.sp psrModeIrq := by rw [Cpu.getSp, irq, bank_irq]
  refine ⟨frame_of_words ?_, ?_, fun address outside => ?_⟩
  · have live := words_pushAll memory sp (stateWords state) 0 (by
      rw [stateWords_length]
      decide)
    rw [Nat.add_zero, stateWords_length, words, List.append_nil] at live
    rw [stacked.contents, pointer, stacked.pointer, live]
  · have above := pushAll_sp memory sp (stateWords state)
    rw [stateWords_length, ← stacked.pointer] at above
    exact above
  · rw [stacked.contents]
    exact pushAll_outside _ fun i inside => outside i (by rwa [stateWords_length] at inside)

end Pushes

/-- The processor when an interrupt has been taken. -/
def irqTaken (cpu : Cpu) : Cpu := cpu.takeException psrModeIrq (cpu.pc + 4)

/-- The processor when a supervisor call has been made. -/
def svcTaken (cpu : Cpu) : Cpu := cpu.takeException psrModeSvc cpu.pc

/-- An interrupt leaves the state of the interrupted thread on the stack of
the interrupt mode, and changes no other memory. -/
theorem irqCapture_pushed (link : CallSite → UInt32) (cpu : Cpu)
    (threadMode : ThreadMode cpu.mode) :
    ∃ captured, irqCapture link (irqTaken cpu) = some captured ∧ captured.mode = psrModeIrq ∧
      captured.spsr psrModeIrq = cpu.cpsr ∧
      Pushed cpu.memory (cpu.sp psrModeIrq) (stateWords cpu.state) captured := by
  have irq : (irqTaken cpu).cpsr &&& modeMask = psrModeIrq := by
    rw [irqTaken, Cpu.takeException_cpsr, WordFields.insert_and_inside (by decide)]
    decide
  have saved : (irqTaken cpu).spsr psrModeIrq = cpu.cpsr := by
    rw [irqTaken, Cpu.takeException_spsr, Function.update_self]
  have inIrq : (irqTaken cpu).mode = psrModeIrq := irq
  -- The handler has pushed the registers and calls the first routine.
  set calling := (({ irqTaken cpu with exclusive := false }.push (List.ofFn (irqTaken cpu).r)).set 4
    (irqTaken cpu).getLr).setLr (link .getMode)
  have status : calling.getSpsr &&& modeMask = cpu.mode := by
    change (irqTaken cpu).spsr ((irqTaken cpu).cpsr &&& modeMask) &&& modeMask = cpu.mode
    rw [irq, saved, Cpu.mode]
  have stackPointer : calling.sp (bank cpu.mode) = cpu.getSp := by
    change Function.update cpu.sp (bank (irqTaken cpu).mode) _ (bank cpu.mode) = cpu.getSp
    rw [inIrq, bank_irq, Function.update_of_ne threadMode.bank_ne, Cpu.getSp]
  have linkRegister : calling.lr (bank cpu.mode) = cpu.getLr := by
    change Function.update (Function.update cpu.lr psrModeIrq _) (bank (irqTaken cpu).mode) _
      (bank cpu.mode) = cpu.getLr
    rw [inIrq, bank_irq, Function.update_of_ne threadMode.bank_ne,
      Function.update_of_ne threadMode.bank_ne, Cpu.getLr]
  have returnAddress : calling.r 4 = cpu.pc + 4 := by
    change Function.update cpu.lr psrModeIrq (cpu.pc + 4) (bank (irqTaken cpu).mode) = cpu.pc + 4
    rw [inIrq, bank_irq, Function.update_self]
  have registers : Pushed cpu.memory (cpu.sp psrModeIrq) (List.ofFn cpu.r) calling := by
    have pushed := (Pushed.refl { irqTaken cpu with exclusive := false }).push irq (List.ofFn cpu.r)
    rw [List.append_nil] at pushed
    exact (pushed.set 4 _).setLr _
  have read := _armGetIntModeSpAndLr_eq calling (by rw [status]; exact threadMode.notUsr)
  rw [status, stackPointer, linkRegister] at read
  set reader := { calling with
    r := Function.update (Function.update (Function.update calling.r 2 calling.cpsr) 0 cpu.getSp) 1
      cpu.getLr }
  have completed := completeFrame_pushed link
    (show Pushed _ _ _ reader from ⟨registers.contents, registers.pointer⟩) irq
  have banked : reader.r 4 = cpu.pc + 4 ∧ reader.r 0 = cpu.getSp ∧ reader.r 1 = cpu.getLr :=
    ⟨returnAddress, rfl, rfl⟩
  rw [banked.1, banked.2.1, banked.2.2,
    show reader.spsr psrModeIrq = cpu.cpsr from saved] at completed
  exact ⟨_, congrArg (Option.map (completeFrame link)) read, irq, saved, completed⟩

theorem readSupervisor_r (cpu : Cpu) :
    [(readSupervisor cpu).r 0, (readSupervisor cpu).r 1, (readSupervisor cpu).r 2,
      (readSupervisor cpu).r 3] =
      [cpu.getSpsr, cpu.getLr + 4, cpu.getSp, cpu.memory cpu.getSp] := rfl

/-- A yield leaves the state of the yielding thread, with the link register
that `_arm_svc` has saved on the thread's stack. -/
theorem svcCapture_pushed (link : CallSite → UInt32) (cpu : Cpu)
    (supervisor : cpu.mode = psrModeSvc) (zero : cpu.r 0 = 0)
    (apart : ∀ i < 13, cpu.getSp ≠ cpu.sp psrModeIrq - 4 * UInt32.ofNat i - 4) :
    ∃ captured, svcCapture link (svcTaken cpu) = (true, captured) ∧ captured.mode = psrModeIrq ∧
      Pushed cpu.memory (cpu.sp psrModeIrq)
        (stateWords { cpu.state with lr := cpu.memory cpu.getSp }) captured := by
  set entered := { svcTaken cpu with exclusive := false }
  have irqMode : ∀ status, WordFields.insert modeMask status 18 &&& modeMask = psrModeIrq :=
    fun status => mode_of_cps status 18
  have svcMode : ∀ status, WordFields.insert modeMask status 19 &&& modeMask = psrModeSvc :=
    fun status => mode_of_cps status 19
  -- The registers go to the stack of the interrupt mode.
  set stacked := ((entered.cps 18).push (List.ofFn entered.r)).cps 19
  have registers : Pushed cpu.memory (cpu.sp psrModeIrq) (List.ofFn cpu.r) stacked := by
    have pushed := (Pushed.refl (entered.cps 18)).push (irqMode _) (List.ofFn entered.r)
    rw [List.append_nil] at pushed
    exact ⟨pushed.contents, pushed.pointer⟩
  -- The rest of the frame is read in the supervisor mode.
  have inSvc : stacked.mode = psrModeSvc := svcMode _
  have status : stacked.getSpsr = cpu.cpsr := by
    rw [Cpu.getSpsr, inSvc]
    change Function.update cpu.spsr psrModeSvc cpu.cpsr psrModeSvc = cpu.cpsr
    exact Function.update_self ..
  have returnAddress : stacked.getLr = cpu.pc := by
    rw [Cpu.getLr, inSvc, bank_svc]
    change Function.update cpu.lr psrModeSvc cpu.pc psrModeSvc = cpu.pc
    exact Function.update_self ..
  have stackPointer : stacked.getSp = cpu.getSp := by
    rw [Cpu.getSp, inSvc, bank_svc, Cpu.getSp, supervisor, bank_svc]
    change Function.update cpu.sp (bank (entered.cps 18).mode) _ psrModeSvc = cpu.sp psrModeSvc
    rw [show (entered.cps 18).mode = psrModeIrq from irqMode _, bank_irq]
    exact Function.update_of_ne (by decide) ..
  have linkRegister : stacked.memory cpu.getSp = cpu.memory cpu.getSp := by
    rw [registers.contents]
    exact pushAll_outside _ fun i inside => apart i (by rwa [List.length_ofFn] at inside)
  set filled := (readSupervisor stacked).cps 18 with filledIs
  have filledIrq : filled.cpsr &&& modeMask = psrModeIrq := irqMode _
  have pushed := Pushed.push (show Pushed _ _ _ filled from ⟨registers.contents, registers.pointer⟩)
    filledIrq [filled.r 0, filled.r 1, filled.r 2, filled.r 3]
  have completed : [filled.r 0, filled.r 1, filled.r 2, filled.r 3] ++ List.ofFn cpu.r =
      stateWords { cpu.state with lr := cpu.memory cpu.getSp } := by
    rw [filledIs, Cpu.cps_r, readSupervisor_r, status, returnAddress, stackPointer, linkRegister]
    rfl
  rw [← completed]
  have result : svcCapture link (svcTaken cpu) = (true, svcYield link entered) := if_pos zero
  exact ⟨_, result, filledIrq, (pushed.set 0 _).setLr _⟩

/-! ## The way out -/

section Stack

variable (cpu : Cpu) (rd : Fin 13) (value : UInt32) (n i : Nat)

@[simp] theorem getSp_set : (cpu.set rd value).getSp = cpu.getSp := rfl

@[simp] theorem getSp_setLr : (cpu.setLr value).getSp = cpu.getSp := rfl

@[simp] theorem getSp_msrSpsr : (cpu.msrSpsr value).getSp = cpu.getSp := rfl

@[simp] theorem getSp_drop : (cpu.drop n).getSp = cpu.getSp + 4 * UInt32.ofNat n := by
  rw [Cpu.getSp]
  exact Function.update_self ..

@[simp] theorem top_set : (cpu.set rd value).top i = cpu.top i := rfl

@[simp] theorem top_setLr : (cpu.setLr value).top i = cpu.top i := rfl

@[simp] theorem top_msrSpsr : (cpu.msrSpsr value).top i = cpu.top i := rfl

/-- With some words less on the stack, the others are nearer to its top. -/
@[simp] theorem top_drop : (cpu.drop n).top i = cpu.top (n + i) := by
  rw [Cpu.top, getSp_drop, offset_add, Cpu.top, Cpu.drop_memory]

end Stack

/-- The last part of the way out, when `LR` and the registers are to come from
`R4` and the stack. -/
theorem leaveIrq_eq (cpu : Cpu) (irq : cpu.cpsr &&& modeMask = psrModeIrq) :
    leaveIrq cpu = { cpu with
      r := fun i => cpu.top i
      sp := Function.update cpu.sp psrModeIrq (cpu.sp psrModeIrq + 52)
      lr := Function.update cpu.lr psrModeIrq (cpu.r 4)
      pc := cpu.r 4 - 4
      cpsr := cpu.spsr psrModeIrq } := by
  have inIrq : cpu.mode = psrModeIrq := irq
  ext1
  · rfl
  · change Function.update cpu.sp (bank cpu.mode) (cpu.getSp + 4 * UInt32.ofNat 13) = _
    rw [Cpu.getSp, inIrq, bank_irq]
    rfl
  · change Function.update cpu.lr (bank cpu.mode) (cpu.r 4) = _
    rw [inIrq, bank_irq]
  · rfl
  · change cpu.spsr cpu.mode = _
    rw [inIrq]
  · change Function.update cpu.lr (bank cpu.mode) (cpu.r 4) (bank cpu.mode) - 4 = _
    rw [Function.update_self]
  · rfl
  · rfl

/-- The first words of the frame have been read, and the registers are next
on the stack. -/
structure Loaded (cpu loaded : Cpu) : Prop where
  mode : loaded.cpsr &&& modeMask = psrModeIrq
  programCounter : loaded.r 4 = cpu.frame.pc
  stackPointer : loaded.r 0 = cpu.frame.sp
  linkRegister : loaded.r 1 = cpu.frame.lr
  status : loaded.spsr psrModeIrq = WordFields.insert msrMask (cpu.spsr psrModeIrq) cpu.frame.cpsr
  pointer : loaded.sp psrModeIrq = cpu.sp psrModeIrq + 16
  registers : ∀ i : Fin 13, loaded.memory (loaded.sp psrModeIrq + 4 * UInt32.ofNat i) =
    cpu.frame.r i
  contents : loaded.memory = cpu.memory

theorem loadFrame_loaded (link : CallSite → UInt32) (cpu : Cpu) (irq : cpu.mode = psrModeIrq) :
    Loaded cpu (loadFrame link cpu) := by
  have masked : cpu.cpsr &&& modeMask = psrModeIrq := irq
  have pointer : (loadFrame link cpu).getSp = cpu.sp psrModeIrq + 16 := by
    rw [← show cpu.getSp = cpu.sp psrModeIrq by rw [Cpu.getSp, irq, bank_irq]]
    simp [loadFrame, Cpu.pop, UInt32.add_assoc]
  have registers : ∀ i : Fin 13, (loadFrame link cpu).top i = cpu.frame.r i := by
    intro i
    simp [loadFrame, Cpu.pop, Cpu.frame, ← Nat.add_assoc]
  have top : (loadFrame link cpu).getSp = (loadFrame link cpu).sp psrModeIrq := by
    rw [Cpu.getSp, show (loadFrame link cpu).mode = psrModeIrq from irq, bank_irq]
  exact {
    mode := irq
    programCounter := by simp [loadFrame, Cpu.pop, Cpu.frame]
    stackPointer := by simp [loadFrame, Cpu.pop, Cpu.frame]
    linkRegister := by simp [loadFrame, Cpu.pop, Cpu.frame]
    status := by simp [loadFrame, Cpu.pop, Cpu.frame, Cpu.getSpsr, Cpu.mode, masked]
    pointer := top.symm.trans pointer
    registers := fun i => by
      rw [← top]
      exact registers i
    contents := rfl }

/-- The way out gives the processor the state in the frame, takes the frame
off the stack, and writes nothing but a word of the frame.  Of the status,
the bits from 8 to 23 are those of the interrupt mode's `SPSR`. -/
theorem wake_eq (link : CallSite → UInt32) (cpu : Cpu) (irq : cpu.mode = psrModeIrq)
    (threadMode : ThreadMode (cpu.frame.cpsr &&& modeMask)) :
    ∃ woken, wake link cpu = some woken ∧
      woken.state = { cpu.frame with
        cpsr := WordFields.insert msrMask (cpu.spsr psrModeIrq) cpu.frame.cpsr } ∧
      woken.sp psrModeIrq = cpu.sp psrModeIrq + 68 ∧
      woken.memory = Function.update cpu.memory (cpu.sp psrModeIrq + 12) cpu.frame.pc := by
  have isLoaded := loadFrame_loaded link cpu irq
  rw [wake]
  generalize loadFrame link cpu = loaded at isLoaded
  have resumedMode : loaded.spsr psrModeIrq &&& modeMask = cpu.frame.cpsr &&& modeMask := by
    rw [isLoaded.status, mode_of_msr]
  rcases _armSetIntModeSpAndLr_eq loaded isLoaded.mode (by rw [resumedMode]; exact threadMode) with
    ⟨r, result, four⟩
  rw [resumedMode, isLoaded.stackPointer, isLoaded.linkRegister] at result
  set restored := { loaded with
    r := r
    sp := Function.update loaded.sp (bank (cpu.frame.cpsr &&& modeMask)) cpu.frame.sp
    lr := Function.update loaded.lr (bank (cpu.frame.cpsr &&& modeMask)) cpu.frame.lr
    memory := Function.update loaded.memory (loaded.sp psrModeIrq - 4) (loaded.r 4) } with
      restoredIs
  have notIrq : psrModeIrq ≠ bank (cpu.frame.cpsr &&& modeMask) := threadMode.bank_ne.symm
  have irqStack : restored.sp psrModeIrq = loaded.sp psrModeIrq := Function.update_of_ne notIrq ..
  have pointer : restored.getSp = loaded.sp psrModeIrq := by
    rw [Cpu.getSp, show restored.mode = psrModeIrq from isLoaded.mode, bank_irq, irqStack]
  -- The word that the routine pushes lies below the registers.
  have registers : (fun i : Fin 13 => restored.top i) = cpu.frame.r := by
    funext i
    have below : loaded.sp psrModeIrq + 4 * UInt32.ofNat i ≠ loaded.sp psrModeIrq - 4 := by
      intro same
      refine offset_ne (loaded.sp psrModeIrq - 4) (k := 1 + i) (by omega) (by omega) ?_
      have next : loaded.sp psrModeIrq - 4 + 4 * UInt32.ofNat 1 = loaded.sp psrModeIrq :=
        UInt32.sub_add_cancel ..
      rw [← offset_add, next]
      exact same
    rw [Cpu.top, pointer, ← isLoaded.registers i]
    exact Function.update_of_ne below ..
  have left := leaveIrq_eq restored isLoaded.mode
  rw [registers, irqStack, show restored.r 4 = cpu.frame.pc from four.trans isLoaded.programCounter,
    show restored.spsr psrModeIrq = loaded.spsr psrModeIrq from rfl, isLoaded.status] at left
  rw [result, Option.map_some, left]
  refine ⟨_, rfl, ?_, ?_, ?_⟩
  · have mode : WordFields.insert msrMask (cpu.spsr psrModeIrq) cpu.frame.cpsr &&& modeMask =
        cpu.frame.cpsr &&& modeMask := mode_of_msr ..
    simp only [Cpu.state, Cpu.getSp, Cpu.getLr, Cpu.mode, mode, Function.update_of_ne notIrq.symm,
      UInt32.sub_add_cancel, restoredIs, Function.update_self]
  · simp only [Function.update_self, isLoaded.pointer, UInt32.add_assoc]
    rfl
  · simp only [restoredIs, isLoaded.contents, isLoaded.pointer, isLoaded.programCounter]
    congr 1
    rw [show (16 : UInt32) = 12 + 4 from rfl, ← UInt32.add_assoc, UInt32.add_sub_cancel]

/-! ## There and back -/

/-- The interrupt controller is given the address of the frame. -/
theorem irqCapture_argument {link : CallSite → UInt32} {cpu captured : Cpu}
    (result : irqCapture link cpu = some captured) : captured.r 0 = captured.getSp := by
  rcases Option.map_eq_some_iff.mp result with ⟨calling, _, rfl⟩
  simp only [completeFrame, Cpu.setLr_r, Cpu.set_r, Function.update_self, getSp_setLr, getSp_set]

/-- C code that was called with the frame on the stack has returned: it is in
the interrupt mode, with the stack pointer that it was called with. -/
structure Returned (captured returned : Cpu) (frame : ArmCpuState) : Prop where
  mode : returned.mode = psrModeIrq
  pointer : returned.sp psrModeIrq = captured.sp psrModeIrq
  frame : returned.frame = frame

/-- Back in a thread after a frame of `size` bytes has been taken off. -/
theorem Returned.wake {captured returned : Cpu} {frame : ArmCpuState}
    (returns : Returned captured returned frame)
    (link : CallSite → UInt32) (threadMode : ThreadMode (frame.cpsr &&& modeMask)) {sp : UInt32}
    (pointer : captured.sp psrModeIrq + 68 = sp) :
    ∃ woken, wake link returned = some woken ∧
      woken.state =
        { frame with cpsr := WordFields.insert msrMask (returned.spsr psrModeIrq) frame.cpsr } ∧
      woken.sp psrModeIrq = sp ∧
      woken.memory = Function.update returned.memory (sp - 56) frame.pc := by
  have isFrame := returns.frame
  subst isFrame
  rcases wake_eq link returned returns.mode threadMode with ⟨woken, result, state, balanced, memory⟩
  refine ⟨woken, result, state, ?_, ?_⟩
  · rw [balanced, returns.pointer, pointer]
  · have word : returned.sp psrModeIrq + 12 = sp - 56 := by
      rw [returns.pointer, ← pointer, show (68 : UInt32) = 12 + 56 from rfl, ← UInt32.add_assoc,
        UInt32.add_sub_cancel]
    rw [memory, word]

/-- A thread in any mode but user mode and the modes of interrupts is
interrupted.  The scheduler is given the address of the frame and finds the
state of the thread in it, and all other memory as it was.  Whatever the
scheduler and the drivers do, when they return with their stack pointer and a
frame of such a mode, the processor is given the state that is in the frame
then, and the stack of the interrupt mode is as it was before.  If it is the
frame that they were given, the thread goes on with every bit of its state. -/
theorem interrupt_restores (link : CallSite → UInt32) (cpu : Cpu)
    (threadMode : ThreadMode cpu.mode) :
    ∃ captured, irqCapture link (irqTaken cpu) = some captured ∧ captured.frame = cpu.state ∧
      captured.r 0 = captured.getSp ∧
      (∀ address, (∀ i < 17, address ≠ cpu.sp psrModeIrq - 4 * UInt32.ofNat i - 4) →
        captured.memory address = cpu.memory address) ∧
      ∀ returned frame, Returned captured returned frame → ThreadMode (frame.cpsr &&& modeMask) →
        ∃ woken, wake link returned = some woken ∧
          woken.state =
            { frame with cpsr := WordFields.insert msrMask (returned.spsr psrModeIrq) frame.cpsr } ∧
          woken.sp psrModeIrq = cpu.sp psrModeIrq ∧
          woken.memory = Function.update returned.memory (cpu.sp psrModeIrq - 56) frame.pc ∧
          (returned.spsr psrModeIrq = captured.spsr psrModeIrq → frame = cpu.state →
            woken.state = cpu.state) := by
  rcases irqCapture_pushed link cpu threadMode with ⟨captured, result, irq, status, pushed⟩
  rcases pushed.frame irq with ⟨isState, pointer, elsewhere⟩
  refine ⟨captured, result, isState, irqCapture_argument result, elsewhere,
    fun returned frame returns resumable => ?_⟩
  rcases returns.wake link resumable pointer with ⟨woken, isWoken, state, balanced, memory⟩
  refine ⟨woken, isWoken, state, balanced, memory, fun kept same => ?_⟩
  rw [state, same, kept, status, show cpu.state.cpsr = cpu.cpsr from rfl, WordFields.insert_self]
  rfl

/-- A thread in the supervisor mode, with a stack for interrupts. -/
def supervisorThread : Cpu where
  r := fun register => UInt32.ofNat register + 100
  sp := fun mode => if mode = psrModeIrq then 0x80400000 else 0x80320f00
  lr := fun _mode => 0x80003010
  spsr := fun _mode => 0
  cpsr := 0x60000113
  pc := 0x80003040
  memory := fun _address => 0
  exclusive := true

theorem supervisorThread_interrupt_restores :
    ∃ captured woken, irqCapture (fun _site => 0) (irqTaken supervisorThread) = some captured ∧
      captured.frame = supervisorThread.state ∧ captured.r 0 = captured.getSp ∧
      (∀ address, (∀ i < 17, address ≠ 0x80400000 - 4 * UInt32.ofNat i - 4) →
        captured.memory address = 0) ∧
      wake (fun _site => 0) captured = some woken ∧ woken.sp psrModeIrq = 0x80400000 ∧
      woken.state = supervisorThread.state := by
  have threadMode : ThreadMode supervisorThread.mode := ⟨by decide, by decide, by decide⟩
  rcases interrupt_restores (fun _site => 0) supervisorThread threadMode with
    ⟨captured, result, frame, argument, elsewhere, back⟩
  have irq : captured.mode = psrModeIrq := by
    rcases irqCapture_pushed (fun _site => 0) supervisorThread threadMode with
      ⟨same, sameResult, irq, _⟩
    rw [sameResult] at result
    cases result
    exact irq
  rcases back captured _ ⟨irq, rfl, frame⟩ threadMode with
    ⟨woken, isWoken, _, balanced, _, restored⟩
  exact ⟨captured, woken, result, frame, argument, elsewhere, isWoken, balanced, restored rfl rfl⟩

end Context
end ShovelOS
