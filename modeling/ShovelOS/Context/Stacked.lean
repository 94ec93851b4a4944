import ShovelOS.Context.Cpu
import Mathlib.Data.Fintype.Basic
import Mathlib.Tactic.FinCases

namespace ShovelOS
namespace Context
namespace Stacked

open WordStack

/-!
# Threads that keep their state on their own stacks

`arch/arm_m/context/context.S` and `cpu_state.c`.  The processor pushes one
half of the state when it takes an exception, the handlers push the other
half, and what the scheduler saves and exchanges is the stack pointer.
-/

/-- The registers and the memory.  `xpsr` has the exception number, which is
zero in a thread. -/
@[ext]
structure Cpu where
  r : Fin 13 → UInt32
  sp : UInt32
  lr : UInt32
  pc : UInt32
  xpsr : UInt32
  memory : UInt32 → UInt32

/-- The state that a thread is interrupted in. -/
@[ext]
structure ThreadState where
  r : Fin 13 → UInt32
  sp : UInt32
  lr : UInt32
  pc : UInt32
  xpsr : UInt32

/-- Return to a thread on the main stack. -/
def excReturn : UInt32 := 0xFFFFFFF9

/-- The bit of the stacked status that says how the stack was aligned. -/
def alignBit : UInt32 := 0x200

namespace Cpu

variable (cpu : Cpu)

def state : ThreadState := ⟨cpu.r, cpu.sp, cpu.lr, cpu.pc, cpu.xpsr⟩

@[simps -fullyApplied] def set (rd : Fin 13) (value : UInt32) : Cpu :=
  { cpu with r := Function.update cpu.r rd value }

/-- `push` of the given words, the first at the lowest address. -/
@[simps -fullyApplied] def push (pushed : List UInt32) : Cpu :=
  { cpu with
    memory := (pushAll cpu.memory cpu.sp pushed).1
    sp := (pushAll cpu.memory cpu.sp pushed).2 }

def top (i : Nat) : UInt32 := cpu.memory (cpu.sp + 4 * UInt32.ofNat i)

/-- Take words off the stack. -/
@[simps -fullyApplied] def drop (n : Nat) : Cpu := { cpu with sp := cpu.sp + 4 * UInt32.ofNat n }

/-- The stack pointer that an exception frame is pushed to. -/
def frameTop : UInt32 := ((cpu.sp - 32) &&& ~~~(4 : UInt32)) + 32

/-- The status as it is stacked, with the alignment. -/
def stackedXpsr : UInt32 := WordFields.insert alignBit cpu.xpsr (cpu.sp <<< 7)

def exceptionFrame : List UInt32 :=
  [cpu.r 0, cpu.r 1, cpu.r 2, cpu.r 3, cpu.r 12, cpu.lr, cpu.pc, cpu.stackedXpsr]

def takeException (number : UInt32) : Cpu :=
  { { cpu with sp := cpu.frameTop }.push cpu.exceptionFrame with
    lr := excReturn
    xpsr := WordFields.insert 0x3F cpu.xpsr number }

def exceptionReturn : Cpu where
  r := fun register =>
    if register = 12 then cpu.top 4 else if register.val < 4 then cpu.top register.val else
      cpu.r register
  sp := (cpu.sp + (32 : UInt32)) ||| ((cpu.top 7 >>> (7 : UInt32)) &&& (4 : UInt32))
  lr := cpu.top 5
  pc := cpu.top 6
  xpsr := cpu.top 7 &&& ~~~alignBit
  memory := cpu.memory

end Cpu

/-! ## The routines -/

/-- What `_PENDSV`, `_my_IRQ_handler` and `_my_SVC_handler` begin with: the
rest of the state is pushed, and then where it is. -/
def saveState (cpu : Cpu) : Cpu :=
  let cpu := cpu.push [cpu.r 4, cpu.r 5, cpu.r 6, cpu.r 7, cpu.lr]
  let cpu := cpu.set 0 (cpu.r 8)
  let cpu := cpu.set 1 (cpu.r 9)
  let cpu := cpu.set 2 (cpu.r 10)
  let cpu := cpu.set 3 (cpu.r 11)
  let cpu := cpu.push [cpu.r 0, cpu.r 1, cpu.r 2, cpu.r 3]
  let cpu := cpu.set 0 cpu.sp
  let cpu := cpu.push [cpu.r 0]
  cpu.set 0 cpu.sp

/-- `_IRQ_TAIL` behind its move to another stack: the word that is popped to
`PC`, and the processor then. -/
def popState (cpu : Cpu) : UInt32 × Cpu :=
  -- pop {r0-r3}
  let cpu := ((((cpu.set 0 (cpu.top 0)).set 1 (cpu.top 1)).set 2 (cpu.top 2)).set 3
    (cpu.top 3)).drop 4
  let cpu := cpu.set 8 (cpu.r 0)
  let cpu := cpu.set 9 (cpu.r 1)
  let cpu := cpu.set 10 (cpu.r 2)
  let cpu := cpu.set 11 (cpu.r 3)
  -- pop {r4-r7, pc}
  let target := cpu.top 4
  (target, ((((cpu.set 4 (cpu.top 0)).set 5 (cpu.top 1)).set 6 (cpu.top 2)).set 7
    (cpu.top 3)).drop 5)

/-- `_IRQ_TAIL`, with the return from the exception at its end. -/
def _irqTail (cpu : Cpu) : Option Cpu :=
  let cpu := (cpu.set 0 (cpu.top 0)).drop 1
  let (target, cpu) := popState { cpu with sp := cpu.r 0 }
  if target = excReturn then some cpu.exceptionReturn else none

/-- `cpu_state_build`: the stack pointer for the scheduler, and the memory
with the words that are written.  `_BUG_ON` stops the machine when the frame
would not be aligned. -/
def cpuStateBuild (memory : UInt32 → UInt32) (start args stack endRoutine : UInt32) :
    Option (UInt32 × (UInt32 → UInt32)) :=
  let sp := stack - (32 + 36)
  let ef := sp + 36
  if ef &&& 7 ≠ 0 then none
  else
    let memory := Function.update memory (ef + 24) start
    let memory := Function.update memory (ef + 20) endRoutine
    let memory := Function.update memory ef args
    let memory := Function.update memory (ef + 28) ((1 : UInt32) <<< 24)
    some (sp, Function.update memory (sp + 32) excReturn)

/-! ## What is on the stack of a thread -/

/-- Where the state of an interrupted thread begins. -/
def Cpu.savedPointer (cpu : Cpu) : UInt32 := cpu.frameTop - 68

/-- `struct task_state_struct` and `struct exception_frame`. -/
def Cpu.image (cpu : Cpu) : List UInt32 :=
  [cpu.r 8, cpu.r 9, cpu.r 10, cpu.r 11, cpu.r 4, cpu.r 5, cpu.r 6, cpu.r 7, excReturn] ++
    cpu.exceptionFrame

structure Pushed (memory : UInt32 → UInt32) (sp : UInt32) (pushed : List UInt32)
    (cpu : Cpu) : Prop where
  contents : cpu.memory = (pushAll memory sp pushed).1
  pointer : cpu.sp = (pushAll memory sp pushed).2

theorem Pushed.push {memory : UInt32 → UInt32} {sp : UInt32} {before : List UInt32} {cpu : Cpu}
    (stacked : Pushed memory sp before cpu) (pushed : List UInt32) :
    Pushed memory sp (pushed ++ before) (cpu.push pushed) := by
  refine ⟨?_, ?_⟩
  · rw [Cpu.push_memory, stacked.contents, stacked.pointer, pushAll_append]
  · rw [Cpu.push_sp, stacked.contents, stacked.pointer, pushAll_append]

theorem Pushed.set {memory : UInt32 → UInt32} {sp : UInt32} {before : List UInt32} {cpu : Cpu}
    (stacked : Pushed memory sp before cpu) (rd : Fin 13) (value : UInt32) :
    Pushed memory sp before (cpu.set rd value) := ⟨stacked.contents, stacked.pointer⟩

/-- The handlers push the state below the frame of the processor, and then
its address. -/
theorem saveState_pushed (cpu : Cpu) (number : UInt32) :
    Pushed cpu.memory cpu.frameTop (cpu.savedPointer :: cpu.image)
      (saveState (cpu.takeException number)) := by
  have taken : Pushed cpu.memory cpu.frameTop cpu.exceptionFrame (cpu.takeException number) :=
    ⟨rfl, rfl⟩
  have upper := taken.push [cpu.r 4, cpu.r 5, cpu.r 6, cpu.r 7, excReturn]
  have lower := ((((upper.set 0 (cpu.r 8)).set 1 (cpu.r 9)).set 2 (cpu.r 10)).set 3 (cpu.r 11)).push
    [cpu.r 8, cpu.r 9, cpu.r 10, cpu.r 11]
  have pointer : (pushAll cpu.memory cpu.frameTop cpu.image).2 = cpu.savedPointer :=
    pushAll_sp_eq ..
  rw [← pointer]
  exact ((lower.set 0 _).push [(pushAll cpu.memory cpu.frameTop cpu.image).2]).set 0 _

/-- What the scheduler is given: a pointer to the address of the state. -/
theorem saveState_words (cpu : Cpu) (number : UInt32) :
    words (saveState (cpu.takeException number)).memory
      (saveState (cpu.takeException number)).sp 18 =
      cpu.savedPointer :: cpu.image := by
  have pushed := saveState_pushed cpu number
  have live := words_pushAll cpu.memory cpu.frameTop (cpu.savedPointer :: cpu.image) 0
    (show (18 : Nat) < 2 ^ 30 by decide)
  rw [pushed.contents, pushed.pointer]
  exact live.trans (List.append_nil _)

/-! ## The way back -/

/-- The state that the words at an address are: what the handlers pushed, and
above it what the processor pushed. -/
def stateAt (memory : UInt32 → UInt32) (address : UInt32) : ThreadState :=
  let word (i : Nat) : UInt32 := memory (address + 4 * UInt32.ofNat i)
  { r := fun register => word
      (if register.val < 4 then register.val + 9
       else if register.val < 8 then register.val
       else if register.val < 12 then register.val - 8
       else 13)
    sp := (address + 68) ||| ((word 16 >>> (7 : UInt32)) &&& (4 : UInt32))
    lr := word 14
    pc := word 15
    xpsr := word 16 &&& ~~~alignBit }

section Stack

variable (cpu : Cpu) (rd : Fin 13) (value : UInt32) (n i : Nat)

@[simp] theorem top_set : (cpu.set rd value).top i = cpu.top i := rfl

@[simp] theorem top_drop : (cpu.drop n).top i = cpu.top (n + i) := by
  rw [Cpu.top, Cpu.drop_sp, offset_add, Cpu.top, Cpu.drop_memory]

end Stack

theorem popState_target (cpu : Cpu) : (popState cpu).1 = cpu.top 8 := by
  simp [popState]

theorem popState_top (cpu : Cpu) (i : Nat) : (popState cpu).2.top i = cpu.top (9 + i) := by
  simp [popState, ← Nat.add_assoc]

theorem popState_sp (cpu : Cpu) : (popState cpu).2.sp = cpu.sp + 36 := by
  simp [popState, UInt32.add_assoc]

theorem popState_r (cpu : Cpu) (register : Fin 13)
    (isPopped : 4 ≤ register.val ∧ register.val < 12) :
    (popState cpu).2.r register =
      cpu.top (if register.val < 8 then register.val else register.val - 8) := by
  fin_cases register <;> simp_all [popState]

/-- The way out of the handlers gives the processor the state at the address
that is on top of the stack. -/
theorem _irqTail_eq (cpu : Cpu) (returns : cpu.memory (cpu.top 0 + 32) = excReturn) :
    ∃ resumed, _irqTail cpu = some resumed ∧ resumed.state = stateAt cpu.memory (cpu.top 0) ∧
      resumed.memory = cpu.memory := by
  set moved : Cpu := { (cpu.set 0 (cpu.top 0)).drop 1 with sp := cpu.top 0 }
  have top : ∀ i, moved.top i = cpu.memory (cpu.top 0 + 4 * UInt32.ofNat i) := fun _i => rfl
  refine ⟨(popState moved).2.exceptionReturn, ?_, ?_, rfl⟩
  · have target : (popState moved).1 = excReturn := (popState_target moved).trans returns
    exact if_pos target
  · have sp : (popState moved).2.sp + 32 = cpu.top 0 + 68 := by
      rw [popState_sp, UInt32.add_assoc]
      rfl
    rw [Cpu.state, Cpu.exceptionReturn, stateAt]
    simp only [popState_top, sp, top]
    congr 1
    funext register
    by_cases small : register.val < 4
    · have notLast : register ≠ 12 := by
        rintro rfl
        exact absurd small (by decide)
      rw [if_neg notLast, if_pos small, if_pos small, Nat.add_comm]
    · by_cases last : register = 12
      · subst last
        rfl
      · have isPopped : 4 ≤ register.val ∧ register.val < 12 := by omega
        rw [if_neg last, if_neg small, if_neg small, popState_r moved register isPopped, top,
          if_pos isPopped.2]

/-! ## There and back -/

/-- The bit that says how the stack is aligned. -/
theorem and_four (word : UInt32) : (word &&& 4).toNat = word.toNat / 4 % 2 * 4 := by
  rw [UInt32.toNat_and]
  change word.toNat &&& 2 ^ 2 = _
  rw [Nat.and_two_pow, Nat.testBit_eq_decide_div_mod_eq]
  rcases Nat.mod_two_eq_zero_or_one (word.toNat / 2 ^ 2) with even | odd
  · rw [even, show word.toNat / 4 % 2 = 0 from even]
    rfl
  · rw [odd, show word.toNat / 4 % 2 = 1 from odd]
    rfl

/-- The frame is pushed to the stack pointer with that bit cleared. -/
theorem frameTop_eq (cpu : Cpu) : cpu.frameTop = cpu.sp &&& ~~~(4 : UInt32) := by
  have bit : (cpu.sp - 32) &&& 4 = cpu.sp &&& 4 := by
    apply UInt32.toNat_inj.mp
    rw [and_four, and_four, UInt32.toNat_sub]
    have bound := cpu.sp.toNat_lt
    change (2 ^ 32 - 32 + cpu.sp.toNat) % 2 ^ 32 / 4 % 2 * 4 = _
    omega
  rw [Cpu.frameTop, WordFields.and_not_eq_sub, WordFields.and_not_eq_sub, bit]
  grind

/-- The status has that bit. -/
theorem stackedXpsr_align (cpu : Cpu) :
    (cpu.stackedXpsr >>> (7 : UInt32)) &&& (4 : UInt32) = cpu.sp &&& 4 := by
  have field (word : UInt32) :
      (word >>> (7 : UInt32)) &&& (4 : UInt32) = (word &&& alignBit) >>> (7 : UInt32) := by
    rw [UInt32.shiftRight_and]
    rfl
  rw [field, Cpu.stackedXpsr, WordFields.insert_and_inside (UInt32.and_self), ← field]
  apply UInt32.toNat_inj.mp
  rw [and_four, and_four, UInt32.toNat_shiftRight, UInt32.toNat_shiftLeft]
  have bound := cpu.sp.toNat_lt
  change (cpu.sp.toNat <<< 7 % 2 ^ 32) >>> 7 / 4 % 2 * 4 = _
  rw [Nat.shiftLeft_eq, Nat.shiftRight_eq_div_pow]
  omega

/-- So the return finds the stack pointer. -/
theorem sp_restored (cpu : Cpu) :
    cpu.frameTop ||| ((cpu.stackedXpsr >>> (7 : UInt32)) &&& (4 : UInt32)) = cpu.sp := by
  rw [stackedXpsr_align, frameTop_eq]
  exact WordFields.insert_self 4 cpu.sp

/-- In a thread the bit for the alignment is not a bit of the status. -/
theorem stackedXpsr_status {cpu : Cpu} (reserved : cpu.xpsr &&& alignBit = 0) :
    cpu.stackedXpsr &&& ~~~alignBit = cpu.xpsr := by
  rw [Cpu.stackedXpsr, WordFields.insert_and_outside (by decide), WordFields.and_not_eq_sub,
    reserved, UInt32.sub_zero]

theorem stateAt_image {cpu : Cpu} (reserved : cpu.xpsr &&& alignBit = 0) {memory : UInt32 → UInt32}
    (live : words memory cpu.savedPointer 17 = cpu.image) :
    stateAt memory cpu.savedPointer = cpu.state := by
  have word : ∀ i, i < 17 →
      memory (cpu.savedPointer + 4 * UInt32.ofNat i) = cpu.image.getD i 0 := by
    intro i inside
    rw [← words_getD memory cpu.savedPointer inside, live]
  have pointer : cpu.savedPointer + 68 = cpu.frameTop := UInt32.sub_add_cancel ..
  have status : memory (cpu.savedPointer + 4 * UInt32.ofNat 16) = cpu.stackedXpsr :=
    word 16 (by decide)
  ext1
  · funext register
    rw [stateAt]
    fin_cases register <;> exact word _ (by decide)
  · change cpu.savedPointer + 68 |||
      ((memory (cpu.savedPointer + 4 * UInt32.ofNat 16) >>> (7 : UInt32)) &&& (4 : UInt32)) = cpu.sp
    rw [pointer, status, sp_restored]
  · exact word 14 (by decide)
  · exact word 15 (by decide)
  · change memory (cpu.savedPointer + 4 * UInt32.ofNat 16) &&& ~~~alignBit = cpu.xpsr
    rw [status, stackedXpsr_status reserved]

/-! ## Suspended threads -/

/-- The words at an address are a thread that can go on in the given state. -/
structure Suspended (memory : UInt32 → UInt32) (address : UInt32) (state : ThreadState) : Prop where
  state : stateAt memory address = state
  returns : memory (address + 32) = excReturn

/-- The words of a thread are still there. -/
def SameWords (address : UInt32) (before after : UInt32 → UInt32) : Prop :=
  ∀ i < 17, after (address + 4 * UInt32.ofNat i) = before (address + 4 * UInt32.ofNat i)

instance SameWords.decidable (address : UInt32) (before after : UInt32 → UInt32) :
    Decidable (SameWords address before after) := Nat.decidableBallLT ..

/-- They are all that it needs. -/
theorem Suspended.of_words {memory later : UInt32 → UInt32} {address : UInt32} {state : ThreadState}
    (suspended : Suspended memory address state) (same : SameWords address memory later) :
    Suspended later address state := by
  refine ⟨?_, ?_⟩
  · rw [← suspended.state, stateAt, stateAt]
    simp only [ThreadState.mk.injEq]
    refine ⟨?_, ?_, same 14 (by decide), same 15 (by decide), ?_⟩
    · funext register
      apply same
      have bound := register.isLt
      split_ifs <;> omega
    · rw [same 16 (by decide)]
    · rw [same 16 (by decide)]
  · exact (same 8 (by decide)).trans suspended.returns

/-- What the scheduler reads where it is pointed to. -/
theorem saveState_top (cpu : Cpu) (number : UInt32) :
    (saveState (cpu.takeException number)).top 0 = cpu.savedPointer := by
  have live := saveState_words cpu number
  rw [words, List.cons.injEq] at live
  exact (congrArg _ (UInt32.add_zero _)).trans live.1

/-- An interrupted thread. -/
theorem saveState_suspended {cpu : Cpu} (reserved : cpu.xpsr &&& alignBit = 0) (number : UInt32) :
    Suspended (saveState (cpu.takeException number)).memory cpu.savedPointer cpu.state := by
  have live := saveState_words cpu number
  have pointer : (saveState (cpu.takeException number)).sp + 4 = cpu.savedPointer := by
    have above := pushAll_sp cpu.memory cpu.frameTop cpu.image
    rw [(saveState_pushed cpu number).pointer, pushAll]
    change (pushAll cpu.memory cpu.frameTop cpu.image).2 - 4 + 4 = cpu.savedPointer
    rw [UInt32.sub_add_cancel]
    exact UInt32.eq_sub_iff_add_eq.mpr above
  rw [words, pointer, List.cons.injEq] at live
  have image := live.2
  refine ⟨stateAt_image reserved image, ?_⟩
  have word := words_getD (saveState (cpu.takeException number)).memory cpu.savedPointer
    (show 8 < 17 by decide)
  rw [image] at word
  exact word.symm

/-- The way out of the handlers resumes the thread that is pointed to. -/
theorem Suspended.resumes {returned cpu : Cpu} {state : ThreadState}
    (suspended : Suspended returned.memory (returned.top 0) state)
    (left : _irqTail returned = some cpu) :
    cpu.state = state ∧ cpu.memory = returned.memory := by
  rcases _irqTail_eq returned suspended.returns with ⟨resumed, result, isState, contents⟩
  rw [result] at left
  cases left
  exact ⟨isState.trans suspended.state, contents⟩

/-- The state of a thread that is about to run its start routine. -/
structure StartsAt (start args stack endRoutine : UInt32) (state : ThreadState) : Prop where
  start : state.pc = start
  args : state.r 0 = args
  stack : state.sp = stack
  endRoutine : state.lr = endRoutine
  thumb : state.xpsr = (1 : UInt32) <<< 24

/-- A new thread. -/
theorem cpuStateBuild_suspended {memory built : UInt32 → UInt32}
    {start args stack endRoutine sp : UInt32}
    (isBuilt : cpuStateBuild memory start args stack endRoutine = some (sp, built)) :
    sp = stack - 68 ∧ Suspended built sp (stateAt built sp) ∧
      StartsAt start args stack endRoutine (stateAt built sp) := by
  rcases Option.ite_none_left_eq_some.mp isBuilt with ⟨_, result⟩
  cases result
  set sp := stack - (32 + 36) with spIs
  -- The words that are written, counted from the stack pointer.
  have frame : sp + 36 = sp + 4 * UInt32.ofNat 9 := rfl
  have programCounter : sp + 36 + 24 = sp + 4 * UInt32.ofNat 15 := UInt32.add_assoc ..
  have link : sp + 36 + 20 = sp + 4 * UInt32.ofNat 14 := UInt32.add_assoc ..
  have status : sp + 36 + 28 = sp + 4 * UInt32.ofNat 16 := UInt32.add_assoc ..
  have return_ : sp + 32 = sp + 4 * UInt32.ofNat 8 := rfl
  rw [programCounter, link, status, return_, frame]
  set built : UInt32 → UInt32 := Function.update _ (sp + 4 * UInt32.ofNat 8) excReturn with builtIs
  have word : built (sp + 4 * UInt32.ofNat 9) = args ∧
      built (sp + 4 * UInt32.ofNat 14) = endRoutine ∧
      built (sp + 4 * UInt32.ofNat 15) = start ∧
      built (sp + 4 * UInt32.ofNat 16) = (1 : UInt32) <<< 24 := by
    simp [builtIs]
  rcases word with ⟨isArgs, isEnd, isStart, isStatus⟩
  refine ⟨rfl, ⟨rfl, ?_⟩, isStart, isArgs, ?_, isEnd, ?_⟩
  · rw [return_, builtIs, Function.update_self]
  · change sp + 68 ||| ((built (sp + 4 * UInt32.ofNat 16) >>> (7 : UInt32)) &&& (4 : UInt32)) =
      stack
    rw [isStatus]
    change stack - 68 + 68 ||| 0 = stack
    rw [UInt32.sub_add_cancel, UInt32.or_zero]
  · change built (sp + 4 * UInt32.ofNat 16) &&& ~~~alignBit = (1 : UInt32) <<< 24
    rw [isStatus]
    rfl

end Stacked
end Context
end ShovelOS
