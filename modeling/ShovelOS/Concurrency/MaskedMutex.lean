import ShovelOS.Concurrency.Outline

namespace ShovelOS
namespace Concurrency
namespace MaskedMutex

open Transition Outline

/-!
# The mutex of `arm_m`, with interrupts masked

`arch/arm_m/concurrency/mutex.S`, one point for each instruction, in the
order of the text, and its outline.  This port has neither `ldrex` nor
`strex`.  An attempt lasts from the `cpsid` to the `cpsie`, and no thread is
switched in between.
-/

inductive Point where
  | lockPush | lockMov | lockCpsid | lockDsb | lockIsb | lockLdr | lockCmp | lockBeq | lockMovOne
  | lockStr | lockCpsie | lockPop
  | yieldCpsie | yieldBl | yieldB
  | trylockCpsid | trylockDsb | trylockIsb | trylockLdr | trylockCmp | trylockBeq | trylockMovOne
  | trylockStr | trylockMovZero
  | failedCpsie | failedReturn
  | unlockDmb | unlockMov | unlockStr | unlockReturn
deriving DecidableEq

/-- `mutex_lock`, `mutex_trylock` and `mutex_unlock`. -/
def fetch : Point → Instruction Point × Point
  -- mutex_lock:
  | .lockPush => (.push [.r4, .lr], .lockMov)
  | .lockMov => (.movRegister .r4 .r0, .lockCpsid)
  -- _mutex_lock_try:
  | .lockCpsid => (.cpsid, .lockDsb)
  | .lockDsb => (.dsb, .lockIsb)
  | .lockIsb => (.isb, .lockLdr)
  | .lockLdr => (.ldr .r1 .r4, .lockCmp)
  | .lockCmp => (.cmp .r1 1, .lockBeq)
  | .lockBeq => (.beq .yieldCpsie, .lockMovOne)
  | .lockMovOne => (.mov .r1 1, .lockStr)
  | .lockStr => (.str .r1 .r4, .lockCpsie)
  | .lockCpsie => (.cpsie, .lockPop)
  | .lockPop => (.popPc [.r4], .yieldCpsie)
  -- _mutex_lock_yield:
  | .yieldCpsie => (.cpsie, .yieldBl)
  | .yieldBl => (.blKthreadYield, .yieldB)
  | .yieldB => (.b .lockCpsid, .trylockCpsid)
  -- mutex_trylock:
  | .trylockCpsid => (.cpsid, .trylockDsb)
  | .trylockDsb => (.dsb, .trylockIsb)
  | .trylockIsb => (.isb, .trylockLdr)
  | .trylockLdr => (.ldr .r1 .r0, .trylockCmp)
  | .trylockCmp => (.cmp .r1 1, .trylockBeq)
  | .trylockBeq => (.beq .failedCpsie, .trylockMovOne)
  | .trylockMovOne => (.mov .r1 1, .trylockStr)
  | .trylockStr => (.str .r1 .r0, .trylockMovZero)
  | .trylockMovZero => (.mov .r0 0, .failedCpsie)
  -- _mutex_trylock_failed:
  | .failedCpsie => (.cpsie, .failedReturn)
  | .failedReturn => (.movPcLr, .unlockDmb)
  -- mutex_unlock:
  | .unlockDmb => (.dmb, .unlockMov)
  | .unlockMov => (.mov .r1 0, .unlockStr)
  | .unlockStr => (.str .r1 .r0, .unlockReturn)
  | .unlockReturn => (.movPcLr, .unlockReturn)

def entry : MutexFunction → Point
  | .mutexLock => .lockPush
  | .mutexTrylock => .trylockCpsid
  | .mutexUnlock => .unlockDmb

/-- `mutex.S`. -/
def program : Program Point := ⟨fetch, entry⟩

def function : Point → MutexFunction
  | .lockPush | .lockMov | .lockCpsid | .lockDsb | .lockIsb | .lockLdr | .lockCmp | .lockBeq
  | .lockMovOne | .lockStr | .lockCpsie | .lockPop | .yieldCpsie | .yieldBl | .yieldB => .mutexLock
  | .trylockCpsid | .trylockDsb | .trylockIsb | .trylockLdr | .trylockCmp | .trylockBeq
  | .trylockMovOne | .trylockStr | .trylockMovZero | .failedCpsie | .failedReturn => .mutexTrylock
  | .unlockDmb | .unlockMov | .unlockStr | .unlockReturn => .mutexUnlock

/-- The points at which the thread has the mutex of its call: behind the
`str` of a one, and before that of a zero.  Both ways through
`mutex_trylock` end at the same points, and the result tells them apart. -/
def inside (thread : Thread Point) : Point → Bool
  | .lockCpsie | .lockPop | .trylockMovZero => true
  | .failedCpsie | .failedReturn => decide (thread.registers .r0 = .word 0)
  | .unlockDmb | .unlockMov | .unlockStr => true
  | _ => false

/-- The registers and the stack in the loop of `mutex_lock`. -/
structure Locking (thread : Thread Point) : Prop where
  address : thread.registers .r4 = .word thread.call.2
  stack : ∃ saved, thread.stack = [saved, .caller]

/-- The registers of a call that needs its argument and its return address. -/
structure Called (thread : Thread Point) : Prop where
  address : thread.registers .r0 = .word thread.call.2
  caller : thread.registers .lr = .caller

/-- The registers of `mutex_unlock`, whose caller no longer holds the mutex. -/
structure Unlocking (thread : Thread Point) : Prop extends Called thread where
  givenUp : thread.held thread.call.2 = false

/-- What a thread's registers and stack hold at each point.  Between `cpsid`
and `cpsie` interrupts are masked, and what the thread has read from the
mutex is still there. -/
def Expects (memory : UInt32 → UInt32) (attempt : Bool) (thread : Thread Point) : Point → Prop
  | .lockPush => Called thread ∧ thread.stack = []
  | .lockMov => thread.registers .r0 = .word thread.call.2 ∧
      ∃ saved, thread.stack = [saved, .caller]
  | .lockCpsid | .lockPop | .yieldBl | .yieldB => Locking thread
  | .lockDsb | .lockIsb | .lockLdr | .lockCpsie | .yieldCpsie => Locking thread ∧
      thread.masked = true
  | .lockCmp => Locking thread ∧ thread.masked = true ∧
      ∃ value, thread.registers .r1 = .word value ∧
      (attempt = true → memory thread.call.2 = value)
  | .lockBeq => Locking thread ∧ thread.masked = true ∧
      (attempt = true → (thread.z = true ↔ memory thread.call.2 = 1))
  | .lockMovOne => Locking thread ∧ thread.masked = true ∧
      (attempt = true → memory thread.call.2 ≠ 1)
  | .lockStr => Locking thread ∧ thread.masked = true ∧
      (attempt = true → memory thread.call.2 ≠ 1) ∧
      thread.registers .r1 = .word 1
  | .trylockCpsid => Called thread
  | .trylockDsb | .trylockIsb | .trylockLdr | .trylockMovZero => Called thread ∧
      thread.masked = true
  | .trylockCmp => Called thread ∧ thread.masked = true ∧
      ∃ value, thread.registers .r1 = .word value ∧
      (attempt = true → memory thread.call.2 = value)
  | .trylockBeq => Called thread ∧ thread.masked = true ∧
      (attempt = true → (thread.z = true ↔ memory thread.call.2 = 1))
  | .trylockMovOne => Called thread ∧ thread.masked = true ∧
      (attempt = true → memory thread.call.2 ≠ 1)
  | .trylockStr => Called thread ∧ thread.masked = true ∧
      (attempt = true → memory thread.call.2 ≠ 1) ∧
      thread.registers .r1 = .word 1
  | .failedCpsie | .failedReturn => thread.registers .lr = .caller ∧
      (thread.registers .r0 = .word 0 ∨ thread.registers .r0 = .word thread.call.2)
  | .unlockDmb | .unlockMov => Unlocking thread
  | .unlockStr => Unlocking thread ∧ thread.registers .r1 = .word 0
  | .unlockReturn => thread.registers .lr = .caller

/-- Without an attempt, nothing is expected of the memory. -/
theorem Expects.closed {memory memory' : UInt32 → UInt32} {attempt : Bool} {thread : Thread Point}
    {point : Point} (expects : Expects memory attempt thread point) :
    Expects memory' false thread point := by
  cases point with
  | lockCmp | trylockCmp =>
      rcases expects with ⟨frame, masked, value, read, _still⟩
      exact ⟨frame, masked, value, read, fun attempt => Bool.noConfusion attempt⟩
  | lockBeq | lockMovOne | trylockBeq | trylockMovOne =>
      exact ⟨expects.1, expects.2.1, fun attempt => Bool.noConfusion attempt⟩
  | lockStr | trylockStr =>
      exact ⟨expects.1, expects.2.1, fun attempt => Bool.noConfusion attempt, expects.2.2.2⟩
  | _ => exact expects

/-- What the code expects on its way. -/
def outline : Outline Point where
  program := program
  function := function
  inside := inside
  attempts := fun _exclusive thread => thread.masked
  Expects := Expects
  closed := Expects.closed
  ended := fun _thread unmasked => unmasked
  function_entry := fun called => by cases called <;> rfl
  inside_entry := fun _thread called => by cases called <;> rfl
  expects_entry := fun _memory _attempt _thread called _address _registers _z => by
    cases called with
    | mutexLock => exact ⟨⟨rfl, rfl⟩, rfl⟩
    | mutexTrylock => exact ⟨rfl, rfl⟩
    | mutexUnlock => exact ⟨⟨rfl, rfl⟩, Function.update_self ..⟩

variable {ι : Type} [DecidableEq ι] {mutexes : UInt32 → Prop} {core : Core ι Point}
  {owners : UInt32 → Option ι} {world : World ι} {point : Point}

theorem executes_mutexLock (sound : outline.Sound mutexes core)
    (tracks : Tracks inside mutexes core owners)
    (pc : core.thread.pc = some point) (called : function point = .mutexLock) (world : World ι) :
    outline.Executes mutexes owners core world point := by
  rcases sound.located core.current point pc with ⟨callee, mutex, expects⟩
  change core.thread.call.1 = function point at callee
  change mutexes core.thread.call.2 at mutex
  change Expects core.memory (core.thread.masked && decide (core.current = core.current))
    core.thread
    point at expects
  cases point with
  | lockPush =>
      rcases expects with ⟨frame, stack⟩
      refine ⟨_, rfl, Kept.moved sound tracks pc ⟨rfl, Or.inl rfl⟩ rfl rfl rfl rfl rfl rfl
        ⟨frame.address, core.thread.registers .r4, ?_⟩⟩
      change [core.thread.registers .r4, core.thread.registers .lr] ++ core.thread.stack = _
      rw [frame.caller, stack, List.append_nil]
  | lockMov =>
      exact ⟨_, rfl, Kept.moved sound tracks pc ⟨rfl, Or.inl rfl⟩ rfl rfl rfl rfl rfl rfl
        ⟨expects.1, expects.2⟩⟩
  | lockCpsid =>
      exact ⟨_, rfl, Kept.moved sound tracks pc ⟨rfl, Or.inl rfl⟩ rfl rfl rfl rfl rfl rfl
        ⟨⟨expects.address, expects.stack⟩, rfl⟩⟩
  | lockDsb | lockIsb =>
      exact ⟨_, rfl, Kept.moved sound tracks pc ⟨rfl, Or.inl rfl⟩ rfl rfl rfl rfl rfl rfl
        ⟨⟨expects.1.address, expects.1.stack⟩, expects.2⟩⟩
  | lockLdr =>
      rcases expects with ⟨frame, masked⟩
      refine ⟨_, Core.execute_ldr frame.address, ?_⟩
      have silent : observeInstruction core world (outline.program.fetch .lockLdr).1 = none := by
        change observeLoad core .r4 = _
        rw [observeLoad, Core.address_eq frame.address, Option.bind_some, callee,
          if_neg (fun trying => by cases trying.1)]
      rw [silent]
      exact Kept.moved sound tracks pc ⟨rfl, Or.inl rfl⟩ rfl rfl rfl rfl rfl rfl
        ⟨⟨frame.address, frame.stack⟩, masked, _, rfl, fun _attempt => rfl⟩
  | lockCmp =>
      rcases expects with ⟨frame, masked, value, read, still⟩
      refine ⟨_, Core.execute_cmp read, ?_⟩
      refine Kept.moved sound tracks pc ⟨rfl, Or.inl rfl⟩ rfl rfl rfl rfl rfl rfl
        ⟨⟨frame.address, frame.stack⟩, masked, fun attempt => ?_⟩
      change decide (value = 1) = true ↔ core.memory core.thread.call.2 = 1
      rw [still attempt, decide_eq_true_iff]
  | lockBeq =>
      rcases expects with ⟨frame, masked, compared⟩
      by_cases taken : core.thread.z = true
      · refine ⟨_, Core.execute_beq_taken taken, ?_⟩
        exact Kept.moved sound tracks pc ⟨rfl, Or.inl rfl⟩ rfl rfl rfl rfl rfl rfl
          ⟨⟨frame.address, frame.stack⟩, masked⟩
      · refine ⟨_, Core.execute_beq_passed taken, ?_⟩
        exact Kept.moved sound tracks pc ⟨rfl, Or.inl rfl⟩ rfl rfl rfl rfl rfl rfl
          ⟨⟨frame.address, frame.stack⟩, masked,
            fun attempt one => taken ((compared attempt).mpr one)⟩
  | lockMovOne =>
      rcases expects with ⟨frame, masked, free⟩
      exact ⟨_, rfl, Kept.moved sound tracks pc ⟨rfl, Or.inl rfl⟩ rfl rfl rfl rfl rfl rfl
        ⟨⟨frame.address, frame.stack⟩, masked, free, rfl⟩⟩
  | lockStr =>
      rcases expects with ⟨frame, masked, free, one⟩
      refine ⟨_, Core.execute_str frame.address one, ?_⟩
      have shown : observeInstruction core world (outline.program.fetch .lockStr).1 =
          some (.acquire core.current core.thread.call.2) := by
        change observeStore core .r1 .r4 = _
        rw [observeStore, Core.address_eq frame.address, Core.address_eq one, Option.bind_some,
          Option.map_some, if_pos rfl]
      rw [shown]
      exact Kept.acquired sound tracks pc ⟨rfl, Or.inl rfl⟩ mutex
        (free (by rw [masked, decide_eq_true rfl, Bool.and_true])) rfl rfl rfl rfl rfl rfl rfl
        ⟨⟨frame.address, frame.stack⟩, masked⟩
  | lockCpsie =>
      exact ⟨_, rfl, Kept.moved sound tracks pc ⟨rfl, Or.inl rfl⟩ rfl rfl rfl rfl rfl rfl
        ⟨expects.1.address, expects.1.stack⟩⟩
  | lockPop =>
      rcases expects.stack with ⟨saved, stack⟩
      have executed : core.execute world (fetch .lockPop).2 (fetch .lockPop).1 =
          some (core.put ({ { core.thread with stack := [.caller] }.set .r4 saved with
            stack := [] }.leave)) := by
        rw [fetch, Core.execute, Thread.pops, stack]
        rfl
      refine ⟨_, executed, Kept.left sound tracks pc ⟨rfl, Or.inl rfl⟩ rfl rfl fun address => ?_⟩
      exact (leave_held_lock callee address).trans (or_congr Iff.rfl (and_iff_left rfl).symm)
  | yieldCpsie =>
      exact ⟨_, rfl, Kept.moved sound tracks pc ⟨rfl, Or.inl rfl⟩ rfl rfl rfl rfl rfl rfl
        ⟨expects.1.address, expects.1.stack⟩⟩
  | yieldBl =>
      exact ⟨_, rfl, Kept.moved sound tracks pc ⟨rfl, Or.inr ⟨rfl, rfl⟩⟩ rfl rfl rfl rfl rfl rfl
        ⟨expects.address, expects.stack⟩⟩
  | yieldB =>
      exact ⟨_, rfl, Kept.moved sound tracks pc ⟨rfl, Or.inl rfl⟩ rfl rfl rfl rfl rfl rfl
        ⟨expects.address, expects.stack⟩⟩
  | _ => cases called

theorem executes_mutexTrylock (sound : outline.Sound mutexes core)
    (tracks : Tracks inside mutexes core owners) (nullFree : ¬ mutexes 0)
    (pc : core.thread.pc = some point) (called : function point = .mutexTrylock) (world : World ι) :
    outline.Executes mutexes owners core world point := by
  rcases sound.located core.current point pc with ⟨callee, mutex, expects⟩
  change core.thread.call.1 = function point at callee
  change mutexes core.thread.call.2 at mutex
  change Expects core.memory (core.thread.masked && decide (core.current = core.current))
    core.thread
    point at expects
  have nonZero : ∀ {value : Value}, value = .word core.thread.call.2 → value ≠ .word 0 := by
    rintro value rfl zero
    injection zero with isZero
    exact nullFree (isZero ▸ mutex)
  cases point with
  | trylockCpsid =>
      exact ⟨_, rfl, Kept.moved sound tracks pc ⟨rfl, Or.inl rfl⟩ rfl rfl rfl rfl rfl rfl
        ⟨⟨expects.address, expects.caller⟩, rfl⟩⟩
  | trylockDsb | trylockIsb =>
      exact ⟨_, rfl, Kept.moved sound tracks pc ⟨rfl, Or.inl rfl⟩ rfl rfl rfl rfl rfl rfl
        ⟨⟨expects.1.address, expects.1.caller⟩, expects.2⟩⟩
  | trylockLdr =>
      rcases expects with ⟨frame, masked⟩
      refine ⟨_, Core.execute_ldr frame.address, ?_⟩
      have kept : outline.Kept mutexes owners none
          (core.put ((core.thread.set .r1 (.word (core.memory core.thread.call.2))).goto
            .trylockCmp)) :=
        Kept.moved sound tracks pc ⟨rfl, Or.inl rfl⟩ rfl rfl rfl rfl rfl rfl
          ⟨⟨frame.address, frame.caller⟩, masked, _, rfl, fun _attempt => rfl⟩
      by_cases taken : core.memory core.thread.call.2 = 1
      · have refused : observeInstruction core world (outline.program.fetch .trylockLdr).1 =
            some (.refuse core.current core.thread.call.2) := by
          change observeLoad core .r0 = _
          rw [observeLoad, Core.address_eq frame.address, Option.bind_some, if_pos ⟨callee, taken⟩]
        rw [refused]
        exact kept.refused tracks mutex taken core.current
      · have silent :
            observeInstruction core world (outline.program.fetch .trylockLdr).1 = none := by
          change observeLoad core .r0 = _
          rw [observeLoad, Core.address_eq frame.address, Option.bind_some,
            if_neg (fun trying => taken trying.2)]
        rw [silent]
        exact kept
  | trylockCmp =>
      rcases expects with ⟨frame, masked, value, read, still⟩
      refine ⟨_, Core.execute_cmp read, ?_⟩
      refine Kept.moved sound tracks pc ⟨rfl, Or.inl rfl⟩ rfl rfl rfl rfl rfl rfl
        ⟨⟨frame.address, frame.caller⟩, masked, fun attempt => ?_⟩
      change decide (value = 1) = true ↔ core.memory core.thread.call.2 = 1
      rw [still attempt, decide_eq_true_iff]
  | trylockBeq =>
      rcases expects with ⟨frame, masked, compared⟩
      by_cases taken : core.thread.z = true
      · refine ⟨_, Core.execute_beq_taken taken, ?_⟩
        refine Kept.moved sound tracks pc ⟨rfl, Or.inl rfl⟩ rfl rfl rfl rfl rfl ?_
          ⟨frame.caller, Or.inr frame.address⟩
        exact decide_eq_false (nonZero frame.address)
      · refine ⟨_, Core.execute_beq_passed taken, ?_⟩
        exact Kept.moved sound tracks pc ⟨rfl, Or.inl rfl⟩ rfl rfl rfl rfl rfl rfl
          ⟨⟨frame.address, frame.caller⟩, masked,
            fun attempt one => taken ((compared attempt).mpr one)⟩
  | trylockMovOne =>
      rcases expects with ⟨frame, masked, free⟩
      exact ⟨_, rfl, Kept.moved sound tracks pc ⟨rfl, Or.inl rfl⟩ rfl rfl rfl rfl rfl rfl
        ⟨⟨frame.address, frame.caller⟩, masked, free, rfl⟩⟩
  | trylockStr =>
      rcases expects with ⟨frame, masked, free, one⟩
      refine ⟨_, Core.execute_str frame.address one, ?_⟩
      have shown : observeInstruction core world (outline.program.fetch .trylockStr).1 =
          some (.acquire core.current core.thread.call.2) := by
        change observeStore core .r1 .r0 = _
        rw [observeStore, Core.address_eq frame.address, Core.address_eq one, Option.bind_some,
          Option.map_some, if_pos rfl]
      rw [shown]
      exact Kept.acquired sound tracks pc ⟨rfl, Or.inl rfl⟩ mutex
        (free (by rw [masked, decide_eq_true rfl, Bool.and_true])) rfl rfl rfl rfl rfl rfl rfl
        ⟨⟨frame.address, frame.caller⟩, masked⟩
  | trylockMovZero =>
      exact ⟨_, rfl, Kept.moved sound tracks pc ⟨rfl, Or.inl rfl⟩ rfl rfl rfl rfl rfl rfl
        ⟨expects.1.caller, Or.inl rfl⟩⟩
  | failedCpsie =>
      exact ⟨_, rfl, Kept.moved sound tracks pc ⟨rfl, Or.inl rfl⟩ rfl rfl rfl rfl rfl rfl expects⟩
  | failedReturn =>
      rcases expects with ⟨caller, zero | address⟩
      · refine ⟨_, Core.execute_movPcLr caller, Kept.left sound tracks pc ⟨rfl, Or.inl rfl⟩ rfl rfl
          fun address => ?_⟩
        exact (leave_held_trylock callee zero address).trans
          (or_congr Iff.rfl (and_iff_left (decide_eq_true zero)).symm)
      · refine ⟨_, Core.execute_movPcLr caller, Kept.left sound tracks pc ⟨rfl, Or.inl rfl⟩ rfl rfl
          fun other => ?_⟩
        rw [leave_held_failed callee (nonZero address)]
        refine (or_iff_left fun within => ?_).symm
        exact nonZero address (decide_eq_true_iff.mp within.2)
  | _ => cases called

theorem executes_mutexUnlock (sound : outline.Sound mutexes core)
    (tracks : Tracks inside mutexes core owners) (pc : core.thread.pc = some point)
    (called : function point = .mutexUnlock) (world : World ι) :
    outline.Executes mutexes owners core world point := by
  rcases sound.located core.current point pc with ⟨callee, mutex, expects⟩
  change core.thread.call.1 = function point at callee
  change mutexes core.thread.call.2 at mutex
  change Expects core.memory (core.thread.masked && decide (core.current = core.current))
    core.thread
    point at expects
  cases point with
  | unlockDmb =>
      exact ⟨_, rfl, Kept.moved sound tracks pc ⟨rfl, Or.inl rfl⟩ rfl rfl rfl rfl rfl rfl
        ⟨⟨expects.address, expects.caller⟩, expects.givenUp⟩⟩
  | unlockMov =>
      exact ⟨_, rfl, Kept.moved sound tracks pc ⟨rfl, Or.inl rfl⟩ rfl rfl rfl rfl rfl rfl
        ⟨⟨⟨expects.address, expects.caller⟩, expects.givenUp⟩, rfl⟩⟩
  | unlockStr =>
      rcases expects with ⟨frame, zero⟩
      refine ⟨_, Core.execute_str frame.address zero, ?_⟩
      have shown : observeInstruction core world (outline.program.fetch .unlockStr).1 =
          some (.release core.current core.thread.call.2) := by
        change observeStore core .r1 .r0 = _
        rw [observeStore, Core.address_eq frame.address, Core.address_eq zero, Option.bind_some,
          Option.map_some, if_neg (by decide)]
      rw [shown]
      exact Kept.released sound tracks pc
        ⟨rfl, Or.inl rfl⟩ mutex frame.givenUp rfl rfl rfl rfl rfl rfl rfl
        frame.caller
  | unlockReturn =>
      refine ⟨_, Core.execute_movPcLr expects, Kept.left sound tracks pc ⟨rfl, Or.inl rfl⟩ rfl rfl
        fun address => ?_⟩
      rw [leave_held_unlock callee]
      exact (or_iff_left (fun within => by cases within.2)).symm
  | _ => cases called

/-- The code follows the outline, provided that no mutex is at address zero. -/
theorem followed (nullFree : ¬ mutexes 0) : outline.Followed mutexes ι := by
  refine ⟨fun {core owners point} sound tracks pc world => ?_⟩
  cases called : function point with
  | mutexLock => exact executes_mutexLock sound tracks pc called world
  | mutexTrylock => exact executes_mutexTrylock sound tracks nullFree pc called world
  | mutexUnlock => exact executes_mutexUnlock sound tracks pc called world

end MaskedMutex
end Concurrency
end ShovelOS
