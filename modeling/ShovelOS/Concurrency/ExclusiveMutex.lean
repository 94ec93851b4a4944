import ShovelOS.Concurrency.Outline

namespace ShovelOS
namespace Concurrency
namespace ExclusiveMutex

open Transition

/-!
# The mutex of `arm_a`, with `ldrex` and `strex`

`arch/arm_a/concurrency/mutex.S`, one point for each instruction, in the
order of the text, and its outline.  An attempt lasts as long as the monitor
is open, so the `strex` that finds it open stores into a mutex that is not
one.
-/

inductive Point where
  | lockPush | lockMov | lockLdrex | lockCmp | lockBeq | lockStrex | lockCmpFailed | lockRetry
  | lockDmb | lockPop
  | yieldPush | yieldBl | yieldPop | yieldB
  | trylockMov | trylockLdrex | trylockCmp | trylockBeq | trylockStrex | trylockCmpFailed
  | trylockRetry | trylockDmb | trylockMovZero | trylockReturn
  | failedReturn
  | unlockDmb | unlockMov | unlockStr | unlockReturn
deriving DecidableEq

/-- `mutex_lock`, `mutex_trylock` and `mutex_unlock`. -/
def fetch : Point → Instruction Point × Point
  -- mutex_lock:
  | .lockPush => (.push [.lr], .lockMov)
  | .lockMov => (.mov .r2 1, .lockLdrex)
  -- _mutex_lock_try:
  | .lockLdrex => (.ldrex .r3 .r0, .lockCmp)
  | .lockCmp => (.cmpRegister .r3 .r2, .lockBeq)
  | .lockBeq => (.beq .yieldPush, .lockStrex)
  | .lockStrex => (.strex .r3 .r2 .r0, .lockCmpFailed)
  | .lockCmpFailed => (.cmp .r3 1, .lockRetry)
  | .lockRetry => (.beq .lockLdrex, .lockDmb)
  | .lockDmb => (.dmb, .lockPop)
  | .lockPop => (.popPc [], .yieldPush)
  -- _mutex_lock_yield:
  | .yieldPush => (.push [.r0, .r2], .yieldBl)
  | .yieldBl => (.blKthreadYield, .yieldPop)
  | .yieldPop => (.pop [.r0, .r2], .yieldB)
  | .yieldB => (.b .lockLdrex, .trylockMov)
  -- mutex_trylock:
  | .trylockMov => (.mov .r2 1, .trylockLdrex)
  -- _mutex_trylock_try:
  | .trylockLdrex => (.ldrex .r3 .r0, .trylockCmp)
  | .trylockCmp => (.cmpRegister .r3 .r2, .trylockBeq)
  | .trylockBeq => (.beq .failedReturn, .trylockStrex)
  | .trylockStrex => (.strex .r3 .r2 .r0, .trylockCmpFailed)
  | .trylockCmpFailed => (.cmp .r3 1, .trylockRetry)
  | .trylockRetry => (.beq .trylockLdrex, .trylockDmb)
  | .trylockDmb => (.dmb, .trylockMovZero)
  | .trylockMovZero => (.mov .r0 0, .trylockReturn)
  | .trylockReturn => (.movPcLr, .failedReturn)
  -- _mutex_trylock_failed:
  | .failedReturn => (.movPcLr, .unlockDmb)
  -- mutex_unlock:
  | .unlockDmb => (.dmb, .unlockMov)
  | .unlockMov => (.mov .r1 0, .unlockStr)
  | .unlockStr => (.str .r1 .r0, .unlockReturn)
  | .unlockReturn => (.movPcLr, .unlockReturn)

def entry : MutexFunction → Point
  | .mutexLock => .lockPush
  | .mutexTrylock => .trylockMov
  | .mutexUnlock => .unlockDmb

/-- `mutex.S`. -/
def program : Program Point := ⟨fetch, entry⟩

def function : Point → MutexFunction
  | .lockPush | .lockMov | .lockLdrex | .lockCmp | .lockBeq | .lockStrex | .lockCmpFailed
  | .lockRetry | .lockDmb | .lockPop | .yieldPush | .yieldBl | .yieldPop | .yieldB => .mutexLock
  | .trylockMov | .trylockLdrex | .trylockCmp | .trylockBeq | .trylockStrex | .trylockCmpFailed
  | .trylockRetry | .trylockDmb | .trylockMovZero | .trylockReturn | .failedReturn => .mutexTrylock
  | .unlockDmb | .unlockMov | .unlockStr | .unlockReturn => .mutexUnlock

/-- The points at which the thread has the mutex of its call: behind a
`strex` that succeeded, and before the `str` of `mutex_unlock`. -/
def inside (thread : Thread Point) : Point → Bool
  | .lockCmpFailed | .trylockCmpFailed => decide (thread.registers .r3 = .word 0)
  | .lockRetry | .trylockRetry => !thread.z
  | .lockDmb | .lockPop | .trylockDmb | .trylockMovZero | .trylockReturn => true
  | .unlockDmb | .unlockMov | .unlockStr => true
  | _ => false

/-- The registers in the loop of `mutex_lock`. -/
structure Locking (thread : Thread Point) : Prop where
  address : thread.registers .r0 = .word thread.call.2
  locked : thread.registers .r2 = .word 1
  stack : thread.stack = [.caller]

/-- The registers in the loop of `mutex_trylock`. -/
structure Trying (thread : Thread Point) : Prop where
  address : thread.registers .r0 = .word thread.call.2
  locked : thread.registers .r2 = .word 1
  caller : thread.registers .lr = .caller

/-- The registers of a call that needs its argument and its return address. -/
structure Called (thread : Thread Point) : Prop where
  address : thread.registers .r0 = .word thread.call.2
  caller : thread.registers .lr = .caller

/-- The registers of `mutex_unlock`, whose caller no longer holds the mutex. -/
structure Unlocking (thread : Thread Point) : Prop extends Called thread where
  givenUp : thread.held thread.call.2 = false

/-- What a thread's registers and stack hold at each point.  During an
attempt, which lasts as long as the monitor is open for the thread, what it
has read from the mutex is still there. -/
def Expects (memory : UInt32 → UInt32) (attempt : Bool) (thread : Thread Point) : Point → Prop
  | .lockPush => Called thread ∧ thread.stack = []
  | .lockMov => thread.registers .r0 = .word thread.call.2 ∧ thread.stack = [.caller]
  | .lockLdrex | .lockRetry | .lockDmb | .lockPop | .yieldPush | .yieldB => Locking thread
  | .lockCmp => Locking thread ∧ ∃ value, thread.registers .r3 = .word value ∧
      (attempt = true → memory thread.call.2 = value)
  | .lockBeq => Locking thread ∧ (attempt = true → (thread.z = true ↔ memory thread.call.2 = 1))
  | .lockStrex => Locking thread ∧ (attempt = true → memory thread.call.2 ≠ 1)
  | .lockCmpFailed => Locking thread ∧
      (thread.registers .r3 = .word 0 ∨ thread.registers .r3 = .word 1)
  | .yieldBl | .yieldPop => thread.stack = [.word thread.call.2, .word 1, .caller]
  | .trylockMov => Called thread
  | .trylockLdrex | .trylockRetry | .trylockDmb | .trylockMovZero => Trying thread
  | .trylockCmp => Trying thread ∧ ∃ value, thread.registers .r3 = .word value ∧
      (attempt = true → memory thread.call.2 = value)
  | .trylockBeq => Trying thread ∧ (attempt = true → (thread.z = true ↔ memory thread.call.2 = 1))
  | .trylockStrex => Trying thread ∧ (attempt = true → memory thread.call.2 ≠ 1)
  | .trylockCmpFailed => Trying thread ∧
      (thread.registers .r3 = .word 0 ∨ thread.registers .r3 = .word 1)
  | .trylockReturn => thread.registers .r0 = .word 0 ∧ thread.registers .lr = .caller
  | .failedReturn => Called thread
  | .unlockDmb | .unlockMov => Unlocking thread
  | .unlockStr => Unlocking thread ∧ thread.registers .r1 = .word 0
  | .unlockReturn => thread.registers .lr = .caller

/-- Without an attempt, nothing is expected of the memory. -/
theorem Expects.closed {memory memory' : UInt32 → UInt32} {attempt : Bool} {thread : Thread Point}
    {point : Point} (expects : Expects memory attempt thread point) :
    Expects memory' false thread point := by
  cases point with
  | lockCmp | trylockCmp =>
      rcases expects with ⟨frame, value, read, _still⟩
      exact ⟨frame, value, read, fun attempt => Bool.noConfusion attempt⟩
  | lockBeq | lockStrex | trylockBeq | trylockStrex =>
      exact ⟨expects.1, fun attempt => Bool.noConfusion attempt⟩
  | _ => exact expects

/-- What the code expects on its way. -/
def outline : Outline Point where
  program := program
  function := function
  inside := inside
  attempts := fun exclusive _thread => exclusive
  Expects := Expects
  closed := Expects.closed
  ended := fun _thread _unmasked => rfl
  function_entry := fun called => by cases called <;> rfl
  inside_entry := fun _thread called => by cases called <;> rfl
  expects_entry := fun _memory _attempt _thread called _address _registers _z => by
    cases called with
    | mutexLock => exact ⟨⟨rfl, rfl⟩, rfl⟩
    | mutexTrylock => exact ⟨rfl, rfl⟩
    | mutexUnlock => exact ⟨⟨rfl, rfl⟩, Function.update_self ..⟩

variable {ι : Type} [DecidableEq ι] {mutexes : UInt32 → Prop} {core : Core ι Point}
  {owners : UInt32 → Option ι} {world : World ι} {point : Point}

open Outline

/-- The `strex` of both loops.  It stores only while the monitor is open, and
then the mutex is not one. -/
theorem executes_strex (sound : outline.Sound mutexes core)
    (tracks : Tracks inside mutexes core owners)
    (pc : core.thread.pc = some point) {target : Point} (mutex : mutexes core.thread.call.2)
    (address : core.thread.registers .r0 = .word core.thread.call.2)
    (locked : core.thread.registers .r2 = .word 1)
    (attempt : (core.exclusive && decide (core.current = core.current)) = true →
      core.memory core.thread.call.2 ≠ 1)
    (functions : function target = function point) (notYet : inside core.thread point = false)
    (behind : ∀ thread : Thread Point, inside thread target =
      decide (thread.registers .r3 = .word 0))
    (expects : ∀ memory value, value = 0 ∨ value = 1 →
      Expects memory false ((core.thread.set .r3 (.word value)).goto target) target) :
    ∃ next, core.execute world target (.strex .r3 .r2 .r0) = some next ∧
      outline.Kept mutexes owners (observeInstruction core world (.strex .r3 .r2 .r0)) next := by
  by_cases succeeds : core.exclusive = true ∧ world.strexFails = false
  · refine ⟨_, Core.execute_strex_succeeds address locked succeeds, ?_⟩
    have free : core.memory core.thread.call.2 ≠ 1 :=
      attempt (by rw [succeeds.1, decide_eq_true rfl, Bool.and_true])
    have shown : observeInstruction core world (.strex .r3 .r2 .r0) =
        some (.acquire core.current core.thread.call.2) := by
      rw [observeInstruction, if_pos succeeds, observeStore, Core.address_eq address,
        Core.address_eq locked, Option.bind_some, Option.map_some, if_pos rfl]
    rw [shown]
    exact Kept.acquired sound tracks pc
      ⟨rfl, Or.inl rfl⟩ mutex free rfl rfl rfl rfl functions notYet
      (behind _) (expects _ 0 (Or.inl rfl))
  · refine ⟨_, Core.execute_strex_fails address locked succeeds, ?_⟩
    rw [observeInstruction, if_neg succeeds]
    refine Kept.moved sound tracks pc ⟨rfl, Or.inl rfl⟩ rfl rfl rfl rfl functions ?_
      (expects _ 1 (Or.inr rfl))
    change inside _ target = inside core.thread point
    rw [behind, notYet]
    exact decide_eq_false (fun same => by cases same)

theorem executes_mutexLock (sound : outline.Sound mutexes core)
    (tracks : Tracks inside mutexes core owners)
    (pc : core.thread.pc = some point) (called : function point = .mutexLock) (world : World ι) :
    outline.Executes mutexes owners core world point := by
  rcases sound.located core.current point pc with ⟨callee, mutex, expects⟩
  change core.thread.call.1 = function point at callee
  change mutexes core.thread.call.2 at mutex
  change Expects core.memory (core.exclusive && decide (core.current = core.current)) core.thread
    point at expects
  cases point with
  | lockPush =>
      rcases expects with ⟨frame, stack⟩
      refine ⟨_, rfl, Kept.moved sound tracks pc ⟨rfl, Or.inl rfl⟩ rfl rfl rfl rfl rfl rfl
        ⟨frame.address, ?_⟩⟩
      change [core.thread.registers .lr] ++ core.thread.stack = [.caller]
      rw [frame.caller, stack, List.append_nil]
  | lockMov =>
      exact ⟨_, rfl, Kept.moved sound tracks pc ⟨rfl, Or.inl rfl⟩ rfl rfl rfl rfl rfl rfl
        ⟨expects.1, rfl, expects.2⟩⟩
  | lockLdrex =>
      refine ⟨_, Core.execute_ldrex expects.address, ?_⟩
      have silent : observeInstruction core world (outline.program.fetch .lockLdrex).1 = none := by
        change observeLoad core .r0 = _
        rw [observeLoad, Core.address_eq expects.address, Option.bind_some,
          callee, if_neg (fun trying => by cases trying.1)]
      rw [silent]
      exact Kept.moved sound tracks pc ⟨rfl, Or.inl rfl⟩ rfl rfl rfl rfl rfl rfl
        ⟨⟨expects.address, expects.locked, expects.stack⟩, _, rfl, fun _attempt => rfl⟩
  | lockCmp =>
      rcases expects with ⟨frame, value, read, still⟩
      refine ⟨_, Core.execute_cmpRegister read frame.locked, ?_⟩
      refine Kept.moved sound tracks pc ⟨rfl, Or.inl rfl⟩ rfl rfl rfl rfl rfl rfl
        ⟨⟨frame.address, frame.locked, frame.stack⟩, fun attempt => ?_⟩
      change decide (value = 1) = true ↔ core.memory core.thread.call.2 = 1
      rw [still attempt, decide_eq_true_iff]
  | lockBeq =>
      rcases expects with ⟨frame, compared⟩
      by_cases taken : core.thread.z = true
      · refine ⟨_, Core.execute_beq_taken taken, ?_⟩
        exact Kept.moved sound tracks pc ⟨rfl, Or.inl rfl⟩ rfl rfl rfl rfl rfl rfl
          ⟨frame.address, frame.locked, frame.stack⟩
      · refine ⟨_, Core.execute_beq_passed taken, ?_⟩
        exact Kept.moved sound tracks pc ⟨rfl, Or.inl rfl⟩ rfl rfl rfl rfl rfl rfl
          ⟨⟨frame.address, frame.locked, frame.stack⟩,
            fun attempt one => taken ((compared attempt).mpr one)⟩
  | lockStrex =>
      rcases expects with ⟨frame, free⟩
      refine executes_strex sound tracks pc mutex frame.address frame.locked free rfl rfl
        (fun _thread => rfl) fun _memory value written => ?_
      refine ⟨⟨frame.address, frame.locked, frame.stack⟩, ?_⟩
      rcases written with rfl | rfl
      · exact Or.inl rfl
      · exact Or.inr rfl
  | lockCmpFailed =>
      rcases expects with ⟨frame, succeeded | failed⟩
      · refine ⟨_, Core.execute_cmp succeeded,
          Kept.moved sound tracks pc ⟨rfl, Or.inl rfl⟩ rfl rfl rfl rfl
          rfl ?_ ⟨frame.address, frame.locked, frame.stack⟩⟩
        change (!decide ((0 : UInt32) = 1)) = decide (core.thread.registers .r3 = .word 0)
        rw [succeeded]
        rfl
      · refine ⟨_, Core.execute_cmp failed,
          Kept.moved sound tracks pc ⟨rfl, Or.inl rfl⟩ rfl rfl rfl rfl
          rfl ?_ ⟨frame.address, frame.locked, frame.stack⟩⟩
        change (!decide ((1 : UInt32) = 1)) = decide (core.thread.registers .r3 = .word 0)
        rw [failed]
        rfl
  | lockRetry =>
      by_cases failed : core.thread.z = true
      · refine ⟨_, Core.execute_beq_taken failed, ?_⟩
        refine Kept.moved sound tracks pc ⟨rfl, Or.inl rfl⟩ rfl rfl rfl rfl rfl ?_
          ⟨expects.address, expects.locked, expects.stack⟩
        change false = !core.thread.z
        rw [failed]
        rfl
      · refine ⟨_, Core.execute_beq_passed failed, ?_⟩
        refine Kept.moved sound tracks pc ⟨rfl, Or.inl rfl⟩ rfl rfl rfl rfl rfl ?_
          ⟨expects.address, expects.locked, expects.stack⟩
        change true = !core.thread.z
        rw [Bool.eq_false_iff.mpr failed]
        rfl
  | lockDmb =>
      exact ⟨_, rfl, Kept.moved sound tracks pc ⟨rfl, Or.inl rfl⟩ rfl rfl rfl rfl rfl rfl
        ⟨expects.address, expects.locked, expects.stack⟩⟩
  | lockPop =>
      have executed : core.execute world (fetch .lockPop).2 (fetch .lockPop).1 =
          some (core.put ({ core.thread with stack := [] }.leave)) := by
        rw [fetch, Core.execute, Thread.pops, Option.bind_some, expects.stack]
        rfl
      refine ⟨_, executed, Kept.left sound tracks pc ⟨rfl, Or.inl rfl⟩ rfl rfl fun address => ?_⟩
      exact (leave_held_lock callee address).trans (or_congr Iff.rfl (and_iff_left rfl).symm)
  | yieldPush =>
      refine ⟨_, rfl, Kept.moved sound tracks pc ⟨rfl, Or.inl rfl⟩ rfl rfl rfl rfl rfl rfl ?_⟩
      change [core.thread.registers .r0, core.thread.registers .r2] ++ core.thread.stack = _
      rw [expects.address, expects.locked, expects.stack]
      rfl
  | yieldBl =>
      exact ⟨_, rfl,
        Kept.moved sound tracks pc ⟨rfl, Or.inr ⟨rfl, rfl⟩⟩ rfl rfl rfl rfl rfl rfl expects⟩
  | yieldPop =>
      have executed : core.execute world (fetch .yieldPop).2 (fetch .yieldPop).1 =
          some (core.put ((({ core.thread with stack := [.caller] }.set .r0
            (.word core.thread.call.2)).set .r2 (.word 1)).goto .yieldB)) := by
        rw [fetch, Core.execute, Thread.pops, expects]
        rfl
      exact ⟨_, executed, Kept.moved sound tracks pc ⟨rfl, Or.inl rfl⟩ rfl rfl rfl rfl rfl rfl
        ⟨rfl, rfl, rfl⟩⟩
  | yieldB =>
      exact ⟨_, rfl, Kept.moved sound tracks pc ⟨rfl, Or.inl rfl⟩ rfl rfl rfl rfl rfl rfl
        ⟨expects.address, expects.locked, expects.stack⟩⟩
  | _ => cases called

theorem executes_mutexTrylock (sound : outline.Sound mutexes core)
    (tracks : Tracks inside mutexes core owners)
    (nullFree : ¬ mutexes 0) (pc : core.thread.pc = some point)
    (called : function point = .mutexTrylock)
    (world : World ι) : outline.Executes mutexes owners core world point := by
  rcases sound.located core.current point pc with ⟨callee, mutex, expects⟩
  change core.thread.call.1 = function point at callee
  change mutexes core.thread.call.2 at mutex
  change Expects core.memory (core.exclusive && decide (core.current = core.current)) core.thread
    point at expects
  cases point with
  | trylockMov =>
      exact ⟨_, rfl, Kept.moved sound tracks pc ⟨rfl, Or.inl rfl⟩ rfl rfl rfl rfl rfl rfl
        ⟨expects.address, rfl, expects.caller⟩⟩
  | trylockLdrex =>
      refine ⟨_, Core.execute_ldrex expects.address, ?_⟩
      have kept : outline.Kept mutexes owners none
          ({ core with exclusive := true }.put
            ((core.thread.set .r3 (.word (core.memory core.thread.call.2))).goto .trylockCmp)) :=
        Kept.moved sound tracks pc ⟨rfl, Or.inl rfl⟩ rfl rfl rfl rfl rfl rfl
          ⟨⟨expects.address, expects.locked, expects.caller⟩, _, rfl, fun _attempt => rfl⟩
      by_cases taken : core.memory core.thread.call.2 = 1
      · have refused : observeInstruction core world (outline.program.fetch .trylockLdrex).1 =
            some (.refuse core.current core.thread.call.2) := by
          change observeLoad core .r0 = _
          rw [observeLoad, Core.address_eq expects.address, Option.bind_some,
            if_pos ⟨callee, taken⟩]
        rw [refused]
        exact kept.refused tracks mutex taken core.current
      · have silent :
            observeInstruction core world (outline.program.fetch .trylockLdrex).1 = none := by
          change observeLoad core .r0 = _
          rw [observeLoad, Core.address_eq expects.address, Option.bind_some,
            if_neg (fun trying => taken trying.2)]
        rw [silent]
        exact kept
  | trylockCmp =>
      rcases expects with ⟨frame, value, read, still⟩
      refine ⟨_, Core.execute_cmpRegister read frame.locked, ?_⟩
      refine Kept.moved sound tracks pc ⟨rfl, Or.inl rfl⟩ rfl rfl rfl rfl rfl rfl
        ⟨⟨frame.address, frame.locked, frame.caller⟩, fun attempt => ?_⟩
      change decide (value = 1) = true ↔ core.memory core.thread.call.2 = 1
      rw [still attempt, decide_eq_true_iff]
  | trylockBeq =>
      rcases expects with ⟨frame, compared⟩
      by_cases taken : core.thread.z = true
      · refine ⟨_, Core.execute_beq_taken taken, ?_⟩
        exact Kept.moved sound tracks pc ⟨rfl, Or.inl rfl⟩ rfl rfl rfl rfl rfl rfl
          ⟨frame.address, frame.caller⟩
      · refine ⟨_, Core.execute_beq_passed taken, ?_⟩
        exact Kept.moved sound tracks pc ⟨rfl, Or.inl rfl⟩ rfl rfl rfl rfl rfl rfl
          ⟨⟨frame.address, frame.locked, frame.caller⟩,
            fun attempt one => taken ((compared attempt).mpr one)⟩
  | trylockStrex =>
      rcases expects with ⟨frame, free⟩
      refine executes_strex sound tracks pc mutex frame.address frame.locked free rfl rfl
        (fun _thread => rfl) fun _memory value written => ?_
      refine ⟨⟨frame.address, frame.locked, frame.caller⟩, ?_⟩
      rcases written with rfl | rfl
      · exact Or.inl rfl
      · exact Or.inr rfl
  | trylockCmpFailed =>
      rcases expects with ⟨frame, succeeded | failed⟩
      · refine ⟨_, Core.execute_cmp succeeded,
          Kept.moved sound tracks pc ⟨rfl, Or.inl rfl⟩ rfl rfl rfl rfl
          rfl ?_ ⟨frame.address, frame.locked, frame.caller⟩⟩
        change (!decide ((0 : UInt32) = 1)) = decide (core.thread.registers .r3 = .word 0)
        rw [succeeded]
        rfl
      · refine ⟨_, Core.execute_cmp failed,
          Kept.moved sound tracks pc ⟨rfl, Or.inl rfl⟩ rfl rfl rfl rfl
          rfl ?_ ⟨frame.address, frame.locked, frame.caller⟩⟩
        change (!decide ((1 : UInt32) = 1)) = decide (core.thread.registers .r3 = .word 0)
        rw [failed]
        rfl
  | trylockRetry =>
      by_cases failed : core.thread.z = true
      · refine ⟨_, Core.execute_beq_taken failed, ?_⟩
        refine Kept.moved sound tracks pc ⟨rfl, Or.inl rfl⟩ rfl rfl rfl rfl rfl ?_
          ⟨expects.address, expects.locked, expects.caller⟩
        change false = !core.thread.z
        rw [failed]
        rfl
      · refine ⟨_, Core.execute_beq_passed failed, ?_⟩
        refine Kept.moved sound tracks pc ⟨rfl, Or.inl rfl⟩ rfl rfl rfl rfl rfl ?_
          ⟨expects.address, expects.locked, expects.caller⟩
        change true = !core.thread.z
        rw [Bool.eq_false_iff.mpr failed]
        rfl
  | trylockDmb =>
      exact ⟨_, rfl, Kept.moved sound tracks pc ⟨rfl, Or.inl rfl⟩ rfl rfl rfl rfl rfl rfl
        ⟨expects.address, expects.locked, expects.caller⟩⟩
  | trylockMovZero =>
      exact ⟨_, rfl, Kept.moved sound tracks pc ⟨rfl, Or.inl rfl⟩ rfl rfl rfl rfl rfl rfl
        ⟨rfl, expects.caller⟩⟩
  | trylockReturn =>
      refine ⟨_, Core.execute_movPcLr expects.2,
        Kept.left sound tracks pc ⟨rfl, Or.inl rfl⟩ rfl rfl fun address => ?_⟩
      exact (leave_held_trylock callee expects.1 address).trans
        (or_congr Iff.rfl (and_iff_left rfl).symm)
  | failedReturn =>
      -- The address of the mutex is the result, and it is not zero.
      have nonZero : core.thread.registers .r0 ≠ .word 0 := by
        rw [expects.address]
        intro zero
        injection zero with isZero
        exact nullFree (isZero ▸ mutex)
      refine ⟨_, Core.execute_movPcLr expects.caller,
        Kept.left sound tracks pc ⟨rfl, Or.inl rfl⟩ rfl rfl
        fun address => ?_⟩
      rw [leave_held_failed callee nonZero]
      exact (or_iff_left (fun within => by cases within.2)).symm
  | _ => cases called

theorem executes_mutexUnlock (sound : outline.Sound mutexes core)
    (tracks : Tracks inside mutexes core owners)
    (pc : core.thread.pc = some point) (called : function point = .mutexUnlock) (world : World ι) :
    outline.Executes mutexes owners core world point := by
  rcases sound.located core.current point pc with ⟨callee, mutex, expects⟩
  change core.thread.call.1 = function point at callee
  change mutexes core.thread.call.2 at mutex
  change Expects core.memory (core.exclusive && decide (core.current = core.current)) core.thread
    point at expects
  cases point with
  | unlockDmb =>
      exact ⟨_, rfl, Kept.moved sound tracks pc ⟨rfl, Or.inl rfl⟩ rfl rfl rfl rfl rfl rfl
        ⟨⟨expects.address, expects.caller⟩, expects.givenUp⟩⟩
  | unlockMov =>
      exact ⟨_, rfl, Kept.moved sound tracks pc ⟨rfl, Or.inl rfl⟩ rfl rfl rfl rfl rfl rfl
        ⟨⟨⟨expects.address, expects.caller⟩, expects.givenUp⟩, rfl⟩⟩
  | unlockStr =>
      rcases expects with ⟨frame, zero⟩
      refine ⟨_, Core.execute_str frame.address zero, ?_⟩
      have shown : observeInstruction core world (outline.program.fetch .unlockStr).1 =
          some (.release core.current core.thread.call.2) := by
        change observeStore core .r1 .r0 = _
        rw [observeStore, Core.address_eq frame.address, Core.address_eq zero,
          Option.bind_some, Option.map_some, if_neg (by decide)]
      rw [shown]
      exact Kept.released sound tracks pc
        ⟨rfl, Or.inl rfl⟩ mutex frame.givenUp rfl rfl rfl rfl rfl rfl rfl
        frame.caller
  | unlockReturn =>
      refine ⟨_, Core.execute_movPcLr expects,
        Kept.left sound tracks pc ⟨rfl, Or.inl rfl⟩ rfl rfl fun address => ?_⟩
      rw [leave_held_unlock callee]
      exact (or_iff_left (fun within => by cases within.2)).symm
  | _ => cases called

/-- The code follows the outline, provided that no mutex is at address zero:
`mutex_trylock` returns the address when it fails. -/
theorem followed (nullFree : ¬ mutexes 0) : outline.Followed mutexes ι := by
  refine ⟨fun {core owners point} sound tracks pc world => ?_⟩
  cases called : function point with
  | mutexLock => exact executes_mutexLock sound tracks pc called world
  | mutexTrylock => exact executes_mutexTrylock sound tracks nullFree pc called world
  | mutexUnlock => exact executes_mutexUnlock sound tracks pc called world

end ExclusiveMutex
end Concurrency
end ShovelOS
