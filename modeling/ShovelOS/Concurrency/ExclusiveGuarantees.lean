import ShovelOS.Concurrency.ExclusiveMutex
import ShovelOS.Concurrency.Progress

namespace ShovelOS
namespace Concurrency
namespace ExclusiveMutex

open Transition Outline

/-!
# What the mutex of `arm_a` guarantees

For any number of threads, any interleaving of their instructions, any
interrupts and any failing `strex`, the stores to the mutexes are a history
of locks.  And a thread that is left alone in `mutex_lock` acquires a mutex
that no other thread has, from wherever it is in the function.
-/

variable {ι : Type} [DecidableEq ι] {mutexes : UInt32 → Prop}

/-- The mutexes of `arm_a` are locks: what the threads do to them is a
history of locks, a mutex is one as long as it has an owner, callers hold
only what they own, and outside the functions they hold all they own. -/
theorem exclusive_mutexes_are_locks (nullFree : ¬ mutexes 0) {initial final : Core ι Point}
    (start : Initial mutexes initial) {events : List (Event ι)}
    (disciplined : StepsMeet (step program) (Disciplined mutexes) initial events)
    (reaches : run (step program) initial events = some final) :
    ∃ owners, run Lock.step (fun _address => none)
        (visible (step program) (observe program) initial events) = some owners ∧
      ∀ address, mutexes address →
        Lock.Alternates none (Lock.transfers address
          (visible (step program) (observe program) initial events)) ∧
        final.memory address = (if (owners address).isSome = true then 1 else 0) ∧
        (∀ thread, (final.threads thread).held address = true → owners address = some thread) ∧
        ∀ thread, (final.threads thread).pc = none → owners address = some thread →
          (final.threads thread).held address = true := by
  rcases (followed nullFree).run start disciplined reaches with ⟨owners, history, _sound, tracks⟩
  exact ⟨owners, history, fun address mutex => ⟨Lock.alternates_of_run address history,
    tracks.word address mutex, fun thread => (Outline.held_iff tracks mutex thread).1,
    fun thread => (Outline.held_iff tracks mutex thread).2⟩⟩

/-- One thread is interrupted in front of its `strex`.  Another takes the
mutex, so the first one fails, finds the mutex locked, and yields.  It
acquires the mutex when the other has released it. -/
def contention : List (Event Bool) :=
  [.call .mutexLock 4096 (fun _register => .caller) true] ++ List.replicate 5 (instruction true) ++
    [.interrupt true, .call .mutexTrylock 4096 (fun _register => .caller) true] ++
    List.replicate 10 (instruction true) ++ [.interrupt false] ++ List.replicate 8
      (instruction true) ++
    [.call .mutexUnlock 4096 (fun _register => .caller) true] ++ List.replicate 4
      (instruction true) ++
    [.interrupt false] ++ List.replicate 10 (instruction true)

theorem contended_mutex_is_lock :
    ∃ final owners, run (step program) (idle false) contention = some final ∧
      run Lock.step (fun _address => none)
        ([.acquire true 4096, .release true 4096, .acquire false 4096] :
          List (Lock.Action Bool UInt32)) =
          some owners ∧
      final.memory 4096 = (if (owners 4096).isSome = true then 1 else 0) ∧
      ∀ thread, (final.threads thread).held 4096 = true → owners 4096 = some thread := by
  have enabled : (run (step program) (idle false) contention).isSome = true := by decide +kernel
  have disciplined : StepsMeet (step program) (Disciplined (· = 4096)) (idle false) contention := by
    decide +kernel
  have seen : visible (step program) (observe program) (idle false) contention =
      [.acquire true 4096, .release true 4096, .acquire false 4096] := by decide +kernel
  rcases Option.isSome_iff_exists.mp enabled with ⟨final, reaches⟩
  rcases exclusive_mutexes_are_locks (by decide) (idle_initial _ false) disciplined reaches with
    ⟨owners, history, locks⟩
  rw [seen] at history
  rcases locks 4096 rfl with ⟨_alternates, word, holders, _outside⟩
  exact ⟨final, owners, reaches, history, word, holders⟩

/-! ## Progress -/

/-- How many instructions a thread that is left alone is away from the end of
`mutex_lock`, when no other thread has the mutex.  A comparison with what was
read before an interruption may still send it through `kthread_yield`. -/
def remaining (exclusive : Bool) (thread : Thread Point) : Point → Nat
  | .lockPush => 10
  | .lockMov => 9
  | .lockLdrex => 8
  | .lockCmp => if thread.registers .r3 = .word 1 then 14 else if exclusive = true then 7 else 13
  | .lockBeq => if thread.z = true then 13 else if exclusive = true then 6 else 12
  | .lockStrex => if exclusive = true then 5 else 11
  | .lockCmpFailed => if thread.registers .r3 = .word 0 then 4 else 10
  | .lockRetry => if thread.z = true then 9 else 3
  | .lockDmb => 2
  | .lockPop => 1
  | .yieldPush => 12
  | .yieldBl => 11
  | .yieldPop => 10
  | .yieldB => 9
  | _ => 0

theorem remaining_le (exclusive : Bool) (thread : Thread Point) (point : Point) :
    remaining exclusive thread point ≤ 14 := by
  unfold remaining
  split <;> (try split_ifs) <;> omega

theorem distance_le {ι : Type} (core : Core ι Point) : distance remaining core ≤ 14 := by
  rw [distance]
  split
  · exact Nat.zero_le 14
  · exact remaining_le ..

variable {core : Core ι Point} {point : Point} {address : UInt32}

theorem advances (unopposed : Unopposed outline mutexes core address)
    (pc : core.thread.pc = some point) {world : World ι} (succeeds : world.strexFails = false)
    (alone : world.next = core.current) :
    ∃ next, core.execute world (fetch point).2 (fetch point).1 = some next ∧
      Advances remaining core next := by
  rcases unopposed.sound.located core.current point pc with ⟨callee, mutex, expects⟩
  change core.thread.call.1 = function point at callee
  change mutexes core.thread.call.2 at mutex
  change Expects core.memory (core.exclusive && decide (core.current = core.current)) core.thread
    point at expects
  rw [unopposed.call] at callee
  cases point with
  | lockPush => exact ⟨_, rfl, Advances.moved pc rfl rfl rfl rfl rfl (Nat.lt_succ_self 9)⟩
  | lockMov => exact ⟨_, rfl, Advances.moved pc rfl rfl rfl rfl rfl (Nat.lt_succ_self 8)⟩
  | lockLdrex =>
      refine ⟨_, Core.execute_ldrex expects.address, Advances.moved pc rfl rfl rfl rfl rfl ?_⟩
      have free : core.memory core.thread.call.2 = 0 := unopposed.free pc rfl
      change (if Value.word (core.memory core.thread.call.2) = .word 1 then 14
        else if true = true then 7 else 13) < 8
      rw [free]
      decide
  | lockCmp =>
      rcases expects with ⟨frame, value, read, still⟩
      refine ⟨_, Core.execute_cmpRegister read frame.locked,
        Advances.moved pc rfl rfl rfl rfl rfl ?_⟩
      change (if decide (value = 1) = true then 13 else if core.exclusive = true then 6 else 12) <
        if core.thread.registers .r3 = .word 1 then 14 else if core.exclusive = true then 7 else 13
      rw [read]
      by_cases one : value = 1
      · simp [one]
      · cases core.exclusive <;> simp [one]
  | lockBeq =>
      rcases expects with ⟨frame, compared⟩
      by_cases taken : core.thread.z = true
      · refine ⟨_, Core.execute_beq_taken taken, Advances.moved pc rfl rfl rfl rfl rfl ?_⟩
        change 12 < if core.thread.z = true then 13 else _
        rw [if_pos taken]
        decide
      · refine ⟨_, Core.execute_beq_passed taken, Advances.moved pc rfl rfl rfl rfl rfl ?_⟩
        change (if core.exclusive = true then 5 else 11) <
          if core.thread.z = true then 13 else if core.exclusive = true then 6 else 12
        rw [if_neg taken]
        cases core.exclusive <;> decide
  | lockStrex =>
      rcases expects with ⟨frame, free⟩
      by_cases exclusive : core.exclusive = true
      · refine ⟨_, Core.execute_strex_succeeds frame.address frame.locked ⟨exclusive, succeeds⟩,
          Advances.moved pc rfl rfl rfl rfl rfl ?_⟩
        change 4 < if core.exclusive = true then 5 else 11
        rw [if_pos exclusive]
        decide
      · refine ⟨_, Core.execute_strex_fails frame.address frame.locked
          (fun both => exclusive both.1),
          Advances.moved pc rfl rfl rfl rfl rfl ?_⟩
        change 10 < if core.exclusive = true then 5 else 11
        rw [if_neg exclusive]
        decide
  | lockCmpFailed =>
      rcases expects with ⟨frame, succeeded | failed⟩
      · refine ⟨_, Core.execute_cmp succeeded, Advances.moved pc rfl rfl rfl rfl rfl ?_⟩
        change 3 < if core.thread.registers .r3 = .word 0 then 4 else 10
        rw [if_pos succeeded]
        decide
      · refine ⟨_, Core.execute_cmp failed, Advances.moved pc rfl rfl rfl rfl rfl ?_⟩
        change 9 < if core.thread.registers .r3 = .word 0 then 4 else 10
        rw [failed]
        decide
  | lockRetry =>
      by_cases failed : core.thread.z = true
      · refine ⟨_, Core.execute_beq_taken failed, Advances.moved pc rfl rfl rfl rfl rfl ?_⟩
        change 8 < if core.thread.z = true then 9 else 3
        rw [if_pos failed]
        decide
      · refine ⟨_, Core.execute_beq_passed failed, Advances.moved pc rfl rfl rfl rfl rfl ?_⟩
        change 2 < if core.thread.z = true then 9 else 3
        rw [if_neg failed]
        decide
  | lockDmb => exact ⟨_, rfl, Advances.moved pc rfl rfl rfl rfl rfl (Nat.lt_succ_self 1)⟩
  | lockPop =>
      have executed : core.execute world (fetch .lockPop).2 (fetch .lockPop).1 =
          some (core.put ({ core.thread with stack := [] }.leave)) := by
        rw [fetch, Core.execute, Thread.pops, Option.bind_some, expects.stack]
        rfl
      have called : ({ core.thread with stack := [] } : Thread Point).call.1 = .mutexLock := by
        rw [unopposed.call]
      exact ⟨_, executed, Advances.left pc rfl rfl rfl rfl
        ((leave_held_lock called core.thread.call.2).mpr (Or.inr rfl)) Nat.zero_lt_one⟩
  | yieldPush => exact ⟨_, rfl, Advances.moved pc rfl rfl rfl rfl rfl (Nat.lt_succ_self 11)⟩
  | yieldBl => exact ⟨_, rfl, Advances.moved pc rfl alone rfl rfl rfl (Nat.lt_succ_self 10)⟩
  | yieldPop =>
      have executed : core.execute world (fetch .yieldPop).2 (fetch .yieldPop).1 =
          some (core.put ((({ core.thread with stack := [.caller] }.set .r0
            (.word core.thread.call.2)).set .r2 (.word 1)).goto .yieldB)) := by
        rw [fetch, Core.execute, Thread.pops, expects]
        rfl
      exact ⟨_, executed, Advances.moved pc rfl rfl rfl rfl rfl (Nat.lt_succ_self 9)⟩
  | yieldB => exact ⟨_, rfl, Advances.moved pc rfl rfl rfl rfl rfl (Nat.lt_succ_self 8)⟩
  | _ => cases callee

theorem advancing : Advancing outline mutexes remaining ι :=
  ⟨fun unopposed pc succeeds alone => advances unopposed pc succeeds alone⟩

/-- In every state that a disciplined run reaches, the next instruction of
the running thread can be executed, whatever it reads and whatever the world
decides.  And a running thread in `mutex_lock` that is left alone returns with
the mutex after at most fourteen instructions, unless the mutex has an
owner. -/
theorem exclusive_mutexLock_returns (nullFree : ¬ mutexes 0) {initial final : Core ι Point}
    (start : Initial mutexes initial) {events : List (Event ι)}
    (disciplined : StepsMeet (Concurrency.step program) (Disciplined mutexes) initial events)
    (reaches : run (Concurrency.step program) initial events = some final) :
    (∀ world, final.thread.pc ≠ none →
      ∃ next, Concurrency.step program final (.execute world) = some next) ∧
    ∀ address registers z, final.thread.call = (.mutexLock, address) → final.thread.pc ≠ none →
      final.thread.held address = false →
      (∀ thread, thread ≠ final.current → ¬ Owns inside (final.threads thread) address) →
      ∃ steps acquired, steps ≤ 14 ∧
        run (Concurrency.step program) final
          (List.replicate steps (.execute ⟨false, final.current, registers, z⟩)) = some acquired ∧
        acquired.thread.pc = none ∧ acquired.thread.held address = true := by
  refine ⟨fun world within => (followed nullFree).enabled start disciplined reaches within world,
    fun address registers z call within notHeld unowned => ?_⟩
  rcases advancing.returns (followed nullFree) start disciplined reaches registers z call
    within notHeld
    unowned with ⟨steps, acquired, short, rest⟩
  exact ⟨steps, acquired, Nat.le_trans short (distance_le final), rest⟩

/-- A thread that was interrupted in front of its `strex`, and resumed. -/
def resumption : List (Event Bool) :=
  [.call .mutexLock 4096 (fun _register => .caller) true] ++ List.replicate 5 (instruction true) ++
    [.interrupt true, .interrupt false]

theorem resumed_mutexLock_returns :
    ∃ final, run (Concurrency.step program) (idle false) resumption = some final ∧
      ∃ steps acquired, steps ≤ 14 ∧
        run (Concurrency.step program) final (List.replicate steps
          (.execute ⟨false, final.current, fun _register => .caller, true⟩)) = some acquired ∧
        acquired.thread.pc = none ∧ acquired.thread.held 4096 = true := by
  have enabled : (run (Concurrency.step program) (idle false) resumption).isSome = true := by
    decide +kernel
  have disciplined : StepsMeet (Concurrency.step program) (Disciplined (· = 4096))
      (idle false) resumption := by
    decide +kernel
  rcases Option.isSome_iff_exists.mp enabled with ⟨final, reaches⟩
  have places : (run (Concurrency.step program) (idle false) resumption).map (fun core =>
      decide (core.current = false ∧ core.thread.call = (.mutexLock, 4096) ∧
        core.thread.pc = some .lockStrex ∧ core.thread.held 4096 = false ∧
        (core.threads true).pc = none ∧ (core.threads true).held 4096 = false)) = some true := by
    decide +kernel
  rw [reaches, Option.map_some, Option.some.injEq, decide_eq_true_iff] at places
  rcases places with ⟨current, call, pc, held, otherPc, otherHeld⟩
  refine ⟨final, reaches,
    (exclusive_mutexLock_returns (by decide) (idle_initial _ false) disciplined reaches).2 4096 _ _
    call (by rw [pc]; exact Option.some_ne_none _) held fun thread different owns => ?_⟩
  cases thread with
  | false => exact different current.symm
  | true =>
      rw [owns_outside otherPc, otherHeld] at owns
      cases owns

end ExclusiveMutex
end Concurrency
end ShovelOS
