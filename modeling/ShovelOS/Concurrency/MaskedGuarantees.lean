import ShovelOS.Concurrency.MaskedMutex
import ShovelOS.Concurrency.Progress

namespace ShovelOS
namespace Concurrency
namespace MaskedMutex

open Transition Outline

/-!
# What the mutex of `arm_m` guarantees

The same as that of `arm_a`.  Interrupts are masked for a bounded number of
instructions, and they are enabled whenever a thread other than the masking
one could run.
-/

variable {ι : Type} [DecidableEq ι] {mutexes : UInt32 → Prop}

/-- The mutexes of `arm_m` are locks, and only the running thread masks
interrupts. -/
theorem masked_mutexes_are_locks (nullFree : ¬ mutexes 0) {initial final : Core ι Point}
    (start : Initial mutexes initial) {events : List (Event ι)}
    (disciplined : StepsMeet (step program) (Disciplined mutexes) initial events)
    (reaches : run (step program) initial events = some final) :
    (∀ thread, thread ≠ final.current → (final.threads thread).masked = false) ∧
    ∃ owners, run Lock.step (fun _address => none)
        (visible (step program) (observe program) initial events) = some owners ∧
      ∀ address, mutexes address →
        Lock.Alternates none (Lock.transfers address
          (visible (step program) (observe program) initial events)) ∧
        final.memory address = (if (owners address).isSome = true then 1 else 0) ∧
        (∀ thread, (final.threads thread).held address = true → owners address = some thread) ∧
        ∀ thread, (final.threads thread).pc = none → owners address = some thread →
          (final.threads thread).held address = true := by
  rcases (followed nullFree).run start disciplined reaches with ⟨owners, history, sound, tracks⟩
  exact ⟨sound.unmasked, owners, history,
    fun address mutex => ⟨Lock.alternates_of_run address history,
    tracks.word address mutex, fun thread => (Outline.held_iff tracks mutex thread).1,
    fun thread => (Outline.held_iff tracks mutex thread).2⟩⟩

/-- A thread finds the mutex locked by another one and yields, and acquires it
when the other has released it. -/
def contention : List (Event Bool) :=
  [.call .mutexTrylock 4096 (fun _register => .caller) true] ++ List.replicate 11
    (instruction false) ++
    [.interrupt true, .call .mutexLock 4096 (fun _register => .caller) true] ++
    List.replicate 10 (instruction false) ++
    [.call .mutexUnlock 4096 (fun _register => .caller) true] ++ List.replicate 4
      (instruction false) ++
    [.interrupt true] ++ List.replicate 11 (instruction false)

theorem contended_masked_mutex_is_lock :
    ∃ final owners, run (step program) (idle false) contention = some final ∧
      run Lock.step (fun _address => none)
        ([.acquire false 4096, .release false 4096, .acquire true 4096] :
          List (Lock.Action Bool UInt32)) =
          some owners ∧
      final.memory 4096 = (if (owners 4096).isSome = true then 1 else 0) ∧
      ∀ thread, (final.threads thread).held 4096 = true → owners 4096 = some thread := by
  have enabled : (run (step program) (idle false) contention).isSome = true := by decide +kernel
  have disciplined : StepsMeet (step program) (Disciplined (· = 4096)) (idle false) contention := by
    decide +kernel
  have seen : visible (step program) (observe program) (idle false) contention =
      [.acquire false 4096, .release false 4096, .acquire true 4096] := by decide +kernel
  rcases Option.isSome_iff_exists.mp enabled with ⟨final, reaches⟩
  have locked := (masked_mutexes_are_locks (by decide) (idle_initial _ false) disciplined reaches).2
  rw [seen] at locked
  rcases locked with ⟨owners, history, locks⟩
  rcases locks 4096 rfl with ⟨_alternates, word, holders, _outside⟩
  exact ⟨final, owners, reaches, history, word, holders⟩

/-- How many instructions a thread that is left alone is away from the end of
`mutex_lock`, when no other thread has the mutex. -/
def remaining (_exclusive : Bool) (thread : Thread Point) : Point → Nat
  | .lockPush => 12
  | .lockMov => 11
  | .lockCpsid => 10
  | .lockDsb => 9
  | .lockIsb => 8
  | .lockLdr => 7
  | .lockCmp => if thread.registers .r1 = .word 1 then 15 else 6
  | .lockBeq => if thread.z = true then 14 else 5
  | .lockMovOne => 4
  | .lockStr => 3
  | .lockCpsie => 2
  | .lockPop => 1
  | .yieldCpsie => 13
  | .yieldBl => 12
  | .yieldB => 11
  | _ => 0

theorem remaining_le (exclusive : Bool) (thread : Thread Point) (point : Point) :
    remaining exclusive thread point ≤ 15 := by
  unfold remaining
  split <;> (try split_ifs) <;> omega

theorem distance_le {ι : Type} (core : Core ι Point) : distance remaining core ≤ 15 := by
  rw [distance]
  split
  · exact Nat.zero_le 15
  · exact remaining_le ..

variable {core : Core ι Point} {point : Point} {address : UInt32}

theorem advances (unopposed : Unopposed outline mutexes core address)
    (pc : core.thread.pc = some point) {world : World ι} (alone : world.next = core.current) :
    ∃ next, core.execute world (fetch point).2 (fetch point).1 = some next ∧
      Advances remaining core next := by
  rcases unopposed.sound.located core.current point pc with ⟨callee, mutex, expects⟩
  change core.thread.call.1 = function point at callee
  change mutexes core.thread.call.2 at mutex
  change Expects core.memory (core.thread.masked && decide (core.current = core.current))
    core.thread
    point at expects
  rw [unopposed.call] at callee
  cases point with
  | lockPush => exact ⟨_, rfl, Advances.moved pc rfl rfl rfl rfl rfl (Nat.lt_succ_self 11)⟩
  | lockMov => exact ⟨_, rfl, Advances.moved pc rfl rfl rfl rfl rfl (Nat.lt_succ_self 10)⟩
  | lockCpsid => exact ⟨_, rfl, Advances.moved pc rfl rfl rfl rfl rfl (Nat.lt_succ_self 9)⟩
  | lockDsb => exact ⟨_, rfl, Advances.moved pc rfl rfl rfl rfl rfl (Nat.lt_succ_self 8)⟩
  | lockIsb => exact ⟨_, rfl, Advances.moved pc rfl rfl rfl rfl rfl (Nat.lt_succ_self 7)⟩
  | lockLdr =>
      refine ⟨_, Core.execute_ldr expects.1.address, Advances.moved pc rfl rfl rfl rfl rfl ?_⟩
      have free : core.memory core.thread.call.2 = 0 := unopposed.free pc rfl
      change (if Value.word (core.memory core.thread.call.2) = .word 1 then 15 else 6) < 7
      rw [free]
      decide
  | lockCmp =>
      rcases expects with ⟨frame, masked, value, read, still⟩
      refine ⟨_, Core.execute_cmp read, Advances.moved pc rfl rfl rfl rfl rfl ?_⟩
      change (if decide (value = 1) = true then 14 else 5) <
        if core.thread.registers .r1 = .word 1 then 15 else 6
      rw [read]
      by_cases one : value = 1 <;> simp [one]
  | lockBeq =>
      by_cases taken : core.thread.z = true
      · refine ⟨_, Core.execute_beq_taken taken, Advances.moved pc rfl rfl rfl rfl rfl ?_⟩
        change 13 < if core.thread.z = true then 14 else 5
        rw [if_pos taken]
        decide
      · refine ⟨_, Core.execute_beq_passed taken, Advances.moved pc rfl rfl rfl rfl rfl ?_⟩
        change 4 < if core.thread.z = true then 14 else 5
        rw [if_neg taken]
        decide
  | lockMovOne => exact ⟨_, rfl, Advances.moved pc rfl rfl rfl rfl rfl (Nat.lt_succ_self 3)⟩
  | lockStr =>
      rcases expects with ⟨frame, masked, free, one⟩
      exact ⟨_, Core.execute_str frame.address one,
        Advances.moved pc rfl rfl rfl rfl rfl (Nat.lt_succ_self 2)⟩
  | lockCpsie => exact ⟨_, rfl, Advances.moved pc rfl rfl rfl rfl rfl (Nat.lt_succ_self 1)⟩
  | lockPop =>
      rcases expects.stack with ⟨saved, stack⟩
      have executed : core.execute world (fetch .lockPop).2 (fetch .lockPop).1 =
          some (core.put ({ { core.thread with stack := [.caller] }.set .r4 saved with
            stack := [] }.leave)) := by
        rw [fetch, Core.execute, Thread.pops, stack]
        rfl
      have called : ({ { core.thread with stack := [.caller] }.set .r4 saved with
          stack := [] } : Thread Point).call.1 = .mutexLock := by
        change core.thread.call.1 = .mutexLock
        rw [unopposed.call]
      exact ⟨_, executed, Advances.left pc rfl rfl rfl rfl
        ((leave_held_lock called core.thread.call.2).mpr (Or.inr rfl)) Nat.zero_lt_one⟩
  | yieldCpsie => exact ⟨_, rfl, Advances.moved pc rfl rfl rfl rfl rfl (Nat.lt_succ_self 12)⟩
  | yieldBl => exact ⟨_, rfl, Advances.moved pc rfl alone rfl rfl rfl (Nat.lt_succ_self 11)⟩
  | yieldB => exact ⟨_, rfl, Advances.moved pc rfl rfl rfl rfl rfl (Nat.lt_succ_self 10)⟩
  | _ => cases callee

theorem advancing : Advancing outline mutexes remaining ι :=
  ⟨fun unopposed pc _succeeds alone => advances unopposed pc alone⟩

/-- In every state that a disciplined run reaches, the next instruction of
the running thread can be executed.  And a running thread in `mutex_lock` that
is left alone returns with the mutex after at most fifteen instructions,
unless the mutex has an owner. -/
theorem masked_mutexLock_returns (nullFree : ¬ mutexes 0) {initial final : Core ι Point}
    (start : Initial mutexes initial) {events : List (Event ι)}
    (disciplined : StepsMeet (Concurrency.step program) (Disciplined mutexes) initial events)
    (reaches : run (Concurrency.step program) initial events = some final) :
    (∀ world, final.thread.pc ≠ none →
      ∃ next, Concurrency.step program final (.execute world) = some next) ∧
    ∀ address registers z, final.thread.call = (.mutexLock, address) → final.thread.pc ≠ none →
      final.thread.held address = false →
      (∀ thread, thread ≠ final.current → ¬ Owns inside (final.threads thread) address) →
      ∃ steps acquired, steps ≤ 15 ∧
        run (Concurrency.step program) final
          (List.replicate steps (.execute ⟨false, final.current, registers, z⟩)) = some acquired ∧
        acquired.thread.pc = none ∧ acquired.thread.held address = true := by
  refine ⟨fun world within => (followed nullFree).enabled start disciplined reaches within world,
    fun address registers z call within notHeld unowned => ?_⟩
  rcases advancing.returns (followed nullFree) start disciplined reaches registers z call
    within notHeld
    unowned with ⟨steps, acquired, short, rest⟩
  exact ⟨steps, acquired, Nat.le_trans short (distance_le final), rest⟩

/-- A thread in `mutex_lock` that was interrupted before it masked
interrupts, and resumed. -/
def resumption : List (Event Bool) :=
  [.call .mutexLock 4096 (fun _register => .caller) true] ++ List.replicate 2 (instruction true) ++
    [.interrupt true, .interrupt false]

theorem resumed_masked_mutexLock_returns :
    ∃ final, run (Concurrency.step program) (idle false) resumption = some final ∧
      ∃ steps acquired, steps ≤ 15 ∧
        run (Concurrency.step program) final (List.replicate steps
          (.execute ⟨false, final.current, fun _register => .caller, true⟩)) = some acquired ∧
        acquired.thread.pc = none ∧ acquired.thread.held 4096 = true := by
  have enabled : (run (Concurrency.step program) (idle false) resumption).isSome = true := by
    decide +kernel
  have disciplined : StepsMeet (Concurrency.step program) (Disciplined (· = 4096))
      (idle false) resumption := by
    decide +kernel
  rcases Option.isSome_iff_exists.mp enabled with ⟨final, reaches⟩
  have places : (run (Concurrency.step program) (idle false) resumption).map (fun core =>
      decide (core.current = false ∧ core.thread.call = (.mutexLock, 4096) ∧
        core.thread.pc = some .lockCpsid ∧ core.thread.held 4096 = false ∧
        (core.threads true).pc = none ∧ (core.threads true).held 4096 = false)) = some true := by
    decide +kernel
  rw [reaches, Option.map_some, Option.some.injEq, decide_eq_true_iff] at places
  rcases places with ⟨current, call, pc, held, otherPc, otherHeld⟩
  refine ⟨final, reaches, (masked_mutexLock_returns (by decide) (idle_initial _ false) disciplined
    reaches).2 4096 _ _ call (by rw [pc]; exact Option.some_ne_none _)
      held fun thread different owns => ?_⟩
  cases thread with
  | false => exact different current.symm
  | true =>
      rw [owns_outside otherPc, otherHeld] at owns
      cases owns

end MaskedMutex
end Concurrency
end ShovelOS
