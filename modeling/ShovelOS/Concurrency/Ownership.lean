import ShovelOS.Concurrency.Core
import ShovelOS.Library.Observation

namespace ShovelOS
namespace Concurrency

open Transition

/-!
# Who owns a mutex

A thread owns the mutexes that it holds, and inside a call it owns the mutex
of the call at the points behind the successful store.  The lemmas below
carry the owners of all mutexes through one step, for any program: a step is
silent, or the running thread acquires, is refused or releases a mutex.
-/

variable {ι ρ : Type}

/-- The thread holds the mutex, or has it inside its call. -/
def Owns (inside : Thread ρ → ρ → Bool) (thread : Thread ρ) (address : UInt32) : Prop :=
  thread.held address = true ∨
    ∃ point, thread.pc = some point ∧ thread.call.2 = address ∧ inside thread point = true

/-- The owners are the threads that own, and a mutex is one as long as it
has an owner. -/
structure Tracks (inside : Thread ρ → ρ → Bool) (mutexes : UInt32 → Prop) (core : Core ι ρ)
    (owners : UInt32 → Option ι) : Prop where
  owner : ∀ address, mutexes address → ∀ thread,
    owners address = some thread ↔ Owns inside (core.threads thread) address
  word : ∀ address, mutexes address →
    core.memory address = if (owners address).isSome = true then 1 else 0

variable {inside : Thread ρ → ρ → Bool} {mutexes : UInt32 → Prop}

theorem owns_at {thread : Thread ρ} {point : ρ} (pc : thread.pc = some point) (address : UInt32) :
    Owns inside thread address ↔
      thread.held address = true ∨ thread.call.2 = address ∧ inside thread point = true := by
  refine or_congr Iff.rfl ⟨?_, fun within => ⟨point, pc, within⟩⟩
  rintro ⟨other, same, within⟩
  cases pc.symm.trans same
  exact within

theorem owns_outside {thread : Thread ρ} (pc : thread.pc = none) (address : UInt32) :
    Owns inside thread address ↔ thread.held address = true := by
  refine or_iff_left ?_
  rintro ⟨point, same, _within⟩
  cases pc.symm.trans same

/-- A return from `mutex_lock` tells the caller that it holds the mutex. -/
theorem leave_held_lock {thread : Thread ρ} (called : thread.call.1 = .mutexLock)
    (address : UInt32) :
    thread.leave.held address = true ↔ thread.held address = true ∨ thread.call.2 = address := by
  rcases call : thread.call with ⟨function, argument⟩
  rw [call] at called
  cases called
  rw [Thread.leave, call]
  by_cases same : address = argument
  · simp [same]
  · simp [Function.update_of_ne same, Ne.symm same]

/-- A return of zero from `mutex_trylock` does so, too. -/
theorem leave_held_trylock {thread : Thread ρ} (called : thread.call.1 = .mutexTrylock)
    (zero : thread.registers .r0 = .word 0) (address : UInt32) :
    thread.leave.held address = true ↔ thread.held address = true ∨ thread.call.2 = address := by
  rcases call : thread.call with ⟨function, argument⟩
  rw [call] at called
  cases called
  rw [Thread.leave, call]
  change (if thread.registers .r0 = .word 0 then Function.update thread.held argument true
    else thread.held) address = true ↔ _
  rw [if_pos zero]
  by_cases same : address = argument
  · simp [same]
  · simp [Function.update_of_ne same, Ne.symm same]

/-- Any other result of `mutex_trylock` tells it nothing. -/
theorem leave_held_failed {thread : Thread ρ} (called : thread.call.1 = .mutexTrylock)
    (nonZero : thread.registers .r0 ≠ .word 0) : thread.leave.held = thread.held := by
  rcases call : thread.call with ⟨function, argument⟩
  rw [call] at called
  cases called
  rw [Thread.leave, call]
  exact if_neg nonZero

theorem leave_held_unlock {thread : Thread ρ} (called : thread.call.1 = .mutexUnlock) :
    thread.leave.held = thread.held := by
  rcases call : thread.call with ⟨function, argument⟩
  rw [call] at called
  cases called
  rw [Thread.leave, call]

theorem Initial.tracks {core : Core ι ρ} (initial : Initial mutexes core) :
    Tracks inside mutexes core (fun _address => none) := by
  refine ⟨fun address _mutex thread => ⟨fun owned => (by cases owned), fun owns => ?_⟩,
    fun address mutex => initial.cleared address mutex⟩
  have held := (owns_outside (initial.outside thread) address).mp owns
  rw [initial.holdsNothing thread address] at held
  cases held

variable {core next : Core ι ρ} {owners : UInt32 → Option ι}

/-- A step that changes neither a mutex nor who owns one. -/
theorem Tracks.silent (tracks : Tracks inside mutexes core owners)
    (memory : ∀ address, mutexes address → next.memory address = core.memory address)
    (others : ∀ thread, thread ≠ core.current → next.threads thread = core.threads thread)
    (same : ∀ address, mutexes address →
      (Owns inside (next.threads core.current) address ↔ Owns inside core.thread address)) :
    Tracks inside mutexes next owners := by
  refine ⟨fun address mutex thread => ?_, fun address mutex => ?_⟩
  · rw [tracks.owner address mutex thread]
    by_cases running : thread = core.current
    · subst running
      exact (same address mutex).symm
    · rw [others thread running]
  · rw [memory address mutex, tracks.word address mutex]

variable [DecidableEq ι]

/-- A step that stores a one into a mutex that was not one. -/
theorem Tracks.acquire (tracks : Tracks inside mutexes core owners) {address : UInt32}
    (mutex : mutexes address) (free : core.memory address ≠ 1)
    (memory : next.memory = Function.update core.memory address 1)
    (others : ∀ thread, thread ≠ core.current → next.threads thread = core.threads thread)
    (gains : ∀ other, mutexes other →
      (Owns inside (next.threads core.current) other ↔ Owns inside core.thread other ∨
      other = address)) :
    ∃ owners', Lock.step owners (.acquire core.current address) = some owners' ∧
      Tracks inside mutexes next owners' := by
  have unowned : owners address = none := by
    have word := tracks.word address mutex
    cases owner : owners address with
    | none => rfl
    | some thread =>
        rw [owner, Option.isSome_some, if_pos rfl] at word
        exact absurd word free
  refine ⟨_, if_pos unowned, fun other mutexOther thread => ?_, fun other mutexOther => ?_⟩
  · by_cases running : thread = core.current
    · subst running
      rw [gains other mutexOther]
      by_cases same : other = address
      · subst same
        simp
      · rw [Function.update_of_ne same, or_iff_left same]
        exact tracks.owner other mutexOther core.current
    · rw [others thread running, ← tracks.owner other mutexOther thread]
      by_cases same : other = address
      · subst same
        simp [unowned, Ne.symm running]
      · rw [Function.update_of_ne same]
  · rw [memory]
    by_cases same : other = address
    · subst same
      simp
    · rw [Function.update_of_ne same, Function.update_of_ne same, tracks.word other mutexOther]

/-- A step in which the running thread finds a one in a mutex. -/
theorem Tracks.refuse (tracks : Tracks inside mutexes core owners) {address : UInt32}
    (mutex : mutexes address) (taken : core.memory address = 1) (thread : ι) :
    Lock.step owners (.refuse thread address) = some owners := by
  have word := tracks.word address mutex
  refine if_neg fun unowned => ?_
  rw [taken, unowned, Option.isSome_none, if_neg Bool.false_ne_true] at word
  exact absurd word (by decide)

/-- A step that clears a mutex that the running thread owns. -/
theorem Tracks.release (tracks : Tracks inside mutexes core owners) {address : UInt32}
    (mutex : mutexes address) (owns : Owns inside core.thread address)
    (memory : next.memory = Function.update core.memory address 0)
    (others : ∀ thread, thread ≠ core.current → next.threads thread = core.threads thread)
    (loses : ∀ other, mutexes other →
      (Owns inside (next.threads core.current) other ↔ Owns inside core.thread other ∧
      other ≠ address)) :
    ∃ owners', Lock.step owners (.release core.current address) = some owners' ∧
      Tracks inside mutexes next owners' := by
  have owned : owners address = some core.current :=
    (tracks.owner address mutex core.current).mpr owns
  refine ⟨_, if_pos owned, fun other mutexOther thread => ?_, fun other mutexOther => ?_⟩
  · by_cases running : thread = core.current
    · subst running
      rw [loses other mutexOther]
      by_cases same : other = address
      · subst same
        simp
      · rw [Function.update_of_ne same, and_iff_left same]
        exact tracks.owner other mutexOther core.current
    · rw [others thread running, ← tracks.owner other mutexOther thread]
      by_cases same : other = address
      · subst same
        simp [owned, Ne.symm running]
      · rw [Function.update_of_ne same]
  · rw [memory]
    by_cases same : other = address
    · subst same
      simp
    · rw [Function.update_of_ne same, Function.update_of_ne same, tracks.word other mutexOther]

end Concurrency
end ShovelOS
