import ShovelOS.Concurrency.Outline

namespace ShovelOS
namespace Concurrency
namespace Outline

open Transition

/-!
# A thread that is left alone returns from `mutex_lock`

When no other thread has the mutex, the running thread comes nearer to the
end of `mutex_lock` with each of its instructions, wherever it starts.  For
one program this is a count of the instructions that remain at each point.
-/

variable {ι ρ : Type} [DecidableEq ι] {outline : Outline ρ} {mutexes : UInt32 → Prop}

/-- How many instructions remain for the running thread, which may have
returned. -/
def distance (remaining : Bool → Thread ρ → ρ → Nat) (core : Core ι ρ) : Nat :=
  match core.thread.pc with
  | none => 0
  | some point => remaining core.exclusive core.thread point

/-- The running thread is in `mutex_lock` and no other thread has the mutex;
the thread has it only inside the call. -/
structure Unopposed (outline : Outline ρ) (mutexes : UInt32 → Prop) (core : Core ι ρ)
    (address : UInt32) :
    Prop where
  sound : outline.Sound mutexes core
  tracked : ∃ owners, Tracks outline.inside mutexes core owners
  mutex : mutexes address
  call : core.thread.call = (.mutexLock, address)
  unowned : ∀ thread, thread ≠ core.current → ¬ Owns outline.inside (core.threads thread) address
  held : core.thread.held address = true ↔ core.thread.pc = none

/-- What one instruction of an unopposed thread leads to. -/
structure Advances (remaining : Bool → Thread ρ → ρ → Nat) (core next : Core ι ρ) : Prop where
  current : next.current = core.current
  others : ∀ thread, thread ≠ core.current → next.threads thread = core.threads thread
  call : next.thread.call = core.thread.call
  held : next.thread.pc ≠ none → next.thread.held = core.thread.held
  learned : next.thread.pc = none → next.thread.held core.thread.call.2 = true
  fewer : distance remaining next < distance remaining core

variable {remaining : Bool → Thread ρ → ρ → Nat} {core next : Core ι ρ} {thread : Thread ρ}
  {point target : ρ} {address : UInt32} {world : World ι}

theorem running_eq (current : next.current = core.current)
    (threads : next.threads = Function.update core.threads core.current thread) :
    next.thread = thread := by
  rw [Core.thread, current, threads, Function.update_self]

theorem Advances.moved (pc : core.thread.pc = some point)
    (threads : next.threads = Function.update core.threads core.current thread)
    (current : next.current = core.current) (targetPc : thread.pc = some target)
    (call : thread.call = core.thread.call) (held : thread.held = core.thread.held)
    (fewer : remaining next.exclusive thread target < remaining core.exclusive core.thread point) :
    Advances remaining core next := by
  have moved : next.thread = thread := running_eq current threads
  refine ⟨current, fun other different => by rw [threads, Function.update_of_ne different],
    by rw [moved, call], fun _inside => by rw [moved, held], fun outside => ?_, ?_⟩
  · rw [moved, targetPc] at outside
    cases outside
  · rw [distance, distance, moved, targetPc, pc]
    exact fewer

theorem Advances.left (pc : core.thread.pc = some point)
    (threads : next.threads = Function.update core.threads core.current thread)
    (current : next.current = core.current) (outside : thread.pc = none)
    (call : thread.call = core.thread.call) (learned : thread.held core.thread.call.2 = true)
    (positive : 0 < remaining core.exclusive core.thread point) : Advances remaining core next := by
  have moved : next.thread = thread := running_eq current threads
  refine ⟨current, fun other different => by rw [threads, Function.update_of_ne different],
    by rw [moved, call], fun within => absurd (by rw [moved, outside]) within,
    fun _outside => by rw [moved, learned], ?_⟩
  rw [distance, distance, moved, outside, pc]
  exact positive

/-- A mutex that the thread has not yet acquired is free. -/
theorem Unopposed.free (unopposed : Unopposed outline mutexes core address)
    (pc : core.thread.pc = some point) (notYet : outline.inside core.thread point = false) :
    core.memory core.thread.call.2 = 0 := by
  rcases unopposed.tracked with ⟨owners, tracks⟩
  have unowned : owners address = none := by
    cases owner : owners address with
    | none => rfl
    | some thread =>
        have owns := (tracks.owner address unopposed.mutex thread).mp owner
        by_cases running : thread = core.current
        · subst running
          rcases (owns_at pc address).mp owns with held | ⟨_argument, within⟩
          · cases pc.symm.trans (unopposed.held.mp held)
          · cases notYet.symm.trans within
        · exact absurd owns (unopposed.unowned thread running)
  rw [unopposed.call, tracks.word address unopposed.mutex, unowned]
  rfl

/-- Every instruction of an unopposed thread brings it nearer to the end of
the call. -/
structure Advancing (outline : Outline ρ) (mutexes : UInt32 → Prop)
    (remaining : Bool → Thread ρ → ρ → Nat) (ι : Type) [DecidableEq ι] : Prop where
  advances : ∀ {core : Core ι ρ} {address : UInt32} {point : ρ} {world : World ι},
    Unopposed outline mutexes core address → core.thread.pc = some point →
      world.strexFails = false →
    world.next = core.current →
    ∃ next, core.execute world (outline.program.fetch point).2 (outline.program.fetch point).1 =
      some next ∧
      Advances remaining core next

theorem Advancing.step (advancing : Advancing outline mutexes remaining ι)
    (followed : outline.Followed mutexes ι) (unopposed : Unopposed outline mutexes core address)
    (succeeds : world.strexFails = false) (alone : world.next = core.current)
    (within : core.thread.pc ≠ none) :
    ∃ next, Concurrency.step outline.program core (.execute world) = some next ∧
      (Unopposed outline mutexes next address ∧ next.current = core.current) ∧
      distance remaining next < distance remaining core := by
  rcases Option.ne_none_iff_exists'.mp within with ⟨point, pc⟩
  rcases unopposed.tracked with ⟨owners, tracks⟩
  rcases advancing.advances unopposed pc succeeds alone with ⟨next, executed, advances⟩
  rcases followed.executes unopposed.sound tracks pc world with ⟨next', executed', kept⟩
  cases executed.symm.trans executed'
  rcases kept with ⟨owners', _answers, sound, tracks'⟩
  refine ⟨next, by rw [Concurrency.step, pc]; exact executed, ⟨?_, advances.current⟩,
    advances.fewer⟩
  refine ⟨sound, ⟨owners', tracks'⟩, unopposed.mutex, advances.call.trans unopposed.call,
    fun thread different => ?_, ⟨fun held => ?_, fun outside => ?_⟩⟩
  · rw [advances.current] at different
    rw [advances.others thread different]
    exact unopposed.unowned thread different
  · by_contra inCall
    rw [advances.held inCall, unopposed.held] at held
    exact within held
  · have learned := advances.learned outside
    rw [unopposed.call] at learned
    exact learned

/-- In every state that a disciplined run reaches, the running thread can
execute its next instruction. -/
theorem Followed.enabled (followed : outline.Followed mutexes ι) {initial final : Core ι ρ}
    (start : Initial mutexes initial) {events : List (Event ι)}
    (disciplined :
      StepsMeet (Concurrency.step outline.program) (Disciplined mutexes) initial events)
    (reaches : Transition.run (Concurrency.step outline.program) initial events = some final)
    (within : final.thread.pc ≠ none) (world : World ι) :
    ∃ next, Concurrency.step outline.program final (.execute world) = some next := by
  rcases followed.run start disciplined reaches with ⟨owners, _history, sound, tracks⟩
  rcases Option.ne_none_iff_exists'.mp within with ⟨point, pc⟩
  rcases followed.executes sound tracks pc world with ⟨next, executed, _kept⟩
  exact ⟨next, by rw [Concurrency.step, pc]; exact executed⟩

/-- A thread that is left alone in a state that a disciplined run reaches
returns from `mutex_lock` with the mutex, unless the mutex has an owner. -/
theorem Advancing.returns (advancing : Advancing outline mutexes remaining ι)
    (followed : outline.Followed mutexes ι) {initial final : Core ι ρ}
    (start : Initial mutexes initial) {events : List (Event ι)}
    (disciplined :
      StepsMeet (Concurrency.step outline.program) (Disciplined mutexes) initial events)
    (reaches : Transition.run (Concurrency.step outline.program) initial events = some final)
    (registers : Register → Value) (z : Bool) (call : final.thread.call = (.mutexLock, address))
    (within : final.thread.pc ≠ none) (notHeld : final.thread.held address = false)
    (unowned : ∀ thread, thread ≠ final.current →
      ¬ Owns outline.inside (final.threads thread) address) :
    ∃ steps acquired, steps ≤ distance remaining final ∧
      Transition.run (Concurrency.step outline.program) final
        (List.replicate steps (.execute ⟨false, final.current, registers, z⟩)) = some acquired ∧
      acquired.thread.pc = none ∧ acquired.thread.held address = true := by
  rcases followed.run start disciplined reaches with ⟨owners, _history, sound, tracks⟩
  have mutex : mutexes address := by
    rcases Option.ne_none_iff_exists'.mp within with ⟨point, pc⟩
    have argument := (sound.located final.current point pc).2.1
    change mutexes final.thread.call.2 at argument
    rw [call] at argument
    exact argument
  have unopposed : Unopposed outline mutexes final address :=
    ⟨sound, ⟨owners, tracks⟩, mutex, call, unowned,
      ⟨fun held => absurd (notHeld.symm.trans held) Bool.false_ne_true,
        fun outside => absurd outside within⟩⟩
  have progress : ∀ core : Core ι ρ,
      Unopposed outline mutexes core address ∧ core.current = final.current →
        ¬ core.thread.pc = none →
      ∃ next, Concurrency.step outline.program core
        (.execute ⟨false, final.current, registers, z⟩) = some next ∧
        (Unopposed outline mutexes next address ∧ next.current = final.current) ∧
        distance remaining next < distance remaining core := by
    rintro core ⟨held, same⟩ inCall
    rw [← same]
    exact advancing.step followed held rfl rfl inCall
  rcases exists_replicate_to_goal (distance remaining) _ progress ⟨unopposed, rfl⟩ with
    ⟨steps, acquired, short, reached, ⟨done, _same⟩, outside⟩
  exact ⟨steps, acquired, short, reached, outside, done.held.mpr outside⟩

end Outline
end Concurrency
end ShovelOS
