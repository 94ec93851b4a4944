import ShovelOS.Concurrency.Ownership

namespace ShovelOS
namespace Concurrency

open Transition

/-!
# Proof outlines

An outline says for each point of a program what a thread's registers hold
there, and at which points the thread has the mutex of its call.  What is
expected of the memory is expected during an attempt only, which lasts as
long as no other thread can have run: while the monitor is open, or while
interrupts are masked.  So no thread disturbs what another one expects.

The lemmas below take the outline through one step.  A program whose
instructions all follow their outline implements locks.
-/

/-- A program and what it expects.  `attempts` says whether a running thread
is in an attempt, from the monitor and the thread. -/
structure Outline (ρ : Type) where
  program : Program ρ
  function : ρ → MutexFunction
  inside : Thread ρ → ρ → Bool
  attempts : Bool → Thread ρ → Bool
  Expects : (UInt32 → UInt32) → Bool → Thread ρ → ρ → Prop
  closed : ∀ {memory memory' attempt thread point}, Expects memory attempt thread point →
    Expects memory' false thread point
  ended : ∀ thread, thread.masked = false → attempts false thread = false
  function_entry : ∀ called, function (program.entry called) = called
  inside_entry : ∀ thread called, inside thread (program.entry called) =
    decide (called = .mutexUnlock)
  expects_entry : ∀ memory attempt (thread : Thread ρ) called address registers z,
    Expects memory attempt (thread.enter program called address registers z) (program.entry called)

variable {ι ρ : Type} [DecidableEq ι] {outline : Outline ρ} {mutexes : UInt32 → Prop}

namespace Outline

/-- Whether a thread is in an attempt. -/
def attempting (outline : Outline ρ) (core : Core ι ρ) (thread : ι) : Bool :=
  outline.attempts core.exclusive (core.threads thread) && decide (thread = core.current)

/-- A thread in a call is in the function that it called, with a mutex as
argument and the expected registers. -/
def Located (outline : Outline ρ) (mutexes : UInt32 → Prop) (core : Core ι ρ) (thread : ι) : Prop :=
  ∀ point, (core.threads thread).pc = some point →
    (core.threads thread).call.1 = outline.function point ∧ mutexes (core.threads thread).call.2 ∧
      outline.Expects core.memory (outline.attempting core thread) (core.threads thread) point

/-- What every step keeps: all threads are located, and interrupts are masked
by the running thread at most. -/
structure Sound (outline : Outline ρ) (mutexes : UInt32 → Prop) (core : Core ι ρ) : Prop where
  located : ∀ thread, outline.Located mutexes core thread
  unmasked : ∀ thread, thread ≠ core.current → (core.threads thread).masked = false

/-- A step from tracked owners does what it shows to the locks, and keeps the
invariant. -/
def Kept (outline : Outline ρ) (mutexes : UInt32 → Prop) (owners : UInt32 → Option ι)
    (observed : Option (Lock.Action ι UInt32)) (next : Core ι ρ) : Prop :=
  ∃ owners', Answers Lock.step observed owners owners' ∧ outline.Sound mutexes next ∧
    Tracks outline.inside mutexes next owners'

/-- The instruction at the point of the running thread is executed and kept
by the invariant. -/
def Executes (outline : Outline ρ) (mutexes : UInt32 → Prop) (owners : UInt32 → Option ι)
    (core : Core ι ρ) (world : World ι) (point : ρ) : Prop :=
  ∃ next, core.execute world (outline.program.fetch point).2 (outline.program.fetch point).1 =
    some next ∧
    outline.Kept mutexes owners (observeInstruction core world (outline.program.fetch point).1) next

variable {core next : Core ι ρ} {owners : UInt32 → Option ι} {point target : ρ} {thread : Thread ρ}

/-- What a step of the running thread leaves as it is, where `thread` is what
becomes of it: the other threads.  Unless it is the running thread that goes
on, interrupts are enabled and the monitor is closed. -/
structure Replaces (core next : Core ι ρ) (thread : Thread ρ) : Prop where
  threads : next.threads = Function.update core.threads core.current thread
  quiet : next.current = core.current ∨ next.exclusive = false ∧ thread.masked = false

theorem Replaces.running (replaces : Replaces core next thread) :
    next.threads core.current = thread := by
  rw [replaces.threads, Function.update_self]

theorem Replaces.others (replaces : Replaces core next thread) (other : ι)
    (different : other ≠ core.current) :
    next.threads other = core.threads other := by
  rw [replaces.threads, Function.update_of_ne different]

/-- A step of the running thread disturbs no other thread. -/
theorem Sound.replace (sound : outline.Sound mutexes core) (replaces : Replaces core next thread)
    (located : outline.Located mutexes next core.current) : outline.Sound mutexes next := by
  refine ⟨fun other => ?_, fun other notRunning => ?_⟩
  · by_cases running : other = core.current
    · subst running
      exact located
    intro point pc
    have noAttempt : outline.attempting next other = false := by
      rw [attempting, replaces.others other running]
      rcases replaces.quiet with same | ⟨closed, _unmasked⟩
      · rw [same, decide_eq_false running, Bool.and_false]
      · rw [closed, outline.ended _ (sound.unmasked other running), Bool.false_and]
    rw [noAttempt]
    rw [replaces.others other running] at pc ⊢
    rcases sound.located other point pc with ⟨called, mutex, expects⟩
    exact ⟨called, mutex, outline.closed expects⟩
  · by_cases running : other = core.current
    · subst running
      rw [replaces.running]
      rcases replaces.quiet with same | ⟨_closed, unmasked⟩
      · exact absurd same.symm notRunning
      · exact unmasked
    · rw [replaces.others other running]
      exact sound.unmasked other running

/-- A step of the running thread to another point of its call. -/
theorem Sound.moveTo (sound : outline.Sound mutexes core) (pc : core.thread.pc = some point)
    (replaces : Replaces core next thread) (targetPc : thread.pc = some target)
    (call : thread.call = core.thread.call)
    (functions : outline.function target = outline.function point)
    (expects : outline.Expects next.memory
      (outline.attempts next.exclusive thread && decide (core.current = next.current))
    thread target) :
    outline.Sound mutexes next := by
  refine sound.replace replaces fun reached reachedPc => ?_
  rw [attempting, replaces.running]
  rw [replaces.running] at reachedPc
  cases targetPc.symm.trans reachedPc
  rcases sound.located core.current point pc with ⟨called, mutex, _expects⟩
  rw [call, functions]
  exact ⟨called, mutex, expects⟩

/-- A silent step of the running thread to another point of its call. -/
theorem Kept.moved (sound : outline.Sound mutexes core)
    (tracks : Tracks outline.inside mutexes core owners)
    (pc : core.thread.pc = some point) (replaces : Replaces core next thread)
    (memory : next.memory = core.memory) (targetPc : thread.pc = some target)
    (call : thread.call = core.thread.call) (held : thread.held = core.thread.held)
    (functions : outline.function target = outline.function point)
    (within : outline.inside thread target = outline.inside core.thread point)
    (expects : outline.Expects next.memory
      (outline.attempts next.exclusive thread && decide (core.current = next.current))
    thread target) :
    outline.Kept mutexes owners none next := by
  refine ⟨owners, rfl, sound.moveTo pc replaces targetPc call functions expects,
    tracks.silent (fun address _mutex => congrFun memory address)
      replaces.others fun address _mutex => ?_⟩
  rw [replaces.running, owns_at targetPc, owns_at pc, call, held, within]

/-- The store that acquires a mutex. -/
theorem Kept.acquired (sound : outline.Sound mutexes core)
    (tracks : Tracks outline.inside mutexes core owners) (pc : core.thread.pc = some point)
    (replaces : Replaces core next thread) (mutex : mutexes core.thread.call.2)
    (free : core.memory core.thread.call.2 ≠ 1)
    (memory : next.memory = Function.update core.memory core.thread.call.2 1)
    (targetPc : thread.pc = some target) (call : thread.call = core.thread.call)
    (held : thread.held = core.thread.held)
    (functions : outline.function target = outline.function point)
    (notYet : outline.inside core.thread point = false)
    (within : outline.inside thread target = true) (expects : outline.Expects next.memory
      (outline.attempts next.exclusive thread && decide (core.current = next.current))
    thread target) :
    outline.Kept mutexes owners (some (.acquire core.current core.thread.call.2)) next := by
  have gains : ∀ other, mutexes other → (Owns outline.inside (next.threads core.current) other ↔
      Owns outline.inside core.thread other ∨ other = core.thread.call.2) := by
    intro other _mutexOther
    rw [replaces.running, owns_at targetPc, owns_at pc, call, held, within, notYet]
    simp only [and_true, Bool.false_eq_true, and_false, or_false, eq_comm]
  rcases tracks.acquire mutex free memory replaces.others gains with ⟨owners', acquired, tracks'⟩
  exact ⟨owners', acquired, sound.moveTo pc replaces targetPc call functions expects, tracks'⟩

/-- The store that releases a mutex that the caller no longer holds. -/
theorem Kept.released (sound : outline.Sound mutexes core)
    (tracks : Tracks outline.inside mutexes core owners) (pc : core.thread.pc = some point)
    (replaces : Replaces core next thread) (mutex : mutexes core.thread.call.2)
    (givenUp : core.thread.held core.thread.call.2 = false)
    (memory : next.memory = Function.update core.memory core.thread.call.2 0)
    (targetPc : thread.pc = some target) (call : thread.call = core.thread.call)
    (held : thread.held = core.thread.held)
    (functions : outline.function target = outline.function point)
    (within : outline.inside core.thread point = true)
    (noMore : outline.inside thread target = false) (expects : outline.Expects next.memory
      (outline.attempts next.exclusive thread && decide (core.current = next.current))
    thread target) :
    outline.Kept mutexes owners (some (.release core.current core.thread.call.2)) next := by
  have loses : ∀ other, mutexes other → (Owns outline.inside (next.threads core.current) other ↔
      Owns outline.inside core.thread other ∧ other ≠ core.thread.call.2) := by
    intro other _mutexOther
    rw [replaces.running, owns_at targetPc, owns_at pc, call, held, within, noMore]
    by_cases same : other = core.thread.call.2
    · subst same
      simp [givenUp]
    · simp [same, Ne.symm same]
  have owns : Owns outline.inside core.thread core.thread.call.2 :=
    (owns_at pc _).mpr (Or.inr ⟨rfl, within⟩)
  rcases tracks.release mutex owns memory replaces.others loses with ⟨owners', released, tracks'⟩
  exact ⟨owners', released, sound.moveTo pc replaces targetPc call functions expects, tracks'⟩

/-- The load by which `mutex_trylock` finds a mutex locked. -/
theorem Kept.refused (kept : outline.Kept mutexes owners none next)
    (tracks : Tracks outline.inside mutexes core owners) {address : UInt32}
    (mutex : mutexes address) (taken : core.memory address = 1) (requester : ι) :
    outline.Kept mutexes owners (some (.refuse requester address)) next := by
  rcases kept with ⟨owners', same, kept⟩
  cases same
  exact ⟨owners, tracks.refuse mutex taken requester, kept⟩

/-- A return that tells the caller what it owns. -/
theorem Kept.left (sound : outline.Sound mutexes core)
    (tracks : Tracks outline.inside mutexes core owners)
    (pc : core.thread.pc = some point) (replaces : Replaces core next thread)
    (outside : thread.pc = none) (memory : next.memory = core.memory)
    (learns : ∀ address, thread.held address = true ↔ core.thread.held address = true ∨
      core.thread.call.2 = address ∧ outline.inside core.thread point = true) :
    outline.Kept mutexes owners none next := by
  have located : outline.Located mutexes next core.current := by
    intro reached reachedPc
    rw [replaces.running, outside] at reachedPc
    cases reachedPc
  refine ⟨owners, rfl, sound.replace replaces located,
    tracks.silent (fun address _mutex => congrFun memory address)
      replaces.others fun address _mutex => ?_⟩
  rw [replaces.running, owns_outside outside, owns_at pc, learns]

/-! ## Steps outside the program -/

theorem Kept.called (sound : outline.Sound mutexes core)
    (tracks : Tracks outline.inside mutexes core owners)
    (outside : core.thread.pc = none) {function : MutexFunction} {address : UInt32}
    (mutex : mutexes address) (holds : function = .mutexUnlock → core.thread.held address = true)
    (registers : Register → Value) (z : Bool) :
    outline.Kept mutexes owners none
      (core.put (core.thread.enter outline.program function address registers z)) := by
  have replaces :
      Replaces core (core.put (core.thread.enter outline.program function address registers z))
      (core.thread.enter outline.program function address registers z) := ⟨rfl, Or.inl rfl⟩
  refine ⟨owners, rfl, sound.replace replaces fun point pc => ?_,
    tracks.silent (fun _address _mutex => rfl) replaces.others fun other _mutexOther => ?_⟩
  · rw [attempting, replaces.running]
    rw [replaces.running] at pc
    cases pc
    exact ⟨(outline.function_entry function).symm, mutex, outline.expects_entry ..⟩
  · rw [replaces.running, owns_at rfl, owns_outside outside, outline.inside_entry]
    by_cases unlocks : function = .mutexUnlock
    · rw [Thread.enter, if_pos unlocks]
      by_cases same : other = address
      · subst same
        simp [unlocks, holds unlocks]
      · simp [same, Ne.symm same]
    · rw [Thread.enter, if_neg unlocks, decide_eq_false unlocks]
      exact or_iff_left (fun within => by cases within.2)

theorem Kept.outside (sound : outline.Sound mutexes core)
    (tracks : Tracks outline.inside mutexes core owners) (replaces : Replaces core next thread)
    (before : core.thread.pc = none) (after : thread.pc = none)
    (held : thread.held = core.thread.held)
    (memory : ∀ address, mutexes address → next.memory address = core.memory address) :
    outline.Kept mutexes owners none next := by
  have located : outline.Located mutexes next core.current := by
    intro point pc
    rw [replaces.running, after] at pc
    cases pc
  refine ⟨owners, rfl, sound.replace replaces located,
    tracks.silent memory replaces.others fun address _mutex => ?_⟩
  rw [replaces.running, owns_outside after, owns_outside before, held]

theorem Kept.interrupted (sound : outline.Sound mutexes core)
    (tracks : Tracks outline.inside mutexes core owners) (unmasked : ¬ core.thread.masked = true)
    (resumed : ι) :
    outline.Kept mutexes owners none { core with exclusive := false, current := resumed } := by
  have allUnmasked : ∀ thread, (core.threads thread).masked = false := by
    intro thread
    by_cases running : thread = core.current
    · subst running
      exact Bool.eq_false_iff.mpr unmasked
    · exact sound.unmasked thread running
  refine ⟨owners, rfl, ⟨fun thread point pc => ?_, fun thread _different => allUnmasked thread⟩,
    ⟨tracks.owner, tracks.word⟩⟩
  rcases sound.located thread point pc with ⟨called, mutex, expects⟩
  rw [attempting, outline.ended _ (allUnmasked thread), Bool.false_and]
  exact ⟨called, mutex, outline.closed expects⟩

/-! ## Runs -/

/-- Every instruction of the program follows the outline. -/
structure Followed (outline : Outline ρ) (mutexes : UInt32 → Prop) (ι : Type) [DecidableEq ι] :
    Prop where
  executes : ∀ {core : Core ι ρ} {owners : UInt32 → Option ι} {point : ρ},
    outline.Sound mutexes core →
    Tracks outline.inside mutexes core owners → core.thread.pc = some point → ∀ world : World ι,
    outline.Executes mutexes owners core world point

theorem Followed.step (followed : outline.Followed mutexes ι) {event : Event ι}
    (sound : outline.Sound mutexes core) (tracks : Tracks outline.inside mutexes core owners)
    (disciplined : Disciplined mutexes core event)
    (stepped : step outline.program core event = some next) :
    outline.Kept mutexes owners (observe outline.program core event) next := by
  cases event with
  | call function address registers z =>
      rw [Concurrency.step] at stepped
      split at stepped
      case h_2 => cases stepped
      case h_1 outside =>
        cases stepped
        exact Kept.called sound tracks outside disciplined.1 disciplined.2 registers z
  | mask masked =>
      rw [Concurrency.step] at stepped
      split at stepped
      case h_2 => cases stepped
      case h_1 outside =>
        cases stepped
        have replaces : Replaces core (core.put { core.thread with masked := masked })
          { core.thread with masked := masked } := ⟨rfl, Or.inl rfl⟩
        exact Kept.outside sound tracks replaces outside outside rfl fun _address _mutex => rfl
  | store address value =>
      rw [Concurrency.step] at stepped
      split at stepped
      case h_2 => cases stepped
      case h_1 outside =>
        cases stepped
        have replaces :
          Replaces core { core with memory := Function.update core.memory address value }
          core.thread := ⟨(Function.update_eq_self core.current core.threads).symm, Or.inl rfl⟩
        refine Kept.outside sound tracks replaces outside outside rfl fun other mutex => ?_
        refine Function.update_of_ne ?_ _ _
        rintro rfl
        exact disciplined mutex
  | execute world =>
      rw [Concurrency.step] at stepped
      split at stepped
      case h_1 => cases stepped
      case h_2 point pc =>
        rcases followed.executes sound tracks pc world with ⟨next', executed, kept⟩
        cases executed.symm.trans stepped
        rw [observe, pc]
        exact kept
  | interrupt resumed =>
      rw [Concurrency.step] at stepped
      split at stepped
      case isTrue => cases stepped
      case isFalse unmasked =>
        cases stepped
        exact Kept.interrupted sound tracks unmasked resumed

theorem sound_initial (start : Initial mutexes core) : outline.Sound mutexes core := by
  refine ⟨fun thread point pc => ?_, fun thread _different => start.unmasked thread⟩
  rw [start.outside thread] at pc
  cases pc

/-- A disciplined run keeps the invariant and is a run of locks. -/
theorem Followed.run (followed : outline.Followed mutexes ι) {initial final : Core ι ρ}
    (start : Initial mutexes initial) {events : List (Event ι)}
    (disciplined :
      StepsMeet (Concurrency.step outline.program) (Disciplined mutexes) initial events)
    (reaches : Transition.run (Concurrency.step outline.program) initial events = some final) :
    ∃ owners, Transition.run Lock.step (fun _address => none)
        (visible (Concurrency.step outline.program) (observe outline.program) initial events) =
          some owners ∧
      outline.Sound mutexes final ∧ Tracks outline.inside mutexes final owners := by
  have shows : ∀ (core : Core ι ρ) (owners : UInt32 → Option ι) (event : Event ι) (next : Core ι ρ),
      outline.Sound mutexes core ∧ Tracks outline.inside mutexes core owners →
      Disciplined mutexes core event → Concurrency.step outline.program core event = some next →
      ∃ owners', Answers Lock.step (observe outline.program core event) owners owners' ∧
        (outline.Sound mutexes next ∧ Tracks outline.inside mutexes next owners') :=
    fun core owners event next related meets stepped =>
      followed.step related.1 related.2 meets stepped
  exact run_shows shows ⟨sound_initial start, start.tracks⟩ disciplined reaches

omit [DecidableEq ι] in
/-- What the owners mean to callers: they hold only what they own, and
outside the functions they hold all they own. -/
theorem held_iff (tracks : Tracks outline.inside mutexes core owners) {address : UInt32}
    (mutex : mutexes address) (thread : ι) :
    ((core.threads thread).held address = true → owners address = some thread) ∧
    ((core.threads thread).pc = none → owners address = some thread →
      (core.threads thread).held address = true) := by
  refine ⟨fun held => ?_, fun outside owner => ?_⟩
  · exact (tracks.owner address mutex thread).mpr (Or.inl held)
  · exact (owns_outside outside address).mp ((tracks.owner address mutex thread).mp owner)

end Outline

end Concurrency
end ShovelOS
