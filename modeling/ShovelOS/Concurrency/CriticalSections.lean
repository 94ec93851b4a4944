import ShovelOS.Concurrency.Spinlock

namespace ShovelOS
namespace Concurrency
namespace Spinlock

open Transition

/-!
# Critical sections

Callers release what they have locked last, lock nothing that they hold, and
do not yield in a critical section.  Then a thread in a critical section has
interrupts masked, so that it is the running one, and each lock word has the
mask from before its lock: for the outermost lock that is the mask outside of
critical sections, and for the others that of the critical section around.
-/

variable {Status ι κ : Type} {port : Port Status}

/-- What callers have to observe. -/
def Disciplined (core : Core Status ι κ) : Event Status ι κ → Prop
  | .lock lock => lock ∉ core.thread.held
  | .unlock lock => core.thread.held.head? = some lock
  | .yield _next => core.thread.held = []
  | .execute | .compute _status | .interrupt _next => True

instance Disciplined.decidable [DecidableEq κ] (core : Core Status ι κ) :
    (event : Event Status ι κ) → Decidable (Disciplined core event)
  | .lock lock => inferInstanceAs (Decidable (lock ∉ core.thread.held))
  | .unlock lock => inferInstanceAs (Decidable (core.thread.held.head? = some lock))
  | .yield _next => inferInstanceAs (Decidable (core.thread.held = []))
  | .execute | .compute _status | .interrupt _next => isTrue trivial

/-- The mask with which a thread computes. -/
def innerMask (port : Port Status) (held : List κ) (outer : UInt32) : UInt32 :=
  if held = [] then outer else port.fields

/-- Each lock that is held has the mask from before its lock. -/
def SavedIn (port : Port Status) (words : κ → UInt32) (outer : UInt32) : List κ → Prop
  | [] => True
  | lock :: held => words lock = innerMask port held outer ∧ SavedIn port words outer held

/-- What a thread's status and local variables hold at each place. -/
def Expects (port : Port Status) (thread : Thread Status κ) : Place Status κ → Prop
  | .outside => port.mask thread.status = innerMask port thread.held thread.outer
  | .lockTest lock | .lockRead lock =>
      port.mask thread.status = innerMask port thread.held thread.outer ∧ lock ∉ thread.held
  | .lockWrite lock status =>
      port.mask thread.status = innerMask port thread.held thread.outer ∧ lock ∉ thread.held ∧
        port.mask status = port.mask thread.status ∧ port.inInterrupt status = false
  | .lockStore lock flags =>
      port.mask thread.status = port.fields ∧ lock ∉ thread.held ∧
        flags = innerMask port thread.held thread.outer
  | .unlockTest lock | .unlockLoad lock =>
      port.mask thread.status = port.fields ∧ ∃ held, thread.held = lock :: held
  | .unlockRead lock flags =>
      port.mask thread.status = port.fields ∧
        ∃ held, thread.held = lock :: held ∧ flags = innerMask port held thread.outer
  | .unlockWrite lock flags status =>
      port.mask thread.status = port.fields ∧ port.inInterrupt status = false ∧
        ∃ held, thread.held = lock :: held ∧ flags = innerMask port held thread.outer

/-- The critical part of the code: behind the write that masks, and before
the one that restores. -/
def InCritical (thread : Thread Status κ) : Prop :=
  thread.held ≠ [] ∨ ∃ lock flags, thread.place = .lockStore lock flags

/-- A thread is as its place requires. -/
structure Orderly (port : Port Status) (words : κ → UInt32) (thread : Thread Status κ) : Prop where
  notInterrupt : port.inInterrupt thread.status = false
  outer : thread.outer &&& port.fields = thread.outer
  once : thread.held.Nodup
  saved : SavedIn port words thread.outer thread.held
  expects : Expects port thread thread.place

/-- The invariant: every thread is orderly, and only the running one can be in
a critical section. -/
structure Exclusive (port : Port Status) (core : Core Status ι κ) : Prop where
  orderly : ∀ thread, Orderly port core.words (core.threads thread)
  alone : ∀ thread, InCritical (core.threads thread) → thread = core.current

theorem innerMask_and (held : List κ) {outer : UInt32}
    (outerFields : outer &&& port.fields = outer) :
    innerMask port held outer &&& port.fields = innerMask port held outer := by
  rw [innerMask]
  split
  · exact outerFields
  · exact UInt32.and_self

theorem Orderly.masked {words : κ → UInt32} {thread : Thread Status κ}
    (orderly : Orderly port words thread)
    (critical : InCritical thread) : port.mask thread.status = port.fields := by
  have expects := orderly.expects
  rcases critical with holds | ⟨lock, flags, isStore⟩
  · have inner : innerMask port thread.held thread.outer = port.fields := if_neg holds
    cases isPlace : thread.place with
    | outside =>
        rw [isPlace] at expects
        exact expects.trans inner
    | lockTest | lockRead | lockWrite =>
        rw [isPlace] at expects
        exact expects.1.trans inner
    | lockStore | unlockTest | unlockLoad | unlockRead | unlockWrite =>
        rw [isPlace] at expects
        exact expects.1
  · rw [isStore] at expects
    exact expects.1

/-- A thread outside of critical sections depends on no lock word. -/
theorem Orderly.elsewhere {words : κ → UInt32} {thread : Thread Status κ}
    (orderly : Orderly port words thread)
    (notCritical : ¬ InCritical thread) (words' : κ → UInt32) : Orderly port words' thread := by
  have holdsNone : thread.held = [] := by
    by_contra holds
    exact notCritical (Or.inl holds)
  refine ⟨orderly.notInterrupt, orderly.outer, orderly.once, ?_, orderly.expects⟩
  rw [holdsNone]
  trivial

theorem Place.eq_outside {place : Place Status κ} (isOutside : place.isOutside = true) :
    place = .outside := by
  cases place with
  | outside => rfl
  | _ => cases isOutside

section Saved

variable [DecidableEq κ]

/-- A store to a lock that is not held keeps what the others have saved. -/
theorem SavedIn.store {words : κ → UInt32} {outer : UInt32} {held : List κ}
    (saved : SavedIn port words outer held) {lock : κ} (notHeld : lock ∉ held) (flags : UInt32) :
    SavedIn port (Function.update words lock flags) outer held := by
  induction held with
  | nil => trivial
  | cons other held inductionHypothesis =>
      rw [List.mem_cons, not_or] at notHeld
      refine ⟨?_, inductionHypothesis saved.2 notHeld.2⟩
      rw [Function.update_of_ne (Ne.symm notHeld.1)]
      exact saved.1

end Saved

/-- The owners of the locks are the threads that hold them. -/
def Owned (core : Core Status ι κ) (owners : κ → Option ι) : Prop :=
  ∀ lock thread, owners lock = some thread ↔ lock ∈ (core.threads thread).held

theorem Exclusive.owner_eq {core : Core Status ι κ} (exclusive : Exclusive port core)
    {owners : κ → Option ι}
    (owned : Owned core owners) {lock : κ} {thread : ι} (isOwner : owners lock = some thread) :
    thread = core.current :=
  exclusive.alone thread (Or.inl (List.ne_nil_of_mem ((owned lock thread).mp isOwner)))

/-- Before any lock is used. -/
structure Initial (port : Port Status) (core : Core Status ι κ) : Prop where
  outside : ∀ thread, (core.threads thread).place = .outside
  holdsNone : ∀ thread, (core.threads thread).held = []
  notInterrupt : ∀ thread, port.inInterrupt (core.threads thread).status = false
  outer : ∀ thread, port.mask (core.threads thread).status = (core.threads thread).outer

theorem Initial.exclusive (lawful : port.Lawful) {core : Core Status ι κ}
    (initial : Initial port core) : Exclusive port core := by
  refine ⟨fun thread => ⟨initial.notInterrupt thread, ?_, ?_, ?_, ?_⟩, fun thread critical => ?_⟩
  · rw [← initial.outer thread]
    exact lawful.mask_fields _
  · rw [initial.holdsNone thread]
    exact List.nodup_nil
  · rw [initial.holdsNone thread]
    trivial
  · rw [initial.outside thread]
    exact (initial.outer thread).trans (if_pos (initial.holdsNone thread)).symm
  · rcases critical with holds | ⟨lock, flags, isStore⟩
    · exact absurd (initial.holdsNone thread) holds
    · rw [initial.outside thread] at isStore
      cases isStore

section Put

variable [DecidableEq ι] {core : Core Status ι κ}

theorem Core.put_current (core : Core Status ι κ) (thread : Thread Status κ) :
    (core.put thread).threads core.current = thread := Function.update_self ..

theorem Core.put_of_ne (core : Core Status ι κ) (thread : Thread Status κ) {other : ι}
    (different : other ≠ core.current) : (core.put thread).threads other = core.threads other :=
  Function.update_of_ne different ..

/-- The running thread goes on, and may store to lock words. -/
theorem Exclusive.put (exclusive : Exclusive port core) {thread : Thread Status κ}
    {words : κ → UInt32}
    (orderly : Orderly port words thread) :
    Exclusive port { core.put thread with words := words } := by
  refine ⟨fun other => ?_, fun other critical => ?_⟩
  · change Orderly port words ((core.put thread).threads other)
    by_cases same : other = core.current
    · rw [same, core.put_current]
      exact orderly
    · rw [core.put_of_ne thread same]
      exact (exclusive.orderly other).elsewhere
        (fun critical => same (exclusive.alone other critical)) words
  · change other = core.current
    change InCritical ((core.put thread).threads other) at critical
    by_contra different
    rw [core.put_of_ne thread different] at critical
    exact different (exclusive.alone other critical)

theorem Owned.put {owners : κ → Option ι} (owned : Owned core owners) {thread : Thread Status κ}
    (sameHeld : thread.held = core.thread.held) : Owned (core.put thread) owners := by
  intro lock other
  rw [owned lock other]
  by_cases same : other = core.current
  · rw [same, core.put_current, sameHeld]
    rfl
  · rw [core.put_of_ne thread same]

variable [DecidableEq κ]

theorem Owned.acquire (exclusive : Exclusive port core) {owners : κ → Option ι}
    (owned : Owned core owners)
    {lock : κ} (notHeld : lock ∉ core.thread.held) {thread : Thread Status κ}
    (isHeld : thread.held = lock :: core.thread.held) {words : κ → UInt32} :
    ∃ owners', Lock.step owners (.acquire core.current lock) = some owners' ∧
      Owned { core.put thread with words := words } owners' := by
  have free : owners lock = none := by
    rw [Option.eq_none_iff_forall_ne_some]
    intro other isOwner
    have isCurrent := exclusive.owner_eq owned isOwner
    subst isCurrent
    exact notHeld ((owned lock _).mp isOwner)
  refine ⟨_, if_pos free, fun other owner => ?_⟩
  change _ ↔ other ∈ ((core.put thread).threads owner).held
  by_cases same : owner = core.current
  · subst same
    rw [core.put_current, isHeld, List.mem_cons]
    by_cases isLock : other = lock
    · subst isLock
      simp
    · rw [Function.update_of_ne isLock, owned other]
      exact (or_iff_right isLock).symm
  · rw [core.put_of_ne thread same, ← owned other owner]
    by_cases isLock : other = lock
    · subst isLock
      simp [free, Ne.symm same]
    · rw [Function.update_of_ne isLock]

theorem Owned.release {owners : κ → Option ι} (owned : Owned core owners)
    {lock : κ} {held : List κ} (isHeld : core.thread.held = lock :: held) (once : lock ∉ held)
    {thread : Thread Status κ} (remain : thread.held = held) :
    ∃ owners', Lock.step owners (.release core.current lock) = some owners' ∧
      Owned (core.put thread) owners' := by
  have isOwner : owners lock = some core.current := by
    rw [owned lock]
    change lock ∈ core.thread.held
    rw [isHeld]
    exact List.mem_cons_self
  refine ⟨_, if_pos isOwner, fun other owner => ?_⟩
  by_cases same : owner = core.current
  · subst same
    rw [core.put_current, remain]
    by_cases isLock : other = lock
    · subst isLock
      simp [once]
    · rw [Function.update_of_ne isLock, owned other]
      change other ∈ core.thread.held ↔ _
      rw [isHeld, List.mem_cons]
      exact or_iff_right isLock
  · rw [core.put_of_ne thread same, ← owned other owner]
    by_cases isLock : other = lock
    · subst isLock
      simp [isOwner, Ne.symm same]
    · rw [Function.update_of_ne isLock]

/-- What a step is for the locks: the lock word is stored at the end of a lock,
and the mask is restored at the end of an unlock. -/
def observe (core : Core Status ι κ) : Event Status ι κ → Option (Lock.Action ι κ)
  | .execute =>
      match core.thread.place with
      | .lockStore lock _flags => some (.acquire core.current lock)
      | .unlockWrite lock _flags _status => some (.release core.current lock)
      | _ => none
  | _ => none

theorem Exclusive.execute (lawful : port.Lawful) (exclusive : Exclusive port core)
    {owners : κ → Option ι}
    (owned : Owned core owners) {next : Core Status ι κ} (stepped : core.execute port = some next) :
    ∃ owners', Answers Lock.step (observe core .execute) owners owners' ∧
      Exclusive port next ∧ Owned next owners' := by
  have orderly : Orderly port core.words core.thread := exclusive.orderly core.current
  have expects := orderly.expects
  rw [Core.execute] at stepped
  rw [observe]
  cases isPlace : core.thread.place with
  | outside =>
      rw [isPlace] at stepped
      cases stepped
  | lockTest lock =>
      rw [isPlace] at stepped expects
      cases stepped
      refine ⟨owners, rfl,
        exclusive.put ⟨orderly.notInterrupt, orderly.outer, orderly.once, orderly.saved, ?_⟩,
        owned.put rfl⟩
      simp only [orderly.notInterrupt, Bool.false_eq_true, if_false]
      exact expects
  | lockRead lock =>
      rw [isPlace] at stepped expects
      cases stepped
      exact ⟨owners, rfl,
        exclusive.put ⟨orderly.notInterrupt, orderly.outer, orderly.once, orderly.saved,
        expects.1, expects.2, rfl, orderly.notInterrupt⟩, owned.put rfl⟩
  | lockWrite lock status =>
      rw [isPlace] at stepped expects
      cases stepped
      rcases expects with ⟨mask, notHeld, sameMask, notInterrupt⟩
      exact ⟨owners, rfl,
        exclusive.put ⟨(lawful.inInterrupt_disable status).trans notInterrupt, orderly.outer,
        orderly.once, orderly.saved, lawful.mask_disable status, notHeld,
        (lawful.flags status).trans (sameMask.trans mask)⟩, owned.put rfl⟩
  | lockStore lock flags =>
      rw [isPlace] at stepped expects
      cases stepped
      rcases expects with ⟨masked, notHeld, isFlags⟩
      have locked : ({ core.thread with
          place := .outside
          held := lock :: core.thread.held } : Thread Status κ).held =
            lock :: core.thread.held := rfl
      rcases owned.acquire exclusive notHeld locked with ⟨owners', answers, owned'⟩
      refine ⟨owners', answers, exclusive.put ⟨orderly.notInterrupt, orderly.outer,
        List.nodup_cons.mpr ⟨notHeld, orderly.once⟩, ⟨?_, orderly.saved.store notHeld flags⟩,
        ?_⟩, owned'⟩
      · rw [Function.update_self]
        exact isFlags
      · exact masked.trans (if_neg (List.cons_ne_nil _ _)).symm
  | unlockTest lock =>
      rw [isPlace] at stepped expects
      cases stepped
      refine ⟨owners, rfl,
        exclusive.put ⟨orderly.notInterrupt, orderly.outer, orderly.once, orderly.saved, ?_⟩,
        owned.put rfl⟩
      simp only [orderly.notInterrupt, Bool.false_eq_true, if_false]
      exact expects
  | unlockLoad lock =>
      rw [isPlace] at stepped expects
      cases stepped
      rcases expects with ⟨masked, held, isHeld⟩
      have saved := orderly.saved
      rw [isHeld] at saved
      exact ⟨owners, rfl,
        exclusive.put ⟨orderly.notInterrupt, orderly.outer, orderly.once, orderly.saved,
        masked, held, isHeld, saved.1⟩, owned.put rfl⟩
  | unlockRead lock flags =>
      rw [isPlace] at stepped expects
      cases stepped
      exact ⟨owners, rfl,
        exclusive.put ⟨orderly.notInterrupt, orderly.outer, orderly.once, orderly.saved,
        expects.1, orderly.notInterrupt, expects.2⟩, owned.put rfl⟩
  | unlockWrite lock flags status =>
      rw [isPlace] at stepped expects
      cases stepped
      rcases expects with ⟨_, notInterrupt, held, isHeld, isFlags⟩
      have once := orderly.once
      have saved := orderly.saved
      rw [isHeld] at once saved
      rw [List.nodup_cons] at once
      have remain : ({ core.thread with
          status := port.restore status flags
          place := .outside
          held := core.thread.held.erase lock } : Thread Status κ).held = held := by
        change core.thread.held.erase lock = held
        rw [isHeld, List.erase_cons_head]
      have fields : flags &&& port.fields = flags := by
        rw [isFlags]
        exact innerMask_and held orderly.outer
      rcases owned.release isHeld once.1 remain with ⟨owners', answers, owned'⟩
      change core.thread.held.erase lock = held at remain
      refine ⟨owners', answers, exclusive.put ⟨?_, orderly.outer, ?_, ?_, ?_⟩, owned'⟩
      · exact (lawful.inInterrupt_restore status flags fields).trans notInterrupt
      · exact remain.symm ▸ once.2
      · exact remain.symm ▸ saved.2
      · change port.mask (port.restore status flags) =
          innerMask port (core.thread.held.erase lock) _
        rw [lawful.mask_restore status flags fields, remain, isFlags]

theorem Exclusive.step (lawful : port.Lawful) (exclusive : Exclusive port core)
    {owners : κ → Option ι}
    (owned : Owned core owners) {event : Event Status ι κ} (disciplined : Disciplined core event)
    {next : Core Status ι κ} (stepped : step port core event = some next) :
    ∃ owners', Answers Lock.step (observe core event) owners owners' ∧
      Exclusive port next ∧ Owned next owners' := by
  have orderly : Orderly port core.words core.thread := exclusive.orderly core.current
  have expects := orderly.expects
  cases event with
  | execute => exact exclusive.execute lawful owned stepped
  | lock lock =>
      rcases Option.ite_none_right_eq_some.mp stepped with ⟨isOutside, result⟩
      cases result
      have place := Place.eq_outside isOutside
      rw [place] at expects
      exact ⟨owners, rfl,
        exclusive.put ⟨orderly.notInterrupt, orderly.outer, orderly.once, orderly.saved,
        expects, disciplined⟩, owned.put rfl⟩
  | unlock lock =>
      rcases Option.ite_none_right_eq_some.mp stepped with ⟨isOutside, result⟩
      cases result
      have place := Place.eq_outside isOutside
      rw [place] at expects
      rcases List.head?_eq_some_iff.mp disciplined with ⟨held, isHeld⟩
      have masked : port.mask core.thread.status = port.fields :=
        orderly.masked (Or.inl (isHeld ▸ List.cons_ne_nil _ _))
      exact ⟨owners, rfl,
        exclusive.put ⟨orderly.notInterrupt, orderly.outer, orderly.once, orderly.saved,
        masked, held, isHeld⟩, owned.put rfl⟩
  | compute status =>
      rcases Option.ite_none_right_eq_some.mp stepped with ⟨⟨sameMask, sameMode⟩, result⟩
      cases result
      refine ⟨owners, rfl,
        exclusive.put ⟨sameMode.trans orderly.notInterrupt, orderly.outer, orderly.once,
        orderly.saved, ?_⟩, owned.put rfl⟩
      change Expects port { core.thread with status := status } core.thread.place
      cases isPlace : core.thread.place <;> rw [isPlace] at expects <;>
        simpa only [Expects, sameMask] using expects
  | interrupt other =>
      rcases Option.ite_none_right_eq_some.mp stepped with ⟨unmasked, result⟩
      cases result
      refine ⟨owners, rfl, ⟨exclusive.orderly, fun thread critical => ?_⟩, owned⟩
      have isCurrent := exclusive.alone thread critical
      subst isCurrent
      exact absurd (orderly.masked critical) unmasked
  | yield other =>
      rcases Option.ite_none_right_eq_some.mp stepped with ⟨isOutside, result⟩
      have place := Place.eq_outside isOutside
      change core.thread.held = [] at disciplined
      cases yields : port.yield core.thread.status with
      | none =>
          rw [yields] at result
          cases result
          exact ⟨owners, rfl, exclusive, owned⟩
      | some status =>
          rw [yields] at result
          cases result
          have yielded : Orderly port core.words
              { core.thread with status := status, outer := port.mask status } := by
            refine ⟨(lawful.inInterrupt_yield _ _ yields).trans orderly.notInterrupt,
              lawful.mask_fields status,
              orderly.once, ?_, ?_⟩
            · change SavedIn port core.words (port.mask status) core.thread.held
              rw [disciplined]
              trivial
            · change Expects port _ core.thread.place
              rw [place]
              exact (if_pos disciplined).symm
          have yielded := exclusive.put yielded
          refine ⟨owners, rfl, ⟨yielded.orderly, fun thread critical => ?_⟩, owned.put rfl⟩
          -- The thread that yields was the only one that could be in a critical section.
          have isCurrent := yielded.alone thread critical
          change thread = core.current at isCurrent
          subst isCurrent
          change InCritical ((core.put _).threads core.current) at critical
          rw [core.put_current] at critical
          rcases critical with holds | ⟨lock, flags, isStore⟩
          · exact absurd disciplined holds
          · rw [place] at isStore
            cases isStore

/-- Spinlocks are locks, and more: in every disciplined run, acquisitions and
releases are a run of the abstract locks, a thread that holds any lock is the
running one and has everything masked, so that no interrupt can come, and a
thread that holds none and is outside of the functions has the mask that it
had before. -/
theorem spinlocks_are_critical_sections (lawful : port.Lawful) {initial final : Core Status ι κ}
    (start : Initial port initial) {events : List (Event Status ι κ)}
    (disciplined : StepsMeet (step port) Disciplined initial events)
    (reaches : run (step port) initial events = some final) :
    ∃ owners, run Lock.step (fun _lock => none) (visible (step port) observe initial events) =
      some owners ∧
      Owned final owners ∧
      (∀ thread, (final.threads thread).held ≠ [] →
        thread = final.current ∧ port.mask (final.threads thread).status = port.fields ∧
          ∀ next, step port final (.interrupt next) = none) ∧
      ∀ thread, (final.threads thread).place = .outside → (final.threads thread).held = [] →
        port.mask (final.threads thread).status = (final.threads thread).outer := by
  have simulates : ∀ core (owners : κ → Option ι) event next, Exclusive port core ∧
      Owned core owners →
      Disciplined core event → step port core event = some next →
      ∃ owners', Answers Lock.step (observe core event) owners owners' ∧
        Exclusive port next ∧ Owned next owners' :=
    fun _core _owners _event _next ⟨exclusive, owned⟩ met stepped =>
      exclusive.step lawful owned met stepped
  have owned : Owned initial (fun _lock => none) := by
    intro lock thread
    rw [start.holdsNone thread]
    exact iff_of_false nofun List.not_mem_nil
  rcases run_shows simulates ⟨start.exclusive lawful, owned⟩ disciplined reaches with
    ⟨owners, shown, exclusive, isOwned⟩
  refine ⟨owners, shown, isOwned, fun thread holds => ?_, fun thread isOutside holdsNone => ?_⟩
  · have masked := (exclusive.orderly thread).masked (Or.inl holds)
    have isCurrent := exclusive.alone thread (Or.inl holds)
    subst isCurrent
    exact ⟨rfl, masked, fun next => if_neg (not_not_intro masked)⟩
  · have expects := (exclusive.orderly thread).expects
    rw [isOutside] at expects
    exact expects.trans (if_pos holdsNone)

/-- Two threads outside of all critical sections. -/
def calm (status : Status) : Core Status Bool Nat :=
  ⟨false, fun _thread => ⟨status, .outside, [], 0⟩, fun _lock => 0⟩

theorem calm_initial {status : Status} (notInterrupt : port.inInterrupt status = false)
    (unmasked : port.mask status = 0) : Initial port (calm status) :=
  ⟨fun _thread => rfl, fun _thread => rfl, fun _thread => notInterrupt, fun _thread => unmasked⟩

/-- One thread is interrupted while it locks, and the other one goes through
two nested critical sections before the first one goes on. -/
def nestedSections : List (Event Status Bool Nat) :=
  [.lock 0, .execute, .interrupt true, .lock 0] ++ List.replicate 4 .execute ++ [.lock 1] ++
    List.replicate 4 .execute ++ [.unlock 1] ++ List.replicate 4 .execute ++ [.unlock 0] ++
    List.replicate 4 .execute ++ [.interrupt false] ++ List.replicate 3 .execute

theorem nested_spinlocks_are_critical_sections :
    (∃ final owners, run (step armA) (calm 0x13) nestedSections = some final ∧
      run Lock.step (fun _lock => none) (visible (step armA) observe (calm 0x13) nestedSections) =
        some owners ∧
      owners 0 = some false ∧ ∀ next, step armA final (.interrupt next) = none) ∧
    ∃ final owners, run (step armM) (calm ⟨0, 0⟩) nestedSections = some final ∧
      run Lock.step (fun _lock => none) (visible (step armM) observe (calm ⟨0, 0⟩) nestedSections) =
        some owners ∧
      owners 0 = some false ∧ ∀ next, step armM final (.interrupt next) = none := by
  have ends {Status : Type} (port : Port Status) (status : Status) (lawful : port.Lawful)
      (start : Initial port (calm status))
      (disciplined : StepsMeet (step port) Disciplined (calm status) nestedSections)
      (reaches : (run (step port) (calm status) nestedSections).map
        (fun core => (core.threads false).held) =
        some [0]) :
      ∃ final owners, run (step port) (calm status) nestedSections = some final ∧
        run Lock.step (fun _lock => none)
          (visible (step port) observe (calm status) nestedSections) = some owners ∧
        owners 0 = some false ∧ ∀ next, step port final (.interrupt next) = none := by
    rcases Option.map_eq_some_iff.mp reaches with ⟨final, isFinal, isHeld⟩
    rcases spinlocks_are_critical_sections lawful start disciplined isFinal with
      ⟨owners, shown, owned, alone, _⟩
    refine ⟨final, owners, isFinal, shown, (owned 0 false).mpr ?_, (alone false ?_).2.2⟩
    · rw [isHeld]
      exact List.mem_cons_self
    · rw [isHeld]
      exact List.cons_ne_nil _ _
  exact ⟨ends armA 0x13 armA_lawful (calm_initial (by decide) (by decide)) (by decide +kernel)
    (by decide +kernel),
    ends armM ⟨0, 0⟩ armM_lawful (calm_initial (by decide) (by decide)) (by decide +kernel)
      (by decide +kernel)⟩

end Put

end Spinlock
end Concurrency
end ShovelOS
