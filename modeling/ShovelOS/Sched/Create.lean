import ShovelOS.Sched.Sleep

namespace ShovelOS
namespace Sched

/-!
# What `kthread_create` obtains and gives back (`sched/sched.c`)

In a run the two halves of `kthread_create` are steps of their own.  Here it
is one call, and the stacks are counted too: a call obtains memory for the
thread, then pages for its stack, then a slot.  Each can be refused, and
`_free_kthread` then gives back what has been obtained.

A thread that is refused its memory is not such a refusal for
`_kthread_create`, which returns zero and leaves a null pointer.  The search
for a slot recognises an empty one by its null pointer, so it stores that
pointer into the first empty slot and finds nothing wrong.
-/

variable (m : Machine) {arch : Arch}

/-- The kernel with the pages that the stacks of its threads hold, by address
and number. -/
structure Owner (arch : Arch) where
  kernel : Kernel arch
  pages : List (Nat × Nat)

/-- `stack_free`, called by `_free_kthread_stack`. -/
def _freeKthreadStack (owner : Owner arch) (t : KthreadPtr) : Owner arch :=
  let thread := owner.kernel.memory t
  let ss := thread.stack
  if ss.stackBase ≠ 0 then
    { kernel := owner.kernel.setKthread t { thread with stack := ⟨0, 0⟩ }
      pages := owner.pages.erase (ss.stackBase, stackPages m ss.stackSize) }
  else owner

def _freeKthread (owner : Owner arch) : Option KthreadPtr → Owner arch
  | some t =>
      let owner := _freeKthreadStack m owner t
      { owner with kernel := { owner.kernel with held := owner.kernel.held.erase t } }
  | none => owner

/-- The thread's memory and the pages of its stack, as far as they are
obtained. -/
def obtainKthread (owner : Owner arch) (creation : Creation) (thread : KthreadPtr) : Owner arch :=
  let (granted, ss) := stackAlloc m 1024 creation.stackBase
  { kernel := { owner.kernel.setKthread thread { Kthread.zeroed arch with stack := ss } with
      held := thread :: owner.kernel.held }
    pages := if granted then (ss.stackBase, stackPages m 1024) :: owner.pages else owner.pages }

/-- `_kthread_create` with the pages: the error code, the pointer that is
stored for the caller, and what is held afterwards. -/
def _kthreadCreateOwner (owner : Owner arch) (creation : Creation) :
    Int × Option KthreadPtr × Owner arch :=
  match creation.thread with
  | none => (0, none, owner)
  | some thread =>
      let owner := obtainKthread m owner creation thread
      if (stackAlloc m 1024 creation.stackBase).1 then
        (0, some thread,
          { owner with kernel := owner.kernel.setKthread thread (builtKthread m arch creation) })
      else (-1, none, _freeKthread m owner (some thread))

/-- `kthread_create` without an interruption. -/
def kthreadCreate (owner : Owner arch) (creation : Creation) :
    Int × Option KthreadPtr × Owner arch :=
  let (err, thread, owner) := _kthreadCreateOwner m owner creation
  if err ≠ 0 then (-1, thread, owner)
  else
    let (rqa, kernel) := runQueueAdd owner.kernel thread
    if rqa ≠ 0 then (-1, none, _freeKthread m { owner with kernel := kernel } thread)
    else (0, thread, { owner with kernel := kernel })

/-- On success the thread is in exactly one slot, which was empty, and the
other slots are unchanged.  Otherwise there is no thread, and the slots, the
threads' memory and the pages are what they were. -/
def AllOrNothing (before : Owner arch) (result : Int × Option KthreadPtr × Owner arch) : Prop :=
  (result.1 = 0 → ∃ thread slot, result.2.1 = some thread ∧ before.kernel.kthreads slot = none ∧
    (∀ other, result.2.2.kernel.kthreads other =
      if other = slot then some thread else before.kernel.kthreads other) ∧
    ∀ other, result.2.2.kernel.kthreads other = some thread → other = slot) ∧
  (result.1 ≠ 0 → result.1 = -1 ∧ result.2.1 = none ∧
    result.2.2.kernel.kthreads = before.kernel.kthreads ∧
    result.2.2.kernel.held = before.kernel.held ∧ result.2.2.pages = before.pages)

variable {m}

/-! ## Each resource refused -/

theorem Kernel.setKthread_setKthread (k : Kernel arch) (pointer : KthreadPtr)
    (first second : Kthread arch) :
    (k.setKthread pointer first).setKthread pointer second = k.setKthread pointer second := by
  unfold Kernel.setKthread
  congr 1
  funext other
  by_cases same : other = pointer
  · simp only [if_pos same]
  · simp only [if_neg same]

/-- The pages of a stack are counted again from its size when it is freed. -/
theorem stackPages_stackSize (stackBase : Nat) :
    stackPages m (stackAlloc m 1024 stackBase).2.stackSize = stackPages m 1024 := by
  have page := m.pageSize_pos
  have small := m.pageSize_le
  have limit := m.two_pow_32_le_wordLimit
  have rounded : stackPages m 1024 * m.pageSize ≤ (1024 + (m.pageSize - 1)) % m.wordLimit :=
    Nat.div_mul_le_self _ _
  rw [Nat.mod_eq_of_lt (by omega)] at rounded
  have fits : stackPages m 1024 * m.pageSize ≤ 2 ^ 31 := by
    by_cases large : 2 ^ 30 < m.pageSize
    · have one : stackPages m 1024 < 2 := by
        by_contra two
        have grown := Nat.mul_le_mul_right m.pageSize (Nat.le_of_not_lt two)
        omega
      have grown := Nat.mul_le_mul_right m.pageSize (Nat.le_of_lt_succ one)
      omega
    · omega
  change (stackPages m 1024 * m.pageSize + (m.pageSize - 1)) % m.wordLimit / m.pageSize = _
  rw [Nat.mod_eq_of_lt (by omega), Nat.mul_comm, Nat.mul_add_div page,
    Nat.div_eq_of_lt (Nat.sub_lt page Nat.one_pos), Nat.add_zero]

/-- Giving back a thread without a stack gives back its memory only. -/
theorem _freeKthread_noStack {owner : Owner arch} {t : KthreadPtr}
    (noStack : (owner.kernel.memory t).stack.stackBase = 0) :
    _freeKthread m owner (some t) =
      { owner with kernel := { owner.kernel with held := owner.kernel.held.erase t } } := by
  unfold _freeKthread _freeKthreadStack
  dsimp only
  rw [if_neg (not_not_intro noStack)]

/-- Giving back a thread with a stack gives back the pages too. -/
theorem _freeKthread_stack {owner : Owner arch} {t : KthreadPtr}
    (hasStack : (owner.kernel.memory t).stack.stackBase ≠ 0) :
    (_freeKthread m owner (some t)).kernel.kthreads = owner.kernel.kthreads ∧
      (_freeKthread m owner (some t)).kernel.held = owner.kernel.held.erase t ∧
      (_freeKthread m owner (some t)).pages = owner.pages.erase
        ((owner.kernel.memory t).stack.stackBase,
          stackPages m (owner.kernel.memory t).stack.stackSize) := by
  unfold _freeKthread _freeKthreadStack
  dsimp only
  rw [if_pos hasStack]
  exact ⟨rfl, rfl, rfl⟩

/-- Without pages for the stack the thread's memory is given back. -/
theorem _kthreadCreateOwner_noStack (owner : Owner arch) {creation : Creation} {thread : KthreadPtr}
    (isThread : creation.thread = some thread) (noStack : creation.stackBase = 0) :
    _kthreadCreateOwner m owner creation = (-1, none, { owner with
      kernel := owner.kernel.setKthread thread
        { Kthread.zeroed arch with stack := (stackAlloc m 1024 creation.stackBase).2 } }) := by
  have refused : (stackAlloc m 1024 creation.stackBase).1 = false :=
    decide_eq_false (not_not_intro noStack)
  unfold _kthreadCreateOwner
  rw [isThread]
  dsimp only
  rw [refused, if_neg Bool.false_ne_true, _freeKthread_noStack]
  · unfold obtainKthread
    dsimp only
    rw [refused, if_neg Bool.false_ne_true, List.erase_cons_head]
    rfl
  · unfold obtainKthread
    dsimp only
    exact (congrArg (fun thread : Kthread arch => thread.stack.stackBase)
      (Kernel.setKthread_same _ _ _)).trans noStack

/-- The thread is built, and its memory and pages are held. -/
def withKthread (m : Machine) (owner : Owner arch) (creation : Creation) (thread : KthreadPtr) :
    Owner arch where
  kernel := { owner.kernel.setKthread thread (builtKthread m arch creation) with
    held := thread :: owner.kernel.held }
  pages := (creation.stackBase, stackPages m 1024) :: owner.pages

/-- With both, the thread is built. -/
theorem _kthreadCreateOwner_built (owner : Owner arch) {creation : Creation} {thread : KthreadPtr}
    (isThread : creation.thread = some thread) (hasStack : creation.stackBase ≠ 0) :
    _kthreadCreateOwner m owner creation =
      (0, some thread, withKthread m owner creation thread) := by
  have granted : (stackAlloc m 1024 creation.stackBase).1 = true := decide_eq_true hasStack
  unfold _kthreadCreateOwner
  rw [isThread]
  dsimp only
  rw [if_pos granted]
  unfold obtainKthread
  dsimp only
  rw [if_pos granted]
  congr 3
  exact congrArg (fun kernel : Kernel arch => { kernel with held := thread :: owner.kernel.held })
    (Kernel.setKthread_setKthread owner.kernel thread _ _)

/-- Giving it back gives back what it has obtained. -/
theorem _freeKthread_withKthread (owner : Owner arch) {creation : Creation} (thread : KthreadPtr)
    (hasStack : creation.stackBase ≠ 0) :
    (_freeKthread m (withKthread m owner creation thread) (some thread)).kernel.kthreads =
        owner.kernel.kthreads ∧
      (_freeKthread m (withKthread m owner creation thread) (some thread)).kernel.held =
        owner.kernel.held ∧
      (_freeKthread m (withKthread m owner creation thread) (some thread)).pages = owner.pages := by
  have stack : ((withKthread m owner creation thread).kernel.memory thread).stack =
      (stackAlloc m 1024 creation.stackBase).2 :=
    congrArg Kthread.stack
      (Kernel.setKthread_same owner.kernel thread (builtKthread m arch creation))
  have kept := _freeKthread_stack (m := m) (t := thread)
    (show ((withKthread m owner creation thread).kernel.memory thread).stack.stackBase ≠ 0 by
      rw [stack]
      exact hasStack)
  rw [stack, stackPages_stackSize] at kept
  exact ⟨kept.1, kept.2.1.trans (List.erase_cons_head _ _),
    kept.2.2.trans (List.erase_cons_head _ _)⟩

/-- The first half of the call is the step `build` of a run. -/
theorem _kthreadCreateOwner_eq (owner : Owner arch) (creation : Creation) :
    ((_kthreadCreateOwner m owner creation).1, (_kthreadCreateOwner m owner creation).2.1,
      (_kthreadCreateOwner m owner creation).2.2.kernel) =
        _kthreadCreate m owner.kernel creation := by
  unfold _kthreadCreate
  cases isThread : creation.thread with
  | none =>
      unfold _kthreadCreateOwner
      rw [isThread]
  | some thread =>
      dsimp only
      by_cases noStack : creation.stackBase = 0
      · rw [_kthreadCreateOwner_noStack owner isThread noStack]
        have refused : (stackAlloc m 1024 creation.stackBase).1 = false :=
          decide_eq_false (not_not_intro noStack)
        rw [refused, if_neg Bool.false_ne_true]
      · rw [_kthreadCreateOwner_built owner isThread noStack]
        exact (if_pos (decide_eq_true noStack)).symm

/-! ## The slot -/

/-- An empty slot is found if there is one, and the first one is filled. -/
theorem runQueueAdd_of_empty {k : Kernel arch} {slot : Fin 32} (isEmpty : k.kthreads slot = none)
    (kthread : Option KthreadPtr) :
    ∃ first, k.kthreads first = none ∧ runQueueAdd k kthread = (0, k.setSlot first kthread) := by
  have holds : (fun slot => (k.kthreads slot).isNone) slot = true :=
    Option.isNone_iff_eq_none.mpr isEmpty
  rcases firstSlot_isSome (p := fun slot => (k.kthreads slot).isNone) holds with ⟨first, found⟩
  refine ⟨first, Option.isNone_iff_eq_none.mp (firstSlot_eq_some found), ?_⟩
  unfold runQueueAdd
  rw [found]

theorem runQueueAdd_of_full {k : Kernel arch} (full : ¬ ∃ slot, k.kthreads slot = none)
    (kthread : Option KthreadPtr) : runQueueAdd k kthread = (-1, k) := by
  unfold runQueueAdd
  cases found : firstSlot fun slot => (k.kthreads slot).isNone with
  | some slot => exact absurd ⟨slot, Option.isNone_iff_eq_none.mp (firstSlot_eq_some found)⟩ full
  | none => rfl

/-! ## The whole call -/

/-- A call that has come to its critical section fills an empty slot. -/
theorem kthreadCreate_of_empty {owner built : Owner arch} {creation : Creation}
    {thread : Option KthreadPtr}
    (isBuilt : _kthreadCreateOwner m owner creation = (0, thread, built)) {slot : Fin 32}
    (isEmpty : built.kernel.kthreads slot = none) :
    ∃ first, built.kernel.kthreads first = none ∧ kthreadCreate m owner creation =
      (0, thread, { built with kernel := built.kernel.setSlot first thread }) := by
  rcases runQueueAdd_of_empty isEmpty thread with ⟨first, firstEmpty, added⟩
  refine ⟨first, firstEmpty, ?_⟩
  unfold kthreadCreate
  rw [isBuilt]
  dsimp only
  rw [added]
  rfl

/-- If there is none, it gives back what it has built. -/
theorem kthreadCreate_of_full {owner built : Owner arch} {creation : Creation}
    {thread : Option KthreadPtr}
    (isBuilt : _kthreadCreateOwner m owner creation = (0, thread, built))
    (full : ¬ ∃ slot, built.kernel.kthreads slot = none) :
    kthreadCreate m owner creation = (-1, none, _freeKthread m built thread) := by
  unfold kthreadCreate
  rw [isBuilt]
  dsimp only
  rw [runQueueAdd_of_full full]
  rfl

theorem AllOrNothing.failed {before after : Owner arch}
    (kthreads : after.kernel.kthreads = before.kernel.kthreads)
    (held : after.kernel.held = before.kernel.held) (pages : after.pages = before.pages) :
    AllOrNothing before (-1, none, after) :=
  ⟨fun success => absurd (show (-1 : Int) = 0 from success) (by decide),
    fun _failure => ⟨rfl, rfl, kthreads, held, pages⟩⟩

/-- Filling an empty slot with a thread that is in no other. -/
theorem AllOrNothing.added {before built : Owner arch} {thread : KthreadPtr} {first : Fin 32}
    (kthreads : built.kernel.kthreads = before.kernel.kthreads)
    (firstEmpty : before.kernel.kthreads first = none)
    (fresh : ∀ slot, before.kernel.kthreads slot ≠ some thread) :
    AllOrNothing before
      (0, some thread, { built with kernel := built.kernel.setSlot first (some thread) }) := by
  refine ⟨fun _success => ⟨thread, first, rfl, firstEmpty, fun other => ?_, fun other inSlot => ?_⟩,
    fun failure => absurd rfl failure⟩
  · rw [← kthreads]
    rfl
  · by_contra different
    refine fresh other ?_
    rw [← kthreads]
    exact (Kernel.setSlot_of_ne built.kernel _ different).symm.trans inSlot

/-- Without memory for the thread a null pointer takes a slot if there is one. -/
theorem kthreadCreate_noThread {owner : Owner arch} {creation : Creation}
    (isNull : creation.thread = none) :
    AllOrNothing owner (kthreadCreate m owner creation) ↔
      ¬ ∃ slot, owner.kernel.kthreads slot = none := by
  have built : _kthreadCreateOwner m owner creation = (0, none, owner) := by
    unfold _kthreadCreateOwner
    rw [isNull]
  constructor
  · rintro allOrNothing ⟨slot, isEmpty⟩
    rcases kthreadCreate_of_empty built isEmpty with ⟨first, _, created⟩
    rw [created] at allOrNothing
    rcases allOrNothing.1 rfl with ⟨thread, _, isThread, _⟩
    cases isThread
  · intro full
    rw [kthreadCreate_of_full built full]
    exact AllOrNothing.failed rfl rfl rfl

/-- A thread with memory is added, or everything is given back. -/
theorem kthreadCreate_thread {owner : Owner arch} {creation : Creation} {thread : KthreadPtr}
    (isThread : creation.thread = some thread)
    (fresh : ∀ slot, owner.kernel.kthreads slot ≠ some thread) :
    AllOrNothing owner (kthreadCreate m owner creation) := by
  by_cases noStack : creation.stackBase = 0
  · unfold kthreadCreate
    rw [_kthreadCreateOwner_noStack owner isThread noStack]
    exact AllOrNothing.failed rfl rfl rfl
  · have built := _kthreadCreateOwner_built (m := m) owner isThread noStack
    by_cases hasRoom : ∃ slot, owner.kernel.kthreads slot = none
    · rcases hasRoom with ⟨slot, isEmpty⟩
      rcases kthreadCreate_of_empty built isEmpty with ⟨first, firstEmpty, created⟩
      rw [created]
      exact AllOrNothing.added rfl firstEmpty fresh
    · rw [kthreadCreate_of_full built hasRoom]
      rcases _freeKthread_withKthread (m := m) owner thread noStack with ⟨kthreads, held, pages⟩
      exact AllOrNothing.failed kthreads held pages

/-- `kthread_create` is all-or-nothing exactly when the thread gets its
memory or there is no slot for it. -/
theorem kthread_create_all_or_nothing_iff {owner : Owner arch} {creation : Creation}
    (fresh : ∀ thread, creation.thread = some thread →
      ∀ slot, owner.kernel.kthreads slot ≠ some thread) :
    AllOrNothing owner (kthreadCreate m owner creation) ↔
      ¬ (creation.thread = none ∧ ∃ slot, owner.kernel.kthreads slot = none) := by
  cases isThread : creation.thread with
  | none =>
      rw [kthreadCreate_noThread isThread]
      exact (not_congr (and_iff_right rfl)).symm
  | some thread =>
      refine iff_of_true (kthreadCreate_thread isThread (fresh thread isThread)) ?_
      rintro ⟨impossible, _⟩
      cases impossible

/-- The ARM port with its boot thread running, and the pages of the idle
thread's stack. -/
def armOwner : Owner (armA 0x80001000) := ⟨armKernel, [(armBoot.idleStackBase, 1)]⟩

/-- A thread with memory and a stack takes the third slot. -/
theorem kthread_create_all_or_nothing_iff_thread :
    AllOrNothing armOwner
      (kthreadCreate Machine.beaglexm armOwner ⟨some 0x80330000, 0x80340000, 0x80002000, 0⟩) :=
  (kthread_create_all_or_nothing_iff (by
    intro thread isThread slot inSlot
    cases isThread
    revert slot
    decide)).mpr (fun refused => by cases refused.1)

/-- A thread that is refused its memory is reported as created. -/
theorem not_kthread_create_all_or_nothing_noThread :
    (kthreadCreate Machine.beaglexm armOwner ⟨none, 0, 0x80002000, 0⟩).1 = 0 ∧
      (kthreadCreate Machine.beaglexm armOwner ⟨none, 0, 0x80002000, 0⟩).2.1 = none ∧
      ¬ AllOrNothing armOwner
        (kthreadCreate Machine.beaglexm armOwner ⟨none, 0, 0x80002000, 0⟩) := by
  refine ⟨by decide, by decide, fun allOrNothing => ?_⟩
  rcases allOrNothing.1 (by decide) with ⟨thread, _, isThread, _⟩
  cases isThread

end Sched
end ShovelOS
