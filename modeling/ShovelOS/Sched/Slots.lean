import ShovelOS.Sched.Kernel

namespace ShovelOS
namespace Sched

/-!
# What every step does to the slots

One lemma says what a step can do.  The invariant of the run queue then
takes one case per outcome: the idle task stays in slot zero, no thread is
in two slots, threads that wait to be added are in none, and the slot of the
running index holds a thread unless that thread has exited.

The last part fails after an exit because `_exited_kthread` empties the slot
of the running index itself, before the switch that would move the index.
-/

variable {m : Machine} {arch : Arch}

/-! ## Outcomes -/

theorem firstSlot_eq_some {p : Fin 32 → Bool} {slot : Fin 32} (found : firstSlot p = some slot) :
    p slot = true :=
  List.find?_some found

theorem firstSlot_isSome {p : Fin 32 → Bool} {slot : Fin 32} (holds : p slot = true) :
    ∃ found, firstSlot p = some found := by
  cases found : firstSlot p with
  | some first => exact ⟨first, rfl⟩
  | none => exact absurd holds (List.find?_eq_none.mp found slot (List.mem_finRange slot))

/-- The memory of the threads that are held after one is given back. -/
def heldWithout (held : List KthreadPtr) : Option KthreadPtr → List KthreadPtr
  | some thread => held.erase thread
  | none => held

/-- What a step can do.  Before every outcome but a switch the running thread
has not exited. -/
inductive Outcome (m : Machine) (k : Kernel arch) : Event arch → Kernel arch → Prop where
  | unbuilt (creation : Creation) (thread : KthreadPtr) (content : Kthread arch)
      (fresh : thread ∉ k.held)
      (noStack : creation.stackBase = 0) :
        Outcome m k (.build creation) (k.setKthread thread content)
  | noThread (creation : Creation) (isNull : creation.thread = none) :
      Outcome m k (.build creation) { k with pending := none :: k.pending }
  | built (creation : Creation) (thread : KthreadPtr) (isThread : creation.thread = some thread)
      (hasStack : creation.stackBase ≠ 0) (fresh : thread ∉ k.held) :
      Outcome m k (.build creation)
        { k.setKthread thread (builtKthread m arch creation) with
          held := thread :: k.held
          pending := some thread :: k.pending }
  | added (thread : Option KthreadPtr) (isPending : thread ∈ k.pending) (slot : Fin 32)
      (isEmpty : k.kthreads slot = none) :
      Outcome m k (.add thread) { k.setSlot slot thread with pending := k.pending.erase thread }
  | full (thread : Option KthreadPtr) (isPending : thread ∈ k.pending) :
      Outcome m k (.add thread)
        { k with pending := k.pending.erase thread, held := heldWithout k.held thread }
  | slept (systemTime ts : Timespec) (k' : Kernel arch) (same : SameThreads k k')
      (sameRunning : k'.running = k.running) : Outcome m k (.sleep systemTime ts) k'
  | switched (interrupt : Interrupt arch) (c n : KthreadPtr) (k' : Kernel arch)
      (isCurrent : runQueueCurrent k = some c) (isNext : k.kthreads k'.running = some n)
      (same : SameThreads k k') :
      Outcome m k (.taskSwitch interrupt) (_switch k' c n interrupt.cpuState).2
  | exited (c : KthreadPtr) (isCurrent : runQueueCurrent k = some c) (notIdle : k.running ≠ 0)
      (slot : Fin 32) (isSlot : k.kthreads slot = some c) (content : Kthread arch) :
      Outcome m k .exited { (k.setSlot slot none).setKthread c content with exiting := true }

/-- A switch that does not stop the machine finds a current thread, and the
next one in the slot of the new running index. -/
theorem _archIrqTaskSwitch_eq_some {k k' : Kernel arch} {interrupt : Interrupt arch}
    {cpuState : arch.CpuState} (switched : _archIrqTaskSwitch k interrupt = some (cpuState, k')) :
    ∃ c n k₁, runQueueCurrent k = some c ∧ k.kthreads k₁.running = some n ∧ SameThreads k k₁ ∧
      (cpuState, k') = _switch k₁ c n interrupt.cpuState := by
  unfold _archIrqTaskSwitch at switched
  dsimp only at switched
  split at switched
  · rename_i c n k₁ isCurrent isNext
    rcases runQueueNext_eq_some isNext with ⟨isThread, same⟩
    split at switched
    · cases switched
    · split at switched
      · cases switched
      · refine ⟨c, n, k₁, isCurrent, isThread, ?_, (Option.some.inj switched).symm⟩
        exact ⟨same.kthreads, same.cpuState, same.held, same.pending, same.exiting⟩
  · cases switched

theorem kthreadSleepTs_same (k : Kernel arch) (systemTime ts : Timespec) :
    SameThreads k (kthreadSleepTs k systemTime ts) ∧
      (kthreadSleepTs k systemTime ts).running = k.running := by
  unfold kthreadSleepTs
  cases runQueueCurrent k with
  | none => exact ⟨SameThreads.refl k, rfl⟩
  | some thr =>
      refine ⟨⟨rfl, fun thread => ?_, rfl, rfl, rfl⟩, rfl⟩
      by_cases same : thread = thr
      · subst same
        simp only [Kernel.setKthread_same]
      · simp only [Kernel.setKthread_of_ne k _ same]

theorem build_outcome {k k' : Kernel arch} {creation : Creation}
    (stepped : step m k (.build creation) = some k') :
    k.exiting = false ∧ Outcome m k (.build creation) k' := by
  unfold step at stepped
  dsimp only at stepped
  split at stepped
  · rename_i enabled
    refine ⟨enabled.1, ?_⟩
    rw [← Option.some.inj stepped]
    unfold kthreadBuild _kthreadCreate
    cases isThread : creation.thread with
    | none => exact Outcome.noThread creation isThread
    | some thread =>
        have fresh := enabled.2 thread isThread
        by_cases noStack : creation.stackBase = 0
        · simp only [stackAlloc, noStack, ne_eq, not_true_eq_false, decide_false,
            Bool.false_eq_true, if_false]
          exact Outcome.unbuilt creation thread _ fresh noStack
        · simp only [stackAlloc, ne_eq, noStack, not_false_eq_true, decide_true, if_true,
            not_true_eq_false, if_false]
          exact Outcome.built creation thread isThread noStack fresh
  · cases stepped

theorem add_outcome {k k' : Kernel arch} {thread : Option KthreadPtr}
    (stepped : step m k (.add thread) = some k') :
    k.exiting = false ∧ Outcome m k (.add thread) k' := by
  unfold step at stepped
  dsimp only at stepped
  split at stepped
  · rename_i enabled
    refine ⟨enabled.1, ?_⟩
    rw [← Option.some.inj stepped]
    unfold kthreadAdd runQueueAdd
    dsimp only
    cases found : firstSlot fun slot => (k.kthreads slot).isNone with
    | some slot =>
        have isEmpty : k.kthreads slot = none :=
          Option.isNone_iff_eq_none.mp (firstSlot_eq_some found)
        exact Outcome.added thread enabled.2 slot isEmpty
    | none =>
        have result := Outcome.full (m := m) thread enabled.2
        cases thread with
        | none => exact result
        | some thread => exact result
  · cases stepped

theorem exited_outcome {k k' : Kernel arch} {c : KthreadPtr}
    (isCurrent : runQueueCurrent k = some c)
    (stepped : step m k .exited = some k') : k.exiting = false ∧ Outcome m k .exited k' := by
  unfold step _exitedKthread at stepped
  dsimp only at stepped
  split at stepped
  · rename_i enabled
    refine ⟨enabled, ?_⟩
    split at stepped
    · cases stepped
    · rename_i notIdle
      rw [isCurrent] at stepped
      dsimp only at stepped
      have holds : decide (k.kthreads k.running = some c) = true := decide_eq_true isCurrent
      rcases firstSlot_isSome (p := fun slot => decide (k.kthreads slot = some c)) holds with
        ⟨slot, found⟩
      have isSlot : k.kthreads slot = some c := of_decide_eq_true (firstSlot_eq_some found)
      unfold runQueueRemove at stepped
      rw [found] at stepped
      rw [← Option.some.inj stepped]
      exact Outcome.exited c isCurrent notIdle slot isSlot _
  · cases stepped

/-! ## The invariant -/

/-- The slots, the threads that wait to be added and the held memory fit
together, and the current slot is empty exactly while a thread exits. -/
structure Consistent (k : Kernel arch) : Prop where
  idle : ∃ idle, k.kthreads 0 = some idle
  current : k.exiting = false ↔ ∃ c, runQueueCurrent k = some c
  distinct : ∀ slot other thread, k.kthreads slot = some thread → k.kthreads other = some thread →
    slot = other
  slot_held : ∀ slot thread, k.kthreads slot = some thread → thread ∈ k.held
  pending_held : ∀ thread, some thread ∈ k.pending → thread ∈ k.held
  pending_out : ∀ slot thread, some thread ∈ k.pending → k.kthreads slot ≠ some thread
  pending_once : ∀ thread, k.pending.count (some thread) ≤ 1

/-- The invariant does not depend on the contents of threads, nor on the
running index as long as its slot holds a thread. -/
theorem Consistent.of_same {k k' : Kernel arch} (consistent : Consistent k)
    (kthreads : k'.kthreads = k.kthreads) (held : k'.held = k.held)
    (pending : k'.pending = k.pending)
    (current : k'.exiting = false ↔ ∃ c, runQueueCurrent k' = some c) : Consistent k' := by
  refine ⟨?_, current, ?_, ?_, ?_, ?_, ?_⟩
  · rw [kthreads]
    exact consistent.idle
  · rw [kthreads]
    exact consistent.distinct
  · rw [kthreads, held]
    exact consistent.slot_held
  · rw [pending, held]
    exact consistent.pending_held
  · rw [kthreads, pending]
    exact consistent.pending_out
  · rw [pending]
    exact consistent.pending_once

theorem Consistent.outcome {k k' : Kernel arch} (consistent : Consistent k) {event : Event arch}
    (stepped : step m k event = some k') : k.exiting = false ∧ Outcome m k event k' := by
  cases event with
  | build creation => exact build_outcome stepped
  | add thread => exact add_outcome stepped
  | sleep systemTime ts =>
      unfold step at stepped
      dsimp only at stepped
      split at stepped
      · rename_i enabled
        rw [← Option.some.inj stepped]
        have same := kthreadSleepTs_same k systemTime ts
        exact ⟨enabled, Outcome.slept systemTime ts _ same.1 same.2⟩
      · cases stepped
  | taskSwitch interrupt =>
      unfold step at stepped
      rcases Option.map_eq_some_iff.mp stepped with ⟨⟨cpuState, k₂⟩, switched, rfl⟩
      rcases _archIrqTaskSwitch_eq_some switched with ⟨c, n, k₁, isCurrent, isNext, same, result⟩
      refine ⟨consistent.current.mpr ⟨c, isCurrent⟩, ?_⟩
      have kernel : k₂ = (_switch k₁ c n interrupt.cpuState).2 := congrArg Prod.snd result
      rw [kernel]
      exact Outcome.switched interrupt c n k₁ isCurrent isNext same
  | exited =>
      have enabled : k.exiting = false := by
        unfold step at stepped
        dsimp only at stepped
        split at stepped
        · rename_i enabled
          exact enabled
        · cases stepped
      rcases consistent.current.mp enabled with ⟨c, isCurrent⟩
      exact exited_outcome isCurrent stepped

/-! ### One lemma for each outcome that changes the slots -/

theorem Consistent.noThread {k : Kernel arch} (consistent : Consistent k) :
    Consistent { k with pending := none :: k.pending } := by
  refine ⟨consistent.idle, consistent.current, consistent.distinct, consistent.slot_held,
    ?_, ?_, ?_⟩
  · intro thread isPending
    exact consistent.pending_held thread (List.mem_of_ne_of_mem (by simp) isPending)
  · intro slot thread isPending
    exact consistent.pending_out slot thread (List.mem_of_ne_of_mem (by simp) isPending)
  · intro thread
    rw [List.count_cons_of_ne (by simp)]
    exact consistent.pending_once thread

theorem Consistent.built {k : Kernel arch} (consistent : Consistent k) {thread : KthreadPtr}
    (content : Kthread arch) (fresh : thread ∉ k.held) :
    Consistent { k.setKthread thread content with
      held := thread :: k.held
      pending := some thread :: k.pending } := by
  refine ⟨consistent.idle, consistent.current, consistent.distinct, ?_, ?_, ?_, ?_⟩
  · exact fun slot other isSlot => List.mem_cons_of_mem _ (consistent.slot_held slot other isSlot)
  · intro other isPending
    rcases List.mem_cons.mp isPending with same | old
    · rw [Option.some.inj same]
      exact List.mem_cons_self
    · exact List.mem_cons_of_mem _ (consistent.pending_held other old)
  · intro slot other isPending isSlot
    rcases List.mem_cons.mp isPending with same | old
    · rw [Option.some.inj same] at isSlot
      exact fresh (consistent.slot_held slot thread isSlot)
    · exact consistent.pending_out slot other old isSlot
  · intro other
    by_cases same : thread = other
    · subst same
      have notPending : some thread ∉ k.pending :=
        fun isPending => fresh (consistent.pending_held thread isPending)
      change (some thread :: k.pending).count (some thread) ≤ 1
      rw [List.count_cons_self, List.count_eq_zero_of_not_mem notPending]
    · change (some thread :: k.pending).count (some other) ≤ 1
      rw [List.count_cons_of_ne (by simpa using same)]
      exact consistent.pending_once other

/-- A result that has been taken from the pending ones does not wait any
more. -/
theorem Consistent.remains {k : Kernel arch} (consistent : Consistent k)
    {thread : Option KthreadPtr}
    {pointer : KthreadPtr} (isRemaining : some pointer ∈ k.pending.erase thread) :
    some pointer ∈ k.pending ∧ some pointer ≠ thread := by
  refine ⟨List.mem_of_mem_erase isRemaining, ?_⟩
  rintro rfl
  have once := consistent.pending_once pointer
  have left := List.count_pos_iff.mpr isRemaining
  rw [List.count_erase_self] at left
  omega

theorem Consistent.added {k : Kernel arch} (consistent : Consistent k)
    (notExiting : k.exiting = false)
    {thread : Option KthreadPtr} (isPending : thread ∈ k.pending) {slot : Fin 32}
    (isEmpty : k.kthreads slot = none) :
    Consistent { k.setSlot slot thread with pending := k.pending.erase thread } := by
  have others : ∀ other pointer, (k.setSlot slot thread).kthreads other = some pointer →
      (other = slot ∧ thread = some pointer) ∨
        (other ≠ slot ∧ k.kthreads other = some pointer) := by
    intro other pointer isSlot
    by_cases same : other = slot
    · rw [same, Kernel.setSlot_same] at isSlot
      exact Or.inl ⟨same, isSlot⟩
    · rw [Kernel.setSlot_of_ne k _ same] at isSlot
      exact Or.inr ⟨same, isSlot⟩
  have kept : ∀ other pointer, k.kthreads other = some pointer →
      (k.setSlot slot thread).kthreads other = some pointer := by
    intro other pointer isSlot
    have different : other ≠ slot := by
      rintro rfl
      rw [isEmpty] at isSlot
      cases isSlot
    rw [Kernel.setSlot_of_ne k _ different]
    exact isSlot
  refine ⟨?_, ?_, ?_, ?_, ?_, ?_, ?_⟩
  · rcases consistent.idle with ⟨idle, isIdle⟩
    exact ⟨idle, kept 0 idle isIdle⟩
  · rcases consistent.current.mp notExiting with ⟨c, isCurrent⟩
    exact iff_of_true notExiting ⟨c, kept k.running c isCurrent⟩
  · intro slot₁ slot₂ pointer isFirst isSecond
    rcases others slot₁ pointer isFirst with ⟨first, sameFirst⟩ | ⟨_, oldFirst⟩ <;>
      rcases others slot₂ pointer isSecond with ⟨second, sameSecond⟩ | ⟨_, oldSecond⟩
    · rw [first, second]
    · rw [sameFirst] at isPending
      exact absurd oldSecond (consistent.pending_out slot₂ pointer isPending)
    · rw [sameSecond] at isPending
      exact absurd oldFirst (consistent.pending_out slot₁ pointer isPending)
    · exact consistent.distinct slot₁ slot₂ pointer oldFirst oldSecond
  · intro other pointer isSlot
    rcases others other pointer isSlot with ⟨_, same⟩ | ⟨_, old⟩
    · rw [same] at isPending
      exact consistent.pending_held pointer isPending
    · exact consistent.slot_held other pointer old
  · exact fun pointer isRemaining =>
      consistent.pending_held pointer (consistent.remains isRemaining).1
  · intro other pointer isRemaining isSlot
    rcases consistent.remains isRemaining with ⟨wasPending, different⟩
    rcases others other pointer isSlot with ⟨_, same⟩ | ⟨_, old⟩
    · exact different same.symm
    · exact consistent.pending_out other pointer wasPending old
  · exact fun pointer =>
      Nat.le_trans (List.erase_sublist.count_le _) (consistent.pending_once pointer)

theorem Consistent.full {k : Kernel arch} (consistent : Consistent k) {thread : Option KthreadPtr}
    (isPending : thread ∈ k.pending) :
    Consistent { k with pending := k.pending.erase thread, held := heldWithout k.held thread } := by
  have stillHeld : ∀ pointer, pointer ∈ k.held → some pointer ≠ thread →
      pointer ∈ heldWithout k.held thread := by
    intro pointer isHeld different
    cases thread with
    | none => exact isHeld
    | some thread =>
        exact (List.mem_erase_of_ne fun same => different (congrArg some same)).mpr isHeld
  refine ⟨consistent.idle, consistent.current, consistent.distinct, ?_, ?_, ?_, ?_⟩
  · intro slot pointer isSlot
    refine stillHeld pointer (consistent.slot_held slot pointer isSlot) ?_
    rintro rfl
    exact consistent.pending_out slot pointer isPending isSlot
  · intro pointer isRemaining
    rcases consistent.remains isRemaining with ⟨wasPending, different⟩
    exact stillHeld pointer (consistent.pending_held pointer wasPending) different
  · exact fun slot pointer isRemaining =>
      consistent.pending_out slot pointer (List.mem_of_mem_erase isRemaining)
  · exact fun pointer =>
      Nat.le_trans (List.erase_sublist.count_le _) (consistent.pending_once pointer)

/-- The slot that an exit empties is the one of the running index. -/
theorem Consistent.exited {k : Kernel arch} (consistent : Consistent k) {c : KthreadPtr}
    (isCurrent : runQueueCurrent k = some c) (notIdle : k.running ≠ 0) {slot : Fin 32}
    (isSlot : k.kthreads slot = some c) (content : Kthread arch) :
    Consistent { (k.setSlot slot none).setKthread c content with exiting := true } := by
  have isRunning : slot = k.running := consistent.distinct slot k.running c isSlot isCurrent
  have old : ∀ other pointer, (k.setSlot slot none).kthreads other = some pointer →
      k.kthreads other = some pointer := by
    intro other pointer stillThere
    by_cases same : other = slot
    · rw [same, Kernel.setSlot_same] at stillThere
      cases stillThere
    · rwa [Kernel.setSlot_of_ne k _ same] at stillThere
  refine ⟨?_, ?_, ?_, ?_, consistent.pending_held, ?_, consistent.pending_once⟩
  · rcases consistent.idle with ⟨idle, isIdle⟩
    refine ⟨idle, (Kernel.setSlot_of_ne k _ ?_).trans isIdle⟩
    rw [isRunning]
    exact notIdle.symm
  · refine iff_of_false Bool.noConfusion ?_
    rintro ⟨thread, isThread⟩
    change (k.setSlot slot none).kthreads k.running = some thread at isThread
    rw [isRunning, Kernel.setSlot_same] at isThread
    cases isThread
  · exact fun slot₁ slot₂ thread isFirst isSecond =>
      consistent.distinct slot₁ slot₂ thread (old slot₁ thread isFirst) (old slot₂ thread isSecond)
  · exact fun other thread isThere => consistent.slot_held other thread (old other thread isThere)
  · exact fun other thread isPending isThere =>
      consistent.pending_out other thread isPending (old other thread isThere)

theorem Consistent.step {k k' : Kernel arch} (consistent : Consistent k) {event : Event arch}
    (stepped : step m k event = some k') : Consistent k' := by
  rcases consistent.outcome stepped with ⟨notExiting, outcome⟩
  cases outcome with
  | unbuilt creation thread content fresh noStack =>
      exact consistent.of_same rfl rfl rfl consistent.current
  | noThread creation isNull => exact consistent.noThread
  | built creation thread isThread hasStack fresh => exact consistent.built _ fresh
  | added thread isPending slot isEmpty => exact consistent.added notExiting isPending isEmpty
  | full thread isPending => exact consistent.full isPending
  | slept systemTime ts k' same sameRunning =>
      refine consistent.of_same same.kthreads same.held same.pending ?_
      unfold runQueueCurrent
      rw [same.exiting, same.kthreads, sameRunning]
      exact consistent.current
  | switched interrupt c n k' isCurrent isNext same =>
      refine consistent.of_same same.kthreads same.held same.pending ?_
      refine iff_of_true (same.exiting.trans notExiting) ⟨n, ?_⟩
      change k'.kthreads k'.running = some n
      rw [same.kthreads]
      exact isNext
  | exited c isCurrent notIdle slot isSlot content =>
      exact consistent.exited isCurrent notIdle isSlot content

end Sched
end ShovelOS
