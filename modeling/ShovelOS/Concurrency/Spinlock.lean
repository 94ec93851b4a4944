import ShovelOS.Library.Lock
import ShovelOS.Library.Observation
import ShovelOS.Library.WordFields

namespace ShovelOS
namespace Concurrency
namespace Spinlock

open Transition

/-!
# Spinlocks on a single processor

`concurrency/spinlock.h` of `arm_a` and `arm_m`.  Nobody spins: a lock masks
interrupts and keeps the former mask in the lock word, and an unlock puts it
back.  In an interrupt neither does anything.

The two ports differ in their status registers and in how they mask, and
share everything else.  Each access to the status or to the lock word is a
step of its own, and an interrupt that switches threads can come between
any two of them while it is not masked.  A thread finds the status register
as it left it: a switch of `arm_a` saves and restores `CPSR`, and one of
`arm_m`, which does not save `PRIMASK`, is taken only while it is clear.
-/

/-! ## The ports -/

/-- What a port does with the status of the processor.  `yield` gives the
status with which a thread goes on after `_arch_kthread_yield`, and no status
when the request to switch has to wait. -/
structure Port (Status : Type) where
  inInterrupt : Status → Bool
  mask : Status → UInt32
  fields : UInt32
  disable : Status → Status × UInt32
  restore : Status → UInt32 → Status
  yield : Status → Option Status

/-- What all ports have in common.  Masking is complete when all fields are
set. -/
structure Port.Lawful {Status : Type} (port : Port Status) : Prop where
  mask_fields : ∀ status, port.mask status &&& port.fields = port.mask status
  mask_disable : ∀ status, port.mask (port.disable status).1 = port.fields
  flags : ∀ status, (port.disable status).2 = port.mask status
  mask_restore : ∀ status flags, flags &&& port.fields = flags →
    port.mask (port.restore status flags) = flags
  inInterrupt_disable : ∀ status, port.inInterrupt (port.disable status).1 = port.inInterrupt status
  inInterrupt_restore : ∀ status flags, flags &&& port.fields = flags →
    port.inInterrupt (port.restore status flags) = port.inInterrupt status
  inInterrupt_yield : ∀ status after, port.yield status = some after →
    port.inInterrupt after = port.inInterrupt status

def psrIf : UInt32 := (1 : UInt32) <<< 7 ||| (1 : UInt32) <<< 6

/-- `arm_a`, where the status is `CPSR`: `in_interrupt`,
`_arm_disable_interrupts` and `_arm_restore_interrupts`.  A yield masks for
its supervisor call and then calls `_arm_enable_interrupts`. -/
def armA : Port UInt32 where
  inInterrupt := fun cpsr =>
    let mode := cpsr &&& 0x1F
    mode = 17 || mode = 18 || mode = 23 || mode = 27
  mask := fun cpsr => cpsr &&& psrIf
  fields := psrIf
  disable := fun cpsr => (cpsr ||| psrIf, cpsr &&& psrIf)
  restore := fun cpsr flags => (cpsr &&& ~~~psrIf) ||| flags
  yield := fun cpsr => some ((cpsr ||| psrIf) &&& ~~~psrIf)

theorem armA_lawful : armA.Lawful where
  mask_fields := fun cpsr => by
    change cpsr &&& psrIf &&& psrIf = cpsr &&& psrIf
    rw [UInt32.and_assoc, UInt32.and_self]
  mask_disable := fun cpsr => by
    change (cpsr ||| psrIf) &&& psrIf = psrIf
    rw [WordFields.or_eq_insert, WordFields.insert_and_inside (UInt32.and_self), UInt32.and_self]
  flags := fun _cpsr => rfl
  mask_restore := fun cpsr flags only => by
    change ((cpsr &&& ~~~psrIf) ||| flags) &&& psrIf = flags
    change flags &&& psrIf = flags at only
    rw [WordFields.and_not_or_eq_insert cpsr only, WordFields.insert_and_inside (UInt32.and_self)]
    exact only
  inInterrupt_disable := fun cpsr => by
    have mode : (cpsr ||| psrIf) &&& 0x1F = cpsr &&& 0x1F := by
      rw [WordFields.or_eq_insert, WordFields.insert_and_outside (by decide)]
    simp only [armA, mode]
  inInterrupt_restore := fun cpsr flags only => by
    change flags &&& psrIf = flags at only
    have mode : ((cpsr &&& ~~~psrIf) ||| flags) &&& 0x1F = cpsr &&& 0x1F := by
      rw [WordFields.and_not_or_eq_insert cpsr only, WordFields.insert_and_outside (by decide)]
    simp only [armA, mode]
  inInterrupt_yield := fun cpsr after yields => by
    have mode : ((cpsr ||| psrIf) &&& ~~~psrIf) &&& 0x1F = cpsr &&& 0x1F := by
      rw [WordFields.and_not_eq_insert, WordFields.insert_and_outside (by decide),
        WordFields.or_eq_insert, WordFields.insert_and_outside (by decide)]
    cases yields
    simp only [armA, mode]

/-- `PRIMASK` and `IPSR`. -/
structure MaskAndException where
  primask : UInt32
  ipsr : UInt32
deriving DecidableEq

/-- `arm_m`: `in_interrupt`, `armm_cpsid` and `armm_cps_restore`.  A yield
asks for an exception, which waits while it is masked. -/
def armM : Port MaskAndException where
  inInterrupt := fun status => status.ipsr &&& 0x3F ≠ 0
  mask := fun status => status.primask &&& 1
  fields := 1
  disable := fun status =>
    if status.primask &&& 1 = 0 then ({ status with primask := 1 }, 0) else (status, 1)
  restore := fun status flags =>
    if flags &&& 1 ≠ 0 then { status with primask := 1 } else { status with primask := 0 }
  yield := fun status => if status.primask &&& 1 = 0 then some status else none

theorem bit_eq_zero_or_one (word : UInt32) : word &&& 1 = 0 ∨ word &&& 1 = 1 := by
  have toNat : (word &&& 1).toNat = word.toNat % 2 := by
    rw [UInt32.toNat_and]
    exact Nat.and_one_is_mod _
  rcases Nat.mod_two_eq_zero_or_one word.toNat with even | odd
  · exact Or.inl (UInt32.toNat_inj.mp (toNat.trans even))
  · exact Or.inr (UInt32.toNat_inj.mp (toNat.trans odd))

theorem armM_lawful : armM.Lawful where
  mask_fields := fun status => by
    change status.primask &&& 1 &&& 1 = status.primask &&& 1
    rw [UInt32.and_assoc, UInt32.and_self]
  mask_disable := fun status => by
    rcases bit_eq_zero_or_one status.primask with clear | set
    · simp only [armM, clear, if_true]
      decide
    · simp only [armM, set]
      exact set
  flags := fun status => by
    rcases bit_eq_zero_or_one status.primask with clear | set
    · simp only [armM, clear, if_true]
    · simp only [armM, set]
      rfl
  mask_restore := fun status flags only => by
    change flags &&& 1 = flags at only
    rcases bit_eq_zero_or_one flags with clear | set
    · simp only [armM, clear, ne_eq, not_true_eq_false, if_false, UInt32.zero_and]
      exact clear.symm.trans only
    · simp only [armM, set]
      exact (show (1 : UInt32) &&& 1 = 1 by decide).trans (set.symm.trans only)
  inInterrupt_disable := fun status => by
    rcases bit_eq_zero_or_one status.primask with clear | set
    · simp only [armM, clear, if_true]
    · simp only [armM, set]
      rfl
  inInterrupt_restore := fun status flags _only => by
    rcases bit_eq_zero_or_one flags with clear | set
    · simp only [armM, clear, ne_eq, not_true_eq_false, if_false]
    · simp only [armM, set]
      rfl
  inInterrupt_yield := fun status after yields => by
    rcases Option.ite_none_right_eq_some.mp yields with ⟨_, same⟩
    cases same
    rfl

/-! ## The functions -/

variable {Status : Type} {κ : Type}

/-- Where a thread is in `spinlock_lock_irqsave` or
`spinlock_unlock_irqrestore`, with the local variables that have values. -/
inductive Place (Status κ : Type) where
  | outside
  | lockTest (lock : κ)
  | lockRead (lock : κ)
  | lockWrite (lock : κ) (status : Status)
  | lockStore (lock : κ) (flags : UInt32)
  | unlockTest (lock : κ)
  | unlockLoad (lock : κ)
  | unlockRead (lock : κ) (flags : UInt32)
  | unlockWrite (lock : κ) (flags : UInt32) (status : Status)
deriving DecidableEq

def Place.isOutside : Place Status κ → Bool
  | .outside => true
  | _ => false

/-- A thread.  `held` has the locks that it holds, the latest first, and
`outer` the mask that it has outside of critical sections; the code keeps
neither. -/
structure Thread (Status κ : Type) where
  status : Status
  place : Place Status κ
  held : List κ
  outer : UInt32

/-- The threads, the running one, and the lock words. -/
structure Core (Status ι κ : Type) where
  current : ι
  threads : ι → Thread Status κ
  words : κ → UInt32

/-- What happens.  A thread calls the functions, performs their steps or
computes, an interrupt that is not masked goes back to any thread, and a
thread yields to any thread.  A handler that calls the functions does
nothing by it. -/
inductive Event (Status ι κ : Type) where
  | lock (lock : κ)
  | unlock (lock : κ)
  | execute
  | compute (status : Status)
  | interrupt (next : ι)
  | yield (next : ι)

section Steps

variable {ι : Type} [DecidableEq ι] [DecidableEq κ] (port : Port Status)

def Core.thread (core : Core Status ι κ) : Thread Status κ := core.threads core.current

def Core.put (core : Core Status ι κ) (thread : Thread Status κ) : Core Status ι κ :=
  { core with threads := Function.update core.threads core.current thread }

/-- The next step of a function. -/
def Core.execute (core : Core Status ι κ) : Option (Core Status ι κ) :=
  let thread := core.thread
  match thread.place with
  | .outside => none
  -- spinlock_lock_irqsave:
  | .lockTest lock =>
      some (core.put { thread with
        place := if port.inInterrupt thread.status then .outside else .lockRead lock })
  | .lockRead lock => some (core.put { thread with place := .lockWrite lock thread.status })
  | .lockWrite lock status =>
      let (status, flags) := port.disable status
      some (core.put { thread with status := status, place := .lockStore lock flags })
  | .lockStore lock flags =>
      some { core.put { thread with place := .outside, held := lock :: thread.held } with
        words := Function.update core.words lock flags }
  -- spinlock_unlock_irqrestore:
  | .unlockTest lock =>
      some (core.put { thread with
        place := if port.inInterrupt thread.status then .outside else .unlockLoad lock })
  | .unlockLoad lock => some (core.put { thread with place := .unlockRead lock (core.words lock) })
  | .unlockRead lock flags =>
      some (core.put { thread with place := .unlockWrite lock flags thread.status })
  | .unlockWrite lock flags status =>
      some (core.put { thread with
        status := port.restore status flags
        place := .outside
        held := thread.held.erase lock })

def step (core : Core Status ι κ) : Event Status ι κ → Option (Core Status ι κ)
  | .lock lock =>
      if core.thread.place.isOutside then
        some (core.put { core.thread with place := .lockTest lock }) else none
  | .unlock lock =>
      if core.thread.place.isOutside then
        some (core.put { core.thread with place := .unlockTest lock }) else none
  | .execute => core.execute port
  | .compute status =>
      if port.mask status = port.mask core.thread.status ∧
          port.inInterrupt status = port.inInterrupt core.thread.status then
        some (core.put { core.thread with status := status })
      else none
  | .interrupt next =>
      if port.mask core.thread.status ≠ port.fields then
        some { core with current := next } else none
  | .yield next =>
      if core.thread.place.isOutside then
        match port.yield core.thread.status with
        | some status =>
            some { core.put { core.thread with status := status, outer := port.mask status } with
              current := next }
        | none => some core
      else none

end Steps

end Spinlock
end Concurrency
end ShovelOS
