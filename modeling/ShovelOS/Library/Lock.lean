import Mathlib.Logic.Function.Basic
import ShovelOS.Library.Transition

namespace ShovelOS
namespace Lock

open Transition

/-!
# Locks

What a lock is for, without a word about how it is built: a thread acquires
a lock that nobody owns, is refused a lock that somebody owns, and releases
a lock that it owns itself.  In every history of such actions the
acquisitions and releases of one lock alternate, and each release is by the
thread of the acquisition before it.
-/

/-- What threads do with locks. -/
inductive Action (ι κ : Type*) where
  | acquire (thread : ι) (lock : κ)
  | refuse (thread : ι) (lock : κ)
  | release (thread : ι) (lock : κ)
deriving DecidableEq

variable {ι κ : Type*} [DecidableEq ι] [DecidableEq κ]

/-- One action, where `owners` has the owner of every lock. -/
def step (owners : κ → Option ι) : Action ι κ → Option (κ → Option ι)
  | .acquire thread lock =>
      if owners lock = none then some (Function.update owners lock (some thread)) else none
  | .refuse _thread lock => if owners lock = none then none else some owners
  | .release thread lock =>
      if owners lock = some thread then some (Function.update owners lock none) else none

/-- The thread that acquires or releases the lock in an action. -/
def transfer (lock : κ) : Action ι κ → Option (Bool × ι)
  | .acquire thread other => if other = lock then some (true, thread) else none
  | .refuse _thread _other => none
  | .release thread other => if other = lock then some (false, thread) else none

/-- The acquisitions and releases of one lock, in order. -/
def transfers (lock : κ) (history : List (Action ι κ)) : List (Bool × ι) :=
  history.filterMap (transfer lock)

/-- Acquisitions and releases in turn, each release by the thread that holds
the lock; `owner` holds it at first. -/
def Alternates : Option ι → List (Bool × ι) → Prop
  | _owner, [] => True
  | none, (acquires, thread) :: rest => acquires = true ∧ Alternates (some thread) rest
  | some owner, (acquires, thread) :: rest => acquires = false ∧ thread = owner ∧
      Alternates none rest

theorem alternates_of_run {owners final : κ → Option ι} {history : List (Action ι κ)} (lock : κ)
    (reaches : run step owners history = some final) :
    Alternates (owners lock) (transfers lock history) := by
  induction history generalizing owners with
  | nil => cases owners lock <;> exact trivial
  | cons action history inductionHypothesis =>
      rcases run_cons_eq_some.mp reaches with ⟨next, stepped, rest⟩
      have alternates := inductionHypothesis rest
      cases action with
      | acquire thread other =>
          rw [step] at stepped
          split at stepped
          case isFalse => cases stepped
          case isTrue free =>
            cases stepped
            by_cases same : other = lock
            · subst same
              rw [Function.update_self] at alternates
              simpa [transfers, transfer, free, Alternates] using alternates
            · rw [Function.update_of_ne (Ne.symm same)] at alternates
              simpa [transfers, transfer, same] using alternates
      | refuse thread other =>
          rw [step] at stepped
          split at stepped
          case isTrue => cases stepped
          case isFalse =>
            cases stepped
            rw [transfers, List.filterMap_cons_none rfl]
            exact alternates
      | release thread other =>
          rw [step] at stepped
          split at stepped
          case isFalse => cases stepped
          case isTrue owned =>
            cases stepped
            by_cases same : other = lock
            · subst same
              rw [Function.update_self] at alternates
              simpa [transfers, transfer, owned, Alternates] using alternates
            · rw [Function.update_of_ne (Ne.symm same)] at alternates
              simpa [transfers, transfer, same] using alternates

end Lock
end ShovelOS
