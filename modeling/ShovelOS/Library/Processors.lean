import Mathlib.Logic.Function.Basic
import ShovelOS.Library.Transition

namespace ShovelOS
namespace Processors

open Transition

/-!
# A processor for each thread

What a context switch is to give the threads of a single processor: each
thread has a processor of its own, on which nobody else computes.  Going over
to another thread touches no processor, so that a thread finds its processor
as it left it.
-/

/-- What happens to the processors. -/
inductive Action (ι σ : Type*) where
  | create (thread : ι) (processor : σ)
  | compute (processor : σ)
  | resume (thread : ι)

/-- The running thread, and the processors of the threads that exist. -/
structure State (ι σ : Type*) where
  running : ι
  processors : ι → Option σ

variable {ι σ : Type*} [DecidableEq ι]

def step (state : State ι σ) : Action ι σ → Option (State ι σ)
  | .create thread processor =>
      if thread = state.running then none
      else some { state with
        processors := Function.update state.processors thread (some processor) }
  | .compute processor =>
      some { state with
        processors := Function.update state.processors state.running (some processor) }
  | .resume thread =>
      if (state.processors thread).isSome then some { state with running := thread } else none

/-- The actions that leave the processor of a thread alone: the thread does
not compute, and it is not created. -/
def Spares (thread : ι) (state : State ι σ) : Action ι σ → Prop
  | .create other _processor => other ≠ thread
  | .compute _processor => state.running ≠ thread
  | .resume _other => True

/-- A thread finds its processor as it left it. -/
theorem Spares.step {thread : ι} {state next : State ι σ} {action : Action ι σ}
    (spares : Spares thread state action) (stepped : step state action = some next) :
    next.processors thread = state.processors thread := by
  cases action with
  | create other processor =>
      rcases Option.ite_none_left_eq_some.mp stepped with ⟨_, result⟩
      cases result
      exact Function.update_of_ne (Ne.symm spares) ..
  | compute processor =>
      cases stepped
      exact Function.update_of_ne (Ne.symm spares) ..
  | resume other =>
      rcases Option.ite_none_right_eq_some.mp stepped with ⟨_, result⟩
      cases result
      rfl

end Processors
end ShovelOS
