import Mathlib.Data.List.Basic

namespace ShovelOS
namespace Refinement

/-!
# Components that answer calls

A component takes a call, answers it, and goes to its next state.  One
component refines another when a relation between their states is kept by
every call and related states give the same answer.  Then no sequence of
calls tells the two apart, and the relation holds after each of them.
-/

variable {σ τ ι ο : Type*}

def after (step : σ → ι → ο × σ) : σ → List ι → σ
  | state, [] => state
  | state, call :: calls => after step (step state call).2 calls

def answers (step : σ → ι → ο × σ) : σ → List ι → List ο
  | _state, [] => []
  | state, call :: calls => (step state call).1 :: answers step (step state call).2 calls

/-- Related states answer alike and stay related. -/
structure Refines (relation : σ → τ → Prop) (step : σ → ι → ο × σ) (spec : τ → ι → ο × τ) :
    Prop where
  answer : ∀ state specState call, relation state specState →
    (step state call).1 = (spec specState call).1
  next : ∀ state specState call, relation state specState →
    relation (step state call).2 (spec specState call).2

variable {relation : σ → τ → Prop} {step : σ → ι → ο × σ} {spec : τ → ι → ο × τ}

theorem Refines.related_after (refines : Refines relation step spec) {state : σ} {specState : τ}
    (related : relation state specState) (calls : List ι) :
    relation (after step state calls) (after spec specState calls) := by
  induction calls generalizing state specState with
  | nil => exact related
  | cons call calls inductionHypothesis =>
      exact inductionHypothesis (refines.next state specState call related)

/-- No sequence of calls tells the components apart. -/
theorem Refines.answers_eq (refines : Refines relation step spec) {state : σ} {specState : τ}
    (related : relation state specState) (calls : List ι) :
    answers step state calls = answers spec specState calls := by
  induction calls generalizing state specState with
  | nil => rfl
  | cons call calls inductionHypothesis =>
      rw [answers, answers, refines.answer state specState call related,
        inductionHypothesis (refines.next state specState call related)]

/-- A property that every call keeps holds after any sequence of calls. -/
theorem after_induction {invariant : σ → Prop}
    (kept : ∀ state call, invariant state → invariant (step state call).2) {state : σ}
    (start : invariant state) (calls : List ι) : invariant (after step state calls) := by
  induction calls generalizing state with
  | nil => exact start
  | cons call calls inductionHypothesis => exact inductionHypothesis (kept state call start)

end Refinement
end ShovelOS
