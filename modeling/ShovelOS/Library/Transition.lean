import Mathlib.Data.List.Basic

namespace ShovelOS
namespace Transition

/-!
# Runs of a partial step function

A component is driven by a list of labels.  The step function is partial:
it has no value when a label is not enabled in a state, or when the
component halts.  Every choice of the environment stands in the label, so a
statement about all label lists is a statement about all environments.

Two induction rules are used throughout.  One carries an invariant from the
first state to every state that a run reaches.  The other carries it only
along runs whose steps all meet a condition, evaluated in the state before
each step.
-/

variable {σ : Type*} {ℓ : Type*}

def run (step : σ → ℓ → Option σ) : σ → List ℓ → Option σ
  | state, [] => some state
  | state, label :: labels => (step state label).bind (fun next => run step next labels)

/-- A state that some label list leads to. -/
def Reachable (step : σ → ℓ → Option σ) (initial state : σ) : Prop :=
  ∃ labels, run step initial labels = some state

/-- Each step of the run meets the condition in the state it is taken from. -/
def StepsMeet (step : σ → ℓ → Option σ) (condition : σ → ℓ → Prop) : σ → List ℓ → Prop
  | _state, [] => True
  | state, label :: labels => condition state label ∧
      ∀ next, step state label = some next → StepsMeet step condition next labels

variable {step : σ → ℓ → Option σ}

theorem run_nil (state : σ) : run step state [] = some state := rfl

theorem run_cons_eq_some {state final : σ} {label : ℓ} {labels : List ℓ} :
    run step state (label :: labels) = some final ↔
      ∃ next, step state label = some next ∧ run step next labels = some final :=
  Option.bind_eq_some_iff

theorem run_append {state : σ} (first second : List ℓ) :
    run step state (first ++ second) =
      (run step state first).bind (fun next => run step next second) := by
  induction first generalizing state with
  | nil => rfl
  | cons label labels inductionHypothesis =>
      simp only [List.cons_append, run, Option.bind_assoc]
      congr 1
      funext next
      exact inductionHypothesis

theorem run_snoc_eq_some {state final : σ} {label : ℓ} {labels : List ℓ} :
    run step state (labels ++ [label]) = some final ↔
      ∃ middle, run step state labels = some middle ∧ step middle label = some final := by
  rw [run_append, Option.bind_eq_some_iff]
  simp only [run_cons_eq_some, run_nil, Option.some.injEq, exists_eq_right]

theorem Reachable.refl (state : σ) : Reachable step state state := ⟨[], rfl⟩

theorem Reachable.tail {initial middle final : σ} {label : ℓ}
    (reachable : Reachable step initial middle) (stepped : step middle label = some final) :
    Reachable step initial final := by
  rcases reachable with ⟨labels, reaches⟩
  exact ⟨labels ++ [label], run_snoc_eq_some.mpr ⟨middle, reaches, stepped⟩⟩

/-- A property of the first state that every conditioned step keeps holds
wherever a run of such steps ends. -/
theorem invariant_of_stepsMeet {condition : σ → ℓ → Prop} {invariant : σ → Prop}
    (kept : ∀ state label next, invariant state → condition state label →
      step state label = some next → invariant next)
    {labels : List ℓ} {initial final : σ} (start : invariant initial)
    (meets : StepsMeet step condition initial labels)
    (reaches : run step initial labels = some final) : invariant final := by
  induction labels generalizing initial with
  | nil =>
      cases reaches
      exact start
  | cons label labels inductionHypothesis =>
      rcases run_cons_eq_some.mp reaches with ⟨next, stepped, rest⟩
      exact inductionHypothesis (kept initial label next start meets.1 stepped)
        (meets.2 next stepped) rest

/-- A condition that follows from another one in the states of an invariant,
which the other keeps, is met as well. -/
theorem StepsMeet.of_invariant {condition other : σ → ℓ → Prop} {invariant : σ → Prop}
    (follows : ∀ state label, invariant state → condition state label → other state label)
    (kept : ∀ state label next, invariant state → condition state label →
      step state label = some next → invariant next)
    {labels : List ℓ} {initial : σ} (start : invariant initial)
    (meets : StepsMeet step condition initial labels) : StepsMeet step other initial labels := by
  induction labels generalizing initial with
  | nil => trivial
  | cons label labels inductionHypothesis =>
      exact ⟨follows initial label start meets.1, fun next stepped =>
        inductionHypothesis (kept initial label next start meets.1 stepped) (meets.2 next stepped)⟩

/-- When every label is enabled in the states of an invariant, which it
keeps, every label list is a run. -/
theorem exists_run {invariant : σ → Prop}
    (enabled : ∀ state label, invariant state →
      ∃ next, step state label = some next ∧ invariant next)
    {initial : σ} (start : invariant initial) (labels : List ℓ) :
    ∃ final, run step initial labels = some final ∧ invariant final := by
  induction labels generalizing initial with
  | nil => exact ⟨initial, rfl, start⟩
  | cons label labels inductionHypothesis =>
      rcases enabled initial label start with ⟨next, stepped, holds⟩
      rcases inductionHypothesis holds with ⟨final, reaches, kept⟩
      exact ⟨final, run_cons_eq_some.mpr ⟨next, stepped, reaches⟩, kept⟩

/-- When each step of one component is a step of another on related states,
each run of the one is a run of the other. -/
theorem run_simulates {τ : Type*} {spec : τ → ℓ → Option τ} {relation : σ → τ → Prop}
    (simulates : ∀ state specState label next, relation state specState →
      step state label = some next →
      ∃ specNext, spec specState label = some specNext ∧ relation next specNext)
    {labels : List ℓ} {initial final : σ} {specInitial : τ} (start : relation initial specInitial)
    (reaches : run step initial labels = some final) :
    ∃ specFinal, run spec specInitial labels = some specFinal ∧ relation final specFinal := by
  induction labels generalizing initial specInitial with
  | nil =>
      cases reaches
      exact ⟨specInitial, rfl, start⟩
  | cons label labels inductionHypothesis =>
      rcases run_cons_eq_some.mp reaches with ⟨next, stepped, rest⟩
      rcases simulates initial specInitial label next start stepped with
        ⟨specNext, specStepped, related⟩
      rcases inductionHypothesis related rest with ⟨specFinal, specRest, relatedFinal⟩
      exact ⟨specFinal, run_cons_eq_some.mpr ⟨specNext, specStepped, specRest⟩, relatedFinal⟩

theorem stepsMeet_true (initial : σ) (labels : List ℓ) :
    StepsMeet step (fun _ _ => True) initial labels := by
  induction labels generalizing initial with
  | nil => trivial
  | cons label labels inductionHypothesis =>
      exact ⟨trivial, fun next _stepped => inductionHypothesis next⟩

/-- Whether a given run meets a decidable condition can be evaluated. -/
instance StepsMeet.decidable (step : σ → ℓ → Option σ) (condition : σ → ℓ → Prop)
    [∀ state label, Decidable (condition state label)] :
    (labels : List ℓ) → (state : σ) → Decidable (StepsMeet step condition state labels)
  | [], _state => isTrue trivial
  | label :: labels, state =>
      match stepped : step state label with
      | none => decidable_of_iff (condition state label)
          ⟨fun met => ⟨met, fun next reaches => by rw [stepped] at reaches; cases reaches⟩,
            fun meets => meets.1⟩
      | some next =>
          haveI := StepsMeet.decidable step condition labels next
          decidable_of_iff (condition state label ∧ StepsMeet step condition next labels)
            ⟨fun meets => ⟨meets.1, fun next reaches => by
                rw [stepped] at reaches
                cases reaches
                exact meets.2⟩,
              fun meets => ⟨meets.1, meets.2 next stepped⟩⟩

/-- The rule without a condition on the steps. -/
theorem Reachable.invariant {invariant : σ → Prop}
    (kept : ∀ state label next, invariant state → step state label = some next →
      invariant next)
    {initial final : σ} (start : invariant initial) (reachable : Reachable step initial final) :
    invariant final := by
  rcases reachable with ⟨labels, reaches⟩
  have keptAlways : ∀ state label next, invariant state → True →
      step state label = some next → invariant next :=
    fun state label next holds _met stepped => kept state label next holds stepped
  exact invariant_of_stepsMeet keptAlways start (stepsMeet_true initial labels) reaches

end Transition
end ShovelOS
