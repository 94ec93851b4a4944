import ShovelOS.Library.Transition

namespace ShovelOS
namespace Transition

/-!
# Visible actions and progress

A detailed component performs many steps for one action of the component
that it implements.  Each step is either silent, and then the abstract
component stays where it is, or it shows one action, and then the abstract
component performs that action.  The visible actions of a run are a run of
the abstract component.

For progress, a component that is left alone performs one label over and
over, and a measure falls with every step until the goal is reached.
-/

variable {σ τ ℓ α : Type*} {step : σ → ℓ → Option σ}

/-- The actions that a run shows, in order. -/
def visible (step : σ → ℓ → Option σ) (observe : σ → ℓ → Option α) : σ → List ℓ → List α
  | _state, [] => []
  | state, label :: labels =>
      (observe state label).toList ++
        ((step state label).map (visible step observe · labels)).getD []

variable {observe : σ → ℓ → Option α}

theorem visible_cons {state next : σ} {label : ℓ} (stepped : step state label = some next)
    (labels : List ℓ) :
    visible step observe state (label :: labels) =
      (observe state label).toList ++ visible step observe next labels := by
  rw [visible, stepped]
  rfl

/-- What the abstract component does for one step of the detailed one. -/
def Answers (spec : τ → α → Option τ) (observed : Option α) (specState specNext : τ) : Prop :=
  match observed with
  | none => specNext = specState
  | some action => spec specState action = some specNext

/-- The visible actions of a conditioned run are a run of the abstract
component, to a state that the relation allows. -/
theorem run_shows {spec : τ → α → Option τ} {condition : σ → ℓ → Prop} {relation : σ → τ → Prop}
    (shows : ∀ state specState label next, relation state specState → condition state label →
      step state label = some next →
      ∃ specNext, Answers spec (observe state label) specState specNext ∧ relation next specNext)
    {labels : List ℓ} {initial final : σ} {specInitial : τ} (start : relation initial specInitial)
    (meets : StepsMeet step condition initial labels)
    (reaches : run step initial labels = some final) :
    ∃ specFinal, run spec specInitial (visible step observe initial labels) = some specFinal ∧
      relation final specFinal := by
  induction labels generalizing initial specInitial with
  | nil =>
      cases reaches
      exact ⟨specInitial, rfl, start⟩
  | cons label labels inductionHypothesis =>
      rcases run_cons_eq_some.mp reaches with ⟨next, stepped, rest⟩
      rcases shows initial specInitial label next start meets.1 stepped with
        ⟨specNext, answers, related⟩
      rcases inductionHypothesis related (meets.2 next stepped) rest with
        ⟨specFinal, specRest, relatedFinal⟩
      refine ⟨specFinal, ?_, relatedFinal⟩
      rw [visible_cons stepped]
      cases observed : observe initial label with
      | none =>
          rw [observed] at answers
          cases answers
          exact specRest
      | some action =>
          rw [observed] at answers
          exact run_cons_eq_some.mpr ⟨specNext, answers, specRest⟩

/-- When in every state short of the goal some step that is allowed makes a
measure fall, the goal is reached within as many steps as the measure says. -/
theorem exists_run_to_goal {invariant goal : σ → Prop} (allowed : σ → ℓ → Prop) (measure : σ → Nat)
    (progress : ∀ state, invariant state → ¬ goal state → ∃ label next, allowed state label ∧
      step state label = some next ∧ invariant next ∧ measure next < measure state)
    {initial : σ} (start : invariant initial) :
    ∃ labels final, labels.length ≤ measure initial ∧ StepsMeet step allowed initial labels ∧
      run step initial labels = some final ∧ invariant final ∧ goal final := by
  generalize bounded : measure initial = bound
  induction bound using Nat.strongRecOn generalizing initial with
  | _ bound inductionHypothesis =>
      by_cases reached : goal initial
      · exact ⟨[], initial, Nat.zero_le bound, trivial, rfl, start, reached⟩
      · rcases progress initial start reached with ⟨label, next, isAllowed, stepped, kept, falls⟩
        rw [bounded] at falls
        rcases inductionHypothesis (measure next) falls kept rfl with
          ⟨labels, final, short, meets, reaches, holds, done⟩
        refine ⟨label :: labels, final, Nat.lt_of_le_of_lt short falls,
          ⟨isAllowed, fun other isNext => ?_⟩,
          run_cons_eq_some.mpr ⟨next, stepped, reaches⟩, holds, done⟩
        cases stepped.symm.trans isNext
        exact meets

/-- The labels of a run that may perform only one label. -/
theorem eq_replicate_of_stepsMeet {label : ℓ} {labels : List ℓ} {initial final : σ}
    (meets : StepsMeet step (fun _state other => other = label) initial labels)
    (reaches : run step initial labels = some final) :
    labels = List.replicate labels.length label := by
  induction labels generalizing initial with
  | nil => rfl
  | cons other labels inductionHypothesis =>
      rcases run_cons_eq_some.mp reaches with ⟨next, stepped, rest⟩
      rw [List.length_cons, List.replicate_succ,
        ← inductionHypothesis (meets.2 next stepped) rest, meets.1]

/-- The case that one label is performed over and over. -/
theorem exists_replicate_to_goal {invariant goal : σ → Prop} (measure : σ → Nat) (label : ℓ)
    (progress : ∀ state, invariant state → ¬ goal state →
      ∃ next, step state label = some next ∧ invariant next ∧ measure next < measure state)
    {initial : σ} (start : invariant initial) :
    ∃ steps final, steps ≤ measure initial ∧
      run step initial (List.replicate steps label) = some final ∧
      invariant final ∧ goal final := by
  have same : ∀ state, invariant state → ¬ goal state → ∃ other next, other = label ∧
      step state other = some next ∧ invariant next ∧ measure next < measure state :=
    fun state holds notDone =>
      ⟨label, (progress state holds notDone).imp fun _next advances => ⟨rfl, advances⟩⟩
  rcases exists_run_to_goal (fun _state other => other = label) measure same start with
    ⟨labels, final, short, meets, reaches, holds, done⟩
  exact ⟨labels.length, final, short, eq_replicate_of_stepsMeet meets reaches ▸ reaches,
    holds, done⟩

end Transition
end ShovelOS
