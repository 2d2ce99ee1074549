import Mathlib.Data.List.Basic

/-!
# Runs of a deterministic transition system

A system is a step function from a state and an action to the next state.  A run
takes a list of actions in order.  The rules below lift a fact about one step to
a fact about every run: an invariant, an invariant under a condition that each
step meets, and the equivalence of two step conditions along a run.
-/

namespace Transition

universe u v

variable {State : Type u} {Action : Type v} (step : State → Action → State)

/-- The state reached by taking a list of actions in order. -/
def run (state : State) (actions : List Action) : State :=
  actions.foldl step state

@[simp] theorem run_nil (state : State) : run step state [] = state := rfl

@[simp] theorem run_cons (state : State) (action : Action) (rest : List Action) :
    run step state (action :: rest) = run step (step state action) rest := rfl

theorem run_append (state : State) (first second : List Action) :
    run step state (first ++ second) = run step (run step state first) second :=
  List.foldl_append

/-- Every action of the list meets `condition` in the state it is taken from. -/
def EveryStep (condition : State → Action → Prop) : State → List Action → Prop
  | _, [] => True
  | state, action :: rest =>
      condition state action ∧ EveryStep condition (step state action) rest

instance decidableEveryStep {condition : State → Action → Prop}
    [∀ state action, Decidable (condition state action)] :
    (state : State) → (actions : List Action) →
      Decidable (EveryStep step condition state actions)
  | _, [] => isTrue trivial
  | state, action :: rest =>
      have : Decidable (EveryStep step condition (step state action) rest) :=
        decidableEveryStep (step state action) rest
      inferInstanceAs (Decidable (condition state action ∧ _))

variable {step}
variable {condition other : State → Action → Prop}

@[simp] theorem everyStep_nil (state : State) :
    EveryStep step condition state [] := trivial

@[simp] theorem everyStep_cons (state : State) (action : Action)
    (rest : List Action) :
    EveryStep step condition state (action :: rest) ↔
      condition state action ∧ EveryStep step condition (step state action) rest :=
  Iff.rfl

theorem everyStep_append (state : State) (first second : List Action) :
    EveryStep step condition state (first ++ second) ↔
      EveryStep step condition state first ∧
        EveryStep step condition (run step state first) second := by
  induction first generalizing state with
  | nil => simp
  | cons action rest ih => simp [ih, and_assoc]

theorem everyStep_of_forall (holds : ∀ state action, condition state action)
    (state : State) (actions : List Action) :
    EveryStep step condition state actions := by
  induction actions generalizing state with
  | nil => trivial
  | cons action rest ih => exact ⟨holds state action, ih (step state action)⟩

theorem everyStep_of_forall_mem {actions : List Action}
    (holds : ∀ state, ∀ action ∈ actions, condition state action) (state : State) :
    EveryStep step condition state actions := by
  induction actions generalizing state with
  | nil => trivial
  | cons action rest ih =>
      exact ⟨holds state action List.mem_cons_self,
        ih (fun state other member => holds state other (List.mem_cons_of_mem _ member)) _⟩

/-- Two conditions that hold along a run hold together along it. -/
theorem EveryStep.and {state : State} {actions : List Action}
    (first : EveryStep step condition state actions)
    (second : EveryStep step other state actions) :
    EveryStep step (fun state action => condition state action ∧ other state action)
      state actions := by
  induction actions generalizing state with
  | nil => trivial
  | cons action rest ih =>
      exact ⟨⟨first.1, second.1⟩, ih first.2 second.2⟩

/-- Invariant rule under a step condition: what every step that meets the
condition preserves, every run whose steps all meet it preserves. -/
theorem EveryStep.invariant {invariant : State → Prop} {state : State}
    {actions : List Action}
    (preserved : ∀ state action, invariant state → condition state action →
      invariant (step state action))
    (initial : invariant state)
    (every : EveryStep step condition state actions) :
    invariant (run step state actions) := by
  induction actions generalizing state with
  | nil => exact initial
  | cons action rest ih =>
      exact ih (preserved _ _ initial every.1) every.2

/-- What an invariant gives at each step holds along every run that keeps it. -/
theorem EveryStep.of_invariant {invariant : State → Prop} {state : State}
    {actions : List Action}
    (preserved : ∀ state action, invariant state → condition state action →
      invariant (step state action))
    (gives : ∀ state action, invariant state → condition state action →
      other state action)
    (initial : invariant state)
    (every : EveryStep step condition state actions) :
    EveryStep step other state actions := by
  induction actions generalizing state with
  | nil => trivial
  | cons action rest ih =>
      exact ⟨gives _ _ initial every.1, ih (preserved _ _ initial every.1) every.2⟩

/-- Invariant rule: what every step preserves, every run preserves. -/
theorem run_invariant {invariant : State → Prop} {state : State}
    (preserved : ∀ state action, invariant state → invariant (step state action))
    (initial : invariant state) (actions : List Action) :
    invariant (run step state actions) := by
  induction actions generalizing state with
  | nil => exact initial
  | cons action rest ih => exact ih (preserved _ _ initial)

/-- Two step conditions hold along the same runs when they agree in every state that
satisfies the invariant, as long as the second one carries the invariant on.  Both may
rely on a side condition that every step of the run meets. -/
theorem everyStep_iff {side : State → Action → Prop} {invariant : State → Prop}
    {state : State} {actions : List Action}
    (preserved : ∀ state action, invariant state → side state action →
      other state action → invariant (step state action))
    (exact_step : ∀ state action, invariant state → side state action →
      (condition state action ↔ other state action))
    (initial : invariant state) (every : EveryStep step side state actions) :
    EveryStep step condition state actions ↔ EveryStep step other state actions := by
  induction actions generalizing state with
  | nil => simp
  | cons action rest ih =>
      simp only [everyStep_cons]
      rw [exact_step _ _ initial every.1]
      exact and_congr_right fun holds =>
        ih (preserved _ _ initial every.1 holds) every.2

/-- The same for a goal: in every state that satisfies the invariant and in which the
goal holds, the condition is met exactly by the steps that reach the goal again.  The
invariant need only survive such steps. -/
theorem everyStep_iff_goal {side : State → Action → Prop}
    {invariant goal : State → Prop} {state : State} {actions : List Action}
    (preserved : ∀ state action, invariant state → goal state → side state action →
      goal (step state action) → invariant (step state action))
    (exact_step : ∀ state action, invariant state → goal state →
      side state action → (condition state action ↔ goal (step state action)))
    (initial : invariant state) (start : goal state)
    (every : EveryStep step side state actions) :
    EveryStep step condition state actions ↔
      EveryStep step (fun state action => goal (step state action))
        state actions := by
  refine @everyStep_iff _ _ step condition _ side
    (fun state => invariant state ∧ goal state) state actions ?_ ?_ ⟨initial, start⟩ every
  · intro state action both met reached
    exact ⟨preserved state action both.1 both.2 met reached, reached⟩
  · intro state action both met
    exact exact_step state action both.1 both.2 met

/-- Actions that commute up to an equivalence lead to equivalent states in any order, as
long as the steps respect the equivalence. -/
theorem run_perm {same : State → State → Prop} (equivalence : Equivalence same)
    (respects : ∀ first second action, same first second →
      same (step first action) (step second action))
    (commutes : ∀ state action next,
      same (step (step state action) next) (step (step state next) action))
    {actions others : List Action} (perm : actions.Perm others) (state : State) :
    same (run step state actions) (run step state others) := by
  have runs : ∀ (rest : List Action) first second, same first second →
      same (run step first rest) (run step second rest) := by
    intro rest
    induction rest with
    | nil => exact fun _ _ equal => equal
    | cons action rest ih => exact fun first second equal => ih _ _ (respects _ _ action equal)
  induction perm generalizing state with
  | nil => exact equivalence.refl _
  | cons action _ ih => exact ih (step state action)
  | swap first second rest => exact runs rest _ _ (commutes state second first)
  | trans _ _ ih₁ ih₂ => exact equivalence.trans (ih₁ state) (ih₂ state)

end Transition
