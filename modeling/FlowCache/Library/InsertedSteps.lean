import FlowCache.Library.Transition

/-!
# Runs with further steps put in

Two runs of one system are compared: the second takes the actions of the first and,
in between, further actions that are allowed where they are taken.  A relation between
the states of the two runs that the shared actions keep, and that the further actions
keep on the second side alone, makes both runs return the same.
-/

namespace Transition

universe u v w

variable {State : Type u} {Action : Type v} {Observation : Type w}
variable (step : State → Action → State)

/-- What the actions of a run return, in order; `none` is an action that returns
nothing. -/
def trace (observe : State → Action → Option Observation) :
    State → List Action → List Observation
  | _, [] => []
  | state, action :: rest =>
      match observe state action with
      | some observation => observation :: trace observe (step state action) rest
      | none => trace observe (step state action) rest

/-- The second list is the first one with further actions put in, each of them allowed
in the state that the run of the second list takes it from. -/
inductive Inserted (allowed : State → Action → Prop) :
    State → List Action → List Action → Prop where
  | nil (state : State) : Inserted allowed state [] []
  | keep {state : State} {actions longer : List Action} (action : Action) :
      Inserted allowed (step state action) actions longer →
        Inserted allowed state (action :: actions) (action :: longer)
  | insert {state : State} {actions longer : List Action} {action : Action} :
      allowed state action → Inserted allowed (step state action) actions longer →
        Inserted allowed state actions (action :: longer)

variable {step}
variable {observe : State → Action → Option Observation}
variable {allowed : State → Action → Prop}

theorem trace_cons_of_some {state : State} {action : Action} {observation : Observation}
    (returned : observe state action = some observation) (rest : List Action) :
    trace step observe state (action :: rest) =
      observation :: trace step observe (step state action) rest := by
  rw [trace, returned]

theorem trace_cons_of_none {state : State} {action : Action}
    (silent : observe state action = none) (rest : List Action) :
    trace step observe state (action :: rest) =
      trace step observe (step state action) rest := by
  rw [trace, silent]

/-- Taking the same action first leaves the two runs to agree on the rest. -/
theorem trace_cons_eq_iff {left right : State} {action : Action} {rest longer : List Action}
    (same : observe right action = observe left action) :
    trace step observe right (action :: longer) = trace step observe left (action :: rest) ↔
      trace step observe (step right action) longer =
        trace step observe (step left action) rest := by
  cases returned : observe left action with
  | none =>
      rw [trace_cons_of_none returned, trace_cons_of_none (same.trans returned)]
  | some observation =>
      rw [trace_cons_of_some returned, trace_cons_of_some (same.trans returned),
        List.cons.injEq]
      exact and_iff_right rfl

/-- Two systems whose related states return the same and stay related return the same
along every run. -/
theorem trace_eq_of_related {Other : Type w} {otherStep : Other → Action → Other}
    {otherObserve : Other → Action → Option Observation} {related : State → Other → Prop}
    (same : ∀ state other action, related state other →
      observe state action = otherObserve other action)
    (kept : ∀ state other action, related state other →
      related (step state action) (otherStep other action))
    {state : State} {other : Other} (initial : related state other) (actions : List Action) :
    trace step observe state actions = trace otherStep otherObserve other actions := by
  induction actions generalizing state other with
  | nil => rfl
  | cons action rest ih =>
      rw [trace, trace, same state other action initial,
        ih (kept state other action initial)]

/-- Every list is itself with nothing put in. -/
theorem Inserted.refl (state : State) (actions : List Action) :
    Inserted step allowed state actions actions := by
  induction actions generalizing state with
  | nil => exact .nil state
  | cons action rest ih => exact .keep action (ih (step state action))

/-- The further actions change nothing that the shared ones return.  Every shared action
meets `condition` in the first run, every action of the second run meets `side`. -/
theorem Inserted.trace_eq {related : State → State → Prop}
    {condition side : State → Action → Prop} {left right : State}
    {actions longer : List Action}
    (kept : ∀ left right action, related left right → condition left action →
      side right action → observe right action = observe left action ∧
        related (step left action) (step right action))
    (unseen : ∀ left right action, related left right → allowed right action →
      side right action → observe right action = none ∧ related left (step right action))
    (inserted : Inserted step allowed right actions longer)
    (initial : related left right)
    (every : EveryStep step condition left actions)
    (other : EveryStep step side right longer) :
    trace step observe right longer = trace step observe left actions := by
  induction inserted generalizing left with
  | nil state => rfl
  | keep action _ ih =>
      obtain ⟨same, next⟩ := kept _ _ _ initial every.1 other.1
      rw [trace_cons_eq_iff same]
      exact ih next every.2 other.2
  | insert permitted _ ih =>
      obtain ⟨silent, next⟩ := unseen _ _ _ initial permitted other.1
      rw [trace_cons_of_none silent]
      exact ih next every other.2

end Transition
