import Mathlib.Data.List.Infix

/-!
# Histories

A history is a list of events with the newest one first.  What an event needs may
only lie before it, so a safety property of a history is a relation between each
event and the events earlier than it.
-/

namespace History

universe u

variable {Event : Type u} {explains : List Event → Event → Prop}

/-- Every event of the history is explained by the events before it. -/
def EachExplained (explains : List Event → Event → Prop) (history : List Event) :
    Prop :=
  ∀ event earlier, event :: earlier <:+ history → explains earlier event

theorem eachExplained_nil : EachExplained explains [] := by
  intro event earlier suffix
  exact absurd (List.suffix_nil.mp suffix) (List.cons_ne_nil event earlier)

/-- One more event has to be explained by the history it is added to. -/
theorem EachExplained.cons {event : Event} {history : List Event}
    (explained : EachExplained explains history) (explains_event : explains history event) :
    EachExplained explains (event :: history) := by
  intro other earlier suffix
  rcases List.suffix_cons_iff.mp suffix with same | suffix
  · cases same
    exact explains_event
  · exact explained other earlier suffix

end History
