import Mathlib.Order.Basic

/-!
# Binary search for a lower bound

A range of positions starts with those that come before what is searched and goes on with
those that do not.  Halving the range finds where it changes.
-/

namespace LowerBound

variable {before : Nat → Bool} {lo hi : Nat}

/-- Halve the range until it is empty. -/
def search (before : Nat → Bool) (lo hi : Nat) : Nat :=
  if lo < hi then
    let mid := (lo + hi) / 2
    if before mid then search before (mid + 1) hi else search before lo mid
  else
    lo
termination_by hi - lo

/-- Once a position does not come before, no later one does. -/
def Downward (before : Nat → Bool) (lo hi : Nat) : Prop :=
  ∀ first second, lo ≤ first → first ≤ second → second < hi →
    before second = true → before first = true

/-- The position at which the range changes. -/
structure IsLowerBound (before : Nat → Bool) (lo hi position : Nat) : Prop where
  low : lo ≤ position
  high : position ≤ hi
  earlier : ∀ other, lo ≤ other → other < position → before other = true
  change : position < hi → before position = false

/-- The search stays in its range. -/
theorem search_mem (before : Nat → Bool) {lo hi : Nat} (order : lo ≤ hi) :
    lo ≤ search before lo hi ∧ search before lo hi ≤ hi := by
  fun_induction search before lo hi with
  | case1 lo hi apart mid isBefore ih =>
      have found := ih (by omega)
      omega
  | case2 lo hi apart mid notBefore ih =>
      have found := ih (by omega)
      omega
  | case3 lo hi met => omega

theorem isLowerBound_search (order : lo ≤ hi) (downward : Downward before lo hi) :
    IsLowerBound before lo hi (search before lo hi) := by
  fun_induction search before lo hi with
  | case1 lo hi apart mid isBefore ih =>
      have found := ih (by omega) fun first second low => downward first second (by omega)
      constructor
      case low => exact Nat.le_trans (by omega) found.low
      case high => exact found.high
      case change => exact found.change
      case earlier =>
        intro other low below
        by_cases left : other ≤ mid
        · exact downward other mid low left (by omega) isBefore
        · exact found.earlier other (by omega) below
  | case2 lo hi apart mid notBefore ih =>
      have found := ih (by omega) fun first second low between high =>
        downward first second low between (by omega)
      constructor
      case low => exact found.low
      case high => exact Nat.le_trans found.high (by omega)
      case earlier => exact found.earlier
      case change =>
        intro _
        rcases Nat.lt_or_eq_of_le found.high with inside | atMid
        · exact found.change inside
        · rw [atMid]
          simpa using notBefore
  | case3 lo hi met =>
      exact ⟨Nat.le_refl _, order, fun other low below => by omega,
        fun below => absurd below met⟩

/-- There is only one such position. -/
theorem IsLowerBound.unique {first second : Nat} (isFirst : IsLowerBound before lo hi first)
    (isSecond : IsLowerBound before lo hi second) : first = second := by
  rcases Nat.lt_trichotomy first second with less | same | more
  · have changed := isFirst.change (Nat.lt_of_lt_of_le less isSecond.high)
    rw [isSecond.earlier first isFirst.low less] at changed
    cases changed
  · exact same
  · have changed := isSecond.change (Nat.lt_of_lt_of_le more isFirst.high)
    rw [isFirst.earlier second isSecond.low more] at changed
    cases changed

end LowerBound
