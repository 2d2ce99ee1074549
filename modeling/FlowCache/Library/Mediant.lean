import Mathlib.Algebra.BigOperators.Ring.List
import Mathlib.Algebra.Order.BigOperators.Group.List
import Mathlib.Algebra.Order.Ring.Defs
import Mathlib.Tactic.Contrapose

/-!
# The ratio of sums

The ratio of two sums is a weighted mean of the ratios of their terms: one of these is not
above it, and one is not below.  Ratios are compared crosswise, so nothing is divided, and
terms of weight zero count for nothing.
-/

namespace Mediant

variable {Part R : Type} [CommSemiring R]
variable {parts : List Part} {amount weight : Part → R}

theorem exists_weighted (total : (parts.map weight).sum ≠ 0) :
    ∃ part ∈ parts, weight part ≠ 0 := by
  by_contra none
  push Not at none
  apply total
  apply List.sum_eq_zero
  intro value member
  obtain ⟨part, listed, rfl⟩ := List.mem_map.mp member
  exact none part listed

theorem sum_cross :
    (parts.map fun part => amount part * (parts.map weight).sum).sum =
      (parts.map fun part => (parts.map amount).sum * weight part).sum := by
  rw [List.sum_map_mul_right, List.sum_map_mul_left]

variable [LinearOrder R] [IsStrictOrderedRing R]

/-- If all weighted terms were on one side, so would be the sums. -/
theorem exists_cross {first second : Part → R}
    (sums : (parts.map first).sum = (parts.map second).sum)
    (nothing : ∀ part ∈ parts, weight part = 0 → first part = second part)
    (some : ∃ part ∈ parts, weight part ≠ 0) :
    ∃ part ∈ parts, weight part ≠ 0 ∧ first part ≤ second part := by
  by_contra none
  push Not at none
  refine sums.not_gt (List.sum_lt_sum second first ?_ ?_)
  · intro part member
    by_cases zero : weight part = 0
    · exact (nothing part member zero).ge
    · exact (none part member zero).le
  · obtain ⟨part, member, nonzero⟩ := some
    exact ⟨part, member, none part member nonzero⟩

/-- One of the ratios is at most the ratio of the sums. -/
theorem exists_le (nothing : ∀ part ∈ parts, weight part = 0 → amount part = 0)
    (total : (parts.map weight).sum ≠ 0) :
    ∃ part ∈ parts, weight part ≠ 0 ∧
      amount part * (parts.map weight).sum ≤ (parts.map amount).sum * weight part := by
  refine exists_cross sum_cross ?_ (exists_weighted total)
  intro part member zero
  rw [nothing part member zero, zero, zero_mul, mul_zero]

/-- One of the ratios is at least the ratio of the sums. -/
theorem exists_ge (nothing : ∀ part ∈ parts, weight part = 0 → amount part = 0)
    (total : (parts.map weight).sum ≠ 0) :
    ∃ part ∈ parts, weight part ≠ 0 ∧
      (parts.map amount).sum * weight part ≤ amount part * (parts.map weight).sum := by
  refine exists_cross sum_cross.symm ?_ (exists_weighted total)
  intro part member zero
  rw [nothing part member zero, zero, zero_mul, mul_zero]

end Mediant
