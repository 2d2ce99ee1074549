import Mathlib.Algebra.BigOperators.Fin
import Mathlib.Algebra.BigOperators.Group.List.Basic
import Mathlib.Algebra.Order.BigOperators.Group.List
import Mathlib.Algebra.Order.Field.Basic
import Mathlib.Order.Fin.Finset
import Mathlib.Tactic.Linarith
import Mathlib.Tactic.Ring

/-!
# The differences of all pairs of a list

The sum of `|x - y|` over all pairs of a list does not depend on the order of the list.
On a sorted list it is a weighted sum of the items: each item is weighted with its rank.
For non-negative items it is at most `n - 1` times their sum.
-/

namespace PairwiseDifference

universe u

variable {K : Type u} [Field K] [LinearOrder K]

/-- The differences of one value to the values of a list. -/
def differencesTo (value : K) (others : List K) : K :=
  (others.map fun other => |value - other|).sum

/-- The differences of all pairs. -/
def pairwiseSum : List K → K
  | [] => 0
  | value :: rest => differencesTo value rest + pairwiseSum rest

/-- The items weighted with their positions, counted from `start + 1`. -/
def rankedSum : K → List K → K
  | _, [] => 0
  | start, value :: rest => (start + 1) * value + rankedSum (start + 1) rest

theorem differencesTo_cons (value other : K) (rest : List K) :
    differencesTo value (other :: rest) = |value - other| + differencesTo value rest :=
  List.sum_cons

theorem differencesTo_perm (value : K) {others permuted : List K}
    (perm : others.Perm permuted) : differencesTo value others = differencesTo value permuted :=
  (perm.map _).sum_eq

theorem pairwiseSum_perm {values permuted : List K} (perm : values.Perm permuted) :
    pairwiseSum values = pairwiseSum permuted := by
  induction perm with
  | nil => rfl
  | cons value perm ih => rw [pairwiseSum, pairwiseSum, differencesTo_perm value perm, ih]
  | swap first second rest =>
      simp only [pairwiseSum, differencesTo_cons]
      rw [abs_sub_comm second first]
      ring
  | trans _ _ first second => exact first.trans second

/-- The sum over all pairs of positions. -/
theorem pairwiseSum_eq_sum (values : List K) :
    pairwiseSum values =
      ∑ first : Fin values.length, ∑ second ∈ Finset.Ioi first,
        |values[first] - values[second]| := by
  induction values with
  | nil => rfl
  | cons value rest ih =>
      have heads : differencesTo value rest =
          ∑ second : Fin rest.length, |value - rest[second]| := by
        rw [differencesTo, ← List.ofFn_getElem_eq_map, List.sum_ofFn]
        rfl
      rw [pairwiseSum, ih, heads]
      refine Eq.trans ?_ (Fin.sum_univ_succ (n := rest.length) _).symm
      simp [Fin.sum_Ioi_succ]

/-! ## Sorted lists -/

variable [IsStrictOrderedRing K]

theorem differencesTo_of_le {value : K} {others : List K}
    (below : ∀ other ∈ others, value ≤ other) :
    differencesTo value others = others.sum - others.length * value := by
  induction others with
  | nil => simp [differencesTo]
  | cons other rest ih =>
      have rises : |value - other| = other - value := by
        rw [abs_sub_comm, abs_of_nonneg (sub_nonneg.mpr (below other List.mem_cons_self))]
      rw [differencesTo_cons, rises, ih fun later member => below later (.tail _ member),
        List.sum_cons, List.length_cons]
      push_cast
      ring

/-- Ranks turn the differences of a sorted list into a weighted sum. -/
theorem two_mul_rankedSum {values : List K} (sorted : values.Pairwise (· ≤ ·)) (start : K) :
    2 * rankedSum start values =
      (2 * start + values.length + 1) * values.sum + pairwiseSum values := by
  induction values generalizing start with
  | nil => simp [rankedSum, pairwiseSum]
  | cons value rest ih =>
      obtain ⟨below, restSorted⟩ := List.pairwise_cons.mp sorted
      rw [rankedSum, pairwiseSum, differencesTo_of_le below, mul_add, ih restSorted,
        List.sum_cons, List.length_cons]
      push_cast
      ring

/-! ## Bounds -/

theorem differencesTo_nonneg (value : K) (others : List K) :
    0 ≤ differencesTo value others := by
  apply List.sum_nonneg
  intro difference member
  obtain ⟨other, -, rfl⟩ := List.mem_map.mp member
  exact abs_nonneg _

theorem pairwiseSum_nonneg (values : List K) : 0 ≤ pairwiseSum values := by
  induction values with
  | nil => exact le_rfl
  | cons value rest ih => exact add_nonneg (differencesTo_nonneg value rest) ih

theorem differencesTo_le {value : K} {others : List K} (nonneg : 0 ≤ value)
    (allNonneg : ∀ other ∈ others, 0 ≤ other) :
    differencesTo value others ≤ others.length * value + others.sum := by
  induction others with
  | nil => simp [differencesTo]
  | cons other rest ih =>
      have otherNonneg := allNonneg other List.mem_cons_self
      have apart : |value - other| ≤ value + other := by
        rw [abs_le]
        constructor
        · linarith
        · linarith
      have later := ih fun next member => allNonneg next (.tail _ member)
      rw [differencesTo_cons, List.sum_cons, List.length_cons]
      push_cast
      linarith

theorem pairwiseSum_le {values : List K} (nonneg : ∀ value ∈ values, 0 ≤ value) :
    pairwiseSum values ≤ (values.length - 1) * values.sum := by
  induction values with
  | nil => simp [pairwiseSum]
  | cons value rest ih =>
      have restNonneg : ∀ other ∈ rest, 0 ≤ other := fun other member =>
        nonneg other (.tail _ member)
      have heads := differencesTo_le (nonneg value List.mem_cons_self) restNonneg
      have tails := ih restNonneg
      rw [pairwiseSum, List.sum_cons, List.length_cons]
      push_cast
      linarith

theorem differencesTo_eq_zero_iff {value : K} {others : List K} :
    differencesTo value others = 0 ↔ ∀ other ∈ others, value = other := by
  induction others with
  | nil => simp [differencesTo]
  | cons other rest ih =>
      rw [differencesTo_cons, add_eq_zero_iff_of_nonneg (abs_nonneg _)
        (differencesTo_nonneg value rest), ih, abs_eq_zero, sub_eq_zero, List.forall_mem_cons]

/-- There is no difference exactly if all values are equal. -/
theorem pairwiseSum_eq_zero_iff {values : List K} :
    pairwiseSum values = 0 ↔ ∀ first ∈ values, ∀ second ∈ values, first = second := by
  induction values with
  | nil => simp [pairwiseSum]
  | cons value rest ih =>
      rw [pairwiseSum, add_eq_zero_iff_of_nonneg (differencesTo_nonneg value rest)
        (pairwiseSum_nonneg rest), ih, differencesTo_eq_zero_iff]
      constructor
      · rintro ⟨same, -⟩ first firstMember second secondMember
        have firstSame : ∀ other ∈ value :: rest, value = other := by
          intro other member
          rcases List.mem_cons.mp member with rfl | later
          · rfl
          · exact same other later
        rw [← firstSame first firstMember, ← firstSame second secondMember]
      · intro equal
        refine ⟨?_, ?_⟩
        · intro other member
          exact equal value List.mem_cons_self other (.tail _ member)
        · intro first firstMember second secondMember
          exact equal first (.tail _ firstMember) second (.tail _ secondMember)

/-! ## Scaling -/

theorem pairwiseSum_scale {factor : K} (nonneg : 0 ≤ factor) (values : List K) :
    pairwiseSum (values.map (factor * ·)) = factor * pairwiseSum values := by
  induction values with
  | nil => simp [pairwiseSum]
  | cons value rest ih =>
      have heads : differencesTo (factor * value) (rest.map (factor * ·)) =
          factor * differencesTo value rest := by
        rw [differencesTo, differencesTo, List.map_map, ← List.sum_map_mul_left]
        congr 1
        apply List.map_congr_left
        intro other _
        rw [Function.comp_apply, ← mul_sub, abs_mul, abs_of_nonneg nonneg]
      rw [List.map_cons, pairwiseSum, pairwiseSum, heads, ih, mul_add]

end PairwiseDifference
