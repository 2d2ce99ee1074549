import FlowCache.Eviction.WorkloadMonitor
import FlowCache.Library.PairwiseDifference

/-!
# The Gini coefficient

`giniCoefficient` computes the coefficient from the ranks of the sorted values.  That is
the sum of the differences of all pairs over `n` times the sum of the values, which lies
between 0 and `(n - 1) / n`, so clamping it to `[0, 1]` changes nothing.
-/

namespace FlowCache

open PairwiseDifference

/-- `gini` of `giniCoefficient`, before it is clamped. -/
def unclampedGini (values : List Rat) : Rat :=
  let sorted := values.insertionSort (· ≤ ·)
  let n : Rat := sorted.length
  let sum := sorted.foldl (· + ·) 0
  let weightedCumulative := sorted.zipIdx.foldl
    (fun total indexed => total + ((indexed.2 : Rat) + 1) * indexed.1) 0
  2 * weightedCumulative / (n * sum) - (n + 1) / n

theorem giniCoefficient_eq_clamp {values : List Rat} (nonempty : values ≠ [])
    (nonzero : (values.insertionSort (· ≤ ·)).foldl (· + ·) 0 ≠ 0) :
    giniCoefficient values = max 0 (min 1 (unclampedGini values)) := by
  rw [giniCoefficient, if_neg nonempty]
  exact if_neg nonzero

/-- The loop over the sorted values, from any index on. -/
theorem foldl_zipIdx_eq_rankedSum (values : List Rat) (start : Nat) (total : Rat) :
    (values.zipIdx start).foldl
        (fun total indexed => total + ((indexed.2 : Rat) + 1) * indexed.1) total =
      total + rankedSum (start : Rat) values := by
  induction values generalizing start total with
  | nil => simp [rankedSum]
  | cons value rest ih =>
      rw [List.zipIdx_cons, List.foldl_cons, ih, rankedSum]
      push_cast
      ring

theorem sum_insertionSort (values : List Rat) :
    (values.insertionSort (· ≤ ·)).foldl (· + ·) 0 = values.sum := by
  rw [← List.sum_eq_foldl]
  exact (List.perm_insertionSort (· ≤ ·) values).sum_eq

/-- The rank formula is the sum over all pairs. -/
theorem unclampedGini_eq {values : List Rat} (nonempty : values ≠ []) (nonzero : values.sum ≠ 0) :
    unclampedGini values = pairwiseSum values / (values.length * values.sum) := by
  have perm := List.perm_insertionSort (· ≤ ·) values
  have ranked := two_mul_rankedSum (List.pairwise_insertionSort (· ≤ ·) values) 0
  rw [perm.length_eq, perm.sum_eq, pairwiseSum_perm perm] at ranked
  have count : (values.length : Rat) ≠ 0 := by
    rw [Nat.cast_ne_zero]
    exact fun none => nonempty (List.length_eq_zero_iff.mp none)
  have weighted : 2 * (values.insertionSort (· ≤ ·)).zipIdx.foldl
      (fun total indexed => total + ((indexed.2 : Rat) + 1) * indexed.1) 0 =
        (values.length + 1) * values.sum + pairwiseSum values := by
    rw [foldl_zipIdx_eq_rankedSum, zero_add, Nat.cast_zero, ranked]
    ring
  simp only [unclampedGini]
  rw [sum_insertionSort, perm.length_eq, weighted]
  field_simp
  ring

section Values

variable {values : List Rat}

/-- Non-negative values with a positive sum. -/
structure Distribution (values : List Rat) : Prop where
  nonneg : ∀ value ∈ values, 0 ≤ value
  positive : 0 < values.sum

namespace Distribution

theorem nonempty (distribution : Distribution values) : values ≠ [] := by
  rintro rfl
  exact absurd distribution.positive (lt_irrefl _)

theorem length_pos (distribution : Distribution values) : (0 : Rat) < values.length := by
  rw [Nat.cast_pos]
  exact List.length_pos_iff.mpr distribution.nonempty

theorem pairwise_bounds (distribution : Distribution values) :
    0 ≤ pairwiseSum values / (values.length * values.sum) ∧
      pairwiseSum values / (values.length * values.sum) ≤
        (values.length - 1) / values.length := by
  have count := distribution.length_pos
  have positive := distribution.positive
  constructor
  · exact div_nonneg (pairwiseSum_nonneg values) (mul_pos count positive).le
  · rw [div_le_div_iff₀ (mul_pos count positive) count]
    have bound := mul_le_mul_of_nonneg_right (pairwiseSum_le distribution.nonneg) count.le
    linarith

/-- Clamping changes nothing. -/
theorem gini_eq_unclamped (distribution : Distribution values) :
    giniCoefficient values = unclampedGini values := by
  have nonzero : values.sum ≠ 0 := distribution.positive.ne'
  obtain ⟨low, high⟩ := distribution.pairwise_bounds
  have below : ((values.length : Rat) - 1) / values.length ≤ 1 := by
    rw [div_le_one distribution.length_pos]
    linarith
  rw [giniCoefficient_eq_clamp distribution.nonempty (by rwa [sum_insertionSort]),
    unclampedGini_eq distribution.nonempty nonzero, min_eq_right (high.trans below),
    max_eq_right low]

theorem gini_eq (distribution : Distribution values) :
    giniCoefficient values = pairwiseSum values / (values.length * values.sum) := by
  rw [distribution.gini_eq_unclamped,
    unclampedGini_eq distribution.nonempty distribution.positive.ne']

theorem scale (distribution : Distribution values) {factor : Rat} (positive : 0 < factor) :
    Distribution (values.map (factor * ·)) where
  nonneg := by
    intro scaled member
    obtain ⟨value, original, rfl⟩ := List.mem_map.mp member
    exact mul_nonneg positive.le (distribution.nonneg value original)
  positive := by
    rw [List.sum_map_mul_left, List.map_id']
    exact mul_pos positive distribution.positive

theorem gini_scale (distribution : Distribution values) {factor : Rat}
    (positive : 0 < factor) :
    giniCoefficient (values.map (factor * ·)) = giniCoefficient values := by
  rw [(distribution.scale positive).gini_eq, distribution.gini_eq,
    pairwiseSum_scale positive.le, List.length_map, List.sum_map_mul_left, List.map_id',
    mul_left_comm]
  exact mul_div_mul_left _ _ positive.ne'

end Distribution

/-- The coefficient is the sum over all pairs over `n` times the sum of the values; it
does not depend on their order or scale, it is not clamped, and it is zero exactly for
equal values. -/
theorem gini_coefficient_spec (nonneg : ∀ value ∈ values, 0 ≤ value)
    (positive : 0 < values.sum) :
    giniCoefficient values =
        (∑ first : Fin values.length, ∑ second ∈ Finset.Ioi first,
          |values[first] - values[second]|) / (values.length * values.sum) ∧
      (∀ others, values.Perm others → giniCoefficient others = giniCoefficient values) ∧
      (∀ factor, 0 < factor →
        giniCoefficient (values.map (factor * ·)) = giniCoefficient values) ∧
      (0 ≤ giniCoefficient values ∧
        giniCoefficient values ≤ (values.length - 1) / values.length) ∧
      giniCoefficient values = unclampedGini values ∧
      (giniCoefficient values = 0 ↔ ∀ first ∈ values, ∀ second ∈ values, first = second) := by
  have distribution : Distribution values := ⟨nonneg, positive⟩
  have formula := distribution.gini_eq
  refine ⟨?_, ?_, ?_, ?_, distribution.gini_eq_unclamped, ?_⟩
  · rw [formula, pairwiseSum_eq_sum]
  · intro others perm
    have permuted : Distribution others := by
      refine ⟨fun value member => nonneg value (perm.mem_iff.mpr member), ?_⟩
      rwa [← perm.sum_eq]
    rw [permuted.gini_eq, formula, pairwiseSum_perm perm, perm.length_eq, perm.sum_eq]
  · intro factor factorPositive
    exact distribution.gini_scale factorPositive
  · rw [formula]
    exact distribution.pairwise_bounds
  · rw [formula, div_eq_zero_iff, or_iff_left (mul_pos distribution.length_pos positive).ne',
      pairwiseSum_eq_zero_iff]

/-- One hot key among four. -/
theorem gini_coefficient_one_hot :
    (∀ value ∈ ([1, 9, 1, 1] : List Rat), 0 ≤ value) ∧ 0 < ([1, 9, 1, 1] : List Rat).sum ∧
      giniCoefficient [1, 9, 1, 1] ≤ (4 - 1) / 4 := by
  have nonneg : ∀ value ∈ ([1, 9, 1, 1] : List Rat), 0 ≤ value := by simp
  have positive : 0 < ([1, 9, 1, 1] : List Rat).sum := by norm_num
  refine ⟨nonneg, positive, ?_⟩
  simpa using (gini_coefficient_spec nonneg positive).2.2.2.1.2

end Values

end FlowCache
