import Mathlib.Data.List.Sort

/-!
# Items of a given rank

In a list over a linear order, an item has rank `rank` if at least `rank` items are not
above it and fewer than `rank` are below it.  The items of a sorted list have the ranks
of their positions, and an item of a higher rank is not below one of a lower.
-/

namespace OrderStatistics

universe u

variable {Item : Type u} [LinearOrder Item]

/-- The item of a rank, counted from one. -/
structure HasRank (items : List Item) (rank : Nat) (value : Item) : Prop where
  mem : value ∈ items
  enough : rank ≤ items.countP (· ≤ value)
  fewer : items.countP (· < value) < rank

namespace HasRank

variable {items others : List Item} {rank higher : Nat} {value above : Item}

theorem perm (hasRank : HasRank items rank value) (perm : items.Perm others) :
    HasRank others rank value where
  mem := perm.mem_iff.mp hasRank.mem
  enough := perm.countP_eq _ ▸ hasRank.enough
  fewer := perm.countP_eq _ ▸ hasRank.fewer

theorem mono (hasRank : HasRank items rank value) (hasHigher : HasRank items higher above)
    (le : rank ≤ higher) : value ≤ above := by
  by_contra below
  have lt : above < value := not_le.mp below
  have counted : items.countP (· ≤ above) ≤ items.countP (· < value) := by
    apply List.countP_mono_left
    intro item _ small
    exact decide_eq_true ((of_decide_eq_true small).trans_lt lt)
  have contradiction : higher < rank :=
    (hasHigher.enough.trans counted).trans_lt hasRank.fewer
  exact absurd le (not_le.mpr contradiction)

end HasRank

variable {items : List Item}

/-- The items of a sorted list, counted from one. -/
theorem hasRank_getElem (sorted : items.Pairwise (· ≤ ·)) {index : Nat}
    (inside : index < items.length) : HasRank items (index + 1) items[index] where
  mem := List.getElem_mem inside
  enough := by
    have prior : ∀ item ∈ items.take (index + 1), decide (item ≤ items[index]) = true := by
      intro item member
      obtain ⟨other, bound, rfl⟩ := List.mem_take_iff_getElem.mp member
      rw [Nat.lt_min] at bound
      apply decide_eq_true
      rcases (Nat.le_of_lt_succ bound.1).eq_or_lt with rfl | before
      · exact le_rfl
      · exact List.pairwise_iff_getElem.mp sorted other index _ inside before
    have counted : (items.take (index + 1)).countP (· ≤ items[index]) = index + 1 := by
      rw [List.countP_eq_length.mpr prior, List.length_take, Nat.min_eq_left inside]
    rw [← counted]
    exact (List.take_sublist ..).countP_le
  fewer := by
    have later : ∀ item ∈ items.drop index, ¬decide (item < items[index]) = true := by
      intro item member
      obtain ⟨other, bound, rfl⟩ := List.mem_drop_iff_getElem.mp member
      rw [decide_eq_true_eq, not_lt]
      rcases (Nat.le_add_right index other).eq_or_lt with same | after
      · simp only [← same, le_refl]
      · exact List.pairwise_iff_getElem.mp sorted index _ inside _ after
    have split : items.countP (· < items[index]) =
        (items.take index).countP (· < items[index]) +
          (items.drop index).countP (· < items[index]) := by
      rw [← List.countP_append, List.take_append_drop]
    rw [split, List.countP_eq_zero.mpr later, Nat.add_zero, Nat.lt_succ_iff]
    exact List.countP_le_length.trans (List.length_take_le ..)

end OrderStatistics
