import FlowCache.Library.StableSort
import Mathlib.Data.List.MinMax
import Mathlib.Data.Prod.Lex

/-!
# Points on a ring and their owners

Points lie on a ring at positions of a linear order.  Going clockwise from a target
one meets first the points at or after it and then, past the end of the order, those
before it.  The preference order of a target lists the owners of the points in the
order in which they are first met.  It is the stable sort of the owners by the first
point each of them has clockwise from the target.
-/

namespace HashRing

open StableSort

universe u v w

variable {Point : Type u} {Owner : Type v} {Position : Type w}
variable [LinearOrder Position]

/-- The points in the order in which they are met clockwise from a target. -/
def clockwise (position : Point → Position) (target : Position)
    (points : List Point) : List Point :=
  points.filter (fun point => target ≤ position point) ++
    points.filter fun point => position point < target

/-- How far clockwise a place lies: those before the target come after all others. -/
def clockwiseRank (target place : Position) : Lex (Bool × Position) :=
  toLex (decide (place < target), place)

theorem clockwiseRank_injective (target : Position) :
    Function.Injective (clockwiseRank target) := by
  intro left right same
  exact congrArg (fun rank => (ofLex rank).2) same

theorem clockwiseRank_le {target left right : Position}
    (le : left ≤ right) (side : (left < target ↔ right < target)) :
    clockwiseRank target left ≤ clockwiseRank target right := by
  rw [clockwiseRank, clockwiseRank, Prod.Lex.toLex_le_toLex]
  exact .inr ⟨by simp [side], le⟩

theorem clockwiseRank_lt {target left right : Position}
    (after : target ≤ left) (before : right < target) :
    clockwiseRank target left < clockwiseRank target right := by
  rw [clockwiseRank, clockwiseRank, Prod.Lex.toLex_lt_toLex]
  exact .inl (by simp [before, not_lt.mpr after])

variable {position : Point → Position}

theorem filter_clockwise (target : Position) (points : List Point)
    (keep : Point → Bool) :
    (clockwise position target points).filter keep =
      clockwise position target (points.filter keep) := by
  rw [clockwise, clockwise, List.filter_append, List.filter_comm,
    List.filter_comm keep]

/-- Points split at the target are met from the split on. -/
theorem clockwise_append {target : Position} {before after : List Point}
    (allBefore : ∀ point ∈ before, position point < target)
    (allAfter : ∀ point ∈ after, target ≤ position point) :
    clockwise position target (before ++ after) = after ++ before := by
  have beforeOut : before.filter (fun point => target ≤ position point) = [] := by
    apply List.filter_eq_nil_iff.mpr
    intro point member
    simpa using allBefore point member
  have afterOut : after.filter (fun point => position point < target) = [] := by
    apply List.filter_eq_nil_iff.mpr
    intro point member
    simpa using allAfter point member
  have beforeIn : before.filter (fun point => position point < target) = before := by
    apply List.filter_eq_self.mpr
    intro point member
    simpa using allBefore point member
  have afterIn : after.filter (fun point => target ≤ position point) = after := by
    apply List.filter_eq_self.mpr
    intro point member
    simpa using allAfter point member
  rw [clockwise, List.filter_append, List.filter_append, beforeOut, afterOut, beforeIn,
    afterIn, List.nil_append, List.append_nil]

theorem length_clockwise (target : Position) (points : List Point) :
    (clockwise position target points).length = points.length := by
  rw [clockwise, List.length_append, ← List.countP_eq_length_filter,
    ← List.countP_eq_length_filter, points.length_eq_countP_add_countP
      fun point => decide (target ≤ position point)]
  simp

private theorem sortedBy_clockwise {points : List Point}
    (sorted : SortedBy position points) (target : Position) :
    SortedBy (fun point => clockwiseRank target (position point))
      (clockwise position target points) := by
  refine List.pairwise_append.mpr ⟨?_, ?_, ?_⟩
  · refine (sorted.filter _).imp_of_mem ?_
    intro left right leftMem rightMem le
    simp only [List.mem_filter, decide_eq_true_eq] at leftMem rightMem
    exact clockwiseRank_le le
      (iff_of_false (not_lt.mpr leftMem.2) (not_lt.mpr rightMem.2))
  · refine (sorted.filter _).imp_of_mem ?_
    intro left right leftMem rightMem le
    simp only [List.mem_filter, decide_eq_true_eq] at leftMem rightMem
    exact clockwiseRank_le le (iff_of_true leftMem.2 rightMem.2)
  · intro left leftMem right rightMem
    simp only [List.mem_filter, decide_eq_true_eq] at leftMem rightMem
    exact (clockwiseRank_lt leftMem.2 rightMem.2).le

private theorem itemsAt_clockwiseRank (target place : Position) (points : List Point) :
    itemsAt (fun point => clockwiseRank target (position point)) points
        (clockwiseRank target place) =
      itemsAt position points place := by
  apply List.filter_congr
  intro point _
  simp only [(clockwiseRank_injective target).eq_iff]

private theorem itemsAt_clockwise (target place : Position) (points : List Point) :
    itemsAt position (clockwise position target points) place =
      itemsAt position points place := by
  rw [clockwise, itemsAt_append, itemsAt_filter, itemsAt_filter]
  by_cases before : place < target
  · rw [List.filter_eq_nil_iff.mpr, List.filter_eq_self.mpr, List.nil_append]
    · rintro point member
      simpa [(mem_itemsAt.mp member).2] using before
    · rintro point member
      simpa [(mem_itemsAt.mp member).2] using before
  · rw [List.filter_eq_self.mpr, List.filter_eq_nil_iff.mpr, List.append_nil]
    · rintro point member
      simpa [(mem_itemsAt.mp member).2] using before
    · rintro point member
      simpa [(mem_itemsAt.mp member).2] using before

/-- Going clockwise over points sorted by position is the stable sort of the points
by their distance. -/
theorem clockwise_stableSort (target : Position) (points : List Point) :
    clockwise position target (stableSort position points) =
      stableSort (fun point => clockwiseRank target (position point)) points := by
  apply eq_stableSort_of_itemsAt (sortedBy_clockwise (sortedBy_stableSort points) target)
  intro rank
  by_cases reached : ∃ place, clockwiseRank target place = rank
  · obtain ⟨place, rfl⟩ := reached
    rw [itemsAt_clockwiseRank, itemsAt_clockwiseRank, itemsAt_clockwise,
      itemsAt_stableSort]
  · have nothing : ∀ items : List Point,
        itemsAt (fun point => clockwiseRank target (position point)) items rank = [] := by
      intro items
      apply List.filter_eq_nil_iff.mpr
      intro point _ same
      exact reached ⟨position point, by simpa using same⟩
    rw [nothing, nothing]

/-- The first of some places clockwise from a target. -/
def nearest? (target : Position) (places : List Position) : Option Position :=
  places.argmin (clockwiseRank target)

/-! ## Preference order -/

section Owners

variable [DecidableEq Owner] {owner : Point → Owner}

/-- The owners of a list of points in the order in which they first occur. -/
def ownersInOrder (owner : Point → Owner) (points : List Point) : List Owner :=
  (points.map owner).eraseDups

@[simp] theorem ownersInOrder_nil : ownersInOrder owner [] = [] := rfl

theorem ownersInOrder_cons (point : Point) (rest : List Point) :
    ownersInOrder owner (point :: rest) =
      owner point ::
        ownersInOrder owner (rest.filter fun other => owner other ≠ owner point) := by
  rw [ownersInOrder, List.map_cons, List.eraseDups_cons, ownersInOrder,
    List.filter_map]
  congr 4
  funext other
  rw [Bool.eq_iff_iff]
  simp

@[simp] theorem mem_ownersInOrder {points : List Point} {name : Owner} :
    name ∈ ownersInOrder owner points ↔ ∃ point ∈ points, owner point = name := by
  rw [ownersInOrder, List.mem_eraseDups, List.mem_map]

/-- Induction along the points that are met: after each one, the points of its owner
no longer count. -/
private theorem ownersInOrder_induction (owner : Point → Owner)
    {motive : List Point → Prop} (nil : motive [])
    (cons : ∀ point rest,
      motive (rest.filter fun other => owner other ≠ owner point) →
        motive (point :: rest)) (points : List Point) : motive points := by
  induction size : points.length using Nat.strong_induction_on generalizing points with
  | _ size ih =>
      cases points with
      | nil => exact nil
      | cons point rest =>
          apply cons
          apply ih _ _ _ rfl
          rw [← size, List.length_cons, Nat.lt_succ_iff]
          exact List.length_filter_le ..

/-- Dropping the points of some owners drops these owners and moves no other. -/
theorem ownersInOrder_filter (points : List Point) (keep : Owner → Bool) :
    ownersInOrder owner (points.filter fun point => keep (owner point)) =
      (ownersInOrder owner points).filter keep := by
  induction points using ownersInOrder_induction owner with
  | nil => rfl
  | cons point rest ih =>
      rw [ownersInOrder_cons, List.filter_cons, List.filter_cons]
      split
      · rw [ownersInOrder_cons, List.filter_comm, ih]
      · next dropped =>
          rw [← ih, List.filter_filter]
          congr 1
          apply List.filter_congr
          intro other _
          by_cases same : owner other = owner point
          · simp [same, dropped]
          · simp [same]

/-- Points of owners that were met before add nothing. -/
theorem ownersInOrder_append_of_subset {points others : List Point}
    (met : ∀ point ∈ others, ∃ earlier ∈ points, owner earlier = owner point) :
    ownersInOrder owner (points ++ others) = ownersInOrder owner points := by
  rw [ownersInOrder, List.map_append, List.eraseDups_append]
  have nothing : (others.map owner).removeAll (points.map owner) = [] := by
    apply List.filter_eq_nil_iff.mpr
    intro name member
    obtain ⟨point, pointMem, rfl⟩ := List.mem_map.mp member
    obtain ⟨earlier, earlierMem, same⟩ := met point pointMem
    simpa using ⟨earlier, earlierMem, same⟩
  rw [nothing, List.eraseDups_nil, List.append_nil, ownersInOrder]

section Nearest

variable {Rank : Type*} [LinearOrder Rank] {rank : Point → Rank} {near : Owner → Rank}

/-- Owners first met along points sorted by rank come in the order of their lowest
ranks. -/
private theorem sortedBy_ownersInOrder {points : List Point}
    (sorted : SortedBy rank points)
    (least : ∀ point ∈ points, near (owner point) ≤ rank point)
    (attained : ∀ point ∈ points, ∃ first ∈ points,
      owner first = owner point ∧ rank first = near (owner point)) :
    SortedBy near (ownersInOrder owner points) := by
  induction points using ownersInOrder_induction owner with
  | nil => exact .nil
  | cons point rest ih =>
      obtain ⟨before, restSorted⟩ := List.pairwise_cons.mp sorted
      have head_le : ∀ other ∈ point :: rest, rank point ≤ rank other := by
        intro other member
        rcases List.mem_cons.mp member with rfl | later
        · exact le_rfl
        · exact before other later
      rw [ownersInOrder_cons]
      refine List.pairwise_cons.mpr ⟨?_, ?_⟩
      · intro name member
        obtain ⟨other, otherMem, rfl⟩ := mem_ownersInOrder.mp member
        have otherLater := List.mem_cons_of_mem point (List.mem_filter.mp otherMem).1
        obtain ⟨first, firstMem, -, same⟩ := attained other otherLater
        calc
          near (owner point) ≤ rank point := least point (List.mem_cons_self ..)
          _ ≤ rank first := head_le first firstMem
          _ = near (owner other) := same
      · apply ih (restSorted.sublist List.filter_sublist)
        · intro other member
          exact least other (List.mem_cons_of_mem _ (List.mem_filter.mp member).1)
        · intro other member
          obtain ⟨later, different⟩ := List.mem_filter.mp member
          obtain ⟨first, firstMem, sameOwner, same⟩ :=
            attained other (List.mem_cons_of_mem _ later)
          refine ⟨first, ?_, sameOwner, same⟩
          rcases List.mem_cons.mp firstMem with rfl | firstLater
          · simp [sameOwner] at different
          · rw [List.mem_filter, sameOwner]
            exact ⟨firstLater, different⟩

/-- Points listed owner by owner show the owners that have any. -/
private theorem ownersInOrder_flatMap {owners : List Owner} (nodup : owners.Nodup)
    {points : Owner → List Point}
    (owned : ∀ name ∈ owners, ∀ point ∈ points name, owner point = name) :
    ownersInOrder owner (owners.flatMap points) =
      owners.filter fun name => !(points name).isEmpty := by
  induction owners with
  | nil => rfl
  | cons name rest ih =>
      obtain ⟨fresh, restNodup⟩ := List.nodup_cons.mp nodup
      have ownedRest : ∀ other ∈ rest, ∀ point ∈ points other, owner point = other :=
        fun other member => owned other (List.mem_cons_of_mem _ member)
      rw [List.flatMap_cons, List.filter_cons]
      cases here : points name with
      | nil => simpa using ih restNodup ownedRest
      | cons point others =>
          have ownedHere : ∀ other ∈ points name, owner other = name :=
            owned name (List.mem_cons_self ..)
          rw [here] at ownedHere
          have pointOwner := ownedHere point (List.mem_cons_self ..)
          have dropped : others.filter (fun other => owner other ≠ owner point) = [] := by
            apply List.filter_eq_nil_iff.mpr
            intro other member
            simp [pointOwner, ownedHere other (List.mem_cons_of_mem _ member)]
          have kept : (rest.flatMap points).filter
              (fun other => owner other ≠ owner point) = rest.flatMap points := by
            apply List.filter_eq_self.mpr
            intro other member
            obtain ⟨name', nameMem, otherMem⟩ := List.mem_flatMap.mp member
            rw [ownedRest name' nameMem other otherMem, pointOwner]
            have different : name' ≠ name := by
              rintro rfl
              exact fresh nameMem
            simpa using different
          rw [List.cons_append, ownersInOrder_cons, List.filter_append, dropped, kept,
            List.nil_append, ih restNodup ownedRest, pointOwner]
          simp

/-- Where every owner has a point of the lowest rank, the points of that rank show all
owners. -/
private theorem ownersInOrder_itemsAt {points : List Point} {place : Rank}
    (sorted : SortedBy rank points)
    (lowest : ∀ point ∈ points, place ≤ rank point)
    (attained : ∀ point ∈ points, ∃ first ∈ points,
      owner first = owner point ∧ rank first = place) :
    ownersInOrder owner points = ownersInOrder owner (itemsAt rank points place) := by
  conv_lhs => rw [sorted.eq_itemsAt_append lowest]
  apply ownersInOrder_append_of_subset
  intro point member
  obtain ⟨first, firstMem, same, level⟩ := attained point (List.mem_filter.mp member).1
  exact ⟨first, mem_itemsAt.mpr ⟨firstMem, level⟩, same⟩

/-- The owners whose lowest rank is at one place are met among the points there. -/
private theorem itemsAt_ownersInOrder {points : List Point}
    (sorted : SortedBy rank points)
    (lowest : ∀ point ∈ points, near (owner point) ≤ rank point)
    (attained : ∀ point ∈ points, ∃ first ∈ points,
      owner first = owner point ∧ rank first = near (owner point)) (place : Rank) :
    itemsAt near (ownersInOrder owner points) place =
      itemsAt near (ownersInOrder owner (itemsAt rank points place)) place := by
  have met : ownersInOrder owner
      (points.filter fun point => decide (near (owner point) = place)) =
      ownersInOrder owner
        (itemsAt rank (points.filter fun point => decide (near (owner point) = place))
          place) := by
    apply ownersInOrder_itemsAt (sorted.filter _)
    · intro point member
      obtain ⟨pointMem, here⟩ := List.mem_filter.mp member
      rw [← of_decide_eq_true here]
      exact lowest point pointMem
    · intro point member
      obtain ⟨pointMem, here⟩ := List.mem_filter.mp member
      obtain ⟨first, firstMem, same, level⟩ := attained point pointMem
      refine ⟨first, List.mem_filter.mpr ⟨firstMem, ?_⟩, same, ?_⟩
      · rw [same, here]
      · rw [level, of_decide_eq_true here]
  rw [itemsAt, ← ownersInOrder_filter, met, itemsAt_filter,
    ownersInOrder_filter _ fun name => decide (near name = place), ← itemsAt]

/-- Owners first met along points sorted by rank are the stable sort of the owners by
their lowest ranks. -/
theorem ownersInOrder_stableSort {owners : List Owner} (nodup : owners.Nodup)
    {points : Owner → List Point}
    (owned : ∀ name ∈ owners, ∀ point ∈ points name, owner point = name)
    (attained : ∀ name ∈ owners, ∃ point ∈ points name, rank point = near name)
    (least : ∀ name ∈ owners, ∀ point ∈ points name, near name ≤ rank point) :
    ownersInOrder owner (stableSort rank (owners.flatMap points)) =
      stableSort near owners := by
  have bounds : ∀ point ∈ stableSort rank (owners.flatMap points),
      near (owner point) ≤ rank point ∧
        ∃ first ∈ stableSort rank (owners.flatMap points),
          owner first = owner point ∧ rank first = near (owner point) := by
    intro point member
    obtain ⟨name, nameMem, pointMem⟩ := List.mem_flatMap.mp (mem_stableSort.mp member)
    rw [owned name nameMem point pointMem]
    obtain ⟨first, firstMem, same⟩ := attained name nameMem
    exact ⟨least name nameMem point pointMem, first,
      mem_stableSort.mpr (List.mem_flatMap.mpr ⟨name, nameMem, firstMem⟩),
      owned name nameMem first firstMem, same⟩
  have lowest := fun point member => (bounds point member).1
  have reached := fun point member => (bounds point member).2
  have listed : ∀ place, itemsAt rank (owners.flatMap points) place =
      owners.flatMap fun name => itemsAt rank (points name) place :=
    fun place => List.filter_flatMap ..
  apply eq_stableSort_of_itemsAt
  · exact sortedBy_ownersInOrder (sortedBy_stableSort _) lowest reached
  · intro place
    have shown : ∀ name ∈ owners, near name = place →
        (itemsAt rank (points name) place).isEmpty = false := by
      intro name member here
      obtain ⟨point, pointMem, level⟩ := attained name member
      rw [List.isEmpty_eq_false_iff_exists_mem]
      exact ⟨point, mem_itemsAt.mpr ⟨pointMem, level.trans here⟩⟩
    rw [itemsAt_ownersInOrder (sortedBy_stableSort _) lowest reached, itemsAt_stableSort,
      listed, ownersInOrder_flatMap nodup, itemsAt, List.filter_filter]
    · apply List.filter_congr
      intro name member
      by_cases here : near name = place
      · simp [here, shown name member here]
      · simp [here]
    · intro name member point pointMem
      exact owned name member point (mem_itemsAt.mp pointMem).1

end Nearest

end Owners

end HashRing
