import Mathlib.Data.List.Sort

/-!
# Stable sorting by a position

Items are sorted by a position in a linear order; items at one position keep the
order they had.  A list sorted by position is determined by what it holds at each
position, and the stable sort changes nothing there.  That it commutes with
filtering, and that a sorted part may be sorted again, follow from these two facts.
-/

namespace StableSort

universe u v

variable {Item : Type u} {Position : Type v} [LinearOrder Position]

/-- Sort by position, keeping the order of items at the same position. -/
def stableSort (position : Item → Position) (items : List Item) : List Item :=
  items.insertionSort fun left right => position left ≤ position right

/-- The positions along the list never decrease. -/
def SortedBy (position : Item → Position) (items : List Item) : Prop :=
  items.Pairwise fun left right => position left ≤ position right

variable {position : Item → Position}

theorem sortedBy_stableSort (items : List Item) :
    SortedBy position (stableSort position items) := by
  have total : Std.Total fun left right : Item => position left ≤ position right :=
    ⟨fun left right => le_total (position left) (position right)⟩
  have trans : IsTrans Item fun left right => position left ≤ position right :=
    ⟨fun _ _ _ => le_trans⟩
  exact List.pairwise_insertionSort _ items

theorem perm_stableSort (items : List Item) :
    (stableSort position items).Perm items :=
  List.perm_insertionSort _ items

@[simp] theorem mem_stableSort {items : List Item} {item : Item} :
    item ∈ stableSort position items ↔ item ∈ items :=
  (perm_stableSort items).mem_iff

theorem SortedBy.filter {items : List Item} (sorted : SortedBy position items)
    (keep : Item → Bool) : SortedBy position (items.filter keep) :=
  sorted.sublist List.filter_sublist

/-! ## What stands at one position -/

/-- The items at one position, in the order of the list. -/
def itemsAt (position : Item → Position) (items : List Item) (place : Position) :
    List Item :=
  items.filter fun item => position item = place

@[simp] theorem mem_itemsAt {items : List Item} {place : Position} {item : Item} :
    item ∈ itemsAt position items place ↔ item ∈ items ∧ position item = place := by
  simp [itemsAt]

theorem itemsAt_append (first second : List Item) (place : Position) :
    itemsAt position (first ++ second) place =
      itemsAt position first place ++ itemsAt position second place :=
  List.filter_append ..

theorem itemsAt_filter (items : List Item) (keep : Item → Bool) (place : Position) :
    itemsAt position (items.filter keep) place =
      (itemsAt position items place).filter keep :=
  List.filter_comm ..

private theorem itemsAt_orderedInsert (item : Item) (items : List Item)
    (place : Position) :
    itemsAt position
        (items.orderedInsert (fun left right => position left ≤ position right) item)
        place =
      itemsAt position (item :: items) place := by
  induction items with
  | nil => rfl
  | cons head rest ih =>
      rw [List.orderedInsert_cons]
      split
      · rfl
      · next before =>
          simp only [itemsAt, List.filter_cons] at ih ⊢
          rw [ih]
          by_cases here : position item = place
          · have elsewhere : position head ≠ place := by
              intro same
              exact before (by rw [here, same])
            simp [here, elsewhere]
          · simp [here]

/-- Stability: sorting changes nothing at any position. -/
theorem itemsAt_stableSort (items : List Item) (place : Position) :
    itemsAt position (stableSort position items) place =
      itemsAt position items place := by
  induction items with
  | nil => rfl
  | cons item rest ih =>
      rw [stableSort, List.insertionSort_cons, itemsAt_orderedInsert]
      simp only [itemsAt, List.filter_cons, stableSort] at ih ⊢
      rw [ih]

/-! ## A sorted list is determined by its positions -/

private theorem SortedBy.head_le {item : Item} {rest : List Item}
    (sorted : SortedBy position (item :: rest)) {other : Item}
    (member : other ∈ item :: rest) : position item ≤ position other := by
  rcases List.mem_cons.mp member with rfl | later
  · exact le_rfl
  · exact (List.pairwise_cons.mp sorted).1 other later

/-- Two sorted lists that hold the same at every position are equal. -/
theorem SortedBy.eq_of_itemsAt {first second : List Item}
    (firstSorted : SortedBy position first) (secondSorted : SortedBy position second)
    (same : ∀ place, itemsAt position first place = itemsAt position second place) :
    first = second := by
  have sameMember : ∀ item, item ∈ first ↔ item ∈ second := by
    intro item
    have members := congrArg (item ∈ ·) (same (position item))
    simpa using members
  induction first generalizing second with
  | nil =>
      cases second with
      | nil => rfl
      | cons item rest => simpa using sameMember item
  | cons item rest ih =>
      cases second with
      | nil => simpa using sameMember item
      | cons other others =>
          have level : position item = position other := by
            apply le_antisymm
            · exact firstSorted.head_le ((sameMember other).mpr (List.mem_cons_self ..))
            · exact secondSorted.head_le ((sameMember item).mp (List.mem_cons_self ..))
          have here := same (position item)
          simp only [itemsAt, List.filter_cons, level, decide_true, if_true] at here
          obtain ⟨rfl, -⟩ := List.cons.inj here
          have sameRest : ∀ place,
              itemsAt position rest place = itemsAt position others place := by
            intro place
            have there := same place
            simp only [itemsAt, List.filter_cons] at there ⊢
            split at there
            · exact (List.cons.inj there).2
            · exact there
          rw [ih (List.pairwise_cons.mp firstSorted).2
            (List.pairwise_cons.mp secondSorted).2 sameRest]
          intro member
          have members := congrArg (member ∈ ·) (sameRest (position member))
          simpa using members

/-- A sorted list starts with its items at the lowest position. -/
theorem SortedBy.eq_itemsAt_append {items : List Item} {place : Position}
    (sorted : SortedBy position items) (lowest : ∀ item ∈ items, place ≤ position item) :
    items = itemsAt position items place ++
      items.filter fun item => place < position item := by
  induction items with
  | nil => rfl
  | cons item rest ih =>
      have restSplit := ih (List.pairwise_cons.mp sorted).2 fun other member =>
        lowest other (List.mem_cons_of_mem _ member)
      by_cases here : position item = place
      · simp only [itemsAt, List.filter_cons, here, decide_true, if_true, lt_irrefl,
          decide_false, Bool.false_eq_true, if_false, List.cons_append]
        exact congrArg (item :: ·) restSplit
      · have above : place < position item :=
          lt_of_le_of_ne (lowest item (List.mem_cons_self ..)) (Ne.symm here)
        have allAbove : ∀ other ∈ item :: rest, place < position other :=
          fun other member => above.trans_le (sorted.head_le member)
        have nothing : itemsAt position (item :: rest) place = [] := by
          apply List.filter_eq_nil_iff.mpr
          intro other member
          simpa using (allAbove other member).ne'
        rw [nothing, List.nil_append, List.filter_eq_self.mpr]
        intro other member
        simpa using allAbove other member

/-- The stable sort is the only sorted list with the same items at every position. -/
theorem eq_stableSort_of_itemsAt {sorted items : List Item}
    (isSorted : SortedBy position sorted)
    (same : ∀ place, itemsAt position sorted place = itemsAt position items place) :
    sorted = stableSort position items := by
  apply isSorted.eq_of_itemsAt (sortedBy_stableSort items)
  intro place
  rw [same, itemsAt_stableSort]

/-- Items at different positions are sorted alike in whatever order they come. -/
theorem stableSort_eq_of_perm {items others : List Item} (perm : items.Perm others)
    (apart : ∀ left ∈ items, ∀ right ∈ items, position left = position right → left = right) :
    stableSort position items = stableSort position others := by
  refine List.Perm.eq_of_pairwise ?_ (sortedBy_stableSort items)
    (sortedBy_stableSort others)
    ((perm_stableSort items).trans (perm.trans (perm_stableSort others).symm))
  intro left right leftMem rightMem le ge
  exact apart left (mem_stableSort.mp leftMem) right
    (perm.mem_iff.mpr (mem_stableSort.mp rightMem)) (le_antisymm le ge)

/-- Two items at one position are told apart by the order they came in. -/
theorem eq_of_stableSort_reverse {items : List Item} (nodup : items.Nodup)
    (same : stableSort position items = stableSort position items.reverse)
    {left right : Item} (leftMem : left ∈ items) (rightMem : right ∈ items)
    (level : position left = position right) : left = right := by
  have palindrome : itemsAt position items (position left) =
      (itemsAt position items (position left)).reverse :=
    calc
      itemsAt position items (position left)
          = itemsAt position (stableSort position items) (position left) :=
        (itemsAt_stableSort ..).symm
      _ = itemsAt position items.reverse (position left) := by
        rw [same, itemsAt_stableSort]
      _ = (itemsAt position items (position left)).reverse := List.filter_reverse ..
  have nodupAt : (itemsAt position items (position left)).Nodup := nodup.filter _
  have leftAt : left ∈ itemsAt position items (position left) := by
    simp [leftMem]
  have rightAt : right ∈ itemsAt position items (position left) := by
    simp [rightMem, level]
  cases tied : itemsAt position items (position left) with
  | nil => simp [tied] at leftAt
  | cons first rest =>
      rw [tied] at palindrome nodupAt leftAt rightAt
      cases rest with
      | nil =>
          rw [List.mem_singleton] at leftAt rightAt
          rw [leftAt, rightAt]
      | cons second others =>
          have ends := congrArg List.head? palindrome
          rw [List.head?_reverse, List.head?_cons, List.getLast?_cons_cons] at ends
          exact absurd (List.mem_of_getLast? ends.symm) (List.nodup_cons.mp nodupAt).1

/-- Filtering commutes with the stable sort. -/
theorem filter_stableSort (items : List Item) (keep : Item → Bool) :
    (stableSort position items).filter keep =
      stableSort position (items.filter keep) := by
  apply eq_stableSort_of_itemsAt ((sortedBy_stableSort items).filter keep)
  intro place
  rw [itemsAt_filter, itemsAt_filter, itemsAt_stableSort]

/-- Items that are sorted already may be sorted again with the ones appended. -/
theorem stableSort_append_stableSort (items added : List Item) :
    stableSort position (stableSort position items ++ added) =
      stableSort position (items ++ added) := by
  apply eq_stableSort_of_itemsAt (sortedBy_stableSort _)
  intro place
  rw [itemsAt_stableSort, itemsAt_append, itemsAt_append, itemsAt_stableSort]

end StableSort
