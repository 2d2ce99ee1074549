import Mathlib.Data.List.Sort
import Mathlib.Data.List.Perm.Subperm

/-!
# Keeping the newest elements of a history

A history lists its elements newest first.  A store holds some of them, at least
the newest `count`, and is pruned to the first `count` of a listing that is sorted
by time.  If the last element kept and the first one dropped differ in time, the
listing cannot mix up elements of the same time across the boundary: exactly the
newest `count` elements of the history stay.

A listing by a stable sort puts an element behind those that are newer and those of the
same time that stood before it, so these decide whether it is kept.
-/

namespace Retention

universe u v

variable {Element : Type u} {Time : Type v} [LinearOrder Time] (time : Element → Time)

/-- Newest first. -/
def NewestFirst (elements : List Element) : Prop :=
  elements.Pairwise fun newer older => time older ≤ time newer

/-- The last of the first `count` elements and the element after it differ in time. -/
def UntiedAt (count : Nat) (elements : List Element) : Prop :=
  ∀ kept ∈ elements[count - 1]?, ∀ dropped ∈ elements[count]?, time dropped < time kept

variable {time}

/-- Everything in front of an untied boundary is newer than everything behind it. -/
theorem NewestFirst.lt_of_untied {elements : List Element}
    (newest : NewestFirst time elements) {count : Nat} (positive : 0 < count)
    (untied : UntiedAt time count elements) {kept dropped : Element}
    (isKept : kept ∈ elements.take count) (isDropped : dropped ∈ elements.drop count) :
    time dropped < time kept := by
  have long : count < elements.length := by
    by_contra short
    rw [List.drop_eq_nil_of_le (by omega)] at isDropped
    cases isDropped
  have last : count - 1 < elements.length := by omega
  have boundary : time elements[count] < time elements[count - 1] :=
    untied _ (List.getElem?_eq_getElem last) _ (List.getElem?_eq_getElem long)
  obtain ⟨front, frontBound, rfl⟩ := List.mem_take_iff_getElem.mp isKept
  obtain ⟨back, backBound, rfl⟩ := List.mem_drop_iff_getElem.mp isDropped
  have newestGet := List.pairwise_iff_getElem.mp newest
  have keptLate : time elements[count - 1] ≤ time elements[front] := by
    rcases Nat.lt_or_ge front (count - 1) with before | atBoundary
    · exact newestGet front (count - 1) (by omega) last before
    · have same : front = count - 1 := by omega
      subst same
      exact le_refl _
  have droppedEarly : time elements[count + back] ≤ time elements[count] := by
    rcases Nat.eq_zero_or_pos back with zero | later
    · subst zero
      simp
    · exact newestGet count (count + back) long (by omega) (by omega)
  calc
    time elements[count + back] ≤ time elements[count] := droppedEarly
    _ < time elements[count - 1] := boundary
    _ ≤ time elements[front] := keptLate

/-- What is newer than an element of a history stands in front of it. -/
theorem NewestFirst.mem_take_of_newer {history : List Element}
    (newest : NewestFirst time history) {position : Nat}
    (bound : position < history.length) {newer : Element} (member : newer ∈ history)
    (later : time history[position] < time newer) : newer ∈ history.take position := by
  obtain ⟨front, inBounds, rfl⟩ := List.getElem_of_mem member
  have before : front < position := by
    by_contra behind
    have newestGet := List.pairwise_iff_getElem.mp newest
    rcases Nat.lt_or_ge position front with after | same
    · exact absurd later (not_lt.mpr (newestGet position front bound inBounds after))
    · have equal : front = position := by omega
      subst equal
      exact lt_irrefl _ later
  exact List.mem_take_iff_getElem.mpr ⟨front, by omega, rfl⟩

section Prune

variable {history listing : List Element} {count : Nat}

/-- Pruning an untied listing drops none of the newest `count` elements. -/
theorem not_mem_newest_of_dropped (positive : 0 < count)
    (newest : NewestFirst time history) (sorted : NewestFirst time listing)
    (distinct : listing.Nodup) (fromHistory : ∀ element ∈ listing, element ∈ history)
    (untied : UntiedAt time count listing) {dropped : Element}
    (isDropped : dropped ∈ listing.drop count) : dropped ∉ history.take count := by
  intro isNewest
  obtain ⟨position, bound, rfl⟩ := List.mem_take_iff_getElem.mp isNewest
  have front : listing.take count ⊆ history.take position := by
    intro kept isKept
    apply newest.mem_take_of_newer (by omega)
      (fromHistory kept (List.mem_of_mem_take isKept))
    exact sorted.lt_of_untied positive untied isKept isDropped
  have many := (distinct.sublist (List.take_sublist count listing)).subperm front
  have lengths := many.length_le
  have long : count < listing.length := by
    by_contra short
    rw [List.drop_eq_nil_of_le (by omega)] at isDropped
    cases isDropped
  rw [List.length_take, List.length_take] at lengths
  omega

/-- Pruning an untied listing of a store that has the newest `count` elements of a
history keeps exactly these. -/
theorem mem_take_iff_mem_newest (positive : 0 < count)
    (newest : NewestFirst time history) (historyDistinct : history.Nodup)
    (sorted : NewestFirst time listing) (distinct : listing.Nodup)
    (fromHistory : ∀ element ∈ listing, element ∈ history)
    (complete : ∀ element ∈ history.take count, element ∈ listing)
    (untied : UntiedAt time count listing) (element : Element) :
    element ∈ listing.take count ↔ element ∈ history.take count := by
  have keeps : history.take count ⊆ listing.take count := by
    intro kept isNewest
    have listed := complete kept isNewest
    rw [← List.take_append_drop count listing] at listed
    rcases List.mem_append.mp listed with front | back
    · exact front
    · exact absurd isNewest
        (not_mem_newest_of_dropped positive newest sorted distinct fromHistory untied back)
  refine ⟨?_, fun isNewest => keeps isNewest⟩
  intro isKept
  rcases Nat.lt_or_ge history.length count with short | long
  · rw [List.take_of_length_le (by omega)]
    exact fromHistory element (List.mem_of_mem_take isKept)
  · have fewer := (historyDistinct.sublist (List.take_sublist count history)).subperm keeps
    have same : (history.take count).Perm (listing.take count) := by
      apply fewer.perm_of_length_le
      rw [List.length_take, List.length_take]
      omega
    exact same.mem_iff.mpr isKept

end Prune

/-! ## The place of one element -/

/-- Sorted by time with a stable sort. -/
def newestFirst (time : Element → Time) (elements : List Element) : List Element :=
  elements.insertionSort fun newer older => time older ≤ time newer

/-- How many elements the sort puts in front of an element: those that are newer, and
those of the same time that stood before it. -/
def ahead [DecidableEq Element] (time : Element → Time) (element : Element)
    (elements : List Element) : Nat :=
  elements.countP (fun other => time element < time other) +
    (elements.takeWhile fun other => other ≠ element).countP
      fun other => time other = time element

variable (time) in
theorem newestFirst_pairwise (elements : List Element) :
    NewestFirst time (newestFirst time elements) := by
  have : IsTrans Element fun newer older => time older ≤ time newer :=
    ⟨fun _ _ _ first second => second.trans first⟩
  have : Std.Total fun newer older : Element => time older ≤ time newer :=
    ⟨fun first second => le_total (time second) (time first)⟩
  exact List.pairwise_insertionSort _ _

variable (time) in
theorem newestFirst_perm (elements : List Element) :
    (newestFirst time elements).Perm elements :=
  List.perm_insertionSort _ _

/-- The elements in front of the place of a new one are those that are newer. -/
theorem NewestFirst.length_takeWhile_newer {sorted : List Element}
    (newest : NewestFirst time sorted) (element : Element) :
    (sorted.takeWhile fun other => ¬time other ≤ time element).length =
      sorted.countP fun other => time element < time other := by
  induction sorted with
  | nil => rfl
  | cons first rest ih =>
      obtain ⟨older, later⟩ := List.pairwise_cons.mp newest
      by_cases newer : time element < time first
      · rw [List.takeWhile_cons_of_pos (by simpa using newer), List.length_cons, ih later,
          List.countP_cons_of_pos (by simpa using newer)]
      · rw [List.takeWhile_cons_of_neg (by simpa using newer), List.length_nil,
          List.countP_cons_of_neg (by simpa using newer), eq_comm, List.countP_eq_zero]
        intro other member
        have bound := (older other member).trans (not_lt.mp newer)
        simpa using bound

/-- An element that is put into a sorted list comes in front of another one if it is
not older. -/
theorem NewestFirst.exists_orderedInsert {before after : List Element} {element : Element}
    (newest : NewestFirst time (before ++ element :: after)) (added : Element) :
    ∃ front back, (before ++ element :: after).orderedInsert
        (fun newer older => time older ≤ time newer) added = front ++ element :: back ∧
      front.length = before.length + if time element ≤ time added then 1 else 0 := by
  induction before with
  | nil =>
      rw [List.nil_append, List.orderedInsert_cons]
      split
      · exact ⟨[added], after, rfl, rfl⟩
      · exact ⟨[], _, rfl, rfl⟩
  | cons first rest ih =>
      obtain ⟨older, later⟩ := List.pairwise_cons.mp newest
      rw [List.cons_append, List.orderedInsert_cons]
      split
      · next inFront =>
          have notOlder : time element ≤ time added :=
            (older element (by simp)).trans inFront
          exact ⟨added :: first :: rest, after, rfl, by simp [notOlder]⟩
      · obtain ⟨front, back, placed, length⟩ := ih later
        refine ⟨first :: front, back, by rw [placed]; rfl, ?_⟩
        rw [List.length_cons, List.length_cons, length]
        omega

variable (time) in
/-- Where the sort puts an element. -/
theorem exists_newestFirst (element : Element) (front back : List Element) :
    ∃ before after,
      newestFirst time (front ++ element :: back) = before ++ element :: after ∧
        before.length = (front ++ element :: back).countP
            (fun other => time element < time other) +
          front.countP fun other => time other = time element := by
  induction front with
  | nil =>
      have sorted := newestFirst_pairwise time back
      refine ⟨_, _, List.orderedInsert_eq_take_drop _ element (newestFirst time back), ?_⟩
      rw [sorted.length_takeWhile_newer, (newestFirst_perm time back).countP_eq]
      simp
  | cons first rest ih =>
      obtain ⟨before, after, placed, length⟩ := ih
      have sorted := newestFirst_pairwise time (rest ++ element :: back)
      rw [placed] at sorted
      obtain ⟨inFront, behind, inserted, grown⟩ := sorted.exists_orderedInsert first
      refine ⟨inFront, behind, ?_, ?_⟩
      · rw [← inserted, ← placed]
        rfl
      · rw [grown, length, List.cons_append, List.countP_cons, List.countP_cons]
        rcases lt_trichotomy (time element) (time first) with newer | same | older
        · simp [newer, newer.le, newer.ne']
          omega
        · simp [same]
          omega
        · simp [older.not_ge, older.not_gt, older.ne]

variable (time) in
/-- Among different elements, the ones ahead decide which of the first `count` places an
element gets, if any. -/
theorem mem_take_newestFirst_iff [DecidableEq Element] {elements : List Element}
    (distinct : elements.Nodup) {element : Element} (member : element ∈ elements)
    (count : Nat) :
    element ∈ (newestFirst time elements).take count ↔ ahead time element elements < count := by
  obtain ⟨front, back, rfl⟩ := List.append_of_mem member
  have notBefore : element ∉ front := fun again =>
    (List.disjoint_of_nodup_append distinct) again List.mem_cons_self
  have stops : (front ++ element :: back).takeWhile (fun other => other ≠ element) = front := by
    rw [List.takeWhile_append_of_pos, List.takeWhile_cons_of_neg (by simp), List.append_nil]
    intro other before
    exact decide_eq_true fun same => notBefore (same ▸ before)
  obtain ⟨before, after, placed, length⟩ := exists_newestFirst time element front back
  have sortedDistinct := (newestFirst_perm time _).nodup_iff.mpr distinct
  rw [placed] at sortedDistinct ⊢
  rw [ahead, stops, ← length]
  constructor
  · intro inFront
    by_contra far
    rw [List.take_append_of_le_length (not_lt.mp far)] at inFront
    exact (List.disjoint_of_nodup_append sortedDistinct) (List.mem_of_mem_take inFront)
      List.mem_cons_self
  · intro near
    obtain ⟨more, rfl⟩ := Nat.exists_eq_add_of_lt near
    rw [List.take_append, Nat.add_assoc, Nat.add_sub_cancel_left, List.take_succ_cons]
    exact List.mem_append_right _ List.mem_cons_self

end Retention
