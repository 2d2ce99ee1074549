import FlowCache.ConsistentHash.Ring
import FlowCache.Library.LowerBound
import Mathlib.Algebra.Order.Floor.Semiring
import Mathlib.Data.List.Rotate

/-!
# What a lookup returns

On points sorted by hash the binary search finds where the points at or after the
target start, so the walk of `getNodesForKey` meets them clockwise from the key.  It
returns the first `count` physical nodes it meets, and `getNode` the first of all.
-/

namespace FlowCache

open StableSort HashRing LowerBound

namespace ConsistentHashRing

variable {points : List RingPoint} {targetHash : Nat}

/-! ## Binary search -/

theorem hashAt_of_lt {index : Nat} (inside : index < points.length) :
    hashAt points index = points[index].hash := by
  simp [hashAt, inside]

theorem hashAt_mono (sorted : SortedBy RingPoint.hash points) {first second : Nat}
    (le : first ≤ second) (inside : second < points.length) :
    hashAt points first ≤ hashAt points second := by
  rw [hashAt_of_lt inside, hashAt_of_lt (le.trans_lt inside)]
  rcases Nat.eq_or_lt_of_le le with rfl | lt
  · exact le_rfl
  · exact List.pairwise_iff_getElem.mp sorted first second _ inside lt

/-- An index that separates the points before the target from those at or after it. -/
structure Separates (points : List RingPoint) (targetHash index : Nat) : Prop where
  before : ∀ other < index, hashAt points other < targetHash
  after : ∀ other, index ≤ other → other < points.length →
    targetHash ≤ hashAt points other

/-- The `while` loop of `successorIndex`, with nothing that bounds the number of its
rounds.  `>>> 1` halves the sum of two indices of an array. -/
def searchLoop (points : List RingPoint) (targetHash lo hi : Nat) : Nat :=
  LowerBound.search (fun mid => hashAt points mid < targetHash) lo hi

/-- The rounds that `successorIndex` allows for are enough for the loop to end. -/
theorem successorSearch_eq_searchLoop {fuel lo hi : Nat} (enough : hi - lo ≤ fuel) :
    successorSearch points targetHash fuel lo hi = searchLoop points targetHash lo hi := by
  induction fuel generalizing lo hi with
  | zero =>
      have met : ¬lo < hi := by omega
      rw [successorSearch, searchLoop, search, if_neg met]
  | succ fuel ih =>
      rw [successorSearch, searchLoop, search]
      split
      · next apart =>
          simp only [decide_eq_true_eq]
          split
          · exact ih (by omega)
          · exact ih (by omega)
      · rfl

/-- What the loop finds when the last point is at or after the target. -/
theorem isLowerBound_searchLoop (sorted : SortedBy RingPoint.hash points)
    (targetHash : Nat) :
    IsLowerBound (fun mid => hashAt points mid < targetHash) 0 (points.length - 1)
      (searchLoop points targetHash 0 (points.length - 1)) := by
  apply isLowerBound_search (Nat.zero_le _)
  intro first second _ between inside isBefore
  rw [decide_eq_true_eq] at isBefore ⊢
  exact (hashAt_mono sorted between (by omega)).trans_lt isBefore

theorem rotate_of_separates {index : Nat} (separates : Separates points targetHash index)
    (inside : index ≤ points.length) :
    points.rotate index = clockwise RingPoint.hash targetHash points := by
  rw [List.rotate_eq_drop_append_take inside]
  conv_rhs => rw [← List.take_append_drop index points]
  symm
  apply clockwise_append
  · intro point member
    obtain ⟨other, otherInside, rfl⟩ := List.mem_take_iff_getElem.mp member
    rw [lt_min_iff] at otherInside
    rw [← hashAt_of_lt otherInside.2]
    exact separates.before other otherInside.1
  · intro point member
    obtain ⟨other, otherInside, rfl⟩ := List.mem_drop_iff_getElem.mp member
    rw [Nat.add_comm] at otherInside
    rw [← hashAt_of_lt otherInside]
    exact separates.after _ (Nat.le_add_right ..) otherInside

/-- A target past the last point is past all of them. -/
theorem forall_lt_of_last_lt (sorted : SortedBy RingPoint.hash points)
    (past : hashAt points (points.length - 1) < targetHash) :
    ∀ point ∈ points, point.hash < targetHash := by
  intro point member
  obtain ⟨index, inside, rfl⟩ := List.mem_iff_getElem.mp member
  rw [← hashAt_of_lt inside]
  exact (hashAt_mono sorted (by omega) (by omega)).trans_lt past

/-- Where a search that does not wrap around ends. -/
theorem separates_searchLoop (sorted : SortedBy RingPoint.hash points)
    (nonempty : points ≠ []) (within : ¬hashAt points (points.length - 1) < targetHash) :
    Separates points targetHash (searchLoop points targetHash 0 (points.length - 1)) ∧
      searchLoop points targetHash 0 (points.length - 1) < points.length := by
  have positive := List.length_pos_iff.mpr nonempty
  have found := isLowerBound_searchLoop sorted targetHash
  refine ⟨⟨fun other below => ?_, fun other above inside => ?_⟩, by have := found.high; omega⟩
  · simpa using found.earlier other (Nat.zero_le _) below
  · rcases Nat.lt_or_eq_of_le found.high with changes | atEnd
    · have reached : targetHash ≤
          hashAt points (searchLoop points targetHash 0 (points.length - 1)) := by
        simpa using found.change changes
      exact reached.trans (hashAt_mono sorted above inside)
    · have last : other = points.length - 1 := by omega
      rw [last]
      exact not_lt.mp within

/-- The walk from `successorIndex` meets the points clockwise from the target. -/
theorem rotate_successorIndex (sorted : SortedBy RingPoint.hash points)
    (nonempty : points ≠ []) (targetHash : Nat) :
    successorIndex points targetHash < points.length ∧
      points.rotate (successorIndex points targetHash) =
        clockwise RingPoint.hash targetHash points := by
  simp only [successorIndex]
  split
  · next past =>
      refine ⟨List.length_pos_iff.mpr nonempty, ?_⟩
      have wrapped : clockwise RingPoint.hash targetHash (points ++ []) = [] ++ points :=
        clockwise_append (forall_lt_of_last_lt sorted past) (by simp)
      rw [List.append_nil, List.nil_append] at wrapped
      rw [wrapped, List.rotate_zero]
  · next within =>
      rw [successorSearch_eq_searchLoop (by omega)]
      obtain ⟨separates, inside⟩ := separates_searchLoop sorted nonempty within
      exact ⟨inside, rotate_of_separates separates inside.le⟩

/-! ## The walk -/

private theorem take_rotate_succ {index guard : Nat} (inside : index < points.length)
    (room : guard + 1 ≤ points.length) :
    (points.rotate index).take (guard + 1) =
      points[index] :: (points.rotate ((index + 1) % points.length)).take guard := by
  apply List.ext_getElem?
  intro position
  cases position with
  | zero =>
      rw [List.getElem?_take_of_lt (by omega), List.getElem?_rotate (by omega)]
      simp [Nat.mod_eq_of_lt inside, inside]
  | succ position =>
      rw [List.getElem?_cons_succ, List.rotate_mod]
      by_cases short : position < guard
      · rw [List.getElem?_take_of_lt (by omega), List.getElem?_take_of_lt short,
          List.getElem?_rotate (by omega), List.getElem?_rotate (by omega)]
        congr 2
        omega
      · rw [List.getElem?_eq_none, List.getElem?_eq_none]
        · rw [List.length_take]
          omega
        · rw [List.length_take]
          omega

/-- The walk adds, up to `count`, the physical nodes it meets and has not selected. -/
theorem collectNodes_eq (count : Rat) {guard index : Nat} {result : List String}
    (inside : index < points.length) (room : guard ≤ points.length)
    (short : result.length ≤ ⌈count⌉₊) :
    collectNodes points count guard index result =
      (result ++ ownersInOrder RingPoint.nodeId
        (((points.rotate index).take guard).filter fun point =>
          point.nodeId ∉ result)).take ⌈count⌉₊ := by
  induction guard generalizing index result with
  | zero => simp [collectNodes, List.take_of_length_le short]
  | succ guard ih =>
      have next : (index + 1) % points.length < points.length :=
        Nat.mod_lt _ (Nat.zero_lt_of_lt inside)
      rw [collectNodes]
      split
      · next wanted =>
          rw [← Nat.lt_ceil] at wanted
          rw [List.getElem?_eq_getElem inside, take_rotate_succ inside room,
            List.filter_cons]
          simp only
          by_cases selected : points[index].nodeId ∈ result
          · rw [if_pos selected, ih next (by omega) short]
            simp [selected]
          · rw [if_neg selected, ih next (by omega)
              (by simpa [Nat.succ_le_iff] using wanted)]
            have merged : ∀ point : RingPoint,
                (decide (point.nodeId ≠ points[index].nodeId) &&
                  decide (point.nodeId ∉ result)) =
                decide (point.nodeId ∉ result ++ [points[index].nodeId]) := by
              intro point
              rw [Bool.eq_iff_iff]
              simp [and_comm]
            simp only [selected, not_false_eq_true, decide_true, if_true,
              ownersInOrder_cons, List.filter_filter, merged, List.append_assoc,
              List.singleton_append]
      · next full =>
          rw [← Nat.lt_ceil] at full
          rw [List.take_append_of_le_length (by omega), List.take_of_length_le short]

/-! ## Lookups -/

/-- The physical nodes in the order in which a walk from the key meets them. -/
def preference (ring : ConsistentHashRing) (key : CacheKey) : List String :=
  ownersInOrder RingPoint.nodeId (clockwise RingPoint.hash (ringHash key) ring.points)

variable {ring : ConsistentHashRing}

/-- `getNodesForKey` returns the first `count` nodes of the preference order. -/
theorem getNodesForKey_eq (sorted : SortedBy RingPoint.hash ring.points)
    (key : CacheKey) (count : Rat) :
    ring.getNodesForKey key count = (ring.preference key).take ⌈count⌉₊ := by
  rw [getNodesForKey]
  split
  · next trivially =>
      rcases trivially with empty | none
      · rw [preference, List.eq_nil_of_length_eq_zero empty]
        simp [clockwise]
      · rw [Nat.ceil_eq_zero.mpr none, List.take_zero]
  · next walked =>
      rw [not_or] at walked
      have nonempty : ring.points ≠ [] := fun empty => walked.1 (by rw [empty]; rfl)
      obtain ⟨inside, rotated⟩ :=
        rotate_successorIndex sorted nonempty (ringHash key)
      rw [collectNodes_eq count inside le_rfl (Nat.zero_le _), rotated, preference,
        List.take_of_length_le (length_clockwise ..).le]
      simp

/-- `getNode` returns the first node of the preference order. -/
theorem getNode_eq (sorted : SortedBy RingPoint.hash ring.points) (key : CacheKey) :
    ring.getNode key = (ring.preference key).head? := by
  rw [getNode]
  split
  · next empty =>
      rw [preference, List.eq_nil_of_length_eq_zero empty]
      simp [clockwise]
  · next walked =>
      have nonempty : ring.points ≠ [] := fun empty => walked (by rw [empty]; rfl)
      obtain ⟨inside, rotated⟩ := rotate_successorIndex sorted nonempty (ringHash key)
      rw [preference, ← rotated, ← List.head?_rotate inside]
      cases ring.points.rotate (successorIndex ring.points (ringHash key)) with
      | nil => rfl
      | cons point rest => rw [ownersInOrder_cons]; rfl

end ConsistentHashRing

end FlowCache
