import FlowCache.ConsistentHash.Lookup

/-!
# The successor of a hash

`successorIndex` is a lower-bound search with a test for the wrap-around in front.  On
points ascending by hash, runs of equal hashes included, it finds what a linear scan
finds: the first point at or after the target, or the first point of all.
-/

namespace FlowCache.ConsistentHashRing

open StableSort

variable {points : List RingPoint} {targetHash : Nat}

/-- `successorIndex(targetHash)` with its loop. -/
def successorByLoop (points : List RingPoint) (targetHash : Nat) : Nat :=
  let hi := points.length - 1
  if hashAt points hi < targetHash then 0 else searchLoop points targetHash 0 hi

/-- The first point at or after the target, or the first point of all. -/
def successorByScan (points : List RingPoint) (targetHash : Nat) : Nat :=
  (points.findIdx? fun point => targetHash ≤ point.hash).getD 0

theorem successorIndex_eq_successorByLoop (points : List RingPoint) (targetHash : Nat) :
    successorIndex points targetHash = successorByLoop points targetHash := by
  simp only [successorIndex, successorByLoop]
  split
  · rfl
  · exact successorSearch_eq_searchLoop (by omega)

/-- An index that separates the points is the one that a scan finds. -/
theorem Separates.findIdx? {index : Nat} (separates : Separates points targetHash index)
    (inside : index < points.length) :
    points.findIdx? (fun point => targetHash ≤ point.hash) = some index := by
  rw [List.findIdx?_eq_some_iff_getElem]
  refine ⟨inside, ?_, ?_⟩
  · apply decide_eq_true
    rw [← hashAt_of_lt inside]
    exact separates.after index le_rfl inside
  · intro other before
    rw [decide_eq_true_eq, not_le, ← hashAt_of_lt (before.trans inside)]
    exact separates.before other before

/-- On a non-empty array of points ascending by hash the search ends with the least index
whose hash is not below the target, or with 0 if there is none. -/
theorem successor_search_spec
    (ascending : points.Pairwise fun first second => first.hash ≤ second.hash)
    (nonempty : points ≠ []) (targetHash : Nat) :
    successorIndex points targetHash = successorByLoop points targetHash ∧
      successorIndex points targetHash = successorByScan points targetHash ∧
      successorIndex points targetHash < points.length ∧
      ((∃ point ∈ points, targetHash ≤ point.hash) →
        IsLeast { index | ∃ inside : index < points.length, targetHash ≤ points[index].hash }
          (successorIndex points targetHash)) ∧
      ((∀ point ∈ points, point.hash < targetHash) →
        successorIndex points targetHash = 0) := by
  have positive := List.length_pos_iff.mpr nonempty
  refine ⟨successorIndex_eq_successorByLoop points targetHash, ?_⟩
  rw [successorIndex_eq_successorByLoop]
  simp only [successorByLoop]
  split
  · next past =>
      have before := forall_lt_of_last_lt ascending past
      refine ⟨?_, positive, ?_, fun _ => rfl⟩
      · rw [successorByScan, List.findIdx?_eq_none_iff.mpr]
        · rfl
        · intro point member
          exact decide_eq_false (not_le.mpr (before point member))
      · rintro ⟨point, member, after⟩
        exact absurd after (not_le.mpr (before point member))
  · next within =>
      obtain ⟨separates, inside⟩ := separates_searchLoop ascending nonempty within
      refine ⟨?_, inside, ?_, ?_⟩
      · rw [successorByScan, separates.findIdx? inside]
        rfl
      · intro _
        constructor
        · refine ⟨inside, ?_⟩
          rw [← hashAt_of_lt inside]
          exact separates.after _ le_rfl inside
        · rintro index ⟨indexInside, after⟩
          by_contra below
          have before := separates.before index (not_le.mp below)
          rw [hashAt_of_lt indexInside] at before
          exact absurd after (not_le.mpr before)
      · intro before
        have last := before points[points.length - 1] (List.getElem_mem _)
        rw [hashAt_of_lt (by omega)] at within
        exact absurd last within

/-- A run of equal hashes, met exactly, and a target past all points. -/
theorem successor_search_equal_hashes :
    successorIndex [⟨1, "a", 0⟩, ⟨5, "b", 0⟩, ⟨5, "c", 0⟩, ⟨9, "d", 0⟩] 5 = 1 ∧
      successorIndex [⟨1, "a", 0⟩, ⟨5, "b", 0⟩, ⟨5, "c", 0⟩, ⟨9, "d", 0⟩] 10 = 0 := by
  have ascending : [(⟨1, "a", 0⟩ : RingPoint), ⟨5, "b", 0⟩, ⟨5, "c", 0⟩,
      ⟨9, "d", 0⟩].Pairwise fun first second => first.hash ≤ second.hash := by decide
  constructor
  · rw [(successor_search_spec ascending (by simp) 5).2.1]
    rfl
  · exact (successor_search_spec ascending (by simp) 10).2.2.2.2 (by decide)

end FlowCache.ConsistentHashRing
