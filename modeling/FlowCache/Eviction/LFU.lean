import Mathlib.Data.List.Sort
import FlowCache.Storage.Tracking

/-!
# Least frequently used

`LfuEvictionPolicy`: the frequency of every tracked key, the keys of each frequency in
a bucket, and the lowest frequency that is in use.  A `Set` is a map to nothing, so a
bucket remembers the order in which its keys entered it.
-/

namespace FlowCache

variable {Value : Type}

/-- `LfuEvictionPolicy`. -/
structure LfuEvictionPolicy where
  frequency : InsertionMap CacheKey Nat
  buckets : InsertionMap Nat (InsertionMap CacheKey Unit)
  minFrequency : Nat

namespace LfuEvictionPolicy

/-- `new LfuEvictionPolicy()`. -/
def create : LfuEvictionPolicy := ⟨.empty, .empty, 0⟩

/-- `addToBucket(freq, key)`. -/
def addToBucket (policy : LfuEvictionPolicy) (freq : Nat) (key : CacheKey) :
    LfuEvictionPolicy :=
  { policy with
    buckets :=
      policy.buckets.insert freq (((policy.buckets.get? freq).getD .empty).insert key ()) }

/-- `lowestRemainingFrequency()`. -/
def lowestRemainingFrequency (policy : LfuEvictionPolicy) : Nat :=
  policy.buckets.keys.min?.getD 0

/-- `initialize(key)`. -/
def initializeKey (policy : LfuEvictionPolicy) (key : CacheKey) : LfuEvictionPolicy :=
  { addToBucket { policy with frequency := policy.frequency.insert key 1 } 1 key with
    minFrequency := 1 }

/-- `bump(key)`. -/
def bump (policy : LfuEvictionPolicy) (key : CacheKey) : LfuEvictionPolicy :=
  let oldFreq := (policy.frequency.get? key).getD 0
  let newFreq := oldFreq + 1
  let counted := { policy with frequency := policy.frequency.insert key newFreq }
  let moved :=
    if oldFreq > 0 then
      match counted.buckets.get? oldFreq with
      | none => counted
      | some bucket =>
          let oldBucket := bucket.erase key
          if oldBucket.size = 0 then
            { counted with
              buckets := counted.buckets.erase oldFreq
              minFrequency :=
                if counted.minFrequency = oldFreq then newFreq
                else counted.minFrequency }
          else
            { counted with buckets := counted.buckets.insert oldFreq oldBucket }
    else
      { counted with
        minFrequency :=
          min (if counted.minFrequency = 0 then newFreq else counted.minFrequency)
            newFreq }
  moved.addToBucket newFreq key

/-- `recordAccess(key)`. -/
def recordAccess (policy : LfuEvictionPolicy) (key : CacheKey) : LfuEvictionPolicy :=
  policy.bump key

/-- `recordWrite(key)`. -/
def recordWrite (policy : LfuEvictionPolicy) (key : CacheKey) : LfuEvictionPolicy :=
  if policy.frequency.contains key then policy.bump key else policy.initializeKey key

/-- `recordRemoval(key)`. -/
def recordRemoval (policy : LfuEvictionPolicy) (key : CacheKey) : LfuEvictionPolicy :=
  match policy.frequency.get? key with
  | none => policy
  | some freq =>
      let forgotten := { policy with frequency := policy.frequency.erase key }
      match forgotten.buckets.get? freq with
      | none => forgotten
      | some bucket =>
          let remaining := bucket.erase key
          if remaining.size = 0 then
            let emptied := { forgotten with buckets := forgotten.buckets.erase freq }
            if emptied.minFrequency = freq then
              { emptied with minFrequency := emptied.lowestRemainingFrequency }
            else
              emptied
          else
            { forgotten with buckets := forgotten.buckets.insert freq remaining }

/-- The first key of a bucket that is a candidate. -/
def firstCandidate (policy : LfuEvictionPolicy) (candidateKeys : List CacheKey)
    (freq : Nat) : Option CacheKey :=
  (policy.buckets.get? freq).bind fun bucket =>
    bucket.keys.find? fun key => key ∈ candidateKeys

/-- `selectVictim(candidateKeys)`: the bucket of the lowest frequency, then every
bucket in ascending order, then an arbitrary candidate. -/
def selectVictim (policy : LfuEvictionPolicy) (candidateKeys : List CacheKey) :
    Option CacheKey :=
  if candidateKeys = [] then
    none
  else
    match policy.firstCandidate candidateKeys policy.minFrequency with
    | some key => some key
    | none =>
        match (policy.buckets.keys.insertionSort (· ≤ ·)).findSome?
            (policy.firstCandidate candidateKeys) with
        | some key => some key
        | none => candidateKeys.head?

/-- `reset()`. -/
def reset (_ : LfuEvictionPolicy) : LfuEvictionPolicy := create

/-- `seed(entries)`. -/
def seed (policy : LfuEvictionPolicy) (entries : List (CacheEntry Value)) :
    LfuEvictionPolicy :=
  let counted := entries.foldl
    (fun current entry =>
      let freq := max 1
        (if entry.metadata.frequency = 0 then 1 else entry.metadata.frequency)
      addToBucket { current with frequency := current.frequency.insert entry.key freq }
        freq entry.key)
    policy.reset
  { counted with minFrequency := counted.lowestRemainingFrequency }

instance : EvictionHook LfuEvictionPolicy where
  recordAccess := recordAccess
  recordWrite := recordWrite
  recordRemoval := recordRemoval
  selectVictim := selectVictim
  onStorageEvent policy _ _ := policy

/-! ## The victim is a candidate -/

theorem mem_of_firstCandidate {policy : LfuEvictionPolicy}
    {candidateKeys : List CacheKey} {freq : Nat} {key : CacheKey}
    (found : policy.firstCandidate candidateKeys freq = some key) :
    key ∈ candidateKeys := by
  obtain ⟨bucket, _, first⟩ := Option.bind_eq_some_iff.mp found
  simpa using List.find?_some first

theorem mem_of_selectVictim {policy : LfuEvictionPolicy} {candidateKeys : List CacheKey}
    {victim : CacheKey} (selected : policy.selectVictim candidateKeys = some victim) :
    victim ∈ candidateKeys := by
  unfold selectVictim at selected
  split at selected
  · cases selected
  · split at selected
    · next key found =>
        cases selected
        exact mem_of_firstCandidate found
    · split at selected
      · next key found =>
          cases selected
          obtain ⟨freq, _, first⟩ := List.exists_of_findSome?_eq_some found
          exact mem_of_firstCandidate first
      · exact List.mem_of_head? selected

/-- There is a victim whenever there is a candidate, tracked or not. -/
theorem selectVictim_isSome (policy : LfuEvictionPolicy) {candidateKeys : List CacheKey}
    (nonempty : candidateKeys ≠ []) : (policy.selectVictim candidateKeys).isSome := by
  unfold selectVictim
  rw [if_neg nonempty]
  split
  · rfl
  · split
    · rfl
    · exact List.isSome_head?.mpr nonempty

instance : TrackingHook LfuEvictionPolicy where
  Tracks _ _ := True
  mem_of_selectVictim _ := mem_of_selectVictim
  selectVictim_isSome := by
    intro policy candidateKeys key _ member
    exact policy.selectVictim_isSome (List.ne_nil_of_mem member)
  tracks_recordWrite _ _ := trivial
  recordWrite_keeps _ _ := id
  recordAccess_keeps _ _ := id
  recordRemoval_keeps _ := fun _ => id
  onStorageEvent_keeps _ _ _ := id

/-! ## Buckets and frequencies -/

/-- A bucket holds a key. -/
def InBucket (buckets : InsertionMap Nat (InsertionMap CacheKey Unit)) (freq : Nat)
    (key : CacheKey) : Prop :=
  ∃ bucket, buckets.get? freq = some bucket ∧ key ∈ bucket.keys

/-- Every tracked key has a positive frequency and is in the bucket of that frequency,
and in no other. -/
structure Bucketed (frequency : InsertionMap CacheKey Nat)
    (buckets : InsertionMap Nat (InsertionMap CacheKey Unit)) : Prop where
  inBucket_iff : ∀ key freq, InBucket buckets freq key ↔ frequency.get? key = some freq
  positive : ∀ key freq, frequency.get? key = some freq → 0 < freq

/-- Take a key out of a bucket, and the bucket away with its last key. -/
def dropFromBucket (buckets : InsertionMap Nat (InsertionMap CacheKey Unit)) (freq : Nat)
    (key : CacheKey) : InsertionMap Nat (InsertionMap CacheKey Unit) :=
  match buckets.get? freq with
  | none => buckets
  | some bucket =>
      if (bucket.erase key).size = 0 then buckets.erase freq
      else buckets.insert freq (bucket.erase key)

theorem inBucket_addToBucket {policy : LfuEvictionPolicy} {freq other : Nat}
    {key query : CacheKey} :
    InBucket (policy.addToBucket freq key).buckets other query ↔
      (other = freq ∧ query = key) ∨ InBucket policy.buckets other query := by
  simp only [InBucket, addToBucket, InsertionMap.get?_insert]
  by_cases same : other = freq
  · subst same
    cases found : policy.buckets.get? other with
    | none => simp [InsertionMap.mem_keys_insert]
    | some bucket => simp [InsertionMap.mem_keys_insert]
  · simp [same]

theorem inBucket_dropFromBucket
    {buckets : InsertionMap Nat (InsertionMap CacheKey Unit)} {freq other : Nat}
    {key query : CacheKey} :
    InBucket (dropFromBucket buckets freq key) other query ↔
      InBucket buckets other query ∧ ¬(other = freq ∧ query = key) := by
  unfold dropFromBucket
  split
  · next absent =>
      refine ⟨fun inside => ⟨inside, ?_⟩, fun inside => inside.1⟩
      rintro ⟨rfl, rfl⟩
      obtain ⟨bucket, found, -⟩ := inside
      rw [absent] at found
      cases found
  · next bucket found =>
      by_cases same : other = freq
      · subst same
        have remaining : InBucket buckets other query ↔ query ∈ bucket.keys := by
          simp [InBucket, found]
        rw [remaining]
        split
        · next emptied =>
            have gone : query ∉ (bucket.erase key).keys := by
              rw [List.eq_nil_of_length_eq_zero
                ((bucket.erase key).keys_length.trans emptied)]
              exact List.not_mem_nil
            rw [InsertionMap.mem_keys_erase] at gone
            simp only [InBucket, InsertionMap.get?_erase, if_true]
            constructor
            · rintro ⟨_, impossible, -⟩
              cases impossible
            · rintro ⟨member, different⟩
              exact absurd ⟨fun equal => different ⟨trivial, equal⟩, member⟩ gone
        · simp [InBucket, InsertionMap.mem_keys_erase, and_comm]
      · have elsewhere : ∀ changed : InsertionMap Nat (InsertionMap CacheKey Unit),
            changed.get? other = buckets.get? other →
              (InBucket changed other query ↔
                InBucket buckets other query ∧ ¬(other = freq ∧ query = key)) := by
          intro changed unchanged
          simp [InBucket, unchanged, same]
        split
        · exact elsewhere _ (InsertionMap.get?_erase_of_ne _ same)
        · exact elsewhere _ (InsertionMap.get?_insert_of_ne _ same _)

theorem bucketed_empty : Bucketed .empty .empty where
  inBucket_iff := by
    intro key freq
    constructor
    · rintro ⟨_, impossible, -⟩
      cases impossible
    · intro impossible
      cases impossible
  positive := by
    intro key freq impossible
    cases impossible

/-- A key that is not tracked yet enters the bucket of its frequency. -/
theorem Bucketed.track {policy : LfuEvictionPolicy} {freq : Nat} {key : CacheKey}
    (bucketed : Bucketed policy.frequency policy.buckets)
    (absent : policy.frequency.get? key = none) (positive : 0 < freq) :
    Bucketed (policy.frequency.insert key freq) (policy.addToBucket freq key).buckets where
  inBucket_iff query other := by
    rw [inBucket_addToBucket, bucketed.inBucket_iff, InsertionMap.get?_insert]
    by_cases same : query = key
    · subst same
      simp [absent, eq_comm]
    · simp [same]
  positive query other := by
    rw [InsertionMap.get?_insert]
    split
    · rintro ⟨⟩
      exact positive
    · exact bucketed.positive query other

/-- A tracked key moves on to the next bucket. -/
theorem Bucketed.move {policy : LfuEvictionPolicy} {freq : Nat} {key : CacheKey}
    (bucketed : Bucketed policy.frequency policy.buckets)
    (tracked : policy.frequency.get? key = some freq) :
    Bucketed (policy.frequency.insert key (freq + 1))
      (addToBucket { policy with buckets := dropFromBucket policy.buckets freq key }
        (freq + 1) key).buckets where
  inBucket_iff query other := by
    rw [inBucket_addToBucket, inBucket_dropFromBucket, bucketed.inBucket_iff,
      InsertionMap.get?_insert]
    by_cases same : query = key
    · subst same
      simp [tracked, eq_comm]
    · simp [same]
  positive query other := by
    rw [InsertionMap.get?_insert]
    split
    · rintro ⟨⟩
      exact Nat.succ_pos freq
    · exact bucketed.positive query other

theorem Bucketed.forget {frequency : InsertionMap CacheKey Nat}
    {buckets : InsertionMap Nat (InsertionMap CacheKey Unit)} {freq : Nat} {key : CacheKey}
    (bucketed : Bucketed frequency buckets) (tracked : frequency.get? key = some freq) :
    Bucketed (frequency.erase key) (dropFromBucket buckets freq key) where
  inBucket_iff query other := by
    rw [inBucket_dropFromBucket, bucketed.inBucket_iff, InsertionMap.get?_erase]
    by_cases same : query = key
    · subst same
      simp [tracked, eq_comm]
    · simp [same]
  positive query other := by
    rw [InsertionMap.get?_erase]
    split
    · intro impossible
      cases impossible
    · exact bucketed.positive query other

theorem bump_of_untracked {policy : LfuEvictionPolicy} {key : CacheKey}
    (absent : policy.frequency.get? key = none) :
    (policy.bump key).frequency = policy.frequency.insert key 1 ∧
      (policy.bump key).buckets = (policy.addToBucket 1 key).buckets := by
  simp [bump, absent, addToBucket]

theorem bump_of_tracked {policy : LfuEvictionPolicy} {key : CacheKey} {freq : Nat}
    (tracked : policy.frequency.get? key = some freq) (positive : 0 < freq) :
    (policy.bump key).frequency = policy.frequency.insert key (freq + 1) ∧
      (policy.bump key).buckets =
        (addToBucket { policy with buckets := dropFromBucket policy.buckets freq key }
          (freq + 1) key).buckets := by
  simp only [bump, tracked, Option.getD_some, gt_iff_lt, positive, if_true, addToBucket,
    dropFromBucket]
  cases policy.buckets.get? freq with
  | none => exact ⟨rfl, rfl⟩
  | some bucket =>
      simp only
      split
      · exact ⟨rfl, rfl⟩
      · exact ⟨rfl, rfl⟩

theorem recordRemoval_of_tracked {policy : LfuEvictionPolicy} {key : CacheKey} {freq : Nat}
    (tracked : policy.frequency.get? key = some freq) :
    (policy.recordRemoval key).frequency = policy.frequency.erase key ∧
      (policy.recordRemoval key).buckets = dropFromBucket policy.buckets freq key := by
  simp only [recordRemoval, tracked, dropFromBucket]
  cases policy.buckets.get? freq with
  | none => exact ⟨rfl, rfl⟩
  | some bucket =>
      simp only
      split
      · split
        · exact ⟨rfl, rfl⟩
        · exact ⟨rfl, rfl⟩
      · exact ⟨rfl, rfl⟩

/-- The buckets of a policy agree with its frequencies. -/
def Consistent (policy : LfuEvictionPolicy) : Prop :=
  Bucketed policy.frequency policy.buckets

theorem Consistent.bump {policy : LfuEvictionPolicy} (consistent : policy.Consistent)
    (key : CacheKey) : (policy.bump key).Consistent := by
  cases found : policy.frequency.get? key with
  | none =>
      obtain ⟨frequency, buckets⟩ := bump_of_untracked found
      rw [Consistent, frequency, buckets]
      exact Bucketed.track consistent found Nat.one_pos
  | some freq =>
      obtain ⟨frequency, buckets⟩ := bump_of_tracked found (consistent.positive key freq found)
      rw [Consistent, frequency, buckets]
      exact Bucketed.move consistent found

theorem mem_frequency_bump {policy : LfuEvictionPolicy} {key query : CacheKey} :
    query ∈ (policy.bump key).frequency.keys ↔
      query = key ∨ query ∈ policy.frequency.keys := by
  have counted : (policy.bump key).frequency =
      policy.frequency.insert key ((policy.frequency.get? key).getD 0 + 1) := by
    simp only [LfuEvictionPolicy.bump, addToBucket]
    split
    · split
      · rfl
      · split
        · rfl
        · rfl
    · rfl
  rw [counted, InsertionMap.mem_keys_insert]

theorem Consistent.recordWrite {policy : LfuEvictionPolicy}
    (consistent : policy.Consistent) (key : CacheKey) :
    (policy.recordWrite key).Consistent := by
  rw [LfuEvictionPolicy.recordWrite]
  split
  · exact consistent.bump key
  · next untracked =>
      apply Bucketed.track consistent _ Nat.one_pos
      rw [InsertionMap.contains, Bool.not_eq_true, Option.isSome_eq_false_iff,
        Option.isNone_iff_eq_none] at untracked
      exact untracked

theorem mem_frequency_recordWrite {policy : LfuEvictionPolicy} {key query : CacheKey} :
    query ∈ (policy.recordWrite key).frequency.keys ↔
      query = key ∨ query ∈ policy.frequency.keys := by
  rw [LfuEvictionPolicy.recordWrite]
  split
  · exact mem_frequency_bump
  · exact InsertionMap.mem_keys_insert

theorem Consistent.recordRemoval {policy : LfuEvictionPolicy}
    (consistent : policy.Consistent) (key : CacheKey) :
    (policy.recordRemoval key).Consistent := by
  cases found : policy.frequency.get? key with
  | none =>
      rw [LfuEvictionPolicy.recordRemoval, found]
      exact consistent
  | some freq =>
      obtain ⟨frequency, buckets⟩ := recordRemoval_of_tracked found
      rw [Consistent, frequency, buckets]
      exact Bucketed.forget consistent found

theorem mem_frequency_recordRemoval {policy : LfuEvictionPolicy} {key query : CacheKey} :
    query ∈ (policy.recordRemoval key).frequency.keys ↔
      query ≠ key ∧ query ∈ policy.frequency.keys := by
  cases found : policy.frequency.get? key with
  | none =>
      rw [LfuEvictionPolicy.recordRemoval, found]
      refine ⟨fun member => ⟨?_, member⟩, fun both => both.2⟩
      rintro rfl
      exact InsertionMap.get?_eq_none_iff.mp found member
  | some freq =>
      rw [(recordRemoval_of_tracked found).1, InsertionMap.mem_keys_erase]

/-- The step of `seed`. -/
private theorem consistent_seed_step (entries : List (CacheEntry Value)) :
    ∀ policy : LfuEvictionPolicy, policy.Consistent →
      (entries.map CacheEntry.key).Nodup →
      (∀ entry ∈ entries, entry.key ∉ policy.frequency.keys) →
      (entries.foldl
        (fun current entry =>
          let freq := max 1
            (if entry.metadata.frequency = 0 then 1 else entry.metadata.frequency)
          addToBucket { current with frequency := current.frequency.insert entry.key freq }
            freq entry.key) policy).Consistent := by
  induction entries with
  | nil =>
      intro policy consistent _ _
      exact consistent
  | cons entry rest ih =>
      intro policy consistent nodup fresh
      obtain ⟨others, restNodup⟩ := List.nodup_cons.mp nodup
      rw [List.foldl_cons]
      apply ih _ _ restNodup
      · intro later member
        simp only [addToBucket, InsertionMap.mem_keys_insert, not_or]
        refine ⟨?_, fresh later (List.mem_cons_of_mem _ member)⟩
        intro same
        exact others (List.mem_map.mpr ⟨later, member, same⟩)
      · apply Bucketed.track consistent _ (Nat.lt_of_lt_of_le Nat.one_pos (le_max_left ..))
        exact InsertionMap.get?_eq_none_iff.mpr (fresh entry (List.mem_cons_self ..))

theorem consistent_seed (policy : LfuEvictionPolicy) {entries : List (CacheEntry Value)}
    (nodup : (entries.map CacheEntry.key).Nodup) : (policy.seed entries).Consistent :=
  consistent_seed_step entries create bucketed_empty nodup (by simp [create])

theorem mem_frequency_seed (policy : LfuEvictionPolicy)
    {entries : List (CacheEntry Value)} {query : CacheKey} :
    query ∈ (policy.seed entries).frequency.keys ↔ query ∈ entries.map CacheEntry.key := by
  have counted : ∀ (remaining : List (CacheEntry Value)) (current : LfuEvictionPolicy),
      query ∈ (remaining.foldl
        (fun current entry =>
          let freq := max 1
            (if entry.metadata.frequency = 0 then 1 else entry.metadata.frequency)
          addToBucket { current with frequency := current.frequency.insert entry.key freq }
            freq entry.key) current).frequency.keys ↔
        query ∈ current.frequency.keys ∨ query ∈ remaining.map CacheEntry.key := by
    intro remaining
    induction remaining with
    | nil => simp
    | cons entry rest ih =>
        intro current
        rw [List.foldl_cons, ih]
        simp only [addToBucket, InsertionMap.mem_keys_insert, List.map_cons, List.mem_cons]
        tauto
  exact (counted entries create).trans (by simp [create])

end LfuEvictionPolicy

end FlowCache
