import FlowCache.Library.FrequencyOrder
import FlowCache.Library.Transition
import FlowCache.Eviction.Calls
import FlowCache.Eviction.LFU

/-!
# The buckets find the least frequently used key

Beside the policy runs a plain record of its calls: the tracked keys with their
frequencies, in the order in which they reached them.  The buckets are the keys of one
frequency of that record, `minFrequency` is its lowest frequency, and both paths of
`selectVictim` end where a scan of the whole record ends.
-/

namespace FlowCache

open Transition FrequencyOrder

variable {Value : Type}

/-- The record of a seed. -/
def seededCounts (entries : List (CacheEntry Value)) : List (CacheKey × Nat) :=
  entries.map fun entry => (entry.key, max 1 entry.metadata.frequency)

/-- The record after a call: a touched key is counted, and its place is the last one. -/
def recordCounts (order : List (CacheKey × Nat)) : PolicyCall Value → List (CacheKey × Nat)
  | .recordAccess key => FrequencyOrder.count order key
  | .recordWrite key => FrequencyOrder.count order key
  | .recordRemoval key => forget order key
  | .reset => []
  | .seed entries => seededCounts entries

namespace LfuEvictionPolicy

/-- The policy after a call. -/
def handle (policy : LfuEvictionPolicy) : PolicyCall Value → LfuEvictionPolicy
  | .recordAccess key => policy.recordAccess key
  | .recordWrite key => policy.recordWrite key
  | .recordRemoval key => policy.recordRemoval key
  | .reset => policy.reset
  | .seed entries => policy.seed entries

/-! ## Buckets -/

/-- What a bucket map has under a frequency: nothing rather than an empty bucket. -/
def occupied (keys : List CacheKey) : Option (List CacheKey) :=
  if keys = [] then none else some keys

/-- The buckets are the keys of each frequency. -/
def BucketsOf (buckets : InsertionMap Nat (InsertionMap CacheKey Unit))
    (order : List (CacheKey × Nat)) : Prop :=
  ∀ freq, (buckets.get? freq).map InsertionMap.keys = occupied (keysAt order freq)

namespace BucketsOf

variable {buckets : InsertionMap Nat (InsertionMap CacheKey Unit)}
  {order : List (CacheKey × Nat)}

theorem keys_eq (bucketsOf : BucketsOf buckets order) {freq : Nat}
    {bucket : InsertionMap CacheKey Unit} (found : buckets.get? freq = some bucket) :
    bucket.keys = keysAt order freq ∧ keysAt order freq ≠ [] := by
  have listed := bucketsOf freq
  rw [found, Option.map_some, occupied] at listed
  split at listed
  · cases listed
  · next nonempty => exact ⟨Option.some.inj listed, nonempty⟩

theorem keysAt_eq_nil (bucketsOf : BucketsOf buckets order) {freq : Nat}
    (absent : buckets.get? freq = none) : keysAt order freq = [] := by
  have listed := bucketsOf freq
  rw [absent, Option.map_none, occupied] at listed
  split at listed
  · next empty => exact empty
  · cases listed

theorem mem_keys_iff (bucketsOf : BucketsOf buckets order) {freq : Nat} :
    freq ∈ buckets.keys ↔ keysAt order freq ≠ [] := by
  rw [InsertionMap.mem_keys_iff]
  constructor
  · intro ⟨bucket, found⟩
    exact (bucketsOf.keys_eq found).2
  · intro nonempty
    cases found : buckets.get? freq with
    | none => exact absurd (bucketsOf.keysAt_eq_nil found) nonempty
    | some bucket => exact ⟨bucket, rfl⟩

theorem inBucket_iff (bucketsOf : BucketsOf buckets order) {freq : Nat} {key : CacheKey} :
    InBucket buckets freq key ↔ (key, freq) ∈ order := by
  rw [← mem_keysAt]
  constructor
  · intro ⟨bucket, found, member⟩
    rwa [(bucketsOf.keys_eq found).1] at member
  · intro member
    obtain ⟨bucket, found⟩ := InsertionMap.mem_keys_iff.mp
      (bucketsOf.mem_keys_iff.mpr (List.ne_nil_of_mem member))
    refine ⟨bucket, found, ?_⟩
    rwa [(bucketsOf.keys_eq found).1]

/-- The least bucket frequency is the lowest frequency of all. -/
theorem min?_eq (bucketsOf : BucketsOf buckets order) :
    buckets.keys.min?.getD 0 = lowest order := by
  cases order with
  | nil =>
      have none : buckets.keys = [] := by
        rw [List.eq_nil_iff_forall_not_mem]
        intro freq member
        exact bucketsOf.mem_keys_iff.mp member rfl
      rw [none]
      rfl
  | cons item rest =>
      obtain ⟨⟨key, member⟩, least⟩ := exists_lowest (List.cons_ne_nil item rest)
      have found : buckets.keys.min? = some (lowest (item :: rest)) := by
        rw [List.min?_eq_some_iff]
        constructor
        · exact bucketsOf.mem_keys_iff.mpr (List.ne_nil_of_mem (mem_keysAt.mpr member))
        · intro freq used
          obtain ⟨other, listed⟩ :=
            List.exists_mem_of_ne_nil _ (bucketsOf.mem_keys_iff.mp used)
          exact least (other, freq) (mem_keysAt.mp listed)
      rw [found, Option.getD_some]

/-- A key enters the bucket of its frequency behind the keys already there. -/
theorem add {policy : LfuEvictionPolicy} {freq : Nat} {key : CacheKey}
    (bucketsOf : BucketsOf policy.buckets order) (fresh : key ∉ order.map Prod.fst) :
    BucketsOf (policy.addToBucket freq key).buckets (order ++ [(key, freq)]) := by
  intro query
  rw [addToBucket, InsertionMap.get?_insert, keysAt_append]
  by_cases same : query = freq
  · subst same
    have added : keysAt [(key, query)] query = [key] := by simp [keysAt]
    have absent : key ∉ keysAt order query := by
      intro member
      exact fresh (List.mem_map.mpr ⟨_, mem_keysAt.mp member, rfl⟩)
    have nonempty : keysAt order query ++ [key] ≠ [] := by simp
    have listed : ((policy.buckets.get? query).getD .empty).keys = keysAt order query := by
      cases found : policy.buckets.get? query with
      | none => exact (bucketsOf.keysAt_eq_nil found).symm
      | some bucket => exact (bucketsOf.keys_eq found).1
    rw [if_pos rfl, Option.map_some, added, occupied, if_neg nonempty,
      InsertionMap.keys_insert_of_not_mem (by rwa [listed]), listed]
  · have nothing : keysAt [(key, freq)] query = [] := by simp [keysAt, Ne.symm same]
    rw [if_neg same, nothing, List.append_nil]
    exact bucketsOf query

/-- A key leaves its bucket, and the last one takes the bucket with it. -/
theorem drop {freq : Nat} {key : CacheKey} (bucketsOf : BucketsOf buckets order)
    (nodup : (order.map Prod.fst).Nodup) (member : (key, freq) ∈ order) :
    BucketsOf (dropFromBucket buckets freq key) (forget order key) := by
  intro query
  rw [keysAt_forget]
  obtain ⟨bucket, found⟩ := InsertionMap.mem_keys_iff.mp
    (bucketsOf.mem_keys_iff.mpr (List.ne_nil_of_mem (mem_keysAt.mpr member)))
  have remaining : (bucket.erase key).keys = (keysAt order freq).filter (· ≠ key) := by
    rw [InsertionMap.keys_erase, (bucketsOf.keys_eq found).1]
  have emptied : (bucket.erase key).size = 0 ↔ (keysAt order freq).filter (· ≠ key) = [] := by
    rw [← remaining, ← List.length_eq_zero_iff, InsertionMap.keys_length]
  by_cases same : query = freq
  · subst same
    simp only [dropFromBucket, found, occupied]
    split
    · next gone =>
        rw [InsertionMap.get?_erase, if_pos rfl, if_pos (emptied.mp gone), Option.map_none]
    · next left =>
        rw [InsertionMap.get?_insert_self, if_neg (emptied.not.mp left), Option.map_some,
          remaining]
  · have elsewhere : key ∉ keysAt order query := by
      intro listed
      exact same (count_unique nodup (mem_keysAt.mp listed) member)
    have unchanged : (keysAt order query).filter (· ≠ key) = keysAt order query := by
      apply List.filter_eq_self.mpr
      intro other listed
      simpa using fun equal : other = key => elsewhere (equal ▸ listed)
    have untouched : (dropFromBucket buckets freq key).get? query = buckets.get? query := by
      simp only [dropFromBucket, found]
      split
      · exact InsertionMap.get?_erase_of_ne _ same
      · exact InsertionMap.get?_insert_of_ne _ same _
    rw [untouched, unchanged]
    exact bucketsOf query

end BucketsOf

/-! ## The record of the calls -/

/-- The policy tracks what the record has. -/
structure Records (policy : LfuEvictionPolicy) (order : List (CacheKey × Nat)) : Prop where
  nodup : (order.map Prod.fst).Nodup
  positive : ∀ item ∈ order, 0 < item.2
  frequency : ∀ key freq, policy.frequency.get? key = some freq ↔ (key, freq) ∈ order
  buckets : BucketsOf policy.buckets order
  minFrequency : policy.minFrequency = lowest order

theorem records_create : create.Records [] where
  nodup := List.nodup_nil
  positive := by
    intro item member
    cases member
  frequency := by
    intro key freq
    constructor
    · intro impossible
      cases impossible
    · intro impossible
      cases impossible
  buckets := fun _ => rfl
  minFrequency := rfl

namespace Records

variable {policy : LfuEvictionPolicy} {order : List (CacheKey × Nat)}

theorem mem_frequency_iff (records : policy.Records order) {key : CacheKey} :
    key ∈ policy.frequency.keys ↔ key ∈ order.map Prod.fst := by
  rw [InsertionMap.mem_keys_iff, List.mem_map]
  constructor
  · intro ⟨freq, found⟩
    exact ⟨(key, freq), (records.frequency key freq).mp found, rfl⟩
  · rintro ⟨item, member, rfl⟩
    exact ⟨item.2, (records.frequency item.1 item.2).mpr member⟩

theorem get?_eq_none_iff (records : policy.Records order) {key : CacheKey} :
    policy.frequency.get? key = none ↔ key ∉ order.map Prod.fst := by
  rw [InsertionMap.get?_eq_none_iff, records.mem_frequency_iff]

/-- The frequencies after a key got a new one and the others kept theirs. -/
theorem frequency_set (records : policy.Records order) (key : CacheKey) (freq : Nat)
    (query : CacheKey) (other : Nat) :
    (policy.frequency.insert key freq).get? query = some other ↔
      (query, other) ∈ forget order key ++ [(key, freq)] := by
  rw [InsertionMap.get?_insert, List.mem_append, mem_forget, List.mem_singleton,
    Prod.mk.injEq]
  by_cases same : query = key
  · simp [same, eq_comm]
  · simp [same, records.frequency]

/-- A key that is not tracked enters with a positive frequency. -/
theorem track (records : policy.Records order) {key : CacheKey} {freq : Nat}
    {next : LfuEvictionPolicy} (fresh : key ∉ order.map Prod.fst) (positive : 0 < freq)
    (frequency : next.frequency = policy.frequency.insert key freq)
    (buckets : next.buckets = (policy.addToBucket freq key).buckets)
    (minFrequency : next.minFrequency = lowest (order ++ [(key, freq)])) :
    next.Records (order ++ [(key, freq)]) where
  nodup := by
    rw [List.map_append, List.map_singleton]
    exact records.nodup.append (List.nodup_singleton _)
      (List.disjoint_singleton.mpr fresh)
  positive := by
    intro item member
    rcases List.mem_append.mp member with old | added
    · exact records.positive item old
    · rw [List.mem_singleton.mp added]
      exact positive
  frequency query other := by
    rw [frequency, records.frequency_set, forget_of_absent fresh]
  buckets := by
    rw [buckets]
    exact records.buckets.add fresh
  minFrequency := minFrequency

/-- The first frequency of a key is the lowest there is. -/
theorem lowest_of_first (records : policy.Records order) (key : CacheKey) :
    lowest (order ++ [(key, 1)]) = 1 := by
  apply lowest_of_mem (List.mem_append_right _ (List.mem_singleton_self _))
  intro item member
  rcases List.mem_append.mp member with old | added
  · exact records.positive item old
  · rw [List.mem_singleton.mp added]

/-- The keys left in a bucket. -/
theorem size_erase_eq_zero_iff (records : policy.Records order) {key : CacheKey}
    {freq : Nat} {bucket : InsertionMap CacheKey Unit}
    (found : policy.buckets.get? freq = some bucket) :
    (bucket.erase key).size = 0 ↔ keysAt (forget order key) freq = [] := by
  rw [keysAt_forget, ← (records.buckets.keys_eq found).1, ← InsertionMap.keys_erase,
    ← List.length_eq_zero_iff, InsertionMap.keys_length]

theorem exists_bucket (records : policy.Records order) {key : CacheKey} {freq : Nat}
    (member : (key, freq) ∈ order) : ∃ bucket, policy.buckets.get? freq = some bucket :=
  InsertionMap.mem_keys_iff.mp (records.buckets.mem_keys_iff.mpr
    (List.ne_nil_of_mem (mem_keysAt.mpr member)))

theorem minFrequency_bump (records : policy.Records order) {key : CacheKey} {freq : Nat}
    (member : (key, freq) ∈ order) :
    (policy.bump key).minFrequency = lowest (forget order key ++ [(key, freq + 1)]) := by
  have tracked := (records.frequency key freq).mpr member
  have positive : freq > 0 := records.positive _ member
  obtain ⟨bucket, found⟩ := records.exists_bucket member
  rw [lowest_count records.nodup member, ← records.minFrequency]
  simp only [LfuEvictionPolicy.bump, addToBucket, tracked, Option.getD_some,
    if_pos positive, found, records.size_erase_eq_zero_iff found]
  by_cases emptied : keysAt (forget order key) freq = []
  · simp only [emptied, if_true, true_and]
  · simp only [emptied, if_false, false_and]

theorem bump (records : policy.Records order) (key : CacheKey) :
    (policy.bump key).Records (FrequencyOrder.count order key) := by
  cases found : policy.frequency.get? key with
  | none =>
      have fresh := records.get?_eq_none_iff.mp found
      obtain ⟨frequency, buckets⟩ := bump_of_untracked found
      rw [count_of_absent fresh]
      apply records.track fresh Nat.one_pos frequency buckets
      rw [records.lowest_of_first]
      simp only [LfuEvictionPolicy.bump, addToBucket, found, Option.getD_none]
      split
      · next impossible => exact absurd impossible (Nat.lt_irrefl 0)
      · split
        · rfl
        · next some => exact min_eq_right (Nat.one_le_iff_ne_zero.mpr some)
  | some freq =>
      have member := (records.frequency key freq).mp found
      obtain ⟨frequency, buckets⟩ := bump_of_tracked found (records.positive _ member)
      rw [count_of_mem records.nodup member]
      constructor
      · rw [List.map_append, List.map_singleton]
        exact (nodup_forget records.nodup key).append (List.nodup_singleton _)
          (List.disjoint_singleton.mpr (key_not_mem_forget order key))
      · intro item inside
        rcases List.mem_append.mp inside with old | added
        · exact records.positive item (mem_forget.mp old).1
        · rw [List.mem_singleton.mp added]
          exact Nat.succ_pos freq
      · intro query other
        rw [frequency]
        exact records.frequency_set key (freq + 1) query other
      · rw [buckets]
        exact (records.buckets.drop records.nodup member).add (key_not_mem_forget order key)
      · exact records.minFrequency_bump member

theorem recordWrite (records : policy.Records order) (key : CacheKey) :
    (policy.recordWrite key).Records (FrequencyOrder.count order key) := by
  rw [LfuEvictionPolicy.recordWrite]
  split
  · exact records.bump key
  · next untracked =>
      have fresh : key ∉ order.map Prod.fst := by
        rw [← records.get?_eq_none_iff]
        simpa [InsertionMap.contains] using untracked
      rw [count_of_absent fresh]
      exact records.track fresh Nat.one_pos rfl rfl (records.lowest_of_first key).symm

theorem minFrequency_recordRemoval (records : policy.Records order) {key : CacheKey}
    {freq : Nat} (member : (key, freq) ∈ order) :
    (policy.recordRemoval key).minFrequency = lowest (forget order key) := by
  have tracked := (records.frequency key freq).mpr member
  obtain ⟨bucket, found⟩ := records.exists_bucket member
  have dropped := records.buckets.drop records.nodup member
  simp only [dropFromBucket, found, records.size_erase_eq_zero_iff found] at dropped
  simp only [LfuEvictionPolicy.recordRemoval, tracked, found,
    records.size_erase_eq_zero_iff found]
  by_cases emptied : keysAt (forget order key) freq = []
  · simp only [emptied, if_true] at dropped ⊢
    split
    · exact dropped.min?_eq
    · next elsewhere =>
        rw [records.minFrequency] at elsewhere ⊢
        exact (lowest_forget records.nodup member fun _ => elsewhere).symm
  · simp only [emptied, if_false]
    rw [records.minFrequency]
    exact (lowest_forget records.nodup member fun empty => absurd empty emptied).symm

theorem recordRemoval (records : policy.Records order) (key : CacheKey) :
    (policy.recordRemoval key).Records (forget order key) := by
  cases found : policy.frequency.get? key with
  | none =>
      rw [LfuEvictionPolicy.recordRemoval, found,
        forget_of_absent (records.get?_eq_none_iff.mp found)]
      exact records
  | some freq =>
      have member := (records.frequency key freq).mp found
      obtain ⟨frequency, buckets⟩ := recordRemoval_of_tracked found
      constructor
      · exact nodup_forget records.nodup key
      · intro item inside
        exact records.positive item (mem_forget.mp inside).1
      · intro query other
        rw [frequency, InsertionMap.get?_erase, mem_forget, ← records.frequency]
        by_cases same : query = key
        · simp [same]
        · simp [same]
      · rw [buckets]
        exact records.buckets.drop records.nodup member
      · exact records.minFrequency_recordRemoval member

/-- The loop of `seed`, which leaves `minFrequency` for later. -/
private theorem seedLoop (entries : List (CacheEntry Value)) :
    ∀ (current : LfuEvictionPolicy) (order : List (CacheKey × Nat)),
      ({ current with minFrequency := lowest order } : LfuEvictionPolicy).Records order →
      (entries.map CacheEntry.key).Nodup →
      (∀ entry ∈ entries, entry.key ∉ order.map Prod.fst) →
      ({ entries.foldl
          (fun current entry =>
            let freq := max 1
              (if entry.metadata.frequency = 0 then 1 else entry.metadata.frequency)
            addToBucket
              { current with frequency := current.frequency.insert entry.key freq }
              freq entry.key) current with
          minFrequency := lowest (order ++ seededCounts entries) } :
        LfuEvictionPolicy).Records (order ++ seededCounts entries) := by
  induction entries with
  | nil =>
      intro current order records _ _
      simpa [seededCounts] using records
  | cons entry rest ih =>
      intro current order records nodup fresh
      obtain ⟨others, restNodup⟩ := List.nodup_cons.mp nodup
      have untracked := fresh entry List.mem_cons_self
      have counted : max 1
          (if entry.metadata.frequency = 0 then 1 else entry.metadata.frequency) =
          max 1 entry.metadata.frequency := by
        split
        · next zero => rw [zero]; rfl
        · rfl
      rw [List.foldl_cons, seededCounts, List.map_cons, ← seededCounts,
        List.append_cons]
      simp only [counted]
      apply ih _ _ _ restNodup
      · intro later member
        rw [List.map_append, List.mem_append, not_or]
        refine ⟨fresh later (List.mem_cons_of_mem entry member), ?_⟩
        intro same
        exact others (List.mem_map.mpr ⟨later, member, by simpa using same⟩)
      · exact records.track untracked (Nat.lt_of_lt_of_le Nat.one_pos (le_max_left ..))
          rfl rfl rfl

theorem seed (policy : LfuEvictionPolicy) {entries : List (CacheEntry Value)}
    (nodup : (entries.map CacheEntry.key).Nodup) :
    (policy.seed entries).Records (seededCounts entries) := by
  have looped := seedLoop entries create [] records_create nodup
    fun _ _ => List.not_mem_nil
  rw [List.nil_append] at looped
  exact ⟨looped.nodup, looped.positive, looped.frequency, looped.buckets,
    looped.buckets.min?_eq⟩

/-- A call keeps the policy and the record together. -/
theorem handle (records : policy.Records order) {call : PolicyCall Value}
    (distinct : call.DistinctKeys) : (policy.handle call).Records (recordCounts order call) := by
  cases call with
  | recordAccess key => exact records.bump key
  | recordWrite key => exact records.recordWrite key
  | recordRemoval key => exact records.recordRemoval key
  | reset => exact records_create
  | seed entries => exact seed policy distinct

theorem run {calls : List (PolicyCall Value)} (records : policy.Records order)
    (distinct : ∀ call ∈ calls, call.DistinctKeys) :
    (Transition.run LfuEvictionPolicy.handle policy calls).Records
      (Transition.run recordCounts order calls) := by
  induction calls generalizing policy order with
  | nil => exact records
  | cons call rest ih =>
      apply ih (records.handle (distinct call List.mem_cons_self))
      intro later member
      exact distinct later (List.mem_cons_of_mem call member)

/-! ## The victim -/

/-- The first candidate of a bucket is the first one of its frequency in the record. -/
theorem firstCandidate_eq (records : policy.Records order) (candidateKeys : List CacheKey)
    (freq : Nat) :
    policy.firstCandidate candidateKeys freq =
      (keysAt order freq).find? fun key => key ∈ candidateKeys := by
  rw [firstCandidate]
  cases found : policy.buckets.get? freq with
  | none =>
      rw [records.buckets.keysAt_eq_nil found]
      rfl
  | some bucket => rw [Option.bind_some, (records.buckets.keys_eq found).1]

/-- A tracked candidate is found in the bucket of its frequency. -/
theorem firstCandidate_isSome (records : policy.Records order)
    {candidateKeys : List CacheKey} {item : CacheKey × Nat} (member : item ∈ order)
    (candidate : item.1 ∈ candidateKeys) :
    (policy.firstCandidate candidateKeys item.2).isSome := by
  rw [records.firstCandidate_eq, List.find?_isSome]
  exact ⟨item.1, mem_keysAt.mpr member, by simpa using candidate⟩

/-- Both paths of `selectVictim` end at the key that one scan of the record finds. -/
theorem selectVictim_eq (records : policy.Records order) {candidateKeys : List CacheKey}
    {key : CacheKey} (candidate : key ∈ candidateKeys) (tracked : key ∈ order.map Prod.fst) :
    policy.selectVictim candidateKeys =
      leastFrequent order fun query => query ∈ candidateKeys := by
  obtain ⟨held, member, rfl⟩ := List.mem_map.mp tracked
  rw [selectVictim, if_neg (List.ne_nil_of_mem candidate)]
  split
  · next victim fast =>
      rw [records.firstCandidate_eq, records.minFrequency] at fast
      symm
      apply leastFrequent_eq fast
      intro item inside _
      exact (exists_lowest (List.ne_nil_of_mem inside)).2 item inside
  · split
    · next victim walked =>
        obtain ⟨before, freq, after, sorted, first, skipped⟩ :=
          List.findSome?_eq_some_iff.mp walked
        rw [records.firstCandidate_eq] at first
        symm
        apply leastFrequent_eq first
        intro item inside selected
        have some := records.firstCandidate_isSome inside (of_decide_eq_true selected)
        have listed : item.2 ∈ before ++ freq :: after := by
          rw [← sorted, List.mem_insertionSort, records.buckets.mem_keys_iff]
          exact List.ne_nil_of_mem (mem_keysAt.mpr inside)
        rcases List.mem_append.mp listed with earlier | later
        · rw [skipped item.2 earlier] at some
          cases some
        · have ascending : (before ++ freq :: after).Pairwise (· ≤ ·) := by
            rw [← sorted]
            exact List.pairwise_insertionSort (· ≤ ·) policy.buckets.keys
          rcases List.mem_cons.mp later with same | behind
          · rw [same]
          · exact (List.pairwise_cons.mp (List.pairwise_append.mp ascending).2.1).1 _ behind
    · next nothing =>
        have some := records.firstCandidate_isSome member candidate
        have used : held.2 ∈ policy.buckets.keys.insertionSort (· ≤ ·) := by
          rw [List.mem_insertionSort, records.buckets.mem_keys_iff]
          exact List.ne_nil_of_mem (mem_keysAt.mpr member)
        rw [List.findSome?_eq_none_iff.mp nothing held.2 used] at some
        cases some

end Records

/-- After any calls, every key is in the bucket of its frequency and in no other, no
bucket is empty and `minFrequency` is the least bucket frequency.  Of the candidates that
are tracked the victim has the lowest frequency, and it is the first that reached it: the
buckets lead to the key that a scan of all tracked keys finds. -/
theorem victim_is_least_frequent (calls : List (PolicyCall Value))
    (distinct : ∀ call ∈ calls, call.DistinctKeys) :
    let policy := run handle create calls
    let order := run recordCounts [] calls
    (∀ key freq, policy.frequency.get? key = some freq ↔ (key, freq) ∈ order) ∧
      (∀ key freq, policy.frequency.get? key = some freq ↔
        InBucket policy.buckets freq key) ∧
      (∀ freq bucket, policy.buckets.get? freq = some bucket → bucket.keys ≠ []) ∧
      policy.minFrequency = policy.buckets.keys.min?.getD 0 ∧
      ∀ candidateKeys : List CacheKey,
        (∃ key ∈ candidateKeys, key ∈ policy.frequency.keys) →
        policy.selectVictim candidateKeys =
            leastFrequent order (fun query => query ∈ candidateKeys) ∧
          ∃ victim freq before after, policy.selectVictim candidateKeys = some victim ∧
            order = before ++ (victim, freq) :: after ∧ victim ∈ candidateKeys ∧
            (∀ item ∈ order, item.1 ∈ candidateKeys → freq ≤ item.2) ∧
            ∀ item ∈ before, item.1 ∈ candidateKeys → freq < item.2 := by
  intro policy order
  have records : policy.Records order := Records.run records_create distinct
  refine ⟨records.frequency, ?_, ?_, ?_, ?_⟩
  · intro key freq
    rw [records.frequency, records.buckets.inBucket_iff]
  · intro freq bucket found
    obtain ⟨keys, nonempty⟩ := records.buckets.keys_eq found
    rwa [keys]
  · rw [records.minFrequency, records.buckets.min?_eq]
  · intro candidateKeys ⟨key, candidate, tracked⟩
    have scanned := records.selectVictim_eq candidate (records.mem_frequency_iff.mp tracked)
    refine ⟨scanned, ?_⟩
    obtain ⟨victim, found⟩ := Option.isSome_iff_exists.mp
      (policy.selectVictim_isSome (List.ne_nil_of_mem candidate))
    obtain ⟨before, freq, after, split, chosen, least, first⟩ :=
      leastFrequent_spec (scanned.symm.trans found)
    simp only [decide_eq_true_eq] at chosen least first
    exact ⟨victim, freq, before, after, found, split, chosen, least, first⟩

/-- Two of three seeded keys are candidates; the one that was read again is not the
victim, although it was seeded with the lower frequency. -/
theorem victim_is_least_frequent_seeded :
    let calls : List (PolicyCall Nat) :=
      [.seed [⟨"a", 0, ⟨1, 0, 0, 0, 1, none, 1⟩⟩, ⟨"b", 0, ⟨1, 0, 0, 0, 2, none, 1⟩⟩,
          ⟨"c", 0, ⟨1, 0, 0, 0, 1, none, 1⟩⟩],
        .recordAccess "a", .recordWrite "d", .recordAccess "a", .recordRemoval "d"]
    (run handle create calls).selectVictim ["a", "b"] = some "b" := by
  intro calls
  have distinct : ∀ call ∈ calls, call.DistinctKeys := by
    simp [calls, PolicyCall.DistinctKeys]
  have scanned := ((victim_is_least_frequent calls distinct).2.2.2.2 ["a", "b"]
    ⟨"a", by decide, by decide +kernel⟩).1
  rw [scanned]
  decide +kernel

end LfuEvictionPolicy

end FlowCache
