import FlowCache.Storage.Engine

/-!
# What each storage operation does to the stored entries

One lookup lemma for each operation of the engine.  Later modules cite these and
never unfold an operation.
-/

namespace FlowCache

theorem CacheMetadata.isExpired_of_le {metadata : CacheMetadata} {earlier now : Millis}
    (later : earlier ≤ now) (expired : metadata.isExpired earlier = true) :
    metadata.isExpired now = true := by
  unfold isExpired at expired ⊢
  cases deadline : metadata.expiresAt with
  | none => simp [deadline] at expired
  | some expiresAt =>
      simp only [deadline, decide_eq_true_eq] at expired ⊢
      exact Int.le_trans expired later

/-- The entry after a hit. -/
def CacheEntry.touchedAt {Value : Type} (entry : CacheEntry Value) (now : Millis) :
    CacheEntry Value :=
  { entry with metadata :=
    { entry.metadata with
      lastAccessedAt := now
      frequency := entry.metadata.frequency + 1 } }

namespace StorageEngine

variable {Value Hook : Type}

/-! ## Reads -/

theorem peek_eq_some_iff {engine : StorageEngine Value Hook} {now : Millis}
    {key : CacheKey} {entry : CacheEntry Value} :
    engine.peek now key = some entry ↔
      engine.store.get? key = some entry ∧ entry.metadata.isExpired now = false := by
  unfold peek
  cases engine.store.get? key with
  | none => simp
  | some stored =>
      simp only [Option.some.injEq]
      cases expired : stored.metadata.isExpired now with
      | true =>
          simp only [if_true]
          constructor
          · intro impossible
            cases impossible
          · rintro ⟨rfl, live⟩
            simp [expired] at live
      | false =>
          simp only [Bool.false_eq_true, if_false, Option.some.injEq]
          constructor
          · rintro rfl
            exact ⟨rfl, expired⟩
          · exact fun both => both.1

@[simp] theorem clear_options (engine : StorageEngine Value Hook) :
    engine.clear.options = engine.options := rfl

@[simp] theorem create_get? (options : StorageEngineOptions) (hook : Hook)
    (key : CacheKey) :
    (create options hook : StorageEngine Value Hook).store.get? key = none := rfl

/-- Every entry is stored under its own key. -/
def Keyed (engine : StorageEngine Value Hook) : Prop :=
  ∀ key entry, engine.store.get? key = some entry → entry.key = key

theorem keyed_create (options : StorageEngineOptions) (hook : Hook) :
    Keyed (create options hook : StorageEngine Value Hook) := by
  intro key entry impossible
  cases impossible

/-- Forgetting and touching entries keeps them under their own keys. -/
theorem Keyed.of_stored {engine next : StorageEngine Value Hook} (keyed : engine.Keyed)
    (stored : ∀ key after, next.store.get? key = some after →
      ∃ entry, engine.store.get? key = some entry ∧ CacheEntry.SameContent after entry) :
    next.Keyed := by
  intro key after found
  obtain ⟨entry, before, same⟩ := stored key after found
  rw [same.key]
  exact keyed key entry before

theorem Keyed.map_key_entries {engine : StorageEngine Value Hook}
    (keyed : engine.Keyed) : engine.entries.map CacheEntry.key = engine.store.keys := by
  rw [entries, InsertionMap.values, List.map_map, InsertionMap.keys]
  apply List.map_congr_left
  rintro ⟨key, entry⟩ member
  exact keyed key entry (InsertionMap.get?_eq_some_iff.mpr member)

theorem Keyed.nodup_map_key_entries {engine : StorageEngine Value Hook}
    (keyed : engine.Keyed) : (engine.entries.map CacheEntry.key).Nodup := by
  rw [keyed.map_key_entries]
  exact engine.store.keys_nodup

section NextEntry

variable [SizedValue Value]

@[simp] theorem nextEntry_value (engine : StorageEngine Value Hook) (now : Millis)
    (key : CacheKey) (value : Value) (options : SetOptions) :
    (engine.nextEntry now key value options).value = value := rfl

@[simp] theorem nextEntry_expiresAt (engine : StorageEngine Value Hook) (now : Millis)
    (key : CacheKey) (value : Value) (options : SetOptions) :
    (engine.nextEntry now key value options).metadata.expiresAt =
      (options.ttlMs.getD engine.options.defaultTtlMs).map (now + ·) := by
  cases found : engine.store.get? key <;> simp [nextEntry, nextMetadata, found]

@[simp] theorem nextEntry_sizeBytes (engine : StorageEngine Value Hook) (now : Millis)
    (key : CacheKey) (value : Value) (options : SetOptions) :
    (engine.nextEntry now key value options).metadata.sizeBytes =
      SizedValue.approximateSizeBytes value := by
  cases found : engine.store.get? key <;> simp [nextEntry, nextMetadata, found]

theorem nextEntry_version (engine : StorageEngine Value Hook) (now : Millis)
    (key : CacheKey) (value : Value) (options : SetOptions) :
    (engine.nextEntry now key value options).metadata.version =
      ((engine.store.get? key).map fun entry => entry.metadata.version).getD 0 + 1 := by
  cases found : engine.store.get? key <;> simp [nextEntry, nextMetadata, found]

/-- The written entry is a function of the raw lookup and the options. -/
theorem nextEntry_congr {engine other : StorageEngine Value Hook} {key : CacheKey}
    (options : other.options = engine.options)
    (lookup : other.store.get? key = engine.store.get? key)
    (now : Millis) (value : Value) (setOptions : SetOptions) :
    other.nextEntry now key value setOptions =
      engine.nextEntry now key value setOptions := by
  simp only [nextEntry, options, lookup]

end NextEntry

variable [EvictionHook Hook]

section Emit

variable (engine : StorageEngine Value Hook) (event : StorageEngineEvent)
  (key : CacheKey)

@[simp] theorem emit_store : (engine.emit event key).store = engine.store := rfl

@[simp] theorem emit_options : (engine.emit event key).options = engine.options := rfl

end Emit

/-! ## Removals -/

theorem removeInternal_of_absent {engine : StorageEngine Value Hook} {key : CacheKey}
    (absent : engine.store.get? key = none) (reason : RemovalReason) :
    engine.removeInternal key reason = engine := by
  simp [removeInternal, absent]

theorem removeInternal_store (engine : StorageEngine Value Hook) (key : CacheKey)
    (reason : RemovalReason) (stored : key ∈ engine.store.keys) :
    (engine.removeInternal key reason).store = engine.store.erase key := by
  obtain ⟨entry, found⟩ := InsertionMap.mem_keys_iff.mp stored
  simp [removeInternal, found]

@[simp] theorem removeInternal_options (engine : StorageEngine Value Hook)
    (key : CacheKey) (reason : RemovalReason) :
    (engine.removeInternal key reason).options = engine.options := by
  cases found : engine.store.get? key <;> simp [removeInternal, found]

theorem removeInternal_get? (engine : StorageEngine Value Hook) (key query : CacheKey)
    (reason : RemovalReason) :
    (engine.removeInternal key reason).store.get? query =
      if query = key then none else engine.store.get? query := by
  cases found : engine.store.get? key with
  | none =>
      rw [removeInternal_of_absent found]
      by_cases same : query = key
      · subst same; simp [found]
      · simp [same]
  | some entry =>
      rw [removeInternal_store _ _ _ (InsertionMap.mem_keys_of_get? found),
        InsertionMap.get?_erase]

@[simp] theorem delete_options (engine : StorageEngine Value Hook) (key : CacheKey) :
    (engine.delete key).2.options = engine.options := by
  unfold delete
  split <;> simp

theorem delete_get? (engine : StorageEngine Value Hook) (key query : CacheKey) :
    (engine.delete key).2.store.get? query =
      if query = key then none else engine.store.get? query := by
  unfold delete
  split
  · exact removeInternal_get? engine key query .delete
  · next missing =>
      by_cases same : query = key
      · subst same
        simpa [InsertionMap.contains] using missing
      · simp [same]

theorem delete_fst (engine : StorageEngine Value Hook) (key : CacheKey) :
    (engine.delete key).1 = engine.store.contains key := by
  unfold delete
  split
  · next stored => exact stored.symm
  · next missing => exact ((Bool.not_eq_true _).mp missing).symm

theorem delete_of_missing {engine : StorageEngine Value Hook} {key : CacheKey}
    (missing : (engine.delete key).1 = false) : (engine.delete key).2 = engine := by
  rw [delete_fst] at missing
  simp [delete, missing]

private theorem foldl_removeInternal_get? (expired : List (CacheKey × CacheEntry Value))
    (engine : StorageEngine Value Hook) (query : CacheKey) :
    (expired.foldl (fun current stored => current.removeInternal stored.1 .expire)
        engine).store.get? query =
      if query ∈ expired.map Prod.fst then none else engine.store.get? query := by
  induction expired generalizing engine with
  | nil => simp
  | cons stored rest ih =>
      rw [List.foldl_cons, ih, removeInternal_get?]
      by_cases head : query = stored.1 <;>
        by_cases tail : query ∈ rest.map Prod.fst <;> simp_all

theorem sweepExpired_get? (engine : StorageEngine Value Hook) (now : Millis)
    (query : CacheKey) :
    (engine.sweepExpired now).2.store.get? query =
      (engine.store.get? query).filter fun entry => !entry.metadata.isExpired now := by
  unfold sweepExpired
  rw [foldl_removeInternal_get?]
  have swept : query ∈ (engine.store.entries.filter fun stored =>
        stored.2.metadata.isExpired now).map Prod.fst ↔
      ∃ entry, engine.store.get? query = some entry ∧
        entry.metadata.isExpired now = true := by
    simp [InsertionMap.get?_eq_some_iff]
  cases found : engine.store.get? query with
  | none => simp
  | some entry =>
      simp only [swept, found, Option.some.injEq, exists_eq_left', Option.filter]
      by_cases expired : entry.metadata.isExpired now = true <;> simp [expired]

@[simp] theorem foldl_removeInternal_options
    (expired : List (CacheKey × CacheEntry Value))
    (engine : StorageEngine Value Hook) :
    (expired.foldl (fun current stored => current.removeInternal stored.1 .expire)
        engine).options = engine.options := by
  induction expired generalizing engine with
  | nil => rfl
  | cons stored rest ih => rw [List.foldl_cons, ih, removeInternal_options]

@[simp] theorem sweepExpired_options (engine : StorageEngine Value Hook)
    (now : Millis) : (engine.sweepExpired now).2.options = engine.options := by
  simp [sweepExpired]

/-! ## Reads with side effects -/

@[simp] theorem get_options (engine : StorageEngine Value Hook) (now : Millis)
    (key : CacheKey) : (engine.get now key).2.options = engine.options := by
  unfold get
  split
  · rfl
  · split
    · simp [recordMiss]
    · rfl

@[simp] theorem has_options (engine : StorageEngine Value Hook) (now : Millis)
    (key : CacheKey) : (engine.has now key).2.options = engine.options := by
  unfold has
  split
  · rfl
  · split <;> simp

/-- `get` keeps the content of every entry that has not expired. -/
theorem get_keeps_live {engine : StorageEngine Value Hook} {now : Millis}
    (key : CacheKey) {query : CacheKey} {entry : CacheEntry Value}
    (stored : engine.store.get? query = some entry)
    (live : entry.metadata.isExpired now = false) :
    ∃ kept, (engine.get now key).2.store.get? query = some kept ∧
      CacheEntry.SameContent kept entry := by
  by_cases same : query = key
  · subst same
    simp only [get, stored, live, Bool.false_eq_true, if_false, emit_store]
    exact ⟨_, InsertionMap.get?_insert_self _ _ _, rfl, rfl, rfl, rfl⟩
  · refine ⟨entry, ?_, rfl, rfl, rfl, rfl⟩
    unfold get
    split
    · exact stored
    · split
      · simpa [recordMiss, removeInternal_get?, same] using stored
      · simpa [InsertionMap.get?_insert, same] using stored

/-- Every entry stored after `get` has the content of an entry stored before. -/
theorem get_stored {engine : StorageEngine Value Hook} {now : Millis}
    {key query : CacheKey} {kept : CacheEntry Value}
    (stored : (engine.get now key).2.store.get? query = some kept) :
    ∃ entry, engine.store.get? query = some entry ∧
      CacheEntry.SameContent kept entry := by
  unfold get at stored
  split at stored
  · exact ⟨kept, stored, rfl, rfl, rfl, rfl⟩
  · next found =>
      split at stored
      · simp only [recordMiss, emit_store, removeInternal_get?] at stored
        split at stored
        · cases stored
        · exact ⟨kept, stored, rfl, rfl, rfl, rfl⟩
      · simp only [emit_store, InsertionMap.get?_insert] at stored
        split at stored
        · next same =>
            subst same
            cases stored
            exact ⟨_, found, rfl, rfl, rfl, rfl⟩
        · exact ⟨kept, stored, rfl, rfl, rfl, rfl⟩

theorem has_keeps_live {engine : StorageEngine Value Hook} {now : Millis}
    (key : CacheKey) {query : CacheKey} {entry : CacheEntry Value}
    (stored : engine.store.get? query = some entry)
    (live : entry.metadata.isExpired now = false) :
    (engine.has now key).2.store.get? query = some entry := by
  unfold has
  split
  · exact stored
  · next found =>
      split
      · next expired =>
          have different : query ≠ key := by
            rintro rfl
            rw [stored] at found
            cases found
            simp [live] at expired
          simpa [removeInternal_get?, different] using stored
      · exact stored

theorem has_stored {engine : StorageEngine Value Hook} {now : Millis}
    {key query : CacheKey} {kept : CacheEntry Value}
    (stored : (engine.has now key).2.store.get? query = some kept) :
    engine.store.get? query = some kept := by
  unfold has at stored
  split at stored
  · exact stored
  · split at stored
    · rw [removeInternal_get?] at stored
      split at stored
      · cases stored
      · exact stored
    · exact stored

theorem sweepExpired_keeps_live {engine : StorageEngine Value Hook} {now : Millis}
    {query : CacheKey} {entry : CacheEntry Value}
    (stored : engine.store.get? query = some entry)
    (live : entry.metadata.isExpired now = false) :
    (engine.sweepExpired now).2.store.get? query = some entry := by
  simp [sweepExpired_get?, stored, live]

theorem sweepExpired_stored {engine : StorageEngine Value Hook} {now : Millis}
    {query : CacheKey} {kept : CacheEntry Value}
    (stored : (engine.sweepExpired now).2.store.get? query = some kept) :
    engine.store.get? query = some kept := by
  rw [sweepExpired_get?] at stored
  exact (Option.filter_eq_some_iff.mp stored).1

/-! ## The reads and the sweep in terms of `peek` -/

theorem get_fst (engine : StorageEngine Value Hook) (now : Millis) (key : CacheKey) :
    (engine.get now key).1 = (engine.peek now key).map (·.touchedAt now) := by
  unfold get peek
  split
  · rfl
  · split <;> rfl

theorem get_get? (engine : StorageEngine Value Hook) (now : Millis)
    (key query : CacheKey) :
    (engine.get now key).2.store.get? query =
      if query = key then (engine.peek now key).map (·.touchedAt now)
      else engine.store.get? query := by
  unfold get peek
  split
  · next absent =>
      by_cases same : query = key
      · subst same; simpa [recordMiss] using absent
      · simp [recordMiss, same]
  · next entry found =>
      split
      · simp [recordMiss, removeInternal_get?]
      · rw [emit_store, InsertionMap.get?_insert]
        rfl

theorem has_fst (engine : StorageEngine Value Hook) (now : Millis) (key : CacheKey) :
    (engine.has now key).1 = (engine.peek now key).isSome := by
  unfold has peek
  split
  · rfl
  · split <;> rfl

theorem has_get? (engine : StorageEngine Value Hook) (now : Millis)
    (key query : CacheKey) :
    (engine.has now key).2.store.get? query =
      if query = key then engine.peek now key else engine.store.get? query := by
  unfold has peek
  split
  · next absent =>
      by_cases same : query = key
      · subst same; simpa using absent
      · simp [same]
  · next entry found =>
      split
      · rw [removeInternal_get?]
      · by_cases same : query = key
        · subst same; simpa using found
        · simp [same]

/-- A sweep leaves what `peek` shows. -/
theorem sweepExpired_get?_eq_peek (engine : StorageEngine Value Hook) (now : Millis)
    (key : CacheKey) : (engine.sweepExpired now).2.store.get? key = engine.peek now key := by
  rw [sweepExpired_get?]
  unfold peek
  cases engine.store.get? key with
  | none => rfl
  | some entry => cases expired : entry.metadata.isExpired now <;> simp [expired]

theorem peek_sweepExpired (engine : StorageEngine Value Hook) (now : Millis)
    (key : CacheKey) : (engine.sweepExpired now).2.peek now key = engine.peek now key := by
  apply Option.ext
  intro entry
  rw [peek_eq_some_iff, sweepExpired_get?_eq_peek, peek_eq_some_iff, and_assoc, and_self]

/-! ## Capacity enforcement -/

@[simp] theorem evict_store (engine : StorageEngine Value Hook) (victim : CacheKey) :
    (engine.evict victim).store = (engine.removeInternal victim .evict).store := rfl

@[simp] theorem evict_options (engine : StorageEngine Value Hook)
    (victim : CacheKey) : (engine.evict victim).options = engine.options :=
  removeInternal_options engine victim .evict

@[simp] theorem enforceCapacityLoop_options (justWrittenKey : CacheKey)
    (fuel guard : Nat) (engine : StorageEngine Value Hook) :
    (enforceCapacityLoop justWrittenKey fuel guard engine).options =
      engine.options := by
  induction fuel generalizing guard engine with
  | zero => rfl
  | succ fuel ih =>
      unfold enforceCapacityLoop
      split
      · split
        · rfl
        · rw [ih, evict_options]
      · rfl

@[simp] theorem enforceCapacity_options (engine : StorageEngine Value Hook)
    (justWrittenKey : CacheKey) :
    (engine.enforceCapacity justWrittenKey).options = engine.options :=
  enforceCapacityLoop_options _ _ _ _

/-- Capacity enforcement only removes entries. -/
theorem enforceCapacityLoop_stored {justWrittenKey query : CacheKey}
    {fuel guard : Nat} {engine : StorageEngine Value Hook} {entry : CacheEntry Value}
    (stored : (enforceCapacityLoop justWrittenKey fuel guard engine).store.get? query =
      some entry) :
    engine.store.get? query = some entry := by
  induction fuel generalizing guard engine with
  | zero => exact stored
  | succ fuel ih =>
      unfold enforceCapacityLoop at stored
      split at stored
      · split at stored
        · exact stored
        · have kept := ih stored
          rw [evict_store, removeInternal_get?] at kept
          split at kept
          · cases kept
          · exact kept
      · exact stored

theorem enforceCapacityLoop_of_within {engine : StorageEngine Value Hook}
    (within : engine.overCapacity = false) (justWrittenKey : CacheKey)
    (fuel guard : Nat) :
    enforceCapacityLoop justWrittenKey fuel guard engine = engine := by
  cases fuel <;> simp [enforceCapacityLoop, within]

theorem enforceCapacity_of_within {engine : StorageEngine Value Hook}
    (within : engine.overCapacity = false) (justWrittenKey : CacheKey) :
    engine.enforceCapacity justWrittenKey = engine :=
  enforceCapacityLoop_of_within within _ _ _

/-- One victim is enough when the caps are met without it. -/
theorem enforceCapacity_of_one_victim {engine : StorageEngine Value Hook}
    {justWrittenKey victim : CacheKey} (exceeding : engine.overCapacity = true)
    (selected : EvictionHook.selectVictim engine.hook
      (engine.evictionCandidates justWrittenKey) = some victim)
    (within : (engine.evict victim).overCapacity = false) :
    engine.enforceCapacity justWrittenKey = engine.evict victim := by
  rw [enforceCapacity, enforceCapacityLoop, exceeding, selected]
  simp only [Nat.zero_lt_succ, decide_true, Bool.and_self, if_true]
  exact enforceCapacityLoop_of_within within _ _ _

/-! ## Writes -/

variable [SizedValue Value]

@[simp] theorem writeEntry_store (engine : StorageEngine Value Hook) (now : Millis)
    (key : CacheKey) (value : Value) (options : SetOptions) :
    (engine.writeEntry now key value options).store =
      engine.store.insert key (engine.nextEntry now key value options) := rfl

@[simp] theorem writeEntry_options (engine : StorageEngine Value Hook) (now : Millis)
    (key : CacheKey) (value : Value) (options : SetOptions) :
    (engine.writeEntry now key value options).options = engine.options := rfl

theorem afterSet_of_valid (engine : StorageEngine Value Hook) (now : Millis)
    {key : CacheKey} (valid : key ≠ "") (value : Value) (options : SetOptions) :
    engine.afterSet now key value options =
      (engine.writeEntry now key value options).enforceCapacity key := by
  simp [afterSet, set, valid]

theorem afterSet_of_empty (engine : StorageEngine Value Hook) (now : Millis)
    (value : Value) (options : SetOptions) :
    engine.afterSet now "" value options = engine := by
  simp [afterSet, set]

@[simp] theorem afterSet_options (engine : StorageEngine Value Hook) (now : Millis)
    (key : CacheKey) (value : Value) (options : SetOptions) :
    (engine.afterSet now key value options).options = engine.options := by
  by_cases empty : key = ""
  · subst empty; rw [afterSet_of_empty]
  · rw [afterSet_of_valid _ _ empty]; simp

/-- An entry stored after `set` is the one it wrote or was stored before. -/
theorem afterSet_stored {engine : StorageEngine Value Hook} {now : Millis}
    {key query : CacheKey} {value : Value} {options : SetOptions}
    {entry : CacheEntry Value}
    (stored : (engine.afterSet now key value options).store.get? query = some entry) :
    (key ≠ "" ∧ query = key ∧ entry = engine.nextEntry now key value options) ∨
      ((key = "" ∨ query ≠ key) ∧ engine.store.get? query = some entry) := by
  by_cases empty : key = ""
  · subst empty
    rw [afterSet_of_empty] at stored
    exact .inr ⟨.inl rfl, stored⟩
  · rw [afterSet_of_valid _ _ empty] at stored
    have written := enforceCapacityLoop_stored stored
    rw [writeEntry_store, InsertionMap.get?_insert] at written
    split at written
    · next same =>
        cases written
        exact .inl ⟨empty, same, rfl⟩
    · next different => exact .inr ⟨.inr different, written⟩

theorem Keyed.afterSet {engine : StorageEngine Value Hook} (keyed : engine.Keyed)
    (now : Millis) (key : CacheKey) (value : Value) (options : SetOptions) :
    (engine.afterSet now key value options).Keyed := by
  intro query entry stored
  rcases afterSet_stored stored with ⟨_, rfl, rfl⟩ | ⟨_, kept⟩
  · rfl
  · exact keyed query entry kept

/-- A write that does not exceed a cap evicts nothing. -/
theorem afterSet_get?_of_within {engine : StorageEngine Value Hook} {now : Millis}
    {key : CacheKey} {value : Value} {options : SetOptions} (valid : key ≠ "")
    (within : (engine.writeEntry now key value options).overCapacity = false)
    (query : CacheKey) :
    (engine.afterSet now key value options).store.get? query =
      if query = key then some (engine.nextEntry now key value options)
      else engine.store.get? query := by
  rw [afterSet_of_valid _ _ valid, enforceCapacity_of_within within,
    writeEntry_store, InsertionMap.get?_insert]

end StorageEngine

end FlowCache
