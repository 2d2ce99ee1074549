import FlowCache.Library.RecencyOrder
import FlowCache.Eviction.LRU
import FlowCache.Storage.Spec

/-!
# An engine whose policy tracks its entries

A storage engine with an LRU hook that has been there from the start, and entries that
never expire: the recency order of the hook has exactly the stored keys, and what a read,
a write and a removal do to it is read off the operation alone.
-/

namespace FlowCache

namespace StorageEngine

variable {Value : Type}

/-- The stored keys from the least to the most recently used one, as the policy has
them. -/
def recency (engine : StorageEngine Value LruEvictionPolicy) : List CacheKey :=
  engine.hook.recency

theorem nodup_recency (engine : StorageEngine Value LruEvictionPolicy) :
    engine.recency.Nodup :=
  engine.hook.recency_nodup

/-- The policy tracks exactly the stored keys, none of which expires. -/
structure TracksLive (engine : StorageEngine Value LruEvictionPolicy) : Prop where
  tracked : ∀ key, key ∈ engine.recency ↔ key ∈ engine.store.keys
  noDeadline : ∀ key entry, engine.store.get? key = some entry →
    entry.metadata.expiresAt = none

theorem tracksLive_create (options : StorageEngineOptions) :
    (create options .create : StorageEngine Value LruEvictionPolicy).TracksLive where
  tracked key := by
    change key ∈ ([] : List CacheKey) ↔ key ∈ ([] : List CacheKey)
    exact Iff.rfl
  noDeadline := by simp

namespace TracksLive

variable {engine : StorageEngine Value LruEvictionPolicy}

/-- A tracked key has an entry, and only tracked keys have one. -/
theorem exists_entry (live : engine.TracksLive) {key : CacheKey}
    (member : key ∈ engine.recency) : ∃ entry, engine.store.get? key = some entry :=
  InsertionMap.mem_keys_iff.mp ((live.tracked key).mp member)

theorem mem_recency (live : engine.TracksLive) {key : CacheKey}
    {entry : CacheEntry Value} (found : engine.store.get? key = some entry) :
    key ∈ engine.recency :=
  (live.tracked key).mpr (InsertionMap.mem_keys_of_get? found)

theorem perm_keys (live : engine.TracksLive) : engine.recency.Perm engine.store.keys :=
  (List.perm_ext_iff_of_nodup engine.nodup_recency engine.store.keys_nodup).mpr live.tracked

/-- Entries that are dropped, or stored without a deadline, never expire either. -/
theorem of_stored (live : engine.TracksLive)
    {next : StorageEngine Value LruEvictionPolicy}
    (tracked : ∀ key, key ∈ next.recency ↔ key ∈ next.store.keys)
    (stored : ∀ key entry, next.store.get? key = some entry →
      entry.metadata.expiresAt = none ∨ ∃ before, engine.store.get? key = some before ∧
        CacheEntry.SameContent entry before) :
    next.TracksLive where
  tracked := tracked
  noDeadline := by
    intro key entry found
    rcases stored key entry found with perpetual | ⟨before, held, same⟩
    · exact perpetual
    · rw [same.expiresAt]
      exact live.noDeadline key before held

theorem isExpired_eq_false (live : engine.TracksLive) {key : CacheKey}
    {entry : CacheEntry Value} (found : engine.store.get? key = some entry)
    (now : Millis) : entry.metadata.isExpired now = false := by
  simp [CacheMetadata.isExpired, live.noDeadline key entry found]

theorem peek_eq (live : engine.TracksLive) (now : Millis) (key : CacheKey) :
    engine.peek now key = engine.store.get? key := by
  cases found : engine.store.get? key with
  | none => simp [peek, found]
  | some entry => simp [peek, found, live.isExpired_eq_false found]

/-! ## Reads -/

/-- A hit touches its key, a miss leaves the order alone. -/
theorem recency_get (live : engine.TracksLive) (now : Millis) (key : CacheKey) :
    (engine.get now key).2.recency = RecencyOrder.hit engine.recency key := by
  cases found : engine.store.get? key with
  | none =>
      have absent : key ∉ engine.recency := by
        intro member
        obtain ⟨entry, stored⟩ := live.exists_entry member
        rw [found] at stored
        cases stored
      rw [RecencyOrder.hit, if_neg absent]
      simp only [get, found]
      rfl
  | some entry =>
      rw [RecencyOrder.hit, if_pos (live.mem_recency found)]
      simp only [get, found, live.isExpired_eq_false found, Bool.false_eq_true, if_false]
      exact engine.hook.recency_touch key

theorem keys_get (live : engine.TracksLive) (now : Millis) (key : CacheKey) :
    (engine.get now key).2.store.keys = engine.store.keys := by
  cases found : engine.store.get? key with
  | none =>
      simp only [get, found]
      rfl
  | some entry =>
      simp only [get, found, live.isExpired_eq_false found, Bool.false_eq_true, if_false]
      exact InsertionMap.keys_insert_of_mem (InsertionMap.mem_keys_of_get? found) _

theorem afterGet (live : engine.TracksLive) (now : Millis) (key : CacheKey) :
    (engine.get now key).2.TracksLive := by
  apply live.of_stored
  · intro query
    rw [live.keys_get, ← live.tracked, live.recency_get, RecencyOrder.hit]
    split
    · next member =>
        rw [RecencyOrder.mem_touch, or_iff_right_of_imp]
        intro same
        exact same ▸ member
    · rfl
  · intro query entry found
    exact .inr (get_stored found)

/-! ## Removals -/

theorem hook_removeInternal (key : CacheKey) (reason : RemovalReason)
    (stored : key ∈ engine.store.keys) :
    (engine.removeInternal key reason).hook = engine.hook.recordRemoval key := by
  obtain ⟨entry, found⟩ := InsertionMap.mem_keys_iff.mp stored
  simp only [removeInternal, found]
  rfl

theorem recency_removeInternal (live : engine.TracksLive) (key : CacheKey)
    (reason : RemovalReason) :
    (engine.removeInternal key reason).recency = engine.recency.erase key := by
  by_cases stored : key ∈ engine.store.keys
  · rw [recency, hook_removeInternal key reason stored]
    exact engine.hook.recency_recordRemoval key
  · rw [removeInternal_of_absent (InsertionMap.get?_eq_none_iff.mpr stored),
      List.erase_of_not_mem]
    exact fun member => stored ((live.tracked key).mp member)

theorem afterRemoveInternal (live : engine.TracksLive) (key : CacheKey)
    (reason : RemovalReason) : (engine.removeInternal key reason).TracksLive := by
  apply live.of_stored
  · intro query
    rw [live.recency_removeInternal, engine.nodup_recency.mem_erase_iff, live.tracked,
      InsertionMap.mem_keys_iff, InsertionMap.mem_keys_iff, removeInternal_get?]
    by_cases same : query = key
    · simp [same]
    · simp [same]
  · intro query entry found
    rw [removeInternal_get?] at found
    split at found
    · cases found
    · exact .inr ⟨entry, found, rfl, rfl, rfl, rfl⟩

theorem recency_delete (live : engine.TracksLive) (key : CacheKey) :
    (engine.delete key).2.recency = engine.recency.erase key := by
  rw [← live.recency_removeInternal key .delete]
  unfold delete
  split
  · rfl
  · next missing =>
      rw [removeInternal_of_absent (by simpa [InsertionMap.contains] using missing)]

theorem afterDelete (live : engine.TracksLive) (key : CacheKey) :
    (engine.delete key).2.TracksLive := by
  have removed := live.afterRemoveInternal key .delete
  unfold delete
  split
  · exact ⟨removed.tracked, removed.noDeadline⟩
  · exact live

/-! ## Writes -/

variable [SizedValue Value]

theorem recency_writeEntry (engine : StorageEngine Value LruEvictionPolicy) (now : Millis)
    (key : CacheKey) (value : Value) (options : SetOptions) :
    (engine.writeEntry now key value options).recency =
      RecencyOrder.touch engine.recency key :=
  engine.hook.recency_touch key

theorem afterWriteEntry (live : engine.TracksLive) (now : Millis) (key : CacheKey)
    (value : Value) {options : SetOptions}
    (withoutTtl : options.ttlMs.getD engine.options.defaultTtlMs = none) :
    (engine.writeEntry now key value options).TracksLive := by
  apply live.of_stored
  · intro query
    rw [writeEntry_store, InsertionMap.mem_keys_insert, ← live.tracked,
      recency_writeEntry, RecencyOrder.mem_touch]
  · intro query entry found
    rw [writeEntry_store, InsertionMap.get?_insert] at found
    split at found
    · cases found
      rw [nextEntry_expiresAt, withoutTtl]
      exact .inl rfl
    · exact .inr ⟨entry, found, rfl, rfl, rfl, rfl⟩

end TracksLive

end StorageEngine

end FlowCache
