import FlowCache.Storage.Spec

/-!
# Invariants of the storage operations

Every operation of the engine is made of misses, hits, removals of stored entries and
writes.  What each of these keeps, every operation keeps: the reads, the sweep and the
eviction loop are treated here once and for all.
-/

namespace FlowCache.StorageEngine

variable {Value Hook : Type} [EvictionHook Hook]

/-- A hit: the entry's recency and frequency are bumped in place. -/
def recordHit (engine : StorageEngine Value Hook) (now : Millis) (key : CacheKey)
    (entry : CacheEntry Value) : StorageEngine Value Hook :=
  emit
    { engine with
      store := engine.store.insert key
        { entry with metadata :=
          { entry.metadata with
            lastAccessedAt := now
            frequency := entry.metadata.frequency + 1 } }
      hook := EvictionHook.recordAccess engine.hook key
      stats := { engine.stats with hits := engine.stats.hits + 1 } }
    .hit key

/-- What holds after a miss, a hit and every removal of a stored entry if it held
before. -/
structure KeptWithoutWrites (invariant : StorageEngine Value Hook → Prop) : Prop where
  miss : ∀ engine key, invariant engine → invariant (engine.recordMiss key)
  hit : ∀ engine now key entry, engine.store.get? key = some entry →
    invariant engine → invariant (engine.recordHit now key entry)
  expire : ∀ engine key, key ∈ engine.store.keys →
    invariant engine → invariant (engine.removeInternal key .expire)
  delete : ∀ engine key, key ∈ engine.store.keys →
    invariant engine → invariant (engine.delete key).2
  evict : ∀ engine key, key ∈ engine.store.keys →
    invariant engine → invariant (engine.evict key)

/-- `selectVictim` returns a candidate or `null`. -/
def VictimsAreCandidates (Hook : Type) [EvictionHook Hook] : Prop :=
  ∀ (hook : Hook) (candidateKeys : List CacheKey) (victim : CacheKey),
    EvictionHook.selectVictim hook candidateKeys = some victim → victim ∈ candidateKeys

/-- Invariant rule for the eviction loop: what the eviction of every selected victim
keeps, the loop keeps. -/
theorem enforceCapacityLoop_induction {invariant : StorageEngine Value Hook → Prop}
    (justWrittenKey : CacheKey)
    (evicted : ∀ engine victim, EvictionHook.selectVictim engine.hook
        (engine.evictionCandidates justWrittenKey) = some victim →
      invariant engine → invariant (engine.evict victim))
    (fuel guard : Nat) {engine : StorageEngine Value Hook} (holds : invariant engine) :
    invariant (enforceCapacityLoop justWrittenKey fuel guard engine) := by
  induction fuel generalizing guard engine with
  | zero => exact holds
  | succ fuel ih =>
      simp only [StorageEngine.enforceCapacityLoop]
      split
      · split
        · exact holds
        · next victim selected => exact ih _ (evicted engine victim selected holds)
      · exact holds

namespace KeptWithoutWrites

variable {invariant : StorageEngine Value Hook → Prop} {engine : StorageEngine Value Hook}

theorem removeInternal_expire (kept : KeptWithoutWrites invariant)
    (holds : invariant engine) (key : CacheKey) :
    invariant (engine.removeInternal key .expire) := by
  by_cases stored : key ∈ engine.store.keys
  · exact kept.expire engine key stored holds
  · rw [removeInternal_of_absent (InsertionMap.get?_eq_none_iff.mpr stored)]
    exact holds

theorem afterGet (kept : KeptWithoutWrites invariant) (holds : invariant engine)
    (now : Millis) (key : CacheKey) : invariant (engine.get now key).2 := by
  unfold StorageEngine.get
  split
  · exact kept.miss engine key holds
  · next entry found =>
      split
      · exact kept.miss _ key (kept.removeInternal_expire holds key)
      · exact kept.hit engine now key entry found holds

theorem afterHas (kept : KeptWithoutWrites invariant) (holds : invariant engine)
    (now : Millis) (key : CacheKey) : invariant (engine.has now key).2 := by
  unfold StorageEngine.has
  split
  · exact holds
  · split
    · exact kept.removeInternal_expire holds key
    · exact holds

theorem afterDelete (kept : KeptWithoutWrites invariant) (holds : invariant engine)
    (key : CacheKey) : invariant (engine.delete key).2 := by
  by_cases stored : key ∈ engine.store.keys
  · exact kept.delete engine key stored holds
  · have missing : (engine.delete key).1 = false := by
      rw [delete_fst, InsertionMap.contains, InsertionMap.get?_eq_none_iff.mpr stored]
      rfl
    rw [delete_of_missing missing]
    exact holds

theorem afterSweepExpired (kept : KeptWithoutWrites invariant) (holds : invariant engine)
    (now : Millis) : invariant (engine.sweepExpired now).2 := by
  unfold StorageEngine.sweepExpired
  generalize engine.store.entries.filter _ = expired
  induction expired generalizing engine with
  | nil => exact holds
  | cons stored rest ih => exact ih (kept.removeInternal_expire holds stored.1)

theorem afterEnforceCapacityLoop (kept : KeptWithoutWrites invariant)
    (candidates : VictimsAreCandidates Hook) (justWrittenKey : CacheKey)
    (fuel guard : Nat) (holds : invariant engine) :
    invariant (enforceCapacityLoop justWrittenKey fuel guard engine) := by
  apply enforceCapacityLoop_induction justWrittenKey _ fuel guard holds
  intro current victim selected before
  apply kept.evict current victim _ before
  exact (List.mem_filter.mp (candidates _ _ _ selected)).1

theorem afterEnforceCapacity (kept : KeptWithoutWrites invariant)
    (candidates : VictimsAreCandidates Hook) (justWrittenKey : CacheKey)
    (holds : invariant engine) : invariant (engine.enforceCapacity justWrittenKey) :=
  kept.afterEnforceCapacityLoop candidates justWrittenKey _ _ holds

/-- A write keeps what the write itself keeps before the capacity is enforced. -/
theorem afterSet [SizedValue Value] (kept : KeptWithoutWrites invariant)
    (candidates : VictimsAreCandidates Hook) (holds : invariant engine) {now : Millis}
    {key : CacheKey} {value : Value} {options : SetOptions}
    (written : key ≠ "" → invariant (engine.writeEntry now key value options)) :
    invariant (engine.afterSet now key value options) := by
  by_cases empty : key = ""
  · subst empty
    rw [afterSet_of_empty]
    exact holds
  · rw [afterSet_of_valid _ _ empty]
    exact kept.afterEnforceCapacity candidates key (written empty)

end KeptWithoutWrites

end FlowCache.StorageEngine
