import FlowCache.Storage.Invariants

/-!
# The reads an engine has counted

`get` counts a hit or a miss, and nothing else does.
-/

namespace FlowCache

namespace StorageEngine

variable {Value Hook : Type} [EvictionHook Hook]

/-- The hits and misses that the engine has counted. -/
def readCounts (engine : StorageEngine Value Hook) : Nat × Nat :=
  (engine.stats.hits, engine.stats.misses)

theorem readCounts_removeInternal (engine : StorageEngine Value Hook) (key : CacheKey)
    (reason : RemovalReason) :
    (engine.removeInternal key reason).readCounts = engine.readCounts := by
  unfold removeInternal
  cases engine.store.get? key with
  | none => rfl
  | some entry => cases reason <;> rfl

/-- A read counts as a hit if it finds an entry, as a miss otherwise. -/
theorem readCounts_get (engine : StorageEngine Value Hook) (now : Millis) (key : CacheKey) :
    (engine.get now key).2.readCounts =
      if (engine.get now key).1.isSome then (engine.readCounts.1 + 1, engine.readCounts.2)
      else (engine.readCounts.1, engine.readCounts.2 + 1) := by
  unfold get
  split
  · rfl
  · split
    · have removed := readCounts_removeInternal engine key .expire
      rw [readCounts, Prod.mk.injEq] at removed
      simp [recordMiss, readCounts, emit, removed]
    · rfl

theorem readCounts_has (engine : StorageEngine Value Hook) (now : Millis) (key : CacheKey) :
    (engine.has now key).2.readCounts = engine.readCounts := by
  unfold has
  split
  · rfl
  · split
    · exact readCounts_removeInternal engine key .expire
    · rfl

theorem readCounts_delete (engine : StorageEngine Value Hook) (key : CacheKey) :
    (engine.delete key).2.readCounts = engine.readCounts := by
  unfold delete
  split
  · exact readCounts_removeInternal engine key .delete
  · rfl

theorem readCounts_sweepExpired (engine : StorageEngine Value Hook) (now : Millis) :
    (engine.sweepExpired now).2.readCounts = engine.readCounts := by
  unfold sweepExpired
  generalize engine.store.entries.filter _ = expired
  induction expired generalizing engine with
  | nil => rfl
  | cons stored rest ih =>
      exact (ih _).trans (readCounts_removeInternal engine stored.1 .expire)

theorem readCounts_enforceCapacity (engine : StorageEngine Value Hook)
    (justWrittenKey : CacheKey) :
    (engine.enforceCapacity justWrittenKey).readCounts = engine.readCounts := by
  refine @enforceCapacityLoop_induction _ _ _
    (fun next => next.readCounts = engine.readCounts) justWrittenKey ?_ _ 0 _ rfl
  intro next victim _ same
  exact (readCounts_removeInternal next victim .evict).trans same

variable [SizedValue Value]

theorem readCounts_afterSet (engine : StorageEngine Value Hook) (now : Millis)
    (key : CacheKey) (value : Value) (options : SetOptions) :
    (engine.afterSet now key value options).readCounts = engine.readCounts := by
  by_cases empty : key = ""
  · subst empty
    rw [afterSet_of_empty]
  · rw [afterSet_of_valid _ _ empty]
    exact readCounts_enforceCapacity _ key

end StorageEngine

end FlowCache
