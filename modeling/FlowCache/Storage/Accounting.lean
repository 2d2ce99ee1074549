import FlowCache.Library.Transition
import FlowCache.Storage.Invariants

/-!
# Accounting

The engine keeps a running byte count and counts what it removes.  The byte count is
the sum over the stored entries in every reachable state, and every entry that a write
added is still stored or was counted as deleted, expired or evicted, unless `clear`
dropped it.
-/

namespace FlowCache

open Transition

/-- The entries counted as removed. -/
def StorageStats.removals (stats : StorageStats) : Nat :=
  stats.deletes + stats.expirations + stats.evictions

namespace StorageEngine

variable {Value Hook : Type}

/-- The bytes of all stored entries. -/
def storedBytes (engine : StorageEngine Value Hook) : Nat :=
  engine.store.total fun entry => entry.metadata.sizeBytes

/-- The running byte count is the sum over the entries. -/
def Accounted (engine : StorageEngine Value Hook) : Prop :=
  engine.totalSizeBytes = engine.storedBytes

/-- The entries that are stored or were counted as removed. -/
def everStored (engine : StorageEngine Value Hook) : Nat :=
  engine.store.size + engine.stats.removals

variable [EvictionHook Hook]

/-! ## The byte count -/

theorem Accounted.emit {engine : StorageEngine Value Hook} (accounted : engine.Accounted)
    (event : StorageEngineEvent) (key : CacheKey) : (engine.emit event key).Accounted :=
  accounted

theorem Accounted.removeInternal {engine : StorageEngine Value Hook}
    (accounted : engine.Accounted) (key : CacheKey) (reason : RemovalReason) :
    (engine.removeInternal key reason).Accounted := by
  cases found : engine.store.get? key with
  | none =>
      rw [removeInternal_of_absent found]
      exact accounted
  | some entry =>
      simp only [StorageEngine.removeInternal, found]
      apply Accounted.emit
      have erased := InsertionMap.total_erase
        (fun entry : CacheEntry Value => entry.metadata.sizeBytes) found
      rw [Accounted, storedBytes] at accounted
      rw [Accounted, storedBytes]
      simp only [accounted, ← erased]
      omega

theorem Accounted.recordHit {engine : StorageEngine Value Hook}
    (accounted : engine.Accounted) (now : Millis) {key : CacheKey}
    {entry : CacheEntry Value} (found : engine.store.get? key = some entry) :
    (engine.recordHit now key entry).Accounted := by
  apply Accounted.emit
  have touched := InsertionMap.total_insert_of_stored
    (fun entry : CacheEntry Value => entry.metadata.sizeBytes) found
    { entry with
      metadata := { entry.metadata with
        lastAccessedAt := now
        frequency := entry.metadata.frequency + 1 } }
  rw [Accounted, storedBytes] at accounted
  rw [Accounted, storedBytes, accounted]
  exact_mod_cast (Nat.add_right_cancel touched).symm

theorem Accounted.writeEntry [SizedValue Value] {engine : StorageEngine Value Hook}
    (accounted : engine.Accounted) (now : Millis) (key : CacheKey) (value : Value)
    (options : SetOptions) : (engine.writeEntry now key value options).Accounted := by
  apply Accounted.emit
  rw [Accounted, storedBytes] at accounted
  simp only [Accounted, storedBytes]
  rw [accounted]
  cases found : engine.store.get? key with
  | none =>
      have added := InsertionMap.total_insert_of_absent
        (fun entry : CacheEntry Value => entry.metadata.sizeBytes) found
        (engine.nextEntry now key value options)
      simp only [added]
      omega
  | some existing =>
      have replaced := InsertionMap.total_insert_of_stored
        (fun entry : CacheEntry Value => entry.metadata.sizeBytes) found
        (engine.nextEntry now key value options)
      simp only at replaced ⊢
      omega

theorem kept_accounted :
    KeptWithoutWrites (Accounted : StorageEngine Value Hook → Prop) where
  miss _ _ accounted := accounted
  hit _ now _ _ found accounted := accounted.recordHit now found
  expire _ key _ accounted := accounted.removeInternal key .expire
  delete engine key _ accounted := by
    unfold StorageEngine.delete
    split
    · exact accounted.removeInternal key .delete
    · exact accounted
  evict _ key _ accounted := accounted.removeInternal key .evict

/-! ## The number of entries -/

theorem removeInternal_size {engine : StorageEngine Value Hook} {key : CacheKey}
    (stored : key ∈ engine.store.keys) (reason : RemovalReason) :
    (engine.removeInternal key reason).store.size + 1 = engine.store.size := by
  rw [removeInternal_store _ _ _ stored]
  exact InsertionMap.size_erase_of_mem stored

theorem removeInternal_removals {engine : StorageEngine Value Hook} {key : CacheKey}
    (stored : key ∈ engine.store.keys) (reason : RemovalReason) :
    (engine.removeInternal key reason).stats.removals =
      engine.stats.removals + if reason = .expire then 1 else 0 := by
  obtain ⟨entry, found⟩ := InsertionMap.mem_keys_iff.mp stored
  cases reason with
  | expire =>
      simp only [removeInternal, found, StorageEngine.emit, StorageStats.removals]
      simp only [if_true]
      omega
  | delete => simp [removeInternal, found, StorageEngine.emit]
  | evict => simp [removeInternal, found, StorageEngine.emit]

/-- Nothing but a write changes how many entries were ever stored. -/
theorem kept_everStored (count : Nat) :
    KeptWithoutWrites fun engine : StorageEngine Value Hook =>
      engine.everStored = count where
  miss _ _ same := same
  hit engine now key entry found same := by
    rw [← same, everStored, everStored, ← InsertionMap.keys_length, recordHit, emit_store,
      InsertionMap.keys_insert_of_mem (InsertionMap.mem_keys_of_get? found),
      InsertionMap.keys_length]
    rfl
  expire engine key stored same := by
    have fewer := removeInternal_size stored .expire
    have counted := removeInternal_removals stored .expire
    rw [if_pos rfl] at counted
    rw [← same, everStored, everStored]
    omega
  delete engine key stored same := by
    have fewer := removeInternal_size stored .delete
    have counted := removeInternal_removals stored .delete
    have contained : engine.store.contains key = true := by
      rw [InsertionMap.contains, Option.isSome_iff_exists]
      exact InsertionMap.mem_keys_iff.mp stored
    rw [if_neg (by decide), StorageStats.removals] at counted
    simp only [← same, everStored, StorageEngine.delete, contained, if_true,
      StorageStats.removals]
    rw [StorageStats.removals] at counted
    omega
  evict engine key stored same := by
    have fewer := removeInternal_size stored .evict
    have counted := removeInternal_removals stored .evict
    rw [if_neg (by decide), StorageStats.removals, StorageStats.removals] at counted
    simp only [← same, everStored, StorageEngine.evict, StorageStats.removals]
    omega

theorem everStored_writeEntry [SizedValue Value] (engine : StorageEngine Value Hook)
    (now : Millis) (key : CacheKey) (value : Value) (options : SetOptions) :
    (engine.writeEntry now key value options).everStored =
      engine.everStored + if engine.store.contains key then 0 else 1 := by
  have sameRemovals : (engine.writeEntry now key value options).stats.removals =
      engine.stats.removals := rfl
  rw [everStored, everStored, sameRemovals, writeEntry_store,
    ← InsertionMap.keys_length, ← InsertionMap.keys_length]
  cases found : engine.store.get? key with
  | none =>
      have contained : engine.store.contains key = false := by
        rw [InsertionMap.contains, found]
        rfl
      rw [InsertionMap.keys_insert_of_not_mem (InsertionMap.get?_eq_none_iff.mp found),
        contained, List.length_append, List.length_singleton]
      simp only [Bool.false_eq_true, if_false]
      omega
  | some entry =>
      have contained : engine.store.contains key = true := by
        rw [InsertionMap.contains, found]
        rfl
      rw [InsertionMap.keys_insert_of_mem (InsertionMap.mem_keys_of_get? found), contained]
      simp only [if_true, Nat.add_zero]

/-! ## Whole runs -/

end StorageEngine

/-- The operations of a storage engine. -/
inductive StorageOperation (Value : Type) where
  | set (now : Millis) (key : CacheKey) (value : Value) (options : SetOptions)
  | get (now : Millis) (key : CacheKey)
  | has (now : Millis) (key : CacheKey)
  | peek (now : Millis) (key : CacheKey)
  | delete (key : CacheKey)
  | sweepExpired (now : Millis)
  | clear

/-- An engine with what happened since the last `clear`: the counters it showed then and
the number of `set` calls that found no stored entry for their key. -/
structure Audit (Value Hook : Type) where
  engine : StorageEngine Value Hook
  statsAtClear : StorageStats
  insertions : Nat

namespace Audit

variable {Value Hook : Type}

/-- An engine that was just created. -/
def start (options : StorageEngineOptions) (hook : Hook) : Audit Value Hook where
  engine := .create options hook
  statsAtClear := .zero
  insertions := 0

/-- The books balance. -/
structure Balanced (audit : Audit Value Hook) : Prop where
  bytes : audit.engine.Accounted
  entries : audit.engine.everStored = audit.insertions + audit.statsAtClear.removals

theorem balanced_start (options : StorageEngineOptions) (hook : Hook) :
    (start options hook : Audit Value Hook).Balanced := ⟨rfl, rfl⟩

variable [SizedValue Value] [EvictionHook Hook]

/-- One operation. -/
def perform (audit : Audit Value Hook) : StorageOperation Value → Audit Value Hook
  | .set now key value options =>
      { audit with
        engine := audit.engine.afterSet now key value options
        insertions :=
          if key ≠ "" ∧ audit.engine.store.contains key = false then audit.insertions + 1
          else audit.insertions }
  | .get now key => { audit with engine := (audit.engine.get now key).2 }
  | .has now key => { audit with engine := (audit.engine.has now key).2 }
  | .peek _ _ => audit
  | .delete key => { audit with engine := (audit.engine.delete key).2 }
  | .sweepExpired now => { audit with engine := (audit.engine.sweepExpired now).2 }
  | .clear =>
      { engine := audit.engine.clear
        statsAtClear := audit.engine.stats
        insertions := 0 }

theorem Balanced.afterSet {audit : Audit Value Hook} (balanced : audit.Balanced)
    (candidates : StorageEngine.VictimsAreCandidates Hook) (now : Millis) (key : CacheKey)
    (value : Value) (options : SetOptions) :
    (audit.perform (.set now key value options)).Balanced := by
  constructor
  · apply StorageEngine.kept_accounted.afterSet candidates balanced.bytes
    intro _
    exact balanced.bytes.writeEntry now key value options
  · simp only [perform]
    by_cases empty : key = ""
    · subst empty
      rw [StorageEngine.afterSet_of_empty, if_neg (by simp)]
      exact balanced.entries
    · rw [StorageEngine.afterSet_of_valid _ _ empty]
      apply (StorageEngine.kept_everStored _).afterEnforceCapacity candidates
      rw [StorageEngine.everStored_writeEntry, balanced.entries]
      cases audit.engine.store.contains key with
      | true => simp
      | false =>
          simp only [empty, ne_eq, not_false_eq_true, and_self, if_true,
            Bool.false_eq_true, if_false]
          omega

theorem Balanced.perform {audit : Audit Value Hook} (balanced : audit.Balanced)
    (candidates : StorageEngine.VictimsAreCandidates Hook)
    (operation : StorageOperation Value) : (audit.perform operation).Balanced := by
  have bytes := @StorageEngine.kept_accounted Value Hook _
  have entries := @StorageEngine.kept_everStored Value Hook _
    (audit.insertions + audit.statsAtClear.removals)
  cases operation with
  | set now key value options => exact balanced.afterSet candidates now key value options
  | get now key =>
      exact ⟨bytes.afterGet balanced.bytes now key,
        entries.afterGet balanced.entries now key⟩
  | has now key =>
      exact ⟨bytes.afterHas balanced.bytes now key,
        entries.afterHas balanced.entries now key⟩
  | peek now key => exact balanced
  | delete key =>
      exact ⟨bytes.afterDelete balanced.bytes key,
        entries.afterDelete balanced.entries key⟩
  | sweepExpired now =>
      exact ⟨bytes.afterSweepExpired balanced.bytes now,
        entries.afterSweepExpired balanced.entries now⟩
  | clear => exact ⟨rfl, rfl⟩

/-- Whatever the operations and their times, with any hook that names candidates only,
the byte count is the sum over the stored entries, and the stored entries together with
the deletions, expirations and evictions since the last `clear` are as many as the
writes that found no stored entry. -/
theorem accounting_invariant (candidates : StorageEngine.VictimsAreCandidates Hook)
    (options : StorageEngineOptions) (hook : Hook)
    (operations : List (StorageOperation Value)) :
    (run perform (start options hook) operations).engine.totalSizeBytes =
        (((run perform (start options hook) operations).engine.entries.map
          fun entry => entry.metadata.sizeBytes).sum : Nat) ∧
      0 ≤ (run perform (start options hook) operations).engine.totalSizeBytes ∧
      ((run perform (start options hook) operations).engine.size : Int) +
          (((run perform (start options hook) operations).engine.stats.deletes : Int) -
            (run perform (start options hook) operations).statsAtClear.deletes) +
          (((run perform (start options hook) operations).engine.stats.expirations : Int) -
            (run perform (start options hook) operations).statsAtClear.expirations) +
          (((run perform (start options hook) operations).engine.stats.evictions : Int) -
            (run perform (start options hook) operations).statsAtClear.evictions) =
        (run perform (start options hook) operations).insertions := by
  have balanced : (run perform (start options hook) operations).Balanced :=
    run_invariant (fun _ operation balanced => balanced.perform candidates operation)
      (balanced_start options hook) operations
  generalize run perform (start options hook) operations = audit at balanced ⊢
  have bytes := balanced.bytes
  rw [StorageEngine.Accounted, StorageEngine.storedBytes, InsertionMap.total] at bytes
  have entries := balanced.entries
  simp only [StorageEngine.everStored, StorageStats.removals] at entries
  refine ⟨?_, ?_, ?_⟩
  · rw [bytes, StorageEngine.entries, InsertionMap.values, List.map_map]
    rfl
  · rw [bytes]
    exact Int.natCast_nonneg _
  · simp only [StorageEngine.size]
    omega

/-- A capacity of one entry, an overwrite, an eviction, an expiry and a `clear` under
the default hook. -/
theorem accounting_invariant_fifo :
    StorageEngine.VictimsAreCandidates FifoEvictionHook ∧
      (run perform (start ⟨.finite 1, .infinity, none⟩ (⟨⟩ : FifoEvictionHook))
        [.set 0 "a" 10 ⟨none⟩, .clear, .set 1 "b" 7 ⟨none⟩, .set 2 "b" 12 ⟨none⟩,
          .set 3 "c" 100 ⟨some (some 5)⟩, .get 9 "c"]).engine.totalSizeBytes =
        (((run perform (start ⟨.finite 1, .infinity, none⟩ (⟨⟩ : FifoEvictionHook))
          [.set 0 "a" 10 ⟨none⟩, .clear, .set 1 "b" 7 ⟨none⟩, .set 2 "b" 12 ⟨none⟩,
            .set 3 "c" 100 ⟨some (some 5)⟩, .get 9 "c"]).engine.entries.map
          fun entry => entry.metadata.sizeBytes).sum : Nat) := by
  have candidates : StorageEngine.VictimsAreCandidates FifoEvictionHook := by
    intro hook candidateKeys victim selected
    exact List.mem_of_head? selected
  exact ⟨candidates, (accounting_invariant candidates _ _ _).1⟩

end Audit

end FlowCache
