import FlowCache.Library.InsertionMap
import FlowCache.Shared.Types

/-!
# The storage engine

`packages/storage-engine`: an insertion-ordered map with per-entry metadata,
lazy and swept expiration, and capacity enforcement through an eviction hook.
Every operation receives the time the clock shows while it runs; the engine does
not yield to the event loop inside an operation.

The listeners that `AdaptiveEvictionEngine.attachStorage` registers on the
engine's events belong to the hook object, so emitting an event updates the hook.
-/

namespace FlowCache

/-- Events emitted by the engine. -/
inductive StorageEngineEvent where
  | hit
  | miss
  | write
  | delete
  | expire
  | evict
  deriving DecidableEq, Repr

/-- The interface through which the engine drives an eviction policy. -/
class EvictionHook (Hook : Type) where
  recordAccess : Hook → CacheKey → Hook
  recordWrite : Hook → CacheKey → Hook
  recordRemoval : Hook → CacheKey → Hook
  selectVictim : Hook → List CacheKey → Option CacheKey
  onStorageEvent : Hook → StorageEngineEvent → CacheKey → Hook

/-- `FifoEvictionHook`: the default hook keeps no state of its own. -/
structure FifoEvictionHook where
  deriving DecidableEq, Repr

instance : EvictionHook FifoEvictionHook where
  recordAccess hook _ := hook
  recordWrite hook _ := hook
  recordRemoval hook _ := hook
  selectVictim _ candidateKeys := candidateKeys.head?
  onStorageEvent hook _ _ := hook

/-- `StorageEngineOptions` without the hook and the sweep timer. -/
structure StorageEngineOptions where
  maxEntries : Limit
  maxSizeBytes : Limit
  defaultTtlMs : Option Millis
  deriving DecidableEq, Repr

/-- `DEFAULT_STORAGE_ENGINE_OPTIONS`. -/
def StorageEngineOptions.default : StorageEngineOptions where
  maxEntries := .infinity
  maxSizeBytes := .infinity
  defaultTtlMs := none

/-- `SetOptions`: the outer `none` is an omitted `ttlMs`, `some none` is `null`. -/
structure SetOptions where
  ttlMs : Option (Option Millis)
  deriving DecidableEq, Repr

/-- The counters of `StorageStats` that the engine maintains itself. -/
structure StorageStats where
  hits : Nat
  misses : Nat
  expirations : Nat
  evictions : Nat
  writes : Nat
  deletes : Nat
  deriving DecidableEq, Repr

/-- Counters of a fresh engine. -/
def StorageStats.zero : StorageStats := ⟨0, 0, 0, 0, 0, 0⟩

/-- State of a `StorageEngine`. -/
structure StorageEngine (Value Hook : Type) where
  options : StorageEngineOptions
  store : InsertionMap CacheKey (CacheEntry Value)
  totalSizeBytes : Int
  stats : StorageStats
  hook : Hook

/-- Why an entry leaves the store. -/
inductive RemovalReason where
  | delete
  | expire
  | evict
  deriving DecidableEq, Repr

/-- The event emitted for a removal. -/
def RemovalReason.event : RemovalReason → StorageEngineEvent
  | .delete => .delete
  | .expire => .expire
  | .evict => .evict

namespace StorageEngine

variable {Value Hook : Type}

/-- `new StorageEngine(options)`. -/
def create (options : StorageEngineOptions) (hook : Hook) :
    StorageEngine Value Hook where
  options := options
  store := .empty
  totalSizeBytes := 0
  stats := .zero
  hook := hook

/-- `peek(key)`: read without side effects. -/
def peek (engine : StorageEngine Value Hook) (now : Millis) (key : CacheKey) :
    Option (CacheEntry Value) :=
  match engine.store.get? key with
  | none => none
  | some entry => if entry.metadata.isExpired now then none else some entry

/-- `clear()`: the hook is not told. -/
def clear (engine : StorageEngine Value Hook) : StorageEngine Value Hook :=
  { engine with store := .empty, totalSizeBytes := 0 }

/-- `entries()`. -/
def entries (engine : StorageEngine Value Hook) : List (CacheEntry Value) :=
  engine.store.values

/-- `size()`. -/
def size (engine : StorageEngine Value Hook) : Nat := engine.store.size

/-- The loop test of `enforceCapacity`, without its guard. -/
def overCapacity (engine : StorageEngine Value Hook) : Bool :=
  engine.options.maxEntries.exceededBy engine.store.size ||
    engine.options.maxSizeBytes.exceededBy engine.totalSizeBytes

/-- The keys offered to the hook: everything but the key just written, unless it
is the only one left. -/
def evictionCandidates (engine : StorageEngine Value Hook)
    (justWrittenKey : CacheKey) : List CacheKey :=
  engine.store.keys.filter fun key =>
    key ≠ justWrittenKey || engine.store.size = 1

variable [EvictionHook Hook]

/-- `emit(event, key)`. -/
def emit (engine : StorageEngine Value Hook) (event : StorageEngineEvent)
    (key : CacheKey) : StorageEngine Value Hook :=
  { engine with hook := EvictionHook.onStorageEvent engine.hook event key }

/-- `removeInternal(key, reason)`. -/
def removeInternal (engine : StorageEngine Value Hook) (key : CacheKey)
    (reason : RemovalReason) : StorageEngine Value Hook :=
  match engine.store.get? key with
  | none => engine
  | some entry =>
      emit
        { engine with
          store := engine.store.erase key
          totalSizeBytes := engine.totalSizeBytes - entry.metadata.sizeBytes
          hook := EvictionHook.recordRemoval engine.hook key
          stats :=
            match reason with
            | .expire =>
                { engine.stats with expirations := engine.stats.expirations + 1 }
            | .delete | .evict => engine.stats }
        reason.event key

/-- One round of the eviction loop. -/
def evict (engine : StorageEngine Value Hook) (victim : CacheKey) :
    StorageEngine Value Hook :=
  let removed := engine.removeInternal victim .evict
  { removed with
    stats := { removed.stats with evictions := removed.stats.evictions + 1 } }

/-- The `while` loop of `enforceCapacity`.  The guard bounds the number of
rounds by the initial store size plus one, which is the fuel it starts with. -/
def enforceCapacityLoop (justWrittenKey : CacheKey) :
    (fuel guard : Nat) → StorageEngine Value Hook → StorageEngine Value Hook
  | 0, _, engine => engine
  | fuel + 1, guard, engine =>
      if engine.overCapacity && guard < engine.store.size + 1 then
        match EvictionHook.selectVictim engine.hook
            (engine.evictionCandidates justWrittenKey) with
        | none => engine
        | some victim =>
            enforceCapacityLoop justWrittenKey fuel (guard + 1) (engine.evict victim)
      else
        engine

/-- `enforceCapacity(justWrittenKey)`. -/
def enforceCapacity (engine : StorageEngine Value Hook)
    (justWrittenKey : CacheKey) : StorageEngine Value Hook :=
  enforceCapacityLoop justWrittenKey (engine.store.size + 1) 0 engine

/-- `delete(key)`. -/
def delete (engine : StorageEngine Value Hook) (key : CacheKey) :
    Bool × StorageEngine Value Hook :=
  if engine.store.contains key then
    let removed := engine.removeInternal key .delete
    (true, { removed with
      stats := { removed.stats with deletes := removed.stats.deletes + 1 } })
  else
    (false, engine)

/-- Count a miss. -/
def recordMiss (engine : StorageEngine Value Hook) (key : CacheKey) :
    StorageEngine Value Hook :=
  emit { engine with stats := { engine.stats with misses := engine.stats.misses + 1 } }
    .miss key

/-- `get(key)`: an expired entry is removed and reported as a miss; a hit bumps
the entry's recency and frequency in place. -/
def get (engine : StorageEngine Value Hook) (now : Millis) (key : CacheKey) :
    Option (CacheEntry Value) × StorageEngine Value Hook :=
  match engine.store.get? key with
  | none => (none, engine.recordMiss key)
  | some entry =>
      if entry.metadata.isExpired now then
        (none, (engine.removeInternal key .expire).recordMiss key)
      else
        let touched : CacheEntry Value :=
          { entry with metadata :=
            { entry.metadata with
              lastAccessedAt := now
              frequency := entry.metadata.frequency + 1 } }
        (some touched,
          emit
            { engine with
              store := engine.store.insert key touched
              hook := EvictionHook.recordAccess engine.hook key
              stats := { engine.stats with hits := engine.stats.hits + 1 } }
            .hit key)

/-- `has(key)`. -/
def has (engine : StorageEngine Value Hook) (now : Millis) (key : CacheKey) :
    Bool × StorageEngine Value Hook :=
  match engine.store.get? key with
  | none => (false, engine)
  | some entry =>
      if entry.metadata.isExpired now then
        (false, engine.removeInternal key .expire)
      else
        (true, engine)

/-- `sweepExpired()`. -/
def sweepExpired (engine : StorageEngine Value Hook) (now : Millis) :
    Nat × StorageEngine Value Hook :=
  let expired := engine.store.entries.filter fun stored =>
    stored.2.metadata.isExpired now
  (expired.length,
    expired.foldl (fun current stored => current.removeInternal stored.1 .expire)
      engine)

variable [SizedValue Value]

/-- The metadata `set` builds for a key: continued from a stored entry, even an
expired one, or fresh. -/
def nextMetadata (existing : Option (CacheEntry Value)) (now : Millis)
    (expiresAt : Option Millis) (sizeBytes : Nat) : CacheMetadata :=
  match existing with
  | some entry =>
      { entry.metadata with
        version := entry.metadata.version + 1
        updatedAt := now
        expiresAt := expiresAt
        sizeBytes := sizeBytes }
  | none =>
      { version := 1
        createdAt := now
        updatedAt := now
        lastAccessedAt := now
        frequency := 0
        expiresAt := expiresAt
        sizeBytes := sizeBytes }

/-- The entry `set` stores. -/
def nextEntry (engine : StorageEngine Value Hook) (now : Millis) (key : CacheKey)
    (value : Value) (options : SetOptions) : CacheEntry Value :=
  let ttlMs := options.ttlMs.getD engine.options.defaultTtlMs
  { key := key
    value := value
    metadata := nextMetadata (engine.store.get? key) now (ttlMs.map (now + ·))
      (SizedValue.approximateSizeBytes value) }

/-- `set` up to, but without, its call of `enforceCapacity`. -/
def writeEntry (engine : StorageEngine Value Hook) (now : Millis) (key : CacheKey)
    (value : Value) (options : SetOptions) : StorageEngine Value Hook :=
  let entry := engine.nextEntry now key value options
  let replaced : Int :=
    match engine.store.get? key with
    | some existing => existing.metadata.sizeBytes
    | none => 0
  emit
    { engine with
      store := engine.store.insert key entry
      totalSizeBytes := engine.totalSizeBytes - replaced + entry.metadata.sizeBytes
      hook := EvictionHook.recordWrite engine.hook key
      stats := { engine.stats with writes := engine.stats.writes + 1 } }
    .write key

/-- `set(key, value, options)`. -/
def set (engine : StorageEngine Value Hook) (now : Millis) (key : CacheKey)
    (value : Value) (options : SetOptions) :
    Except FlowCacheError (CacheEntry Value × StorageEngine Value Hook) :=
  if key = "" then
    .error (.validationError "Cache key must be a non-empty string")
  else
    .ok (engine.nextEntry now key value options,
      (engine.writeEntry now key value options).enforceCapacity key)

/-- The engine after a call of `set`; a rejected call changes nothing. -/
def afterSet (engine : StorageEngine Value Hook) (now : Millis) (key : CacheKey)
    (value : Value) (options : SetOptions) : StorageEngine Value Hook :=
  match engine.set now key value options with
  | .ok (_, next) => next
  | .error _ => engine

end StorageEngine

end FlowCache
