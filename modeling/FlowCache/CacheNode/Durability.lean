import FlowCache.CacheNode.Cleanup
import FlowCache.Snapshot.Manager
import FlowCache.Storage.Capacity

/-!
# What a snapshot and a recovery preserve

A recovery stores every entry of the snapshot anew: its absolute deadline is turned
into what is left of it and back, an entry without one is given the node's default,
and the caps are enforced after each.  Entries that came in through the PUT route,
replication or an earlier recovery carry the size of their value, and have no deadline
only where the node has no default, so a restore of all of them within the caps keeps
what was live and evicts nothing.
-/

namespace FlowCache

open Transition

variable {Value Hook : Type}

/-- What a client can see of an entry. -/
def CacheEntry.content (entry : CacheEntry Value) : Value × Option Millis :=
  (entry.value, entry.metadata.expiresAt)

/-- The same as long as the entry is live. -/
def CacheEntry.liveContent (entry : CacheEntry Value) (now : Millis) :
    Option (Value × Option Millis) :=
  if entry.metadata.isExpired now then none else some entry.content

/-- An entry as a node with these options writes it. -/
structure CacheEntry.WrittenUnder [SizedValue Value] (options : StorageEngineOptions)
    (entry : CacheEntry Value) : Prop where
  key : entry.key ≠ ""
  sizeBytes : entry.metadata.sizeBytes = SizedValue.approximateSizeBytes entry.value
  deadline : entry.metadata.expiresAt = none → options.defaultTtlMs = none

theorem CacheEntry.WrittenUnder.of_hit [SizedValue Value] {options : StorageEngineOptions}
    {entry : CacheEntry Value} (written : entry.WrittenUnder options) (now : Millis)
    (frequency : Nat) :
    WrittenUnder options { entry with
      metadata := { entry.metadata with
        lastAccessedAt := now
        frequency := frequency } } :=
  ⟨written.key, written.sizeBytes, written.deadline⟩

namespace StorageEngine

theorem peek_map_content (engine : StorageEngine Value Hook) (now : Millis)
    (key : CacheKey) :
    (engine.peek now key).map CacheEntry.content =
      (engine.store.get? key).bind (CacheEntry.liveContent · now) := by
  unfold peek
  cases engine.store.get? key with
  | none => rfl
  | some entry =>
      simp only [Option.bind_some, CacheEntry.liveContent]
      split <;> rfl

/-- The caps leave room for all of the entries beside what is stored. -/
structure RoomFor (engine : StorageEngine Value Hook) (entries : List (CacheEntry Value)) :
    Prop where
  count : engine.options.maxEntries.exceededBy
    ((engine.store.size + entries.length : Nat) : Int) = false
  bytes : engine.options.maxSizeBytes.exceededBy
    (engine.totalSizeBytes +
      ((entries.map fun entry => entry.metadata.sizeBytes).sum : Nat)) = false

theorem RoomFor.overCapacity_eq_false {engine : StorageEngine Value Hook}
    {entries : List (CacheEntry Value)} (room : engine.RoomFor entries) :
    engine.overCapacity = false := by
  rw [overCapacity, Bool.or_eq_false_iff]
  constructor
  · apply Limit.exceededBy_anti _ room.count
    omega
  · apply Limit.exceededBy_anti _ room.bytes
    omega

section Restore

variable [SizedValue Value]

private theorem add_max_sub (now deadline : Int) :
    now + max 0 (deadline - now) = max now deadline := by
  omega

/-- A restored entry is live exactly when it was, with the same content: its deadline
is kept, or moved to the time of the restore if it has passed. -/
theorem nextEntry_liveContent {engine : StorageEngine Value Hook}
    {entry : CacheEntry Value} (written : entry.WrittenUnder engine.options)
    (now : Millis) :
    (engine.nextEntry now entry.key entry.value
        (remainingTtl now entry.metadata.expiresAt)).liveContent now =
      entry.liveContent now := by
  cases expiresAt : entry.metadata.expiresAt with
  | none =>
      have kept : (engine.nextEntry now entry.key entry.value
          (remainingTtl now none)).metadata.expiresAt = none := by
        simp [remainingTtl, written.deadline expiresAt]
      simp only [CacheEntry.liveContent, CacheEntry.content, CacheMetadata.isExpired, kept,
        expiresAt, nextEntry_value]
  | some deadline =>
      have moved : (engine.nextEntry now entry.key entry.value
          (remainingTtl now (some deadline))).metadata.expiresAt =
            some (max now deadline) := by
        rw [nextEntry_expiresAt]
        exact congrArg some (add_max_sub now deadline)
      simp only [CacheEntry.liveContent, CacheEntry.content, CacheMetadata.isExpired, moved,
        expiresAt, nextEntry_value]
      by_cases passed : deadline ≤ now
      · rw [max_eq_left passed]
        simp [passed]
      · rw [max_eq_right (le_of_not_ge passed)]

variable [EvictionHook Hook]

/-- What a restore of entries for which there is room does. -/
structure RestoresAll (now : Millis) (entries : List (CacheEntry Value))
    (engine : StorageEngine Value Hook)
    (result : Option FlowCacheError × StorageEngine Value Hook) : Prop where
  succeeds : result.1 = none
  evictions : result.2.stats.evictions = engine.stats.evictions
  restored : ∀ entry ∈ entries,
    (result.2.store.get? entry.key).bind (CacheEntry.liveContent · now) =
      entry.liveContent now
  others : ∀ key, key ∉ entries.map CacheEntry.key →
    result.2.store.get? key = engine.store.get? key

section Entry

variable {engine : StorageEngine Value Hook} {entry : CacheEntry Value}
  {rest : List (CacheEntry Value)}

/-- Storing one entry uses up the room that was counted for it. -/
theorem RoomFor.writeEntry (room : engine.RoomFor (entry :: rest))
    (absent : engine.store.get? entry.key = none)
    (written : entry.WrittenUnder engine.options) (now : Millis) (options : SetOptions) :
    (engine.writeEntry now entry.key entry.value options).RoomFor rest := by
  have size : (engine.writeEntry now entry.key entry.value options).store.size =
      engine.store.size + 1 := by
    rw [writeEntry_store, ← InsertionMap.keys_length,
      InsertionMap.keys_insert_of_not_mem (InsertionMap.get?_eq_none_iff.mp absent),
      List.length_append, InsertionMap.keys_length]
    rfl
  have bytes : (engine.writeEntry now entry.key entry.value options).totalSizeBytes =
      engine.totalSizeBytes + entry.metadata.sizeBytes := by
    simp only [StorageEngine.writeEntry, emit, absent, nextEntry_sizeBytes,
      written.sizeBytes]
    omega
  constructor
  · rw [writeEntry_options, size]
    have counted := room.count
    rw [List.length_cons] at counted
    rw [← counted]
    congr 2
    omega
  · rw [writeEntry_options, bytes]
    have counted := room.bytes
    rw [List.map_cons, List.sum_cons] at counted
    rw [← counted]
    congr 1
    push_cast
    omega

theorem applyRestoredEntry_of_room (room : engine.RoomFor (entry :: rest))
    (absent : engine.store.get? entry.key = none)
    (written : entry.WrittenUnder engine.options) (now : Millis) :
    engine.applyRestoredEntry now entry =
      .ok (engine.writeEntry now entry.key entry.value
        (remainingTtl now entry.metadata.expiresAt)) := by
  have within := (room.writeEntry absent written now
    (remainingTtl now entry.metadata.expiresAt)).overCapacity_eq_false
  rw [applyRestoredEntry, set, if_neg written.key, enforceCapacity_of_within within]
  rfl

end Entry

/-- Entries that a node with the same options wrote, under distinct keys that are not
stored, are all restored if there is room for them. -/
theorem restoreEntries_of_room (now : Millis) {entries : List (CacheEntry Value)}
    (distinct : (entries.map CacheEntry.key).Nodup) {engine : StorageEngine Value Hook}
    (absent : ∀ entry ∈ entries, engine.store.get? entry.key = none)
    (written : ∀ entry ∈ entries, entry.WrittenUnder engine.options)
    (room : engine.RoomFor entries) :
    RestoresAll now entries engine (engine.restoreEntries now entries) := by
  induction entries generalizing engine with
  | nil => exact ⟨rfl, rfl, by simp, fun _ _ => rfl⟩
  | cons entry rest ih =>
      rw [List.map_cons, List.nodup_cons] at distinct
      have headAbsent := absent entry (by simp)
      have headWritten := written entry (by simp)
      simp only [restoreEntries, applyRestoredEntry_of_room room headAbsent headWritten]
      have stored : ∀ query, (engine.writeEntry now entry.key entry.value
          (remainingTtl now entry.metadata.expiresAt)).store.get? query =
          if query = entry.key then
            some (engine.nextEntry now entry.key entry.value
              (remainingTtl now entry.metadata.expiresAt))
          else engine.store.get? query := by
        intro query
        rw [writeEntry_store, InsertionMap.get?_insert]
      have tail := @ih distinct.2 (engine.writeEntry now entry.key entry.value
        (remainingTtl now entry.metadata.expiresAt)) ?_ ?_
        (room.writeEntry headAbsent headWritten now _)
      · refine ⟨tail.succeeds, tail.evictions, ?_, ?_⟩
        · intro other member
          rcases List.mem_cons.mp member with rfl | inRest
          · rw [tail.others other.key distinct.1, stored, if_pos rfl, Option.bind_some]
            exact nextEntry_liveContent headWritten now
          · exact tail.restored other inRest
        · intro key notListed
          rw [List.map_cons, List.mem_cons, not_or] at notListed
          rw [tail.others key notListed.2, stored, if_neg notListed.1]
      · intro other member
        have different : other.key ≠ entry.key :=
          fun same => distinct.1 (same ▸ List.mem_map_of_mem member)
        rw [stored, if_neg different]
        exact absent other (by simp [member])
      · exact fun other member => written other (by simp [member])

end Restore

/-! ## Stores that can be restored -/

/-- A store of a node with these options whose entries were all written by it. -/
structure Restorable [SizedValue Value] (options : StorageEngineOptions)
    (engine : StorageEngine Value Hook) : Prop where
  options_eq : engine.options = options
  accounted : engine.Accounted
  keyed : engine.Keyed
  written : ∀ key entry, engine.store.get? key = some entry → entry.WrittenUnder options

variable [SizedValue Value] {options : StorageEngineOptions}

theorem restorable_create (options : StorageEngineOptions) (hook : Hook) :
    Restorable options (create options hook : StorageEngine Value Hook) where
  options_eq := rfl
  accounted := rfl
  keyed := keyed_create options hook
  written := by
    intro key entry impossible
    cases impossible

theorem Restorable.clear {engine : StorageEngine Value Hook}
    (restorable : engine.Restorable options) : engine.clear.Restorable options where
  options_eq := restorable.options_eq
  accounted := rfl
  keyed := by
    intro key entry impossible
    cases impossible
  written := by
    intro key entry impossible
    cases impossible

/-- A store within its caps has room for its own entries once it is cleared. -/
theorem Restorable.roomFor_entries {engine later : StorageEngine Value Hook}
    (restorable : engine.Restorable options) (within : engine.WithinCaps)
    (unchanged : later.options = options) : later.clear.RoomFor engine.entries := by
  constructor
  · rw [clear_options, unchanged, ← restorable.options_eq, ← within.entries]
    congr 2
    simp [StorageEngine.clear, InsertionMap.size, InsertionMap.empty, entries,
      InsertionMap.values]
  · rw [clear_options, unchanged, ← restorable.options_eq, ← within.bytes]
    have bytes := restorable.accounted
    rw [Accounted, storedBytes, InsertionMap.total] at bytes
    rw [bytes, entries, InsertionMap.values, List.map_map]
    simp [StorageEngine.clear, Function.comp_def]

theorem Restorable.of_stored {engine next : StorageEngine Value Hook}
    (restorable : engine.Restorable options) (sameOptions : next.options = engine.options)
    (accounted : next.Accounted)
    (stored : ∀ key entry, next.store.get? key = some entry →
      entry.key = key ∧ entry.WrittenUnder options) : next.Restorable options where
  options_eq := sameOptions.trans restorable.options_eq
  accounted := accounted
  keyed := fun key entry found => (stored key entry found).1
  written := fun key entry found => (stored key entry found).2

/-- Neither the counters nor the hook matter. -/
theorem Restorable.of_bookkeeping {engine : StorageEngine Value Hook}
    (restorable : engine.Restorable options) (stats : StorageStats) (hook : Hook) :
    Restorable options { engine with stats := stats, hook := hook } :=
  ⟨restorable.options_eq, restorable.accounted, restorable.keyed, restorable.written⟩

variable [EvictionHook Hook]

theorem Restorable.removeInternal {engine : StorageEngine Value Hook}
    (restorable : engine.Restorable options) (key : CacheKey) (reason : RemovalReason) :
    (engine.removeInternal key reason).Restorable options := by
  apply restorable.of_stored (removeInternal_options _ _ _)
    (restorable.accounted.removeInternal key reason)
  intro query entry found
  rw [removeInternal_get?] at found
  split at found
  · cases found
  · exact ⟨restorable.keyed query entry found, restorable.written query entry found⟩

theorem Restorable.evict {engine : StorageEngine Value Hook}
    (restorable : engine.Restorable options) (victim : CacheKey) :
    (engine.evict victim).Restorable options :=
  (restorable.removeInternal victim .evict).of_bookkeeping _ _

theorem Restorable.recordHit {engine : StorageEngine Value Hook}
    (restorable : engine.Restorable options) (now : Millis) {key : CacheKey}
    {entry : CacheEntry Value} (found : engine.store.get? key = some entry) :
    (engine.recordHit now key entry).Restorable options := by
  refine restorable.of_stored ?_ (restorable.accounted.recordHit now found) ?_
  · rfl
  · intro query after stored
    rw [StorageEngine.recordHit, emit_store, InsertionMap.get?_insert] at stored
    split at stored
    · next same =>
        subst same
        cases stored
        exact ⟨restorable.keyed query entry found,
          (restorable.written query entry found).of_hit now _⟩
    · exact ⟨restorable.keyed query after stored, restorable.written query after stored⟩

theorem kept_restorable :
    KeptWithoutWrites fun engine : StorageEngine Value Hook =>
      engine.Restorable options where
  miss _ _ restorable := restorable.of_bookkeeping _ _
  hit _ now _ _ found restorable := restorable.recordHit now found
  expire _ key _ restorable := restorable.removeInternal key .expire
  delete engine key _ restorable := by
    unfold StorageEngine.delete
    split
    · exact (restorable.removeInternal key .delete).of_bookkeeping _ _
    · exact restorable
  evict _ key _ restorable := restorable.evict key

/-- A write whose time to live is not `null` keeps the store restorable, whatever its
hook evicts. -/
theorem Restorable.afterSet {engine : StorageEngine Value Hook}
    (restorable : engine.Restorable options) (now : Millis) (key : CacheKey)
    (value : Value) {setOptions : SetOptions} (notNull : setOptions.ttlMs ≠ some none) :
    (engine.afterSet now key value setOptions).Restorable options := by
  by_cases empty : key = ""
  · subst empty
    rwa [afterSet_of_empty]
  · rw [afterSet_of_valid _ _ empty]
    refine enforceCapacityLoop_induction key ?_ _ _ ?_
    · exact fun current victim _ before => before.evict victim
    · apply restorable.of_stored (writeEntry_options _ _ _ _ _)
        (restorable.accounted.writeEntry now key value setOptions)
      intro query entry stored
      rw [writeEntry_store, InsertionMap.get?_insert] at stored
      split at stored
      · next same =>
          cases stored
          refine ⟨same.symm, empty, nextEntry_sizeBytes _ _ _ _ _, ?_⟩
          rw [nextEntry_expiresAt, restorable.options_eq]
          cases ttlMs : setOptions.ttlMs with
          | none => simp
          | some ttl =>
              cases ttl with
              | none => exact (notNull ttlMs).elim
              | some ttl => simp
      · exact ⟨restorable.keyed query entry stored, restorable.written query entry stored⟩

theorem remainingTtl_ne_null (now : Millis) (expiresAt : Option Millis) :
    (remainingTtl now expiresAt).ttlMs ≠ some none := by
  cases expiresAt <;> simp [remainingTtl]

theorem Restorable.restoreEntries {engine : StorageEngine Value Hook}
    (restorable : engine.Restorable options) (now : Millis)
    (entries : List (CacheEntry Value)) :
    (engine.restoreEntries now entries).2.Restorable options := by
  apply restoreEntries_induction (fun current => current.Restorable options) _ restorable
  intro current entry _ before
  exact before.afterSet now entry.key entry.value (remainingTtl_ne_null now _)

/-- A recovery from a snapshot of such a store, within its caps, by a node with the same
options: it succeeds, evicts nothing, and keeps what was live. -/
theorem Restorable.recover {engine later : StorageEngine Value Hook}
    (restorable : engine.Restorable options) (within : engine.WithinCaps)
    (unchanged : later.options = options) (nodeId : String) (now : Millis)
    (metadata : SnapshotMetadata) :
    let recovery := later.recover nodeId now (.ok (some ⟨metadata, engine.entries⟩))
    recovery.1.integrityVerified = true ∧
      recovery.2.stats.evictions = later.stats.evictions ∧
      ∀ key, (recovery.2.peek now key).map CacheEntry.content =
        (engine.peek now key).map CacheEntry.content := by
  have written : ∀ entry ∈ engine.entries, entry.WrittenUnder later.clear.options := by
    intro entry member
    obtain ⟨key, stored⟩ := InsertionMap.mem_values_iff.mp member
    rw [clear_options, unchanged]
    exact restorable.written key entry stored
  have all := restoreEntries_of_room now restorable.keyed.nodup_map_key_entries
    (fun _ _ => rfl) written (restorable.roomFor_entries within unchanged)
  intro recovery
  have engine_eq : recovery.2 = (later.clear.restoreEntries now engine.entries).2 :=
    recover_engine later nodeId now _
  have verified : recovery.1.integrityVerified = true := by
    simp only [recovery, StorageEngine.recover, finishRecovery]
    split
    · rfl
    · next failed =>
        rw [failed] at all
        cases all.succeeds
  refine ⟨verified, ?_, ?_⟩
  · rw [engine_eq, all.evictions]
    rfl
  · intro key
    rw [peek_map_content, peek_map_content, engine_eq]
    cases stored : engine.store.get? key with
    | none =>
        have notListed : key ∉ engine.entries.map CacheEntry.key := by
          rw [restorable.keyed.map_key_entries]
          exact InsertionMap.get?_eq_none_iff.mp stored
        rw [all.others key notListed]
        rfl
    | some entry =>
        have member : entry ∈ engine.entries := InsertionMap.mem_values_iff.mpr ⟨key, stored⟩
        rw [← restorable.keyed key entry stored]
        exact all.restored entry member

end StorageEngine

/-! ## Reachable stores -/

variable [SizedValue Value] {options : StorageEngineOptions}

theorem TtlField.setOptions_ne_null {field : TtlField} {setOptions : SetOptions}
    (accepted : field.setOptions = .ok setOptions) : setOptions.ttlMs ≠ some none := by
  cases field with
  | absent =>
      cases accepted
      simp
  | notANumber => cases accepted
  | number ttlMs =>
      simp only [TtlField.setOptions] at accepted
      split at accepted
      · cases accepted
      · cases accepted
        simp

variable [EvictionHook Hook]

theorem StorageEngine.Restorable.serve {node : Node Value Hook}
    (restorable : node.engine.Restorable options) (request : Request Value) :
    (node.serve request).engine.Restorable options := by
  cases request with
  | tick elapsed => exact restorable
  | put body =>
      simp only [Node.serve]
      split
      · exact restorable
      · next accepted =>
          obtain ⟨key, value, setOptions, _, _, _, field, _, rfl⟩ := putRoute_ok accepted
          exact restorable.afterSet node.clock key value
            (TtlField.setOptions_ne_null field)
  | delete key => exact kept_restorable.afterDelete restorable key
  | get key => exact kept_restorable.afterGet restorable node.clock key
  | has key => exact kept_restorable.afterHas restorable node.clock key
  | replicated message =>
      simp only [Node.serve]
      cases op : message.event.op with
      | delete =>
          rcases node.engine.handleReplicationEvent_cases node.nodeId node.clock message
            with unchanged | applied
          · rwa [unchanged]
          · rw [applied, afterEvent, op]
            exact kept_restorable.afterDelete restorable message.event.key
      | put value metadata =>
          rcases handleReplicationEvent_put node.engine node.nodeId node.clock op with
            ⟨_, unchanged⟩ | ⟨_, _, _, _, _, unchanged⟩ | ⟨stamp, _, _, _, _, _, _, applied⟩
          · rwa [unchanged]
          · rwa [unchanged]
          · rw [applied]
            exact restorable.afterSet node.clock message.event.key value
              (remainingTtl_ne_null node.clock stamp.expiresAt)

namespace CleaningNode

theorem restorable_deleteKeys {engine : StorageEngine Value Hook}
    (restorable : engine.Restorable options) (keys : List CacheKey) :
    (deleteKeys engine keys).Restorable options := by
  induction keys generalizing engine with
  | nil => exact restorable
  | cons key rest ih =>
      exact ih (StorageEngine.kept_restorable.afterDelete restorable key)

theorem restorable_step {state : CleaningNode Value Hook}
    (restorable : state.node.engine.Restorable options) (action : CleaningAction Value) :
    (state.step action).node.engine.Restorable options := by
  cases action with
  | serve request => exact restorable.serve request
  | beginSweep =>
      simp only [step]
      split <;> exact restorable
  | finishSweep index => exact restorable_deleteKeys restorable _
  | failSweep index => exact restorable
  | clearStorage => exact restorable.clear
  | restore entries => exact restorable.restoreEntries state.node.clock entries

section Recovery

variable {Bytes : Type} (codec : SnapshotCodec Value Bytes) (config : SnapshotConfig)
variable (captured : Node Value Hook) (store : SnapshotStore Bytes) (snapshotId : String)
variable (serializedAt : Millis) (later : StorageEngine Value Hook) (nodeId : String)
variable (now : Millis)

/-- A snapshot of the node is taken, and a server with the storage `later` recovers: the
recovery verifies, evicts nothing, and leaves exactly the keys live whose snapshotted
entry is live at that time, with the same value and the same deadline. -/
def PreservesLiveContent : Prop :=
  let snapshots := store.takeSnapshot codec config snapshotId captured.clock serializedAt
    captured.engine.entries
  let recovery := later.recover nodeId now (snapshots.restoreLatest codec config.nodeId)
  recovery.1.integrityVerified = true ∧
    recovery.2.stats.evictions = later.stats.evictions ∧
    ∀ key, (recovery.2.peek now key).map CacheEntry.content =
      (captured.engine.peek now key).map CacheEntry.content

/-- The metadata of that snapshot. -/
def takenMetadata : SnapshotMetadata :=
  snapshotMetadata codec config snapshotId captured.clock serializedAt
    captured.engine.entries

/-- The bytes of that snapshot. -/
def takenBytes : Bytes :=
  codec.serialize captured.engine.entries config.compress

/-- A snapshot that its own call retains preserves what is live. -/
theorem preserves_of_retained (restorable : captured.engine.Restorable options)
    (within : captured.engine.WithinCaps) (unchanged : later.options = options)
    (retained : ((store.takeSnapshot codec config snapshotId captured.clock serializedAt
      captured.engine.entries).data.get? snapshotId).isSome) :
    PreservesLiveContent codec config captured store snapshotId serializedAt later nodeId
      now := by
  have latest := store.restoreLatest_takeSnapshot codec config snapshotId captured.clock
    serializedAt captured.engine.entries config.nodeId retained
  have kept := restorable.recover within unchanged nodeId now
    (takenMetadata codec config captured snapshotId serializedAt)
  rw [PreservesLiveContent]
  simp only [latest]
  exact kept

/-- A snapshot that its own call prunes comes back as an empty store. -/
theorem preserves_iff_of_pruned
    (pruned : (store.takeSnapshot codec config snapshotId captured.clock serializedAt
      captured.engine.entries).data.get? snapshotId = none) :
    PreservesLiveContent codec config captured store snapshotId serializedAt later nodeId
        now ↔
      ∀ key, captured.engine.peek now key = none := by
  have latest := store.restoreLatest_of_pruned codec config snapshotId captured.clock
    serializedAt captured.engine.entries config.nodeId pruned
  rw [PreservesLiveContent]
  simp only [latest]
  constructor
  · rintro ⟨-, -, live⟩ key
    exact Option.map_eq_none_iff.mp (live key).symm
  · intro nothing
    refine ⟨rfl, rfl, fun key => ?_⟩
    rw [nothing key]
    rfl

end Recovery

/-- A node that stored one entry under its default time to live and one that is about to
expire, with a cap of ten bytes. -/
def twoWrites : Node Nat FifoEvictionHook :=
  (run step (start "node-1" ⟨.infinity, .finite 10, some 50⟩ ⟨⟩ 0)
    [.serve (.put ⟨some "a", some 7, .absent⟩),
      .serve (.put ⟨some "b", some 12, .number 5⟩), .serve (.tick 3)]).node

/-- One snapshot is retained, and the store has an empty one of this time. -/
def oneSnapshot (takenAt : Millis) : SnapshotStore (List (CacheEntry Nat)) :=
  SnapshotStore.empty.takeSnapshot entryCodec ⟨"node-1", true, 1, .insertion⟩ "snap_1"
    takenAt takenAt []

end CleaningNode

end FlowCache
