import FlowCache.Snapshot.Store

/-!
# Taking a snapshot

`SnapshotManager.takeSnapshot()` captures the entries in the turn in which it is
called and then waits for the serialization and for every operation of the store.
A running call is the point it is waiting at; `advance` is the next operation.
-/

namespace FlowCache

variable {Value Bytes : Type}

/-- The options of a `SnapshotManager`, with the order its store enumerates in. -/
structure SnapshotConfig where
  nodeId : String
  compress : Bool
  maxRetained : Nat
  order : ListingOrder

/-- Where a running `takeSnapshot()` is waiting: for the serialization, or to write
the snapshot, to write the pointer, to list the store, to delete what is too old. -/
inductive SnapshotProgress (Value Bytes : Type) where
  | serializing (startedAt : Millis) (entries : List (CacheEntry Value))
  | writing (metadata : SnapshotMetadata) (buffer : Bytes)
  | pointing (metadata : SnapshotMetadata)
  | listing (metadata : SnapshotMetadata)
  | deleting (metadata : SnapshotMetadata) (remaining : List SnapshotMetadata)

/-- A manager: its store and its running snapshot, if any. -/
structure SnapshotManager (Value Bytes : Type) where
  store : SnapshotStore Bytes
  progress : Option (SnapshotProgress Value Bytes)

/-- The metadata of a snapshot whose serialization has just ended. -/
def snapshotMetadata (codec : SnapshotCodec Value Bytes) (config : SnapshotConfig)
    (snapshotId : String) (startedAt now : Millis) (entries : List (CacheEntry Value)) :
    SnapshotMetadata where
  snapshotId := snapshotId
  nodeId := config.nodeId
  createdAt := startedAt
  entryCount := entries.length
  sizeBytes := codec.byteLength (codec.serialize entries config.compress)
  durationMs := now - startedAt
  checksum := codec.sha256 (codec.serialize entries config.compress)
  compressed := config.compress

/-- The next operation of a running snapshot; the call has returned when nothing is
left.  `snapshotId` and `now` are what `generateId` and the clock return. -/
def SnapshotProgress.advance (codec : SnapshotCodec Value Bytes)
    (config : SnapshotConfig) (snapshotId : String) (now : Millis)
    (store : SnapshotStore Bytes) :
    SnapshotProgress Value Bytes →
      SnapshotStore Bytes × Option (SnapshotProgress Value Bytes)
  | .serializing startedAt entries =>
      (store, some (.writing
        (snapshotMetadata codec config snapshotId startedAt now entries)
        (codec.serialize entries config.compress)))
  | .writing metadata buffer =>
      (store.write metadata.snapshotId buffer metadata, some (.pointing metadata))
  | .pointing metadata =>
      (store.writeLatestPointer metadata, some (.listing metadata))
  | .listing metadata =>
      if (store.list config.order).length ≤ config.maxRetained then
        (store, none)
      else
        (store, some (.deleting metadata
          ((store.list config.order).drop config.maxRetained)))
  | .deleting _ [] => (store, none)
  | .deleting _ [last] => (store.delete last.snapshotId, none)
  | .deleting metadata (next :: rest) =>
      (store.delete next.snapshotId, some (.deleting metadata rest))

namespace SnapshotManager

/-- The start of `takeSnapshot()`: only one snapshot runs at a time. -/
def beginSnapshot (manager : SnapshotManager Value Bytes) (config : SnapshotConfig)
    (now : Millis) (entries : List (CacheEntry Value)) :
    Except FlowCacheError (SnapshotManager Value Bytes) :=
  match manager.progress with
  | some _ => .error (.snapshotError ("Snapshot already in progress for node \"" ++
      config.nodeId ++ "\""))
  | none => .ok { manager with progress := some (.serializing now entries) }

/-- The next operation of the running snapshot, if there is one. -/
def advance (manager : SnapshotManager Value Bytes)
    (codec : SnapshotCodec Value Bytes) (config : SnapshotConfig) (snapshotId : String)
    (now : Millis) : SnapshotManager Value Bytes :=
  match manager.progress with
  | none => manager
  | some progress =>
      let result := progress.advance codec config snapshotId now manager.store
      ⟨result.1, result.2⟩

/-- A number of operations of the running snapshot. -/
def advances (codec : SnapshotCodec Value Bytes)
    (config : SnapshotConfig) (snapshotId : String) (now : Millis) :
    Nat → SnapshotManager Value Bytes → SnapshotManager Value Bytes
  | 0, manager => manager
  | count + 1, manager =>
      advances codec config snapshotId now count
        (manager.advance codec config snapshotId now)

/-- The running snapshot throws: the store keeps what was done so far. -/
def abandon (manager : SnapshotManager Value Bytes) : SnapshotManager Value Bytes :=
  { manager with progress := none }

end SnapshotManager

/-! ## A whole call -/

namespace SnapshotStore

variable (store : SnapshotStore Bytes) (codec : SnapshotCodec Value Bytes)
  (config : SnapshotConfig) (snapshotId : String) (startedAt now : Millis)
  (entries : List (CacheEntry Value))

/-- Delete the listed snapshots one after the other. -/
def deleteAll (store : SnapshotStore Bytes) (listed : List SnapshotMetadata) :
    SnapshotStore Bytes :=
  listed.foldl (fun current old => current.delete old.snapshotId) store

/-- What a call of `takeSnapshot()` that returns has done to the store: the snapshot is
written, then the pointer, then the snapshots beyond the retained ones are deleted. -/
def takeSnapshot : SnapshotStore Bytes :=
  let metadata := snapshotMetadata codec config snapshotId startedAt now entries
  let pointed := (store.write snapshotId (codec.serialize entries config.compress)
    metadata).writeLatestPointer metadata
  pointed.deleteAll ((pointed.list config.order).drop config.maxRetained)

theorem advances_deleting (metadata : SnapshotMetadata) {remaining : List SnapshotMetadata}
    (someLeft : remaining ≠ []) :
    SnapshotManager.advances codec config snapshotId now remaining.length
        ⟨store, some (.deleting metadata remaining)⟩ =
      ⟨store.deleteAll remaining, none⟩ := by
  induction remaining generalizing store with
  | nil => exact (someLeft rfl).elim
  | cons next rest ih =>
      match rest with
      | [] => rfl
      | second :: others => exact ih (store.delete next.snapshotId) (by simp)

theorem exists_advances_listing (metadata : SnapshotMetadata) :
    ∃ count, SnapshotManager.advances codec config snapshotId now count
        ⟨store, some (.listing metadata)⟩ =
      ⟨store.deleteAll ((store.list config.order).drop config.maxRetained), none⟩ := by
  by_cases few : (store.list config.order).length ≤ config.maxRetained
  · refine ⟨1, ?_⟩
    simp only [SnapshotManager.advances, SnapshotManager.advance, SnapshotProgress.advance]
    rw [if_pos few, List.drop_eq_nil_of_le few]
    rfl
  · have someLeft : (store.list config.order).drop config.maxRetained ≠ [] := by
      simpa using few
    refine ⟨((store.list config.order).drop config.maxRetained).length + 1, ?_⟩
    simp only [SnapshotManager.advances, SnapshotManager.advance, SnapshotProgress.advance]
    rw [if_neg few]
    exact advances_deleting store codec config snapshotId now metadata someLeft

/-- The operations of a running call add up to the whole call. -/
theorem exists_advances_eq_takeSnapshot :
    ∃ count, SnapshotManager.advances codec config snapshotId now count
        ⟨store, some (.serializing startedAt entries)⟩ =
      ⟨store.takeSnapshot codec config snapshotId startedAt now entries, none⟩ := by
  let metadata := snapshotMetadata codec config snapshotId startedAt now entries
  let pointed := (store.write snapshotId (codec.serialize entries config.compress)
    metadata).writeLatestPointer metadata
  obtain ⟨count, listed⟩ :=
    exists_advances_listing pointed codec config snapshotId now metadata
  exact ⟨count + 3, listed⟩

theorem deleteAll_get? (listed : List SnapshotMetadata) (query : String) :
    (store.deleteAll listed).data.get? query =
      if query ∈ listed.map SnapshotMetadata.snapshotId then none
      else store.data.get? query := by
  induction listed generalizing store with
  | nil => rfl
  | cons old rest ih =>
      have unfolded : store.deleteAll (old :: rest) =
          (store.delete old.snapshotId).deleteAll rest := rfl
      rw [unfolded, ih, delete_get?]
      by_cases head : query = old.snapshotId <;>
        by_cases tail : query ∈ rest.map SnapshotMetadata.snapshotId <;>
        simp [head, tail]

@[simp] theorem deleteAll_latest (listed : List SnapshotMetadata) :
    (store.deleteAll listed).latest = store.latest := by
  induction listed generalizing store with
  | nil => rfl
  | cons old rest ih => exact ih (store.delete old.snapshotId)

/-- A call prunes its own snapshot exactly when too many are listed in front of it. -/
theorem retained_takeSnapshot_iff (keyed : store.Keyed) :
    ((store.takeSnapshot codec config snapshotId startedAt now entries).data.get?
        snapshotId).isSome ↔
      store.ahead config.order (codec.serialize entries config.compress)
        (snapshotMetadata codec config snapshotId startedAt now entries) <
          config.maxRetained := by
  have dropped := keyed.mem_drop_list_write_iff
    (snapshotMetadata codec config snapshotId startedAt now entries) config.maxRetained
    (codec.serialize entries config.compress) config.order
  have written := store.write_get? snapshotId snapshotId
    (codec.serialize entries config.compress)
    (snapshotMetadata codec config snapshotId startedAt now entries)
  rw [← not_le, ← dropped, takeSnapshot, deleteAll_get?]
  split
  · next member =>
      constructor
      · intro impossible
        cases impossible
      · intro kept
        exact (kept member).elim
  · next kept =>
      refine ⟨fun _ => kept, fun _ => ?_⟩
      exact congrArg Option.isSome (written.trans (if_pos rfl))

/-- A snapshot that its own call did not prune is what `restoreLatest()` returns. -/
theorem restoreLatest_takeSnapshot (nodeId : String)
    (retained : ((store.takeSnapshot codec config snapshotId startedAt now
      entries).data.get? snapshotId).isSome) :
    (store.takeSnapshot codec config snapshotId startedAt now entries).restoreLatest
        codec nodeId =
      .ok (some ⟨snapshotMetadata codec config snapshotId startedAt now entries,
        entries⟩) := by
  apply restoreLatest_of_serialized
  · simp only [takeSnapshot, deleteAll_latest]
    rfl
  · simp only [takeSnapshot, deleteAll_get?] at retained ⊢
    split at retained
    · cases retained
    · next kept =>
        refine (if_neg kept).trans ?_
        exact InsertionMap.get?_insert_self _ _ _
  · rfl

/-- A pointer to a snapshot that its own call pruned restores nothing. -/
theorem restoreLatest_of_pruned (nodeId : String)
    (pruned : (store.takeSnapshot codec config snapshotId startedAt now
      entries).data.get? snapshotId = none) :
    (store.takeSnapshot codec config snapshotId startedAt now entries).restoreLatest
        codec nodeId = .ok none := by
  have pointer : (store.takeSnapshot codec config snapshotId startedAt now entries).latest =
      some (snapshotMetadata codec config snapshotId startedAt now entries) := by
    simp only [takeSnapshot, deleteAll_latest]
    rfl
  rw [restoreLatest, pointer]
  simp only [restoreById]
  rw [show (snapshotMetadata codec config snapshotId startedAt now entries).snapshotId =
    snapshotId from rfl, pruned]

/-! ## The stores that calls write -/

/-- A store whose snapshots were all written by `takeSnapshot()`, whose calls may have been
cut short. -/
inductive Managed : SnapshotStore Bytes → Prop where
  | empty : Managed .empty
  | write {store : SnapshotStore Bytes} (managed : Managed store) (buffer : Bytes)
      (metadata : SnapshotMetadata) :
      Managed (store.write metadata.snapshotId buffer metadata)
  | writeLatestPointer {store : SnapshotStore Bytes} (managed : Managed store)
      (metadata : SnapshotMetadata) : Managed (store.writeLatestPointer metadata)
  | delete {store : SnapshotStore Bytes} (managed : Managed store) (snapshotId : String) :
      Managed (store.delete snapshotId)

theorem Managed.keyed {store : SnapshotStore Bytes} (managed : store.Managed) :
    store.Keyed := by
  induction managed with
  | empty => exact fun _ _ impossible => by cases impossible
  | write _ buffer metadata keyed => exact keyed.write buffer metadata
  | writeLatestPointer _ _ keyed => exact keyed
  | delete _ snapshotId keyed => exact keyed.delete snapshotId

theorem Managed.deleteAll {store : SnapshotStore Bytes} (managed : store.Managed)
    (listed : List SnapshotMetadata) : (store.deleteAll listed).Managed := by
  induction listed generalizing store with
  | nil => exact managed
  | cons old rest ih => exact ih (managed.delete old.snapshotId)

variable {store} in
theorem Managed.takeSnapshot (managed : store.Managed) :
    (store.takeSnapshot codec config snapshotId startedAt now entries).Managed :=
  ((managed.write _ (snapshotMetadata codec config snapshotId startedAt now
    entries)).writeLatestPointer _).deleteAll _

end SnapshotStore

end FlowCache
