import FlowCache.Library.InsertionMap
import FlowCache.Library.Retention
import FlowCache.Snapshot.Types

/-!
# Snapshot stores

`ISnapshotStore` as its two implementations share it: the stored snapshots, the
latest pointer, and a listing that is sorted by creation time with a stable sort.
The order in which the snapshots enter the sort is the insertion order for
`InMemorySnapshotStore` and whatever `readdir` returns for `FileSnapshotStore`.

JSON, gzip and SHA-256 are a codec whose round trips are part of it.
-/

namespace FlowCache

variable {Value Bytes : Type}

/-- A snapshot as the store holds it. -/
structure StoredSnapshot (Bytes : Type) where
  metadata : SnapshotMetadata
  buffer : Bytes

/-- The order in which a store enumerates its snapshots. -/
structure ListingOrder where
  arrange : List SnapshotMetadata → List SnapshotMetadata
  perm : ∀ stored, (arrange stored).Perm stored

/-- `InMemorySnapshotStore` enumerates in insertion order. -/
def ListingOrder.insertion : ListingOrder := ⟨id, fun _ => .refl _⟩

/-- The state of a snapshot store. -/
structure SnapshotStore (Bytes : Type) where
  data : InsertionMap String (StoredSnapshot Bytes)
  latest : Option SnapshotMetadata

/-- Serialization, compression and checksums. -/
structure SnapshotCodec (Value Bytes : Type) where
  stringify : List (CacheEntry Value) → Bytes
  parse : Bytes → Except FlowCacheError (List (CacheEntry Value))
  gzip : Bytes → Bytes
  gunzip : Bytes → Except FlowCacheError Bytes
  sha256 : Bytes → String
  byteLength : Bytes → Nat
  parse_stringify : ∀ entries, parse (stringify entries) = .ok entries
  gunzip_gzip : ∀ bytes, gunzip (gzip bytes) = .ok bytes

/-- The bytes of a snapshot. -/
def SnapshotCodec.serialize (codec : SnapshotCodec Value Bytes)
    (entries : List (CacheEntry Value)) (compress : Bool) : Bytes :=
  if compress then codec.gzip (codec.stringify entries) else codec.stringify entries

/-- The entries in the bytes of a snapshot. -/
def SnapshotCodec.deserialize (codec : SnapshotCodec Value Bytes) (buffer : Bytes)
    (compressed : Bool) : Except FlowCacheError (List (CacheEntry Value)) :=
  if compressed then
    match codec.gunzip buffer with
    | .ok raw => codec.parse raw
    | .error error => .error error
  else
    codec.parse buffer

theorem SnapshotCodec.deserialize_serialize (codec : SnapshotCodec Value Bytes)
    (entries : List (CacheEntry Value)) (compress : Bool) :
    codec.deserialize (codec.serialize entries compress) compress = .ok entries := by
  cases compress with
  | true => simp [deserialize, serialize, codec.gunzip_gzip, codec.parse_stringify]
  | false => simp [deserialize, serialize, codec.parse_stringify]

namespace SnapshotStore

/-- A store without snapshots. -/
def empty : SnapshotStore Bytes := ⟨.empty, none⟩

/-- `write(snapshotId, buffer, metadata)`. -/
def write (store : SnapshotStore Bytes) (snapshotId : String) (buffer : Bytes)
    (metadata : SnapshotMetadata) : SnapshotStore Bytes :=
  { store with data := store.data.insert snapshotId ⟨metadata, buffer⟩ }

/-- `writeLatestPointer(metadata)`. -/
def writeLatestPointer (store : SnapshotStore Bytes) (metadata : SnapshotMetadata) :
    SnapshotStore Bytes :=
  { store with latest := some metadata }

/-- `delete(snapshotId)`. -/
def delete (store : SnapshotStore Bytes) (snapshotId : String) : SnapshotStore Bytes :=
  { store with data := store.data.erase snapshotId }

theorem write_get? (store : SnapshotStore Bytes) (snapshotId query : String)
    (buffer : Bytes) (metadata : SnapshotMetadata) :
    (store.write snapshotId buffer metadata).data.get? query =
      if query = snapshotId then some ⟨metadata, buffer⟩ else store.data.get? query :=
  InsertionMap.get?_insert ..

theorem delete_get? (store : SnapshotStore Bytes) (removed query : String) :
    (store.delete removed).data.get? query =
      if query = removed then none else store.data.get? query :=
  InsertionMap.get?_erase ..

/-- The metadata of every stored snapshot. -/
def metadatas (store : SnapshotStore Bytes) : List SnapshotMetadata :=
  store.data.values.map StoredSnapshot.metadata

/-- `list()`: newest first; snapshots of the same millisecond keep their order. -/
def list (store : SnapshotStore Bytes) (order : ListingOrder) : List SnapshotMetadata :=
  (order.arrange store.metadatas).insertionSort
    fun newer older => older.createdAt ≤ newer.createdAt

/-- How many snapshots the listing puts in front of one that has just been written: those
that are newer, and those of the same millisecond that the store enumerates before it. -/
def ahead (store : SnapshotStore Bytes) (order : ListingOrder) (buffer : Bytes)
    (metadata : SnapshotMetadata) : Nat :=
  Retention.ahead SnapshotMetadata.createdAt metadata
    (order.arrange (store.write metadata.snapshotId buffer metadata).metadatas)

/-- `restoreById(snapshotId)`. -/
def restoreById (store : SnapshotStore Bytes) (codec : SnapshotCodec Value Bytes)
    (nodeId snapshotId : String) :
    Except FlowCacheError (Option (SnapshotPayload Value)) :=
  match store.data.get? snapshotId with
  | none => .ok none
  | some stored =>
      if codec.sha256 stored.buffer ≠ stored.metadata.checksum then
        .error (.snapshotError ("Checksum mismatch restoring snapshot \"" ++ snapshotId ++
          "\" for node \"" ++ nodeId ++ "\": expected " ++ stored.metadata.checksum ++
          ", got " ++ codec.sha256 stored.buffer ++
          ". The snapshot file may be corrupted."))
      else
        match codec.deserialize stored.buffer stored.metadata.compressed with
        | .ok entries => .ok (some ⟨stored.metadata, entries⟩)
        | .error error => .error error

/-- `restoreLatest()`. -/
def restoreLatest (store : SnapshotStore Bytes) (codec : SnapshotCodec Value Bytes)
    (nodeId : String) : Except FlowCacheError (Option (SnapshotPayload Value)) :=
  match store.latest with
  | none => .ok none
  | some pointer => store.restoreById codec nodeId pointer.snapshotId

theorem list_perm (store : SnapshotStore Bytes) (order : ListingOrder) :
    (store.list order).Perm store.metadatas :=
  (List.perm_insertionSort _ _).trans (order.perm _)

theorem mem_list_iff {store : SnapshotStore Bytes} {order : ListingOrder}
    {metadata : SnapshotMetadata} :
    metadata ∈ store.list order ↔
      ∃ snapshotId stored, store.data.get? snapshotId = some stored ∧
        stored.metadata = metadata := by
  rw [(store.list_perm order).mem_iff, metadatas, List.mem_map]
  constructor
  · rintro ⟨stored, member, same⟩
    obtain ⟨snapshotId, found⟩ := InsertionMap.mem_values_iff.mp member
    exact ⟨snapshotId, stored, found, same⟩
  · rintro ⟨snapshotId, stored, found, same⟩
    exact ⟨stored, InsertionMap.mem_values_iff.mpr ⟨snapshotId, found⟩, same⟩

theorem list_eq_newestFirst (store : SnapshotStore Bytes) (order : ListingOrder) :
    store.list order =
      Retention.newestFirst SnapshotMetadata.createdAt (order.arrange store.metadatas) := rfl

theorem list_pairwise (store : SnapshotStore Bytes) (order : ListingOrder) :
    (store.list order).Pairwise fun newer older => older.createdAt ≤ newer.createdAt :=
  Retention.newestFirst_pairwise _ _

/-- Every stored snapshot is stored under its own id. -/
def Keyed (store : SnapshotStore Bytes) : Prop :=
  ∀ snapshotId stored, store.data.get? snapshotId = some stored →
    stored.metadata.snapshotId = snapshotId

/-- How many stored snapshots were not created before the given time. -/
def countSince (store : SnapshotStore Bytes) (time : Millis) : Nat :=
  (store.metadatas.filter fun metadata => time ≤ metadata.createdAt).length

theorem Keyed.write {store : SnapshotStore Bytes} (keyed : store.Keyed)
    (buffer : Bytes) (metadata : SnapshotMetadata) :
    (store.write metadata.snapshotId buffer metadata).Keyed := by
  intro snapshotId stored found
  rw [write_get?] at found
  split at found
  · next same =>
      cases found
      exact same.symm
  · exact keyed snapshotId stored found

theorem Keyed.delete {store : SnapshotStore Bytes} (keyed : store.Keyed)
    (removed : String) : (store.delete removed).Keyed := by
  intro snapshotId stored found
  rw [delete_get?] at found
  split at found
  · cases found
  · exact keyed snapshotId stored found

theorem Keyed.list_nodup {store : SnapshotStore Bytes} (keyed : store.Keyed)
    (order : ListingOrder) : (store.list order).Nodup := by
  rw [(store.list_perm order).nodup_iff]
  apply List.Nodup.of_map SnapshotMetadata.snapshotId
  have ids : store.metadatas.map SnapshotMetadata.snapshotId = store.data.keys := by
    rw [metadatas, InsertionMap.values, InsertionMap.keys, List.map_map, List.map_map]
    apply List.map_congr_left
    rintro ⟨snapshotId, stored⟩ member
    exact keyed snapshotId stored (InsertionMap.get?_eq_some_iff.mpr member)
  rw [ids]
  exact store.data.keys_nodup

/-- A write adds its own snapshot to the listed ones. -/
theorem mem_list_write {store : SnapshotStore Bytes} {metadata listed : SnapshotMetadata}
    {buffer : Bytes} {order : ListingOrder}
    (member : listed ∈ (store.write metadata.snapshotId buffer metadata).list order) :
    listed = metadata ∨ listed ∈ store.metadatas := by
  obtain ⟨snapshotId, stored, found, rfl⟩ := mem_list_iff.mp member
  rw [write_get?] at found
  split at found
  · cases found
    exact .inl rfl
  · exact .inr (List.mem_map.mpr
      ⟨stored, InsertionMap.mem_values_iff.mpr ⟨snapshotId, found⟩, rfl⟩)

/-- The written snapshot is the one listed under its id. -/
theorem Keyed.eq_of_mem_list_write {store : SnapshotStore Bytes} (keyed : store.Keyed)
    {metadata listed : SnapshotMetadata} {buffer : Bytes} {order : ListingOrder}
    (member : listed ∈ (store.write metadata.snapshotId buffer metadata).list order)
    (same : listed.snapshotId = metadata.snapshotId) : listed = metadata := by
  obtain ⟨snapshotId, stored, found, rfl⟩ := mem_list_iff.mp member
  have key := keyed.write buffer metadata snapshotId stored found
  rw [write_get?, if_pos (key.symm.trans same)] at found
  cases found
  rfl

/-- What is listed before a snapshot is at least as new as it is. -/
theorem createdAt_le_of_mem_take {store : SnapshotStore Bytes} {order : ListingOrder}
    {count : Nat} {kept old : SnapshotMetadata}
    (isKept : kept ∈ (store.list order).take count)
    (dropped : old ∈ (store.list order).drop count) : old.createdAt ≤ kept.createdAt := by
  have sorted := store.list_pairwise order
  rw [← List.take_append_drop count (store.list order)] at sorted
  exact (List.pairwise_append.mp sorted).2.2 kept isKept old dropped

/-- A snapshot is not pruned right after it was written if fewer than `count` others
carry its time or a later one, whatever order the store enumerates in. -/
theorem Keyed.spared {store : SnapshotStore Bytes} (keyed : store.Keyed)
    {metadata : SnapshotMetadata} {count : Nat} (buffer : Bytes) (order : ListingOrder)
    (room : store.countSince metadata.createdAt < count) :
    ∀ old ∈ ((store.write metadata.snapshotId buffer metadata).list order).drop count,
      old.snapshotId ≠ metadata.snapshotId := by
  intro old dropped same
  have isNew := keyed.eq_of_mem_list_write (List.mem_of_mem_drop dropped) same
  subst isNew
  have distinct := (keyed.write buffer old).list_nodup order
  rw [← List.take_append_drop count
    ((store.write old.snapshotId buffer old).list order)] at distinct
  have long : count < ((store.write old.snapshotId buffer old).list order).length := by
    by_contra short
    rw [List.drop_eq_nil_of_le (by omega)] at dropped
    cases dropped
  have newer : ((store.write old.snapshotId buffer old).list order).take count ⊆
      store.metadatas.filter fun metadata => old.createdAt ≤ metadata.createdAt := by
    intro kept isKept
    have different : kept ≠ old := by
      rintro rfl
      exact (List.disjoint_of_nodup_append distinct) isKept dropped
    rcases mem_list_write (List.mem_of_mem_take isKept) with isOld | stored
    · exact (different isOld).elim
    · have later := createdAt_le_of_mem_take isKept dropped
      exact List.mem_filter.mpr ⟨stored, by simpa using later⟩
  have keptDistinct :
      (((store.write old.snapshotId buffer old).list order).take count).Nodup :=
    (List.nodup_append.mp distinct).1
  have fewer := (List.subperm_of_subset keptDistinct newer).length_le
  rw [List.length_take] at fewer
  rw [countSince] at room
  omega

/-- Pruning drops the snapshot that was just written exactly when too many are listed in
front of it. -/
theorem Keyed.mem_drop_list_write_iff {store : SnapshotStore Bytes} (keyed : store.Keyed)
    (metadata : SnapshotMetadata) (count : Nat) (buffer : Bytes) (order : ListingOrder) :
    metadata.snapshotId ∈ (((store.write metadata.snapshotId buffer metadata).list
        order).drop count).map SnapshotMetadata.snapshotId ↔
      count ≤ store.ahead order buffer metadata := by
  have written : (store.write metadata.snapshotId buffer metadata).data.get?
      metadata.snapshotId = some ⟨metadata, buffer⟩ := by
    rw [write_get?, if_pos rfl]
  have listed : metadata ∈ (store.write metadata.snapshotId buffer metadata).list order :=
    mem_list_iff.mpr ⟨_, _, written, rfl⟩
  have distinct := (keyed.write buffer metadata).list_nodup order
  have place := Retention.mem_take_newestFirst_iff SnapshotMetadata.createdAt
    ((Retention.newestFirst_perm _ _).nodup_iff.mp distinct)
    ((Retention.newestFirst_perm _ _).mem_iff.mp listed) count
  rw [← list_eq_newestFirst] at place
  rw [ahead, ← not_lt, ← place]
  rw [← List.take_append_drop count
    ((store.write metadata.snapshotId buffer metadata).list order)] at listed distinct
  constructor
  · intro dropped isKept
    obtain ⟨old, isDropped, same⟩ := List.mem_map.mp dropped
    have equal := keyed.eq_of_mem_list_write (List.mem_of_mem_drop isDropped) same
    exact (List.disjoint_of_nodup_append distinct) isKept (equal ▸ isDropped)
  · intro notKept
    exact List.mem_map_of_mem ((List.mem_append.mp listed).resolve_left notKept)

/-- A snapshot that was serialized with its checksum restores to its entries. -/
theorem restoreLatest_of_serialized {store : SnapshotStore Bytes}
    (codec : SnapshotCodec Value Bytes) (nodeId : String) {metadata : SnapshotMetadata}
    {entries : List (CacheEntry Value)} (pointer : store.latest = some metadata)
    (stored : store.data.get? metadata.snapshotId =
      some ⟨metadata, codec.serialize entries metadata.compressed⟩)
    (checksum : metadata.checksum =
      codec.sha256 (codec.serialize entries metadata.compressed)) :
    store.restoreLatest codec nodeId = .ok (some ⟨metadata, entries⟩) := by
  simp [restoreLatest, pointer, restoreById, stored, checksum,
    codec.deserialize_serialize]

end SnapshotStore

/-- A codec whose bytes are the entries themselves. -/
def entryCodec : SnapshotCodec Nat (List (CacheEntry Nat)) where
  stringify := id
  parse := .ok
  gzip := id
  gunzip := .ok
  sha256 := fun entries => toString entries.length
  byteLength := List.length
  parse_stringify := fun _ => rfl
  gunzip_gzip := fun _ => rfl

end FlowCache
