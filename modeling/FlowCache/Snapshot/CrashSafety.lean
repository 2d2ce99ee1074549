import FlowCache.Snapshot.Crashes

/-!
# Recovery after crashes

The files of the snapshot that the pointer names are complete at every moment: they are
written before the pointer is, and what is deleted later are other snapshots, because the
one pointed to is the newest.  So a crash costs at most the snapshot under way, except
while the pointer itself is being written.
-/

namespace FlowCache

open Transition

variable {Value Bytes : Type}

namespace SnapshotProcess

variable (codec : FileCodec Value Bytes) (config : SnapshotConfig)
variable (order : DirectoryOrder Bytes)

/-! ## The conditions -/

/-- The call starts later than every call whose snapshot or pointer is on disk. -/
def ClockMoved (process : SnapshotProcess Value Bytes) : ProcessAction Value Bytes → Prop
  | .takeSnapshot _ => process.progress = none →
      ∀ name metadata, process.files.get? name = some (.metadata metadata) →
        metadata.createdAt < process.clock
  | _ => True

/-- `generateId` returns an id that has no files. -/
def FreshFiles (process : SnapshotProcess Value Bytes) : ProcessAction Value Bytes → Prop
  | .advance snapshotId =>
      process.files.get? (dataName snapshotId) = none ∧
        process.files.get? (metadataName snapshotId) = none ∨
      ∀ startedAt entries, process.progress ≠ some (.serializing startedAt entries)
  | _ => True

/-- The metadata in a file. -/
def metadata? : FileContent Bytes → Option SnapshotMetadata
  | .metadata metadata => some metadata
  | .buffer _ => none

/-- The call is being serialized. -/
def isSerializing : FileProgress Value → Bool
  | .serializing _ _ => true
  | .writingData _ _ | .writingMetadata _ _ | .pointing _ _ | .listing | .deleting _ => false

theorem clockMoved_takeSnapshot_iff {process : SnapshotProcess Value Bytes}
    {entries : List (CacheEntry Value)} :
    (process.progress.isNone = true → ∀ file ∈ process.files.entries,
        ∀ metadata ∈ metadata? file.2, metadata.createdAt < process.clock) ↔
      process.ClockMoved (.takeSnapshot entries) := by
  rw [Option.isNone_iff_eq_none, ClockMoved]
  refine imp_congr_right fun _ => ⟨fun older name metadata found => ?_, ?_⟩
  · exact older (name, .metadata metadata) (InsertionMap.get?_eq_some_iff.mp found)
      metadata rfl
  · rintro older ⟨name, content⟩ member metadata found
    cases content with
    | buffer text => cases found
    | metadata other =>
        cases found
        exact older name metadata (InsertionMap.get?_eq_some_iff.mpr member)

theorem freshFiles_advance_iff {process : SnapshotProcess Value Bytes}
    {snapshotId : String} :
    ((process.files.get? (dataName snapshotId)).isNone = true ∧
          (process.files.get? (metadataName snapshotId)).isNone = true ∨
        process.progress.any isSerializing = false) ↔
      process.FreshFiles (.advance snapshotId) := by
  rw [FreshFiles, Option.isNone_iff_eq_none, Option.isNone_iff_eq_none]
  refine or_congr_right ?_
  cases process.progress with
  | none => simp
  | some progress => cases progress <;> simp [isSerializing]

instance (process : SnapshotProcess Value Bytes) :
    (action : ProcessAction Value Bytes) → Decidable (process.ClockMoved action)
  | .takeSnapshot _ => decidable_of_iff _ clockMoved_takeSnapshot_iff
  | .tick _ | .advance _ | .crash _ | .reject _ => .isTrue trivial

instance (process : SnapshotProcess Value Bytes) :
    (action : ProcessAction Value Bytes) → Decidable (process.FreshFiles action)
  | .advance _ => decidable_of_iff _ freshFiles_advance_iff
  | .tick _ | .takeSnapshot _ | .crash _ | .reject _ => .isTrue trivial

/-! ## The invariant -/

/-- The two files of a snapshot with these entries are complete. -/
structure Stored (files : SnapshotDirectory Bytes) (metadata : SnapshotMetadata)
    (entries : List (CacheEntry Value)) : Prop where
  valid : isValidSnapshotId metadata.snapshotId = true
  data : files.get? (dataName metadata.snapshotId) =
    some (.buffer (codec.serialize entries metadata.compressed))
  described : files.get? (metadataName metadata.snapshotId) = some (.metadata metadata)
  checksum : metadata.checksum = codec.sha256 (codec.serialize entries metadata.compressed)

/-- The pointer and the snapshot it names are as they should be. -/
def Pointed (files : SnapshotDirectory Bytes) : Recoverable Value Bytes → Prop
  | .nothing => files.get? latestName = none
  | .snapshot metadata entries =>
      files.get? latestName = some (.metadata metadata) ∧ Stored codec files metadata entries
  | .cutOff text => files.get? latestName = some (.buffer text)

/-- Every other snapshot on disk is older. -/
def Newest (files : SnapshotDirectory Bytes) (metadata : SnapshotMetadata) : Prop :=
  ∀ name other, files.get? name = some (.metadata other) →
    other = metadata ∨ other.createdAt < metadata.createdAt

/-- What holds while a call is under way. -/
def Waiting (process : SnapshotProcess Value Bytes) : FileProgress Value → Prop
  | .serializing startedAt _ => startedAt ≤ process.clock ∧
      ∀ name other, process.files.get? name = some (.metadata other) →
        other.createdAt < startedAt
  | .writingData metadata entries =>
      metadata.createdAt ≤ process.clock ∧
      isValidSnapshotId metadata.snapshotId = true ∧
      (∀ name other, process.files.get? name = some (.metadata other) →
        other.createdAt < metadata.createdAt) ∧
      process.files.get? (dataName metadata.snapshotId) = none ∧
      process.files.get? (metadataName metadata.snapshotId) = none ∧
      metadata.compressed = config.compress ∧
      metadata.checksum = codec.sha256 (codec.serialize entries metadata.compressed)
  | .writingMetadata metadata entries =>
      metadata.createdAt ≤ process.clock ∧
      isValidSnapshotId metadata.snapshotId = true ∧
      (∀ name other, process.files.get? name = some (.metadata other) →
        other.createdAt < metadata.createdAt) ∧
      process.files.get? (dataName metadata.snapshotId) =
        some (.buffer (codec.serialize entries metadata.compressed)) ∧
      process.files.get? (metadataName metadata.snapshotId) = none ∧
      metadata.checksum = codec.sha256 (codec.serialize entries metadata.compressed)
  | .pointing metadata entries =>
      Stored codec process.files metadata entries ∧ Newest process.files metadata
  | .listing => ∃ metadata entries, process.pointed = .snapshot metadata entries ∧
      Newest process.files metadata
  | .deleting remaining => ∃ metadata entries, process.pointed = .snapshot metadata entries ∧
      ∀ old ∈ remaining, old.snapshotId ≠ metadata.snapshotId

/-- What every action keeps. -/
structure Sound (process : SnapshotProcess Value Bytes) : Prop where
  pointed : Pointed codec process.files process.pointed
  named : ∀ name metadata, process.files.get? name = some (.metadata metadata) →
    name = latestName ∨ name = metadataName metadata.snapshotId
  past : ∀ name metadata, process.files.get? name = some (.metadata metadata) →
    metadata.createdAt ≤ process.clock
  waiting : ∀ progress ∈ process.progress, process.Waiting codec config progress

theorem sound_start (clock : Millis) :
    (start clock : SnapshotProcess Value Bytes).Sound codec config where
  pointed := rfl
  named := fun _ _ found => by cases found
  past := fun _ _ found => by cases found
  waiting := fun _ found => by cases found

/-! ## Listing -/

section Listing

variable {codec config order}
variable {files : SnapshotDirectory Bytes} {found : List (String × FileContent Bytes)}
variable {all metadatas : List SnapshotMetadata} {metadata : SnapshotMetadata}

/-- Metadata files that can all be read are those of what was read. -/
theorem eq_of_readMetadata
    (named : ∀ file ∈ found, ∀ other, file.2 = .metadata other →
      file.1 = metadataName other.snapshotId)
    (readable : SnapshotDirectory.readMetadata codec found = .ok metadatas) :
    found = metadatas.map fun other => (metadataName other.snapshotId, .metadata other) := by
  induction found generalizing metadatas with
  | nil =>
      cases readable
      rfl
  | cons file rest ih =>
      obtain ⟨name, content⟩ := file
      cases content with
      | buffer text =>
          rw [SnapshotDirectory.readMetadata, SnapshotDirectory.parseMetadata] at readable
          cases readable
      | metadata first =>
          rw [SnapshotDirectory.readMetadata, SnapshotDirectory.parseMetadata] at readable
          cases later : SnapshotDirectory.readMetadata codec rest with
          | error error =>
              rw [later] at readable
              cases readable
          | ok others =>
              rw [later] at readable
              cases readable
              have own : name = metadataName first.snapshotId :=
                named (name, .metadata first) List.mem_cons_self first rfl
              rw [List.map_cons, own,
                ← ih (fun file member => named file (by simp [member])) later]

theorem pairwise_newestFirst (metadatas : List SnapshotMetadata) :
    (metadatas.insertionSort fun newer older => older.createdAt ≤ newer.createdAt).Pairwise
      fun newer older => older.createdAt ≤ newer.createdAt := by
  have : IsTrans SnapshotMetadata fun newer older => older.createdAt ≤ newer.createdAt :=
    ⟨fun _ _ _ first second => Int.le_trans second first⟩
  have : Std.Total fun newer older : SnapshotMetadata =>
      older.createdAt ≤ newer.createdAt :=
    ⟨fun first second => Int.le_total second.createdAt first.createdAt⟩
  exact List.pairwise_insertionSort _ _

/-- A listing that succeeds has every metadata file of the directory once. -/
theorem exists_listed
    (named : ∀ name other, files.get? name = some (.metadata other) →
      name = latestName ∨ name = metadataName other.snapshotId)
    (listed : files.list codec order = .ok all) :
    ∃ metadatas : List SnapshotMetadata, all = metadatas.insertionSort
        (fun newer older => older.createdAt ≤ newer.createdAt) ∧
      (metadatas.map SnapshotMetadata.snapshotId).Nodup ∧
      ∀ other, other ∈ metadatas ↔
        files.get? (metadataName other.snapshotId) = some (.metadata other) := by
  obtain ⟨found, same⟩ : ∃ found, found = (order.arrange files.entries).filter
      fun file => isMetadataName file.1 := ⟨_, rfl⟩
  have inFound : ∀ file, file ∈ found ↔
      files.get? file.1 = some file.2 ∧ isMetadataName file.1 = true := by
    intro file
    rw [same, List.mem_filter, (order.perm files.entries).mem_iff,
      InsertionMap.get?_eq_some_iff]
  have ownName : ∀ file ∈ found, ∀ other, file.2 = .metadata other →
      file.1 = metadataName other.snapshotId := by
    intro file member other content
    obtain ⟨inFiles, suffix⟩ := (inFound file).mp member
    refine (named file.1 other (content ▸ inFiles)).resolve_left fun isLatest => ?_
    rw [isLatest, isMetadataName_latestName] at suffix
    cases suffix
  have distinct : (found.map Prod.fst).Nodup := by
    have names : ((order.arrange files.entries).map Prod.fst).Nodup :=
      ((order.perm files.entries).map Prod.fst).nodup_iff.mpr files.nodupKeys
    rw [same]
    exact (List.filter_sublist.map Prod.fst).nodup names
  rw [SnapshotDirectory.list, ← same] at listed
  cases readable : SnapshotDirectory.readMetadata codec found with
  | error error =>
      rw [readable] at listed
      cases listed
  | ok metadatas =>
      rw [readable] at listed
      cases listed
      have shape := eq_of_readMetadata ownName readable
      refine ⟨metadatas, rfl, ?_, ?_⟩
      · rw [shape, List.map_map] at distinct
        exact List.Nodup.of_map metadataName (by rwa [List.map_map])
      · intro other
        have file := inFound (metadataName other.snapshotId, .metadata other)
        rw [and_iff_left (isMetadataName_metadataName _)] at file
        rw [← file, shape]
        constructor
        · exact fun member => List.mem_map_of_mem member
        · intro member
          obtain ⟨own, isOther, equal⟩ := List.mem_map.mp member
          obtain ⟨-, content⟩ := Prod.mk.inj equal
          cases content
          exact isOther

/-- A snapshot that is newer than all others is listed first. -/
theorem ne_of_mem_drop_list
    (named : ∀ name other, files.get? name = some (.metadata other) →
      name = latestName ∨ name = metadataName other.snapshotId)
    (newest : Newest files metadata)
    (stored : files.get? (metadataName metadata.snapshotId) = some (.metadata metadata))
    (listed : files.list codec order = .ok all) {count : Nat} (positive : 0 < count) :
    ∀ old ∈ all.drop count, old.snapshotId ≠ metadata.snapshotId := by
  obtain ⟨metadatas, rfl, ids, onDisk⟩ := exists_listed named listed
  have member := (onDisk metadata).mpr stored
  have permuted := List.perm_insertionSort
    (fun newer older : SnapshotMetadata => older.createdAt ≤ newer.createdAt) metadatas
  have sorted := pairwise_newestFirst metadatas
  cases shape : metadatas.insertionSort
      fun newer older => older.createdAt ≤ newer.createdAt with
  | nil =>
      rw [shape] at permuted
      rw [← permuted.mem_iff] at member
      cases member
  | cons first rest =>
      rw [shape] at permuted sorted
      have isFirst : first = metadata := by
        have firstOnDisk := (onDisk first).mp (permuted.mem_iff.mp List.mem_cons_self)
        rcases newest _ first firstOnDisk with same | earlier
        · exact same
        · rcases List.mem_cons.mp (permuted.mem_iff.mpr member) with same | later
          · exact same.symm
          · exact absurd ((List.pairwise_cons.mp sorted).1 metadata later)
              (Int.not_le.mpr earlier)
      have once := (permuted.map SnapshotMetadata.snapshotId).nodup_iff.mpr ids
      rw [List.map_cons, List.nodup_cons, isFirst] at once
      intro old dropped equal
      have inRest : old ∈ rest := by
        rw [← Nat.succ_pred_eq_of_pos positive, List.drop_succ_cons] at dropped
        exact List.mem_of_mem_drop dropped
      exact once.1 (equal ▸ List.mem_map_of_mem inRest)

end Listing

/-! ## Changes of the files -/

section Changes

variable {codec config order}
variable {files next : SnapshotDirectory Bytes} {metadata : SnapshotMetadata}
variable {entries : List (CacheEntry Value)} {pointed : Recoverable Value Bytes}

/-- The metadata files and the pointer of the one directory are those of the other. -/
def Fewer (files next : SnapshotDirectory Bytes) : Prop :=
  ∀ name metadata, next.get? name = some (.metadata metadata) →
    files.get? name = some (.metadata metadata)

theorem fewer_refl (files : SnapshotDirectory Bytes) : Fewer files files :=
  fun _ _ => id

theorem fewer_insert_buffer (files : SnapshotDirectory Bytes) (name : String) (left : Bytes) :
    Fewer files (files.insert name (.buffer left)) := by
  intro query metadata found
  rw [InsertionMap.get?_insert] at found
  split at found
  · cases found
  · exact found

theorem Fewer.erase (fewer : Fewer files next) (name : String) :
    Fewer files (next.erase name) := by
  intro query metadata found
  rw [InsertionMap.get?_erase] at found
  split at found
  · cases found
  · exact fewer query metadata found

theorem get?_insert_metadata {name query : String} {other : SnapshotMetadata}
    (found : (files.insert name (.metadata metadata)).get? query = some (.metadata other)) :
    (query = name ∧ other = metadata) ∨ files.get? query = some (.metadata other) := by
  rw [InsertionMap.get?_insert] at found
  split at found
  · next same =>
      cases found
      exact .inl ⟨same, rfl⟩
  · exact .inr found

/-- A snapshot whose files are left alone stays. -/
theorem Stored.kept (stored : Stored codec files metadata entries)
    (data : next.get? (dataName metadata.snapshotId) =
      files.get? (dataName metadata.snapshotId))
    (described : next.get? (metadataName metadata.snapshotId) =
      files.get? (metadataName metadata.snapshotId)) : Stored codec next metadata entries :=
  ⟨stored.valid, data.trans stored.data, described.trans stored.described, stored.checksum⟩

/-- So does the pointer. -/
theorem Pointed.kept (sound : Pointed codec files pointed)
    (latest : next.get? latestName = files.get? latestName)
    (own : ∀ metadata entries, pointed = .snapshot metadata entries →
      next.get? (dataName metadata.snapshotId) =
          files.get? (dataName metadata.snapshotId) ∧
        next.get? (metadataName metadata.snapshotId) =
          files.get? (metadataName metadata.snapshotId)) : Pointed codec next pointed := by
  cases pointed with
  | nothing => exact latest.trans sound
  | cutOff text => exact latest.trans sound
  | snapshot metadata entries =>
      obtain ⟨data, described⟩ := own metadata entries rfl
      exact ⟨latest.trans sound.1, sound.2.kept data described⟩

/-- A new file of a snapshot that is not the one pointed to. -/
theorem Pointed.insert (sound : Pointed codec files pointed) {name : String}
    (absent : files.get? name = none) (notLatest : name ≠ latestName)
    (content : FileContent Bytes) : Pointed codec (files.insert name content) pointed := by
  apply sound.kept
  · exact InsertionMap.get?_insert_of_ne files (Ne.symm notLatest) content
  · rintro metadata entries rfl
    obtain ⟨-, stored⟩ := sound
    constructor
    · apply InsertionMap.get?_insert_of_ne
      rintro rfl
      rw [stored.data] at absent
      cases absent
    · apply InsertionMap.get?_insert_of_ne
      rintro rfl
      rw [stored.described] at absent
      cases absent

theorem Pointed.erase (sound : Pointed codec files pointed) {name : String}
    (notLatest : name ≠ latestName)
    (other : ∀ metadata entries, pointed = .snapshot metadata entries →
      name ≠ dataName metadata.snapshotId ∧ name ≠ metadataName metadata.snapshotId) :
    Pointed codec (files.erase name) pointed := by
  apply sound.kept
  · exact InsertionMap.get?_erase_of_ne files (Ne.symm notLatest)
  · intro metadata entries same
    obtain ⟨data, described⟩ := other metadata entries same
    exact ⟨InsertionMap.get?_erase_of_ne files (Ne.symm data),
      InsertionMap.get?_erase_of_ne files (Ne.symm described)⟩

/-- The data file of another snapshot is deleted. -/
theorem Pointed.erase_data (sound : Pointed codec files pointed) {old : SnapshotMetadata}
    (other : ∀ metadata entries, pointed = .snapshot metadata entries →
      old.snapshotId ≠ metadata.snapshotId) :
    Pointed codec (files.erase (dataName old.snapshotId)) pointed := by
  apply sound.erase (dataName_ne_latestName _)
  intro metadata entries same
  exact ⟨fun equal => other metadata entries same (dataName_injective equal),
    dataName_ne_metadataName _ _⟩

/-- The metadata file of another snapshot is deleted. -/
theorem Pointed.erase_metadata (sound : Pointed codec files pointed) {old : SnapshotMetadata}
    (other : ∀ metadata entries, pointed = .snapshot metadata entries →
      old.snapshotId ≠ metadata.snapshotId) :
    Pointed codec (files.erase (metadataName old.snapshotId)) pointed := by
  apply sound.erase (metadataName_ne_latestName _)
  intro metadata entries same
  exact ⟨(dataName_ne_metadataName _ _).symm,
    fun equal => other metadata entries same (metadataName_injective equal)⟩

end Changes

/-! ## Steps -/

section Steps

variable {codec config order}
variable {process : SnapshotProcess Value Bytes} {metadata : SnapshotMetadata}
variable {entries : List (CacheEntry Value)}

/-- The files change without new metadata, and the call goes on or ends. -/
theorem Sound.of_fewer (sound : process.Sound codec config)
    {files : SnapshotDirectory Bytes} {pointed : Recoverable Value Bytes}
    {progress : Option (FileProgress Value)}
    (fewer : Fewer process.files files) (isPointed : Pointed codec files pointed)
    (waiting : ∀ found ∈ progress,
      Waiting codec config ⟨files, progress, process.clock, pointed⟩ found) :
    (⟨files, progress, process.clock, pointed⟩ : SnapshotProcess Value Bytes).Sound
      codec config where
  pointed := isPointed
  named := fun name metadata found => sound.named name metadata (fewer name metadata found)
  past := fun name metadata found => sound.past name metadata (fewer name metadata found)
  waiting := waiting

/-- The call ends and the files stay as they are. -/
theorem Sound.stop (sound : process.Sound codec config) :
    ({ process with progress := none }).Sound codec config :=
  sound.of_fewer (fewer_refl _) sound.pointed fun _ found => by cases found

theorem Sound.tick (sound : process.Sound codec config) (elapsed : Nat) :
    ({ process with clock := process.clock + elapsed }).Sound codec config := by
  have later : process.clock ≤ process.clock + elapsed :=
    Int.le_add_of_nonneg_right (Int.natCast_nonneg elapsed)
  refine ⟨sound.pointed, sound.named,
    fun name metadata found => (sound.past name metadata found).trans later, ?_⟩
  intro progress found
  have before := sound.waiting progress found
  cases progress with
  | serializing startedAt entries => exact ⟨before.1.trans later, before.2⟩
  | writingData metadata entries => exact ⟨before.1.trans later, before.2⟩
  | writingMetadata metadata entries => exact ⟨before.1.trans later, before.2⟩
  | pointing metadata entries => exact before
  | listing => exact before
  | deleting remaining => exact before

theorem Sound.beginSnapshot (sound : process.Sound codec config)
    (entries : List (CacheEntry Value))
    (moved : process.ClockMoved (.takeSnapshot entries)) :
    (process.beginSnapshot entries).Sound codec config := by
  unfold SnapshotProcess.beginSnapshot
  split
  · exact sound
  · next idle =>
      apply sound.of_fewer (fewer_refl _) sound.pointed
      rintro found ⟨⟩
      exact ⟨le_rfl, moved idle⟩

/-- The serialization has ended. -/
theorem Sound.serialized (sound : process.Sound codec config) {startedAt : Millis}
    (waiting : process.progress = some (.serializing startedAt entries)) {snapshotId : String}
    (fresh : process.FreshFiles (.advance snapshotId)) :
    (process.advance codec config order snapshotId).Sound codec config := by
  obtain ⟨past, older⟩ := sound.waiting _ waiting
  have absent := fresh.resolve_right fun other => other startedAt entries waiting
  simp only [SnapshotProcess.advance, waiting]
  apply sound.of_fewer (fewer_refl _) sound.pointed
  intro found running
  split at running
  · next valid =>
      cases running
      exact ⟨past, valid, older, absent.1, absent.2, rfl, rfl⟩
  · cases running

theorem Sound.wroteData (sound : process.Sound codec config)
    (waiting : process.progress = some (.writingData metadata entries)) (snapshotId : String) :
    (process.advance codec config order snapshotId).Sound codec config := by
  obtain ⟨past, valid, older, noData, noMetadata, compressed, checksum⟩ :=
    sound.waiting _ waiting
  simp only [SnapshotProcess.advance, waiting]
  apply sound.of_fewer (fewer_insert_buffer _ _ _)
    (sound.pointed.insert noData (dataName_ne_latestName _) _)
  rintro found ⟨⟩
  refine ⟨past, valid, ?_, ?_, ?_, checksum⟩
  · exact fun name other present => older name other (fewer_insert_buffer _ _ _ name other present)
  · rw [compressed]
    exact InsertionMap.get?_insert_self _ _ _
  · exact (InsertionMap.get?_insert_of_ne _ (dataName_ne_metadataName _ _).symm _).trans noMetadata

theorem Sound.wroteMetadata (sound : process.Sound codec config)
    (waiting : process.progress = some (.writingMetadata metadata entries))
    (snapshotId : String) :
    (process.advance codec config order snapshotId).Sound codec config := by
  obtain ⟨past, valid, older, data, noMetadata, checksum⟩ := sound.waiting _ waiting
  simp only [SnapshotProcess.advance, waiting]
  constructor
  case pointed => exact sound.pointed.insert noMetadata (metadataName_ne_latestName _) _
  case named =>
    intro name other found
    rcases get?_insert_metadata found with ⟨rfl, rfl⟩ | before
    · exact .inr rfl
    · exact sound.named name other before
  case past =>
    intro name other found
    rcases get?_insert_metadata found with ⟨rfl, rfl⟩ | before
    · exact past
    · exact sound.past name other before
  case waiting =>
    rintro found ⟨⟩
    refine ⟨⟨valid, ?_, InsertionMap.get?_insert_self _ _ _, checksum⟩, ?_⟩
    · exact (InsertionMap.get?_insert_of_ne _ (dataName_ne_metadataName _ _) _).trans data
    · intro name other found
      rcases get?_insert_metadata found with ⟨-, same⟩ | before
      · exact .inl same
      · exact .inr (older name other before)

theorem Sound.wrotePointer (sound : process.Sound codec config)
    (waiting : process.progress = some (.pointing metadata entries)) (snapshotId : String) :
    (process.advance codec config order snapshotId).Sound codec config := by
  obtain ⟨stored, newest⟩ := sound.waiting _ waiting
  simp only [SnapshotProcess.advance, waiting]
  constructor
  case pointed =>
    refine ⟨InsertionMap.get?_insert_self _ _ _, stored.kept ?_ ?_⟩
    · exact InsertionMap.get?_insert_of_ne _ (dataName_ne_latestName _) _
    · exact InsertionMap.get?_insert_of_ne _ (metadataName_ne_latestName _) _
  case named =>
    intro name other found
    rcases get?_insert_metadata found with ⟨rfl, -⟩ | before
    · exact .inl rfl
    · exact sound.named name other before
  case past =>
    intro name other found
    rcases get?_insert_metadata found with ⟨-, rfl⟩ | before
    · exact sound.past _ _ stored.described
    · exact sound.past name other before
  case waiting =>
    rintro found ⟨⟩
    refine ⟨metadata, entries, rfl, ?_⟩
    intro name other found
    rcases get?_insert_metadata found with ⟨-, same⟩ | before
    · exact .inl same
    · exact newest name other before

theorem Sound.listed (sound : process.Sound codec config)
    (positive : 0 < config.maxRetained) (waiting : process.progress = some .listing)
    (snapshotId : String) :
    (process.advance codec config order snapshotId).Sound codec config := by
  obtain ⟨metadata, entries, pointed, newest⟩ := sound.waiting _ waiting
  have isPointed := sound.pointed
  rw [pointed] at isPointed
  simp only [SnapshotProcess.advance, waiting]
  split
  · exact sound.stop
  · next all listed =>
      apply sound.of_fewer (fewer_refl _) sound.pointed
      intro found running
      split at running
      · cases running
      · cases running
        exact ⟨metadata, entries, pointed,
          ne_of_mem_drop_list sound.named newest isPointed.2.described listed positive⟩

/-- The snapshot to be deleted next is not the one pointed to. -/
theorem Sound.ne_of_deleting (sound : process.Sound codec config)
    {old : SnapshotMetadata} {rest : List SnapshotMetadata}
    (waiting : process.progress = some (.deleting (old :: rest))) :
    ∀ metadata entries, process.pointed = .snapshot metadata entries →
      old.snapshotId ≠ metadata.snapshotId := by
  obtain ⟨metadata, entries, pointed, others⟩ := sound.waiting _ waiting
  intro other otherEntries same
  rw [pointed] at same
  cases same
  exact others old List.mem_cons_self

theorem Sound.deleted (sound : process.Sound codec config)
    {remaining : List SnapshotMetadata}
    (waiting : process.progress = some (.deleting remaining)) (snapshotId : String) :
    (process.advance codec config order snapshotId).Sound codec config := by
  obtain ⟨metadata, entries, pointed, others⟩ := sound.waiting _ waiting
  cases remaining with
  | nil =>
      simp only [SnapshotProcess.advance, waiting]
      exact sound.stop
  | cons next rest =>
      simp only [SnapshotProcess.advance, waiting]
      split
      · have other := sound.ne_of_deleting waiting
        apply sound.of_fewer (((fewer_refl _).erase _).erase _)
          ((sound.pointed.erase_data other).erase_metadata other)
        rintro found ⟨⟩
        exact ⟨metadata, entries, pointed, fun old member => others old (by simp [member])⟩
      · exact sound.stop

/-- Whatever a crash leaves of the call under way, the files are in order. -/
theorem Sound.crash (sound : process.Sound codec config) (cut : Cut Bytes) :
    (process.crash codec config order cut).Sound codec config := by
  cases cut with
  | undone => exact sound.stop
  | torn left =>
      unfold SnapshotProcess.crash
      cases waiting : process.progress with
      | none => exact sound.stop
      | some progress =>
          have before := sound.waiting progress waiting
          cases progress with
          | serializing startedAt entries => exact sound.stop
          | writingData metadata entries =>
              obtain ⟨-, -, -, noData, -⟩ := before
              exact sound.of_fewer (fewer_insert_buffer _ _ _)
                (sound.pointed.insert noData (dataName_ne_latestName _) _)
                fun _ found => by cases found
          | writingMetadata metadata entries =>
              obtain ⟨-, -, -, -, noMetadata, -⟩ := before
              exact sound.of_fewer (fewer_insert_buffer _ _ _)
                (sound.pointed.insert noMetadata (metadataName_ne_latestName _) _)
                fun _ found => by cases found
          | pointing metadata entries =>
              exact sound.of_fewer (fewer_insert_buffer _ _ _)
                (InsertionMap.get?_insert_self _ _ _) fun _ found => by cases found
          | listing => exact sound.stop
          | deleting remaining => exact sound.stop
  | unlinked data metadata =>
      unfold SnapshotProcess.crash
      cases waiting : process.progress with
      | none => exact sound.stop
      | some progress =>
          cases progress with
          | serializing startedAt entries => exact sound.stop
          | writingData metadata entries => exact sound.stop
          | writingMetadata metadata entries => exact sound.stop
          | pointing metadata entries => exact sound.stop
          | listing => exact sound.stop
          | deleting remaining =>
              cases remaining with
              | nil => exact sound.stop
              | cons next rest =>
                  have other := sound.ne_of_deleting waiting
                  simp only
                  generalize (data && isValidSnapshotId next.snapshotId) = dropsData
                  generalize (metadata && isValidSnapshotId next.snapshotId) = dropsMetadata
                  cases dropsData with
                  | false =>
                      cases dropsMetadata with
                      | false => exact sound.stop
                      | true =>
                          exact sound.of_fewer ((fewer_refl _).erase _)
                            (sound.pointed.erase_metadata other) fun _ found => by cases found
                  | true =>
                      cases dropsMetadata with
                      | false =>
                          exact sound.of_fewer ((fewer_refl _).erase _)
                            (sound.pointed.erase_data other) fun _ found => by cases found
                      | true =>
                          exact sound.of_fewer (((fewer_refl _).erase _).erase _)
                            ((sound.pointed.erase_data other).erase_metadata other)
                            fun _ found => by cases found
  | whole =>
      unfold SnapshotProcess.crash
      cases waiting : process.progress with
      | none =>
          simp only [SnapshotProcess.advance, waiting]
          exact sound.stop
      | some progress =>
          cases progress with
          | serializing startedAt entries =>
              simp only [SnapshotProcess.advance, waiting]
              exact sound.stop
          | writingData metadata entries => exact (sound.wroteData waiting "").stop
          | writingMetadata metadata entries => exact (sound.wroteMetadata waiting "").stop
          | pointing metadata entries => exact (sound.wrotePointer waiting "").stop
          | listing =>
              simp only [SnapshotProcess.advance, waiting]
              split
              · exact sound.stop
              · exact sound.stop
          | deleting remaining => exact (sound.deleted waiting "").stop

/-- A deletion that is cut short has nothing to do with the pointer. -/
theorem crash_pointed_of_deleting {remaining : List SnapshotMetadata}
    (waiting : process.progress = some (.deleting remaining)) (cut : Cut Bytes) :
    (process.crash codec config order cut).pointed = process.pointed := by
  unfold SnapshotProcess.crash
  cases cut with
  | undone => rfl
  | torn left => simp only [waiting]
  | unlinked data metadata =>
      cases remaining with
      | nil => simp only [waiting]
      | cons next rest => simp only [waiting]
  | whole =>
      cases remaining with
      | nil => simp only [SnapshotProcess.advance, waiting]
      | cons next rest =>
          simp only [SnapshotProcess.advance, waiting]
          split
          · rfl
          · rfl

/-- After a rejection the files are in order, and only deletions go on. -/
theorem Sound.reject (sound : process.Sound codec config) (cut : Cut Bytes) :
    (process.reject codec config order cut).Sound codec config := by
  apply (sound.crash cut).of_fewer (fewer_refl _) (sound.crash cut).pointed
  intro found goesOn
  obtain ⟨progress, waiting, next⟩ := Option.bind_eq_some_iff.mp goesOn
  cases progress with
  | deleting remaining =>
      cases remaining with
      | nil => cases next
      | cons old rest =>
          obtain ⟨metadata, entries, pointed, others⟩ := sound.waiting _ waiting
          rw [afterRejection] at next
          split at next
          · cases next
            refine ⟨metadata, entries, ?_, fun other member => others other (by simp [member])⟩
            exact (crash_pointed_of_deleting waiting cut).trans pointed
          · cases next
  | serializing startedAt entries => cases next
  | writingData metadata entries => cases next
  | writingMetadata metadata entries => cases next
  | pointing metadata entries => cases next
  | listing => cases next

theorem Sound.step (sound : process.Sound codec config) (positive : 0 < config.maxRetained)
    {action : ProcessAction Value Bytes} (moved : process.ClockMoved action)
    (fresh : process.FreshFiles action) :
    (process.step codec config order action).Sound codec config := by
  cases action with
  | tick elapsed => exact sound.tick elapsed
  | takeSnapshot entries => exact sound.beginSnapshot entries moved
  | crash cut => exact sound.crash cut
  | reject cut => exact sound.reject cut
  | advance snapshotId =>
      simp only [SnapshotProcess.step]
      cases waiting : process.progress with
      | none =>
          simp only [SnapshotProcess.advance, waiting]
          exact sound
      | some progress =>
          cases progress with
          | serializing startedAt entries => exact sound.serialized waiting fresh
          | writingData metadata entries => exact sound.wroteData waiting snapshotId
          | writingMetadata metadata entries => exact sound.wroteMetadata waiting snapshotId
          | pointing metadata entries => exact sound.wrotePointer waiting snapshotId
          | listing => exact sound.listed positive waiting snapshotId
          | deleting remaining => exact sound.deleted waiting snapshotId

end Steps

/-! ## The calls of the store -/

section Calls

open PosixPath

/-- The calls of the `FileSnapshotStore` that `advance` waits for. -/
def nextCalls (store : FileSnapshotStore) (process : SnapshotProcess Value Bytes) :
    List (FileCall Bytes) :=
  match process.progress with
  | some (.writingData metadata entries) =>
      [.mkdir store.directory, .writeFile (store.dataPath metadata.snapshotId)
        (.buffer (codec.serialize entries config.compress))]
  | some (.writingMetadata metadata _) =>
      [.writeFile (store.metaPath metadata.snapshotId) (.metadata metadata)]
  | some (.pointing metadata _) =>
      [.mkdir store.directory, .writeFile store.latestPath (.metadata metadata)]
  | some (.deleting (next :: _)) => (store.delete next.snapshotId).calls
  | _ => []

/-- The disk has these files in the store's directory. -/
def OnDisk (store : FileSnapshotStore) (disk : Disk Bytes) (files : SnapshotDirectory Bytes) :
    Prop :=
  ∀ name, IsPlain name.toList →
    disk ((fileLocation store.directory).child name.toList) = files.get? name

section Disk

variable {store : FileSnapshotStore} {disk : Disk Bytes} {files : SnapshotDirectory Bytes}
variable {name : String}

theorem child_eq_iff (directory : Location) {first second : String} :
    directory.child first.toList = directory.child second.toList ↔ first = second := by
  rw [(Location.child_injective directory).eq_iff, String.toList_inj]

theorem apply_mkdir (directory : String) :
    (FileCall.mkdir directory : FileCall Bytes).apply disk = disk := rfl

theorem OnDisk.writeFile (onDisk : OnDisk store disk files) (plain : IsPlain name.toList)
    (content : FileContent Bytes) :
    OnDisk store ((FileCall.writeFile (joinPath store.directory name) content).apply disk)
      (files.insert name content) := by
  intro query queryPlain
  rw [FileCall.apply, fileLocation_joinPath _ plain, Function.update_apply,
    InsertionMap.get?_insert, onDisk query queryPlain]
  simp only [child_eq_iff]

theorem OnDisk.unlink (onDisk : OnDisk store disk files) (plain : IsPlain name.toList) :
    OnDisk store ((FileCall.unlink (joinPath store.directory name)).apply disk)
      (files.erase name) := by
  intro query queryPlain
  rw [FileCall.apply, fileLocation_joinPath _ plain, Function.update_apply,
    InsertionMap.get?_erase, onDisk query queryPlain]
  simp only [child_eq_iff]

theorem isPlain_latestName : IsPlain latestName.toList :=
  ⟨by decide, by decide, by decide, by decide⟩

theorem isPlain_dataName {snapshotId : String} (valid : isValidSnapshotId snapshotId = true) :
    IsPlain (dataName snapshotId).toList :=
  isPlain_append valid (by decide) (by decide)

theorem isPlain_metadataName {snapshotId : String}
    (valid : isValidSnapshotId snapshotId = true) :
    IsPlain (metadataName snapshotId).toList :=
  isPlain_append valid (by decide) (by decide)

theorem OnDisk.delete (onDisk : OnDisk store disk files) {snapshotId : String}
    (valid : isValidSnapshotId snapshotId = true) :
    OnDisk store ((store.deleteCalls snapshotId).foldl FileCall.apply disk)
      ((files.erase (dataName snapshotId)).erase (metadataName snapshotId)) := by
  rw [FileSnapshotStore.deleteCalls, List.foldl_cons, List.foldl_cons, List.foldl_nil]
  exact (onDisk.unlink (isPlain_dataName valid)).unlink (isPlain_metadataName valid)

end Disk

variable {codec config order}
variable {store : FileSnapshotStore} {disk : Disk Bytes} {process : SnapshotProcess Value Bytes}

/-- The calls of the store keep the disk and the files of the directory together. -/
theorem Sound.onDisk_advance (sound : process.Sound codec config)
    (onDisk : OnDisk store disk process.files) (snapshotId : String) :
    OnDisk store ((process.nextCalls codec config store).foldl FileCall.apply disk)
      (process.advance codec config order snapshotId).files := by
  unfold nextCalls SnapshotProcess.advance
  cases waiting : process.progress with
  | none => exact onDisk
  | some progress =>
      have before := sound.waiting progress waiting
      cases progress with
      | serializing startedAt entries => exact onDisk
      | writingData metadata entries =>
          obtain ⟨-, valid, -⟩ := before
          simp only [List.foldl_cons, List.foldl_nil, apply_mkdir]
          exact onDisk.writeFile (isPlain_dataName valid) _
      | writingMetadata metadata entries =>
          obtain ⟨-, valid, -⟩ := before
          simp only [List.foldl_cons, List.foldl_nil]
          exact onDisk.writeFile (isPlain_metadataName valid) _
      | pointing metadata entries =>
          simp only [List.foldl_cons, List.foldl_nil, apply_mkdir]
          exact onDisk.writeFile isPlain_latestName _
      | listing =>
          simp only
          split
          · exact onDisk
          · exact onDisk
      | deleting remaining =>
          cases remaining with
          | nil => exact onDisk
          | cons next rest =>
              by_cases valid : isValidSnapshotId next.snapshotId = true
              · simp only [FileSnapshotStore.delete, assertValidSnapshotId, if_pos valid]
                exact onDisk.delete valid
              · simp only [FileSnapshotStore.delete, assertValidSnapshotId, if_neg valid]
                exact onDisk

end Calls

/-! ## Recovery -/

theorem restoreLatest_of_pointed {files : SnapshotDirectory Bytes}
    {pointed : Recoverable Value Bytes} (isPointed : Pointed codec files pointed)
    (nodeId : String) : files.restoreLatest codec nodeId = pointed.result codec := by
  unfold SnapshotDirectory.restoreLatest SnapshotDirectory.readLatestPointer
  cases pointed with
  | nothing =>
      have missing : files.get? latestName = none := isPointed
      simp only [missing]
      rfl
  | cutOff text =>
      have torn : files.get? latestName = some (.buffer text) := isPointed
      simp only [torn]
      rfl
  | snapshot metadata entries =>
      obtain ⟨latest, stored⟩ := isPointed
      have found : files.read metadata.snapshotId =
          some ⟨metadata, codec.serialize entries metadata.compressed⟩ := by
        rw [SnapshotDirectory.read, if_pos stored.valid, stored.data, stored.described]
      have restored : SnapshotStore.restoreLatest ⟨InsertionMap.empty.insert metadata.snapshotId
          ⟨metadata, codec.serialize entries metadata.compressed⟩, some metadata⟩
            codec.toSnapshotCodec nodeId = .ok (some ⟨metadata, entries⟩) :=
        SnapshotStore.restoreLatest_of_serialized codec.toSnapshotCodec nodeId rfl
          (InsertionMap.get?_insert_self _ _ _) stored.checksum
      simp only [latest, SnapshotDirectory.parseMetadata, Except.map, found]
      exact restored

/-- Over every run with any number of crashes and rejections at any call, as long as the
clock moves between calls of `takeSnapshot()`, recovery restores exactly the entries of the
snapshot whose pointer was written last.  It fails only from the moment at which a pointer
is cut off until the next one is written. -/
theorem recovery_finds_last_pointed (nodeId : String) (positive : 0 < config.maxRetained)
    {clock : Millis} {actions : List (ProcessAction Value Bytes)}
    (moved : EveryStep (step codec config order) ClockMoved (start clock) actions)
    (fresh : EveryStep (step codec config order) FreshFiles (start clock) actions) :
    (run (step codec config order) (start clock) actions).files.restoreLatest codec nodeId =
      (run (step codec config order) (start clock) actions).pointed.result codec := by
  apply restoreLatest_of_pointed
  have sound : (run (step codec config order) (start clock) actions).Sound codec config :=
    EveryStep.invariant
      (fun _ _ sound conditions => sound.step positive conditions.1 conditions.2)
      (sound_start codec config clock) (moved.and fresh)
  exact sound.pointed

/-- Entries as their own bytes; a text that was cut off is named in the error. -/
def entryFiles : FileCodec Nat (List (CacheEntry Nat)) where
  toSnapshotCodec := entryCodec
  syntaxError := fun left => .otherError ("Unexpected end after " ++ toString left.length)

/-- A snapshot of `"k"` is pointed to.  Of the next one the metadata file is half written
when the process stops; a third one, of `"j"`, is pointed to, and cannot be listed because
of that file. -/
def tearsMetadata : List (ProcessAction Nat (List (CacheEntry Nat))) :=
  let k : CacheEntry Nat := ⟨"k", 1, ⟨1, 0, 0, 0, 0, none, 1⟩⟩
  let j : CacheEntry Nat := ⟨"j", 2, ⟨1, 0, 0, 0, 0, none, 1⟩⟩
  [.takeSnapshot [k], .advance "first", .advance "", .advance "", .advance "", .advance "",
    .tick 5, .takeSnapshot [k, j], .advance "second", .advance "", .crash (.torn []),
    .tick 5, .takeSnapshot [j], .advance "third", .advance "", .advance "", .advance "",
    .advance ""]

/-- Five snapshots are retained. -/
def keepFive : SnapshotConfig := ⟨"node-1", false, 5, .insertion⟩

/-- `readdir` lists the files in the order in which they were created. -/
def inOrder : DirectoryOrder (List (CacheEntry Nat)) := ⟨id, fun _ => .refl _⟩

theorem recovery_finds_last_pointed_tearsMetadata :
    ((run (step entryFiles keepFive inOrder) (start 7) tearsMetadata).files.restoreLatest
        entryFiles "node-1").map (Option.map fun payload =>
          payload.entries.map CacheEntry.key) = .ok (some ["j"]) ∧
    (run (step entryFiles keepFive inOrder) (start 7) tearsMetadata).files.restoreLatest
        entryFiles "node-1" =
      (run (step entryFiles keepFive inOrder) (start 7) tearsMetadata).pointed.result
        entryFiles := by
  refine ⟨by decide +kernel, ?_⟩
  apply recovery_finds_last_pointed
  · decide
  · decide +kernel
  · decide +kernel

end SnapshotProcess

end FlowCache
