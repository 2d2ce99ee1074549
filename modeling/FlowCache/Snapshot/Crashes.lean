import FlowCache.Snapshot.FileStore
import FlowCache.Snapshot.Manager

/-!
# Snapshots and crashes

`takeSnapshot()` over a `FileSnapshotStore`, one call of the file system at a time.  The
process can stop at every call, and every call can reject: before it has any effect, with
a file half written, with one of two deletions done, or when it has done everything.  What
is left of a file that is half written is any bytes, which as a metadata file or as the
pointer are no JSON.

The next process recovers from the files it finds.  What it should find is kept beside
them: nothing, the snapshot whose pointer was written last, or a pointer that was cut off.
-/

namespace FlowCache

open Transition

variable {Value Bytes : Type}

/-- A codec and the error of `JSON.parse` for a text that was cut off. -/
structure FileCodec (Value Bytes : Type) extends SnapshotCodec Value Bytes where
  syntaxError : Bytes → FlowCacheError

/-- The files in the store's directory, by name. -/
abbrev SnapshotDirectory (Bytes : Type) := InsertionMap String (FileContent Bytes)

/-- What `readdir` makes of the files. -/
structure DirectoryOrder (Bytes : Type) where
  arrange : List (String × FileContent Bytes) → List (String × FileContent Bytes)
  perm : ∀ files, (arrange files).Perm files

/-! ## File names -/

/-- The data file of a snapshot. -/
def dataName (snapshotId : String) : String := snapshotId ++ ".snap"

/-- The metadata file of a snapshot. -/
def metadataName (snapshotId : String) : String := snapshotId ++ ".meta.json"

/-- `LATEST_POINTER_FILE`. -/
def latestName : String := "latest.json"

/-- `file.endsWith(METADATA_SUFFIX)`. -/
def isMetadataName (name : String) : Bool :=
  ".meta.json".toList.isSuffixOf name.toList

theorem dataName_injective : Function.Injective dataName := by
  intro first second same
  have texts := congrArg String.toList same
  rw [dataName, dataName, String.toList_append, String.toList_append,
    List.append_left_inj] at texts
  exact String.toList_inj.mp texts

theorem metadataName_injective : Function.Injective metadataName := by
  intro first second same
  have texts := congrArg String.toList same
  rw [metadataName, metadataName, String.toList_append, String.toList_append,
    List.append_left_inj] at texts
  exact String.toList_inj.mp texts

theorem isMetadataName_metadataName (snapshotId : String) :
    isMetadataName (metadataName snapshotId) = true := by
  rw [isMetadataName, metadataName, String.toList_append, List.isSuffixOf_iff_suffix]
  exact List.suffix_append _ _

theorem isMetadataName_dataName (snapshotId : String) :
    isMetadataName (dataName snapshotId) = false := by
  rw [Bool.eq_false_iff, isMetadataName, dataName, ne_eq, List.isSuffixOf_iff_suffix,
    String.toList_append]
  rintro ⟨front, same⟩
  have last := congrArg List.getLast? same
  rw [List.getLast?_append, List.getLast?_append,
    (by decide : ".snap".toList.getLast? = some 'p'),
    (by decide : ".meta.json".toList.getLast? = some 'n'), Option.some_or,
    Option.some_or] at last
  exact absurd last (by decide)

theorem isMetadataName_latestName : isMetadataName latestName = false := by decide

theorem dataName_ne_metadataName (snapshotId other : String) :
    dataName snapshotId ≠ metadataName other := by
  intro same
  have found := isMetadataName_dataName snapshotId
  rw [same, isMetadataName_metadataName] at found
  cases found

theorem metadataName_ne_latestName (snapshotId : String) :
    metadataName snapshotId ≠ latestName := by
  intro same
  have found := isMetadataName_metadataName snapshotId
  rw [same, isMetadataName_latestName] at found
  cases found

theorem dataName_ne_latestName (snapshotId : String) : dataName snapshotId ≠ latestName := by
  intro same
  have last := congrArg (fun name => name.toList.getLast?) same
  simp only [dataName, String.toList_append] at last
  rw [List.getLast?_append, (by decide : ".snap".toList.getLast? = some 'p'),
    (by decide : latestName.toList.getLast? = some 'n'), Option.some_or] at last
  exact absurd last (by decide)

/-! ## Reading -/

namespace SnapshotDirectory

/-- `JSON.parse` of a metadata file or of the pointer. -/
def parseMetadata (codec : FileCodec Value Bytes) :
    FileContent Bytes → Except FlowCacheError SnapshotMetadata
  | .metadata metadata => .ok metadata
  | .buffer text => .error (codec.syntaxError text)

/-- `read(snapshotId)`, which rejects when the id is refused, a file is missing or the
metadata are cut off. -/
def read (files : SnapshotDirectory Bytes) (snapshotId : String) :
    Option (StoredSnapshot Bytes) :=
  if isValidSnapshotId snapshotId then
    match files.get? (dataName snapshotId), files.get? (metadataName snapshotId) with
    | some (.buffer buffer), some (.metadata metadata) => some ⟨metadata, buffer⟩
    | _, _ => none
  else
    none

/-- `readLatestPointer()`. -/
def readLatestPointer (codec : FileCodec Value Bytes) (files : SnapshotDirectory Bytes) :
    Except FlowCacheError (Option SnapshotMetadata) :=
  match files.get? latestName with
  | none => .ok none
  | some content => (parseMetadata codec content).map some

/-- `restoreLatest()`: what the pointer names is restored as from any store. -/
def restoreLatest (codec : FileCodec Value Bytes) (nodeId : String)
    (files : SnapshotDirectory Bytes) :
    Except FlowCacheError (Option (SnapshotPayload Value)) :=
  match files.readLatestPointer codec with
  | .error error => .error error
  | .ok none => .ok none
  | .ok (some pointer) =>
      match files.read pointer.snapshotId with
      | none => .ok none
      | some stored =>
          (SnapshotStore.empty.write pointer.snapshotId stored.buffer stored.metadata).restoreById
            codec.toSnapshotCodec nodeId pointer.snapshotId

/-- The loop of `list()` over the metadata files. -/
def readMetadata (codec : FileCodec Value Bytes) :
    List (String × FileContent Bytes) → Except FlowCacheError (List SnapshotMetadata)
  | [] => .ok []
  | (_, content) :: rest =>
      match parseMetadata codec content with
      | .error error => .error error
      | .ok metadata => (readMetadata codec rest).map (metadata :: ·)

/-- `list()`: one metadata file that is cut off makes it reject. -/
def list (codec : FileCodec Value Bytes) (order : DirectoryOrder Bytes)
    (files : SnapshotDirectory Bytes) : Except FlowCacheError (List SnapshotMetadata) :=
  (readMetadata codec
    ((order.arrange files.entries).filter fun file => isMetadataName file.1)).map
      (List.insertionSort fun newer older => older.createdAt ≤ newer.createdAt)

end SnapshotDirectory

/-- Which file `restoreLatest()` fails to read, if any. -/
inductive FailedRead where
  | none
  | pointer (error : FlowCacheError)
  | snapshot

/-- `restoreLatest()` with its reads: what cannot be read of a snapshot counts as none. -/
def SnapshotDirectory.restoreReading (codec : FileCodec Value Bytes) (nodeId : String)
    (failed : FailedRead) (files : SnapshotDirectory Bytes) :
    Except FlowCacheError (Option (SnapshotPayload Value)) :=
  match failed with
  | .none => files.restoreLatest codec nodeId
  | .pointer error => .error error
  | .snapshot => (files.readLatestPointer codec).map fun _ => none

/-! ## Running and crashing -/

/-- The call of the file system that a running `takeSnapshot()` makes next. -/
inductive FileProgress (Value : Type) where
  | serializing (startedAt : Millis) (entries : List (CacheEntry Value))
  | writingData (metadata : SnapshotMetadata) (entries : List (CacheEntry Value))
  | writingMetadata (metadata : SnapshotMetadata) (entries : List (CacheEntry Value))
  | pointing (metadata : SnapshotMetadata) (entries : List (CacheEntry Value))
  | listing
  | deleting (remaining : List SnapshotMetadata)

/-- What the next recovery should find. -/
inductive Recoverable (Value Bytes : Type) where
  | nothing
  | snapshot (metadata : SnapshotMetadata) (entries : List (CacheEntry Value))
  | cutOff (text : Bytes)

/-- What `restoreLatest()` settles with then. -/
def Recoverable.result (codec : FileCodec Value Bytes) :
    Recoverable Value Bytes → Except FlowCacheError (Option (SnapshotPayload Value))
  | .nothing => .ok none
  | .snapshot metadata entries => .ok (some ⟨metadata, entries⟩)
  | .cutOff text => .error (codec.syntaxError text)

/-- A node's snapshot files, the running call and the clock. -/
structure SnapshotProcess (Value Bytes : Type) where
  files : SnapshotDirectory Bytes
  progress : Option (FileProgress Value)
  clock : Millis
  pointed : Recoverable Value Bytes

/-- What has been done of the call under way when it is cut short. -/
inductive Cut (Bytes : Type) where
  | undone
  | torn (left : Bytes)
  | unlinked (data metadata : Bool)
  | whole

/-- What can happen.  A call is cut short by a crash, or it rejects and the process goes
on. -/
inductive ProcessAction (Value Bytes : Type) where
  | tick (elapsed : Nat)
  | takeSnapshot (entries : List (CacheEntry Value))
  | advance (snapshotId : String)
  | crash (cut : Cut Bytes)
  | reject (cut : Cut Bytes)

namespace SnapshotProcess

/-- A node that has never taken a snapshot. -/
def start (clock : Millis) : SnapshotProcess Value Bytes :=
  ⟨.empty, none, clock, .nothing⟩

variable (codec : FileCodec Value Bytes) (config : SnapshotConfig)
variable (order : DirectoryOrder Bytes)

/-- The start of `takeSnapshot()`: only one runs at a time. -/
def beginSnapshot (process : SnapshotProcess Value Bytes)
    (entries : List (CacheEntry Value)) : SnapshotProcess Value Bytes :=
  match process.progress with
  | some _ => process
  | none => { process with progress := some (.serializing process.clock entries) }

/-- The next call of the running `takeSnapshot()`.  A rejection ends it. -/
def advance (process : SnapshotProcess Value Bytes) (snapshotId : String) :
    SnapshotProcess Value Bytes :=
  match process.progress with
  | none => process
  | some (.serializing startedAt entries) =>
      let metadata := snapshotMetadata codec.toSnapshotCodec config snapshotId startedAt
        process.clock entries
      { process with
        progress :=
          if isValidSnapshotId snapshotId then some (.writingData metadata entries) else none }
  | some (.writingData metadata entries) =>
      { process with
        files := process.files.insert (dataName metadata.snapshotId)
          (.buffer (codec.serialize entries config.compress))
        progress := some (.writingMetadata metadata entries) }
  | some (.writingMetadata metadata entries) =>
      { process with
        files := process.files.insert (metadataName metadata.snapshotId) (.metadata metadata)
        progress := some (.pointing metadata entries) }
  | some (.pointing metadata entries) =>
      { process with
        files := process.files.insert latestName (.metadata metadata)
        progress := some .listing
        pointed := .snapshot metadata entries }
  | some .listing =>
      match process.files.list codec order with
      | .error _ => { process with progress := none }
      | .ok all =>
          { process with
            progress := if all.length ≤ config.maxRetained then none
              else some (.deleting (all.drop config.maxRetained)) }
  | some (.deleting []) => { process with progress := none }
  | some (.deleting (next :: rest)) =>
      if isValidSnapshotId next.snapshotId then
        { process with
          files := (process.files.erase (dataName next.snapshotId)).erase
            (metadataName next.snapshotId)
          progress := some (.deleting rest) }
      else
        { process with progress := none }

/-- The process stops and is started again. -/
def crash (process : SnapshotProcess Value Bytes) :
    Cut Bytes → SnapshotProcess Value Bytes
  | .undone => { process with progress := none }
  | .whole => { process.advance codec config order "" with progress := none }
  | .torn left =>
      match process.progress with
      | some (.writingData metadata _) =>
          { process with
            files := process.files.insert (dataName metadata.snapshotId) (.buffer left)
            progress := none }
      | some (.writingMetadata metadata _) =>
          { process with
            files := process.files.insert (metadataName metadata.snapshotId) (.buffer left)
            progress := none }
      | some (.pointing _ _) =>
          { process with
            files := process.files.insert latestName (.buffer left)
            progress := none
            pointed := .cutOff left }
      | some (.serializing _ _) | some .listing | some (.deleting _) | none =>
          { process with progress := none }
  | .unlinked data metadata =>
      match process.progress with
      | some (.deleting (next :: _)) =>
          let dataLeft := if data && isValidSnapshotId next.snapshotId then
            process.files.erase (dataName next.snapshotId) else process.files
          { process with
            files := if metadata && isValidSnapshotId next.snapshotId then
              dataLeft.erase (metadataName next.snapshotId) else dataLeft
            progress := none }
      | some (.deleting []) | some (.serializing _ _) | some (.writingData _ _)
      | some (.writingMetadata _ _) | some (.pointing _ _) | some .listing | none =>
          { process with progress := none }

/-- What a `takeSnapshot()` does after a call has rejected: only the deletion of a
snapshot waits for both files with `Promise.allSettled`, so the next one follows. -/
def afterRejection : FileProgress Value → Option (FileProgress Value)
  | .deleting (next :: rest) =>
      if isValidSnapshotId next.snapshotId then some (.deleting rest) else none
  | .deleting [] | .serializing _ _ | .writingData _ _ | .writingMetadata _ _ | .pointing _ _
  | .listing => none

/-- The call under way rejects. -/
def reject (process : SnapshotProcess Value Bytes) (cut : Cut Bytes) :
    SnapshotProcess Value Bytes :=
  { process.crash codec config order cut with
    progress := process.progress.bind afterRejection }

/-- One action. -/
def step (process : SnapshotProcess Value Bytes) :
    ProcessAction Value Bytes → SnapshotProcess Value Bytes
  | .tick elapsed => { process with clock := process.clock + elapsed }
  | .takeSnapshot entries => process.beginSnapshot entries
  | .advance snapshotId => process.advance codec config order snapshotId
  | .crash cut => process.crash codec config order cut
  | .reject cut => process.reject codec config order cut

end SnapshotProcess

end FlowCache
