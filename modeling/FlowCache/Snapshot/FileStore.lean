import FlowCache.Library.PosixPath
import FlowCache.Library.Transition
import FlowCache.Shared.Utils
import FlowCache.Snapshot.Store

/-!
# Snapshot files

`FileSnapshotStore`: a snapshot is two files in the store's directory, which are named
after its id.  An id has letters, digits, `_` and `-` only, so that these files are
direct children of the directory; the suffixes keep the files of different snapshots and
the pointer apart.

A file is addressed by the location that its path leads to.  What the store does on disk
is what `SnapshotStore` says.
-/

namespace FlowCache

open PosixPath

variable {Bytes : Type}

/-! ## Snapshot ids -/

/-- A character of `VALID_SNAPSHOT_ID`. -/
def isSnapshotIdCharacter (character : Char) : Bool :=
  character.isAlphanum || character = '_' || character = '-'

/-- `VALID_SNAPSHOT_ID.test(snapshotId)`. -/
def isValidSnapshotId (snapshotId : String) : Bool :=
  snapshotId ≠ "" && snapshotId.toList.all isSnapshotIdCharacter

/-- `assertValidSnapshotId(snapshotId)`. -/
def assertValidSnapshotId (snapshotId : String) : Except FlowCacheError Unit :=
  if isValidSnapshotId snapshotId then .ok ()
  else .error (.otherError ("Invalid snapshot id: \"" ++ snapshotId ++ "\""))

theorem isSnapshotIdCharacter_radix36Digit {digit : Nat} (small : digit < 36) :
    isSnapshotIdCharacter (radix36Digit digit) = true := by
  have each : ∀ digit < 36, isSnapshotIdCharacter (radix36Digit digit) = true := by decide
  exact each digit small

theorem all_toRadix36 (value : Int) :
    ∀ character ∈ toRadix36 value, isSnapshotIdCharacter character = true := by
  have digits : ∀ character ∈ (if value = 0 then ['0']
      else ((Nat.digits 36 value.natAbs).map radix36Digit).reverse),
      isSnapshotIdCharacter character = true := by
    intro character member
    split at member
    · rw [List.mem_singleton.mp member]
      decide
    · rw [List.mem_reverse] at member
      obtain ⟨digit, isDigit, rfl⟩ := List.mem_map.mp member
      exact isSnapshotIdCharacter_radix36Digit (Nat.digits_lt_base (by decide) isDigit)
  intro character member
  simp only [toRadix36] at member
  split at member
  · rcases List.mem_cons.mp member with rfl | later
    · decide
    · exact digits character later
  · exact digits character member

/-- What is left of the random number has no point. -/
theorem all_random (fraction : List (Fin 36)) :
    ∀ character ∈ ((randomText fraction).take 8).drop 2,
      isSnapshotIdCharacter character = true := by
  intro character member
  rw [randomText] at member
  split at member
  · cases member
  · rw [List.take_succ_cons, List.take_succ_cons, List.drop_succ_cons, List.drop_succ_cons,
      List.drop_zero] at member
    obtain ⟨digit, -, rfl⟩ := List.mem_map.mp (List.mem_of_mem_take member)
    exact isSnapshotIdCharacter_radix36Digit digit.isLt

/-- Every id that `generateId('snap')` makes is accepted. -/
theorem isValidSnapshotId_generateId (now : Int) (counter : Nat) (fraction : List (Fin 36)) :
    isValidSnapshotId (generateId "snap" now counter fraction).1 = true := by
  have label : ∀ character ∈ "snap".toList, isSnapshotIdCharacter character = true :=
    List.all_eq_true.mp (by decide)
  have underscore : isSnapshotIdCharacter '_' = true := by decide
  rw [isValidSnapshotId, Bool.and_eq_true, List.all_eq_true]
  constructor
  · apply decide_eq_true
    intro empty
    have length := congrArg (fun text => text.toList.length) empty
    simp [generateId] at length
  · intro character member
    simp only [generateId, String.toList_ofList, List.mem_append, List.mem_cons] at member
    rcases member with ((first | rfl | second) | rfl | third) | rfl | fourth
    · exact label character first
    · exact underscore
    · exact all_toRadix36 _ character second
    · exact underscore
    · exact all_toRadix36 _ character third
    · exact underscore
    · exact all_random fraction character fourth

/-! ## Calls of the file system -/

/-- The content of a file: the bytes of a snapshot or the text of its metadata. -/
inductive FileContent (Bytes : Type) where
  | buffer (bytes : Bytes)
  | metadata (metadata : SnapshotMetadata)

/-- A call of `node:fs/promises`. -/
inductive FileCall (Bytes : Type) where
  | mkdir (directory : String)
  | writeFile (path : String) (content : FileContent Bytes)
  | readFile (path : String)
  | unlink (path : String)

/-- The file that a call touches. -/
def FileCall.file? : FileCall Bytes → Option String
  | .mkdir _ => none
  | .writeFile path _ => some path
  | .readFile path => some path
  | .unlink path => some path

/-- The calls that were made, and whether the operation rejected. -/
structure FileRun (Bytes : Type) where
  calls : List (FileCall Bytes)
  rejects : Option FlowCacheError

/-- Awaits calls one after the other; the first that fails is the last. -/
def inOrder (fails : FileCall Bytes → Option FlowCacheError) :
    List (FileCall Bytes) → FileRun Bytes
  | [] => ⟨[], none⟩
  | call :: rest =>
      match fails call with
      | some error => ⟨[call], some error⟩
      | none =>
          let later := inOrder fails rest
          ⟨call :: later.calls, later.rejects⟩

theorem mem_of_mem_inOrder {fails : FileCall Bytes → Option FlowCacheError}
    {calls : List (FileCall Bytes)} {call : FileCall Bytes}
    (made : call ∈ (inOrder fails calls).calls) : call ∈ calls := by
  induction calls with
  | nil => exact made
  | cons first rest ih =>
      rw [inOrder] at made
      split at made
      · exact List.mem_cons.mpr (.inl (List.mem_singleton.mp made))
      · rcases List.mem_cons.mp made with rfl | later
        · exact List.mem_cons_self
        · exact List.mem_cons_of_mem _ (ih later)

/-! ## The store -/

/-- `path.join(directory, name)`. -/
def joinPath (directory name : String) : String :=
  String.ofList (join directory.toList name.toList)

/-- `FileSnapshotStore`. -/
structure FileSnapshotStore where
  directory : String

namespace FileSnapshotStore

/-- `dataPath(snapshotId)`. -/
def dataPath (store : FileSnapshotStore) (snapshotId : String) : String :=
  joinPath store.directory (snapshotId ++ ".snap")

/-- `metaPath(snapshotId)`. -/
def metaPath (store : FileSnapshotStore) (snapshotId : String) : String :=
  joinPath store.directory (snapshotId ++ ".meta.json")

/-- `latestPath()`. -/
def latestPath (store : FileSnapshotStore) : String :=
  joinPath store.directory "latest.json"

variable (store : FileSnapshotStore) (fails : FileCall Bytes → Option FlowCacheError)
variable (snapshotId : String)

/-- The calls of `write` when none fails. -/
def writeCalls (buffer : Bytes) (metadata : SnapshotMetadata) : List (FileCall Bytes) :=
  [.mkdir store.directory, .writeFile (store.dataPath snapshotId) (.buffer buffer),
    .writeFile (store.metaPath snapshotId) (.metadata metadata)]

/-- `write(snapshotId, buffer, metadata)`. -/
def write (buffer : Bytes) (metadata : SnapshotMetadata) : FileRun Bytes :=
  match assertValidSnapshotId snapshotId with
  | .error error => ⟨[], some error⟩
  | .ok () => inOrder fails (store.writeCalls snapshotId buffer metadata)

/-- The calls of `read`, which start together. -/
def readCalls : List (FileCall Bytes) :=
  [.readFile (store.dataPath snapshotId), .readFile (store.metaPath snapshotId)]

/-- `read(snapshotId)` up to what it returns. -/
def read : FileRun Bytes :=
  match assertValidSnapshotId snapshotId with
  | .error error => ⟨[], some error⟩
  | .ok () => ⟨store.readCalls snapshotId, (store.readCalls snapshotId).findSome? fails⟩

/-- The calls of `delete`, which start together. -/
def deleteCalls : List (FileCall Bytes) :=
  [.unlink (store.dataPath snapshotId), .unlink (store.metaPath snapshotId)]

/-- `delete(snapshotId)`; that a file cannot be removed is ignored. -/
def delete : FileRun Bytes :=
  match assertValidSnapshotId snapshotId with
  | .error error => ⟨[], some error⟩
  | .ok () => ⟨store.deleteCalls snapshotId, none⟩

/-- An operation on one snapshot. -/
inductive Operation (Bytes : Type) where
  | write (buffer : Bytes) (metadata : SnapshotMetadata)
  | read
  | delete

/-- One operation. -/
def perform : Operation Bytes → FileRun Bytes
  | .write buffer metadata => store.write fails snapshotId buffer metadata
  | .read => store.read fails snapshotId
  | .delete => store.delete snapshotId

/-- An id that is not accepted is refused before any call. -/
theorem perform_of_invalid (invalid : ¬isValidSnapshotId snapshotId = true)
    (operation : Operation Bytes) :
    store.perform fails snapshotId operation =
      ⟨[], some (.otherError ("Invalid snapshot id: \"" ++ snapshotId ++ "\""))⟩ := by
  cases operation with
  | write buffer metadata => simp [perform, write, assertValidSnapshotId, invalid]
  | read => simp [perform, read, assertValidSnapshotId, invalid]
  | delete => simp [perform, delete, assertValidSnapshotId, invalid]

/-- The calls for an accepted id. -/
theorem mem_calls_of_valid (valid : isValidSnapshotId snapshotId = true)
    {operation : Operation Bytes} {call : FileCall Bytes}
    (made : call ∈ (store.perform fails snapshotId operation).calls) :
    call = .mkdir store.directory ∨ call.file? = some (store.dataPath snapshotId) ∨
      call.file? = some (store.metaPath snapshotId) := by
  cases operation with
  | write buffer metadata =>
      simp only [perform, write, assertValidSnapshotId, valid, if_true] at made
      have listed := mem_of_mem_inOrder made
      simp only [writeCalls, List.mem_cons, List.not_mem_nil, or_false] at listed
      rcases listed with rfl | rfl | rfl
      · exact .inl rfl
      · exact .inr (.inl rfl)
      · exact .inr (.inr rfl)
  | read =>
      simp only [perform, read, assertValidSnapshotId, valid, if_true, readCalls,
        List.mem_cons, List.not_mem_nil, or_false] at made
      rcases made with rfl | rfl
      · exact .inr (.inl rfl)
      · exact .inr (.inr rfl)
  | delete =>
      simp only [perform, delete, assertValidSnapshotId, valid, if_true, deleteCalls,
        List.mem_cons, List.not_mem_nil, or_false] at made
      rcases made with rfl | rfl
      · exact .inr (.inl rfl)
      · exact .inr (.inr rfl)

end FileSnapshotStore

/-! ## Where the files are -/

/-- Where a path leads. -/
def fileLocation (path : String) : Location := locate path.toList

/-- The path leads to a direct child of the directory. -/
def IsDirectChild (directory path : String) : Prop :=
  ∃ name, IsPlain name ∧ fileLocation path = (fileLocation directory).child name

theorem fileLocation_joinPath (directory : String) {name : String}
    (plain : IsPlain name.toList) :
    fileLocation (joinPath directory name) = (fileLocation directory).child name.toList := by
  rw [fileLocation, joinPath, String.toList_ofList, locate_join _ plain]
  rfl

theorem character_ne_slash {character : Char}
    (accepted : isSnapshotIdCharacter character = true) : character ≠ '/' := by
  rintro rfl
  exact absurd accepted (by decide)

/-- A file name that starts with an accepted id. -/
theorem isPlain_append {snapshotId suffix : String}
    (valid : isValidSnapshotId snapshotId = true) (noSlash : '/' ∉ suffix.toList)
    (long : 2 < suffix.toList.length) : IsPlain (snapshotId ++ suffix).toList := by
  rw [isValidSnapshotId, Bool.and_eq_true, List.all_eq_true] at valid
  have longer : 2 < (snapshotId ++ suffix).toList.length := by
    rw [String.toList_append, List.length_append]
    omega
  constructor
  case noSlash =>
    rw [String.toList_append, List.mem_append, not_or]
    refine ⟨?_, noSlash⟩
    intro member
    exact character_ne_slash (valid.2 _ member) rfl
  case nonempty =>
    intro same
    rw [same] at longer
    exact absurd longer (by decide)
  case notDot =>
    intro same
    rw [same] at longer
    exact absurd longer (by decide)
  case notDots =>
    intro same
    rw [same] at longer
    exact absurd longer (by decide)

namespace FileSnapshotStore

variable {store : FileSnapshotStore} {snapshotId other : String}

theorem location_dataPath (valid : isValidSnapshotId snapshotId = true) :
    fileLocation (store.dataPath snapshotId) =
      (fileLocation store.directory).child (snapshotId.toList ++ ".snap".toList) := by
  rw [dataPath, fileLocation_joinPath _ (isPlain_append valid (by decide) (by decide)),
    String.toList_append]

theorem location_metaPath (valid : isValidSnapshotId snapshotId = true) :
    fileLocation (store.metaPath snapshotId) =
      (fileLocation store.directory).child (snapshotId.toList ++ ".meta.json".toList) := by
  rw [metaPath, fileLocation_joinPath _ (isPlain_append valid (by decide) (by decide)),
    String.toList_append]

theorem location_latestPath :
    fileLocation store.latestPath =
      (fileLocation store.directory).child "latest.json".toList :=
  fileLocation_joinPath _ ⟨by decide, by decide, by decide, by decide⟩

theorem isDirectChild_dataPath (valid : isValidSnapshotId snapshotId = true) :
    IsDirectChild store.directory (store.dataPath snapshotId) := by
  refine ⟨_, ?_, location_dataPath valid⟩
  rw [← String.toList_append]
  exact isPlain_append valid (by decide) (by decide)

theorem isDirectChild_metaPath (valid : isValidSnapshotId snapshotId = true) :
    IsDirectChild store.directory (store.metaPath snapshotId) := by
  refine ⟨_, ?_, location_metaPath valid⟩
  rw [← String.toList_append]
  exact isPlain_append valid (by decide) (by decide)

theorem location_dataPath_inj (valid : isValidSnapshotId snapshotId = true)
    (otherValid : isValidSnapshotId other = true) :
    fileLocation (store.dataPath snapshotId) = fileLocation (store.dataPath other) ↔
      snapshotId = other := by
  rw [location_dataPath valid, location_dataPath otherValid,
    (Location.child_injective _).eq_iff, List.append_left_inj, String.toList_inj]

theorem location_metaPath_inj (valid : isValidSnapshotId snapshotId = true)
    (otherValid : isValidSnapshotId other = true) :
    fileLocation (store.metaPath snapshotId) = fileLocation (store.metaPath other) ↔
      snapshotId = other := by
  rw [location_metaPath valid, location_metaPath otherValid,
    (Location.child_injective _).eq_iff, List.append_left_inj, String.toList_inj]

/-- The two suffixes end differently. -/
theorem dataPath_apart_metaPath (valid : isValidSnapshotId snapshotId = true)
    (otherValid : isValidSnapshotId other = true) :
    fileLocation (store.dataPath snapshotId) ≠ fileLocation (store.metaPath other) := by
  rw [location_dataPath valid, location_metaPath otherValid]
  intro same
  have last := congrArg List.getLast? (Location.child_injective _ same)
  rw [List.getLast?_append, List.getLast?_append,
    (by decide : ".snap".toList.getLast? = some 'p'),
    (by decide : ".meta.json".toList.getLast? = some 'n'), Option.some_or,
    Option.some_or] at last
  exact absurd last (by decide)

theorem dataPath_apart_latestPath (valid : isValidSnapshotId snapshotId = true) :
    fileLocation (store.dataPath snapshotId) ≠ fileLocation store.latestPath := by
  rw [location_dataPath valid, location_latestPath]
  intro same
  have last := congrArg List.getLast? (Location.child_injective _ same)
  rw [List.getLast?_append, (by decide : ".snap".toList.getLast? = some 'p'),
    (by decide : "latest.json".toList.getLast? = some 'n'), Option.some_or] at last
  exact absurd last (by decide)

/-- The pointer has no point where the name of a metadata file has its first one. -/
theorem metaPath_apart_latestPath (valid : isValidSnapshotId snapshotId = true) :
    fileLocation (store.metaPath snapshotId) ≠ fileLocation store.latestPath := by
  rw [location_metaPath valid, location_latestPath]
  intro same
  have tenth := congrArg (fun name => name.reverse[9]?) (Location.child_injective _ same)
  simp only [List.reverse_append] at tenth
  rw [List.getElem?_append_left (by decide)] at tenth
  exact absurd tenth (by decide)

/-- An operation refuses an id before it touches anything, or it touches the two files of
the snapshot, which are direct children of the directory.  The files of different
snapshots, the two files of one and the pointer are all different, and the ids that are
generated are accepted. -/
theorem snapshot_files_contained (store : FileSnapshotStore) :
    (∀ (fails : FileCall Bytes → Option FlowCacheError) (snapshotId : String)
        (operation : Operation Bytes),
      if isValidSnapshotId snapshotId then
        (∀ call ∈ (store.perform fails snapshotId operation).calls,
          call = .mkdir store.directory ∨
            call.file? = some (store.dataPath snapshotId) ∨
            call.file? = some (store.metaPath snapshotId)) ∧
        IsDirectChild store.directory (store.dataPath snapshotId) ∧
        IsDirectChild store.directory (store.metaPath snapshotId)
      else
        (store.perform fails snapshotId operation).calls = [] ∧
        (store.perform fails snapshotId operation).rejects =
          some (.otherError ("Invalid snapshot id: \"" ++ snapshotId ++ "\""))) ∧
      (∀ first second, isValidSnapshotId first = true → isValidSnapshotId second = true →
        first ≠ second →
          fileLocation (store.dataPath first) ≠ fileLocation (store.dataPath second) ∧
          fileLocation (store.dataPath first) ≠ fileLocation (store.metaPath second) ∧
          fileLocation (store.metaPath first) ≠ fileLocation (store.dataPath second) ∧
          fileLocation (store.metaPath first) ≠ fileLocation (store.metaPath second)) ∧
      (∀ snapshotId, isValidSnapshotId snapshotId = true →
        fileLocation (store.dataPath snapshotId) ≠
            fileLocation (store.metaPath snapshotId) ∧
          fileLocation (store.dataPath snapshotId) ≠ fileLocation store.latestPath ∧
          fileLocation (store.metaPath snapshotId) ≠ fileLocation store.latestPath) ∧
      ∀ (now : Int) (counter : Nat) (fraction : List (Fin 36)),
        isValidSnapshotId (generateId "snap" now counter fraction).1 = true := by
  refine ⟨?_, ?_, ?_, isValidSnapshotId_generateId⟩
  · intro fails snapshotId operation
    split
    · next valid =>
        refine ⟨?_, isDirectChild_dataPath valid, isDirectChild_metaPath valid⟩
        intro call made
        exact store.mem_calls_of_valid fails snapshotId valid made
    · next invalid =>
        rw [store.perform_of_invalid fails snapshotId invalid]
        exact ⟨rfl, rfl⟩
  · intro first second firstValid secondValid different
    refine ⟨?_, dataPath_apart_metaPath firstValid secondValid,
      (dataPath_apart_metaPath secondValid firstValid).symm, ?_⟩
    · rwa [Ne, location_dataPath_inj firstValid secondValid]
    · rwa [Ne, location_metaPath_inj firstValid secondValid]
  · intro snapshotId valid
    exact ⟨dataPath_apart_metaPath valid valid, dataPath_apart_latestPath valid,
      metaPath_apart_latestPath valid⟩

/-! ## On disk -/

end FileSnapshotStore

/-- The files of a disk, by where they are. -/
abbrev Disk (Bytes : Type) := Location → Option (FileContent Bytes)

/-- What a call that succeeds does to the disk. -/
def FileCall.apply (disk : Disk Bytes) : FileCall Bytes → Disk Bytes
  | .mkdir _ => disk
  | .writeFile path content => Function.update disk (fileLocation path) (some content)
  | .readFile _ => disk
  | .unlink path => Function.update disk (fileLocation path) none

/-- A change of a store. -/
inductive StoreChange (Bytes : Type) where
  | write (snapshotId : String) (buffer : Bytes) (metadata : SnapshotMetadata)
  | delete (snapshotId : String)
  | writeLatestPointer (metadata : SnapshotMetadata)

/-- A change of a store that takes accepted ids only. -/
def SnapshotStore.change (store : SnapshotStore Bytes) :
    StoreChange Bytes → SnapshotStore Bytes
  | .write snapshotId buffer metadata =>
      if isValidSnapshotId snapshotId then store.write snapshotId buffer metadata else store
  | .delete snapshotId =>
      if isValidSnapshotId snapshotId then store.delete snapshotId else store
  | .writeLatestPointer metadata => store.writeLatestPointer metadata

namespace FileSnapshotStore

/-- The calls of a change when none fails. -/
def changeCalls (files : FileSnapshotStore) : StoreChange Bytes → List (FileCall Bytes)
  | .write snapshotId buffer metadata =>
      (files.write (fun _ => none) snapshotId buffer metadata).calls
  | .delete snapshotId => (files.delete snapshotId).calls
  | .writeLatestPointer metadata =>
      [.mkdir files.directory, .writeFile files.latestPath (.metadata metadata)]

/-- A change of the disk. -/
def change (files : FileSnapshotStore) (disk : Disk Bytes) (change : StoreChange Bytes) :
    Disk Bytes :=
  (files.changeCalls change).foldl FileCall.apply disk

theorem change_writeLatestPointer (files : FileSnapshotStore) (disk : Disk Bytes)
    (metadata : SnapshotMetadata) :
    files.change disk (.writeLatestPointer metadata) =
      Function.update disk (fileLocation files.latestPath) (some (.metadata metadata)) := by
  simp only [change, changeCalls, List.foldl_cons, List.foldl_nil, FileCall.apply]

/-- What `read` returns: a file that is missing makes it reject. -/
def readStored (files : FileSnapshotStore) (disk : Disk Bytes) (snapshotId : String) :
    Option (StoredSnapshot Bytes) :=
  match disk (fileLocation (files.dataPath snapshotId)),
      disk (fileLocation (files.metaPath snapshotId)) with
  | some (.buffer buffer), some (.metadata metadata) => some ⟨metadata, buffer⟩
  | _, _ => none

/-- The files in the directory are those of a store. -/
structure Represents (files : FileSnapshotStore) (disk : Disk Bytes)
    (store : SnapshotStore Bytes) : Prop where
  data : ∀ snapshotId, isValidSnapshotId snapshotId = true →
    disk (fileLocation (files.dataPath snapshotId)) =
      (store.data.get? snapshotId).map fun stored => .buffer stored.buffer
  metadata : ∀ snapshotId, isValidSnapshotId snapshotId = true →
    disk (fileLocation (files.metaPath snapshotId)) =
      (store.data.get? snapshotId).map fun stored => .metadata stored.metadata
  latest : disk (fileLocation files.latestPath) = store.latest.map .metadata

namespace Represents

variable {files : FileSnapshotStore} {disk : Disk Bytes} {stored : SnapshotStore Bytes}

/-- Two files of one snapshot change together. -/
theorem update (represents : files.Represents disk stored)
    (valid : isValidSnapshotId snapshotId = true) (found : Option (StoredSnapshot Bytes))
    {next : SnapshotStore Bytes}
    (data : ∀ query, next.data.get? query =
      if query = snapshotId then found else stored.data.get? query)
    (latest : next.latest = stored.latest) :
    files.Represents
      (Function.update
        (Function.update disk (fileLocation (files.dataPath snapshotId))
          (found.map fun stored => .buffer stored.buffer))
        (fileLocation (files.metaPath snapshotId))
        (found.map fun stored => .metadata stored.metadata)) next := by
  constructor
  case data =>
    intro query queryValid
    rw [Function.update_of_ne (dataPath_apart_metaPath queryValid valid), data]
    split
    · next same => rw [same, Function.update_self]
    · next different =>
        have apart : fileLocation (files.dataPath query) ≠
            fileLocation (files.dataPath snapshotId) :=
          mt (location_dataPath_inj queryValid valid).mp different
        rw [Function.update_of_ne apart, represents.data query queryValid]
  case metadata =>
    intro query queryValid
    rw [data]
    split
    · next same => rw [same, Function.update_self]
    · next different =>
        have apart : fileLocation (files.metaPath query) ≠
            fileLocation (files.metaPath snapshotId) :=
          mt (location_metaPath_inj queryValid valid).mp different
        rw [Function.update_of_ne apart,
          Function.update_of_ne (dataPath_apart_metaPath valid queryValid).symm,
          represents.metadata query queryValid]
  case latest =>
    rw [Function.update_of_ne (metaPath_apart_latestPath valid).symm,
      Function.update_of_ne (dataPath_apart_latestPath valid).symm, represents.latest, latest]

/-- One change. -/
theorem change (represents : files.Represents disk stored) (change : StoreChange Bytes) :
    files.Represents (files.change disk change) (stored.change change) := by
  cases change with
  | write snapshotId buffer metadata =>
      by_cases valid : isValidSnapshotId snapshotId = true
      · have next := represents.update valid (some ⟨metadata, buffer⟩)
          (stored.write_get? snapshotId · buffer metadata) rfl
        simpa [FileSnapshotStore.change, changeCalls, FileSnapshotStore.write,
          assertValidSnapshotId, valid, inOrder, writeCalls, FileCall.apply,
          SnapshotStore.change] using next
      · simpa [FileSnapshotStore.change, changeCalls, FileSnapshotStore.write,
          assertValidSnapshotId, valid, SnapshotStore.change] using represents
  | delete snapshotId =>
      by_cases valid : isValidSnapshotId snapshotId = true
      · have next := represents.update valid none (stored.delete_get? snapshotId ·) rfl
        simpa [FileSnapshotStore.change, changeCalls, FileSnapshotStore.delete,
          assertValidSnapshotId, valid, deleteCalls, FileCall.apply,
          SnapshotStore.change] using next
      · simpa [FileSnapshotStore.change, changeCalls, FileSnapshotStore.delete,
          assertValidSnapshotId, valid, SnapshotStore.change] using represents
  | writeLatestPointer metadata =>
      rw [change_writeLatestPointer]
      constructor
      case data =>
        intro query queryValid
        rw [Function.update_of_ne (dataPath_apart_latestPath queryValid)]
        exact represents.data query queryValid
      case metadata =>
        intro query queryValid
        rw [Function.update_of_ne (metaPath_apart_latestPath queryValid)]
        exact represents.metadata query queryValid
      case latest =>
        rw [Function.update_self]
        rfl

/-- In every run of writes, deletions and pointer updates the disk has the files of the
store. -/
theorem run (represents : files.Represents disk stored) (changes : List (StoreChange Bytes)) :
    files.Represents (Transition.run files.change disk changes)
      (Transition.run SnapshotStore.change stored changes) := by
  induction changes generalizing disk stored with
  | nil => exact represents
  | cons change rest ih => exact ih (represents.change change)

/-- Reading a snapshot returns what the store holds. -/
theorem readStored_eq (represents : files.Represents disk stored)
    (valid : isValidSnapshotId snapshotId = true) :
    files.readStored disk snapshotId = stored.data.get? snapshotId := by
  rw [readStored, represents.data snapshotId valid, represents.metadata snapshotId valid]
  cases stored.data.get? snapshotId with
  | none => rfl
  | some found => rfl

end Represents

end FileSnapshotStore

end FlowCache
