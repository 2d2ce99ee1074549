import FlowCache.CacheNode.Recovery
import FlowCache.Snapshot.CrashSafety

/-!
# Starting with retries

`startWithRetry` constructs a fresh server for each attempt.  An attempt recovers
from the latest snapshot; if the recovery is not healthy, or anything after it
fails, the server is stopped, and stopping takes a snapshot of whatever is in
storage.
-/

namespace FlowCache

open Transition

variable {Value Bytes Hook : Type}

/-- `MAX_START_ATTEMPTS`. -/
def maxStartAttempts : Nat := 5

/-- What an attempt meets: the time it runs at, a read of the recovery that fails, whether
everything after the recovery succeeds, the id its shutdown snapshot would get, and what
becomes of the calls of that snapshot, in order: `none` if a call succeeds, else how far it
got before it rejected. -/
structure AttemptEnvironment (Bytes : Type) where
  now : Millis
  failedRead : FailedRead
  reachable : Bool
  snapshotId : String
  calls : List (Option (Cut Bytes))

/-- How an attempt ended, and the files it left. -/
structure AttemptResult (Bytes : Type) where
  started : Bool
  files : SnapshotDirectory Bytes

/-- One call of the shutdown snapshot. -/
def callAction (snapshotId : String) : Option (Cut Bytes) → ProcessAction Value Bytes
  | none => .advance snapshotId
  | some cut => .reject cut

/-- The snapshot that `stop()` takes of the given entries. -/
def shutdownSnapshot (codec : FileCodec Value Bytes) (config : SnapshotConfig)
    (order : DirectoryOrder Bytes) (environment : AttemptEnvironment Bytes)
    (entries : List (CacheEntry Value)) (files : SnapshotDirectory Bytes) :
    SnapshotDirectory Bytes :=
  (run (SnapshotProcess.step codec config order) ⟨files, none, environment.now, .nothing⟩
    (.takeSnapshot entries :: environment.calls.map (callAction environment.snapshotId))).files

/-- The latest pointer names a stored snapshot that fails its checksum. -/
structure CorruptedLatest (codec : FileCodec Value Bytes) (files : SnapshotDirectory Bytes)
    (pointer : SnapshotMetadata) : Prop where
  latest : files.get? latestName = some (.metadata pointer)
  corrupted : ∃ stored, files.read pointer.snapshotId = some stored ∧
    codec.sha256 stored.buffer ≠ stored.metadata.checksum

/-- The snapshot that the pointer names. -/
def latestId (codec : FileCodec Value Bytes) (files : SnapshotDirectory Bytes) :
    Except FlowCacheError (Option String) :=
  (files.readLatestPointer codec).map (Option.map SnapshotMetadata.snapshotId)

/-- No attempt started a server, the pointer names the same snapshot after each of
them, and every snapshot that was stored still is. -/
def NothingReplaced (codec : FileCodec Value Bytes) (files : SnapshotDirectory Bytes)
    (results : List (AttemptResult Bytes)) : Prop :=
  ∀ result ∈ results, result.started = false ∧
    latestId codec result.files = latestId codec files ∧
    ∀ snapshotId stored, files.read snapshotId = some stored →
      result.files.read snapshotId = some stored

/-- The first calls succeed and the next one, the write of the pointer, has an effect. -/
def reachesPointer : Nat → List (Option (Cut Bytes)) → Bool
  | 0, none :: _ | 0, some (.torn _) :: _ | 0, some .whole :: _ => true
  | 0, some .undone :: _ | 0, some (.unlinked _ _) :: _ | 0, [] => false
  | before + 1, none :: rest => reachesPointer before rest
  | _ + 1, some _ :: _ | _ + 1, [] => false

namespace AttemptEnvironment

/-- The shutdown snapshot is serialized, its two files are written, and the write of the
pointer has an effect. -/
def ReachesPointer (environment : AttemptEnvironment Bytes) : Bool :=
  reachesPointer 3 environment.calls

/-- The snapshot cannot be read, so the recovery takes the store for a new one, and nothing
else fails. -/
def StartsEmpty (environment : AttemptEnvironment Bytes) : Bool :=
  match environment.failedRead with
  | .snapshot => environment.reachable
  | .none | .pointer _ => false

end AttemptEnvironment

/-- What `generateId` returns: a valid id under which nothing is stored. -/
structure NewId (files : SnapshotDirectory Bytes) (snapshotId : String) : Prop where
  valid : isValidSnapshotId snapshotId = true
  unused : files.get? (dataName snapshotId) = none

/-! ## The shutdown snapshot -/

/-- All files but the two of one snapshot are the same. -/
def Besides (snapshotId : String) (files next : SnapshotDirectory Bytes) : Prop :=
  ∀ name, name ≠ dataName snapshotId → name ≠ metadataName snapshotId →
    next.get? name = files.get? name

theorem besides_refl (snapshotId : String) (files : SnapshotDirectory Bytes) :
    Besides snapshotId files files :=
  fun _ _ _ => rfl

theorem Besides.trans {snapshotId : String} {files next last : SnapshotDirectory Bytes}
    (first : Besides snapshotId files next) (second : Besides snapshotId next last) :
    Besides snapshotId files last :=
  fun name data metadata => (second name data metadata).trans (first name data metadata)

theorem besides_data (snapshotId : String) (files : SnapshotDirectory Bytes)
    (content : FileContent Bytes) :
    Besides snapshotId files (files.insert (dataName snapshotId) content) :=
  fun _ data _ => InsertionMap.get?_insert_of_ne files data content

theorem besides_metadata (snapshotId : String) (files : SnapshotDirectory Bytes)
    (content : FileContent Bytes) :
    Besides snapshotId files (files.insert (metadataName snapshotId) content) :=
  fun _ _ metadata => InsertionMap.get?_insert_of_ne files metadata content

theorem Besides.latest {snapshotId : String} {files next : SnapshotDirectory Bytes}
    (besides : Besides snapshotId files next) :
    next.get? latestName = files.get? latestName :=
  besides latestName (dataName_ne_latestName _).symm (metadataName_ne_latestName _).symm

theorem Besides.read {snapshotId : String} {files next : SnapshotDirectory Bytes}
    (besides : Besides snapshotId files next) {other : String} (different : other ≠ snapshotId) :
    next.read other = files.read other := by
  have data : next.get? (dataName other) = files.get? (dataName other) :=
    besides _ (dataName_injective.ne different) (dataName_ne_metadataName _ _)
  have metadata : next.get? (metadataName other) = files.get? (metadataName other) :=
    besides _ (dataName_ne_metadataName _ _).symm (metadataName_injective.ne different)
  rw [SnapshotDirectory.read, SnapshotDirectory.read, data, metadata]

/-- The pointer is cut off or names this snapshot. -/
def Touched (snapshotId : String) (files : SnapshotDirectory Bytes) : Prop :=
  ∃ content, files.get? latestName = some content ∧
    ∀ metadata, content = .metadata metadata → metadata.snapshotId = snapshotId

/-- The call waits, and so many calls are left before the write of the pointer. -/
inductive Waits (snapshotId : String) : Nat → FileProgress Value → Prop where
  | serializing (startedAt : Millis) (entries : List (CacheEntry Value)) :
      Waits snapshotId 3 (.serializing startedAt entries)
  | writingData {metadata : SnapshotMetadata} (own : metadata.snapshotId = snapshotId)
      (entries : List (CacheEntry Value)) : Waits snapshotId 2 (.writingData metadata entries)
  | writingMetadata {metadata : SnapshotMetadata} (own : metadata.snapshotId = snapshotId)
      (entries : List (CacheEntry Value)) :
      Waits snapshotId 1 (.writingMetadata metadata entries)
  | pointing {metadata : SnapshotMetadata} (own : metadata.snapshotId = snapshotId)
      (entries : List (CacheEntry Value)) : Waits snapshotId 0 (.pointing metadata entries)

/-- The write of the pointer is over, or the call has ended. -/
def Past : Option (FileProgress Value) → Prop
  | none | some .listing | some (.deleting _) => True
  | some (.serializing _ _) | some (.writingData _ _) | some (.writingMetadata _ _)
  | some (.pointing _ _) => False

section Shutdown

variable {codec : FileCodec Value Bytes} {config : SnapshotConfig}
variable {order : DirectoryOrder Bytes} {process : SnapshotProcess Value Bytes}
variable {progress : FileProgress Value} {snapshotId : String} {before : Nat}

/-- Before the write of the pointer a call that succeeds writes the snapshot at most. -/
theorem Waits.advance (waits : Waits snapshotId (before + 1) progress)
    (waiting : process.progress = some progress) (valid : isValidSnapshotId snapshotId = true) :
    let next := process.advance codec config order snapshotId
    Besides snapshotId process.files next.files ∧
      ∃ later, next.progress = some later ∧ Waits snapshotId before later := by
  cases waits with
  | serializing startedAt entries =>
      simp only [SnapshotProcess.advance, waiting, if_pos valid]
      refine ⟨besides_refl _ _, _, rfl, .writingData ?_ entries⟩
      rfl
  | writingData own entries =>
      simp only [SnapshotProcess.advance, waiting, own]
      exact ⟨besides_data _ _ _, _, rfl, .writingMetadata own entries⟩
  | writingMetadata own entries =>
      simp only [SnapshotProcess.advance, waiting, own]
      exact ⟨besides_metadata _ _ _, _, rfl, .pointing own entries⟩

/-- A call that rejects there ends the snapshot. -/
theorem Waits.reject (waits : Waits snapshotId (before + 1) progress)
    (waiting : process.progress = some progress) (cut : Cut Bytes) :
    let next := process.reject codec config order cut
    Besides snapshotId process.files next.files ∧ next.progress = none := by
  cases waits with
  | serializing startedAt entries =>
      cases cut <;> simp [SnapshotProcess.reject, SnapshotProcess.crash,
        SnapshotProcess.advance, SnapshotProcess.afterRejection, waiting, besides_refl]
  | writingData own entries =>
      cases cut <;> simp [SnapshotProcess.reject, SnapshotProcess.crash,
        SnapshotProcess.advance, SnapshotProcess.afterRejection, waiting, own, besides_refl,
        besides_data]
  | writingMetadata own entries =>
      cases cut <;> simp [SnapshotProcess.reject, SnapshotProcess.crash,
        SnapshotProcess.advance, SnapshotProcess.afterRejection, waiting, own, besides_refl,
        besides_metadata]

/-- Deleting a snapshot leaves the pointer alone. -/
theorem get?_latestName_of_deleted (files : SnapshotDirectory Bytes) (old : String) :
    ((files.erase (dataName old)).erase (metadataName old)).get? latestName =
      files.get? latestName := by
  rw [InsertionMap.get?_erase_of_ne _ (metadataName_ne_latestName old).symm,
    InsertionMap.get?_erase_of_ne _ (dataName_ne_latestName old).symm]

/-- Once it is past the pointer, a call leaves it alone. -/
theorem past_advance (past : Past process.progress) :
    let next := process.advance codec config order snapshotId
    Past next.progress ∧ next.files.get? latestName = process.files.get? latestName := by
  unfold SnapshotProcess.advance
  cases waiting : process.progress with
  | none => exact ⟨by rw [waiting]; trivial, rfl⟩
  | some progress =>
      rw [waiting] at past
      cases progress with
      | serializing startedAt entries => exact past.elim
      | writingData metadata entries => exact past.elim
      | writingMetadata metadata entries => exact past.elim
      | pointing metadata entries => exact past.elim
      | listing =>
          simp only
          split
          · exact ⟨trivial, rfl⟩
          · refine ⟨?_, rfl⟩
            simp only
            split
            · trivial
            · trivial
      | deleting remaining =>
          cases remaining with
          | nil => exact ⟨trivial, rfl⟩
          | cons old rest =>
              simp only
              split
              · exact ⟨trivial, get?_latestName_of_deleted _ _⟩
              · exact ⟨trivial, rfl⟩

theorem past_crash (past : Past process.progress) (cut : Cut Bytes) :
    (process.crash codec config order cut).files.get? latestName =
      process.files.get? latestName := by
  cases cut with
  | undone => rfl
  | whole => exact (past_advance past).2
  | torn left =>
      unfold SnapshotProcess.crash
      cases waiting : process.progress with
      | none => rfl
      | some progress =>
          rw [waiting] at past
          cases progress with
          | serializing startedAt entries => exact past.elim
          | writingData metadata entries => exact past.elim
          | writingMetadata metadata entries => exact past.elim
          | pointing metadata entries => exact past.elim
          | listing => rfl
          | deleting remaining => rfl
  | unlinked data metadata =>
      simp only [SnapshotProcess.crash]
      split
      · next old rest waiting =>
          simp only
          generalize (data && isValidSnapshotId old.snapshotId) = dropsData
          generalize (metadata && isValidSnapshotId old.snapshotId) = dropsMetadata
          have kept (files : SnapshotDirectory Bytes) :
              (files.erase (metadataName old.snapshotId)).get? latestName =
                files.get? latestName :=
            InsertionMap.get?_erase_of_ne _ (metadataName_ne_latestName _).symm
          cases dropsData <;> cases dropsMetadata <;> simp only [if_true, if_false,
            Bool.false_eq_true, kept,
            InsertionMap.get?_erase_of_ne _ (dataName_ne_latestName old.snapshotId).symm]
      all_goals rfl

theorem past_call (past : Past process.progress) (call : Option (Cut Bytes)) :
    let next := process.step codec config order (callAction snapshotId call)
    Past next.progress ∧ next.files.get? latestName = process.files.get? latestName := by
  cases call with
  | none => exact past_advance past
  | some cut =>
      refine ⟨?_, past_crash past cut⟩
      simp only [SnapshotProcess.step, callAction, SnapshotProcess.reject]
      cases waiting : process.progress with
      | none => trivial
      | some progress =>
          rw [Option.bind_some]
          cases progress with
          | deleting remaining =>
              cases remaining with
              | nil => trivial
              | cons old rest =>
                  rw [SnapshotProcess.afterRejection]
                  split
                  · trivial
                  · trivial
          | serializing startedAt entries => trivial
          | writingData metadata entries => trivial
          | writingMetadata metadata entries => trivial
          | pointing metadata entries => trivial
          | listing => trivial

variable (codec config order) (snapshotId) (calls : List (Option (Cut Bytes)))

/-- So does the rest of the snapshot. -/
theorem past_run (past : Past process.progress) :
    (run (SnapshotProcess.step codec config order) process
      (calls.map (callAction snapshotId))).files.get? latestName =
        process.files.get? latestName := by
  induction calls generalizing process with
  | nil => rfl
  | cons call rest ih =>
      obtain ⟨still, same⟩ := past_call past call
      exact (ih still).trans same

/-- A call that has ended leaves all files alone. -/
theorem ended_run (ended : process.progress = none) :
    (run (SnapshotProcess.step codec config order) process
      (calls.map (callAction snapshotId))).files = process.files := by
  induction calls generalizing process with
  | nil => rfl
  | cons call rest ih =>
      have idle : (process.step codec config order (callAction snapshotId call)).files =
          process.files ∧
            (process.step codec config order (callAction snapshotId call)).progress = none := by
        cases call with
        | none => simp [SnapshotProcess.step, callAction, SnapshotProcess.advance, ended]
        | some cut =>
            cases cut <;> simp [SnapshotProcess.step, callAction, SnapshotProcess.reject,
              SnapshotProcess.crash, SnapshotProcess.advance, ended]
      exact (ih idle.2).trans idle.1

variable {snapshotId calls}

/-- A snapshot that does not reach the pointer has written its own files at most. -/
theorem besides_run
    (valid : isValidSnapshotId snapshotId = true) (waiting : process.progress = some progress)
    (waits : Waits snapshotId before progress)
    (unreached : reachesPointer before calls = false) :
    Besides snapshotId process.files (run (SnapshotProcess.step codec config order) process
      (calls.map (callAction snapshotId))).files := by
  induction calls generalizing process progress before with
  | nil => exact besides_refl _ _
  | cons call rest ih =>
      cases before with
      | zero =>
          cases waits with
          | pointing own entries =>
              have untouched : (process.step codec config order
                  (callAction snapshotId call)).files = process.files ∧
                    (process.step codec config order
                      (callAction snapshotId call)).progress = none := by
                match call with
                | none => cases unreached
                | some (.torn _) => cases unreached
                | some .whole => cases unreached
                | some .undone => simp [SnapshotProcess.step, callAction,
                    SnapshotProcess.reject, SnapshotProcess.crash,
                    SnapshotProcess.afterRejection, waiting]
                | some (.unlinked _ _) => simp [SnapshotProcess.step, callAction,
                    SnapshotProcess.reject, SnapshotProcess.crash,
                    SnapshotProcess.afterRejection, waiting]
              have ended := ended_run codec config order snapshotId rest untouched.2
              have same := ended.trans untouched.1
              exact fun name _ _ => congrArg (InsertionMap.get? · name) same
      | succ before =>
          cases call with
          | none =>
              obtain ⟨first, later, running, still⟩ := waits.advance waiting valid
              exact first.trans (ih running still unreached)
          | some cut =>
              obtain ⟨first, ended⟩ := waits.reject waiting cut
              have same := ended_run codec config order snapshotId rest ended
              exact fun name data metadata =>
                (congrArg (InsertionMap.get? · name) same).trans (first name data metadata)

/-- A write of the pointer that has an effect cuts it off or moves it. -/
theorem Waits.touches {call : Option (Cut Bytes)} (waits : Waits snapshotId 0 progress)
    (waiting : process.progress = some progress)
    (reached : reachesPointer 0 (call :: calls) = true) :
    let next := process.step codec config order (callAction snapshotId call)
    Past next.progress ∧ Touched snapshotId next.files := by
  cases waits with
  | @pointing metadata own entries =>
      match call with
      | none =>
          simp only [SnapshotProcess.step, callAction, SnapshotProcess.advance, waiting]
          refine ⟨trivial, .metadata metadata, InsertionMap.get?_insert_self _ _ _, ?_⟩
          rintro _ ⟨⟩
          exact own
      | some .whole =>
          simp only [SnapshotProcess.step, callAction, SnapshotProcess.reject,
            SnapshotProcess.crash, SnapshotProcess.advance, waiting]
          refine ⟨trivial, .metadata metadata, InsertionMap.get?_insert_self _ _ _, ?_⟩
          rintro _ ⟨⟩
          exact own
      | some (.torn left) =>
          simp only [SnapshotProcess.step, callAction, SnapshotProcess.reject,
            SnapshotProcess.crash, waiting]
          refine ⟨trivial, .buffer left, InsertionMap.get?_insert_self _ _ _, ?_⟩
          rintro _ ⟨⟩
      | some .undone => cases reached
      | some (.unlinked _ _) => cases reached

/-- A snapshot that reaches the pointer cuts it off or moves it. -/
theorem touched_run
    (valid : isValidSnapshotId snapshotId = true) (waiting : process.progress = some progress)
    (waits : Waits snapshotId before progress)
    (reached : reachesPointer before calls = true) :
    Touched snapshotId (run (SnapshotProcess.step codec config order) process
      (calls.map (callAction snapshotId))).files := by
  induction calls generalizing process progress before with
  | nil => cases before <;> cases reached
  | cons call rest ih =>
      cases before with
      | zero =>
          obtain ⟨past, content, latest, own⟩ :=
            waits.touches codec config order waiting reached
          have kept := past_run codec config order snapshotId rest past
          exact ⟨content, kept.trans latest, own⟩
      | succ before =>
          cases call with
          | none =>
              obtain ⟨-, later, running, still⟩ := waits.advance waiting valid
              exact ih running still reached
          | some cut => cases reached

variable {environment : AttemptEnvironment Bytes}

theorem besides_shutdownSnapshot
    (valid : isValidSnapshotId environment.snapshotId = true)
    (unreached : environment.ReachesPointer = false) (entries : List (CacheEntry Value))
    (files : SnapshotDirectory Bytes) :
    Besides environment.snapshotId files
      (shutdownSnapshot codec config order environment entries files) := by
  rw [shutdownSnapshot, run_cons]
  exact besides_run codec config order valid rfl (.serializing _ entries) unreached

theorem touched_shutdownSnapshot
    (valid : isValidSnapshotId environment.snapshotId = true)
    (reached : environment.ReachesPointer = true) (entries : List (CacheEntry Value))
    (files : SnapshotDirectory Bytes) :
    Touched environment.snapshotId
      (shutdownSnapshot codec config order environment entries files) := by
  rw [shutdownSnapshot, run_cons]
  exact touched_run codec config order valid rfl (.serializing _ entries) reached

end Shutdown

/-! ## A corrupted snapshot -/

section Corrupted

variable {codec : FileCodec Value Bytes} {original current files : SnapshotDirectory Bytes}
variable {pointer : SnapshotMetadata}

/-- A corrupted snapshot is not restored. -/
theorem CorruptedLatest.restoreLatest (corrupted : CorruptedLatest codec files pointer)
    (nodeId : String) : ∃ error, files.restoreLatest codec nodeId = .error error := by
  obtain ⟨stored, found, mismatch⟩ := corrupted.corrupted
  have written := SnapshotStore.write_get? (.empty : SnapshotStore Bytes)
    pointer.snapshotId pointer.snapshotId stored.buffer stored.metadata
  rw [if_pos rfl] at written
  simp only [SnapshotDirectory.restoreLatest, SnapshotDirectory.readLatestPointer,
    corrupted.latest, SnapshotDirectory.parseMetadata, Except.map, found,
    SnapshotStore.restoreById, written, if_pos mismatch]
  exact ⟨_, rfl⟩

theorem latestId_of_corrupted (corrupted : CorruptedLatest codec files pointer) :
    latestId codec files = .ok (some pointer.snapshotId) := by
  rw [latestId, SnapshotDirectory.readLatestPointer, corrupted.latest]
  rfl

/-- A pointer that is cut off or moved does not name the old snapshot. -/
theorem Touched.latestId_ne {snapshotId : String} (touched : Touched snapshotId files)
    (different : pointer.snapshotId ≠ snapshotId) :
    latestId codec files ≠ .ok (some pointer.snapshotId) := by
  obtain ⟨content, latest, own⟩ := touched
  rw [latestId, SnapshotDirectory.readLatestPointer, latest]
  cases content with
  | buffer text => exact fun same => by cases same
  | metadata metadata =>
      intro same
      have name : metadata.snapshotId = pointer.snapshotId := by
        simpa [SnapshotDirectory.parseMetadata, Except.map] using same
      exact different (name.symm.trans (own metadata rfl))

/-- A stored snapshot has another id than the one that is generated. -/
theorem NewId.ne_of_read {snapshotId other : String} (isNew : NewId files snapshotId)
    {stored : StoredSnapshot Bytes} (read : files.read other = some stored) :
    other ≠ snapshotId := by
  rintro rfl
  rw [SnapshotDirectory.read, if_pos isNew.valid, isNew.unused] at read
  cases read

/-- What an attempt that neither starts nor reaches the pointer leaves. -/
structure Kept (codec : FileCodec Value Bytes) (pointer : SnapshotMetadata)
    (original current : SnapshotDirectory Bytes) : Prop where
  corrupted : CorruptedLatest codec current pointer
  stored : ∀ snapshotId stored, original.read snapshotId = some stored →
    current.read snapshotId = some stored

theorem Kept.of_besides (kept : Kept codec pointer original current)
    (corrupted : CorruptedLatest codec original pointer) {snapshotId : String}
    (isNew : NewId original snapshotId) (besides : Besides snapshotId current files) :
    Kept codec pointer original files := by
  have still : ∀ other stored, original.read other = some stored →
      files.read other = some stored := fun other stored read =>
    (besides.read (isNew.ne_of_read read)).trans (kept.stored other stored read)
  obtain ⟨stored, read, mismatch⟩ := corrupted.corrupted
  exact ⟨⟨besides.latest.trans kept.corrupted.latest, stored,
    still pointer.snapshotId stored read, mismatch⟩, still⟩

end Corrupted

/-! ## Attempts -/

variable [EvictionHook Hook] [SizedValue Value]

section Attempts

variable (codec : FileCodec Value Bytes) (config : SnapshotConfig)
variable (order : DirectoryOrder Bytes) (options : StorageEngineOptions) (hook : Hook)

/-- One attempt: `start()`, and `stop()` if it throws. -/
def attempt (environment : AttemptEnvironment Bytes) (files : SnapshotDirectory Bytes) :
    AttemptResult Bytes :=
  let storage : StorageEngine Value Hook := .create options hook
  let recovered := storage.recover config.nodeId environment.now
    (files.restoreReading codec config.nodeId environment.failedRead)
  let stopped : AttemptResult Bytes :=
    ⟨false, shutdownSnapshot codec config order environment recovered.2.entries files⟩
  match assertHealthy recovered.1 with
  | .ok _ => if environment.reachable then ⟨true, files⟩ else stopped
  | .error _ => stopped

/-- The attempts that are made, each on the files the previous one left. -/
def attempts : List (AttemptEnvironment Bytes) → SnapshotDirectory Bytes →
    List (AttemptResult Bytes)
  | [], _ => []
  | environment :: rest, files =>
      let result := attempt codec config order options hook environment files
      result :: if result.started then [] else attempts rest result.files

/-- `startWithRetry(config)`. -/
def startWithRetry (environments : List (AttemptEnvironment Bytes))
    (files : SnapshotDirectory Bytes) : List (AttemptResult Bytes) :=
  attempts codec config order options hook (environments.take maxStartAttempts) files

variable {codec}
variable {original current files : SnapshotDirectory Bytes} {pointer : SnapshotMetadata}
variable {environment : AttemptEnvironment Bytes}

/-- With a corrupted latest snapshot an attempt starts a server only if the snapshot cannot
be read; else it ends with its shutdown snapshot. -/
theorem attempt_of_corrupted (corrupted : CorruptedLatest codec files pointer)
    (environment : AttemptEnvironment Bytes) :
    (environment.StartsEmpty = true ∧
        attempt codec config order options hook environment files = ⟨true, files⟩) ∨
      environment.StartsEmpty = false ∧
        ∃ entries, attempt codec config order options hook environment files =
          ⟨false, shutdownSnapshot codec config order environment entries files⟩ := by
  cases read : environment.failedRead with
  | none =>
      obtain ⟨error, failed⟩ := corrupted.restoreLatest config.nodeId
      refine .inr ⟨by rw [AttemptEnvironment.StartsEmpty, read], ?_⟩
      simp only [attempt, SnapshotDirectory.restoreReading, read, failed]
      exact ⟨_, rfl⟩
  | pointer error =>
      refine .inr ⟨by rw [AttemptEnvironment.StartsEmpty, read], ?_⟩
      simp only [attempt, SnapshotDirectory.restoreReading, read]
      exact ⟨_, rfl⟩
  | snapshot =>
      simp only [AttemptEnvironment.StartsEmpty, attempt, SnapshotDirectory.restoreReading,
        SnapshotDirectory.readLatestPointer, corrupted.latest,
        SnapshotDirectory.parseMetadata, Except.map, read]
      cases environment.reachable with
      | true => exact .inl ⟨rfl, rfl⟩
      | false => exact .inr ⟨rfl, _, rfl⟩

theorem nothingReplaced_attempts_iff (corrupted : CorruptedLatest codec original pointer)
    (kept : Kept codec pointer original current)
    {environments : List (AttemptEnvironment Bytes)}
    (ids : ∀ environment ∈ environments, NewId original environment.snapshotId) :
    NothingReplaced codec original
        (attempts codec config order options hook environments current) ↔
      ∀ environment ∈ environments,
        environment.StartsEmpty = false ∧ environment.ReachesPointer = false := by
  induction environments generalizing current with
  | nil => simp [attempts, NothingReplaced]
  | cons environment rest ih =>
      have isNew := ids environment List.mem_cons_self
      have others := fun other member => ids other (List.mem_cons_of_mem environment member)
      rw [attempts, NothingReplaced, List.forall_mem_cons, List.forall_mem_cons,
        latestId_of_corrupted corrupted]
      rcases attempt_of_corrupted config order options hook kept.corrupted environment with
        ⟨empty, ended⟩ | ⟨recovers, entries, ended⟩
      · simp [ended, empty]
      · cases reached : environment.ReachesPointer with
        | true =>
            obtain ⟨stored, read, -⟩ := corrupted.corrupted
            have touched := touched_shutdownSnapshot codec config order isNew.valid reached
              entries current
            have moved : latestId codec _ ≠ _ := touched.latestId_ne (isNew.ne_of_read read)
            simp [ended, moved]
        | false =>
            have next := kept.of_besides corrupted isNew
              (besides_shutdownSnapshot codec config order isNew.valid reached entries current)
            have later := ih next others
            rw [NothingReplaced, latestId_of_corrupted corrupted] at later
            simp only [ended, latestId_of_corrupted next.corrupted, recovers, true_and,
              Bool.false_eq_true, if_false, and_self]
            exact ⟨fun both => later.mp both.2, fun all => ⟨next.stored, later.mpr all⟩⟩

/-- A corrupted latest snapshot survives the attempts of `startWithRetry` exactly when in
every attempt the recovery does not take it for missing and the shutdown snapshot fails
before its write of the pointer has an effect. -/
theorem nothingReplaced_iff (corrupted : CorruptedLatest codec files pointer)
    (environments : List (AttemptEnvironment Bytes))
    (ids : ∀ environment ∈ environments, NewId files environment.snapshotId) :
    NothingReplaced codec files
        (startWithRetry codec config order options hook environments files) ↔
      ∀ environment ∈ environments.take maxStartAttempts,
        environment.StartsEmpty = false ∧ environment.ReachesPointer = false :=
  nothingReplaced_attempts_iff config order options hook corrupted
    ⟨corrupted, fun _ _ read => read⟩ fun environment member =>
      ids environment (List.mem_of_mem_take member)

end Attempts

/-! ## A corrupted snapshot on disk -/

open SnapshotProcess (entryFiles keepFive)

/-- The metadata of a snapshot of one entry. -/
def damagedMetadata : SnapshotMetadata := ⟨"snap_1", "node-1", 0, 1, 1, 0, "1", false⟩

/-- The bytes of that snapshot have been lost. -/
def damagedFiles : SnapshotDirectory (List (CacheEntry Nat)) :=
  ((InsertionMap.empty.insert (dataName "snap_1") (.buffer [])).insert
    (metadataName "snap_1") (.metadata damagedMetadata)).insert latestName
      (.metadata damagedMetadata)

theorem damagedFiles_corrupted :
    CorruptedLatest entryFiles damagedFiles damagedMetadata where
  latest := rfl
  corrupted := ⟨⟨damagedMetadata, []⟩, rfl, by decide⟩

/-- In the first attempt the pool cannot serialize, in the second one the pointer cannot be
opened for writing. -/
def failingShutdowns : List (AttemptEnvironment (List (CacheEntry Nat))) :=
  [⟨10, .none, true, "snap_2", [some .undone]⟩,
    ⟨20, .none, true, "snap_3", [none, none, none, some .undone]⟩]

theorem failingShutdowns_replace_nothing :
    NothingReplaced entryFiles damagedFiles
      (startWithRetry entryFiles keepFive SnapshotProcess.inOrder .default (⟨⟩ : FifoEvictionHook)
        failingShutdowns damagedFiles) := by
  refine (nothingReplaced_iff keepFive SnapshotProcess.inOrder .default (⟨⟩ : FifoEvictionHook)
    damagedFiles_corrupted failingShutdowns ?_).mpr (by decide)
  intro environment member
  rw [failingShutdowns, List.mem_cons, List.mem_singleton] at member
  rcases member with rfl | rfl
  · exact ⟨by decide, by decide⟩
  · exact ⟨by decide, by decide⟩

/-- Nothing fails but the checksum. -/
def healthyNode : List (AttemptEnvironment (List (CacheEntry Nat))) :=
  [⟨10, .none, true, "snap_2", [none, none, none, none, none]⟩,
    ⟨20, .none, true, "snap_3", [none, none, none, none, none]⟩]

/-- The first attempt moves the pointer to an empty snapshot, and the second one
starts from it. -/
theorem healthyNode_replaces :
    CorruptedLatest entryFiles damagedFiles damagedMetadata ∧
      (startWithRetry entryFiles keepFive SnapshotProcess.inOrder .default (⟨⟩ : FifoEvictionHook)
        healthyNode damagedFiles).map AttemptResult.started = [false, true] ∧
      (startWithRetry entryFiles keepFive SnapshotProcess.inOrder .default (⟨⟩ : FifoEvictionHook)
        healthyNode damagedFiles).map (fun result => latestId entryFiles result.files) =
        [.ok (some "snap_2"), .ok (some "snap_2")] ∧
      ¬NothingReplaced entryFiles damagedFiles
        (startWithRetry entryFiles keepFive SnapshotProcess.inOrder .default (⟨⟩ : FifoEvictionHook)
          healthyNode damagedFiles) := by
  have outcomes : (startWithRetry entryFiles keepFive SnapshotProcess.inOrder .default
      (⟨⟩ : FifoEvictionHook) healthyNode damagedFiles).map AttemptResult.started =
        [false, true] := by
    decide +kernel
  refine ⟨damagedFiles_corrupted, outcomes, by decide +kernel, ?_⟩
  intro nothing
  have someStarted : true ∈ (startWithRetry entryFiles keepFive SnapshotProcess.inOrder .default
      (⟨⟩ : FifoEvictionHook) healthyNode damagedFiles).map AttemptResult.started := by
    rw [outcomes]
    decide
  obtain ⟨result, member, started⟩ := List.mem_map.mp someStarted
  have notStarted := (nothing result member).1
  rw [started] at notStarted
  cases notStarted

end FlowCache
