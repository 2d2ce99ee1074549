import FlowCache.Library.Retention
import FlowCache.Library.Transition
import FlowCache.Snapshot.Manager

/-!
# The latest pointer and the retained snapshots

Any sequence of `takeSnapshot()` calls, each of which may stop before any of its
store operations.  `taken` lists every snapshot that was written, newest first.
The store always keeps the newest `maxRetained` of them as long as pruning never
has to separate two snapshots of the same millisecond.
-/

namespace FlowCache

open Transition Retention

variable {Value Bytes : Type}

/-- A manager, its clock, what the current call captured, and every snapshot that
was ever written, newest first. -/
structure SnapshotRun (Value Bytes : Type) where
  manager : SnapshotManager Value Bytes
  clock : Millis
  captured : List (CacheEntry Value)
  taken : List SnapshotMetadata

/-- A call of `takeSnapshot()` is begun, continued or stopped. -/
inductive SnapshotAction (Value : Type) where
  | tick (elapsed : Nat)
  | takeSnapshot (entries : List (CacheEntry Value))
  | advance (snapshotId : String)
  | abandon

namespace SnapshotRun

/-- A manager over an empty store. -/
def start (clock : Millis) : SnapshotRun Value Bytes :=
  ⟨⟨.empty, none⟩, clock, [], []⟩

/-- The snapshot that the next operation of the running call writes. -/
def written (run : SnapshotRun Value Bytes) : List SnapshotMetadata :=
  match run.manager.progress with
  | some (.writing metadata _) => [metadata]
  | _ => []

/-- The latest pointer names a snapshot that is in the store. -/
def PointerPresent (run : SnapshotRun Value Bytes) : Prop :=
  ∀ pointer ∈ run.manager.store.latest,
    ∃ buffer, run.manager.store.data.get? pointer.snapshotId = some ⟨pointer, buffer⟩

variable (codec : SnapshotCodec Value Bytes) (config : SnapshotConfig)

/-- One action. -/
def step (run : SnapshotRun Value Bytes) :
    SnapshotAction Value → SnapshotRun Value Bytes
  | .tick elapsed => { run with clock := run.clock + elapsed }
  | .takeSnapshot entries =>
      match run.manager.beginSnapshot config run.clock entries with
      | .ok manager => { run with manager := manager, captured := entries }
      | .error _ => run
  | .advance snapshotId =>
      { run with
        manager := run.manager.advance codec config snapshotId run.clock
        taken := run.written ++ run.taken }
  | .abandon => { run with manager := run.manager.abandon }

/-- `generateId` returns an id that no snapshot has had. -/
def FreshId (run : SnapshotRun Value Bytes) : SnapshotAction Value → Prop
  | .advance snapshotId =>
      match run.manager.progress with
      | some (.serializing _ _) => snapshotId ∉ run.taken.map SnapshotMetadata.snapshotId
      | _ => True
  | .tick _ | .takeSnapshot _ | .abandon => True

/-- When pruning begins, the oldest snapshot it keeps and the newest it deletes were
not created in the same millisecond. -/
def Untied (run : SnapshotRun Value Bytes) : SnapshotAction Value → Prop
  | .advance _ =>
      match run.manager.progress with
      | some (.listing _) =>
          UntiedAt SnapshotMetadata.createdAt config.maxRetained
            (run.manager.store.list config.order)
      | _ => True
  | .tick _ | .takeSnapshot _ | .abandon => True

/-- The running call returns with this action. -/
def Completes (run : SnapshotRun Value Bytes) : SnapshotAction Value → Prop
  | .advance snapshotId => run.manager.progress.isSome ∧
      (run.step codec config (.advance snapshotId)).manager.progress = none
  | .tick _ | .takeSnapshot _ | .abandon => False

/-- What a successful call leaves behind: the captured entries are restored, and the
store has at most `maxRetained` snapshots, the ones taken last. -/
structure Succeeded (run : SnapshotRun Value Bytes) : Prop where
  restores : ∃ metadata, run.manager.store.restoreLatest codec config.nodeId =
    .ok (some ⟨metadata, run.captured⟩)
  bounded : (run.manager.store.list config.order).length ≤ config.maxRetained
  newest : ∀ metadata, metadata ∈ run.manager.store.list config.order ↔
    metadata ∈ run.taken.take config.maxRetained

/-- The pointer is good after the action, and so is everything else if the action
completes a call. -/
def Safe (run : SnapshotRun Value Bytes) (action : SnapshotAction Value) : Prop :=
  (run.step codec config action).PointerPresent ∧
    (run.Completes codec config action →
      (run.step codec config action).Succeeded codec config)

/-! ## The invariant -/

/-- The snapshot a call has written holds what the call captured. -/
structure Holds (run : SnapshotRun Value Bytes) (metadata : SnapshotMetadata) :
    Prop where
  newest : metadata ∈ run.taken.head?
  stored : run.manager.store.data.get? metadata.snapshotId =
    some ⟨metadata, codec.serialize run.captured metadata.compressed⟩
  checksum : metadata.checksum =
    codec.sha256 (codec.serialize run.captured metadata.compressed)

/-- What holds at each point at which a call can be waiting. -/
def InProgress (run : SnapshotRun Value Bytes) :
    SnapshotProgress Value Bytes → Prop
  | .serializing startedAt entries => startedAt ≤ run.clock ∧ entries = run.captured ∧
      ∀ metadata ∈ run.taken, metadata.createdAt ≤ startedAt
  | .writing metadata buffer => metadata.createdAt ≤ run.clock ∧
      metadata.snapshotId ∉ run.taken.map SnapshotMetadata.snapshotId ∧
      (∀ earlier ∈ run.taken, earlier.createdAt ≤ metadata.createdAt) ∧
      buffer = codec.serialize run.captured metadata.compressed ∧
      metadata.checksum = codec.sha256 buffer
  | .pointing metadata => run.Holds codec metadata
  | .listing metadata => run.Holds codec metadata ∧
      run.manager.store.latest = some metadata
  | .deleting metadata remaining => run.Holds codec metadata ∧
      run.manager.store.latest = some metadata ∧
      (∀ old ∈ remaining, old ∈ run.taken ∧ old ∉ run.taken.take config.maxRetained) ∧
      ∀ snapshotId stored, run.manager.store.data.get? snapshotId = some stored →
        stored.metadata ∈ run.taken.take config.maxRetained ∨ stored.metadata ∈ remaining

/-- What every action keeps. -/
structure Retained (run : SnapshotRun Value Bytes) : Prop where
  keyed : ∀ snapshotId stored, run.manager.store.data.get? snapshotId = some stored →
    stored.metadata.snapshotId = snapshotId ∧ stored.metadata ∈ run.taken
  kept : ∀ metadata ∈ run.taken.take config.maxRetained, ∃ buffer,
    run.manager.store.data.get? metadata.snapshotId = some ⟨metadata, buffer⟩
  distinct : (run.taken.map SnapshotMetadata.snapshotId).Nodup
  newestFirst : NewestFirst SnapshotMetadata.createdAt run.taken
  past : ∀ metadata ∈ run.taken, metadata.createdAt ≤ run.clock
  pointer : run.PointerPresent
  inProgress : ∀ progress ∈ run.manager.progress, run.InProgress codec config progress

theorem retained_start (clock : Millis) :
    (start clock : SnapshotRun Value Bytes).Retained codec config where
  keyed := by
    intro snapshotId stored impossible
    cases impossible
  kept := by simp [start]
  distinct := List.nodup_nil
  newestFirst := List.Pairwise.nil
  past := by simp [start]
  pointer := by
    intro pointer impossible
    cases impossible
  inProgress := by
    intro progress impossible
    cases impossible

variable {codec config}

/-- Two snapshots with the same id are the same. -/
theorem Retained.eq_of_snapshotId {run : SnapshotRun Value Bytes}
    (retained : run.Retained codec config) {first second : SnapshotMetadata}
    (firstTaken : first ∈ run.taken) (secondTaken : second ∈ run.taken)
    (same : first.snapshotId = second.snapshotId) : first = second :=
  List.inj_on_of_nodup_map retained.distinct firstTaken secondTaken same

theorem Retained.list_nodup {run : SnapshotRun Value Bytes}
    (retained : run.Retained codec config) :
    (run.manager.store.list config.order).Nodup := by
  have keyed : run.manager.store.Keyed := fun snapshotId stored found =>
    (retained.keyed snapshotId stored found).1
  exact keyed.list_nodup config.order

theorem Retained.mem_taken_of_mem_list {run : SnapshotRun Value Bytes}
    (retained : run.Retained codec config) {metadata : SnapshotMetadata}
    (listed : metadata ∈ run.manager.store.list config.order) : metadata ∈ run.taken := by
  obtain ⟨snapshotId, stored, found, rfl⟩ := SnapshotStore.mem_list_iff.mp listed
  exact (retained.keyed snapshotId stored found).2

theorem Retained.mem_list_of_newest {run : SnapshotRun Value Bytes}
    (retained : run.Retained codec config) {metadata : SnapshotMetadata}
    (newest : metadata ∈ run.taken.take config.maxRetained) :
    metadata ∈ run.manager.store.list config.order := by
  obtain ⟨buffer, found⟩ := retained.kept metadata newest
  exact SnapshotStore.mem_list_iff.mpr ⟨metadata.snapshotId, _, found, rfl⟩

/-- Pruning an untied store keeps exactly the newest snapshots. -/
theorem Retained.mem_take_list_iff {run : SnapshotRun Value Bytes}
    (retained : run.Retained codec config) (positive : 0 < config.maxRetained)
    (untied : UntiedAt SnapshotMetadata.createdAt config.maxRetained
      (run.manager.store.list config.order)) (metadata : SnapshotMetadata) :
    metadata ∈ (run.manager.store.list config.order).take config.maxRetained ↔
      metadata ∈ run.taken.take config.maxRetained :=
  mem_take_iff_mem_newest positive retained.newestFirst
    (List.Nodup.of_map _ retained.distinct)
    (run.manager.store.list_pairwise config.order) retained.list_nodup
    (fun _ listed => retained.mem_taken_of_mem_list listed)
    (fun _ newest => retained.mem_list_of_newest newest) untied metadata

/-! ## One lemma for each operation -/

theorem Retained.tick {run : SnapshotRun Value Bytes}
    (retained : run.Retained codec config) (elapsed : Nat) :
    (run.step codec config (.tick elapsed)).Retained codec config := by
  have later : run.clock ≤ run.clock + elapsed :=
    Int.le_add_of_nonneg_right (Int.natCast_nonneg elapsed)
  refine ⟨retained.keyed, retained.kept, retained.distinct, retained.newestFirst, ?_,
    retained.pointer, ?_⟩
  · intro metadata member
    exact Int.le_trans (retained.past metadata member) later
  · intro progress found
    have before := retained.inProgress progress found
    cases progress with
    | serializing startedAt entries =>
        exact ⟨Int.le_trans before.1 later, before.2⟩
    | writing metadata buffer => exact ⟨Int.le_trans before.1 later, before.2⟩
    | pointing metadata => exact ⟨before.newest, before.stored, before.checksum⟩
    | listing metadata =>
        exact ⟨⟨before.1.newest, before.1.stored, before.1.checksum⟩, before.2⟩
    | deleting metadata remaining =>
        exact ⟨⟨before.1.newest, before.1.stored, before.1.checksum⟩, before.2⟩

theorem Retained.takeSnapshot {run : SnapshotRun Value Bytes}
    (retained : run.Retained codec config) (entries : List (CacheEntry Value)) :
    (run.step codec config (.takeSnapshot entries)).Retained codec config := by
  cases running : run.manager.progress with
  | some progress =>
      simpa only [step, SnapshotManager.beginSnapshot, running] using retained
  | none =>
      simp only [step, SnapshotManager.beginSnapshot, running]
      refine ⟨retained.keyed, retained.kept, retained.distinct, retained.newestFirst,
        retained.past, retained.pointer, ?_⟩
      rintro progress ⟨⟩
      exact ⟨Int.le_refl _, rfl, retained.past⟩

theorem Retained.abandon {run : SnapshotRun Value Bytes}
    (retained : run.Retained codec config) :
    (run.step codec config .abandon).Retained codec config := by
  refine ⟨retained.keyed, retained.kept, retained.distinct, retained.newestFirst,
    retained.past, retained.pointer, ?_⟩
  intro progress impossible
  cases impossible

theorem Retained.serialized {run : SnapshotRun Value Bytes}
    (retained : run.Retained codec config) {startedAt : Millis}
    {entries : List (CacheEntry Value)}
    (running : run.manager.progress = some (.serializing startedAt entries))
    {snapshotId : String}
    (fresh : snapshotId ∉ run.taken.map SnapshotMetadata.snapshotId) :
    (run.step codec config (.advance snapshotId)).Retained codec config := by
  obtain ⟨past, rfl, newer⟩ := retained.inProgress _ running
  simp only [step, SnapshotManager.advance, running, SnapshotProgress.advance, written,
    List.nil_append]
  refine ⟨retained.keyed, retained.kept, retained.distinct, retained.newestFirst,
    retained.past, retained.pointer, ?_⟩
  rintro progress ⟨⟩
  exact ⟨past, fresh, newer, rfl, rfl⟩

theorem Retained.wrote {run : SnapshotRun Value Bytes}
    (retained : run.Retained codec config) (positive : 0 < config.maxRetained)
    {metadata : SnapshotMetadata} {buffer : Bytes}
    (running : run.manager.progress = some (.writing metadata buffer))
    (snapshotId : String) :
    (run.step codec config (.advance snapshotId)).Retained codec config := by
  obtain ⟨past, fresh, newer, rfl, checksum⟩ := retained.inProgress _ running
  have differs : ∀ earlier ∈ run.taken, earlier.snapshotId ≠ metadata.snapshotId := by
    intro earlier member same
    exact fresh (List.mem_map.mpr ⟨earlier, member, same⟩)
  simp only [step, SnapshotManager.advance, running, SnapshotProgress.advance, written,
    List.singleton_append]
  refine ⟨?_, ?_, List.nodup_cons.mpr ⟨fresh, retained.distinct⟩,
    List.pairwise_cons.mpr ⟨newer, retained.newestFirst⟩, ?_, ?_, ?_⟩
  · intro query stored found
    rw [SnapshotStore.write_get?] at found
    split at found
    · next same =>
        cases found
        exact ⟨same.symm, List.mem_cons_self⟩
    · obtain ⟨keyed, member⟩ := retained.keyed query stored found
      exact ⟨keyed, List.mem_cons_of_mem _ member⟩
  · intro kept newest
    obtain ⟨count, countEq⟩ : ∃ count, config.maxRetained = count + 1 :=
      ⟨config.maxRetained - 1, by omega⟩
    rw [countEq, List.take_succ_cons] at newest
    rcases List.mem_cons.mp newest with rfl | older
    · exact ⟨_, InsertionMap.get?_insert_self _ _ _⟩
    · have wider : kept ∈ run.taken.take config.maxRetained :=
        (List.take_prefix_take_left (by omega)).subset older
      obtain ⟨buffer, found⟩ := retained.kept kept wider
      refine ⟨buffer, ?_⟩
      rw [SnapshotStore.write_get?, if_neg (differs kept (List.mem_of_mem_take older))]
      exact found
  · intro earlier member
    rcases List.mem_cons.mp member with rfl | old
    · exact past
    · exact retained.past earlier old
  · intro pointer isLatest
    obtain ⟨buffer, found⟩ := retained.pointer pointer isLatest
    have member := (retained.keyed _ _ found).2
    refine ⟨buffer, ?_⟩
    rw [SnapshotStore.write_get?, if_neg (differs pointer member)]
    exact found
  · rintro progress ⟨⟩
    exact ⟨rfl, InsertionMap.get?_insert_self _ _ _, checksum⟩

theorem Retained.pointed {run : SnapshotRun Value Bytes}
    (retained : run.Retained codec config) {metadata : SnapshotMetadata}
    (running : run.manager.progress = some (.pointing metadata))
    (snapshotId : String) :
    (run.step codec config (.advance snapshotId)).Retained codec config := by
  have holds : run.Holds codec metadata := retained.inProgress _ running
  simp only [step, SnapshotManager.advance, running, SnapshotProgress.advance, written,
    List.nil_append]
  refine ⟨retained.keyed, retained.kept, retained.distinct, retained.newestFirst,
    retained.past, ?_, ?_⟩
  · rintro pointer ⟨⟩
    exact ⟨_, holds.stored⟩
  · rintro progress ⟨⟩
    exact ⟨⟨holds.newest, holds.stored, holds.checksum⟩, rfl⟩

/-- The newest snapshot is one of those to keep. -/
theorem Holds.mem_newest {run : SnapshotRun Value Bytes} {metadata : SnapshotMetadata}
    (holds : run.Holds codec metadata) (positive : 0 < config.maxRetained) :
    metadata ∈ run.taken.take config.maxRetained := by
  cases taken : run.taken with
  | nil =>
      have newest := holds.newest
      rw [taken] at newest
      cases newest
  | cons first rest =>
      have newest := holds.newest
      rw [taken] at newest
      cases newest
      obtain ⟨count, countEq⟩ : ∃ count, config.maxRetained = count + 1 :=
        ⟨config.maxRetained - 1, by omega⟩
      rw [countEq, List.take_succ_cons]
      exact List.mem_cons_self

theorem Retained.listed {run : SnapshotRun Value Bytes}
    (retained : run.Retained codec config) (positive : 0 < config.maxRetained)
    {metadata : SnapshotMetadata}
    (running : run.manager.progress = some (.listing metadata)) (snapshotId : String)
    (untied : UntiedAt SnapshotMetadata.createdAt config.maxRetained
      (run.manager.store.list config.order)) :
    (run.step codec config (.advance snapshotId)).Retained codec config := by
  obtain ⟨holds, latest⟩ := retained.inProgress _ running
  simp only [step, SnapshotManager.advance, running, SnapshotProgress.advance, written,
    List.nil_append]
  split
  · refine ⟨retained.keyed, retained.kept, retained.distinct, retained.newestFirst,
      retained.past, retained.pointer, ?_⟩
    intro progress impossible
    cases impossible
  · refine ⟨retained.keyed, retained.kept, retained.distinct, retained.newestFirst,
      retained.past, retained.pointer, ?_⟩
    rintro progress ⟨⟩
    refine ⟨⟨holds.newest, holds.stored, holds.checksum⟩, latest, ?_, ?_⟩
    · intro old dropped
      exact ⟨retained.mem_taken_of_mem_list (List.mem_of_mem_drop dropped),
        not_mem_newest_of_dropped positive retained.newestFirst
          (run.manager.store.list_pairwise config.order) retained.list_nodup
          (fun _ listed => retained.mem_taken_of_mem_list listed) untied dropped⟩
    · intro query stored found
      have listed : stored.metadata ∈ run.manager.store.list config.order :=
        SnapshotStore.mem_list_iff.mpr ⟨query, stored, found, rfl⟩
      rw [← List.take_append_drop config.maxRetained
        (run.manager.store.list config.order)] at listed
      rcases List.mem_append.mp listed with front | back
      · exact .inl ((retained.mem_take_list_iff positive untied _).mp front)
      · exact .inr back

/-- Deleting a snapshot that is not one of those to keep leaves these. -/
theorem Retained.delete_get?_of_newest {run : SnapshotRun Value Bytes}
    (retained : run.Retained codec config) {newest next : SnapshotMetadata}
    (isNewest : newest ∈ run.taken.take config.maxRetained)
    (old : next ∈ run.taken ∧ next ∉ run.taken.take config.maxRetained) :
    (run.manager.store.delete next.snapshotId).data.get? newest.snapshotId =
      run.manager.store.data.get? newest.snapshotId := by
  rw [SnapshotStore.delete_get?, if_neg]
  intro same
  have equal := retained.eq_of_snapshotId (List.mem_of_mem_take isNewest) old.1 same
  rw [equal] at isNewest
  exact old.2 isNewest

/-- After a deletion the rest of the pruning is accounted for. -/
theorem Retained.delete_accounted {run : SnapshotRun Value Bytes}
    (retained : run.Retained codec config) (positive : 0 < config.maxRetained)
    {metadata next : SnapshotMetadata} {rest : List SnapshotMetadata}
    (running : run.manager.progress = some (.deleting metadata (next :: rest))) :
    InProgress codec config
      { run with manager := ⟨run.manager.store.delete next.snapshotId, none⟩ }
      (.deleting metadata rest) := by
  obtain ⟨holds, latest, old, accounted⟩ := retained.inProgress _ running
  have kept := retained.delete_get?_of_newest (holds.mem_newest positive)
    (old next List.mem_cons_self)
  refine ⟨⟨holds.newest, kept.trans holds.stored, holds.checksum⟩, latest, ?_, ?_⟩
  · intro other member
    exact old other (List.mem_cons_of_mem _ member)
  · intro query found present
    rw [SnapshotStore.delete_get?] at present
    split at present
    · cases present
    · next different =>
        rcases accounted query found present with newest | isRemaining
        · exact .inl newest
        · rcases List.mem_cons.mp isRemaining with isNext | later
          · have keyed := (retained.keyed query found present).1
            rw [isNext] at keyed
            exact (different keyed.symm).elim
          · exact .inr later

/-- A deletion of the pruning keeps what a run without a running call keeps. -/
theorem Retained.delete {run : SnapshotRun Value Bytes}
    (retained : run.Retained codec config) (positive : 0 < config.maxRetained)
    {metadata next : SnapshotMetadata} {rest : List SnapshotMetadata}
    (running : run.manager.progress = some (.deleting metadata (next :: rest))) :
    Retained codec config
      { run with manager := ⟨run.manager.store.delete next.snapshotId, none⟩ } where
  keyed := by
    intro query found present
    rw [SnapshotStore.delete_get?] at present
    split at present
    · cases present
    · exact retained.keyed query found present
  kept := by
    obtain ⟨-, -, old, -⟩ := retained.inProgress _ running
    intro newest member
    obtain ⟨buffer, found⟩ := retained.kept newest member
    have kept := retained.delete_get?_of_newest member (old next List.mem_cons_self)
    exact ⟨buffer, kept.trans found⟩
  distinct := retained.distinct
  newestFirst := retained.newestFirst
  past := retained.past
  pointer := by
    obtain ⟨holds, latest, old, -⟩ := retained.inProgress _ running
    intro pointer isLatest
    simp only [SnapshotStore.delete] at isLatest
    rw [latest] at isLatest
    cases isLatest
    have kept := retained.delete_get?_of_newest (holds.mem_newest positive)
      (old next List.mem_cons_self)
    exact ⟨_, kept.trans holds.stored⟩
  inProgress := by
    intro progress impossible
    cases impossible

/-- A retained run is retained at any point of the running call that is accounted
for. -/
theorem Retained.resume {run : SnapshotRun Value Bytes} {store : SnapshotStore Bytes}
    (retained : Retained codec config { run with manager := ⟨store, none⟩ })
    {progress : SnapshotProgress Value Bytes}
    (accounted : InProgress codec config { run with manager := ⟨store, none⟩ } progress) :
    Retained codec config { run with manager := ⟨store, some progress⟩ } := by
  refine ⟨retained.keyed, retained.kept, retained.distinct, retained.newestFirst,
    retained.past, retained.pointer, ?_⟩
  rintro found ⟨⟩
  cases progress with
  | serializing startedAt entries => exact accounted
  | writing metadata buffer => exact accounted
  | pointing metadata =>
      exact ⟨accounted.newest, accounted.stored, accounted.checksum⟩
  | listing metadata =>
      exact ⟨⟨accounted.1.newest, accounted.1.stored, accounted.1.checksum⟩, accounted.2⟩
  | deleting metadata remaining =>
      exact ⟨⟨accounted.1.newest, accounted.1.stored, accounted.1.checksum⟩, accounted.2⟩

theorem Retained.deleted {run : SnapshotRun Value Bytes}
    (retained : run.Retained codec config) (positive : 0 < config.maxRetained)
    {metadata : SnapshotMetadata} {remaining : List SnapshotMetadata}
    (running : run.manager.progress = some (.deleting metadata remaining))
    (snapshotId : String) :
    (run.step codec config (.advance snapshotId)).Retained codec config := by
  cases remaining with
  | nil =>
      simp only [step, SnapshotManager.advance, running, SnapshotProgress.advance,
        written, List.nil_append]
      exact retained.abandon
  | cons next rest =>
      have kept := retained.delete positive running
      cases rest with
      | nil =>
          simp only [step, SnapshotManager.advance, running, SnapshotProgress.advance,
            written, List.nil_append]
          exact kept
      | cons second rest =>
          simp only [step, SnapshotManager.advance, running, SnapshotProgress.advance,
            written, List.nil_append]
          exact kept.resume (retained.delete_accounted positive running)

theorem Retained.step {run : SnapshotRun Value Bytes}
    (retained : run.Retained codec config) (positive : 0 < config.maxRetained)
    {action : SnapshotAction Value} (fresh : run.FreshId action)
    (untied : run.Untied config action) :
    (run.step codec config action).Retained codec config := by
  cases action with
  | tick elapsed => exact retained.tick elapsed
  | takeSnapshot entries => exact retained.takeSnapshot entries
  | abandon => exact retained.abandon
  | advance snapshotId =>
      cases running : run.manager.progress with
      | none =>
          simpa only [SnapshotRun.step, SnapshotManager.advance, running, written,
            List.nil_append] using retained
      | some progress =>
          cases progress with
          | serializing startedAt entries =>
              simp only [FreshId, running] at fresh
              exact retained.serialized running fresh
          | writing metadata buffer => exact retained.wrote positive running snapshotId
          | pointing metadata => exact retained.pointed running snapshotId
          | listing metadata =>
              simp only [Untied, running] at untied
              exact retained.listed positive running snapshotId untied
          | deleting metadata remaining =>
              exact retained.deleted positive running snapshotId

/-! ## Successful calls -/

/-- When nothing is left to delete, the call has succeeded. -/
theorem Retained.succeeded {run : SnapshotRun Value Bytes}
    (retained : run.Retained codec config) {metadata : SnapshotMetadata}
    (accounted : run.InProgress codec config (.deleting metadata [])) :
    run.Succeeded codec config := by
  obtain ⟨holds, latest, _, newest⟩ := accounted
  have listed : ∀ metadata, metadata ∈ run.manager.store.list config.order ↔
      metadata ∈ run.taken.take config.maxRetained := by
    intro other
    constructor
    · intro listed
      obtain ⟨snapshotId, stored, found, rfl⟩ := SnapshotStore.mem_list_iff.mp listed
      rcases newest snapshotId stored found with isNewest | impossible
      · exact isNewest
      · cases impossible
    · exact retained.mem_list_of_newest
  refine ⟨⟨metadata, ?_⟩, ?_, listed⟩
  · exact SnapshotStore.restoreLatest_of_serialized codec config.nodeId latest
      holds.stored holds.checksum
  · have fewer := retained.list_nodup.subperm fun other member => (listed other).mp member
    exact fewer.length_le.trans (List.length_take_le _ _)

/-- With no more snapshots than are retained, nothing has to be deleted. -/
theorem Retained.accounted_of_few {run : SnapshotRun Value Bytes}
    (retained : run.Retained codec config) (positive : 0 < config.maxRetained)
    {metadata : SnapshotMetadata}
    (running : run.manager.progress = some (.listing metadata))
    (untied : UntiedAt SnapshotMetadata.createdAt config.maxRetained
      (run.manager.store.list config.order))
    (few : (run.manager.store.list config.order).length ≤ config.maxRetained) :
    InProgress codec config { run with manager := ⟨run.manager.store, none⟩ }
      (.deleting metadata []) := by
  obtain ⟨holds, latest⟩ := retained.inProgress _ running
  refine ⟨⟨holds.newest, holds.stored, holds.checksum⟩, latest, by simp, ?_⟩
  intro query stored found
  have listed : stored.metadata ∈ run.manager.store.list config.order :=
    SnapshotStore.mem_list_iff.mpr ⟨query, stored, found, rfl⟩
  have whole := retained.mem_take_list_iff positive untied stored.metadata
  rw [List.take_of_length_le few] at whole
  exact .inl (whole.mp listed)

theorem Retained.succeeded_of_completes {run : SnapshotRun Value Bytes}
    (retained : run.Retained codec config) (positive : 0 < config.maxRetained)
    {action : SnapshotAction Value} (fresh : run.FreshId action)
    (untied : run.Untied config action)
    (completes : run.Completes codec config action) :
    (run.step codec config action).Succeeded codec config := by
  have after := retained.step positive fresh untied
  cases action with
  | tick elapsed => exact completes.elim
  | takeSnapshot entries => exact completes.elim
  | abandon => exact completes.elim
  | advance snapshotId =>
      obtain ⟨isRunning, ended⟩ := completes
      obtain ⟨progress, running⟩ := Option.isSome_iff_exists.mp isRunning
      cases progress with
      | serializing startedAt entries =>
          simp [SnapshotRun.step, SnapshotManager.advance, running,
            SnapshotProgress.advance] at ended
      | writing metadata buffer =>
          simp [SnapshotRun.step, SnapshotManager.advance, running,
            SnapshotProgress.advance] at ended
      | pointing metadata =>
          simp [SnapshotRun.step, SnapshotManager.advance, running,
            SnapshotProgress.advance] at ended
      | listing metadata =>
          simp only [Untied, running] at untied
          simp only [SnapshotRun.step, SnapshotManager.advance, running,
            SnapshotProgress.advance, written, List.nil_append] at after ended ⊢
          split at ended
          · next few =>
              rw [if_pos few] at after ⊢
              exact after.succeeded
                (retained.accounted_of_few positive running untied few)
          · cases ended
      | deleting metadata remaining =>
          cases remaining with
          | nil =>
              have accounted := retained.inProgress _ running
              simp only [SnapshotRun.step, SnapshotManager.advance, running,
                SnapshotProgress.advance, written, List.nil_append] at after ⊢
              apply after.succeeded
              exact ⟨⟨accounted.1.newest, accounted.1.stored, accounted.1.checksum⟩,
                accounted.2⟩
          | cons next rest =>
              cases rest with
              | nil =>
                  have accounted := retained.delete_accounted positive running
                  simp only [SnapshotRun.step, SnapshotManager.advance, running,
                    SnapshotProgress.advance, written, List.nil_append] at after ⊢
                  exact after.succeeded accounted
              | cons second rest =>
                  simp [SnapshotRun.step, SnapshotManager.advance, running,
                    SnapshotProgress.advance] at ended

/-- In every run in which pruning never separates two snapshots of one millisecond,
the latest pointer names a stored snapshot after every operation, and every call
that returns restores to what it captured and leaves exactly the newest snapshots. -/
theorem safe_of_untied (positive : 0 < config.maxRetained) (clock : Millis)
    (actions : List (SnapshotAction Value))
    (fresh : EveryStep (step codec config) FreshId (start clock) actions)
    (untied : EveryStep (step codec config) (Untied config) (start clock) actions) :
    EveryStep (step codec config) (Safe codec config) (start clock) actions := by
  refine (fresh.and untied).of_invariant ?_ ?_ (retained_start codec config clock)
  · intro run action retained met
    exact retained.step positive met.1 met.2
  · intro run action retained met
    exact ⟨(retained.step positive met.1 met.2).pointer,
      retained.succeeded_of_completes positive met.1 met.2⟩

/-! ## Two snapshots in one millisecond -/

/-- One retained snapshot in an in-memory store. -/
def keepOne : SnapshotConfig := ⟨"node-1", false, 1, .insertion⟩

/-- A whole call that captures the given entries. -/
def wholeCall (snapshotId : String) (entries : List (CacheEntry Nat)) :
    List (SnapshotAction Nat) :=
  [.takeSnapshot entries, .advance snapshotId, .advance snapshotId, .advance snapshotId,
    .advance snapshotId, .advance snapshotId]

/-- An entry to snapshot. -/
def entryOfA : CacheEntry Nat := ⟨"a", 1, ⟨1, 0, 0, 0, 0, none, 1⟩⟩

/-- Two calls in different milliseconds. -/
def spacedCalls : List (SnapshotAction Nat) :=
  wholeCall "snap_1" [] ++ [.tick 1] ++ wholeCall "snap_2" [entryOfA]

instance (count : Nat) (elements : List SnapshotMetadata) :
    Decidable (UntiedAt SnapshotMetadata.createdAt count elements) :=
  inferInstanceAs (Decidable (∀ kept ∈ elements[count - 1]?, ∀ dropped ∈ elements[count]?,
    dropped.createdAt < kept.createdAt))

instance : (run : SnapshotRun Value Bytes) → (action : SnapshotAction Value) →
    Decidable (run.FreshId action)
  | ⟨⟨_, some (.serializing _ _)⟩, _, _, taken⟩, .advance snapshotId =>
      inferInstanceAs (Decidable (snapshotId ∉ taken.map SnapshotMetadata.snapshotId))
  | ⟨⟨_, some (.writing _ _)⟩, _, _, _⟩, .advance _ => .isTrue trivial
  | ⟨⟨_, some (.pointing _)⟩, _, _, _⟩, .advance _ => .isTrue trivial
  | ⟨⟨_, some (.listing _)⟩, _, _, _⟩, .advance _ => .isTrue trivial
  | ⟨⟨_, some (.deleting _ _)⟩, _, _, _⟩, .advance _ => .isTrue trivial
  | ⟨⟨_, none⟩, _, _, _⟩, .advance _ => .isTrue trivial
  | _, .tick _ | _, .takeSnapshot _ | _, .abandon => .isTrue trivial

instance : (run : SnapshotRun Value Bytes) → (action : SnapshotAction Value) →
    Decidable (run.Untied config action)
  | ⟨⟨store, some (.listing _)⟩, _, _, _⟩, .advance _ =>
      inferInstanceAs (Decidable (UntiedAt SnapshotMetadata.createdAt config.maxRetained
        (store.list config.order)))
  | ⟨⟨_, some (.serializing _ _)⟩, _, _, _⟩, .advance _ => .isTrue trivial
  | ⟨⟨_, some (.writing _ _)⟩, _, _, _⟩, .advance _ => .isTrue trivial
  | ⟨⟨_, some (.pointing _)⟩, _, _, _⟩, .advance _ => .isTrue trivial
  | ⟨⟨_, some (.deleting _ _)⟩, _, _, _⟩, .advance _ => .isTrue trivial
  | ⟨⟨_, none⟩, _, _, _⟩, .advance _ => .isTrue trivial
  | _, .tick _ | _, .takeSnapshot _ | _, .abandon => .isTrue trivial

theorem spacedCalls_safe :
    EveryStep (step entryCodec keepOne) (Safe entryCodec keepOne) (start 0)
      spacedCalls :=
  safe_of_untied (by decide) 0 spacedCalls (by decide +kernel) (by decide +kernel)

/-- Two calls in the same millisecond, up to the last deletion of the second. -/
def tiedCalls : List (SnapshotAction Nat) :=
  wholeCall "snap_1" [] ++ [.takeSnapshot [entryOfA], .advance "snap_2",
    .advance "snap_2", .advance "snap_2", .advance "snap_2"]

/-- The store when the second call returns: it has deleted its own snapshot. -/
def tiedStore : SnapshotStore (List (CacheEntry Nat)) :=
  (Transition.run (step entryCodec keepOne) (start 0)
    (tiedCalls ++ [.advance "snap_2"])).manager.store

theorem tiedCalls_unsafe :
    EveryStep (step entryCodec keepOne) FreshId (start 0)
        (tiedCalls ++ [.advance "snap_2"]) ∧
      tiedStore.latest.map SnapshotMetadata.snapshotId = some "snap_2" ∧
      (tiedStore.data.get? "snap_2").isNone ∧
      ¬EveryStep (step entryCodec keepOne) (Safe entryCodec keepOne) (start 0)
        (tiedCalls ++ [.advance "snap_2"]) := by
  have named : tiedStore.latest.map SnapshotMetadata.snapshotId = some "snap_2" := by
    decide +kernel
  have missing : (tiedStore.data.get? "snap_2").isNone := by
    decide +kernel
  refine ⟨by decide +kernel, named, missing, ?_⟩
  intro every
  have last := ((everyStep_append _ tiedCalls _).mp every).2.1.1
  obtain ⟨pointer, latest, sameId⟩ := Option.map_eq_some_iff.mp named
  obtain ⟨buffer, found⟩ := last pointer latest
  have stored : tiedStore.data.get? pointer.snapshotId = some ⟨pointer, buffer⟩ := found
  rw [sameId] at stored
  rw [stored] at missing
  cases missing

end SnapshotRun

end FlowCache
