import FlowCache.CacheNode.Apply
import FlowCache.Snapshot.Types

/-!
# Recovery

`RecoveryEngine`: clear the storage, wait for the latest snapshot, apply its
entries, and report.  The wait for the snapshot is the only point at which the
event loop runs other work, so recovery is split there: `clear` before it and
`finishRecovery` after it.
-/

namespace FlowCache

variable {Value Hook : Type} [EvictionHook Hook] [SizedValue Value]

namespace StorageEngine

/-- Apply restored entries in order, up to the first that is rejected. -/
def restoreEntries (now : Millis) : List (CacheEntry Value) →
    StorageEngine Value Hook → Option FlowCacheError × StorageEngine Value Hook
  | [], engine => (none, engine)
  | entry :: rest, engine =>
      match engine.applyRestoredEntry now entry with
      | .ok next => restoreEntries now rest next
      | .error error => (some error, engine)

/-- Everything `recover()` does once `restoreLatest()` has settled. -/
def finishRecovery (engine : StorageEngine Value Hook) (nodeId : String)
    (startedAt now : Millis)
    (restored : Except FlowCacheError (Option (SnapshotPayload Value))) :
    RecoveryReport × StorageEngine Value Hook :=
  let report : RecoveryReport :=
    { nodeId := nodeId
      startedAt := startedAt
      finishedAt := now
      snapshotRestored := none
      entriesRestoredFromSnapshot := 0
      operationsReplayed := 0
      integrityVerified := true
      errors := [] }
  match restored with
  | .error error =>
      ({ report with integrityVerified := false, errors := [error.message] }, engine)
  | .ok none => (report, engine)
  | .ok (some payload) =>
      match engine.restoreEntries now payload.entries with
      | (none, next) =>
          ({ report with
              snapshotRestored := some payload.metadata.snapshotId
              entriesRestoredFromSnapshot := payload.entries.length }, next)
      | (some error, next) =>
          ({ report with integrityVerified := false, errors := [error.message] }, next)

/-- `recover()` when nothing else runs during the wait. -/
def recover (engine : StorageEngine Value Hook) (nodeId : String) (now : Millis)
    (restored : Except FlowCacheError (Option (SnapshotPayload Value))) :
    RecoveryReport × StorageEngine Value Hook :=
  engine.clear.finishRecovery nodeId now now restored

/-- Restoring one entry is a `set` with what is left of its time to live. -/
theorem applyRestoredEntry_ok {engine next : StorageEngine Value Hook} {now : Millis}
    {entry : CacheEntry Value} (applied : engine.applyRestoredEntry now entry = .ok next) :
    next = engine.afterSet now entry.key entry.value
      (remainingTtl now entry.metadata.expiresAt) := by
  unfold applyRestoredEntry at applied
  unfold afterSet
  cases result : engine.set now entry.key entry.value
      (remainingTtl now entry.metadata.expiresAt) with
  | error error => simp [result, Except.map] at applied
  | ok written =>
      simp only [result, Except.map, Except.ok.injEq] at applied
      simp [applied]

@[simp] theorem restoreEntries_options (now : Millis)
    (entries : List (CacheEntry Value)) (engine : StorageEngine Value Hook) :
    (engine.restoreEntries now entries).2.options = engine.options := by
  induction entries generalizing engine with
  | nil => rfl
  | cons entry rest ih =>
      unfold restoreEntries
      split
      · next applied => rw [ih, applyRestoredEntry_ok applied, afterSet_options]
      · rfl

/-- Invariant rule for a restore: what storing each entry preserves, the whole
restore preserves. -/
theorem restoreEntries_induction (invariant : StorageEngine Value Hook → Prop)
    {now : Millis} {entries : List (CacheEntry Value)}
    (preserved : ∀ engine, ∀ entry ∈ entries, invariant engine →
      invariant (engine.afterSet now entry.key entry.value
        (remainingTtl now entry.metadata.expiresAt)))
    {engine : StorageEngine Value Hook} (initial : invariant engine) :
    invariant (engine.restoreEntries now entries).2 := by
  induction entries generalizing engine with
  | nil => exact initial
  | cons entry rest ih =>
      unfold restoreEntries
      split
      · next applied =>
          apply ih
          · exact fun engine other member => preserved engine other (by simp [member])
          · rw [applyRestoredEntry_ok applied]
            exact preserved engine entry (by simp) initial
      · exact initial

/-- Invariant rule for a restore of distinct keys that are not stored: each entry finds
its key still free. -/
theorem restoreEntries_induction_of_distinct (invariant : StorageEngine Value Hook → Prop)
    {now : Millis} {entries : List (CacheEntry Value)}
    (distinct : (entries.map CacheEntry.key).Nodup)
    (preserved : ∀ engine, ∀ entry ∈ entries, engine.store.get? entry.key = none →
      invariant engine →
      invariant (engine.afterSet now entry.key entry.value
        (remainingTtl now entry.metadata.expiresAt)))
    {engine : StorageEngine Value Hook}
    (absent : ∀ entry ∈ entries, engine.store.get? entry.key = none)
    (initial : invariant engine) :
    invariant (engine.restoreEntries now entries).2 := by
  induction entries generalizing engine with
  | nil => exact initial
  | cons entry rest ih =>
      rw [List.map_cons, List.nodup_cons] at distinct
      unfold restoreEntries
      split
      · next applied =>
          rw [applyRestoredEntry_ok applied]
          apply ih distinct.2
          · exact fun engine other member => preserved engine other (by simp [member])
          · intro other member
            apply Option.eq_none_iff_forall_ne_some.mpr
            intro after stored
            rcases afterSet_stored stored with ⟨_, same, _⟩ | ⟨_, kept⟩
            · exact distinct.1 (same ▸ List.mem_map_of_mem member)
            · rw [absent other (by simp [member])] at kept
              cases kept
          · exact preserved engine entry (by simp) (absent entry (by simp)) initial
      · exact initial

/-- A stored entry is what a restored one became or was there before. -/
theorem restoreEntries_stored (engine : StorageEngine Value Hook) (now : Millis)
    (entries : List (CacheEntry Value)) :
    ∀ query after,
      (engine.restoreEntries now entries).2.store.get? query = some after →
      (∃ entry ∈ entries, entry.key = query ∧ after.value = entry.value ∧
          after.metadata.expiresAt = engine.remainingExpiry now entry.metadata.expiresAt) ∨
        engine.store.get? query = some after := by
  refine (restoreEntries_induction (fun current => current.options = engine.options ∧
    ∀ query after, current.store.get? query = some after →
      (∃ entry ∈ entries, entry.key = query ∧ after.value = entry.value ∧
          after.metadata.expiresAt = engine.remainingExpiry now entry.metadata.expiresAt) ∨
        engine.store.get? query = some after) ?_ ?_).2
  · rintro current entry member ⟨options, before⟩
    refine ⟨by rw [afterSet_options, options], ?_⟩
    intro query after stored
    rcases afterSet_stored stored with ⟨_, rfl, rfl⟩ | ⟨_, kept⟩
    · refine .inl ⟨entry, member, rfl, rfl, ?_⟩
      rw [nextEntry_remainingTtl, remainingExpiry, remainingExpiry, options]
    · exact before query after kept
  · exact ⟨rfl, fun query after found => .inr found⟩

/-- The entries that a restore stores: those before the first with an empty key. -/
def restorable (entries : List (CacheEntry Value)) : List (CacheEntry Value) :=
  entries.takeWhile fun entry => entry.key ≠ ""

theorem restoreEntries_restorable (engine : StorageEngine Value Hook) (now : Millis)
    (entries : List (CacheEntry Value)) :
    (engine.restoreEntries now (restorable entries)).2 =
      (engine.restoreEntries now entries).2 := by
  induction entries generalizing engine with
  | nil => rfl
  | cons entry rest ih =>
      by_cases empty : entry.key = ""
      · simp [restorable, restoreEntries, applyRestoredEntry, set, empty, Except.map]
      · have taken : restorable (entry :: rest) = entry :: restorable rest := by
          rw [restorable, List.takeWhile_cons_of_pos (by simpa using empty)]
          rfl
        rw [taken, restoreEntries, restoreEntries]
        split
        · exact ih _
        · rfl

/-- What the end of a recovery leaves in the store. -/
theorem finishRecovery_engine (engine : StorageEngine Value Hook) (nodeId : String)
    (startedAt now : Millis)
    (restored : Except FlowCacheError (Option (SnapshotPayload Value))) :
    (engine.finishRecovery nodeId startedAt now restored).2 =
      match restored with
      | .ok (some payload) => (engine.restoreEntries now payload.entries).2
      | .ok none | .error _ => engine := by
  match restored with
  | .error error => rfl
  | .ok none => rfl
  | .ok (some payload) =>
      simp only [finishRecovery]
      split <;> simp_all

/-- What `recover()` leaves in the store. -/
theorem recover_engine (engine : StorageEngine Value Hook) (nodeId : String) (now : Millis)
    (restored : Except FlowCacheError (Option (SnapshotPayload Value))) :
    (engine.recover nodeId now restored).2 =
      match restored with
      | .ok (some payload) => (engine.clear.restoreEntries now payload.entries).2
      | .ok none | .error _ => engine.clear :=
  finishRecovery_engine ..

end StorageEngine

/-- `assertHealthy(report)`. -/
def assertHealthy (report : RecoveryReport) : Except FlowCacheError Unit :=
  if report.integrityVerified then
    .ok ()
  else
    .error (.recoveryError ("Recovery for node \"" ++ report.nodeId ++
      "\" did not verify cleanly: " ++ "; ".intercalate report.errors))

end FlowCache
