import FlowCache.CacheNode.Recovery
import FlowCache.Library.Transition

/-!
# Versions a client is told

The version counter of a key lives in its entry: a `set` of a stored key continues it,
a `set` of a key that is not stored starts it again, and so does a recovery, which
stores every entry of the snapshot anew.  The last `set` of each key is remembered
with the version its client was told.
-/

namespace FlowCache

open Transition

/-- The last `set` of a key: the version it returned, whether it found the key stored,
and whether a recovery has run since. -/
structure LastSet where
  version : Nat
  foundStored : Bool
  recovered : Bool
  deriving DecidableEq, Repr

/-- A node with its own latest snapshot and the last `set` of each key. -/
structure VersionedNode (Value Hook : Type) where
  nodeId : String
  engine : StorageEngine Value Hook
  latest : Option (SnapshotPayload Value)
  lastSet : CacheKey → Option LastSet

/-- What a node does over its life.  A recovery clears the store and applies the latest
snapshot, unless reading it fails. -/
inductive VersionedAction (Value : Type) where
  | set (now : Millis) (key : CacheKey) (value : Value) (options : SetOptions)
  | get (now : Millis) (key : CacheKey)
  | has (now : Millis) (key : CacheKey)
  | delete (key : CacheKey)
  | sweepExpired (now : Millis)
  | takeSnapshot (metadata : SnapshotMetadata)
  | recover (now : Millis) (failure : Option FlowCacheError)

namespace VersionedNode

variable {Value Hook : Type}

/-- A node that has not served any request yet. -/
def start (nodeId : String) (options : StorageEngineOptions) (hook : Hook) :
    VersionedNode Value Hook where
  nodeId := nodeId
  engine := .create options hook
  latest := none
  lastSet := fun _ => none

/-- What the counters stand at: an entry that no recovery has stored anew is at the
version its last `set` returned, any other at the first one. -/
structure Counted (state : VersionedNode Value Hook) : Prop where
  keyed : state.engine.Keyed
  positive : ∀ key entry, state.engine.store.get? key = some entry →
    1 ≤ entry.metadata.version
  distinct : ∀ payload ∈ state.latest, (payload.entries.map CacheEntry.key).Nodup
  told : ∀ key last, state.lastSet key = some last →
    key ≠ "" ∧ if last.foundStored then 2 ≤ last.version else last.version = 1
  current : ∀ key last entry, state.lastSet key = some last →
    state.engine.store.get? key = some entry →
    entry.metadata.version = if last.recovered then 1 else last.version

theorem counted_start (nodeId : String) (options : StorageEngineOptions) (hook : Hook) :
    (start nodeId options hook : VersionedNode Value Hook).Counted where
  keyed := StorageEngine.keyed_create options hook
  positive := by
    intro key entry impossible
    cases impossible
  distinct := by
    intro payload impossible
    cases impossible
  told := by
    intro key last impossible
    cases impossible
  current := by
    intro key last entry impossible
    cases impossible

/-- Dropping and touching entries leaves every counter alone. -/
theorem Counted.of_stored {state : VersionedNode Value Hook} (counted : state.Counted)
    {next : StorageEngine Value Hook}
    (stored : ∀ key after, next.store.get? key = some after →
      ∃ entry, state.engine.store.get? key = some entry ∧
        CacheEntry.SameContent after entry) :
    { state with engine := next }.Counted where
  keyed := counted.keyed.of_stored stored
  positive := by
    intro key after found
    obtain ⟨entry, before, same⟩ := stored key after found
    rw [same.version]
    exact counted.positive key entry before
  distinct := counted.distinct
  told := counted.told
  current := by
    intro key last after lastSet found
    obtain ⟨entry, before, same⟩ := stored key after found
    rw [same.version]
    exact counted.current key last entry lastSet before

theorem Counted.takeSnapshot {state : VersionedNode Value Hook} (counted : state.Counted)
    (metadata : SnapshotMetadata) :
    { state with latest := some ⟨metadata, state.engine.entries⟩ }.Counted where
  keyed := counted.keyed
  positive := counted.positive
  distinct := by
    rintro payload ⟨⟩
    exact counted.keyed.nodup_map_key_entries
  told := counted.told
  current := counted.current

variable [EvictionHook Hook] [SizedValue Value]

/-- One action. -/
def step (state : VersionedNode Value Hook) :
    VersionedAction Value → VersionedNode Value Hook
  | .set now key value options =>
      match state.engine.set now key value options with
      | .ok (entry, next) =>
          { state with
            engine := next
            lastSet := fun query =>
              if query = key then
                some
                  { version := entry.metadata.version
                    foundStored := state.engine.store.contains key
                    recovered := false }
              else
                state.lastSet query }
      | .error _ => state
  | .get now key => { state with engine := (state.engine.get now key).2 }
  | .has now key => { state with engine := (state.engine.has now key).2 }
  | .delete key => { state with engine := (state.engine.delete key).2 }
  | .sweepExpired now => { state with engine := (state.engine.sweepExpired now).2 }
  | .takeSnapshot metadata =>
      { state with latest := some ⟨metadata, state.engine.entries⟩ }
  | .recover now failure =>
      let restored :=
        match failure with
        | some error => .error error
        | none => .ok state.latest
      { state with
        engine := (state.engine.recover state.nodeId now restored).2
        lastSet := fun key =>
          (state.lastSet key).map fun last => { last with recovered := true } }

/-- A `set` returns a higher version than the last `set` of its key. -/
def VersionGrows (state : VersionedNode Value Hook) : VersionedAction Value → Prop
  | .set now key value options =>
      match state.engine.set now key value options with
      | .ok (entry, _) =>
          ∀ last ∈ state.lastSet key, last.version < entry.metadata.version
      | .error _ => True
  | .get _ _ | .has _ _ | .delete _ | .sweepExpired _ | .takeSnapshot _
  | .recover _ _ => True

/-- A key that was set before is set again only while it is stored and, after a
recovery, only when the `set` before it was the first one of its entry. -/
def SetsKeptKey (state : VersionedNode Value Hook) : VersionedAction Value → Prop
  | .set _ key _ _ =>
      ∀ last ∈ state.lastSet key, state.engine.store.contains key = true ∧
        (last.recovered = true → last.foundStored = false)
  | .get _ _ | .has _ _ | .delete _ | .sweepExpired _ | .takeSnapshot _
  | .recover _ _ => True

theorem Counted.set {state : VersionedNode Value Hook} (counted : state.Counted)
    (now : Millis) (key : CacheKey) (value : Value) (options : SetOptions) :
    (state.step (.set now key value options)).Counted := by
  by_cases empty : key = ""
  · subst empty
    exact counted
  · simp only [step, StorageEngine.set, empty, if_false]
    rw [← StorageEngine.afterSet_of_valid _ _ empty]
    refine ⟨counted.keyed.afterSet now key value options, ?_, counted.distinct, ?_, ?_⟩
    · intro query entry stored
      rcases StorageEngine.afterSet_stored stored with ⟨_, _, rfl⟩ | ⟨_, kept⟩
      · rw [StorageEngine.nextEntry_version]
        exact Nat.le_add_left 1 _
      · exact counted.positive query entry kept
    · intro query last lastSet
      simp only at lastSet
      split at lastSet
      · next same =>
          cases lastSet
          refine ⟨same ▸ empty, ?_⟩
          rw [StorageEngine.nextEntry_version]
          cases found : state.engine.store.get? key with
          | none => simp [InsertionMap.contains, found]
          | some existing =>
              have positive := counted.positive key existing found
              simp only [InsertionMap.contains, found, Option.isSome_some, if_true,
                Option.map_some, Option.getD_some]
              omega
      · exact counted.told query last lastSet
    · intro query last entry lastSet stored
      simp only at lastSet
      rcases StorageEngine.afterSet_stored stored with ⟨_, rfl, rfl⟩ | ⟨other, kept⟩
      · rw [if_pos rfl] at lastSet
        cases lastSet
        rfl
      · rw [if_neg (other.resolve_left empty)] at lastSet
        exact counted.current query last entry lastSet kept

/-- A recovery stores every entry at the first version. -/
theorem recover_version {engine : StorageEngine Value Hook} {nodeId : String}
    {now : Millis} {restored : Except FlowCacheError (Option (SnapshotPayload Value))}
    (distinct : ∀ payload, restored = .ok (some payload) →
      (payload.entries.map CacheEntry.key).Nodup) :
    ∀ key entry, (engine.recover nodeId now restored).2.store.get? key = some entry →
      entry.key = key ∧ entry.metadata.version = 1 := by
  rw [StorageEngine.recover_engine]
  split
  · next payload =>
      refine StorageEngine.restoreEntries_induction_of_distinct
        (fun current => ∀ key entry, current.store.get? key = some entry →
          entry.key = key ∧ entry.metadata.version = 1)
        (distinct payload rfl) ?_ (fun _ _ => rfl) ?_
      · intro current restored _ absent first key entry stored
        rcases StorageEngine.afterSet_stored stored with ⟨_, rfl, rfl⟩ | ⟨_, kept⟩
        · refine ⟨rfl, ?_⟩
          rw [StorageEngine.nextEntry_version, absent]
          rfl
        · exact first key entry kept
      · intro key entry impossible
        cases impossible
  · intro key entry impossible
    cases impossible
  · intro key entry impossible
    cases impossible

theorem Counted.recover {state : VersionedNode Value Hook} (counted : state.Counted)
    (now : Millis) (failure : Option FlowCacheError) :
    (state.step (.recover now failure)).Counted := by
  have first : ∀ key entry,
      (state.step (.recover now failure)).engine.store.get? key = some entry →
      entry.key = key ∧ entry.metadata.version = 1 := by
    apply recover_version
    intro payload restored
    cases failure with
    | some error => cases restored
    | none => exact counted.distinct payload (Except.ok.inj restored)
  refine ⟨?_, ?_, counted.distinct, ?_, ?_⟩
  · exact fun key entry stored => (first key entry stored).1
  · exact fun key entry stored => (first key entry stored).2.ge
  · intro key last lastSet
    obtain ⟨before, wasSet, rfl⟩ := Option.map_eq_some_iff.mp lastSet
    exact counted.told key before wasSet
  · intro key last entry lastSet stored
    obtain ⟨before, wasSet, rfl⟩ := Option.map_eq_some_iff.mp lastSet
    exact (first key entry stored).2

theorem Counted.step {state : VersionedNode Value Hook} (counted : state.Counted)
    (action : VersionedAction Value) : (state.step action).Counted := by
  cases action with
  | set now key value options => exact counted.set now key value options
  | get now key => exact counted.of_stored fun _ _ => StorageEngine.get_stored
  | has now key =>
      apply counted.of_stored
      intro query after stored
      exact ⟨after, StorageEngine.has_stored stored, rfl, rfl, rfl, rfl⟩
  | delete key =>
      apply counted.of_stored
      intro query after stored
      rw [StorageEngine.delete_get?] at stored
      split at stored
      · cases stored
      · exact ⟨after, stored, rfl, rfl, rfl, rfl⟩
  | sweepExpired now =>
      apply counted.of_stored
      intro query after stored
      exact ⟨after, StorageEngine.sweepExpired_stored stored, rfl, rfl, rfl, rfl⟩
  | takeSnapshot metadata => exact counted.takeSnapshot metadata
  | recover now failure => exact counted.recover now failure

/-- Where the counters stand as they should, a version grows exactly when its key was
kept. -/
theorem Counted.versionGrows_iff {state : VersionedNode Value Hook}
    (counted : state.Counted) (action : VersionedAction Value) :
    state.VersionGrows action ↔ state.SetsKeptKey action := by
  cases action with
  | set now key value options =>
      by_cases empty : key = ""
      · subst empty
        have never : ∀ last, state.lastSet "" ≠ some last :=
          fun last lastSet => (counted.told "" last lastSet).1 rfl
        simp only [VersionGrows, SetsKeptKey, StorageEngine.set, if_true, true_iff]
        exact fun last lastSet => (never last lastSet).elim
      · simp only [VersionGrows, SetsKeptKey, StorageEngine.set, empty, if_false,
          StorageEngine.nextEntry_version]
        apply forall₂_congr
        intro last lastSet
        have told := (counted.told key last lastSet).2
        cases found : state.engine.store.get? key with
        | none =>
            simp only [InsertionMap.contains, found, Option.isSome_none, Option.map_none,
              Option.getD_none, Bool.false_eq_true, false_and, iff_false]
            split at told <;> omega
        | some entry =>
            have current := counted.current key last entry lastSet found
            simp only [InsertionMap.contains, found, Option.isSome_some, Option.map_some,
              Option.getD_some, true_and, current]
            cases recovered : last.recovered with
            | false => simp
            | true =>
                cases foundStored : last.foundStored with
                | false => simp_all
                | true =>
                    simp only [foundStored, if_true] at told
                    simp only [if_true, Bool.true_eq_false, imp_false, not_true, iff_false]
                    omega
  | get now key => exact Iff.rfl
  | has now key => exact Iff.rfl
  | delete key => exact Iff.rfl
  | sweepExpired now => exact Iff.rfl
  | takeSnapshot metadata => exact Iff.rfl
  | recover now failure => exact Iff.rfl

/-- In every run, with any hook and any caps, the versions returned by the successive
sets of each key are strictly increasing exactly when every key that is set again is
still stored and, if a recovery has run since its last `set`, that `set` found no
stored entry. -/
theorem versions_increase_iff (nodeId : String) (options : StorageEngineOptions)
    (hook : Hook) (actions : List (VersionedAction Value)) :
    EveryStep step VersionGrows (start nodeId options hook : VersionedNode Value Hook)
        actions ↔
      EveryStep step SetsKeptKey (start nodeId options hook : VersionedNode Value Hook)
        actions := by
  apply @everyStep_iff _ _ step _ _ (fun _ _ => True) Counted
  · exact fun state action counted _ _ => counted.step action
  · exact fun state action counted _ => counted.versionGrows_iff action
  · exact counted_start nodeId options hook
  · exact everyStep_of_forall (fun _ _ => trivial) _ _

/-- A client that deletes a key and sets it again is told the same version twice. -/
theorem version_restarts_after_delete :
    let node : VersionedNode Nat FifoEvictionHook :=
      start "node-1" .default ⟨⟩
    let first := node.step (.set 0 "a" 1 ⟨none⟩)
    let second := run step first [.delete "a", .set 1 "a" 2 ⟨none⟩]
    (first.lastSet "a").map LastSet.version = some 1 ∧
      (second.lastSet "a").map LastSet.version = some 1 ∧
      ¬ EveryStep step VersionGrows node
        [.set 0 "a" 1 ⟨none⟩, .delete "a", .set 1 "a" 2 ⟨none⟩] := by
  refine ⟨by decide +kernel, by decide +kernel, ?_⟩
  rintro ⟨_, _, grows, _⟩
  exact absurd (grows _ rfl) (by decide +kernel)

end VersionedNode

end FlowCache
