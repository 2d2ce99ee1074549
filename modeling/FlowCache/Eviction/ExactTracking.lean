import FlowCache.Eviction.Capacity

/-!
# Policies that track exactly the stored keys

Every removal of an entry tells the hook except `clear`, which drops all entries at
once.  So the keys the active policy keeps in its structures are the stored keys along
every run in which `clear` is called only on an empty store, and along no other run.
-/

namespace FlowCache

open Transition

variable {Value : Type}

/-- A hook with all the keys its structures mention; a well-formed hook starts to
mention a key when it is written or read and stops when it is removed. -/
class ExactHook (Hook : Type) [EvictionHook Hook] where
  Mentions : Hook → CacheKey → Prop
  WellFormed : Hook → Prop
  recordAccess_wellFormed : ∀ {hook : Hook} (key : CacheKey), WellFormed hook →
    WellFormed (EvictionHook.recordAccess hook key)
  recordWrite_wellFormed : ∀ {hook : Hook} (key : CacheKey), WellFormed hook →
    WellFormed (EvictionHook.recordWrite hook key)
  recordRemoval_wellFormed : ∀ {hook : Hook} (key : CacheKey), WellFormed hook →
    WellFormed (EvictionHook.recordRemoval hook key)
  onStorageEvent_wellFormed : ∀ {hook : Hook} (event : StorageEngineEvent)
    (key : CacheKey), WellFormed hook →
    WellFormed (EvictionHook.onStorageEvent hook event key)
  mentions_recordAccess : ∀ {hook : Hook} {key query : CacheKey}, WellFormed hook →
    (Mentions (EvictionHook.recordAccess hook key) query ↔
      query = key ∨ Mentions hook query)
  mentions_recordWrite : ∀ {hook : Hook} {key query : CacheKey}, WellFormed hook →
    (Mentions (EvictionHook.recordWrite hook key) query ↔
      query = key ∨ Mentions hook query)
  mentions_recordRemoval : ∀ {hook : Hook} {key query : CacheKey}, WellFormed hook →
    (Mentions (EvictionHook.recordRemoval hook key) query ↔
      query ≠ key ∧ Mentions hook query)
  mentions_onStorageEvent : ∀ {hook : Hook} {event : StorageEngineEvent}
    {key query : CacheKey}, WellFormed hook →
    (Mentions (EvictionHook.onStorageEvent hook event key) query ↔ Mentions hook query)

/-! ## The policies -/

/-- The default hook keeps no keys, so it is not among the hooks considered here. -/
instance : ExactHook FifoEvictionHook where
  Mentions _ _ := False
  WellFormed _ := False
  recordAccess_wellFormed _ := id
  recordWrite_wellFormed _ := id
  recordRemoval_wellFormed _ := id
  onStorageEvent_wellFormed _ _ := id
  mentions_recordAccess impossible := impossible.elim
  mentions_recordWrite impossible := impossible.elim
  mentions_recordRemoval impossible := impossible.elim
  mentions_onStorageEvent impossible := impossible.elim

/-- The nodes of the linked list. -/
instance : ExactHook LruEvictionPolicy where
  Mentions policy key := key ∈ policy.list.nodes.keys
  WellFormed _ := True
  recordAccess_wellFormed _ := id
  recordWrite_wellFormed _ := id
  recordRemoval_wellFormed _ := id
  onStorageEvent_wellFormed _ _ := id
  mentions_recordAccess _ := by
    rw [LruEvictionPolicy.mem_nodes_iff, LruEvictionPolicy.mem_nodes_iff]
    exact LruEvictionPolicy.mem_recency_touch
  mentions_recordWrite _ := by
    rw [LruEvictionPolicy.mem_nodes_iff, LruEvictionPolicy.mem_nodes_iff]
    exact LruEvictionPolicy.mem_recency_touch
  mentions_recordRemoval := by
    intro policy key query _
    rw [LruEvictionPolicy.mem_nodes_iff, LruEvictionPolicy.mem_nodes_iff]
    change query ∈ (policy.recordRemoval key).recency ↔ _
    rw [LruEvictionPolicy.recency_recordRemoval, policy.recency_nodup.mem_erase_iff]
  mentions_onStorageEvent _ := Iff.rfl

/-- A key with a frequency or in a bucket. -/
def LfuEvictionPolicy.Mentions (policy : LfuEvictionPolicy) (key : CacheKey) : Prop :=
  key ∈ policy.frequency.keys ∨ ∃ freq, LfuEvictionPolicy.InBucket policy.buckets freq key

theorem LfuEvictionPolicy.Consistent.mentions_iff {policy : LfuEvictionPolicy}
    (consistent : policy.Consistent) {key : CacheKey} :
    policy.Mentions key ↔ key ∈ policy.frequency.keys := by
  refine ⟨?_, .inl⟩
  rintro (counted | ⟨freq, inside⟩)
  · exact counted
  · exact InsertionMap.mem_keys_of_get? ((consistent.inBucket_iff key freq).mp inside)

/-- The frequencies and the buckets. -/
instance : ExactHook LfuEvictionPolicy where
  Mentions := LfuEvictionPolicy.Mentions
  WellFormed := LfuEvictionPolicy.Consistent
  recordAccess_wellFormed key consistent := consistent.bump key
  recordWrite_wellFormed key consistent := consistent.recordWrite key
  recordRemoval_wellFormed key consistent := consistent.recordRemoval key
  onStorageEvent_wellFormed _ _ := id
  mentions_recordAccess := by
    intro policy key query consistent
    change (policy.bump key).Mentions query ↔ query = key ∨ policy.Mentions query
    rw [(consistent.bump key).mentions_iff, consistent.mentions_iff]
    exact LfuEvictionPolicy.mem_frequency_bump
  mentions_recordWrite := by
    intro policy key query consistent
    change (policy.recordWrite key).Mentions query ↔ query = key ∨ policy.Mentions query
    rw [(consistent.recordWrite key).mentions_iff, consistent.mentions_iff]
    exact LfuEvictionPolicy.mem_frequency_recordWrite
  mentions_recordRemoval := by
    intro policy key query consistent
    change (policy.recordRemoval key).Mentions query ↔ query ≠ key ∧ policy.Mentions query
    rw [(consistent.recordRemoval key).mentions_iff, consistent.mentions_iff]
    exact LfuEvictionPolicy.mem_frequency_recordRemoval
  mentions_onStorageEvent _ := Iff.rfl

/-- The nodes of the recency list; the sketch counts keys without naming them. -/
instance : ExactHook TinyLfuEvictionPolicy where
  Mentions policy key := ExactHook.Mentions policy.recency key
  WellFormed _ := True
  recordAccess_wellFormed _ := id
  recordWrite_wellFormed _ := id
  recordRemoval_wellFormed _ := id
  onStorageEvent_wellFormed _ _ := id
  mentions_recordAccess := by
    intro policy key query _
    exact @ExactHook.mentions_recordAccess LruEvictionPolicy _ _ policy.recency key query
      trivial
  mentions_recordWrite := by
    intro policy key query _
    exact @ExactHook.mentions_recordWrite LruEvictionPolicy _ _ policy.recency key query
      trivial
  mentions_recordRemoval := by
    intro policy key query _
    exact @ExactHook.mentions_recordRemoval LruEvictionPolicy _ _ policy.recency key query
      trivial
  mentions_onStorageEvent _ := Iff.rfl

section OneOfTwo

variable {Left Right : Type} [EvictionHook Left] [EvictionHook Right]
variable [ExactHook Left] [ExactHook Right]

instance : ExactHook (Left ⊕ Right) where
  Mentions
    | .inl hook, key => ExactHook.Mentions hook key
    | .inr hook, key => ExactHook.Mentions hook key
  WellFormed
    | .inl hook => ExactHook.WellFormed hook
    | .inr hook => ExactHook.WellFormed hook
  recordAccess_wellFormed {hook} key wellFormed :=
    match hook, wellFormed with
    | .inl _, wellFormed => ExactHook.recordAccess_wellFormed key wellFormed
    | .inr _, wellFormed => ExactHook.recordAccess_wellFormed key wellFormed
  recordWrite_wellFormed {hook} key wellFormed :=
    match hook, wellFormed with
    | .inl _, wellFormed => ExactHook.recordWrite_wellFormed key wellFormed
    | .inr _, wellFormed => ExactHook.recordWrite_wellFormed key wellFormed
  recordRemoval_wellFormed {hook} key wellFormed :=
    match hook, wellFormed with
    | .inl _, wellFormed => ExactHook.recordRemoval_wellFormed key wellFormed
    | .inr _, wellFormed => ExactHook.recordRemoval_wellFormed key wellFormed
  onStorageEvent_wellFormed {hook} event key wellFormed :=
    match hook, wellFormed with
    | .inl _, wellFormed => ExactHook.onStorageEvent_wellFormed event key wellFormed
    | .inr _, wellFormed => ExactHook.onStorageEvent_wellFormed event key wellFormed
  mentions_recordAccess {hook} _ _ wellFormed :=
    match hook, wellFormed with
    | .inl _, wellFormed => ExactHook.mentions_recordAccess wellFormed
    | .inr _, wellFormed => ExactHook.mentions_recordAccess wellFormed
  mentions_recordWrite {hook} _ _ wellFormed :=
    match hook, wellFormed with
    | .inl _, wellFormed => ExactHook.mentions_recordWrite wellFormed
    | .inr _, wellFormed => ExactHook.mentions_recordWrite wellFormed
  mentions_recordRemoval {hook} _ _ wellFormed :=
    match hook, wellFormed with
    | .inl _, wellFormed => ExactHook.mentions_recordRemoval wellFormed
    | .inr _, wellFormed => ExactHook.mentions_recordRemoval wellFormed
  mentions_onStorageEvent {hook} _ _ _ wellFormed :=
    match hook, wellFormed with
    | .inl _, wellFormed => ExactHook.mentions_onStorageEvent wellFormed
    | .inr _, wellFormed => ExactHook.mentions_onStorageEvent wellFormed

end OneOfTwo

/-- An adaptive engine mentions what its active policy mentions. -/
instance : ExactHook AdaptiveEvictionEngine where
  Mentions engine key := ExactHook.Mentions engine.active key
  WellFormed engine := ExactHook.WellFormed engine.active
  recordAccess_wellFormed key wellFormed :=
    ExactHook.recordAccess_wellFormed key wellFormed
  recordWrite_wellFormed key wellFormed := ExactHook.recordWrite_wellFormed key wellFormed
  recordRemoval_wellFormed key wellFormed :=
    ExactHook.recordRemoval_wellFormed key wellFormed
  onStorageEvent_wellFormed event key wellFormed := by
    rw [AdaptiveEvictionEngine.onStorageEvent_active]
    exact wellFormed
  mentions_recordAccess wellFormed := ExactHook.mentions_recordAccess wellFormed
  mentions_recordWrite wellFormed := ExactHook.mentions_recordWrite wellFormed
  mentions_recordRemoval wellFormed := ExactHook.mentions_recordRemoval wellFormed
  mentions_onStorageEvent _ := by
    rw [AdaptiveEvictionEngine.onStorageEvent_active]

/-! ## Fresh and seeded policies -/

theorem wellFormed_createEvictionPolicy (type : EvictionPolicyType) :
    ExactHook.WellFormed (createEvictionPolicy type) := by
  cases type with
  | lru => trivial
  | lfu => exact LfuEvictionPolicy.bucketed_empty
  | tinyLfu => trivial

theorem not_mentions_createEvictionPolicy (type : EvictionPolicyType) (key : CacheKey) :
    ¬ExactHook.Mentions (createEvictionPolicy type) key := by
  cases type with
  | lru => exact List.not_mem_nil
  | lfu =>
      rintro (impossible | ⟨freq, bucket, impossible, -⟩)
      · cases impossible
      · cases impossible
  | tinyLfu => exact List.not_mem_nil

theorem wellFormed_seed (policy : EvictionPolicy) {entries : List (CacheEntry Value)}
    (nodup : (entries.map CacheEntry.key).Nodup) :
    ExactHook.WellFormed (EvictionPolicy.seed entries policy) := by
  match policy with
  | .inl policy => trivial
  | .inr (.inl policy) => exact policy.consistent_seed nodup
  | .inr (.inr policy) => trivial

/-- A seeded policy mentions the keys it was seeded with and no others. -/
theorem mentions_seed (policy : EvictionPolicy) {entries : List (CacheEntry Value)}
    (nodup : (entries.map CacheEntry.key).Nodup) (key : CacheKey) :
    ExactHook.Mentions (EvictionPolicy.seed entries policy) key ↔
      key ∈ entries.map CacheEntry.key := by
  match policy with
  | .inl policy =>
      exact LruEvictionPolicy.mem_nodes_iff.trans LruEvictionPolicy.mem_recency_seed
  | .inr (.inl policy) =>
      exact (policy.consistent_seed nodup).mentions_iff.trans policy.mem_frequency_seed
  | .inr (.inr policy) =>
      exact LruEvictionPolicy.mem_nodes_iff.trans LruEvictionPolicy.mem_recency_seed

namespace AdaptiveEvictionEngine

/-- A change of an adaptive engine that leaves the active policy alone or replaces it by
one seeded with the entries. -/
def Reseeds (entries : List (CacheEntry Value)) (before after : AdaptiveEvictionEngine) :
    Prop :=
  after.active = before.active ∨
    ∃ policy, after.active = EvictionPolicy.seed entries policy

theorem reseeds_switchTo (engine : AdaptiveEvictionEngine) (now : Millis)
    (entries : List (CacheEntry Value)) (policy : EvictionPolicyType) (reason : String)
    (signals : WorkloadSignals) :
    Reseeds entries engine (engine.switchTo now entries policy reason signals) := by
  unfold switchTo
  split
  · exact .inl rfl
  · exact .inr ⟨createEvictionPolicy policy, rfl⟩

theorem reseeds_forceSwitch (engine : AdaptiveEvictionEngine) (now : Millis)
    (memoryUsageRatio : Rat) (entries : List (CacheEntry Value))
    (policy : EvictionPolicyType) (reason : String) :
    Reseeds entries engine
      (engine.forceSwitch now memoryUsageRatio entries policy reason) :=
  reseeds_switchTo (engine.getSignals memoryUsageRatio).2 ..

theorem reseeds_evaluate (engine : AdaptiveEvictionEngine) (now : Millis)
    (memoryUsageRatio : Rat) (entries : List (CacheEntry Value)) :
    Reseeds entries engine (engine.evaluate now memoryUsageRatio entries) := by
  unfold evaluate
  split
  · dsimp only
    split
    · exact .inl rfl
    · split
      · exact .inl rfl
      · split
        · exact .inl rfl
        · exact reseeds_switchTo (engine.getSignals memoryUsageRatio).2 ..
  · exact .inl rfl

end AdaptiveEvictionEngine

/-! ## One operation -/

namespace StorageEngine

section Operations

variable {Hook : Type} [EvictionHook Hook] [ExactHook Hook]

/-- The keys the hook mentions are the stored ones. -/
def PolicyTracksStore (engine : StorageEngine Value Hook) : Prop :=
  ∀ key, ExactHook.Mentions engine.hook key ↔ key ∈ engine.store.keys

/-- A well-formed hook that mentions the stored keys. -/
structure Exact (engine : StorageEngine Value Hook) : Prop where
  wellFormed : ExactHook.WellFormed engine.hook
  tracks : engine.PolicyTracksStore

theorem Exact.emit {engine : StorageEngine Value Hook} (exact : engine.Exact)
    (event : StorageEngineEvent) (key : CacheKey) : (engine.emit event key).Exact where
  wellFormed := ExactHook.onStorageEvent_wellFormed event key exact.wellFormed
  tracks query := (ExactHook.mentions_onStorageEvent exact.wellFormed).trans
    (exact.tracks query)

theorem Exact.removeInternal {engine : StorageEngine Value Hook} (exact : engine.Exact)
    {key : CacheKey} (stored : key ∈ engine.store.keys) (reason : RemovalReason) :
    (engine.removeInternal key reason).Exact := by
  obtain ⟨entry, found⟩ := InsertionMap.mem_keys_iff.mp stored
  simp only [StorageEngine.removeInternal, found]
  apply Exact.emit
  refine ⟨ExactHook.recordRemoval_wellFormed key exact.wellFormed, fun query => ?_⟩
  rw [ExactHook.mentions_recordRemoval exact.wellFormed, exact.tracks,
    InsertionMap.mem_keys_erase]

theorem Exact.recordHit {engine : StorageEngine Value Hook} (exact : engine.Exact)
    (now : Millis) (key : CacheKey) (entry : CacheEntry Value) :
    (engine.recordHit now key entry).Exact := by
  apply Exact.emit
  refine ⟨ExactHook.recordAccess_wellFormed key exact.wellFormed, fun query => ?_⟩
  rw [ExactHook.mentions_recordAccess exact.wellFormed, exact.tracks,
    InsertionMap.mem_keys_insert]

theorem Exact.writeEntry [SizedValue Value] {engine : StorageEngine Value Hook}
    (exact : engine.Exact) (now : Millis) (key : CacheKey) (value : Value)
    (options : SetOptions) : (engine.writeEntry now key value options).Exact := by
  apply Exact.emit
  refine ⟨ExactHook.recordWrite_wellFormed key exact.wellFormed, fun query => ?_⟩
  rw [ExactHook.mentions_recordWrite exact.wellFormed, exact.tracks,
    InsertionMap.mem_keys_insert]

theorem kept_exact : KeptWithoutWrites (Exact : StorageEngine Value Hook → Prop) where
  miss _ key exact := by
    apply Exact.emit
    exact ⟨exact.wellFormed, exact.tracks⟩
  hit _ now key entry _ exact := exact.recordHit now key entry
  expire _ _ stored exact := exact.removeInternal stored .expire
  delete engine key stored exact := by
    have removed := exact.removeInternal stored .delete
    unfold StorageEngine.delete
    split
    · exact ⟨removed.wellFormed, removed.tracks⟩
    · exact exact
  evict _ _ stored exact :=
    ⟨(exact.removeInternal stored .evict).wellFormed,
      (exact.removeInternal stored .evict).tracks⟩

end Operations

/-! ## Runs -/

/-- A change of an attached adaptive engine keeps it exact: a new policy is seeded with
the stored entries. -/
theorem Exact.changeAdaptive {engine : StorageEngine Value ConfiguredHook}
    (exact : engine.Exact) (keyed : engine.Keyed)
    {change : AdaptiveEvictionEngine → AdaptiveEvictionEngine}
    (reseeds : ∀ adaptive,
      AdaptiveEvictionEngine.Reseeds engine.entries adaptive (change adaptive)) :
    (engine.changeAdaptive change).Exact := by
  have nodup := keyed.nodup_map_key_entries
  unfold StorageEngine.changeAdaptive
  split
  · next adaptive isAdaptive =>
      have wellFormed : ExactHook.WellFormed engine.hook := exact.wellFormed
      have tracks : engine.PolicyTracksStore := exact.tracks
      rw [PolicyTracksStore, isAdaptive] at tracks
      rw [isAdaptive] at wellFormed
      rcases reseeds adaptive with same | ⟨policy, seeded⟩
      · constructor
        · change ExactHook.WellFormed (change adaptive).active
          rw [same]
          exact wellFormed
        · intro key
          change ExactHook.Mentions (change adaptive).active key ↔ _
          rw [same]
          exact tracks key
      · constructor
        · change ExactHook.WellFormed (change adaptive).active
          rw [seeded]
          exact wellFormed_seed policy nodup
        · intro key
          change ExactHook.Mentions (change adaptive).active key ↔ key ∈ engine.store.keys
          rw [seeded, mentions_seed policy nodup, keyed.map_key_entries]
  · exact exact
  · exact exact

/-- `clear` is called only when nothing is stored. -/
def ClearsOnlyEmpty (engine : StorageEngine Value ConfiguredHook) :
    StorageAction Value → Prop
  | .clear => engine.store.size = 0
  | _ => True

theorem eq_clear_or (engine : StorageEngine Value ConfiguredHook)
    (action : StorageAction Value) :
    action = .clear ∨ engine.ClearsOnlyEmpty action := by
  cases action with
  | clear => exact .inl rfl
  | _ => exact .inr trivial

/-- After `clear` the hook mentions the same keys as before. -/
theorem Exact.clear_iff {engine : StorageEngine Value ConfiguredHook}
    (exact : engine.Exact) :
    engine.store.size = 0 ↔ engine.clear.PolicyTracksStore := by
  constructor
  · intro empty key
    have nothing : engine.store.keys = [] :=
      List.eq_nil_of_length_eq_zero (engine.store.keys_length.trans empty)
    have tracked := exact.tracks key
    rw [nothing] at tracked
    exact tracked
  · intro tracked
    rw [← InsertionMap.keys_length, List.length_eq_zero_iff,
      List.eq_nil_iff_forall_not_mem]
    intro key stored
    have forgotten := (tracked key).mp ((exact.tracks key).mpr stored)
    exact List.not_mem_nil forgotten

variable [SizedValue Value]

/-- Every operation but `clear` keeps an engine exact. -/
theorem Exact.perform {engine : StorageEngine Value ConfiguredHook} (exact : engine.Exact)
    (keyed : engine.Keyed) {action : StorageAction Value}
    (cleared : engine.ClearsOnlyEmpty action) : (engine.perform action).Exact := by
  cases action with
  | set now key value options =>
      apply kept_exact.afterSet victimsAreCandidates exact
      intro _
      exact exact.writeEntry now key value options
  | get now key => exact kept_exact.afterGet exact now key
  | has now key => exact kept_exact.afterHas exact now key
  | delete key => exact kept_exact.afterDelete exact key
  | sweepExpired now => exact kept_exact.afterSweepExpired exact now
  | clear => exact ⟨exact.wellFormed, exact.clear_iff.mp cleared⟩
  | evaluate now memoryUsageRatio =>
      apply exact.changeAdaptive keyed
      intro adaptive
      exact adaptive.reseeds_evaluate now memoryUsageRatio engine.entries
  | forceSwitch now memoryUsageRatio policy reason =>
      apply exact.changeAdaptive keyed
      intro adaptive
      exact adaptive.reseeds_forceSwitch now memoryUsageRatio engine.entries policy reason
  | getSignals memoryUsageRatio => exact exact.changeAdaptive keyed fun _ => .inl rfl
  | pauseAutoSwitch => exact exact.changeAdaptive keyed fun _ => .inl rfl
  | resumeAutoSwitch => exact exact.changeAdaptive keyed fun _ => .inl rfl

end StorageEngine

/-- The hook an engine is created with: one policy for good, or an adaptive engine. -/
inductive PolicyChoice where
  | fixed (type : EvictionPolicyType)
  | adaptive (options : AdaptiveEvictionEngineOptions)

/-- The fresh hook. -/
def PolicyChoice.hook : PolicyChoice → ConfiguredHook
  | .fixed type => .inr (.inl (createEvictionPolicy type))
  | .adaptive options => .inr (.inr (.create options))

namespace StorageEngine

theorem exact_create (options : StorageEngineOptions) (choice : PolicyChoice) :
    (create options choice.hook : StorageEngine Value ConfiguredHook).Exact := by
  cases choice with
  | fixed type =>
      refine ⟨wellFormed_createEvictionPolicy type, fun key => ?_⟩
      exact iff_of_false (not_mentions_createEvictionPolicy type key) List.not_mem_nil
  | adaptive adaptiveOptions =>
      refine ⟨wellFormed_createEvictionPolicy adaptiveOptions.initialPolicy, fun key => ?_⟩
      exact iff_of_false (not_mentions_createEvictionPolicy _ key) List.not_mem_nil

/-- The active policy mentions exactly the stored keys in every state of a run if and
only if every `clear` of the run finds an empty store. -/
theorem policyTracksStore_iff [SizedValue Value] (options : StorageEngineOptions)
    (choice : PolicyChoice) (actions : List (StorageAction Value)) :
    EveryStep perform (fun engine action => (engine.perform action).PolicyTracksStore)
        (create options choice.hook) actions ↔
      EveryStep perform ClearsOnlyEmpty (create options choice.hook) actions := by
  symm
  refine @everyStep_iff_goal _ _ perform ClearsOnlyEmpty (fun _ _ => True)
    (fun engine => engine.Settled ∧ ExactHook.WellFormed engine.hook) PolicyTracksStore
    _ actions ?_ ?_ ?_ (exact_create options choice).tracks
    (everyStep_of_forall (fun _ _ => trivial) _ _)
  · rintro engine action ⟨settled, wellFormed⟩ tracks - reached
    refine ⟨settled.perform action, ?_⟩
    have exact : engine.Exact := ⟨wellFormed, tracks⟩
    rcases engine.eq_clear_or action with rfl | harmless
    · exact wellFormed
    · exact (exact.perform settled.keyed harmless).wellFormed
  · rintro engine action ⟨settled, wellFormed⟩ tracks -
    have exact : engine.Exact := ⟨wellFormed, tracks⟩
    rcases engine.eq_clear_or action with rfl | harmless
    · exact exact.clear_iff
    · exact iff_of_true harmless (exact.perform settled.keyed harmless).tracks
  · exact ⟨settled_create options choice.hook, (exact_create options choice).wellFormed⟩

/-- One entry, then `clear`: the LFU policy still has the key, and when the key is written
again its frequency goes on from its earlier life. -/
theorem clear_leaves_policy_behind :
    ¬(reached .default (PolicyChoice.fixed .lfu).hook
        [.set 0 "a" 111 ⟨none⟩, .clear]).PolicyTracksStore ∧
      (match (reached .default (PolicyChoice.fixed .lfu).hook
          [.set 0 "a" 111 ⟨none⟩, .clear, .set 1 "a" 222 ⟨none⟩]).hook with
        | .inr (.inl (.inr (.inl policy))) => policy.frequency.get? "a"
        | _ => none) = some 2 := by
  constructor
  · intro tracks
    have mentioned : ExactHook.Mentions (reached .default (PolicyChoice.fixed .lfu).hook
        [.set 0 "a" 111 ⟨none⟩, .clear]).hook "a" := by
      left
      decide
    exact List.not_mem_nil ((tracks "a").mp mentioned)
  · decide +kernel

end StorageEngine

end FlowCache
