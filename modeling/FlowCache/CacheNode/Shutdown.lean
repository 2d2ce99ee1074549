import FlowCache.CacheNode.Requests
import FlowCache.Library.Transition
import FlowCache.Snapshot.Manager

/-!
# Shutting a node down

`CacheNodeServer.stop()` stops the snapshot timer, takes a final snapshot through
the same lock as the periodic ones, only logs its failure, and then disposes of the
worker pool, which rejects a snapshot that is still being serialized.  The HTTP
server is closed last, so requests are served until then.
-/

namespace FlowCache

open Transition

variable {Value Bytes Hook : Type}

/-- Where `stop()` stands. -/
inductive Lifecycle where
  | running
  | finalizing
  | draining
  | closing
  | stopped
  deriving DecidableEq, Repr

/-- A node with its snapshot manager, and the entries that were live when `stop()`
was called. -/
structure ClosingNode (Value Bytes Hook : Type) where
  node : Node Value Hook
  manager : SnapshotManager Value Bytes
  lifecycle : Lifecycle
  owed : List (CacheEntry Value)

/-- What can happen on the node: requests, the snapshot timer, the next operation of
the running snapshot, and the steps of `stop()`. -/
inductive ClosingAction (Value : Type) where
  | serve (request : Request Value)
  | timer
  | advance (snapshotId : String)
  | stop
  | disposePool
  | finishStop

/-- Reject the serialization of a running snapshot. -/
def SnapshotManager.disposePool (manager : SnapshotManager Value Bytes) :
    SnapshotManager Value Bytes :=
  match manager.progress with
  | some (.serializing _ _) => manager.abandon
  | _ => manager

namespace ClosingNode

/-- The entries that have not expired. -/
def liveEntries (state : ClosingNode Value Bytes Hook) : List (CacheEntry Value) :=
  state.node.engine.entries.filter fun entry =>
    !entry.metadata.isExpired state.node.clock

variable (codec : SnapshotCodec Value Bytes) (config : SnapshotConfig)

/-- Every entry that was live when `stop()` was called is in the snapshot that the
latest pointer names. -/
def Contained (state : ClosingNode Value Bytes Hook) : Prop :=
  ∀ entry ∈ state.owed, ∃ payload,
    state.manager.store.restoreLatest codec config.nodeId = .ok (some payload) ∧
      entry ∈ payload.entries

variable [EvictionHook Hook] [SizedValue Value]

/-- One action. -/
def step (state : ClosingNode Value Bytes Hook) :
    ClosingAction Value → ClosingNode Value Bytes Hook
  | .serve request =>
      match state.lifecycle with
      | .stopped => state
      | .running | .finalizing | .draining | .closing =>
          { state with node := state.node.serve request }
  | .timer =>
      match state.lifecycle with
      | .running =>
          match state.manager.beginSnapshot config state.node.clock
              state.node.engine.entries with
          | .ok manager => { state with manager := manager }
          | .error _ => state
      | .finalizing | .draining | .closing | .stopped => state
  | .advance snapshotId =>
      let manager := state.manager.advance codec config snapshotId state.node.clock
      { state with
        manager := manager
        lifecycle :=
          match state.lifecycle, manager.progress with
          | .finalizing, none => .draining
          | lifecycle, _ => lifecycle }
  | .stop =>
      match state.lifecycle with
      | .running =>
          match state.manager.beginSnapshot config state.node.clock
              state.node.engine.entries with
          | .ok manager =>
              { state with
                manager := manager
                lifecycle := .finalizing
                owed := state.liveEntries }
          | .error _ =>
              { state with lifecycle := .draining, owed := state.liveEntries }
      | .finalizing | .draining | .closing | .stopped => state
  | .disposePool =>
      match state.lifecycle with
      | .draining =>
          { state with manager := state.manager.disposePool, lifecycle := .closing }
      | .running | .finalizing | .closing | .stopped => state
  | .finishStop =>
      match state.lifecycle with
      | .closing =>
          { state with
            node := { state.node with engine := state.node.engine.clear }
            lifecycle := .stopped }
      | .running | .finalizing | .draining | .stopped => state

/-- When `stop()` finishes, nothing that was owed is missing. -/
def LosesNothing (state : ClosingNode Value Bytes Hook) :
    ClosingAction Value → Prop
  | .finishStop =>
      match state.lifecycle with
      | .closing => (state.step codec config .finishStop).Contained codec config
      | .running | .finalizing | .draining | .stopped => True
  | .serve _ | .timer | .advance _ | .stop | .disposePool => True

/-- `stop()` is called while no snapshot is running, and fewer than `maxRetained`
stored snapshots carry that time or a later one. -/
def Idle (state : ClosingNode Value Bytes Hook) : ClosingAction Value → Prop
  | .stop =>
      match state.lifecycle with
      | .running => state.manager.progress.isNone ∧
          state.manager.store.countSince state.node.clock < config.maxRetained
      | .finalizing | .draining | .closing | .stopped => True
  | .serve _ | .timer | .advance _ | .disposePool | .finishStop => True

/-! ## The final snapshot -/

end ClosingNode

/-- The store holds a snapshot of at least the given entries under this metadata. -/
def SnapshotStore.Carries (store : SnapshotStore Bytes)
    (codec : SnapshotCodec Value Bytes) (owed : List (CacheEntry Value))
    (metadata : SnapshotMetadata) : Prop :=
  ∃ entries, owed ⊆ entries ∧
    store.data.get? metadata.snapshotId =
      some ⟨metadata, codec.serialize entries metadata.compressed⟩ ∧
    metadata.checksum = codec.sha256 (codec.serialize entries metadata.compressed)

/-- The latest pointer names a snapshot of at least the given entries. -/
def SnapshotStore.LatestCarries (store : SnapshotStore Bytes)
    (codec : SnapshotCodec Value Bytes) (owed : List (CacheEntry Value)) : Prop :=
  ∃ metadata, store.latest = some metadata ∧ store.Carries codec owed metadata

/-- What a running snapshot that captured at least the given entries guarantees at
each of its waiting points. -/
def SnapshotProgress.Captures (codec : SnapshotCodec Value Bytes)
    (config : SnapshotConfig) (owed : List (CacheEntry Value))
    (store : SnapshotStore Bytes) : SnapshotProgress Value Bytes → Prop
  | .serializing startedAt entries =>
      owed ⊆ entries ∧ store.countSince startedAt < config.maxRetained
  | .writing metadata buffer =>
      ∃ entries, owed ⊆ entries ∧
        buffer = codec.serialize entries metadata.compressed ∧
        metadata.checksum = codec.sha256 buffer ∧
        store.countSince metadata.createdAt < config.maxRetained
  | .pointing metadata =>
      store.Carries codec owed metadata ∧
        ∀ old ∈ (store.list config.order).drop config.maxRetained,
          old.snapshotId ≠ metadata.snapshotId
  | .listing metadata =>
      store.latest = some metadata ∧ store.Carries codec owed metadata ∧
        ∀ old ∈ (store.list config.order).drop config.maxRetained,
          old.snapshotId ≠ metadata.snapshotId
  | .deleting metadata remaining =>
      store.latest = some metadata ∧ store.Carries codec owed metadata ∧
        ∀ old ∈ remaining, old.snapshotId ≠ metadata.snapshotId

/-- The same for a manager; a snapshot that is no longer running has returned. -/
def SnapshotManager.Captures (codec : SnapshotCodec Value Bytes)
    (config : SnapshotConfig) (owed : List (CacheEntry Value))
    (manager : SnapshotManager Value Bytes) : Prop :=
  match manager.progress with
  | some progress => progress.Captures codec config owed manager.store
  | none => manager.store.LatestCarries codec owed

variable {codec : SnapshotCodec Value Bytes} {config : SnapshotConfig}
  {owed : List (CacheEntry Value)}

theorem SnapshotStore.Carries.delete {store : SnapshotStore Bytes}
    {metadata : SnapshotMetadata} {removed : String}
    (carries : store.Carries codec owed metadata)
    (other : removed ≠ metadata.snapshotId) :
    (store.delete removed).Carries codec owed metadata := by
  obtain ⟨entries, contained, stored, checksum⟩ := carries
  refine ⟨entries, contained, ?_, checksum⟩
  rw [SnapshotStore.delete_get?, if_neg other.symm]
  exact stored

theorem SnapshotStore.Keyed.advance {store : SnapshotStore Bytes} (keyed : store.Keyed)
    (progress : SnapshotProgress Value Bytes) (snapshotId : String) (now : Millis) :
    (progress.advance codec config snapshotId now store).1.Keyed := by
  fun_cases SnapshotProgress.advance codec config snapshotId now store progress with
  | case1 startedAt entries => exact keyed
  | case2 metadata buffer => exact keyed.write buffer metadata
  | case3 metadata => exact keyed
  | case4 metadata within => exact keyed
  | case5 metadata exceeding => exact keyed
  | case6 metadata => exact keyed
  | case7 metadata last => exact keyed.delete last.snapshotId
  | case8 metadata next rest => exact keyed.delete next.snapshotId

/-- The next operation of a snapshot keeps what it captured. -/
theorem SnapshotProgress.Captures.advance {store : SnapshotStore Bytes}
    {progress : SnapshotProgress Value Bytes} (keyed : store.Keyed)
    (captures : progress.Captures codec config owed store) (snapshotId : String)
    (now : Millis) :
    SnapshotManager.Captures codec config owed
      ⟨(progress.advance codec config snapshotId now store).1,
        (progress.advance codec config snapshotId now store).2⟩ := by
  cases progress with
  | serializing startedAt entries =>
      exact ⟨entries, captures.1, rfl, rfl, captures.2⟩
  | writing metadata buffer =>
      obtain ⟨entries, contained, serialized, checksum, room⟩ := captures
      constructor
      · refine ⟨entries, contained, ?_, serialized ▸ checksum⟩
        simp [SnapshotProgress.advance, SnapshotStore.write, serialized]
      · exact keyed.spared buffer config.order room
  | pointing metadata => exact ⟨rfl, captures.1, captures.2⟩
  | listing metadata =>
      obtain ⟨latest, carries, spared⟩ := captures
      simp only [SnapshotProgress.advance]
      split
      · exact ⟨metadata, latest, carries⟩
      · exact ⟨latest, carries, spared⟩
  | deleting metadata remaining =>
      obtain ⟨latest, carries, spared⟩ := captures
      cases remaining with
      | nil => exact ⟨metadata, latest, carries⟩
      | cons next rest =>
          have left := carries.delete (spared next (.head _))
          cases rest with
          | nil => exact ⟨metadata, latest, left⟩
          | cons second rest =>
              refine ⟨latest, left, ?_⟩
              intro old member
              exact spared old (.tail _ member)

theorem SnapshotManager.Captures.advance {manager : SnapshotManager Value Bytes}
    (keyed : manager.store.Keyed) (captures : manager.Captures codec config owed)
    (snapshotId : String) (now : Millis) :
    (manager.advance codec config snapshotId now).Captures codec config owed := by
  rw [SnapshotManager.advance]
  split
  · exact captures
  · next progress running =>
      rw [SnapshotManager.Captures, running] at captures
      exact SnapshotProgress.Captures.advance keyed captures snapshotId now

theorem SnapshotManager.keyed_advance {manager : SnapshotManager Value Bytes}
    (keyed : manager.store.Keyed) (snapshotId : String) (now : Millis) :
    (manager.advance codec config snapshotId now).store.Keyed := by
  rw [SnapshotManager.advance]
  split
  · exact keyed
  · next progress running => exact keyed.advance progress snapshotId now

namespace ClosingNode

/-- The final snapshot is on its way, and has returned before the pool is disposed. -/
structure Finalized (codec : SnapshotCodec Value Bytes) (config : SnapshotConfig)
    (state : ClosingNode Value Bytes Hook) : Prop where
  keyed : state.manager.store.Keyed
  captures : state.lifecycle ≠ .running →
    state.manager.Captures codec config state.owed
  returned : state.lifecycle ≠ .running → state.lifecycle ≠ .finalizing →
    state.manager.progress = none

theorem Finalized.advance {state : ClosingNode Value Bytes Hook} [EvictionHook Hook]
    [SizedValue Value] (finalized : state.Finalized codec config) (snapshotId : String) :
    (state.step codec config (.advance snapshotId)).Finalized codec config := by
  constructor
  · exact SnapshotManager.keyed_advance finalized.keyed snapshotId state.node.clock
  · intro stopping
    apply SnapshotManager.Captures.advance finalized.keyed
    apply finalized.captures
    intro running
    apply stopping
    simp [step, running]
  · intro stopping ended
    cases lifecycle : state.lifecycle with
    | running => simp [step, lifecycle] at stopping
    | finalizing =>
        simp only [step, lifecycle] at ended ⊢
        split at ended
        · next returned => exact returned
        · exact (ended rfl).elim
    | draining | closing | stopped =>
        have settled : state.manager.progress = none :=
          finalized.returned (by simp [lifecycle]) (by simp [lifecycle])
        simp [step, SnapshotManager.advance, settled]

theorem Finalized.stop {state : ClosingNode Value Bytes Hook} [EvictionHook Hook]
    [SizedValue Value] (finalized : state.Finalized codec config)
    (idle : state.Idle config .stop) :
    (state.step codec config .stop).Finalized codec config := by
  cases lifecycle : state.lifecycle with
  | running =>
      simp only [Idle, lifecycle] at idle
      have free : state.manager.progress = none := by simpa using idle.1
      have started : state.step codec config .stop =
          { state with
            manager := ⟨state.manager.store,
              some (.serializing state.node.clock state.node.engine.entries)⟩
            lifecycle := .finalizing
            owed := state.liveEntries } := by
        simp [step, lifecycle, SnapshotManager.beginSnapshot, free]
      rw [started]
      constructor
      · exact finalized.keyed
      · intro _
        exact ⟨List.filter_subset_self _, idle.2⟩
      · intro _ ended
        exact (ended rfl).elim
  | finalizing | draining | closing | stopped =>
      simpa [step, lifecycle] using finalized

/-- Every action keeps the final snapshot on its way. -/
theorem Finalized.step {state : ClosingNode Value Bytes Hook} [EvictionHook Hook]
    [SizedValue Value] (finalized : state.Finalized codec config)
    {action : ClosingAction Value} (idle : state.Idle config action) :
    (state.step codec config action).Finalized codec config := by
  cases action with
  | serve request =>
      simp only [ClosingNode.step]
      split
      · exact finalized
      all_goals exact ⟨finalized.keyed, finalized.captures, finalized.returned⟩
  | timer =>
      cases lifecycle : state.lifecycle with
      | running =>
          simp only [ClosingNode.step, lifecycle]
          cases free : state.manager.progress with
          | none =>
              simp only [SnapshotManager.beginSnapshot, free]
              exact ⟨finalized.keyed, fun stopping => (stopping rfl).elim,
                fun stopping => (stopping rfl).elim⟩
          | some progress => simpa only [SnapshotManager.beginSnapshot, free] using finalized
      | finalizing | draining | closing | stopped =>
          simpa only [ClosingNode.step, lifecycle] using finalized
  | advance snapshotId => exact finalized.advance snapshotId
  | stop => exact finalized.stop idle
  | disposePool =>
      cases lifecycle : state.lifecycle with
      | draining =>
          have returned : state.manager.progress = none :=
            finalized.returned (by simp [lifecycle]) (by simp [lifecycle])
          have captures := finalized.captures (by simp [lifecycle])
          simp only [ClosingNode.step, lifecycle, SnapshotManager.disposePool, returned]
          exact ⟨finalized.keyed, fun _ => captures, fun _ _ => returned⟩
      | running | finalizing | closing | stopped =>
          simpa only [ClosingNode.step, lifecycle] using finalized
  | finishStop =>
      cases lifecycle : state.lifecycle with
      | closing =>
          simp only [ClosingNode.step, lifecycle]
          exact ⟨finalized.keyed, fun _ => finalized.captures (by simp [lifecycle]),
            fun _ _ => finalized.returned (by simp [lifecycle]) (by simp [lifecycle])⟩
      | running | finalizing | draining | stopped =>
          simpa only [ClosingNode.step, lifecycle] using finalized

/-- Once the final snapshot has returned, the latest pointer names all of it. -/
theorem Finalized.contained {state : ClosingNode Value Bytes Hook}
    (finalized : state.Finalized codec config) (lifecycle : state.lifecycle = .stopped) :
    state.Contained codec config := by
  have captures := finalized.captures (by simp [lifecycle])
  rw [SnapshotManager.Captures,
    finalized.returned (by simp [lifecycle]) (by simp [lifecycle])] at captures
  obtain ⟨metadata, latest, entries, contained, stored, checksum⟩ := captures
  intro entry member
  exact ⟨⟨metadata, entries⟩,
    SnapshotStore.restoreLatest_of_serialized codec config.nodeId latest stored checksum,
    contained member⟩

theorem Finalized.losesNothing {state : ClosingNode Value Bytes Hook} [EvictionHook Hook]
    [SizedValue Value] (finalized : state.Finalized codec config)
    {action : ClosingAction Value} (idle : state.Idle config action) :
    state.LosesNothing codec config action := by
  cases action with
  | finishStop =>
      cases lifecycle : state.lifecycle with
      | closing =>
          simp only [LosesNothing, lifecycle]
          apply (finalized.step idle).contained
          simp [ClosingNode.step, lifecycle]
      | running | finalizing | draining | stopped =>
          simp only [LosesNothing, lifecycle]
  | serve request => trivial
  | timer => trivial
  | advance snapshotId => trivial
  | stop => trivial
  | disposePool => trivial

/-- For every node, every store and every interleaving, a shutdown that is started
while no snapshot is running loses none of the entries that were live when it was
started. -/
theorem losesNothing_when_idle [EvictionHook Hook] [SizedValue Value]
    {state : ClosingNode Value Bytes Hook} {actions : List (ClosingAction Value)}
    (keyed : state.manager.store.Keyed) (running : state.lifecycle = .running)
    (idle : EveryStep (step codec config) (Idle config) state actions) :
    EveryStep (step codec config) (LosesNothing codec config) state actions := by
  have initial : state.Finalized codec config :=
    ⟨keyed, fun stopping => (stopping running).elim, fun stopping => (stopping running).elim⟩
  refine idle.of_invariant ?_ ?_ initial
  · intro state action finalized met
    exact finalized.step met
  · intro state action finalized met
    exact finalized.losesNothing met

/-! ## Shutting down between and during snapshots -/

/-- Two retained snapshots in an in-memory store. -/
def keepTwo : SnapshotConfig := ⟨"node-1", false, 2, .insertion⟩

/-- A node that has just started with an empty store. -/
def justStarted : ClosingNode Nat (List (CacheEntry Nat)) FifoEvictionHook :=
  ⟨.start "node-1" .default ⟨⟩ 0, ⟨.empty, none⟩, .running, []⟩

/-- The serialization and the store operations of one snapshot. -/
def snapshotSteps (snapshotId : String) : List (ClosingAction Nat) :=
  [.advance snapshotId, .advance snapshotId, .advance snapshotId, .advance snapshotId]

/-- A PUT before and after a periodic snapshot, and then a shutdown. -/
def quietShutdown : List (ClosingAction Nat) :=
  [.serve (.put ⟨some "j", some 1, .absent⟩), .timer] ++ snapshotSteps "snap_1" ++
    [.serve (.tick 1), .serve (.put ⟨some "k", some 2, .absent⟩), .stop] ++
    snapshotSteps "snap_2" ++ [.disposePool, .finishStop]

instance : (state : ClosingNode Value Bytes Hook) → (action : ClosingAction Value) →
    Decidable (state.Idle config action)
  | ⟨node, manager, .running, _⟩, .stop =>
      inferInstanceAs (Decidable (manager.progress.isNone ∧
        manager.store.countSince node.clock < config.maxRetained))
  | ⟨_, _, .finalizing, _⟩, .stop | ⟨_, _, .draining, _⟩, .stop
  | ⟨_, _, .closing, _⟩, .stop | ⟨_, _, .stopped, _⟩, .stop => .isTrue trivial
  | _, .serve _ | _, .timer | _, .advance _ | _, .disposePool | _, .finishStop =>
      .isTrue trivial

theorem quietShutdown_losesNothing :
    (run (step entryCodec keepTwo) justStarted quietShutdown).lifecycle = .stopped ∧
      (run (step entryCodec keepTwo) justStarted quietShutdown).owed.map
        CacheEntry.key = ["j", "k"] ∧
      EveryStep (step entryCodec keepTwo) (LosesNothing entryCodec keepTwo) justStarted
        quietShutdown := by
  refine ⟨by decide +kernel, by decide +kernel, ?_⟩
  apply losesNothing_when_idle
  · intro snapshotId stored found
    cases found
  · rfl
  · decide +kernel

/-- `"k"` is written while a periodic snapshot is being serialized, and then the node
is stopped. -/
def racedShutdown : List (ClosingAction Nat) :=
  [.timer, .serve (.put ⟨some "k", some 2, .absent⟩), .stop, .disposePool]

/-- The node when only the HTTP server is left to close. -/
def racedClosing : ClosingNode Nat (List (CacheEntry Nat)) FifoEvictionHook :=
  run (step entryCodec keepTwo) justStarted racedShutdown

theorem racedShutdown_loses :
    ((justStarted.step entryCodec keepTwo .timer).node.acknowledged
        (.put ⟨some "k", some 2, .absent⟩)).map (fun entry => (entry.key, entry.value)) =
          some ("k", 2) ∧
      racedClosing.owed.map CacheEntry.key = ["k"] ∧
      (racedClosing.step entryCodec keepTwo .finishStop).manager.store.latest = none ∧
      ¬EveryStep (step entryCodec keepTwo) (LosesNothing entryCodec keepTwo) justStarted
        (racedShutdown ++ [.finishStop]) := by
  have owed : racedClosing.owed.map CacheEntry.key = ["k"] := by
    decide +kernel
  have latest :
      (racedClosing.step entryCodec keepTwo .finishStop).manager.store.latest = none := by
    decide +kernel
  refine ⟨by decide +kernel, owed, latest, ?_⟩
  intro every
  have last : (racedClosing.step entryCodec keepTwo .finishStop).Contained entryCodec
      keepTwo :=
    ((everyStep_append _ racedShutdown _).mp every).2.1
  obtain ⟨entry, member, _⟩ := List.mem_map.mp (owed ▸ List.mem_singleton_self "k")
  obtain ⟨payload, restored, _⟩ := last entry member
  simp [SnapshotStore.restoreLatest, latest] at restored

end ClosingNode

end FlowCache
