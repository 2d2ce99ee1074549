import FlowCache.CacheNode.Recovery
import FlowCache.CacheNode.Requests
import FlowCache.Library.Transition

/-!
# Background cleanup

`runCleanupSweep` captures the stored entries, lets a worker pick the expired ones,
and deletes their keys when the answer arrives.  Between the capture and the
deletions the node goes on serving requests, and several sweeps may be waiting for
their worker at once.
-/

namespace FlowCache

open Transition

variable {Value Hook : Type}

/-- The `CLEANUP_FIND_EXPIRED` handler. -/
def findExpired (entries : List (CacheEntry Value)) (nowMs : Millis) : List CacheKey :=
  (entries.filter fun entry => entry.metadata.isExpired nowMs).map CacheEntry.key

/-- A node and the answers its waiting sweeps will receive. -/
structure CleaningNode (Value Hook : Type) where
  node : Node Value Hook
  sweeps : List (List CacheKey)

/-- What can happen on a node with background cleanup.  A recovery clears the store
and applies the snapshot's entries after a wait. -/
inductive CleaningAction (Value : Type) where
  | serve (request : Request Value)
  | beginSweep
  | finishSweep (index : Nat)
  | failSweep (index : Nat)
  | clearStorage
  | restore (entries : List (CacheEntry Value))

namespace CleaningNode

/-- A node without waiting sweeps. -/
def start (nodeId : String) (options : StorageEngineOptions) (hook : Hook)
    (clock : Millis) : CleaningNode Value Hook :=
  ⟨.start nodeId options hook clock, []⟩

/-- Every key a waiting sweep is going to delete is missing or expired. -/
structure Settled (state : CleaningNode Value Hook) : Prop where
  keyed : state.node.engine.Keyed
  expired : ∀ keys ∈ state.sweeps, ∀ key ∈ keys, ∀ entry,
    state.node.engine.store.get? key = some entry →
    entry.metadata.isExpired state.node.clock = true

theorem settled_start (nodeId : String) (options : StorageEngineOptions) (hook : Hook)
    (clock : Millis) :
    (start nodeId options hook clock : CleaningNode Value Hook).Settled where
  keyed := StorageEngine.keyed_create options hook
  expired := by
    intro keys member
    cases member

/-- A capture finds exactly the stored keys whose entry has expired. -/
theorem isExpired_of_mem_findExpired {engine : StorageEngine Value Hook}
    (keyed : engine.Keyed) {now : Millis} {key : CacheKey}
    (found : key ∈ findExpired engine.entries now) {entry : CacheEntry Value}
    (stored : engine.store.get? key = some entry) :
    entry.metadata.isExpired now = true := by
  rw [findExpired, List.mem_map] at found
  obtain ⟨captured, member, rfl⟩ := found
  obtain ⟨inStore, expired⟩ := List.mem_filter.mp member
  obtain ⟨key, held⟩ := InsertionMap.mem_values_iff.mp inStore
  rw [keyed key captured held, held] at stored
  cases stored
  exact expired

/-- Forgetting entries and dropping sweeps keeps the rest settled. -/
theorem Settled.of_fewer {state next : CleaningNode Value Hook}
    (settled : state.Settled) (clock : next.node.clock = state.node.clock)
    (sweeps : ∀ keys ∈ next.sweeps, keys ∈ state.sweeps)
    (stored : ∀ key entry, next.node.engine.store.get? key = some entry →
      state.node.engine.store.get? key = some entry) :
    next.Settled where
  keyed := fun key entry found => settled.keyed key entry (stored key entry found)
  expired := by
    intro keys member key inKeys entry found
    rw [clock]
    exact settled.expired keys (sweeps keys member) key inKeys entry
      (stored key entry found)

variable [EvictionHook Hook]

/-- The deletions of one sweep. -/
def deleteKeys (engine : StorageEngine Value Hook) (keys : List CacheKey) :
    StorageEngine Value Hook :=
  keys.foldl (fun current key => (current.delete key).2) engine

theorem deleteKeys_get? (engine : StorageEngine Value Hook) (keys : List CacheKey)
    (query : CacheKey) :
    (deleteKeys engine keys).store.get? query =
      if query ∈ keys then none else engine.store.get? query := by
  induction keys generalizing engine with
  | nil => rfl
  | cons key rest ih =>
      have unfolded : deleteKeys engine (key :: rest) =
          deleteKeys (engine.delete key).2 rest := rfl
      rw [unfolded, ih, StorageEngine.delete_get?]
      by_cases head : query = key <;> by_cases tail : query ∈ rest <;>
        simp [head, tail]

variable [SizedValue Value]

/-- One action. -/
def step (state : CleaningNode Value Hook) :
    CleaningAction Value → CleaningNode Value Hook
  | .serve request => { state with node := state.node.serve request }
  | .beginSweep =>
      if state.node.engine.entries.length = 0 then
        state
      else
        { state with
          sweeps := state.sweeps ++
            [findExpired state.node.engine.entries state.node.clock] }
  | .finishSweep index =>
      { node :=
          { state.node with
            engine := deleteKeys state.node.engine (state.sweeps[index]?.getD []) }
        sweeps := state.sweeps.eraseIdx index }
  | .failSweep index => { state with sweeps := state.sweeps.eraseIdx index }
  | .clearStorage =>
      { state with node := { state.node with engine := state.node.engine.clear } }
  | .restore entries =>
      { state with
        node :=
          { state.node with
            engine := (state.node.engine.restoreEntries state.node.clock entries).2 } }

/-- No write lands on a key that a waiting sweep is going to delete. -/
def Undisturbed (state : CleaningNode Value Hook) : CleaningAction Value → Prop
  | .serve request => ∀ keys ∈ state.sweeps, ∀ entry ∈ state.node.written request,
      entry.key ∉ keys
  | .restore entries => ∀ keys ∈ state.sweeps,
      ∀ entry ∈ StorageEngine.restorable entries, entry.key ∉ keys
  | .beginSweep | .finishSweep _ | .failSweep _ | .clearStorage => True

/-- What a finishing sweep removes has expired, and nothing is removed that
`sweepExpired` would have kept at that moment. -/
def RemovesOnlyExpired (state : CleaningNode Value Hook) :
    CleaningAction Value → Prop
  | .finishSweep index =>
      (∀ key entry, state.node.engine.store.get? key = some entry →
        (state.step (.finishSweep index)).node.engine.store.get? key = none →
        entry.metadata.isExpired state.node.clock = true) ∧
      ∀ key entry,
        (state.node.engine.sweepExpired state.node.clock).2.store.get? key =
          some entry →
        (state.step (.finishSweep index)).node.engine.store.get? key = some entry
  | .serve _ | .beginSweep | .failSweep _ | .clearStorage | .restore _ => True

instance (state : CleaningNode Value Hook) :
    (action : CleaningAction Value) → Decidable (state.Undisturbed action)
  | .serve request => inferInstanceAs (Decidable (∀ keys ∈ state.sweeps,
      ∀ entry ∈ state.node.written request, entry.key ∉ keys))
  | .restore entries => inferInstanceAs (Decidable (∀ keys ∈ state.sweeps,
      ∀ entry ∈ StorageEngine.restorable entries, entry.key ∉ keys))
  | .beginSweep | .finishSweep _ | .failSweep _ | .clearStorage => .isTrue trivial

theorem Settled.serve {state : CleaningNode Value Hook} (settled : state.Settled)
    {request : Request Value} (undisturbed : state.Undisturbed (.serve request)) :
    (state.step (.serve request)).Settled where
  keyed := Node.keyed_serve settled.keyed request
  expired := by
    intro keys member key inKeys after stored
    obtain ⟨elapsed, later⟩ := state.node.exists_elapsed_serve request
    simp only [step] at stored ⊢
    rw [later]
    apply CacheMetadata.isExpired_of_le
      (Int.le_add_of_nonneg_right (Int.natCast_nonneg elapsed))
    rcases Node.stems_of_serve stored with ⟨written, rfl⟩ | ⟨entry, before, same⟩
    · exact (undisturbed keys member after written inKeys).elim
    · have expired := settled.expired keys member key inKeys entry before
      rwa [CacheMetadata.isExpired, same.expiresAt]

theorem Settled.beginSweep {state : CleaningNode Value Hook}
    (settled : state.Settled) :
    (state.step .beginSweep).Settled := by
  simp only [step]
  split
  · exact settled
  · refine ⟨settled.keyed, ?_⟩
    intro keys member key inKeys entry stored
    rcases List.mem_append.mp member with waiting | captured
    · exact settled.expired keys waiting key inKeys entry stored
    · rw [List.mem_singleton.mp captured] at inKeys
      exact isExpired_of_mem_findExpired settled.keyed inKeys stored

theorem Settled.finishSweep {state : CleaningNode Value Hook}
    (settled : state.Settled) (index : Nat) :
    (state.step (.finishSweep index)).Settled := by
  refine settled.of_fewer ?_ ?_ ?_
  · rfl
  · intro keys member
    exact (List.eraseIdx_sublist _ _).subset member
  · intro key entry found
    simp only [step, deleteKeys_get?] at found
    split at found
    · cases found
    · exact found

theorem Settled.restore {state : CleaningNode Value Hook} (settled : state.Settled)
    {entries : List (CacheEntry Value)}
    (undisturbed : state.Undisturbed (.restore entries)) :
    (state.step (.restore entries)).Settled := by
  simp only [step, ← StorageEngine.restoreEntries_restorable _ _ entries]
  refine StorageEngine.restoreEntries_induction
    (fun engine => Settled ⟨{ state.node with engine := engine }, state.sweeps⟩) ?_ settled
  intro engine entry member before
  refine ⟨before.keyed.afterSet _ _ _ _, ?_⟩
  intro keys waiting key inKeys after stored
  rcases StorageEngine.afterSet_stored stored with ⟨_, rfl, _⟩ | ⟨_, kept⟩
  · exact (undisturbed keys waiting entry member inKeys).elim
  · exact before.expired keys waiting key inKeys after kept

theorem Settled.step {state : CleaningNode Value Hook} (settled : state.Settled)
    {action : CleaningAction Value} (undisturbed : state.Undisturbed action) :
    (state.step action).Settled := by
  cases action with
  | serve request => exact settled.serve undisturbed
  | beginSweep => exact settled.beginSweep
  | finishSweep index => exact settled.finishSweep index
  | failSweep index =>
      refine settled.of_fewer ?_ ?_ ?_
      · rfl
      · intro keys member
        exact (List.eraseIdx_sublist _ _).subset member
      · exact fun _ _ found => found
  | clearStorage =>
      refine settled.of_fewer ?_ ?_ ?_
      · rfl
      · exact fun _ member => member
      · intro key entry impossible
        cases impossible
  | restore entries => exact settled.restore undisturbed

theorem Settled.removesOnlyExpired {state : CleaningNode Value Hook}
    (settled : state.Settled) (action : CleaningAction Value) :
    state.RemovesOnlyExpired action := by
  cases action with
  | finishSweep index =>
      have expired : ∀ key ∈ state.sweeps[index]?.getD [], ∀ entry,
          state.node.engine.store.get? key = some entry →
          entry.metadata.isExpired state.node.clock = true := by
        intro key inKeys entry stored
        cases found : state.sweeps[index]? with
        | none =>
            rw [found] at inKeys
            cases inKeys
        | some keys =>
            rw [found] at inKeys
            exact settled.expired keys (List.mem_of_getElem? found) key inKeys entry
              stored
      constructor
      · intro key entry stored removed
        simp only [CleaningNode.step, deleteKeys_get?] at removed
        split at removed
        · next inKeys => exact expired key inKeys entry stored
        · rw [stored] at removed
          cases removed
      · intro key entry kept
        rw [StorageEngine.sweepExpired_get?] at kept
        obtain ⟨stored, live⟩ := Option.filter_eq_some_iff.mp kept
        simp only [CleaningNode.step, deleteKeys_get?]
        split
        · next inKeys =>
            rw [expired key inKeys entry stored] at live
            cases live
        · exact stored
  | serve request => trivial
  | beginSweep => trivial
  | failSweep index => trivial
  | clearStorage => trivial
  | restore entries => trivial

/-- In every run in which no write lands on a key that a waiting sweep is going to
delete, every sweep that finishes removes only expired entries. -/
theorem sweeps_remove_only_expired (nodeId : String) (options : StorageEngineOptions)
    (hook : Hook) (clock : Millis) (actions : List (CleaningAction Value))
    (undisturbed : EveryStep step Undisturbed (start nodeId options hook clock)
      actions) :
    EveryStep step RemovesOnlyExpired
      (start nodeId options hook clock : CleaningNode Value Hook) actions :=
  undisturbed.of_invariant
    (fun _ _ settled met => settled.step met)
    (fun _ action settled _ => settled.removesOnlyExpired action)
    (settled_start nodeId options hook clock)

/-- `"k"` expires and a sweep captures it; another key is written meanwhile and a PUT of
`"k"` without a value is refused; then the sweep finishes. -/
def quietSweep : List (CleaningAction Nat) :=
  [.serve (.put ⟨some "k", some 1, .number 5⟩), .serve (.tick 10), .beginSweep,
    .serve (.put ⟨some "j", some 2, .absent⟩), .serve (.put ⟨some "k", none, .absent⟩),
    .finishSweep 0]

theorem quietSweep_removes_only_expired :
    ((run step (start "node-1" .default (⟨⟩ : FifoEvictionHook) 0)
        quietSweep).node.engine.peek 10 "j").map CacheEntry.value = some 2 ∧
      EveryStep step RemovesOnlyExpired
        (start "node-1" .default (⟨⟩ : FifoEvictionHook) 0) quietSweep := by
  refine ⟨by decide +kernel, ?_⟩
  exact sweeps_remove_only_expired "node-1" .default (⟨⟩ : FifoEvictionHook) 0 quietSweep
    (by decide +kernel)

/-- `"k"` is written again between the capture and the deletion. -/
def racedSweep : List (CleaningAction Nat) :=
  [.serve (.put ⟨some "k", some 1, .number 5⟩), .serve (.tick 10), .beginSweep,
    .serve (.put ⟨some "k", some 2, .absent⟩)]

/-- The node when the sweep's answer arrives. -/
def racedNode : CleaningNode Nat FifoEvictionHook :=
  run step (start "node-1" .default ⟨⟩ 0) racedSweep

theorem racedSweep_removes_live :
    (racedNode.node.engine.peek racedNode.node.clock "k").map CacheEntry.value =
        some 2 ∧
      (racedNode.step (.finishSweep 0)).node.engine.store.get? "k" = none ∧
      ¬EveryStep step RemovesOnlyExpired
        (start "node-1" .default (⟨⟩ : FifoEvictionHook) 0)
        (racedSweep ++ [.finishSweep 0]) := by
  refine ⟨by decide +kernel, by decide +kernel, ?_⟩
  intro every
  have last := ((everyStep_append _ racedSweep _).mp every).2.1.1
  have live : (racedNode.node.engine.store.get? "k").isSome := by
    decide +kernel
  obtain ⟨entry, stored⟩ := Option.isSome_iff_exists.mp live
  have expired := last "k" entry stored (by decide +kernel)
  have deadline : (racedNode.node.engine.store.get? "k").map
      (fun entry => entry.metadata.isExpired racedNode.node.clock) = some false := by
    decide +kernel
  rw [stored, Option.map_some, Option.some.injEq] at deadline
  have live : entry.metadata.isExpired racedNode.node.clock = true := expired
  rw [deadline] at live
  cases live

end CleaningNode

end FlowCache
