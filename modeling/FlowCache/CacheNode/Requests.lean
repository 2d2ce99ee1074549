import FlowCache.CacheNode.Routes
import FlowCache.Replication.Engine

/-!
# What a running node serves

Client requests and replicated events, each of which runs to its end without
giving control back to the event loop.  A PUT and a replicated PUT are the only
ones that store an entry.
-/

namespace FlowCache

variable {Value Hook : Type}

/-- A node that serves requests. -/
structure Node (Value Hook : Type) where
  nodeId : String
  engine : StorageEngine Value Hook
  clock : Millis

/-- What a node handles in one turn of the event loop. -/
inductive Request (Value : Type) where
  | tick (elapsed : Nat)
  | put (body : PutRequestBody Value)
  | delete (key : CacheKey)
  | get (key : CacheKey)
  | has (key : CacheKey)
  | replicated (message : EventMessage Value)

namespace Node

/-- A node that has not served any request yet. -/
def start (nodeId : String) (options : StorageEngineOptions) (hook : Hook)
    (clock : Millis) : Node Value Hook :=
  ⟨nodeId, .create options hook, clock⟩

/-- A stored entry is the written one, or was there before with the same content. -/
def Stems (node : Node Value Hook) (written : Option (CacheEntry Value))
    (query : CacheKey) (after : CacheEntry Value) : Prop :=
  (after ∈ written ∧ after.key = query) ∨
    ∃ entry, node.engine.store.get? query = some entry ∧
      CacheEntry.SameContent after entry

theorem stems_of_kept {node : Node Value Hook} {written : Option (CacheEntry Value)}
    {query : CacheKey} {after : CacheEntry Value}
    (kept : node.engine.store.get? query = some after) : node.Stems written query after :=
  .inr ⟨after, kept, rfl, rfl, rfl, rfl⟩

variable [EvictionHook Hook]

theorem stems_of_delete {node : Node Value Hook} {written : Option (CacheEntry Value)}
    {key query : CacheKey} {after : CacheEntry Value}
    (stored : (node.engine.delete key).2.store.get? query = some after) :
    node.Stems written query after := by
  rw [StorageEngine.delete_get?] at stored
  split at stored
  · cases stored
  · exact stems_of_kept stored

variable [SizedValue Value]

/-- The node after one request. -/
def serve (node : Node Value Hook) : Request Value → Node Value Hook
  | .tick elapsed => { node with clock := node.clock + elapsed }
  | .put body =>
      match putRoute node.engine node.clock body with
      | .error _ => node
      | .ok (_, next) => { node with engine := next }
  | .delete key => { node with engine := (node.engine.delete key).2 }
  | .get key => { node with engine := (node.engine.get node.clock key).2 }
  | .has key => { node with engine := (node.engine.has node.clock key).2 }
  | .replicated message =>
      { node with
        engine := (node.engine.handleReplicationEvent node.nodeId node.clock message).2 }

/-- What the write says that a client was answered 200 for, or that a sender was acked with
success: the entry that is stored, or would be if the version check did not drop it. -/
def acknowledged (node : Node Value Hook) : Request Value → Option (CacheEntry Value)
  | .put body =>
      match putRoute node.engine node.clock body with
      | .ok (entry, _) => some entry
      | .error _ => none
  | .replicated message =>
      match message.event.op,
          (node.engine.handleReplicationEvent node.nodeId node.clock message).1 with
      | .put value (some metadata), some ack =>
          if ack.success then
            some (node.engine.nextEntry node.clock message.event.key value
              (remainingTtl node.clock metadata.expiresAt))
          else
            none
      | .put _ (some _), none => none
      | .put _ none, _ => none
      | .delete, _ => none
  | .tick _ | .delete _ | .get _ | .has _ => none

/-- The version check drops the replicated write. -/
def dropsStale (node : Node Value Hook) : Request Value → Bool
  | .replicated message =>
      match message.event.op with
      | .put _ (some metadata) =>
          node.engine.isStaleWrite node.clock message.event.key metadata
      | .put _ none => false
      | .delete => false
  | .tick _ | .put _ | .delete _ | .get _ | .has _ => false

/-- The entry a request stores. -/
def written (node : Node Value Hook) (request : Request Value) :
    Option (CacheEntry Value) :=
  if node.dropsStale request then none else node.acknowledged request

/-- The key of a deletion that the node carries out. -/
def deleted (node : Node Value Hook) : Request Value → Option CacheKey
  | .delete key => some key
  | .replicated message =>
      match message.event.op,
          (node.engine.handleReplicationEvent node.nodeId node.clock message).1 with
      | .delete, some _ => some message.event.key
      | .delete, none => none
      | .put _ _, _ => none
  | .tick _ | .put _ | .get _ | .has _ => none

theorem acknowledged_of_written {node : Node Value Hook} {request : Request Value}
    {entry : CacheEntry Value} (written : entry ∈ node.written request) :
    entry ∈ node.acknowledged request := by
  rw [Node.written] at written
  split at written
  · cases written
  · exact written

/-- Time never goes back. -/
theorem exists_elapsed_serve (node : Node Value Hook) (request : Request Value) :
    ∃ elapsed : Nat, (node.serve request).clock = node.clock + elapsed := by
  cases request with
  | tick elapsed => exact ⟨elapsed, rfl⟩
  | put body =>
      refine ⟨0, ?_⟩
      simp only [serve]
      split <;> simp
  | delete key => exact ⟨0, (Int.add_zero _).symm⟩
  | get key => exact ⟨0, (Int.add_zero _).symm⟩
  | has key => exact ⟨0, (Int.add_zero _).symm⟩
  | replicated message => exact ⟨0, (Int.add_zero _).symm⟩

theorem stems_of_set {node : Node Value Hook} {key query : CacheKey} {value : Value}
    {options : SetOptions} {after : CacheEntry Value}
    (stored : (node.engine.afterSet node.clock key value options).store.get? query =
      some after) :
    node.Stems (some (node.engine.nextEntry node.clock key value options)) query after := by
  rcases StorageEngine.afterSet_stored stored with ⟨_, rfl, rfl⟩ | ⟨_, kept⟩
  · exact .inl ⟨rfl, rfl⟩
  · exact stems_of_kept kept

/-- What becomes of a replicated write: it is refused or not for this node, dropped, or
stored. -/
theorem serve_replicated_put (node : Node Value Hook) {message : EventMessage Value}
    {value : Value} {metadata : Option CacheMetadata}
    (op : message.event.op = .put value metadata) :
    (node.serve (.replicated message) = node ∧
        (node.acknowledged (.replicated message) = none ∨
          node.dropsStale (.replicated message) = true)) ∨
      ∃ stamp : CacheMetadata, message.event.key ≠ "" ∧
        node.written (.replicated message) = some (node.engine.nextEntry node.clock
          message.event.key value (remainingTtl node.clock stamp.expiresAt)) ∧
        node.serve (.replicated message) = { node with
          engine := node.engine.afterSet node.clock message.event.key value
            (remainingTtl node.clock stamp.expiresAt) } := by
  rcases StorageEngine.handleReplicationEvent_put node.engine node.nodeId node.clock op with
    ⟨refused, unchanged⟩ | ⟨stamp, ack, rfl, _, stale, unchanged⟩ |
      ⟨stamp, ack, rfl, acked, success, valid, fresh, applied⟩
  · refine .inl ⟨by rw [serve, unchanged], .inl ?_⟩
    cases metadata with
    | none => simp [acknowledged, op]
    | some stamp =>
        cases answer : (node.engine.handleReplicationEvent node.nodeId node.clock
            message).1 with
        | none => simp [acknowledged, op, answer]
        | some ack => simp [acknowledged, op, answer, refused ack answer]
  · exact .inl ⟨by rw [serve, unchanged], .inr (by simp [dropsStale, op, stale])⟩
  · refine .inr ⟨stamp, valid, ?_, by rw [serve, applied]⟩
    simp [written, dropsStale, acknowledged, op, acked, success, fresh]

/-- A dropped write changes nothing. -/
theorem serve_of_dropsStale {node : Node Value Hook} {request : Request Value}
    (stale : node.dropsStale request = true) : node.serve request = node := by
  have unwritten : node.written request = none := by rw [written, if_pos stale]
  cases request with
  | replicated message =>
      cases op : message.event.op with
      | delete => simp [dropsStale, op] at stale
      | put value metadata =>
          rcases node.serve_replicated_put op with ⟨unchanged, _⟩ | ⟨_, _, wrote, _⟩
          · exact unchanged
          · rw [unwritten] at wrote
            cases wrote
  | tick elapsed => cases stale
  | put body => cases stale
  | delete key => cases stale
  | get key => cases stale
  | has key => cases stale

/-- What is stored under the key of a written entry is that entry. -/
theorem eq_of_written {node : Node Value Hook} {request : Request Value}
    {entry held : CacheEntry Value} (wrote : entry ∈ node.written request)
    (stored : (node.serve request).engine.store.get? entry.key = some held) :
    held = entry := by
  have own : ∀ {key value options}, key ≠ "" →
      entry = node.engine.nextEntry node.clock key value options →
      (node.engine.afterSet node.clock key value options).store.get? entry.key =
        some held → held = entry := by
    rintro key value options valid rfl found
    rcases StorageEngine.afterSet_stored found with ⟨_, _, same⟩ | ⟨other, _⟩
    · exact same
    · exact (other.elim valid fun different => different rfl).elim
  cases request with
  | put body =>
      have accepted := acknowledged_of_written wrote
      simp only [acknowledged] at accepted
      split at accepted
      · next written next accepts =>
          cases accepted
          obtain ⟨key, value, options, _, valid, _, _, same, rfl⟩ := putRoute_ok accepts
          simp only [serve, accepts] at stored
          exact own valid same stored
      · cases accepted
  | replicated message =>
      cases op : message.event.op with
      | delete => simp [written, dropsStale, acknowledged, op] at wrote
      | put value metadata =>
          rcases node.serve_replicated_put op with
            ⟨-, unacked | stale⟩ | ⟨stamp, valid, writes, applied⟩
          · have acked := acknowledged_of_written wrote
            rw [unacked] at acked
            cases acked
          · rw [written, if_pos stale] at wrote
            cases wrote
          · rw [writes] at wrote
            cases wrote
            rw [applied] at stored
            exact own valid rfl stored
  | tick elapsed => cases wrote
  | delete key => cases wrote
  | get key => cases wrote
  | has key => cases wrote

/-- A request that neither writes nor deletes its key leaves a live entry alone. -/
theorem serve_keeps_live {node : Node Value Hook} {request : Request Value} {key : CacheKey}
    {held : CacheEntry Value} (unacked : node.acknowledged request = none)
    (undeleted : node.deleted request ≠ some key)
    (stored : node.engine.store.get? key = some held)
    (live : held.metadata.isExpired node.clock = false) :
    ∃ after, (node.serve request).engine.store.get? key = some after ∧
      CacheEntry.SameContent after held := by
  have kept : (node.serve request).engine = node.engine →
      ∃ after, (node.serve request).engine.store.get? key = some after ∧
        CacheEntry.SameContent after held := by
    intro unchanged
    exact ⟨held, by rw [unchanged, stored], rfl, rfl, rfl, rfl⟩
  cases request with
  | tick elapsed => exact kept rfl
  | put body =>
      cases answer : putRoute node.engine node.clock body with
      | error error => exact kept (by simp only [serve, answer])
      | ok result => simp [acknowledged, answer] at unacked
  | delete other =>
      refine ⟨held, ?_, rfl, rfl, rfl, rfl⟩
      rw [serve, StorageEngine.delete_get?, if_neg, stored]
      rintro rfl
      exact undeleted rfl
  | get other => exact StorageEngine.get_keeps_live other stored live
  | has other =>
      exact ⟨held, StorageEngine.has_keeps_live other stored live, rfl, rfl, rfl, rfl⟩
  | replicated message =>
      cases op : message.event.op with
      | put value metadata =>
          rcases node.serve_replicated_put op with ⟨unchanged, _⟩ | ⟨_, _, wrote, _⟩
          · exact kept (by rw [unchanged])
          · rw [acknowledged_of_written wrote] at unacked
            cases unacked
      | delete =>
          cases answer : (node.engine.handleReplicationEvent node.nodeId node.clock
              message).1 with
          | none =>
              apply kept
              rw [StorageEngine.handleReplicationEvent] at answer
              split at answer
              · next skipped =>
                  rw [serve, StorageEngine.handleReplicationEvent, if_pos skipped]
              · rw [StorageEngine.applyEvent, op] at answer
                cases answer
          | some ack =>
              simp only [deleted, op, answer] at undeleted
              rcases node.engine.handleReplicationEvent_cases node.nodeId node.clock
                  message with unchanged | applied
              · exact kept unchanged
              · refine ⟨held, ?_, rfl, rfl, rfl, rfl⟩
                rw [serve, applied, StorageEngine.afterEvent, op,
                  StorageEngine.delete_get?, if_neg, stored]
                rintro rfl
                exact undeleted rfl

theorem stems_of_serve {node : Node Value Hook} {request : Request Value}
    {query : CacheKey} {after : CacheEntry Value}
    (stored : (node.serve request).engine.store.get? query = some after) :
    node.Stems (node.written request) query after := by
  cases request with
  | tick elapsed => exact stems_of_kept stored
  | put body =>
      simp only [serve] at stored
      split at stored
      · exact stems_of_kept stored
      · next entry next accepted =>
          simp only [written, dropsStale, acknowledged, accepted, Bool.false_eq_true, if_false]
          obtain ⟨key, value, options, _, _, _, _, rfl, rfl⟩ := putRoute_ok accepted
          exact stems_of_set stored
  | delete key => exact stems_of_delete stored
  | get key => exact .inr (StorageEngine.get_stored stored)
  | has key => exact stems_of_kept (StorageEngine.has_stored stored)
  | replicated message =>
      cases op : message.event.op with
      | delete =>
          simp only [serve] at stored
          rcases node.engine.handleReplicationEvent_cases node.nodeId node.clock message with
            unchanged | applied
          · rw [unchanged] at stored
            exact stems_of_kept stored
          · rw [applied, StorageEngine.afterEvent, op] at stored
            exact stems_of_delete stored
      | put value metadata =>
          rcases node.serve_replicated_put op with ⟨unchanged, _⟩ | ⟨stamp, _, wrote, applied⟩
          · rw [unchanged] at stored
            exact stems_of_kept stored
          · rw [applied] at stored
            rw [wrote]
            exact stems_of_set stored

theorem keyed_serve {node : Node Value Hook} (keyed : node.engine.Keyed)
    (request : Request Value) : (node.serve request).engine.Keyed := by
  intro query after stored
  rcases stems_of_serve stored with ⟨_, own⟩ | ⟨entry, before, same⟩
  · exact own
  · rw [same.key]
    exact keyed query entry before

end Node

end FlowCache
