import FlowCache.CacheNode.Apply

/-!
# Replication events

The part of `ReplicationEngine` that publishes an event and the part that applies
a received one.
-/

namespace FlowCache

variable {Value Hook : Type}

/-- The operation an event carries; a PUT read from the wire may lack metadata. -/
inductive ReplicationOp (Value : Type) where
  | put (value : Value) (metadata : Option CacheMetadata)
  | delete
  deriving DecidableEq, Repr

/-- One replicated operation. -/
structure ReplicationEvent (Value : Type) where
  eventId : String
  sourceNodeId : String
  key : CacheKey
  op : ReplicationOp Value
  timestamp : Millis
  deriving DecidableEq, Repr

/-- A replica's answer to an event. -/
structure ReplicationAck where
  eventId : String
  replicaNodeId : String
  success : Bool
  appliedAt : Millis
  error : Option String
  deriving DecidableEq, Repr

/-- An event as it travels on the replication topic. -/
structure EventMessage (Value : Type) where
  event : ReplicationEvent Value
  targetNodeIds : List String
  deriving DecidableEq, Repr

/-- `replicate(key, op, ...)`: the message to publish, if another node holds a
replica of the key. -/
def replicate (nodeId : String) (getReplicaNodeIds : CacheKey → List String)
    (eventId : String) (now : Millis) (key : CacheKey) (op : ReplicationOp Value) :
    Option (EventMessage Value) :=
  let targetNodeIds := (getReplicaNodeIds key).filter (· ≠ nodeId)
  if targetNodeIds = [] then
    none
  else
    some
      { event :=
          { eventId := eventId
            sourceNodeId := nodeId
            key := key
            op := op
            timestamp := now }
        targetNodeIds := targetNodeIds }

/-- A message is published unless no other node holds the key; it names its
sender as source and the other holders of the key as targets. -/
theorem replicate_cases {nodeId other : String} (different : other ≠ nodeId)
    (getReplicaNodeIds : CacheKey → List String) (eventId : String) (now : Millis)
    (key : CacheKey) (op : ReplicationOp Value) :
    (replicate nodeId getReplicaNodeIds eventId now key op = none ∧
        other ∉ getReplicaNodeIds key) ∨
      ∃ message, replicate nodeId getReplicaNodeIds eventId now key op = some message ∧
        message.event = ⟨eventId, nodeId, key, op, now⟩ ∧
        (other ∈ message.targetNodeIds ↔ other ∈ getReplicaNodeIds key) := by
  have target : other ∈ (getReplicaNodeIds key).filter (· ≠ nodeId) ↔
      other ∈ getReplicaNodeIds key := by
    simp [different]
  by_cases empty : (getReplicaNodeIds key).filter (· ≠ nodeId) = []
  · left
    rw [empty] at target
    refine ⟨by rw [replicate, if_pos empty], ?_⟩
    rw [← target]
    simp
  · right
    rw [replicate, if_neg empty]
    exact ⟨_, rfl, rfl, target⟩

variable [EvictionHook Hook] [SizedValue Value]

namespace StorageEngine

/-- The `try` block of `handleReplicationEvent`. -/
def applyEvent (engine : StorageEngine Value Hook) (now : Millis)
    (event : ReplicationEvent Value) :
    Except FlowCacheError (StorageEngine Value Hook) :=
  match event.op with
  | .put _ none =>
      .error (.replicationError ("Replication PUT event " ++ event.eventId ++
        " for key \"" ++ event.key ++ "\" has no metadata"))
  | .put value (some metadata) =>
      engine.applyRemoteWrite now event.key value metadata
  | .delete => .ok (engine.applyRemoteDelete event.key)

/-- `handleReplicationEvent(event, targetNodeIds)`: the ack to publish, if this
node is a target, and the storage afterwards. -/
def handleReplicationEvent (engine : StorageEngine Value Hook) (nodeId : String)
    (now : Millis) (message : EventMessage Value) :
    Option ReplicationAck × StorageEngine Value Hook :=
  if message.event.sourceNodeId = nodeId ∨ nodeId ∉ message.targetNodeIds then
    (none, engine)
  else
    match engine.applyEvent now message.event with
    | .ok next =>
        (some ⟨message.event.eventId, nodeId, true, now, none⟩, next)
    | .error error =>
        (some ⟨message.event.eventId, nodeId, false, now, some error.message⟩, engine)

/-- The storage after an event addressed to this node was handled. -/
def afterEvent (engine : StorageEngine Value Hook) (now : Millis)
    (event : ReplicationEvent Value) : StorageEngine Value Hook :=
  match event.op with
  | .put _ none => engine
  | .put value (some metadata) => engine.afterRemoteWrite now event.key value metadata
  | .delete => (engine.delete event.key).2

/-- Applying the event causes no eviction. -/
def EventFits (engine : StorageEngine Value Hook) (now : Millis)
    (event : ReplicationEvent Value) : Prop :=
  match event.op with
  | .put value (some metadata) => engine.RemoteWriteFits now event.key value metadata
  | .put _ none => True
  | .delete => True

instance (engine : StorageEngine Value Hook) (now : Millis) :
    (event : ReplicationEvent Value) → Decidable (engine.EventFits now event)
  | ⟨_, _, key, .put value (some metadata), _⟩ =>
      inferInstanceAs (Decidable (engine.RemoteWriteFits now key value metadata))
  | ⟨_, _, _, .put _ none, _⟩ => .isTrue trivial
  | ⟨_, _, _, .delete, _⟩ => .isTrue trivial

/-- An event that is not addressed to this node changes nothing. -/
theorem handleReplicationEvent_of_not_target {engine : StorageEngine Value Hook}
    {nodeId : String} {now : Millis} {message : EventMessage Value}
    (elsewhere : nodeId ∉ message.targetNodeIds) :
    (engine.handleReplicationEvent nodeId now message).2 = engine := by
  rw [handleReplicationEvent, if_pos (.inr elsewhere)]

theorem handleReplicationEvent_of_target {engine : StorageEngine Value Hook}
    {nodeId : String} {now : Millis} {message : EventMessage Value}
    (foreign : message.event.sourceNodeId ≠ nodeId)
    (target : nodeId ∈ message.targetNodeIds) :
    (engine.handleReplicationEvent nodeId now message).2 =
      engine.afterEvent now message.event := by
  have addressed : ¬(message.event.sourceNodeId = nodeId ∨
      nodeId ∉ message.targetNodeIds) := by
    simp [foreign, target]
  rw [handleReplicationEvent, if_neg addressed]
  obtain ⟨⟨eventId, source, key, op, timestamp⟩, targets⟩ := message
  cases op with
  | delete => rfl
  | put value metadata =>
      cases metadata with
      | none => rfl
      | some metadata =>
          simp only [applyEvent, afterEvent, afterRemoteWrite]
          cases engine.applyRemoteWrite now key value metadata <;> rfl

/-- Handling a message applies its event or does nothing. -/
theorem handleReplicationEvent_cases (engine : StorageEngine Value Hook)
    (nodeId : String) (now : Millis) (message : EventMessage Value) :
    (engine.handleReplicationEvent nodeId now message).2 = engine ∨
      (engine.handleReplicationEvent nodeId now message).2 =
        engine.afterEvent now message.event := by
  by_cases skipped : message.event.sourceNodeId = nodeId ∨
      nodeId ∉ message.targetNodeIds
  · left
    rw [handleReplicationEvent, if_pos skipped]
  · right
    obtain ⟨foreign, target⟩ := not_or.mp skipped
    exact handleReplicationEvent_of_target foreign (not_not.mp target)

/-- A replicated PUT is refused or skipped without an ack of success, acked but found
stale, or acked and stored. -/
theorem handleReplicationEvent_put (engine : StorageEngine Value Hook)
    (nodeId : String) (now : Millis) {message : EventMessage Value} {value : Value}
    {metadata : Option CacheMetadata} (op : message.event.op = .put value metadata) :
    ((∀ ack ∈ (engine.handleReplicationEvent nodeId now message).1,
          ack.success = false) ∧
        (engine.handleReplicationEvent nodeId now message).2 = engine) ∨
      (∃ stamp ack, metadata = some stamp ∧
        (engine.handleReplicationEvent nodeId now message).1 = some ack ∧
        engine.isStaleWrite now message.event.key stamp = true ∧
        (engine.handleReplicationEvent nodeId now message).2 = engine) ∨
      ∃ stamp ack, metadata = some stamp ∧
        (engine.handleReplicationEvent nodeId now message).1 = some ack ∧
        ack.success = true ∧ message.event.key ≠ "" ∧
        engine.isStaleWrite now message.event.key stamp = false ∧
        (engine.handleReplicationEvent nodeId now message).2 =
          engine.afterSet now message.event.key value
            (remainingTtl now stamp.expiresAt) := by
  by_cases skipped : message.event.sourceNodeId = nodeId ∨
      nodeId ∉ message.targetNodeIds
  · left
    simp [handleReplicationEvent, skipped]
  · rw [handleReplicationEvent, if_neg skipped, applyEvent, op]
    cases metadata with
    | none =>
        left
        simp
    | some stamp =>
        cases stale : engine.isStaleWrite now message.event.key stamp with
        | true =>
            right
            left
            simp [applyRemoteWrite, stale]
        | false =>
            by_cases empty : message.event.key = ""
            · left
              rw [empty] at stale
              simp [applyRemoteWrite, stale, set, empty, Except.map]
            · right
              right
              simp [applyRemoteWrite, stale, set, empty, Except.map, afterSet]

end StorageEngine

end FlowCache
