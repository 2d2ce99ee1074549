import FlowCache.Library.InsertionMap
import FlowCache.Library.Transition
import FlowCache.Replication.Engine

/-!
# The ack protocol

`ReplicationEngine` over a set of nodes that share one topic: a call of
`replicateWrite` or `replicateDelete` registers a waiter and publishes an event, the
targets apply the event and publish acks, and the waiter settles the caller's promise.

A message stays on the topic for good and a node may be handed any message of it at any
time, so messages are reordered, duplicated and lost.  The apply callbacks are those of
the node and may throw.  The history has what a caller and a replica can see, with the
newest observation first.
-/

namespace FlowCache

variable {Value Hook Store : Type}

/-- The apply callbacks of `ReplicationEngineOptions`: the message they throw, if they
do, and the node's data afterwards. -/
structure ApplyCallbacks (Value Store : Type) where
  applyRemoteWrite :
    Store → Millis → CacheKey → Value → CacheMetadata → Option String × Store
  applyRemoteDelete : Store → Millis → CacheKey → Option String × Store

/-- `AckWaiter`; the two sets are kept in insertion order. -/
structure AckWaiter where
  eventId : String
  targetNodeIds : List String
  ackedBy : List String
  deriving DecidableEq, Repr

/-- `set.add(nodeId)`. -/
def addToSet (nodes : List String) (nodeId : String) : List String :=
  if nodeId ∈ nodes then nodes else nodes ++ [nodeId]

/-- `new Set(nodes)`. -/
def newSet (nodes : List String) : List String :=
  nodes.foldl addToSet []

/-- `[...targetNodeIds].every((id) => ackedBy.has(id))`. -/
def AckWaiter.allTargetsAcked (waiter : AckWaiter) : Bool :=
  waiter.targetNodeIds.all (· ∈ waiter.ackedBy)

/-- `ReplicationTopicMessage`. -/
inductive ReplicationTopicMessage (Value : Type) where
  | event (message : EventMessage Value)
  | ack (ack : ReplicationAck)
  deriving DecidableEq, Repr

/-- One node: its waiters and the data its callbacks work on. -/
structure ReplicationEngine (Store : Type) where
  pendingAcks : InsertionMap String AckWaiter
  store : Store

/-- How a promise settles. -/
inductive AckOutcome where
  | resolved (ackedBy : List String)
  | rejected (reason : String)
  deriving DecidableEq, Repr

/-- Where `await this.eventBus.publish(...)` of a call stands. -/
inductive PublishState where
  | publishing
  | published
  | failed
  deriving DecidableEq, Repr

/-- A call of `replicate` and what became of its `ackPromise`. -/
structure ReplicateCall (Value : Type) where
  event : ReplicationEvent Value
  targetNodeIds : List String
  publish : PublishState
  ackPromise : Option AckOutcome
  deriving DecidableEq, Repr

/-- What can be seen of a run.  A run of a callback is `applied` or `threw`. -/
inductive AckObservation (Value : Type) where
  | called (event : ReplicationEvent Value) (targetNodeIds : List String)
  | applied (nodeId : String) (event : ReplicationEvent Value)
  | threw (nodeId : String) (event : ReplicationEvent Value)
  | timedOut (eventId : String)
  | settled (eventId : String) (outcome : AckOutcome)
  deriving DecidableEq, Repr

/-- The event id an observation is about. -/
def AckObservation.eventId : AckObservation Value → String
  | .called event _ => event.eventId
  | .applied _ event => event.eventId
  | .threw _ event => event.eventId
  | .timedOut eventId => eventId
  | .settled eventId _ => eventId

/-- The nodes, the topic, the calls made so far by event id, and the history. -/
structure ReplicationCluster (Value Store : Type) where
  engines : String → ReplicationEngine Store
  topic : List (ReplicationTopicMessage Value)
  calls : String → Option (ReplicateCall Value)
  history : List (AckObservation Value)

/-- What can happen next.  A call comes with the id `generateId` returns for it and with
the node's view of the ring at that moment. -/
inductive AckAction (Value : Type) where
  | replicateWrite (nodeId eventId : String) (getReplicaNodeIds : CacheKey → List String)
      (now : Millis) (key : CacheKey) (value : Value) (metadata : CacheMetadata)
  | replicateDelete (nodeId eventId : String)
      (getReplicaNodeIds : CacheKey → List String) (now : Millis) (key : CacheKey)
  | publishReturns (eventId : String)
  | publishFails (eventId : String) (reason : String)
  | deliver (nodeId : String) (offset : Nat) (now : Millis)
  | ackTimeout (nodeId eventId : String)
  | dispose (nodeId : String)

namespace ReplicationCluster

/-- Nodes that have made no call and received no message. -/
def start (store : String → Store) : ReplicationCluster Value Store where
  engines nodeId := ⟨.empty, store nodeId⟩
  topic := []
  calls _ := none
  history := []

def withEngine (cluster : ReplicationCluster Value Store) (nodeId : String)
    (engine : ReplicationEngine Store) : ReplicationCluster Value Store :=
  { cluster with engines := Function.update cluster.engines nodeId engine }

def withPendingAcks (cluster : ReplicationCluster Value Store) (nodeId : String)
    (pendingAcks : InsertionMap String AckWaiter) : ReplicationCluster Value Store :=
  cluster.withEngine nodeId { cluster.engines nodeId with pendingAcks := pendingAcks }

def withCall (cluster : ReplicationCluster Value Store) (eventId : String)
    (call : ReplicateCall Value) : ReplicationCluster Value Store :=
  { cluster with calls := Function.update cluster.calls eventId (some call) }

def observe (cluster : ReplicationCluster Value Store)
    (observation : AckObservation Value) : ReplicationCluster Value Store :=
  { cluster with history := observation :: cluster.history }

/-- `this.eventBus.publish(KafkaTopic.CACHE_REPLICATION, message, key)`. -/
def send (cluster : ReplicationCluster Value Store)
    (message : ReplicationTopicMessage Value) : ReplicationCluster Value Store :=
  { cluster with topic := cluster.topic ++ [message] }

/-- `waiter.resolve(...)` or `waiter.reject(...)`: the call's promise follows as soon as
`publish` has returned.  A second one would be seen again. -/
def settleAckPromise (cluster : ReplicationCluster Value Store) (eventId : String)
    (outcome : AckOutcome) : ReplicationCluster Value Store :=
  match cluster.calls eventId with
  | none => cluster
  | some call =>
      let settled := cluster.withCall eventId { call with ackPromise := some outcome }
      if call.publish = .published then
        settled.observe (.settled eventId outcome)
      else
        settled

/-! ## The source of an event -/

/-- `registerAckWaiter(eventId, targetNodeIds)` without its timer. -/
def registerAckWaiter (cluster : ReplicationCluster Value Store) (nodeId eventId : String)
    (targetNodeIds : List String) : ReplicationCluster Value Store :=
  cluster.withPendingAcks nodeId
    ((cluster.engines nodeId).pendingAcks.insert eventId
      ⟨eventId, newSet targetNodeIds, []⟩)

/-- `replicate(key, op, ...)` up to its `await`. -/
def callReplicate (cluster : ReplicationCluster Value Store) (nodeId eventId : String)
    (getReplicaNodeIds : CacheKey → List String) (now : Millis) (key : CacheKey)
    (op : ReplicationOp Value) : ReplicationCluster Value Store :=
  let event := ⟨eventId, nodeId, key, op, now⟩
  match replicate nodeId getReplicaNodeIds eventId now key op with
  | none =>
      ((cluster.observe (.called event [])).withCall eventId
        ⟨event, [], .published, some (.resolved [])⟩).observe
          (.settled eventId (.resolved []))
  | some message =>
      (((cluster.observe (.called event message.targetNodeIds)).withCall eventId
        ⟨event, message.targetNodeIds, .publishing, none⟩).registerAckWaiter nodeId
          eventId message.targetNodeIds).send (.event message)

/-- `publish` returns, and `replicate` goes on to return `ackPromise`. -/
def publishReturns (cluster : ReplicationCluster Value Store) (eventId : String) :
    ReplicationCluster Value Store :=
  match cluster.calls eventId with
  | none => cluster
  | some call =>
      if call.publish = .publishing then
        let returned := cluster.withCall eventId { call with publish := .published }
        match call.ackPromise with
        | none => returned
        | some outcome => returned.observe (.settled eventId outcome)
      else
        cluster

/-- `publish` throws, and so does `replicate`.  The waiter stays, and the message may have
reached the topic all the same. -/
def publishFails (cluster : ReplicationCluster Value Store) (eventId reason : String) :
    ReplicationCluster Value Store :=
  match cluster.calls eventId with
  | none => cluster
  | some call =>
      if call.publish = .publishing then
        (cluster.withCall eventId { call with publish := .failed }).observe
          (.settled eventId (.rejected reason))
      else
        cluster

/-- The callback of `setTimeout` in `registerAckWaiter`.  The timer of a waiter that is
gone has been cleared. -/
def ackTimeout (cluster : ReplicationCluster Value Store) (nodeId eventId : String) :
    ReplicationCluster Value Store :=
  match (cluster.engines nodeId).pendingAcks.get? eventId with
  | none => cluster
  | some waiter =>
      ((cluster.observe (.timedOut eventId)).withPendingAcks nodeId
        ((cluster.engines nodeId).pendingAcks.erase eventId)).settleAckPromise eventId
          (.resolved waiter.ackedBy)

/-- `handleAck(ack)`. -/
def handleAck (cluster : ReplicationCluster Value Store) (nodeId : String)
    (ack : ReplicationAck) : ReplicationCluster Value Store :=
  match (cluster.engines nodeId).pendingAcks.get? ack.eventId with
  | none => cluster
  | some waiter =>
      let waiter :=
        if ack.success then
          { waiter with ackedBy := addToSet waiter.ackedBy ack.replicaNodeId }
        else
          waiter
      if waiter.allTargetsAcked then
        (cluster.withPendingAcks nodeId
          ((cluster.engines nodeId).pendingAcks.erase ack.eventId)).settleAckPromise
            ack.eventId (.resolved waiter.ackedBy)
      else
        cluster.withPendingAcks nodeId
          ((cluster.engines nodeId).pendingAcks.insert ack.eventId waiter)

/-- The loop of `dispose`. -/
def rejectWaiters (cluster : ReplicationCluster Value Store) :
    List String → ReplicationCluster Value Store
  | [] => cluster
  | eventId :: rest =>
      (cluster.settleAckPromise eventId (.rejected
        "ReplicationEngine disposed while awaiting replication acks")).rejectWaiters rest

/-- `dispose()`.  The handler stays registered with the event bus. -/
def dispose (cluster : ReplicationCluster Value Store) (nodeId : String) :
    ReplicationCluster Value Store :=
  (cluster.rejectWaiters (cluster.engines nodeId).pendingAcks.keys).withPendingAcks
    nodeId .empty

/-! ## The targets of an event -/

/-- The `try` block of `handleReplicationEvent`: whether a callback ran, the message
thrown, if any, and the node's data afterwards. -/
def applyEvent (callbacks : ApplyCallbacks Value Store) (store : Store) (now : Millis)
    (event : ReplicationEvent Value) : Bool × Option String × Store :=
  match event.op with
  | .put _ none =>
      (false, some ("Replication PUT event " ++ event.eventId ++ " for key \"" ++
        event.key ++ "\" has no metadata"), store)
  | .put value (some metadata) =>
      (true, callbacks.applyRemoteWrite store now event.key value metadata)
  | .delete => (true, callbacks.applyRemoteDelete store now event.key)

/-- `handleReplicationEvent(event, targetNodeIds)`. -/
def handleReplicationEvent (callbacks : ApplyCallbacks Value Store)
    (cluster : ReplicationCluster Value Store) (nodeId : String) (now : Millis)
    (message : EventMessage Value) : ReplicationCluster Value Store :=
  if message.event.sourceNodeId = nodeId ∨ nodeId ∉ message.targetNodeIds then
    cluster
  else
    let engine := cluster.engines nodeId
    match applyEvent callbacks engine.store now message.event with
    | (ran, error, store) =>
        let handled := cluster.withEngine nodeId { engine with store := store }
        let observed :=
          match ran, error with
          | false, _ => handled
          | true, none => handled.observe (.applied nodeId message.event)
          | true, some _ => handled.observe (.threw nodeId message.event)
        observed.send (.ack ⟨message.event.eventId, nodeId, error.isNone, now, error⟩)

/-- `handleMessage(message)`. -/
def handleMessage (callbacks : String → ApplyCallbacks Value Store)
    (cluster : ReplicationCluster Value Store) (nodeId : String) (now : Millis) :
    ReplicationTopicMessage Value → ReplicationCluster Value Store
  | .event message => cluster.handleReplicationEvent (callbacks nodeId) nodeId now message
  | .ack ack => cluster.handleAck nodeId ack

/-- One step of one of the nodes; each node has its own callbacks. -/
def step (callbacks : String → ApplyCallbacks Value Store)
    (cluster : ReplicationCluster Value Store) :
    AckAction Value → ReplicationCluster Value Store
  | .replicateWrite nodeId eventId getReplicaNodeIds now key value metadata =>
      cluster.callReplicate nodeId eventId getReplicaNodeIds now key
        (.put value (some metadata))
  | .replicateDelete nodeId eventId getReplicaNodeIds now key =>
      cluster.callReplicate nodeId eventId getReplicaNodeIds now key .delete
  | .publishReturns eventId => cluster.publishReturns eventId
  | .publishFails eventId reason => cluster.publishFails eventId reason
  | .deliver nodeId offset now =>
      match cluster.topic[offset]? with
      | none => cluster
      | some message => cluster.handleMessage callbacks nodeId now message
  | .ackTimeout nodeId eventId => cluster.ackTimeout nodeId eventId
  | .dispose nodeId => cluster.dispose nodeId

/-- The id of a call is one that no earlier call got. -/
def UniqueEventId (cluster : ReplicationCluster Value Store) :
    AckAction Value → Prop
  | .replicateWrite _ eventId _ _ _ _ _ => cluster.calls eventId = none
  | .replicateDelete _ eventId _ _ _ => cluster.calls eventId = none
  | .publishReturns _ => True
  | .publishFails _ _ => True
  | .deliver _ _ _ => True
  | .ackTimeout _ _ => True
  | .dispose _ => True

instance (cluster : ReplicationCluster Value Store) :
    (action : AckAction Value) → Decidable (cluster.UniqueEventId action)
  | .replicateWrite _ eventId _ _ _ _ _ =>
      inferInstanceAs (Decidable (cluster.calls eventId = none))
  | .replicateDelete _ eventId _ _ _ =>
      inferInstanceAs (Decidable (cluster.calls eventId = none))
  | .publishReturns _ => .isTrue trivial
  | .publishFails _ _ => .isTrue trivial
  | .deliver _ _ _ => .isTrue trivial
  | .ackTimeout _ _ => .isTrue trivial
  | .dispose _ => .isTrue trivial

end ReplicationCluster

/-! ## The callbacks of a cache node -/

namespace StorageEngine

variable [EvictionHook Hook] [SizedValue Value]

/-- The callbacks a cache node passes to its engine. -/
def applyCallbacks : ApplyCallbacks Value (StorageEngine Value Hook) where
  applyRemoteWrite engine now key value metadata :=
    match engine.applyRemoteWrite now key value metadata with
    | .ok next => (none, next)
    | .error error => (some error.message, engine)
  applyRemoteDelete engine _ key := (none, engine.applyRemoteDelete key)

/-- The two `try` blocks end the same way. -/
theorem applyEvent_applyCallbacks (engine : StorageEngine Value Hook) (now : Millis)
    (event : ReplicationEvent Value) :
    (ReplicationCluster.applyEvent applyCallbacks engine now event).2 =
      match engine.applyEvent now event with
      | .ok next => (none, next)
      | .error error => (some error.message, engine) := by
  obtain ⟨eventId, source, key, op, timestamp⟩ := event
  cases op with
  | delete => rfl
  | put value metadata => cases metadata <;> rfl

/-- With these callbacks a node stores what the storage engine does and publishes its
ack. -/
theorem handleReplicationEvent_applyCallbacks
    (cluster : ReplicationCluster Value (StorageEngine Value Hook)) (nodeId : String)
    (now : Millis) (message : EventMessage Value) :
    let after := cluster.handleReplicationEvent applyCallbacks nodeId now message
    let handled := (cluster.engines nodeId).store.handleReplicationEvent nodeId now message
    (after.engines nodeId).store = handled.2 ∧
      after.topic = cluster.topic ++ (handled.1.map ReplicationTopicMessage.ack).toList := by
  by_cases skipped : message.event.sourceNodeId = nodeId ∨ nodeId ∉ message.targetNodeIds
  · simp [ReplicationCluster.handleReplicationEvent, handleReplicationEvent, skipped]
  · have same := applyEvent_applyCallbacks (cluster.engines nodeId).store now message.event
    simp only [ReplicationCluster.handleReplicationEvent, handleReplicationEvent,
      if_neg skipped]
    generalize ReplicationCluster.applyEvent applyCallbacks
      (cluster.engines nodeId).store now message.event = tried at same
    obtain ⟨ran, outcome⟩ := tried
    cases applied : (cluster.engines nodeId).store.applyEvent now message.event <;>
      simp only [applied] at same <;> subst same <;> cases ran <;>
        simp [ReplicationCluster.withEngine, ReplicationCluster.send,
          ReplicationCluster.observe]

end StorageEngine

end FlowCache
