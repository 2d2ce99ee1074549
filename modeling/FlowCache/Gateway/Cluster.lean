import FlowCache.CacheNode.Recovery
import FlowCache.Gateway.KeyPaths
import FlowCache.Gateway.PutValidation
import FlowCache.Gateway.ReplicaList
import FlowCache.Library.Transition
import FlowCache.Replication.Engine

/-!
# The cluster behind the gateway

Clients send requests to the gateway, which forwards each to one node of its key after the
other until one answers.  The nodes serve them from their storage and publish what they
wrote.  Forwarding is a step at a time: a request that the gateway gives up on may still
reach its node later, published events are delivered to any node in any order and any
number of times, and the ring learns of new statuses while requests are under way.
-/

namespace FlowCache

open Transition

/-! ## One request at one node -/

/-- A client's request, with the key that the gateway has read off its path. -/
inductive ClientRequest where
  | get (key : CacheKey)
  | put (body : RequestBody)
  | delete (key : CacheKey)

/-- The key that the gateway routes a request by, or why it refuses the request. -/
def ClientRequest.routingKey : ClientRequest → Except FlowCacheError CacheKey
  | .get key => .ok key
  | .put body => (requireKeyAndValue body).map Prod.fst
  | .delete key => .ok key

/-- What a node's handler answers with status 200. -/
inductive NodeAnswer where
  | found (body : GetResponseBody JsonValue)
  | stored (body : PutResponseBody)
  | deleted (body : DeleteResponseBody)

/-- `new NodeUnavailableError(nodeId)`, as the gateway's client throws it. -/
def nodeUnavailable (nodeId : String) : ForwardError :=
  .nodeFailure ("Cache node unavailable: \"" ++ nodeId ++ "\"")

/-- The answer to a GET has status 404: no route took the path, or the key is not stored. -/
def RouteError.isNotFound : RouteError → Bool
  | .noRoute => true
  | .keyNotFound _ => true
  | .undecodableParam _ => false
  | .thrown _ => false

/-- What handling a request does: the answer as `CacheNodeClient` passes it on, the storage
afterwards, and the operation to replicate. -/
structure HandledRequest (Hook : Type) where
  answer : Except ForwardError NodeAnswer
  engine : StorageEngine JsonValue Hook
  replicated : Option (CacheKey × ReplicationOp JsonValue)

section Handling

variable {Hook : Type} [EvictionHook Hook]

/-- `CacheNodeClient.get(node, key)` and the node's handler. -/
def handleGet (nodeId : String) (engine : StorageEngine JsonValue Hook) (now : Millis)
    (key : CacheKey) : HandledRequest Hook :=
  match getRoute nodeId engine now (fetchPath (keyPath key)) with
  | (.ok body, next) => ⟨.ok (.found body), next, none⟩
  | (.error error, next) =>
      ⟨.error (if error.isNotFound then .keyNotFound key else nodeUnavailable nodeId), next, none⟩

/-- `CacheNodeClient.delete(node, key)` and the node's handler. -/
def handleDelete (nodeId : String) (engine : StorageEngine JsonValue Hook) (key : CacheKey) :
    HandledRequest Hook :=
  match deleteRoute nodeId engine (fetchPath (keyPath key)) with
  | (.ok body, next) =>
      ⟨.ok (.deleted body), next, if body.deleted then some (body.key, .delete) else none⟩
  | (.error _, next) => ⟨.error (nodeUnavailable nodeId), next, none⟩

variable [SizedValue JsonValue] in
/-- `CacheNodeClient.put(node, body)` and the node's handler. -/
def handlePut (nodeId : String) (engine : StorageEngine JsonValue Hook) (now : Millis)
    (body : RequestBody) : HandledRequest Hook :=
  match putRoute engine now body.resent.toPut with
  | .ok (entry, next) =>
      ⟨.ok (.stored ⟨entry.key, entry.metadata.version, nodeId, false⟩), next,
        some (entry.key, .put entry.value (some entry.metadata))⟩
  | .error _ => ⟨.error (nodeUnavailable nodeId), engine, none⟩

variable [SizedValue JsonValue] in
/-- A node handles a request that the gateway's client has sent it. -/
def handleRequest (nodeId : String) (engine : StorageEngine JsonValue Hook) (now : Millis) :
    ClientRequest → HandledRequest Hook
  | .get key => handleGet nodeId engine now key
  | .put body => handlePut nodeId engine now body
  | .delete key => handleDelete nodeId engine key

/-! What handling a request does, one lemma for each kind: the node refuses it and leaves its
storage alone, or serves it under the key that it has read off the path or the body. -/

theorem handleGet_cases (nodeId : String) (engine : StorageEngine JsonValue Hook)
    (now : Millis) (key : CacheKey) :
    (∃ error, handleGet nodeId engine now key = ⟨.error error, engine, none⟩) ∨
      ∃ addressed, addressedKey (fetchPath (keyPath key)) = .ok addressed ∧
        handleGet nodeId engine now key =
          ⟨match (engine.get now addressed).1 with
            | some entry => .ok (.found ⟨addressed, entry.value, entry.metadata, nodeId⟩)
            | none => .error (.keyNotFound key),
          (engine.get now addressed).2, none⟩ := by
  unfold handleGet getRoute
  cases read : addressedKey (fetchPath (keyPath key)) with
  | error error => exact .inl ⟨_, rfl⟩
  | ok addressed =>
      refine .inr ⟨addressed, rfl, ?_⟩
      simp only [getKey]
      obtain ⟨found, next⟩ := engine.get now addressed
      cases found <;> rfl

theorem handleDelete_cases (nodeId : String) (engine : StorageEngine JsonValue Hook)
    (key : CacheKey) :
    (∃ error, handleDelete nodeId engine key = ⟨.error error, engine, none⟩) ∨
      ∃ addressed, addressedKey (fetchPath (keyPath key)) = .ok addressed ∧
        handleDelete nodeId engine key =
          ⟨.ok (.deleted ⟨addressed, (engine.delete addressed).1, nodeId⟩),
            (engine.delete addressed).2,
            if (engine.delete addressed).1 then some (addressed, .delete) else none⟩ := by
  unfold handleDelete deleteRoute
  cases read : addressedKey (fetchPath (keyPath key)) with
  | error error => exact .inl ⟨_, rfl⟩
  | ok addressed => exact .inr ⟨addressed, rfl, rfl⟩

variable [SizedValue JsonValue]

/-- What an accepted PUT leaves in a storage. -/
theorem putRoute_resent {engine next : StorageEngine JsonValue Hook} {now : Millis}
    {body : RequestBody} {entry : CacheEntry JsonValue}
    (accepted : putRoute engine now body.resent.toPut = .ok (entry, next)) :
    ∃ key value options, requireKeyAndValue body.resent = .ok (key, value) ∧ key ≠ "" ∧
      body.resent.toPut.ttlMs.setOptions = .ok options ∧
      entry = engine.nextEntry now key value options ∧
      next = engine.afterSet now key value options := by
  cases fields : requireKeyAndValue body.resent with
  | error error =>
      rw [putRoute_toPut, fields] at accepted
      cases accepted
  | ok found =>
      obtain ⟨key, value⟩ := found
      have nonempty := requireKeyAndValue_nonempty fields
      rw [putRoute_toPut, fields] at accepted
      simp only [Except.bind] at accepted
      split at accepted
      · cases accepted
      · next options checked =>
          simp only [StorageEngine.set, nonempty, if_false, Except.ok.injEq,
            Prod.mk.injEq] at accepted
          refine ⟨key, value, options, rfl, nonempty, checked, accepted.1.symm, ?_⟩
          rw [StorageEngine.afterSet_of_valid _ _ nonempty]
          exact accepted.2.symm

theorem handlePut_cases (nodeId : String) (engine : StorageEngine JsonValue Hook)
    (now : Millis) (body : RequestBody) :
    (∃ error, handlePut nodeId engine now body = ⟨.error error, engine, none⟩) ∨
      ∃ key value options, requireKeyAndValue body.resent = .ok (key, value) ∧ key ≠ "" ∧
        body.resent.toPut.ttlMs.setOptions = .ok options ∧
        handlePut nodeId engine now body =
          ⟨.ok (.stored ⟨key, (engine.nextEntry now key value options).metadata.version,
              nodeId, false⟩),
            engine.afterSet now key value options,
            some (key, .put value
              (some (engine.nextEntry now key value options).metadata))⟩ := by
  unfold handlePut
  cases routed : putRoute engine now body.resent.toPut with
  | error error => exact .inl ⟨_, rfl⟩
  | ok result =>
      obtain ⟨entry, next⟩ := result
      obtain ⟨key, value, options, fields, nonempty, checked, rfl, rfl⟩ :=
        putRoute_resent routed
      exact .inr ⟨key, value, options, fields, nonempty, checked, rfl⟩

end Handling

/-! ## The state -/

/-- A request under way: the candidates that have not failed yet, the first of which is
being asked. -/
structure Forwarding where
  request : ClientRequest
  candidates : List NodeInfo

/-- A request that a node has handled. -/
structure Handling where
  nodeId : String
  now : Millis
  request : ClientRequest
  answer : Except ForwardError NodeAnswer

/-- How the nodes were set up: the ring each of them builds, and their fresh storages. -/
structure ClusterSetup (Hook : Type) where
  nodeRing : ConsistentHashRing
  options : String → StorageEngineOptions
  hook : String → Hook

/-- The gateway and the nodes.  `strays` are requests that the gateway has given up on,
`topic` is what the nodes have published, `saved` are the snapshots on their disks. -/
structure Cluster (Hook : Type) where
  ring : ConsistentHashRing
  engine : String → StorageEngine JsonValue Hook
  clock : String → Millis
  inFlight : List Forwarding
  strays : List (String × ClientRequest)
  topic : List (EventMessage JsonValue)
  saved : List (String × List (CacheEntry JsonValue))
  log : List Handling
  answers : List (ClientRequest × Except GatewayError NodeAnswer)

/-- What can happen.  `eventId` is what `generateId` returned. -/
inductive ClusterAction where
  | accept (request : ClientRequest)
  | arrive (index : Nat) (eventId : String)
  | giveUp (index : Nat)
  | strayArrives (index : Nat) (eventId : String)
  | deliver (nodeId : String) (index : Nat)
  | setStatus (nodeId : String) (status : NodeStatus) (lastHeartbeat : Millis)
  | tick (nodeId : String) (elapsed : Nat)
  | remove (nodeId : String) (key : CacheKey)
  | capture (nodeId : String)
  | crash (nodeId : String)
  | clear (nodeId : String)
  | restore (nodeId : String) (index : Nat)

namespace ClusterSetup

variable {Hook : Type}

/-- The storage of a node whose process has just started. -/
def freshEngine (setup : ClusterSetup Hook) (nodeId : String) : StorageEngine JsonValue Hook :=
  .create (setup.options nodeId) (setup.hook nodeId)

end ClusterSetup

namespace Cluster

variable {Hook : Type}

/-- A gateway with its ring and nodes that have not stored anything yet. -/
def start (setup : ClusterSetup Hook) (ring : ConsistentHashRing) (clock : String → Millis) :
    Cluster Hook where
  ring := ring
  engine := setup.freshEngine
  clock := clock
  inFlight := []
  strays := []
  topic := []
  saved := []
  log := []
  answers := []

/-- The cluster with another storage at one node. -/
def withEngine (cluster : Cluster Hook) (nodeId : String)
    (engine : StorageEngine JsonValue Hook) : Cluster Hook :=
  { cluster with engine := Function.update cluster.engine nodeId engine }

/-- The gateway answers a client. -/
def answering (cluster : Cluster Hook) (request : ClientRequest)
    (answer : Except GatewayError NodeAnswer) : Cluster Hook :=
  { cluster with answers := cluster.answers ++ [(request, answer)] }

/-- `tryCandidates` after the candidate before `rest` has failed: ask the next one, or
throw the last error. -/
def goOn (cluster : Cluster Hook) (index : Nat) (request : ClientRequest)
    (rest : List NodeInfo) (lastError : ForwardError) : Cluster Hook :=
  match rest with
  | [] =>
      { cluster with inFlight := cluster.inFlight.eraseIdx index }.answering request
        (.error (.forwarding lastError))
  | _ :: _ => { cluster with inFlight := cluster.inFlight.set index ⟨request, rest⟩ }

/-- `accept`: the checks of the route and the choice of the candidates. -/
def acceptRequest (cluster : Cluster Hook) (request : ClientRequest) : Cluster Hook :=
  match request.routingKey with
  | .error error => cluster.answering request (.error (.own error))
  | .ok key =>
      match cluster.ring.failoverCandidates failoverCandidateCount key with
      | [] => cluster.answering request (.error (.forwarding .noHealthyNodes))
      | node :: rest =>
          { cluster with inFlight := cluster.inFlight ++ [⟨request, node :: rest⟩] }

variable [EvictionHook Hook] [SizedValue JsonValue]

/-- A request handled by a node now. -/
def handledBy (cluster : Cluster Hook) (nodeId : String) (request : ClientRequest) :
    HandledRequest Hook :=
  handleRequest nodeId (cluster.engine nodeId) (cluster.clock nodeId) request

/-- The cluster once a node has handled a request and published what it wrote. -/
def afterHandling (cluster : Cluster Hook) (setup : ClusterSetup Hook) (nodeId eventId : String)
    (request : ClientRequest) : Cluster Hook :=
  let handled := cluster.handledBy nodeId request
  { cluster.withEngine nodeId handled.engine with
    topic := cluster.topic ++ (handled.replicated.bind fun written =>
      replicate nodeId setup.nodeRing.getReplicaNodeIds eventId (cluster.clock nodeId)
        written.1 written.2).toList
    log := cluster.log ++ [⟨nodeId, cluster.clock nodeId, request, handled.answer⟩] }

/-- The answer of a node reaches the gateway. -/
def afterAnswer (cluster : Cluster Hook) (index : Nat) (request : ClientRequest)
    (rest : List NodeInfo) : Except ForwardError NodeAnswer → Cluster Hook
  | .ok answer =>
      { cluster with inFlight := cluster.inFlight.eraseIdx index }.answering request (.ok answer)
  | .error (.keyNotFound key) =>
      { cluster with inFlight := cluster.inFlight.eraseIdx index }.answering request
        (.error (.forwarding (.keyNotFound key)))
  | .error error => cluster.goOn index request rest error

/-- One step of the cluster. -/
def step (setup : ClusterSetup Hook) (cluster : Cluster Hook) : ClusterAction → Cluster Hook
  | .accept request => cluster.acceptRequest request
  | .arrive index eventId =>
      match cluster.inFlight[index]? with
      | some ⟨request, node :: rest⟩ =>
          (cluster.afterHandling setup node.nodeId eventId request).afterAnswer index request
            rest (cluster.handledBy node.nodeId request).answer
      | _ => cluster
  | .giveUp index =>
      match cluster.inFlight[index]? with
      | some ⟨request, node :: rest⟩ =>
          { cluster with strays := cluster.strays ++ [(node.nodeId, request)] }.goOn index
            request rest (nodeUnavailable node.nodeId)
      | _ => cluster
  | .strayArrives index eventId =>
      match cluster.strays[index]? with
      | some (nodeId, request) =>
          { cluster.afterHandling setup nodeId eventId request with
            strays := cluster.strays.eraseIdx index }
      | none => cluster
  | .deliver nodeId index =>
      match cluster.topic[index]? with
      | some message =>
          cluster.withEngine nodeId ((cluster.engine nodeId).handleReplicationEvent nodeId
            (cluster.clock nodeId) message).2
      | none => cluster
  | .setStatus nodeId status lastHeartbeat =>
      { cluster with ring := cluster.ring.updateNodeStatus nodeId status lastHeartbeat }
  | .tick nodeId elapsed =>
      { cluster with
        clock := Function.update cluster.clock nodeId (cluster.clock nodeId + elapsed) }
  | .remove nodeId key => cluster.withEngine nodeId ((cluster.engine nodeId).delete key).2
  | .capture nodeId =>
      { cluster with saved := cluster.saved ++ [(nodeId, (cluster.engine nodeId).entries)] }
  | .crash nodeId => cluster.withEngine nodeId (setup.freshEngine nodeId)
  | .clear nodeId => cluster.withEngine nodeId (cluster.engine nodeId).clear
  | .restore nodeId index =>
      match cluster.saved[index]? with
      | some (owner, entries) =>
          if owner = nodeId then
            cluster.withEngine nodeId ((cluster.engine nodeId).restoreEntries
              (cluster.clock nodeId) entries).2
          else cluster
      | none => cluster

end Cluster

end FlowCache
