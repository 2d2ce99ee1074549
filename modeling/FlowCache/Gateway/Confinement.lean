import FlowCache.Gateway.Cluster

/-!
# What may be stored where

A predicate says which values the nodes may hold under which keys.  If every write that the
gateway forwards to a node is allowed there, and what is allowed at one node is allowed at
the nodes it replicates to, then nothing else is ever stored, published, saved or answered:
not after failing over, redelivery, a late arrival, a crash or a recovery.
-/

namespace FlowCache

open Transition

namespace StorageEngine

variable {Value Hook : Type} {engine next : StorageEngine Value Hook}
  {allowed : CacheKey → Value → Prop}

/-- Every entry is stored under its own key with a value that is allowed there. -/
def Holds (allowed : CacheKey → Value → Prop) (engine : StorageEngine Value Hook) : Prop :=
  ∀ key entry, engine.store.get? key = some entry → entry.key = key ∧ allowed key entry.value

theorem holds_create (options : StorageEngineOptions) (hook : Hook) :
    Holds allowed (create options hook : StorageEngine Value Hook) := by
  intro key entry impossible
  cases impossible

theorem holds_clear : Holds allowed engine.clear := by
  intro key entry impossible
  cases impossible

/-- Entries that come and go with their content stay allowed. -/
theorem Holds.of_stored (holds : Holds allowed engine)
    (stored : ∀ key kept, next.store.get? key = some kept →
      ∃ entry, engine.store.get? key = some entry ∧ CacheEntry.SameContent kept entry) :
    Holds allowed next := by
  intro key kept found
  obtain ⟨entry, before, same⟩ := stored key kept found
  rw [same.key, same.value]
  exact holds key entry before

theorem Holds.of_entries (holds : Holds allowed engine) :
    ∀ entry ∈ engine.entries, allowed entry.key entry.value := by
  intro entry member
  obtain ⟨key, found⟩ := InsertionMap.mem_values_iff.mp member
  obtain ⟨rfl, may⟩ := holds key entry found
  exact may

variable [EvictionHook Hook]

theorem Holds.delete (holds : Holds allowed engine) (key : CacheKey) :
    Holds allowed (engine.delete key).2 := by
  apply holds.of_stored
  intro query kept found
  rw [delete_get?] at found
  split at found
  · cases found
  · exact ⟨kept, found, rfl, rfl, rfl, rfl⟩

variable [SizedValue Value]

theorem Holds.afterSet (holds : Holds allowed engine) (now : Millis) {key : CacheKey}
    {value : Value} (may : allowed key value) (options : SetOptions) :
    Holds allowed (engine.afterSet now key value options) := by
  intro query entry stored
  rcases afterSet_stored stored with ⟨_, rfl, rfl⟩ | ⟨_, kept⟩
  · exact ⟨rfl, may⟩
  · exact holds query entry kept

theorem Holds.afterEvent (holds : Holds allowed engine) (now : Millis)
    {event : ReplicationEvent Value}
    (may : ∀ value metadata, event.op = .put value metadata → allowed event.key value) :
    Holds allowed (engine.afterEvent now event) := by
  unfold StorageEngine.afterEvent
  split
  · exact holds
  · next value metadata op =>
      cases stale : engine.isStaleWrite now event.key metadata with
      | true =>
          rw [afterRemoteWrite_of_stale stale]
          exact holds
      | false =>
          rw [afterRemoteWrite_of_fresh stale]
          exact holds.afterSet now (may value _ op) _
  · exact holds.delete event.key

theorem Holds.handleReplicationEvent (holds : Holds allowed engine) (nodeId : String)
    (now : Millis) {message : EventMessage Value}
    (may : nodeId ∈ message.targetNodeIds → ∀ value metadata,
      message.event.op = .put value metadata → allowed message.event.key value) :
    Holds allowed (engine.handleReplicationEvent nodeId now message).2 := by
  by_cases target : nodeId ∈ message.targetNodeIds
  · rcases engine.handleReplicationEvent_cases nodeId now message with same | applied
    · rw [same]
      exact holds
    · rw [applied]
      exact holds.afterEvent now (may target)
  · rw [handleReplicationEvent_of_not_target target]
    exact holds

theorem Holds.restoreEntries (holds : Holds allowed engine) (now : Millis)
    {entries : List (CacheEntry Value)}
    (may : ∀ entry ∈ entries, allowed entry.key entry.value) :
    Holds allowed (engine.restoreEntries now entries).2 := by
  apply restoreEntries_induction (Holds allowed) _ holds
  intro current entry member before
  exact before.afterSet now (may entry member) _

end StorageEngine

/-- The request stores the value under the key at a node that accepts it. -/
def ClientRequest.Writes (request : ClientRequest) (key : CacheKey) (value : JsonValue) : Prop :=
  match request with
  | .put body => requireKeyAndValue body.resent = .ok (key, value)
  | .get _ | .delete _ => False

section Handling

variable {Hook : Type} [EvictionHook Hook] [SizedValue JsonValue]

/-- What a node does with a request when its storage is confined and the request may be
written. -/
structure HandledRequest.Within (allowed : CacheKey → JsonValue → Prop) (nodeId : String)
    (handled : HandledRequest Hook) : Prop where
  stored : handled.engine.Holds allowed
  answered : ∀ body, handled.answer = .ok (.found body) →
    body.nodeId = nodeId ∧ allowed body.key body.value
  replicated : ∀ key value metadata, handled.replicated = some (key, .put value metadata) →
    allowed key value

theorem handleRequest_within {allowed : CacheKey → JsonValue → Prop} {nodeId : String}
    {engine : StorageEngine JsonValue Hook} (holds : engine.Holds allowed) (now : Millis)
    {request : ClientRequest} (may : ∀ key value, request.Writes key value → allowed key value) :
    (handleRequest nodeId engine now request).Within allowed nodeId := by
  have refused : ∀ error, HandledRequest.Within allowed nodeId ⟨.error error, engine, none⟩ :=
    fun error => ⟨holds, fun _ impossible => (nomatch impossible),
      fun _ _ _ impossible => (nomatch impossible)⟩
  cases request with
  | get key =>
      rcases handleGet_cases nodeId engine now key with
        ⟨error, same⟩ | ⟨addressed, _, same⟩
      · rw [handleRequest, same]
        exact refused error
      · rw [handleRequest, same]
        refine ⟨holds.of_stored fun _ _ => StorageEngine.get_stored, ?_,
          fun _ _ _ impossible => (nomatch impossible)⟩
        intro body answered
        rw [StorageEngine.get_fst] at answered
        cases shown : engine.peek now addressed with
        | none =>
            rw [shown] at answered
            cases answered
        | some entry =>
            rw [shown] at answered
            cases answered
            exact ⟨rfl, (holds addressed entry (StorageEngine.peek_eq_some_iff.mp shown).1).2⟩
  | put body =>
      rcases handlePut_cases nodeId engine now body with
        ⟨error, same⟩ | ⟨key, value, options, fields, _, _, same⟩
      · rw [handleRequest, same]
        exact refused error
      · rw [handleRequest, same]
        refine ⟨holds.afterSet now (may key value fields) options,
          fun _ impossible => (nomatch impossible), ?_⟩
        rintro _ _ _ written
        cases written
        exact may key value fields
  | delete key =>
      rcases handleDelete_cases nodeId engine key with
        ⟨error, same⟩ | ⟨addressed, _, same⟩
      · rw [handleRequest, same]
        exact refused error
      · rw [handleRequest, same]
        refine ⟨holds.delete addressed, fun _ impossible => (nomatch impossible), ?_⟩
        intro _ _ _ written
        split at written <;> cases written

end Handling

/-- What a published message says. -/
theorem replicate_eq_some {Value : Type} {nodeId eventId : String}
    {getReplicaNodeIds : CacheKey → List String} {now : Millis} {key : CacheKey}
    {op : ReplicationOp Value} {message : EventMessage Value}
    (published : replicate nodeId getReplicaNodeIds eventId now key op = some message) :
    message.event = ⟨eventId, nodeId, key, op, now⟩ ∧
      ∀ target ∈ message.targetNodeIds, target ∈ getReplicaNodeIds key := by
  simp only [replicate] at published
  split at published
  · cases published
  · cases published
    exact ⟨rfl, fun target member => (List.mem_filter.mp member).1⟩

namespace Cluster

variable {Hook : Type}

/-- Whatever is stored, on its way, saved or answered is allowed at its node. -/
structure Confined (allowed : String → CacheKey → JsonValue → Prop) (cluster : Cluster Hook) :
    Prop where
  stored : ∀ nodeId, (cluster.engine nodeId).Holds (allowed nodeId)
  inFlight : ∀ forwarding ∈ cluster.inFlight, ∀ node ∈ forwarding.candidates, ∀ key value,
    forwarding.request.Writes key value → allowed node.nodeId key value
  strays : ∀ stray ∈ cluster.strays, ∀ key value,
    stray.2.Writes key value → allowed stray.1 key value
  topic : ∀ message ∈ cluster.topic, ∀ value metadata,
    message.event.op = .put value metadata →
      ∀ target ∈ message.targetNodeIds, allowed target message.event.key value
  saved : ∀ snapshot ∈ cluster.saved, ∀ entry ∈ snapshot.2,
    allowed snapshot.1 entry.key entry.value
  answers : ∀ answered ∈ cluster.answers, ∀ body, answered.2 = .ok (.found body) →
    allowed body.nodeId body.key body.value

variable {allowed : String → CacheKey → JsonValue → Prop} {cluster : Cluster Hook}

theorem confined_start (setup : ClusterSetup Hook) (ring : ConsistentHashRing)
    (clock : String → Millis) : Confined allowed (start setup ring clock) where
  stored nodeId := StorageEngine.holds_create _ _
  inFlight := by simp [start]
  strays := by simp [start]
  topic := by simp [start]
  saved := by simp [start]
  answers := by simp [start]

theorem Confined.withEngine (confined : Confined allowed cluster) {nodeId : String}
    {engine : StorageEngine JsonValue Hook} (holds : engine.Holds (allowed nodeId)) :
    Confined allowed (cluster.withEngine nodeId engine) :=
  { confined with
    stored := by
      intro other
      simp only [Cluster.withEngine]
      by_cases same : other = nodeId
      · subst same
        rw [Function.update_self]
        exact holds
      · rw [Function.update_of_ne same]
        exact confined.stored other }

theorem Confined.answering (confined : Confined allowed cluster) {request : ClientRequest}
    {answer : Except GatewayError NodeAnswer}
    (may : ∀ body, answer = .ok (.found body) → allowed body.nodeId body.key body.value) :
    Confined allowed (cluster.answering request answer) :=
  { confined with
    answers := by
      intro answered member body found
      rcases List.mem_append.mp member with before | new
      · exact confined.answers answered before body found
      · rw [List.mem_singleton.mp new] at found
        exact may body found }

/-- Requests under way may be dropped. -/
theorem Confined.eraseInFlight (confined : Confined allowed cluster) (index : Nat) :
    Confined allowed { cluster with inFlight := cluster.inFlight.eraseIdx index } :=
  { confined with
    inFlight := fun forwarding member =>
      confined.inFlight forwarding (List.mem_of_mem_eraseIdx member) }

theorem Confined.goOn (confined : Confined allowed cluster) (index : Nat)
    {request : ClientRequest} {rest : List NodeInfo} (lastError : ForwardError)
    (may : ∀ node ∈ rest, ∀ key value, request.Writes key value →
      allowed node.nodeId key value) :
    Confined allowed (cluster.goOn index request rest lastError) := by
  unfold Cluster.goOn
  split
  · exact (confined.eraseInFlight index).answering fun _ impossible => (nomatch impossible)
  · next node later =>
      exact { confined with
        inFlight := by
          intro forwarding member
          rcases List.mem_or_eq_of_mem_set member with before | rfl
          · exact confined.inFlight forwarding before
          · exact may }

theorem Confined.afterAnswer (confined : Confined allowed cluster) (index : Nat)
    {request : ClientRequest} {rest : List NodeInfo}
    {answer : Except ForwardError NodeAnswer}
    (found : ∀ body, answer = .ok (.found body) → allowed body.nodeId body.key body.value)
    (may : ∀ node ∈ rest, ∀ key value, request.Writes key value →
      allowed node.nodeId key value) :
    Confined allowed (cluster.afterAnswer index request rest answer) := by
  unfold Cluster.afterAnswer
  split
  · next served =>
      apply (confined.eraseInFlight index).answering
      intro body same
      cases same
      exact found body rfl
  · exact (confined.eraseInFlight index).answering fun _ impossible => (nomatch impossible)
  · next error _ => exact confined.goOn index error may

/-- The node that a request was forwarded to may be written. -/
theorem Confined.forwarded (confined : Confined allowed cluster) {index : Nat}
    {request : ClientRequest} {node : NodeInfo} {rest : List NodeInfo}
    (found : cluster.inFlight[index]? = some ⟨request, node :: rest⟩) :
    ∀ candidate ∈ node :: rest, ∀ key value, request.Writes key value →
      allowed candidate.nodeId key value :=
  confined.inFlight _ (List.mem_of_getElem? found)

/-- What is allowed at one node is allowed where it replicates to. -/
def ClosedUnderReplication (allowed : String → CacheKey → JsonValue → Prop)
    (setup : ClusterSetup Hook) : Prop :=
  ∀ nodeId key value, allowed nodeId key value →
    ∀ replica ∈ setup.nodeRing.getReplicaNodeIds key, allowed replica key value

variable [EvictionHook Hook] [SizedValue JsonValue]

theorem Confined.afterHandling (confined : Confined allowed cluster)
    {setup : ClusterSetup Hook} (closed : ClosedUnderReplication allowed setup)
    (nodeId eventId : String) {request : ClientRequest}
    (may : ∀ key value, request.Writes key value → allowed nodeId key value) :
    Confined allowed (cluster.afterHandling setup nodeId eventId request) := by
  have within : (cluster.handledBy nodeId request).Within (allowed nodeId) nodeId :=
    handleRequest_within (confined.stored nodeId) (cluster.clock nodeId) may
  have stored := confined.withEngine within.stored
  refine { stored with topic := ?_ }
  intro message member value metadata op target targeted
  rcases List.mem_append.mp member with before | new
  · exact confined.topic message before value metadata op target targeted
  · obtain ⟨written, replicated, published⟩ :=
      Option.bind_eq_some_iff.mp (Option.mem_toList.mp new)
    obtain ⟨key, operation⟩ := written
    obtain ⟨event, targets⟩ := replicate_eq_some published
    rw [event] at op ⊢
    obtain rfl : operation = .put value metadata := op
    exact closed nodeId key value (within.replicated key value metadata replicated) target
      (targets target targeted)

/-- A request that the gateway accepts may be written at each of its candidates. -/
def AcceptsOnly (allowed : String → CacheKey → JsonValue → Prop) (cluster : Cluster Hook) :
    ClusterAction → Prop
  | .accept request => ∀ routed, request.routingKey = .ok routed →
      ∀ node ∈ cluster.ring.failoverCandidates failoverCandidateCount routed,
        ∀ key value, request.Writes key value → allowed node.nodeId key value
  | _ => True

theorem Confined.step (confined : Confined allowed cluster) {setup : ClusterSetup Hook}
    (closed : ClosedUnderReplication allowed setup) {action : ClusterAction}
    (accepts : cluster.AcceptsOnly allowed action) :
    Confined allowed (cluster.step setup action) := by
  cases action with
  | accept request =>
      simp only [Cluster.step, acceptRequest]
      split
      · exact confined.answering fun _ impossible => (nomatch impossible)
      · next key routed =>
          have may := accepts key routed
          split
          · exact confined.answering fun _ impossible => (nomatch impossible)
          · next node rest candidates =>
              rw [candidates] at may
              exact { confined with
                inFlight := by
                  intro forwarding member
                  rcases List.mem_append.mp member with before | new
                  · exact confined.inFlight forwarding before
                  · rw [List.mem_singleton.mp new]
                    exact may }
  | arrive index eventId =>
      simp only [Cluster.step]
      split
      · next request node rest found =>
          have may := confined.forwarded found
          have here := may node List.mem_cons_self
          have within : (cluster.handledBy node.nodeId request).Within
              (allowed node.nodeId) node.nodeId :=
            handleRequest_within (confined.stored node.nodeId) _ here
          apply (confined.afterHandling closed node.nodeId eventId here).afterAnswer
          · intro body served
            obtain ⟨named, shown⟩ := within.answered body served
            rw [named]
            exact shown
          · exact fun other member => may other (List.mem_cons_of_mem _ member)
      · exact confined
  | giveUp index =>
      simp only [Cluster.step]
      split
      · next request node rest found =>
          have may := confined.forwarded found
          have stray : Confined allowed
              { cluster with strays := cluster.strays ++ [(node.nodeId, request)] } :=
            { confined with
              strays := by
                intro stray member
                rcases List.mem_append.mp member with before | new
                · exact confined.strays stray before
                · rw [List.mem_singleton.mp new]
                  exact may node List.mem_cons_self }
          exact stray.goOn index _ fun other member =>
            may other (List.mem_cons_of_mem _ member)
      · exact confined
  | strayArrives index eventId =>
      simp only [Cluster.step]
      split
      · next nodeId request found =>
          have handled := confined.afterHandling closed nodeId eventId
            (confined.strays _ (List.mem_of_getElem? found))
          exact { handled with
            strays := fun stray member =>
              confined.strays stray (List.mem_of_mem_eraseIdx member) }
      · exact confined
  | deliver nodeId index =>
      simp only [Cluster.step]
      split
      · next message found =>
          apply confined.withEngine
          apply (confined.stored nodeId).handleReplicationEvent
          intro target value metadata op
          exact confined.topic message (List.mem_of_getElem? found) value metadata op nodeId
            target
      · exact confined
  | setStatus nodeId status lastHeartbeat => exact { confined with }
  | tick nodeId elapsed => exact { confined with }
  | remove nodeId key => exact confined.withEngine ((confined.stored nodeId).delete key)
  | capture nodeId =>
      exact { confined with
        saved := by
          intro snapshot member
          rcases List.mem_append.mp member with before | new
          · exact confined.saved snapshot before
          · rw [List.mem_singleton.mp new]
            exact (confined.stored nodeId).of_entries }
  | crash nodeId => exact confined.withEngine (StorageEngine.holds_create _ _)
  | clear nodeId => exact confined.withEngine StorageEngine.holds_clear
  | restore nodeId index =>
      simp only [Cluster.step]
      split
      · next owner entries found =>
          split
          · next same =>
              subst same
              apply confined.withEngine
              exact (confined.stored owner).restoreEntries _
                (confined.saved _ (List.mem_of_getElem? found))
          · exact confined
      · exact confined

theorem confined_run {setup : ClusterSetup Hook}
    (closed : ClosedUnderReplication allowed setup) {ring : ConsistentHashRing}
    {clock : String → Millis} {actions : List ClusterAction}
    (accepts : EveryStep (step setup) (AcceptsOnly allowed) (start setup ring clock) actions) :
    Confined allowed (run (step setup) (start setup ring clock) actions) :=
  EveryStep.invariant (fun _ _ confined may => Confined.step confined closed may)
    (confined_start setup ring clock) accepts

/-! ## No value out of thin air -/

omit [EvictionHook Hook] [SizedValue JsonValue] in
/-- A body that the gateway accepts is written under its key, serialized again. -/
theorem writes_of_routingKey {request : ClientRequest} {routed : CacheKey}
    (accepted : request.routingKey = .ok routed) {key : CacheKey} {value : JsonValue}
    (writes : request.Writes key value) :
    ∃ body original, request = .put body ∧ requireKeyAndValue body = .ok (key, original) ∧
      value = original.resent ∧ routed = key := by
  cases request with
  | get _ => exact writes.elim
  | delete _ => exact writes.elim
  | put body =>
      cases fields : requireKeyAndValue body with
      | error error =>
          simp only [ClientRequest.routingKey, fields] at accepted
          cases accepted
      | ok found =>
          obtain ⟨own, original⟩ := found
          simp only [ClientRequest.routingKey, fields] at accepted
          cases accepted
          have sent := requireKeyAndValue_resent fields
          rw [ClientRequest.Writes, sent] at writes
          cases writes
          exact ⟨body, original, rfl, fields, rfl, rfl⟩

/-- No value comes out of thin air.  Whatever the order of arrivals, late arrivals, failures,
redeliveries, crashes and recoveries: a value that a node stores under a key, or that the
answer to a GET carries with a key, is the value of a PUT of that key that a client has
sent. -/
theorem values_come_from_puts (setup : ClusterSetup Hook) (ring : ConsistentHashRing)
    (clock : String → Millis) (actions : List ClusterAction) :
    (∀ nodeId key entry,
      ((run (step setup) (start setup ring clock) actions).engine nodeId).store.get? key =
          some entry →
        ∃ body value, .accept (.put body) ∈ actions ∧
          requireKeyAndValue body = .ok (key, value) ∧ entry.value = value.resent) ∧
      ∀ request found,
        (request, .ok (.found found)) ∈
            (run (step setup) (start setup ring clock) actions).answers →
          ∃ body value, .accept (.put body) ∈ actions ∧
            requireKeyAndValue body = .ok (found.key, value) ∧
            found.value = value.resent := by
  have confined : Confined
      (fun _ key value => ∃ body original, ClusterAction.accept (.put body) ∈ actions ∧
        requireKeyAndValue body = .ok (key, original) ∧ value = original.resent)
      (run (step setup) (start setup ring clock) actions) := by
    apply confined_run
    · exact fun _ _ _ may _ _ => may
    · apply everyStep_of_forall_mem
      intro cluster action member
      cases action with
      | accept request =>
          intro routed accepted node _ key value writes
          obtain ⟨body, original, rfl, fields, same, _⟩ :=
            writes_of_routingKey accepted writes
          exact ⟨body, original, member, fields, same⟩
      | _ => trivial
  constructor
  · intro nodeId key entry found
    exact (confined.stored nodeId key entry found).2
  · intro request found answered
    exact confined.answers _ answered found rfl

/-! ## Keys stay on their candidates -/

omit [EvictionHook Hook] [SizedValue JsonValue] in
theorem nodeId_mem_of_candidate {ring : ConsistentHashRing} (consistent : ring.Consistent)
    {count : Rat} {key : CacheKey} {node : NodeInfo}
    (candidate : node ∈ ring.failoverCandidates count key) :
    node.nodeId ∈ ring.getNodesForKey key count := by
  obtain ⟨listed, _⟩ := List.mem_filter.mp candidate
  obtain ⟨nodeId, member, found⟩ := List.mem_filterMap.mp listed
  rw [consistent.nodeId_eq found]
  exact member

/-- The ring of the gateway has the points it was built with. -/
def RingKept (nodeRing : ConsistentHashRing) (cluster : Cluster Hook) : Prop :=
  nodeRing.SamePoints cluster.ring ∧ cluster.ring.Consistent

omit [EvictionHook Hook] [SizedValue JsonValue] in
theorem goOn_ring (index : Nat) (request : ClientRequest) (rest : List NodeInfo)
    (lastError : ForwardError) :
    (cluster.goOn index request rest lastError).ring = cluster.ring := by
  cases rest <;> rfl

/-- Only a new status changes the ring. -/
theorem step_ring (setup : ClusterSetup Hook) {action : ClusterAction}
    (other : ∀ nodeId status lastHeartbeat,
      action ≠ .setStatus nodeId status lastHeartbeat) :
    (cluster.step setup action).ring = cluster.ring := by
  cases action with
  | setStatus nodeId status lastHeartbeat =>
      exact absurd rfl (other nodeId status lastHeartbeat)
  | accept request =>
      simp only [step, acceptRequest]
      split
      · rfl
      · split <;> rfl
  | arrive index eventId =>
      simp only [step]
      split
      · unfold Cluster.afterAnswer
        split
        · rfl
        · rfl
        · exact goOn_ring _ _ _ _
      · rfl
  | giveUp index =>
      simp only [step]
      split
      · exact goOn_ring _ _ _ _
      · rfl
  | strayArrives index eventId =>
      simp only [step]
      split <;> rfl
  | deliver nodeId index =>
      simp only [step]
      split <;> rfl
  | restore nodeId index =>
      simp only [step]
      split
      · split <;> rfl
      · rfl
  | tick | remove | capture | crash | clear => rfl

theorem RingKept.step {nodeRing : ConsistentHashRing} (kept : RingKept nodeRing cluster)
    (setup : ClusterSetup Hook) (action : ClusterAction) :
    RingKept nodeRing (cluster.step setup action) := by
  cases action with
  | setStatus nodeId status lastHeartbeat =>
      exact ⟨kept.1.updateNodeStatus _ _ _, kept.2.updateNodeStatus _ _ _⟩
  | _ =>
      rw [RingKept, step_ring]
      · exact kept
      · exact fun _ _ _ impossible => (nomatch impossible)

/-- A key is stored on its candidates only.  The gateway and the nodes are built from one
list of static nodes; then a node that ever stores an entry, or that ever answers a GET with
one, is one of the first nodes that the ring names for its key, as many as the gateway may
fail over to. -/
theorem entries_stay_on_candidates (virtualNodeCount : Rat) (staticNodes : List StaticNode)
    (booted opened : Millis) (options : String → StorageEngineOptions) (hook : String → Hook)
    (clock : String → Millis) (actions : List ClusterAction) :
    (∀ nodeId key entry,
      ((run (step ⟨cacheNodeRing virtualNodeCount staticNodes booted, options, hook⟩)
          (start ⟨cacheNodeRing virtualNodeCount staticNodes booted, options, hook⟩
            (GatewayHealth.create virtualNodeCount staticNodes opened).ring clock)
          actions).engine nodeId).store.get? key = some entry →
        nodeId ∈ (cacheNodeRing virtualNodeCount staticNodes booted).getNodesForKey key
          failoverCandidateCount) ∧
      ∀ request found,
        (request, .ok (.found found)) ∈
            (run (step ⟨cacheNodeRing virtualNodeCount staticNodes booted, options, hook⟩)
              (start ⟨cacheNodeRing virtualNodeCount staticNodes booted, options, hook⟩
                (GatewayHealth.create virtualNodeCount staticNodes opened).ring clock)
              actions).answers →
          found.nodeId ∈ (cacheNodeRing virtualNodeCount staticNodes booted).getNodesForKey
            found.key failoverCandidateCount := by
  have booted_consistent := consistent_cacheNodeRing virtualNodeCount staticNodes booted
  have ringAtStart : RingKept (cacheNodeRing virtualNodeCount staticNodes booted)
      (start ⟨cacheNodeRing virtualNodeCount staticNodes booted, options, hook⟩
        (GatewayHealth.create virtualNodeCount staticNodes opened).ring clock) :=
    ⟨GatewayHealth.samePoints_create virtualNodeCount staticNodes booted opened,
      GatewayHealth.consistent_run virtualNodeCount staticNodes opened ⟨0, 0⟩ []⟩
  have confined := @confined_run _
    (fun nodeId key _ => nodeId ∈
      (cacheNodeRing virtualNodeCount staticNodes booted).getNodesForKey key
        failoverCandidateCount) _ _
    ⟨cacheNodeRing virtualNodeCount staticNodes booted, options, hook⟩ ?_
    (GatewayHealth.create virtualNodeCount staticNodes opened).ring clock actions ?_
  · constructor
    · intro nodeId key entry found
      exact (confined.stored nodeId key entry found).2
    · intro request found answered
      exact confined.answers _ answered found rfl
  · -- the nodes that hold a copy are the first of the candidates
    intro _ key _ _ replica listed
    have longer := (booted_consistent.replicaList key replicationFactor).extends_to_next
    exact longer.subset (by exact_mod_cast listed)
  · refine @EveryStep.of_invariant _ _ _ (fun _ _ => True) _
      (RingKept (cacheNodeRing virtualNodeCount staticNodes booted)) _ _
      (fun _ action kept _ => kept.step _ action) ?_ ringAtStart
      (everyStep_of_forall (fun _ _ => trivial) _ _)
    intro cluster action kept _
    cases action with
    | accept request =>
        intro routed accepted node candidate key value writes
        obtain ⟨_, _, _, _, _, rfl⟩ := writes_of_routingKey accepted writes
        have listed := nodeId_mem_of_candidate kept.2 candidate
        rw [kept.1.getNodesForKey] at listed
        exact listed
    | _ => trivial

end Cluster

end FlowCache
