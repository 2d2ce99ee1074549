import FlowCache.ConsistentHash.Membership

/-!
# Forwarding with failover

`forwardWithFailover` of the gateway's cache routes: a request goes to the nodes that the
ring names for its key, one after the other, until one of them answers.  Nodes that the
ring has as DEAD are left out.
-/

namespace FlowCache

variable {Body : Type}

/-- What a request to a node, and so forwarding, may throw. -/
inductive ForwardError where
  | keyNotFound (key : CacheKey)
  | noHealthyNodes
  | nodeFailure (message : String)
  deriving DecidableEq, Repr

namespace ConsistentHashRing

/-- `candidates`: the nodes for a key that are not DEAD. -/
def failoverCandidates (ring : ConsistentHashRing) (count : Rat) (key : CacheKey) :
    List NodeInfo :=
  ((ring.getNodesForKey key count).filterMap ring.getNodeInfo).filter
    fun node => node.status ≠ .dead

/-- The loop over the candidates: the nodes it tries, in order, and how it ends. -/
def tryCandidates (action : NodeInfo → Except ForwardError Body) (lastError : ForwardError) :
    List NodeInfo → List NodeInfo × Except ForwardError Body
  | [] => ([], .error lastError)
  | node :: rest =>
      match action node with
      | .ok body => ([node], .ok body)
      | .error (.keyNotFound key) => ([node], .error (.keyNotFound key))
      | .error error =>
          let later := tryCandidates action error rest
          (node :: later.1, later.2)

/-- `forwardWithFailover(ctx, key, action)`; `count` is `replicationFactorForFailover`. -/
def forwardWithFailover (ring : ConsistentHashRing) (count : Rat) (key : CacheKey)
    (action : NodeInfo → Except ForwardError Body) :
    List NodeInfo × Except ForwardError Body :=
  let candidates := ring.failoverCandidates count key
  if candidates = [] then
    ([], .error .noHealthyNodes)
  else
    tryCandidates action .noHealthyNodes candidates

theorem mem_of_mem_tryCandidates {action : NodeInfo → Except ForwardError Body}
    {lastError : ForwardError} {candidates : List NodeInfo} {node : NodeInfo}
    (tried : node ∈ (tryCandidates action lastError candidates).1) :
    node ∈ candidates := by
  induction candidates generalizing lastError with
  | nil => exact tried
  | cons candidate rest ih =>
      rw [tryCandidates] at tried
      split at tried
      · exact List.mem_cons.mpr (.inl (List.mem_singleton.mp tried))
      · exact List.mem_cons.mpr (.inl (List.mem_singleton.mp tried))
      · rcases List.mem_cons.mp tried with same | later
        · exact List.mem_cons.mpr (.inl same)
        · exact List.mem_cons_of_mem _ (ih later)

/-- Only candidates are tried. -/
theorem mem_candidates_of_tried {ring : ConsistentHashRing} {count : Rat} {key : CacheKey}
    {action : NodeInfo → Except ForwardError Body} {node : NodeInfo}
    (tried : node ∈ (ring.forwardWithFailover count key action).1) :
    node ∈ ring.failoverCandidates count key := by
  rw [forwardWithFailover] at tried
  split at tried
  · cases tried
  · exact mem_of_mem_tryCandidates tried

/-- A stored node has the id it is stored under. -/
theorem Consistent.nodeId_eq {ring : ConsistentHashRing} (consistent : ring.Consistent)
    {nodeId : String} {info : NodeInfo} (found : ring.getNodeInfo nodeId = some info) :
    info.nodeId = nodeId :=
  consistent.keyed _ (InsertionMap.get?_eq_some_iff.mp found)

/-- A node that the ring has as DEAD is not tried. -/
theorem Consistent.not_tried_of_dead {ring : ConsistentHashRing}
    (consistent : ring.Consistent) {nodeId : String} {info : NodeInfo}
    (found : ring.getNodeInfo nodeId = some info) (dead : info.status = .dead)
    {count : Rat} {key : CacheKey} {action : NodeInfo → Except ForwardError Body}
    {node : NodeInfo} (tried : node ∈ (ring.forwardWithFailover count key action).1) :
    node.nodeId ≠ nodeId := by
  intro same
  obtain ⟨listed, alive⟩ := List.mem_filter.mp (mem_candidates_of_tried tried)
  obtain ⟨candidate, -, stored⟩ := List.mem_filterMap.mp listed
  have named := consistent.nodeId_eq stored
  rw [← named, same, found] at stored
  cases stored
  exact of_decide_eq_true alive dead

end ConsistentHashRing

end FlowCache
