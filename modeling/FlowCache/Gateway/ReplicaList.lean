import FlowCache.ConsistentHash.Rebalance
import FlowCache.Gateway.CacheRoutes
import FlowCache.Gateway.NodeHealthTracker

/-!
# Replica lists

`getNodesForKey` lists the first nodes of a key's preference order, which has every
physical node once.  The cache nodes ask their ring for the nodes that hold a copy of a
key, the gateway asks its own for the nodes it may fail over to.  Both rings are built
from the same static nodes, and the polls of the gateway change statuses only, so the
two lists are prefixes of one order.
-/

namespace FlowCache

open Transition

/-- `REPLICATION_FACTOR` of `CacheNodeServer`. -/
def replicationFactor : Nat := 2

/-- `FAILOVER_CANDIDATE_COUNT` of `GatewayServer`. -/
def failoverCandidateCount : Nat := 3

/-- The node that the constructor of `CacheNodeServer` adds to its ring. -/
def StaticNode.healthy (node : StaticNode) (now : Millis) : NodeInfo where
  nodeId := node.nodeId
  host := node.host
  port := node.port
  status := .healthy
  lastHeartbeat := now
  weight := node.weight

/-- The ring of a new `CacheNodeServer`. -/
def cacheNodeRing (virtualNodeCount : Rat) (staticNodes : List StaticNode) (now : Millis) :
    ConsistentHashRing :=
  staticNodes.foldl (fun ring node => (ring.addNode (node.healthy now)).2)
    (.create ⟨virtualNodeCount⟩)

namespace ConsistentHashRing

/-- `getReplicaNodeIds` of `CacheNodeServer`. -/
def getReplicaNodeIds (ring : ConsistentHashRing) (key : CacheKey) : List String :=
  ring.getNodesForKey key replicationFactor

variable {ring other : ConsistentHashRing}

/-! ## One ring -/

theorem Consistent.perm_preference (consistent : Consistent ring) (key : CacheKey) :
    (ring.preference key).Perm ring.nodes.keys := by
  rw [consistent.preference_eq]
  exact StableSort.perm_stableSort _

theorem Consistent.nodup_preference (consistent : Consistent ring) (key : CacheKey) :
    (ring.preference key).Nodup :=
  (consistent.perm_preference key).nodup_iff.mpr ring.nodes.keys_nodup

theorem Consistent.length_preference (consistent : Consistent ring) (key : CacheKey) :
    (ring.preference key).length = ring.getPhysicalNodes.length := by
  rw [(consistent.perm_preference key).length_eq, ← consistent.map_nodeId, List.length_map]

/-- For an integer count the list is that many nodes of the preference order. -/
theorem Consistent.getNodesForKey_int (consistent : Consistent ring) (key : CacheKey)
    (count : Int) :
    ring.getNodesForKey key count = (ring.preference key).take count.toNat := by
  rw [getNodesForKey_eq consistent.sorted, Nat.ceil_intCast]

theorem Consistent.getNodesForKey_nat (consistent : Consistent ring) (key : CacheKey)
    (count : Nat) : ring.getNodesForKey key count = (ring.preference key).take count := by
  rw [getNodesForKey_eq consistent.sorted, Nat.ceil_natCast]

/-- What a caller may rely on when it asks for the nodes of a key. -/
structure ReplicaList (ring : ConsistentHashRing) (key : CacheKey) (count : Int) :
    Prop where
  nodup : (ring.getNodesForKey key count).Nodup
  length : (ring.getNodesForKey key count).length =
    min (max count 0).toNat ring.getPhysicalNodes.length
  member : ∀ nodeId ∈ ring.getNodesForKey key count, ring.hasNode nodeId = true
  first : 1 ≤ count → ring.getPhysicalNodes ≠ [] → ∃ owner,
    ring.getNode key = some owner ∧ (ring.getNodesForKey key count).head? = some owner
  extends_to_next : ring.getNodesForKey key count <+:
    ring.getNodesForKey key ((count + 1 : Int) : Rat)

theorem Consistent.replicaList (consistent : Consistent ring) (key : CacheKey)
    (count : Int) : ring.ReplicaList key count where
  nodup := by
    rw [consistent.getNodesForKey_int]
    exact (consistent.nodup_preference key).sublist (List.take_sublist _ _)
  length := by
    rw [consistent.getNodesForKey_int, List.length_take, consistent.length_preference]
    congr 1
    omega
  member := by
    intro nodeId listed
    rw [consistent.getNodesForKey_int] at listed
    rw [hasNode_iff, ← (consistent.perm_preference key).mem_iff]
    exact List.mem_of_mem_take listed
  first := by
    intro positive nonempty
    have listed : ring.preference key ≠ [] := by
      intro none
      have short := consistent.length_preference key
      rw [none] at short
      exact nonempty (List.eq_nil_of_length_eq_zero short.symm)
    obtain ⟨owner, rest, order⟩ := List.exists_cons_of_ne_nil listed
    obtain ⟨more, same⟩ : ∃ more, count.toNat = more + 1 := ⟨count.toNat - 1, by omega⟩
    refine ⟨owner, ?_, ?_⟩
    · rw [getNode_eq consistent.sorted, order, List.head?_cons]
    · rw [consistent.getNodesForKey_int, order, same, List.take_succ_cons, List.head?_cons]
  extends_to_next := by
    rw [consistent.getNodesForKey_int, consistent.getNodesForKey_int]
    apply List.take_prefix_take_left
    omega

/-! ## Two rings of the same nodes -/

/-- Two rings with the same points, which may differ in what they know of their nodes. -/
structure SamePoints (ring other : ConsistentHashRing) : Prop where
  options : other.options = ring.options
  points : other.points = ring.points
  keys : other.nodes.keys = ring.nodes.keys

theorem SamePoints.getNodesForKey (same : SamePoints ring other) (key : CacheKey)
    (count : Rat) : other.getNodesForKey key count = ring.getNodesForKey key count := by
  rw [ConsistentHashRing.getNodesForKey, ConsistentHashRing.getNodesForKey, same.points]

theorem SamePoints.withoutNode (same : SamePoints ring other) (nodeId : String) :
    SamePoints (ring.withoutNode nodeId) (other.withoutNode nodeId) := by
  have present : other.hasNode nodeId = ring.hasNode nodeId := by
    rw [Bool.eq_iff_iff, hasNode_iff, hasNode_iff, same.keys]
  rw [ConsistentHashRing.withoutNode, ConsistentHashRing.withoutNode, present]
  split
  · refine ⟨same.options, ?_, ?_⟩
    · rw [ConsistentHashRing.removeNode, ConsistentHashRing.removeNode, same.points]
    · rw [ConsistentHashRing.removeNode, ConsistentHashRing.removeNode,
        InsertionMap.keys_erase, InsertionMap.keys_erase, same.keys]
  · exact same

/-- The points of a node depend on its id and weight only. -/
theorem SamePoints.addNode (same : SamePoints ring other) {node twin : NodeInfo}
    (sameId : twin.nodeId = node.nodeId) (sameWeight : twin.weight = node.weight) :
    SamePoints (ring.addNode node).2 (other.addNode twin).2 := by
  have without := same.withoutNode node.nodeId
  have keys : ∀ (ring : ConsistentHashRing) (node : NodeInfo),
      (ring.addNode node).2.nodes.keys =
        (ring.withoutNode node.nodeId).nodes.keys ++ [node.nodeId] := by
    intro ring node
    rw [InsertionMap.keys, entries_addNode, List.map_append]
    rfl
  constructor
  case options => rw [options_addNode, options_addNode, sameId, without.options]
  case points =>
    rw [points_addNode, points_addNode, sameId, without.points, without.options,
      ConsistentHashRingOptions.virtualNodes_congr sameId sameWeight]
  case keys => rw [keys, keys, sameId, without.keys]

theorem SamePoints.updateNodeStatus (same : SamePoints ring other) (nodeId : String)
    (status : NodeStatus) (lastHeartbeat : Millis) :
    SamePoints ring (other.updateNodeStatus nodeId status lastHeartbeat) := by
  rw [ConsistentHashRing.updateNodeStatus]
  split
  · exact same
  · next node found =>
      refine ⟨same.options, same.points, ?_⟩
      rw [← same.keys]
      exact InsertionMap.keys_insert_of_mem (InsertionMap.mem_keys_of_get? found) _

end ConsistentHashRing

open ConsistentHashRing

theorem consistent_cacheNodeRing (virtualNodeCount : Rat) (staticNodes : List StaticNode)
    (now : Millis) : (cacheNodeRing virtualNodeCount staticNodes now).Consistent := by
  apply List.foldlRecOn staticNodes _ (consistent_create _)
  intro ring consistent node _
  exact consistent.addNode (node.healthy now)

namespace GatewayHealth

/-- A new gateway has the points of a new cache node. -/
theorem samePoints_create (virtualNodeCount : Rat) (staticNodes : List StaticNode)
    (booted opened : Millis) :
    SamePoints (cacheNodeRing virtualNodeCount staticNodes booted)
      (create virtualNodeCount staticNodes opened).ring := by
  have along : ∀ ring other : ConsistentHashRing, SamePoints ring other →
      SamePoints
        (staticNodes.foldl (fun ring node => (ring.addNode (node.healthy booted)).2) ring)
        (staticNodes.foldl (fun ring node => (ring.addNode (node.joining opened)).2)
          other) := by
    induction staticNodes with
    | nil => exact fun _ _ same => same
    | cons node rest ih =>
        intro ring other same
        exact ih _ _ (same.addNode rfl rfl)
  exact along _ _ ⟨rfl, rfl, rfl⟩

theorem samePoints_step {ring : ConsistentHashRing} (options : NodeHealthTrackerOptions)
    {health : GatewayHealth} (action : HealthAction) (same : SamePoints ring health.ring) :
    SamePoints ring (health.step options action).ring := by
  cases action with
  | advance elapsed => exact same
  | pollAll => exact same
  | complete index result =>
      rw [step]
      split
      · exact same
      · cases result with
        | response reported => exact same.updateNodeStatus _ _ _
        | miss => exact same.updateNodeStatus _ _ _

/-- The polls leave the points alone. -/
theorem samePoints_run (virtualNodeCount : Rat) (staticNodes : List StaticNode)
    (booted opened : Millis) (options : NodeHealthTrackerOptions)
    (actions : List HealthAction) :
    SamePoints (cacheNodeRing virtualNodeCount staticNodes booted)
      (run (step options) (create virtualNodeCount staticNodes opened) actions).ring := by
  apply @run_invariant _ _ (step options)
    (fun health => SamePoints (cacheNodeRing virtualNodeCount staticNodes booted) health.ring)
  · intro health action same
    exact samePoints_step options action same
  · exact samePoints_create virtualNodeCount staticNodes booted opened

theorem consistent_run (virtualNodeCount : Rat) (staticNodes : List StaticNode)
    (opened : Millis) (options : NodeHealthTrackerOptions) (actions : List HealthAction) :
    (run (step options) (create virtualNodeCount staticNodes opened)
      actions).ring.Consistent := by
  apply @run_invariant _ _ (step options) (fun health => health.ring.Consistent)
  · intro health action consistent
    cases action with
    | advance elapsed => exact consistent
    | pollAll => exact consistent
    | complete index result =>
        rw [step]
        split
        · exact consistent
        · cases result with
          | response reported => exact consistent.updateNodeStatus _ _ _
          | miss => exact consistent.updateNodeStatus _ _ _
  · apply List.foldlRecOn staticNodes _ (consistent_create _)
    intro ring consistent node _
    exact consistent.addNode (node.joining opened)

end GatewayHealth

/-- As long as no node is DEAD the candidates are the listed nodes. -/
theorem ConsistentHashRing.Consistent.map_nodeId_failoverCandidates
    {ring : ConsistentHashRing} (consistent : ring.Consistent) (count : Nat)
    (key : CacheKey) (alive : ∀ node ∈ ring.getPhysicalNodes, node.status ≠ .dead) :
    (ring.failoverCandidates count key).map NodeInfo.nodeId =
      ring.getNodesForKey key count := by
  have listed : ∀ nodeId ∈ ring.getNodesForKey key count,
      ∃ node, ring.getNodeInfo nodeId = some node ∧ node.nodeId = nodeId ∧
        node.status ≠ .dead := by
    intro nodeId member
    have known := (consistent.replicaList key count).member nodeId (by exact_mod_cast member)
    obtain ⟨node, found⟩ := InsertionMap.mem_keys_iff.mp (hasNode_iff.mp known)
    exact ⟨node, found, consistent.nodeId_eq found,
      alive node (InsertionMap.mem_values_iff.mpr ⟨nodeId, found⟩)⟩
  rw [failoverCandidates]
  generalize ring.getNodesForKey key count = nodeIds at listed
  induction nodeIds with
  | nil => rfl
  | cons nodeId rest ih =>
      obtain ⟨node, found, named, awake⟩ := listed nodeId List.mem_cons_self
      rw [List.filterMap_cons_some found, List.filter_cons_of_pos (by simpa using awake),
        List.map_cons, named, ih fun other member => listed other (.tail _ member)]

/-- The specification of replica lists, for every ring that a history of changes leads to,
and what it gives the gateway: its first candidates for a key are the nodes that hold the
copies of the key, whatever its polls have seen. -/
theorem replica_list_spec :
    (∀ (options : ConsistentHashRingOptions) (history : List Change) (key : CacheKey)
      (count : Int), (after options history).ReplicaList key count) ∧
    ∀ (virtualNodeCount : Rat) (staticNodes : List StaticNode) (booted opened : Millis)
      (options : NodeHealthTrackerOptions) (actions : List HealthAction) (key : CacheKey),
      let gateway := (run (GatewayHealth.step options)
        (GatewayHealth.create virtualNodeCount staticNodes opened) actions).ring
      let replicas :=
        (cacheNodeRing virtualNodeCount staticNodes booted).getReplicaNodeIds key
      (gateway.getNodesForKey key failoverCandidateCount).take replicationFactor = replicas ∧
        ((∀ node ∈ gateway.getPhysicalNodes, node.status ≠ .dead) →
          ((gateway.failoverCandidates failoverCandidateCount key).map NodeInfo.nodeId).take
            replicationFactor = replicas) := by
  constructor
  · intro options history key count
    exact (consistent_after options history).replicaList key count
  · intro virtualNodeCount staticNodes booted opened options actions key gateway replicas
    have same := GatewayHealth.samePoints_run virtualNodeCount staticNodes booted opened
      options actions
    have first : (gateway.getNodesForKey key failoverCandidateCount).take
        replicationFactor = replicas := by
      have consistent := consistent_cacheNodeRing virtualNodeCount staticNodes booted
      simp only [gateway, replicas]
      rw [same.getNodesForKey, getReplicaNodeIds, consistent.getNodesForKey_nat,
        consistent.getNodesForKey_nat, List.take_take]
      rfl
    refine ⟨first, ?_⟩
    intro alive
    have consistent := GatewayHealth.consistent_run virtualNodeCount staticNodes opened
      options actions
    rw [consistent.map_nodeId_failoverCandidates failoverCandidateCount key alive, first]

/-- Three nodes with two virtual nodes each: the first candidates are the replicas when
all three are joining, the first listed nodes are when one is DEAD after a missed poll, and
the list of two starts with the owner. -/
theorem replica_list_spec_three_nodes :
    let staticNodes : List StaticNode := [⟨"node-1", "cache-node-1", 4001, 1⟩,
      ⟨"node-2", "cache-node-2", 4001, 1⟩, ⟨"node-3", "cache-node-3", 4001, 1⟩]
    let opened := (GatewayHealth.create 2 staticNodes 0).ring
    let polled := (run (GatewayHealth.step ⟨1, 1⟩) (GatewayHealth.create 2 staticNodes 0)
      [.pollAll, .complete 0 .miss]).ring
    let ring := after ⟨2⟩ (staticNodes.map fun node => .addNode (node.healthy 0))
    ((opened.failoverCandidates failoverCandidateCount "user:1").map NodeInfo.nodeId).take
        replicationFactor = (cacheNodeRing 2 staticNodes 0).getReplicaNodeIds "user:1" ∧
      (polled.getNodesForKey "user:1" failoverCandidateCount).take replicationFactor =
        (cacheNodeRing 2 staticNodes 0).getReplicaNodeIds "user:1" ∧
      ∃ owner, ring.getNode "user:1" = some owner ∧
        (ring.getNodesForKey "user:1" ((2 : Int) : Rat)).head? = some owner := by
  refine ⟨?_, (replica_list_spec.2 2 _ 0 0 ⟨1, 1⟩ _ "user:1").1, ?_⟩
  · exact (replica_list_spec.2 2 _ 0 0 ⟨1, 1⟩ [] "user:1").2 (by decide +kernel)
  · exact (replica_list_spec.1 ⟨2⟩ _ "user:1" 2).first (by decide) (by decide +kernel)

end FlowCache
