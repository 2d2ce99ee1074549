import FlowCache.ConsistentHash.Rebalance

/-!
# Routing and the order in which nodes joined

Services that build their rings from the same members should route every key alike.
Points of different nodes may have the same hash, and then the stable sort keeps the
order in which the nodes joined.  Two nodes whose first points clockwise from a key
collide are routed in that order; a key without such a collision is routed the same way
by every history that ends with these members.
-/

namespace FlowCache

open StableSort HashRing Transition

/-- The hash of the first point of a node clockwise from a key. -/
def ConsistentHashRingOptions.firstHash (options : ConsistentHashRingOptions)
    (key : CacheKey) (node : NodeInfo) : Option Nat :=
  nearest? (ringHash key) ((options.virtualNodes node).map RingPoint.hash)

namespace ConsistentHashRing

/-- Two rings with the same ids and weights. -/
def SameMembers (left right : ConsistentHashRing) : Prop :=
  ∀ nodeId weight,
    (∃ node ∈ left.getPhysicalNodes, node.nodeId = nodeId ∧ node.weight = weight) ↔
      ∃ node ∈ right.getPhysicalNodes, node.nodeId = nodeId ∧ node.weight = weight

/-- No two nodes have their first points clockwise from the key at one hash. -/
def NoCollision (ring : ConsistentHashRing) (key : CacheKey) : Prop :=
  ∀ first ∈ ring.getPhysicalNodes, ∀ second ∈ ring.getPhysicalNodes,
    first.nodeId ≠ second.nodeId →
      ring.options.firstHash key first ≠ ring.options.firstHash key second

variable {ring other : ConsistentHashRing}

/-! ## What the members determine -/

theorem Consistent.get?_eq (consistent : Consistent ring) {node : NodeInfo}
    (member : node ∈ ring.getPhysicalNodes) : ring.nodes.get? node.nodeId = some node := by
  obtain ⟨entry, entryMem, rfl⟩ := List.mem_map.mp member
  rw [consistent.keyed entry entryMem]
  exact InsertionMap.get?_eq_some_iff.mpr entryMem

theorem Consistent.pointsOf_eq (consistent : Consistent ring) {node : NodeInfo}
    (member : node ∈ ring.getPhysicalNodes) :
    ring.pointsOf node.nodeId = ring.options.virtualNodes node := by
  rw [pointsOf, consistent.get?_eq member]

theorem SameMembers.mem_keys (same : SameMembers ring other) (consistent : Consistent ring)
    (otherConsistent : Consistent other) (nodeId : String) :
    nodeId ∈ ring.nodes.keys ↔ nodeId ∈ other.nodes.keys := by
  rw [← consistent.map_nodeId, ← otherConsistent.map_nodeId, List.mem_map, List.mem_map]
  constructor
  · rintro ⟨node, member, rfl⟩
    obtain ⟨twin, twinMem, sameId, -⟩ := (same _ _).mp ⟨node, member, rfl, rfl⟩
    exact ⟨twin, twinMem, sameId⟩
  · rintro ⟨node, member, rfl⟩
    obtain ⟨twin, twinMem, sameId, -⟩ := (same _ _).mpr ⟨node, member, rfl, rfl⟩
    exact ⟨twin, twinMem, sameId⟩

theorem SameMembers.perm_keys (same : SameMembers ring other)
    (consistent : Consistent ring) (otherConsistent : Consistent other) :
    ring.nodes.keys.Perm other.nodes.keys :=
  (List.perm_ext_iff_of_nodup ring.nodes.keys_nodup other.nodes.keys_nodup).mpr
    (same.mem_keys consistent otherConsistent)

theorem SameMembers.pointsOf (same : SameMembers ring other) (consistent : Consistent ring)
    (otherConsistent : Consistent other) (options : ring.options = other.options)
    (nodeId : String) : ring.pointsOf nodeId = other.pointsOf nodeId := by
  by_cases member : nodeId ∈ ring.nodes.keys
  · rw [← consistent.map_nodeId] at member
    obtain ⟨node, nodeMem, rfl⟩ := List.mem_map.mp member
    obtain ⟨twin, twinMem, sameId, sameWeight⟩ := (same _ _).mp ⟨node, nodeMem, rfl, rfl⟩
    rw [consistent.pointsOf_eq nodeMem, ← sameId, otherConsistent.pointsOf_eq twinMem,
      options]
    exact ConsistentHashRingOptions.virtualNodes_congr sameId.symm sameWeight.symm
  · have otherMember := (same.mem_keys consistent otherConsistent nodeId).not.mp member
    rw [ConsistentHashRing.pointsOf, ConsistentHashRing.pointsOf,
      InsertionMap.get?_eq_none_iff.mpr member,
      InsertionMap.get?_eq_none_iff.mpr otherMember]

theorem SameMembers.nearestRank (same : SameMembers ring other)
    (consistent : Consistent ring) (otherConsistent : Consistent other)
    (options : ring.options = other.options) (key : CacheKey) :
    ring.nearestRank key = other.nearestRank key := by
  funext nodeId
  rw [ConsistentHashRing.nearestRank, ConsistentHashRing.nearestRank,
    same.pointsOf consistent otherConsistent options]

/-! ## Collisions -/

/-- First points lie equally far clockwise exactly when they have one hash. -/
theorem Consistent.nearestRank_eq_iff (consistent : Consistent ring) (key : CacheKey)
    {first second : NodeInfo} (firstMem : first ∈ ring.getPhysicalNodes)
    (secondMem : second ∈ ring.getPhysicalNodes) :
    ring.nearestRank key first.nodeId = ring.nearestRank key second.nodeId ↔
      ring.options.firstHash key first = ring.options.firstHash key second := by
  have found : ∀ node : NodeInfo, ∃ place, ring.options.firstHash key node = some place := by
    intro node
    rw [← Option.isSome_iff_exists, Option.isSome_iff_ne_none]
    intro none
    exact ConsistentHashRingOptions.virtualNodes_ne_nil
      (List.map_eq_nil_iff.mp (List.argmin_eq_none.mp none))
  obtain ⟨firstPlace, firstFound⟩ := found first
  obtain ⟨secondPlace, secondFound⟩ := found second
  rw [ConsistentHashRing.nearestRank, ConsistentHashRing.nearestRank,
    consistent.pointsOf_eq firstMem, consistent.pointsOf_eq secondMem,
    (clockwiseRank_injective _).eq_iff]
  rw [ConsistentHashRingOptions.firstHash] at firstFound secondFound
  rw [ConsistentHashRingOptions.firstHash, ConsistentHashRingOptions.firstHash,
    firstFound, secondFound]
  simp

theorem Consistent.noCollision_iff (consistent : Consistent ring) (key : CacheKey) :
    ring.NoCollision key ↔
      ∀ first ∈ ring.nodes.keys, ∀ second ∈ ring.nodes.keys,
        ring.nearestRank key first = ring.nearestRank key second → first = second := by
  rw [← consistent.map_nodeId, NoCollision]
  simp only [List.mem_map, forall_exists_index, and_imp, forall_apply_eq_imp_iff₂]
  constructor
  · intro apart first firstMem second secondMem level
    by_contra different
    exact apart first firstMem second secondMem different
      ((consistent.nearestRank_eq_iff key firstMem secondMem).mp level)
  · intro apart first firstMem second secondMem different level
    exact different (apart first firstMem second secondMem
      ((consistent.nearestRank_eq_iff key firstMem secondMem).mpr level))

/-! ## Histories with the same members -/

/-- The history that lets the nodes of a ring join in the opposite order. -/
def reversedHistory (ring : ConsistentHashRing) : List Change :=
  ring.getPhysicalNodes.reverse.map .addNode

theorem Consistent.getPhysicalNodes_reversedHistory (consistent : Consistent ring)
    (options : ConsistentHashRingOptions) :
    (after options ring.reversedHistory).getPhysicalNodes =
      ring.getPhysicalNodes.reverse := by
  apply getPhysicalNodes_after_addNode
  rw [List.map_reverse, List.nodup_reverse]
  exact consistent.nodup_nodeIds

theorem Consistent.sameMembers_reversedHistory (consistent : Consistent ring)
    (options : ConsistentHashRingOptions) :
    SameMembers ring (after options ring.reversedHistory) := by
  intro nodeId weight
  simp [consistent.getPhysicalNodes_reversedHistory]

/-- Without a collision at the key, rings with the same members have one preference
order. -/
theorem Consistent.preference_eq_of_noCollision (consistent : Consistent ring)
    (otherConsistent : Consistent other) (same : SameMembers ring other)
    (options : ring.options = other.options) {key : CacheKey}
    (apart : ring.NoCollision key) : ring.preference key = other.preference key := by
  rw [consistent.preference_eq, otherConsistent.preference_eq,
    same.nearestRank consistent otherConsistent options]
  apply stableSort_eq_of_perm (same.perm_keys consistent otherConsistent)
  rw [← same.nearestRank consistent otherConsistent options]
  exact (consistent.noCollision_iff key).mp apart

/-- If the nodes of a ring can join in the opposite order without a change of the
preference order, no two of them collide at the key. -/
theorem Consistent.noCollision_of_reversedHistory (consistent : Consistent ring)
    {key : CacheKey}
    (same : ring.preference key =
      (after ring.options ring.reversedHistory).preference key) :
    ring.NoCollision key := by
  have reversed := consistent_after ring.options ring.reversedHistory
  have members := consistent.sameMembers_reversedHistory ring.options
  have keys : (after ring.options ring.reversedHistory).nodes.keys =
      ring.nodes.keys.reverse := by
    rw [← reversed.map_nodeId, consistent.getPhysicalNodes_reversedHistory,
      List.map_reverse, consistent.map_nodeId]
  rw [consistent.preference_eq, reversed.preference_eq, keys,
    ← members.nearestRank consistent reversed (options_after ..).symm] at same
  rw [consistent.noCollision_iff]
  intro first firstMem second secondMem level
  exact eq_of_stableSort_reverse ring.nodes.keys_nodup same firstMem secondMem level

theorem preference_eq_iff_getNodesForKey
    (sorted : SortedBy RingPoint.hash ring.points)
    (otherSorted : SortedBy RingPoint.hash other.points) (key : CacheKey) :
    ring.preference key = other.preference key ↔
      ∀ count, ring.getNodesForKey key count = other.getNodesForKey key count := by
  constructor
  · intro same count
    rw [getNodesForKey_eq sorted, getNodesForKey_eq otherSorted, same]
  · intro same
    have longest := same
      ((max (ring.preference key).length (other.preference key).length : Nat) : Rat)
    rwa [getNodesForKey_eq sorted, getNodesForKey_eq otherSorted, Nat.ceil_natCast,
      List.take_of_length_le (le_max_left ..), List.take_of_length_le (le_max_right ..)]
      at longest

/-- A key is routed the same way by every history that ends with the members of a ring
exactly when no two members have their first points clockwise from the key at one
hash. -/
theorem routing_independent_of_history_iff (options : ConsistentHashRingOptions)
    (history : List Change) (key : CacheKey) :
    (∀ otherHistory, SameMembers (after options history) (after options otherHistory) →
      ∀ count, (after options history).getNodesForKey key count =
        (after options otherHistory).getNodesForKey key count) ↔
      (after options history).NoCollision key := by
  have consistent := consistent_after options history
  constructor
  · intro independent
    apply consistent.noCollision_of_reversedHistory
    rw [options_after, preference_eq_iff_getNodesForKey consistent.sorted
      (consistent_after _ _).sorted]
    exact independent _ (consistent.sameMembers_reversedHistory options)
  · intro apart otherHistory same
    have otherConsistent := consistent_after options otherHistory
    rw [← preference_eq_iff_getNodesForKey consistent.sorted otherConsistent.sorted]
    apply consistent.preference_eq_of_noCollision otherConsistent same _ apart
    rw [options_after, options_after]

/-- Two nodes with one virtual node each, at the same hash, that join in two orders:
the key has a different owner in the two rings. -/
theorem routing_depends_on_join_order :
    SameMembers
        (after ⟨1⟩ [.addNode ⟨"node-19535", "cache-node-1", 4001, .healthy, 0, 1⟩,
          .addNode ⟨"node-88425", "cache-node-2", 4001, .healthy, 0, 1⟩])
        (after ⟨1⟩ [.addNode ⟨"node-88425", "cache-node-2", 4001, .healthy, 0, 1⟩,
          .addNode ⟨"node-19535", "cache-node-1", 4001, .healthy, 0, 1⟩]) ∧
      (after ⟨1⟩ [.addNode ⟨"node-19535", "cache-node-1", 4001, .healthy, 0, 1⟩,
          .addNode ⟨"node-88425", "cache-node-2", 4001, .healthy, 0, 1⟩]).getNodesForKey
            "user:1" 1 = ["node-19535"] ∧
      (after ⟨1⟩ [.addNode ⟨"node-88425", "cache-node-2", 4001, .healthy, 0, 1⟩,
          .addNode ⟨"node-19535", "cache-node-1", 4001, .healthy, 0, 1⟩]).getNodesForKey
            "user:1" 1 = ["node-88425"] := by
  refine ⟨?_, by decide +kernel, by decide +kernel⟩
  apply (consistent_after ⟨1⟩ _).sameMembers_reversedHistory

end ConsistentHashRing

end FlowCache
