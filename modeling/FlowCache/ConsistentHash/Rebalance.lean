import FlowCache.ConsistentHash.Membership

/-!
# Minimal disruption

The preference order of a key lists every physical node once, sorted stably by the first
point each of them has clockwise from the key.  A join inserts the new node into the
preference order of every key and a leave takes the node out, and neither moves any
other node.  So the keys that change owner are exactly those the node owns.
-/

namespace FlowCache

open StableSort HashRing Transition

namespace ConsistentHashRing

variable {ring : ConsistentHashRing}

/-! ## The preference order lists every node -/

/-- The points of the node stored under an id. -/
def pointsOf (ring : ConsistentHashRing) (nodeId : String) : List RingPoint :=
  match ring.nodes.get? nodeId with
  | none => []
  | some node => ring.options.virtualNodes node

/-- How far clockwise from a key the first point of a node lies. -/
def nearestRank (ring : ConsistentHashRing) (key : CacheKey) (nodeId : String) :
    Lex (Bool × Nat) :=
  clockwiseRank (ringHash key)
    ((nearest? (ringHash key) ((ring.pointsOf nodeId).map RingPoint.hash)).getD 0)

theorem pointsOf_of_mem {entry : String × NodeInfo} (member : entry ∈ ring.nodes.entries) :
    ring.pointsOf entry.1 = ring.options.virtualNodes entry.2 := by
  rw [pointsOf, InsertionMap.get?_eq_some_iff.mpr member]

theorem flatMap_pointsOf (ring : ConsistentHashRing) :
    ring.nodes.keys.flatMap ring.pointsOf =
      ring.getPhysicalNodes.flatMap ring.options.virtualNodes := by
  rw [InsertionMap.keys, getPhysicalNodes, InsertionMap.values, List.flatMap_map,
    List.flatMap_map]
  apply List.flatMap_congr
  intro entry member
  exact pointsOf_of_mem member

theorem nearestRank_spec (key : CacheKey) {nodeId : String}
    (member : nodeId ∈ ring.nodes.keys) :
    (∃ point ∈ ring.pointsOf nodeId,
      clockwiseRank (ringHash key) point.hash = ring.nearestRank key nodeId) ∧
    ∀ point ∈ ring.pointsOf nodeId,
      ring.nearestRank key nodeId ≤ clockwiseRank (ringHash key) point.hash := by
  obtain ⟨entry, entryMem, rfl⟩ := List.mem_map.mp member
  have nonempty : (ring.pointsOf entry.1).map RingPoint.hash ≠ [] := by
    rw [pointsOf_of_mem entryMem, ne_eq, List.map_eq_nil_iff]
    exact ConsistentHashRingOptions.virtualNodes_ne_nil
  rw [nearestRank]
  cases found : nearest? (ringHash key) ((ring.pointsOf entry.1).map RingPoint.hash) with
  | none => exact absurd (List.argmin_eq_none.mp found) nonempty
  | some place =>
      constructor
      · obtain ⟨point, pointMem, same⟩ := List.mem_map.mp (List.argmin_mem found)
        exact ⟨point, pointMem, by rw [same]; rfl⟩
      · intro point pointMem
        exact List.le_of_mem_argmin (List.mem_map.mpr ⟨point, pointMem, rfl⟩) found

/-- The preference order is the stable sort of the nodes, in the order of the map, by
the first point of each. -/
theorem Consistent.preference_eq (consistent : Consistent ring) (key : CacheKey) :
    ring.preference key = stableSort (ring.nearestRank key) ring.nodes.keys := by
  rw [preference, consistent.points, clockwise_stableSort, ← flatMap_pointsOf]
  apply ownersInOrder_stableSort ring.nodes.keys_nodup
  · intro nodeId member point pointMem
    obtain ⟨entry, entryMem, rfl⟩ := List.mem_map.mp member
    rw [pointsOf_of_mem entryMem] at pointMem
    rw [ConsistentHashRingOptions.nodeId_of_mem_virtualNodes pointMem]
    exact consistent.keyed entry entryMem
  · intro nodeId member
    exact (nearestRank_spec key member).1
  · intro nodeId member
    exact (nearestRank_spec key member).2

/-- `getNodesForKey` asked for as many nodes as there are. -/
def allNodesForKey (ring : ConsistentHashRing) (key : CacheKey) : List String :=
  ring.getNodesForKey key ring.getPhysicalNodes.length

theorem Consistent.allNodesForKey_eq (consistent : Consistent ring) (key : CacheKey) :
    ring.allNodesForKey key = ring.preference key := by
  rw [allNodesForKey, getNodesForKey_eq consistent.sorted, Nat.ceil_natCast]
  apply List.take_of_length_le
  rw [consistent.preference_eq, (perm_stableSort _).length_eq, getPhysicalNodes,
    InsertionMap.keys, InsertionMap.values, List.length_map, List.length_map]

/-! ## Joins and leaves -/

/-- A leave takes the node out of every preference order and moves no other node. -/
theorem preference_removeNode (ring : ConsistentHashRing) (nodeId : String)
    (key : CacheKey) :
    (ring.removeNode nodeId).preference key =
      (ring.preference key).filter fun other => other ≠ nodeId := by
  rw [preference, preference, ← ownersInOrder_filter, filter_clockwise]
  rfl

/-- Adding a node and removing it again leaves the points as they were. -/
theorem Consistent.points_removeNode_addNode (consistent : Consistent ring)
    {node : NodeInfo} (absent : ring.hasNode node.nodeId = false) :
    ((ring.addNode node).2.removeNode node.nodeId).points = ring.points := by
  have without : ring.withoutNode node.nodeId = ring := by
    rw [ConsistentHashRing.withoutNode, absent]
    rfl
  have joined := consistent.addNode node
  have nodes : ((ring.addNode node).2.removeNode node.nodeId).getPhysicalNodes =
      ring.getPhysicalNodes := by
    rw [joined.getPhysicalNodes_removeNode, getPhysicalNodes_addNode, without,
      List.filter_append, List.filter_eq_self.mpr]
    · simp
    · intro other member
      have different : other.nodeId ≠ node.nodeId := by
        intro same
        rw [← Bool.not_eq_true, hasNode_iff, ← consistent.map_nodeId, ← same] at absent
        exact absent (List.mem_map.mpr ⟨other, member, rfl⟩)
      simpa using different
  have options : ((ring.addNode node).2.removeNode node.nodeId).options = ring.options := by
    change (ring.addNode node).2.options = ring.options
    rw [options_addNode, without]
  rw [(joined.removeNode node.nodeId).points, nodes, options, consistent.points]

/-- A join moves no other node in any preference order. -/
theorem Consistent.preference_addNode (consistent : Consistent ring) {node : NodeInfo}
    (absent : ring.hasNode node.nodeId = false) (key : CacheKey) :
    ((ring.addNode node).2.preference key).filter (fun other => other ≠ node.nodeId) =
      ring.preference key := by
  rw [← preference_removeNode, preference, consistent.points_removeNode_addNode absent,
    preference]

/-! ## Keys that change owner -/

private theorem head?_filter_ne_iff {names : List String} {name : String} :
    (names.filter fun other => other ≠ name).head? ≠ names.head? ↔
      names.head? = some name := by
  cases names with
  | nil => simp
  | cons first rest =>
      by_cases same : first = name
      · subst same
        have gone : some first ≠ (rest.filter fun other => other ≠ first).head? := by
          intro found
          have member := List.mem_of_mem_head? found.symm
          simp at member
        simpa using gone.symm
      · simp [same]

/-- When removing a node from one ring gives the preference orders of the other, the
sample keys that change owner are those the node owns. -/
private theorem owner_ne_iff {larger smaller : ConsistentHashRing} {nodeId : String}
    (largerSorted : SortedBy RingPoint.hash larger.points)
    (smallerSorted : SortedBy RingPoint.hash smaller.points)
    (filtered : ∀ key, smaller.preference key =
      (larger.preference key).filter fun other => other ≠ nodeId) (key : CacheKey) :
    smaller.getNode key ≠ larger.getNode key ↔ larger.getNode key = some nodeId := by
  rw [getNode_eq largerSorted, getNode_eq smallerSorted, filtered]
  exact head?_filter_ne_iff

theorem movedCount_eq {before after : ConsistentHashRing} {owned : CacheKey → Bool}
    (moves : ∀ key, before.getNode key ≠ after.getNode key ↔ owned key = true)
    (sampleKeys : List CacheKey) :
    (analyzeKeyMovement before after sampleKeys).movedCount =
      sampleKeys.countP owned := by
  have same : (fun key => decide (before.getNode key ≠ after.getNode key)) = owned := by
    funext key
    rw [Bool.eq_iff_iff, decide_eq_true_eq, moves]
  have counted := foldl_count (fun key => decide (before.getNode key ≠ after.getNode key))
    sampleKeys 0
  simp only [decide_eq_true_eq] at counted
  rw [analyzeKeyMovement]
  simp only
  rw [counted, Nat.zero_add, same]

/-- For every ring reached from a new one: a node that joins is inserted into the
preference order of each key and a node that leaves is taken out of it, no other node
moves, and the keys that change owner are exactly those the node owns in the ring that
contains it. -/
theorem minimal_disruption (options : ConsistentHashRingOptions) (history : List Change)
    (node : NodeInfo) :
    ((after options history).hasNode node.nodeId = false →
      (∀ key, (((after options history).addNode node).2.allNodesForKey key).filter
          (fun other => other ≠ node.nodeId) =
        (after options history).allNodesForKey key) ∧
      (∀ key, (after options history).getNode key ≠
          ((after options history).addNode node).2.getNode key ↔
        ((after options history).addNode node).2.getNode key = some node.nodeId) ∧
      ∀ sampleKeys, (analyzeKeyMovement (after options history)
          ((after options history).addNode node).2 sampleKeys).movedCount =
        sampleKeys.countP fun key =>
          ((after options history).addNode node).2.getNode key = some node.nodeId) ∧
    (∀ key, ((after options history).removeNode node.nodeId).allNodesForKey key =
        ((after options history).allNodesForKey key).filter
          fun other => other ≠ node.nodeId) ∧
      (∀ key, (after options history).getNode key ≠
          ((after options history).removeNode node.nodeId).getNode key ↔
        (after options history).getNode key = some node.nodeId) ∧
      ∀ sampleKeys, (analyzeKeyMovement (after options history)
          ((after options history).removeNode node.nodeId) sampleKeys).movedCount =
        sampleKeys.countP fun key =>
          (after options history).getNode key = some node.nodeId := by
  have consistent := consistent_after options history
  have joined := consistent.addNode node
  have left := consistent.removeNode node.nodeId
  constructor
  · intro absent
    have moves := owner_ne_iff joined.sorted consistent.sorted
      fun key => (consistent.preference_addNode absent key).symm
    refine ⟨fun key => ?_, moves, movedCount_eq fun key => ?_⟩
    · rw [joined.allNodesForKey_eq, consistent.allNodesForKey_eq,
        consistent.preference_addNode absent]
    · rw [moves, decide_eq_true_eq]
  · have moves : ∀ key, (after options history).getNode key ≠
        ((after options history).removeNode node.nodeId).getNode key ↔
          (after options history).getNode key = some node.nodeId := by
      intro key
      rw [ne_comm]
      exact owner_ne_iff consistent.sorted left.sorted
        (preference_removeNode _ node.nodeId) key
    refine ⟨fun key => ?_, moves, movedCount_eq fun key => ?_⟩
    · rw [left.allNodesForKey_eq, consistent.allNodesForKey_eq, preference_removeNode]
    · rw [moves, decide_eq_true_eq]

/-- A third node that joins a ring of two, with one virtual node each. -/
theorem minimal_disruption_third_node :
    (after ⟨1⟩ [.addNode ⟨"node-1", "cache-node-1", 4001, .healthy, 0, 1⟩,
        .addNode ⟨"node-2", "cache-node-2", 4001, .healthy, 0, 1⟩]).hasNode "node-3" =
      false ∧
    (((after ⟨1⟩ [.addNode ⟨"node-1", "cache-node-1", 4001, .healthy, 0, 1⟩,
        .addNode ⟨"node-2", "cache-node-2", 4001, .healthy, 0, 1⟩]).addNode
          ⟨"node-3", "cache-node-3", 4001, .healthy, 0, 1⟩).2.allNodesForKey "user:1").filter
        (fun other => other ≠ "node-3") =
      (after ⟨1⟩ [.addNode ⟨"node-1", "cache-node-1", 4001, .healthy, 0, 1⟩,
        .addNode ⟨"node-2", "cache-node-2", 4001, .healthy, 0, 1⟩]).allNodesForKey
          "user:1" := by
  have absent : (after ⟨1⟩ [.addNode ⟨"node-1", "cache-node-1", 4001, .healthy, 0, 1⟩,
      .addNode ⟨"node-2", "cache-node-2", 4001, .healthy, 0, 1⟩]).hasNode "node-3" =
        false := by
    decide +kernel
  exact ⟨absent, ((minimal_disruption ⟨1⟩
    [.addNode ⟨"node-1", "cache-node-1", 4001, .healthy, 0, 1⟩,
      .addNode ⟨"node-2", "cache-node-2", 4001, .healthy, 0, 1⟩]
    ⟨"node-3", "cache-node-3", 4001, .healthy, 0, 1⟩).1 absent).1 "user:1"⟩

end ConsistentHashRing

end FlowCache
