import FlowCache.ConsistentHash.Lookup

/-!
# Membership and the point array

The map of physical nodes and the sorted array of points are changed by different
code.  In every ring reached by joins, leaves and status updates the array is the
stable sort of the virtual nodes listed in the order of the map, so `clone`, which adds
the nodes again in that order, builds the same array.
-/

namespace FlowCache

open StableSort HashRing Transition

/-! ## Virtual nodes -/

/-- The count for a finite product. -/
theorem virtualNodeCountFor_finite {baseVirtualNodeCount weight : JsNumber} {product : Rat}
    (multiplied : baseVirtualNodeCount.mul weight = .finite product) :
    virtualNodeCountFor baseVirtualNodeCount weight =
      .finite ((max 1 (mathRound product)).toNat : Nat) := by
  have positive : (0 : Int) ≤ max 1 (mathRound product) :=
    le_trans Int.one_nonneg (le_max_left _ _)
  rw [virtualNodeCountFor, multiplied, JsNumber.round, JsNumber.max, ← Int.cast_natCast,
    Int.toNat_of_nonneg positive, Int.cast_max, Int.cast_one]

@[simp] theorem JsNumber.rounds_natCast (count : Nat) :
    (JsNumber.finite count).rounds = count := by
  rw [JsNumber.rounds, Int.ceil_natCast, Int.toNat_natCast]

/-- A node with a finite weight gets at least one point. -/
theorem rounds_virtualNodeCountFor_pos (base weight : Rat) :
    0 < (virtualNodeCountFor (.finite base) (.finite weight)).rounds := by
  cases multiplied : (JsNumber.finite base).mul (.finite weight) with
  | nan =>
      rw [JsNumber.mul, JsNumber.ofRat] at multiplied
      split at multiplied
      · cases multiplied
      · cases multiplied
  | infinity negative =>
      rw [virtualNodeCountFor, multiplied]
      cases negative with
      | true => decide
      | false => decide
  | finite product =>
      rw [virtualNodeCountFor_finite multiplied, JsNumber.rounds_natCast]
      have := le_max_left 1 (mathRound product)
      omega

namespace ConsistentHashRingOptions

variable {options : ConsistentHashRingOptions} {node : NodeInfo}

/-- The points of a node depend only on its id and its weight. -/
theorem virtualNodes_congr {left right : NodeInfo} (sameId : left.nodeId = right.nodeId)
    (sameWeight : left.weight = right.weight) :
    options.virtualNodes left = options.virtualNodes right := by
  rw [virtualNodes, virtualNodes, sameId, sameWeight]

theorem nodeId_of_mem_virtualNodes {point : RingPoint}
    (member : point ∈ options.virtualNodes node) : point.nodeId = node.nodeId := by
  obtain ⟨index, -, rfl⟩ := List.mem_map.mp member
  rfl

theorem virtualNodes_ne_nil : options.virtualNodes node ≠ [] := by
  rw [virtualNodes, ne_eq, List.map_eq_nil_iff, List.range_eq_nil]
  exact (rounds_virtualNodeCountFor_pos _ _).ne'

theorem filter_virtualNodes (keep : String → Bool) :
    (options.virtualNodes node).filter (fun point => keep point.nodeId) =
      if keep node.nodeId then options.virtualNodes node else [] := by
  split
  · next kept =>
      apply List.filter_eq_self.mpr
      intro point member
      rw [nodeId_of_mem_virtualNodes member, kept]
  · next dropped =>
      apply List.filter_eq_nil_iff.mpr
      intro point member
      rw [nodeId_of_mem_virtualNodes member]
      exact dropped

/-- Dropping the points of some nodes is dropping these nodes. -/
theorem filter_flatMap_virtualNodes (nodes : List NodeInfo) (keep : String → Bool) :
    (nodes.flatMap options.virtualNodes).filter (fun point => keep point.nodeId) =
      (nodes.filter fun node => keep node.nodeId).flatMap options.virtualNodes := by
  induction nodes with
  | nil => rfl
  | cons node rest ih =>
      rw [List.flatMap_cons, List.filter_append, filter_virtualNodes, ih,
        List.filter_cons]
      split
      · rw [List.flatMap_cons]
      · rw [List.nil_append]

end ConsistentHashRingOptions

namespace ConsistentHashRing

/-! ## The representation invariant -/

/-- Every node is stored under its own id, and the points are the stable sort of the
virtual nodes in the order of the map. -/
structure Consistent (ring : ConsistentHashRing) : Prop where
  keyed : ∀ entry ∈ ring.nodes.entries, entry.2.nodeId = entry.1
  points : ring.points = stableSort RingPoint.hash
    (ring.getPhysicalNodes.flatMap ring.options.virtualNodes)

variable {ring : ConsistentHashRing}

theorem consistent_create (options : ConsistentHashRingOptions) :
    Consistent (create options) where
  keyed := by simp [create, InsertionMap.empty]
  points := rfl

theorem Consistent.sorted (consistent : Consistent ring) :
    SortedBy RingPoint.hash ring.points := by
  rw [consistent.points]
  exact sortedBy_stableSort _

theorem Consistent.map_nodeId (consistent : Consistent ring) :
    ring.getPhysicalNodes.map NodeInfo.nodeId = ring.nodes.keys := by
  rw [getPhysicalNodes, InsertionMap.values, InsertionMap.keys, List.map_map]
  exact List.map_congr_left consistent.keyed

theorem Consistent.nodup_nodeIds (consistent : Consistent ring) :
    (ring.getPhysicalNodes.map NodeInfo.nodeId).Nodup := by
  rw [consistent.map_nodeId]
  exact ring.nodes.keys_nodup

theorem hasNode_iff {nodeId : String} :
    ring.hasNode nodeId = true ↔ nodeId ∈ ring.nodes.keys := by
  rw [hasNode, InsertionMap.contains, Option.isSome_iff_exists,
    InsertionMap.mem_keys_iff]

/-! ## One change -/

theorem Consistent.getPhysicalNodes_removeNode (consistent : Consistent ring)
    (nodeId : String) :
    (ring.removeNode nodeId).getPhysicalNodes =
      ring.getPhysicalNodes.filter fun node => node.nodeId ≠ nodeId := by
  simp only [getPhysicalNodes, removeNode, InsertionMap.values, InsertionMap.erase,
    List.filter_map]
  congr 1
  apply List.filter_congr
  intro entry member
  simp [consistent.keyed entry member]

theorem Consistent.removeNode (consistent : Consistent ring) (nodeId : String) :
    Consistent (ring.removeNode nodeId) where
  keyed entry member := consistent.keyed entry (List.mem_filter.mp member).1
  points := by
    rw [consistent.getPhysicalNodes_removeNode]
    calc
      (ring.removeNode nodeId).points
          = ring.points.filter fun point => decide (point.nodeId ≠ nodeId) := rfl
      _ = stableSort RingPoint.hash
            ((ring.getPhysicalNodes.flatMap ring.options.virtualNodes).filter
              fun point => decide (point.nodeId ≠ nodeId)) := by
          rw [consistent.points, filter_stableSort]
      _ = _ := by
          rw [ConsistentHashRingOptions.filter_flatMap_virtualNodes _
            fun other => decide (other ≠ nodeId)]
          rfl

/-- The ring `addNode` adds the points to: the node is not in it. -/
def withoutNode (ring : ConsistentHashRing) (nodeId : String) : ConsistentHashRing :=
  if ring.hasNode nodeId then ring.removeNode nodeId else ring

theorem Consistent.withoutNode (consistent : Consistent ring) (nodeId : String) :
    Consistent (ring.withoutNode nodeId) := by
  rw [ConsistentHashRing.withoutNode]
  split
  · exact consistent.removeNode nodeId
  · exact consistent

theorem not_mem_keys_withoutNode (ring : ConsistentHashRing) (nodeId : String) :
    nodeId ∉ (ring.withoutNode nodeId).nodes.keys := by
  rw [ConsistentHashRing.withoutNode]
  split
  · simp [ConsistentHashRing.removeNode, InsertionMap.mem_keys_erase]
  · next absent => exact fun member => absent (hasNode_iff.mpr member)

theorem entries_addNode (ring : ConsistentHashRing) (node : NodeInfo) :
    (ring.addNode node).2.nodes.entries =
      (ring.withoutNode node.nodeId).nodes.entries ++ [(node.nodeId, node)] :=
  InsertionMap.entries_insert_of_get?_none
    (InsertionMap.get?_eq_none_iff.mpr (ring.not_mem_keys_withoutNode node.nodeId)) node

theorem getPhysicalNodes_addNode (ring : ConsistentHashRing) (node : NodeInfo) :
    (ring.addNode node).2.getPhysicalNodes =
      (ring.withoutNode node.nodeId).getPhysicalNodes ++ [node] := by
  simp [getPhysicalNodes, InsertionMap.values, entries_addNode]

theorem points_addNode (ring : ConsistentHashRing) (node : NodeInfo) :
    (ring.addNode node).2.points = stableSort RingPoint.hash
      ((ring.withoutNode node.nodeId).points ++
        (ring.withoutNode node.nodeId).options.virtualNodes node) := rfl

theorem options_addNode (ring : ConsistentHashRing) (node : NodeInfo) :
    (ring.addNode node).2.options = (ring.withoutNode node.nodeId).options := rfl

theorem Consistent.addNode (consistent : Consistent ring) (node : NodeInfo) :
    Consistent (ring.addNode node).2 where
  keyed entry member := by
    rw [entries_addNode, List.mem_append, List.mem_singleton] at member
    rcases member with kept | rfl
    · exact (consistent.withoutNode node.nodeId).keyed entry kept
    · rfl
  points := by
    rw [points_addNode, getPhysicalNodes_addNode, List.flatMap_append, options_addNode,
      (consistent.withoutNode node.nodeId).points, stableSort_append_stableSort,
      List.flatMap_singleton]

/-- A status update changes nothing the points are made from. -/
theorem Consistent.updateNodeStatus (consistent : Consistent ring) (nodeId : String)
    (status : NodeStatus) (lastHeartbeat : Millis) :
    Consistent (ring.updateNodeStatus nodeId status lastHeartbeat) := by
  rw [ConsistentHashRing.updateNodeStatus]
  split
  · exact consistent
  · next node found =>
      have entries : (ring.nodes.insert nodeId
          { node with status := status, lastHeartbeat := lastHeartbeat }).entries =
          ring.nodes.entries.map fun entry => (entry.1,
            if entry.1 = nodeId then
              { node with status := status, lastHeartbeat := lastHeartbeat }
            else entry.2) := by
        rw [InsertionMap.insert_of_get?_some found]
        rfl
      have stored : ∀ entry ∈ ring.nodes.entries, entry.1 = nodeId → entry.2 = node := by
        rintro ⟨other, info⟩ member rfl
        exact Option.some.inj ((InsertionMap.get?_eq_some_iff.mpr member).symm.trans found)
      constructor
      · intro entry member
        simp only [entries, List.mem_map] at member
        obtain ⟨before, beforeMem, rfl⟩ := member
        have key := consistent.keyed before beforeMem
        by_cases here : before.1 = nodeId
        · rw [stored before beforeMem here] at key
          simp [here, key]
        · simpa [here] using key
      · have listed : (ring.nodes.insert nodeId
            { node with status := status, lastHeartbeat := lastHeartbeat }).values.flatMap
              ring.options.virtualNodes =
            ring.getPhysicalNodes.flatMap ring.options.virtualNodes := by
          simp only [getPhysicalNodes, InsertionMap.values, entries, List.map_map,
            List.flatMap_map]
          apply List.flatMap_congr
          intro entry member
          by_cases here : entry.1 = nodeId
          · rw [Function.comp_apply, if_pos here, stored entry member here]
            exact ConsistentHashRingOptions.virtualNodes_congr rfl rfl
          · rw [Function.comp_apply, if_neg here]
        change ring.points = stableSort RingPoint.hash (_ : List RingPoint)
        rw [consistent.points]
        exact congrArg (stableSort RingPoint.hash) listed.symm

theorem Consistent.change (consistent : Consistent ring) (action : Change) :
    Consistent (ring.change action) := by
  cases action with
  | addNode node => exact consistent.addNode node
  | removeNode nodeId => exact consistent.removeNode nodeId
  | updateNodeStatus nodeId status lastHeartbeat =>
      exact consistent.updateNodeStatus nodeId status lastHeartbeat

theorem options_change (ring : ConsistentHashRing) (action : Change) :
    (ring.change action).options = ring.options := by
  cases action with
  | addNode node =>
      rw [ConsistentHashRing.change, options_addNode, ConsistentHashRing.withoutNode]
      split
      · rfl
      · rfl
  | removeNode nodeId => rfl
  | updateNodeStatus nodeId status lastHeartbeat =>
      rw [ConsistentHashRing.change, ConsistentHashRing.updateNodeStatus]
      split
      · rfl
      · rfl

/-! ## Every history -/

theorem consistent_after (options : ConsistentHashRingOptions) (history : List Change) :
    Consistent (after options history) :=
  run_invariant (fun _ action consistent => consistent.change action)
    (consistent_create options) history

theorem options_after (options : ConsistentHashRingOptions) (history : List Change) :
    (after options history).options = options := by
  apply @run_invariant _ _ change (fun ring => ring.options = options)
  · intro ring action same
    rw [options_change, same]
  · rfl

/-! ## Cloning -/

private theorem entries_foldl_addNode {nodes : List NodeInfo} (ring : ConsistentHashRing)
    (nodup : (nodes.map NodeInfo.nodeId).Nodup)
    (fresh : ∀ node ∈ nodes, node.nodeId ∉ ring.nodes.keys) :
    (nodes.foldl (fun copy node => (copy.addNode node).2) ring).nodes.entries =
      ring.nodes.entries ++ nodes.map fun node => (node.nodeId, node) := by
  induction nodes generalizing ring with
  | nil => simp
  | cons node rest ih =>
      obtain ⟨others, restNodup⟩ := List.nodup_cons.mp nodup
      have absent : ring.hasNode node.nodeId = false := by
        rw [← Bool.not_eq_true, hasNode_iff]
        exact fresh node (List.mem_cons_self ..)
      have entries : (ring.addNode node).2.nodes.entries =
          ring.nodes.entries ++ [(node.nodeId, node)] := by
        rw [entries_addNode, ConsistentHashRing.withoutNode, absent]
        rfl
      rw [List.foldl_cons, ih (ring.addNode node).2 restNodup, entries]
      · simp
      · intro other member
        rw [InsertionMap.keys, entries, List.map_append, List.mem_append]
        rintro (old | same)
        · exact fresh other (List.mem_cons_of_mem _ member) old
        · simp only [List.map_cons, List.map_nil, List.mem_singleton] at same
          exact others (List.mem_map.mpr ⟨other, member, same⟩)

/-- Nodes that join one after the other are stored in that order. -/
theorem getPhysicalNodes_after_addNode (options : ConsistentHashRingOptions)
    {nodes : List NodeInfo} (nodup : (nodes.map NodeInfo.nodeId).Nodup) :
    (after options (nodes.map .addNode)).getPhysicalNodes = nodes := by
  have entries := entries_foldl_addNode (create options) nodup (by simp [create])
  rw [getPhysicalNodes, InsertionMap.values, after, run, List.foldl_map]
  change (nodes.foldl (fun copy node => (copy.addNode node).2)
    (create options)).nodes.entries.map Prod.snd = nodes
  rw [entries]
  simp [create, InsertionMap.empty, Function.comp_def]

theorem clone_eq_after (ring : ConsistentHashRing) :
    ring.clone = after ring.options (ring.getPhysicalNodes.map .addNode) := by
  rw [after, run, List.foldl_map]
  rfl

theorem Consistent.getPhysicalNodes_clone (consistent : Consistent ring) :
    ring.clone.getPhysicalNodes = ring.getPhysicalNodes := by
  rw [clone_eq_after, getPhysicalNodes_after_addNode _ consistent.nodup_nodeIds]

theorem Consistent.points_clone (consistent : Consistent ring) :
    ring.clone.points = ring.points := by
  have cloned : Consistent ring.clone := by
    rw [clone_eq_after]
    exact consistent_after _ _
  have sameOptions : ring.clone.options = ring.options := by
    rw [clone_eq_after, options_after]
  rw [cloned.points, consistent.getPhysicalNodes_clone, sameOptions, consistent.points]

/-- In every ring reached from a new one the points are the stable sort by hash of the
virtual nodes in the order of the map, all of nodes of the map; a clone has the same
points and answers every lookup alike. -/
theorem points_of_history_and_clone (options : ConsistentHashRingOptions)
    (history : List Change) :
    (after options history).points = stableSort RingPoint.hash
        ((after options history).getPhysicalNodes.flatMap fun node =>
          (List.range ((JsNumber.finite 1).max
            ((JsNumber.finite options.baseVirtualNodeCount).mul
              (.finite node.weight)).round).rounds).map (virtualNode node.nodeId)) ∧
      (∀ point ∈ (after options history).points,
        (after options history).hasNode point.nodeId = true) ∧
      (after options history).clone.points = (after options history).points ∧
      ∀ key, (after options history).clone.getNode key =
          (after options history).getNode key ∧
        ∀ count, (after options history).clone.getNodesForKey key count =
          (after options history).getNodesForKey key count := by
  have consistent := consistent_after options history
  have points := consistent.points
  rw [options_after] at points
  refine ⟨points, ?_, consistent.points_clone, fun key => ⟨?_, fun count => ?_⟩⟩
  · intro point member
    rw [points, mem_stableSort, List.mem_flatMap] at member
    obtain ⟨node, nodeMem, pointMem⟩ := member
    rw [hasNode_iff, ← consistent.map_nodeId, List.mem_map]
    exact ⟨node, nodeMem,
      (ConsistentHashRingOptions.nodeId_of_mem_virtualNodes pointMem).symm⟩
  · rw [getNode, getNode, consistent.points_clone]
  · rw [getNodesForKey, getNodesForKey, consistent.points_clone]

end ConsistentHashRing

end FlowCache
