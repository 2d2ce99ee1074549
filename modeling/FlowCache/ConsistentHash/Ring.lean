import FlowCache.Library.HashRing
import FlowCache.Library.InsertionMap
import FlowCache.Library.Transition
import FlowCache.Shared.Numbers
import FlowCache.Shared.Types
import FlowCache.Shared.Utils

/-!
# The consistent hash ring

`RingHash`, `ConsistentHashRing` and `analyzeKeyMovement` of
`packages/consistent-hash`.  A ring keeps the physical nodes in a map and their
virtual nodes as points sorted by a 32-bit hash; a lookup is a binary search for the
first point clockwise of the key and a walk from there that skips physical nodes
already selected.
-/

namespace FlowCache

open StableSort

/-! ## Ring hash -/

/-- `fnv1a32(input, seed)`. -/
def fnv1a32 (input : String) (seed : UInt32) : UInt32 :=
  (input.toList.flatMap utf16Units).foldl
    (fun hash unit => (hash ^^^ unit) * 0x01000193) (0x811c9dc5 ^^^ seed)

/-- `djb2(input, seed)`. -/
def djb2 (input : String) (seed : UInt32) : UInt32 :=
  (input.toList.flatMap utf16Units).foldl (fun hash unit => hash * 33 + unit) seed

/-- `ringHash(input)`. -/
def ringHash (input : String) : Nat :=
  let a := fnv1a32 input 0
  let b := djb2 input 5381
  let combined := a ^^^ (b * 0x9e3779b1)
  let combined := combined ^^^ (combined >>> 15)
  let combined := combined * 0x85ebca6b
  let combined := combined ^^^ (combined >>> 13)
  combined.toNat

/-! ## The ring -/

/-- One virtual node: a point of the ring that belongs to a physical node. -/
structure RingPoint where
  hash : Nat
  nodeId : String
  virtualIndex : Nat
  deriving DecidableEq, Repr

/-- A point as callers see it. -/
structure RingAssignment where
  nodeId : String
  virtualNodeHash : Nat
  deriving DecidableEq, Repr

/-- `ConsistentHashRingOptions`. -/
structure ConsistentHashRingOptions where
  baseVirtualNodeCount : Rat := 128
  deriving DecidableEq, Repr

/-- `ConsistentHashRing`. -/
structure ConsistentHashRing where
  options : ConsistentHashRingOptions
  points : List RingPoint
  nodes : InsertionMap String NodeInfo

/-- The nearest integer, the larger one of two. -/
def mathRound (value : Rat) : Int := ⌊value + 1 / 2⌋

/-- `Math.round(value)`. -/
def JsNumber.round : JsNumber → JsNumber
  | .nan => .nan
  | .infinity negative => .infinity negative
  | .finite value => .finite (mathRound value)

/-- `virtualNodeCountFor(node)`, from the base count and the weight of the node. -/
def virtualNodeCountFor (baseVirtualNodeCount weight : JsNumber) : JsNumber :=
  (JsNumber.finite 1).max (baseVirtualNodeCount.mul weight).round

/-- The rounds of a loop `for (let i = 0; i < count; i++)`.  The loop never ends for
`Infinity` (and for counts above `2^53`), so what is returned there does not matter. -/
def JsNumber.rounds : JsNumber → Nat
  | .nan => 0
  | .infinity negative => if negative then 0 else 1
  | .finite count => ⌈count⌉.toNat

/-- The virtual node with a given index: the hash of `${nodeId}#${i}`. -/
def virtualNode (nodeId : String) (index : Nat) : RingPoint where
  hash := ringHash (nodeId ++ "#" ++ toString index)
  nodeId := nodeId
  virtualIndex := index

/-- The points `addNode` generates for a node. -/
def ConsistentHashRingOptions.virtualNodes (options : ConsistentHashRingOptions)
    (node : NodeInfo) : List RingPoint :=
  let virtualCount :=
    virtualNodeCountFor (.finite options.baseVirtualNodeCount) (.finite node.weight)
  (List.range virtualCount.rounds).map (virtualNode node.nodeId)

namespace ConsistentHashRing

/-- `new ConsistentHashRing(options)`. -/
def create (options : ConsistentHashRingOptions) : ConsistentHashRing where
  options := options
  points := []
  nodes := .empty

/-- `hasNode(nodeId)`. -/
def hasNode (ring : ConsistentHashRing) (nodeId : String) : Bool :=
  ring.nodes.contains nodeId

/-- `getNodeInfo(nodeId)`. -/
def getNodeInfo (ring : ConsistentHashRing) (nodeId : String) : Option NodeInfo :=
  ring.nodes.get? nodeId

/-- `removeNode(nodeId)`. -/
def removeNode (ring : ConsistentHashRing) (nodeId : String) : ConsistentHashRing :=
  { ring with
    nodes := ring.nodes.erase nodeId
    points := ring.points.filter fun point => point.nodeId ≠ nodeId }

/-- `addNode(node)`, which also returns the assignments that were added. -/
def addNode (ring : ConsistentHashRing) (node : NodeInfo) :
    List RingAssignment × ConsistentHashRing :=
  let ring := if ring.hasNode node.nodeId then ring.removeNode node.nodeId else ring
  let added := ring.options.virtualNodes node
  (added.map fun point => ⟨point.nodeId, point.hash⟩,
    { ring with
      nodes := ring.nodes.insert node.nodeId node
      points := stableSort RingPoint.hash (ring.points ++ added) })

/-- `updateNodeStatus(nodeId, status, lastHeartbeat)`. -/
def updateNodeStatus (ring : ConsistentHashRing) (nodeId : String)
    (status : NodeStatus) (lastHeartbeat : Millis) : ConsistentHashRing :=
  match ring.nodes.get? nodeId with
  | none => ring
  | some node =>
      { ring with
        nodes := ring.nodes.insert nodeId
          { node with status := status, lastHeartbeat := lastHeartbeat } }

/-- `getPhysicalNodes()`. -/
def getPhysicalNodes (ring : ConsistentHashRing) : List NodeInfo := ring.nodes.values

/-- The hash of the point at an index of the array. -/
def hashAt (points : List RingPoint) (index : Nat) : Nat :=
  ((points[index]?).map RingPoint.hash).getD 0

/-- The binary search of `successorIndex` between `lo` and `hi`. -/
def successorSearch (points : List RingPoint) (targetHash : Nat) :
    (fuel lo hi : Nat) → Nat
  | 0, lo, _ => lo
  | fuel + 1, lo, hi =>
      if lo < hi then
        let mid := (lo + hi) / 2
        if hashAt points mid < targetHash then
          successorSearch points targetHash fuel (mid + 1) hi
        else
          successorSearch points targetHash fuel lo mid
      else
        lo

/-- `successorIndex(targetHash)`: the first point at or after the target, or the first
of all. -/
def successorIndex (points : List RingPoint) (targetHash : Nat) : Nat :=
  let hi := points.length - 1
  if hashAt points hi < targetHash then 0
  else successorSearch points targetHash points.length 0 hi

/-- `getNode(key)`. -/
def getNode (ring : ConsistentHashRing) (key : CacheKey) : Option String :=
  if ring.points.length = 0 then none
  else (ring.points[successorIndex ring.points (ringHash key)]?).map RingPoint.nodeId

/-- The walk of `getNodesForKey`; `seen` holds the ids in `result`. -/
def collectNodes (points : List RingPoint) (count : Rat) :
    (guard index : Nat) → (result : List String) → List String
  | 0, _, result => result
  | guard + 1, index, result =>
      if (result.length : Rat) < count then
        match points[index]? with
        | none => result
        | some candidate =>
            collectNodes points count guard ((index + 1) % points.length)
              (if candidate.nodeId ∈ result then result
                else result ++ [candidate.nodeId])
      else
        result

/-- `getNodesForKey(key, count)`. -/
def getNodesForKey (ring : ConsistentHashRing) (key : CacheKey) (count : Rat) :
    List String :=
  if ring.points.length = 0 ∨ count ≤ 0 then []
  else
    collectNodes ring.points count ring.points.length
      (successorIndex ring.points (ringHash key)) []

/-- `clone()`. -/
def clone (ring : ConsistentHashRing) : ConsistentHashRing :=
  ring.nodes.values.foldl (fun copy node => (copy.addNode node).2) (create ring.options)

/-! ## Histories -/

/-- A change of a ring. -/
inductive Change where
  | addNode (node : NodeInfo)
  | removeNode (nodeId : String)
  | updateNodeStatus (nodeId : String) (status : NodeStatus) (lastHeartbeat : Millis)
  deriving DecidableEq, Repr

/-- One change. -/
def change (ring : ConsistentHashRing) : Change → ConsistentHashRing
  | .addNode node => (ring.addNode node).2
  | .removeNode nodeId => ring.removeNode nodeId
  | .updateNodeStatus nodeId status lastHeartbeat =>
      ring.updateNodeStatus nodeId status lastHeartbeat

/-- The ring after a history of changes of a new one. -/
def after (options : ConsistentHashRingOptions) (history : List Change) :
    ConsistentHashRing :=
  Transition.run change (create options) history

end ConsistentHashRing

/-! ## Key movement -/

/-- `KeyMovementReport`. -/
structure KeyMovementReport where
  sampleSize : Nat
  movedCount : Nat
  movedRatio : Rat
  theoreticalMinimumRatio : Rat
  deriving DecidableEq, Repr

/-- `analyzeKeyMovement(before, after, sampleKeys)`. -/
def analyzeKeyMovement (before after : ConsistentHashRing)
    (sampleKeys : List CacheKey) : KeyMovementReport :=
  let moved := sampleKeys.foldl
    (fun moved key => if before.getNode key ≠ after.getNode key then moved + 1 else moved) 0
  let referenceNodeCount :=
    max (max before.getPhysicalNodes.length after.getPhysicalNodes.length) 1
  { sampleSize := sampleKeys.length
    movedCount := moved
    movedRatio := if 0 < sampleKeys.length then (moved : Rat) / sampleKeys.length else 0
    theoreticalMinimumRatio := 1 / (referenceNodeCount : Rat) }

end FlowCache
