import FlowCache.ConsistentHash.Ring

/-!
# Health polls of the gateway

`NodeHealthTracker` of `apps/gateway`: every interval it starts a poll of each node of the
ring without waiting for the polls before it.  A poll keeps the node as the ring had it
when the poll started and writes the node's status when it completes.

The completed polls are kept as a log with the newest one first.
-/

namespace FlowCache

/-- The options of `NodeHealthTracker` that decide a status. -/
structure NodeHealthTrackerOptions where
  suspectAfterMisses : Nat
  deadAfterMisses : Nat
  deriving DecidableEq, Repr

/-- How `client.getHealth(node)` ends: with the status the node reports, or by throwing. -/
inductive PollResult where
  | response (status : NodeStatus)
  | miss
  deriving DecidableEq, Repr

/-- One node of `config.staticNodes`. -/
structure StaticNode where
  nodeId : String
  host : String
  port : Nat
  weight : Rat
  deriving DecidableEq, Repr

/-- The node that the constructor of `GatewayServer` adds to the ring. -/
def StaticNode.joining (node : StaticNode) (now : Millis) : NodeInfo where
  nodeId := node.nodeId
  host := node.host
  port := node.port
  status := .joining
  lastHeartbeat := now
  weight := node.weight

/-- The ring, the tracker's `missCounts`, the clock, the polls in flight with the node
each of them keeps, and the log of completed polls. -/
structure GatewayHealth where
  ring : ConsistentHashRing
  missCounts : InsertionMap String Nat
  now : Millis
  inFlight : List NodeInfo
  completed : List (String × PollResult)

/-- What happens next: time passes, a poll cycle starts, or a poll in flight completes. -/
inductive HealthAction where
  | advance (elapsed : Nat)
  | pollAll
  | complete (index : Nat) (result : PollResult)
  deriving DecidableEq, Repr

namespace GatewayHealth

/-- A new `GatewayServer`. -/
def create (virtualNodeCount : Rat) (staticNodes : List StaticNode) (now : Millis) :
    GatewayHealth where
  ring := staticNodes.foldl (fun ring node => (ring.addNode (node.joining now)).2)
    (.create ⟨virtualNodeCount⟩)
  missCounts := .empty
  now := now
  inFlight := []
  completed := []

/-- `this.missCounts.get(nodeId) ?? 0`. -/
def missCount (health : GatewayHealth) (nodeId : String) : Nat :=
  (health.missCounts.get? nodeId).getD 0

/-- The results of a node's completed polls, the newest one first. -/
def results (health : GatewayHealth) (nodeId : String) : List PollResult :=
  (health.completed.filter (·.1 = nodeId)).map Prod.snd

/-- `pollAll()` up to its `await`. -/
def pollAll (health : GatewayHealth) : GatewayHealth :=
  { health with inFlight := health.inFlight ++ health.ring.getPhysicalNodes }

/-- The status a miss leads to, given the status the poll has kept. -/
def statusAfterMiss (options : NodeHealthTrackerOptions) (misses : Nat)
    (kept : NodeStatus) : NodeStatus :=
  if misses ≥ options.deadAfterMisses then
    .dead
  else if misses ≥ options.suspectAfterMisses then
    .suspect
  else
    kept

/-- The status a response leads to. -/
def statusAfterResponse (reported : NodeStatus) : NodeStatus :=
  if reported = .dead then .suspect else .healthy

/-- `pollOne(node)` after its `await`. -/
def pollOne (options : NodeHealthTrackerOptions) (health : GatewayHealth)
    (node : NodeInfo) : PollResult → GatewayHealth
  | .response reported =>
      { health with
        missCounts := health.missCounts.insert node.nodeId 0
        ring := health.ring.updateNodeStatus node.nodeId (statusAfterResponse reported)
          health.now
        completed := (node.nodeId, .response reported) :: health.completed }
  | .miss =>
      let misses := health.missCount node.nodeId + 1
      { health with
        missCounts := health.missCounts.insert node.nodeId misses
        ring := health.ring.updateNodeStatus node.nodeId
          (statusAfterMiss options misses node.status) node.lastHeartbeat
        completed := (node.nodeId, .miss) :: health.completed }

/-- One event. -/
def step (options : NodeHealthTrackerOptions) (health : GatewayHealth) :
    HealthAction → GatewayHealth
  | .advance elapsed => { health with now := health.now + elapsed }
  | .pollAll => health.pollAll
  | .complete index result =>
      match health.inFlight[index]? with
      | none => health
      | some node =>
          pollOne options { health with inFlight := health.inFlight.eraseIdx index } node
            result

/-! ## What a step does to one node -/

theorem getNodeInfo_updateNodeStatus (ring : ConsistentHashRing) (nodeId query : String)
    (status : NodeStatus) (lastHeartbeat : Millis) :
    (ring.updateNodeStatus nodeId status lastHeartbeat).getNodeInfo query =
      if query = nodeId then
        (ring.getNodeInfo query).map fun node =>
          { node with status := status, lastHeartbeat := lastHeartbeat }
      else
        ring.getNodeInfo query := by
  rw [ConsistentHashRing.updateNodeStatus]
  by_cases same : query = nodeId
  · subst same
    rw [if_pos rfl]
    cases found : ring.nodes.get? query with
    | none => simp [ConsistentHashRing.getNodeInfo, found]
    | some node => simp [ConsistentHashRing.getNodeInfo, found]
  · rw [if_neg same]
    cases ring.nodes.get? nodeId with
    | none => rfl
    | some node => exact InsertionMap.get?_insert_of_ne _ same _

/-- The node's miss count after one of its polls completed. -/
def missCountAfter (misses : Nat) : PollResult → Nat
  | .response _ => 0
  | .miss => misses + 1

/-- The node's entry after one of its polls completed. -/
def infoAfter (options : NodeHealthTrackerOptions) (health : GatewayHealth)
    (kept : NodeInfo) (result : PollResult) (info : NodeInfo) : NodeInfo :=
  match result with
  | .response reported =>
      { info with status := statusAfterResponse reported, lastHeartbeat := health.now }
  | .miss =>
      { info with
        status := statusAfterMiss options (health.missCount kept.nodeId + 1) kept.status
        lastHeartbeat := kept.lastHeartbeat }

/-- A poll of the node completed, and what it had kept. -/
structure Completes (options : NodeHealthTrackerOptions) (health next : GatewayHealth)
    (nodeId : String) (kept : NodeInfo) (result : PollResult) : Prop where
  named : kept.nodeId = nodeId
  results : next.results nodeId = result :: health.results nodeId
  missCount : next.missCount nodeId = missCountAfter (health.missCount nodeId) result
  info : next.ring.getNodeInfo nodeId =
    (health.ring.getNodeInfo nodeId).map (infoAfter options health kept result)

/-- Nothing about the node changed. -/
structure Untouched (health next : GatewayHealth) (nodeId : String) : Prop where
  results : next.results nodeId = health.results nodeId
  missCount : next.missCount nodeId = health.missCount nodeId
  info : next.ring.getNodeInfo nodeId = health.ring.getNodeInfo nodeId

theorem completes_pollOne (options : NodeHealthTrackerOptions) (health : GatewayHealth)
    (node : NodeInfo) (result : PollResult) :
    Completes options health (pollOne options health node result) node.nodeId node
      result := by
  cases result with
  | response reported =>
      constructor
      case named => rfl
      case results => simp [pollOne, GatewayHealth.results]
      case missCount => simp [pollOne, GatewayHealth.missCount, missCountAfter]
      case info => exact (getNodeInfo_updateNodeStatus ..).trans (if_pos rfl)
  | miss =>
      constructor
      case named => rfl
      case results => simp [pollOne, GatewayHealth.results]
      case missCount => simp [pollOne, GatewayHealth.missCount, missCountAfter]
      case info => exact (getNodeInfo_updateNodeStatus ..).trans (if_pos rfl)

theorem untouched_pollOne (options : NodeHealthTrackerOptions) (health : GatewayHealth)
    {node : NodeInfo} {nodeId : String} (other : nodeId ≠ node.nodeId)
    (result : PollResult) :
    Untouched health (pollOne options health node result) nodeId := by
  cases result with
  | response reported =>
      constructor
      case results => simp [pollOne, GatewayHealth.results, other.symm]
      case missCount =>
        simp [pollOne, GatewayHealth.missCount, InsertionMap.get?_insert_of_ne _ other]
      case info => simp [pollOne, getNodeInfo_updateNodeStatus, other]
  | miss =>
      constructor
      case results => simp [pollOne, GatewayHealth.results, other.symm]
      case missCount =>
        simp [pollOne, GatewayHealth.missCount, InsertionMap.get?_insert_of_ne _ other]
      case info => simp [pollOne, getNodeInfo_updateNodeStatus, other]

/-- A step completes a poll of the node or does not touch it. -/
theorem step_cases (options : NodeHealthTrackerOptions) (health : GatewayHealth)
    (action : HealthAction) (nodeId : String) :
    Untouched health (health.step options action) nodeId ∨
      ∃ index kept result, action = .complete index result ∧
        health.inFlight[index]? = some kept ∧
        Completes options health (health.step options action) nodeId kept result := by
  cases action with
  | advance elapsed => exact .inl ⟨rfl, rfl, rfl⟩
  | pollAll => exact .inl ⟨rfl, rfl, rfl⟩
  | complete index result =>
      rw [step]
      cases found : health.inFlight[index]? with
      | none => exact .inl ⟨rfl, rfl, rfl⟩
      | some kept =>
          by_cases same : nodeId = kept.nodeId
          · right
            subst same
            refine ⟨index, kept, result, rfl, found, ?_⟩
            have completes := completes_pollOne options
              { health with inFlight := health.inFlight.eraseIdx index } kept result
            exact ⟨rfl, completes.results, completes.missCount, completes.info⟩
          · left
            have untouched := untouched_pollOne options
              { health with inFlight := health.inFlight.eraseIdx index } same result
            exact ⟨untouched.results, untouched.missCount, untouched.info⟩

/-- The clock does not go back. -/
theorem now_le_step (options : NodeHealthTrackerOptions) (health : GatewayHealth)
    (action : HealthAction) : health.now ≤ (health.step options action).now := by
  cases action with
  | advance elapsed => exact Int.le_add_of_nonneg_right (Int.natCast_nonneg elapsed)
  | pollAll => exact Int.le_refl _
  | complete index result =>
      rw [step]
      split
      · exact Int.le_refl _
      · cases result <;> exact Int.le_refl _

end GatewayHealth

end FlowCache
