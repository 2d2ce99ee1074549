import FlowCache.Gateway.CacheRoutes
import FlowCache.Gateway.Hysteresis

/-!
# Nodes that report themselves down

A node whose polls do not overlap has the status its results say.  A response with status
DEAD is no miss: it makes the node suspect and starts the count of misses anew, so only
misses in a row take a node out of rotation.
-/

namespace FlowCache

open Transition ConsistentHashRing

/-! ## Enough failures in a row -/

theorem le_leadingMisses_append {results : List PollResult}
    (missed : ∀ result ∈ results, result = .miss) (earlier : List PollResult) :
    results.length ≤ leadingMisses (results ++ earlier) := by
  induction results with
  | nil => exact Nat.zero_le _
  | cons result rest ih =>
      rw [missed result List.mem_cons_self, List.cons_append, leadingMisses]
      apply Nat.succ_le_succ
      exact ih (fun other member => missed other (List.mem_cons_of_mem _ member))

/-- After as many misses as it takes, a node is dead. -/
theorem settledStatus_miss {options : NodeHealthTrackerOptions}
    {earlier : List PollResult}
    (enough : options.deadAfterMisses ≤ leadingMisses earlier + 1) :
    settledStatus options (.miss :: earlier) = .dead := by
  rw [settledStatus, GatewayHealth.statusAfterMiss, if_pos enough]

/-- A node is dead exactly after a miss that ends a row of enough of them. -/
theorem settledStatus_eq_dead_iff {options : NodeHealthTrackerOptions}
    {results : List PollResult} :
    settledStatus options results = .dead ↔
      results.head? = some .miss ∧ options.deadAfterMisses ≤ leadingMisses results := by
  constructor
  · intro dead
    refine ⟨?_, le_leadingMisses_of_dead dead⟩
    cases results with
    | nil => cases dead
    | cons result earlier =>
        cases result with
        | response reported =>
            rw [settledStatus, GatewayHealth.statusAfterResponse] at dead
            split at dead <;> cases dead
        | miss => rfl
  · rintro ⟨newest, enough⟩
    obtain ⟨earlier, rfl⟩ := List.head?_eq_some_iff.mp newest
    exact settledStatus_miss enough

/-- A node is dead after as many polls as it takes to make it dead exactly if all of them
missed. -/
theorem settledStatus_append_eq_dead_iff {options : NodeHealthTrackerOptions}
    {results earlier : List PollResult} (length : results.length = options.deadAfterMisses) :
    settledStatus options (results ++ earlier) = .dead ↔
      (∀ result ∈ results, result = .miss) ∧
        (options.deadAfterMisses = 0 → earlier.head? = some .miss) := by
  rw [settledStatus_eq_dead_iff]
  constructor
  · rintro ⟨newest, enough⟩
    have missed := take_of_le_leadingMisses enough
    rw [← length, List.take_left] at missed
    refine ⟨fun result member => ?_, ?_⟩
    · rw [missed] at member
      exact List.eq_of_mem_replicate member
    · intro none
      rw [List.length_eq_zero_iff.mp (length.trans none)] at newest
      exact newest
  · rintro ⟨missed, newest⟩
    constructor
    · cases results with
      | nil => exact newest length.symm
      | cons result rest =>
          rw [missed result List.mem_cons_self]
          rfl
    · rw [← length]
      exact le_leadingMisses_append missed earlier

/-! ## Polls that do not overlap -/

namespace GatewayHealth

/-- A poll cycle starts when no poll of the node is in flight. -/
def Sequential (nodeId : String) (health : GatewayHealth) : HealthAction → Prop
  | .pollAll => ∀ kept ∈ health.inFlight, kept.nodeId ≠ nodeId
  | .complete _ _ => True
  | .advance _ => True

instance (nodeId : String) (health : GatewayHealth) :
    (action : HealthAction) → Decidable (Sequential nodeId health action)
  | .pollAll => inferInstanceAs (Decidable (∀ kept ∈ health.inFlight, kept.nodeId ≠ nodeId))
  | .complete _ _ => .isTrue trivial
  | .advance _ => .isTrue trivial

/-- At most one poll of the node is in flight, and it kept what the ring has. -/
structure Sequenced (nodeId : String) (health : GatewayHealth) : Prop where
  consistent : health.ring.Consistent
  apart : health.inFlight.Pairwise
    (fun one other => one.nodeId = nodeId → other.nodeId ≠ nodeId)
  current : ∀ kept ∈ health.inFlight, kept.nodeId = nodeId →
    health.ring.getNodeInfo nodeId = some kept

variable {options : NodeHealthTrackerOptions} {nodeId : String} {health : GatewayHealth}

theorem Sequenced.create (nodeId : String) (virtualNodeCount : Rat)
    (staticNodes : List StaticNode) (now : Millis) :
    Sequenced nodeId (create virtualNodeCount staticNodes now) where
  consistent := by
    apply List.foldlRecOn (motive := Consistent)
    · exact consistent_create _
    · intro ring consistent node _
      exact consistent.addNode (node.joining now)
  apart := .nil
  current _ member := absurd member List.not_mem_nil

/-- A physical node is stored under its id. -/
theorem getNodeInfo_of_mem_getPhysicalNodes {ring : ConsistentHashRing}
    (consistent : ring.Consistent) {kept : NodeInfo}
    (member : kept ∈ ring.getPhysicalNodes) :
    ring.getNodeInfo kept.nodeId = some kept := by
  obtain ⟨stored, found⟩ := InsertionMap.mem_values_iff.mp member
  rw [consistent.nodeId_eq found]
  exact found

theorem Sequenced.pollAll (sequenced : Sequenced nodeId health)
    (idle : ∀ kept ∈ health.inFlight, kept.nodeId ≠ nodeId) :
    Sequenced nodeId health.pollAll where
  consistent := sequenced.consistent
  apart := by
    have distinct : health.ring.getPhysicalNodes.Pairwise
        (fun one other => one.nodeId ≠ other.nodeId) :=
      List.pairwise_map.mp sequenced.consistent.nodup_nodeIds
    apply List.pairwise_append.mpr
    refine ⟨sequenced.apart, ?_, ?_⟩
    · apply distinct.imp
      intro one other different named same
      exact different (named.trans same.symm)
    · intro one member other _ named
      exact absurd named (idle one member)
  current := by
    intro kept member named
    rcases List.mem_append.mp member with inFlight | stored
    · exact absurd named (idle kept inFlight)
    · have found := getNodeInfo_of_mem_getPhysicalNodes sequenced.consistent stored
      rw [named] at found
      exact found

/-- The poll that completes was the only one of its node. -/
theorem Sequenced.nodeId_ne_of_mem_eraseIdx (sequenced : Sequenced nodeId health)
    {index : Nat} {kept other : NodeInfo} (inFlight : health.inFlight[index]? = some kept)
    (named : kept.nodeId = nodeId) (left : other ∈ health.inFlight.eraseIdx index) :
    other.nodeId ≠ nodeId := by
  obtain ⟨bound, rfl⟩ := List.getElem?_eq_some_iff.mp inFlight
  have reordered := List.getElem_cons_eraseIdx_perm bound
  have apart := (reordered.pairwise_iff (fun related named same => related same named)).mpr
    sequenced.apart
  exact (List.pairwise_cons.mp apart).1 other left named

theorem Sequenced.complete (sequenced : Sequenced nodeId health) {index : Nat}
    {kept : NodeInfo} (inFlight : health.inFlight[index]? = some kept)
    (result : PollResult) :
    Sequenced nodeId (pollOne options
      { health with inFlight := health.inFlight.eraseIdx index } kept result) := by
  have left : (pollOne options { health with inFlight := health.inFlight.eraseIdx index }
      kept result).inFlight = health.inFlight.eraseIdx index := by
    cases result <;> rfl
  constructor
  case consistent =>
    cases result <;> exact sequenced.consistent.updateNodeStatus _ _ _
  case apart =>
    rw [left]
    exact sequenced.apart.sublist (List.eraseIdx_sublist _ _)
  case current =>
    rw [left]
    intro other member named
    by_cases same : nodeId = kept.nodeId
    · have different := sequenced.nodeId_ne_of_mem_eraseIdx inFlight same.symm member
      exact absurd named different
    · have untouched := untouched_pollOne options
        { health with inFlight := health.inFlight.eraseIdx index } same result
      rw [untouched.info]
      exact sequenced.current other (List.mem_of_mem_eraseIdx member) named

theorem Sequenced.step {action : HealthAction} (sequenced : Sequenced nodeId health)
    (sequential : Sequential nodeId health action) :
    Sequenced nodeId (health.step options action) := by
  cases action with
  | advance elapsed => exact ⟨sequenced.consistent, sequenced.apart, sequenced.current⟩
  | pollAll => exact sequenced.pollAll sequential
  | complete index result =>
      rw [GatewayHealth.step]
      cases inFlight : health.inFlight[index]? with
      | none => exact sequenced
      | some kept => exact sequenced.complete inFlight result

/-- A poll that no other poll of its node overlaps kept what the ring has. -/
theorem Sequenced.upToDate (sequenced : Sequenced nodeId health) (action : HealthAction) :
    UpToDate options nodeId health action := by
  cases action with
  | advance elapsed => trivial
  | pollAll => trivial
  | complete index result =>
      cases result with
      | response reported => trivial
      | miss =>
          intro kept inFlight named info found
          have stored := sequenced.current kept (List.mem_of_getElem? inFlight) named
          cases Option.mem_unique found stored
          exact ⟨rfl, fun _ => rfl⟩

/-- Polls of the node that do not overlap leave it with the status its results say. -/
theorem sequenced_and_settled_run (options : NodeHealthTrackerOptions) (nodeId : String)
    (virtualNodeCount : Rat) (staticNodes : List StaticNode) (now : Millis)
    {actions : List HealthAction}
    (sequential : EveryStep (step options) (Sequential nodeId)
      (create virtualNodeCount staticNodes now) actions) :
    Sequenced nodeId
        (run (step options) (create virtualNodeCount staticNodes now) actions) ∧
      Settled options nodeId
        (run (step options) (create virtualNodeCount staticNodes now) actions) := by
  refine @EveryStep.invariant _ _ (step options) _
    (fun health => Sequenced nodeId health ∧ Settled options nodeId health) _ actions ?_
    ⟨Sequenced.create nodeId virtualNodeCount staticNodes now,
      Settled.create options nodeId virtualNodeCount staticNodes now⟩ sequential
  rintro health action ⟨sequenced, settled⟩ apart
  exact ⟨sequenced.step apart, settled.step (sequenced.upToDate action)⟩

/-- After as many polls as `deadAfterMisses` says, none of which overlap, the node is dead
and out of rotation exactly if each of them was a miss. -/
theorem dead_after_polls_iff {Body : Type} (options : NodeHealthTrackerOptions)
    (nodeId : String) (virtualNodeCount : Rat) (staticNodes : List StaticNode)
    (now : Millis) {actions : List HealthAction}
    (sequential : EveryStep (step options) (Sequential nodeId)
      (create virtualNodeCount staticNodes now) actions)
    {reached : GatewayHealth}
    (reaches : run (step options) (create virtualNodeCount staticNodes now) actions =
      reached)
    {info : NodeInfo} (known : reached.ring.getNodeInfo nodeId = some info)
    {polls earlier : List PollResult} (results : reached.results nodeId = polls ++ earlier)
    (length : polls.length = options.deadAfterMisses)
    (failing : ∀ result ∈ polls, result = .miss ∨ result = .response .dead) :
    (info.status = .dead ∧
        ∀ (count : Rat) (key : CacheKey) (action : NodeInfo → Except ForwardError Body),
          ∀ node ∈ (reached.ring.forwardWithFailover count key action).1,
            node.nodeId ≠ nodeId) ↔
      (∀ result ∈ polls, result ≠ .response .dead) ∧
        (options.deadAfterMisses = 0 → earlier.head? = some .miss) := by
  obtain ⟨sequenced, settled⟩ :=
    sequenced_and_settled_run options nodeId virtualNodeCount staticNodes now sequential
  rw [reaches] at sequenced settled
  have missed : (∀ result ∈ polls, result ≠ .response .dead) ↔
      ∀ result ∈ polls, result = .miss := by
    constructor
    · intro alive result member
      exact (failing result member).resolve_right (alive result member)
    · intro missed result member
      rw [missed result member]
      exact PollResult.noConfusion
  rw [missed, ← settledStatus_append_eq_dead_iff length, ← results,
    ← settled.status info known]
  constructor
  · exact And.left
  · intro dead
    refine ⟨dead, ?_⟩
    intro count key action node tried
    exact sequenced.consistent.not_tried_of_dead known dead tried

/-- Five polls in a row that miss. -/
def fiveMisses : List HealthAction :=
  [.pollAll, .complete 0 (.response .healthy), .pollAll, .complete 0 .miss, .pollAll,
    .complete 0 .miss, .pollAll, .complete 0 .miss, .pollAll, .complete 0 .miss, .pollAll,
    .complete 0 .miss]

theorem dead_after_fiveMisses :
    ∃ info, (run (step ⟨2, 5⟩) (create 1 oneNode 0) fiveMisses).ring.getNodeInfo "node-a" =
        some info ∧ info.status = .dead ∧
      ∀ (count : Rat) (key : CacheKey) (action : NodeInfo → Except ForwardError Nat),
        ∀ node ∈ ((run (step ⟨2, 5⟩) (create 1 oneNode 0)
          fiveMisses).ring.forwardWithFailover count key action).1,
          node.nodeId ≠ "node-a" := by
  have known : (run (step ⟨2, 5⟩) (create 1 oneNode 0) fiveMisses).ring.getNodeInfo
      "node-a" = some ⟨"node-a", "localhost", 7001, .dead, 0, 1⟩ := by
    decide +kernel
  have results : (run (step ⟨2, 5⟩) (create 1 oneNode 0) fiveMisses).results "node-a" =
      List.replicate 5 .miss ++ [.response .healthy] := by
    decide +kernel
  refine ⟨_, known, ?_⟩
  apply (dead_after_polls_iff ⟨2, 5⟩ "node-a" 1 oneNode 0 (by decide +kernel) rfl known
    results rfl (by decide)).mpr
  decide

/-- Five polls in a row that answer DEAD. -/
def fiveReports : List HealthAction :=
  [.pollAll, .complete 0 (.response .dead), .pollAll, .complete 0 (.response .dead),
    .pollAll, .complete 0 (.response .dead), .pollAll, .complete 0 (.response .dead),
    .pollAll, .complete 0 (.response .dead)]

/-- A node that keeps reporting itself down stays suspect. -/
theorem suspect_after_fiveReports :
    ¬∀ (options : NodeHealthTrackerOptions) (nodeId : String) (virtualNodeCount : Rat)
      (staticNodes : List StaticNode) (now : Millis) (actions : List HealthAction)
      (info : NodeInfo) (polls earlier : List PollResult),
      EveryStep (step options) (Sequential nodeId)
          (create virtualNodeCount staticNodes now) actions →
        (run (step options) (create virtualNodeCount staticNodes now)
          actions).ring.getNodeInfo nodeId = some info →
        (run (step options) (create virtualNodeCount staticNodes now) actions).results
          nodeId = polls ++ earlier →
        polls.length = options.deadAfterMisses →
        (∀ result ∈ polls, result = .miss ∨ result = .response .dead) →
        info.status = .dead := by
  intro progression
  have dead := progression ⟨2, 5⟩ "node-a" 1 oneNode 0 fiveReports
    ⟨"node-a", "localhost", 7001, .suspect, 0, 1⟩ (List.replicate 5 (.response .dead)) []
    (by decide +kernel) (by decide +kernel) (by decide +kernel) rfl (by decide)
  cases dead

end GatewayHealth

end FlowCache
