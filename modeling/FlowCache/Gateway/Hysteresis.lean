import FlowCache.ConsistentHash.Membership
import FlowCache.Gateway.NodeHealthTracker

/-!
# Hysteresis of the health polls

What a node's completed polls say of it is a function of their results alone.  The ring
agrees with it as long as a poll that misses writes back what the ring still has: the
heartbeat, and the status if the miss is below the threshold.  A poll that was overtaken
by another one of the same node writes back what is out of date.
-/

namespace FlowCache

open Transition ConsistentHashRing

/-! ## Results of polls -/

/-- The misses since the last response; the newest result comes first. -/
def leadingMisses : List PollResult → Nat
  | [] => 0
  | .response _ :: _ => 0
  | .miss :: earlier => leadingMisses earlier + 1

/-- The status a node should have after its completed polls. -/
def settledStatus (options : NodeHealthTrackerOptions) : List PollResult → NodeStatus
  | [] => .joining
  | .response reported :: _ => GatewayHealth.statusAfterResponse reported
  | .miss :: earlier =>
      GatewayHealth.statusAfterMiss options (leadingMisses earlier + 1)
        (settledStatus options earlier)

/-- What hysteresis promises: a node is dead only after enough misses in a row, and after
a response other than DEAD it is healthy until a poll reports DEAD or enough misses come
in a row. -/
structure Hysteresis (options : NodeHealthTrackerOptions) (results : List PollResult)
    (status : NodeStatus) : Prop where
  dead : status = .dead →
    results.take options.deadAfterMisses = List.replicate options.deadAfterMisses .miss
  healthy : ∀ later reported earlier, results = later ++ .response reported :: earlier →
    reported ≠ .dead → (∀ other, .response other ∈ later → other ≠ .dead) →
      ¬List.replicate options.suspectAfterMisses .miss <:+: later → status = .healthy

theorem take_of_le_leadingMisses {count : Nat} {results : List PollResult}
    (enough : count ≤ leadingMisses results) :
    results.take count = List.replicate count .miss := by
  induction results generalizing count with
  | nil =>
      rw [Nat.le_zero.mp enough]
      rfl
  | cons result earlier ih =>
      cases count with
      | zero => rfl
      | succ count =>
          cases result with
          | response reported => simp [leadingMisses] at enough
          | miss =>
              rw [List.take_succ_cons, List.replicate_succ,
                ih (Nat.le_of_succ_le_succ enough)]

theorem leadingMisses_replicate_append (count : Nat) (reported : NodeStatus)
    (earlier : List PollResult) :
    leadingMisses (List.replicate count .miss ++ .response reported :: earlier) = count := by
  induction count with
  | zero => rfl
  | succ count ih =>
      rw [List.replicate_succ, List.cons_append, leadingMisses, ih]

/-- Only enough misses in a row make a node dead. -/
theorem le_leadingMisses_of_dead {options : NodeHealthTrackerOptions}
    {results : List PollResult} (dead : settledStatus options results = .dead) :
    options.deadAfterMisses ≤ leadingMisses results := by
  induction results with
  | nil => cases dead
  | cons result earlier ih =>
      cases result with
      | response reported =>
          rw [settledStatus, GatewayHealth.statusAfterResponse] at dead
          split at dead <;> cases dead
      | miss =>
          rw [settledStatus, GatewayHealth.statusAfterMiss] at dead
          rw [leadingMisses]
          split at dead
          · assumption
          · split at dead
            · cases dead
            · exact Nat.le_succ_of_le (ih dead)

/-- Misses below the threshold leave the last response in force. -/
theorem settledStatus_replicate_append {options : NodeHealthTrackerOptions}
    (ordered : options.suspectAfterMisses ≤ options.deadAfterMisses) {count : Nat}
    (few : count < options.suspectAfterMisses) (reported : NodeStatus)
    (earlier : List PollResult) :
    settledStatus options (List.replicate count .miss ++ .response reported :: earlier) =
      GatewayHealth.statusAfterResponse reported := by
  induction count with
  | zero => rfl
  | succ count ih =>
      rw [List.replicate_succ, List.cons_append, settledStatus,
        leadingMisses_replicate_append, GatewayHealth.statusAfterMiss, if_neg (by omega),
        if_neg (by omega)]
      exact ih (Nat.lt_of_succ_lt few)

/-- The newest results are misses, down to the last response if there is one. -/
theorem exists_leading_misses (results : List PollResult) :
    ∃ count rest, results = List.replicate count .miss ++ rest ∧
      (rest = [] ∨ ∃ reported earlier, rest = .response reported :: earlier) := by
  induction results with
  | nil => exact ⟨0, [], rfl, .inl rfl⟩
  | cons result earlier ih =>
      cases result with
      | response reported => exact ⟨0, _, rfl, .inr ⟨reported, earlier, rfl⟩⟩
      | miss =>
          obtain ⟨count, rest, same, shape⟩ := ih
          refine ⟨count + 1, rest, ?_, shape⟩
          rw [same, List.replicate_succ, List.cons_append]

/-- The settled status keeps the promise. -/
theorem hysteresis_settledStatus {options : NodeHealthTrackerOptions}
    (ordered : options.suspectAfterMisses ≤ options.deadAfterMisses)
    (results : List PollResult) :
    Hysteresis options results (settledStatus options results) where
  dead isDead := take_of_le_leadingMisses (le_leadingMisses_of_dead isDead)
  healthy := by
    intro later reported earlier split notDead noneDead noRun
    obtain ⟨count, rest, sameLater, shape⟩ := exists_leading_misses later
    have few : count < options.suspectAfterMisses := by
      by_contra many
      apply noRun
      rw [sameLater]
      have shorter : List.replicate options.suspectAfterMisses PollResult.miss <+:
          List.replicate count PollResult.miss := by
        rw [List.prefix_replicate_iff, List.length_replicate]
        exact ⟨Nat.le_of_not_lt many, rfl⟩
      exact (shorter.trans (List.prefix_append _ _)).isInfix
    rcases shape with rfl | ⟨other, before, rfl⟩
    · rw [split, sameLater, List.append_nil,
        settledStatus_replicate_append ordered few,
        GatewayHealth.statusAfterResponse, if_neg notDead]
    · have otherNotDead : other ≠ .dead := by
        apply noneDead
        rw [sameLater]
        simp
      rw [split, sameLater, List.append_assoc, List.cons_append,
        settledStatus_replicate_append ordered few,
        GatewayHealth.statusAfterResponse, if_neg otherNotDead]

/-! ## Overlapping polls -/

namespace GatewayHealth

/-- If a poll of the node completes with a miss, it kept the heartbeat that the ring still
has, and the status as well if the miss is below the threshold. -/
def UpToDate (options : NodeHealthTrackerOptions) (nodeId : String)
    (health : GatewayHealth) : HealthAction → Prop
  | .complete index .miss =>
      ∀ kept ∈ health.inFlight[index]?, kept.nodeId = nodeId →
        ∀ info ∈ health.ring.getNodeInfo nodeId,
          kept.lastHeartbeat = info.lastHeartbeat ∧
            (health.missCount nodeId + 1 < options.suspectAfterMisses →
              kept.status = info.status)
  | .complete _ (.response _) => True
  | .pollAll => True
  | .advance _ => True

instance (options : NodeHealthTrackerOptions) (nodeId : String) (health : GatewayHealth) :
    (action : HealthAction) → Decidable (UpToDate options nodeId health action)
  | .complete index .miss =>
      inferInstanceAs (Decidable (∀ kept ∈ health.inFlight[index]?, kept.nodeId = nodeId →
        ∀ info ∈ health.ring.getNodeInfo nodeId,
          kept.lastHeartbeat = info.lastHeartbeat ∧
            (health.missCount nodeId + 1 < options.suspectAfterMisses →
              kept.status = info.status)))
  | .complete _ (.response _) => .isTrue trivial
  | .pollAll => .isTrue trivial
  | .advance _ => .isTrue trivial

/-- The step does not turn the node's heartbeat back. -/
def KeepsHeartbeat (options : NodeHealthTrackerOptions) (nodeId : String)
    (health : GatewayHealth) (action : HealthAction) : Prop :=
  ∀ before ∈ health.ring.getNodeInfo nodeId,
    ∀ after ∈ (health.step options action).ring.getNodeInfo nodeId,
      before.lastHeartbeat ≤ after.lastHeartbeat

/-- The tracker and the ring say what the completed polls say. -/
structure Settled (options : NodeHealthTrackerOptions) (nodeId : String)
    (health : GatewayHealth) : Prop where
  missCount : health.missCount nodeId = leadingMisses (health.results nodeId)
  status : ∀ info ∈ health.ring.getNodeInfo nodeId,
    info.status = settledStatus options (health.results nodeId)
  heartbeat : ∀ info ∈ health.ring.getNodeInfo nodeId, info.lastHeartbeat ≤ health.now

variable {options : NodeHealthTrackerOptions} {nodeId : String} {health : GatewayHealth}

/-- `addNode` stores the node and leaves the others. -/
theorem getNodeInfo_addNode (ring : ConsistentHashRing) (node : NodeInfo) (query : String) :
    (ring.addNode node).2.getNodeInfo query =
      if query = node.nodeId then some node else ring.getNodeInfo query := by
  change ((ring.withoutNode node.nodeId).nodes.insert node.nodeId node).get? query = _
  rw [InsertionMap.get?_insert]
  by_cases same : query = node.nodeId
  · rw [if_pos same, if_pos same]
  · rw [if_neg same, if_neg same, withoutNode]
    split
    · exact InsertionMap.get?_erase_of_ne _ same
    · rfl

/-- The nodes of a new gateway are joining. -/
theorem joining_create {virtualNodeCount : Rat} {staticNodes : List StaticNode}
    {now : Millis} {info : NodeInfo}
    (found : info ∈ (create virtualNodeCount staticNodes now).ring.getNodeInfo nodeId) :
    info.status = .joining ∧ info.lastHeartbeat = now := by
  have joining : ∀ query, ∀ info ∈
      (create virtualNodeCount staticNodes now).ring.getNodeInfo query,
        info.status = .joining ∧ info.lastHeartbeat = now := by
    apply List.foldlRecOn (motive := fun ring : ConsistentHashRing => ∀ query,
      ∀ info ∈ ring.getNodeInfo query, info.status = .joining ∧ info.lastHeartbeat = now)
    · intro query info stored
      cases stored
    · intro ring joining node _ query info stored
      rw [getNodeInfo_addNode] at stored
      split at stored
      · cases stored
        exact ⟨rfl, rfl⟩
      · exact joining query info stored
  exact joining nodeId info found

theorem Settled.create (options : NodeHealthTrackerOptions) (nodeId : String)
    (virtualNodeCount : Rat) (staticNodes : List StaticNode) (now : Millis) :
    Settled options nodeId (create virtualNodeCount staticNodes now) where
  missCount := rfl
  status _ found := (joining_create found).1
  heartbeat _ found := Int.le_of_eq (joining_create found).2

theorem Settled.untouched {next : GatewayHealth} (settled : Settled options nodeId health)
    (untouched : Untouched health next nodeId) (later : health.now ≤ next.now) :
    Settled options nodeId next where
  missCount := by rw [untouched.missCount, untouched.results, settled.missCount]
  status := by
    rw [untouched.info, untouched.results]
    exact settled.status
  heartbeat := by
    rw [untouched.info]
    intro info found
    exact Int.le_trans (settled.heartbeat info found) later

/-- A miss leads to the settled status if it writes back the status the ring has. -/
theorem Settled.status_of_miss (settled : Settled options nodeId health) {kept info : NodeInfo}
    (found : info ∈ health.ring.getNodeInfo nodeId)
    (same : health.missCount nodeId + 1 < options.suspectAfterMisses →
      kept.status = info.status) :
    statusAfterMiss options (health.missCount nodeId + 1) kept.status =
      settledStatus options (.miss :: health.results nodeId) := by
  rw [settledStatus, ← settled.missCount, statusAfterMiss, statusAfterMiss]
  split
  · rfl
  · split
    · rfl
    · rename_i below
      rw [same (Nat.lt_of_not_le below)]
      exact settled.status info found

theorem Settled.completes {next : GatewayHealth} {kept : NodeInfo} {result : PollResult}
    (settled : Settled options nodeId health)
    (completes : Completes options health next nodeId kept result)
    (upToDate : result = .miss → ∀ info ∈ health.ring.getNodeInfo nodeId,
      kept.lastHeartbeat = info.lastHeartbeat ∧
        (health.missCount nodeId + 1 < options.suspectAfterMisses →
          kept.status = info.status))
    (later : health.now ≤ next.now) : Settled options nodeId next := by
  have named := completes.named
  subst named
  constructor
  case missCount =>
    rw [completes.missCount, completes.results, settled.missCount]
    cases result <;> rfl
  case status =>
    rw [completes.info, completes.results]
    intro after found
    obtain ⟨info, stored, rfl⟩ := Option.mem_map.mp found
    cases result with
    | response reported => rfl
    | miss => exact settled.status_of_miss stored (upToDate rfl info stored).2
  case heartbeat =>
    rw [completes.info]
    intro after found
    obtain ⟨info, stored, rfl⟩ := Option.mem_map.mp found
    cases result with
    | response reported => exact later
    | miss =>
        have same := (upToDate rfl info stored).1
        have kept := settled.heartbeat info stored
        rw [← same] at kept
        exact Int.le_trans kept later

/-- What the condition says of the poll that completes. -/
theorem UpToDate.kept {index : Nat} {kept : NodeInfo} {result : PollResult}
    (upToDate : UpToDate options nodeId health (.complete index result))
    (inFlight : health.inFlight[index]? = some kept) (named : kept.nodeId = nodeId)
    (missed : result = .miss) : ∀ info ∈ health.ring.getNodeInfo nodeId,
      kept.lastHeartbeat = info.lastHeartbeat ∧
        (health.missCount nodeId + 1 < options.suspectAfterMisses →
          kept.status = info.status) := by
  subst missed
  exact upToDate kept inFlight named

theorem Settled.step {action : HealthAction} (settled : Settled options nodeId health)
    (upToDate : UpToDate options nodeId health action) :
    Settled options nodeId (health.step options action) := by
  have later := now_le_step options health action
  rcases step_cases options health action nodeId with
    untouched | ⟨index, kept, result, rfl, inFlight, completes⟩
  · exact settled.untouched untouched later
  · exact settled.completes completes (upToDate.kept inFlight completes.named) later

theorem Settled.keepsHeartbeat {action : HealthAction}
    (settled : Settled options nodeId health)
    (upToDate : UpToDate options nodeId health action) :
    KeepsHeartbeat options nodeId health action := by
  intro before found after foundAfter
  rcases step_cases options health action nodeId with
    untouched | ⟨index, kept, result, rfl, inFlight, completes⟩
  · rw [untouched.info] at foundAfter
    cases Option.mem_unique found foundAfter
    exact Int.le_refl _
  · rw [completes.info] at foundAfter
    obtain ⟨info, stored, rfl⟩ := Option.mem_map.mp foundAfter
    cases Option.mem_unique found stored
    cases result with
    | response reported => exact settled.heartbeat before found
    | miss =>
        have same := (upToDate.kept inFlight completes.named rfl before found).1
        exact Int.le_of_eq same.symm

/-- In every run whose misses write back what the ring still has, the node keeps the
promise of hysteresis and its heartbeat is never turned back. -/
theorem hysteresis_of_upToDate
    (ordered : options.suspectAfterMisses ≤ options.deadAfterMisses) (nodeId : String)
    (virtualNodeCount : Rat) (staticNodes : List StaticNode) (now : Millis)
    {actions : List HealthAction}
    (upToDate : EveryStep (step options) (UpToDate options nodeId)
      (create virtualNodeCount staticNodes now) actions) :
    (∀ info ∈ (run (step options) (create virtualNodeCount staticNodes now)
        actions).ring.getNodeInfo nodeId,
      Hysteresis options
        ((run (step options) (create virtualNodeCount staticNodes now) actions).results
          nodeId) info.status) ∧
      EveryStep (step options) (KeepsHeartbeat options nodeId)
        (create virtualNodeCount staticNodes now) actions := by
  have initial := Settled.create options nodeId virtualNodeCount staticNodes now
  constructor
  · intro info found
    have settled := upToDate.invariant
      (fun _ _ settled upToDate => Settled.step settled upToDate) initial
    rw [settled.status info found]
    exact hysteresis_settledStatus ordered _
  · exact upToDate.of_invariant (fun _ _ settled upToDate => Settled.step settled upToDate)
      (fun _ _ settled upToDate => Settled.keepsHeartbeat settled upToDate) initial

/-- Two polls overlap, and both miss. -/
def overlappingMisses : List HealthAction :=
  [.pollAll, .complete 0 (.response .healthy), .advance 10, .pollAll, .advance 10,
    .pollAll, .complete 1 .miss, .complete 0 .miss]

def oneNode : List StaticNode := [⟨"node-a", "localhost", 7001, 1⟩]

theorem hysteresis_overlappingMisses :
    EveryStep (step ⟨2, 5⟩) (UpToDate ⟨2, 5⟩ "node-a") (create 1 oneNode 0)
        overlappingMisses ∧
      ((run (step ⟨2, 5⟩) (create 1 oneNode 0) overlappingMisses).ring.getNodeInfo
        "node-a").map NodeInfo.status = some .suspect ∧
      ((∀ info ∈ (run (step ⟨2, 5⟩) (create 1 oneNode 0)
          overlappingMisses).ring.getNodeInfo "node-a",
        Hysteresis ⟨2, 5⟩ ((run (step ⟨2, 5⟩) (create 1 oneNode 0)
          overlappingMisses).results "node-a") info.status) ∧
        EveryStep (step ⟨2, 5⟩) (KeepsHeartbeat ⟨2, 5⟩ "node-a") (create 1 oneNode 0)
          overlappingMisses) := by
  have upToDate : EveryStep (step ⟨2, 5⟩) (UpToDate ⟨2, 5⟩ "node-a")
      (create 1 oneNode 0) overlappingMisses := by
    decide +kernel
  refine ⟨upToDate, by decide +kernel, ?_⟩
  exact hysteresis_of_upToDate (by decide) "node-a" 1 oneNode 0 upToDate

/-- Five misses make the node dead.  Of two polls that overlap, the second one finds it
back, and the first one misses after that. -/
def overtakenPoll : List HealthAction :=
  [.pollAll, .complete 0 .miss, .pollAll, .complete 0 .miss, .pollAll, .complete 0 .miss,
    .pollAll, .complete 0 .miss, .pollAll, .complete 0 .miss, .pollAll, .pollAll,
    .advance 5, .complete 1 (.response .healthy), .complete 0 .miss]

/-- The overtaken poll writes DEAD back right after a response, and the old heartbeat. -/
theorem hysteresis_fails_on_overtaken_poll :
    ¬∀ (options : NodeHealthTrackerOptions) (nodeId : String) (virtualNodeCount : Rat)
      (staticNodes : List StaticNode) (now : Millis) (actions : List HealthAction),
      1 ≤ options.suspectAfterMisses →
        options.suspectAfterMisses ≤ options.deadAfterMisses →
        (∀ info ∈ (run (step options) (create virtualNodeCount staticNodes now)
            actions).ring.getNodeInfo nodeId,
          Hysteresis options
            ((run (step options) (create virtualNodeCount staticNodes now) actions).results
              nodeId) info.status) ∧
          EveryStep (step options) (KeepsHeartbeat options nodeId)
            (create virtualNodeCount staticNodes now) actions := by
  intro promised
  obtain ⟨hysteresis, -⟩ := promised ⟨2, 5⟩ "node-a" 1 oneNode 0 overtakenPoll (by decide)
    (by decide)
  have stored : (run (step ⟨2, 5⟩) (create 1 oneNode 0) overtakenPoll).ring.getNodeInfo
      "node-a" = some ⟨"node-a", "localhost", 7001, .dead, 0, 1⟩ := by
    decide +kernel
  have results : (run (step ⟨2, 5⟩) (create 1 oneNode 0) overtakenPoll).results "node-a" =
      [.miss] ++ .response .healthy :: List.replicate 5 .miss := by
    decide +kernel
  have healthy := (hysteresis _ stored).healthy _ _ _ results
  have alive := healthy (by decide) (by simp) (by decide)
  cases alive

end GatewayHealth

end FlowCache
