import Mathlib.Algebra.BigOperators.Ring.Finset
import Mathlib.Data.Bool.Count
import FlowCache.CacheNode.FaultInjection
import FlowCache.Eviction.Capacity
import FlowCache.Gateway.CacheRoutes
import FlowCache.Metrics.Aggregation
import FlowCache.Storage.ReadCounts

/-!
# The metrics of the cluster

`GET /metrics` of a node and of the gateway.  A node's collector is attached to its storage,
its eviction engine and its fault injector; the route is behind the kill switch.  The
gateway asks every node that its ring does not have as DEAD, leaves out those that do not
answer, and aggregates the rest.  Nodes are asked at different times.

Replicated and restored entries reach the storage through `set`, too.
-/

namespace FlowCache

open Transition

/-! ## A node -/

/-- A node as far as its metrics go.  `reads` is a log of what its storage's `get` calls
have found. -/
structure MonitoredNode (Value : Type) where
  engine : StorageEngine Value ConfiguredHook
  collector : MetricsCollector
  faults : FaultState
  maxMemoryBytes : Limit
  reads : List Bool

/-- What can happen on a node. -/
inductive MonitoredAction (Value : Type) where
  | storage (action : StorageAction Value)
  | finishRequest (nowMs : Millis) (latencyMs : Rat)
  | snapshotTaken (durationMs : Millis)
  | injectFault (type : FaultType) (body : FaultInjectionBody)
  | resetFaults

namespace MonitoredNode

variable {Value : Type}

/-- A node whose process has just started. -/
def start (nodeId : String) (options : StorageEngineOptions) (hook : ConfiguredHook)
    (maxMemoryBytes : Limit) : MonitoredNode Value where
  engine := .create options hook
  collector := .create nodeId
  faults := .healthy
  maxMemoryBytes := maxMemoryBytes
  reads := []

/-- What the getters attached by `CacheNodeServer` return; a node without an adaptive
engine or a policy has none attached for the policy. -/
def sources (node : MonitoredNode Value) : MetricsSources where
  storageStats := node.engine.getStats
  memoryLimitBytes := node.maxMemoryBytes
  currentPolicy :=
    match node.engine.hook with
    | .inl _ => MetricsSources.unattached.currentPolicy
    | .inr (.inl policy) => policy.type
    | .inr (.inr adaptive) => adaptive.getCurrentPolicy
  nodeStatus := if node.faults.killed then .dead else .healthy

/-- `GET /metrics` of a node; a killed node answers 503. -/
def metricsRoute (node : MonitoredNode Value) (nowMs : Millis) : Option MetricsSnapshot :=
  if node.faults.passesKillSwitch then some (node.collector.getSnapshot node.sources nowMs)
  else none

variable [SizedValue Value]

/-- One action. -/
def step (node : MonitoredNode Value) : MonitoredAction Value → MonitoredNode Value
  | .storage action =>
      { node with
        engine := node.engine.perform action
        reads :=
          match action with
          | .get now key => node.reads ++ [(node.engine.get now key).1.isSome]
          | _ => node.reads }
  | .finishRequest nowMs latencyMs =>
      { node with collector := node.collector.recordRequest nowMs latencyMs }
  | .snapshotTaken durationMs =>
      { node with collector := node.collector.recordSnapshotDuration durationMs }
  | .injectFault type body => { node with faults := node.faults.apply type body }
  | .resetFaults => { node with faults := .healthy }

/-- The counters are those of the reads, and the byte count that of the entries. -/
structure Counted (node : MonitoredNode Value) : Prop where
  hits : node.engine.stats.hits = node.reads.count true
  misses : node.engine.stats.misses = node.reads.count false
  settled : node.engine.Settled

omit [SizedValue Value] in
theorem counted_start (nodeId : String) (options : StorageEngineOptions)
    (hook : ConfiguredHook) (maxMemoryBytes : Limit) :
    (start nodeId options hook maxMemoryBytes : MonitoredNode Value).Counted :=
  ⟨rfl, rfl, StorageEngine.settled_create options hook⟩

/-- An operation of the storage other than `get` counts no read. -/
theorem readCounts_perform (engine : StorageEngine Value ConfiguredHook)
    {action : StorageAction Value} (noRead : ∀ now key, action ≠ .get now key) :
    (engine.perform action).readCounts = engine.readCounts := by
  have adaptive : ∀ change : AdaptiveEvictionEngine → AdaptiveEvictionEngine,
      (engine.changeAdaptive change).readCounts = engine.readCounts := by
    intro change
    unfold StorageEngine.changeAdaptive
    split <;> rfl
  cases action with
  | set now key value options => exact StorageEngine.readCounts_afterSet _ _ _ _ _
  | get now key => exact absurd rfl (noRead now key)
  | has now key => exact StorageEngine.readCounts_has _ _ _
  | delete key => exact StorageEngine.readCounts_delete _ _
  | sweepExpired now => exact StorageEngine.readCounts_sweepExpired _ _
  | clear => rfl
  | evaluate now memoryUsageRatio => exact adaptive _
  | forceSwitch now memoryUsageRatio policy reason => exact adaptive _
  | getSignals memoryUsageRatio => exact adaptive _
  | pauseAutoSwitch => exact adaptive _
  | resumeAutoSwitch => exact adaptive _

theorem Counted.step {node : MonitoredNode Value} (counted : node.Counted)
    (action : MonitoredAction Value) : (node.step action).Counted := by
  cases action with
  | storage action =>
      have settled := counted.settled.perform action
      by_cases read : ∃ now key, action = .get now key
      · obtain ⟨now, key, rfl⟩ := read
        have counts := StorageEngine.readCounts_get node.engine now key
        simp only [StorageEngine.readCounts] at counts
        simp only [MonitoredNode.step, StorageEngine.perform] at settled ⊢
        cases found : (node.engine.get now key).1.isSome with
        | true =>
            rw [found, if_pos rfl, Prod.mk.injEq] at counts
            exact ⟨by simp [counts.1, counted.hits], by simp [counts.2, counted.misses], settled⟩
        | false =>
            rw [found, if_neg (by simp), Prod.mk.injEq] at counts
            exact ⟨by simp [counts.1, counted.hits], by simp [counts.2, counted.misses], settled⟩
      · have noRead : ∀ now key, action ≠ .get now key :=
          fun now key same => read ⟨now, key, same⟩
        have same := readCounts_perform node.engine noRead
        simp only [StorageEngine.readCounts, Prod.mk.injEq] at same
        have log : (node.step (.storage action)).reads = node.reads := by
          cases action with
          | get now key => exact absurd rfl (noRead now key)
          | _ => rfl
        refine ⟨?_, ?_, settled⟩
        · rw [log, ← counted.hits]
          exact same.1
        · rw [log, ← counted.misses]
          exact same.2
  | finishRequest nowMs latencyMs => exact ⟨counted.hits, counted.misses, counted.settled⟩
  | snapshotTaken durationMs => exact ⟨counted.hits, counted.misses, counted.settled⟩
  | injectFault type body => exact ⟨counted.hits, counted.misses, counted.settled⟩
  | resetFaults => exact ⟨counted.hits, counted.misses, counted.settled⟩

end MonitoredNode

/-! ## The gateway -/

namespace ConsistentHashRing

/-- The nodes that the gateway asks for their metrics. -/
def metricsNodes (ring : ConsistentHashRing) : List NodeInfo :=
  ring.getPhysicalNodes.filter fun node => node.status ≠ .dead

end ConsistentHashRing

section Gateway

variable {Value : Type}

/-- `getMetrics(node)` of the gateway's client: nothing if the node cannot be reached or
does not answer with status 200. -/
def getMetrics (nodes : String → MonitoredNode Value) (reachable : NodeInfo → Bool)
    (askedAt : NodeInfo → Millis) (info : NodeInfo) : Option MetricsSnapshot :=
  if reachable info then (nodes info.nodeId).metricsRoute (askedAt info) else none

/-- `GET /metrics` of the gateway. -/
def clusterMetrics (ring : ConsistentHashRing) (nodes : String → MonitoredNode Value)
    (reachable : NodeInfo → Bool) (askedAt : NodeInfo → Millis) (nowMs : Millis) :
    ClusterMetricsSummary :=
  aggregateClusterMetrics nowMs
    (ring.metricsNodes.filterMap (getMetrics nodes reachable askedAt))

/-- The nodes that answer. -/
def answeringNodes (ring : ConsistentHashRing) (nodes : String → MonitoredNode Value)
    (reachable : NodeInfo → Bool) : List NodeInfo :=
  ring.metricsNodes.filter fun info =>
    reachable info && (nodes info.nodeId).faults.passesKillSwitch

theorem filterMap_getMetrics (infos : List NodeInfo) (nodes : String → MonitoredNode Value)
    (reachable : NodeInfo → Bool) (askedAt : NodeInfo → Millis) :
    infos.filterMap (getMetrics nodes reachable askedAt) =
      (infos.filter fun info => reachable info && (nodes info.nodeId).faults.passesKillSwitch).map
        fun info => (nodes info.nodeId).collector.getSnapshot (nodes info.nodeId).sources
          (askedAt info) := by
  induction infos with
  | nil => rfl
  | cons info rest ih =>
      rw [List.filterMap_cons, List.filter_cons, getMetrics, MonitoredNode.metricsRoute]
      cases reachable info with
      | false => simpa using ih
      | true =>
          cases (nodes info.nodeId).faults.passesKillSwitch with
          | false => simpa using ih
          | true => simpa using ih

/-- The reads of the nodes. -/
def allReads (nodes : String → MonitoredNode Value) (infos : List NodeInfo) : List Bool :=
  infos.flatMap fun info => (nodes info.nodeId).reads

/-- What the summary says about the nodes that answered: all are counted as healthy and
under their policy, the ratio is the share of all their reads that found an entry and lies
between two of theirs, the sizes are those of their stores, and the order in which they
are listed makes no difference. -/
structure SummarizesCluster (nodes : String → MonitoredNode Value) (answering : List NodeInfo)
    (summary : ClusterMetricsSummary) : Prop where
  nodeCount : summary.nodeCount = answering.length
  healthy : summary.healthyNodeCount = summary.nodeCount
  statuses : ∀ status, status ≠ .healthy → summary.nodeStatusBreakdown status = 0
  policies : summary.policyDistribution .lru + summary.policyDistribution .lfu +
    summary.policyDistribution .tinyLfu = summary.nodeCount
  hitRatio : summary.overallHitRatio = hitRatioOf ((allReads nodes answering).count true)
    ((allReads nodes answering).count false)
  between : allReads nodes answering ≠ [] →
    ∃ lowest ∈ summary.perNode, ∃ highest ∈ summary.perNode,
      lowest.hitRatio ≤ summary.overallHitRatio ∧ summary.overallHitRatio ≤ highest.hitRatio
  entries : summary.totalEntryCount =
    (answering.map fun info => (nodes info.nodeId).engine.size).sum
  memory : summary.totalMemoryUsageBytes =
    ((answering.map fun info => (nodes info.nodeId).engine.storedBytes).sum : Nat)
  order : ∀ others, summary.perNode.Perm others →
    aggregateClusterMetrics summary.timestamp others = { summary with perNode := others }

theorem sum_count_reads (nodes : String → MonitoredNode Value) (infos : List NodeInfo)
    (found : Bool) :
    (infos.map fun info => (nodes info.nodeId).reads.count found).sum =
      (allReads nodes infos).count found := by
  induction infos with
  | nil => rfl
  | cons info rest ih =>
      rw [List.map_cons, List.sum_cons, ih]
      exact List.count_append.symm

theorem summarizesCluster_of_counted {nodes : String → MonitoredNode Value}
    (counted : ∀ nodeId, (nodes nodeId).Counted) (ring : ConsistentHashRing)
    (reachable : NodeInfo → Bool) (askedAt : NodeInfo → Millis) (nowMs : Millis) :
    SummarizesCluster nodes (answeringNodes ring nodes reachable)
      (clusterMetrics ring nodes reachable askedAt nowMs) := by
  have taken := filterMap_getMetrics ring.metricsNodes nodes reachable askedAt
  have alive : ∀ info ∈ answeringNodes ring nodes reachable,
      (nodes info.nodeId).faults.killed = false := by
    intro info member
    have passes := (Bool.and_eq_true_iff.mp (List.mem_filter.mp member).2).2
    simpa [FaultState.passesKillSwitch] using passes
  rw [← answeringNodes] at taken
  unfold clusterMetrics
  rw [taken]
  generalize answeringNodes ring nodes reachable = answering at alive
  obtain ⟨snapshots, listed⟩ : ∃ snapshots, snapshots = answering.map fun info =>
      (nodes info.nodeId).collector.getSnapshot (nodes info.nodeId).sources (askedAt info) :=
    ⟨_, rfl⟩
  have mapped : ∀ {Amount : Type} (amount : MetricsSnapshot → Amount),
      snapshots.map amount = answering.map fun info => amount
        ((nodes info.nodeId).collector.getSnapshot (nodes info.nodeId).sources (askedAt info)) := by
    intro Amount amount
    rw [listed, List.map_map]
    rfl
  have hits : (answering.map fun info => (nodes info.nodeId).engine.stats.hits).sum =
      (allReads nodes answering).count true := by
    rw [← sum_count_reads]
    exact congrArg List.sum (List.map_congr_left fun info _ => (counted info.nodeId).hits)
  have misses : (answering.map fun info => (nodes info.nodeId).engine.stats.misses).sum =
      (allReads nodes answering).count false := by
    rw [← sum_count_reads]
    exact congrArg List.sum (List.map_congr_left fun info _ => (counted info.nodeId).misses)
  have statuses : ∀ status, snapshots.countP (·.nodeStatus = status) =
      if status = .healthy then snapshots.length else 0 := by
    intro status
    have reported : ∀ snapshot ∈ snapshots, snapshot.nodeStatus = .healthy := by
      intro snapshot member
      rw [listed] at member
      obtain ⟨info, asked, rfl⟩ := List.mem_map.mp member
      simp [MetricsCollector.getSnapshot, MonitoredNode.sources, alive info asked]
    split
    · next healthy =>
        apply List.countP_eq_length.mpr
        intro snapshot member
        simp [reported snapshot member, healthy]
    · next other =>
        apply List.countP_eq_zero.mpr
        intro snapshot member
        simpa [reported snapshot member] using Ne.symm other
  rw [← listed]
  have aggregates := aggregates_aggregateClusterMetrics nowMs snapshots
  constructor
  case nodeCount =>
    rw [aggregates.nodeCount, listed]
    exact List.length_map _
  case healthy => rw [aggregates.healthy, aggregates.statuses, statuses, if_pos rfl,
    aggregates.nodeCount]
  case statuses =>
    intro status other
    rw [aggregates.statuses, statuses, if_neg other]
  case policies => exact aggregates.policies
  case hitRatio =>
    rw [aggregates.hitRatio, mapped, mapped, ← hits, ← misses]
    rfl
  case between =>
    intro some
    have reads : 0 < (snapshots.map (·.hits)).sum + (snapshots.map (·.misses)).sum := by
      have length := List.length_pos_iff.mpr some
      rw [← List.count_false_add_count_true, Nat.add_comm, ← hits, ← misses] at length
      rw [mapped, mapped]
      exact length
    have ratios : ∀ snapshot ∈ snapshots,
        snapshot.hitRatio = hitRatioOf snapshot.hits snapshot.misses := by
      intro snapshot member
      rw [listed] at member
      obtain ⟨info, -, rfl⟩ := List.mem_map.mp member
      rfl
    obtain ⟨⟨lowest, low, -, below⟩, ⟨highest, high, -, above⟩⟩ :=
      hitRatioOf_sum MetricsSnapshot.hits MetricsSnapshot.misses reads
    rw [aggregates.perNode, aggregates.hitRatio]
    exact ⟨lowest, low, highest, high, (ratios lowest low).trans_le below,
      above.trans_eq (ratios highest high).symm⟩
  case entries =>
    rw [aggregates.entries, mapped]
    rfl
  case memory =>
    rw [aggregates.memory, mapped, Nat.cast_list_sum, List.map_map]
    exact congrArg List.sum (List.map_congr_left fun info _ =>
      (counted info.nodeId).settled.sound.accounted)
  case order => exact fun others perm => aggregateClusterMetrics_of_perm perm nowMs

variable [SizedValue Value]

/-- The nodes after what each of them has been through. -/
def monitoredNodes (options : String → StorageEngineOptions) (hook : String → ConfiguredHook)
    (maxMemoryBytes : String → Limit) (history : String → List (MonitoredAction Value)) :
    String → MonitoredNode Value :=
  fun nodeId => run MonitoredNode.step
    (.start nodeId (options nodeId) (hook nodeId) (maxMemoryBytes nodeId)) (history nodeId)

/-- Whatever the nodes have been through, and whichever of them answer when, the metrics of
the gateway are those of the nodes that answer. -/
theorem cluster_metrics_summarize_nodes (ring : ConsistentHashRing)
    (options : String → StorageEngineOptions) (hook : String → ConfiguredHook)
    (maxMemoryBytes : String → Limit) (history : String → List (MonitoredAction Value))
    (reachable : NodeInfo → Bool) (askedAt : NodeInfo → Millis) (nowMs : Millis) :
    SummarizesCluster (monitoredNodes options hook maxMemoryBytes history)
      (answeringNodes ring (monitoredNodes options hook maxMemoryBytes history) reachable)
      (clusterMetrics ring (monitoredNodes options hook maxMemoryBytes history) reachable askedAt
        nowMs) := by
  apply summarizesCluster_of_counted
  intro nodeId
  exact run_invariant (fun _ action counted => counted.step action)
    (MonitoredNode.counted_start nodeId _ _ _) _

end Gateway

end FlowCache
