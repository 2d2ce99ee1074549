import FlowCache.Eviction.WorkloadMonitor
import FlowCache.Metrics.Recorders
import FlowCache.Shared.Float
import FlowCache.Storage.Engine

/-!
# Metrics of a node and of the cluster

`MetricsCollector` and `aggregateClusterMetrics` of `packages/metrics`.  A collector counts
the requests itself and reads everything else through its getters when a snapshot is
taken.  The aggregation adds up the snapshots of the nodes; its hit ratio is that of the
sums.
-/

namespace FlowCache

/-! ## One node -/

/-- `StorageStats` as `getStats()` returns it. -/
structure ReportedStats extends StorageStats where
  entryCount : Nat
  totalSizeBytes : Int
  deriving DecidableEq, Repr

/-- `getStats()`. -/
def StorageEngine.getStats {Value Hook : Type} (engine : StorageEngine Value Hook) :
    ReportedStats :=
  { engine.stats with entryCount := engine.size, totalSizeBytes := engine.totalSizeBytes }

/-- What the attached getters return. -/
structure MetricsSources where
  storageStats : ReportedStats
  memoryLimitBytes : Limit
  currentPolicy : EvictionPolicyType
  nodeStatus : NodeStatus
  deriving DecidableEq, Repr

/-- The getters before anything is attached. -/
def MetricsSources.unattached : MetricsSources where
  storageStats := { StorageStats.zero with entryCount := 0, totalSizeBytes := 0 }
  memoryLimitBytes := .infinity
  currentPolicy := .lru
  nodeStatus := .healthy

/-- `MetricsSnapshot`. -/
structure MetricsSnapshot where
  nodeId : String
  timestamp : Millis
  hits : Nat
  misses : Nat
  hitRatio : Rat
  evictions : Nat
  entryCount : Nat
  memoryUsageBytes : Int
  memoryLimitBytes : Limit
  requestsPerSecond : Rat
  latency : LatencyPercentiles
  replicationQueueDepth : Nat
  lastSnapshotDurationMs : Option Millis
  currentEvictionPolicy : EvictionPolicyType
  nodeStatus : NodeStatus
  deriving DecidableEq, Repr

/-- `total > 0 ? hits / total : 0`. -/
def hitRatioOf (hits misses : Nat) : Rat :=
  let totalReads := hits + misses
  if 0 < totalReads then float (hits / totalReads) else 0

/-- `MetricsCollector` without its getters. -/
structure MetricsCollector where
  nodeId : String
  latency : LatencyHistogram
  requestRate : RateCounter
  replicationQueueDepth : Nat
  lastSnapshotDurationMs : Option Millis

namespace MetricsCollector

/-- `new MetricsCollector({ nodeId })`. -/
def create (nodeId : String) : MetricsCollector where
  nodeId := nodeId
  latency := .create 5000 (by decide)
  requestRate := .create 1000 20000 (by decide)
  replicationQueueDepth := 0
  lastSnapshotDurationMs := none

/-- `recordRequest(latencyMs)`. -/
def recordRequest (collector : MetricsCollector) (nowMs : Millis) (latencyMs : Rat) :
    MetricsCollector :=
  { collector with
    latency := collector.latency.record latencyMs
    requestRate := collector.requestRate.hit nowMs }

/-- `recordReplicationQueueDepth(depth)`. -/
def recordReplicationQueueDepth (collector : MetricsCollector) (depth : Nat) :
    MetricsCollector :=
  { collector with replicationQueueDepth := depth }

/-- `recordSnapshotDuration(durationMs)`. -/
def recordSnapshotDuration (collector : MetricsCollector) (durationMs : Millis) :
    MetricsCollector :=
  { collector with lastSnapshotDurationMs := some durationMs }

/-- `reset()`. -/
def reset (collector : MetricsCollector) : MetricsCollector :=
  { collector with
    latency := collector.latency.reset
    requestRate := collector.requestRate.reset
    replicationQueueDepth := 0
    lastSnapshotDurationMs := none }

/-- `getSnapshot()`. -/
def getSnapshot (collector : MetricsCollector) (sources : MetricsSources) (nowMs : Millis) :
    MetricsSnapshot :=
  let stats := sources.storageStats
  { nodeId := collector.nodeId
    timestamp := nowMs
    hits := stats.hits
    misses := stats.misses
    hitRatio := hitRatioOf stats.hits stats.misses
    evictions := stats.evictions
    entryCount := stats.entryCount
    memoryUsageBytes := stats.totalSizeBytes
    memoryLimitBytes := sources.memoryLimitBytes
    requestsPerSecond := collector.requestRate.rate nowMs
    latency := collector.latency.percentiles
    replicationQueueDepth := collector.replicationQueueDepth
    lastSnapshotDurationMs := collector.lastSnapshotDurationMs
    currentEvictionPolicy := sources.currentPolicy
    nodeStatus := sources.nodeStatus }

end MetricsCollector

/-! ## The cluster -/

/-- The variables of the loop in `aggregateClusterMetrics`.  With the default window of one
second the rates are whole numbers, so that their sum does not round. -/
structure ClusterTally where
  totalHits : Nat
  totalMisses : Nat
  totalRps : Rat
  totalEntries : Nat
  totalMemory : Int
  totalMemoryLimit : Nat
  totalEvictions : Nat
  worstP99 : Rat
  policyDistribution : EvictionPolicyType → Nat
  nodeStatusBreakdown : NodeStatus → Nat

namespace ClusterTally

/-- Before the loop. -/
def zero : ClusterTally := ⟨0, 0, 0, 0, 0, 0, 0, 0, fun _ => 0, fun _ => 0⟩

/-- One round of the loop.  An infinite limit adds nothing. -/
def add (tally : ClusterTally) (snapshot : MetricsSnapshot) : ClusterTally where
  totalHits := tally.totalHits + snapshot.hits
  totalMisses := tally.totalMisses + snapshot.misses
  totalRps := tally.totalRps + snapshot.requestsPerSecond
  totalEntries := tally.totalEntries + snapshot.entryCount
  totalMemory := tally.totalMemory + snapshot.memoryUsageBytes
  totalMemoryLimit := tally.totalMemoryLimit +
    match snapshot.memoryLimitBytes with
    | .finite bound => bound
    | .infinity => 0
  totalEvictions := tally.totalEvictions + snapshot.evictions
  worstP99 := max tally.worstP99 snapshot.latency.p99
  policyDistribution := fun policy =>
    tally.policyDistribution policy + if snapshot.currentEvictionPolicy = policy then 1 else 0
  nodeStatusBreakdown := fun status =>
    tally.nodeStatusBreakdown status + if snapshot.nodeStatus = status then 1 else 0

end ClusterTally

/-- `ClusterMetricsSummary`. -/
structure ClusterMetricsSummary where
  timestamp : Millis
  nodeCount : Nat
  healthyNodeCount : Nat
  totalRequestsPerSecond : Rat
  totalEntryCount : Nat
  totalMemoryUsageBytes : Int
  totalMemoryLimitBytes : Nat
  overallHitRatio : Rat
  totalEvictions : Nat
  clusterP99LatencyMs : Rat
  policyDistribution : EvictionPolicyType → Nat
  nodeStatusBreakdown : NodeStatus → Nat
  perNode : List MetricsSnapshot

/-- `aggregateClusterMetrics(snapshots)`. -/
def aggregateClusterMetrics (nowMs : Millis) (snapshots : List MetricsSnapshot) :
    ClusterMetricsSummary :=
  let tally := snapshots.foldl ClusterTally.add .zero
  { timestamp := nowMs
    nodeCount := snapshots.length
    healthyNodeCount := tally.nodeStatusBreakdown .healthy
    totalRequestsPerSecond := tally.totalRps
    totalEntryCount := tally.totalEntries
    totalMemoryUsageBytes := tally.totalMemory
    totalMemoryLimitBytes := tally.totalMemoryLimit
    overallHitRatio := hitRatioOf tally.totalHits tally.totalMisses
    totalEvictions := tally.totalEvictions
    clusterP99LatencyMs := tally.worstP99
    policyDistribution := tally.policyDistribution
    nodeStatusBreakdown := tally.nodeStatusBreakdown
    perNode := snapshots }

end FlowCache
