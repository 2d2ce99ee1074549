import FlowCache.Library.Transition
import FlowCache.Library.InsertedSteps
import FlowCache.Library.History
import FlowCache.Library.InsertionMap
import FlowCache.Library.LinkedOrder
import FlowCache.Library.RecencyOrder
import FlowCache.Library.Retention
import FlowCache.Library.StableSort
import FlowCache.Library.HashRing
import FlowCache.Library.VersionedRegister
import FlowCache.Library.Redelivery
import FlowCache.Library.TwoWriters
import FlowCache.Library.FrequencyOrder
import FlowCache.Library.PercentEncoding
import FlowCache.Library.ConsumerGroups
import FlowCache.Library.OrderStatistics
import FlowCache.Library.PairwiseDifference
import FlowCache.Library.SeparatedItems
import FlowCache.Library.BinaryFloat
import FlowCache.Library.PosixPath
import FlowCache.Library.ExpiringMap
import FlowCache.Library.LowerBound
import FlowCache.Library.FloatOrder
import FlowCache.Library.Mediant
import FlowCache.Library.RecencyCache
import FlowCache.Library.RecencyPotential
import FlowCache.Shared.Float
import FlowCache.Shared.Types
import FlowCache.Shared.Utils
import FlowCache.Shared.RingBuffer
import FlowCache.Shared.Numbers
import FlowCache.Shared.Config
import FlowCache.Metrics.Recorders
import FlowCache.Metrics.Collector
import FlowCache.Storage.Engine
import FlowCache.Storage.Spec
import FlowCache.Storage.Invariants
import FlowCache.Storage.ReadCounts
import FlowCache.Storage.Tracking
import FlowCache.Storage.Accounting
import FlowCache.Storage.Capacity
import FlowCache.Storage.Expiration
import FlowCache.Storage.KeyValueMap
import FlowCache.Eviction.LRU
import FlowCache.Eviction.Calls
import FlowCache.Eviction.LFU
import FlowCache.Eviction.CountMinSketch
import FlowCache.Eviction.TinyLFU
import FlowCache.Eviction.WorkloadMonitor
import FlowCache.Eviction.AdaptiveEvictionEngine
import FlowCache.Eviction.Capacity
import FlowCache.Eviction.Progress
import FlowCache.Eviction.ExactTracking
import FlowCache.Eviction.LeastFrequent
import FlowCache.Eviction.TouchOrder
import FlowCache.Eviction.VictimWindow
import FlowCache.Eviction.SketchBounds
import FlowCache.Eviction.SketchSeeding
import FlowCache.Eviction.StoredRecency
import FlowCache.Eviction.Inclusion
import FlowCache.Eviction.TextbookLru
import FlowCache.Eviction.LruCompetitive
import FlowCache.Eviction.SeededRecency
import FlowCache.Eviction.PolicySwitching
import FlowCache.Eviction.Observation
import FlowCache.Eviction.Gini
import FlowCache.Eviction.SignalRange
import FlowCache.ConsistentHash.Ring
import FlowCache.ConsistentHash.Lookup
import FlowCache.ConsistentHash.Membership
import FlowCache.ConsistentHash.Rebalance
import FlowCache.ConsistentHash.Routing
import FlowCache.ConsistentHash.SuccessorSearch
import FlowCache.ConsistentHash.StaticNodes
import FlowCache.Gateway.NodeHealthTracker
import FlowCache.Gateway.Hysteresis
import FlowCache.Gateway.CacheRoutes
import FlowCache.Gateway.SelfReport
import FlowCache.Gateway.ReplicaList
import FlowCache.Metrics.Aggregation
import FlowCache.Gateway.ClusterMetrics
import FlowCache.WorkerPool.Pool
import FlowCache.WorkerPool.Spec
import FlowCache.WorkerPool.Invariant
import FlowCache.WorkerPool.Scheduling
import FlowCache.WorkerPool.SelfHealing
import FlowCache.WorkerPool.Bookkeeping
import FlowCache.WorkerPool.FailedPost
import FlowCache.WorkerPool.WorkerEntry
import FlowCache.WorkerPool.Lifetime
import FlowCache.WorkerPool.Settlement
import FlowCache.Snapshot.Types
import FlowCache.Snapshot.Store
import FlowCache.Snapshot.Manager
import FlowCache.Snapshot.Retention
import FlowCache.Snapshot.FileStore
import FlowCache.Snapshot.Crashes
import FlowCache.Snapshot.CrashSafety
import FlowCache.CacheNode.Apply
import FlowCache.CacheNode.Recovery
import FlowCache.CacheNode.Routes
import FlowCache.Replication.Engine
import FlowCache.CacheNode.Requests
import FlowCache.Replication.Primary
import FlowCache.Replication.OutOfOrder
import FlowCache.Replication.Redelivery
import FlowCache.Replication.Deletions
import FlowCache.Replication.TwoWriters
import FlowCache.Replication.Agreement
import FlowCache.Replication.Acks
import FlowCache.Replication.AckProtocol
import FlowCache.Replication.TimedEngine
import FlowCache.Replication.FailedPublish
import FlowCache.Replication.Broadcast
import FlowCache.Gateway.KeyPaths
import FlowCache.Gateway.PutValidation
import FlowCache.Gateway.Cluster
import FlowCache.Gateway.Confinement
import FlowCache.Gateway.Forwarding
import FlowCache.Gateway.SingleWriter
import FlowCache.CacheNode.Versions
import FlowCache.CacheNode.Cleanup
import FlowCache.CacheNode.Durability
import FlowCache.CacheNode.Restart
import FlowCache.CacheNode.Startup
import FlowCache.CacheNode.Shutdown
import FlowCache.CacheNode.FaultInjection
import FlowCache.CacheNode.CrashRecovery
import FlowCache.Benchmark.Workloads
import FlowCache.Benchmark.Sampling
import FlowCache.Benchmark.ExecuteOps
import FlowCache.Benchmark.Runner
import FlowCache.Benchmark.Reports
