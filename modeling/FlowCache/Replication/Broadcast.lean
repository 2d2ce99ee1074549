import FlowCache.Library.ConsumerGroups
import FlowCache.Replication.Engine
import FlowCache.Shared.Config

/-!
# The replication topic as a broadcast

Every node subscribes to the replication topic with the consumer group of its
configuration and decides for itself which events it is a target of.  Kafka hands a
message to one member of each group only, so an event reaches all its targets for sure
exactly if each of them is alone in its group.  Nodes without `KAFKA_CONSUMER_GROUP` all
load the same group.
-/

namespace FlowCache

open ConsumerGroups

variable {Value : Type}

/-- The `groupId` of the consumer that `subscribeAll` creates. -/
def CacheNodeConfig.groupId (config : CacheNodeConfig) : String :=
  config.kafka.consumerGroup

/-- The nodes of a cluster that are handed a message: one of each consumer group. -/
def Delivers (cluster : List CacheNodeConfig) (handed : Set CacheNodeConfig) : Prop :=
  HandsToOne { config | config ∈ cluster } CacheNodeConfig.groupId handed

/-- Every node of the cluster that is a target of the event is handed it. -/
def ReachesTargets (cluster : List CacheNodeConfig) (message : EventMessage Value)
    (handed : Set CacheNodeConfig) : Prop :=
  ∀ config ∈ cluster, config.nodeId ∈ message.targetNodeIds → config ∈ handed

/-- Whatever Kafka does, the event reaches its targets. -/
def IsBroadcast (cluster : List CacheNodeConfig) (message : EventMessage Value) : Prop :=
  ∀ handed, Delivers cluster handed → ReachesTargets cluster message handed

/-- The configuration is one that a node loads when `KAFKA_CONSUMER_GROUP` is not set. -/
def CacheNodeConfig.HasDefaultGroup (config : CacheNodeConfig) : Prop :=
  ∃ environment : Environment, environment.loadCacheNodeConfig = .ok config ∧
    environment.value? "KAFKA_CONSUMER_GROUP" = none

theorem CacheNodeConfig.HasDefaultGroup.groupId_eq {config : CacheNodeConfig}
    (unset : config.HasDefaultGroup) : config.groupId = "flowcache-node-group" := by
  obtain ⟨environment, loaded, absent⟩ := unset
  have group := (Environment.loadCacheNodeConfig_ok loaded).2
  rw [absent] at group
  exact group

variable {cluster : List CacheNodeConfig} {message : EventMessage Value}

theorem isBroadcast_iff_alone :
    IsBroadcast cluster message ↔
      ∀ config ∈ cluster, config.nodeId ∈ message.targetNodeIds →
        Alone { config | config ∈ cluster } CacheNodeConfig.groupId config := by
  constructor
  · intro broadcast config member target
    have here : config ∈ { config | config ∈ cluster } := member
    apply (always_handed_iff here).mp
    intro handed delivers
    exact broadcast handed delivers config member target
  · intro alone handed delivers config member target
    exact delivers.mem_of_alone member (alone config member target)

/-- A cluster whose nodes have groups of their own. -/
theorem isBroadcast_of_own_groups (own : (cluster.map CacheNodeConfig.groupId).Nodup) :
    IsBroadcast cluster message := by
  rw [isBroadcast_iff_alone]
  intro config member _ other otherMember same
  exact List.inj_on_of_nodup_map own otherMember member same

/-- Nodes that share a group: one that is a target is sure of the event only if it is the
whole cluster. -/
theorem isBroadcast_iff_of_shared_group
    (distinct : (cluster.map CacheNodeConfig.nodeId).Nodup)
    (shared : ∀ config ∈ cluster, ∀ other ∈ cluster, other.groupId = config.groupId) :
    IsBroadcast cluster message ↔
      cluster.length ≤ 1 ∨ ∀ config ∈ cluster, config.nodeId ∉ message.targetNodeIds := by
  rw [isBroadcast_iff_alone]
  constructor
  · intro alone
    rw [or_iff_not_imp_right]
    intro targeted
    push Not at targeted
    obtain ⟨config, member, target⟩ := targeted
    have only : ∀ other ∈ cluster, other = config := fun other otherMember =>
      alone config member target other otherMember (shared config member other otherMember)
    rw [List.eq_replicate_of_mem only] at distinct
    rw [List.map_replicate, List.nodup_replicate] at distinct
    exact distinct
  · rintro (single | untargeted) config member target
    · intro other otherMember _
      obtain ⟨index, inside, rfl⟩ := List.getElem_of_mem member
      obtain ⟨otherIndex, otherInside, rfl⟩ := List.getElem_of_mem otherMember
      have same : otherIndex = index := by omega
      subst same
      rfl
    · exact absurd target (untargeted config member)

/-- An event that one node of such a cluster publishes for another may be missed. -/
theorem published_event_may_be_missed
    (unset : ∀ config ∈ cluster, config.HasDefaultGroup) {source target : CacheNodeConfig}
    (sourceMember : source ∈ cluster) (targetMember : target ∈ cluster)
    {getReplicaNodeIds : CacheKey → List String} {eventId : String} {now : Millis}
    {key : CacheKey} {op : ReplicationOp Value}
    (publishes : replicate source.nodeId getReplicaNodeIds eventId now key op = some message)
    (isTarget : target.nodeId ∈ message.targetNodeIds) : ¬IsBroadcast cluster message := by
  rw [isBroadcast_iff_alone]
  intro alone
  have same : source = target := by
    apply alone target targetMember isTarget source sourceMember
    rw [(unset source sourceMember).groupId_eq, (unset target targetMember).groupId_eq]
  simp only [replicate] at publishes
  split at publishes
  · cases publishes
  · cases publishes
    rw [List.mem_filter, same] at isTarget
    exact absurd rfl (of_decide_eq_true isTarget.2)

/-- The environment in which only `NODE_ID` is set. -/
def nodeEnvironment (nodeId : String) : Environment := fun key =>
  if key = "NODE_ID" then some nodeId else none

/-- What a node loads there. -/
def defaultConfig (nodeId : String) : CacheNodeConfig where
  nodeId := nodeId
  host := "0.0.0.0"
  port := .finite 4001
  weight := .finite 1
  maxMemoryBytes := .finite 134217728
  defaultTtlMs := none
  virtualNodeCount := .finite 128
  snapshot := ⟨.finite 60000, "/data/snapshots/" ++ nodeId, true⟩
  kafka := ⟨["localhost:9092"], "flowcache-" ++ nodeId, "flowcache-node-group"⟩
  workerPoolSize := .finite 4
  gatewayUrl := "http://gateway:4000"
  seedNodes := []
  staticNodes := [⟨"node-1", "cache-node-1", .finite 4001, .finite 1⟩,
    ⟨"node-2", "cache-node-2", .finite 4001, .finite 1⟩,
    ⟨"node-3", "cache-node-3", .finite 4001, .finite 1⟩]

/-- The three nodes of the default `STATIC_NODES`. -/
def defaultCluster : List CacheNodeConfig :=
  ["node-1", "node-2", "node-3"].map defaultConfig

theorem nodeEnvironment_value? {nodeId : String} (nonempty : nodeId ≠ "") (key : String) :
    (nodeEnvironment nodeId).value? key = if key = "NODE_ID" then some nodeId else none := by
  rw [Environment.value?, nodeEnvironment]
  split
  · simp [nonempty]
  · rfl

theorem parseStaticNodes_default :
    parseStaticNodes defaultStaticNodes = .ok (defaultConfig "node-1").staticNodes := by
  decide +kernel

/-- A node that is given an id and nothing else starts. -/
theorem loadCacheNodeConfig_nodeEnvironment {nodeId : String} (nonempty : nodeId ≠ "") :
    (nodeEnvironment nodeId).loadCacheNodeConfig = .ok (defaultConfig nodeId) := by
  simp only [Environment.loadCacheNodeConfig, Environment.readString, Environment.readNumber,
    Environment.readBoolean, Environment.readList, Environment.staticNodes,
    Environment.snapshotConfig, Environment.kafkaConfig, Environment.defaultTtlMs,
    nodeEnvironment_value? nonempty, String.reduceEq, if_true, if_false]
  have memory : (128 * 1024 * 1024 : Rat) = 134217728 := by norm_num
  simp only [bind, Except.bind, parseStaticNodes_default, memory]
  rfl

theorem defaultConfig_hasDefaultGroup {nodeId : String} (nonempty : nodeId ≠ "") :
    (defaultConfig nodeId).HasDefaultGroup :=
  ⟨nodeEnvironment nodeId, loadCacheNodeConfig_nodeEnvironment nonempty,
    nodeEnvironment_value? nonempty _⟩

theorem defaultCluster_hasDefaultGroup :
    ∀ config ∈ defaultCluster, config.HasDefaultGroup := by
  intro config member
  obtain ⟨nodeId, named, rfl⟩ := List.mem_map.mp member
  apply defaultConfig_hasDefaultGroup
  rintro rfl
  exact absurd named (by decide)

/-- An event of a cluster of nodes without `KAFKA_CONSUMER_GROUP` is sure to reach its
targets exactly when the cluster is a single node or has none of the targets. -/
theorem replication_is_broadcast_iff
    (distinct : (cluster.map CacheNodeConfig.nodeId).Nodup)
    (unset : ∀ config ∈ cluster, config.HasDefaultGroup) :
    IsBroadcast cluster message ↔
      cluster.length ≤ 1 ∨ ∀ config ∈ cluster, config.nodeId ∉ message.targetNodeIds := by
  apply isBroadcast_iff_of_shared_group distinct
  intro config member other otherMember
  rw [(unset config member).groupId_eq, (unset other otherMember).groupId_eq]

/-- The default cluster and one of its nodes alone, with an event for `node-2`. -/
theorem replication_is_broadcast_default :
    ¬IsBroadcast defaultCluster
        (⟨⟨"repl-1", "node-1", "user:1", .delete, 0⟩, ["node-2"]⟩ : EventMessage Nat) ∧
      IsBroadcast [defaultConfig "node-2"]
        (⟨⟨"repl-1", "node-1", "user:1", .delete, 0⟩, ["node-2"]⟩ : EventMessage Nat) := by
  constructor
  · rw [replication_is_broadcast_iff (by decide +kernel) defaultCluster_hasDefaultGroup]
    decide +kernel
  · rw [replication_is_broadcast_iff (by decide +kernel)]
    · decide +kernel
    · intro config member
      rw [List.mem_singleton.mp member]
      exact defaultConfig_hasDefaultGroup (by decide)

/-- Kafka hands an event for `node-2` to `node-1`, which is in the same group: the only
target misses it. -/
theorem default_group_drops_event :
    (defaultCluster.map CacheNodeConfig.nodeId).Nodup ∧
      (∀ config ∈ defaultCluster, config.HasDefaultGroup) ∧
      Delivers defaultCluster {defaultConfig "node-1"} ∧
      ¬ReachesTargets defaultCluster
        (⟨⟨"repl-1", "node-1", "user:1", .delete, 0⟩, ["node-2"]⟩ : EventMessage Nat)
        {defaultConfig "node-1"} := by
  refine ⟨by decide +kernel, defaultCluster_hasDefaultGroup, ?_, ?_⟩
  · intro config member
    refine ⟨defaultConfig "node-1", ⟨?_, rfl, ?_⟩, ?_⟩
    · exact List.mem_cons_self
    · rw [(defaultCluster_hasDefaultGroup config member).groupId_eq]
      rfl
    · rintro other ⟨-, received, -⟩
      exact received
  · intro reached
    have received := reached (defaultConfig "node-2") (by decide +kernel) (by decide +kernel)
    exact absurd (congrArg CacheNodeConfig.nodeId received) (by decide +kernel)

end FlowCache
