import FlowCache.Shared.Numbers

/-!
# Configuration

`config.ts` of `packages/shared`: the readers of environment variables, the parser of
`STATIC_NODES` and the configuration of a cache node.
-/

namespace FlowCache

/-! ## Environment variables -/

/-- The non-blank items of a comma-separated list, trimmed. -/
def listItems (text : String) : List String :=
  ((text.toList.splitOn ',').map jsTrim).filterMap fun item =>
    if item = [] then none else some (String.ofList item)

/-- `process.env`. -/
abbrev Environment := String → Option String

/-- A `ConfigurationError`. -/
structure ConfigurationError where
  message : String
  deriving DecidableEq, Repr

namespace Environment

/-- The value of a variable, unless it is not set or empty. -/
def value? (environment : Environment) (key : String) : Option String :=
  (environment key).filter (· ≠ "")

/-- `readString(key, fallback)`. -/
def readString (environment : Environment) (key : String) (fallback : Option String) :
    Except ConfigurationError String :=
  match environment.value? key, fallback with
  | some value, _ => .ok value
  | none, some fallback => .ok fallback
  | none, none => .error ⟨"Missing required environment variable: " ++ key⟩

/-- `readNumber(key, fallback)`. -/
def readNumber (environment : Environment) (key : String) (fallback : Option JsNumber) :
    Except ConfigurationError JsNumber :=
  match environment.value? key, fallback with
  | some value, _ =>
      if jsNumber value = .nan then
        .error ⟨"Environment variable " ++ key ++ " must be numeric, got \"" ++ value ++ "\""⟩
      else
        .ok (jsNumber value)
  | none, some fallback => .ok fallback
  | none, none => .error ⟨"Missing required environment variable: " ++ key⟩

/-- `readBoolean(key, fallback)`. -/
def readBoolean (environment : Environment) (key : String) (fallback : Bool) : Bool :=
  match environment.value? key with
  | some value => value.toLower = "true" || value = "1"
  | none => fallback

/-- `readList(key, fallback)`. -/
def readList (environment : Environment) (key : String) (fallback : List String) :
    List String :=
  match environment.value? key with
  | some value => listItems value
  | none => fallback

end Environment

/-! ## Static nodes -/

/-- `StaticNodeEntry`. -/
structure StaticNodeEntry where
  nodeId : String
  host : String
  port : JsNumber
  weight : JsNumber
  deriving DecidableEq, Repr

/-- `DEFAULT_STATIC_NODES`. -/
def defaultStaticNodes : String :=
  "node-1:cache-node-1:4001:1,node-2:cache-node-2:4001:1,node-3:cache-node-3:4001:1"

/-- One item of `STATIC_NODES`; the parts after the fourth are ignored. -/
def parseStaticNode (entry : String) : Except ConfigurationError StaticNodeEntry :=
  let parts := (entry.toList.splitOn ':').map String.ofList
  let nodeId := (parts[0]?).getD ""
  let host := (parts[1]?).getD ""
  let portStr := (parts[2]?).getD ""
  let weightStr := (parts[3]?).getD ""
  if nodeId = "" ∨ host = "" ∨ portStr = "" then
    .error ⟨"Malformed STATIC_NODES entry: \"" ++ entry ++ "\""⟩
  else
    .ok
      { nodeId := nodeId
        host := host
        port := jsNumber portStr
        weight := if weightStr = "" then .finite 1 else jsNumber weightStr }

/-- `parseStaticNodes(raw)`. -/
def parseStaticNodes (raw : String) : Except ConfigurationError (List StaticNodeEntry) :=
  (listItems raw).mapM parseStaticNode

/-! ## Services -/

/-- The part of a node's configuration that its snapshots use. -/
structure NodeSnapshotConfig where
  intervalMs : JsNumber
  directory : String
  compress : Bool
  deriving DecidableEq, Repr

/-- The part of a node's configuration that its `KafkaEventBus` uses. -/
structure KafkaConfig where
  brokers : List String
  clientId : String
  consumerGroup : String
  deriving DecidableEq, Repr

/-- `CacheNodeConfig`; `workerPoolSize` is `workerPool.size`. -/
structure CacheNodeConfig where
  nodeId : String
  host : String
  port : JsNumber
  weight : JsNumber
  maxMemoryBytes : JsNumber
  defaultTtlMs : Option JsNumber
  virtualNodeCount : JsNumber
  snapshot : NodeSnapshotConfig
  kafka : KafkaConfig
  workerPoolSize : JsNumber
  gatewayUrl : String
  seedNodes : List String
  staticNodes : List StaticNodeEntry
  deriving DecidableEq, Repr

namespace Environment

/-- `parseStaticNodes(readString('STATIC_NODES', DEFAULT_STATIC_NODES))`. -/
def staticNodes (environment : Environment) :
    Except ConfigurationError (List StaticNodeEntry) := do
  parseStaticNodes (← environment.readString "STATIC_NODES" (some defaultStaticNodes))

/-- The `snapshot` field of a node's configuration. -/
def snapshotConfig (environment : Environment) (nodeId : String) :
    Except ConfigurationError NodeSnapshotConfig := do
  let intervalMs ← environment.readNumber "SNAPSHOT_INTERVAL_MS" (some (.finite 60000))
  let directory ← environment.readString "SNAPSHOT_DIR" (some ("/data/snapshots/" ++ nodeId))
  return ⟨intervalMs, directory, environment.readBoolean "SNAPSHOT_COMPRESS" true⟩

/-- The `kafka` field of a node's configuration. -/
def kafkaConfig (environment : Environment) (nodeId : String) :
    Except ConfigurationError KafkaConfig := do
  let clientId ← environment.readString "KAFKA_CLIENT_ID" (some ("flowcache-" ++ nodeId))
  let consumerGroup ←
    environment.readString "KAFKA_CONSUMER_GROUP" (some "flowcache-node-group")
  return ⟨environment.readList "KAFKA_BROKERS" ["localhost:9092"], clientId, consumerGroup⟩

/-- `process.env.DEFAULT_TTL_MS ? readNumber('DEFAULT_TTL_MS') : null`. -/
def defaultTtlMs (environment : Environment) :
    Except ConfigurationError (Option JsNumber) :=
  match environment.value? "DEFAULT_TTL_MS" with
  | some _ => some <$> environment.readNumber "DEFAULT_TTL_MS" none
  | none => .ok none

/-- `loadCacheNodeConfig()`. -/
def loadCacheNodeConfig (environment : Environment) :
    Except ConfigurationError CacheNodeConfig := do
  let nodeId ← environment.readString "NODE_ID" none
  let host ← environment.readString "HOST" (some "0.0.0.0")
  let port ← environment.readNumber "PORT" (some (.finite 4001))
  let weight ← environment.readNumber "NODE_WEIGHT" (some (.finite 1))
  let maxMemoryBytes ←
    environment.readNumber "MAX_MEMORY_BYTES" (some (.finite (128 * 1024 * 1024)))
  let defaultTtlMs ← environment.defaultTtlMs
  let virtualNodeCount ← environment.readNumber "VIRTUAL_NODE_COUNT" (some (.finite 128))
  let snapshot ← environment.snapshotConfig nodeId
  let kafka ← environment.kafkaConfig nodeId
  let workerPoolSize ← environment.readNumber "WORKER_POOL_SIZE" (some (.finite 4))
  let gatewayUrl ← environment.readString "GATEWAY_URL" (some "http://gateway:4000")
  let staticNodes ← environment.staticNodes
  return {
    nodeId := nodeId
    host := host
    port := port
    weight := weight
    maxMemoryBytes := maxMemoryBytes
    defaultTtlMs := defaultTtlMs
    virtualNodeCount := virtualNodeCount
    snapshot := snapshot
    kafka := kafka
    workerPoolSize := workerPoolSize
    gatewayUrl := gatewayUrl
    seedNodes := environment.readList "SEED_NODES" []
    staticNodes := staticNodes }

/-! ## What a loaded configuration has -/

theorem bind_eq_ok {Value Result : Type} {first : Except ConfigurationError Value}
    {next : Value → Except ConfigurationError Result} {result : Result}
    (loaded : first >>= next = .ok result) :
    ∃ value, first = .ok value ∧ next value = .ok result := by
  cases first with
  | error error => cases loaded
  | ok value => exact ⟨value, rfl, loaded⟩

variable {environment : Environment}

theorem readString_ok {key value : String} {fallback : Option String}
    (read : environment.readString key fallback = .ok value) :
    environment.value? key = some value ∨
      environment.value? key = none ∧ fallback = some value := by
  unfold readString at read
  split at read
  · next found =>
      cases read
      exact .inl found
  · next found =>
      cases read
      exact .inr ⟨found, rfl⟩
  · cases read

/-- A node's configuration has its id from `NODE_ID` and its consumer group from
`KAFKA_CONSUMER_GROUP`; the default of the group does not mention the node. -/
theorem loadCacheNodeConfig_ok {config : CacheNodeConfig}
    (loaded : environment.loadCacheNodeConfig = .ok config) :
    environment.value? "NODE_ID" = some config.nodeId ∧
      config.kafka.consumerGroup =
        (environment.value? "KAFKA_CONSUMER_GROUP").getD "flowcache-node-group" := by
  obtain ⟨nodeId, readId, loaded⟩ := bind_eq_ok loaded
  obtain ⟨host, -, loaded⟩ := bind_eq_ok loaded
  obtain ⟨port, -, loaded⟩ := bind_eq_ok loaded
  obtain ⟨weight, -, loaded⟩ := bind_eq_ok loaded
  obtain ⟨maxMemoryBytes, -, loaded⟩ := bind_eq_ok loaded
  obtain ⟨defaultTtlMs, -, loaded⟩ := bind_eq_ok loaded
  obtain ⟨virtualNodeCount, -, loaded⟩ := bind_eq_ok loaded
  obtain ⟨snapshot, -, loaded⟩ := bind_eq_ok loaded
  obtain ⟨kafka, readKafka, loaded⟩ := bind_eq_ok loaded
  obtain ⟨workerPoolSize, -, loaded⟩ := bind_eq_ok loaded
  obtain ⟨gatewayUrl, -, loaded⟩ := bind_eq_ok loaded
  obtain ⟨staticNodes, -, loaded⟩ := bind_eq_ok loaded
  cases loaded
  obtain ⟨clientId, -, readKafka⟩ := bind_eq_ok readKafka
  obtain ⟨consumerGroup, readGroup, readKafka⟩ := bind_eq_ok readKafka
  cases readKafka
  constructor
  · rcases readString_ok readId with found | ⟨-, impossible⟩
    · exact found
    · cases impossible
  · rcases readString_ok readGroup with found | ⟨absent, fallback⟩
    · rw [found]
      rfl
    · cases fallback
      rw [absent]
      rfl

end Environment

end FlowCache
