import FlowCache.Eviction.LFU
import FlowCache.Eviction.TinyLFU
import FlowCache.Eviction.WorkloadMonitor

/-!
# The adaptive eviction engine

`AdaptiveEvictionEngine` delegates to the active policy and counts the storage events
it is attached to.  `evaluate()` and `forceSwitch()` replace the active policy by a
fresh one that is seeded from the entries in storage.
-/

namespace FlowCache

variable {Value : Type}

/-- The policies `createEvictionPolicy` chooses from. -/
abbrev EvictionPolicy :=
  LruEvictionPolicy ⊕ LfuEvictionPolicy ⊕ TinyLfuEvictionPolicy

/-- `createEvictionPolicy(type)`. -/
def createEvictionPolicy : EvictionPolicyType → EvictionPolicy
  | .lru => .inl .create
  | .lfu => .inr (.inl .create)
  | .tinyLfu => .inr (.inr .default)

/-- `policy.type`. -/
def EvictionPolicy.type : EvictionPolicy → EvictionPolicyType
  | .inl _ => .lru
  | .inr (.inl _) => .lfu
  | .inr (.inr _) => .tinyLfu

/-- `policy.seed(entries)`. -/
def EvictionPolicy.seed (entries : List (CacheEntry Value)) :
    EvictionPolicy → EvictionPolicy
  | .inl policy => .inl (policy.seed entries)
  | .inr (.inl policy) => .inr (.inl (policy.seed entries))
  | .inr (.inr policy) => .inr (.inr (policy.seed entries))

/-- A seeded policy tracks every entry it was seeded with. -/
theorem EvictionPolicy.tracks_seed {policy : EvictionPolicy}
    {entries : List (CacheEntry Value)} {entry : CacheEntry Value}
    (member : entry ∈ entries) :
    TrackingHook.Tracks (EvictionPolicy.seed entries policy) entry.key := by
  match policy with
  | .inl policy => exact LruEvictionPolicy.tracks_seed member
  | .inr (.inl policy) => trivial
  | .inr (.inr policy) => exact LruEvictionPolicy.tracks_seed member

/-- `PolicySwitchEvent`. -/
structure PolicySwitchEvent where
  timestamp : Millis
  fromPolicy : EvictionPolicyType
  toPolicy : EvictionPolicyType
  reason : String
  signals : WorkloadSignals
  deriving DecidableEq, Repr

/-- `AdaptiveEvictionEngineOptions` without the evaluation timer. -/
structure AdaptiveEvictionEngineOptions where
  initialPolicy : EvictionPolicyType
  minSamplesBeforeSwitch : Nat
  cooldownMs : Millis
  maxHistoryLength : Nat
  deriving DecidableEq, Repr

/-- `DEFAULTS`. -/
def AdaptiveEvictionEngineOptions.default : AdaptiveEvictionEngineOptions where
  initialPolicy := .lru
  minSamplesBeforeSwitch := 200
  cooldownMs := 15000
  maxHistoryLength := 200

/-- `AdaptiveEvictionEngine`. -/
structure AdaptiveEvictionEngine where
  active : EvictionPolicy
  monitor : WorkloadMonitor
  options : AdaptiveEvictionEngineOptions
  lastSwitchAt : Millis
  switchHistory : List PolicySwitchEvent
  autoSwitchEnabled : Bool

namespace AdaptiveEvictionEngine

/-- `new AdaptiveEvictionEngine(options)`. -/
def create (options : AdaptiveEvictionEngineOptions) : AdaptiveEvictionEngine where
  active := createEvictionPolicy options.initialPolicy
  monitor := .create
  options := options
  lastSwitchAt := 0
  switchHistory := []
  autoSwitchEnabled := true

/-- `getCurrentPolicy()`. -/
def getCurrentPolicy (engine : AdaptiveEvictionEngine) : EvictionPolicyType :=
  EvictionPolicy.type engine.active

/-- `switchTo(policy, reason, signals)`. -/
def switchTo (engine : AdaptiveEvictionEngine) (now : Millis)
    (entries : List (CacheEntry Value)) (policy : EvictionPolicyType) (reason : String)
    (signals : WorkloadSignals) : AdaptiveEvictionEngine :=
  if policy = engine.getCurrentPolicy then
    engine
  else
    let event : PolicySwitchEvent :=
      { timestamp := now
        fromPolicy := engine.getCurrentPolicy
        toPolicy := policy
        reason := reason
        signals := signals }
    let history := engine.switchHistory ++ [event]
    { engine with
      active := EvictionPolicy.seed entries (createEvictionPolicy policy)
      lastSwitchAt := now
      switchHistory :=
        if history.length > engine.options.maxHistoryLength then history.drop 1
        else history }

/-- `getSignals()`. -/
def getSignals (engine : AdaptiveEvictionEngine) (memoryUsageRatio : Rat) :
    WorkloadSignals × AdaptiveEvictionEngine :=
  let computed := engine.monitor.computeSignals memoryUsageRatio
  (computed.1, { engine with monitor := computed.2 })

/-- `forceSwitch(policy, reason)`. -/
def forceSwitch (engine : AdaptiveEvictionEngine) (now : Millis)
    (memoryUsageRatio : Rat) (entries : List (CacheEntry Value))
    (policy : EvictionPolicyType) (reason : String) : AdaptiveEvictionEngine :=
  let computed := engine.getSignals memoryUsageRatio
  computed.2.switchTo now entries policy reason computed.1

/-- `evaluate()`. -/
def evaluate (engine : AdaptiveEvictionEngine) (now : Millis) (memoryUsageRatio : Rat)
    (entries : List (CacheEntry Value)) : AdaptiveEvictionEngine :=
  if engine.autoSwitchEnabled then
    let computed := engine.getSignals memoryUsageRatio
    let next := computed.2
    if computed.1.windowSampleCount < next.options.minSamplesBeforeSwitch then
      next
    else
      let decision := decidePolicy computed.1
      if decision.policy = next.getCurrentPolicy then
        next
      else if now - next.lastSwitchAt < next.options.cooldownMs then
        next
      else
        next.switchTo now entries decision.policy decision.reason computed.1
  else
    engine

/-- `pauseAutoSwitch()`. -/
def pauseAutoSwitch (engine : AdaptiveEvictionEngine) : AdaptiveEvictionEngine :=
  { engine with autoSwitchEnabled := false }

/-- `resumeAutoSwitch()`. -/
def resumeAutoSwitch (engine : AdaptiveEvictionEngine) : AdaptiveEvictionEngine :=
  { engine with autoSwitchEnabled := true }

instance : EvictionHook AdaptiveEvictionEngine where
  recordAccess engine key :=
    { engine with active := EvictionHook.recordAccess engine.active key }
  recordWrite engine key :=
    { engine with active := EvictionHook.recordWrite engine.active key }
  recordRemoval engine key :=
    { engine with active := EvictionHook.recordRemoval engine.active key }
  selectVictim engine candidateKeys :=
    EvictionHook.selectVictim engine.active candidateKeys
  onStorageEvent engine event key :=
    match event with
    | .hit => { engine with monitor := engine.monitor.recordHit key }
    | .miss => { engine with monitor := engine.monitor.recordMiss key }
    | .write => { engine with monitor := engine.monitor.recordWrite key }
    | .delete | .expire | .evict => engine

theorem onStorageEvent_active (engine : AdaptiveEvictionEngine)
    (event : StorageEngineEvent) (key : CacheKey) :
    (EvictionHook.onStorageEvent engine event key).active = engine.active := by
  cases event <;> rfl

instance : TrackingHook AdaptiveEvictionEngine where
  Tracks engine key := TrackingHook.Tracks engine.active key
  mem_of_selectVictim engine := TrackingHook.mem_of_selectVictim engine.active
  selectVictim_isSome engine := TrackingHook.selectVictim_isSome engine.active
  tracks_recordWrite engine := TrackingHook.tracks_recordWrite engine.active
  recordWrite_keeps engine := TrackingHook.recordWrite_keeps engine.active
  recordAccess_keeps engine := TrackingHook.recordAccess_keeps engine.active
  recordRemoval_keeps engine := TrackingHook.recordRemoval_keeps engine.active
  onStorageEvent_keeps := by
    intro engine event key query tracked
    rw [onStorageEvent_active]
    exact tracked

/-- A switch keeps track of the keys that the new policy is seeded with. -/
theorem tracks_switchTo {engine : AdaptiveEvictionEngine} {now : Millis}
    {entries : List (CacheEntry Value)} {policy : EvictionPolicyType} {reason : String}
    {signals : WorkloadSignals} {entry : CacheEntry Value}
    (tracked : TrackingHook.Tracks engine entry.key) (member : entry ∈ entries) :
    TrackingHook.Tracks (engine.switchTo now entries policy reason signals)
      entry.key := by
  unfold switchTo
  split
  · exact tracked
  · exact EvictionPolicy.tracks_seed member

theorem tracks_forceSwitch {engine : AdaptiveEvictionEngine} {now : Millis}
    {memoryUsageRatio : Rat} {entries : List (CacheEntry Value)}
    {policy : EvictionPolicyType} {reason : String} {entry : CacheEntry Value}
    (tracked : TrackingHook.Tracks engine entry.key) (member : entry ∈ entries) :
    TrackingHook.Tracks
      (engine.forceSwitch now memoryUsageRatio entries policy reason) entry.key :=
  tracks_switchTo tracked member

theorem tracks_evaluate {engine : AdaptiveEvictionEngine} {now : Millis}
    {memoryUsageRatio : Rat} {entries : List (CacheEntry Value)}
    {entry : CacheEntry Value} (tracked : TrackingHook.Tracks engine entry.key)
    (member : entry ∈ entries) :
    TrackingHook.Tracks (engine.evaluate now memoryUsageRatio entries) entry.key := by
  unfold evaluate
  split
  · dsimp only
    split
    · exact tracked
    · split
      · exact tracked
      · split
        · exact tracked
        · exact tracks_switchTo tracked member
  · exact tracked

end AdaptiveEvictionEngine

end FlowCache
