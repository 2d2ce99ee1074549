import Mathlib.Data.List.Chain
import FlowCache.Eviction.AdaptiveEvictionEngine
import FlowCache.Library.Transition

/-!
# When the policy changes

The engine is driven by the storage engine, by its evaluation timer, by the operators
who force, pause and resume switching, and by the dashboard that polls its signals.
Beside the engine a run keeps what an observer of it counts: the operations so far,
when the policy last changed, and whether switching is paused.
-/

namespace FlowCache

open Transition

variable {Value : Type}

/-- What the engine is called with; `advance` lets time pass. -/
inductive EvictionAction (Value : Type) where
  | advance (elapsed : Nat)
  | storageEvent (event : StorageEngineEvent) (key : CacheKey)
  | recordAccess (key : CacheKey)
  | recordWrite (key : CacheKey)
  | recordRemoval (key : CacheKey)
  | evaluate (memoryUsageRatio : Rat) (entries : List (CacheEntry Value))
  | forceSwitch (memoryUsageRatio : Rat) (entries : List (CacheEntry Value))
      (policy : EvictionPolicyType) (reason : String)
  | pauseAutoSwitch
  | resumeAutoSwitch
  | getSignals (memoryUsageRatio : Rat)

/-- The events the monitor counts as an operation. -/
def StorageEngineEvent.isOperation : StorageEngineEvent → Bool
  | .hit | .miss | .write => true
  | .delete | .expire | .evict => false

/-- The operations an action adds. -/
def EvictionAction.operations : EvictionAction Value → Nat
  | .storageEvent event _ => if event.isOperation then 1 else 0
  | _ => 0

namespace AdaptiveEvictionEngine

/-- One call of the engine. -/
def handle (engine : AdaptiveEvictionEngine) (now : Millis) :
    EvictionAction Value → AdaptiveEvictionEngine
  | .advance _ => engine
  | .storageEvent event key => EvictionHook.onStorageEvent engine event key
  | .recordAccess key => EvictionHook.recordAccess engine key
  | .recordWrite key => EvictionHook.recordWrite engine key
  | .recordRemoval key => EvictionHook.recordRemoval engine key
  | .evaluate memoryUsageRatio entries => engine.evaluate now memoryUsageRatio entries
  | .forceSwitch memoryUsageRatio entries policy reason =>
      engine.forceSwitch now memoryUsageRatio entries policy reason
  | .pauseAutoSwitch => engine.pauseAutoSwitch
  | .resumeAutoSwitch => engine.resumeAutoSwitch
  | .getSignals memoryUsageRatio => (engine.getSignals memoryUsageRatio).2

end AdaptiveEvictionEngine

/-- The engine, the clock, and what an observer has counted. -/
structure WatchedEviction where
  engine : AdaptiveEvictionEngine
  now : Millis
  operations : Nat
  switchedAt : Option Millis
  paused : Bool

namespace WatchedEviction

/-- A new engine. -/
def start (options : AdaptiveEvictionEngineOptions) (now : Millis) : WatchedEviction where
  engine := .create options
  now := now
  operations := 0
  switchedAt := none
  paused := false

/-- One call, after which the observer compares the policies. -/
def step (watched : WatchedEviction) (action : EvictionAction Value) : WatchedEviction :=
  let engine := watched.engine.handle watched.now action
  { engine := engine
    now :=
      match action with
      | .advance elapsed => watched.now + elapsed
      | _ => watched.now
    operations := watched.operations + action.operations
    switchedAt :=
      if engine.getCurrentPolicy = watched.engine.getCurrentPolicy then
        watched.switchedAt
      else
        some watched.now
    paused :=
      match action with
      | .pauseAutoSwitch => true
      | .resumeAutoSwitch => false
      | _ => watched.paused }

/-- The call changes the policy or the switch history. -/
def Switches (watched : WatchedEviction) (action : EvictionAction Value) : Prop :=
  (watched.step action).engine.getCurrentPolicy ≠ watched.engine.getCurrentPolicy ∨
    (watched.step action).engine.switchHistory ≠ watched.engine.switchHistory

/-- The calls that may switch: `forceSwitch` at any time, `evaluate` only if switching is
not paused, enough operations were observed and the last switch is long enough ago. -/
def MaySwitch (options : AdaptiveEvictionEngineOptions) (watched : WatchedEviction) :
    EvictionAction Value → Prop
  | .forceSwitch _ _ _ _ => True
  | .evaluate _ _ =>
      watched.paused = false ∧ options.minSamplesBeforeSwitch ≤ watched.operations ∧
        ∀ previous ∈ watched.switchedAt, options.cooldownMs ≤ watched.now - previous
  | _ => False

end WatchedEviction

namespace AdaptiveEvictionEngine

/-- The switch history is a chain of real switches that leads to the current policy. -/
structure SwitchChain (engine : AdaptiveEvictionEngine) (maxHistoryLength : Nat) :
    Prop where
  changes : ∀ event ∈ engine.switchHistory, event.fromPolicy ≠ event.toPolicy
  linked : engine.switchHistory.IsChain
    (fun event next => event.toPolicy = next.fromPolicy)
  current : ∀ last ∈ engine.switchHistory.getLast?, last.toPolicy = engine.getCurrentPolicy
  bounded : engine.switchHistory.length ≤ maxHistoryLength

/-! ## One call -/

/-- The call leaves the policy and the record of switches alone. -/
structure Unswitched (engine next : AdaptiveEvictionEngine) : Prop where
  policy : next.getCurrentPolicy = engine.getCurrentPolicy
  lastSwitchAt : next.lastSwitchAt = engine.lastSwitchAt
  switchHistory : next.switchHistory = engine.switchHistory

/-- The call switches from the current policy to another one. -/
structure Switched (engine next : AdaptiveEvictionEngine) (now : Millis) : Prop where
  policy : next.getCurrentPolicy ≠ engine.getCurrentPolicy
  lastSwitchAt : next.lastSwitchAt = now
  switchHistory : ∃ event : PolicySwitchEvent,
    event.fromPolicy = engine.getCurrentPolicy ∧ event.toPolicy = next.getCurrentPolicy ∧
      next.switchHistory =
        let history := engine.switchHistory ++ [event]
        if history.length > engine.options.maxHistoryLength then history.drop 1
        else history

theorem Unswitched.refl (engine : AdaptiveEvictionEngine) : engine.Unswitched engine :=
  ⟨rfl, rfl, rfl⟩

/-- Seeding fills a policy of the same type. -/
theorem type_seed_createEvictionPolicy (entries : List (CacheEntry Value))
    (policy : EvictionPolicyType) :
    EvictionPolicy.type (EvictionPolicy.seed entries (createEvictionPolicy policy)) =
      policy := by
  cases policy <;> rfl

/-- What a policy records does not change its type. -/
theorem type_recorded (policy : EvictionPolicy) (key : CacheKey) :
    EvictionPolicy.type (EvictionHook.recordAccess policy key) =
        EvictionPolicy.type policy ∧
      EvictionPolicy.type (EvictionHook.recordWrite policy key) =
        EvictionPolicy.type policy ∧
      EvictionPolicy.type (EvictionHook.recordRemoval policy key) =
        EvictionPolicy.type policy := by
  match policy with
  | .inl _ => exact ⟨rfl, rfl, rfl⟩
  | .inr (.inl _) => exact ⟨rfl, rfl, rfl⟩
  | .inr (.inr _) => exact ⟨rfl, rfl, rfl⟩

/-- `switchTo` does nothing if the policy is active already. -/
theorem switchTo_cases (engine : AdaptiveEvictionEngine) (now : Millis)
    (entries : List (CacheEntry Value)) (policy : EvictionPolicyType) (reason : String)
    (signals : WorkloadSignals) :
    engine.switchTo now entries policy reason signals = engine ∨
      engine.Switched (engine.switchTo now entries policy reason signals) now := by
  by_cases same : policy = engine.getCurrentPolicy
  · left
    rw [switchTo, if_pos same]
  · right
    rw [switchTo, if_neg same]
    have type := type_seed_createEvictionPolicy entries policy
    constructor
    case policy =>
      change EvictionPolicy.type _ ≠ _
      rwa [type]
    case lastSwitchAt => rfl
    case switchHistory => exact ⟨_, rfl, type.symm, rfl⟩

/-- The conditions `evaluate` checks before it switches. -/
theorem evaluate_cases (engine : AdaptiveEvictionEngine) (now : Millis)
    (memoryUsageRatio : Rat) (entries : List (CacheEntry Value)) :
    engine.Unswitched (engine.evaluate now memoryUsageRatio entries) ∨
      engine.Switched (engine.evaluate now memoryUsageRatio entries) now ∧
        engine.autoSwitchEnabled = true ∧
        engine.options.minSamplesBeforeSwitch ≤ engine.monitor.totalSamples ∧
        engine.options.cooldownMs ≤ now - engine.lastSwitchAt := by
  have polled : engine.Unswitched (engine.getSignals memoryUsageRatio).2 :=
    ⟨rfl, rfl, rfl⟩
  rw [evaluate]
  by_cases enabled : engine.autoSwitchEnabled
  · rw [if_pos enabled]
    simp only
    split
    · exact .inl polled
    · rename_i enough
      split
      · exact .inl polled
      · split
        · exact .inl polled
        · rename_i cooled
          rcases switchTo_cases (engine.getSignals memoryUsageRatio).2 now entries
            (decidePolicy (engine.getSignals memoryUsageRatio).1).policy
            (decidePolicy (engine.getSignals memoryUsageRatio).1).reason
            (engine.getSignals memoryUsageRatio).1 with same | switched
          · rw [same]
            exact .inl polled
          · right
            refine ⟨?_, enabled, Nat.le_of_not_lt enough, Int.not_lt.mp cooled⟩
            exact ⟨switched.policy, switched.lastSwitchAt, switched.switchHistory⟩
  · rw [if_neg enabled]
    exact .inl (.refl engine)

theorem forceSwitch_cases (engine : AdaptiveEvictionEngine) (now : Millis)
    (memoryUsageRatio : Rat) (entries : List (CacheEntry Value))
    (policy : EvictionPolicyType) (reason : String) :
    engine.Unswitched (engine.forceSwitch now memoryUsageRatio entries policy reason) ∨
      engine.Switched (engine.forceSwitch now memoryUsageRatio entries policy reason)
        now := by
  rcases switchTo_cases (engine.getSignals memoryUsageRatio).2 now entries policy reason
    (engine.getSignals memoryUsageRatio).1 with same | switched
  · left
    rw [forceSwitch, same]
    exact ⟨rfl, rfl, rfl⟩
  · right
    exact ⟨switched.policy, switched.lastSwitchAt, switched.switchHistory⟩

/-- What a call needs to switch, in the engine's own terms. -/
def Permits (engine : AdaptiveEvictionEngine) (now : Millis) :
    EvictionAction Value → Prop
  | .forceSwitch _ _ _ _ => True
  | .evaluate _ _ =>
      engine.autoSwitchEnabled = true ∧
        engine.options.minSamplesBeforeSwitch ≤ engine.monitor.totalSamples ∧
        engine.options.cooldownMs ≤ now - engine.lastSwitchAt
  | _ => False

/-- A call leaves the policy alone, or is permitted to switch and does. -/
theorem handle_cases (engine : AdaptiveEvictionEngine) (now : Millis)
    (action : EvictionAction Value) :
    engine.Unswitched (engine.handle now action) ∨
      engine.Switched (engine.handle now action) now ∧ engine.Permits now action := by
  cases action with
  | advance elapsed => exact .inl (.refl engine)
  | storageEvent event key =>
      left
      cases event <;> exact ⟨rfl, rfl, rfl⟩
  | recordAccess key => exact .inl ⟨(type_recorded engine.active key).1, rfl, rfl⟩
  | recordWrite key => exact .inl ⟨(type_recorded engine.active key).2.1, rfl, rfl⟩
  | recordRemoval key => exact .inl ⟨(type_recorded engine.active key).2.2, rfl, rfl⟩
  | evaluate memoryUsageRatio entries =>
      exact engine.evaluate_cases now memoryUsageRatio entries
  | forceSwitch memoryUsageRatio entries policy reason =>
      rcases engine.forceSwitch_cases now memoryUsageRatio entries policy reason with
        unswitched | switched
      · exact .inl unswitched
      · exact .inr ⟨switched, trivial⟩
  | pauseAutoSwitch => exact .inl ⟨rfl, rfl, rfl⟩
  | resumeAutoSwitch => exact .inl ⟨rfl, rfl, rfl⟩
  | getSignals memoryUsageRatio => exact .inl ⟨rfl, rfl, rfl⟩

/-- What switching leaves alone. -/
theorem switchTo_frame (engine : AdaptiveEvictionEngine) (now : Millis)
    (entries : List (CacheEntry Value)) (policy : EvictionPolicyType) (reason : String)
    (signals : WorkloadSignals) :
    let next := engine.switchTo now entries policy reason signals
    next.options = engine.options ∧ next.monitor = engine.monitor ∧
      next.autoSwitchEnabled = engine.autoSwitchEnabled := by
  simp only [switchTo]
  split <;> exact ⟨rfl, rfl, rfl⟩

/-- `evaluate` computes the signals at most once and may then switch. -/
theorem evaluate_frame (engine : AdaptiveEvictionEngine) (now : Millis)
    (memoryUsageRatio : Rat) (entries : List (CacheEntry Value)) :
    let next := engine.evaluate now memoryUsageRatio entries
    next.options = engine.options ∧
      next.monitor.totalSamples = engine.monitor.totalSamples ∧
      next.autoSwitchEnabled = engine.autoSwitchEnabled := by
  simp only [evaluate]
  split
  · split
    · exact ⟨rfl, rfl, rfl⟩
    · split
      · exact ⟨rfl, rfl, rfl⟩
      · split
        · exact ⟨rfl, rfl, rfl⟩
        · obtain ⟨options, monitor, enabled⟩ :=
            switchTo_frame (engine.getSignals memoryUsageRatio).2 now entries
              (decidePolicy (engine.getSignals memoryUsageRatio).1).policy
              (decidePolicy (engine.getSignals memoryUsageRatio).1).reason
              (engine.getSignals memoryUsageRatio).1
          rw [options, monitor, enabled]
          exact ⟨rfl, rfl, rfl⟩
  · exact ⟨rfl, rfl, rfl⟩

theorem observeKey_totalSamples (monitor : WorkloadMonitor) (key : CacheKey) :
    (monitor.observeKey key).totalSamples = monitor.totalSamples := by
  simp only [WorkloadMonitor.observeKey, WorkloadMonitor.updateSequentialDetection]
  split <;> rfl

/-- A call keeps the options and counts the operations. -/
theorem handle_frame (engine : AdaptiveEvictionEngine) (now : Millis)
    (action : EvictionAction Value) :
    (engine.handle now action).options = engine.options ∧
      (engine.handle now action).monitor.totalSamples =
        engine.monitor.totalSamples + action.operations := by
  cases action with
  | storageEvent event key =>
      refine ⟨by cases event <;> rfl, ?_⟩
      cases event with
      | hit => exact observeKey_totalSamples _ key
      | miss => exact observeKey_totalSamples _ key
      | write => exact observeKey_totalSamples _ key
      | delete => rfl
      | expire => rfl
      | evict => rfl
  | evaluate memoryUsageRatio entries =>
      obtain ⟨options, samples, -⟩ := engine.evaluate_frame now memoryUsageRatio entries
      exact ⟨options, samples⟩
  | forceSwitch memoryUsageRatio entries policy reason =>
      obtain ⟨options, monitor, -⟩ :=
        switchTo_frame (engine.getSignals memoryUsageRatio).2 now entries policy reason
          (engine.getSignals memoryUsageRatio).1
      refine ⟨options, ?_⟩
      rw [handle, forceSwitch, monitor]
      rfl
  | _ => exact ⟨rfl, rfl⟩

/-- Only `pauseAutoSwitch` and `resumeAutoSwitch` change whether switching is enabled. -/
theorem handle_autoSwitchEnabled (engine : AdaptiveEvictionEngine) (now : Millis)
    (action : EvictionAction Value) :
    (engine.handle now action).autoSwitchEnabled =
      match action with
      | .pauseAutoSwitch => false
      | .resumeAutoSwitch => true
      | _ => engine.autoSwitchEnabled := by
  cases action with
  | storageEvent event key => cases event <;> rfl
  | evaluate memoryUsageRatio entries =>
      exact (engine.evaluate_frame now memoryUsageRatio entries).2.2
  | forceSwitch memoryUsageRatio entries policy reason =>
      exact (switchTo_frame (engine.getSignals memoryUsageRatio).2 now entries policy
        reason (engine.getSignals memoryUsageRatio).1).2.2
  | _ => rfl

/-! ## The chain of switches -/

theorem SwitchChain.unswitched {engine next : AdaptiveEvictionEngine} {bound : Nat}
    (chain : engine.SwitchChain bound) (unswitched : engine.Unswitched next) :
    next.SwitchChain bound := by
  constructor
  case changes =>
    rw [unswitched.switchHistory]
    exact chain.changes
  case linked =>
    rw [unswitched.switchHistory]
    exact chain.linked
  case current =>
    rw [unswitched.switchHistory, unswitched.policy]
    exact chain.current
  case bounded =>
    rw [unswitched.switchHistory]
    exact chain.bounded

/-- The new switch is linked to the last one, and cutting the oldest one off a chain
leaves a chain. -/
theorem SwitchChain.switched {engine next : AdaptiveEvictionEngine} {now : Millis}
    (chain : engine.SwitchChain engine.options.maxHistoryLength)
    (switched : engine.Switched next now) :
    next.SwitchChain engine.options.maxHistoryLength := by
  obtain ⟨event, fromPolicy, toPolicy, history⟩ := switched.switchHistory
  simp only at history
  have suffix : next.switchHistory <:+ engine.switchHistory ++ [event] := by
    rw [history]
    split
    · exact List.drop_suffix 1 _
    · exact List.suffix_refl _
  have linked : (engine.switchHistory ++ [event]).IsChain
      (fun event next => event.toPolicy = next.fromPolicy) := by
    rw [List.isChain_append]
    refine ⟨chain.linked, List.isChain_singleton event, ?_⟩
    intro last isLast first isFirst
    cases isFirst
    rw [chain.current last isLast, fromPolicy]
  constructor
  case changes =>
    intro other member
    rcases List.mem_append.mp (suffix.subset member) with old | new
    · exact chain.changes other old
    · rw [List.mem_singleton] at new
      rw [new, fromPolicy, toPolicy]
      exact switched.policy.symm
  case linked => exact linked.suffix suffix
  case current =>
    intro last isLast
    have lastOfAll := (List.singleton_suffix_iff_getLast?_eq_some.mpr isLast).trans suffix
    rw [List.singleton_suffix_iff_getLast?_eq_some, List.getLast?_concat] at lastOfAll
    cases lastOfAll
    exact toPolicy
  case bounded =>
    have bounded := chain.bounded
    rw [history]
    split
    · simp
      omega
    · omega

end AdaptiveEvictionEngine

/-! ## Runs -/

namespace WatchedEviction

open AdaptiveEvictionEngine

variable {options : AdaptiveEvictionEngineOptions} {watched : WatchedEviction}

/-- The observer's counts are those of the engine. -/
structure Consistent (options : AdaptiveEvictionEngineOptions)
    (watched : WatchedEviction) : Prop where
  configured : watched.engine.options = options
  operations : watched.engine.monitor.totalSamples = watched.operations
  switchedAt : ∀ previous ∈ watched.switchedAt, watched.engine.lastSwitchAt = previous
  paused : watched.engine.autoSwitchEnabled = !watched.paused
  chain : watched.engine.SwitchChain options.maxHistoryLength

theorem Consistent.start (options : AdaptiveEvictionEngineOptions) (now : Millis) :
    Consistent options (start options now) where
  configured := rfl
  operations := rfl
  switchedAt previous member := absurd member (Option.not_mem_none previous)
  paused := rfl
  chain :=
    { changes := fun _ member => absurd member List.not_mem_nil
      linked := .nil
      current := fun last isLast => absurd isLast (Option.not_mem_none last)
      bounded := Nat.zero_le _ }

theorem Consistent.step (consistent : Consistent options watched)
    (action : EvictionAction Value) : Consistent options (watched.step action) := by
  obtain ⟨sameOptions, samples⟩ := watched.engine.handle_frame watched.now action
  constructor
  case configured => exact sameOptions.trans consistent.configured
  case operations =>
    change _ = watched.operations + action.operations
    rw [← consistent.operations]
    exact samples
  case switchedAt =>
    intro previous member
    simp only [WatchedEviction.step] at member ⊢
    rcases watched.engine.handle_cases watched.now action with unswitched | ⟨switched, -⟩
    · rw [if_pos unswitched.policy] at member
      rw [unswitched.lastSwitchAt]
      exact consistent.switchedAt previous member
    · rw [if_neg switched.policy] at member
      cases member
      exact switched.lastSwitchAt
  case paused =>
    have enabled := watched.engine.handle_autoSwitchEnabled watched.now action
    have paused := consistent.paused
    cases action <;> first | exact enabled | exact enabled.trans paused
  case chain =>
    have chain := consistent.chain
    rw [← consistent.configured] at chain ⊢
    rcases watched.engine.handle_cases watched.now action with unswitched | ⟨switched, -⟩
    · exact chain.unswitched unswitched
    · exact chain.switched switched

/-- A consistent observer finds the conditions met that the engine has checked. -/
theorem Consistent.maySwitch (consistent : Consistent options watched)
    {action : EvictionAction Value} (switches : watched.Switches action) :
    watched.MaySwitch options action := by
  rcases watched.engine.handle_cases watched.now action with
    unswitched | ⟨-, permitted⟩
  · rcases switches with policy | history
    · exact absurd unswitched.policy policy
    · exact absurd unswitched.switchHistory history
  · cases action with
    | forceSwitch memoryUsageRatio entries policy reason => trivial
    | evaluate memoryUsageRatio entries =>
        obtain ⟨enabled, enough, cooled⟩ := permitted
        rw [consistent.configured, consistent.operations] at enough
        rw [consistent.configured] at cooled
        refine ⟨?_, enough, ?_⟩
        · rw [consistent.paused] at enabled
          simpa using enabled
        · intro previous member
          rw [consistent.switchedAt previous member] at cooled
          exact cooled
    | _ => exact permitted

/-- In every run the switch history is a bounded chain to the current policy, and each
switch is forced or one that `evaluate` may make. -/
theorem policy_switch_discipline (options : AdaptiveEvictionEngineOptions) (now : Millis)
    (actions : List (EvictionAction Value)) :
    (run step (start options now) actions).engine.SwitchChain options.maxHistoryLength ∧
      EveryStep step
        (fun watched action => watched.Switches action → watched.MaySwitch options action)
        (start options now) actions := by
  constructor
  · have consistent : Consistent options (run step (start options now) actions) :=
      run_invariant (fun _ action consistent => consistent.step action)
        (Consistent.start options now) actions
    exact consistent.chain
  · have steps : EveryStep step (fun _ _ => True) (start options now) actions :=
      everyStep_of_forall (fun _ _ => trivial) _ actions
    apply steps.of_invariant _ _ (Consistent.start options now)
    · intro watched action consistent _
      exact consistent.step action
    · intro watched action consistent _
      exact consistent.maySwitch

end WatchedEviction

end FlowCache
