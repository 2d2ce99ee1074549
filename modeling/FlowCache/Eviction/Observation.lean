import FlowCache.Eviction.PolicySwitching
import FlowCache.Library.InsertedSteps

/-!
# Polls of the signals

`getSignals()` and `evaluate()` share `computeSignals`, which moves the averages and
starts a new window.  A poll therefore takes from the next evaluation what was recorded
since the last one.  It takes nothing only if nothing was recorded since the signals were
last computed.
-/

namespace FlowCache

open Transition

variable {Value : Type}

/-! ## Computing signals twice -/

/-- A sample equal to the average leaves it where it is. -/
theorem Ema.update_get {ema : Ema} (moved : ema.value ≠ none) :
    (ema.update ema.get).2 = ema := by
  obtain ⟨average, stored⟩ := Option.ne_none_iff_exists'.mp moved
  obtain ⟨alpha, value, positive, atMostOne⟩ := ema
  cases stored
  have same : alpha * average + (1 - alpha) * average = average := by ring
  simp [Ema.update, Ema.get, same]

namespace WorkloadMonitor

/-- Nothing was recorded since signals were computed last. -/
structure Idle (monitor : WorkloadMonitor) : Prop where
  hits : monitor.hitsInWindow = 0
  misses : monitor.missesInWindow = 0
  writes : monitor.writesInWindow = 0
  reads : monitor.readsInWindow = 0
  sequentialMatches : monitor.sequentialMatches = 0
  sequentialSamples : monitor.sequentialSamples = 0
  hitRate : monitor.hitRateEma.value ≠ none
  writeRatio : monitor.writeRatioEma.value ≠ none

/-- Computing the signals is without effect exactly then. -/
theorem computeSignals_eq_self_iff (monitor : WorkloadMonitor) (memoryUsageRatio : Rat) :
    (monitor.computeSignals memoryUsageRatio).2 = monitor ↔ monitor.Idle := by
  constructor
  · intro same
    rw [← same]
    exact ⟨rfl, rfl, rfl, rfl, rfl, rfl, by simp [computeSignals, slideWindow, Ema.update],
      by simp [computeSignals, slideWindow, Ema.update]⟩
  · rintro ⟨hits, misses, writes, reads, seqMatches, samples, hitRate, writeRatio⟩
    obtain ⟨recentKeys, hitRateEma, writeRatioEma, hitsInWindow, missesInWindow,
      writesInWindow, readsInWindow, totalSamples, lastNumericSuffix, sequentialMatches,
      sequentialSamples⟩ := monitor
    cases hits
    cases misses
    cases writes
    cases reads
    cases seqMatches
    cases samples
    simp [computeSignals, slideWindow, Ema.update_get hitRate, Ema.update_get writeRatio]

end WorkloadMonitor

/-! ## Runs with polls put in -/

/-- `GET /metrics/eviction`, as far as it reaches the engine. -/
def EvictionAction.IsPoll (action : EvictionAction Value) : Prop :=
  ∃ memoryUsageRatio, action = .getSignals memoryUsageRatio

namespace WatchedEviction

/-- The switch a tick of the evaluation timer makes, if any, and when the tick is. -/
def automaticSwitch (watched : WatchedEviction) (action : EvictionAction Value) :
    Option (Millis × Option (EvictionPolicyType × EvictionPolicyType)) :=
  match action with
  | .evaluate _ _ =>
      let before := watched.engine.getCurrentPolicy
      let after := (watched.step action).engine.getCurrentPolicy
      some (watched.now, if after = before then none else some (before, after))
  | _ => none

/-- A poll that comes when nothing was recorded since signals were last computed. -/
def IdlePoll (watched : WatchedEviction) (action : EvictionAction Value) : Prop :=
  action.IsPoll ∧ watched.engine.monitor.Idle

/-- Such a poll changes nothing. -/
theorem step_of_idlePoll {watched : WatchedEviction} {action : EvictionAction Value}
    (poll : watched.IdlePoll action) : watched.step action = watched := by
  obtain ⟨⟨memoryUsageRatio, rfl⟩, idle⟩ := poll
  have same : (watched.engine.getSignals memoryUsageRatio).2 = watched.engine := by
    rw [AdaptiveEvictionEngine.getSignals,
      (watched.engine.monitor.computeSignals_eq_self_iff memoryUsageRatio).mpr idle]
  simp [step, AdaptiveEvictionEngine.handle, same, EvictionAction.operations]

/-- Polls that find nothing recorded leave every tick to decide as it would without
them. -/
theorem automatic_switches_with_idle_polls (options : AdaptiveEvictionEngineOptions)
    (now : Millis) {actions longer : List (EvictionAction Value)}
    (inserted : Inserted step IdlePoll (start options now) actions longer) :
    trace step automaticSwitch (start options now) longer =
      trace step automaticSwitch (start options now) actions := by
  have every : ∀ actions : List (EvictionAction Value),
      EveryStep step (fun _ _ => True) (start options now) actions :=
    everyStep_of_forall (fun _ _ => trivial) _
  have initial : start options now = start options now := rfl
  apply inserted.trace_eq _ _ initial (every actions) (every longer)
  · intro left right action same _ _
    subst same
    exact ⟨rfl, rfl⟩
  · intro left right action same poll _
    subst same
    refine ⟨?_, (step_of_idlePoll poll).symm⟩
    obtain ⟨⟨memoryUsageRatio, rfl⟩, -⟩ := poll
    rfl

/-- Three keys are read in order before the timer ticks. -/
def scan : List (EvictionAction Nat) :=
  [.storageEvent .hit "k1", .storageEvent .hit "k2", .storageEvent .hit "k3",
    .advance 5000, .evaluate 0 []]

/-- The same with a poll before the tick. -/
def polledScan : List (EvictionAction Nat) :=
  [.storageEvent .hit "k1", .storageEvent .hit "k2", .storageEvent .hit "k3",
    .advance 5000, .getSignals 0, .evaluate 0 []]

/-- Few samples are enough, and there is no cooldown. -/
def eagerOptions : AdaptiveEvictionEngineOptions := ⟨.lru, 1, 0, 200⟩

/-- A second tick, and a poll right after the first one. -/
theorem automatic_switches_with_poll_after_tick :
    Inserted step IdlePoll (start eagerOptions 0) (scan ++ [.evaluate 0 []])
        (scan ++ [.getSignals 0, .evaluate 0 []]) ∧
      trace step automaticSwitch (start eagerOptions 0)
          (scan ++ [.getSignals 0, .evaluate 0 []]) =
        [(5000, none), (5000, some (.lru, .tinyLfu))] := by
  have inserted : Inserted step IdlePoll (start eagerOptions 0) (scan ++ [.evaluate 0 []])
      (scan ++ [.getSignals 0, .evaluate 0 []]) := by
    refine .keep _ (.keep _ (.keep _ (.keep _ (.keep _ (.insert ⟨⟨0, rfl⟩, ?_⟩
      (.keep _ (.nil _)))))))
    constructor <;> decide +kernel
  refine ⟨inserted, ?_⟩
  rw [automatic_switches_with_idle_polls eagerOptions 0 inserted]
  decide +kernel

/-- The scan keeps LRU in place, unless a poll has taken it out of the window. -/
theorem automatic_switches_differ_after_poll :
    ¬∀ (options : AdaptiveEvictionEngineOptions) (now : Millis)
      (actions longer : List (EvictionAction Nat)),
      Inserted step (fun _ action => action.IsPoll) (start options now) actions longer →
        trace step automaticSwitch (start options now) longer =
          trace step automaticSwitch (start options now) actions := by
  intro unchanged
  have inserted : Inserted step (fun _ action => action.IsPoll) (start eagerOptions 0)
      scan polledScan :=
    .keep _ (.keep _ (.keep _ (.keep _ (.insert ⟨0, rfl⟩ (.keep _ (.nil _))))))
  have same := unchanged eagerOptions 0 scan polledScan inserted
  revert same
  decide +kernel

end WatchedEviction

end FlowCache
