import Mathlib.Tactic.Linarith
import FlowCache.Eviction.WorkloadMonitor
import FlowCache.Library.Transition

/-!
# The range of the signals

In every run of a `WorkloadMonitor` the ratios it reports lie between 0 and 1 and
complement each other.  The counters of a window are reset with each report while the
averages, the recent keys and the last numeric suffix persist; what relates them at any
time is that the averages have seen ratios only, that a window has no more hits than
reads, and no more sequential matches than samples.
-/

namespace FlowCache

open Transition

/-- A number between 0 and 1. -/
def IsRatio (value : Rat) : Prop := 0 ≤ value ∧ value ≤ 1

namespace IsRatio

theorem zero : IsRatio 0 := ⟨le_rfl, zero_le_one⟩

theorem complement {value : Rat} (ratio : IsRatio value) : IsRatio (1 - value) :=
  ⟨sub_nonneg.mpr ratio.2, sub_le_self 1 ratio.1⟩

/-- A part of a positive whole. -/
theorem of_part {part whole : Nat} (le : part ≤ whole) (positive : 0 < whole) :
    IsRatio ((part : Rat) / whole) := by
  constructor
  · exact div_nonneg (Nat.cast_nonneg _) (Nat.cast_nonneg _)
  · rw [div_le_one (Nat.cast_pos.mpr positive), Nat.cast_le]
    exact le

/-- A number clamped to the range. -/
theorem clamp (value : Rat) : IsRatio (max 0 (min 1 value)) :=
  ⟨le_max_left .., max_le zero_le_one (min_le_left ..)⟩

/-- Averages of ratios are ratios. -/
theorem average {alpha sample value : Rat} (alphaRatio : IsRatio alpha)
    (sampleRatio : IsRatio sample) (valueRatio : IsRatio value) :
    IsRatio (alpha * sample + (1 - alpha) * value) := by
  have rest := alphaRatio.complement
  constructor
  · exact add_nonneg (mul_nonneg alphaRatio.1 sampleRatio.1)
      (mul_nonneg rest.1 valueRatio.1)
  · have first : alpha * sample ≤ alpha := mul_le_of_le_one_right alphaRatio.1 sampleRatio.2
    have second : (1 - alpha) * value ≤ 1 - alpha :=
      mul_le_of_le_one_right rest.1 valueRatio.2
    linarith

end IsRatio

/-- An average that has seen ratios only. -/
def Ema.SeesRatios (ema : Ema) : Prop := ∀ value, ema.value = some value → IsRatio value

namespace Ema.SeesRatios

variable {ema : Ema}

theorem get (sees : ema.SeesRatios) : IsRatio ema.get := by
  rw [Ema.get]
  cases held : ema.value with
  | none => exact .zero
  | some value => exact sees value held

theorem update (sees : ema.SeesRatios) {sample : Rat} (ratio : IsRatio sample) :
    IsRatio (ema.update sample).1 ∧ (ema.update sample).2.SeesRatios := by
  have averaged : IsRatio (ema.update sample).1 := by
    simp only [Ema.update]
    split
    · exact ratio
    · next value held =>
        exact .average ⟨ema.alpha_pos.le, ema.alpha_le_one⟩ ratio (sees value held)
  refine ⟨averaged, ?_⟩
  intro value held
  cases held
  exact averaged

theorem reset (ema : Ema) : ema.reset.SeesRatios := by
  intro value held
  cases held

end Ema.SeesRatios

/-- What a report says is in range. -/
structure WorkloadSignals.InRange (signals : WorkloadSignals) : Prop where
  hitRate : IsRatio signals.hitRate
  missRate : IsRatio signals.missRate
  hitOrMiss : signals.hitRate + signals.missRate = 1
  writeRatio : IsRatio signals.writeRatio
  readRatio : IsRatio signals.readRatio
  writeOrRead : signals.writeRatio + signals.readRatio = 1
  frequencySkew : IsRatio signals.frequencySkew
  sequentialAccessScore : IsRatio signals.sequentialAccessScore
  workingSetSizeRatio : IsRatio signals.workingSetSizeRatio

theorem isRatio_giniCoefficient (values : List Rat) : IsRatio (giniCoefficient values) := by
  rw [giniCoefficient]
  split
  · exact .zero
  · simp only
    split
    · exact .zero
    · exact .clamp _

namespace WorkloadMonitor

/-! ## The keys of the window -/

theorem size_foldl_insert_le (keys : List CacheKey) (counts : InsertionMap CacheKey Nat) :
    (keys.foldl (fun counts key => counts.insert key ((counts.get? key).getD 0 + 1))
      counts).size ≤ counts.size + keys.length := by
  induction keys generalizing counts with
  | nil => exact le_rfl
  | cons key rest ih =>
      have grown := InsertionMap.size_insert_le counts key ((counts.get? key).getD 0 + 1)
      have later := ih (counts.insert key ((counts.get? key).getD 0 + 1))
      rw [List.foldl_cons, List.length_cons]
      omega

/-- There are no more different keys than keys. -/
theorem size_frequencyByKey_le (keys : List CacheKey) :
    (frequencyByKey keys).size ≤ keys.length := by
  have bound := size_foldl_insert_le keys .empty
  rwa [show (InsertionMap.empty : InsertionMap CacheKey Nat).size = 0 from rfl,
    Nat.zero_add] at bound

/-! ## Runs of a monitor -/

/-- A call of a monitor. -/
inductive Call where
  | recordHit (key : CacheKey)
  | recordMiss (key : CacheKey)
  | recordWrite (key : CacheKey)
  | computeSignals (memoryUsageRatio : Rat)
  | reset
  deriving DecidableEq, Repr

/-- One call. -/
def receive (monitor : WorkloadMonitor) : Call → WorkloadMonitor
  | .recordHit key => monitor.recordHit key
  | .recordMiss key => monitor.recordMiss key
  | .recordWrite key => monitor.recordWrite key
  | .computeSignals memoryUsageRatio => (monitor.computeSignals memoryUsageRatio).2
  | .reset => monitor.reset

/-- The operations recorded since the last `reset`, after one more call. -/
def recordedAfter (recorded : Nat) : Call → Nat
  | .recordHit _ => recorded + 1
  | .recordMiss _ => recorded + 1
  | .recordWrite _ => recorded + 1
  | .computeSignals _ => recorded
  | .reset => 0

/-- The operations recorded since the last `reset`. -/
def recordedSinceReset (calls : List Call) : Nat := calls.foldl recordedAfter 0

/-- How the counters and averages of a monitor relate. -/
structure Sound (monitor : WorkloadMonitor) (recorded : Nat) : Prop where
  hitRate : monitor.hitRateEma.SeesRatios
  writeRatio : monitor.writeRatioEma.SeesRatios
  hits : monitor.hitsInWindow ≤ monitor.readsInWindow
  matched : monitor.sequentialMatches ≤ monitor.sequentialSamples
  samples : monitor.totalSamples = recorded

variable {monitor : WorkloadMonitor} {recorded : Nat}

namespace Sound

theorem updateSequentialDetection (sound : monitor.Sound recorded) (key : CacheKey) :
    (monitor.updateSequentialDetection key).Sound recorded := by
  rw [WorkloadMonitor.updateSequentialDetection]
  split
  · exact sound
  · have counted : ∀ adjacent : Bool,
        (if adjacent then monitor.sequentialMatches + 1 else monitor.sequentialMatches) ≤
          monitor.sequentialSamples + 1 := by
      intro adjacent
      cases adjacent with
      | true => exact Nat.succ_le_succ sound.matched
      | false => exact Nat.le_succ_of_le sound.matched
    exact ⟨sound.hitRate, sound.writeRatio, sound.hits, counted _, sound.samples⟩

theorem observeKey (sound : monitor.Sound recorded) (key : CacheKey) :
    (monitor.observeKey key).Sound recorded := by
  apply updateSequentialDetection
  exact ⟨sound.hitRate, sound.writeRatio, sound.hits, sound.matched, sound.samples⟩

theorem slideWindow (sound : monitor.Sound recorded) :
    monitor.slideWindow.Sound recorded :=
  ⟨sound.hitRate, sound.writeRatio, le_rfl, le_rfl, sound.samples⟩

/-- The hit rate of the window, or the last average if nothing was read. -/
theorem windowHitRate (sound : monitor.Sound recorded) :
    IsRatio (if monitor.readsInWindow > 0 then
      (monitor.hitsInWindow : Rat) / monitor.readsInWindow else monitor.hitRateEma.get) := by
  split
  · next positive => exact .of_part sound.hits positive
  · exact sound.hitRate.get

/-- The write ratio of the window, or the last average if nothing happened. -/
theorem windowWriteRatio (sound : monitor.Sound recorded) :
    IsRatio (if monitor.readsInWindow + monitor.writesInWindow > 0 then
      (monitor.writesInWindow : Rat) /
        ((monitor.readsInWindow + monitor.writesInWindow : Nat) : Rat)
      else monitor.writeRatioEma.get) := by
  split
  · next positive => exact .of_part (Nat.le_add_left ..) positive
  · exact sound.writeRatio.get

theorem computeSignals (sound : monitor.Sound recorded) (memoryUsageRatio : Rat) :
    (monitor.computeSignals memoryUsageRatio).2.Sound recorded := by
  apply slideWindow
  exact ⟨(sound.hitRate.update sound.windowHitRate).2,
    (sound.writeRatio.update sound.windowWriteRatio).2, sound.hits, sound.matched,
    sound.samples⟩

/-- One call. -/
theorem receive (sound : monitor.Sound recorded) (call : Call) :
    (monitor.receive call).Sound (recordedAfter recorded call) := by
  have counted : monitor.totalSamples + 1 = recorded + 1 := congrArg (· + 1) sound.samples
  cases call with
  | recordHit key =>
      apply observeKey
      exact ⟨sound.hitRate, sound.writeRatio, Nat.succ_le_succ sound.hits, sound.matched,
        counted⟩
  | recordMiss key =>
      apply observeKey
      exact ⟨sound.hitRate, sound.writeRatio, Nat.le_succ_of_le sound.hits, sound.matched,
        counted⟩
  | recordWrite key =>
      apply observeKey
      exact ⟨sound.hitRate, sound.writeRatio, sound.hits, sound.matched, counted⟩
  | computeSignals memoryUsageRatio => exact sound.computeSignals memoryUsageRatio
  | reset => exact ⟨.reset _, .reset _, le_rfl, le_rfl, rfl⟩

theorem run (sound : monitor.Sound recorded) (calls : List Call) :
    (Transition.run WorkloadMonitor.receive monitor calls).Sound
      (calls.foldl recordedAfter recorded) := by
  induction calls generalizing monitor recorded with
  | nil => exact sound
  | cons call rest ih => exact ih (sound.receive call)

/-- One report. -/
theorem inRange (sound : monitor.Sound recorded) (memoryUsageRatio : Rat) :
    (monitor.computeSignals memoryUsageRatio).1.InRange := by
  have hitRate := (sound.hitRate.update sound.windowHitRate).1
  have writeRatio := (sound.writeRatio.update sound.windowWriteRatio).1
  constructor
  case hitRate => exact hitRate
  case missRate => exact hitRate.complement
  case hitOrMiss => exact add_sub_cancel ..
  case writeRatio => exact writeRatio
  case readRatio => exact writeRatio.complement
  case writeOrRead => exact add_sub_cancel ..
  case frequencySkew => exact isRatio_giniCoefficient _
  case sequentialAccessScore =>
    simp only [WorkloadMonitor.computeSignals]
    split
    · next positive => exact .of_part sound.matched positive
    · exact .zero
  case workingSetSizeRatio =>
    simp only [WorkloadMonitor.computeSignals]
    split
    · next positive => exact .of_part (size_frequencyByKey_le _) positive
    · exact .zero

end Sound

theorem sound_create : create.Sound 0 := by
  refine ⟨?_, ?_, le_rfl, le_rfl, rfl⟩
  · intro value held
    cases held
  · intro value held
    cases held

/-- After any calls a report is in range, and it counts the operations recorded since the
last `reset`. -/
theorem signals_in_range (calls : List Call) (memoryUsageRatio : Rat) :
    let signals := ((run receive create calls).computeSignals memoryUsageRatio).1
    signals.InRange ∧ signals.windowSampleCount = recordedSinceReset calls := by
  have sound := sound_create.run calls
  exact ⟨sound.inRange memoryUsageRatio, sound.samples⟩

end WorkloadMonitor

end FlowCache
