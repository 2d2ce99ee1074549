import Mathlib.Data.List.Sort
import FlowCache.Library.InsertionMap
import FlowCache.Shared.Types
import FlowCache.Shared.Utils

/-!
# Workload signals

`WorkloadMonitor` turns hits, misses and writes into the signals the decision rules
read, and `decidePolicy` is that table of rules.  Ratios are exact rationals.
-/

namespace FlowCache

/-- `EvictionPolicyType`. -/
inductive EvictionPolicyType where
  | lru
  | lfu
  | tinyLfu
  deriving DecidableEq, Repr

/-- `WorkloadSignals`. -/
structure WorkloadSignals where
  hitRate : Rat
  missRate : Rat
  memoryUsageRatio : Rat
  writeRatio : Rat
  readRatio : Rat
  frequencySkew : Rat
  sequentialAccessScore : Rat
  workingSetSizeRatio : Rat
  windowSampleCount : Nat
  deriving DecidableEq, Repr

/-- `giniCoefficient(values)`. -/
def giniCoefficient (values : List Rat) : Rat :=
  if values = [] then
    0
  else
    let sorted := values.insertionSort (· ≤ ·)
    let n : Rat := sorted.length
    let sum := sorted.foldl (· + ·) 0
    if sum = 0 then
      0
    else
      let weightedCumulative := sorted.zipIdx.foldl
        (fun total indexed => total + ((indexed.2 : Rat) + 1) * indexed.1) 0
      let gini := 2 * weightedCumulative / (n * sum) - (n + 1) / n
      max 0 (min 1 gini)

/-- What `.` in a regular expression does not match. -/
def isLineTerminator (character : Char) : Bool :=
  character = '\n' || character = '\r' || character.toNat = 0x2028 ||
    character.toNat = 0x2029

/-- The match of `TRAILING_NUMBER`: the last run of digits of the first line that has
a digit. -/
def trailingNumber (key : CacheKey) : Option Nat :=
  match (key.toList.splitOnP isLineTerminator).find? fun line =>
      line.any Char.isDigit with
  | none => none
  | some line =>
      let digits := ((line.reverse.dropWhile fun character =>
        !character.isDigit).takeWhile Char.isDigit).reverse
      some (digits.foldl (fun number digit => 10 * number + (digit.toNat - '0'.toNat)) 0)

/-- `WorkloadMonitor`. -/
structure WorkloadMonitor where
  recentKeys : RingBuffer CacheKey
  hitRateEma : Ema
  writeRatioEma : Ema
  hitsInWindow : Nat
  missesInWindow : Nat
  writesInWindow : Nat
  readsInWindow : Nat
  totalSamples : Nat
  lastNumericSuffix : Option Nat
  sequentialMatches : Nat
  sequentialSamples : Nat

namespace WorkloadMonitor

/-- An average that has seen no sample, with `EMA_ALPHA`. -/
def freshEma : Ema := ⟨1 / 4, none, by norm_num, by norm_num⟩

/-- `new WorkloadMonitor()`, with `WINDOW_CAPACITY` recent keys. -/
def create : WorkloadMonitor where
  recentKeys := .create 2000 (by decide)
  hitRateEma := freshEma
  writeRatioEma := freshEma
  hitsInWindow := 0
  missesInWindow := 0
  writesInWindow := 0
  readsInWindow := 0
  totalSamples := 0
  lastNumericSuffix := none
  sequentialMatches := 0
  sequentialSamples := 0

/-- `reset()`. -/
def reset (monitor : WorkloadMonitor) : WorkloadMonitor where
  recentKeys := monitor.recentKeys.clear
  hitRateEma := monitor.hitRateEma.reset
  writeRatioEma := monitor.writeRatioEma.reset
  hitsInWindow := 0
  missesInWindow := 0
  writesInWindow := 0
  readsInWindow := 0
  totalSamples := 0
  lastNumericSuffix := none
  sequentialMatches := 0
  sequentialSamples := 0

/-- `updateSequentialDetection(key)`. -/
def updateSequentialDetection (monitor : WorkloadMonitor) (key : CacheKey) :
    WorkloadMonitor :=
  match trailingNumber key with
  | none => monitor
  | some current =>
      let adjacent :=
        match monitor.lastNumericSuffix with
        | none => false
        | some last => current = last + 1 || last = current + 1
      { monitor with
        sequentialSamples := monitor.sequentialSamples + 1
        sequentialMatches :=
          if adjacent then monitor.sequentialMatches + 1 else monitor.sequentialMatches
        lastNumericSuffix := some current }

/-- `observeKey(key)`. -/
def observeKey (monitor : WorkloadMonitor) (key : CacheKey) : WorkloadMonitor :=
  updateSequentialDetection
    { monitor with recentKeys := monitor.recentKeys.push key } key

/-- `recordHit(key)`. -/
def recordHit (monitor : WorkloadMonitor) (key : CacheKey) : WorkloadMonitor :=
  observeKey
    { monitor with
      hitsInWindow := monitor.hitsInWindow + 1
      readsInWindow := monitor.readsInWindow + 1
      totalSamples := monitor.totalSamples + 1 } key

/-- `recordMiss(key)`. -/
def recordMiss (monitor : WorkloadMonitor) (key : CacheKey) : WorkloadMonitor :=
  observeKey
    { monitor with
      missesInWindow := monitor.missesInWindow + 1
      readsInWindow := monitor.readsInWindow + 1
      totalSamples := monitor.totalSamples + 1 } key

/-- `recordWrite(key)`. -/
def recordWrite (monitor : WorkloadMonitor) (key : CacheKey) : WorkloadMonitor :=
  observeKey
    { monitor with
      writesInWindow := monitor.writesInWindow + 1
      totalSamples := monitor.totalSamples + 1 } key

/-- `slideWindow()`. -/
def slideWindow (monitor : WorkloadMonitor) : WorkloadMonitor :=
  { monitor with
    hitsInWindow := 0
    missesInWindow := 0
    writesInWindow := 0
    readsInWindow := 0
    sequentialMatches := 0
    sequentialSamples := 0 }

/-- `frequencyByKey` of `computeSignals`. -/
def frequencyByKey (keys : List CacheKey) : InsertionMap CacheKey Nat :=
  keys.foldl (fun counts key => counts.insert key ((counts.get? key).getD 0 + 1)) .empty

/-- `computeSignals(memoryUsageRatio)`, which also slides the window. -/
def computeSignals (monitor : WorkloadMonitor) (memoryUsageRatio : Rat) :
    WorkloadSignals × WorkloadMonitor :=
  let reads := monitor.readsInWindow
  let writes := monitor.writesInWindow
  let totalOps := reads + writes
  let windowHitRate : Rat :=
    if reads > 0 then monitor.hitsInWindow / reads else monitor.hitRateEma.get
  let windowWriteRatio : Rat :=
    if totalOps > 0 then writes / totalOps else monitor.writeRatioEma.get
  let smoothedHitRate := monitor.hitRateEma.update windowHitRate
  let smoothedWriteRatio := monitor.writeRatioEma.update windowWriteRatio
  let keys := monitor.recentKeys.toArray
  let frequencies := frequencyByKey keys
  let signals : WorkloadSignals :=
    { hitRate := smoothedHitRate.1
      missRate := 1 - smoothedHitRate.1
      memoryUsageRatio := memoryUsageRatio
      writeRatio := smoothedWriteRatio.1
      readRatio := 1 - smoothedWriteRatio.1
      frequencySkew := giniCoefficient (frequencies.values.map fun count => (count : Rat))
      sequentialAccessScore :=
        if monitor.sequentialSamples > 0 then
          monitor.sequentialMatches / monitor.sequentialSamples
        else
          0
      workingSetSizeRatio :=
        if keys.length > 0 then frequencies.size / keys.length else 0
      windowSampleCount := monitor.totalSamples }
  (signals,
    slideWindow
      { monitor with
        hitRateEma := smoothedHitRate.2
        writeRatioEma := smoothedWriteRatio.2 })

end WorkloadMonitor

/-! ## Decision rules -/

/-- `PolicyDecision`. -/
structure PolicyDecision where
  policy : EvictionPolicyType
  reason : String
  deriving DecidableEq, Repr

/-- `MEMORY_PRESSURE_THRESHOLD`. -/
def memoryPressureThreshold : Rat := 85 / 100

/-- `SEQUENTIAL_SCORE_THRESHOLD`. -/
def sequentialScoreThreshold : Rat := 1 / 2

/-- `READ_HEAVY_THRESHOLD`. -/
def readHeavyThreshold : Rat := 7 / 10

/-- `FREQUENCY_SKEW_THRESHOLD`. -/
def frequencySkewThreshold : Rat := 4 / 10

/-- `WRITE_HEAVY_THRESHOLD`. -/
def writeHeavyThreshold : Rat := 6 / 10

/-- `decidePolicy(signals)`: the first rule that matches. -/
def decidePolicy (signals : WorkloadSignals) : PolicyDecision :=
  if signals.memoryUsageRatio ≥ memoryPressureThreshold then
    ⟨.tinyLfu, "memory usage " ++ toFixed (signals.memoryUsageRatio * 100) 1 ++ "% >= " ++
      toFixed (memoryPressureThreshold * 100) 0 ++
      "% threshold — switching to TinyLFU for scan-resistant, frequency-aware " ++
      "eviction under pressure"⟩
  else if signals.sequentialAccessScore ≥ sequentialScoreThreshold then
    ⟨.lru, "sequential access score " ++
      toFixed (signals.sequentialAccessScore * 100) 1 ++
      "% indicates a scan pattern — switching to LRU"⟩
  else if signals.readRatio ≥ readHeavyThreshold ∧
      signals.frequencySkew ≥ frequencySkewThreshold then
    ⟨.lfu, "read-heavy workload (" ++ toFixed (signals.readRatio * 100) 1 ++
      "% reads) with skewed key popularity (Gini " ++ toFixed signals.frequencySkew 2 ++
      ") — switching to LFU to protect hot keys"⟩
  else if signals.writeRatio ≥ writeHeavyThreshold then
    ⟨.lru, "write-heavy workload (" ++ toFixed (signals.writeRatio * 100) 1 ++
      "% writes) — switching to LRU to prioritize recency over historical frequency"⟩
  else
    ⟨.tinyLfu, "no single workload signal dominates — defaulting to TinyLFU as a " ++
      "balanced, scan-resistant policy"⟩

end FlowCache
