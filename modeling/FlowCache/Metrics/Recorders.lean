import Mathlib.Data.List.GetD
import Mathlib.Tactic.Linarith
import FlowCache.Library.OrderStatistics
import FlowCache.Shared.RingBuffer
import FlowCache.Shared.Types

/-!
# Latency percentiles and request rates

`LatencyHistogram` and `RateCounter` of `packages/metrics`, which keep their samples in a
ring buffer, and the percentiles that `BenchmarkRunner` computes of all its samples.
Samples are exact rationals.

A percentile is the sample of rank `⌈p * m⌉` among the `m` samples that are retained, so
the clamps of its index never take effect.
-/

namespace FlowCache

open Transition OrderStatistics

/-- `LatencyPercentiles`. -/
structure LatencyPercentiles where
  p50 : Rat
  p95 : Rat
  p99 : Rat
  max : Rat
  deriving DecidableEq, Repr

/-- `samples.sort((a, b) => a - b)`. -/
def sortSamples (samples : List Rat) : List Rat := samples.insertionSort (· ≤ ·)

/-- `percentile(sortedAscending, p)`. -/
def percentile (sortedAscending : List Rat) (p : Rat) : Rat :=
  if sortedAscending.length = 0 then
    0
  else
    let rank : Int := ⌈p * sortedAscending.length⌉ - 1
    let clampedIndex : Int := min (max rank 0) (sortedAscending.length - 1)
    sortedAscending.getD clampedIndex.toNat 0

/-! ## The histogram -/

/-- `LatencyHistogram`. -/
structure LatencyHistogram where
  samples : RingBuffer Rat

namespace LatencyHistogram

/-- `new LatencyHistogram(capacity)`. -/
def create (capacity : Nat) (positive : 0 < capacity) : LatencyHistogram :=
  ⟨.create capacity positive⟩

/-- `record(latencyMs)`. -/
def record (histogram : LatencyHistogram) (latencyMs : Rat) : LatencyHistogram :=
  ⟨histogram.samples.push latencyMs⟩

/-- `percentiles()`. -/
def percentiles (histogram : LatencyHistogram) : LatencyPercentiles :=
  let sorted := sortSamples histogram.samples.toArray
  if sorted.length = 0 then
    ⟨0, 0, 0, 0⟩
  else
    { p50 := percentile sorted (1 / 2)
      p95 := percentile sorted (19 / 20)
      p99 := percentile sorted (99 / 100)
      max := sorted.getD (sorted.length - 1) 0 }

/-- `sampleCount()`. -/
def sampleCount (histogram : LatencyHistogram) : Nat := histogram.samples.length

/-- `reset()`. -/
def reset (histogram : LatencyHistogram) : LatencyHistogram := ⟨histogram.samples.clear⟩

end LatencyHistogram

/-- `computeLatencyPercentiles(samplesMs)` of the benchmark runner. -/
def computeLatencyPercentiles (samplesMs : List Rat) : LatencyPercentiles :=
  if samplesMs.length = 0 then
    ⟨0, 0, 0, 0⟩
  else
    let sorted := sortSamples samplesMs
    let sampleAt : Rat → Rat := fun p =>
      let rank : Int := ⌈p * sorted.length⌉ - 1
      sorted.getD (min (max rank 0) (sorted.length - 1)).toNat 0
    ⟨sampleAt (1 / 2), sampleAt (19 / 20), sampleAt (99 / 100), sorted.getD (sorted.length - 1) 0⟩

/-! ## The rate counter -/

/-- `RateCounter`. -/
structure RateCounter where
  timestamps : RingBuffer Millis
  windowMs : Rat

namespace RateCounter

/-- `new RateCounter(windowMs, capacity)`. -/
def create (windowMs : Rat) (capacity : Nat) (positive : 0 < capacity) : RateCounter :=
  ⟨.create capacity positive, windowMs⟩

/-- `hit(atMs)`. -/
def hit (counter : RateCounter) (atMs : Millis) : RateCounter :=
  { counter with timestamps := counter.timestamps.push atMs }

/-- `rate(nowMs)`. -/
def rate (counter : RateCounter) (nowMs : Millis) : Rat :=
  let cutoff : Rat := nowMs - counter.windowMs
  let count := counter.timestamps.toArray.foldl
    (fun count (timestamp : Millis) => if (timestamp : Rat) ≥ cutoff then count + 1 else count) 0
  (count : Nat) / (counter.windowMs / 1000)

/-- `reset()`. -/
def reset (counter : RateCounter) : RateCounter :=
  { counter with timestamps := counter.timestamps.clear }

/-- One `hit` or `reset`. -/
def receive (counter : RateCounter) : BufferCall Millis → RateCounter
  | .push atMs => counter.hit atMs
  | .clear => counter.reset

theorem receive_timestamps (counter : RateCounter) (call : BufferCall Millis) :
    (counter.receive call).timestamps = counter.timestamps.receive call ∧
      (counter.receive call).windowMs = counter.windowMs := by
  cases call with
  | push atMs => exact ⟨rfl, rfl⟩
  | clear => exact ⟨rfl, rfl⟩

theorem run_timestamps (counter : RateCounter) (calls : List (BufferCall Millis)) :
    (run receive counter calls).timestamps =
        run RingBuffer.receive counter.timestamps calls ∧
      (run receive counter calls).windowMs = counter.windowMs := by
  induction calls generalizing counter with
  | nil => exact ⟨rfl, rfl⟩
  | cons call rest ih =>
      obtain ⟨timestamps, windowMs⟩ := counter.receive_timestamps call
      rw [run_cons, (ih _).1, (ih _).2, timestamps, windowMs]
      exact ⟨rfl, rfl⟩

/-- The rate counts the retained hits in the trailing window. -/
theorem rate_run (windowMs : Rat) (capacity : Nat) (positive : 0 < capacity)
    (calls : List (BufferCall Millis)) (nowMs : Millis) :
    (run receive (create windowMs capacity positive) calls).rate nowMs =
      ((pushedSinceClear calls).rtake capacity).countP
        (fun timestamp : Millis => nowMs - windowMs ≤ (timestamp : Rat)) / (windowMs / 1000) := by
  obtain ⟨timestamps, window⟩ := run_timestamps (create windowMs capacity positive) calls
  have perm : (run RingBuffer.receive (.create capacity positive) calls).toArray.Perm
      ((pushedSinceClear calls).rtake capacity) := by
    have retained := ((RingBuffer.retains_create capacity positive).run calls).perm
    rwa [RingBuffer.run_capacity] at retained
  rw [rate, timestamps, window, ← perm.countP_eq]
  have counted := foldl_count
    (fun timestamp : Millis => decide ((nowMs : Rat) - windowMs ≤ (timestamp : Rat)))
    (run RingBuffer.receive (.create capacity positive) calls).toArray 0
  simp only [decide_eq_true_eq, Nat.zero_add] at counted
  exact congrArg (fun count : Nat => (count : Rat) / (windowMs / 1000)) counted

end RateCounter

/-! ## Ranks -/

theorem pairwise_sortSamples (samples : List Rat) :
    (sortSamples samples).Pairwise (· ≤ ·) :=
  List.pairwise_insertionSort (· ≤ ·) samples

theorem perm_sortSamples (samples : List Rat) : (sortSamples samples).Perm samples :=
  List.perm_insertionSort (· ≤ ·) samples

theorem length_sortSamples (samples : List Rat) :
    (sortSamples samples).length = samples.length :=
  (perm_sortSamples samples).length_eq

theorem sortSamples_eq_of_perm {samples others : List Rat} (perm : samples.Perm others) :
    sortSamples samples = sortSamples others := by
  apply List.Perm.eq_of_pairwise' (pairwise_sortSamples samples) (pairwise_sortSamples others)
  exact (perm_sortSamples samples).trans (perm.trans (perm_sortSamples others).symm)

/-- The rank of a percentile among `count` samples. -/
theorem ceil_bounds {p : Rat} (positive : 0 < p) (le_one : p ≤ 1) {count : Nat}
    (nonzero : 0 < count) : 1 ≤ ⌈p * count⌉ ∧ ⌈p * count⌉ ≤ count := by
  have counted : (0 : Rat) < count := by exact_mod_cast nonzero
  constructor
  · rw [Int.one_le_ceil_iff]
    exact mul_pos positive counted
  · rw [Int.ceil_le]
    push_cast
    exact mul_le_of_le_one_left counted.le le_one

/-- A percentile is the sample of its rank. -/
theorem hasRank_percentile {sorted : List Rat} (ascending : sorted.Pairwise (· ≤ ·))
    (nonempty : sorted ≠ []) {p : Rat} (positive : 0 < p) (le_one : p ≤ 1) :
    HasRank sorted ⌈p * sorted.length⌉.toNat (percentile sorted p) := by
  have length := List.length_pos_iff.mpr nonempty
  obtain ⟨low, high⟩ := ceil_bounds positive le_one length
  obtain ⟨rank, rankEq⟩ := Int.eq_ofNat_of_zero_le (le_trans zero_le_one low)
  have inside : rank - 1 < sorted.length := by omega
  have value : percentile sorted p = sorted[rank - 1] := by
    have index : (min (max (⌈p * sorted.length⌉ - 1) 0) ((sorted.length : Int) - 1)).toNat =
        rank - 1 := by
      omega
    simp only [percentile]
    rw [if_neg length.ne', index, List.getD_eq_getElem _ _ inside]
  have counted : ⌈p * sorted.length⌉.toNat = rank - 1 + 1 := by omega
  rw [value, counted]
  exact hasRank_getElem ascending inside

/-- The last sample has the highest rank. -/
theorem hasRank_last {sorted : List Rat} (ascending : sorted.Pairwise (· ≤ ·))
    (nonempty : sorted ≠ []) :
    HasRank sorted sorted.length (sorted.getD (sorted.length - 1) 0) := by
  have length := List.length_pos_iff.mpr nonempty
  have inside : sorted.length - 1 < sorted.length := by omega
  rw [List.getD_eq_getElem _ _ inside]
  have ranked := hasRank_getElem ascending inside
  rwa [Nat.sub_add_cancel length] at ranked

/-- A value is the percentile of a list of samples: one of them, not below `⌈p * m⌉` of
them and above fewer. -/
structure IsPercentile (samples : List Rat) (p value : Rat) : Prop where
  mem : value ∈ samples
  enough : ⌈p * samples.length⌉ ≤ samples.countP (· ≤ value)
  fewer : (samples.countP (· < value) : Int) < ⌈p * samples.length⌉

theorem isPercentile_of_hasRank {samples : List Rat} (nonempty : samples ≠ [])
    {p value : Rat} (positive : 0 < p) (le_one : p ≤ 1)
    (ranked : HasRank samples ⌈p * samples.length⌉.toNat value) :
    IsPercentile samples p value := by
  have low := (ceil_bounds positive le_one (List.length_pos_iff.mpr nonempty)).1
  have cast := Int.toNat_of_nonneg (le_trans zero_le_one low)
  refine ⟨ranked.mem, ?_, ?_⟩
  · rw [← cast]
    exact_mod_cast ranked.enough
  · rw [← cast]
    exact_mod_cast ranked.fewer

/-- The percentiles of a list of samples. -/
structure ArePercentiles (samples : List Rat) (percentiles : LatencyPercentiles) : Prop where
  p50 : IsPercentile samples (1 / 2) percentiles.p50
  p95 : IsPercentile samples (19 / 20) percentiles.p95
  p99 : IsPercentile samples (99 / 100) percentiles.p99
  p50_le_p95 : percentiles.p50 ≤ percentiles.p95
  p95_le_p99 : percentiles.p95 ≤ percentiles.p99
  p99_le_max : percentiles.p99 ≤ percentiles.max

/-- A non-empty list has the percentiles that are computed of it. -/
theorem arePercentiles_compute {samples : List Rat} (nonempty : samples ≠ []) :
    ArePercentiles samples (computeLatencyPercentiles samples) := by
  have ascending := pairwise_sortSamples samples
  have perm := perm_sortSamples samples
  have length := length_sortSamples samples
  have sortedNonempty : sortSamples samples ≠ [] := by
    rw [← List.length_pos_iff, length]
    exact List.length_pos_iff.mpr nonempty
  have computed : computeLatencyPercentiles samples =
      { p50 := percentile (sortSamples samples) (1 / 2)
        p95 := percentile (sortSamples samples) (19 / 20)
        p99 := percentile (sortSamples samples) (99 / 100)
        max := (sortSamples samples).getD ((sortSamples samples).length - 1) 0 } := by
    simp [computeLatencyPercentiles, percentile, length, nonempty]
  have ranked : ∀ p : Rat, 0 < p → p ≤ 1 →
      HasRank samples ⌈p * samples.length⌉.toNat (percentile (sortSamples samples) p) := by
    intro p positive le_one
    rw [← length]
    exact (hasRank_percentile ascending sortedNonempty positive le_one).perm perm
  have last : HasRank samples samples.length
      ((sortSamples samples).getD ((sortSamples samples).length - 1) 0) := by
    have highest := hasRank_last ascending sortedNonempty
    rw [length] at highest ⊢
    exact highest.perm perm
  have rises : ∀ p q : Rat, p ≤ q →
      ⌈p * samples.length⌉.toNat ≤ ⌈q * samples.length⌉.toNat := by
    intro p q le
    apply Int.toNat_le_toNat
    apply Int.ceil_le_ceil
    exact mul_le_mul_of_nonneg_right le (Nat.cast_nonneg _)
  have half := ranked (1 / 2) (by norm_num) (by norm_num)
  have most := ranked (19 / 20) (by norm_num) (by norm_num)
  have nearly := ranked (99 / 100) (by norm_num) (by norm_num)
  rw [computed]
  constructor
  case p50 => exact isPercentile_of_hasRank nonempty (by norm_num) (by norm_num) half
  case p95 => exact isPercentile_of_hasRank nonempty (by norm_num) (by norm_num) most
  case p99 => exact isPercentile_of_hasRank nonempty (by norm_num) (by norm_num) nearly
  case p50_le_p95 => exact half.mono most (rises _ _ (by norm_num))
  case p95_le_p99 => exact most.mono nearly (rises _ _ (by norm_num))
  case p99_le_max =>
    apply nearly.mono last
    have bound := (ceil_bounds (p := 99 / 100) (by norm_num) (by norm_num)
      (List.length_pos_iff.mpr nonempty)).2
    omega

theorem computeLatencyPercentiles_eq_of_perm {samples others : List Rat}
    (perm : samples.Perm others) :
    computeLatencyPercentiles samples = computeLatencyPercentiles others := by
  rw [computeLatencyPercentiles, computeLatencyPercentiles, sortSamples_eq_of_perm perm,
    perm.length_eq]

namespace LatencyHistogram

/-- The histogram and the benchmark compute the same of the same samples. -/
theorem percentiles_eq_compute (histogram : LatencyHistogram) :
    histogram.percentiles = computeLatencyPercentiles histogram.samples.toArray := by
  simp only [percentiles, computeLatencyPercentiles, percentile, length_sortSamples]
  split
  · rfl
  · rfl

/-- The samples that are left of all that were recorded. -/
theorem retains_run (capacity : Nat) (positive : 0 < capacity) (samples : List Rat) :
    (run record (create capacity positive) samples).samples.Retains samples ∧
      (run record (create capacity positive) samples).samples.capacity = capacity := by
  induction samples using List.reverseRecOn with
  | nil => exact ⟨RingBuffer.retains_create capacity positive, rfl⟩
  | append_singleton earlier sample ih =>
      rw [run_append]
      exact ⟨ih.1.push sample, ih.2⟩

theorem percentiles_run (capacity : Nat) (positive : 0 < capacity) (samples : List Rat) :
    (run record (create capacity positive) samples).percentiles =
      computeLatencyPercentiles (samples.rtake capacity) := by
  obtain ⟨retains, same⟩ := retains_run capacity positive samples
  rw [percentiles_eq_compute]
  apply computeLatencyPercentiles_eq_of_perm
  have perm := retains.perm
  rwa [same] at perm

/-- The percentiles of a histogram are those of the samples it retains and depend on
nothing else; without samples they are zero, and as long as all samples are retained they
are what the benchmark computes. -/
theorem percentiles_of_retained (capacity : Nat) (positive : 0 < capacity)
    (samples : List Rat) :
    (∀ (otherCapacity : Nat) (otherPositive : 0 < otherCapacity) (others : List Rat),
        (others.rtake (min others.length otherCapacity)).Perm
            (samples.rtake (min samples.length capacity)) →
          (run record (create otherCapacity otherPositive) others).percentiles =
            (run record (create capacity positive) samples).percentiles) ∧
      (samples ≠ [] →
        ArePercentiles (samples.rtake (min samples.length capacity))
          (run record (create capacity positive) samples).percentiles) ∧
      (samples = [] →
        (run record (create capacity positive) samples).percentiles = ⟨0, 0, 0, 0⟩) ∧
      (samples.length ≤ capacity →
        (run record (create capacity positive) samples).percentiles =
          computeLatencyPercentiles samples) := by
  have window : ∀ (items : List Rat) (count : Nat),
      items.rtake (min items.length count) = items.rtake count := by
    intro items count
    rw [List.rtake, List.rtake]
    congr 1
    omega
  have computed : (run record (create capacity positive) samples).percentiles =
      computeLatencyPercentiles (samples.rtake (min samples.length capacity)) := by
    rw [percentiles_run, ← window]
  refine ⟨?_, ?_, ?_, ?_⟩
  · intro otherCapacity otherPositive others perm
    rw [computed, percentiles_run, ← window]
    exact computeLatencyPercentiles_eq_of_perm perm
  · intro recorded
    rw [computed]
    apply arePercentiles_compute
    rw [← List.length_pos_iff, length_rtake]
    have positiveLength := List.length_pos_iff.mpr recorded
    omega
  · rintro rfl
    rfl
  · intro fits
    rw [percentiles_run, rtake_of_length_le fits]

/-- Five samples, of which four are retained. -/
theorem percentiles_of_retained_four :
    ([9, 4, 1, 3, 2] : List Rat) ≠ [] ∧
      ArePercentiles [4, 1, 3, 2]
        (run record (create 4 (by decide)) [9, 4, 1, 3, 2]).percentiles := by
  refine ⟨by simp, ?_⟩
  exact (percentiles_of_retained 4 (by decide) [9, 4, 1, 3, 2]).2.1 (by simp)

/-- Without a sample the percentiles are zero, which is no sample. -/
theorem no_percentiles_of_nothing :
    ¬ArePercentiles (([] : List Rat).rtake (min ([] : List Rat).length 1))
      (run record (create 1 (by decide)) []).percentiles := by
  intro claimed
  have member := claimed.p50.mem
  rw [List.rtake_nil] at member
  exact List.not_mem_nil member

end LatencyHistogram

end FlowCache
