import FlowCache.Library.Mediant
import FlowCache.Metrics.Collector

/-!
# What the aggregation says

Its sums do not depend on the order of the snapshots, the distributions count every node
once, and the hit ratio of the cluster lies between those of its nodes, rounding included.
-/

namespace FlowCache

open Transition

/-! ## The sums -/

namespace ClusterTally

/-- The loop adds up and counts. -/
structure Sums (tally start : ClusterTally) (snapshots : List MetricsSnapshot) : Prop where
  hits : tally.totalHits = start.totalHits + (snapshots.map (·.hits)).sum
  misses : tally.totalMisses = start.totalMisses + (snapshots.map (·.misses)).sum
  entries : tally.totalEntries = start.totalEntries + (snapshots.map (·.entryCount)).sum
  memory : tally.totalMemory = start.totalMemory + (snapshots.map (·.memoryUsageBytes)).sum
  evictions : tally.totalEvictions = start.totalEvictions + (snapshots.map (·.evictions)).sum
  policies : ∀ policy, tally.policyDistribution policy = start.policyDistribution policy +
    snapshots.countP (·.currentEvictionPolicy = policy)
  statuses : ∀ status, tally.nodeStatusBreakdown status = start.nodeStatusBreakdown status +
    snapshots.countP (·.nodeStatus = status)

theorem sums_foldl (snapshots : List MetricsSnapshot) (start : ClusterTally) :
    (snapshots.foldl add start).Sums start snapshots := by
  induction snapshots generalizing start with
  | nil => exact ⟨rfl, rfl, rfl, (Int.add_zero _).symm, rfl, fun _ => rfl, fun _ => rfl⟩
  | cons snapshot rest ih =>
      have next := ih (start.add snapshot)
      constructor
      case hits => exact next.hits.trans (Nat.add_assoc _ _ _)
      case misses => exact next.misses.trans (Nat.add_assoc _ _ _)
      case entries => exact next.entries.trans (Nat.add_assoc _ _ _)
      case memory => exact next.memory.trans (Int.add_assoc _ _ _)
      case evictions => exact next.evictions.trans (Nat.add_assoc _ _ _)
      case policies =>
        intro policy
        rw [List.foldl_cons, next.policies, List.countP_cons, Nat.add_comm (rest.countP _),
          ← Nat.add_assoc]
        simp only [add, decide_eq_true_eq]
      case statuses =>
        intro status
        rw [List.foldl_cons, next.statuses, List.countP_cons, Nat.add_comm (rest.countP _),
          ← Nat.add_assoc]
        simp only [add, decide_eq_true_eq]

/-- Two rounds of the loop commute. -/
theorem add_add (tally : ClusterTally) (snapshot other : MetricsSnapshot) :
    (tally.add snapshot).add other = (tally.add other).add snapshot := by
  simp only [add, Nat.add_right_comm _ _ _, max_right_comm, add_right_comm]

theorem foldl_add_eq_of_perm {snapshots others : List MetricsSnapshot}
    (perm : snapshots.Perm others) (start : ClusterTally) :
    snapshots.foldl add start = others.foldl add start :=
  run_perm eq_equivalence (fun _ _ _ same => by rw [same]) add_add perm start

end ClusterTally

/-! ## Ratios -/

theorem hitRatioOf_eq {hits misses : Nat} (reads : 0 < hits + misses) :
    hitRatioOf hits misses = float (hits / (hits + misses : Nat)) := by
  rw [hitRatioOf]
  exact if_pos reads

/-- A smaller share of hits is a smaller ratio. -/
theorem hitRatioOf_mono {hits misses hits' misses' : Nat} (reads : 0 < hits + misses)
    (reads' : 0 < hits' + misses') (cross : hits * (hits' + misses') ≤ hits' * (hits + misses)) :
    hitRatioOf hits misses ≤ hitRatioOf hits' misses' := by
  rw [hitRatioOf_eq reads, hitRatioOf_eq reads']
  apply float_mono (by positivity)
  rw [div_le_div_iff₀ (by exact_mod_cast reads) (by exact_mod_cast reads')]
  exact_mod_cast cross

/-- One of the parts has at most the ratio of the sums, and one at least. -/
theorem hitRatioOf_sum {Part : Type} {parts : List Part} (hits misses : Part → Nat)
    (reads : 0 < (parts.map hits).sum + (parts.map misses).sum) :
    (∃ part ∈ parts, 0 < hits part + misses part ∧ hitRatioOf (hits part) (misses part) ≤
        hitRatioOf (parts.map hits).sum (parts.map misses).sum) ∧
      ∃ part ∈ parts, 0 < hits part + misses part ∧
        hitRatioOf (parts.map hits).sum (parts.map misses).sum ≤
          hitRatioOf (hits part) (misses part) := by
  have weights : (parts.map fun part => hits part + misses part).sum =
      (parts.map hits).sum + (parts.map misses).sum := List.sum_map_add
  have nothing : ∀ part ∈ parts, hits part + misses part = 0 → hits part = 0 :=
    fun part _ zero => (Nat.add_eq_zero_iff.mp zero).1
  have total : (parts.map fun part => hits part + misses part).sum ≠ 0 := by
    rw [weights]
    exact reads.ne'
  constructor
  · obtain ⟨part, member, some, below⟩ := Mediant.exists_le nothing total
    rw [weights] at below
    exact ⟨part, member, Nat.pos_of_ne_zero some,
      hitRatioOf_mono (Nat.pos_of_ne_zero some) reads below⟩
  · obtain ⟨part, member, some, above⟩ := Mediant.exists_ge nothing total
    rw [weights] at above
    exact ⟨part, member, Nat.pos_of_ne_zero some,
      hitRatioOf_mono reads (Nat.pos_of_ne_zero some) above⟩

/-! ## The summary -/

namespace ClusterMetricsSummary

/-- The summary in terms of the snapshots. -/
structure Aggregates (summary : ClusterMetricsSummary) (snapshots : List MetricsSnapshot) :
    Prop where
  perNode : summary.perNode = snapshots
  nodeCount : summary.nodeCount = snapshots.length
  statuses : ∀ status, summary.nodeStatusBreakdown status =
    snapshots.countP (·.nodeStatus = status)
  healthy : summary.healthyNodeCount = summary.nodeStatusBreakdown .healthy
  policies : summary.policyDistribution .lru + summary.policyDistribution .lfu +
    summary.policyDistribution .tinyLfu = summary.nodeCount
  hitRatio : summary.overallHitRatio =
    hitRatioOf (snapshots.map (·.hits)).sum (snapshots.map (·.misses)).sum
  entries : summary.totalEntryCount = (snapshots.map (·.entryCount)).sum
  memory : summary.totalMemoryUsageBytes = (snapshots.map (·.memoryUsageBytes)).sum
  evictions : summary.totalEvictions = (snapshots.map (·.evictions)).sum

end ClusterMetricsSummary

theorem countP_policies (snapshots : List MetricsSnapshot) :
    snapshots.countP (fun snapshot => snapshot.currentEvictionPolicy = .lru) +
        snapshots.countP (fun snapshot => snapshot.currentEvictionPolicy = .lfu) +
        snapshots.countP (fun snapshot => snapshot.currentEvictionPolicy = .tinyLfu) =
      snapshots.length := by
  induction snapshots with
  | nil => rfl
  | cons snapshot rest ih =>
      simp only [List.countP_cons, List.length_cons, ← ih]
      cases snapshot.currentEvictionPolicy <;> simp <;> omega

theorem aggregates_aggregateClusterMetrics (nowMs : Millis) (snapshots : List MetricsSnapshot) :
    (aggregateClusterMetrics nowMs snapshots).Aggregates snapshots := by
  have sums := ClusterTally.sums_foldl snapshots .zero
  constructor
  case perNode => rfl
  case nodeCount => rfl
  case statuses => exact fun status => (sums.statuses status).trans (Nat.zero_add _)
  case healthy => rfl
  case policies =>
    have counted : ∀ policy, (aggregateClusterMetrics nowMs snapshots).policyDistribution policy =
        snapshots.countP (·.currentEvictionPolicy = policy) :=
      fun policy => (sums.policies policy).trans (Nat.zero_add _)
    rw [counted, counted, counted]
    exact countP_policies snapshots
  case hitRatio =>
    exact congrArg₂ hitRatioOf (sums.hits.trans (Nat.zero_add _))
      (sums.misses.trans (Nat.zero_add _))
  case entries => exact sums.entries.trans (Nat.zero_add _)
  case memory => exact sums.memory.trans (Int.zero_add _)
  case evictions => exact sums.evictions.trans (Nat.zero_add _)

/-- The order of the snapshots makes no difference to the summary. -/
theorem aggregateClusterMetrics_of_perm {snapshots others : List MetricsSnapshot}
    (perm : snapshots.Perm others) (nowMs : Millis) :
    aggregateClusterMetrics nowMs others =
      { aggregateClusterMetrics nowMs snapshots with perNode := others } := by
  simp only [aggregateClusterMetrics, ClusterTally.foldl_add_eq_of_perm perm, perm.length_eq]

end FlowCache
