import FlowCache.Library.FrequencyOrder
import FlowCache.Eviction.TinyLFU
import FlowCache.Eviction.TouchOrder

/-!
# The victim of TinyLFU

The victim comes from a window of the candidates that were touched longest ago, and of
these it has the lowest estimate.  Among equal estimates the one touched first goes.
-/

namespace FlowCache

open Transition

variable {Value : Type}

namespace TinyLfuEvictionPolicy

/-- The policy after a call. -/
def handle (policy : TinyLfuEvictionPolicy) : PolicyCall Value → TinyLfuEvictionPolicy
  | .recordAccess key => policy.recordAccess key
  | .recordWrite key => policy.recordWrite key
  | .recordRemoval key => policy.recordRemoval key
  | .reset => policy.reset
  | .seed entries => policy.seed entries

theorem handle_recency (policy : TinyLfuEvictionPolicy) (call : PolicyCall Value) :
    (policy.handle call).recency = policy.recency.handle call := by
  cases call <;> rfl

theorem handle_bottomK (policy : TinyLfuEvictionPolicy) (call : PolicyCall Value) :
    (policy.handle call).bottomK = policy.bottomK := by
  cases call <;> rfl

/-- The recency list of the policy has seen the same calls. -/
theorem run_recency (calls : List (PolicyCall Value)) (policy : TinyLfuEvictionPolicy) :
    (run handle policy calls).recency =
      run LruEvictionPolicy.handle policy.recency calls := by
  induction calls generalizing policy with
  | nil => rfl
  | cons call rest ih => rw [run_cons, run_cons, ih, handle_recency]

theorem run_bottomK (calls : List (PolicyCall Value)) (policy : TinyLfuEvictionPolicy) :
    (run handle policy calls).bottomK = policy.bottomK := by
  induction calls generalizing policy with
  | nil => rfl
  | cons call rest ih => rw [run_cons, ih, handle_bottomK]

/-- The loop keeps the first of the lowest estimates. -/
theorem leastFrequent_eq_argmin (policy : TinyLfuEvictionPolicy) (first : CacheKey)
    (others : List CacheKey) :
    (first :: others).argmin policy.sketch.estimate =
      some (policy.leastFrequent first others) := by
  have looped : ∀ (remaining : List CacheKey) (best : CacheKey),
      remaining.foldl (List.argAux fun candidate kept =>
          policy.sketch.estimate candidate < policy.sketch.estimate kept) (some best) =
        some (policy.leastFrequent best remaining) := by
    intro remaining
    induction remaining with
    | nil => intro best; rfl
    | cons candidate rest ih =>
        intro best
        rw [List.foldl_cons, leastFrequent, List.foldl_cons]
        by_cases lower : policy.sketch.estimate candidate < policy.sketch.estimate best
        · simp only [List.argAux, if_pos lower]
          exact ih candidate
        · simp only [List.argAux, if_neg lower]
          exact ih best
  exact looped others first

/-- The window of `selectVictim`. -/
def window (bottomK : Nat) (calls : List (PolicyCall Value)) (candidateKeys : List CacheKey) :
    List CacheKey :=
  ((touchOrder calls).filter (· ∈ candidateKeys)).take bottomK

/-- After any calls, the victim is one of the `bottomK` tracked candidates that were
touched longest ago, no estimate in that window is lower than its own, and those touched
before it have higher estimates.  So a key that some other key in the window is estimated
below is not evicted. -/
theorem victim_is_least_in_window {bottomK : Nat} (positive : 1 ≤ bottomK)
    (sketch : CountMinSketch) (calls : List (PolicyCall Value)) (candidateKeys : List CacheKey) :
    let policy := run handle (create bottomK sketch) calls
    (∃ key ∈ candidateKeys, key ∈ policy.recency.list.nodes.keys) →
    ∃ victim before after, policy.selectVictim candidateKeys = some victim ∧
      window bottomK calls candidateKeys = before ++ victim :: after ∧
      (∀ other ∈ window bottomK calls candidateKeys,
        policy.sketch.estimate victim ≤ policy.sketch.estimate other) ∧
      (∀ other ∈ before, policy.sketch.estimate victim < policy.sketch.estimate other) ∧
      ∀ key, (∃ other ∈ window bottomK calls candidateKeys,
        policy.sketch.estimate other < policy.sketch.estimate key) → key ≠ victim := by
  intro policy ⟨key, candidate, tracked⟩
  have recency : policy.recency.recency = touchOrder calls := by
    rw [run_recency]
    exact LruEvictionPolicy.recency_run calls
  have collected : policy.recency.leastRecentlyUsedCandidates candidateKeys policy.bottomK =
      window bottomK calls candidateKeys := by
    rw [LruEvictionPolicy.leastRecentlyUsedCandidates_eq, recency, run_bottomK]
    rfl
  have nonempty : window bottomK calls candidateKeys ≠ [] := by
    rw [LruEvictionPolicy.mem_nodes_iff, recency] at tracked
    have inside : key ∈ (touchOrder calls).filter (· ∈ candidateKeys) :=
      List.mem_filter.mpr ⟨tracked, by simpa using candidate⟩
    rw [window, ne_eq, List.take_eq_nil_iff, not_or]
    exact ⟨Nat.one_le_iff_ne_zero.mp positive, List.ne_nil_of_mem inside⟩
  rw [selectVictim, collected]
  cases shape : window bottomK calls candidateKeys with
  | nil => exact absurd shape nonempty
  | cons first others =>
      have scanned := policy.leastFrequent_eq_argmin first others
      have least : ∀ other ∈ first :: others,
          policy.sketch.estimate (policy.leastFrequent first others) ≤
            policy.sketch.estimate other := fun other member =>
        List.le_of_mem_argmin member scanned
      obtain ⟨before, after, split, higher⟩ :=
        FrequencyOrder.argmin_split scanned
      refine ⟨_, before, after, rfl, split, least, higher, ?_⟩
      intro key ⟨other, member, lower⟩ same
      have bound := least other member
      rw [← same] at bound
      exact absurd lower (not_lt.mpr bound)

/-- A sketch of two rows. -/
def twoRows : CountMinSketch :=
  ⟨16, 2, 50000, Array.replicate 32 0, 0, Nat.succ_pos 15, Nat.succ_pos 1, Array.size_replicate⟩

/-- A key that was written and read outlives one that was only written, although it was
touched longer ago. -/
theorem victim_is_least_in_window_two_keys :
    ∃ before after,
      (run handle (create 2 twoRows) ([.recordWrite "hot", .recordAccess "hot",
        .recordWrite "cold"] : List (PolicyCall Nat))).selectVictim ["hot", "cold"] =
          some "cold" ∧
      ["hot", "cold"] = before ++ "cold" :: after := by
  have shape : window 2 ([.recordWrite "hot", .recordAccess "hot", .recordWrite "cold"] :
      List (PolicyCall Nat)) ["hot", "cold"] = ["hot", "cold"] := by
    decide +kernel
  have isCold : (run handle (create 2 twoRows) ([.recordWrite "hot", .recordAccess "hot",
      .recordWrite "cold"] : List (PolicyCall Nat))).selectVictim ["hot", "cold"] =
        some "cold" := by
    decide +kernel
  obtain ⟨victim, before, after, selected, split, -⟩ :=
    victim_is_least_in_window (by decide : 1 ≤ 2) twoRows
      ([.recordWrite "hot", .recordAccess "hot", .recordWrite "cold"] :
        List (PolicyCall Nat)) ["hot", "cold"] ⟨"hot", by decide, by decide +kernel⟩
  obtain rfl : victim = "cold" := Option.some.inj (selected.symm.trans isCold)
  exact ⟨before, after, isCold, shape.symm.trans split⟩

end TinyLfuEvictionPolicy

end FlowCache
