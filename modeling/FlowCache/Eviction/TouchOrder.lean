import FlowCache.Library.RecencyOrder
import FlowCache.Library.Transition
import FlowCache.Eviction.Calls
import FlowCache.Eviction.LRU

/-!
# The linked list is the order of the last touches

Beside the policy runs a log of the touches of its calls.  A removal takes the touches of
its key out of the log, and a seed starts a new one.  The last touch of each key, in the
order of the log, is what the pointers visit from the tail.
-/

namespace FlowCache

open Transition

variable {Value : Type}

/-- The log after a call; a seed touches its entries in the order of their last access. -/
def logTouches (log : List CacheKey) : PolicyCall Value → List CacheKey
  | .recordAccess key => log ++ [key]
  | .recordWrite key => log ++ [key]
  | .recordRemoval key => log.filter (· ≠ key)
  | .reset => []
  | .seed entries =>
      (entries.insertionSort fun first second =>
        first.metadata.lastAccessedAt ≤ second.metadata.lastAccessedAt).map CacheEntry.key

/-- The keys from the one touched longest ago to the one touched last: `dedup` keeps the
last occurrence of each. -/
def touchOrder (calls : List (PolicyCall Value)) : List CacheKey :=
  (run logTouches [] calls).dedup

namespace LruEvictionPolicy

/-- The policy after a call. -/
def handle (policy : LruEvictionPolicy) : PolicyCall Value → LruEvictionPolicy
  | .recordAccess key => policy.recordAccess key
  | .recordWrite key => policy.recordWrite key
  | .recordRemoval key => policy.recordRemoval key
  | .reset => policy.reset
  | .seed entries => policy.seed entries

/-- Touching keys one after the other appends them to the log. -/
theorem recency_foldl_touch (entries : List (CacheEntry Value)) :
    ∀ (policy : LruEvictionPolicy) (log : List CacheKey), policy.recency = log.dedup →
      (entries.foldl (fun current entry => current.touch entry.key) policy).recency =
        (log ++ entries.map CacheEntry.key).dedup := by
  induction entries with
  | nil =>
      intro policy log same
      simpa using same
  | cons entry rest ih =>
      intro policy log same
      have touched : (policy.touch entry.key).recency = (log ++ [entry.key]).dedup := by
        rw [recency_touch, RecencyOrder.dedup_append_singleton, same]
        rfl
      rw [List.foldl_cons, ih _ _ touched, List.map_cons, List.append_assoc,
        List.singleton_append]

theorem recency_seed (policy : LruEvictionPolicy) (entries : List (CacheEntry Value)) :
    (policy.seed entries).recency =
      ((entries.insertionSort fun first second =>
        first.metadata.lastAccessedAt ≤ second.metadata.lastAccessedAt).map
          CacheEntry.key).dedup := by
  rw [seed, recency_foldl_touch _ policy.reset [] rfl, List.nil_append]

theorem recency_handle {policy : LruEvictionPolicy} {log : List CacheKey}
    (same : policy.recency = log.dedup) (call : PolicyCall Value) :
    (policy.handle call).recency = (logTouches log call).dedup := by
  have touched : ∀ key, (policy.touch key).recency = (log ++ [key]).dedup := by
    intro key
    rw [recency_touch, RecencyOrder.dedup_append_singleton, same]
    rfl
  cases call with
  | recordAccess key => exact touched key
  | recordWrite key => exact touched key
  | recordRemoval key =>
      rw [handle, recency_recordRemoval, policy.recency_nodup.erase_eq_filter, logTouches,
        RecencyOrder.dedup_filter, same]
      exact List.filter_congr fun query _ => by rw [Bool.eq_iff_iff]; simp
  | reset => rfl
  | seed entries => exact policy.recency_seed entries

/-- The recency order of a policy is the order of the last touches of its calls. -/
theorem recency_run (calls : List (PolicyCall Value)) :
    (run handle create calls).recency = touchOrder calls := by
  have followed : ∀ (policy : LruEvictionPolicy) (log : List CacheKey),
      policy.recency = log.dedup →
        (run handle policy calls).recency = (run logTouches log calls).dedup := by
    induction calls with
    | nil =>
        intro policy log same
        exact same
    | cons call rest ih =>
        intro policy log same
        exact ih _ _ (recency_handle same call)
  exact followed create [] rfl

/-- After any calls, following `prev` from the tail visits exactly the nodes of the map,
each once, from the one touched longest ago to the one touched last, and ends there;
following `next` from the head visits them the other way round.  The candidates that a
walk collects are the first ones in that order, and the victim is the very first. -/
theorem list_is_touch_order (calls : List (PolicyCall Value)) :
    let policy := run handle create calls
    (∀ fuel, policy.list.nodes.size ≤ fuel →
        policy.list.walk LinkedNode.prev fuel policy.list.tail = touchOrder calls ∧
        policy.list.walk LinkedNode.next fuel policy.list.head =
          (touchOrder calls).reverse) ∧
      (touchOrder calls).Nodup ∧
      (∀ key, key ∈ policy.list.nodes.keys ↔ key ∈ touchOrder calls) ∧
      (policy.list.head = none ↔ policy.list.nodes.keys = []) ∧
      (policy.list.tail = none ↔ policy.list.nodes.keys = []) ∧
      ∀ candidateKeys : List CacheKey,
        (∀ limit, policy.leastRecentlyUsedCandidates candidateKeys limit =
          ((touchOrder calls).filter (· ∈ candidateKeys)).take limit) ∧
        policy.selectVictim candidateKeys =
          ((touchOrder calls).filter (· ∈ candidateKeys)).head? ∧
        (policy.selectVictim candidateKeys = none ↔
          ∀ key ∈ candidateKeys, key ∉ policy.list.nodes.keys) := by
  intro policy
  have recency : policy.recency = touchOrder calls := recency_run calls
  refine ⟨?_, List.nodup_dedup _, ?_, policy.head_and_tail.2.1, policy.head_and_tail.2.2, ?_⟩
  · intro fuel enough
    rw [policy.represents_recency.walk_tail enough,
      policy.represents_recency.walk_head enough, List.reverse_reverse, recency]
    exact ⟨rfl, rfl⟩
  · intro key
    rw [mem_nodes_iff, recency]
  · intro candidateKeys
    refine ⟨?_, ?_, ?_⟩
    · intro limit
      rw [leastRecentlyUsedCandidates_eq, recency]
    · rw [selectVictim_eq, recency]
    · rw [selectVictim_eq, List.head?_eq_none_iff, List.filter_eq_nil_iff]
      simp only [decide_eq_true_eq, mem_nodes_iff]
      exact ⟨fun none key candidate tracked => none key tracked candidate,
        fun none key tracked candidate => none key candidate tracked⟩

end LruEvictionPolicy

end FlowCache
