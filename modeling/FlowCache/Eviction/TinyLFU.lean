import Mathlib.Logic.Function.Iterate
import FlowCache.Eviction.CountMinSketch
import FlowCache.Eviction.LRU

/-!
# TinyLFU

`TinyLfuEvictionPolicy`: among the least recently used candidates the one with the
lowest estimated frequency.
-/

namespace FlowCache

variable {Value : Type}

/-- `TinyLfuEvictionPolicy`. -/
structure TinyLfuEvictionPolicy where
  recency : LruEvictionPolicy
  sketch : CountMinSketch
  bottomK : Nat

namespace TinyLfuEvictionPolicy

/-- `new TinyLfuEvictionPolicy(bottomK, sketch)`. -/
def create (bottomK : Nat) (sketch : CountMinSketch) : TinyLfuEvictionPolicy :=
  ⟨.create, sketch, bottomK⟩

/-- `new TinyLfuEvictionPolicy()`. -/
def default : TinyLfuEvictionPolicy := create 5 .default

/-- `recordAccess(key)`. -/
def recordAccess (policy : TinyLfuEvictionPolicy) (key : CacheKey) :
    TinyLfuEvictionPolicy :=
  { policy with
    recency := policy.recency.recordAccess key
    sketch := policy.sketch.increment key }

/-- `recordWrite(key)`. -/
def recordWrite (policy : TinyLfuEvictionPolicy) (key : CacheKey) :
    TinyLfuEvictionPolicy :=
  { policy with
    recency := policy.recency.recordWrite key
    sketch := policy.sketch.increment key }

/-- `recordRemoval(key)`: the sketch has no decrement. -/
def recordRemoval (policy : TinyLfuEvictionPolicy) (key : CacheKey) :
    TinyLfuEvictionPolicy :=
  { policy with recency := policy.recency.recordRemoval key }

/-- The loop of `selectVictim`: a later candidate wins only with a lower estimate. -/
def leastFrequent (policy : TinyLfuEvictionPolicy) (first : CacheKey)
    (others : List CacheKey) : CacheKey :=
  (others.foldl
    (fun best candidate =>
      let freq := policy.sketch.estimate candidate
      if freq < best.2 then (candidate, freq) else best)
    (first, policy.sketch.estimate first)).1

/-- `selectVictim(candidateKeys)`. -/
def selectVictim (policy : TinyLfuEvictionPolicy) (candidateKeys : List CacheKey) :
    Option CacheKey :=
  match policy.recency.leastRecentlyUsedCandidates candidateKeys policy.bottomK with
  | [] => policy.recency.selectVictim candidateKeys
  | first :: others => some (policy.leastFrequent first others)

/-- `reset()`. -/
def reset (policy : TinyLfuEvictionPolicy) : TinyLfuEvictionPolicy :=
  { policy with recency := policy.recency.reset, sketch := policy.sketch.reset }

/-- `seed(entries)`: between one and 32 increments for each entry. -/
def seed (policy : TinyLfuEvictionPolicy) (entries : List (CacheEntry Value)) :
    TinyLfuEvictionPolicy :=
  { policy with
    recency := policy.recency.seed entries
    sketch := entries.foldl
      (fun sketch entry =>
        let replayCount := min (max 1 entry.metadata.frequency) 32
        Nat.iterate (fun current => current.increment entry.key) replayCount sketch)
      policy.sketch.reset }

instance : EvictionHook TinyLfuEvictionPolicy where
  recordAccess := recordAccess
  recordWrite := recordWrite
  recordRemoval := recordRemoval
  selectVictim := selectVictim
  onStorageEvent policy _ _ := policy

/-! ## The victim is a candidate -/

theorem leastFrequent_mem (policy : TinyLfuEvictionPolicy) (first : CacheKey)
    (others : List CacheKey) : policy.leastFrequent first others ∈ first :: others := by
  have chosen : ∀ (remaining : List CacheKey) (best : CacheKey × Nat),
      (remaining.foldl
        (fun best candidate =>
          let freq := policy.sketch.estimate candidate
          if freq < best.2 then (candidate, freq) else best)
        best).1 ∈ best.1 :: remaining := by
    intro remaining
    induction remaining with
    | nil => simp
    | cons candidate rest ih =>
        intro best
        rw [List.foldl_cons]
        have inside := ih (if policy.sketch.estimate candidate < best.2 then
          (candidate, policy.sketch.estimate candidate) else best)
        split at inside
        · next lower =>
            simp only [lower, if_true]
            exact List.mem_cons_of_mem _ inside
        · next higher =>
            simp only [higher, if_false]
            cases List.mem_cons.mp inside with
            | inl same => rw [same]; exact List.mem_cons_self
            | inr member => exact List.mem_cons_of_mem _ (List.mem_cons_of_mem _ member)
  exact chosen others (first, policy.sketch.estimate first)

theorem mem_of_selectVictim {policy : TinyLfuEvictionPolicy}
    {candidateKeys : List CacheKey} {victim : CacheKey}
    (selected : policy.selectVictim candidateKeys = some victim) :
    victim ∈ candidateKeys := by
  unfold selectVictim at selected
  split at selected
  · exact TrackingHook.mem_of_selectVictim policy.recency selected
  · next first others bottom =>
      cases selected
      have member := policy.leastFrequent_mem first others
      rw [← bottom, LruEvictionPolicy.leastRecentlyUsedCandidates_eq] at member
      simpa using (List.mem_filter.mp (List.mem_of_mem_take member)).2

theorem selectVictim_isSome {policy : TinyLfuEvictionPolicy}
    {candidateKeys : List CacheKey} {key : CacheKey}
    (tracked : key ∈ policy.recency.recency) (member : key ∈ candidateKeys) :
    (policy.selectVictim candidateKeys).isSome := by
  unfold selectVictim
  split
  · exact TrackingHook.selectVictim_isSome policy.recency tracked member
  · rfl

instance : TrackingHook TinyLfuEvictionPolicy where
  Tracks policy key := TrackingHook.Tracks policy.recency key
  mem_of_selectVictim _ := mem_of_selectVictim
  selectVictim_isSome _ := selectVictim_isSome
  tracks_recordWrite policy := TrackingHook.tracks_recordWrite policy.recency
  recordWrite_keeps policy := TrackingHook.recordWrite_keeps policy.recency
  recordAccess_keeps policy := TrackingHook.recordAccess_keeps policy.recency
  recordRemoval_keeps policy := TrackingHook.recordRemoval_keeps policy.recency
  onStorageEvent_keeps _ _ _ := id

end TinyLfuEvictionPolicy

end FlowCache
