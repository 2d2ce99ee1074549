import FlowCache.Eviction.AdaptiveEvictionEngine
import FlowCache.Library.Transition
import FlowCache.Storage.Capacity

/-!
# The caps under every eviction hook

Runs of a storage engine with any of the repository's hooks, among its operations the
evaluations and forced switches of an attached `AdaptiveEvictionEngine`.  The entry
cap is met after every write.  The byte cap is met exactly if it is met by what is
left when the hook has picked one victim more than half of the entries.
-/

namespace FlowCache

open Transition

variable {Value : Type}

/-- The hooks a storage engine is run with. -/
abbrev ConfiguredHook := FifoEvictionHook ⊕ EvictionPolicy ⊕ AdaptiveEvictionEngine

/-- The operations of a storage engine, and those of an adaptive engine attached to
it with the memory usage ratio it is told. -/
inductive StorageAction (Value : Type) where
  | set (now : Millis) (key : CacheKey) (value : Value) (options : SetOptions)
  | get (now : Millis) (key : CacheKey)
  | has (now : Millis) (key : CacheKey)
  | delete (key : CacheKey)
  | sweepExpired (now : Millis)
  | clear
  | evaluate (now : Millis) (memoryUsageRatio : Rat)
  | forceSwitch (now : Millis) (memoryUsageRatio : Rat) (policy : EvictionPolicyType)
      (reason : String)
  | getSignals (memoryUsageRatio : Rat)
  | pauseAutoSwitch
  | resumeAutoSwitch

namespace StorageEngine

/-- Let an attached adaptive engine change. -/
def changeAdaptive (engine : StorageEngine Value ConfiguredHook)
    (change : AdaptiveEvictionEngine → AdaptiveEvictionEngine) :
    StorageEngine Value ConfiguredHook :=
  match engine.hook with
  | .inr (.inr adaptive) => { engine with hook := .inr (.inr (change adaptive)) }
  | .inl _ | .inr (.inl _) => engine

/-- What holds between the operations. -/
structure Settled (engine : StorageEngine Value ConfiguredHook) : Prop where
  sound : engine.Sound
  keyed : engine.Keyed
  entries : engine.options.maxEntries.exceededBy engine.store.size = false

theorem settled_create (options : StorageEngineOptions) (hook : ConfiguredHook) :
    (create options hook : StorageEngine Value ConfiguredHook).Settled where
  sound := sound_create options hook
  keyed := keyed_create options hook
  entries := ((sound_create options hook).withinCaps_of_empty rfl).entries

/-- Forgetting and touching entries keeps an engine settled. -/
theorem Settled.of_stored {engine next : StorageEngine Value ConfiguredHook}
    (settled : engine.Settled) (sound : next.Sound) (options : next.options = engine.options)
    (stored : ∀ key after, next.store.get? key = some after →
      ∃ entry, engine.store.get? key = some entry ∧ CacheEntry.SameContent after entry) :
    next.Settled where
  sound := sound
  keyed := settled.keyed.of_stored stored
  entries := by
    have fewer : next.store.keys ⊆ engine.store.keys := by
      intro key member
      obtain ⟨after, found⟩ := InsertionMap.mem_keys_iff.mp member
      obtain ⟨entry, before, _⟩ := stored key after found
      exact InsertionMap.mem_keys_of_get? before
    have shorter := (List.subperm_of_subset next.store.keys_nodup fewer).length_le
    rw [InsertionMap.keys_length, InsertionMap.keys_length] at shorter
    rw [options]
    apply Limit.exceededBy_anti _ settled.entries
    exact_mod_cast shorter

/-- The same for an operation that changes no entry. -/
theorem Settled.of_kept {engine next : StorageEngine Value ConfiguredHook}
    (settled : engine.Settled) (sound : next.Sound) (options : next.options = engine.options)
    (kept : ∀ key entry, next.store.get? key = some entry →
      engine.store.get? key = some entry) : next.Settled := by
  apply settled.of_stored sound options
  intro key entry found
  exact ⟨entry, kept key entry found, rfl, rfl, rfl, rfl⟩

/-- An adaptive engine may change as long as it keeps track of the stored entries. -/
theorem Settled.changeAdaptive {engine : StorageEngine Value ConfiguredHook}
    (settled : engine.Settled)
    {change : AdaptiveEvictionEngine → AdaptiveEvictionEngine}
    (tracks : ∀ adaptive entry, entry ∈ engine.entries →
      TrackingHook.Tracks adaptive entry.key →
      TrackingHook.Tracks (change adaptive) entry.key) :
    (engine.changeAdaptive change).Settled := by
  unfold StorageEngine.changeAdaptive
  split
  · next adaptive isAdaptive =>
      refine ⟨⟨settled.sound.accounted, ?_⟩, settled.keyed, settled.entries⟩
      intro key member
      obtain ⟨entry, stored⟩ := InsertionMap.mem_keys_iff.mp member
      have before : TrackingHook.Tracks engine.hook key :=
        settled.sound.tracked key member
      rw [isAdaptive] at before
      rw [← settled.keyed key entry stored] at before ⊢
      exact tracks adaptive entry (InsertionMap.mem_values_iff.mpr ⟨key, stored⟩) before
  · exact settled
  · exact settled

theorem changeAdaptive_options (engine : StorageEngine Value ConfiguredHook)
    (change : AdaptiveEvictionEngine → AdaptiveEvictionEngine) :
    (engine.changeAdaptive change).options = engine.options := by
  unfold changeAdaptive
  split <;> rfl

variable [SizedValue Value]

/-- One operation. -/
def perform (engine : StorageEngine Value ConfiguredHook) :
    StorageAction Value → StorageEngine Value ConfiguredHook
  | .set now key value options => engine.afterSet now key value options
  | .get now key => (engine.get now key).2
  | .has now key => (engine.has now key).2
  | .delete key => (engine.delete key).2
  | .sweepExpired now => (engine.sweepExpired now).2
  | .clear => engine.clear
  | .evaluate now memoryUsageRatio =>
      engine.changeAdaptive fun adaptive =>
        adaptive.evaluate now memoryUsageRatio engine.entries
  | .forceSwitch now memoryUsageRatio policy reason =>
      engine.changeAdaptive fun adaptive =>
        adaptive.forceSwitch now memoryUsageRatio engine.entries policy reason
  | .getSignals memoryUsageRatio =>
      engine.changeAdaptive fun adaptive => (adaptive.getSignals memoryUsageRatio).2
  | .pauseAutoSwitch => engine.changeAdaptive AdaptiveEvictionEngine.pauseAutoSwitch
  | .resumeAutoSwitch => engine.changeAdaptive AdaptiveEvictionEngine.resumeAutoSwitch

/-- A write adds at most one entry. -/
theorem Settled.writeEntry_entries {engine : StorageEngine Value ConfiguredHook}
    (settled : engine.Settled) (now : Millis) (key : CacheKey) (value : Value)
    (options : SetOptions) {rounds : Nat} (positive : 1 ≤ rounds) :
    engine.options.maxEntries.exceededBy
      ((engine.writeEntry now key value options).store.size - rounds : Nat) = false := by
  apply Limit.exceededBy_anti _ settled.entries
  have atMostOneMore := engine.store.size_insert_le key
    (engine.nextEntry now key value options)
  rw [writeEntry_store]
  exact_mod_cast Nat.sub_le_of_le_add
    (atMostOneMore.trans (Nat.add_le_add_left positive engine.store.size))

theorem Settled.afterSet {engine : StorageEngine Value ConfiguredHook}
    (settled : engine.Settled) (now : Millis) (key : CacheKey) (value : Value)
    (options : SetOptions) : (engine.afterSet now key value options).Settled := by
  by_cases empty : key = ""
  · subst empty
    rw [afterSet_of_empty]
    exact settled
  · refine ⟨settled.sound.afterSet now key value options,
      settled.keyed.afterSet now key value options, ?_⟩
    rw [afterSet_options, afterSet_of_valid _ _ empty]
    apply (settled.sound.writeEntry now key value options).enforceCapacity_entries
    exact settled.writeEntry_entries now key value options (Nat.le_refl 1)

/-- Every operation keeps an engine settled. -/
theorem Settled.perform {engine : StorageEngine Value ConfiguredHook}
    (settled : engine.Settled) (action : StorageAction Value) :
    (engine.perform action).Settled := by
  cases action with
  | set now key value options => exact settled.afterSet now key value options
  | get now key =>
      apply settled.of_stored (kept_sound.afterGet settled.sound now key)
        (get_options engine now key)
      intro query after found
      exact get_stored found
  | has now key =>
      apply settled.of_kept (kept_sound.afterHas settled.sound now key)
        (has_options engine now key)
      intro query entry found
      exact has_stored found
  | delete key =>
      apply settled.of_kept (kept_sound.afterDelete settled.sound key)
        (delete_options engine key)
      intro query entry found
      rw [delete_get?] at found
      split at found
      · cases found
      · exact found
  | sweepExpired now =>
      apply settled.of_kept (kept_sound.afterSweepExpired settled.sound now)
        (sweepExpired_options engine now)
      intro query entry found
      exact sweepExpired_stored found
  | clear =>
      apply settled.of_kept Sound.clear rfl
      intro query entry found
      cases found
  | evaluate now memoryUsageRatio =>
      apply settled.changeAdaptive
      intro adaptive entry member tracked
      exact AdaptiveEvictionEngine.tracks_evaluate tracked member
  | forceSwitch now memoryUsageRatio policy reason =>
      apply settled.changeAdaptive
      intro adaptive entry member tracked
      exact AdaptiveEvictionEngine.tracks_forceSwitch tracked member
  | getSignals memoryUsageRatio =>
      apply settled.changeAdaptive
      intro adaptive entry member tracked
      exact tracked
  | pauseAutoSwitch =>
      apply settled.changeAdaptive
      intro adaptive entry member tracked
      exact tracked
  | resumeAutoSwitch =>
      apply settled.changeAdaptive
      intro adaptive entry member tracked
      exact tracked

theorem perform_options (engine : StorageEngine Value ConfiguredHook)
    (action : StorageAction Value) : (engine.perform action).options = engine.options := by
  cases action <;> simp [perform, changeAdaptive_options]

/-- The engine after any operations. -/
def reached (options : StorageEngineOptions) (hook : ConfiguredHook)
    (actions : List (StorageAction Value)) : StorageEngine Value ConfiguredHook :=
  run perform (create options hook) actions

theorem settled_reached (options : StorageEngineOptions) (hook : ConfiguredHook)
    (actions : List (StorageAction Value)) :
    (reached options hook actions).Settled :=
  run_invariant (fun _ action settled => settled.perform action)
    (settled_create options hook) actions

theorem reached_options (options : StorageEngineOptions) (hook : ConfiguredHook)
    (actions : List (StorageAction Value)) :
    (reached options hook actions).options = options := by
  apply @run_invariant _ _ perform (fun engine => engine.options = options)
  · intro engine action same
    rw [perform_options]
    exact same
  · rfl

/-- The bytes that are left of `n` entries when the hook has picked `n / 2 + 1`
victims. -/
def bytesAfterVictims (written : StorageEngine Value ConfiguredHook)
    (justWrittenKey : CacheKey) : Nat :=
  written.bytesWithout
    (evictionOrder justWrittenKey (written.store.size / 2 + 1) written.hook
      written.store.keys)

/-- With every hook, in every reachable state, a write with a valid key ends within
both caps exactly if the entries that are left when the hook has picked one victim more
than half of them, the new entry included, fit into `maxSizeBytes`. -/
theorem afterSet_withinCaps_iff (options : StorageEngineOptions) (hook : ConfiguredHook)
    (actions : List (StorageAction Value)) (now : Millis) {key : CacheKey}
    (valid : key ≠ "") (value : Value) (setOptions : SetOptions) :
    ((reached options hook actions).afterSet now key value setOptions).WithinCaps ↔
      options.maxSizeBytes.exceededBy
        (((reached options hook actions).writeEntry now key value
          setOptions).bytesAfterVictims key) = false := by
  have settled := settled_reached options hook actions
  have written := settled.sound.writeEntry now key value setOptions
  rw [afterSet_of_valid _ _ valid, written.enforceCapacity_withinCaps_iff, fitsAfter_iff,
    writeEntry_options, bytesAfterVictims]
  have entries := settled.writeEntry_entries now key value setOptions
    (Nat.le_add_left 1 (((reached options hook actions).writeEntry now key value
      setOptions).store.size / 2))
  rw [reached_options] at entries ⊢
  exact and_iff_right entries

/-! ## One large value after small ones -/

/-- Ten bytes, and any number of entries. -/
def tenBytes : StorageEngineOptions := ⟨.infinity, .finite 10, none⟩

/-- Two values of three bytes each. -/
def twoSmall : List (StorageAction Nat) :=
  [.set 0 "a" 111 ⟨none⟩, .set 0 "b" 222 ⟨none⟩]

/-- An attached `AdaptiveEvictionEngine` as the hook. -/
def adaptiveHook : ConfiguredHook := .inr (.inr (.create .default))

/-- A third value of five bytes displaces one of them. -/
theorem fiveBytes_withinCaps :
    ((reached tenBytes adaptiveHook twoSmall).afterSet 0 "c" 33333 ⟨none⟩).WithinCaps :=
  (afterSet_withinCaps_iff tenBytes adaptiveHook twoSmall 0 (by decide) 33333 ⟨none⟩).mpr
    (by decide +kernel)

/-- `FifoEvictionHook` as the hook. -/
def fifoHook : ConfiguredHook := .inl ⟨⟩

/-- A third value of eleven bytes displaces both of them and stays. -/
theorem elevenBytes_exceeds :
    ((reached tenBytes fifoHook twoSmall).afterSet 0 "c" 12345678901 ⟨none⟩).store.keys =
        ["c"] ∧
      ((reached tenBytes fifoHook twoSmall).afterSet 0 "c" 12345678901
        ⟨none⟩).totalSizeBytes = 11 ∧
      ¬((reached tenBytes fifoHook twoSmall).afterSet 0 "c" 12345678901
        ⟨none⟩).WithinCaps := by
  refine ⟨by decide +kernel, by decide +kernel, ?_⟩
  rw [withinCaps_iff]
  decide +kernel

end StorageEngine

end FlowCache
