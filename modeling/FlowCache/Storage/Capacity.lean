import Mathlib.Algebra.Order.BigOperators.Group.List
import Mathlib.Algebra.Order.Group.Nat
import FlowCache.Storage.Accounting
import FlowCache.Storage.Tracking

/-!
# Capacity enforcement

The loop of `enforceCapacity` counts its rounds against a store that shrinks with
every round, so it stops after `n / 2 + 1` rounds on `n` entries.  Along every
operation the engine's byte count is the sum over its entries and its hook tracks
them, so each round does evict, and whether the caps are met when the loop stops
depends only on what is left after that many victims.
-/

namespace FlowCache.StorageEngine

variable {Value Hook : Type}

/-- Neither cap is exceeded. -/
structure WithinCaps (engine : StorageEngine Value Hook) : Prop where
  entries : engine.options.maxEntries.exceededBy engine.store.size = false
  bytes : engine.options.maxSizeBytes.exceededBy engine.totalSizeBytes = false

/-- The bytes of the entries under other keys. -/
def bytesWithout (engine : StorageEngine Value Hook) (victims : List CacheKey) : Nat :=
  ((engine.store.entries.filter fun stored => stored.1 ∉ victims).map
    fun stored => stored.2.metadata.sizeBytes).sum

theorem withinCaps_iff {engine : StorageEngine Value Hook} :
    engine.WithinCaps ↔ engine.overCapacity = false := by
  rw [overCapacity, Bool.or_eq_false_iff]
  exact ⟨fun within => ⟨within.entries, within.bytes⟩, fun both => ⟨both.1, both.2⟩⟩

theorem bytesWithout_nil (engine : StorageEngine Value Hook) :
    engine.bytesWithout [] = engine.storedBytes := by
  simp [bytesWithout, storedBytes, InsertionMap.total]

theorem bytesWithout_le (engine : StorageEngine Value Hook) (victims : List CacheKey) :
    engine.bytesWithout victims ≤ engine.storedBytes :=
  (List.filter_sublist.map _).sum_le_sum (by simp)

theorem evictionCandidates_nonempty {engine : StorageEngine Value Hook}
    (positive : 0 < engine.store.size) (justWrittenKey : CacheKey) :
    ∃ key ∈ engine.store.keys, key ∈ engine.evictionCandidates justWrittenKey := by
  by_cases single : engine.store.size = 1
  · obtain ⟨key, member⟩ := List.exists_mem_of_length_pos
      (show 0 < engine.store.keys.length by simpa using positive)
    exact ⟨key, member, List.mem_filter.mpr ⟨member, by simp [single]⟩⟩
  · have several : ∃ key ∈ engine.store.keys, key ≠ justWrittenKey := by
      by_contra none
      have same : ∀ key ∈ engine.store.keys, key = justWrittenKey := by
        intro key member
        by_contra different
        exact none ⟨key, member, different⟩
      have distinct := engine.store.keys_nodup
      rw [List.eq_replicate_of_mem same, List.nodup_replicate, InsertionMap.keys_length]
        at distinct
      omega
    obtain ⟨key, member, different⟩ := several
    exact ⟨key, member, List.mem_filter.mpr ⟨member, by simp [different]⟩⟩

theorem evictionCandidates_eq (engine : StorageEngine Value Hook)
    (justWrittenKey : CacheKey) :
    engine.evictionCandidates justWrittenKey = engine.store.keys.filter fun key =>
      key ≠ justWrittenKey || engine.store.keys.length = 1 := by
  rw [InsertionMap.keys_length]
  rfl

variable [EvictionHook Hook]

/-- The first keys a hook gives up when it is asked again and again, each time
without the key just written as long as there is another one. -/
def evictionOrder (justWrittenKey : CacheKey) :
    (count : Nat) → Hook → List CacheKey → List CacheKey
  | 0, _, _ => []
  | count + 1, hook, keys =>
      match EvictionHook.selectVictim hook
          (keys.filter fun key => key ≠ justWrittenKey || keys.length = 1) with
      | none => []
      | some victim =>
          victim :: evictionOrder justWrittenKey count
            (EvictionHook.onStorageEvent (EvictionHook.recordRemoval hook victim) .evict
              victim)
            (keys.filter (· ≠ victim))

/-- The caps are met by what is left after a number of victims. -/
@[mk_iff]
structure FitsAfter (engine : StorageEngine Value Hook) (justWrittenKey : CacheKey)
    (rounds : Nat) : Prop where
  entries : engine.options.maxEntries.exceededBy (engine.store.size - rounds : Nat) = false
  bytes : engine.options.maxSizeBytes.exceededBy
    (engine.bytesWithout
      (evictionOrder justWrittenKey rounds engine.hook engine.store.keys)) = false

theorem evict_hook {engine : StorageEngine Value Hook} {victim : CacheKey}
    (stored : victim ∈ engine.store.keys) :
    (engine.evict victim).hook =
      EvictionHook.onStorageEvent (EvictionHook.recordRemoval engine.hook victim) .evict
        victim := by
  obtain ⟨entry, found⟩ := InsertionMap.mem_keys_iff.mp stored
  simp [evict, removeInternal, found, emit, RemovalReason.event]

theorem evict_bytesWithout {engine : StorageEngine Value Hook} {victim : CacheKey}
    (stored : victim ∈ engine.store.keys) (victims : List CacheKey) :
    (engine.evict victim).bytesWithout victims =
      engine.bytesWithout (victim :: victims) := by
  rw [bytesWithout, evict_store, removeInternal_store _ _ _ stored, bytesWithout]
  simp only [InsertionMap.erase, List.filter_filter]
  congr 2
  apply List.filter_congr
  intro entry _
  simp [Bool.and_comm]

/-- One round takes the first victim away. -/
theorem fitsAfter_succ_iff {engine : StorageEngine Value Hook}
    {justWrittenKey victim : CacheKey} {rounds : Nat} (stored : victim ∈ engine.store.keys)
    (selected : EvictionHook.selectVictim engine.hook
      (engine.evictionCandidates justWrittenKey) = some victim) :
    engine.FitsAfter justWrittenKey (rounds + 1) ↔
      (engine.evict victim).FitsAfter justWrittenKey rounds := by
  have size : engine.store.size - (rounds + 1) =
      (engine.evict victim).store.size - rounds := by
    rw [evict_store, removeInternal_store _ _ _ stored,
      ← InsertionMap.size_erase_of_mem stored]
    omega
  have bytes : engine.bytesWithout
      (evictionOrder justWrittenKey (rounds + 1) engine.hook engine.store.keys) =
      (engine.evict victim).bytesWithout
        (evictionOrder justWrittenKey rounds (engine.evict victim).hook
          (engine.evict victim).store.keys) := by
    rw [evict_bytesWithout stored, evict_hook stored, evict_store,
      removeInternal_store _ _ _ stored, InsertionMap.keys_erase, evictionOrder,
      ← evictionCandidates_eq, selected]
  rw [fitsAfter_iff, fitsAfter_iff, size, bytes, evict_options]

theorem removeInternal_size_le (engine : StorageEngine Value Hook) (key : CacheKey)
    (reason : RemovalReason) :
    (engine.removeInternal key reason).store.size ≤ engine.store.size := by
  cases found : engine.store.get? key with
  | none => rw [removeInternal_of_absent found]
  | some entry =>
      rw [removeInternal_store _ _ _ (InsertionMap.mem_keys_of_get? found)]
      exact List.length_filter_le _ _

theorem enforceCapacityLoop_size_le (justWrittenKey : CacheKey) (fuel guard : Nat)
    (engine : StorageEngine Value Hook) :
    (enforceCapacityLoop justWrittenKey fuel guard engine).store.size ≤
      engine.store.size := by
  induction fuel generalizing guard engine with
  | zero => exact Nat.le_refl _
  | succ fuel ih =>
      simp only [enforceCapacityLoop]
      split
      · split
        · exact Nat.le_refl _
        · next victim _ =>
            exact (ih _ _).trans (engine.removeInternal_size_le victim .evict)
      · exact Nat.le_refl _

variable [TrackingHook Hook]

/-- The byte count is the sum over the entries, and the hook tracks their keys. -/
structure Sound (engine : StorageEngine Value Hook) : Prop where
  accounted : engine.totalSizeBytes = engine.storedBytes
  tracked : ∀ key ∈ engine.store.keys, TrackingHook.Tracks engine.hook key

theorem sound_create (options : StorageEngineOptions) (hook : Hook) :
    (create options hook : StorageEngine Value Hook).Sound where
  accounted := rfl
  tracked := by
    intro key impossible
    cases impossible

theorem Sound.clear {engine : StorageEngine Value Hook} : engine.clear.Sound where
  accounted := rfl
  tracked := by
    intro key impossible
    cases impossible

/-! ## Every operation keeps an engine sound -/

theorem Sound.emit {engine : StorageEngine Value Hook} (sound : engine.Sound)
    (event : StorageEngineEvent) (key : CacheKey) : (engine.emit event key).Sound where
  accounted := sound.accounted
  tracked := by
    intro query stored
    apply TrackingHook.onStorageEvent_keeps
    exact sound.tracked query stored

theorem Sound.removeInternal {engine : StorageEngine Value Hook} (sound : engine.Sound)
    (key : CacheKey) (reason : RemovalReason) :
    (engine.removeInternal key reason).Sound := by
  refine ⟨Accounted.removeInternal sound.accounted key reason, ?_⟩
  cases found : engine.store.get? key with
  | none =>
      rw [removeInternal_of_absent found]
      exact sound.tracked
  | some entry =>
      intro query stored
      simp only [StorageEngine.removeInternal, found] at stored ⊢
      apply TrackingHook.onStorageEvent_keeps
      obtain ⟨different, before⟩ := InsertionMap.mem_keys_erase.mp stored
      apply TrackingHook.recordRemoval_keeps _ different
      exact sound.tracked query before

theorem Sound.recordHit {engine : StorageEngine Value Hook} (sound : engine.Sound)
    (now : Millis) {key : CacheKey} {entry : CacheEntry Value}
    (found : engine.store.get? key = some entry) :
    (engine.recordHit now key entry).Sound := by
  refine ⟨Accounted.recordHit sound.accounted now found, ?_⟩
  intro query stored
  rw [StorageEngine.recordHit, emit_store,
    InsertionMap.keys_insert_of_mem (InsertionMap.mem_keys_of_get? found)] at stored
  apply TrackingHook.onStorageEvent_keeps
  apply TrackingHook.recordAccess_keeps
  exact sound.tracked query stored

theorem Sound.evict {engine : StorageEngine Value Hook} (sound : engine.Sound)
    (victim : CacheKey) : (engine.evict victim).Sound :=
  ⟨(sound.removeInternal victim .evict).accounted,
    (sound.removeInternal victim .evict).tracked⟩

theorem kept_sound : KeptWithoutWrites (Sound : StorageEngine Value Hook → Prop) where
  miss _ key sound := by
    apply Sound.emit
    exact ⟨sound.accounted, sound.tracked⟩
  hit _ now _ _ found sound := sound.recordHit now found
  expire _ key _ sound := sound.removeInternal key .expire
  delete engine key _ sound := by
    unfold StorageEngine.delete
    split
    · exact ⟨(sound.removeInternal key .delete).accounted,
        (sound.removeInternal key .delete).tracked⟩
    · exact sound
  evict _ key _ sound := sound.evict key

theorem victimsAreCandidates : VictimsAreCandidates Hook :=
  fun hook _ _ selected => TrackingHook.mem_of_selectVictim hook selected

section Writes

variable [SizedValue Value]

theorem Sound.writeEntry {engine : StorageEngine Value Hook} (sound : engine.Sound)
    (now : Millis) (key : CacheKey) (value : Value) (options : SetOptions) :
    (engine.writeEntry now key value options).Sound := by
  refine ⟨Accounted.writeEntry sound.accounted now key value options, ?_⟩
  intro query stored
  rw [writeEntry_store] at stored
  apply TrackingHook.onStorageEvent_keeps
  rcases InsertionMap.mem_keys_insert.mp stored with rfl | before
  · exact TrackingHook.tracks_recordWrite _ _
  · exact TrackingHook.recordWrite_keeps _ _ (sound.tracked query before)

theorem Sound.afterSet {engine : StorageEngine Value Hook} (sound : engine.Sound)
    (now : Millis) (key : CacheKey) (value : Value) (options : SetOptions) :
    (engine.afterSet now key value options).Sound := by
  apply kept_sound.afterSet victimsAreCandidates sound
  intro _
  exact sound.writeEntry now key value options

end Writes

/-! ## The eviction loop -/

/-- A sound engine with an entry left has a victim, and it is stored. -/
theorem Sound.exists_victim {engine : StorageEngine Value Hook} (sound : engine.Sound)
    (positive : 0 < engine.store.size) (justWrittenKey : CacheKey) :
    ∃ victim ∈ engine.store.keys,
      EvictionHook.selectVictim engine.hook (engine.evictionCandidates justWrittenKey) =
        some victim := by
  obtain ⟨key, member, candidate⟩ := evictionCandidates_nonempty positive justWrittenKey
  have found := TrackingHook.selectVictim_isSome engine.hook (sound.tracked key member)
    candidate
  obtain ⟨victim, selected⟩ := Option.isSome_iff_exists.mp found
  have offered := TrackingHook.mem_of_selectVictim engine.hook selected
  exact ⟨victim, (List.mem_filter.mp offered).1, selected⟩

/-- An empty store is within every cap. -/
theorem Sound.withinCaps_of_empty {engine : StorageEngine Value Hook}
    (sound : engine.Sound) (empty : engine.store.size = 0) : engine.WithinCaps := by
  have noEntries : engine.store.entries = [] := List.length_eq_zero_iff.mp empty
  have noBytes : engine.totalSizeBytes = 0 := by
    rw [sound.accounted, storedBytes, InsertionMap.total, noEntries]
    rfl
  constructor
  · rw [empty]
    cases engine.options.maxEntries <;> simp [Limit.exceededBy]
  · rw [noBytes]
    cases engine.options.maxSizeBytes <;> simp [Limit.exceededBy]

theorem Sound.fitsAfter_zero_iff {engine : StorageEngine Value Hook}
    (sound : engine.Sound) {justWrittenKey : CacheKey} :
    engine.FitsAfter justWrittenKey 0 ↔ engine.WithinCaps := by
  have bytes : (engine.bytesWithout
      (evictionOrder justWrittenKey 0 engine.hook engine.store.keys) : Int) =
      engine.totalSizeBytes := by
    rw [evictionOrder, bytesWithout_nil, sound.accounted]
  rw [fitsAfter_iff, bytes, Nat.sub_zero]
  exact ⟨fun both => ⟨both.1, both.2⟩, fun within => ⟨within.entries, within.bytes⟩⟩

/-- What is within the caps stays within them while entries are taken away. -/
theorem WithinCaps.fitsAfter {engine : StorageEngine Value Hook}
    (within : engine.WithinCaps) (sound : engine.Sound) (justWrittenKey : CacheKey)
    (rounds : Nat) : engine.FitsAfter justWrittenKey rounds := by
  constructor
  · apply Limit.exceededBy_anti _ within.entries
    exact_mod_cast Nat.sub_le engine.store.size rounds
  · apply Limit.exceededBy_anti _ within.bytes
    rw [sound.accounted]
    exact_mod_cast engine.bytesWithout_le _

/-- The loop started with a guard allows for the rounds that bring the guard above
the number of entries that are left.  When it stops, the caps are met exactly if they
are met after all these rounds. -/
theorem Sound.enforceCapacityLoop_withinCaps_iff {justWrittenKey : CacheKey}
    {fuel guard : Nat} {engine : StorageEngine Value Hook} (sound : engine.Sound)
    (enough : (engine.store.size + 2 - guard) / 2 ≤ fuel) :
    (StorageEngine.enforceCapacityLoop justWrittenKey fuel guard engine).WithinCaps ↔
      engine.FitsAfter justWrittenKey ((engine.store.size + 2 - guard) / 2) := by
  induction fuel generalizing guard engine with
  | zero =>
      rw [Nat.le_zero.mp enough]
      exact sound.fitsAfter_zero_iff.symm
  | succ fuel ih =>
      rw [StorageEngine.enforceCapacityLoop]
      cases exceeding : engine.overCapacity with
      | false =>
          have within := withinCaps_iff.mpr exceeding
          simp only [Bool.false_and, Bool.false_eq_true, if_false]
          exact ⟨fun _ => within.fitsAfter sound _ _, fun _ => within⟩
      | true =>
          have positive : 0 < engine.store.size := by
            apply Nat.pos_of_ne_zero
            intro empty
            rw [withinCaps_iff.mp (sound.withinCaps_of_empty empty)] at exceeding
            cases exceeding
          obtain ⟨victim, stored, selected⟩ := sound.exists_victim positive justWrittenKey
          have smaller : (engine.evict victim).store.size + 1 = engine.store.size := by
            rw [evict_store, removeInternal_store _ _ _ stored]
            exact InsertionMap.size_erase_of_mem stored
          by_cases guarded : guard < engine.store.size + 1
          · have fewer : (engine.store.size + 2 - guard) / 2 =
                ((engine.evict victim).store.size + 2 - (guard + 1)) / 2 + 1 := by
              omega
            simp only [guarded, decide_true, Bool.and_self, if_true, selected]
            rw [fewer, fitsAfter_succ_iff stored selected]
            apply ih (sound.evict victim)
            omega
          · have none : (engine.store.size + 2 - guard) / 2 = 0 := by
              omega
            simp only [guarded, decide_false, Bool.and_false, Bool.false_eq_true, if_false]
            rw [none]
            exact sound.fitsAfter_zero_iff.symm

/-- `enforceCapacity` meets the caps exactly if they are met by what is left when the
hook has picked one victim more than half of the entries. -/
theorem Sound.enforceCapacity_withinCaps_iff {engine : StorageEngine Value Hook}
    (sound : engine.Sound) (justWrittenKey : CacheKey) :
    (engine.enforceCapacity justWrittenKey).WithinCaps ↔
      engine.FitsAfter justWrittenKey (engine.store.size / 2 + 1) := by
  have rounds : (engine.store.size + 2 - 0) / 2 = engine.store.size / 2 + 1 := by
    omega
  rw [← rounds]
  apply sound.enforceCapacityLoop_withinCaps_iff
  omega

/-- The first round is never refused, so an engine with one entry too many ends
within `maxEntries`. -/
theorem Sound.enforceCapacity_entries {engine : StorageEngine Value Hook}
    (sound : engine.Sound) (justWrittenKey : CacheKey)
    (almost : engine.options.maxEntries.exceededBy (engine.store.size - 1 : Nat) = false) :
    engine.options.maxEntries.exceededBy
      (engine.enforceCapacity justWrittenKey).store.size = false := by
  cases exceeding : engine.overCapacity with
  | false =>
      rw [enforceCapacity_of_within exceeding]
      exact (withinCaps_iff.mpr exceeding).entries
  | true =>
      by_cases positive : 0 < engine.store.size
      · obtain ⟨victim, stored, selected⟩ := sound.exists_victim positive justWrittenKey
        have smaller : (engine.evict victim).store.size = engine.store.size - 1 := by
          rw [evict_store, removeInternal_store _ _ _ stored,
            ← InsertionMap.size_erase_of_mem stored]
          rfl
        have bounded : (engine.enforceCapacity justWrittenKey).store.size ≤
            engine.store.size - 1 := by
          rw [enforceCapacity, StorageEngine.enforceCapacityLoop, exceeding, selected]
          simp only [Nat.zero_lt_succ, decide_true, Bool.and_self, if_true]
          rw [← smaller]
          exact enforceCapacityLoop_size_le _ _ _ _
        apply Limit.exceededBy_anti _ almost
        exact_mod_cast bounded
      · have empty : engine.store.size = 0 := Nat.eq_zero_of_not_pos positive
        rw [withinCaps_iff.mp (sound.withinCaps_of_empty empty)] at exceeding
        cases exceeding

end FlowCache.StorageEngine
