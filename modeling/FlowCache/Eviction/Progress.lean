import FlowCache.Eviction.Capacity

/-!
# Every eviction makes progress

The calls of `selectVictim` that one `set` makes, each with the state it is made in.
Whatever happened before to an engine attached to an `AdaptiveEvictionEngine`, each call
names a stored key, and the key just written is named only when it is the last one left
and exceeds a cap on its own.
-/

namespace FlowCache.StorageEngine

variable {Value Hook : Type}

/-- A call of `selectVictim`: the engine it is made in and what it returns. -/
structure VictimCall (Value Hook : Type) where
  engine : StorageEngine Value Hook
  returned : Option CacheKey

/-- During the loop the key just written is stored, or nothing is. -/
structure Enforcing (engine : StorageEngine Value Hook) (options : StorageEngineOptions)
    (justWrittenKey : CacheKey) (sizeBytes : Nat) : Prop where
  options_eq : engine.options = options
  written : (∃ entry, engine.store.get? justWrittenKey = some entry ∧
    entry.metadata.sizeBytes = sizeBytes) ∨ engine.store.size = 0

/-- The key just written is offered only when it is the last one. -/
theorem keys_of_justWritten_offered {engine : StorageEngine Value Hook}
    {justWrittenKey : CacheKey}
    (offered : justWrittenKey ∈ engine.evictionCandidates justWrittenKey) :
    engine.store.keys = [justWrittenKey] := by
  obtain ⟨stored, alone⟩ := List.mem_filter.mp offered
  have single : engine.store.keys.length = 1 := by
    rw [InsertionMap.keys_length]
    simpa using alone
  obtain ⟨key, keys⟩ := List.length_eq_one_iff.mp single
  rw [keys, List.mem_singleton] at stored
  rw [keys, stored]

variable [EvictionHook Hook]

/-- `enforceCapacityLoop` with the calls it makes. -/
def tracedCapacityLoop (justWrittenKey : CacheKey) :
    (fuel guard : Nat) → StorageEngine Value Hook →
      List (VictimCall Value Hook) × StorageEngine Value Hook
  | 0, _, engine => ([], engine)
  | fuel + 1, guard, engine =>
      if engine.overCapacity && guard < engine.store.size + 1 then
        match EvictionHook.selectVictim engine.hook
            (engine.evictionCandidates justWrittenKey) with
        | none => ([⟨engine, none⟩], engine)
        | some victim =>
            let traced :=
              tracedCapacityLoop justWrittenKey fuel (guard + 1) (engine.evict victim)
            (⟨engine, some victim⟩ :: traced.1, traced.2)
      else
        ([], engine)

theorem tracedCapacityLoop_snd (justWrittenKey : CacheKey) (fuel guard : Nat)
    (engine : StorageEngine Value Hook) :
    (tracedCapacityLoop justWrittenKey fuel guard engine).2 =
      enforceCapacityLoop justWrittenKey fuel guard engine := by
  induction fuel generalizing guard engine with
  | zero => rfl
  | succ fuel ih =>
      rw [tracedCapacityLoop, enforceCapacityLoop]
      split
      · cases EvictionHook.selectVictim engine.hook
            (engine.evictionCandidates justWrittenKey) with
        | none => rfl
        | some victim => exact ih (guard + 1) (engine.evict victim)
      · rfl

/-- `set` with the calls it makes. -/
def tracedSet [SizedValue Value] (engine : StorageEngine Value Hook) (now : Millis)
    (key : CacheKey) (value : Value) (options : SetOptions) :
    List (VictimCall Value Hook) × StorageEngine Value Hook :=
  if key = "" then ([], engine)
  else
    let written := engine.writeEntry now key value options
    tracedCapacityLoop key (written.store.size + 1) 0 written

theorem tracedSet_snd [SizedValue Value] (engine : StorageEngine Value Hook)
    (now : Millis) (key : CacheKey) (value : Value) (options : SetOptions) :
    (engine.tracedSet now key value options).2 =
      engine.afterSet now key value options := by
  rw [tracedSet]
  split
  · next empty =>
      subst empty
      rw [afterSet_of_empty]
  · next valid =>
      rw [afterSet_of_valid _ _ valid]
      exact tracedCapacityLoop_snd ..

/-! ## What the loop keeps -/

theorem Enforcing.evict {engine : StorageEngine Value Hook}
    {options : StorageEngineOptions} {justWrittenKey victim : CacheKey} {sizeBytes : Nat}
    (enforcing : engine.Enforcing options justWrittenKey sizeBytes)
    (stored : victim ∈ engine.store.keys)
    (alone : victim = justWrittenKey → engine.store.keys = [justWrittenKey]) :
    (engine.evict victim).Enforcing options justWrittenKey sizeBytes where
  options_eq := by rw [evict_options, enforcing.options_eq]
  written := by
    have fewer := removeInternal_size stored .evict
    rw [evict_store]
    by_cases same : victim = justWrittenKey
    · right
      have single : engine.store.size = 1 := by
        rw [← InsertionMap.keys_length, alone same, List.length_singleton]
      omega
    · rcases enforcing.written with ⟨entry, found, size⟩ | empty
      · refine .inl ⟨entry, ?_, size⟩
        rw [removeInternal_get?, if_neg (Ne.symm same)]
        exact found
      · omega

theorem enforcing_writeEntry [SizedValue Value] (engine : StorageEngine Value Hook)
    (now : Millis) (key : CacheKey) (value : Value) (options : SetOptions) :
    (engine.writeEntry now key value options).Enforcing engine.options key
      (SizedValue.approximateSizeBytes value) where
  options_eq := rfl
  written := by
    refine .inl ⟨engine.nextEntry now key value options, ?_, ?_⟩
    · rw [writeEntry_store, InsertionMap.get?_insert_self]
    · exact nextEntry_sizeBytes engine now key value options

/-- What a call of `selectVictim` returns: a stored key, and the key just written only
when it is the last one and exceeds a cap on its own. -/
structure VictimCall.Progresses (call : VictimCall Value Hook)
    (options : StorageEngineOptions) (justWrittenKey : CacheKey) (sizeBytes : Nat) :
    Prop where
  stored : ∃ victim, call.returned = some victim ∧ victim ∈ call.engine.store.keys
  justWritten : call.returned = some justWrittenKey →
    call.engine.store.keys = [justWrittenKey] ∧
      (options.maxEntries.exceededBy 1 = true ∨
        options.maxSizeBytes.exceededBy sizeBytes = true)

variable [TrackingHook Hook]

/-- An engine over its caps with the last entry only: this entry exceeds one. -/
theorem Sound.exceeds_alone {engine : StorageEngine Value Hook} (sound : engine.Sound)
    {key : CacheKey} {entry : CacheEntry Value}
    (found : engine.store.get? key = some entry) (alone : engine.store.keys = [key])
    (exceeding : engine.overCapacity = true) :
    engine.options.maxEntries.exceededBy 1 = true ∨
      engine.options.maxSizeBytes.exceededBy entry.metadata.sizeBytes = true := by
  have single : engine.store.size = 1 := by
    rw [← InsertionMap.keys_length, alone, List.length_singleton]
  have erased := InsertionMap.total_erase
    (fun entry : CacheEntry Value => entry.metadata.sizeBytes) found
  have nothing : (engine.store.erase key).entries = [] := by
    apply List.eq_nil_of_length_eq_zero
    have fewer := InsertionMap.size_erase_of_mem (InsertionMap.mem_keys_of_get? found)
    rw [single] at fewer
    exact Nat.succ.inj fewer
  have bytes : engine.totalSizeBytes = entry.metadata.sizeBytes := by
    rw [sound.accounted, storedBytes, ← erased, InsertionMap.total, nothing]
    simp
  rw [overCapacity, single, bytes, Bool.or_eq_true] at exceeding
  exact exceeding

/-- One call in a sound engine over its caps. -/
theorem Sound.exists_progress {engine : StorageEngine Value Hook} (sound : engine.Sound)
    {options : StorageEngineOptions} {justWrittenKey : CacheKey} {sizeBytes : Nat}
    (enforcing : engine.Enforcing options justWrittenKey sizeBytes)
    (exceeding : engine.overCapacity = true) :
    ∃ victim, EvictionHook.selectVictim engine.hook
        (engine.evictionCandidates justWrittenKey) = some victim ∧
      victim ∈ engine.store.keys ∧
      (victim = justWrittenKey → engine.store.keys = [justWrittenKey]) ∧
      VictimCall.Progresses ⟨engine, some victim⟩ options justWrittenKey sizeBytes := by
  have occupied : engine.store.size ≠ 0 := by
    intro empty
    rw [withinCaps_iff.mp (sound.withinCaps_of_empty empty)] at exceeding
    cases exceeding
  obtain ⟨entry, found, size⟩ := enforcing.written.resolve_right occupied
  obtain ⟨victim, stored, selected⟩ :=
    sound.exists_victim (Nat.pos_of_ne_zero occupied) justWrittenKey
  have alone : victim = justWrittenKey → engine.store.keys = [justWrittenKey] := by
    rintro rfl
    exact keys_of_justWritten_offered (victimsAreCandidates _ _ _ selected)
  refine ⟨victim, selected, stored, alone, ⟨⟨victim, rfl, stored⟩, ?_⟩⟩
  intro same
  have last := alone (Option.some.inj same)
  refine ⟨last, ?_⟩
  rw [← enforcing.options_eq, ← size]
  exact sound.exceeds_alone found last exceeding

/-- Every call of the loop. -/
theorem Sound.tracedCapacityLoop_progresses {engine : StorageEngine Value Hook}
    (sound : engine.Sound) {options : StorageEngineOptions} {justWrittenKey : CacheKey}
    {sizeBytes : Nat} (enforcing : engine.Enforcing options justWrittenKey sizeBytes)
    (fuel guard : Nat) :
    ∀ call ∈ (tracedCapacityLoop justWrittenKey fuel guard engine).1,
      call.Progresses options justWrittenKey sizeBytes := by
  induction fuel generalizing guard engine with
  | zero => simp [tracedCapacityLoop]
  | succ fuel ih =>
      rw [tracedCapacityLoop]
      split
      · next continues =>
          rw [Bool.and_eq_true] at continues
          obtain ⟨victim, selected, stored, alone, progresses⟩ :=
            sound.exists_progress enforcing continues.1
          rw [selected]
          intro call member
          rcases List.mem_cons.mp member with rfl | later
          · exact progresses
          · exact ih (sound.evict victim) (enforcing.evict stored alone) _ call later
      · simp

/-- In every state an engine attached to an `AdaptiveEvictionEngine` can reach, with
policies switched at any time, every call of `selectVictim` that a `set` makes returns a
stored key, and it returns the key just written only when that is the sole entry and
exceeds a cap on its own. -/
theorem eviction_makes_progress [SizedValue Value] (options : StorageEngineOptions)
    (adaptive : AdaptiveEvictionEngine) (actions : List (StorageAction Value))
    (now : Millis) (key : CacheKey) (value : Value) (setOptions : SetOptions) :
    ((reached options (.inr (.inr adaptive)) actions).tracedSet now key value
        setOptions).2 =
      (reached options (.inr (.inr adaptive)) actions).afterSet now key value setOptions ∧
    ∀ call ∈ ((reached options (.inr (.inr adaptive)) actions).tracedSet now key value
        setOptions).1,
      (∃ victim, call.returned = some victim ∧ victim ∈ call.engine.store.keys) ∧
      (call.returned = some key → call.engine.store.keys = [key] ∧
        (options.maxEntries.exceededBy 1 = true ∨
          options.maxSizeBytes.exceededBy (SizedValue.approximateSizeBytes value) =
            true)) := by
  refine ⟨tracedSet_snd .., ?_⟩
  intro call member
  rw [tracedSet] at member
  split at member
  · cases member
  · have settled := settled_reached options (.inr (.inr adaptive)) actions
    have enforcing := enforcing_writeEntry
      (reached options (.inr (.inr adaptive)) actions) now key value setOptions
    rw [reached_options] at enforcing
    have progresses := (settled.sound.writeEntry now key value
      setOptions).tracedCapacityLoop_progresses enforcing _ _ call member
    exact ⟨progresses.stored, progresses.justWritten⟩

end FlowCache.StorageEngine
