import FlowCache.Library.ExpiringMap
import FlowCache.Storage.Expiration

/-!
# The storage engine as a cache of a map

What the engine is for: `set` binds a key to a value and a deadline, `delete` and `clear`
unbind, and the reads show what is bound and not past its deadline.  With any hook and any
caps, the engine is a cache of this map; it forgets nothing that is still visible unless
it evicts.
-/

namespace FlowCache

open Transition ExpiringMap

/-- The value and the deadline of an entry. -/
def CacheEntry.binding {Value : Type} (entry : CacheEntry Value) : Binding Value Millis :=
  ⟨entry.value, entry.metadata.expiresAt⟩

theorem CacheEntry.live_binding {Value : Type} (entry : CacheEntry Value) (now : Millis) :
    entry.binding.live now = !entry.metadata.isExpired now := by
  unfold Binding.live CacheMetadata.isExpired CacheEntry.binding
  cases entry.metadata.expiresAt with
  | none => rfl
  | some deadline => simp [← decide_not]

theorem CacheEntry.SameContent.binding_eq {Value : Type} {left right : CacheEntry Value}
    (same : CacheEntry.SameContent left right) : left.binding = right.binding := by
  rw [CacheEntry.binding, CacheEntry.binding, same.value, same.expiresAt]

/-- What a call asks the map to do. -/
def EntryCall.update {Value : Type} (defaultTtlMs : Option Millis) (call : EntryCall Value) :
    Option (Update CacheKey Value Millis) :=
  match call.operation with
  | .set key value options =>
      if key = "" then none
      else some (.bind key ⟨value, (options.ttlMs.getD defaultTtlMs).map (call.now + ·)⟩)
  | .delete key => some (.unbind key)
  | .clear => some .clear
  | .get _ | .peek _ | .has _ | .sweepExpired => none

/-- What a list of calls asks the map to do. -/
def updatesOf {Value : Type} (defaultTtlMs : Option Millis) (calls : List (EntryCall Value)) :
    List (Update CacheKey Value Millis) :=
  calls.filterMap (EntryCall.update defaultTtlMs)

theorem updatesOf_cons {Value : Type} (defaultTtlMs : Option Millis) (call : EntryCall Value)
    (rest : List (EntryCall Value)) :
    updatesOf defaultTtlMs (call :: rest) =
      (call.update defaultTtlMs).toList ++ updatesOf defaultTtlMs rest := by
  cases asked : call.update defaultTtlMs <;> simp [updatesOf, asked]

/-- The operation decides anew what its map binds to the key. -/
def EntryOperation.Decides {Value : Type} (key : CacheKey) : EntryOperation Value → Prop
  | .set written _ _ => written = key
  | .delete removed => removed = key
  | .clear => True
  | .get _ | .peek _ | .has _ | .sweepExpired => False

/-- The value was written under the key, with this deadline, by the last call that decides
what is bound to it. -/
def LastWritten {Value : Type} (defaultTtlMs : Option Millis) (calls : List (EntryCall Value))
    (key : CacheKey) (binding : Binding Value Millis) : Prop :=
  ∃ earlier now options later,
    calls = earlier ++ ⟨now, .set key binding.value options⟩ :: later ∧ key ≠ "" ∧
      binding.expiresAt = (options.ttlMs.getD defaultTtlMs).map (now + ·) ∧
      ∀ call ∈ later, ¬ call.operation.Decides key

theorem EntryCall.update_eq_bind_iff {Value : Type} {defaultTtlMs : Option Millis}
    {call : EntryCall Value} {key : CacheKey} {binding : Binding Value Millis} :
    call.update defaultTtlMs = some (.bind key binding) ↔
      ∃ options, call.operation = .set key binding.value options ∧ key ≠ "" ∧
        binding.expiresAt = (options.ttlMs.getD defaultTtlMs).map (call.now + ·) := by
  obtain ⟨now, operation⟩ := call
  obtain ⟨bound, expiresAt⟩ := binding
  cases operation with
  | set written value options =>
      by_cases empty : written = ""
      · subst empty
        simp only [update, if_true, EntryOperation.set.injEq]
        constructor
        · intro impossible
          cases impossible
        · rintro ⟨_, ⟨rfl, _⟩, nonempty, _⟩
          exact absurd rfl nonempty
      · simp only [update, empty, if_false, Option.some.injEq, Update.bind.injEq,
          Binding.mk.injEq, EntryOperation.set.injEq]
        constructor
        · rintro ⟨rfl, rfl, rfl⟩
          exact ⟨options, ⟨rfl, rfl, rfl⟩, empty, rfl⟩
        · rintro ⟨_, ⟨rfl, rfl, rfl⟩, _, rfl⟩
          exact ⟨rfl, rfl, rfl⟩
  | get _ | peek _ | has _ | delete _ | sweepExpired | clear => simp [update]

/-- For a key that can be stored, deciding is touching its binding. -/
theorem EntryCall.decides_iff {Value : Type} (defaultTtlMs : Option Millis)
    (call : EntryCall Value) {key : CacheKey} (valid : key ≠ "") :
    call.operation.Decides key ↔
      ∃ update ∈ call.update defaultTtlMs, update.Touches key := by
  obtain ⟨now, operation⟩ := call
  cases operation with
  | set written value options =>
      by_cases empty : written = ""
      · subst empty
        simp [EntryOperation.Decides, update, Ne.symm valid]
      · simp [EntryOperation.Decides, update, empty, Update.Touches]
  | get _ | peek _ | has _ | delete _ | sweepExpired | clear =>
      simp [EntryOperation.Decides, update, Update.Touches]

/-- The map of a list of calls binds to a key what was last written under it. -/
theorem bound_iff_lastWritten {Value : Type} {defaultTtlMs : Option Millis}
    {calls : List (EntryCall Value)} {key : CacheKey} {binding : Binding Value Millis} :
    nothing.applyAll (updatesOf defaultTtlMs calls) key = some binding ↔
      LastWritten defaultTtlMs calls key binding := by
  rw [applyAll_nothing_eq_some_iff, updatesOf]
  constructor
  · rintro ⟨earlier, later, split, untouched⟩
    obtain ⟨before, rest, rfl, rfl, found⟩ := List.filterMap_eq_append_iff.mp split
    obtain ⟨skipped, call, after, rfl, none_asked, asked, rfl⟩ :=
      List.filterMap_eq_cons_iff.mp found
    obtain ⟨options, operation, valid, deadline⟩ :=
      EntryCall.update_eq_bind_iff.mp asked
    obtain ⟨now, _⟩ := call
    cases operation
    refine ⟨before ++ skipped, now, options, after, by simp, valid, deadline, ?_⟩
    intro other member decides
    obtain ⟨update, updates, touches⟩ := (other.decides_iff defaultTtlMs valid).mp decides
    exact untouched update (List.mem_filterMap.mpr ⟨other, member, updates⟩) touches
  · rintro ⟨earlier, now, options, later, rfl, valid, deadline, undecided⟩
    have asked := EntryCall.update_eq_bind_iff.mpr
      (show ∃ _, (⟨now, .set key binding.value options⟩ : EntryCall Value).operation = _ ∧ _
        from ⟨options, rfl, valid, deadline⟩)
    refine ⟨earlier.filterMap (EntryCall.update defaultTtlMs),
      later.filterMap (EntryCall.update defaultTtlMs), by simp [asked], ?_⟩
    intro update member touches
    obtain ⟨other, otherMember, updates⟩ := List.mem_filterMap.mp member
    exact undecided other otherMember
      ((other.decides_iff defaultTtlMs valid).mpr ⟨update, updates, touches⟩)

namespace StorageEngine

variable {Value Hook : Type} {engine : StorageEngine Value Hook} {now : Millis}

/-- What the engine stores, expired or not, as a map. -/
def contents (engine : StorageEngine Value Hook) : Contents CacheKey Value Millis :=
  fun key => (engine.store.get? key).map CacheEntry.binding

/-- `peek` shows what is visible of the stored map. -/
theorem peek_binding (engine : StorageEngine Value Hook) (now : Millis) (key : CacheKey) :
    (engine.peek now key).map CacheEntry.binding = engine.contents.visible now key := by
  unfold peek Contents.visible contents
  cases engine.store.get? key with
  | none => rfl
  | some entry =>
      have live := entry.live_binding now
      cases expired : entry.metadata.isExpired now with
      | true =>
          rw [expired] at live
          simp [expired, Option.filter, live]
      | false =>
          rw [expired] at live
          simp [expired, Option.filter, live]

theorem cacheOf_of_stored {next : StorageEngine Value Hook}
    (stored : ∀ key kept, next.store.get? key = some kept →
      ∃ entry, engine.store.get? key = some entry ∧ CacheEntry.SameContent kept entry) :
    CacheOf engine.contents next.contents := by
  intro key binding found
  obtain ⟨kept, keptFound, rfl⟩ := Option.map_eq_some_iff.mp found
  obtain ⟨entry, entryFound, same⟩ := stored key kept keptFound
  exact Option.map_eq_some_iff.mpr ⟨entry, entryFound, same.binding_eq.symm⟩

theorem completeFrom_of_live {next : StorageEngine Value Hook}
    (keeps : ∀ key entry, engine.store.get? key = some entry →
      entry.metadata.isExpired now = false →
      ∃ kept, next.store.get? key = some kept ∧ CacheEntry.SameContent kept entry) :
    CompleteFrom now engine.contents next.contents := by
  intro key binding found live
  obtain ⟨entry, entryFound, rfl⟩ := Option.map_eq_some_iff.mp found
  rw [CacheEntry.live_binding, Bool.not_eq_true'] at live
  obtain ⟨kept, keptFound, same⟩ := keeps key entry entryFound live
  exact Option.map_eq_some_iff.mpr ⟨kept, keptFound, same.binding_eq⟩

variable [EvictionHook Hook]

theorem get_binding (engine : StorageEngine Value Hook) (now : Millis) (key : CacheKey) :
    (engine.get now key).1.map CacheEntry.binding = engine.contents.visible now key := by
  rw [get_fst, Option.map_map, ← peek_binding]
  rfl

theorem has_eq_visible (engine : StorageEngine Value Hook) (now : Millis) (key : CacheKey) :
    (engine.has now key).1 = (engine.contents.visible now key).isSome := by
  rw [has_fst, ← peek_binding, Option.isSome_map]

theorem contents_delete (engine : StorageEngine Value Hook) (key : CacheKey) :
    (engine.delete key).2.contents = engine.contents.apply (.unbind key) := by
  funext query
  rw [contents, delete_get?]
  by_cases same : query = key <;> simp [Contents.apply, contents, same]

/-! ## Evictions are counted -/

theorem evictions_removeInternal (engine : StorageEngine Value Hook) (key : CacheKey)
    (reason : RemovalReason) :
    (engine.removeInternal key reason).stats.evictions = engine.stats.evictions := by
  unfold removeInternal
  cases engine.store.get? key with
  | none => rfl
  | some entry => cases reason <;> rfl

theorem evictions_evict (engine : StorageEngine Value Hook) (victim : CacheKey) :
    (engine.evict victim).stats.evictions = engine.stats.evictions + 1 := by
  rw [← evictions_removeInternal engine victim .evict]
  rfl

/-- The loop counts what it evicts, so it has evicted nothing if it counts nothing. -/
theorem enforceCapacityLoop_evictions (justWrittenKey : CacheKey) (fuel guard : Nat)
    (engine : StorageEngine Value Hook) :
    enforceCapacityLoop justWrittenKey fuel guard engine = engine ∨
      engine.stats.evictions <
        (enforceCapacityLoop justWrittenKey fuel guard engine).stats.evictions := by
  induction fuel generalizing guard engine with
  | zero => exact .inl rfl
  | succ fuel ih =>
      unfold enforceCapacityLoop
      split
      · split
        · exact .inl rfl
        · next victim _ =>
            right
            have counted := evictions_evict engine victim
            rcases ih (guard + 1) (engine.evict victim) with same | more
            · rw [same, counted]
              exact Nat.lt_succ_self _
            · omega
      · exact .inl rfl

/-- A sweep evicts nothing. -/
theorem evictions_sweepExpired (engine : StorageEngine Value Hook) (now : Millis) :
    (engine.sweepExpired now).2.stats.evictions = engine.stats.evictions := by
  unfold sweepExpired
  generalize engine.store.entries.filter _ = expired
  induction expired generalizing engine with
  | nil => rfl
  | cons stored rest ih =>
      exact (ih _).trans (evictions_removeInternal engine stored.1 .expire)

/-! ## One operation -/

variable [SizedValue Value]

theorem contents_writeEntry (engine : StorageEngine Value Hook) (now : Millis)
    (key : CacheKey) (value : Value) (options : SetOptions) :
    (engine.writeEntry now key value options).contents =
      engine.contents.apply (.bind key
        ⟨value, (options.ttlMs.getD engine.options.defaultTtlMs).map (now + ·)⟩) := by
  funext query
  rw [contents, writeEntry_store, InsertionMap.get?_insert]
  by_cases same : query = key
  · simp [Contents.apply, same, CacheEntry.binding]
  · simp [Contents.apply, contents, same]

/-- The map after what an operation asks for. -/
def contentsAfter (engine : StorageEngine Value Hook) (call : EntryCall Value) :
    Contents CacheKey Value Millis :=
  engine.contents.applyAll (call.update engine.options.defaultTtlMs).toList

/-- After an operation, the engine is a cache of the map it was asked for.  Unless it has
evicted, it still holds everything that is visible. -/
theorem performAt_contents (engine : StorageEngine Value Hook) (call : EntryCall Value) :
    CacheOf (engine.contentsAfter call)
        (engine.performAt call.now call.operation).contents ∧
      (CompleteFrom call.now (engine.contentsAfter call)
          (engine.performAt call.now call.operation).contents ∧
        (engine.performAt call.now call.operation).stats.evictions =
          engine.stats.evictions ∨
        engine.stats.evictions <
          (engine.performAt call.now call.operation).stats.evictions) := by
  obtain ⟨now, operation⟩ := call
  cases operation with
  | get key =>
      refine ⟨cacheOf_of_stored fun _ _ => get_stored, .inl ⟨?_, ?_⟩⟩
      · exact completeFrom_of_live fun _ _ => get_keeps_live key
      · simp only [performAt]
        unfold get
        split
        · rfl
        · split
          · exact evictions_removeInternal engine key .expire
          · rfl
  | peek key => exact ⟨.refl _, .inl ⟨.refl _ _, rfl⟩⟩
  | has key =>
      refine ⟨cacheOf_of_stored fun _ kept found =>
        ⟨kept, has_stored found, rfl, rfl, rfl, rfl⟩, .inl ⟨?_, ?_⟩⟩
      · exact completeFrom_of_live fun _ entry found live =>
          ⟨entry, has_keeps_live key found live, rfl, rfl, rfl, rfl⟩
      · simp only [performAt]
        unfold has
        split
        · rfl
        · split
          · exact evictions_removeInternal engine key .expire
          · rfl
  | set key value options =>
      by_cases empty : key = ""
      · subst empty
        have unchanged : engine.performAt now (.set "" value options) = engine :=
          afterSet_of_empty engine now value options
        rw [unchanged]
        exact ⟨.refl _, .inl ⟨.refl _ _, rfl⟩⟩
      · have asked : engine.contentsAfter ⟨now, .set key value options⟩ =
            (engine.writeEntry now key value options).contents := by
          rw [contents_writeEntry]
          simp [contentsAfter, EntryCall.update, empty, Contents.applyAll]
        rw [asked]
        simp only [performAt, afterSet_of_valid _ _ empty]
        constructor
        · exact cacheOf_of_stored fun _ kept found =>
            ⟨kept, enforceCapacityLoop_stored found, rfl, rfl, rfl, rfl⟩
        · rcases enforceCapacityLoop_evictions key _ 0
              (engine.writeEntry now key value options) with same | more
          · rw [enforceCapacity, same]
            exact .inl ⟨.refl _ _, rfl⟩
          · exact .inr more
  | delete key =>
      have asked : engine.contentsAfter ⟨now, .delete key⟩ =
          (engine.delete key).2.contents := (contents_delete engine key).symm
      rw [asked]
      refine ⟨.refl _, .inl ⟨.refl _ _, ?_⟩⟩
      simp only [performAt]
      unfold delete
      split
      · exact evictions_removeInternal engine key .delete
      · rfl
  | sweepExpired =>
      refine ⟨cacheOf_of_stored fun _ kept found =>
        ⟨kept, sweepExpired_stored found, rfl, rfl, rfl, rfl⟩, .inl ⟨?_, ?_⟩⟩
      · exact completeFrom_of_live fun _ entry found live =>
          ⟨entry, sweepExpired_keeps_live found live, rfl, rfl, rfl, rfl⟩
      · exact evictions_sweepExpired engine now
  | clear => exact ⟨.refl _, .inl ⟨.refl _ _, rfl⟩⟩

/-- Evictions are never taken back. -/
theorem evictions_performAt_le (engine : StorageEngine Value Hook) (call : EntryCall Value) :
    engine.stats.evictions ≤
      (engine.performAt call.now call.operation).stats.evictions := by
  rcases (performAt_contents engine call).2 with ⟨_, same⟩ | more
  · exact same.ge
  · exact more.le

end StorageEngine

/-! ## Whole runs -/

namespace ClockedEngine

variable {Value Hook : Type} [EvictionHook Hook] [SizedValue Value]

@[simp] theorem receive_options (state : ClockedEngine Value Hook)
    (call : EntryCall Value) : (state.receive call).engine.options = state.engine.options := by
  cases operation : call.operation <;> simp [receive, operation, StorageEngine.performAt]

theorem evictions_run_le (state : ClockedEngine Value Hook) (calls : List (EntryCall Value)) :
    state.engine.stats.evictions ≤ (run receive state calls).engine.stats.evictions := by
  apply @run_invariant _ _ receive
    (fun later => state.engine.stats.evictions ≤ later.engine.stats.evictions)
  · intro later call before
    exact before.trans (StorageEngine.evictions_performAt_le later.engine call)
  · exact Nat.le_refl _

/-- In every run, the engine is a cache of the map that the calls describe. -/
theorem cacheOf_run {state : ClockedEngine Value Hook}
    {contents : Contents CacheKey Value Millis}
    (cache : CacheOf contents state.engine.contents) (calls : List (EntryCall Value)) :
    CacheOf (contents.applyAll (updatesOf state.engine.options.defaultTtlMs calls))
      (run receive state calls).engine.contents := by
  induction calls generalizing state contents with
  | nil => exact cache
  | cons call rest ih =>
      have step := (cache.applyAll _).trans
        (StorageEngine.performAt_contents state.engine call).1
      have later := @ih (state.receive call) _ step
      rw [receive_options, ← applyAll_append, ← updatesOf_cons] at later
      exact later

/-- In every run without evictions, the engine holds whatever is visible. -/
theorem completeFrom_run {state : ClockedEngine Value Hook}
    {contents : Contents CacheKey Value Millis}
    (complete : CompleteFrom state.clock contents state.engine.contents)
    {calls : List (EntryCall Value)} (ordered : EveryStep receive OnTime state calls)
    (kept : (run receive state calls).engine.stats.evictions =
      state.engine.stats.evictions) :
    CompleteFrom (run receive state calls).clock
      (contents.applyAll (updatesOf state.engine.options.defaultTtlMs calls))
      (run receive state calls).engine.contents := by
  induction calls generalizing state contents with
  | nil => exact complete
  | cons call rest ih =>
      rcases (StorageEngine.performAt_contents state.engine call).2 with ⟨holds, same⟩ | more
      · have step : CompleteFrom (state.receive call).clock _ _ :=
          (complete.applyAll _).trans ordered.1 holds
        have later := @ih (state.receive call) _ step ordered.2 (kept.trans same.symm)
        rw [receive_options, ← applyAll_append, ← updatesOf_cons] at later
        exact later
      · have counted : (state.receive call).engine.stats.evictions ≤
            (run receive state (call :: rest)).engine.stats.evictions :=
          evictions_run_le (state.receive call) rest
        rw [kept] at counted
        exact absurd more (Nat.not_lt.mpr counted)

theorem lastWritten_of_visible (options : StorageEngineOptions) (hook : Hook)
    (opened : Millis) (calls : List (EntryCall Value)) {now : Millis} {key : CacheKey}
    {binding : Binding Value Millis}
    (shown : (run receive (start options hook opened) calls).engine.contents.visible now key =
      some binding) :
    LastWritten options.defaultTtlMs calls key binding ∧ binding.live now = true := by
  obtain ⟨held, live⟩ := visible_eq_some_iff.mp shown
  have cache := @cacheOf_run _ _ _ _ (start options hook opened) nothing (.refl _) calls
  exact ⟨bound_iff_lastWritten.mp (cache key binding held), live⟩

/-- Without evictions, what is visible is what was last written and has not expired. -/
theorem visible_iff_lastWritten {options : StorageEngineOptions} {hook : Hook}
    {opened : Millis} {calls : List (EntryCall Value)}
    (ordered : EveryStep receive OnTime (start options hook opened) calls)
    (kept : (run receive (start options hook opened) calls).engine.stats.evictions = 0)
    {now : Millis} (late : (run receive (start options hook opened) calls).clock ≤ now)
    {key : CacheKey} {binding : Binding Value Millis} :
    (run receive (start options hook opened) calls).engine.contents.visible now key =
        some binding ↔
      LastWritten options.defaultTtlMs calls key binding ∧ binding.live now = true := by
  have cache := @cacheOf_run _ _ _ _ (start options hook opened) nothing (.refl _) calls
  have complete := @completeFrom_run _ _ _ _ (start options hook opened) nothing
    (.refl _ _) calls ordered kept
  rw [cache.visible_eq complete late, visible_eq_some_iff, ← bound_iff_lastWritten]
  rfl

/-- Nothing stale is ever served, whatever the hook evicts and whatever the caps and the
clock do: a read shows only what the last `set` of its key wrote, with the deadline it
gave, since when the key was not deleted and the engine not cleared, and only before that
deadline. -/
theorem reads_serve_last_write (options : StorageEngineOptions) (hook : Hook)
    (opened : Millis) (calls : List (EntryCall Value)) (now : Millis) (key : CacheKey) :
    (∀ entry,
      ((run receive (start options hook opened) calls).engine.get now key).1 = some entry →
        LastWritten options.defaultTtlMs calls key entry.binding ∧
          entry.metadata.isExpired now = false) ∧
      (∀ entry,
        (run receive (start options hook opened) calls).engine.peek now key = some entry →
          LastWritten options.defaultTtlMs calls key entry.binding ∧
            entry.metadata.isExpired now = false) ∧
      (((run receive (start options hook opened) calls).engine.has now key).1 = true →
        ∃ binding, LastWritten options.defaultTtlMs calls key binding ∧
          binding.live now = true) := by
  have written : ∀ (read : Option (CacheEntry Value)),
      read.map CacheEntry.binding =
        (run receive (start options hook opened) calls).engine.contents.visible now key →
      ∀ entry, read = some entry →
        LastWritten options.defaultTtlMs calls key entry.binding ∧
          entry.metadata.isExpired now = false := by
    rintro _ same entry rfl
    have shown := lastWritten_of_visible options hook opened calls same.symm
    rw [CacheEntry.live_binding, Bool.not_eq_true'] at shown
    exact shown
  refine ⟨written _ (StorageEngine.get_binding _ now key),
    written _ (StorageEngine.peek_binding _ now key),
    ?_⟩
  intro present
  rw [StorageEngine.has_eq_visible] at present
  obtain ⟨binding, shown⟩ := Option.isSome_iff_exists.mp present
  exact ⟨binding, lastWritten_of_visible options hook opened calls shown⟩

/-- The reads show of a key exactly what the calls last wrote under it, up to its deadline. -/
structure ShowsLastWrite (defaultTtlMs : Option Millis) (calls : List (EntryCall Value))
    (engine : StorageEngine Value Hook) (now : Millis) (key : CacheKey) : Prop where
  get : ∀ binding, (engine.get now key).1.map CacheEntry.binding = some binding ↔
    LastWritten defaultTtlMs calls key binding ∧ binding.live now = true
  peek : ∀ binding, (engine.peek now key).map CacheEntry.binding = some binding ↔
    LastWritten defaultTtlMs calls key binding ∧ binding.live now = true
  has : (engine.has now key).1 = true ↔
    ∃ binding, LastWritten defaultTtlMs calls key binding ∧ binding.live now = true

/-- A miss on what is visible is the work of an eviction: as long as the engine has counted
none, the reads show exactly what was last written under a key and has not expired. -/
theorem reads_miss_only_by_eviction (options : StorageEngineOptions) (hook : Hook)
    (opened : Millis) (calls : List (EntryCall Value))
    (ordered : EveryStep receive OnTime (start options hook opened) calls)
    (kept : (run receive (start options hook opened) calls).engine.stats.evictions = 0)
    (now : Millis) (late : (run receive (start options hook opened) calls).clock ≤ now)
    (key : CacheKey) :
    ShowsLastWrite options.defaultTtlMs calls
      (run receive (start options hook opened) calls).engine now key := by
  constructor
  case get =>
    intro binding
    rw [StorageEngine.get_binding]
    exact visible_iff_lastWritten ordered kept late
  case peek =>
    intro binding
    rw [StorageEngine.peek_binding]
    exact visible_iff_lastWritten ordered kept late
  case has =>
    rw [StorageEngine.has_eq_visible, Option.isSome_iff_exists]
    exact exists_congr fun binding => visible_iff_lastWritten ordered kept late

/-- Two keys in an engine for two: the second one is deleted and the first one read in
time, after being overwritten. -/
theorem reads_miss_only_by_eviction_two_keys :
    ShowsLastWrite none
      [⟨0, .set "a" 1 ⟨none⟩⟩, ⟨1, .set "b" 2 ⟨none⟩⟩, ⟨2, .set "a" 3 ⟨some (some 10)⟩⟩,
        ⟨3, .delete "b"⟩]
      (run receive (start ⟨.finite 2, .infinity, none⟩ (⟨⟩ : FifoEvictionHook) 0)
        [⟨0, .set "a" 1 ⟨none⟩⟩, ⟨1, .set "b" 2 ⟨none⟩⟩, ⟨2, .set "a" 3 ⟨some (some 10)⟩⟩,
          ⟨3, .delete "b"⟩]).engine 11 "a" :=
  reads_miss_only_by_eviction ⟨.finite 2, .infinity, none⟩ (⟨⟩ : FifoEvictionHook) 0
    [⟨0, .set "a" 1 ⟨none⟩⟩, ⟨1, .set "b" 2 ⟨none⟩⟩, ⟨2, .set "a" 3 ⟨some (some 10)⟩⟩,
      ⟨3, .delete "b"⟩]
    (by decide +kernel) (by decide +kernel) 11 (by decide +kernel) "a"

end ClockedEngine

end FlowCache
