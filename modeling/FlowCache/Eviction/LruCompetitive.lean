import FlowCache.Eviction.Inclusion
import FlowCache.Eviction.Progress
import FlowCache.Library.RecencyPotential
import FlowCache.Storage.Expiration
import FlowCache.Storage.ReadCounts

/-!
# No policy is much better than LRU

A client reads keys and writes those that it misses.  An engine with the LRU policy and an
engine of at most the same size with any other hook of the repository, which may be
evaluated and switched in between, receive the same requests.  The misses that the LRU
engine counts are bounded by those that the other engine counts.
-/

namespace FlowCache

open Transition

/-- What a client asks for, and what an attached adaptive engine does on its own. -/
inductive LoadAction (Value : Type) where
  | load (now : Millis) (key : CacheKey) (value : Value)
  | policy (action : StorageAction Value)

/-- An operation of the eviction engine alone. -/
def StorageAction.isPolicyAction {Value : Type} : StorageAction Value → Bool
  | .evaluate _ _ | .forceSwitch _ _ _ _ | .getSignals _ | .pauseAutoSwitch
  | .resumeAutoSwitch => true
  | .set _ _ _ _ | .get _ _ | .has _ _ | .delete _ | .sweepExpired _ | .clear => false

namespace StorageEngine

variable {Value Hook : Type}

/-- No entry expires. -/
def NoDeadline (engine : StorageEngine Value Hook) : Prop :=
  ∀ key entry, engine.store.get? key = some entry → entry.metadata.expiresAt = none

section Load

variable [EvictionHook Hook] {engine : StorageEngine Value Hook}

/-- Without deadlines a read finds exactly the stored keys. -/
theorem isSome_get_iff (noDeadline : engine.NoDeadline) (now : Millis) (key : CacheKey) :
    (engine.get now key).1.isSome ↔ key ∈ engine.store.keys := by
  rw [InsertionMap.mem_keys_iff]
  cases found : engine.store.get? key with
  | none => simp [get, found]
  | some entry =>
      simp [get, found, CacheMetadata.isExpired, noDeadline key entry found]

theorem keys_get_of_noDeadline (noDeadline : engine.NoDeadline) (now : Millis)
    (key : CacheKey) : (engine.get now key).2.store.keys = engine.store.keys := by
  cases found : engine.store.get? key with
  | none =>
      simp only [get, found]
      rfl
  | some entry =>
      have live : entry.metadata.isExpired now = false := by
        simp [CacheMetadata.isExpired, noDeadline key entry found]
      simp only [get, found, live, Bool.false_eq_true, if_false]
      exact InsertionMap.keys_insert_of_mem (InsertionMap.mem_keys_of_get? found) _

theorem NoDeadline.get (noDeadline : engine.NoDeadline) (now : Millis) (key : CacheKey) :
    (engine.get now key).2.NoDeadline := by
  intro query entry found
  obtain ⟨before, held, same⟩ := get_stored found
  rw [same.expiresAt]
  exact noDeadline query before held

theorem misses_get_of_stored (noDeadline : engine.NoDeadline) (now : Millis) {key : CacheKey}
    (stored : key ∈ engine.store.keys) :
    (engine.get now key).2.stats.misses = engine.stats.misses := by
  have counts := readCounts_get engine now key
  rw [if_pos ((isSome_get_iff noDeadline now key).mpr stored)] at counts
  exact congrArg Prod.snd counts

theorem misses_get_of_absent (noDeadline : engine.NoDeadline) (now : Millis) {key : CacheKey}
    (absent : key ∉ engine.store.keys) :
    (engine.get now key).2.stats.misses = engine.stats.misses + 1 := by
  have counts := readCounts_get engine now key
  rw [if_neg (fun found => absent ((isSome_get_iff noDeadline now key).mp found))] at counts
  exact congrArg Prod.snd counts

variable [SizedValue Value]

/-- A client reads a key and writes it if it was missing. -/
def load (engine : StorageEngine Value Hook) (now : Millis) (key : CacheKey) (value : Value) :
    StorageEngine Value Hook :=
  if (engine.get now key).1.isSome then (engine.get now key).2
  else (engine.get now key).2.afterSet now key value ⟨none⟩

theorem NoDeadline.afterSet (noDeadline : engine.NoDeadline)
    (noDefault : engine.options.defaultTtlMs = none) (now : Millis) (key : CacheKey)
    (value : Value) : (engine.afterSet now key value ⟨none⟩).NoDeadline := by
  intro query entry found
  rcases afterSet_stored found with ⟨_, _, rfl⟩ | ⟨_, kept⟩
  · rw [nextEntry_expiresAt, noDefault]
    rfl
  · exact noDeadline query entry kept

theorem misses_afterSet (engine : StorageEngine Value Hook) (now : Millis) (key : CacheKey)
    (value : Value) (options : SetOptions) :
    (engine.afterSet now key value options).stats.misses = engine.stats.misses :=
  congrArg Prod.snd (readCounts_afterSet engine now key value options)

theorem Written.load (written : engine.Written) (now : Millis) (key : CacheKey)
    (value : Value) : (engine.load now key value).Written := by
  have read := written.performAt now (.get key)
  unfold StorageEngine.load
  split
  · exact read
  · exact read.performAt now (.set key value ⟨none⟩)

omit [EvictionHook Hook] [SizedValue Value] in
theorem Written.empty_absent (written : engine.Written) : "" ∉ engine.store.keys := by
  intro stored
  obtain ⟨entry, found⟩ := InsertionMap.mem_keys_iff.mp stored
  exact (written "" entry found).1 rfl

/-- Nothing is written under an empty key. -/
theorem load_empty (engine : StorageEngine Value Hook) (now : Millis) (value : Value) :
    engine.load now "" value = (engine.get now "").2 := by
  unfold load
  split
  · rfl
  · exact afterSet_of_empty _ now value ⟨none⟩

end Load

/-! ## The other engine -/

variable [SizedValue Value]

/-- A write of a key that is not stored admits it, and one other key goes at most. -/
theorem Settled.afterSet_admits {engine : StorageEngine Value ConfiguredHook} {size : Nat}
    (settled : engine.Settled)
    (options : engine.options = ⟨.finite size, .infinity, none⟩) (positive : 1 ≤ size)
    (now : Millis) {key : CacheKey} (valid : key ≠ "") (absent : key ∉ engine.store.keys)
    (value : Value) :
    key ∈ (engine.afterSet now key value ⟨none⟩).store.keys ∧
      ∃ victim, ∀ query ∈ engine.store.keys,
        query = victim ∨ query ∈ (engine.afterSet now key value ⟨none⟩).store.keys := by
  have sound := settled.sound.writeEntry now key value ⟨none⟩
  have keys : (engine.writeEntry now key value ⟨none⟩).store.keys =
      engine.store.keys ++ [key] := by
    rw [writeEntry_store, InsertionMap.keys_insert_of_not_mem absent]
  have writtenSize : (engine.writeEntry now key value ⟨none⟩).store.size =
      engine.store.size + 1 := by
    rw [← InsertionMap.keys_length, keys, List.length_append, InsertionMap.keys_length,
      List.length_singleton]
  have capped : ∀ other : StorageEngine Value ConfiguredHook,
      other.options = ⟨.finite size, .infinity, none⟩ →
      other.overCapacity = decide (size < other.store.size) := by
    intro other same
    rw [overCapacity, same]
    simp [Limit.exceededBy]
  have writtenOver := capped _ ((writeEntry_options engine now key value ⟨none⟩).trans options)
  rw [writtenSize] at writtenOver
  rw [afterSet_of_valid _ _ valid]
  by_cases full : size < engine.store.size + 1
  · obtain ⟨victim, stored, selected⟩ := sound.exists_victim (by omega) key
    have different : victim ≠ key := by
      rintro rfl
      have alone := keys_of_justWritten_offered
        (TrackingHook.mem_of_selectVictim _ selected)
      have single := congrArg List.length alone
      rw [InsertionMap.keys_length, writtenSize, List.length_singleton] at single
      omega
    have fits : ((engine.writeEntry now key value ⟨none⟩).evict victim).overCapacity =
        false := by
      rw [capped _ ((evict_options _ _).trans
        ((writeEntry_options engine now key value ⟨none⟩).trans options))]
      apply decide_eq_false
      have fewer := removeInternal_size stored .evict
      rw [evict_store]
      have entries := settled.entries
      rw [options] at entries
      have bounded : engine.store.size ≤ size := by simpa [Limit.exceededBy] using entries
      omega
    have left : ((engine.writeEntry now key value ⟨none⟩).evict victim).store.keys =
        (engine.store.keys ++ [key]).filter (· ≠ victim) := by
      rw [evict_store, removeInternal_store _ _ _ stored, InsertionMap.keys_erase, keys]
    rw [enforceCapacity_of_one_victim (writtenOver.trans (decide_eq_true full)) selected fits,
      left]
    refine ⟨List.mem_filter.mpr ⟨by simp, by simpa using Ne.symm different⟩, victim, ?_⟩
    intro query member
    by_cases same : query = victim
    · exact .inl same
    · exact .inr (List.mem_filter.mpr ⟨List.mem_append_left _ member, by simpa using same⟩)
  · rw [enforceCapacity_of_within (writtenOver.trans (decide_eq_false full)), keys]
    exact ⟨by simp, key, fun query member => .inr (List.mem_append_left _ member)⟩

/-- What the eviction engine does on its own leaves entries and counters alone. -/
theorem perform_of_isPolicyAction (engine : StorageEngine Value ConfiguredHook)
    {action : StorageAction Value} (policy : action.isPolicyAction = true) :
    (engine.perform action).store = engine.store ∧
      (engine.perform action).stats = engine.stats := by
  have adaptive : ∀ change : AdaptiveEvictionEngine → AdaptiveEvictionEngine,
      (engine.changeAdaptive change).store = engine.store ∧
        (engine.changeAdaptive change).stats = engine.stats := by
    intro change
    unfold changeAdaptive
    split <;> exact ⟨rfl, rfl⟩
  cases action with
  | evaluate | forceSwitch | getSignals | pauseAutoSwitch | resumeAutoSwitch => exact adaptive _
  | set | get | has | delete | sweepExpired | clear => cases policy

/-! ## Both engines -/

/-- The engine with the LRU policy. -/
def lruStep (engine : StorageEngine Value LruEvictionPolicy) :
    LoadAction Value → StorageEngine Value LruEvictionPolicy
  | .load now key value => engine.load now key value
  | .policy _ => engine

/-- The other engine. -/
def rivalStep (engine : StorageEngine Value ConfiguredHook) :
    LoadAction Value → StorageEngine Value ConfiguredHook
  | .load now key value => engine.load now key value
  | .policy action => if action.isPolicyAction then engine.perform action else engine

/-- Two engines with the same requests behind them. -/
structure Rivals (capacity size : Nat) (first : StorageEngine Value LruEvictionPolicy)
    (second : StorageEngine Value ConfiguredHook) : Prop where
  view : LruView capacity first
  firstDefault : first.options.defaultTtlMs = none
  firstWritten : first.Written
  settled : second.Settled
  secondWritten : second.Written
  secondOptions : second.options = ⟨.finite size, .infinity, none⟩
  secondNoDeadline : second.NoDeadline
  competes : RecencyOrder.Competes capacity size first.recency second.store.keys
    first.stats.misses second.stats.misses

namespace Rivals

variable {capacity size : Nat} {first : StorageEngine Value LruEvictionPolicy}
variable {second : StorageEngine Value ConfiguredHook}

omit [SizedValue Value] in
theorem start (capacity size : Nat) (hook : ConfiguredHook) :
    Rivals capacity size (lru capacity none : StorageEngine Value LruEvictionPolicy)
      (create ⟨.finite size, .infinity, none⟩ hook) where
  view := lruView_create capacity none
  firstDefault := rfl
  firstWritten := written_create _ _
  settled := settled_create _ hook
  secondWritten := written_create _ hook
  secondOptions := rfl
  secondNoDeadline := fun _ _ impossible => by cases impossible
  competes := .start capacity size

theorem policy (rivals : Rivals capacity size first second) (action : StorageAction Value) :
    Rivals capacity size (first.lruStep (.policy action))
      (second.rivalStep (.policy action)) := by
  simp only [lruStep, rivalStep]
  split
  · next isPolicy =>
      obtain ⟨store, stats⟩ := perform_of_isPolicyAction second isPolicy
      refine ⟨rivals.view, rivals.firstDefault, rivals.firstWritten,
        rivals.settled.perform action, ?_,
        (perform_options second action).trans rivals.secondOptions, ?_, ?_⟩
      · rw [Written, store]
        exact rivals.secondWritten
      · rw [NoDeadline, store]
        exact rivals.secondNoDeadline
      · rw [store, stats]
        exact rivals.competes
  · exact rivals

/-- The other engine has served the request: it has the key now, or the key is refused. -/
structure Served (capacity size : Nat) (first : StorageEngine Value LruEvictionPolicy)
    (second : StorageEngine Value ConfiguredHook) (key : CacheKey) : Prop where
  settled : second.Settled
  options : second.options = ⟨.finite size, .infinity, none⟩
  noDeadline : second.NoDeadline
  stored : key ∈ second.store.keys
  competes : RecencyOrder.Competes capacity size first.recency second.store.keys
    first.stats.misses second.stats.misses

theorem served (rivals : Rivals capacity size first second) (positive : 1 ≤ size)
    (now : Millis) {key : CacheKey} (valid : key ≠ "") (value : Value) :
    Served capacity size first (second.load now key value) key := by
  have noDeadline := rivals.secondNoDeadline
  have competes := rivals.competes
  have read : (second.get now key).2.Settled := rivals.settled.perform (.get now key)
  have readOptions := (get_options second now key).trans rivals.secondOptions
  have keys := keys_get_of_noDeadline noDeadline now key
  unfold load
  by_cases stored : key ∈ second.store.keys
  · rw [if_pos ((isSome_get_iff noDeadline now key).mpr stored)]
    refine ⟨read, readOptions, noDeadline.get now key, keys ▸ stored, ?_⟩
    rw [keys, misses_get_of_stored noDeadline now stored]
    exact competes
  · rw [if_neg (fun found => stored ((isSome_get_iff noDeadline now key).mp found))]
    have admits := read.afterSet_admits readOptions positive now valid (keys ▸ stored) value
    obtain ⟨member, victim, kept⟩ := admits
    have written := read.afterSet now key value ⟨none⟩
    have writtenOptions := (afterSet_options _ now key value ⟨none⟩).trans readOptions
    have within := written.entries
    refine ⟨written, writtenOptions,
      (noDeadline.get now key).afterSet (by rw [readOptions]) now key value, member, ?_⟩
    rw [misses_afterSet, misses_get_of_absent noDeadline now stored]
    rw [keys] at kept
    apply competes.admitted kept
    rw [writtenOptions] at within
    rw [InsertionMap.keys_length]
    simpa [Limit.exceededBy] using within

/-- Neither engine has an entry under an empty key, and neither admits one. -/
theorem load_empty (rivals : Rivals capacity size first second) (positive : 1 ≤ size)
    (le : size ≤ capacity) (now : Millis) (value : Value) :
    Rivals capacity size (first.load now "" value) (second.load now "" value) := by
  have view := rivals.view
  have recency := view.live.recency_get now ""
  have untracked : "" ∉ first.recency :=
    fun there => rivals.firstWritten.empty_absent ((view.tracked "").mp there)
  rw [RecencyOrder.hit, if_neg untracked] at recency
  rw [StorageEngine.load_empty, StorageEngine.load_empty]
  exact
    { view := view.afterGet now ""
      firstDefault := by rw [get_options, rivals.firstDefault]
      firstWritten := rivals.firstWritten.performAt now (.get "")
      settled := rivals.settled.perform (.get now "")
      secondWritten := rivals.secondWritten.performAt now (.get "")
      secondOptions := (get_options second now "").trans rivals.secondOptions
      secondNoDeadline := rivals.secondNoDeadline.get now ""
      competes := by
        rw [recency, keys_get_of_noDeadline rivals.secondNoDeadline,
          misses_get_of_absent view.noDeadline now rivals.firstWritten.empty_absent,
          misses_get_of_absent rivals.secondNoDeadline now rivals.secondWritten.empty_absent]
        exact rivals.competes.refused positive le }

theorem load (rivals : Rivals capacity size first second) (positive : 1 ≤ size)
    (le : size ≤ capacity) (now : Millis) (key : CacheKey) (value : Value) :
    Rivals capacity size (first.load now key value) (second.load now key value) := by
  by_cases empty : key = ""
  · subst empty
    exact rivals.load_empty positive le now value
  have view := rivals.view
  have firstNoDeadline : first.NoDeadline := view.noDeadline
  have readView := view.afterGet now key
  have readDefault : (first.get now key).2.options.defaultTtlMs = none := by
    rw [get_options, rivals.firstDefault]
  have firstWritten := rivals.firstWritten.load now key value
  have secondWritten := rivals.secondWritten.load now key value
  have recency := view.live.recency_get now key
  have served := rivals.served positive now empty value
  by_cases stored : key ∈ first.recency
  · have there := (view.tracked key).mp stored
    have found : first.load now key value = (first.get now key).2 :=
      if_pos ((isSome_get_iff firstNoDeadline now key).mpr there)
    rw [RecencyOrder.hit, if_pos stored] at recency
    refine ⟨found ▸ readView, by rw [found, readDefault], firstWritten, served.settled,
      secondWritten, served.options, served.noDeadline, ?_⟩
    rw [found, recency, misses_get_of_stored firstNoDeadline now there]
    exact served.competes.hit stored served.stored
  · have absent : key ∉ first.store.keys := fun there => stored ((view.tracked key).mpr there)
    have missed : first.load now key value =
        (first.get now key).2.afterSet now key value ⟨none⟩ :=
      if_neg fun found => absent ((isSome_get_iff firstNoDeadline now key).mp found)
    rw [RecencyOrder.hit, if_neg stored] at recency
    have within : (first.get now key).2.recency.length ≤ capacity := by
      rw [recency]
      exact rivals.competes.within
    have noTtl : (⟨none⟩ : SetOptions).ttlMs.getD
        (first.get now key).2.options.defaultTtlMs = none := readDefault
    obtain ⟨entered, writtenView⟩ :=
      readView.afterSet (positive.trans le) within now empty value noTtl
    refine ⟨missed ▸ writtenView, ?_, firstWritten, served.settled, secondWritten,
      served.options, served.noDeadline, ?_⟩
    · rw [missed, afterSet_options, readDefault]
    · rw [missed, entered, recency, misses_afterSet,
        misses_get_of_absent firstNoDeadline now absent]
      exact served.competes.miss positive le stored served.stored

theorem step (rivals : Rivals capacity size first second) (positive : 1 ≤ size)
    (le : size ≤ capacity) (action : LoadAction Value) :
    Rivals capacity size (first.lruStep action) (second.rivalStep action) := by
  cases action with
  | load now key value => exact rivals.load positive le now key value
  | policy action => exact rivals.policy action

theorem run (rivals : Rivals capacity size first second) (positive : 1 ≤ size)
    (le : size ≤ capacity) (actions : List (LoadAction Value)) :
    Rivals capacity size (Transition.run lruStep first actions)
      (Transition.run rivalStep second actions) := by
  induction actions generalizing first second with
  | nil => exact rivals
  | cons action rest ih => exact ih (rivals.step positive le action)

end Rivals

/-- The misses of an engine with the LRU policy are at most `capacity / (capacity - size + 1)`
times those of an engine with `size` entries and whatever hook, and `capacity` more. -/
theorem lru_is_competitive (hook : ConfiguredHook) {capacity size : Nat}
    (positive : 1 ≤ size) (le : size ≤ capacity) (actions : List (LoadAction Value)) :
    (capacity - size + 1) * (run lruStep (lru capacity none) actions).stats.misses ≤
      capacity * (run rivalStep (create ⟨.finite size, .infinity, none⟩ hook)
        actions).stats.misses + (capacity - size + 1) * capacity :=
  ((Rivals.start capacity size hook).run positive le actions).competes.misses_le

/-- Four keys go around in three places, and the adaptive engine with two changes its
policy. -/
theorem lru_is_competitive_adaptive :
    let actions : List (LoadAction Nat) :=
      [.load 1 "a" 1, .load 2 "b" 2, .load 3 "c" 3, .policy (.forceSwitch 4 1 .lfu "scan"),
        .load 5 "d" 4, .load 6 "a" 1, .load 7 "" 0, .load 8 "b" 2]
    (3 - 2 + 1) * (run lruStep (lru 3 none) actions).stats.misses ≤
      3 * (run rivalStep (create ⟨.finite 2, .infinity, none⟩ adaptiveHook)
        actions).stats.misses + (3 - 2 + 1) * 3 :=
  lru_is_competitive adaptiveHook (by decide) (by decide) _

end StorageEngine

end FlowCache
