import FlowCache.Eviction.Inclusion
import FlowCache.Library.InsertedSteps
import FlowCache.Library.RecencyCache
import FlowCache.Storage.KeyValueMap

/-!
# The engine with an LRU policy is the textbook cache

Seen through what its calls return, a storage engine that may hold a number of entries and
evicts with `LruEvictionPolicy` is the bounded list of the library, whatever is written,
read, deleted, swept and cleared, and with any clock.  `clear` leaves keys behind in the
policy; they are no candidates, so it is the order of the stored keys alone that counts.
-/

namespace FlowCache

open Transition ExpiringMap

/-! ## What is returned -/

/-- What a call returns, as far as it does not depend on metadata beside the deadline. -/
inductive CacheAnswer (Value : Type) where
  | shown (binding : Option (Binding Value Millis))
  | answered (yes : Bool)
  | counted (count : Nat)
  | done
  deriving DecidableEq, Repr

namespace StorageEngine

variable {Value Hook : Type} [EvictionHook Hook] [SizedValue Value]

/-- What the engine answers. -/
def reply (engine : StorageEngine Value Hook) (call : EntryCall Value) : CacheAnswer Value :=
  match call.operation with
  | .get key => .shown ((engine.get call.now key).1.map CacheEntry.binding)
  | .peek key => .shown ((engine.peek call.now key).map CacheEntry.binding)
  | .has key => .answered (engine.has call.now key).1
  | .set key value options => .answered (engine.set call.now key value options).isOk
  | .delete key => .answered (engine.delete key).1
  | .sweepExpired => .counted (engine.sweepExpired call.now).1
  | .clear => .done

/-- The engine after a call. -/
def next (engine : StorageEngine Value Hook) (call : EntryCall Value) :
    StorageEngine Value Hook :=
  engine.performAt call.now call.operation

end StorageEngine

namespace TextbookLru

open RecencyCache

variable {Value : Type}

/-- What the textbook cache answers. -/
def reply (items : Items CacheKey Value Millis) (call : EntryCall Value) : CacheAnswer Value :=
  match call.operation with
  | .get key => .shown (read call.now items key).1
  | .peek key => .shown ((contents items).visible call.now key)
  | .has key => .answered (probe call.now items key).1
  | .set key _ _ => .answered (key ≠ "")
  | .delete key => .answered (key ∈ keys items)
  | .sweepExpired => .counted (items.filter fun item => !item.2.live call.now).length
  | .clear => .done

/-- The textbook cache after a call. -/
def next (capacity : Nat) (defaultTtlMs : Option Millis) (items : Items CacheKey Value Millis)
    (call : EntryCall Value) : Items CacheKey Value Millis :=
  match call.operation with
  | .get key => (read call.now items key).2
  | .peek _ => items
  | .has key => (probe call.now items key).2
  | .set key value options =>
      if key = "" then items
      else write capacity items key
        ⟨value, (options.ttlMs.getD defaultTtlMs).map (call.now + ·)⟩
  | .delete key => remove items key
  | .sweepExpired => sweep call.now items
  | .clear => []

end TextbookLru

/-! ## The simulation -/

namespace StorageEngine

variable {Value : Type}

/-- The stored keys in the order of the policy, which may know further ones. -/
def storedOrder (engine : StorageEngine Value LruEvictionPolicy) : List CacheKey :=
  engine.recency.filter fun key => key ∈ engine.store.keys

/-- The items are those of the engine, in the order in which it gives them up. -/
structure Mirrors (capacity : Nat) (defaultTtlMs : Option Millis)
    (engine : StorageEngine Value LruEvictionPolicy)
    (items : RecencyCache.Items CacheKey Value Millis) : Prop where
  options : engine.options = ⟨.finite capacity, .infinity, defaultTtlMs⟩
  order : RecencyCache.keys items = engine.storedOrder
  contents : RecencyCache.contents items = engine.contents

namespace Mirrors

variable {capacity : Nat} {defaultTtlMs : Option Millis}
variable {engine : StorageEngine Value LruEvictionPolicy}
variable {items : RecencyCache.Items CacheKey Value Millis}

theorem nodup (mirrors : Mirrors capacity defaultTtlMs engine items) :
    (RecencyCache.keys items).Nodup := by
  rw [mirrors.order]
  exact engine.nodup_recency.filter _

theorem mem_keys (mirrors : Mirrors capacity defaultTtlMs engine items) {key : CacheKey} :
    key ∈ RecencyCache.keys items ↔ key ∈ engine.store.keys := by
  rw [← RecencyCache.contents_isSome_iff, mirrors.contents, StorageEngine.contents,
    Option.isSome_map, Option.isSome_iff_exists, InsertionMap.mem_keys_iff]

/-- The items are the stored entries in another order. -/
theorem perm_entries (mirrors : Mirrors capacity defaultTtlMs engine items) :
    items.Perm (engine.store.entries.map fun stored => (stored.1, stored.2.binding)) := by
  have storedKeys : ((engine.store.entries.map fun stored =>
      (stored.1, stored.2.binding)).map Prod.fst).Nodup := by
    rw [List.map_map]
    exact engine.store.nodupKeys
  apply (List.perm_ext_iff_of_nodup (List.Nodup.of_map _ mirrors.nodup)
    (List.Nodup.of_map _ storedKeys)).mpr
  rintro ⟨key, binding⟩
  rw [← RecencyCache.contents_eq_some_iff mirrors.nodup, mirrors.contents,
    StorageEngine.contents, Option.map_eq_some_iff, List.mem_map]
  constructor
  · rintro ⟨entry, found, rfl⟩
    exact ⟨(key, entry), InsertionMap.get?_eq_some_iff.mp found, rfl⟩
  · rintro ⟨stored, member, same⟩
    cases same
    exact ⟨stored.2, InsertionMap.get?_eq_some_iff.mpr member, rfl⟩

theorem length_eq (mirrors : Mirrors capacity defaultTtlMs engine items) :
    items.length = engine.store.size := by
  rw [mirrors.perm_entries.length_eq, List.length_map]
  rfl

theorem overCapacity_eq (mirrors : Mirrors capacity defaultTtlMs engine items) :
    engine.overCapacity = decide (capacity < items.length) := by
  rw [overCapacity, mirrors.options, mirrors.length_eq]
  simp [Limit.exceededBy]

/-! ## Removals -/

/-- An entry leaves the store and its key the policy. -/
theorem removeInternal (mirrors : Mirrors capacity defaultTtlMs engine items) (key : CacheKey)
    (reason : RemovalReason) :
    Mirrors capacity defaultTtlMs (engine.removeInternal key reason)
      (RecencyCache.remove items key) where
  options := by rw [removeInternal_options, mirrors.options]
  order := by
    rw [RecencyCache.keys_remove, mirrors.order, storedOrder, List.filter_filter, storedOrder]
    by_cases stored : key ∈ engine.store.keys
    · rw [recency, recency, TracksLive.hook_removeInternal key reason stored,
        LruEvictionPolicy.recency_recordRemoval, engine.hook.recency_nodup.erase_eq_filter,
        List.filter_filter, removeInternal_store _ _ _ stored]
      apply List.filter_congr
      intro other _
      by_cases same : other = key
      · simp [same]
      · simp [same, InsertionMap.mem_keys_erase]
    · rw [removeInternal_of_absent (InsertionMap.get?_eq_none_iff.mpr stored)]
      apply List.filter_congr
      intro other _
      by_cases same : other = key
      · simp [same, stored]
      · simp [same]
  contents := by
    rw [RecencyCache.contents_remove, mirrors.contents]
    funext query
    rw [StorageEngine.contents, removeInternal_get?, Contents.apply]
    by_cases same : query = key <;> simp [same, StorageEngine.contents]

/-- Neither the counters nor the byte count matter. -/
theorem of_stats (mirrors : Mirrors capacity defaultTtlMs engine items) (stats : StorageStats) :
    Mirrors capacity defaultTtlMs { engine with stats := stats } items :=
  ⟨mirrors.options, mirrors.order, mirrors.contents⟩

theorem evict (mirrors : Mirrors capacity defaultTtlMs engine items) (victim : CacheKey) :
    Mirrors capacity defaultTtlMs (engine.evict victim) (RecencyCache.remove items victim) :=
  (mirrors.removeInternal victim .evict).of_stats _

/-! ## Touches -/

/-- A key is touched and bound to something. -/
theorem touched (mirrors : Mirrors capacity defaultTtlMs engine items)
    {after : StorageEngine Value LruEvictionPolicy} {key : CacheKey}
    {binding : Binding Value Millis} (options : after.options = engine.options)
    (hook : after.hook = engine.hook.touch key)
    (bound : after.contents = engine.contents.apply (.bind key binding)) :
    Mirrors capacity defaultTtlMs after (RecencyCache.bind items key binding) where
  options := options.trans mirrors.options
  order := by
    have stored : ∀ query, query ∈ after.store.keys ↔
        query = key ∨ query ∈ engine.store.keys := by
      intro query
      have there := congrArg Option.isSome (congrFun bound query)
      rw [Contents.apply, StorageEngine.contents, Option.isSome_map] at there
      rw [InsertionMap.mem_keys_iff, ← Option.isSome_iff_exists, there,
        InsertionMap.mem_keys_iff, ← Option.isSome_iff_exists]
      by_cases same : query = key <;> simp [same, StorageEngine.contents]
    rw [RecencyCache.keys_bind, mirrors.order, storedOrder, List.filter_filter, storedOrder,
      recency, recency, hook, LruEvictionPolicy.recency_touch,
      engine.hook.recency_nodup.erase_eq_filter, List.filter_append, List.filter_filter,
      List.filter_cons_of_pos (by simp [stored]), List.filter_nil]
    congr 1
    apply List.filter_congr
    intro other _
    by_cases same : other = key <;> simp [same, stored]
  contents := by rw [RecencyCache.contents_bind, mirrors.contents, bound]

/-- The first item is given up, if it is not the one just written or is alone. -/
theorem selectVictim_eq (mirrors : Mirrors capacity defaultTtlMs engine items)
    {first : CacheKey × Binding Value Millis} {rest : RecencyCache.Items CacheKey Value Millis}
    (shape : items = first :: rest) {key : CacheKey} (offered : first.1 ≠ key ∨ rest = []) :
    EvictionHook.selectVictim engine.hook (engine.evictionCandidates key) = some first.1 := by
  have candidates : engine.hook.recency.filter (· ∈ engine.evictionCandidates key) =
      (RecencyCache.keys items).filter
        fun other => other ≠ key || engine.store.size = 1 := by
    rw [mirrors.order, storedOrder, List.filter_filter, recency]
    apply List.filter_congr
    intro other _
    simp only [evictionCandidates, List.mem_filter, Bool.decide_and]
    rw [Bool.and_comm, Bool.decide_coe]
  change engine.hook.selectVictim (engine.evictionCandidates key) = some first.1
  rw [LruEvictionPolicy.selectVictim_eq, candidates, shape, RecencyCache.keys, List.map_cons,
    List.filter_cons_of_pos, List.head?_cons]
  rcases offered with different | alone
  · simp [different]
  · have single := mirrors.length_eq
    rw [shape, alone] at single
    simp [← single]

/-- After a write the first item goes if there is one too many. -/
theorem enforceCapacity (mirrors : Mirrors capacity defaultTtlMs engine items)
    {rest : RecencyCache.Items CacheKey Value Millis} {key : CacheKey}
    {binding : Binding Value Millis} (shape : items = rest ++ [(key, binding)])
    (within : rest.length ≤ capacity) :
    Mirrors capacity defaultTtlMs (engine.enforceCapacity key)
      (RecencyOrder.trim capacity items) := by
  have exceeding := mirrors.overCapacity_eq
  by_cases full : capacity < items.length
  · rw [RecencyOrder.trim, if_pos full]
    cases split : items with
    | nil =>
        rw [split] at shape
        exact absurd shape.symm (by simp)
    | cons first others =>
        have nodup := mirrors.nodup
        have offered : first.1 ≠ key ∨ others = [] := by
          rw [split] at shape nodup
          cases rest with
          | nil => exact .inr (List.cons.inj shape).2
          | cons other before =>
              left
              obtain ⟨rfl, rfl⟩ := List.cons.inj shape
              intro same
              apply (List.nodup_cons.mp nodup).1
              rw [same]
              exact List.mem_map_of_mem (List.mem_append_right before (List.mem_singleton_self _))
        have evicted := mirrors.evict first.1
        rw [split, RecencyCache.remove_first (split ▸ nodup)] at evicted
        have fits : (engine.evict first.1).overCapacity = false := by
          rw [evicted.overCapacity_eq]
          apply decide_eq_false
          have bounded := congrArg List.length (split.symm.trans shape)
          rw [List.length_cons, List.length_append, List.length_singleton] at bounded
          omega
        rw [enforceCapacity_of_one_victim (exceeding.trans (decide_eq_true full))
          (mirrors.selectVictim_eq split offered) fits]
        exact evicted
  · rw [RecencyOrder.trim, if_neg full,
      enforceCapacity_of_within (exceeding.trans (decide_eq_false full))]
    exact mirrors

/-! ## Sweeps -/

theorem foldl_removeInternal (mirrors : Mirrors capacity defaultTtlMs engine items)
    (expired : List (CacheKey × CacheEntry Value)) :
    Mirrors capacity defaultTtlMs
      (expired.foldl (fun current stored => current.removeInternal stored.1 .expire) engine)
      ((expired.map Prod.fst).foldl RecencyCache.remove items) := by
  induction expired generalizing engine items with
  | nil => exact mirrors
  | cons stored rest ih => exact ih (mirrors.removeInternal stored.1 .expire)

theorem sweepExpired (mirrors : Mirrors capacity defaultTtlMs engine items) (now : Millis) :
    Mirrors capacity defaultTtlMs (engine.sweepExpired now).2 (RecencyCache.sweep now items) := by
  have swept := mirrors.foldl_removeInternal
    (engine.store.entries.filter fun stored => stored.2.metadata.isExpired now)
  rw [RecencyCache.foldl_remove_eq_sweep now ?_] at swept
  · exact swept
  · intro item member
    have bound := (RecencyCache.contents_eq_some_iff mirrors.nodup).mpr member
    rw [mirrors.contents] at bound
    obtain ⟨entry, found, same⟩ := Option.map_eq_some_iff.mp bound
    rw [← same, CacheEntry.live_binding, Bool.not_eq_false']
    constructor
    · intro listed
      obtain ⟨stored, filtered, key⟩ := List.mem_map.mp listed
      obtain ⟨inStore, expired⟩ := List.mem_filter.mp filtered
      have held := InsertionMap.get?_eq_some_iff.mpr inStore
      rw [key, found] at held
      cases held
      exact expired
    · intro expired
      have inStore := InsertionMap.get?_eq_some_iff.mp found
      exact List.mem_map.mpr ⟨(item.1, entry), List.mem_filter.mpr ⟨inStore, expired⟩, rfl⟩

theorem sweepExpired_count (mirrors : Mirrors capacity defaultTtlMs engine items)
    (now : Millis) : (engine.sweepExpired now).1 =
      (items.filter fun item => !item.2.live now).length := by
  rw [(mirrors.perm_entries.filter _).length_eq, List.filter_map, List.length_map]
  apply congrArg List.length
  apply List.filter_congr
  intro stored _
  simp [CacheEntry.live_binding]

/-! ## Calls -/

theorem get (mirrors : Mirrors capacity defaultTtlMs engine items) (now : Millis)
    (key : CacheKey) :
    (engine.get now key).1.map CacheEntry.binding = (RecencyCache.read now items key).1 ∧
      Mirrors capacity defaultTtlMs (engine.get now key).2
        (RecencyCache.read now items key).2 := by
  have same := congrFun mirrors.contents key
  rw [StorageEngine.contents] at same
  unfold StorageEngine.get RecencyCache.read
  cases found : engine.store.get? key with
  | none =>
      rw [found, Option.map_none] at same
      rw [same]
      exact ⟨rfl, mirrors.of_stats _⟩
  | some entry =>
      rw [found, Option.map_some] at same
      have live := entry.live_binding now
      cases expired : entry.metadata.isExpired now with
      | true =>
          rw [expired, Bool.not_true] at live
          simp only [same, expired, live, if_true, Bool.false_eq_true, if_false]
          exact ⟨rfl, (mirrors.removeInternal key .expire).of_stats _⟩
      | false =>
          rw [expired, Bool.not_false] at live
          simp only [same, expired, live, if_true, Bool.false_eq_true, if_false]
          refine ⟨rfl, mirrors.touched rfl rfl ?_⟩
          funext query
          simp only [StorageEngine.contents, Contents.apply, emit_store,
            InsertionMap.get?_insert]
          by_cases here : query = key <;> simp [here, CacheEntry.binding]

theorem has (mirrors : Mirrors capacity defaultTtlMs engine items) (now : Millis)
    (key : CacheKey) :
    (engine.has now key).1 = (RecencyCache.probe now items key).1 ∧
      Mirrors capacity defaultTtlMs (engine.has now key).2
        (RecencyCache.probe now items key).2 := by
  have same := congrFun mirrors.contents key
  rw [StorageEngine.contents] at same
  unfold StorageEngine.has RecencyCache.probe
  cases found : engine.store.get? key with
  | none =>
      rw [found, Option.map_none] at same
      rw [same]
      exact ⟨rfl, mirrors⟩
  | some entry =>
      rw [found, Option.map_some] at same
      have live := entry.live_binding now
      cases expired : entry.metadata.isExpired now with
      | true =>
          rw [expired, Bool.not_true] at live
          simp only [same, expired, live, if_true, Bool.false_eq_true, if_false]
          exact ⟨trivial, mirrors.removeInternal key .expire⟩
      | false =>
          rw [expired, Bool.not_false] at live
          simp only [same, expired, live, if_true, Bool.false_eq_true, if_false]
          exact ⟨trivial, mirrors⟩

theorem delete (mirrors : Mirrors capacity defaultTtlMs engine items) (key : CacheKey) :
    (engine.delete key).1 = decide (key ∈ RecencyCache.keys items) ∧
      Mirrors capacity defaultTtlMs (engine.delete key).2 (RecencyCache.remove items key) := by
  have removed := mirrors.removeInternal key .delete
  have stored : engine.store.contains key = decide (key ∈ RecencyCache.keys items) := by
    rw [Bool.eq_iff_iff, decide_eq_true_iff, mirrors.mem_keys, InsertionMap.contains,
      InsertionMap.mem_keys_iff, Option.isSome_iff_exists]
  unfold StorageEngine.delete
  split
  · next there => exact ⟨by rw [← stored, there], removed.of_stats _⟩
  · next missing =>
      have absent : engine.store.get? key = none := by
        simpa [InsertionMap.contains] using missing
      rw [removeInternal_of_absent absent] at removed
      exact ⟨by rw [← stored, Bool.eq_false_iff.mpr missing], removed⟩

variable [SizedValue Value]

theorem set (mirrors : Mirrors capacity defaultTtlMs engine items)
    (within : items.length ≤ capacity) (now : Millis) {key : CacheKey} (valid : key ≠ "")
    (value : Value) (options : SetOptions) :
    Mirrors capacity defaultTtlMs (engine.afterSet now key value options)
      (RecencyCache.write capacity items key
        ⟨value, (options.ttlMs.getD defaultTtlMs).map (now + ·)⟩) := by
  have bound := contents_writeEntry engine now key value options
  rw [mirrors.options] at bound
  have written := mirrors.touched (writeEntry_options engine now key value options) rfl bound
  rw [afterSet_of_valid _ _ valid]
  exact written.enforceCapacity rfl ((RecencyCache.length_remove_le items key).trans within)

end Mirrors

variable [SizedValue Value]

/-- The items of an engine that holds no more than it may. -/
structure IsTextbook (capacity : Nat) (defaultTtlMs : Option Millis)
    (engine : StorageEngine Value LruEvictionPolicy)
    (items : RecencyCache.Items CacheKey Value Millis) : Prop where
  mirrors : Mirrors capacity defaultTtlMs engine items
  within : items.length ≤ capacity

namespace IsTextbook

variable {capacity : Nat} {defaultTtlMs : Option Millis}
variable {engine : StorageEngine Value LruEvictionPolicy}
variable {items : RecencyCache.Items CacheKey Value Millis}

omit [SizedValue Value] in
theorem start (capacity : Nat) (defaultTtlMs : Option Millis) :
    IsTextbook capacity defaultTtlMs (lru capacity defaultTtlMs)
      ([] : RecencyCache.Items CacheKey Value Millis) where
  mirrors := ⟨rfl, rfl, rfl⟩
  within := Nat.zero_le capacity

theorem reply_eq (textbook : IsTextbook capacity defaultTtlMs engine items)
    (call : EntryCall Value) : engine.reply call = TextbookLru.reply items call := by
  obtain ⟨now, operation⟩ := call
  cases operation with
  | get key => exact congrArg CacheAnswer.shown (textbook.mirrors.get now key).1
  | peek key =>
      simp only [reply, TextbookLru.reply, textbook.mirrors.contents, peek_binding]
  | has key => exact congrArg CacheAnswer.answered (textbook.mirrors.has now key).1
  | set key value options =>
      by_cases empty : key = ""
      · simp [reply, TextbookLru.reply, StorageEngine.set, empty, Except.isOk, Except.toBool]
      · simp [reply, TextbookLru.reply, StorageEngine.set, empty, Except.isOk, Except.toBool]
  | delete key => exact congrArg CacheAnswer.answered (textbook.mirrors.delete key).1
  | sweepExpired =>
      exact congrArg CacheAnswer.counted (textbook.mirrors.sweepExpired_count now)
  | clear => rfl

theorem next_mirrors (textbook : IsTextbook capacity defaultTtlMs engine items)
    (call : EntryCall Value) : Mirrors capacity defaultTtlMs (engine.next call)
      (TextbookLru.next capacity defaultTtlMs items call) := by
  obtain ⟨now, operation⟩ := call
  cases operation with
  | get key => exact (textbook.mirrors.get now key).2
  | peek key => exact textbook.mirrors
  | has key => exact (textbook.mirrors.has now key).2
  | set key value options =>
      simp only [StorageEngine.next, performAt, TextbookLru.next]
      split
      · next empty =>
          rw [empty, afterSet_of_empty]
          exact textbook.mirrors
      · next valid => exact textbook.mirrors.set textbook.within now valid value options
  | delete key => exact (textbook.mirrors.delete key).2
  | sweepExpired => exact textbook.mirrors.sweepExpired now
  | clear =>
      refine ⟨textbook.mirrors.options, ?_, rfl⟩
      exact (List.filter_eq_nil_iff.mpr fun key _ => by simp [StorageEngine.next, performAt,
        StorageEngine.clear]).symm

theorem next (textbook : IsTextbook capacity defaultTtlMs engine items)
    (call : EntryCall Value) : IsTextbook capacity defaultTtlMs (engine.next call)
      (TextbookLru.next capacity defaultTtlMs items call) where
  mirrors := textbook.next_mirrors call
  within := by
    have within := textbook.within
    unfold TextbookLru.next
    cases call.operation with
    | get key =>
        simp only [RecencyCache.read]
        split
        · exact within
        · next binding bound =>
            split
            · exact (RecencyCache.length_bind_of_bound bound binding).trans within
            · exact (RecencyCache.length_remove_le items key).trans within
    | peek key => exact within
    | has key =>
        simp only [RecencyCache.probe]
        split
        · exact within
        · split
          · exact within
          · exact (RecencyCache.length_remove_le items key).trans within
    | set key value options =>
        simp only
        split
        · exact within
        · exact RecencyCache.length_write_le within key _
    | delete key => exact (RecencyCache.length_remove_le items key).trans within
    | sweepExpired => exact (List.length_filter_le _ _).trans within
    | clear => exact Nat.zero_le capacity

end IsTextbook

/-- The engine answers as the textbook cache does: every call of every run, whatever the
capacity and the times to live are and the clock shows. -/
theorem lru_engine_is_textbook_cache (capacity : Nat) (defaultTtlMs : Option Millis)
    (calls : List (EntryCall Value)) :
    trace next (fun engine call => some (engine.reply call))
        (lru capacity defaultTtlMs) calls =
      trace (TextbookLru.next capacity defaultTtlMs)
        (fun items call => some (TextbookLru.reply items call)) [] calls :=
  trace_eq_of_related
    (fun _ _ call textbook => congrArg some (IsTextbook.reply_eq textbook call))
    (fun _ _ call textbook => IsTextbook.next textbook call)
    (IsTextbook.start capacity defaultTtlMs) calls

end StorageEngine

end FlowCache
