import FlowCache.Library.Transition
import FlowCache.Eviction.StoredRecency

/-!
# A larger LRU cache holds what a smaller one holds

The same writes, reads and deletions go to two engines that evict the least recently
used entry and differ in the number of entries they may hold.  Seen through the order in
which its policy would give its keys up, each engine is a recency order of its capacity,
and the two orders stay nested.
-/

namespace FlowCache

open Transition

/-- The requests that both engines receive. -/
inductive CacheRequest (Value : Type) where
  | set (now : Millis) (key : CacheKey) (value : Value) (options : SetOptions)
  | get (now : Millis) (key : CacheKey)
  | delete (key : CacheKey)

/-- A write under a default time to live that stores an entry without a deadline. -/
def CacheRequest.WithoutTtl {Value : Type} (defaultTtlMs : Option Millis) :
    CacheRequest Value → Prop
  | .set _ _ _ options => options.ttlMs.getD defaultTtlMs = none
  | _ => True

namespace StorageEngine

variable {Value : Type}

/-- An engine whose only cap is a number of entries and whose policy tracks exactly the
stored keys, none of which expires. -/
structure LruView (capacity : Nat) (engine : StorageEngine Value LruEvictionPolicy) :
    Prop where
  maxEntries : engine.options.maxEntries = .finite capacity
  maxSizeBytes : engine.options.maxSizeBytes = .infinity
  tracked : ∀ key, key ∈ engine.recency ↔ key ∈ engine.store.keys
  noDeadline : ∀ key entry, engine.store.get? key = some entry →
    entry.metadata.expiresAt = none

theorem LruView.live {capacity : Nat} {engine : StorageEngine Value LruEvictionPolicy}
    (view : LruView capacity engine) : engine.TracksLive :=
  ⟨view.tracked, view.noDeadline⟩

theorem lruView_of_live {capacity : Nat} {engine : StorageEngine Value LruEvictionPolicy}
    (maxEntries : engine.options.maxEntries = .finite capacity)
    (maxSizeBytes : engine.options.maxSizeBytes = .infinity) (live : engine.TracksLive) :
    LruView capacity engine :=
  ⟨maxEntries, maxSizeBytes, live.tracked, live.noDeadline⟩

theorem lruView_create (capacity : Nat) (defaultTtlMs : Option Millis) :
    LruView capacity (create ⟨.finite capacity, .infinity, defaultTtlMs⟩ .create :
      StorageEngine Value LruEvictionPolicy) :=
  lruView_of_live rfl rfl (tracksLive_create _)

namespace LruView

variable {capacity : Nat} {engine : StorageEngine Value LruEvictionPolicy}

/-- What keeps the options and the tracking keeps the view. -/
theorem of_live (view : LruView capacity engine)
    {next : StorageEngine Value LruEvictionPolicy}
    (options : next.options = engine.options) (live : next.TracksLive) :
    LruView capacity next :=
  lruView_of_live (by rw [options, view.maxEntries]) (by rw [options, view.maxSizeBytes])
    live

theorem overCapacity_eq (view : LruView capacity engine) :
    engine.overCapacity = decide (capacity < engine.recency.length) := by
  rw [overCapacity, view.maxEntries, view.maxSizeBytes, view.live.perm_keys.length_eq,
    InsertionMap.keys_length]
  simp [Limit.exceededBy]

theorem afterGet (view : LruView capacity engine) (now : Millis) (key : CacheKey) :
    LruView capacity (engine.get now key).2 :=
  view.of_live (get_options engine now key) (view.live.afterGet now key)

/-- Without deadlines, a read finds every stored key. -/
theorem get_isSome_iff (view : LruView capacity engine) (now : Millis) (key : CacheKey) :
    (engine.get now key).1.isSome ↔ ∃ entry, engine.store.get? key = some entry := by
  cases found : engine.store.get? key with
  | none => simp [get, found]
  | some entry => simp [get, found, view.live.isExpired_eq_false found]

theorem afterDelete (view : LruView capacity engine) (key : CacheKey) :
    LruView capacity (engine.delete key).2 :=
  view.of_live (delete_options engine key) (view.live.afterDelete key)

/-! ## Writes -/

theorem afterEvict (view : LruView capacity engine) (victim : CacheKey) :
    LruView capacity (engine.evict victim) := by
  have removed := view.live.afterRemoveInternal victim .evict
  exact view.of_live (evict_options engine victim) ⟨removed.tracked, removed.noDeadline⟩

theorem recency_evict (view : LruView capacity engine) (victim : CacheKey) :
    (engine.evict victim).recency = engine.recency.erase victim :=
  view.live.recency_removeInternal victim .evict

/-- The policy gives up the first key of the order, unless it is the one just written. -/
theorem selectVictim_eq (view : LruView capacity engine) {victim key : CacheKey}
    {rest : List CacheKey} (order : engine.recency = victim :: rest)
    (different : victim ≠ key) :
    EvictionHook.selectVictim engine.hook (engine.evictionCandidates key) =
      some victim := by
  have offered : victim ∈ engine.evictionCandidates key := by
    apply List.mem_filter.mpr
    refine ⟨(view.tracked victim).mp ?_, by simp [different]⟩
    rw [order]
    exact List.mem_cons_self
  change engine.hook.selectVictim (engine.evictionCandidates key) = some victim
  rw [LruEvictionPolicy.selectVictim_eq, ← recency, order,
    List.filter_cons_of_pos (by simpa using offered), List.head?_cons]

/-- With one key too many, the least recently used one goes. -/
theorem recency_enforceCapacity (view : LruView capacity engine)
    (positive : 1 ≤ capacity) {keys : List CacheKey} {key : CacheKey}
    (order : engine.recency = keys ++ [key]) (bounded : keys.length ≤ capacity) :
    (engine.enforceCapacity key).recency =
        RecencyOrder.trim capacity engine.recency ∧
      LruView capacity (engine.enforceCapacity key) := by
  have exceeding := view.overCapacity_eq
  by_cases full : capacity < engine.recency.length
  · rw [RecencyOrder.trim, if_pos full]
    rw [order, List.length_append, List.length_singleton] at full
    cases keys with
    | nil =>
        rw [List.length_nil] at full
        omega
    | cons victim rest =>
        have different : victim ≠ key := by
          rintro rfl
          have distinct := engine.nodup_recency
          rw [order] at distinct
          exact (List.nodup_cons.mp distinct).1 (by simp)
        have evicted : (engine.evict victim).recency = rest ++ [key] := by
          rw [view.recency_evict, order, List.cons_append, List.erase_cons_head]
        have fits : (engine.evict victim).overCapacity = false := by
          rw [(view.afterEvict victim).overCapacity_eq, evicted, List.length_append,
            List.length_singleton]
          rw [List.length_cons] at bounded
          exact decide_eq_false (Nat.not_lt_of_le bounded)
        have exceeded : engine.overCapacity = true := by
          rw [exceeding, order, List.length_append, List.length_singleton]
          exact decide_eq_true full
        rw [enforceCapacity_of_one_victim exceeded (view.selectVictim_eq order different) fits]
        refine ⟨?_, view.afterEvict victim⟩
        rw [evicted, order, List.cons_append, List.tail_cons]
  · rw [RecencyOrder.trim, if_neg full]
    rw [decide_eq_false full] at exceeding
    rw [enforceCapacity_of_within exceeding]
    exact ⟨rfl, view⟩

variable [SizedValue Value]

/-- A write admits its key. -/
theorem afterSet (view : LruView capacity engine) (positive : 1 ≤ capacity)
    (within : engine.recency.length ≤ capacity) (now : Millis) {key : CacheKey}
    (valid : key ≠ "") (value : Value) {options : SetOptions}
    (withoutTtl : options.ttlMs.getD engine.options.defaultTtlMs = none) :
    (engine.afterSet now key value options).recency =
        RecencyOrder.enter capacity engine.recency key ∧
      LruView capacity (engine.afterSet now key value options) := by
  have written := view.of_live (writeEntry_options engine now key value options)
    (view.live.afterWriteEntry now key value withoutTtl)
  have order : (engine.writeEntry now key value options).recency =
      engine.recency.erase key ++ [key] := engine.hook.recency_touch key
  have bounded : (engine.recency.erase key).length ≤ capacity :=
    Nat.le_trans List.length_erase_le within
  have enforced := written.recency_enforceCapacity positive order bounded
  rw [afterSet_of_valid _ _ valid, RecencyOrder.enter, RecencyOrder.touch, ← order]
  exact enforced

end LruView

/-! ## Both engines -/

/-- An engine that holds at most so many entries and evicts the least recently used
one. -/
def lru (maxEntries : Nat) (defaultTtlMs : Option Millis) :
    StorageEngine Value LruEvictionPolicy :=
  create ⟨.finite maxEntries, .infinity, defaultTtlMs⟩ .create

/-- Two engines with the same requests behind them. -/
structure Included (small large : Nat) (defaultTtlMs : Option Millis)
    (first second : StorageEngine Value LruEvictionPolicy) : Prop where
  firstView : LruView small first
  secondView : LruView large second
  firstDefault : first.options.defaultTtlMs = defaultTtlMs
  secondDefault : second.options.defaultTtlMs = defaultTtlMs
  nested : RecencyOrder.Nested small large first.recency second.recency
  sameValue : ∀ key entry other, first.store.get? key = some entry →
    second.store.get? key = some other → other.value = entry.value

namespace Included

variable {small large : Nat} {defaultTtlMs : Option Millis}
variable {first second : StorageEngine Value LruEvictionPolicy}

theorem start (le : small ≤ large) (defaultTtlMs : Option Millis) :
    Included small large defaultTtlMs (lru small defaultTtlMs : StorageEngine Value _)
      (lru large defaultTtlMs) where
  firstView := lruView_create small defaultTtlMs
  secondView := lruView_create large defaultTtlMs
  firstDefault := rfl
  secondDefault := rfl
  nested := .nil le
  sameValue := by
    intro key entry other found
    cases found

/-- What the smaller engine stores, the larger one stores with the same value. -/
theorem stored (included : Included small large defaultTtlMs first second)
    {key : CacheKey} {entry : CacheEntry Value}
    (found : first.store.get? key = some entry) :
    ∃ other, second.store.get? key = some other ∧ other.value = entry.value := by
  have member := included.nested.mem_second (included.firstView.live.mem_recency found)
  obtain ⟨other, held⟩ := included.secondView.live.exists_entry member
  exact ⟨other, held, included.sameValue key entry other found held⟩

theorem afterGet (included : Included small large defaultTtlMs first second)
    (now : Millis) (key : CacheKey) :
    Included small large defaultTtlMs (first.get now key).2 (second.get now key).2 where
  firstView := included.firstView.afterGet now key
  secondView := included.secondView.afterGet now key
  firstDefault := by rw [get_options, included.firstDefault]
  secondDefault := by rw [get_options, included.secondDefault]
  nested := by
    rw [included.firstView.live.recency_get, included.secondView.live.recency_get]
    exact included.nested.hit key
  sameValue := by
    intro query entry other found held
    obtain ⟨before, stored, same⟩ := get_stored found
    obtain ⟨otherBefore, otherStored, otherSame⟩ := get_stored held
    rw [same.value, otherSame.value]
    exact included.sameValue query before otherBefore stored otherStored

theorem afterDelete (included : Included small large defaultTtlMs first second)
    (key : CacheKey) :
    Included small large defaultTtlMs (first.delete key).2 (second.delete key).2 where
  firstView := included.firstView.afterDelete key
  secondView := included.secondView.afterDelete key
  firstDefault := by rw [delete_options, included.firstDefault]
  secondDefault := by rw [delete_options, included.secondDefault]
  nested := by
    rw [included.firstView.live.recency_delete, included.secondView.live.recency_delete]
    exact included.nested.remove key
  sameValue := by
    intro query entry other found held
    rw [delete_get?] at found held
    split at found
    · cases found
    · next different =>
        rw [if_neg different] at held
        exact included.sameValue query entry other found held

end Included

variable [SizedValue Value]

/-- One request. -/
def afterRequest {Hook : Type} [EvictionHook Hook] (engine : StorageEngine Value Hook) :
    CacheRequest Value → StorageEngine Value Hook
  | .set now key value options => engine.afterSet now key value options
  | .get now key => (engine.get now key).2
  | .delete key => (engine.delete key).2

namespace Included

variable {small large : Nat} {defaultTtlMs : Option Millis}
variable {first second : StorageEngine Value LruEvictionPolicy}

theorem afterSet (included : Included small large defaultTtlMs first second)
    (positive : 1 ≤ small) (now : Millis) (key : CacheKey) (value : Value)
    {options : SetOptions} (withoutTtl : options.ttlMs.getD defaultTtlMs = none) :
    Included small large defaultTtlMs (first.afterSet now key value options)
      (second.afterSet now key value options) := by
  by_cases empty : key = ""
  · rw [empty, afterSet_of_empty, afterSet_of_empty]
    exact included
  · have larger : 1 ≤ large :=
      positive.trans (Nat.le_of_add_le_add_left (Nat.le_trans
        (Nat.add_le_add_right included.nested.sublist.length_le small)
        included.nested.room))
    obtain ⟨firstOrder, firstView⟩ := included.firstView.afterSet positive
      included.nested.firstWithin now empty value
      (included.firstDefault.symm ▸ withoutTtl)
    obtain ⟨secondOrder, secondView⟩ := included.secondView.afterSet larger
      included.nested.secondWithin now empty value
      (included.secondDefault.symm ▸ withoutTtl)
    refine ⟨firstView, secondView, ?_, ?_, ?_, ?_⟩
    · rw [afterSet_options, included.firstDefault]
    · rw [afterSet_options, included.secondDefault]
    · rw [firstOrder, secondOrder]
      exact included.nested.enter key
    · intro query entry other found held
      rcases afterSet_stored found with ⟨_, rfl, rfl⟩ | ⟨elsewhere, before⟩
      · rcases afterSet_stored held with ⟨_, _, rfl⟩ | ⟨impossible, _⟩
        · rfl
        · exact absurd rfl (impossible.resolve_left empty)
      · have different := elsewhere.resolve_left empty
        rcases afterSet_stored held with ⟨_, same, _⟩ | ⟨_, otherBefore⟩
        · exact absurd same different
        · exact included.sameValue query entry other before otherBefore

theorem afterRequest (included : Included small large defaultTtlMs first second)
    (positive : 1 ≤ small) {request : CacheRequest Value}
    (withoutTtl : request.WithoutTtl defaultTtlMs) :
    Included small large defaultTtlMs (first.afterRequest request)
      (second.afterRequest request) := by
  cases request with
  | set now key value options =>
      exact included.afterSet positive now key value withoutTtl
  | get now key => exact included.afterGet now key
  | delete key => exact included.afterDelete key

theorem run (positive : 1 ≤ small) {requests : List (CacheRequest Value)}
    (included : Included small large defaultTtlMs first second)
    (withoutTtl : ∀ request ∈ requests, request.WithoutTtl defaultTtlMs) :
    Included small large defaultTtlMs
      (Transition.run StorageEngine.afterRequest first requests)
      (Transition.run StorageEngine.afterRequest second requests) := by
  induction requests generalizing first second with
  | nil => exact included
  | cons request rest ih =>
      apply ih (included.afterRequest positive (withoutTtl request List.mem_cons_self))
      intro later member
      exact withoutTtl later (List.mem_cons_of_mem request member)

end Included

/-- After any requests without a time to live, every key that the smaller engine stores
is stored in the larger one with the same value, so a read that hits in the smaller
engine hits in the larger one. -/
theorem lru_inclusion {small large : Nat} (positive : 1 ≤ small) (le : small ≤ large)
    (defaultTtlMs : Option Millis) (requests : List (CacheRequest Value))
    (withoutTtl : ∀ request ∈ requests, request.WithoutTtl defaultTtlMs) :
    (∀ key entry,
      (run afterRequest (lru small defaultTtlMs) requests).store.get? key = some entry →
        ∃ other, (run afterRequest (lru large defaultTtlMs) requests).store.get? key =
          some other ∧ other.value = entry.value) ∧
      ∀ now key,
        ((run afterRequest (lru small defaultTtlMs) requests).get now key).1.isSome →
          ((run afterRequest (lru large defaultTtlMs) requests).get now key).1.isSome := by
  have included := Included.run positive (.start le defaultTtlMs) withoutTtl
  constructor
  · intro key entry found
    exact included.stored found
  · intro now key shown
    rw [included.firstView.get_isSome_iff] at shown
    rw [included.secondView.get_isSome_iff]
    obtain ⟨entry, found⟩ := shown
    obtain ⟨other, held, _⟩ := included.stored found
    exact ⟨other, held⟩

/-- Capacities two and three: after a deletion and a read that hits in the larger engine
alone, the last key of the smaller engine is read from both. -/
theorem lru_inclusion_two_three :
    ((run afterRequest (lru 2 none) [.set 0 "a" 1 ⟨none⟩, .set 1 "b" 2 ⟨none⟩,
        .set 2 "c" 3 ⟨some none⟩, .delete "b", .get 3 "a", .set 4 "d" 4 ⟨none⟩,
        .set 5 "e" 5 ⟨none⟩]).get 6 "d").1.isSome ∧
      ((run afterRequest (lru 3 none) [.set 0 "a" 1 ⟨none⟩, .set 1 "b" 2 ⟨none⟩,
        .set 2 "c" 3 ⟨some none⟩, .delete "b", .get 3 "a", .set 4 "d" 4 ⟨none⟩,
        .set 5 "e" 5 ⟨none⟩]).get 6 "d").1.isSome := by
  have shown : ((run afterRequest (lru 2 none) [.set 0 "a" 1 ⟨none⟩,
      .set 1 "b" 2 ⟨none⟩, .set 2 "c" 3 ⟨some none⟩, .delete "b", .get 3 "a",
      .set 4 "d" 4 ⟨none⟩, .set 5 "e" 5 ⟨none⟩]).get 6 "d").1.isSome := by
    decide +kernel
  exact ⟨shown, (lru_inclusion (by decide) (by decide) none _
    (by simp [CacheRequest.WithoutTtl])).2 6 "d" shown⟩

end StorageEngine

end FlowCache
