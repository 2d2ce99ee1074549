import FlowCache.Library.ExpiringMap
import FlowCache.Library.RecencyOrder

/-!
# Bounded caches with deadlines

The textbook cache is a list of keys with what is bound to them, the least recently used
one first.  A write puts its key at the end and gives up the first one when there are too
many.  A read moves its key to the end if the binding is live, and forgets it otherwise.
-/

namespace RecencyCache

open ExpiringMap

universe u v w

variable {Key : Type u} {Value : Type v} {Time : Type w}

/-- Keys with what is bound to them, the least recently used one first. -/
abbrev Items (Key : Type u) (Value : Type v) (Time : Type w) :=
  List (Key × Binding Value Time)

/-- The keys of the items. -/
def keys (items : Items Key Value Time) : List Key := items.map Prod.fst

@[simp] theorem keys_nil : keys ([] : Items Key Value Time) = [] := rfl

variable [DecidableEq Key]

/-- What is bound to each key. -/
def contents (items : Items Key Value Time) : Contents Key Value Time :=
  fun key => (items.find? fun item => item.1 = key).map Prod.snd

/-- Forget a key. -/
def remove (items : Items Key Value Time) (key : Key) : Items Key Value Time :=
  items.filter fun item => item.1 ≠ key

/-- Bind a key as the most recently used one. -/
def bind (items : Items Key Value Time) (key : Key) (binding : Binding Value Time) :
    Items Key Value Time :=
  remove items key ++ [(key, binding)]

/-- Write a key. -/
def write (capacity : Nat) (items : Items Key Value Time) (key : Key)
    (binding : Binding Value Time) : Items Key Value Time :=
  RecencyOrder.trim capacity (bind items key binding)

section Lookup

variable {items : Items Key Value Time} {key query : Key} {binding : Binding Value Time}

theorem contents_eq_some_iff (nodup : (keys items).Nodup) :
    contents items key = some binding ↔ (key, binding) ∈ items := by
  rw [contents, Option.map_eq_some_iff]
  constructor
  · rintro ⟨item, found, rfl⟩
    have same : item.1 = key := by simpa using List.find?_some found
    rw [← same]
    exact List.mem_of_find?_eq_some found
  · intro member
    cases found : items.find? fun item => item.1 = key with
    | none => exact absurd (List.find?_eq_none.mp found _ member) (by simp)
    | some item =>
        have same : item.1 = key := by simpa using List.find?_some found
        have equal := List.inj_on_of_nodup_map nodup (List.mem_of_find?_eq_some found) member same
        exact ⟨item, rfl, congrArg Prod.snd equal⟩

theorem contents_isSome_iff : (contents items key).isSome ↔ key ∈ keys items := by
  simp [contents, keys, List.find?_isSome]

theorem keys_remove (items : Items Key Value Time) (key : Key) :
    keys (remove items key) = (keys items).filter fun other => other ≠ key := by
  rw [keys, keys, remove, List.filter_map]
  rfl

theorem keys_bind (items : Items Key Value Time) (key : Key) (binding : Binding Value Time) :
    keys (bind items key binding) = (keys items).filter (fun other => other ≠ key) ++ [key] := by
  rw [keys, bind, List.map_append, ← keys, keys_remove]
  rfl

theorem contents_remove (items : Items Key Value Time) (key : Key) :
    contents (remove items key) = (contents items).apply (.unbind key) := by
  funext query
  simp only [contents, remove, List.find?_filter, Contents.apply]
  by_cases same : query = key
  · rw [if_pos same, same, List.find?_eq_none.mpr (by simp)]
    rfl
  · rw [if_neg same]
    congr 2
    funext item
    by_cases here : item.1 = query
    · simp [here, same]
    · simp [here]

theorem contents_bind (items : Items Key Value Time) (key : Key)
    (binding : Binding Value Time) :
    contents (bind items key binding) = (contents items).apply (.bind key binding) := by
  funext query
  have removed := congrFun (contents_remove items key) query
  simp only [contents, Contents.apply] at removed
  simp only [contents, bind, List.find?_append, Contents.apply]
  by_cases same : query = key
  · rw [if_pos same, Option.map_eq_none_iff] at removed
    rw [if_pos same, removed, same]
    simp
  · rw [if_neg same] at removed
    rw [if_neg same, ← removed, List.find?_cons_of_neg (by simpa using Ne.symm same)]
    simp

theorem length_remove_le (items : Items Key Value Time) (key : Key) :
    (remove items key).length ≤ items.length :=
  List.length_filter_le _ _

/-- A key that is bound anew keeps its place free. -/
theorem length_bind_of_bound (bound : contents items key = some binding)
    (other : Binding Value Time) : (bind items key other).length ≤ items.length := by
  rw [bind, List.length_append, List.length_singleton, Nat.succ_le_iff, remove]
  apply List.length_filter_lt_length_iff_exists.mpr
  obtain ⟨item, member, same⟩ := List.mem_map.mp
    (contents_isSome_iff.mp (Option.isSome_of_eq_some bound))
  exact ⟨item, member, by simpa using same⟩

theorem length_write_le {capacity : Nat} (within : items.length ≤ capacity) (key : Key)
    (binding : Binding Value Time) : (write capacity items key binding).length ≤ capacity := by
  have bounded := length_remove_le items key
  rw [write, RecencyOrder.trim]
  split
  · rw [List.length_tail, bind, List.length_append, List.length_singleton]
    omega
  · next fits => exact Nat.le_of_not_lt fits

/-- Removing the first key leaves the others. -/
theorem remove_first {first : Key × Binding Value Time}
    (nodup : (keys (first :: items)).Nodup) : remove (first :: items) first.1 = items := by
  rw [remove, List.filter_cons_of_neg (by simp), List.filter_eq_self]
  intro item member
  have fresh := (List.nodup_cons.mp nodup).1
  have different : item.1 ≠ first.1 := fun same => fresh (same ▸ List.mem_map_of_mem member)
  simpa using different

end Lookup

/-! ## Reading -/

variable [LinearOrder Time]

/-- Read a key: a live binding is used, an expired one is forgotten. -/
def read (now : Time) (items : Items Key Value Time) (key : Key) :
    Option (Binding Value Time) × Items Key Value Time :=
  match contents items key with
  | none => (none, items)
  | some binding =>
      if binding.live now then (some binding, bind items key binding)
      else (none, remove items key)

/-- Ask whether a key is there without using it. -/
def probe (now : Time) (items : Items Key Value Time) (key : Key) :
    Bool × Items Key Value Time :=
  match contents items key with
  | none => (false, items)
  | some binding => if binding.live now then (true, items) else (false, remove items key)

/-- Forget what has expired. -/
def sweep (now : Time) (items : Items Key Value Time) : Items Key Value Time :=
  items.filter fun item => item.2.live now

/-- A sweep forgets the expired keys one after the other. -/
theorem foldl_remove_eq_sweep {items : Items Key Value Time} (now : Time) {expired : List Key}
    (exactly : ∀ item ∈ items, item.1 ∈ expired ↔ item.2.live now = false) :
    expired.foldl remove items = sweep now items := by
  have removed : ∀ (rest : List Key) (items : Items Key Value Time),
      rest.foldl remove items = items.filter fun item => item.1 ∉ rest := by
    intro rest
    induction rest with
    | nil => simp
    | cons key rest ih =>
        intro items
        rw [List.foldl_cons, ih, remove, List.filter_filter]
        congr 1
        funext item
        by_cases same : item.1 = key <;> simp [same]
  rw [removed, sweep]
  apply List.filter_congr
  intro item member
  have known := exactly item member
  cases live : item.2.live now with
  | true =>
      rw [live] at known
      simpa using known
  | false =>
      rw [live] at known
      simpa using known

end RecencyCache
