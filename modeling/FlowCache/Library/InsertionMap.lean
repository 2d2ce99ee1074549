import Mathlib.Algebra.Order.BigOperators.Group.List
import Mathlib.Algebra.Order.Ring.Nat
import Mathlib.Data.List.Nodup
import Mathlib.Data.List.Perm.Subperm

/-!
# Insertion-ordered maps

A finite map that remembers the order in which its keys were first inserted.
Overwriting a key keeps its position, erasing a key forgets it, and a key that is
inserted again after an erasure goes to the end.  Every value of the type carries
the proof that no key occurs twice.
-/

universe u v

/-- A finite map as the list of its entries in insertion order. -/
structure InsertionMap (Key : Type u) (Value : Type v) where
  entries : List (Key × Value)
  nodupKeys : (entries.map Prod.fst).Nodup

namespace InsertionMap

variable {Key : Type u} {Value : Type v}

/-- The map without entries. -/
def empty : InsertionMap Key Value := ⟨[], List.nodup_nil⟩

/-- The keys in insertion order. -/
def keys (map : InsertionMap Key Value) : List Key := map.entries.map Prod.fst

/-- The values in the insertion order of their keys. -/
def values (map : InsertionMap Key Value) : List Value := map.entries.map Prod.snd

/-- The number of entries. -/
def size (map : InsertionMap Key Value) : Nat := map.entries.length

theorem keys_nodup (map : InsertionMap Key Value) : map.keys.Nodup := map.nodupKeys

@[simp] theorem keys_length (map : InsertionMap Key Value) :
    map.keys.length = map.size := by
  simp [keys, size]

@[simp] theorem keys_empty : (empty : InsertionMap Key Value).keys = [] := rfl

/-- Rewriting values in place keeps every key where it is. -/
def mapValues {Image : Type*} (map : InsertionMap Key Value)
    (image : Key → Value → Image) : InsertionMap Key Image where
  entries := map.entries.map fun entry => (entry.1, image entry.1 entry.2)
  nodupKeys := by simpa [Function.comp_def] using map.nodupKeys

variable [DecidableEq Key]

/-- The value stored under a key. -/
def get? (map : InsertionMap Key Value) (key : Key) : Option Value :=
  (map.entries.find? fun entry => entry.1 = key).map Prod.snd

/-- Whether a key is stored. -/
def contains (map : InsertionMap Key Value) (key : Key) : Bool :=
  (map.get? key).isSome

/-- Remove a key, keeping the order of the remaining ones. -/
def erase (map : InsertionMap Key Value) (key : Key) : InsertionMap Key Value where
  entries := map.entries.filter fun entry => entry.1 ≠ key
  nodupKeys := (List.filter_sublist.map Prod.fst).nodup map.nodupKeys

private theorem key_not_mem_of_get?_none {map : InsertionMap Key Value} {key : Key}
    (absent : map.get? key = none) : key ∉ map.entries.map Prod.fst := by
  simp only [get?, Option.map_eq_none_iff, List.find?_eq_none,
    decide_eq_true_eq] at absent
  simp only [List.mem_map, not_exists, not_and]
  exact absent

/-- Store a value: in place when the key is present, at the end otherwise. -/
def insert (map : InsertionMap Key Value) (key : Key) (value : Value) :
    InsertionMap Key Value :=
  match absent : map.get? key with
  | some _ => map.mapValues fun stored old => if stored = key then value else old
  | none =>
      { entries := map.entries ++ [(key, value)]
        nodupKeys := by
          rw [List.map_append]
          exact List.nodup_append.mpr ⟨map.nodupKeys, by simp, by
            intro stored member other otherMember equal
            simp only [List.map_cons, List.map_nil, List.mem_singleton] at otherMember
            exact key_not_mem_of_get?_none absent (otherMember ▸ equal ▸ member)⟩ }

/-! ## Lookup -/

theorem get?_eq_some_iff {map : InsertionMap Key Value} {key : Key} {value : Value} :
    map.get? key = some value ↔ (key, value) ∈ map.entries := by
  obtain ⟨entries, nodup⟩ := map
  simp only [get?]
  induction entries with
  | nil => simp
  | cons entry rest ih =>
      obtain ⟨stored, old⟩ := entry
      obtain ⟨fresh, restNodup⟩ := List.nodup_cons.mp nodup
      by_cases same : stored = key
      · subst same
        have absent : (stored, value) ∉ rest := fun member =>
          fresh (List.mem_map.mpr ⟨_, member, rfl⟩)
        simp [absent, eq_comm]
      · have different : (key, value) ≠ (stored, old) := by
          intro equal
          exact same (congrArg Prod.fst equal).symm
        simpa [List.find?_cons, same, Ne.symm same] using ih restNodup

theorem get?_eq_none_iff {map : InsertionMap Key Value} {key : Key} :
    map.get? key = none ↔ key ∉ map.keys := by
  constructor
  · exact key_not_mem_of_get?_none
  · intro fresh
    cases found : map.get? key with
    | none => rfl
    | some value =>
        exact (fresh (List.mem_map.mpr ⟨_, get?_eq_some_iff.mp found, rfl⟩)).elim

theorem mem_keys_iff {map : InsertionMap Key Value} {key : Key} :
    key ∈ map.keys ↔ ∃ value, map.get? key = some value := by
  rw [← Option.isSome_iff_exists, Option.isSome_iff_ne_none, ne_eq,
    get?_eq_none_iff, not_not]

theorem mem_keys_of_get? {map : InsertionMap Key Value} {key : Key} {value : Value}
    (found : map.get? key = some value) : key ∈ map.keys :=
  mem_keys_iff.mpr ⟨value, found⟩

theorem mem_values_iff {map : InsertionMap Key Value} {value : Value} :
    value ∈ map.values ↔ ∃ key, map.get? key = some value := by
  simp only [values, List.mem_map, Prod.exists, exists_eq_right, get?_eq_some_iff]

theorem get?_mapValues {Image : Type*} (map : InsertionMap Key Value)
    (image : Key → Value → Image) (key : Key) :
    (map.mapValues image).get? key = (map.get? key).map (image key) := by
  cases found : map.get? key with
  | none =>
      rw [Option.map_none, get?_eq_none_iff]
      rw [get?_eq_none_iff] at found
      simpa [keys, mapValues, Function.comp_def] using found
  | some value =>
      rw [Option.map_some, get?_eq_some_iff]
      exact List.mem_map.mpr ⟨_, get?_eq_some_iff.mp found, rfl⟩

/-! ## Insertion -/

theorem insert_of_get?_some {map : InsertionMap Key Value} {key : Key}
    {old : Value} (found : map.get? key = some old) (value : Value) :
    map.insert key value =
      map.mapValues fun stored previous => if stored = key then value else previous := by
  unfold insert
  split
  · rfl
  · simp_all

theorem entries_insert_of_get?_none {map : InsertionMap Key Value} {key : Key}
    (absent : map.get? key = none) (value : Value) :
    (map.insert key value).entries = map.entries ++ [(key, value)] := by
  unfold insert
  split
  · simp_all
  · rfl

theorem get?_insert (map : InsertionMap Key Value) (key query : Key) (value : Value) :
    (map.insert key value).get? query =
      if query = key then some value else map.get? query := by
  cases found : map.get? key with
  | some old =>
      rw [insert_of_get?_some found, get?_mapValues]
      by_cases same : query = key
      · subst same; simp [found]
      · simp only [same, if_false]
        cases map.get? query <;> rfl
  | none =>
      simp only [get?, entries_insert_of_get?_none found]
      by_cases same : query = key
      · subst same
        have missing : map.entries.find? (fun entry => entry.1 = query) = none := by
          simpa [get?] using found
        simp [List.find?_append, missing]
      · have skipped : [(key, value)].find? (fun entry => entry.1 = query) = none := by
          simp [Ne.symm same]
        simp [List.find?_append, skipped, same]

@[simp] theorem get?_insert_self (map : InsertionMap Key Value) (key : Key)
    (value : Value) : (map.insert key value).get? key = some value := by
  simp [get?_insert]

theorem get?_insert_of_ne (map : InsertionMap Key Value) {key query : Key}
    (different : query ≠ key) (value : Value) :
    (map.insert key value).get? query = map.get? query := by
  simp [get?_insert, different]

theorem mem_keys_insert {map : InsertionMap Key Value} {key query : Key}
    {value : Value} :
    query ∈ (map.insert key value).keys ↔ query = key ∨ query ∈ map.keys := by
  rw [mem_keys_iff, mem_keys_iff, get?_insert]
  by_cases same : query = key <;> simp [same]

theorem keys_insert_of_mem {map : InsertionMap Key Value} {key : Key}
    (member : key ∈ map.keys) (value : Value) :
    (map.insert key value).keys = map.keys := by
  obtain ⟨old, found⟩ := mem_keys_iff.mp member
  rw [insert_of_get?_some found]
  simp [keys, mapValues, Function.comp_def]

theorem keys_insert_of_not_mem {map : InsertionMap Key Value} {key : Key}
    (fresh : key ∉ map.keys) (value : Value) :
    (map.insert key value).keys = map.keys ++ [key] := by
  simp [keys, entries_insert_of_get?_none (get?_eq_none_iff.mpr fresh)]

/-! ## Erasure -/

theorem get?_erase (map : InsertionMap Key Value) (key query : Key) :
    (map.erase key).get? query = if query = key then none else map.get? query := by
  by_cases same : query = key
  · subst same
    simp only [if_true, get?_eq_none_iff, keys, erase, List.mem_map, List.mem_filter]
    simp
  · simp only [same, if_false]
    cases found : map.get? query with
    | none =>
        rw [get?_eq_none_iff] at found ⊢
        exact fun member => found ((List.filter_sublist.map Prod.fst).subset member)
    | some value =>
        rw [get?_eq_some_iff] at found ⊢
        simp [erase, found, same]

theorem get?_erase_of_ne (map : InsertionMap Key Value) {key query : Key}
    (different : query ≠ key) : (map.erase key).get? query = map.get? query := by
  simp [get?_erase, different]

theorem keys_erase (map : InsertionMap Key Value) (key : Key) :
    (map.erase key).keys = map.keys.filter (· ≠ key) := by
  simp [keys, erase, List.filter_map, Function.comp_def]

theorem mem_keys_erase {map : InsertionMap Key Value} {key query : Key} :
    query ∈ (map.erase key).keys ↔ query ≠ key ∧ query ∈ map.keys := by
  simp [keys_erase, and_comm]

omit [DecidableEq Key] in
theorem eq_of_entries {map other : InsertionMap Key Value}
    (same : map.entries = other.entries) : map = other := by
  cases map
  cases other
  cases same
  rfl

theorem erase_of_absent {map : InsertionMap Key Value} {key : Key}
    (absent : key ∉ map.keys) : map.erase key = map := by
  apply eq_of_entries
  apply List.filter_eq_self.mpr
  intro entry member
  rw [decide_eq_true_eq]
  intro same
  exact absent (List.mem_map.mpr ⟨entry, member, same⟩)

theorem erase_comm (map : InsertionMap Key Value) (key other : Key) :
    (map.erase key).erase other = (map.erase other).erase key :=
  eq_of_entries (List.filter_comm _ _ _)

theorem erase_insert_self (map : InsertionMap Key Value) (key : Key) (value : Value) :
    (map.insert key value).erase key = map.erase key := by
  apply eq_of_entries
  cases found : map.get? key with
  | some old =>
      rw [insert_of_get?_some found]
      simp only [erase, mapValues, List.filter_map]
      rw [List.map_congr_left, List.map_id]
      · rfl
      · intro entry member
        have different := (List.mem_filter.mp member).2
        rw [if_neg (by simpa using different)]
        rfl
  | none => simp [erase, entries_insert_of_get?_none found]

theorem erase_insert_of_ne (map : InsertionMap Key Value) {key other : Key}
    (different : other ≠ key) (value : Value) :
    (map.insert other value).erase key = (map.erase key).insert other value := by
  have lookup : (map.erase key).get? other = map.get? other :=
    get?_erase_of_ne map different
  apply eq_of_entries
  cases found : map.get? other with
  | some old =>
      rw [insert_of_get?_some found, insert_of_get?_some (lookup.trans found)]
      simp only [erase, mapValues, List.filter_map]
      rfl
  | none =>
      rw [entries_insert_of_get?_none (lookup.trans found)]
      simp [erase, entries_insert_of_get?_none found, different]

theorem size_erase_of_mem {map : InsertionMap Key Value} {key : Key}
    (member : key ∈ map.keys) : (map.erase key).size + 1 = map.size := by
  have erased : map.keys.filter (· ≠ key) = map.keys.erase key := by
    rw [map.keys_nodup.erase_eq_filter]
    exact List.filter_congr fun stored _ => by
      rw [Bool.eq_iff_iff]; simp
  have positive := List.length_pos_of_mem member
  rw [← keys_length, ← keys_length, keys_erase, erased,
    List.length_erase_of_mem member]
  omega

/-! ## Sums over the values -/

/-- The sum of a measure over all values. -/
def total (map : InsertionMap Key Value) (measure : Value → Nat) : Nat :=
  (map.entries.map fun entry => measure entry.2).sum

variable (measure : Value → Nat)

theorem total_erase {map : InsertionMap Key Value} {key : Key} {value : Value}
    (found : map.get? key = some value) :
    (map.erase key).total measure + measure value = map.total measure := by
  rw [get?_eq_some_iff] at found
  obtain ⟨entries, nodup⟩ := map
  simp only [total, erase] at found ⊢
  induction entries with
  | nil => cases found
  | cons entry rest ih =>
      obtain ⟨fresh, restNodup⟩ := List.nodup_cons.mp nodup
      cases List.mem_cons.mp found with
      | inl same =>
          subst same
          have others : rest.filter (fun stored => stored.1 ≠ key) = rest := by
            apply List.filter_eq_self.mpr
            intro stored member
            have different : stored.1 ≠ key := fun equal =>
              fresh (List.mem_map.mpr ⟨stored, member, equal⟩)
            simpa using different
          rw [List.filter_cons_of_neg (by simp), others, List.map_cons, List.sum_cons,
            Nat.add_comm]
      | inr member =>
          have different : entry.1 ≠ key := fun equal =>
            fresh (List.mem_map.mpr ⟨(key, value), member, equal.symm⟩)
          rw [List.filter_cons_of_pos (by simpa using different), List.map_cons,
            List.sum_cons, List.map_cons, List.sum_cons, ← ih restNodup member,
            Nat.add_assoc]

theorem total_insert_of_absent {map : InsertionMap Key Value} {key : Key}
    (absent : map.get? key = none) (value : Value) :
    (map.insert key value).total measure = map.total measure + measure value := by
  simp [total, entries_insert_of_get?_none absent]

theorem total_insert_of_stored {map : InsertionMap Key Value} {key : Key} {old : Value}
    (found : map.get? key = some old) (value : Value) :
    (map.insert key value).total measure + measure old =
      map.total measure + measure value := by
  rw [insert_of_get?_some found]
  rw [get?_eq_some_iff] at found
  obtain ⟨entries, nodup⟩ := map
  simp only [total, mapValues, List.map_map, Function.comp_def] at found ⊢
  induction entries with
  | nil => cases found
  | cons entry rest ih =>
      obtain ⟨fresh, restNodup⟩ := List.nodup_cons.mp nodup
      rw [List.map_cons, List.sum_cons, List.map_cons, List.sum_cons]
      cases List.mem_cons.mp found with
      | inl same =>
          subst same
          have others : rest.map (fun stored =>
              measure (if stored.1 = key then value else stored.2)) =
              rest.map fun stored => measure stored.2 := by
            apply List.map_congr_left
            intro stored member
            have different : stored.1 ≠ key := fun equal =>
              fresh (List.mem_map.mpr ⟨stored, member, equal⟩)
            rw [if_neg different]
          rw [others, if_pos rfl]
          simp only
          omega
      | inr member =>
          have different : entry.1 ≠ key := fun equal =>
            fresh (List.mem_map.mpr ⟨(key, old), member, equal.symm⟩)
          have others := ih restNodup member
          rw [if_neg different]
          omega

theorem size_insert_le (map : InsertionMap Key Value) (key : Key) (value : Value) :
    (map.insert key value).size ≤ map.size + 1 := by
  rw [← keys_length, ← keys_length]
  by_cases member : key ∈ map.keys
  · rw [keys_insert_of_mem member]
    exact Nat.le_succ _
  · simp [keys_insert_of_not_mem member]

/-! ## Maps that store part of another map -/

section Part

variable {part whole : InsertionMap Key Value}

theorem entries_subperm (stored : ∀ key value, part.get? key = some value →
    whole.get? key = some value) : part.entries.Subperm whole.entries := by
  apply List.Nodup.subperm (List.Nodup.of_map Prod.fst part.nodupKeys)
  rintro ⟨key, value⟩ member
  exact get?_eq_some_iff.mp (stored key value (get?_eq_some_iff.mpr member))

theorem size_le_of_stored (stored : ∀ key value, part.get? key = some value →
    whole.get? key = some value) : part.size ≤ whole.size :=
  (entries_subperm stored).length_le

theorem total_le_of_stored (stored : ∀ key value, part.get? key = some value →
    whole.get? key = some value) : part.total measure ≤ whole.total measure := by
  obtain ⟨reordered, permuted, sublist⟩ := entries_subperm stored
  rw [total, total, ← (permuted.map fun entry => measure entry.2).sum_eq]
  exact (sublist.map _).sum_le_sum (by simp)

end Part

end InsertionMap
