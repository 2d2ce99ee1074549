import Mathlib.Data.List.Count
import FlowCache.Library.RecencyOrder

/-!
# How much worse than another cache a recency order can be

The same keys are requested from a recency order of some capacity and from any other cache
of at most that size, both of which admit what they miss.  The potential of the order adds
up, over its keys from the least recently used one on, how many keys from there on the
other cache has not.  A miss of the other cache raises it by at most the capacity; a miss
of a full order lowers it by at least the number of places it has more, and one.  So the
misses of the order are bounded by those of the other cache.
-/

namespace RecencyOrder

universe u

variable {Key : Type u} [DecidableEq Key]

/-- How many keys the other cache has not. -/
def missing (held keys : List Key) : Nat := keys.countP fun key => key ∉ held

/-- The potential of an order against another cache. -/
def potential (held : List Key) : List Key → Nat
  | [] => 0
  | key :: rest => missing held (key :: rest) + potential held rest

variable {held next keys fewer : List Key} {key victim : Key} {capacity size : Nat}

theorem missing_mono (sublist : fewer.Sublist keys) :
    missing held fewer ≤ missing held keys :=
  sublist.countP_le

theorem potential_mono (sublist : fewer.Sublist keys) :
    potential held fewer ≤ potential held keys := by
  induction sublist with
  | slnil => exact Nat.le_refl 0
  | cons key _ ih => exact Nat.le_trans ih (Nat.le_add_left _ _)
  | cons_cons key sublist ih =>
      exact Nat.add_le_add (missing_mono (sublist.cons_cons key)) ih

/-- A key that the other cache has adds nothing at the end. -/
theorem potential_append_held (member : key ∈ held) (keys : List Key) :
    potential held (keys ++ [key]) = potential held keys := by
  induction keys with
  | nil => simp [potential, missing, member]
  | cons first rest ih =>
      rw [List.cons_append, potential, ih, potential]
      congr 1
      rw [missing, missing, ← List.cons_append, List.countP_append]
      simp [member]

/-- Giving up the first key lowers the potential by what was missing. -/
theorem potential_tail (held keys : List Key) :
    potential held keys = missing held keys + potential held keys.tail := by
  cases keys with
  | nil => rfl
  | cons key rest => rfl

/-- The other cache gives up one key at most. -/
theorem missing_le_of_kept (kept : ∀ key ∈ held, key = victim ∨ key ∈ next)
    (nodup : keys.Nodup) : missing next keys ≤ missing held keys + 1 := by
  induction keys with
  | nil => exact Nat.zero_le _
  | cons key rest ih =>
      obtain ⟨fresh, distinct⟩ := List.nodup_cons.mp nodup
      rw [missing, missing, List.countP_cons, List.countP_cons]
      by_cases same : key = victim
      · have others : missing next rest ≤ missing held rest := by
          apply List.countP_mono_left
          intro other member absent
          simp only [decide_eq_true_eq] at absent ⊢
          intro there
          rcases kept other there with rfl | still
          · exact fresh (same ▸ member)
          · exact absent still
        rw [missing, missing] at others
        split <;> split <;> omega
      · have rest_le := ih distinct
        rw [missing, missing] at rest_le
        have own : (if decide (key ∉ next) = true then 1 else 0) ≤
            if decide (key ∉ held) = true then 1 else 0 := by
          by_cases there : key ∈ held
          · simp [there, (kept key there).resolve_left same]
          · simp only [there, not_false_eq_true, decide_true, if_true]
            split <;> omega
        omega

theorem potential_le_of_kept (kept : ∀ key ∈ held, key = victim ∨ key ∈ next)
    (nodup : keys.Nodup) : potential next keys ≤ potential held keys + keys.length := by
  induction keys with
  | nil => exact Nat.le_refl _
  | cons key rest ih =>
      have one := missing_le_of_kept kept nodup
      have others := ih (List.nodup_cons.mp nodup).2
      rw [potential, potential, List.length_cons]
      omega

/-- A full order that misses a key of the other cache has many keys that the other cache
has not. -/
theorem le_missing (nodup : keys.Nodup) (fresh : key ∉ keys) (member : key ∈ held)
    (within : held.length ≤ size) : keys.length + 1 ≤ missing held keys + size := by
  have shared : (key :: keys.filter fun other => other ∈ held).length ≤ held.length := by
    apply (List.subperm_of_subset ?_ ?_).length_le
    · refine List.nodup_cons.mpr ⟨?_, nodup.filter _⟩
      exact fun there => fresh (List.mem_filter.mp there).1
    · intro other there
      rcases List.mem_cons.mp there with rfl | shared
      · exact member
      · exact of_decide_eq_true (List.mem_filter.mp shared).2
  have counted : keys.length = (keys.filter fun other => other ∈ held).length +
      missing held keys := by
    rw [← List.countP_eq_length_filter, missing]
    have split :=
      List.length_eq_countP_add_countP (fun other => decide (other ∈ held)) (l := keys)
    simpa using split
  rw [List.length_cons] at shared
  omega

/-! ## The account -/

/-- What the misses of the order are paid with: those of the other cache, each with the
capacity, and its own places. -/
structure Competes (capacity size : Nat) (keys held : List Key) (misses others : Nat) :
    Prop where
  nodup : keys.Nodup
  within : keys.length ≤ capacity
  otherWithin : held.length ≤ size
  account : (capacity - size + 1) * misses + potential held keys ≤
    capacity * others + (capacity - size + 1) * keys.length

namespace Competes

variable {misses others : Nat}

theorem start (capacity size : Nat) : Competes capacity size ([] : List Key) [] 0 0 where
  nodup := List.nodup_nil
  within := Nat.zero_le _
  otherWithin := Nat.zero_le _
  account := Nat.le_refl _

/-- Both caches miss a key that neither admits. -/
theorem refused (competes : Competes capacity size keys held misses others)
    (positive : 1 ≤ size) (le : size ≤ capacity) :
    Competes capacity size keys held (misses + 1) (others + 1) where
  nodup := competes.nodup
  within := competes.within
  otherWithin := competes.otherWithin
  account := by
    have account := competes.account
    rw [Nat.mul_add_one, Nat.mul_add_one]
    omega

/-- The other cache has admitted the key it missed. -/
theorem admitted (competes : Competes capacity size keys held misses others)
    (kept : ∀ key ∈ held, key = victim ∨ key ∈ next) (within : next.length ≤ size) :
    Competes capacity size keys next misses (others + 1) where
  nodup := competes.nodup
  within := competes.within
  otherWithin := within
  account := by
    have account := competes.account
    have raised := potential_le_of_kept kept competes.nodup
    have bounded := competes.within
    rw [Nat.mul_add_one]
    omega

/-- The order is asked for a key that it has and the other cache has, too. -/
theorem hit (competes : Competes capacity size keys held misses others)
    (member : key ∈ keys) (held' : key ∈ held) :
    Competes capacity size (touch keys key) held misses others where
  nodup := nodup_touch competes.nodup key
  within := by
    rw [length_touch_of_mem member]
    exact competes.within
  otherWithin := competes.otherWithin
  account := by
    have account := competes.account
    have lowered : potential held (keys.erase key) ≤ potential held keys :=
      potential_mono List.erase_sublist
    rw [length_touch_of_mem member, touch, potential_append_held held']
    omega

/-- The order is asked for a key that only the other cache has. -/
theorem miss (competes : Competes capacity size keys held misses others)
    (positive : 1 ≤ size) (le : size ≤ capacity) (fresh : key ∉ keys) (held' : key ∈ held) :
    Competes capacity size (enter capacity keys key) held (misses + 1) others where
  nodup := (trim_sublist capacity _).nodup (nodup_touch competes.nodup key)
  within := length_enter_le key competes.within
  otherWithin := competes.otherWithin
  account := by
    have account := competes.account
    have bounded := competes.within
    have touched : touch keys key = keys ++ [key] := by
      rw [touch, List.erase_of_not_mem fresh]
    rw [enter, trim, touched, List.length_append, List.length_singleton, Nat.mul_add_one]
    by_cases full : capacity < keys.length + 1
    · have nonempty : keys ≠ [] := by
        rintro rfl
        rw [List.length_nil] at full
        omega
      have many := le_missing competes.nodup fresh held' competes.otherWithin
      have lowered := potential_tail held keys
      rw [if_pos full, List.tail_append_of_ne_nil nonempty, potential_append_held held',
        List.length_append, List.length_tail, List.length_singleton,
        Nat.sub_add_cancel (List.length_pos_iff.mpr nonempty)]
      omega
    · rw [if_neg full, potential_append_held held', List.length_append,
        List.length_singleton, Nat.mul_add_one]
      omega

/-- The bound. -/
theorem misses_le (competes : Competes capacity size keys held misses others) :
    (capacity - size + 1) * misses ≤
      capacity * others + (capacity - size + 1) * capacity := by
  have account := competes.account
  have places := Nat.mul_le_mul_left (capacity - size + 1) competes.within
  omega

end Competes

end RecencyOrder
