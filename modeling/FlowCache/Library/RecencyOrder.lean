import Mathlib.Data.List.Dedup
import Mathlib.Order.Basic

/-!
# Caches that keep the most recently used keys

A cache of bounded capacity is the list of its keys from the least to the most recently
used one.  A hit moves its key to the end, an admission does the same and gives up the
first key when there are too many, and a removal forgets its key.

Two such caches with different capacities that receive the same requests stay nested:
the keys of the smaller one are keys of the larger one and in the same order.  A removal
can empty a place in either of them, so nesting alone is not kept; what is kept with it
is that the larger cache has at most as many keys more as it has places more.

The order of a cache that never gives a key up is read off the log of its touches: it is
the last occurrence of each key, in the order of the log.
-/

namespace RecencyOrder

universe u

variable {Key : Type u}

/-- Give up the least recently used key when there are too many. -/
def trim (capacity : Nat) (keys : List Key) : List Key :=
  if capacity < keys.length then keys.tail else keys

theorem trim_sublist (capacity : Nat) (keys : List Key) :
    (trim capacity keys).Sublist keys := by
  unfold trim
  split
  · exact List.tail_sublist keys
  · exact List.Sublist.refl keys

/-- Two caches with the same requests behind them. -/
structure Nested (small large : Nat) (first second : List Key) : Prop where
  sublist : first.Sublist second
  room : second.length + small ≤ first.length + large
  firstWithin : first.length ≤ small
  secondWithin : second.length ≤ large
  secondNodup : second.Nodup

namespace Nested

variable {small large : Nat} {first second : List Key}

theorem nil (le : small ≤ large) : Nested small large ([] : List Key) [] where
  sublist := List.Sublist.refl []
  room := by simpa using le
  firstWithin := Nat.zero_le small
  secondWithin := Nat.zero_le large
  secondNodup := List.nodup_nil

theorem mem_second (nested : Nested small large first second) {key : Key}
    (member : key ∈ first) : key ∈ second :=
  nested.sublist.subset member

end Nested

variable [DecidableEq Key]

/-- The key becomes the most recently used one. -/
def touch (keys : List Key) (key : Key) : List Key := keys.erase key ++ [key]

/-- A hit touches its key; a miss changes nothing. -/
def hit (keys : List Key) (key : Key) : List Key :=
  if key ∈ keys then touch keys key else keys

/-- Write a key. -/
def enter (capacity : Nat) (keys : List Key) (key : Key) : List Key :=
  trim capacity (touch keys key)

theorem length_touch_of_mem {keys : List Key} {key : Key} (member : key ∈ keys) :
    (touch keys key).length = keys.length := by
  rw [touch, List.length_append, List.length_singleton, List.length_erase_add_one member]

theorem length_touch_of_not_mem {keys : List Key} {key : Key} (fresh : key ∉ keys) :
    (touch keys key).length = keys.length + 1 := by
  rw [touch, List.length_append, List.length_singleton, List.erase_of_not_mem fresh]

theorem length_touch_le (keys : List Key) (key : Key) :
    (touch keys key).length ≤ keys.length + 1 := by
  rw [touch, List.length_append, List.length_singleton]
  exact Nat.succ_le_succ List.length_erase_le

theorem mem_touch {keys : List Key} {key query : Key} :
    query ∈ touch keys key ↔ query = key ∨ query ∈ keys := by
  rw [touch, List.mem_append, List.mem_singleton]
  by_cases same : query = key
  · simp [same]
  · simp [same, List.mem_erase_of_ne same]

theorem nodup_touch {keys : List Key} (nodup : keys.Nodup) (key : Key) :
    (touch keys key).Nodup := by
  rw [touch, List.nodup_append]
  refine ⟨nodup.erase key, List.nodup_singleton key, ?_⟩
  intro other otherMember last lastMember same
  rw [List.mem_singleton] at lastMember
  rw [same, lastMember] at otherMember
  exact (List.Nodup.not_mem_erase nodup) otherMember

theorem dedup_filter (keep : Key → Bool) (log : List Key) :
    (log.filter keep).dedup = log.dedup.filter keep := by
  induction log with
  | nil => rfl
  | cons key rest ih =>
      by_cases later : key ∈ rest
      · rw [List.dedup_cons_of_mem later, ← ih]
        by_cases kept : keep key
        · rw [List.filter_cons_of_pos kept,
            List.dedup_cons_of_mem (List.mem_filter.mpr ⟨later, kept⟩)]
        · rw [List.filter_cons_of_neg kept]
      · have fresh : key ∉ rest.filter keep := fun member =>
          later (List.mem_filter.mp member).1
        rw [List.dedup_cons_of_notMem later]
        by_cases kept : keep key
        · rw [List.filter_cons_of_pos kept, List.filter_cons_of_pos kept,
            List.dedup_cons_of_notMem fresh, ih]
        · rw [List.filter_cons_of_neg kept, List.filter_cons_of_neg kept, ih]

/-- One more touch in the log moves its key to the end of the order. -/
theorem dedup_append_singleton (log : List Key) (key : Key) :
    (log ++ [key]).dedup = touch log.dedup key := by
  rw [touch, (List.nodup_dedup log).erase_eq_filter, ← dedup_filter]
  induction log with
  | nil => rfl
  | cons first rest ih =>
      rw [List.cons_append]
      by_cases same : first = key
      · subst same
        rw [List.dedup_cons_of_mem (by simp), ih, List.filter_cons_of_neg (by simp)]
      · rw [List.filter_cons_of_pos (by simpa using same)]
        by_cases later : first ∈ rest
        · rw [List.dedup_cons_of_mem (by simp [later]), ih,
            List.dedup_cons_of_mem (by simp [later, same])]
        · rw [List.dedup_cons_of_notMem (by simp [later, same]), ih,
            List.dedup_cons_of_notMem (by simp [later]), List.cons_append]

/-! ## Times -/

section Times

variable {Time : Type*} [Preorder Time] {time : Key → Time} {keys : List Key} {key : Key}

/-- A key that is touched at the latest time of all stays in the order of the times. -/
theorem pairwise_touch_latest {now : Time}
    (ordered : keys.Pairwise fun first second => time first < time second)
    (nodup : keys.Nodup) (later : ∀ other ∈ keys, time other < now) :
    (touch keys key).Pairwise fun first second =>
      Function.update time key now first < Function.update time key now second := by
  have others : ∀ other ∈ keys.erase key, other ≠ key ∧ other ∈ keys := fun other member =>
    nodup.mem_erase_iff.mp member
  rw [touch, List.pairwise_append]
  refine ⟨?_, List.pairwise_singleton _ _, ?_⟩
  · apply (ordered.sublist List.erase_sublist).imp_of_mem
    intro first second firstMember secondMember before
    rwa [Function.update_of_ne (others first firstMember).1,
      Function.update_of_ne (others second secondMember).1]
  · intro first firstMember last lastMember
    rw [List.mem_singleton.mp lastMember, Function.update_self,
      Function.update_of_ne (others first firstMember).1]
    exact later first (others first firstMember).2

/-- A key that is touched without a new time stays in the order of the times only if it
was the last one. -/
theorem pairwise_touch_iff
    (ordered : keys.Pairwise fun first second => time first < time second)
    (nodup : keys.Nodup) (member : key ∈ keys) :
    (touch keys key).Pairwise (fun first second => time first < time second) ↔
      keys.getLast? = some key := by
  obtain ⟨before, after, rfl⟩ := List.append_of_mem member
  have fresh : key ∉ before := by
    intro earlier
    exact (List.nodup_append.mp nodup).2.2 key earlier key List.mem_cons_self rfl
  have moved : touch (before ++ key :: after) key = before ++ (after ++ [key]) := by
    rw [touch, List.erase_append_right _ fresh, List.erase_cons_head, List.append_assoc]
  rw [moved]
  cases after with
  | nil => simpa using ordered
  | cons other rest =>
      have behind : time key < time other :=
        (List.pairwise_cons.mp (List.pairwise_append.mp ordered).2.1).1 other
          List.mem_cons_self
      constructor
      · intro touched
        have ahead : time other < time key :=
          (List.pairwise_cons.mp (List.pairwise_append.mp touched).2.1).1 key
            (List.mem_append_right rest (List.mem_singleton_self key))
        exact absurd ahead behind.not_gt
      · intro last
        have inside : key ∈ other :: rest := by
          rw [List.getLast?_append_cons, List.getLast?_cons_cons] at last
          exact List.mem_of_getLast? last
        have distinct := (List.nodup_append.mp nodup).2.1
        exact absurd inside (List.nodup_cons.mp distinct).1

end Times

theorem length_enter_le {capacity : Nat} {keys : List Key} (key : Key)
    (within : keys.length ≤ capacity) : (enter capacity keys key).length ≤ capacity := by
  have bounded := length_touch_le keys key
  unfold enter trim
  split
  · rw [List.length_tail]
    omega
  · next fits => exact Nat.le_of_not_lt fits

namespace Nested

variable {small large : Nat} {first second : List Key}

theorem touch_sublist (nested : Nested small large first second) (key : Key) :
    (touch first key).Sublist (touch second key) :=
  (nested.sublist.erase key).append (List.Sublist.refl [key])

/-- A key of both caches is used. -/
theorem hit_both (nested : Nested small large first second) {key : Key}
    (member : key ∈ first) :
    Nested small large (touch first key) (touch second key) where
  sublist := nested.touch_sublist key
  room := by
    rw [length_touch_of_mem member, length_touch_of_mem (nested.mem_second member)]
    exact nested.room
  firstWithin := by
    rw [length_touch_of_mem member]
    exact nested.firstWithin
  secondWithin := by
    rw [length_touch_of_mem (nested.mem_second member)]
    exact nested.secondWithin
  secondNodup := nodup_touch nested.secondNodup key

/-- A key of the larger cache alone is used. -/
theorem hit_second (nested : Nested small large first second) {key : Key}
    (fresh : key ∉ first) (member : key ∈ second) :
    Nested small large first (touch second key) where
  sublist := by
    rw [← List.erase_of_not_mem fresh]
    exact (nested.sublist.erase key).trans (List.sublist_append_left _ _)
  room := by
    rw [length_touch_of_mem member]
    exact nested.room
  firstWithin := nested.firstWithin
  secondWithin := by
    rw [length_touch_of_mem member]
    exact nested.secondWithin
  secondNodup := nodup_touch nested.secondNodup key

theorem hit (nested : Nested small large first second) (key : Key) :
    Nested small large (RecencyOrder.hit first key) (RecencyOrder.hit second key) := by
  unfold RecencyOrder.hit
  by_cases inFirst : key ∈ first
  · rw [if_pos inFirst, if_pos (nested.mem_second inFirst)]
    exact nested.hit_both inFirst
  · rw [if_neg inFirst]
    split
    · next inSecond => exact nested.hit_second inFirst inSecond
    · exact nested

/-- When the larger cache gives up a key, so does the smaller one. -/
theorem smaller_full (nested : Nested small large first second) {key : Key}
    (full : large < (touch second key).length) : small < (touch first key).length := by
  have fresh : key ∉ second := by
    intro member
    rw [length_touch_of_mem member] at full
    exact absurd nested.secondWithin (Nat.not_le_of_lt full)
  have absent : key ∉ first := fun member => fresh (nested.mem_second member)
  have room := nested.room
  rw [length_touch_of_not_mem fresh] at full
  rw [length_touch_of_not_mem absent]
  omega

theorem enter_sublist (nested : Nested small large first second) (key : Key) :
    (enter small first key).Sublist (enter large second key) := by
  have touched := nested.touch_sublist key
  by_cases full : large < (touch second key).length
  · rw [enter, enter, trim, trim, if_pos full, if_pos (nested.smaller_full full)]
    exact touched.tail
  · rw [enter, enter, trim, trim, if_neg full]
    exact (trim_sublist small (touch first key)).trans touched

theorem enter_room (nested : Nested small large first second) (key : Key) :
    (enter large second key).length + small ≤ (enter small first key).length + large := by
  have room := nested.room
  have firstWithin := nested.firstWithin
  have secondWithin := nested.secondWithin
  have secondBound := length_enter_le key secondWithin
  by_cases trimmed : small < (touch first key).length
  · have bounded := length_touch_le first key
    have kept : (enter small first key).length = small := by
      rw [enter, trim, if_pos trimmed, List.length_tail]
      omega
    omega
  · have fits : ¬large < (touch second key).length :=
      fun full => trimmed (nested.smaller_full full)
    rw [enter, trim, if_neg fits, enter, trim, if_neg trimmed]
    by_cases inFirst : key ∈ first
    · rw [length_touch_of_mem inFirst, length_touch_of_mem (nested.mem_second inFirst)]
      exact room
    · have longer := length_touch_le second key
      rw [length_touch_of_not_mem inFirst]
      omega

theorem enter (nested : Nested small large first second) (key : Key) :
    Nested small large (RecencyOrder.enter small first key)
      (RecencyOrder.enter large second key) where
  sublist := nested.enter_sublist key
  room := nested.enter_room key
  firstWithin := length_enter_le key nested.firstWithin
  secondWithin := length_enter_le key nested.secondWithin
  secondNodup :=
    (trim_sublist large _).nodup (nodup_touch nested.secondNodup key)

theorem remove (nested : Nested small large first second) (key : Key) :
    Nested small large (first.erase key) (second.erase key) where
  sublist := nested.sublist.erase key
  room := by
    have room := nested.room
    by_cases inFirst : key ∈ first
    · have shorterFirst := List.length_erase_add_one inFirst
      have shorterSecond := List.length_erase_add_one (nested.mem_second inFirst)
      omega
    · have shorter : (second.erase key).length ≤ second.length := List.length_erase_le
      rw [List.erase_of_not_mem inFirst]
      omega
  firstWithin := Nat.le_trans List.length_erase_le nested.firstWithin
  secondWithin := Nat.le_trans List.length_erase_le nested.secondWithin
  secondNodup := nested.secondNodup.erase key

end Nested

end RecencyOrder
