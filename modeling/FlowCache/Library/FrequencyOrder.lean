import Mathlib.Data.List.MinMax
import Mathlib.Data.List.Nodup

/-!
# Counts in the order in which they were reached

Keys with their counts, the key whose count changed last at the end.  Counting a key
takes it out of its place and puts it back with a higher count, so the keys of one count
stand in the order in which they reached it.  The least frequent key of a selection is
found by one scan that keeps the first of the lowest counts; the lemmas below relate the
scan to the keys of one count, which is how a bucket structure finds it.
-/

namespace FrequencyOrder

universe u

variable {Key : Type u}

/-- The keys of one count. -/
def keysAt (order : List (Key × Nat)) (count : Nat) : List Key :=
  (order.filter fun item => item.2 = count).map Prod.fst

/-- The lowest count, or 0 when there is none. -/
def lowest (order : List (Key × Nat)) : Nat :=
  (order.map Prod.snd).min?.getD 0

/-- The first of the selected keys with the lowest count. -/
def leastFrequent (order : List (Key × Nat)) (selected : Key → Bool) : Option Key :=
  ((order.filter fun item => selected item.1).argmin Prod.snd).map Prod.fst

theorem mem_keysAt {order : List (Key × Nat)} {key : Key} {count : Nat} :
    key ∈ keysAt order count ↔ (key, count) ∈ order := by
  simp [keysAt]

theorem keysAt_append (first second : List (Key × Nat)) (count : Nat) :
    keysAt (first ++ second) count = keysAt first count ++ keysAt second count := by
  simp [keysAt]

/-- A key has one count. -/
theorem count_unique {order : List (Key × Nat)} (nodup : (order.map Prod.fst).Nodup)
    {key : Key} {first second : Nat} (left : (key, first) ∈ order)
    (right : (key, second) ∈ order) : first = second := by
  have same := List.inj_on_of_nodup_map nodup left right rfl
  exact congrArg Prod.snd same

/-! ## The lowest count -/

theorem lowest_of_mem {order : List (Key × Nat)} {key : Key} {count : Nat}
    (member : (key, count) ∈ order) (least : ∀ item ∈ order, count ≤ item.2) :
    lowest order = count := by
  have found : (order.map Prod.snd).min? = some count := by
    rw [List.min?_eq_some_iff]
    refine ⟨List.mem_map.mpr ⟨(key, count), member, rfl⟩, ?_⟩
    intro other counted
    obtain ⟨item, itemMember, rfl⟩ := List.mem_map.mp counted
    exact least item itemMember
  rw [lowest, found, Option.getD_some]

theorem exists_lowest {order : List (Key × Nat)} (nonempty : order ≠ []) :
    (∃ key, (key, lowest order) ∈ order) ∧ ∀ item ∈ order, lowest order ≤ item.2 := by
  cases found : (order.map Prod.snd).min? with
  | none => exact absurd (List.map_eq_nil_iff.mp (List.min?_eq_none_iff.mp found)) nonempty
  | some count =>
      have lowestEq : lowest order = count := by rw [lowest, found, Option.getD_some]
      obtain ⟨member, least⟩ := List.min?_eq_some_iff.mp found
      obtain ⟨item, itemMember, rfl⟩ := List.mem_map.mp member
      rw [lowestEq]
      exact ⟨⟨item.1, itemMember⟩,
        fun other otherMember => least _ (List.mem_map.mpr ⟨other, otherMember, rfl⟩)⟩

/-! ## The least frequent key -/

/-- A scan that keeps the first of the lowest values finds the first item that has the
lowest value. -/
theorem argmin_eq_head?_filter {Item : Type*} {value : Item → Nat} {items : List Item}
    {least : Nat} (attained : ∃ item ∈ items, value item = least)
    (bound : ∀ item ∈ items, least ≤ value item) :
    items.argmin value = (items.filter fun item => value item = least).head? := by
  induction items with
  | nil =>
      obtain ⟨item, member, _⟩ := attained
      cases member
  | cons item rest ih =>
      have restBound : ∀ other ∈ rest, least ≤ value other := fun other member =>
        bound other (List.mem_cons_of_mem item member)
      rw [List.argmin_cons]
      by_cases first : value item = least
      · rw [List.filter_cons_of_pos (by simpa using first), List.head?_cons]
        cases found : rest.argmin value with
        | none => rfl
        | some other =>
            have notLower : ¬value other < value item := by
              rw [first]
              exact not_lt.mpr (restBound other (List.argmin_mem found))
            simp only [if_neg notLower]
      · obtain ⟨other, member, lowestValue⟩ := attained
        have later : other ∈ rest := by
          rcases List.mem_cons.mp member with same | later
          · exact absurd (same ▸ lowestValue) first
          · exact later
        rw [List.filter_cons_of_neg (by simpa using first)]
        have scanned := ih ⟨other, later, lowestValue⟩ restBound
        cases found : rest.argmin value with
        | none =>
            rw [List.argmin_eq_none] at found
            rw [found] at later
            cases later
        | some chosen =>
            rw [found] at scanned
            have chosenLeast : value chosen = least := by
              have inside := List.mem_of_head? scanned.symm
              simpa using (List.mem_filter.mp inside).2
            have lower : value chosen < value item := by
              have above := bound item List.mem_cons_self
              omega
            simp only [if_pos lower]
            exact scanned

/-- The items before the one that a scan finds have higher values. -/
theorem argmin_split {Item : Type*} {value : Item → Nat} {items : List Item} {found : Item}
    (scanned : items.argmin value = some found) :
    ∃ before after, items = before ++ found :: after ∧
      ∀ item ∈ before, value found < value item := by
  have bound : ∀ item ∈ items, value found ≤ value item := fun item member =>
    List.le_of_mem_argmin member scanned
  have first := scanned
  rw [argmin_eq_head?_filter ⟨found, List.argmin_mem scanned, rfl⟩ bound, List.head?_filter,
    List.find?_eq_some_iff_append] at first
  obtain ⟨-, before, after, split, skipped⟩ := first
  refine ⟨before, after, split, ?_⟩
  intro item member
  have above := bound item (split ▸ List.mem_append_left _ member)
  have different : value item ≠ value found := by simpa using skipped item member
  omega

/-- The first selected key of a count is the least frequent one when no selected key has
a lower count. -/
theorem leastFrequent_eq {order : List (Key × Nat)} {selected : Key → Bool} {count : Nat}
    {key : Key} (found : (keysAt order count).find? selected = some key)
    (bound : ∀ item ∈ order, selected item.1 = true → count ≤ item.2) :
    leastFrequent order selected = some key := by
  have member : (key, count) ∈ order := mem_keysAt.mp (List.mem_of_find?_eq_some found)
  have chosen : selected key = true := List.find?_some found
  have scan : (order.filter fun item => selected item.1).argmin Prod.snd =
      ((order.filter fun item => selected item.1).filter fun item => item.2 = count).head? := by
    apply argmin_eq_head?_filter
    · exact ⟨(key, count), List.mem_filter.mpr ⟨member, chosen⟩, rfl⟩
    · intro item inside
      exact bound item (List.mem_filter.mp inside).1 (List.mem_filter.mp inside).2
  rw [leastFrequent, scan, List.filter_comm, ← List.head?_map, ← found, keysAt,
    ← List.head?_filter, List.filter_map]
  rfl

/-- What a scan finds is selected and has the lowest count of the selected keys, and the
selected keys before it have higher counts. -/
theorem leastFrequent_spec {order : List (Key × Nat)} {selected : Key → Bool} {key : Key}
    (found : leastFrequent order selected = some key) :
    ∃ before count after, order = before ++ (key, count) :: after ∧
      selected key = true ∧ (∀ item ∈ order, selected item.1 = true → count ≤ item.2) ∧
      ∀ item ∈ before, selected item.1 = true → count < item.2 := by
  obtain ⟨⟨_, count⟩, scanned, rfl⟩ := Option.map_eq_some_iff.mp found
  have bound : ∀ item ∈ order, selected item.1 = true → count ≤ item.2 := by
    intro item member chosen
    exact List.le_of_mem_argmin (List.mem_filter.mpr ⟨member, chosen⟩) scanned
  have first := scanned
  rw [argmin_eq_head?_filter ⟨_, List.argmin_mem scanned, rfl⟩
      fun item member => List.le_of_mem_argmin member scanned,
    List.filter_filter, List.head?_filter, List.find?_eq_some_iff_append] at first
  obtain ⟨chosen, before, after, split, skipped⟩ := first
  simp only [decide_true, Bool.true_and] at chosen
  refine ⟨before, count, after, split, chosen, bound, ?_⟩
  intro item member itemChosen
  have above := bound item (split ▸ List.mem_append_left _ member) itemChosen
  have different : item.2 ≠ count := by
    intro same
    simpa [same, itemChosen] using skipped item member
  omega

/-! ## Counting and forgetting a key -/

variable [DecidableEq Key]

/-- Take a key out. -/
def forget (order : List (Key × Nat)) (key : Key) : List (Key × Nat) :=
  order.filter fun item => item.1 ≠ key

/-- The count of a key, 0 when it has none. -/
def countOf (order : List (Key × Nat)) (key : Key) : Nat :=
  ((order.find? fun item => item.1 = key).map Prod.snd).getD 0

/-- Count a key once more. -/
def count (order : List (Key × Nat)) (key : Key) : List (Key × Nat) :=
  forget order key ++ [(key, countOf order key + 1)]

theorem mem_forget {order : List (Key × Nat)} {key : Key} {item : Key × Nat} :
    item ∈ forget order key ↔ item ∈ order ∧ item.1 ≠ key := by
  simp [forget]

theorem keysAt_forget (order : List (Key × Nat)) (key : Key) (count : Nat) :
    keysAt (forget order key) count = (keysAt order count).filter (· ≠ key) := by
  rw [keysAt, keysAt, forget, List.filter_comm, List.filter_map]
  rfl

theorem forget_of_absent {order : List (Key × Nat)} {key : Key}
    (absent : key ∉ order.map Prod.fst) : forget order key = order := by
  apply List.filter_eq_self.mpr
  intro item member
  have different : item.1 ≠ key := by
    intro same
    exact absent (List.mem_map.mpr ⟨item, member, same⟩)
  simpa using different

theorem nodup_forget {order : List (Key × Nat)} (nodup : (order.map Prod.fst).Nodup)
    (key : Key) : ((forget order key).map Prod.fst).Nodup :=
  (List.filter_sublist.map Prod.fst).nodup nodup

theorem key_not_mem_forget (order : List (Key × Nat)) (key : Key) :
    key ∉ (forget order key).map Prod.fst := by
  intro member
  obtain ⟨item, inside, same⟩ := List.mem_map.mp member
  exact (mem_forget.mp inside).2 same

theorem countOf_of_absent {order : List (Key × Nat)} {key : Key}
    (absent : key ∉ order.map Prod.fst) : countOf order key = 0 := by
  have missing : order.find? (fun item => item.1 = key) = none := by
    rw [List.find?_eq_none]
    intro item member same
    exact absent (List.mem_map.mpr ⟨item, member, of_decide_eq_true same⟩)
  rw [countOf, missing]
  rfl

theorem count_of_absent {order : List (Key × Nat)} {key : Key}
    (absent : key ∉ order.map Prod.fst) : count order key = order ++ [(key, 1)] := by
  rw [count, forget_of_absent absent, countOf_of_absent absent]

theorem countOf_of_mem {order : List (Key × Nat)} (nodup : (order.map Prod.fst).Nodup)
    {key : Key} {count : Nat} (member : (key, count) ∈ order) :
    countOf order key = count := by
  cases found : order.find? fun item => item.1 = key with
  | none => simpa using List.find?_eq_none.mp found (key, count) member
  | some item =>
      have same : item.1 = key := of_decide_eq_true (List.find?_some found :)
      have inside : (key, item.2) ∈ order := same ▸ List.mem_of_find?_eq_some found
      rw [countOf, found, Option.map_some, Option.getD_some]
      exact count_unique nodup inside member

theorem count_of_mem {order : List (Key × Nat)} (nodup : (order.map Prod.fst).Nodup)
    {key : Key} {freq : Nat} (member : (key, freq) ∈ order) :
    count order key = forget order key ++ [(key, freq + 1)] := by
  rw [count, countOf_of_mem nodup member]

/-- The key that has the lowest count is still there when another one leaves, or when
others with the same count stay. -/
theorem exists_lowest_forget {order : List (Key × Nat)} {key : Key} {count : Nat}
    (nodup : (order.map Prod.fst).Nodup) (member : (key, count) ∈ order)
    (kept : keysAt (forget order key) count = [] → lowest order ≠ count) :
    ∃ other, (other, lowest order) ∈ forget order key := by
  by_cases same : lowest order = count
  · obtain ⟨other, inside⟩ := List.exists_mem_of_ne_nil _ fun empty => kept empty same
    exact ⟨other, same ▸ mem_keysAt.mp inside⟩
  · obtain ⟨⟨other, inside⟩, _⟩ := exists_lowest (List.ne_nil_of_mem member)
    refine ⟨other, mem_forget.mpr ⟨inside, ?_⟩⟩
    intro equal
    have inside : (key, lowest order) ∈ order := equal ▸ inside
    exact same (count_unique nodup inside member)

theorem lowest_forget {order : List (Key × Nat)} {key : Key} {count : Nat}
    (nodup : (order.map Prod.fst).Nodup) (member : (key, count) ∈ order)
    (kept : keysAt (forget order key) count = [] → lowest order ≠ count) :
    lowest (forget order key) = lowest order := by
  obtain ⟨other, inside⟩ := exists_lowest_forget nodup member kept
  apply lowest_of_mem inside
  intro item itemMember
  exact (exists_lowest (List.ne_nil_of_mem member)).2 item (mem_forget.mp itemMember).1

/-- The lowest count follows a key that was alone with it, and stays otherwise. -/
theorem lowest_count {order : List (Key × Nat)} {key : Key} {count : Nat}
    (nodup : (order.map Prod.fst).Nodup) (member : (key, count) ∈ order) :
    lowest (forget order key ++ [(key, count + 1)]) =
      if keysAt (forget order key) count = [] ∧ lowest order = count then count + 1
      else lowest order := by
  have least := (exists_lowest (List.ne_nil_of_mem member)).2
  split
  · next alone =>
      apply lowest_of_mem (List.mem_append_right _ (List.mem_singleton_self _))
      intro item inside
      rcases List.mem_append.mp inside with other | added
      · have above := least item (mem_forget.mp other).1
        have different : item.2 ≠ count := by
          intro same
          have listed : item.1 ∈ keysAt (forget order key) count :=
            mem_keysAt.mpr (same ▸ other)
          rw [alone.1] at listed
          cases listed
        omega
      · rw [List.mem_singleton.mp added]
  · next shared =>
      obtain ⟨other, inside⟩ := exists_lowest_forget nodup member
        fun empty same => shared ⟨empty, same⟩
      apply lowest_of_mem (List.mem_append_left _ inside)
      intro item itemMember
      rcases List.mem_append.mp itemMember with other | added
      · exact least item (mem_forget.mp other).1
      · rw [List.mem_singleton.mp added]
        exact (least (key, count) member).trans (Nat.le_succ count)

end FrequencyOrder
