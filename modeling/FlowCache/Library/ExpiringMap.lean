import Mathlib.Data.List.Induction
import Mathlib.Order.Lattice

/-!
# Maps with deadlines and caches of them

A map binds keys to values, each with a deadline or with none; a binding is visible
until its deadline.  A cache of a map holds some of its bindings.  Updates that reach
both keep this, and so does whatever the cache forgets on its own.  As long as it forgets
nothing but what is no longer visible, looking a key up in the cache is looking it up in
the map.
-/

namespace ExpiringMap

universe u v w

variable {Key : Type u} {Value : Type v} {Time : Type w}

/-- A value and the time from which on it is no longer visible. -/
structure Binding (Value : Type v) (Time : Type w) where
  value : Value
  expiresAt : Option Time
  deriving DecidableEq, Repr

/-- What is bound to each key. -/
abbrev Contents (Key : Type u) (Value : Type v) (Time : Type w) :=
  Key → Option (Binding Value Time)

/-- A change of a map. -/
inductive Update (Key : Type u) (Value : Type v) (Time : Type w) where
  | bind (key : Key) (binding : Binding Value Time)
  | unbind (key : Key)
  | clear

/-- The map without bindings. -/
def nothing : Contents Key Value Time := fun _ => none

/-- The update decides what is bound to the key. -/
def Update.Touches (key : Key) : Update Key Value Time → Prop
  | .bind written _ => written = key
  | .unbind removed => removed = key
  | .clear => True

section Updates

variable [DecidableEq Key]

/-- The map after an update. -/
def Contents.apply (contents : Contents Key Value Time) :
    Update Key Value Time → Contents Key Value Time
  | .bind key binding => fun query => if query = key then some binding else contents query
  | .unbind key => fun query => if query = key then none else contents query
  | .clear => nothing

/-- The map after a list of updates. -/
def Contents.applyAll (contents : Contents Key Value Time)
    (updates : List (Update Key Value Time)) : Contents Key Value Time :=
  updates.foldl Contents.apply contents

@[simp] theorem applyAll_nil (contents : Contents Key Value Time) :
    contents.applyAll [] = contents := rfl

theorem applyAll_append (contents : Contents Key Value Time)
    (first second : List (Update Key Value Time)) :
    contents.applyAll (first ++ second) = (contents.applyAll first).applyAll second :=
  List.foldl_append

theorem applyAll_concat (contents : Contents Key Value Time)
    (updates : List (Update Key Value Time)) (update : Update Key Value Time) :
    contents.applyAll (updates ++ [update]) = (contents.applyAll updates).apply update :=
  applyAll_append contents updates [update]

theorem apply_eq_some_iff {update : Update Key Value Time} {key : Key}
    {contents : Contents Key Value Time} {binding : Binding Value Time} :
    contents.apply update key = some binding ↔
      update = .bind key binding ∨ (¬ update.Touches key ∧ contents key = some binding) := by
  cases update with
  | bind written bound =>
      by_cases same : key = written
      · subst same
        simp [Contents.apply, Update.Touches]
      · simp [Contents.apply, Update.Touches, same, Ne.symm same]
  | unbind removed =>
      by_cases same : key = removed
      · subst same
        simp [Contents.apply, Update.Touches]
      · simp [Contents.apply, Update.Touches, same, Ne.symm same]
  | clear => simp [Contents.apply, Update.Touches, nothing]

/-- What is bound to a key is what the last update that touches the key bound to it. -/
theorem applyAll_nothing_eq_some_iff {updates : List (Update Key Value Time)} {key : Key}
    {binding : Binding Value Time} :
    nothing.applyAll updates key = some binding ↔
      ∃ earlier later, updates = earlier ++ .bind key binding :: later ∧
        ∀ update ∈ later, ¬ update.Touches key := by
  induction updates using List.reverseRecOn with
  | nil => simp [nothing]
  | append_singleton updates update ih =>
      rw [applyAll_concat, apply_eq_some_iff, ih]
      constructor
      · rintro (rfl | ⟨untouched, earlier, later, rfl, none_touches⟩)
        · exact ⟨updates, [], rfl, by simp⟩
        · refine ⟨earlier, later ++ [update], by simp, ?_⟩
          intro other member
          rcases List.mem_append.mp member with inside | last
          · exact none_touches other inside
          · rw [List.mem_singleton.mp last]
            exact untouched
      · rintro ⟨earlier, later, split, none_touches⟩
        rcases List.eq_nil_or_concat later with rfl | ⟨later, last, rfl⟩
        · exact .inl (List.singleton_inj.mp (List.append_inj' split rfl).2)
        · rw [List.concat_eq_append] at split none_touches
          rw [← List.cons_append, ← List.append_assoc] at split
          obtain ⟨rfl, same⟩ := List.append_inj' split rfl
          obtain rfl := List.singleton_inj.mp same
          exact .inr ⟨none_touches update (by simp), earlier, later, rfl,
            fun other member => none_touches other (by simp [member])⟩

end Updates

/-! ## Caches -/

/-- Everything the cache holds is bound in the map. -/
def CacheOf (contents held : Contents Key Value Time) : Prop :=
  ∀ key binding, held key = some binding → contents key = some binding

theorem CacheOf.refl (contents : Contents Key Value Time) : CacheOf contents contents :=
  fun _ _ => id

/-- A cache may forget. -/
theorem CacheOf.trans {contents held kept : Contents Key Value Time}
    (cache : CacheOf contents held) (forgets : CacheOf held kept) :
    CacheOf contents kept :=
  fun key binding found => cache key binding (forgets key binding found)

theorem CacheOf.apply [DecidableEq Key] {contents held : Contents Key Value Time}
    (cache : CacheOf contents held) (update : Update Key Value Time) :
    CacheOf (contents.apply update) (held.apply update) := by
  intro key binding found
  rcases apply_eq_some_iff.mp found with bound | ⟨untouched, kept⟩
  · exact apply_eq_some_iff.mpr (.inl bound)
  · exact apply_eq_some_iff.mpr (.inr ⟨untouched, cache key binding kept⟩)

theorem CacheOf.applyAll [DecidableEq Key] {contents held : Contents Key Value Time}
    (cache : CacheOf contents held) (updates : List (Update Key Value Time)) :
    CacheOf (contents.applyAll updates) (held.applyAll updates) := by
  induction updates generalizing contents held with
  | nil => exact cache
  | cons update rest ih => exact ih (cache.apply update)

section Time

variable [LinearOrder Time] {now later : Time}

/-- The deadline has not been reached. -/
def Binding.live (binding : Binding Value Time) (now : Time) : Bool :=
  match binding.expiresAt with
  | some deadline => now < deadline
  | none => true

theorem Binding.live_of_le {binding : Binding Value Time} (order : now ≤ later)
    (live : binding.live later = true) : binding.live now = true := by
  unfold Binding.live at live ⊢
  split at live
  · exact decide_eq_true (lt_of_le_of_lt order (of_decide_eq_true live))
  · rfl

/-- What a reader sees of a map at a time. -/
def Contents.visible (contents : Contents Key Value Time) (now : Time) :
    Contents Key Value Time :=
  fun key => (contents key).filter fun binding => binding.live now

theorem visible_eq_some_iff {contents : Contents Key Value Time} {key : Key}
    {binding : Binding Value Time} :
    contents.visible now key = some binding ↔
      contents key = some binding ∧ binding.live now = true := by
  rw [Contents.visible, Option.filter_eq_some_iff]

/-- The cache holds every binding of the map that is visible from a time on. -/
def CompleteFrom (now : Time) (contents held : Contents Key Value Time) : Prop :=
  ∀ key binding, contents key = some binding → binding.live now = true →
    held key = some binding

theorem CompleteFrom.refl (now : Time) (contents : Contents Key Value Time) :
    CompleteFrom now contents contents :=
  fun _ _ found _ => found

/-- A complete cache may forget what is no longer visible. -/
theorem CompleteFrom.trans {contents held kept : Contents Key Value Time}
    (order : now ≤ later) (complete : CompleteFrom now contents held)
    (keeps : CompleteFrom later held kept) : CompleteFrom later contents kept :=
  fun key binding found live =>
    keeps key binding (complete key binding found (Binding.live_of_le order live)) live

theorem CompleteFrom.apply [DecidableEq Key] {contents held : Contents Key Value Time}
    (complete : CompleteFrom now contents held) (update : Update Key Value Time) :
    CompleteFrom now (contents.apply update) (held.apply update) := by
  intro key binding found live
  rcases apply_eq_some_iff.mp found with bound | ⟨untouched, kept⟩
  · exact apply_eq_some_iff.mpr (.inl bound)
  · exact apply_eq_some_iff.mpr (.inr ⟨untouched, complete key binding kept live⟩)

theorem CompleteFrom.applyAll [DecidableEq Key] {contents held : Contents Key Value Time}
    (complete : CompleteFrom now contents held) (updates : List (Update Key Value Time)) :
    CompleteFrom now (contents.applyAll updates) (held.applyAll updates) := by
  induction updates generalizing contents held with
  | nil => exact complete
  | cons update rest ih => exact ih (complete.apply update)

/-- A complete cache shows what the map shows. -/
theorem CacheOf.visible_eq {contents held : Contents Key Value Time}
    (cache : CacheOf contents held) (complete : CompleteFrom now contents held)
    (order : now ≤ later) : held.visible later = contents.visible later := by
  funext key
  apply Option.ext
  intro binding
  rw [visible_eq_some_iff, visible_eq_some_iff]
  constructor
  · exact fun found => ⟨cache key binding found.1, found.2⟩
  · exact fun found =>
      ⟨complete key binding found.1 (Binding.live_of_le order found.2), found.2⟩

end Time

end ExpiringMap
