import Mathlib.Data.List.Forall2

/-!
# Separated items

A text is the items between its separators, and a list of items is converted one by one
until one of them is refused.
-/

namespace SeparatedItems

section Splitting

variable {Symbol : Type} [BEq Symbol] [LawfulBEq Symbol] {separator : Symbol}

theorem not_mem_of_mem_splitOn {text part : List Symbol}
    (member : part ∈ text.splitOn separator) : separator ∉ part := by
  induction text generalizing part with
  | nil =>
      rw [List.splitOn_nil, List.mem_singleton] at member
      rw [member]
      exact List.not_mem_nil
  | cons symbol rest ih =>
      rw [List.splitOn_cons_eq_if_modifyHead] at member
      split at member
      · rcases List.mem_cons.mp member with rfl | later
        · exact List.not_mem_nil
        · exact ih later
      · next different =>
          cases parts : rest.splitOn separator with
          | nil => exact absurd parts (List.splitOn_ne_nil _ _)
          | cons first others =>
              rw [parts, List.modifyHead_cons] at member
              rw [parts] at ih
              rcases List.mem_cons.mp member with rfl | later
              · rw [List.mem_cons, not_or]
                exact ⟨fun same => different (by simp [← same]), ih List.mem_cons_self⟩
              · exact ih (List.mem_cons_of_mem _ later)

/-- The parts of a text are the only ones without the separator that make it up. -/
theorem splitOn_eq_iff {text : List Symbol} {parts : List (List Symbol)}
    (nonempty : parts ≠ []) :
    text.splitOn separator = parts ↔
      text = [separator].intercalate parts ∧ ∀ part ∈ parts, separator ∉ part := by
  constructor
  · rintro rfl
    exact ⟨(List.intercalate_splitOn separator).symm, fun _ => not_mem_of_mem_splitOn⟩
  · rintro ⟨rfl, separate⟩
    exact List.splitOn_intercalate separator separate nonempty

end Splitting

section Conversion

variable {Item Result Refusal : Type} {convert : Item → Except Refusal Result}

/-- A list is converted when every item is. -/
theorem mapM_eq_ok_iff {items : List Item} {results : List Result} :
    items.mapM convert = .ok results ↔
      List.Forall₂ (fun item result => convert item = .ok result) items results := by
  induction items generalizing results with
  | nil =>
      rw [List.mapM_nil, List.forall₂_nil_left_iff]
      exact ⟨fun same => (Except.ok.inj same).symm, fun same => congrArg _ same.symm⟩
  | cons item rest ih =>
      rw [List.mapM_cons]
      cases converted : convert item with
      | error refusal =>
          constructor
          · intro same
            cases same
          · rintro (_ | ⟨first, -⟩)
            rw [converted] at first
            cases first
      | ok result =>
          cases others : rest.mapM convert with
          | error refusal =>
              constructor
              · intro same
                cases same
              · rintro (_ | ⟨-, remaining⟩)
                rw [others] at ih
                cases ih.mpr remaining
          | ok remaining =>
              rw [List.forall₂_cons_left_iff]
              constructor
              · intro same
                cases same
                exact ⟨result, remaining, converted, ih.mp others, rfl⟩
              · rintro ⟨first, last, firstOk, lastOk, rfl⟩
                rw [converted] at firstOk
                rw [← ih, others] at lastOk
                cases firstOk
                cases lastOk
                rfl

end Conversion

section Pairing

variable {Item Result : Type} {related : Item → Result → Prop}

/-- A list has results when every item has one. -/
theorem exists_forall₂_iff {items : List Item} :
    (∃ results, List.Forall₂ related items results) ↔
      ∀ item ∈ items, ∃ result, related item result := by
  induction items with
  | nil => simp
  | cons item rest ih =>
      simp only [List.forall₂_cons_left_iff, List.forall_mem_cons, ← ih]
      constructor
      · rintro ⟨_, result, results, first, others, -⟩
        exact ⟨⟨result, first⟩, results, others⟩
      · rintro ⟨⟨result, first⟩, results, others⟩
        exact ⟨_, result, results, first, others, rfl⟩

theorem exists_mem_of_forall₂ {items : List Item} {results : List Result}
    (pairs : List.Forall₂ related items results) {result : Result}
    (member : result ∈ results) : ∃ item ∈ items, related item result := by
  induction pairs with
  | nil => cases member
  | cons first _ ih =>
      rcases List.mem_cons.mp member with rfl | later
      · exact ⟨_, List.mem_cons_self, first⟩
      · obtain ⟨item, found, here⟩ := ih later
        exact ⟨item, List.mem_cons_of_mem _ found, here⟩

end Pairing

end SeparatedItems
