import Mathlib.Data.List.Basic

set_option autoImplicit false

/-! # The first item with something

A loop that stops at its first failure gives the error of one item of a list, and the items before
it have none. `First` says this of any relation between items and what they may have. It is taken
apart along the list (`first_cons_iff`, `first_append_iff`), and an item is the first exactly when
there is any (`exists_first_iff`). -/

namespace FlatTables

variable {α β : Type} {r : α → β → Prop} {item : α} {items items' : List α} {b : β}

/-- Whether `b` belongs to the first of the items that anything belongs to. -/
def First (r : α → β → Prop) (items : List α) (b : β) : Prop :=
  ∃ before item after, items = before ++ item :: after ∧ r item b ∧
    ∀ other ∈ before, ∀ b', ¬r other b'

theorem not_first_nil : ¬First r [] b := by
  rintro ⟨before, item, after, h, -⟩
  cases before <;> cases h

theorem first_cons_iff :
    First r (item :: items) b ↔ r item b ∨ (∀ b', ¬r item b') ∧ First r items b := by
  constructor
  · rintro ⟨before, found, after, h, hfound, hbefore⟩
    cases before with
    | nil =>
        cases h
        exact .inl hfound
    | cons first before =>
        cases h
        exact .inr ⟨hbefore item List.mem_cons_self, before, found, after, rfl, hfound,
          fun other hother => hbefore other (List.mem_cons_of_mem _ hother)⟩
  · rintro (h | ⟨hitem, before, found, after, rfl, hfound, hbefore⟩)
    · exact ⟨[], item, items, rfl, h, fun other hother => absurd hother List.not_mem_nil⟩
    · exact ⟨item :: before, found, after, rfl, hfound, List.forall_mem_cons.2 ⟨hitem, hbefore⟩⟩

theorem first_singleton_iff : First r [item] b ↔ r item b := by
  rw [first_cons_iff]
  exact ⟨fun h => h.resolve_right fun hnil => not_first_nil hnil.2, .inl⟩

/-- The first item of two lists stands in the first list, or in the second if nothing belongs to an
item of the first. -/
theorem first_append_iff :
    First r (items ++ items') b ↔
      First r items b ∨ (∀ item ∈ items, ∀ b', ¬r item b') ∧ First r items' b := by
  induction items with
  | nil => simp [not_first_nil]
  | cons item rest ih =>
      rw [List.cons_append, first_cons_iff, first_cons_iff, ih, List.forall_mem_cons]
      tauto

/-- What belongs to the first item is unique if no item has two of it. -/
theorem First.unique {b' : β} (hitem : ∀ item b b', r item b → r item b' → b = b')
    (h : First r items b) (h' : First r items b') : b = b' := by
  induction items with
  | nil => exact absurd h not_first_nil
  | cons item rest ih =>
      rw [first_cons_iff] at h h'
      rcases h with h | ⟨hnone, h⟩
      · rcases h' with h' | ⟨hnone', -⟩
        · exact hitem item b b' h h'
        · exact absurd h (hnone' b)
      · exact ih h (h'.resolve_left (hnone b')).2

theorem exists_first_iff : (∃ b, First r items b) ↔ ∃ item ∈ items, ∃ b, r item b := by
  induction items with
  | nil => simp [not_first_nil]
  | cons item rest ih =>
      simp only [first_cons_iff, List.exists_mem_cons_iff]
      by_cases hitem : ∃ b, r item b
      · exact iff_of_true (hitem.imp fun _ => .inl) (.inl hitem)
      · have hnone := not_exists.1 hitem
        simp only [hnone, not_false_eq_true, implies_true, true_and, false_or, exists_false, ih]

/-- Nothing belongs to any item exactly when there is no first one. -/
theorem forall_not_iff_not_first :
    (∀ item ∈ items, ∀ b, ¬r item b) ↔ ∀ b, ¬First r items b := by
  rw [← not_exists, exists_first_iff]
  simp only [not_exists, not_and]

end FlatTables
