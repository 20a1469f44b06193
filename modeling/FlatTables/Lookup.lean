set_option autoImplicit false

/-! # Lookups in lists of pairs

What `List.lookup` finds after a pair was put in front, and after the pairs of a key were taken
out. -/

namespace FlatTables

variable {κ α : Type} [BEq κ] [LawfulBEq κ]

theorem lookup_pair_cons [DecidableEq κ] (k k' : κ) (v : α) (l : List (κ × α)) :
    ((k, v) :: l).lookup k' = if k' = k then some v else l.lookup k' := by
  rw [List.lookup_cons]
  by_cases h : k' = k
  · simp [h]
  · simp [h, beq_eq_false_iff_ne.2 h]

theorem lookup_filter_ne [DecidableEq κ] (k k' : κ) (l : List (κ × α)) :
    (l.filter (·.1 != k)).lookup k' = if k' = k then none else l.lookup k' := by
  induction l with
  | nil => simp
  | cons p rest ih =>
    obtain ⟨k'', v⟩ := p
    by_cases h : k'' = k
    · rw [List.filter_cons_of_neg (by simp [h]), ih, lookup_pair_cons]
      by_cases hk : k' = k <;> simp [hk, h]
    · rw [List.filter_cons_of_pos (by simp [h]), lookup_pair_cons, lookup_pair_cons, ih]
      by_cases hk : k' = k''
      · simp [hk, h]
      · simp [hk]

end FlatTables
