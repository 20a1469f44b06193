import FlatTables.Proofs.Operation.Alter
import FlatTables.Proofs.Operation.InPlace
import FlatTables.Proofs.Table.Altering

set_option autoImplicit false

/-! # Alterations in any order

Two alterations of different columns can be made in place in either order. If the one order succeeds
then so does the other, with the same table in the end, and neither touches the other columns
(`Editing.alterations_commute`). An alteration in place comes to a change of a column in memory
(`Edit.Alters.exists_run_iff`), and those commute (`ColumnChange.apply_comm`). -/

namespace FlatTables

namespace Editing

variable {α β : Type}

theorem run_bind_eq_ok_iff {x : Editing α} {f : α → Editing β} {t u : Table} {w w' : World} {b : β} :
    (x >>= f).run t w = (.ok b, u, w') ↔
      ∃ a t₁ w₁, x.run t w = (.ok a, t₁, w₁) ∧ (f a).run t₁ w₁ = (.ok b, u, w') := by
  rcases hx : x.run t w with ⟨_ | a, t₁, w₁⟩
  · rw [run_bind_of_error hx]
    simp
  · rw [run_bind_of_ok hx]
    constructor
    · exact fun h => ⟨a, t₁, w₁, rfl, h⟩
    · rintro ⟨_, _, _, h, h'⟩
      cases h
      exact h'

end Editing

namespace Edit

/-- Whether an edit makes a change to the column called `name`. -/
inductive Alters : Edit → ColumnChange → String → Prop
  | dropColumn (name : String) : Alters (dropColumn name) .drop name
  | modifyColumn (name : String) (type : ColumnType) :
    Alters (modifyColumn name type) (.convert type) name
  | alterDrop (name : String) (type? : Option ColumnType) : Alters (alter .drop name type?) .drop name
  | alterModify (name : String) (type : ColumnType) :
    Alters (alter .modify name (some type)) (.convert type) name

variable {edit : Edit} {change : ColumnChange} {name : String} {t : Table}

theorem Alters.ne_clean (h : edit.Alters change name) : edit ≠ clean := by
  rintro rfl
  cases h

/-- An alteration gives what the change in memory gives. -/
theorem Alters.fst_run_action (h : edit.Alters change name) (t : Table) (w : World) :
    ((edit.action t).run w).1 = change.apply name t := by
  rw [(Operation.computes_edit t h.ne_clean).fst_run]
  cases h <;> rfl

/-- An alteration in place succeeds in whatever world if the change in memory does, and leaves its
table. -/
theorem Alters.exists_run_iff (h : edit.Alters change name) (ht : t.WellFormed) (u : Table)
    (w : World) :
    (∃ w', edit.editing.run t w = (.ok (), u, w')) ↔ change.apply name t = .ok u := by
  rw [← h.fst_run_action t w]
  exact exists_run_editing_iff ht h.ne_clean u w

end Edit

/-- **Alterations of different columns commute.** If two of them succeed in one order, they succeed
in the other order too and leave the same table. Both changes have been made in it, and it has the
other columns with their types and in their order, and the same cells in them. -/
theorem Editing.alterations_commute {t u : Table} (ht : t.WellFormed) {first second : Edit}
    {change other : ColumnChange} {name name' : String} (hfirst : first.Alters change name)
    (hsecond : second.Alters other name') (hne : name ≠ name') (w : World)
    (h : ∃ w', (do first.editing; second.editing).run t w = (.ok (), u, w')) :
    (∃ w', (do second.editing; first.editing).run t w = (.ok (), u, w')) ∧
      change.DoneIn name u.schema ∧ other.DoneIn name' u.schema ∧
      t.KeepsOthers [name, name'] u := by
  obtain ⟨w', h⟩ := h
  obtain ⟨⟨⟩, t₁, w₁, hrun, hrun'⟩ := run_bind_eq_ok_iff.1 h
  have happly := (hfirst.exists_run_iff ht t₁ w).1 ⟨w₁, hrun⟩
  have ht₁ := ColumnChange.wellFormed_of_apply ht happly
  have happly' := (hsecond.exists_run_iff ht₁ u w₁).1 ⟨w', hrun'⟩
  obtain ⟨t₂, hother, hchange⟩ := ColumnChange.apply_comm ht hne happly happly'
  have ht₂ := ColumnChange.wellFormed_of_apply ht hother
  refine ⟨?_, ColumnChange.doneIn_of_apply ht₂ hchange,
    ColumnChange.doneIn_of_apply ht₁ happly', ?_⟩
  · obtain ⟨w₂, hrun₂⟩ := (hsecond.exists_run_iff ht t₂ w).2 hother
    obtain ⟨w₃, hrun₃⟩ := (hfirst.exists_run_iff ht₂ u w₂).2 hchange
    exact ⟨w₃, run_bind_eq_ok_iff.2 ⟨(), t₂, w₂, hrun₂, hrun₃⟩⟩
  · have hkeeps := (ColumnChange.keepsOthers_of_apply ht happly).mono
      (show [name] ⊆ [name, name'] by simp)
    have hkeeps' := (ColumnChange.keepsOthers_of_apply ht₁ happly').mono
      (show [name'] ⊆ [name, name'] by simp)
    exact hkeeps.trans hkeeps'

/-- A table of harvests, as it was read from texts. -/
def harvests : Table where
  id := ⟨"temp", "harvests"⟩
  schema := ⟨[⟨"field", .text⟩, ⟨"tons", .text⟩, ⟨"weather", .text⟩], by decide⟩
  rows := [[.text "north", .text "12", .text "dry"], [.text "south", .null, .text ""]]
  store := none

/-- The tons are made integers and the fields dropped, in either order; the weather stays. -/
theorem Editing.alterations_commute_harvests :
    let w := World.ofFiles ⟨[], [], []⟩
    let dropped := Edit.dropColumn "field"
    let converted := Edit.alter .modify "tons" (some .integer)
    let u : Table := { harvests with
      schema := ⟨[⟨"tons", .integer⟩, ⟨"weather", .text⟩], by decide⟩
      rows := [[.integer 12, .text "dry"], [.null, .text ""]] }
    (∃ w', (do dropped.editing; converted.editing).run harvests w = (.ok (), u, w')) ∧
      (∃ w', (do converted.editing; dropped.editing).run harvests w = (.ok (), u, w')) ∧
      "field" ∉ u.schema.names ∧ ⟨"tons", .integer⟩ ∈ u.schema.columns ∧
      harvests.KeepsOthers ["field", "tons"] u := by
  intro w dropped converted u
  have hharvests : harvests.WellFormed :=
    Table.wellFormed_of_rows_fit
      (by simp [harvests, Row.Fits, Cell.Fits, Schema.types, Cell.type?])
  have hrun : ∃ w', (do dropped.editing; converted.editing).run harvests w = (.ok (), u, w') :=
    ⟨_, rfl⟩
  exact ⟨hrun, alterations_commute hharvests (.dropColumn "field") (.alterModify "tons" .integer)
    (by decide) w hrun⟩

end FlatTables
