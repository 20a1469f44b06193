import FlatTables.Proofs.First
import FlatTables.Proofs.Outcome
import Mathlib.Data.List.Forall2

set_option autoImplicit false

/-! # Computations along a list

A function that may fail is run on the items of a list, one after the other. That gives the results
of all items in their order (`mapM_eq_ok_iff`), or the error of the first item that has one
(`mapM_eq_error_iff`). -/

namespace FlatTables

variable {ε α β : Type} {f : α → Except ε β} {items : List α}

theorem mapM_eq_ok_iff {results : List β} : items.mapM f = .ok results ↔
    List.Forall₂ (fun item result => f item = .ok result) items results := by
  induction items generalizing results with
  | nil =>
      rw [List.mapM_nil, List.forall₂_nil_left_iff]
      exact ⟨fun h => (Except.ok.inj h).symm, fun h => congrArg Except.ok h.symm⟩
  | cons item rest ih =>
      rw [List.mapM_cons, bind_eq_ok_iff, List.forall₂_cons_left_iff]
      constructor
      · rintro ⟨result, hitem, h⟩
        obtain ⟨results', hrest, h⟩ := bind_eq_ok_iff.1 h
        exact ⟨result, results', hitem, ih.1 hrest, (Except.ok.inj h).symm⟩
      · rintro ⟨result, results', hitem, hrest, rfl⟩
        exact ⟨result, hitem, bind_eq_ok_iff.2 ⟨results', ih.2 hrest, rfl⟩⟩

theorem mapM_eq_error_iff {error : ε} : items.mapM f = .error error ↔
    First (fun item error => f item = .error error) items error := by
  induction items with
  | nil => exact ⟨fun h => (nomatch h), fun h => absurd h not_first_nil⟩
  | cons item rest ih =>
      rw [List.mapM_cons, bind_eq_error_iff, first_cons_iff]
      refine or_congr_right ⟨?_, ?_⟩
      · rintro ⟨result, hitem, h⟩
        refine ⟨exists_eq_ok_iff.1 ⟨result, hitem⟩, ih.1 ?_⟩
        exact (bind_eq_error_iff.1 h).resolve_right fun ⟨_, _, h⟩ => nomatch h
      · rintro ⟨hitem, hrest⟩
        obtain ⟨result, hresult⟩ := exists_eq_ok_iff.2 hitem
        exact ⟨result, hresult, bind_eq_error_iff.2 (.inl (ih.2 hrest))⟩

theorem exists_mapM_eq_ok_iff : (∃ results, items.mapM f = .ok results) ↔
    ∀ item ∈ items, ∃ result, f item = .ok result := by
  simp only [exists_eq_ok_iff, ne_eq, mapM_eq_error_iff, ← forall_not_iff_not_first]

end FlatTables
