import FlatTables.Proofs.Expression.Coherence
import Mathlib.Tactic.ByContra

set_option autoImplicit false

/-! # Membership and equality

Whether a value is in a list is decided by the equality that compares two values. But null is read
as false only where it is an operand. An item of a list stays null, and an operand never is: so a
null in a list is not found, not even by a null (`Expression.within_iff`).

Membership therefore says the same as equality with one of the items, unless the list holds a null,
the operand is equal to a null, and no other item is equal to it
(`Expression.repeatsEquality_iff`). -/

namespace FlatTables

namespace Datum

/-- Only a null is equal to a null. -/
theorem looseEq_null {d : Datum} (h : d ≠ null) : d.looseEq null = false := by
  cases d with
  | null => exact absurd rfl h
  | _ => simp [looseEq, numericEq, number?]

theorem orFalse_eq_self {d : Datum} (h : d ≠ null) : d.orFalse = d := by
  cases d with
  | null => exact absurd rfl h
  | _ => rfl

/-- What is not null is equal to an item of a list if the item is not null either, and then it is
equal to what the item is read as. -/
theorem looseEq_item_iff {needle item : Datum} (h : needle ≠ null) :
    item.looseEq needle = true ↔ item ≠ null ∧ needle.looseEq item.orFalse = true := by
  rw [looseEq_comm item needle]
  by_cases hitem : item = null
  · simp [hitem, looseEq_null h]
  · simp [hitem, orFalse_eq_self hitem]

end Datum

namespace Expression

variable {b : Bindings} {lhs rhs : Expression} {op : Comparison}

theorem exists_eval_of_holds (h : b.Holds op lhs rhs) : ∃ x, lhs.eval b = .ok x := by
  obtain ⟨x, hx, -⟩ := bind_eq_ok_iff.1 h
  exact ⟨x, hx⟩

/-- **A value is in a list exactly when it is equal to an item that is not null.** -/
theorem within_iff (b : Bindings) (e : Expression) (items : List Datum) :
    b.Holds .within e (literal (.list items)) ↔
      ∃ item ∈ items, item ≠ .null ∧ b.Holds .equal e (literal item) := by
  cases hx : e.eval b with
  | error error =>
      -- without a value there is nothing to look for, and nothing to compare
      have hnone : ∀ op rhs, ¬b.Holds op e rhs := by
        intro op rhs h
        obtain ⟨x, hx'⟩ := exists_eval_of_holds h
        rw [hx] at hx'
        cases hx'
      simp [hnone]
  | ok x =>
      have hliteral : ∀ item, (literal item).eval b = .ok item := fun _ => rfl
      rw [holds_iff hx (hliteral _)]
      simp only [holds_iff hx (hliteral _)]
      change (items.any fun item => item.looseEq x.orFalse) = true ↔ _
      simp only [List.any_eq_true, Datum.looseEq_item_iff x.orFalse_ne_null]
      rfl

/-- Not being in a list is the negation of being in it. -/
theorem eval_notWithin_iff (b : Bindings) (lhs rhs : Expression) (v : Bool) :
    (compare .notWithin lhs rhs).eval b = .ok (.boolean v) ↔
      (compare .within lhs rhs).eval b = .ok (.boolean !v) := by
  cases hx : lhs.eval b with
  | error error => simp [eval, hx, bind, Except.bind]
  | ok x =>
      cases hy : rhs.eval b with
      | error error => simp [eval, hx, hy, bind, Except.bind]
      | ok y =>
          rw [eval_compare .notWithin hx hy, eval_compare .within hx hy]
          simp [Comparison.holds]

/-- Whether membership in a list says what equality with one of its items says. -/
def RepeatsEquality (b : Bindings) (e : Expression) (items : List Datum) : Prop :=
  b.Holds .within e (literal (.list items)) ↔ ∃ item ∈ items, b.Holds .equal e (literal item)

/-- **Membership is equality with an item, but for nulls in the list.** The two say the same, unless
a null is the only item of the list that the operand is equal to. -/
theorem repeatsEquality_iff (b : Bindings) (e : Expression) (items : List Datum) :
    (RepeatsEquality b e items ↔
      ¬(.null ∈ items ∧ b.Holds .equal e (literal .null) ∧
        ∀ item ∈ items, b.Holds .equal e (literal item) → item = .null)) ∧
    (b.Holds .within e (literal (.list items)) ↔
      ∃ item ∈ items, item ≠ .null ∧ b.Holds .equal e (literal item)) ∧
    ∀ v, (compare .notWithin e (literal (.list items))).eval b = .ok (.boolean v) ↔
      (compare .within e (literal (.list items))).eval b = .ok (.boolean !v) := by
  refine ⟨?_, within_iff b e items, eval_notWithin_iff b e _⟩
  rw [RepeatsEquality, within_iff]
  constructor
  · rintro h ⟨hmem, hnull, honly⟩
    obtain ⟨item, hitem, hne, hequal⟩ := h.2 ⟨.null, hmem, hnull⟩
    exact hne (honly item hitem hequal)
  · intro h
    refine ⟨fun ⟨item, hitem, _, hequal⟩ => ⟨item, hitem, hequal⟩, ?_⟩
    rintro ⟨item, hitem, hequal⟩
    by_contra hnone
    have honly : ∀ item ∈ items, b.Holds .equal e (literal item) → item = .null := by
      intro other hother hequal'
      by_contra hne
      exact hnone ⟨other, hother, hne, hequal'⟩
    obtain rfl := honly item hitem hequal
    exact h ⟨hitem, hequal, honly⟩

/-- A null is equal to a null, and is not in the list of a null. -/
theorem not_repeatsEquality_null :
    let b : Bindings := ⟨⟨[⟨"x", .integer⟩], by decide⟩, [.null]⟩
    b.Holds .equal (column "x") (literal .null) ∧
      (compare .within (column "x") (literal (.list [.null]))).eval b = .ok (.boolean false) ∧
      ¬RepeatsEquality b (column "x") [.null] := by
  intro b
  have hequal : b.Holds .equal (column "x") (literal .null) := rfl
  refine ⟨hequal, rfl, fun h => ?_⟩
  have hwithin := h.2 ⟨.null, List.mem_singleton_self _, hequal⟩
  obtain ⟨item, hitem, hne, -⟩ := (within_iff b _ _).1 hwithin
  exact hne (List.mem_singleton.1 hitem)

end Expression

end FlatTables
