import FlatTables.Expression.Eval
import FlatTables.Proofs.Outcome

set_option autoImplicit false

/-! # Comparisons fit together

Equality and order of data are two functions, with cases of their own. On all data but lists and
nulls they say the same of every pair: two data are equal exactly when neither comes before the
other and both can be ordered (`Datum.looseEq_iff`). Turning the operands around turns the order
around (`Datum.looseCompare?_swap`), and so equality has no sides (`Datum.looseEq_comm`), also
inside of lists.

From these three facts follows what the operators say of two expressions, whatever data these have
(`Expression.comparisons_coherent`). -/

namespace FlatTables

/-! ## Doubles -/

namespace Binary64

theorem compare?_swap (x y : Binary64) : (x.compare? y).map Ordering.swap = y.compare? x := by
  unfold compare?
  rw [Bool.or_comm]
  split
  · rfl
  · exact congrArg some (Int.compare_swap _ _)

theorem numericEq_iff {x y : Binary64} : x.numericEq y = true ↔ x.compare? y = some .eq := by
  simp [numericEq]

end Binary64

/-! ## Data -/

namespace Datum

/-- Whether a datum is a list. -/
def IsList (d : Datum) : Prop := ∃ items, d = list items

theorem orFalse_ne_null (d : Datum) : d.orFalse ≠ null := by
  cases d <;> simp [orFalse]

/-- Reading null as false makes no list. -/
theorem IsList.of_orFalse {d : Datum} (h : d.orFalse.IsList) : d.IsList := by
  obtain ⟨items, h⟩ := h
  cases d with
  | list items' => exact ⟨items', rfl⟩
  | _ => cases h

/-- Without a pair of integers or texts, the order is that of the numbers. -/
theorem looseCompare?_eq_numbers {a b : Datum} (hinteger : ∀ i j, a = integer i → b ≠ integer j)
    (htext : ∀ s t, a = text s → b ≠ text t) : a.looseCompare? b =
      a.number?.bind fun x => b.number?.bind fun y => x.compare? y := by
  unfold looseCompare?
  split
  · next i j => exact absurd rfl (hinteger i j rfl)
  · next s t => exact absurd rfl (htext s t rfl)
  · cases a.number? with
    | none => rfl
    | some x => cases b.number? <;> rfl

/-- Turning the operands around turns their order around. -/
theorem looseCompare?_swap (a b : Datum) :
    (a.looseCompare? b).map Ordering.swap = b.looseCompare? a := by
  by_cases hinteger : ∃ i j, a = integer i ∧ b = integer j
  · obtain ⟨i, j, rfl, rfl⟩ := hinteger
    exact congrArg some (Int.compare_swap _ _)
  by_cases htext : ∃ s t, a = text s ∧ b = text t
  · obtain ⟨s, t, rfl, rfl⟩ := htext
    exact congrArg some Std.OrientedCmp.eq_swap.symm
  -- what is left is ordered as numbers, on either side
  rw [looseCompare?_eq_numbers (by grind) (by grind),
    looseCompare?_eq_numbers (by grind) (by grind)]
  cases a.number? with
  | none => cases b.number? <;> rfl
  | some x =>
      cases b.number? with
      | none => rfl
      | some y => exact Binary64.compare?_swap x y

theorem looseCompare?_eq_some_iff {a b : Datum} {order : Ordering} :
    a.looseCompare? b = some order ↔ b.looseCompare? a = some order.swap := by
  rw [← looseCompare?_swap a b]
  cases a.looseCompare? b with
  | none => simp
  | some found => simp [Ordering.swap_inj]

/-- **Equality and order agree.** Two lists, and two nulls, can be equal without an order. -/
theorem looseEq_iff {a b : Datum} (hlist : ¬(a.IsList ∧ b.IsList))
    (hnull : ¬(a = null ∧ b = null)) : a.looseEq b = true ↔ a.looseCompare? b = some .eq := by
  unfold looseEq
  split
  · simp [looseCompare?, Int64.toInt_inj]
  · simp [looseCompare?]
  · exact absurd ⟨⟨_, rfl⟩, ⟨_, rfl⟩⟩ hlist
  · exact absurd ⟨rfl, rfl⟩ hnull
  · next hinteger htext _ _ =>
    rw [looseCompare?_eq_numbers (fun i j ha hb => hinteger i j ha hb)
      (fun s t ha hb => htext s t ha hb), numericEq]
    cases a.number? with
    | none => simp
    | some x =>
        cases b.number? with
        | none => simp
        | some y => exact Binary64.numericEq_iff

/-- Equality has no sides, since order shows it wherever it does not come from lists. -/
theorem looseEq_comm_of_not_list {a b : Datum} (hlist : ¬(a.IsList ∧ b.IsList)) :
    a.looseEq b = b.looseEq a := by
  by_cases hnull : a = null ∧ b = null
  · rw [hnull.1, hnull.2]
  rw [Bool.eq_iff_iff, looseEq_iff hlist hnull, looseEq_iff (fun h => hlist h.symm)
    (fun h => hnull h.symm)]
  exact looseCompare?_eq_some_iff

mutual

theorem looseEq_comm (a b : Datum) : a.looseEq b = b.looseEq a := by
  cases a with
  | list as =>
      cases b with
      | list bs => simpa only [looseEq] using looseEqItems_comm as bs
      | _ => exact looseEq_comm_of_not_list (by rintro ⟨-, _, ⟨⟩⟩)
  | _ => exact looseEq_comm_of_not_list (by rintro ⟨⟨_, ⟨⟩⟩, -⟩)

theorem looseEqItems_comm (as bs : List Datum) : looseEqItems as bs = looseEqItems bs as := by
  cases as with
  | nil => cases bs <;> rfl
  | cons a as =>
      cases bs with
      | nil => rfl
      | cons b bs => rw [looseEqItems, looseEqItems, looseEq_comm a b, looseEqItems_comm as bs]

end

end Datum

/-! ## Operators -/

namespace Comparison

/-- Whether the comparisons of two operands fit together. Those that are true of the operands are
given by `holds`, and those that are true of them the other way around by `turned`. -/
structure Coherent (holds turned : Comparison → Prop) : Prop where
  notEqual_iff : holds notEqual ↔ ¬holds equal
  notWithin_iff : holds notWithin ↔ ¬holds within
  equal_iff_turned : holds equal ↔ turned equal
  greater_iff_turned : holds greater ↔ turned less
  greaterOrEqual_iff_turned : holds greaterOrEqual ↔ turned lessOrEqual
  not_less_and_greater : ¬(holds less ∧ holds greater)

/-- Whether at most one of less, equal and greater is true, and the comparisons that allow two of
them are true exactly if one of the two is. -/
structure Exclusive (holds : Comparison → Prop) : Prop where
  not_less_and_equal : ¬(holds less ∧ holds equal)
  not_equal_and_greater : ¬(holds equal ∧ holds greater)
  not_less_and_greater : ¬(holds less ∧ holds greater)
  lessOrEqual_iff : holds lessOrEqual ↔ holds less ∨ holds equal
  greaterOrEqual_iff : holds greaterOrEqual ↔ holds greater ∨ holds equal

theorem coherent_holds (x y : Datum) :
    Coherent (fun op => op.holds x y = true) (fun op => op.holds y x = true) where
  notEqual_iff := by simp [holds]
  notWithin_iff := by simp [holds]
  equal_iff_turned := by simp only [holds, Datum.looseEq_comm]
  greater_iff_turned := by
    simp only [holds, beq_iff_eq]
    exact Datum.looseCompare?_eq_some_iff
  greaterOrEqual_iff_turned := by
    simp only [holds, Bool.or_eq_true, beq_iff_eq]
    exact or_congr Datum.looseCompare?_eq_some_iff Datum.looseCompare?_eq_some_iff
  not_less_and_greater := by
    rintro ⟨hless, hgreater⟩
    simp only [holds, beq_iff_eq] at hless hgreater
    rw [hless] at hgreater
    cases hgreater

theorem exclusive_holds {x y : Datum} (h : ¬(x.IsList ∧ y.IsList)) :
    Exclusive fun op => op.holds x y = true := by
  have hequal : x.orFalse.looseEq y.orFalse = true ↔
      x.orFalse.looseCompare? y.orFalse = some .eq :=
    Datum.looseEq_iff (fun hlists => h ⟨hlists.1.of_orFalse, hlists.2.of_orFalse⟩)
      fun hnulls => x.orFalse_ne_null hnulls.1
  constructor <;> simp only [holds, hequal, beq_iff_eq, Bool.or_eq_true]
  all_goals
    cases x.orFalse.looseCompare? y.orFalse with
    | none => simp
    | some order => cases order <;> simp

end Comparison

/-! ## Expressions -/

/-- Whether a comparison of two expressions comes out true in a row. -/
def Bindings.Holds (b : Bindings) (op : Comparison) (lhs rhs : Expression) : Prop :=
  (Expression.compare op lhs rhs).eval b = .ok (.boolean true)

namespace Expression

variable {b : Bindings} {lhs rhs : Expression} {x y : Datum}

theorem eval_compare (op : Comparison) (hx : lhs.eval b = .ok x) (hy : rhs.eval b = .ok y) :
    (compare op lhs rhs).eval b = .ok (.boolean (op.holds x y)) := by
  rw [eval, hx, hy]
  rfl

theorem holds_iff {op : Comparison} (hx : lhs.eval b = .ok x) (hy : rhs.eval b = .ok y) :
    b.Holds op lhs rhs ↔ op.holds x y = true := by
  rw [Bindings.Holds, eval_compare op hx hy, Except.ok.injEq, Datum.boolean.injEq]

/-- **The comparisons of two expressions fit together**, whatever data their values are. Each of them
is true or false, and of two values that are not both lists at most one of less, equal and greater
is true. -/
theorem comparisons_coherent (hx : lhs.eval b = .ok x) (hy : rhs.eval b = .ok y) :
    (∀ op, ∃ v, (compare op lhs rhs).eval b = .ok (.boolean v)) ∧
      Comparison.Coherent (b.Holds · lhs rhs) (b.Holds · rhs lhs) ∧
      (¬(x.IsList ∧ y.IsList) → Comparison.Exclusive (b.Holds · lhs rhs)) := by
  have hholds : (b.Holds · lhs rhs) = fun op => op.holds x y = true :=
    funext fun op => propext (holds_iff hx hy)
  have hturned : (b.Holds · rhs lhs) = fun op => op.holds y x = true :=
    funext fun op => propext (holds_iff hy hx)
  rw [hholds, hturned]
  exact ⟨fun op => ⟨_, eval_compare op hx hy⟩, Comparison.coherent_holds x y,
    Comparison.exclusive_holds⟩

/-- A null against the negative zero: read as false, the null is the same number, so neither of the
two is less. -/
theorem comparisons_coherent_zeros :
    let b : Bindings := ⟨⟨[⟨"x", .float⟩], by decide⟩, [.null]⟩
    let zero : Expression := literal (.float (Binary64.zero true))
    (column "x").eval b = .ok .null ∧ b.Holds .equal (column "x") zero ∧
      b.Holds .equal zero (column "x") ∧ b.Holds .lessOrEqual (column "x") zero ∧
      ¬b.Holds .less (column "x") zero := by
  intro b zero
  have hx : (column "x").eval b = .ok .null := rfl
  have hzero : zero.eval b = .ok (.float (Binary64.zero true)) := rfl
  have hlist : ¬(Datum.null.IsList ∧ (Datum.float (Binary64.zero true)).IsList) := by
    rintro ⟨⟨_, ⟨⟩⟩, -⟩
  obtain ⟨-, hcoherent, hexclusive⟩ := comparisons_coherent hx hzero
  have hequal : b.Holds .equal (column "x") zero := rfl
  have hless : ¬b.Holds .less (column "x") zero :=
    fun h => (hexclusive hlist).not_less_and_equal ⟨h, hequal⟩
  exact ⟨hx, hequal, hcoherent.equal_iff_turned.1 hequal,
    (hexclusive hlist).lessOrEqual_iff.2 (.inr hequal), hless⟩

end Expression

end FlatTables
