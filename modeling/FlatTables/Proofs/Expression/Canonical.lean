import FlatTables.Expression.Eval
import FlatTables.Proofs.Outcome

set_option autoImplicit false

/-! # Evaluation and the equality of rows

Rows that are equal as members of a set may differ in the signs of their zeros. No expression can
tell such rows apart: it fails on both with one error, or gives values that again differ at most in
the sign of a zero (`Expression.eval_congr`). Each operator passes the difference on by a lemma of
its own, and the induction over the expression puts these together. -/

namespace FlatTables

/-! ## Doubles -/

namespace Binary64

/-- Only the negative zero is not its own representative. -/
theorem canonical_cases (x : Binary64) :
    x.canonical = x ∨ (x = zero true ∧ x.canonical = zero false) := by
  unfold canonical
  by_cases hzero : x.isZero = true
  · rw [if_pos hzero]
    obtain ⟨negative, magnitude, hlt⟩ := x
    obtain rfl : magnitude = 0 := of_decide_eq_true hzero
    cases negative with
    | false => exact .inl rfl
    | true => exact .inr ⟨rfl, rfl⟩
  · exact .inl (if_neg hzero)

/-- A function has one value on `x` and on its representative if it has one on the two zeros. -/
theorem apply_canonical {α : Type} {f : Binary64 → α} (h : f (zero false) = f (zero true))
    (x : Binary64) : f x.canonical = f x := by
  rcases x.canonical_cases with heq | ⟨rfl, heq⟩
  · rw [heq]
  · rw [heq, h]

@[simp]
theorem canonical_canonical (x : Binary64) : x.canonical.canonical = x.canonical :=
  apply_canonical (f := canonical) rfl x

@[simp]
theorem isZero_canonical (x : Binary64) : x.canonical.isZero = x.isZero := apply_canonical rfl x

/-- The zeros have the same place among the numbers. -/
@[simp]
theorem compare?_canonical_left (x y : Binary64) : x.canonical.compare? y = x.compare? y :=
  apply_canonical (f := fun x => x.compare? y) rfl x

@[simp]
theorem compare?_canonical_right (x y : Binary64) : x.compare? y.canonical = x.compare? y :=
  apply_canonical rfl y

@[simp]
theorem numericEq_canonical_left (x y : Binary64) : x.canonical.numericEq y = x.numericEq y := by
  rw [numericEq, compare?_canonical_left, numericEq]

@[simp]
theorem numericEq_canonical_right (x y : Binary64) : x.numericEq y.canonical = x.numericEq y := by
  rw [numericEq, compare?_canonical_right, numericEq]

/-! ### Arithmetic -/

/-- Nothing at all rounds to zero. -/
theorem canonical_ofUnits_zero (negative : Bool) (den : Nat) :
    (ofUnits negative 0 den).canonical = zero false := by
  have hnearest : nearest 0 den = 0 := by simp [nearest, roundBits]
  exact if_pos (decide_eq_true hnearest)

theorem isInfinite_zero (negative : Bool) : (zero negative).isInfinite = false := rfl

theorem units_zero (negative : Bool) : (zero negative).units = 0 := rfl

theorem signedUnits_zero (negative : Bool) : (zero negative).signedUnits = 0 := by
  cases negative <;> rfl

/-- An operation respects the equality of cells if it does so for a zero on either side. -/
theorem canonical_congr {f : Binary64 → Binary64 → Binary64}
    (hleft : ∀ y, (f (zero false) y).canonical = (f (zero true) y).canonical)
    (hright : ∀ x, (f x (zero false)).canonical = (f x (zero true)).canonical) (x y : Binary64) :
    (f x.canonical y.canonical).canonical = (f x y).canonical :=
  (apply_canonical (f := fun x => (f x y.canonical).canonical) (hleft _) x).trans
    (apply_canonical (f := fun y => (f x y).canonical) (hright x) y)

/-- A zero is a number, so only the other operand can be none. -/
theorem canonical_unlessNaN_zero_left {y r r' : Binary64} (h : r.canonical = r'.canonical) :
    (unlessNaN (zero false) y r).canonical = (unlessNaN (zero true) y r').canonical := by
  change (if y.isNaN then y else r).canonical = (if y.isNaN then y else r').canonical
  split
  · rfl
  · exact h

theorem canonical_unlessNaN_zero_right {x r r' : Binary64} (h : r.canonical = r'.canonical) :
    (unlessNaN x (zero false) r).canonical = (unlessNaN x (zero true) r').canonical := by
  change (if x.isNaN then x else r).canonical = (if x.isNaN then x else r').canonical
  split
  · rfl
  · exact h

theorem canonical_addNumbers_zero_left (y : Binary64) :
    (addNumbers (zero false) y).canonical = (addNumbers (zero true) y).canonical := by
  simp only [addNumbers, isInfinite_zero, signedUnits_zero, Bool.false_eq_true, if_false]
  split
  · rfl
  · split
    · rfl
    · rfl

theorem canonical_addNumbers_zero_right (x : Binary64) :
    (addNumbers x (zero false)).canonical = (addNumbers x (zero true)).canonical := by
  simp only [addNumbers, isInfinite_zero, signedUnits_zero, Bool.false_and, Bool.false_eq_true,
    if_false]
  split
  · rfl
  · split
    · rfl
    · rfl

theorem canonical_add (x y : Binary64) :
    (x.canonical.add y.canonical).canonical = (x.add y).canonical :=
  canonical_congr (f := add)
    (fun y => canonical_unlessNaN_zero_left (canonical_addNumbers_zero_left y))
    (fun x => canonical_unlessNaN_zero_right (canonical_addNumbers_zero_right x)) x y

theorem canonical_sub (x y : Binary64) :
    (x.canonical.sub y.canonical).canonical = (x.sub y).canonical :=
  canonical_congr (f := sub)
    (fun y => canonical_unlessNaN_zero_left (canonical_addNumbers_zero_left y.neg))
    (fun x => canonical_unlessNaN_zero_right (canonical_addNumbers_zero_right x).symm) x y

theorem canonical_mul (x y : Binary64) :
    (x.canonical.mul y.canonical).canonical = (x.mul y).canonical := by
  refine canonical_congr (f := mul) (fun y => canonical_unlessNaN_zero_left ?_)
    (fun x => canonical_unlessNaN_zero_right ?_) x y
  · simp only [isInfinite_zero, units_zero, Bool.false_or, Nat.zero_mul]
    split
    · rfl
    · rw [canonical_ofUnits_zero, canonical_ofUnits_zero]
  · simp only [isInfinite_zero, units_zero, Bool.or_false, Nat.mul_zero]
    split
    · cases x.isZero <;> rfl
    · rw [canonical_ofUnits_zero, canonical_ofUnits_zero]

/-- A quotient is left out when the divisor is zero, since the sign of that zero shows. -/
theorem canonical_div {x y : Binary64} (hy : y.isZero = false) :
    (x.canonical.div y.canonical).canonical = (x.div y).canonical := by
  have hsame : y.canonical = y := if_neg (by simp [hy])
  rw [hsame]
  refine apply_canonical (f := fun x => (x.div y).canonical) ?_ x
  refine canonical_unlessNaN_zero_left ?_
  simp only [isInfinite_zero, units_zero, Nat.zero_mul, hy, Bool.false_eq_true, if_false]
  split
  · rfl
  · rw [canonical_ofUnits_zero, canonical_ofUnits_zero]

end Binary64

/-! ## Data -/

namespace Datum

/-- The datum that stands for `d` among data that differ in the signs of their zeros. Lists have no
cells in them. -/
def canonical : Datum → Datum
  | float x => float x.canonical
  | d => d

theorem ofCell_canonical (cell : Cell) : ofCell cell.canonical = (ofCell cell).canonical := by
  cases cell <;> rfl

@[simp]
theorem isNull_canonical (d : Datum) : d.canonical.isNull = d.isNull := by
  cases d <;> rfl

@[simp]
theorem typeName_canonical (d : Datum) : d.canonical.typeName = d.typeName := by
  cases d <;> rfl

@[simp]
theorem isTruthy_canonical (d : Datum) : d.canonical.isTruthy = d.isTruthy := by
  cases d with
  | float x => simp [canonical, isTruthy]
  | _ => rfl

theorem orFalse_canonical (d : Datum) : d.canonical.orFalse = d.orFalse.canonical := by
  cases d <;> rfl

theorem numericEq_canonical_left (a b : Datum) : a.canonical.numericEq b = a.numericEq b := by
  cases a with
  | float x => cases b <;> simp [canonical, numericEq, number?]
  | _ => rfl

theorem numericEq_canonical_right (a b : Datum) : a.numericEq b.canonical = a.numericEq b := by
  cases b with
  | float x => cases a <;> simp [canonical, numericEq, number?]
  | _ => rfl

/-- A double is loosely equal only to what is the same number. -/
theorem looseEq_float_left (x : Binary64) (b : Datum) :
    (float x).looseEq b = (float x).numericEq b := by
  cases b <;> simp [looseEq]

theorem looseEq_float_right (a : Datum) (x : Binary64) :
    a.looseEq (float x) = a.numericEq (float x) := by
  cases a <;> simp [looseEq]

@[simp]
theorem looseEq_canonical_left (a b : Datum) : a.canonical.looseEq b = a.looseEq b := by
  cases a with
  | float x =>
      rw [looseEq_float_left, ← numericEq_canonical_left]
      exact looseEq_float_left _ b
  | _ => rfl

@[simp]
theorem looseEq_canonical_right (a b : Datum) : a.looseEq b.canonical = a.looseEq b := by
  cases b with
  | float x =>
      rw [looseEq_float_right, ← numericEq_canonical_right]
      exact looseEq_float_right a _
  | _ => rfl

@[simp]
theorem looseCompare?_canonical_left (a b : Datum) :
    a.canonical.looseCompare? b = a.looseCompare? b := by
  cases a with
  | float x => cases b <;> simp [canonical, looseCompare?, number?]
  | _ => rfl

@[simp]
theorem looseCompare?_canonical_right (a b : Datum) :
    a.looseCompare? b.canonical = a.looseCompare? b := by
  cases b with
  | float x => cases a <;> simp [canonical, looseCompare?, number?]
  | _ => rfl

theorem identical_canonical (a b : Datum) :
    a.canonical.identical b.canonical = a.identical b := by
  cases a <;> cases b <;> simp [canonical, identical]

theorem contains_canonical (haystack needle : Datum) :
    haystack.canonical.contains needle.canonical = haystack.contains needle := by
  cases haystack with
  | list items =>
      change (items.any fun item => item.looseEq needle.canonical) = _
      simp only [looseEq_canonical_right]
      rfl
  | text whole => cases needle <;> rfl
  | _ => rfl

end Datum

/-! ## Operators -/

/-- A comparison does not see the signs of zeros. -/
theorem Comparison.holds_canonical (op : Comparison) (lhs rhs : Datum) :
    op.holds lhs.canonical rhs.canonical = op.holds lhs rhs := by
  cases op <;>
    simp [Comparison.holds, Datum.orFalse_canonical, Datum.identical_canonical,
      Datum.contains_canonical]

theorem Connective.holds_canonical (op : Connective) (lhs rhs : Datum) :
    op.holds lhs.canonical rhs.canonical = op.holds lhs rhs := by
  cases op <;> simp [Connective.holds]

theorem Existence.holds_canonical (op : Existence) (operand : Datum) :
    op.holds operand.canonical = op.holds operand := by
  cases op <;> simp [Existence.holds]

namespace Arithmetic

theorem map_operand?_canonical (d : Datum) :
    (operand? d.canonical).map Binary64.canonical = (operand? d).map Binary64.canonical := by
  cases d with
  | float x => simp [Datum.canonical, operand?]
  | _ => rfl

theorem canonical_inexact (op : Arithmetic) {x y : Binary64} (h : (op = div && y.isZero) = false) :
    (op.inexact x.canonical y.canonical).canonical = (op.inexact x y).canonical := by
  cases op with
  | add => exact Binary64.canonical_add x y
  | sub => exact Binary64.canonical_sub x y
  | mul => exact Binary64.canonical_mul x y
  | div => exact Binary64.canonical_div (by simpa using h)

/-- A zero divisor is refused before its sign could show. -/
theorem map_applyFloats_canonical (op : Arithmetic) (lhs rhs : Datum) :
    (op.applyFloats lhs.canonical rhs.canonical).map Datum.canonical =
      (op.applyFloats lhs rhs).map Datum.canonical := by
  have hlhs := map_operand?_canonical lhs
  have hrhs := map_operand?_canonical rhs
  unfold applyFloats
  rw [Datum.typeName_canonical, Datum.typeName_canonical]
  cases hx : operand? lhs with
  | none =>
      rw [hx, Option.map_none, Option.map_eq_none_iff] at hlhs
      rw [hlhs]
  | some x =>
      rw [hx] at hlhs
      obtain ⟨x', hx', hxx⟩ := Option.map_eq_some_iff.1 hlhs
      cases hy : operand? rhs with
      | none =>
          rw [hy, Option.map_none, Option.map_eq_none_iff] at hrhs
          rw [hx', hrhs]
      | some y =>
          rw [hy] at hrhs
          obtain ⟨y', hy', hyy⟩ := Option.map_eq_some_iff.1 hrhs
          have hzero : y'.isZero = y.isZero := by
            rw [← Binary64.isZero_canonical, hyy, Binary64.isZero_canonical]
          simp only [hx', hy', hzero]
          cases hdiv : decide (op = div) && y.isZero with
          | true => rfl
          | false =>
              have hresult : (op.inexact x' y').canonical = (op.inexact x y).canonical := by
                rw [← op.canonical_inexact (hzero ▸ hdiv), hxx, hyy, op.canonical_inexact hdiv]
              exact congrArg (fun z => Except.ok (Datum.float z)) hresult

theorem applyPresent_float_left (op : Arithmetic) (x : Binary64) (d : Datum) :
    op.applyPresent (.float x) d = op.applyFloats (.float x) d := by
  cases op <;> cases d <;> rfl

theorem applyPresent_float_right (op : Arithmetic) (d : Datum) (x : Binary64) :
    op.applyPresent d (.float x) = op.applyFloats d (.float x) := by
  cases op <;> cases d <;> rfl

theorem map_applyPresent_canonical (op : Arithmetic) (lhs rhs : Datum) :
    (op.applyPresent lhs.canonical rhs.canonical).map Datum.canonical =
      (op.applyPresent lhs rhs).map Datum.canonical := by
  cases lhs with
  | float x =>
      rw [applyPresent_float_left, ← map_applyFloats_canonical]
      exact congrArg _ (op.applyPresent_float_left _ _)
  | _ =>
      cases rhs with
      | float y =>
          rw [applyPresent_float_right, ← map_applyFloats_canonical]
          exact congrArg _ (op.applyPresent_float_right _ _)
      | _ => rfl

/-- Arithmetic passes a difference in the sign of a zero on to its result, and no other. -/
theorem map_apply_canonical (op : Arithmetic) (lhs rhs : Datum) :
    (op.apply lhs.canonical rhs.canonical).map Datum.canonical =
      (op.apply lhs rhs).map Datum.canonical := by
  unfold apply
  rw [Datum.isNull_canonical, Datum.isNull_canonical]
  split
  · rfl
  · exact op.map_applyPresent_canonical lhs rhs

end Arithmetic

/-! ## Expressions -/

/-- A cell is looked up in a row at the same place as in its representative. -/
theorem Bindings.get?_canonical (schema : Schema) (row : Row) (name : String) :
    (Bindings.mk schema (Row.canonical row)).get? name =
      ((Bindings.mk schema row).get? name).map Cell.canonical := by
  unfold Bindings.get? Row.canonical
  cases schema.indexOf? name with
  | none => rfl
  | some index => simp

/-- Computations that go on alike with data that differ at most in the sign of a zero. -/
theorem map_bind_congr {β γ : Type} {x x' : Except EvalError Datum}
    (hx : x.map Datum.canonical = x'.map Datum.canonical) {f f' : Datum → Except EvalError β}
    {g : β → γ}
    (hf : ∀ d d', d.canonical = d'.canonical → (f d).map g = (f' d').map g) :
    (x >>= f).map g = (x' >>= f').map g := by
  cases x' with
  | error e =>
      rw [map_eq_error_iff.1 (hx.trans rfl)]
      rfl
  | ok d' =>
      obtain ⟨d, rfl, hd⟩ := map_eq_ok_iff.1 (hx.trans rfl)
      exact hf d d' hd

namespace Expression

/-- A row and its representative give values that differ at most in the sign of a zero. -/
theorem map_eval_canonical (schema : Schema) (row : Row) (e : Expression) :
    (e.eval ⟨schema, Row.canonical row⟩).map Datum.canonical =
      (e.eval ⟨schema, row⟩).map Datum.canonical := by
  induction e with
  | literal value => rfl
  | column name =>
      unfold eval
      rw [Bindings.get?_canonical]
      cases (Bindings.mk schema row).get? name with
      | none => rfl
      | some cell =>
          change Except.ok (Datum.ofCell cell.canonical).canonical = Except.ok _
          rw [Datum.ofCell_canonical]
          cases cell <;> simp [Datum.ofCell, Datum.canonical]
  | compare op lhs rhs ihl ihr =>
      refine map_bind_congr ihl fun x x' hx => map_bind_congr ihr fun y y' hy => ?_
      rw [← op.holds_canonical, hx, hy, op.holds_canonical]
  | connect op lhs rhs ihl ihr =>
      refine map_bind_congr ihl fun x x' hx => map_bind_congr ihr fun y y' hy => ?_
      rw [← op.holds_canonical, hx, hy, op.holds_canonical]
  | test op operand ih =>
      refine map_bind_congr ih fun x x' hx => ?_
      rw [← op.holds_canonical, hx, op.holds_canonical]
  | calculate op lhs rhs ihl ihr =>
      refine map_bind_congr ihl fun x x' hx => map_bind_congr ihr fun y y' hy => ?_
      rw [← op.map_apply_canonical, hx, hy, op.map_apply_canonical]

/-- **Equal rows have equal values.** On rows that are equal as members of a set an expression fails
with one error, or its values differ at most in the sign of a zero. -/
theorem eval_congr {row row' : Row} (h : Row.canonical row = Row.canonical row') (schema : Schema)
    (e : Expression) :
    (e.eval ⟨schema, row⟩).map Datum.canonical = (e.eval ⟨schema, row'⟩).map Datum.canonical := by
  rw [← map_eval_canonical, h, map_eval_canonical]

end Expression

end FlatTables
