import FlatTables.Expression.Eval
import FlatTables.Proofs.Expression.Building
import FlatTables.Proofs.Traversal

set_option autoImplicit false

/-! # Operands of a connective, however they are grouped

`and` and `or` of many operands are nested applications of the connective to two. Every nesting of
the same operands in the same order has the same outcome (`Connective.Nests.eval_eq`): the error of
the first operand that has one, or else whether all of their values, or any, are true. -/

namespace FlatTables

namespace Connective

/-- Whether an expression applies a connective to operands in their order, two at a time. A single
operand stands for itself. -/
inductive Nests (op : Connective) : List Expression → Expression → Prop
  | operand (e : Expression) : Nests op [e] e
  | connect {left right : List Expression} {lhs rhs : Expression} (hleft : Nests op left lhs)
    (hright : Nests op right rhs) : Nests op (left ++ right) (.connect op lhs rhs)

/-- What a connective says of any number of data. -/
def holdsOf (op : Connective) (values : List Datum) : Bool :=
  match op with
  | and => values.all Datum.isTruthy
  | or => values.any Datum.isTruthy

/-- What a connective says of two truth values. -/
def decides : Connective → Bool → Bool → Bool
  | and => Bool.and
  | or => Bool.or

variable {op : Connective} {operands left right : List Expression} {e lhs rhs : Expression}
  {b : Bindings}

theorem holdsOf_append (xs ys : List Datum) :
    op.holdsOf (xs ++ ys) = op.decides (op.holdsOf xs) (op.holdsOf ys) := by
  cases op with
  | and => exact List.all_append
  | or => exact List.any_append

theorem holdsOf_singleton (x : Datum) : op.holdsOf [x] = x.isTruthy := by
  cases op with
  | and => exact Bool.and_true _
  | or => exact Bool.or_false _

theorem nests_of_fold? (h : op.fold? operands = some e) : op.Nests operands e := by
  induction operands generalizing e with
  | nil => cases h
  | cons first rest ih =>
      cases rest with
      | nil =>
          cases h
          exact .operand first
      | cons second rest =>
          rw [fold?_cons_cons] at h
          obtain ⟨e', he', rfl⟩ := Option.map_eq_some_iff.1 h
          exact .connect (.operand first) (ih he')

/-! ## Truth -/

/-- The truth of two operands decides about their application. -/
theorem map_isTruthy_eval_connect : ((Expression.connect op lhs rhs).eval b).map Datum.isTruthy =
    (lhs.eval b).map Datum.isTruthy >>= fun p =>
      ((rhs.eval b).map Datum.isTruthy).map (op.decides p) := by
  rw [Expression.eval]
  cases lhs.eval b with
  | error error => rfl
  | ok x => cases rhs.eval b <;> cases op <;> rfl

theorem map_holdsOf_mapM_append : ((left ++ right).mapM (Expression.eval b)).map op.holdsOf =
    (left.mapM (Expression.eval b)).map op.holdsOf >>= fun p =>
      ((right.mapM (Expression.eval b)).map op.holdsOf).map (op.decides p) := by
  rw [List.mapM_append]
  cases left.mapM (Expression.eval b) with
  | error error => rfl
  | ok xs =>
      cases right.mapM (Expression.eval b) with
      | error error => rfl
      | ok ys => exact congrArg Except.ok (holdsOf_append xs ys)

/-- A nesting is as true as the connective says of the values of all operands. -/
theorem Nests.map_isTruthy_eval (h : op.Nests operands e) :
    (e.eval b).map Datum.isTruthy = (operands.mapM (Expression.eval b)).map op.holdsOf := by
  induction h with
  | operand e =>
      rw [List.mapM_cons, List.mapM_nil]
      cases e.eval b with
      | error error => rfl
      | ok x => exact congrArg Except.ok (holdsOf_singleton x).symm
  | connect hleft hright ihleft ihright =>
      rw [map_isTruthy_eval_connect, map_holdsOf_mapM_append, ihleft, ihright]

/-- The value of an application is a boolean, and so nothing but its truth. -/
theorem eval_connect_eq_map : (Expression.connect op lhs rhs).eval b =
    (((Expression.connect op lhs rhs).eval b).map Datum.isTruthy).map Datum.boolean := by
  rw [Expression.eval]
  cases lhs.eval b with
  | error error => rfl
  | ok x => cases rhs.eval b <;> rfl

/-- **The outcome of a nesting depends on its operands and their order only.** -/
theorem Nests.eval_eq (h : op.Nests operands e) (hlength : 2 ≤ operands.length) : e.eval b =
    ((operands.mapM (Expression.eval b)).map op.holdsOf).map Datum.boolean := by
  rw [← h.map_isTruthy_eval]
  cases h with
  | operand => exact absurd hlength (by simp)
  | connect => exact eval_connect_eq_map

theorem Nests.eval_eq_error_iff (h : op.Nests operands e) (hlength : 2 ≤ operands.length)
    {error : EvalError} : e.eval b = .error error ↔
      First (fun operand error => operand.eval b = .error error) operands error := by
  rw [h.eval_eq hlength, map_eq_error_iff, map_eq_error_iff, mapM_eq_error_iff]

theorem Nests.eval_of_values (h : op.Nests operands e) (hlength : 2 ≤ operands.length)
    {values : List Datum}
    (hvalues : List.Forall₂ (fun operand value => operand.eval b = .ok value) operands values) :
    e.eval b = .ok (.boolean (op.holdsOf values)) := by
  rw [h.eval_eq hlength, mapM_eq_ok_iff.2 hvalues]
  rfl

/-- As many operands as a connective takes are built to a nesting of them. -/
theorem exists_nests_of_apply (op : Connective) {name : String}
    (hname : Text.SameLetters name op.name) (hlength : 2 ≤ operands.length) :
    ∃ e, Expression.apply name operands = .ok e ∧ op.Nests operands e := by
  rcases operands with _ | ⟨lhs, _ | ⟨rhs, rest⟩⟩
  · exact absurd hlength (by decide)
  · exact absurd hlength (by simp)
  · obtain ⟨e, he⟩ := op.exists_fold?_cons lhs (rhs :: rest)
    exact ⟨e, Expression.apply_eq_ok_iff.2 ⟨.connective op, hname, he⟩, nests_of_fold? he⟩

/-- **Chains of `and` and `or` mean what they say**, however they are grouped. What is built of two
or more operands gives the error of the first that fails, and otherwise tells whether the values of
all of them, or any, are true; and so does every nesting of these operands. -/
theorem apply_chain (op : Connective) {name : String} (hname : Text.SameLetters name op.name)
    (hlength : 2 ≤ operands.length) :
    ∃ e, Expression.apply name operands = .ok e ∧ ∀ b : Bindings,
      (∀ error, e.eval b = .error error ↔
        First (fun operand error => operand.eval b = .error error) operands error) ∧
      (∀ values, List.Forall₂ (fun operand value => operand.eval b = .ok value) operands values →
        e.eval b = .ok (.boolean (op.holdsOf values))) ∧
      ∀ nested, op.Nests operands nested → nested.eval b = e.eval b := by
  obtain ⟨e, he, hnests⟩ := op.exists_nests_of_apply hname hlength
  refine ⟨e, he, fun b => ⟨fun error => hnests.eval_eq_error_iff hlength,
    fun values => hnests.eval_of_values hlength, fun nested h => ?_⟩⟩
  rw [h.eval_eq hlength, hnests.eval_eq hlength]

/-- The division by zero shows although a true operand stands before it, and before the overflow
behind it, also when the first two operands are taken together. -/
theorem apply_chain_failing :
    let division : Expression := .calculate .div (.literal (.integer 1)) (.literal (.integer 0))
    let overflow : Expression :=
      .calculate .add (.literal (.integer Int64.maxValue)) (.literal (.integer 1))
    let operands : List Expression := [.literal (.boolean true), division, overflow]
    let nested : Expression :=
      .connect .or (.connect .or (.literal (.boolean true)) division) overflow
    Text.SameLetters "OR" Connective.or.name ∧ 2 ≤ operands.length ∧
      ∃ e, Expression.apply "OR" operands = .ok e ∧
        e.eval ⟨.empty, []⟩ = .error .divisionByZero ∧
        nested.eval ⟨.empty, []⟩ = .error .divisionByZero := by
  intro division overflow operands nested
  have hname : Text.SameLetters "OR" Connective.or.name := by
    rw [Text.SameLetters, ← String.toList_inj, String.toList_map, String.toList_map]
    decide
  have hlength : 2 ≤ operands.length := by decide
  obtain ⟨e, he, h⟩ := apply_chain .or hname hlength
  obtain ⟨herror, -, hnested⟩ := h ⟨.empty, []⟩
  have hfirst : e.eval ⟨.empty, []⟩ = .error .divisionByZero := by
    refine (herror _).2 ⟨[.literal (.boolean true)], division, [overflow], rfl, rfl, ?_⟩
    simp [Expression.eval]
  refine ⟨hname, hlength, e, he, hfirst, ?_⟩
  rw [← hfirst]
  exact hnested nested (.connect (.connect (.operand _) (.operand _)) (.operand _))

end Connective

end FlatTables
