import FlatTables.Expression.Basic

set_option autoImplicit false

/-! # Expressions built by name

An operator is called by its name, in letters of any case, and takes as many operands as its rule
admits. `Expression.apply` gives what the operator called builds of the operands
(`Expression.apply_eq_ok_iff`), and an operator builds something exactly when their number is right
(`Operator.exists_build?_iff`). -/

namespace FlatTables

/-- Whether two texts are the same but for the case of their ASCII letters. -/
def Text.SameLetters (a b : String) : Prop := a.map Char.toLower = b.map Char.toLower

/-- Whether a rule admits a number of operands. -/
def OperandRule.Admits : OperandRule → Nat → Prop
  | exactly count, found => found = count
  | atLeast count, found => count ≤ found

namespace Connective

theorem fold?_cons_cons (op : Connective) (first second : Expression) (rest : List Expression) :
    op.fold? (first :: second :: rest) =
      (op.fold? (second :: rest)).map (.connect op first) := rfl

theorem exists_fold?_cons (op : Connective) (first : Expression) (rest : List Expression) :
    ∃ e, op.fold? (first :: rest) = some e := by
  induction rest generalizing first with
  | nil => exact ⟨first, rfl⟩
  | cons second rest ih =>
      obtain ⟨e, he⟩ := ih second
      rw [fold?_cons_cons, he]
      exact ⟨.connect op first e, rfl⟩

end Connective

theorem eq_of_find?_beq {α : Type} {f : α → String} {l : List α} {s : String} {a : α}
    (h : l.find? (f · == s) = some a) : f a = s :=
  beq_iff_eq.1 (List.find?_some (p := (f · == s)) h)

namespace Operator

/-- The name of an operator of any family. -/
def name : Operator → String
  | connective op => op.name
  | existence op => op.name
  | comparison op => op.name
  | arithmetic op => op.name

variable {op : Operator} {s : String} {operands : List Expression}

theorem map_toLower_name (op : Operator) : op.name.map Char.toLower = op.name := by
  rw [← String.toList_inj, String.toList_map]
  rcases op with op | op | op | op <;> cases op <;> decide

theorem ofName?_name (op : Operator) : ofName? op.name = some op := by
  rcases op with op | op | op | op <;> cases op <;> rfl

/-- The operator of a name is the one that has it. -/
theorem ofName?_eq_some_iff : ofName? s = some op ↔ op.name = s := by
  constructor
  · intro h
    simp only [ofName?, Option.orElse_eq_orElse, Option.orElse_eq_or, Option.or_eq_some_iff,
      Option.map_eq_some_iff] at h
    rcases h with ⟨_, h, rfl⟩ | ⟨-, ⟨_, h, rfl⟩ | ⟨-, ⟨_, h, rfl⟩ | ⟨-, _, h, rfl⟩⟩⟩
    · exact eq_of_find?_beq (f := Connective.name) h
    · exact eq_of_find?_beq (f := Existence.name) h
    · exact eq_of_find?_beq (f := Comparison.name) h
    · exact eq_of_find?_beq (f := Arithmetic.name) h
  · rintro rfl
    exact ofName?_name op

/-- An operator builds something of as many operands as its rule admits. -/
theorem exists_build?_iff :
    (∃ e, op.build? operands = some e) ↔ op.rule.Admits operands.length := by
  cases op with
  | connective op =>
      rcases operands with _ | ⟨lhs, _ | ⟨rhs, rest⟩⟩
      · simp [build?, rule, OperandRule.Admits]
      · simp [build?, rule, OperandRule.Admits]
      · exact iff_of_true (op.exists_fold?_cons lhs (rhs :: rest)) (Nat.le_add_left 2 rest.length)
  | existence op =>
      rcases operands with _ | ⟨operand, _ | ⟨second, rest⟩⟩ <;>
        simp [build?, rule, OperandRule.Admits]
  | comparison op =>
      rcases operands with _ | ⟨lhs, _ | ⟨rhs, _ | ⟨third, rest⟩⟩⟩ <;>
        simp [build?, rule, OperandRule.Admits]
  | arithmetic op =>
      rcases operands with _ | ⟨lhs, _ | ⟨rhs, _ | ⟨third, rest⟩⟩⟩ <;>
        simp [build?, rule, OperandRule.Admits]

end Operator

/-- **What is built of operands by name** is what the operator of that name builds. -/
theorem Expression.apply_eq_ok_iff {name : String} {operands : List Expression} {e : Expression} :
    Expression.apply name operands = .ok e ↔
      ∃ op : Operator, Text.SameLetters name op.name ∧ op.build? operands = some e := by
  have hname (op : Operator) : Text.SameLetters name op.name ↔
      Operator.ofName? (name.map Char.toLower) = some op := by
    rw [Text.SameLetters, op.map_toLower_name, Operator.ofName?_eq_some_iff, eq_comm]
  simp only [hname]
  unfold apply
  simp only
  cases Operator.ofName? (name.map Char.toLower) with
  | none => simp
  | some op => cases hbuild : op.build? operands <;> simp [hbuild]

end FlatTables
