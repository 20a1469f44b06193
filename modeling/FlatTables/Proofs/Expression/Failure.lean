import FlatTables.Expression.Eval
import FlatTables.Proofs.Binary64.Rounding
import FlatTables.Proofs.First
import FlatTables.Proofs.Integer
import FlatTables.Proofs.Outcome

set_option autoImplicit false

/-! # Which error an evaluation gives

Arithmetic is the only thing that fails, and no operator passes over an error of an operand. So an
expression has no value exactly when one of its arithmetic nodes fails by itself, and then the error
is that of the first such node in the order in which the nodes get their values
(`Expression.eval_eq_error_iff`).

What arithmetic refuses is said on its own in `Arithmetic.Refuses`, over the kinds of the operands
and the exact integers (`Arithmetic.apply_eq_error_iff`). An operator with two operands needs one
argument, whatever it does with their values (`Expression.eval_eq_error_iff_of_operands`). -/

namespace FlatTables

/-! ## What arithmetic refuses -/

namespace Datum

/-- Whether `d` is an integer or a double. -/
inductive IsNumber : Datum → Prop
  | integer (value : Int64) : IsNumber (integer value)
  | float (value : Binary64) : IsNumber (float value)

/-- Whether `d` is the integer zero or a zero of either sign. -/
inductive IsZero : Datum → Prop
  | integer : IsZero (integer 0)
  | float (negative : Bool) : IsZero (float (Binary64.zero negative))

inductive IsText : Datum → Prop
  | text (value : String) : IsText (text value)

theorem IsZero.isNumber {d : Datum} (h : d.IsZero) : d.IsNumber := by
  cases h
  · exact .integer 0
  · exact .float _

end Datum

namespace Arithmetic

/-- Which error an operation refuses two data with: a zero divides a number, an exact integer result
is no word, or the operands are neither two numbers nor two texts to be joined. -/
inductive Refuses : Arithmetic → Datum → Datum → EvalError → Prop
  | divisionByZero {x y : Datum} (hx : x.IsNumber) (hy : y.IsZero) : Refuses div x y .divisionByZero
  | sum {a b : Int64} (h : ¬Integer.FitsWord (a.toInt + b.toInt)) :
    Refuses add (.integer a) (.integer b) (.overflow add)
  | difference {a b : Int64} (h : ¬Integer.FitsWord (a.toInt - b.toInt)) :
    Refuses sub (.integer a) (.integer b) (.overflow sub)
  | product {a b : Int64} (h : ¬Integer.FitsWord (a.toInt * b.toInt)) :
    Refuses mul (.integer a) (.integer b) (.overflow mul)
  | operands {op : Arithmetic} {x y : Datum} (hnumbers : ¬(x.IsNumber ∧ y.IsNumber))
    (htexts : ¬(op = add ∧ x.IsText ∧ y.IsText)) :
    Refuses op x y (.invalidOperands op x.typeName y.typeName)

variable {op : Arithmetic} {x y : Datum} {a b : Int64} {error : EvalError}

theorem exists_operand?_iff : (∃ z, operand? x = some z) ↔ x.IsNumber := by
  constructor
  · rintro ⟨z, h⟩
    cases x <;> cases h
    · exact .integer _
    · exact .float _
  · rintro (_ | _) <;> exact ⟨_, rfl⟩

/-- A divisor counts as zero as a double exactly when it is a zero of its kind. -/
theorem isZero_of_operand? {z : Binary64} (h : operand? x = some z) :
    z.isZero = true ↔ x.IsZero := by
  cases x with
  | integer i =>
      cases h
      rw [Binary64.ofInt64, Binary64.isZero_ofInt_iff, ← Int64.toInt_zero, Int64.toInt_inj]
      constructor
      · rintro rfl
        exact .integer
      · rintro ⟨⟩
        rfl
  | float z' =>
      cases h
      constructor
      · intro h
        obtain ⟨negative, magnitude, hlt⟩ := z
        obtain rfl : magnitude = 0 := of_decide_eq_true h
        exact .float negative
      · rintro ⟨⟩
        rfl
  | _ => cases h

theorem applyFloats_eq_error_iff : op.applyFloats x y = .error error ↔
    (op = div ∧ x.IsNumber ∧ y.IsZero ∧ error = .divisionByZero) ∨
      (¬(x.IsNumber ∧ y.IsNumber) ∧ error = .invalidOperands op x.typeName y.typeName) := by
  unfold applyFloats
  split
  · next z z' hx hy =>
      have hnumbers : x.IsNumber ∧ y.IsNumber :=
        ⟨exists_operand?_iff.1 ⟨z, hx⟩, exists_operand?_iff.1 ⟨z', hy⟩⟩
      rw [← isZero_of_operand? hy]
      split
      · next hzero =>
          rw [Bool.and_eq_true, decide_eq_true_eq] at hzero
          constructor
          · intro h
            cases h
            exact .inl ⟨hzero.1, hnumbers.1, hzero.2, rfl⟩
          · rintro (⟨-, -, -, rfl⟩ | ⟨hnone, -⟩)
            · rfl
            · exact absurd hnumbers hnone
      · next hzero =>
          rw [Bool.and_eq_true, decide_eq_true_eq, not_and] at hzero
          constructor
          · intro h
            cases h
          · rintro (⟨hdiv, -, hy, -⟩ | ⟨hnone, -⟩)
            · exact absurd hy (hzero hdiv)
            · exact absurd hnumbers hnone
  · next hnone =>
      have hnumbers : ¬(x.IsNumber ∧ y.IsNumber) := by
        rintro ⟨hx, hy⟩
        obtain ⟨z, hz⟩ := exists_operand?_iff.2 hx
        obtain ⟨z', hz'⟩ := exists_operand?_iff.2 hy
        exact hnone z z' hz hz'
      constructor
      · intro h
        cases h
        exact .inr ⟨hnumbers, rfl⟩
      · rintro (⟨-, hx, hy, -⟩ | ⟨-, rfl⟩)
        · exact absurd ⟨hx, hy.isNumber⟩ hnumbers
        · rfl

/-- An operation that stays within the integers is refused for a result out of range. -/
theorem applyIntegers_eq_error_iff_of_exact {i : Int}
    (h : op.exactResult a.toInt b.toInt = some i) :
    op.applyIntegers a b = .error error ↔ ¬Integer.FitsWord i ∧ error = .overflow op := by
  rw [← Integer.ofInt?_eq_none_iff]
  simp only [applyIntegers, h]
  cases Integer.ofInt? i with
  | none => simp [eq_comm]
  | some i => simp

theorem applyIntegers_eq_error_iff : op.applyIntegers a b = .error error ↔
    op.Refuses (.integer a) (.integer b) error := by
  have hnumbers : (Datum.integer a).IsNumber ∧ (Datum.integer b).IsNumber :=
    ⟨.integer a, .integer b⟩
  cases op with
  | add =>
      refine (applyIntegers_eq_error_iff_of_exact rfl).trans ⟨?_, ?_⟩
      · rintro ⟨h, rfl⟩
        exact .sum h
      · rintro (_ | h | _ | _ | ⟨hnone, -⟩)
        · exact ⟨h, rfl⟩
        · exact absurd hnumbers hnone
  | sub =>
      refine (applyIntegers_eq_error_iff_of_exact rfl).trans ⟨?_, ?_⟩
      · rintro ⟨h, rfl⟩
        exact .difference h
      · rintro (_ | _ | h | _ | ⟨hnone, -⟩)
        · exact ⟨h, rfl⟩
        · exact absurd hnumbers hnone
  | mul =>
      refine (applyIntegers_eq_error_iff_of_exact rfl).trans ⟨?_, ?_⟩
      · rintro ⟨h, rfl⟩
        exact .product h
      · rintro (_ | _ | _ | h | ⟨hnone, -⟩)
        · exact ⟨h, rfl⟩
        · exact absurd hnumbers hnone
  | div =>
      simp only [applyIntegers, exactResult]
      refine applyFloats_eq_error_iff.trans ⟨?_, ?_⟩
      · rintro (⟨-, hx, hy, rfl⟩ | ⟨hnone, -⟩)
        · exact .divisionByZero hx hy
        · exact absurd hnumbers hnone
      · rintro (⟨hx, hy⟩ | _ | _ | _ | ⟨hnone, -⟩)
        · exact .inl ⟨rfl, hx, hy, rfl⟩
        · exact absurd hnumbers hnone

/-- Arithmetic on doubles, where it is neither the sum of two texts nor that of two integers. -/
theorem applyPresent_eq_error_iff : op.applyPresent x y = .error error ↔ op.Refuses x y error := by
  unfold applyPresent
  split
  · refine ⟨fun h => (nomatch h), ?_⟩
    rintro (_ | _ | _ | _ | ⟨-, htexts⟩)
    exact absurd ⟨rfl, .text _, .text _⟩ htexts
  · exact applyIntegers_eq_error_iff
  · next hintegers htexts =>
      rw [applyFloats_eq_error_iff]
      constructor
      · rintro (⟨rfl, hx, hy, rfl⟩ | ⟨hnumbers, rfl⟩)
        · exact .divisionByZero hx hy
        · refine .operands hnumbers ?_
          rintro ⟨rfl, ⟨a⟩, ⟨b⟩⟩
          exact htexts a b rfl rfl rfl
      · rintro (⟨hx, hy⟩ | _ | _ | _ | ⟨hnumbers, -⟩)
        · exact .inl ⟨rfl, hx, hy, rfl⟩
        · exact absurd rfl (hintegers _ _ rfl)
        · exact absurd rfl (hintegers _ _ rfl)
        · exact absurd rfl (hintegers _ _ rfl)
        · exact .inr ⟨hnumbers, rfl⟩

/-- **Arithmetic fails on what it refuses, and on nothing that holds a null.** -/
theorem apply_eq_error_iff : op.apply x y = .error error ↔
    x.isNull = false ∧ y.isNull = false ∧ op.Refuses x y error := by
  unfold apply
  split
  · next hnull =>
      constructor
      · intro h
        cases h
      · rintro ⟨hx, hy, -⟩
        rw [hx, hy] at hnull
        cases hnull
  · next hnull =>
      rw [Bool.or_eq_true, not_or, Bool.not_eq_true, Bool.not_eq_true] at hnull
      rw [applyPresent_eq_error_iff]
      exact ⟨fun h => ⟨hnull.1, hnull.2, h⟩, fun h => h.2.2⟩

end Arithmetic

/-! ## The nodes of an expression -/

namespace Expression

/-- The nodes of an expression in the order in which they get their values: the operands of a node
stand before it, the left one before the right one. -/
def nodes : Expression → List Expression
  | literal value => [literal value]
  | column name => [column name]
  | compare op lhs rhs => lhs.nodes ++ rhs.nodes ++ [compare op lhs rhs]
  | connect op lhs rhs => lhs.nodes ++ rhs.nodes ++ [connect op lhs rhs]
  | test op operand => operand.nodes ++ [test op operand]
  | calculate op lhs rhs => lhs.nodes ++ rhs.nodes ++ [calculate op lhs rhs]

/-- Whether an arithmetic node fails by itself: both operands have values that are not null, and
arithmetic refuses these. -/
inductive FailsAlone (b : Bindings) : Expression → EvalError → Prop
  | calculate {op : Arithmetic} {lhs rhs : Expression} {x y : Datum} {error : EvalError}
    (hlhs : lhs.eval b = .ok x) (hrhs : rhs.eval b = .ok y) (hx : x.isNull = false)
    (hy : y.isNull = false) (h : op.Refuses x y error) :
    FailsAlone b (calculate op lhs rhs) error

variable {b : Bindings} {e lhs rhs : Expression} {error : EvalError}

/-- If the errors are those of the first node that fails, there is a value when no node does. -/
theorem exists_eval_eq_ok_iff
    (h : ∀ error, e.eval b = .error error ↔ First (FailsAlone b) e.nodes error) :
    (∃ value, e.eval b = .ok value) ↔ ∀ node ∈ e.nodes, ∀ error, ¬FailsAlone b node error := by
  rw [forall_not_iff_not_first, exists_eq_ok_iff]
  simp only [← h, ne_eq]

/-- A node with two operands, both of which get a value before the node does something with them. -/
theorem eval_eq_error_iff_of_operands {node : Expression}
    {f : Datum → Datum → Except EvalError Datum}
    (hlhs : ∀ error, lhs.eval b = .error error ↔ First (FailsAlone b) lhs.nodes error)
    (hrhs : ∀ error, rhs.eval b = .error error ↔ First (FailsAlone b) rhs.nodes error)
    (hnode : node.eval b = lhs.eval b >>= fun x => rhs.eval b >>= f x)
    (hfails : ∀ error, FailsAlone b node error ↔
      ∃ x y, lhs.eval b = .ok x ∧ rhs.eval b = .ok y ∧ f x y = .error error) :
    node.eval b = .error error ↔ First (FailsAlone b) (lhs.nodes ++ rhs.nodes ++ [node]) error := by
  rw [hnode, bind_eq_error_iff, List.append_assoc, first_append_iff, first_append_iff,
    first_singleton_iff, ← exists_eval_eq_ok_iff hlhs, ← exists_eval_eq_ok_iff hrhs, ← hlhs, ← hrhs,
    hfails]
  -- what is left is about the two values only
  cases lhs.eval b with
  | error error' => simp
  | ok x => cases rhs.eval b <;> simp [bind_eq_error_iff]

/-- **The error of an expression is that of the first node that fails by itself.** -/
theorem eval_eq_error_iff (e : Expression) (b : Bindings) (error : EvalError) :
    e.eval b = .error error ↔ First (FailsAlone b) e.nodes error := by
  induction e generalizing error with
  | literal value =>
      rw [nodes, first_singleton_iff]
      exact ⟨fun h => (nomatch h), fun h => nomatch h⟩
  | column name =>
      rw [nodes, first_singleton_iff]
      refine ⟨fun h => ?_, fun h => (nomatch h)⟩
      unfold eval at h
      split at h <;> cases h
  | compare op lhs rhs ihl ihr =>
      refine eval_eq_error_iff_of_operands ihl ihr rfl fun error => ?_
      exact ⟨fun h => (nomatch h), fun ⟨_, _, _, _, h⟩ => nomatch h⟩
  | connect op lhs rhs ihl ihr =>
      refine eval_eq_error_iff_of_operands ihl ihr rfl fun error => ?_
      exact ⟨fun h => (nomatch h), fun ⟨_, _, _, _, h⟩ => nomatch h⟩
  | test op operand ih =>
      have halone : ¬FailsAlone b (test op operand) error := fun h => nomatch h
      rw [nodes, first_append_iff, first_singleton_iff, ← ih]
      simp only [halone, and_false, or_false]
      refine bind_eq_error_iff.trans ⟨?_, .inl⟩
      rintro (h | ⟨_, _, h⟩)
      · exact h
      · cases h
  | calculate op lhs rhs ihl ihr =>
      refine eval_eq_error_iff_of_operands ihl ihr rfl fun error => ⟨?_, ?_⟩
      · rintro ⟨hlhs, hrhs, hx, hy, h⟩
        exact ⟨_, _, hlhs, hrhs, Arithmetic.apply_eq_error_iff.2 ⟨hx, hy, h⟩⟩
      · rintro ⟨x, y, hlhs, hrhs, h⟩
        obtain ⟨hx, hy, h⟩ := Arithmetic.apply_eq_error_iff.1 h
        exact .calculate hlhs hrhs hx hy h

theorem nodes_subset_of_operands {node self : Expression}
    (hself : self.nodes = lhs.nodes ++ rhs.nodes ++ [self])
    (hlhs : node ∈ lhs.nodes → node.nodes ⊆ lhs.nodes)
    (hrhs : node ∈ rhs.nodes → node.nodes ⊆ rhs.nodes) (h : node ∈ self.nodes) :
    node.nodes ⊆ self.nodes := by
  rw [hself, List.mem_append, List.mem_append, List.mem_singleton] at h
  rcases h with (h | h) | rfl
  · rw [hself, List.append_assoc]
    exact List.subset_append_of_subset_left _ (hlhs h)
  · rw [hself, List.append_assoc]
    exact List.subset_append_of_subset_right _ (List.subset_append_of_subset_left _ (hrhs h))
  · exact fun _ => id

/-- The nodes of a part of an expression are nodes of the expression. -/
theorem nodes_subset {node : Expression} (h : node ∈ e.nodes) : node.nodes ⊆ e.nodes := by
  induction e with
  | literal value =>
      rw [List.mem_singleton.1 h]
      exact fun _ => id
  | column name =>
      rw [List.mem_singleton.1 h]
      exact fun _ => id
  | compare op lhs rhs ihl ihr => exact nodes_subset_of_operands rfl ihl ihr h
  | connect op lhs rhs ihl ihr => exact nodes_subset_of_operands rfl ihl ihr h
  | test op operand ih =>
      rcases List.mem_append.1 h with h | h
      · exact List.subset_append_of_subset_left _ (ih h)
      · rw [List.mem_singleton.1 h]
        exact fun _ => id
  | calculate op lhs rhs ihl ihr => exact nodes_subset_of_operands rfl ihl ihr h

/-- **No operator hides an error of an operand.** An expression fails exactly when an arithmetic
node fails by itself, and with the error of the first such node. So it fails whenever a part of it
does, wherever that part stands. -/
theorem fails_iff_node_failsAlone (e : Expression) (b : Bindings) :
    ((∃ error, e.eval b = .error error) ↔ ∃ node ∈ e.nodes, ∃ error, FailsAlone b node error) ∧
    (∀ error, e.eval b = .error error ↔ First (FailsAlone b) e.nodes error) ∧
    ∀ part ∈ e.nodes, (∃ error, part.eval b = .error error) → ∃ error, e.eval b = .error error := by
  have hiff (e : Expression) : (∃ error, e.eval b = .error error) ↔
      ∃ node ∈ e.nodes, ∃ error, FailsAlone b node error := by
    simp only [eval_eq_error_iff, exists_first_iff]
  refine ⟨hiff e, fun error => e.eval_eq_error_iff b error, fun part hpart h => ?_⟩
  obtain ⟨node, hnode, hfails⟩ := (hiff part).1 h
  exact (hiff e).2 ⟨node, nodes_subset hpart hnode, hfails⟩

/-- A division by zero shows although its result is added to a null, and although the left side of
the conjunction is false already. -/
theorem fails_hiddenDivision :
    let division : Expression := .calculate .div (.literal (.integer 1)) (.literal (.integer 0))
    let e : Expression :=
      .connect .and (.literal (.boolean false))
        (.test .missing (.calculate .add (.literal .null) division))
    division ∈ e.nodes ∧ ∃ error, e.eval ⟨.empty, []⟩ = .error error := by
  intro division e
  have hpart : division ∈ e.nodes := by simp [e, division, nodes]
  have hdivision : division.eval ⟨.empty, []⟩ = .error .divisionByZero :=
    Arithmetic.apply_eq_error_iff.2 ⟨rfl, rfl, .divisionByZero (.integer 1) .integer⟩
  exact ⟨hpart, (fails_iff_node_failsAlone e _).2.2 division hpart ⟨_, hdivision⟩⟩

end Expression

end FlatTables
