import FlatTables.Proofs.Expression.Failure
import FlatTables.Proofs.Expression.Names

set_option autoImplicit false

/-! # Integer arithmetic, exact or refused

An expression of sums, differences and products of integers has a value over the integers without
bounds (`Expression.exactValue?`), unless a null is among them. Evaluation gives exactly that value,
or the overflow of the first node whose value is no word, also when the value of the whole would be
one again (`Expression.IsIntegral.exact_or_refused`). -/

namespace FlatTables

/-- Whether the row has a column of this name, and an integer or null in it. -/
def Bindings.HoldsInteger (b : Bindings) (name : String) : Prop :=
  b.get? name = some .null ∨ ∃ i, b.get? name = some (.integer i)

theorem Arithmetic.apply_integers (op : Arithmetic) (i j : Int64) :
    op.apply (.integer i) (.integer j) = op.applyIntegers i j := by
  simp [apply, applyPresent, Datum.isNull]

namespace Expression

/-- Whether an expression is built of integers, nulls and columns by sums, differences and
products. -/
inductive IsIntegral : Expression → Prop
  | integer (i : Int64) : IsIntegral (literal (.integer i))
  | null : IsIntegral (literal .null)
  | column (name : String) : IsIntegral (column name)
  | calculate {op : Arithmetic} {lhs rhs : Expression} (hop : op ≠ .div) (hlhs : IsIntegral lhs)
    (hrhs : IsIntegral rhs) : IsIntegral (calculate op lhs rhs)

/-- The value of an expression over the integers, which have no bounds. There is none if a null is
among its operands. -/
def exactValue? (b : Bindings) : Expression → Option Int
  | literal (.integer i) => some i.toInt
  | column name =>
    match b.get? name with
    | some (.integer i) => some i.toInt
    | _ => none
  | calculate op lhs rhs => do
    let x ← lhs.exactValue? b
    let y ← rhs.exactValue? b
    match op with
    | .add => some (x + y)
    | .sub => some (x - y)
    | .mul => some (x * y)
    | .div => none
  | _ => none

/-- Whether an expression is a null of its own, or a column with a null in it. -/
inductive IsNullLeaf (b : Bindings) : Expression → Prop
  | literal : IsNullLeaf b (literal .null)
  | column {name : String} (h : b.get? name = some .null) : IsNullLeaf b (column name)

/-- The overflow of a node: none of its operands is null, and what it makes of their values over the
integers is no word. A node above one that overflows need not overflow itself. -/
inductive Overflows (b : Bindings) : Expression → EvalError → Prop
  | calculate {op : Arithmetic} {lhs rhs : Expression} {i : Int}
    (h : (calculate op lhs rhs).exactValue? b = some i) (hout : ¬Integer.FitsWord i) :
    Overflows b (calculate op lhs rhs) (.overflow op)

/-- Whether no node of an expression overflows. -/
def Fits (b : Bindings) (e : Expression) : Prop :=
  ∀ node ∈ e.nodes, ∀ error, ¬Overflows b node error

/-- What an expression of integers can come to: the word of its exact value, null, or the overflow
of its first node that has one. -/
inductive ComesTo (b : Bindings) (e : Expression) : Except EvalError Datum → Prop
  | integer {i : Int64} (hfits : e.Fits b) (h : e.exactValue? b = some i.toInt) :
    ComesTo b e (.ok (.integer i))
  | null (hfits : e.Fits b) (h : e.exactValue? b = none) : ComesTo b e (.ok .null)
  | overflow {error : EvalError} (h : First (Overflows b) e.nodes error) :
    ComesTo b e (.error error)

variable {b : Bindings} {e lhs rhs : Expression} {op : Arithmetic}

/-! ## One node -/

theorem Overflows.unique {error error' : EvalError} (h : Overflows b e error)
    (h' : Overflows b e error') : error = error' := by
  cases h
  cases h'
  rfl

theorem Overflows.exists_exactValue? {error : EvalError} (h : Overflows b e error) :
    ∃ i, e.exactValue? b = some i ∧ ¬Integer.FitsWord i := by
  cases h with
  | calculate h hout => exact ⟨_, h, hout⟩

theorem exactValue?_calculate (hop : op ≠ .div) : (calculate op lhs rhs).exactValue? b =
    (lhs.exactValue? b).bind fun x => (rhs.exactValue? b).bind fun y => op.exactResult x y := by
  cases op with
  | div => exact absurd rfl hop
  | _ => rfl

theorem exactValue?_calculate_eq_none_iff (hop : op ≠ .div) :
    (calculate op lhs rhs).exactValue? b = none ↔
      lhs.exactValue? b = none ∨ rhs.exactValue? b = none := by
  rw [exactValue?_calculate hop]
  cases lhs.exactValue? b with
  | none => simp
  | some x =>
      cases rhs.exactValue? b with
      | none => simp
      | some y => cases op <;> simp_all [Arithmetic.exactResult]

theorem fits_calculate_iff : (calculate op lhs rhs).Fits b ↔
    lhs.Fits b ∧ rhs.Fits b ∧ ∀ error, ¬Overflows b (calculate op lhs rhs) error := by
  simp only [Fits, nodes, List.forall_mem_append, List.forall_mem_singleton, and_assoc]

theorem first_overflows_calculate_iff {error : EvalError} :
    First (Overflows b) (calculate op lhs rhs).nodes error ↔
      First (Overflows b) lhs.nodes error ∨ lhs.Fits b ∧ (First (Overflows b) rhs.nodes error ∨
        rhs.Fits b ∧ Overflows b (calculate op lhs rhs) error) := by
  rw [nodes, List.append_assoc, first_append_iff, first_append_iff, first_singleton_iff]
  rfl

/-- A node whose operands are integers is the word of its exact value, or overflows. -/
theorem comesTo_applyIntegers {i j : Int64} (hop : op ≠ .div) (hlhs : lhs.Fits b)
    (hrhs : rhs.Fits b) (hi : lhs.exactValue? b = some i.toInt)
    (hj : rhs.exactValue? b = some j.toInt) :
    ComesTo b (calculate op lhs rhs) (op.applyIntegers i j) := by
  obtain ⟨z, hz⟩ : ∃ z, op.exactResult i.toInt j.toInt = some z := by
    cases op with
    | div => exact absurd rfl hop
    | _ => exact ⟨_, rfl⟩
  have hvalue : (calculate op lhs rhs).exactValue? b = some z := by
    rw [exactValue?_calculate hop, hi, hj]
    exact hz
  simp only [Arithmetic.applyIntegers, hz]
  cases hword : Integer.ofInt? z with
  | none =>
      refine .overflow (first_overflows_calculate_iff.2 (.inr ⟨hlhs, .inr ⟨hrhs, ?_⟩⟩))
      exact .calculate hvalue (Integer.ofInt?_eq_none_iff.1 hword)
  | some word =>
      have hz : word.toInt = z := Integer.ofInt?_eq_some_iff.1 hword
      refine .integer (fits_calculate_iff.2 ⟨hlhs, hrhs, fun error h => ?_⟩) (hz ▸ hvalue)
      obtain ⟨z', hz', hout⟩ := h.exists_exactValue?
      cases hvalue.symm.trans hz'
      rw [Integer.ofInt?_eq_none_iff.2 hout] at hword
      cases hword

/-- A node with a null among its operands is null. -/
theorem comesTo_null (hop : op ≠ .div) (hlhs : lhs.Fits b) (hrhs : rhs.Fits b)
    (h : lhs.exactValue? b = none ∨ rhs.exactValue? b = none) :
    ComesTo b (calculate op lhs rhs) (.ok .null) := by
  have hvalue := (exactValue?_calculate_eq_none_iff hop).2 h
  refine .null (fits_calculate_iff.2 ⟨hlhs, hrhs, fun error h => ?_⟩) hvalue
  obtain ⟨z, hz, -⟩ := h.exists_exactValue?
  cases hvalue.symm.trans hz

/-- What an operation comes to is known from what its operands come to. -/
theorem ComesTo.calculate (hop : op ≠ .div) (hlhs : ComesTo b lhs (lhs.eval b))
    (hrhs : ComesTo b rhs (rhs.eval b)) :
    ComesTo b (calculate op lhs rhs) ((Expression.calculate op lhs rhs).eval b) := by
  rw [eval]
  generalize lhs.eval b = x at hlhs
  generalize rhs.eval b = y at hrhs
  cases hlhs with
  | overflow h => exact .overflow (first_overflows_calculate_iff.2 (.inl h))
  | null hfits h =>
      cases hrhs with
      | overflow h' => exact .overflow (first_overflows_calculate_iff.2 (.inr ⟨hfits, .inl h'⟩))
      | null hfits' _ => exact comesTo_null hop hfits hfits' (.inl h)
      | integer hfits' _ => exact comesTo_null hop hfits hfits' (.inl h)
  | integer hfits h =>
      cases hrhs with
      | overflow h' => exact .overflow (first_overflows_calculate_iff.2 (.inr ⟨hfits, .inl h'⟩))
      | null hfits' h' => exact comesTo_null hop hfits hfits' (.inr h')
      | integer hfits' h' =>
          rw [ok_bind, ok_bind, Arithmetic.apply_integers]
          exact comesTo_applyIntegers hop hfits hfits' h h'

/-! ## Whole expressions -/

theorem fits_literal (value : Datum) : (literal value).Fits b := by
  rintro node hnode error ⟨⟩
  cases List.mem_singleton.1 hnode

theorem fits_column (name : String) : (column name).Fits b := by
  rintro node hnode error ⟨⟩
  cases List.mem_singleton.1 hnode

theorem IsIntegral.comesTo (he : e.IsIntegral) (hb : ∀ name ∈ e.names, b.HoldsInteger name) :
    ComesTo b e (e.eval b) := by
  induction he with
  | integer i => exact .integer (fits_literal _) rfl
  | null => exact .null (fits_literal _) rfl
  | column name =>
      rw [eval]
      rcases hb name (List.mem_singleton_self name) with hget | ⟨i, hget⟩
      · rw [hget]
        exact .null (fits_column name) (by rw [exactValue?, hget])
      · rw [hget]
        exact .integer (fits_column name) (by rw [exactValue?, hget])
  | calculate hop _ _ ihl ihr =>
      obtain ⟨hlhs, hrhs⟩ := List.forall_mem_append.1 hb
      exact (ihl hlhs).calculate hop (ihr hrhs)

/-- There is no value over the integers exactly when a leaf is null. -/
theorem IsIntegral.exactValue?_eq_none_iff (he : e.IsIntegral)
    (hb : ∀ name ∈ e.names, b.HoldsInteger name) :
    e.exactValue? b = none ↔ ∃ leaf ∈ e.nodes, IsNullLeaf b leaf := by
  induction he with
  | integer i =>
      refine iff_of_false (by simp [exactValue?]) ?_
      rintro ⟨leaf, hleaf, h⟩
      cases List.mem_singleton.1 hleaf
      cases h
  | null => exact iff_of_true rfl ⟨_, List.mem_singleton_self _, .literal⟩
  | column name =>
      rw [nodes]
      simp only [List.mem_singleton, exists_eq_left]
      rcases hb name (List.mem_singleton_self name) with hget | ⟨i, hget⟩
      · exact iff_of_true (by rw [exactValue?, hget]) (.column hget)
      · refine iff_of_false (by simp [exactValue?, hget]) ?_
        rintro (_ | h)
        cases hget.symm.trans h
  | @calculate op lhs rhs hop _ _ ihl ihr =>
      obtain ⟨hlhs, hrhs⟩ := List.forall_mem_append.1 hb
      have hnode : ¬IsNullLeaf b (.calculate op lhs rhs) := by
        rintro ⟨⟩
      rw [exactValue?_calculate_eq_none_iff hop, ihl hlhs, ihr hrhs, nodes]
      simp only [List.mem_append, List.mem_singleton, or_and_right, exists_or, exists_eq_left,
        hnode, or_false]

/-- **Integer arithmetic is exact or refused.** If no node overflows, the value is null when a leaf
is, and otherwise the word of the exact value. If one does, the error is the overflow of the first,
and there is no other value or error. -/
theorem IsIntegral.exact_or_refused (he : e.IsIntegral)
    (hb : ∀ name ∈ e.names, b.HoldsInteger name) :
    (∀ i, e.eval b = .ok (.integer i) ↔ e.Fits b ∧ e.exactValue? b = some i.toInt) ∧
    (e.eval b = .ok .null ↔ e.Fits b ∧ ∃ leaf ∈ e.nodes, IsNullLeaf b leaf) ∧
    (∀ error, e.eval b = .error error ↔ First (Overflows b) e.nodes error) ∧
    ((∃ i, e.eval b = .ok (.integer i)) ∨ e.eval b = .ok .null ∨
      ∃ op, e.eval b = .error (.overflow op)) := by
  rw [← he.exactValue?_eq_none_iff hb]
  have h := he.comesTo hb
  generalize e.eval b = result at h ⊢
  have hnone (hfits : e.Fits b) (error : EvalError) : ¬First (Overflows b) e.nodes error :=
    forall_not_iff_not_first.1 hfits error
  cases h with
  | @integer i hfits h =>
      refine ⟨fun j => ?_, ?_, fun error => ?_, .inl ⟨i, rfl⟩⟩
      · simp [h, hfits, Int64.toInt_inj]
      · simp [h]
      · simp [hnone hfits]
  | null hfits h =>
      refine ⟨fun j => ?_, ?_, fun error => ?_, .inr (.inl rfl)⟩
      · simp [h]
      · simp [h, hfits]
      · simp [hnone hfits]
  | @overflow error h =>
      have hfits : ¬e.Fits b := fun hfits => hnone hfits error h
      have herror : ∃ op, error = .overflow op := by
        obtain ⟨_, _, _, -, hnode, -⟩ := h
        cases hnode
        exact ⟨_, rfl⟩
      refine ⟨fun j => ?_, ?_, fun error' => ⟨?_, fun h' => ?_⟩, .inr (.inr ?_)⟩
      · simp [hfits]
      · simp [hfits]
      · rintro ⟨⟩
        exact h
      · exact congrArg Except.error
          (First.unique (r := Overflows b) (fun _ _ _ => Overflows.unique) h h')
      · obtain ⟨op, rfl⟩ := herror
        exact ⟨op, rfl⟩

/-- A row with the greatest word and a null. -/
def brimful : Bindings where
  schema := ⟨[⟨"x", .integer⟩, ⟨"y", .integer⟩], by decide⟩
  row := [.integer Int64.maxValue, .null]

/-- A sum beyond the words is refused although the difference that holds it would be one again, and
although it stands beside a null. -/
theorem IsIntegral.exact_or_refused_brimful :
    let sum : Expression := .calculate .add (.column "x") (.literal (.integer 1))
    let back : Expression := .calculate .sub sum (.literal (.integer 1))
    let e : Expression := .calculate .mul (.column "y") back
    e.IsIntegral ∧ (∀ name ∈ e.names, brimful.HoldsInteger name) ∧
      back.exactValue? brimful = some Int64.maxValue.toInt ∧
      e.eval brimful = .error (.overflow .add) := by
  intro sum back e
  have he : e.IsIntegral := .calculate (by decide) (.column "y")
    (.calculate (by decide) (.calculate (by decide) (.column "x") (.integer 1)) (.integer 1))
  have hb : ∀ name ∈ e.names, brimful.HoldsInteger name :=
    List.forall_mem_cons.2 ⟨.inl rfl, List.forall_mem_singleton.2 (.inr ⟨_, rfl⟩)⟩
  have hsum : Overflows brimful sum (.overflow .add) := .calculate rfl (by decide)
  refine ⟨he, hb, rfl, ((he.exact_or_refused hb).2.2.1 _).2 ?_⟩
  refine ⟨[.column "y", .column "x", .literal (.integer 1)], sum, _, rfl, hsum, ?_⟩
  rintro leaf hleaf error ⟨⟩
  simp at hleaf

end Expression

end FlatTables
