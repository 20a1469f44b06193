import FlatTables.Expression.Document
import FlatTables.Proofs.Expression.Building
import FlatTables.Proofs.Integer
import FlatTables.Proofs.Traversal
import Mathlib.Data.List.Nodup

set_option autoImplicit false

/-! # Which documents are expressions

What the reader of expressions accepts is said as a grammar (`Json.IsExpression`). Arrays are
operands under the name of an operator and literals everywhere else, and strings are columns outside
of literals and texts inside. The reader accepts a value exactly when the grammar does
(`Expression.exists_ofJson_iff_isExpression`).

Every expression has a document (`Expression.toJson`), from which it is read back as the same tree
(`Expression.ofJson_toJson`). -/

namespace FlatTables

/-! ## The grammar -/

namespace Json

/-- Whether a value holds no object, at any depth. -/
inductive Objectless : Json → Prop
  | null : Objectless .null
  | bool (b : Bool) : Objectless (.bool b)
  | number (n : JsonNumber) : Objectless (.number n)
  | string (s : String) : Objectless (.string s)
  | array {items : List Json} (h : ∀ item ∈ items, Objectless item) : Objectless (.array items)

/-- The documents of the operands that stand under the name of an operator. -/
def operands : Json → List Json
  | .array items => items
  | value => [value]

/-- Whether a value is the document of an expression. It is the name of a column, a literal, or an
object with one member. The key of that is `literal` over a literal, or it is the name of an
operator, in letters of any case, over as many operands as the operator takes. -/
inductive IsExpression : Json → Prop
  | column (name : String) : IsExpression (.string name)
  | literal {value : Json} (h : value.Objectless) (hstring : ∀ s, value ≠ .string s) :
    IsExpression value
  | forcedLiteral {value : Json} (h : value.Objectless) :
    IsExpression (.object [("literal", value)])
  | application {key : String} {value : Json} (op : Operator)
    (hname : Text.SameLetters key op.name) (hcount : op.rule.Admits value.operands.length)
    (h : ∀ operand ∈ value.operands, IsExpression operand) : IsExpression (.object [(key, value)])

theorem isExpression_iff_objectless {j : Json} (hstring : ∀ s, j ≠ .string s)
    (hobject : ∀ members, j ≠ .object members) : j.IsExpression ↔ j.Objectless := by
  constructor
  · intro h
    cases h with
    | column name => exact absurd rfl (hstring name)
    | literal h => exact h
    | forcedLiteral => exact absurd rfl (hobject _)
    | application => exact absurd rfl (hobject _)
  · intro h
    exact .literal h hstring

theorem isExpression_member_iff {key : String} {value : Json} :
    (object [(key, value)]).IsExpression ↔
      (key = literalKey ∧ value.Objectless) ∨
        ∃ op : Operator, Text.SameLetters key op.name ∧ op.rule.Admits value.operands.length ∧
          ∀ operand ∈ value.operands, operand.IsExpression := by
  constructor
  · intro h
    cases h with
    | literal h => cases h
    | forcedLiteral h => exact .inl ⟨rfl, h⟩
    | application op hname hcount h => exact .inr ⟨op, hname, hcount, h⟩
  · rintro (⟨rfl, h⟩ | ⟨op, hname, hcount, h⟩)
    · exact .forcedLiteral h
    · exact .application op hname hcount h

theorem not_isExpression_of_length_ne {members : List (String × Json)} (h : members.length ≠ 1) :
    ¬(object members).IsExpression := by
  rintro (_ | h' | _ | _)
  · cases h'
  · exact h rfl
  · exact h rfl

/-- Operands are smaller than the object that holds them, listed or not. -/
theorem sizeOf_lt_of_mem_operands {key : String} {value operand : Json}
    (h : operand ∈ value.operands) : sizeOf operand < sizeOf (object [(key, value)]) := by
  have hle : sizeOf operand ≤ sizeOf value := by
    cases value with
    | array items =>
        have hlt : sizeOf operand < sizeOf items := List.sizeOf_lt_of_mem h
        simp only [array.sizeOf_spec]
        omega
    | _ => exact Nat.le_of_eq (congrArg sizeOf (List.mem_singleton.1 h))
  simp only [object.sizeOf_spec, List.cons.sizeOf_spec, Prod.mk.sizeOf_spec]
  omega

/-- Induction in which the statement may be assumed of the operands under the key of an object. -/
@[elab_as_elim]
theorem operandInduction {motive : Json → Prop}
    (step : ∀ j, (∀ key value, j = .object [(key, value)] →
      ∀ operand ∈ value.operands, motive operand) → motive j) (j : Json) : motive j := by
  induction hsize : sizeOf j using Nat.strongRecOn generalizing j with
  | ind size ih =>
      subst hsize
      refine step j ?_
      rintro key value rfl operand hoperand
      exact ih _ (sizeOf_lt_of_mem_operands hoperand) operand rfl

end Json

theorem not_sameLetters_literalKey (op : Operator) : ¬Text.SameLetters literalKey op.name := by
  rw [Text.SameLetters, ← String.toList_inj, String.toList_map, String.toList_map]
  rcases op with op | op | op | op <;> cases op <;> decide

/-! ## What is read -/

theorem Datum.ofJsonItems_eq_mapM (items : List Json) :
    ofJsonItems items = items.mapM ofJson := by
  induction items with
  | nil => rfl
  | cons item rest ih =>
      rw [List.mapM_cons, ← ih]
      rfl

namespace Expression

theorem ofJsonItems_eq_mapM (items : List Json) : ofJsonItems items = items.mapM ofJson := by
  induction items with
  | nil => rfl
  | cons item rest ih =>
      rw [List.mapM_cons, ← ih]
      rfl

theorem ofJson_literalKey (value : Json) :
    ofJson (.object [(literalKey, value)]) = (Datum.ofJson value).map .literal := by
  cases value <;> simp [ofJson]

/-- A member under another key is an application, whether it has one operand or a list of them. -/
theorem ofJson_member {key : String} (hkey : key ≠ literalKey) (value : Json) :
    ofJson (.object [(key, value)]) = value.operands.mapM ofJson >>= apply key := by
  rw [← ofJsonItems_eq_mapM]
  cases value with
  | array items => simp only [ofJson, hkey, if_false]; rfl
  | _ => simp [ofJson, hkey, Json.operands, ofJsonItems]

end Expression

/-! ## What is accepted -/

/-- A value is read as a datum exactly when it holds no object. -/
theorem Datum.exists_ofJson_iff_objectless : ∀ j : Json, (∃ d, ofJson j = .ok d) ↔ j.Objectless
  | .null => iff_of_true ⟨_, rfl⟩ .null
  | .bool b => iff_of_true ⟨_, rfl⟩ (.bool b)
  | .number (.integer i) => by
    refine iff_of_true ?_ (.number _)
    rw [ofJson]
    cases Integer.ofInt? i <;> exact ⟨_, rfl⟩
  | .number (.float x) => iff_of_true ⟨_, rfl⟩ (.number _)
  | .string s => iff_of_true ⟨_, rfl⟩ (.string s)
  | .array items => by
    have ih : ∀ item ∈ items, (∃ d, ofJson item = .ok d) ↔ item.Objectless :=
      fun item _ => exists_ofJson_iff_objectless item
    rw [ofJson, exists_map_eq_ok_iff, ofJsonItems_eq_mapM, exists_mapM_eq_ok_iff,
      forall₂_congr ih]
    exact ⟨.array, fun h => by cases h; assumption⟩
  | .object members => iff_of_false (fun ⟨_, h⟩ => nomatch h) (fun h => nomatch h)

namespace Expression

/-- An operator is applied when it is known, each of its operands is read and their number is
right. -/
theorem exists_mapM_apply_iff {key : String} {operands : List Json} :
    (∃ e, operands.mapM ofJson >>= apply key = .ok e) ↔
      ∃ op : Operator, Text.SameLetters key op.name ∧ op.rule.Admits operands.length ∧
        ∀ operand ∈ operands, ∃ e, ofJson operand = .ok e := by
  rw [← exists_mapM_eq_ok_iff]
  constructor
  · rintro ⟨e, h⟩
    obtain ⟨es, hes, h⟩ := bind_eq_ok_iff.1 h
    obtain ⟨op, hname, hbuild⟩ := apply_eq_ok_iff.1 h
    refine ⟨op, hname, ?_, es, hes⟩
    rw [(mapM_eq_ok_iff.1 hes).length_eq]
    exact Operator.exists_build?_iff.1 ⟨e, hbuild⟩
  · rintro ⟨op, hname, hcount, es, hes⟩
    rw [(mapM_eq_ok_iff.1 hes).length_eq] at hcount
    obtain ⟨e, hbuild⟩ := Operator.exists_build?_iff.2 hcount
    exact ⟨e, bind_eq_ok_iff.2 ⟨es, hes, apply_eq_ok_iff.2 ⟨op, hname, hbuild⟩⟩⟩

/-- A value that is neither a string nor an object is read as a literal. -/
theorem exists_ofJson_iff_of_plain {j : Json} (h : ofJson j = (Datum.ofJson j).map .literal)
    (hstring : ∀ s, j ≠ .string s) (hobject : ∀ members, j ≠ .object members) :
    (∃ e, ofJson j = .ok e) ↔ j.IsExpression := by
  rw [h, exists_map_eq_ok_iff, Datum.exists_ofJson_iff_objectless,
    Json.isExpression_iff_objectless hstring hobject]

/-- **A document is accepted exactly when it has the form of an expression.** -/
theorem exists_ofJson_iff_isExpression (j : Json) :
    (∃ e, ofJson j = .ok e) ↔ j.IsExpression := by
  induction j using Json.operandInduction with
  | step j ih =>
      match j with
      | .null => exact exists_ofJson_iff_of_plain rfl nofun nofun
      | .bool b => exact exists_ofJson_iff_of_plain rfl nofun nofun
      | .number n => exact exists_ofJson_iff_of_plain rfl nofun nofun
      | .array items => exact exists_ofJson_iff_of_plain rfl nofun nofun
      | .string name => exact iff_of_true ⟨_, rfl⟩ (.column name)
      | .object [(key, value)] =>
          have ih : ∀ operand ∈ value.operands,
              (∃ e, ofJson operand = .ok e) ↔ operand.IsExpression := ih key value rfl
          rw [Json.isExpression_member_iff, ← forall₂_congr ih]
          by_cases hkey : key = literalKey
          · subst hkey
            rw [ofJson_literalKey, exists_map_eq_ok_iff, Datum.exists_ofJson_iff_objectless]
            simp [not_sameLetters_literalKey]
          · rw [ofJson_member hkey, exists_mapM_apply_iff]
            simp [hkey]
      | .object [] =>
          exact iff_of_false (by simp [ofJson]) (Json.not_isExpression_of_length_ne (by simp))
      | .object (first :: second :: rest) =>
          exact iff_of_false (by simp [ofJson]) (Json.not_isExpression_of_length_ne (by simp))

end Expression

/-! ## Writing -/

mutual

/-- The JSON value that a datum is written as. -/
def Datum.toJson : Datum → Json
  | .null => .null
  | .boolean b => .bool b
  | .integer i => .number (.integer i.toInt)
  | .float x => .number (.float x)
  | .text s => .string s
  | .list items => .array (Datum.toJsonItems items)

/-- The JSON values of the items of a list. -/
def Datum.toJsonItems : List Datum → List Json
  | [] => []
  | item :: rest => item.toJson :: Datum.toJsonItems rest

end

/-- The document of an expression. Every literal is forced, so that no text is taken for a column
and no list for operands, and the operands of an operator always stand in an array. -/
def Expression.toJson : Expression → Json
  | literal value => .object [(literalKey, value.toJson)]
  | column name => .string name
  | compare op lhs rhs => .object [(op.name, .array [lhs.toJson, rhs.toJson])]
  | connect op lhs rhs => .object [(op.name, .array [lhs.toJson, rhs.toJson])]
  | test op operand => .object [(op.name, .array [operand.toJson])]
  | calculate op lhs rhs => .object [(op.name, .array [lhs.toJson, rhs.toJson])]

mutual

/-- The doubles in a datum, at any depth. -/
def Datum.floats : Datum → List Binary64
  | .float x => [x]
  | .list items => Datum.floatsOfItems items
  | _ => []

def Datum.floatsOfItems : List Datum → List Binary64
  | [] => []
  | item :: rest => item.floats ++ Datum.floatsOfItems rest

end

/-- The doubles in the literals of an expression. -/
def Expression.floats : Expression → List Binary64
  | literal value => value.floats
  | column _ => []
  | compare _ lhs rhs => lhs.floats ++ rhs.floats
  | connect _ lhs rhs => lhs.floats ++ rhs.floats
  | test _ operand => operand.floats
  | calculate _ lhs rhs => lhs.floats ++ rhs.floats

/-- Whether a number can stand in a document: an integer of 64 bits, with a sign or without one, or
a finite double. -/
def JsonNumber.Writable : JsonNumber → Prop
  | .integer i => -0x8000000000000000 ≤ i ∧ i ≤ 0xffffffffffffffff
  | .float x => x.isFinite = true

/-- Whether a value can stand in a document: its numbers can, and no object repeats a key. -/
inductive Json.Writable : Json → Prop
  | null : Writable .null
  | bool (b : Bool) : Writable (.bool b)
  | number {n : JsonNumber} (h : n.Writable) : Writable (.number n)
  | string (s : String) : Writable (.string s)
  | array {items : List Json} (h : ∀ item ∈ items, Writable item) : Writable (.array items)
  | object {members : List (String × Json)} (hkeys : (members.map (·.1)).Nodup)
    (h : ∀ member ∈ members, Writable member.2) : Writable (.object members)

theorem Json.Writable.member {value : Json} (h : value.Writable) (key : String) :
    (Json.object [(key, value)]).Writable :=
  .object (List.nodup_singleton key) (List.forall_mem_singleton.2 h)

mutual

theorem Datum.writable_toJson : ∀ {d : Datum}, (∀ x ∈ d.floats, x.isFinite = true) →
    d.toJson.Writable
  | .null, _ => .null
  | .boolean b, _ => .bool b
  | .integer i, _ => by
    have hlower := i.le_toInt
    have hupper := i.toInt_lt
    refine .number ?_
    unfold JsonNumber.Writable
    omega
  | .float x, h => .number (h x (List.mem_singleton_self x))
  | .text s, _ => .string s
  | .list items, h => .array (writable_toJsonItems h)

theorem Datum.writable_toJsonItems : ∀ {items : List Datum},
    (∀ x ∈ floatsOfItems items, x.isFinite = true) → ∀ j ∈ toJsonItems items, j.Writable
  | [], _ => fun _ h => absurd h List.not_mem_nil
  | item :: rest, h => by
    obtain ⟨hitem, hrest⟩ := List.forall_mem_append.1 h
    exact List.forall_mem_cons.2 ⟨writable_toJson hitem, writable_toJsonItems hrest⟩

end

mutual

theorem Datum.ofJson_toJson : ∀ d : Datum, ofJson d.toJson = .ok d
  | .null => rfl
  | .boolean _ => rfl
  | .integer i => by rw [toJson, ofJson, Integer.ofInt?_toInt]
  | .float _ => rfl
  | .text _ => rfl
  | .list items => by rw [toJson, ofJson, ofJsonItems_toJsonItems items]; rfl

theorem Datum.ofJsonItems_toJsonItems : ∀ items : List Datum,
    ofJsonItems (toJsonItems items) = .ok items
  | [] => rfl
  | item :: rest => by
    rw [toJsonItems, ofJsonItems, ofJson_toJson item, ofJsonItems_toJsonItems rest]
    rfl

end

namespace Expression

theorem ofJson_application (op : Operator) {operands : List Json} {es : List Expression}
    {e : Expression} (hoperands : List.Forall₂ (fun j e => ofJson j = .ok e) operands es)
    (hbuild : op.build? es = some e) : ofJson (.object [(op.name, .array operands)]) = .ok e := by
  have hkey : op.name ≠ literalKey := fun h => not_sameLetters_literalKey op (h ▸ rfl)
  rw [ofJson_member hkey]
  exact bind_eq_ok_iff.2 ⟨es, mapM_eq_ok_iff.2 hoperands, apply_eq_ok_iff.2 ⟨op, rfl, hbuild⟩⟩

theorem ofJson_toJson (e : Expression) : ofJson e.toJson = .ok e := by
  induction e with
  | literal value =>
      rw [toJson, ofJson_literalKey, Datum.ofJson_toJson]
      rfl
  | column name => rfl
  | compare op lhs rhs ihl ihr =>
      exact ofJson_application (.comparison op) (.cons ihl (.cons ihr .nil)) rfl
  | connect op lhs rhs ihl ihr =>
      exact ofJson_application (.connective op) (.cons ihl (.cons ihr .nil)) rfl
  | test op operand ih => exact ofJson_application (.existence op) (.cons ih .nil) rfl
  | calculate op lhs rhs ihl ihr =>
      exact ofJson_application (.arithmetic op) (.cons ihl (.cons ihr .nil)) rfl

theorem writable_application {operands : List Json} (h : ∀ operand ∈ operands, operand.Writable)
    (name : String) : (Json.object [(name, .array operands)]).Writable :=
  (Json.Writable.array h).member name

theorem writable_toJson {e : Expression} (h : ∀ x ∈ e.floats, x.isFinite = true) :
    e.toJson.Writable := by
  -- a document of two operands can be written when theirs can
  have hpair {lhs rhs : Json} (hlhs : lhs.Writable) (hrhs : rhs.Writable) :
      ∀ operand ∈ [lhs, rhs], operand.Writable :=
    List.forall_mem_cons.2 ⟨hlhs, List.forall_mem_singleton.2 hrhs⟩
  induction e with
  | literal value => exact (Datum.writable_toJson h).member _
  | column name => exact .string name
  | compare op lhs rhs ihl ihr =>
      obtain ⟨hlhs, hrhs⟩ := List.forall_mem_append.1 h
      exact writable_application (hpair (ihl hlhs) (ihr hrhs)) _
  | connect op lhs rhs ihl ihr =>
      obtain ⟨hlhs, hrhs⟩ := List.forall_mem_append.1 h
      exact writable_application (hpair (ihl hlhs) (ihr hrhs)) _
  | test op operand ih => exact writable_application (List.forall_mem_singleton.2 (ih h)) _
  | calculate op lhs rhs ihl ihr =>
      obtain ⟨hlhs, hrhs⟩ := List.forall_mem_append.1 h
      exact writable_application (hpair (ihl hlhs) (ihr hrhs)) _

/-- **Every expression has a document**: what it is written as can stand in a text if its doubles
can, and is read back as the same tree. -/
theorem document_readBack (e : Expression) (h : ∀ x ∈ e.floats, x.isFinite = true) :
    e.toJson.Writable ∧ ofJson e.toJson = .ok e :=
  ⟨writable_toJson h, ofJson_toJson e⟩

/-- A text that is called like a column, a list below a list and a negative zero come back. -/
theorem document_readBack_within :
    let texts : Expression := .compare .equal (.column "t") (.literal (.text "t"))
    let lists : Expression := .compare .within (.literal (.list [.text "t"]))
      (.literal (.list [.list [.text "t"], .integer 0, .float (Binary64.zero true)]))
    let e : Expression := .connect .and (.connect .and texts lists) (.test .missing (.column "t"))
    (∀ x ∈ e.floats, x.isFinite = true) ∧ e.toJson.Writable ∧ ofJson e.toJson = .ok e := by
  intro texts lists e
  have hfinite : ∀ x ∈ e.floats, x.isFinite = true := by decide
  exact ⟨hfinite, document_readBack e hfinite⟩

end Expression

end FlatTables
