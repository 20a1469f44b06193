import FlatTables.Expression.Eval
import Mathlib.Data.List.Nodup

set_option autoImplicit false

/-! # Which cells an expression reads

An expression reads a row through the names it mentions, so two rows that have the same cells under
these names give it the same value (`Expression.eval_eq_of_agree`). What a name means in a row is
known by the pairs of names and cells alone (`Bindings.get?_eq_lookup`). So a block of columns may
be left out of a row if none of its names is mentioned (`eval_append_left`, `eval_append_right`),
and two blocks may change places if they share no name (`eval_append_swap`). -/

namespace FlatTables

variable {left right : List String} {schema schema' : Schema} {a b : Row}

/-! ## Cells by their names -/

theorem bind_idxOf?_eq_lookup (names : List String) (row : Row) (name : String) :
    ((names.idxOf? name).bind fun index => row[index]?) = (names.zip row).lookup name := by
  induction names generalizing row with
  | nil => rfl
  | cons first rest ih =>
      rw [List.idxOf?_cons]
      cases row with
      | nil => cases (if (first == name) = true then _ else _ : Option Nat) <;> rfl
      | cons cell cells =>
          rw [List.zip_cons_cons, List.lookup_cons, BEq.comm, ← ih]
          cases name == first with
          | true => rfl
          | false => cases rest.idxOf? name <;> rfl

theorem Bindings.get?_eq_lookup (b : Bindings) (name : String) :
    b.get? name = (b.schema.names.zip b.row).lookup name :=
  bind_idxOf?_eq_lookup _ _ _

theorem lookup_zip_of_not_mem {names : List String} {name : String} (h : name ∉ names)
    (row : Row) : (names.zip row).lookup name = none := by
  refine List.lookup_eq_none_iff.2 fun entry hentry => ?_
  rw [bne_iff_ne]
  rintro rfl
  exact h (List.of_mem_zip hentry).1

/-- A name is looked up in the first of two blocks of columns and then in the second. -/
theorem Bindings.get?_append (hnames : schema.names = left ++ right)
    (hlength : left.length = a.length) (name : String) :
    (Bindings.mk schema (a ++ b)).get? name =
      ((left.zip a).lookup name).or ((right.zip b).lookup name) := by
  rw [get?_eq_lookup]
  change ((schema.names).zip (a ++ b)).lookup name = _
  rw [hnames, List.zip_append hlength, List.lookup_append]

namespace Expression

/-- The names that an expression mentions. -/
def names : Expression → List String
  | literal _ => []
  | column name => [name]
  | compare _ lhs rhs => lhs.names ++ rhs.names
  | connect _ lhs rhs => lhs.names ++ rhs.names
  | test _ operand => operand.names
  | calculate _ lhs rhs => lhs.names ++ rhs.names

/-- **An expression reads nothing but the cells whose names it mentions.** -/
theorem eval_eq_of_agree {b b' : Bindings} (e : Expression)
    (h : ∀ name ∈ e.names, b.get? name = b'.get? name) : e.eval b = e.eval b' := by
  induction e with
  | literal value => rfl
  | column name =>
      unfold eval
      rw [h name (List.mem_singleton_self name)]
  | compare op lhs rhs ihl ihr =>
      unfold eval
      rw [ihl fun name hname => h name (List.mem_append_left _ hname),
        ihr fun name hname => h name (List.mem_append_right _ hname)]
  | connect op lhs rhs ihl ihr =>
      unfold eval
      rw [ihl fun name hname => h name (List.mem_append_left _ hname),
        ihr fun name hname => h name (List.mem_append_right _ hname)]
  | test op operand ih =>
      unfold eval
      rw [ih h]
  | calculate op lhs rhs ihl ihr =>
      unfold eval
      rw [ihl fun name hname => h name (List.mem_append_left _ hname),
        ihr fun name hname => h name (List.mem_append_right _ hname)]

/-! ## Blocks of columns -/

variable (e : Expression)

theorem eval_append_left (hnames : schema.names = left ++ right) (hnames' : schema'.names = right)
    (hlength : left.length = a.length) (h : e.names.Disjoint left) :
    e.eval ⟨schema, a ++ b⟩ = e.eval ⟨schema', b⟩ := by
  refine e.eval_eq_of_agree fun name hname => ?_
  rw [Bindings.get?_append hnames hlength, Bindings.get?_eq_lookup,
    lookup_zip_of_not_mem (h hname), Option.none_or, ← hnames']

theorem eval_append_right (hnames : schema.names = left ++ right) (hnames' : schema'.names = left)
    (hlength : left.length = a.length) (h : e.names.Disjoint right) :
    e.eval ⟨schema, a ++ b⟩ = e.eval ⟨schema', a⟩ := by
  refine e.eval_eq_of_agree fun name hname => ?_
  rw [Bindings.get?_append hnames hlength, Bindings.get?_eq_lookup,
    lookup_zip_of_not_mem (h hname), Option.or_none, ← hnames']

theorem eval_append_swap (hnames : schema.names = left ++ right)
    (hnames' : schema'.names = right ++ left) (ha : left.length = a.length)
    (hb : right.length = b.length) : e.eval ⟨schema, a ++ b⟩ = e.eval ⟨schema', b ++ a⟩ := by
  have hdisjoint : left.Disjoint right := List.disjoint_of_nodup_append (hnames ▸ schema.nodup)
  refine e.eval_eq_of_agree fun name _ => ?_
  rw [Bindings.get?_append hnames ha, Bindings.get?_append hnames' hb]
  by_cases hname : name ∈ left
  · rw [lookup_zip_of_not_mem (hdisjoint hname), Option.none_or, Option.or_none]
  · rw [lookup_zip_of_not_mem hname, Option.none_or, Option.or_none]

end Expression

end FlatTables
