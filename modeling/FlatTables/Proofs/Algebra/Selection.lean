import FlatTables.Proofs.Algebra.Join
import FlatTables.Proofs.Algebra.SetAlgebra

set_option autoImplicit false

/-! # Selections

A selection exists exactly when its condition has a value for every row, and it keeps the rows for
which that value counts as true (`select_eq_ok_iff`). So the laws of selections are laws of filters,
once it is known for which rows the conditions have values.

Two selections in a row are one selection by a conjunction, in either order, and a selection by a
disjunction keeps what either of the two keeps (`select_connect`). Equal rows answer every condition
alike, so a selection may come before or after a union (`select_union`). -/

namespace FlatTables.Table

variable {t other : Table} {c c' : Expression} {schema : Schema} {row row' : Row}

/-- What a selection is, when it exists. -/
theorem select_eq_ok_iff {selected : Table} : t.select c = .ok selected ↔
    c.DefinedOn t ∧
      selected = t.derive ("(" ++ t.name ++ "σ)") t.schema
        (t.rows.filter (satisfies t.schema c)) := by
  constructor
  · intro h
    obtain ⟨rows, hrows, h⟩ := bind_eq_ok_iff.1 h
    cases h
    have hrows := mapError_eq_ok_iff.1 hrows
    exact ⟨exists_selectRows_iff.1 ⟨rows, hrows⟩, by rw [selectRows_eq_filter hrows]⟩
  · rintro ⟨hdefined, rfl⟩
    obtain ⟨rows, hrows⟩ := exists_selectRows_iff.2 hdefined
    rw [← selectRows_eq_filter hrows]
    exact bind_eq_ok_iff.2 ⟨rows, mapError_eq_ok_iff.2 hrows, rfl⟩

theorem exists_select_iff : (∃ selected, t.select c = .ok selected) ↔ c.DefinedOn t := by
  simp only [select_eq_ok_iff, exists_and_left, exists_eq, and_true]

/-! ## Selections one after the other -/

/-- A connective has a value when both of its operands have, whatever these are. -/
theorem exists_eval_connect_iff {op : Connective} {b : Bindings} :
    (∃ value, (Expression.connect op c c').eval b = .ok value) ↔
      (∃ value, c.eval b = .ok value) ∧ ∃ value, c'.eval b = .ok value := by
  constructor
  · rintro ⟨value, h⟩
    obtain ⟨x, hx, h⟩ := bind_eq_ok_iff.1 h
    obtain ⟨y, hy, -⟩ := bind_eq_ok_iff.1 h
    exact ⟨⟨x, hx⟩, y, hy⟩
  · rintro ⟨⟨x, hx⟩, y, hy⟩
    exact ⟨_, bind_eq_ok_iff.2 ⟨x, hx, bind_eq_ok_iff.2 ⟨y, hy, rfl⟩⟩⟩

theorem definedOn_connect_iff {op : Connective} :
    (Expression.connect op c c').DefinedOn t ↔ c.DefinedOn t ∧ c'.DefinedOn t := by
  simp only [Expression.DefinedOn, exists_eval_connect_iff, imp_and, forall_and]

/-- A connective of conditions with values asks the same of a row as the conditions do. -/
theorem satisfies_connect {op : Connective} {x y : Datum} (hx : c.eval ⟨schema, row⟩ = .ok x)
    (hy : c'.eval ⟨schema, row⟩ = .ok y) :
    satisfies schema (.connect op c c') row = op.holds x y := by
  have hvalue : (Expression.connect op c c').eval ⟨schema, row⟩ = .ok (.boolean (op.holds x y)) :=
    bind_eq_ok_iff.2 ⟨x, hx, bind_eq_ok_iff.2 ⟨y, hy, rfl⟩⟩
  rw [satisfies, hvalue]
  rfl

theorem satisfies_of_eval {x : Datum} (hx : c.eval ⟨schema, row⟩ = .ok x) :
    satisfies schema c row = x.isTruthy := by
  rw [satisfies, hx]

theorem filter_and (hc : c.DefinedOn t) (hc' : c'.DefinedOn t) :
    t.rows.filter (satisfies t.schema (.connect .and c c')) =
      (t.rows.filter (satisfies t.schema c)).filter (satisfies t.schema c') := by
  rw [List.filter_filter]
  refine List.filter_congr fun row hrow => ?_
  obtain ⟨x, hx⟩ := hc row hrow
  obtain ⟨y, hy⟩ := hc' row hrow
  rw [satisfies_connect hx hy, satisfies_of_eval hx, satisfies_of_eval hy, Bool.and_comm]
  rfl

/-- What a selection by a disjunction keeps, said by what the two selections keep. -/
theorem filter_or (hc : c.DefinedOn t) (hc' : c'.DefinedOn t) :
    t.rows.filter (satisfies t.schema (.connect .or c c')) =
      t.rows.filter fun row => row ∈ t.rows.filter (satisfies t.schema c) ∨
        row ∈ t.rows.filter (satisfies t.schema c') := by
  refine List.filter_congr fun row hrow => ?_
  obtain ⟨x, hx⟩ := hc row hrow
  obtain ⟨y, hy⟩ := hc' row hrow
  simp only [satisfies_connect hx hy, List.mem_filter, hrow, satisfies_of_eval hx,
    satisfies_of_eval hy, true_and, Bool.decide_or, Bool.decide_eq_true]
  rfl

/-- Two selections in a row succeed when both conditions have values for all rows of the table. -/
theorem exists_select_select (hc : c.DefinedOn t) (hc' : c'.DefinedOn t) :
    ∃ first second, t.select c = .ok first ∧ first.select c' = .ok second ∧
      second.schema = t.schema ∧
      second.rows = (t.rows.filter (satisfies t.schema c)).filter (satisfies t.schema c') := by
  have hrest : c'.DefinedOn (t.derive ("(" ++ t.name ++ "σ)") t.schema
      (t.rows.filter (satisfies t.schema c))) :=
    fun row hrow => hc' row (List.mem_of_mem_filter hrow)
  exact ⟨_, _, select_eq_ok_iff.2 ⟨hc, rfl⟩, select_eq_ok_iff.2 ⟨hrest, rfl⟩, rfl, rfl⟩

/-- **Selections in a row are one conjunction.** If the selection by a conjunction exists, so do
both ways of selecting by one condition and then by the other, with the same columns and the same
rows in the same order. The selection by the disjunction exists too, and keeps the rows that either
selection keeps, in the order and as often as the table has them. -/
theorem select_connect {both : Table} (h : t.select (.connect .and c c') = .ok both) :
    (∃ first second, t.select c = .ok first ∧ first.select c' = .ok second ∧
      second.schema = both.schema ∧ second.rows = both.rows) ∧
    (∃ first second, t.select c' = .ok first ∧ first.select c = .ok second ∧
      second.schema = both.schema ∧ second.rows = both.rows) ∧
    ∃ either left right, t.select (.connect .or c c') = .ok either ∧ t.select c = .ok left ∧
      t.select c' = .ok right ∧ either.schema = both.schema ∧
      either.rows = t.rows.filter fun row => row ∈ left.rows ∨ row ∈ right.rows := by
  obtain ⟨hdefined, rfl⟩ := select_eq_ok_iff.1 h
  obtain ⟨hc, hc'⟩ := definedOn_connect_iff.1 hdefined
  obtain ⟨first, second, hfirst, hsecond, hschema, hrows⟩ := exists_select_select hc hc'
  obtain ⟨first', second', hfirst', hsecond', hschema', hrows'⟩ := exists_select_select hc' hc
  refine ⟨⟨first, second, hfirst, hsecond, hschema, hrows.trans (filter_and hc hc').symm⟩,
    ⟨first', second', hfirst', hsecond', hschema', hrows'.trans ?_⟩,
    _, _, _, select_eq_ok_iff.2 ⟨definedOn_connect_iff.2 ⟨hc, hc'⟩, rfl⟩,
    select_eq_ok_iff.2 ⟨hc, rfl⟩, select_eq_ok_iff.2 ⟨hc', rfl⟩, rfl, filter_or hc hc'⟩
  refine Eq.trans ?_ (filter_and hc hc').symm
  rw [List.filter_filter, List.filter_filter]
  simp only [Bool.and_comm]

/-- The second offer is the one that both conditions hold of. -/
theorem select_offers :
    (∃ both, offers.select (.connect .and (.column "for")
        (.compare .equal (.column "price") (.literal (.text "high")))) = .ok both ∧
      both.rows = [[.integer 1, .text "high"]]) ∧
    ∃ first second, offers.select (.column "for") = .ok first ∧
      first.select (.compare .equal (.column "price") (.literal (.text "high"))) = .ok second ∧
      second.rows = [[.integer 1, .text "high"]] := by
  obtain ⟨both, hboth, hrows⟩ : ∃ both, offers.select (.connect .and (.column "for")
      (.compare .equal (.column "price") (.literal (.text "high")))) = .ok both ∧
      both.rows = [[.integer 1, .text "high"]] := ⟨_, rfl, by decide +kernel⟩
  obtain ⟨⟨first, second, hfirst, hsecond, -, hsame⟩, -, -⟩ := select_connect hboth
  exact ⟨⟨both, hboth, hrows⟩, first, second, hfirst, hsecond, hsame.trans hrows⟩

/-! ## Selections of unions -/

/-- Equal rows both have a value, or both have none. -/
theorem exists_eval_congr (h : Row.same row row' = true) (schema : Schema) (e : Expression) :
    (∃ value, e.eval ⟨schema, row⟩ = .ok value) ↔ ∃ value, e.eval ⟨schema, row'⟩ = .ok value := by
  have heval := e.eval_congr (Row.same_iff.1 h) schema
  constructor
  · rintro ⟨value, hvalue⟩
    rw [hvalue] at heval
    obtain ⟨value', hvalue', -⟩ := map_eq_ok_iff.1 heval.symm
    exact ⟨value', hvalue'⟩
  · rintro ⟨value', hvalue'⟩
    rw [hvalue'] at heval
    obtain ⟨value, hvalue, -⟩ := map_eq_ok_iff.1 heval
    exact ⟨value, hvalue⟩

/-- What holds of equal rows alike holds of all rows if it holds of the first of each kind. -/
theorem forall_mem_eraseDupsBy_iff {p : Row → Prop}
    (hp : ∀ a b, Row.same a b = true → (p a ↔ p b)) (rows : List Row) :
    (∀ row ∈ rows.eraseDupsBy Row.same, p row) ↔ ∀ row ∈ rows, p row := by
  classical
  have hany := any_eraseDupsBy (p := fun row => decide ¬p row)
    (fun a b h => decide_eq_decide.2 (not_congr (hp a b h))) rows
  rw [Bool.eq_iff_iff, List.any_eq_true, List.any_eq_true] at hany
  simp only [decide_eq_true_eq] at hany
  simpa only [not_exists, not_and, not_not] using not_congr hany

theorem definedOn_union_iff (hschema : t.schema = other.schema) :
    c.DefinedOn (t.union other) ↔ c.DefinedOn t ∧ c.DefinedOn other := by
  have hunion : (t.union other).schema = t.schema := rfl
  unfold Expression.DefinedOn
  rw [rows_union, hunion,
    forall_mem_eraseDupsBy_iff fun a b h => exists_eval_congr h t.schema c,
    List.forall_mem_append, ← hschema]

/-- The rows that a selection keeps of a union are those of the union of two selections. -/
theorem filter_union (hschema : t.schema = other.schema) :
    (t.union other).rows.filter (satisfies t.schema c) =
      (t.rows.filter (satisfies t.schema c) ++
        other.rows.filter (satisfies other.schema c)).eraseDupsBy Row.same := by
  rw [rows_union, filter_eraseDupsBy fun a b h => satisfies_congr h t.schema c,
    List.filter_append, ← hschema]

/-- **Equality of rows is a congruence for conditions.** Equal rows, which may differ in the signs
of their zeros, both give a condition a value or both do not, and the values count as true alike. So
a selection of a union of two tables with the same columns exists exactly when both selections do,
and has the rows of their union in the same order. -/
theorem select_union (c : Expression) :
    (∀ (schema : Schema) (row row' : Row), Row.same row row' = true →
      ((∃ value, c.eval ⟨schema, row⟩ = .ok value) ↔ ∃ value, c.eval ⟨schema, row'⟩ = .ok value) ∧
      ∀ value value', c.eval ⟨schema, row⟩ = .ok value → c.eval ⟨schema, row'⟩ = .ok value' →
        value.isTruthy = value'.isTruthy) ∧
    ∀ t other : Table, t.schema = other.schema →
      ((∃ both, (t.union other).select c = .ok both) ↔
        (∃ selected, t.select c = .ok selected) ∧ ∃ selected, other.select c = .ok selected) ∧
      ∀ both left right, (t.union other).select c = .ok both → t.select c = .ok left →
        other.select c = .ok right →
          both.schema = (left.union right).schema ∧ both.rows = (left.union right).rows := by
  refine ⟨fun schema row row' hsame => ⟨exists_eval_congr hsame schema c, ?_⟩,
    fun t other hschema => ⟨?_, ?_⟩⟩
  · intro value value' hvalue hvalue'
    rw [← satisfies_of_eval hvalue, ← satisfies_of_eval hvalue', satisfies_congr hsame]
  · rw [exists_select_iff, exists_select_iff, exists_select_iff, definedOn_union_iff hschema]
  · intro both left right hboth hleft hright
    obtain ⟨-, rfl⟩ := select_eq_ok_iff.1 hboth
    obtain ⟨-, hleft⟩ := select_eq_ok_iff.1 hleft
    obtain ⟨-, hright⟩ := select_eq_ok_iff.1 hright
    refine ⟨?_, (filter_union hschema).trans ?_⟩
    · rw [hleft]
      rfl
    · rw [rows_union, hleft, hright]
      rfl

/-- Tables of one double each, a zero of either sign. -/
def zeros (negative : Bool) : Table where
  id := ⟨"temp", "zeros"⟩
  schema := ⟨[⟨"x", .float⟩], by decide⟩
  rows := [[.float (Binary64.zero negative)]]
  store := none

/-- A zero counts as false with either sign, and a union keeps one of the two zeros. -/
theorem select_union_zeros :
    Row.same [.float (Binary64.zero false)] [.float (Binary64.zero true)] = true ∧
    (zeros false).schema = (zeros true).schema ∧
    ∃ both, ((zeros false).union (zeros true)).select
        (.compare .equal (.column "x") (.literal (.integer 0))) = .ok both ∧
      both.rows = [[.float (Binary64.zero false)]] := by
  obtain ⟨-, hunion⟩ := select_union (.compare .equal (.column "x") (.literal (.integer 0)))
  obtain ⟨hexists, hrows⟩ := hunion (zeros false) (zeros true) rfl
  obtain ⟨both, hboth⟩ := hexists.2 ⟨⟨_, rfl⟩, _, rfl⟩
  refine ⟨by decide +kernel, rfl, both, hboth, ?_⟩
  rw [(hrows both _ _ hboth rfl rfl).2, rows_union]
  decide +kernel

end FlatTables.Table
