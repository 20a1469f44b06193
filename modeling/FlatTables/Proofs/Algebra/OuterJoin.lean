import FlatTables.Proofs.Algebra.Distinct
import FlatTables.Proofs.Algebra.WellFormed
import FlatTables.Proofs.Table.Names
import Mathlib.Data.List.ProdSigma

set_option autoImplicit false

/-! # Outer joins by their rows

The outer joins are put together from a product, a selection, a projection, a difference, a second
product and a union. Here they get a direct description: the rows of the join, and then the rows of
one side that equal no row with a partner, filled up with nulls (`outerJoins_eq`).

The argument follows a row `a ++ b` of the product. The names of a product are those of its left
side and then those of its right side, all of them different, so that a projection to the names of
one side gives back `a` or `b` (`pickCells_append_left`, `pickCells_append_right`). The second
product can only fail over its names, and a name without a point never clashes there. -/

namespace FlatTables.Table

variable {t other joined : Table} {condition : Expression}

/-! ## Names of a product -/

/-- The columns of `t` under the names that they have in a product. -/
def qualifiedColumns (t : Table) : List Column :=
  t.schema.columns.map fun column => { column with name := qualify t.name column.name }

theorem columnNames_qualified (t : Table) : columnNames t.qualifiedColumns = t.qualifiedNames :=
  columnNames_rename ..

theorem columns_of_productSchema {schema : Schema} (h : t.productSchema other = .ok schema) :
    schema.columns = t.qualifiedColumns ++ other.qualifiedColumns := by
  obtain ⟨left, hleft, h⟩ := bind_eq_ok_iff.1 h
  obtain ⟨right, hright, h⟩ := bind_eq_ok_iff.1 h
  rw [Schema.columns_of_ofColumns h, Schema.columns_of_ofColumns hleft,
    Schema.columns_of_ofColumns hright, qualifiedColumns, qualifiedColumns]

theorem exists_columns_of_productSchema {schema : Schema}
    (h : t.productSchema other = .ok schema) :
    ∃ left right, schema.columns = left ++ right ∧ columnNames left = t.qualifiedNames ∧
      columnNames right = other.qualifiedNames :=
  ⟨_, _, columns_of_productSchema h, t.columnNames_qualified, other.columnNames_qualified⟩

theorem exists_productSchema_eq_ok (h : (t.qualifiedNames ++ other.qualifiedNames).Nodup) :
    ∃ schema, t.productSchema other = .ok schema := by
  obtain ⟨hleft, hright, -⟩ := List.nodup_append.1 h
  obtain ⟨left, hleft⟩ := Schema.exists_ofColumns_eq_ok (t.columnNames_qualified ▸ hleft)
  obtain ⟨right, hright⟩ := Schema.exists_ofColumns_eq_ok (other.columnNames_qualified ▸ hright)
  have hnames : columnNames (left.columns ++ right.columns) =
      t.qualifiedNames ++ other.qualifiedNames := by
    rw [Schema.columns_of_ofColumns hleft, Schema.columns_of_ofColumns hright, columnNames,
      List.map_append]
    exact congrArg₂ _ t.columnNames_qualified other.columnNames_qualified
  obtain ⟨schema, hschema⟩ := Schema.exists_ofColumns_eq_ok (hnames ▸ h)
  refine ⟨schema, bind_eq_ok_iff.2 ⟨left, hleft, bind_eq_ok_iff.2 ⟨right, hright, hschema⟩⟩⟩

/-! ## Rows of a product -/

/-- The rows of a product are the pairs of rows, each written as one row. -/
theorem rows_of_product {pairs : Table} (h : t.product other = .ok pairs) :
    pairs.rows = (t.rows ×ˢ other.rows).map fun pair => pair.1 ++ pair.2 := by
  obtain ⟨schema, -, h⟩ := bind_eq_ok_iff.1 h
  cases h
  simp only [derive, SProd.sprod, List.product, List.map_flatMap, List.map_map, Function.comp_def]

/-- Whether a condition has a value for a row under a schema, and that value counts as true. -/
def satisfies (schema : Schema) (condition : Expression) (row : Row) : Bool :=
  match condition.eval ⟨schema, row⟩ with
  | .ok value => value.isTruthy
  | .error _ => false

theorem selectRows_eq_filter {schema : Schema} {rows rows' : List Row}
    (h : selectRows schema condition rows = .ok rows') :
    rows' = rows.filter (satisfies schema condition) := by
  induction rows generalizing rows' with
  | nil =>
      cases h
      rfl
  | cons row rest ih =>
      obtain ⟨value, hvalue, h⟩ := bind_eq_ok_iff.1 h
      obtain ⟨rest', hrest, h⟩ := bind_eq_ok_iff.1 h
      cases h
      have hsat : satisfies schema condition row = value.isTruthy := by
        unfold satisfies
        rw [hvalue]
      rw [ih hrest, List.filter_cons, hsat]

/-- The pairs of a row of `t` and a row of `other` that satisfy a condition, in the order of the
product. -/
def satisfyingPairs (t other : Table) (schema : Schema) (condition : Expression) :
    List (Row × Row) :=
  (t.rows ×ˢ other.rows).filter fun pair => satisfies schema condition (pair.1 ++ pair.2)

theorem rows_of_matchingPairs (h : t.matchingPairs other condition = .ok joined) :
    joined.rows =
      (t.satisfyingPairs other joined.schema condition).map fun pair => pair.1 ++ pair.2 := by
  obtain ⟨pairs, hpairs, h⟩ := bind_eq_ok_iff.1 h
  obtain ⟨rows, hrows, h⟩ := bind_eq_ok_iff.1 h
  cases h
  refine (selectRows_eq_filter (mapError_eq_ok_iff.1 hrows)).trans ?_
  rw [rows_of_product hpairs, List.filter_map]
  rfl

/-! ## Projecting to one side of a product -/

theorem pickCells_append (keep : String → Bool) {left right : List Column} {a b : Row}
    (ha : a.length = left.length) :
    pickCells keep (left ++ right) (a ++ b) =
      (do
        let cells ← pickCells keep left a
        let cells' ← pickCells keep right b
        .ok (cells ++ cells')) := by
  induction left generalizing a with
  | nil =>
      obtain rfl := List.length_eq_zero_iff.1 ha
      cases hright : pickCells keep right b <;> simp [pickCells, hright, bind, Except.bind]
  | cons column left ih =>
      obtain ⟨cell, cells, rfl⟩ := List.exists_cons_of_length_eq_add_one ha
      have hrest := ih (Nat.succ.inj ha)
      rw [List.cons_append, List.cons_append, pickCells, pickCells, hrest]
      split
      · cases pickCells keep left cells with
        | error e => rfl
        | ok picked => cases pickCells keep right b <;> rfl
      · rfl

theorem pickCells_all {keep : String → Bool} {columns : List Column} {row : Row}
    (hlength : row.length = columns.length) (hkeep : ∀ column ∈ columns, keep column.name = true) :
    pickCells keep columns row = .ok row := by
  induction columns generalizing row with
  | nil =>
      obtain rfl := List.length_eq_zero_iff.1 hlength
      rfl
  | cons column columns ih =>
      obtain ⟨cell, cells, rfl⟩ := List.exists_cons_of_length_eq_add_one hlength
      have hrest := ih (Nat.succ.inj hlength) fun c hc => hkeep c (List.mem_cons_of_mem _ hc)
      unfold pickCells
      rw [if_pos (hkeep column List.mem_cons_self), hrest]
      rfl

theorem pickCells_none {keep : String → Bool} {columns : List Column} {row : Row}
    (hlength : row.length = columns.length)
    (hkeep : ∀ column ∈ columns, keep column.name = false) :
    pickCells keep columns row = .ok [] := by
  induction columns generalizing row with
  | nil => rfl
  | cons column columns ih =>
      obtain ⟨cell, cells, rfl⟩ := List.exists_cons_of_length_eq_add_one hlength
      unfold pickCells
      rw [if_neg (by simp [hkeep column List.mem_cons_self])]
      exact ih (Nat.succ.inj hlength) fun c hc => hkeep c (List.mem_cons_of_mem _ hc)

theorem contains_columnNames {columns : List Column} :
    ∀ column ∈ columns, (columnNames columns).contains column.name = true := by
  intro column hcolumn
  exact List.contains_iff_mem.2 (List.mem_map_of_mem hcolumn)

theorem contains_columnNames_eq_false {columns others : List Column}
    (h : List.Disjoint (columnNames columns) (columnNames others)) :
    ∀ column ∈ others, (columnNames columns).contains column.name = false := by
  intro column hcolumn
  rw [Bool.eq_false_iff, ne_eq, List.contains_iff_mem]
  intro hmem
  exact h hmem (List.mem_map_of_mem hcolumn)

theorem disjoint_of_nodup_columnNames {left right : List Column}
    (h : (columnNames (left ++ right)).Nodup) :
    List.Disjoint (columnNames left) (columnNames right) := by
  unfold columnNames at h
  rw [List.map_append] at h
  exact List.disjoint_of_nodup_append h

/-- The columns of the left side give back the left row. -/
theorem pickCells_append_left {left right : List Column} {a b : Row}
    (hnodup : (columnNames (left ++ right)).Nodup) (ha : a.length = left.length)
    (hb : b.length = right.length) :
    pickCells (fun name => (columnNames left).contains name) (left ++ right) (a ++ b) =
      .ok a := by
  have hright := contains_columnNames_eq_false (disjoint_of_nodup_columnNames hnodup)
  rw [pickCells_append _ ha, pickCells_all ha contains_columnNames, pickCells_none hb hright,
    ok_bind, ok_bind, List.append_nil]

/-- The columns of the right side give back the right row. -/
theorem pickCells_append_right {left right : List Column} {a b : Row}
    (hnodup : (columnNames (left ++ right)).Nodup) (ha : a.length = left.length)
    (hb : b.length = right.length) :
    pickCells (fun name => (columnNames right).contains name) (left ++ right) (a ++ b) =
      .ok b := by
  have hdisjoint := List.disjoint_symm (disjoint_of_nodup_columnNames hnodup)
  have hleft := contains_columnNames_eq_false hdisjoint
  rw [pickCells_append _ ha, pickCells_none ha hleft, pickCells_all hb contains_columnNames,
    ok_bind, ok_bind, List.nil_append]

theorem pickRows_map {keep : String → Bool} {columns : List Column} {α : Type} {f g : α → Row}
    {l : List α} (h : ∀ x ∈ l, pickCells keep columns (f x) = .ok (g x)) :
    pickRows keep columns (l.map f) = .ok (l.map g) := by
  induction l with
  | nil => rfl
  | cons x rest ih =>
      have hrest := ih fun y hy => h y (List.mem_cons_of_mem _ hy)
      rw [List.map_cons, pickRows, h x List.mem_cons_self, hrest]
      rfl

theorem rows_of_project {names : List String} {t' : Table} (h : t.project names = .ok t') :
    pickRows (fun name => names.contains name) t.schema.columns t.rows = .ok t'.rows := by
  unfold Table.project at h
  split at h
  · cases h
  · obtain ⟨rows, hrows, h⟩ := bind_eq_ok_iff.1 h
    cases h
    exact hrows

theorem exists_columns_of_matchingPairs (h : t.matchingPairs other condition = .ok joined) :
    ∃ left right, joined.schema.columns = left ++ right ∧ columnNames left = t.qualifiedNames ∧
      columnNames right = other.qualifiedNames := by
  obtain ⟨pairs, hpairs, h⟩ := bind_eq_ok_iff.1 h
  obtain ⟨rows, -, h⟩ := bind_eq_ok_iff.1 h
  obtain ⟨schema, hschema, hpairs⟩ := bind_eq_ok_iff.1 hpairs
  cases h
  cases hpairs
  exact exists_columns_of_productSchema (mapError_eq_ok_iff.1 hschema)

/-- A row of a well-formed table has a cell for each of the names of a product. -/
theorem WellFormed.length_qualifiedNames (ht : t.WellFormed) {row : Row} (hrow : row ∈ t.rows) :
    t.qualifiedNames.length = row.length := by
  rw [qualifiedNames, List.length_map, Schema.length_names, ht.length_row hrow]

theorem WellFormed.length_eq_of_qualifiedNames (ht : t.WellFormed) {columns : List Column}
    (hnames : columnNames columns = t.qualifiedNames) {row : Row} (hrow : row ∈ t.rows) :
    row.length = columns.length := by
  rw [← ht.length_qualifiedNames hrow, ← hnames, columnNames, List.length_map]

theorem mem_of_mem_satisfyingPairs {schema : Schema} {pair : Row × Row}
    (h : pair ∈ t.satisfyingPairs other schema condition) :
    pair.1 ∈ t.rows ∧ pair.2 ∈ other.rows :=
  List.mem_product.1 (List.mem_of_mem_filter h)

/-- A projection of the matching pairs has the rows of one side, if it picks that side out of every
row of the product. -/
theorem rows_of_project_side (ht : t.WellFormed) (hother : other.WellFormed) {matched : Table}
    {names : List String} {side : Row × Row → Row}
    (h : t.matchingPairs other condition = .ok joined)
    (hmatched : joined.project names = .ok matched)
    (hside : ∀ {left right : List Column} {a b : Row}, columnNames left = t.qualifiedNames →
      columnNames right = other.qualifiedNames → (columnNames (left ++ right)).Nodup →
      a.length = left.length → b.length = right.length →
      pickCells (fun name => names.contains name) (left ++ right) (a ++ b) = .ok (side (a, b))) :
    matched.rows = (t.satisfyingPairs other joined.schema condition).map side := by
  obtain ⟨left, right, hcolumns, hleft, hright⟩ := exists_columns_of_matchingPairs h
  have hpicked := rows_of_project hmatched
  have hnodup := joined.schema.nodup
  rw [rows_of_matchingPairs h, hcolumns] at hpicked
  rw [hcolumns] at hnodup
  refine Except.ok.inj (hpicked.symm.trans (pickRows_map fun pair hpair => ?_))
  obtain ⟨ha, hb⟩ := mem_of_mem_satisfyingPairs hpair
  exact hside hleft hright hnodup (ht.length_eq_of_qualifiedNames hleft ha)
    (hother.length_eq_of_qualifiedNames hright hb)

/-- The names of the left side pick the left rows out of the matching pairs. -/
theorem rows_of_project_left (ht : t.WellFormed) (hother : other.WellFormed) {matched : Table}
    (h : t.matchingPairs other condition = .ok joined)
    (hmatched : joined.project t.qualifiedNames = .ok matched) :
    matched.rows = (t.satisfyingPairs other joined.schema condition).map Prod.fst := by
  refine rows_of_project_side ht hother h hmatched ?_
  intro left right a b hleft _ hnodup ha hb
  rw [← hleft]
  exact pickCells_append_left hnodup ha hb

/-- The names of the right side pick the right rows out of the matching pairs. -/
theorem rows_of_project_right (ht : t.WellFormed) (hother : other.WellFormed) {matched : Table}
    (h : t.matchingPairs other condition = .ok joined)
    (hmatched : joined.project other.qualifiedNames = .ok matched) :
    matched.rows = (t.satisfyingPairs other joined.schema condition).map Prod.snd := by
  refine rows_of_project_side ht hother h hmatched ?_
  intro left right a b _ hright hnodup ha hb
  rw [← hright]
  exact pickCells_append_right hnodup ha hb

/-! ## Rows without a partner -/

/-- Whether `row` equals one of `rows` that is matched with one of `partners`. -/
def isPaired (rows partners : List Row) (matched : Row → Row → Bool) (row : Row) : Bool :=
  rows.any fun other => Row.same row other && partners.any (matched other)

theorem any_fst_satisfyingPairs (t other : Table) (schema : Schema) (condition : Expression)
    (row : Row) :
    ((t.satisfyingPairs other schema condition).map Prod.fst).any (Row.same row) =
      isPaired t.rows other.rows (fun a b => satisfies schema condition (a ++ b)) row := by
  rw [Bool.eq_iff_iff]
  simp only [isPaired, satisfyingPairs, List.any_map, List.any_eq_true, List.mem_filter,
    List.mem_product, Function.comp_apply, Bool.and_eq_true, Prod.exists]
  constructor
  · rintro ⟨a, b, ⟨⟨ha, hb⟩, hsat⟩, hsame⟩
    exact ⟨a, ha, hsame, b, hb, hsat⟩
  · rintro ⟨a, ha, hsame, b, hb, hsat⟩
    exact ⟨a, b, ⟨⟨ha, hb⟩, hsat⟩, hsame⟩

theorem any_snd_satisfyingPairs (t other : Table) (schema : Schema) (condition : Expression)
    (row : Row) :
    ((t.satisfyingPairs other schema condition).map Prod.snd).any (Row.same row) =
      isPaired other.rows t.rows (fun b a => satisfies schema condition (a ++ b)) row := by
  rw [Bool.eq_iff_iff]
  simp only [isPaired, satisfyingPairs, List.any_map, List.any_eq_true, List.mem_filter,
    List.mem_product, Function.comp_apply, Bool.and_eq_true, Prod.exists]
  constructor
  · rintro ⟨a, b, ⟨⟨ha, hb⟩, hsat⟩, hsame⟩
    exact ⟨b, hb, hsame, a, ha, hsat⟩
  · rintro ⟨b, hb, hsame, a, ha, hsat⟩
    exact ⟨a, b, ⟨⟨ha, hb⟩, hsat⟩, hsame⟩

theorem product_singleton_right (rows : List Row) (row : Row) :
    (rows ×ˢ [row]).map (fun pair => pair.1 ++ pair.2) = rows.map (· ++ row) := by
  induction rows with
  | nil => rfl
  | cons first rest ih =>
      rw [List.product_cons, List.map_append, ih]
      rfl

theorem product_singleton_left (rows : List Row) (row : Row) :
    ([row] ×ˢ rows).map (fun pair => pair.1 ++ pair.2) = rows.map (row ++ ·) := by
  rw [List.product_cons, List.nil_product, List.append_nil, List.map_map]
  rfl

theorem exists_matchingPairs_of_join {inner : Table} (h : t.join other condition = .ok inner) :
    ∃ joined, t.matchingPairs other condition = .ok joined := by
  obtain ⟨joined, hjoined, -⟩ := bind_eq_ok_iff.1 h
  exact ⟨joined, hjoined⟩

theorem exists_join_eq_ok (h : t.matchingPairs other condition = .ok joined) :
    ∃ inner, t.join other condition = .ok inner ∧ inner.schema = joined.schema ∧
      inner.rows = joined.rows :=
  ⟨_, bind_eq_ok_iff.2 ⟨joined, h, rfl⟩, rfl, rfl⟩

theorem rows_of_leftJoin (ht : t.WellFormed) (hother : other.WellFormed) {outer : Table}
    (h : t.leftJoin other condition = .ok outer) :
    ∃ inner, t.join other condition = .ok inner ∧ outer.schema = inner.schema ∧
      outer.rows =
        (inner.rows ++
          (t.rows.filter fun row => !isPaired t.rows other.rows
            (fun a b => satisfies inner.schema condition (a ++ b)) row).map
              (· ++ other.schema.emptyRow)).eraseDupsBy Row.same := by
  obtain ⟨joined, hjoined, h⟩ := bind_eq_ok_iff.1 h
  obtain ⟨matched, hmatched, h⟩ := bind_eq_ok_iff.1 h
  obtain ⟨unmatched, hunmatched, h⟩ := bind_eq_ok_iff.1 h
  cases h
  obtain ⟨inner, hinner, hschema, hrows⟩ := exists_join_eq_ok hjoined
  have hpadded : unmatched.rows = (t.difference matched).rows.map (· ++ other.schema.emptyRow) :=
    (rows_of_product hunmatched).trans (product_singleton_right _ _)
  -- the rows left over are those that equal no left row of a matching pair
  have hlone : (t.difference matched).rows = t.rows.filter fun row => !isPaired t.rows other.rows
      (fun a b => satisfies inner.schema condition (a ++ b)) row := by
    simp only [rows_difference, rows_of_project_left ht hother hjoined hmatched,
      any_fst_satisfyingPairs, hschema]
  refine ⟨inner, hinner, hschema.symm, ?_⟩
  refine (rows_union joined unmatched).trans ?_
  rw [hrows, hpadded, hlone]

theorem rows_of_rightJoin (ht : t.WellFormed) (hother : other.WellFormed) {outer : Table}
    (h : t.rightJoin other condition = .ok outer) :
    ∃ inner, t.join other condition = .ok inner ∧ outer.schema = inner.schema ∧
      outer.rows =
        (inner.rows ++
          (other.rows.filter fun row => !isPaired other.rows t.rows
            (fun b a => satisfies inner.schema condition (a ++ b)) row).map
              (t.schema.emptyRow ++ ·)).eraseDupsBy Row.same := by
  obtain ⟨joined, hjoined, h⟩ := bind_eq_ok_iff.1 h
  obtain ⟨matched, hmatched, h⟩ := bind_eq_ok_iff.1 h
  obtain ⟨unmatched, hunmatched, h⟩ := bind_eq_ok_iff.1 h
  cases h
  obtain ⟨inner, hinner, hschema, hrows⟩ := exists_join_eq_ok hjoined
  have hpadded : unmatched.rows = (other.difference matched).rows.map (t.schema.emptyRow ++ ·) :=
    (rows_of_product hunmatched).trans (product_singleton_left _ _)
  have hlone : (other.difference matched).rows =
      other.rows.filter fun row => !isPaired other.rows t.rows
        (fun b a => satisfies inner.schema condition (a ++ b)) row := by
    simp only [rows_difference, rows_of_project_right ht hother hjoined hmatched,
      any_snd_satisfyingPairs, hschema]
  refine ⟨inner, hinner, hschema.symm, ?_⟩
  refine (rows_union joined unmatched).trans ?_
  rw [hrows, hpadded, hlone]

/-! ## When an outer join succeeds -/

/-- Tables whose names start differently have a product, unless a column has a point in its
name. -/
theorem exists_product_eq_ok (ht : t.schema.Dotless) (hother : other.schema.Dotless) {c c' : Char}
    (hc : t.name.toList.head? = some c) (hc' : other.name.toList.head? = some c') (hne : c ≠ c') :
    ∃ pairs, t.product other = .ok pairs := by
  have hnames : (t.qualifiedNames ++ other.qualifiedNames).Nodup := by
    refine List.nodup_append.2 ⟨nodup_map_qualify t.schema.nodup ht _,
      nodup_map_qualify other.schema.nodup hother _, fun a ha b hb => ?_⟩
    obtain ⟨name, hname, rfl⟩ := List.mem_map.1 ha
    obtain ⟨name', hname', rfl⟩ := List.mem_map.1 hb
    rw [qualify_of_dotless (ht name hname), qualify_of_dotless (hother name' hname')]
    exact append_dot_ne hc hc' hne _ _
  obtain ⟨schema, hschema⟩ := exists_productSchema_eq_ok hnames
  exact ⟨_, bind_eq_ok_iff.2 ⟨schema, mapError_eq_ok_iff.2 hschema, rfl⟩⟩

theorem name_padding (t : Table) (name : String) (schema : Schema) :
    (t.padding name schema).name = name := rfl

theorem head?_name_difference (t matched : Table) :
    (t.difference matched).name.toList.head? = some '(' := by
  simp [difference, derive, name]

/-- The names of both sides are names of the matching pairs. -/
theorem mem_names_of_matchingPairs (h : t.matchingPairs other condition = .ok joined) :
    ∀ name ∈ t.qualifiedNames ++ other.qualifiedNames, name ∈ joined.schema.names := by
  obtain ⟨left, right, hcolumns, hleft, hright⟩ := exists_columns_of_matchingPairs h
  intro name hname
  unfold Schema.names
  rw [hcolumns, columnNames, List.map_append]
  rw [← hleft, ← hright] at hname
  exact hname

theorem exists_leftJoin_eq_ok (ht : t.WellFormed) (hother : other.WellFormed)
    (hdots : t.schema.Dotless) (hdots' : other.schema.Dotless)
    (h : t.matchingPairs other condition = .ok joined) :
    ∃ outer, t.leftJoin other condition = .ok outer := by
  have hknown : ∀ name ∈ t.qualifiedNames, name ∈ joined.schema.names := by
    intro name hname
    exact mem_names_of_matchingPairs h name (List.mem_append_left _ hname)
  obtain ⟨matched, hmatched, -⟩ := (ht.matchingPairs hother h).exists_project_eq hknown
  -- the sides of the second product have names that begin differently, so none clashes
  have hmark : (t.padding "⟕" other.schema).name.toList.head? = some '⟕' := by
    rw [name_padding]
    decide
  have hproduct : ∃ unmatched,
      (t.difference matched).product (t.padding "⟕" other.schema) = .ok unmatched :=
    exists_product_eq_ok hdots hdots' (head?_name_difference t matched) hmark (by decide)
  obtain ⟨unmatched, hunmatched⟩ := hproduct
  exact ⟨_, bind_eq_ok_iff.2 ⟨joined, h, bind_eq_ok_iff.2 ⟨matched, hmatched,
    bind_eq_ok_iff.2 ⟨unmatched, hunmatched, rfl⟩⟩⟩⟩

theorem exists_rightJoin_eq_ok (ht : t.WellFormed) (hother : other.WellFormed)
    (hdots : t.schema.Dotless) (hdots' : other.schema.Dotless)
    (h : t.matchingPairs other condition = .ok joined) :
    ∃ outer, t.rightJoin other condition = .ok outer := by
  have hknown : ∀ name ∈ other.qualifiedNames, name ∈ joined.schema.names := by
    intro name hname
    exact mem_names_of_matchingPairs h name (List.mem_append_right _ hname)
  obtain ⟨matched, hmatched, -⟩ := (ht.matchingPairs hother h).exists_project_eq hknown
  have hmark : (t.padding "⟖" t.schema).name.toList.head? = some '⟖' := by
    rw [name_padding]
    decide
  have hproduct : ∃ unmatched,
      (t.padding "⟖" t.schema).product (other.difference matched) = .ok unmatched :=
    exists_product_eq_ok hdots hdots' hmark (head?_name_difference other matched) (by decide)
  obtain ⟨unmatched, hunmatched⟩ := hproduct
  exact ⟨_, bind_eq_ok_iff.2 ⟨joined, h, bind_eq_ok_iff.2 ⟨matched, hmatched,
    bind_eq_ok_iff.2 ⟨unmatched, hunmatched, rfl⟩⟩⟩⟩

/-- **Outer joins have the rows of a direct definition.** A left join that succeeds has the schema
of the join. Its rows are those of the join and then, in the order of `t`, the rows that equal no
row of `t` with a partner, followed by nulls; later duplicates are left out. A right join does the
same for the rows of `other`, preceded by nulls. Unless a column has a point in its name, an outer
join succeeds exactly when the join does. -/
theorem outerJoins_eq (ht : t.WellFormed) (hother : other.WellFormed) (condition : Expression) :
    (∀ outer, t.leftJoin other condition = .ok outer →
      ∃ inner, t.join other condition = .ok inner ∧ outer.schema = inner.schema ∧
        outer.rows =
          (inner.rows ++
            (t.rows.filter fun row => !isPaired t.rows other.rows
              (fun a b => satisfies inner.schema condition (a ++ b)) row).map
                (· ++ other.schema.emptyRow)).eraseDupsBy Row.same) ∧
    (∀ outer, t.rightJoin other condition = .ok outer →
      ∃ inner, t.join other condition = .ok inner ∧ outer.schema = inner.schema ∧
        outer.rows =
          (inner.rows ++
            (other.rows.filter fun row => !isPaired other.rows t.rows
              (fun b a => satisfies inner.schema condition (a ++ b)) row).map
                (t.schema.emptyRow ++ ·)).eraseDupsBy Row.same) ∧
    (t.schema.Dotless → other.schema.Dotless →
      ((∃ outer, t.leftJoin other condition = .ok outer) ↔
        ∃ inner, t.join other condition = .ok inner) ∧
      ((∃ outer, t.rightJoin other condition = .ok outer) ↔
        ∃ inner, t.join other condition = .ok inner)) := by
  refine ⟨fun outer h => rows_of_leftJoin ht hother h, fun outer h => rows_of_rightJoin ht hother h,
    fun hdots hdots' => ⟨⟨?_, ?_⟩, ?_, ?_⟩⟩
  · rintro ⟨outer, h⟩
    obtain ⟨inner, hinner, -⟩ := rows_of_leftJoin ht hother h
    exact ⟨inner, hinner⟩
  · rintro ⟨inner, h⟩
    obtain ⟨joined, hjoined⟩ := exists_matchingPairs_of_join h
    exact exists_leftJoin_eq_ok ht hother hdots hdots' hjoined
  · rintro ⟨outer, h⟩
    obtain ⟨inner, hinner, -⟩ := rows_of_rightJoin ht hother h
    exact ⟨inner, hinner⟩
  · rintro ⟨inner, h⟩
    obtain ⟨joined, hjoined⟩ := exists_matchingPairs_of_join h
    exact exists_rightJoin_eq_ok ht hother hdots hdots' hjoined

/-- A table of two parts. -/
def parts : Table where
  id := ⟨"temp", "parts"⟩
  schema := ⟨[⟨"part", .integer⟩], List.nodup_singleton _⟩
  rows := [[.integer 1], [.integer 3]]
  store := none

/-- A table of two offers for the first part. -/
def offers : Table where
  id := ⟨"temp", "offers"⟩
  schema := ⟨[⟨"for", .integer⟩, ⟨"price", .text⟩], by decide⟩
  rows := [[.integer 1, .text "low"], [.integer 1, .text "high"]]
  store := none

theorem wellFormed_parts : parts.WellFormed :=
  wellFormed_of_rows_fit (by simp [parts, Row.Fits, Cell.Fits, Schema.types, Cell.type?])

theorem wellFormed_offers : offers.WellFormed :=
  wellFormed_of_rows_fit (by simp [offers, Row.Fits, Cell.Fits, Schema.types, Cell.type?])

/-- The part that no offer is for stays in the left join, with nulls for the offer. -/
theorem leftJoin_parts_offers :
    ∃ outer, parts.leftJoin offers
        (.compare .equal (.column "parts.part") (.column "offers.for")) = .ok outer ∧
      outer.rows =
        [[.integer 1, .integer 1, .text "low"], [.integer 1, .integer 1, .text "high"],
          [.integer 3, .null, .null]] := by
  have hparts : parts.WellFormed :=
    wellFormed_of_rows_fit (by simp [parts, Row.Fits, Cell.Fits, Schema.types, Cell.type?])
  have hoffers : offers.WellFormed :=
    wellFormed_of_rows_fit (by simp [offers, Row.Fits, Cell.Fits, Schema.types, Cell.type?])
  obtain ⟨hleft, -, hsuccess⟩ := outerJoins_eq hparts hoffers
    (.compare .equal (.column "parts.part") (.column "offers.for"))
  obtain ⟨outer, houter⟩ := (hsuccess (by decide) (by decide)).1.2 ⟨_, rfl⟩
  obtain ⟨inner, hinner, -, hrows⟩ := hleft outer houter
  refine ⟨outer, houter, hrows.trans ?_⟩
  -- the direct description is computed, and not the join itself
  cases hinner
  decide +kernel

end FlatTables.Table
