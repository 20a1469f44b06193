import FlatTables.Proofs.Algebra.OuterJoin
import FlatTables.Proofs.First

set_option autoImplicit false

/-! # Computed columns

One pass over the rows computes the cells of a new column and settles its type by the first cell
that is not null. What the pass carries along is not needed to say what it does: the type is that of
the first row with a value that is not null (`First (GivesType …)`), wherever the nulls are, and a
row is at fault for what it gives and for that type only (`AtFault`). So the pass fails with the
fault of the first row that is at fault (`extendRows_eq_error_iff`), and otherwise the cells are the
results of the rows (`exists_cells_of_extendRows`). The induction has to begin in the middle of the
pass: `Settles` is the type that a column gets which may have one already. -/

namespace FlatTables

/-! ## Data that no cell holds -/

namespace Datum

/-- Whether `d` is a boolean or a list, which no column can hold. -/
inductive HasNoCell : Datum → Prop
  | boolean (value : Bool) : HasNoCell (boolean value)
  | list (items : List Datum) : HasNoCell (list items)

variable {d : Datum} {cell : Cell}

theorem toCell?_eq_some_iff : d.toCell? = some cell ↔ d = ofCell cell := by
  constructor
  · intro h
    cases d <;> cases h <;> rfl
  · rintro rfl
    cases cell <;> rfl

theorem toCell?_eq_none_iff : d.toCell? = none ↔ d.HasNoCell := by
  constructor
  · intro h
    cases d with
    | boolean value => exact .boolean value
    | list items => exact .list items
    | _ => cases h
  · rintro (_ | _) <;> rfl

end Datum

namespace Table

variable {t t' : Table} {schema : Schema} {e : Expression} {name? : Option String}
  {type? next? : Option ColumnType} {type : ColumnType} {row : Row} {rows rows' : List Row}
  {cell : Cell} {error : TableError}

/-! ## What a row gives, and when it is at fault -/

/-- Whether an expression gives a cell for a row. -/
def GivesCell (schema : Schema) (e : Expression) (row : Row) (cell : Cell) : Prop :=
  e.eval ⟨schema, row⟩ = .ok (Datum.ofCell cell)

/-- Whether an expression gives a cell of a type, and so not null, for a row. -/
def GivesType (schema : Schema) (e : Expression) (row : Row) (type : ColumnType) : Prop :=
  ∃ cell, GivesCell schema e row cell ∧ cell.type? = some type

/-- What is wrong with a row for a computed column, whose type is given by `settled`: there is no
value, or the value is of no type that a column has, or of another type than that of the column. -/
inductive AtFault (schema : Schema) (e : Expression) (settled : ColumnType → Prop) (row : Row) :
    TableError → Prop
  | evaluate {cause : EvalError} (h : e.eval ⟨schema, row⟩ = .error cause) :
    AtFault schema e settled row (.evaluate e.display cause)
  | unsupported {value : Datum} (h : e.eval ⟨schema, row⟩ = .ok value) (hvalue : value.HasNoCell) :
    AtFault schema e settled row (.unsupportedResult e.display value.typeName)
  | type {expected found : ColumnType} (hexpected : settled expected)
    (hfound : GivesType schema e row found) (hne : expected ≠ found) :
    AtFault schema e settled row (.resultType e.display expected found)

/-- The type that a column gets from `rows`, if it is `type?` by the rows before. -/
def Settles (schema : Schema) (e : Expression) (type? : Option ColumnType) (rows : List Row)
    (type : ColumnType) : Prop :=
  type? = some type ∨ type? = none ∧ First (GivesType schema e) rows type

/-! ## One row -/

theorem computeCell_eq_ok_iff :
    computeCell schema e row = .ok cell ↔ GivesCell schema e row cell := by
  refine bind_eq_ok_iff.trans ⟨?_, fun h => ?_⟩
  · rintro ⟨value, hvalue, h⟩
    split at h
    · next hcell =>
        cases h
        rw [GivesCell, ← Datum.toCell?_eq_some_iff.1 hcell]
        exact mapError_eq_ok_iff.1 hvalue
    · cases h
  · refine ⟨_, mapError_eq_ok_iff.2 h, ?_⟩
    rw [Datum.toCell?_eq_some_iff.2 rfl]

theorem GivesCell.type?_eq_some_iff (h : GivesCell schema e row cell) :
    cell.type? = some type ↔ GivesType schema e row type := by
  refine ⟨fun htype => ⟨cell, h, htype⟩, ?_⟩
  rintro ⟨cell', h', htype⟩
  have hcell := computeCell_eq_ok_iff.2 h
  rw [computeCell_eq_ok_iff.2 h'] at hcell
  cases hcell
  exact htype

theorem computeCell_eq_error_iff : computeCell schema e row = .error error ↔
    (∃ cause, e.eval ⟨schema, row⟩ = .error cause ∧ error = .evaluate e.display cause) ∨
      ∃ value, e.eval ⟨schema, row⟩ = .ok value ∧ value.HasNoCell ∧
        error = .unsupportedResult e.display value.typeName := by
  unfold computeCell
  rw [bind_eq_error_iff, mapError_eq_error_iff]
  refine or_congr (exists_congr fun cause => and_congr_right' eq_comm)
    (exists_congr fun value => and_congr mapError_eq_ok_iff ?_)
  rw [← Datum.toCell?_eq_none_iff]
  cases value.toCell? with
  | none => simp [eq_comm]
  | some cell => simp

/-- A row is at fault when it gives no cell, or else for the type of its cell. -/
theorem atFault_iff_computeCell {settled : ColumnType → Prop} :
    AtFault schema e settled row error ↔ computeCell schema e row = .error error ∨
      ∃ expected found, settled expected ∧ GivesType schema e row found ∧ expected ≠ found ∧
        error = .resultType e.display expected found := by
  rw [computeCell_eq_error_iff]
  constructor
  · rintro (h | ⟨h, hvalue⟩ | ⟨hexpected, hfound, hne⟩)
    · exact .inl (.inl ⟨_, h, rfl⟩)
    · exact .inl (.inr ⟨_, h, hvalue, rfl⟩)
    · exact .inr ⟨_, _, hexpected, hfound, hne, rfl⟩
  · rintro ((⟨_, h, rfl⟩ | ⟨_, h, hvalue, rfl⟩) | ⟨_, _, hexpected, hfound, hne, rfl⟩)
    · exact .evaluate h
    · exact .unsupported h hvalue
    · exact .type hexpected hfound hne

/-- A row without a cell is at fault for that, whatever the type of the column is. -/
theorem atFault_iff_of_computeCell_eq_error {settled : ColumnType → Prop} {error' : TableError}
    (h : computeCell schema e row = .error error') :
    AtFault schema e settled row error ↔ error' = error := by
  have hnone : ∀ type, ¬GivesType schema e row type := by
    rintro type ⟨cell, hcell, -⟩
    rw [computeCell_eq_ok_iff.2 hcell] at h
    cases h
  simp [atFault_iff_computeCell, h, hnone]

/-- A row with a cell can only be at fault for its type. -/
theorem GivesCell.atFault_iff {settled : ColumnType → Prop} (h : GivesCell schema e row cell) :
    AtFault schema e settled row error ↔
      ∃ expected found, settled expected ∧ cell.type? = some found ∧ expected ≠ found ∧
        error = .resultType e.display expected found := by
  simp only [atFault_iff_computeCell, computeCell_eq_ok_iff.2 h, reduceCtorEq, false_or,
    h.type?_eq_some_iff]

theorem joinType_null (e : Expression) (type? : Option ColumnType) :
    joinType e type? .null = .ok type? := by
  cases type? <;> rfl

theorem joinType_eq_error_iff : joinType e type? cell = .error error ↔
    ∃ expected found, type? = some expected ∧ cell.type? = some found ∧ expected ≠ found ∧
      error = .resultType e.display expected found := by
  unfold joinType
  cases cell.type? with
  | none => simp
  | some found =>
      cases type? with
      | none => simp
      | some expected =>
          by_cases heq : expected = found
          · simp [heq]
          · simp [heq, @eq_comm _ error]

/-- The pass stops at a cell exactly when the row of the cell is at fault. -/
theorem GivesCell.joinType_fails_iff (h : GivesCell schema e row cell) :
    joinType e type? cell = .error error ↔
      AtFault schema e (Settles schema e type? (row :: rows)) row error := by
  rw [joinType_eq_error_iff, h.atFault_iff]
  refine exists_congr fun expected => exists_congr fun found => and_congr_left ?_
  rintro ⟨hfound, hne, -⟩
  refine ⟨.inl, fun hsettles => hsettles.resolve_right ?_⟩
  -- where no type is settled before, this row settles its own
  rintro ⟨-, hfirst⟩
  rcases first_cons_iff.1 hfirst with hexpected | ⟨hnone, -⟩
  · exact hne (Option.some.inj ((h.type?_eq_some_iff.2 hexpected).symm.trans hfound))
  · exact hnone found (h.type?_eq_some_iff.1 hfound)

/-- The type that a column gets does not change on the way. -/
theorem GivesCell.settles_cons_iff (h : GivesCell schema e row cell)
    (hnext : joinType e type? cell = .ok next?) :
    Settles schema e type? (row :: rows) type ↔ Settles schema e next? rows type := by
  have hgives (type : ColumnType) : cell.type? = some type ↔ GivesType schema e row type :=
    h.type?_eq_some_iff
  unfold Settles
  cases hcell : cell.type? with
  | none =>
      rw [Cell.type?_eq_none_iff.1 hcell, joinType_null] at hnext
      cases hnext
      simp [first_cons_iff, ← hgives, hcell]
  | some found =>
      cases type? with
      | none =>
          simp only [joinType, hcell] at hnext
          cases hnext
          simp [first_cons_iff, ← hgives, hcell]
      | some expected =>
          simp only [joinType, hcell] at hnext
          split at hnext
          · cases hnext
            simp
          · cases hnext

/-! ## All rows -/

/-- The pass fails with the fault of the first row that is at fault. -/
theorem extendRows_eq_error_iff : extendRows schema e type? rows = .error error ↔
    First (AtFault schema e (Settles schema e type? rows)) rows error := by
  induction rows generalizing type? with
  | nil => exact ⟨fun h => (nomatch h), fun h => absurd h not_first_nil⟩
  | cons row rest ih =>
      rw [extendRows, bind_eq_error_iff, first_cons_iff]
      cases hcell : computeCell schema e row with
      | error error' =>
          simp [atFault_iff_of_computeCell_eq_error hcell]
      | ok cell =>
          have hgives := computeCell_eq_ok_iff.1 hcell
          simp only [← hgives.joinType_fails_iff, reduceCtorEq, false_or, Except.ok.injEq,
            exists_eq_left', bind_eq_error_iff, and_false, exists_false, or_false]
          cases hnext : joinType e type? cell with
          | error error' => simp
          | ok next? =>
              have hsettles : Settles schema e type? (row :: rest) = Settles schema e next? rest :=
                funext fun type => propext (hgives.settles_cons_iff hnext)
              simp [ih, hsettles]

/-- What the pass gives when it ends: the results of the rows in their order, all of the type of the
column or null. -/
theorem exists_cells_of_extendRows (h : extendRows schema e type? rows = .ok (next?, rows')) :
    ∃ cells, List.Forall₂ (GivesCell schema e) rows cells ∧
      rows' = List.zipWith (fun row cell => row ++ [cell]) rows cells ∧
      (∀ cell ∈ cells, cell = .null ∨ cell.type? = next?) ∧
      (∀ type, type? = some type → next? = some type) ∧
      ((∀ cell ∈ cells, cell = .null) → next? = type?) := by
  induction rows generalizing type? rows' with
  | nil =>
      cases h
      exact ⟨[], .nil, rfl, fun _ h => absurd h List.not_mem_nil, fun _ h => h, fun _ => rfl⟩
  | cons row rest ih =>
      obtain ⟨cell, hcell, h⟩ := bind_eq_ok_iff.1 h
      obtain ⟨first?, hfirst, h⟩ := bind_eq_ok_iff.1 h
      obtain ⟨⟨last?, rest'⟩, hrest, h⟩ := bind_eq_ok_iff.1 h
      cases h
      obtain ⟨cells, hgives, rfl, htypes, hkeeps, hnulls⟩ := ih hrest
      obtain ⟨hfits, hkept⟩ := joinType_eq_ok hfirst
      refine ⟨cell :: cells, .cons (computeCell_eq_ok_iff.1 hcell) hgives, rfl, ?_,
        fun type htype => hkeeps type (hkept type htype), ?_⟩
      · refine List.forall_mem_cons.2 ⟨?_, htypes⟩
        cases htype : cell.type? with
        | none => exact .inl (Cell.type?_eq_none_iff.1 htype)
        | some type =>
            rcases hfits with rfl | hfits
            · exact .inl rfl
            · exact .inr (hkeeps type (hfits.symm.trans htype)).symm
      · intro hall
        obtain ⟨rfl, hothers⟩ := List.forall_mem_cons.1 hall
        rw [joinType_null] at hfirst
        cases hfirst
        exact hnulls hothers

/-- No row is at fault exactly when every row gives a cell and no two rows disagree about the type
of theirs. -/
theorem forall_not_atFault_iff :
    (∀ row ∈ rows, ∀ error, ¬AtFault schema e (First (GivesType schema e) rows) row error) ↔
      (∀ row ∈ rows, ∃ value, e.eval ⟨schema, row⟩ = .ok value ∧ ¬value.HasNoCell) ∧
        ∀ row ∈ rows, ∀ row' ∈ rows, ∀ type type', GivesType schema e row type →
          GivesType schema e row' type' → type = type' := by
  constructor
  · intro hnone
    refine ⟨fun row hrow => ?_, ?_⟩
    · cases heval : e.eval ⟨schema, row⟩ with
      | error cause => exact absurd (.evaluate heval) (hnone row hrow _)
      | ok value => exact ⟨value, rfl, fun hvalue => hnone row hrow _ (.unsupported heval hvalue)⟩
    · intro row hrow row' hrow' type type' htype htype'
      obtain ⟨first, hfirst⟩ := exists_first_iff.2 ⟨row, hrow, type, htype⟩
      have hagrees : ∀ row ∈ rows, ∀ type, GivesType schema e row type → first = type := by
        intro row hrow type htype
        by_contra hne
        exact hnone row hrow _ (.type hfirst htype hne)
      exact (hagrees row hrow type htype).symm.trans (hagrees row' hrow' type' htype')
  · rintro ⟨hvalues, hagree⟩ row hrow error (h | ⟨h, hvalue⟩ | ⟨hexpected, hfound, hne⟩)
    · obtain ⟨value, hvalue, -⟩ := hvalues row hrow
      rw [h] at hvalue
      cases hvalue
    · obtain ⟨value', hvalue', hcell⟩ := hvalues row hrow
      rw [h] at hvalue'
      cases hvalue'
      exact hcell hvalue
    · obtain ⟨before, first, after, rfl, hfirst, -⟩ := hexpected
      exact hne (hagree first (by simp) row hrow _ _ hfirst hfound)

/-! ## The table -/

theorem settles_none : Settles schema e none rows = First (GivesType schema e) rows :=
  funext fun type => by simp [Settles]

theorem exists_extendRows_iff : (∃ result, extendRows schema e none rows = .ok result) ↔
    ∀ row ∈ rows, ∀ error, ¬AtFault schema e (First (GivesType schema e) rows) row error := by
  rw [exists_eq_ok_iff, forall_not_iff_not_first, ← settles_none]
  simp only [ne_eq, extendRows_eq_error_iff]

/-- The rows are computed first, so a name that is taken shows only when no row is at fault. -/
theorem extend_eq_error_iff : t.extend e name? = .error error ↔
    First (AtFault t.schema e (First (GivesType t.schema e) t.rows)) t.rows error ∨
      (∀ row ∈ t.rows, ∀ error',
        ¬AtFault t.schema e (First (GivesType t.schema e) t.rows) row error') ∧
        name?.getD e.display ∈ t.schema.names ∧ error = .columns ⟨name?.getD e.display⟩ := by
  rw [← exists_extendRows_iff, ← settles_none, ← extendRows_eq_error_iff]
  unfold extend
  rw [bind_eq_error_iff]
  refine or_congr_right ⟨?_, ?_⟩
  · rintro ⟨result, hresult, h⟩
    rcases bind_eq_error_iff.1 h with h | ⟨_, _, h⟩
    · obtain ⟨cause, hpush, rfl⟩ := mapError_eq_error_iff.1 h
      obtain ⟨hname, rfl⟩ := Schema.push_eq_error_iff.1 hpush
      exact ⟨⟨result, hresult⟩, hname, rfl⟩
    · cases h
  · rintro ⟨⟨result, hresult⟩, hname, rfl⟩
    have hpush : t.schema.push ⟨name?.getD e.display, result.1.getD .text⟩ =
        .error ⟨name?.getD e.display⟩ := Schema.push_eq_error_iff.2 ⟨hname, rfl⟩
    exact ⟨result, hresult,
      bind_eq_error_iff.2 (.inl (mapError_eq_error_iff.2 ⟨_, hpush, rfl⟩))⟩

theorem exists_extend_iff : (∃ t', t.extend e name? = .ok t') ↔
    (∀ row ∈ t.rows, ∀ error,
      ¬AtFault t.schema e (First (GivesType t.schema e) t.rows) row error) ∧
      name?.getD e.display ∉ t.schema.names := by
  simp only [exists_eq_ok_iff, ne_eq, extend_eq_error_iff, not_or, forall_and,
    ← forall_not_iff_not_first]
  refine and_congr_right fun hnone => ⟨fun h hname => h _ ⟨hnone, hname, rfl⟩, ?_⟩
  rintro h _ ⟨-, hname, -⟩
  exact h hname

theorem schema_of_project {names : List String} (h : t.project names = .ok t') :
    t'.schema = t.schema.restrict fun name => names.contains name := by
  unfold Table.project at h
  split at h
  · cases h
  · obtain ⟨rows, -, h⟩ := bind_eq_ok_iff.1 h
    cases h
    rfl

/-- The old names take the new column out again. -/
theorem restrict_names_of_columns_eq {column : Column} {schema' : Schema}
    (h : schema'.columns = schema.columns ++ [column]) :
    (schema'.restrict fun name => schema.names.contains name) = schema := by
  have hnodup := schema'.nodup
  rw [h] at hnodup
  have hnew := contains_columnNames_eq_false (disjoint_of_nodup_columnNames hnodup)
  have hcolumns : schema'.columns.filter
      (fun column => (columnNames schema.columns).contains column.name) = schema.columns := by
    rw [h, List.filter_append, List.filter_eq_self.2 contains_columnNames, List.filter_singleton,
      hnew column List.mem_cons_self]
    exact List.append_nil _
  cases schema
  unfold Schema.restrict
  congr 1

/-- The new table projected to the old columns is the old one. -/
theorem WellFormed.exists_project_of_extend (ht : t.WellFormed) (h : t.extend e name? = .ok t')
    {column : Column} {cells : List Cell}
    (hcolumns : t'.schema.columns = t.schema.columns ++ [column])
    (hlength : cells.length = t.rows.length)
    (hrows : t'.rows = List.zipWith (fun row cell => row ++ [cell]) t.rows cells) :
    ∃ old, t'.project t.schema.names = .ok old ∧ old.schema = t.schema ∧ old.rows = t.rows := by
  have hknown : ∀ name ∈ t.schema.names, name ∈ t'.schema.names := by
    intro name hname
    rw [Schema.names, hcolumns, columnNames, List.map_append]
    exact List.mem_append_left _ hname
  obtain ⟨old, hold, -⟩ := (ht.extend h).exists_project_eq hknown
  refine ⟨old, hold, ?_, ?_⟩
  · rw [schema_of_project hold, restrict_names_of_columns_eq hcolumns]
  · have hnodup := t'.schema.nodup
    have hpicked := rows_of_project hold
    rw [hcolumns] at hnodup
    rw [hcolumns, hrows, ← List.map_uncurry_zip_eq_zipWith] at hpicked
    have hfst : (t.rows.zip cells).map Prod.fst = t.rows :=
      List.map_fst_zip (Nat.le_of_eq hlength.symm)
    rw [← hfst]
    refine Except.ok.inj (hpicked.symm.trans (pickRows_map fun pair hpair => ?_))
    exact pickCells_append_left hnodup (ht.length_row (List.of_mem_zip hpair).1) rfl

/-- **A computed column exists exactly when it should.** It does when the expression gives every row
a value that a cell can hold, all values that are not null have one type, and its name is free. Then
the old columns and rows are continued by one column of that type, or of texts if all values are
null, and a projection takes it out again. Otherwise the error is that of the first row that is at
fault, and only if there is none, that of the name. -/
theorem WellFormed.extend_exactly (ht : t.WellFormed) (e : Expression) (name? : Option String) :
    ((∃ t', t.extend e name? = .ok t') ↔
      (∀ row ∈ t.rows, ∃ value, e.eval ⟨t.schema, row⟩ = .ok value ∧ ¬value.HasNoCell) ∧
      (∀ row ∈ t.rows, ∀ row' ∈ t.rows, ∀ type type', GivesType t.schema e row type →
        GivesType t.schema e row' type' → type = type') ∧
      name?.getD e.display ∉ t.schema.names) ∧
    (∀ t', t.extend e name? = .ok t' →
      ∃ cells type, List.Forall₂ (GivesCell t.schema e) t.rows cells ∧
        (∀ cell ∈ cells, cell.Fits type) ∧ ((∀ cell ∈ cells, cell = .null) → type = .text) ∧
        t'.schema.columns = t.schema.columns ++ [⟨name?.getD e.display, type⟩] ∧
        t'.rows = List.zipWith (fun row cell => row ++ [cell]) t.rows cells ∧
        ∃ old, t'.project t.schema.names = .ok old ∧ old.schema = t.schema ∧
          old.rows = t.rows) ∧
    ∀ error, t.extend e name? = .error error ↔
      First (AtFault t.schema e (First (GivesType t.schema e) t.rows)) t.rows error ∨
        (∀ row ∈ t.rows, ∀ error',
          ¬AtFault t.schema e (First (GivesType t.schema e) t.rows) row error') ∧
          name?.getD e.display ∈ t.schema.names ∧ error = .columns ⟨name?.getD e.display⟩ := by
  refine ⟨?_, fun t' h => ?_, fun error => extend_eq_error_iff⟩
  · rw [exists_extend_iff, forall_not_atFault_iff, and_assoc]
  · obtain ⟨⟨type?, rows⟩, hresult, h'⟩ := bind_eq_ok_iff.1 h
    obtain ⟨schema, hschema, h'⟩ := bind_eq_ok_iff.1 h'
    cases h'
    have hcolumns := Schema.columns_of_push (mapError_eq_ok_iff.1 hschema)
    obtain ⟨cells, hgives, hrows, htypes, -, hnulls⟩ := exists_cells_of_extendRows hresult
    refine ⟨cells, type?.getD .text, hgives, fun cell hcell => ?_, fun hall => ?_, hcolumns, hrows,
      ht.exists_project_of_extend h hcolumns hgives.length_eq.symm hrows⟩
    · rcases htypes cell hcell with rfl | htype
      · exact Cell.fits_null _
      · cases type? with
        | none => exact .inl (Cell.type?_eq_none_iff.1 htype)
        | some type => exact Cell.fits_of_type? htype
    · rw [hnulls hall]
      rfl

/-- A table of levels, the first of which is not known. -/
def levels : Table where
  id := ⟨"temp", "levels"⟩
  schema := ⟨[⟨"level", .integer⟩], by decide⟩
  rows := [[.null], [.integer 3]]
  store := none

/-- The first row settles no type, the second one does. -/
theorem extend_levels :
    levels.WellFormed ∧
    ∃ t', levels.extend (.calculate .add (.column "level") (.literal (.integer 1))) none = .ok t' ∧
      t'.schema.columns = [⟨"level", .integer⟩, ⟨"add(level,1)", .integer⟩] ∧
      t'.rows = [[.null, .null], [.integer 3, .integer 4]] ∧
      ∃ old, t'.project ["level"] = .ok old ∧ old.rows = [[.null], [.integer 3]] := by
  have hwell : levels.WellFormed :=
    wellFormed_of_rows_fit (by simp [levels, Row.Fits, Cell.Fits, Schema.types, Cell.type?])
  obtain ⟨t', ht'⟩ : ∃ t', levels.extend
      (.calculate .add (.column "level") (.literal (.integer 1))) none = .ok t' := ⟨_, rfl⟩
  obtain ⟨-, hsuccess, -⟩ :=
    hwell.extend_exactly (.calculate .add (.column "level") (.literal (.integer 1))) none
  obtain ⟨-, -, -, -, -, -, -, old, hold, -, hrows⟩ := hsuccess t' ht'
  refine ⟨hwell, t', ht', ?_, ?_, old, hold, hrows⟩
  · cases ht'
    decide +kernel
  · cases ht'
    decide +kernel

end Table

end FlatTables
