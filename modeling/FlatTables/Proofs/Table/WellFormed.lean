import FlatTables.Proofs.Table.Fitting

set_option autoImplicit false

/-! # Well-formed tables

A table is well formed when no two of its columns have one name and every row fits the types of its
columns. Every operation on tables makes a well-formed table out of well-formed ones, with one
exception: a union takes the rows of its second operand as they are, so the types of the operands
have to agree. Each operation has one lemma for this.

In a well-formed table every position that a name leads to is inside every row, so no operation on
it meets a row that is too short (`NeverShort`). -/

namespace FlatTables

/-- Whether the columns of a table have different names, and its rows fit them. -/
structure Table.WellFormed (t : Table) : Prop where
  names_nodup : t.schema.names.Nodup
  rows_fit : ∀ row ∈ t.rows, Row.Fits t.schema.types row

/-- Whether a computation does not end at a row without a cell for a column. -/
def NeverShort {α : Type} (x : Except TableError α) : Prop :=
  ∀ column, x ≠ .error (.shortRow column)

namespace NeverShort

variable {α β ε : Type}

theorem ok (a : α) : NeverShort (.ok a) := fun _ h => nomatch h

theorem bind {x : Except TableError α} {f : α → Except TableError β} (hx : NeverShort x)
    (hf : ∀ a, x = .ok a → NeverShort (f a)) : NeverShort (x >>= f) := by
  intro column h
  rcases bind_eq_error_iff.1 h with h | ⟨a, ha, h⟩
  · exact hx column h
  · exact hf a ha column h

/-- An error of another kind is none of a short row, whatever it is wrapped into. -/
theorem mapError {x : Except ε α} {f : ε → TableError} (hf : ∀ e column, f e ≠ .shortRow column) :
    NeverShort (x.mapError f) := by
  intro column h
  obtain ⟨e, -, he⟩ := mapError_eq_error_iff.1 h
  exact hf e column he

end NeverShort

namespace Table

variable {t other t' : Table}

theorem wellFormed_of_rows_fit (h : ∀ row ∈ t.rows, Row.Fits t.schema.types row) :
    t.WellFormed :=
  ⟨t.schema.nodup, h⟩

/-- A row of a well-formed table is as long as its schema is wide. -/
theorem WellFormed.length_row (h : t.WellFormed) {row : Row} (hrow : row ∈ t.rows) :
    row.length = t.schema.width := by
  rw [(h.rows_fit row hrow).length_eq, Schema.length_types]

/-- In a well-formed table a column has a cell in every row. -/
theorem WellFormed.indexOf?_lt_length (h : t.WellFormed) {name : String} {index : Nat}
    (hindex : t.schema.indexOf? name = some index) {row : Row} (hrow : row ∈ t.rows) :
    index < row.length := by
  rw [h.length_row hrow]
  exact Schema.indexOf?_lt_width hindex

/-! ## Making tables -/

theorem fits_of_coerceRows {id : TableId} {schema : Schema} {rows rows' : List Row}
    (h : coerceRows id schema rows = .ok rows') : ∀ row ∈ rows', Row.Fits schema.types row := by
  induction rows generalizing rows' with
  | nil =>
      cases h
      intro row hrow
      exact absurd hrow List.not_mem_nil
  | cons row rest ih =>
      obtain ⟨row', hrow', h⟩ := bind_eq_ok_iff.1 h
      obtain ⟨rest', hrest', h⟩ := bind_eq_ok_iff.1 h
      cases h
      intro r hr
      rcases List.mem_cons.1 hr with rfl | hr
      · exact Schema.fits_of_coerce (mapError_eq_ok_iff.1 hrow')
      · exact ih hrest' r hr

theorem coerceRows_of_fits {id : TableId} {schema : Schema} {rows : List Row}
    (h : ∀ row ∈ rows, Row.Fits schema.types row) : coerceRows id schema rows = .ok rows := by
  induction rows with
  | nil => rfl
  | cons row rest ih =>
      have hrow := Schema.coerce_of_fits (h row List.mem_cons_self)
      have hrest := ih fun r hr => h r (List.mem_cons_of_mem _ hr)
      simp only [coerceRows, hrow, hrest]
      rfl

theorem wellFormed_of_temporary {id : String} {schema : Schema} {rows : List Row}
    (h : temporary id schema rows = .ok t) : t.WellFormed := by
  obtain ⟨rows', hrows', h⟩ := bind_eq_ok_iff.1 h
  cases h
  exact wellFormed_of_rows_fit (fits_of_coerceRows hrows')

/-! ## Changing rows -/

theorem fits_of_coerce {row row' : Row} (h : t.coerce row = .ok row') :
    Row.Fits t.schema.types row' :=
  Schema.fits_of_coerce (mapError_eq_ok_iff.1 h)

theorem neverShort_coerce (t : Table) (row : Row) : NeverShort (t.coerce row) :=
  .mapError fun _ _ h => nomatch h

theorem neverShort_checkIndex (t : Table) (index : Nat) : NeverShort (t.checkIndex index) := by
  unfold checkIndex
  split
  · exact .ok ()
  · intro _ h
    cases h

theorem WellFormed.append (ht : t.WellFormed) {row : Row} (h : t.append row = .ok t') :
    t'.WellFormed := by
  obtain ⟨row', hrow', h⟩ := bind_eq_ok_iff.1 h
  cases h
  refine wellFormed_of_rows_fit ?_
  intro r hr
  rcases List.mem_append.1 hr with hr | hr
  · exact ht.rows_fit r hr
  · rw [List.mem_singleton.1 hr]
    exact fits_of_coerce hrow'

theorem WellFormed.update (ht : t.WellFormed) {index : Nat} {row : Row}
    (h : t.update index row = .ok t') : t'.WellFormed := by
  obtain ⟨-, -, h⟩ := bind_eq_ok_iff.1 h
  obtain ⟨row', hrow', h⟩ := bind_eq_ok_iff.1 h
  cases h
  refine wellFormed_of_rows_fit ?_
  intro r hr
  rcases List.mem_or_eq_of_mem_set hr with hr | rfl
  · exact ht.rows_fit r hr
  · exact fits_of_coerce hrow'

theorem WellFormed.delete (ht : t.WellFormed) {index : Nat} (h : t.delete index = .ok t') :
    t'.WellFormed := by
  obtain ⟨-, -, h⟩ := bind_eq_ok_iff.1 h
  cases h
  exact wellFormed_of_rows_fit fun r hr =>
    ht.rows_fit r ((List.eraseIdx_sublist _ _).mem hr)

theorem wellFormed_cleared (t : Table) : t.cleared.WellFormed :=
  wellFormed_of_rows_fit fun _ hrow => absurd hrow List.not_mem_nil

theorem neverShort_append (t : Table) (row : Row) : NeverShort (t.append row) :=
  .bind (neverShort_coerce t row) fun _ _ => .ok _

theorem neverShort_update (t : Table) (index : Nat) (row : Row) :
    NeverShort (t.update index row) :=
  .bind (neverShort_checkIndex t index) fun _ _ =>
    .bind (neverShort_coerce t row) fun _ _ => .ok _

theorem neverShort_delete (t : Table) (index : Nat) : NeverShort (t.delete index) :=
  .bind (neverShort_checkIndex t index) fun _ _ => .ok _

/-! ## Changing columns -/

theorem WellFormed.addColumn (ht : t.WellFormed) {name : String} {type : ColumnType}
    (h : t.addColumn name type = .ok t') : t'.WellFormed := by
  obtain ⟨schema, hschema, h⟩ := bind_eq_ok_iff.1 h
  cases h
  refine wellFormed_of_rows_fit ?_
  intro r hr
  obtain ⟨row, hrow, rfl⟩ := List.mem_map.1 hr
  rw [Schema.types_of_push (mapError_eq_ok_iff.1 hschema)]
  exact (ht.rows_fit row hrow).append (.cons type.fits_defaultCell .nil)

theorem neverShort_addColumn (t : Table) (name : String) (type : ColumnType) :
    NeverShort (t.addColumn name type) :=
  .bind (.mapError fun _ _ h => nomatch h) fun _ _ => .ok _

/-- Dropping a cell from rows that have it. -/
theorem dropCells_eq_ok {column : String} {index : Nat} {rows : List Row}
    (h : ∀ row ∈ rows, index < row.length) :
    dropCells column index rows = .ok (rows.map (·.eraseIdx index)) := by
  induction rows with
  | nil => rfl
  | cons row rest ih =>
      unfold dropCells
      rw [if_pos (h row List.mem_cons_self),
        ih fun r hr => h r (List.mem_cons_of_mem _ hr)]
      rfl

/-- Dropping a column of a well-formed table fails only if there is no such column. -/
theorem WellFormed.dropColumn_eq (ht : t.WellFormed) (name : String) :
    t.dropColumn name =
      match t.schema.indexOf? name with
      | none => .error (.columnNotFound name)
      | some index =>
        .ok { t with
          schema := t.schema.eraseIdx index
          rows := t.rows.map (·.eraseIdx index) } := by
  unfold Table.dropColumn
  rw [Schema.erase?]
  cases hindex : t.schema.indexOf? name with
  | none => rfl
  | some index =>
      simp only [Option.map_some,
        dropCells_eq_ok fun row hrow => ht.indexOf?_lt_length hindex hrow]
      rfl

theorem WellFormed.dropColumn (ht : t.WellFormed) {name : String}
    (h : t.dropColumn name = .ok t') : t'.WellFormed := by
  rw [ht.dropColumn_eq] at h
  split at h
  · cases h
  · next index hindex =>
      cases h
      refine wellFormed_of_rows_fit ?_
      intro r hr
      obtain ⟨row, hrow, rfl⟩ := List.mem_map.1 hr
      rw [Schema.types_eraseIdx]
      exact (ht.rows_fit row hrow).eraseIdx index

theorem WellFormed.neverShort_dropColumn (ht : t.WellFormed) (name : String) :
    NeverShort (t.dropColumn name) := by
  rw [ht.dropColumn_eq]
  split
  · intro _ h
    cases h
  · exact .ok _

theorem fits_of_convertCells {column : String} {type : ColumnType} {index : Nat}
    {types : List ColumnType} {rows rows' : List Row}
    (hrows : ∀ row ∈ rows, Row.Fits types row)
    (h : convertCells column type index rows = .ok rows') :
    ∀ row ∈ rows', Row.Fits (types.set index type) row := by
  induction rows generalizing rows' with
  | nil =>
      cases h
      intro row hrow
      exact absurd hrow List.not_mem_nil
  | cons row rest ih =>
      unfold convertCells at h
      split at h
      · cases h
      · obtain ⟨cell, hcell, h⟩ := bind_eq_ok_iff.1 h
        obtain ⟨rest', hrest', h⟩ := bind_eq_ok_iff.1 h
        cases h
        intro r hr
        rcases List.mem_cons.1 hr with rfl | hr
        · have hfits := ColumnType.fits_of_coerce (mapError_eq_ok_iff.1 hcell)
          exact (hrows row List.mem_cons_self).set index hfits
        · exact ih (fun r hr => hrows r (List.mem_cons_of_mem _ hr)) hrest' r hr

theorem neverShort_convertCells {column : String} {type : ColumnType} {index : Nat}
    {rows : List Row} (h : ∀ row ∈ rows, index < row.length) :
    NeverShort (convertCells column type index rows) := by
  induction rows with
  | nil => exact .ok []
  | cons row rest ih =>
      unfold convertCells
      rw [List.getElem?_eq_getElem (h row List.mem_cons_self)]
      refine .bind (.mapError fun _ _ h => nomatch h) ?_
      intro cell _
      exact .bind (ih fun r hr => h r (List.mem_cons_of_mem _ hr)) fun rest' _ => .ok _

theorem WellFormed.modifyColumn (ht : t.WellFormed) {name : String} {type : ColumnType}
    (h : t.modifyColumn name type = .ok t') : t'.WellFormed := by
  unfold Table.modifyColumn at h
  split at h
  · cases h
  · next index hindex =>
      obtain ⟨rows, hrows, h⟩ := bind_eq_ok_iff.1 h
      cases h
      refine wellFormed_of_rows_fit ?_
      intro r hr
      rw [Schema.types_retype]
      exact fits_of_convertCells ht.rows_fit hrows r hr

theorem WellFormed.neverShort_modifyColumn (ht : t.WellFormed) (name : String)
    (type : ColumnType) : NeverShort (t.modifyColumn name type) := by
  unfold Table.modifyColumn
  split
  · intro _ h
    cases h
  · next index hindex =>
      refine .bind ?_ fun rows _ => .ok _
      exact neverShort_convertCells fun row hrow => ht.indexOf?_lt_length hindex hrow

end Table

end FlatTables
