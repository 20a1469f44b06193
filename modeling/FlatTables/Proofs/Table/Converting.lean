import FlatTables.Proofs.Integer
import FlatTables.Proofs.Table.Fitting
import FlatTables.Proofs.Traversal

set_option autoImplicit false

/-! # Converting rows to a schema

A row is converted cell by cell, each cell to the type of its column. Two kinds of cells cannot be
converted (`ColumnType.Refuses`), and the leftmost of them is the one that is reported
(`Schema.coerce_eq_error_iff`).

A row that was converted is in a normal form (`Schema.NormalForm`): it has a null exactly where the
given row has one, cells of the columns' types elsewhere, and converting it again changes nothing. -/

namespace FlatTables

/-! ## Cells -/

namespace ColumnType

variable {type : ColumnType} {cell cell' : Cell} {e : ConversionError}

/-- Whether a cell cannot be converted to a type, and the error that tells of it. -/
inductive Refuses : ColumnType → Cell → ConversionError → Prop
  /-- A double has to be finite, and its whole part a word. -/
  | float {x : Binary64} (h : ¬(x.isFinite = true ∧ Integer.FitsWord x.truncate)) :
      Refuses integer (.float x) ⟨Binary64.Layout.plain.text x, integer⟩
  /-- A text has to spell a cell of the type. -/
  | text {type : ColumnType} {s : String} (h : ∀ cell, type.parse s ≠ .ok cell) :
      Refuses type (.text s) ⟨s, type⟩

theorem parse_cases (type : ColumnType) (raw : String) :
    (∃ cell, type.parse raw = .ok cell) ∨ type.parse raw = .error ⟨raw, type⟩ := by
  cases type with
  | integer =>
      simp only [parse]
      split
      · exact .inl ⟨_, rfl⟩
      · exact .inr rfl
  | float =>
      simp only [parse]
      split
      · exact .inl ⟨_, rfl⟩
      · exact .inr rfl
  | text => exact .inl ⟨_, rfl⟩

theorem toInt64?_eq_none_iff {x : Binary64} :
    x.toInt64? = none ↔ ¬(x.isFinite = true ∧ Integer.FitsWord x.truncate) := by
  unfold Binary64.toInt64?
  split
  · next hfinite =>
      rw [Integer.ofInt?_eq_none_iff]
      simp [hfinite]
  · next hfinite => simp [hfinite]

theorem coerce_float_integer_eq_error_iff {x : Binary64} :
    integer.coerce (.float x) = .error e ↔
      x.toInt64? = none ∧ e = ⟨Binary64.Layout.plain.text x, integer⟩ := by
  rw [coerce]
  cases x.toInt64? with
  | none => simp [eq_comm]
  | some i => simp

theorem parse_eq_error_iff {raw : String} : type.parse raw = .error e ↔
    (∀ cell, type.parse raw ≠ .ok cell) ∧ e = ⟨raw, type⟩ := by
  rcases parse_cases type raw with ⟨cell, h⟩ | h
  · simp [h]
  · simp [h, eq_comm]

/-- **Two kinds of cells cannot be converted**: doubles whose whole part is no word, and texts that
spell no cell of the type. -/
theorem coerce_eq_error_iff : type.coerce cell = .error e ↔ type.Refuses cell e := by
  constructor
  · intro h
    cases cell with
    | null =>
        rw [coerce_null] at h
        cases h
    | integer i => cases type <;> cases h
    | float x =>
        cases type with
        | integer =>
            obtain ⟨hnone, rfl⟩ := coerce_float_integer_eq_error_iff.1 h
            exact .float (toInt64?_eq_none_iff.1 hnone)
        | float | text => cases h
    | text s =>
        rw [coerce_text] at h
        obtain ⟨hnone, rfl⟩ := parse_eq_error_iff.1 h
        exact .text hnone
  · rintro (h | h)
    · exact coerce_float_integer_eq_error_iff.2 ⟨toInt64?_eq_none_iff.2 h, rfl⟩
    · rw [coerce_text]
      exact parse_eq_error_iff.2 ⟨h, rfl⟩

/-- Null stays null, and nothing else becomes null. -/
theorem eq_null_iff_of_coerce (h : type.coerce cell = .ok cell') :
    cell' = .null ↔ cell = .null := by
  by_cases hnull : cell = .null
  · rw [hnull, coerce_null] at h
    cases h
    simp [hnull]
  · have htype := type?_of_coerce hnull h
    refine iff_of_false ?_ hnull
    rintro rfl
    cases htype

end ColumnType

/-! ## Rows -/

/-- Whether a cell cannot be converted to the type of its column, and the error that names the
column. -/
def Column.Refuses (pair : Column × Cell) (e : RowError) : Prop :=
  ∃ cause, pair.1.type.Refuses pair.2 cause ∧ .cell pair.1.name cause = e

namespace Schema

variable {s : Schema} {row row' : Row} {e : RowError}

theorem coerceCells_eq_mapM (columns : List Column) (row : Row) :
    coerceCells columns row = (columns.zip row).mapM fun pair =>
      (pair.1.type.coerce pair.2).mapError (.cell pair.1.name) := by
  induction columns generalizing row with
  | nil => cases row <;> rfl
  | cons column columns ih =>
      cases row with
      | nil => rfl
      | cons cell cells =>
          rw [coerceCells, List.zip_cons_cons, List.mapM_cons, ← ih]
          cases column.type.coerce cell with
          | error cause => rfl
          | ok cell' => exact (bind_ok_eq_map _ _).symm

/-- **When a row is not converted.** It has another number of cells than there are columns, or a cell
that cannot be converted, and then the error is that of the leftmost. -/
theorem coerce_eq_error_iff : s.coerce row = .error e ↔
    (row.length ≠ s.width ∧ e = .width s.width row.length) ∨
      row.length = s.width ∧ First Column.Refuses (s.columns.zip row) e := by
  have hcells : (fun (pair : Column × Cell) (e : RowError) =>
      (pair.1.type.coerce pair.2).mapError (.cell pair.1.name) = .error e) = Column.Refuses := by
    funext pair e
    simp only [mapError_eq_error_iff, ColumnType.coerce_eq_error_iff, Column.Refuses]
  unfold coerce
  split
  · next hlength =>
      rw [coerceCells_eq_mapM, mapM_eq_error_iff, hcells]
      simp [hlength]
  · next hlength => simp [hlength, eq_comm]

theorem coerce_eq_width_iff {expected found : Nat} : s.coerce row = .error (.width expected found) ↔
    row.length ≠ s.width ∧ expected = s.width ∧ found = row.length := by
  rw [coerce_eq_error_iff, RowError.width.injEq, or_iff_left]
  rintro ⟨-, _, _, _, -, ⟨_, -, h⟩, -⟩
  cases h

theorem coerce_eq_cell_iff {name : String} {cause : ConversionError} :
    s.coerce row = .error (.cell name cause) ↔
      row.length = s.width ∧ First Column.Refuses (s.columns.zip row) (.cell name cause) := by
  rw [coerce_eq_error_iff, or_iff_right]
  rintro ⟨-, h⟩
  cases h

theorem exists_coerce_iff : (∃ row', s.coerce row = .ok row') ↔ row.length = s.width ∧
    ∀ pair ∈ s.columns.zip row, ∀ cause, ¬pair.1.type.Refuses pair.2 cause := by
  have hpair : ∀ pair : Column × Cell,
      (∀ e, ¬Column.Refuses pair e) ↔ ∀ cause, ¬pair.1.type.Refuses pair.2 cause := by
    intro pair
    simp only [Column.Refuses, not_exists, not_and]
    exact ⟨fun h cause hcause => h _ cause hcause rfl, fun h _ cause hcause _ => h cause hcause⟩
  rw [exists_eq_ok_iff]
  simp only [ne_eq, coerce_eq_error_iff, not_or, forall_and]
  by_cases hlength : row.length = s.width
  · simp [hlength, ← forall_not_iff_not_first, hpair]
  · simp [hlength]

theorem length_of_coerce (h : s.coerce row = .ok row') : row.length = s.width :=
  (exists_coerce_iff.1 ⟨row', h⟩).1

/-- Each cell is converted to the type of its column. -/
theorem forall₂_of_coerce (h : s.coerce row = .ok row') :
    List.Forall₂ (fun pair cell' => pair.1.type.coerce pair.2 = .ok cell') (s.columns.zip row)
      row' := by
  rw [coerce, if_pos (length_of_coerce h), coerceCells_eq_mapM, mapM_eq_ok_iff] at h
  exact h.imp fun _ _ => mapError_eq_ok_iff.1

theorem exists_of_coerce (h : s.coerce row = .ok row') {index : Nat} {column : Column}
    {cell : Cell} (hcolumn : s.columns[index]? = some column) (hcell : row[index]? = some cell) :
    ∃ cell', row'[index]? = some cell' ∧ column.type.coerce cell = .ok cell' := by
  have hpair : (s.columns.zip row)[index]? = some (column, cell) :=
    List.getElem?_zip_eq_some.2 ⟨hcolumn, hcell⟩
  exact exists_getElem?_of_forall₂ (forall₂_of_coerce h) hpair

/-- Whether `row'` is what converting makes of `row`, as far as a caller relies on it. -/
structure NormalForm (s : Schema) (row row' : Row) : Prop where
  length_eq : row'.length = row.length
  null_iff : ∀ index : Nat, row'[index]? = some .null ↔ row[index]? = some .null
  fits : Row.Fits s.types row'
  kept : ∀ (index : Nat) (column : Column) (cell : Cell), s.columns[index]? = some column →
    row[index]? = some cell → cell.type? = some column.type → row'[index]? = some cell
  again : s.coerce row' = .ok row'

/-- **A converted row is in normal form.** -/
theorem normalForm_of_coerce (h : s.coerce row = .ok row') : s.NormalForm row row' := by
  have hlength := length_of_coerce h
  have hfits := fits_of_coerce h
  have hlength' : row'.length = row.length := by
    rw [hfits.length_eq, length_types, hlength]
  refine ⟨hlength', fun index => ?_, hfits, ?_, coerce_of_fits hfits⟩
  · rcases Nat.lt_or_ge index row.length with hlt | hge
    · have hcolumn : index < s.columns.length := by rwa [← width, ← hlength]
      obtain ⟨cell', hcell', hcoerce⟩ := exists_of_coerce h
        (List.getElem?_eq_getElem hcolumn) (List.getElem?_eq_getElem hlt)
      rw [hcell', List.getElem?_eq_getElem hlt, Option.some.injEq, Option.some.injEq]
      exact ColumnType.eq_null_iff_of_coerce hcoerce
    · rw [List.getElem?_eq_none hge, List.getElem?_eq_none (hlength' ▸ hge)]
  · intro index column cell hcolumn hcell htype
    obtain ⟨cell', hcell', hcoerce⟩ := exists_of_coerce h hcolumn hcell
    rw [ColumnType.coerce_of_fits (Cell.fits_of_type? htype)] at hcoerce
    cases hcoerce
    exact hcell'

end Schema

end FlatTables
