import FlatTables.Proofs.Outcome
import Mathlib.Data.List.Forall2
import Mathlib.Data.List.InsertIdx

set_option autoImplicit false

/-! # Cells and rows that fit

A cell fits a type when it is null or has that type, and a row fits a list of types when it has one
cell for each of them and every cell fits. Fitting depends on the types of a schema only, so
qualifying or stripping its names changes nothing about it, and every operation on schemas is
described by what it does to `Schema.types`.

Converting gives rows that fit (`Schema.fits_of_coerce`) and leaves rows that fit as they are
(`Schema.coerce_of_fits`). -/

namespace FlatTables

/-! ## Cells -/

/-- Whether a cell may stand in a column of a type: it is null or of that type. -/
def Cell.Fits (type : ColumnType) (cell : Cell) : Prop := cell = .null ∨ cell.type? = some type

theorem Cell.fits_null (type : ColumnType) : Cell.null.Fits type := .inl rfl

theorem Cell.type?_eq_none_iff {cell : Cell} : cell.type? = none ↔ cell = .null := by
  cases cell <;> simp [Cell.type?]

theorem Cell.fits_of_type? {type : ColumnType} {cell : Cell} (h : cell.type? = some type) :
    cell.Fits type := .inr h

namespace ColumnType

theorem fits_defaultCell (type : ColumnType) : type.defaultCell.Fits type := by
  cases type <;> exact Cell.fits_of_type? rfl

/-- A text is read as a cell of the type, never as null. -/
theorem type?_of_parse {type : ColumnType} {raw : String} {cell : Cell}
    (h : type.parse raw = .ok cell) : cell.type? = some type := by
  cases type with
  | integer =>
      simp only [parse] at h
      split at h
      · cases h
        rfl
      · cases h
  | float =>
      simp only [parse] at h
      split at h
      · cases h
        rfl
      · cases h
  | text =>
      cases h
      rfl

theorem coerce_null (type : ColumnType) : type.coerce .null = .ok .null := by
  cases type <;> rfl

/-- A text is converted by reading it. -/
theorem coerce_text (type : ColumnType) (s : String) : type.coerce (.text s) = type.parse s := by
  cases type <;> rfl

/-- What is not null is converted to a cell of the type, never to null. -/
theorem type?_of_coerce {type : ColumnType} {cell cell' : Cell} (hne : cell ≠ .null)
    (h : type.coerce cell = .ok cell') : cell'.type? = some type := by
  cases cell with
  | null => exact absurd rfl hne
  | integer i =>
      cases type <;> cases h <;> rfl
  | float x =>
      cases type with
      | integer =>
          simp only [coerce] at h
          split at h
          · cases h
            rfl
          · cases h
      | float =>
          cases h
          rfl
      | text =>
          cases h
          rfl
  | text s =>
      rw [coerce_text] at h
      exact type?_of_parse h

theorem fits_of_coerce {type : ColumnType} {cell cell' : Cell} (h : type.coerce cell = .ok cell') :
    cell'.Fits type := by
  by_cases hnull : cell = .null
  · rw [hnull, coerce_null] at h
    cases h
    exact Cell.fits_null type
  · exact Cell.fits_of_type? (type?_of_coerce hnull h)

/-- A cell that fits already stays as it is. -/
theorem coerce_of_fits {type : ColumnType} {cell : Cell} (h : cell.Fits type) :
    type.coerce cell = .ok cell := by
  rcases h with rfl | h
  · exact coerce_null type
  · cases cell <;> cases h <;> rfl

end ColumnType

/-! ## Rows -/

/-- In lists that are related item by item, an item has its partner at the same position. -/
theorem exists_getElem?_of_forall₂ {α β : Type} {R : α → β → Prop} {l : List α} {m : List β}
    (h : List.Forall₂ R l m) {index : Nat} {a : α} (ha : l[index]? = some a) :
    ∃ b, m[index]? = some b ∧ R a b := by
  obtain ⟨hindex, rfl⟩ := List.getElem?_eq_some_iff.1 ha
  have hindex' : index < m.length := h.length_eq ▸ hindex
  exact ⟨m[index], List.getElem?_eq_getElem hindex', h.get hindex hindex'⟩

/-- Whether a row has one cell for each of the types, and each of its cells fits. -/
def Row.Fits (types : List ColumnType) (row : Row) : Prop :=
  List.Forall₂ (fun type cell => Cell.Fits type cell) types row

namespace Row.Fits

variable {types types' : List ColumnType} {row row' : Row}

theorem length_eq (h : Row.Fits types row) : row.length = types.length :=
  (List.Forall₂.length_eq h).symm

theorem append (h : Row.Fits types row) (h' : Row.Fits types' row') :
    Row.Fits (types ++ types') (row ++ row') :=
  List.rel_append h h'

theorem eraseIdx (h : Row.Fits types row) (index : Nat) :
    Row.Fits (types.eraseIdx index) (row.eraseIdx index) := by
  induction h generalizing index with
  | nil => exact .nil
  | cons hcell hrest ih =>
      cases index with
      | zero => exact hrest
      | succ index => exact .cons hcell (ih index)

theorem set (h : Row.Fits types row) (index : Nat) {type : ColumnType} {cell : Cell}
    (hcell : cell.Fits type) : Row.Fits (types.set index type) (row.set index cell) := by
  induction h generalizing index with
  | nil => exact .nil
  | cons hhead hrest ih =>
      cases index with
      | zero => exact .cons hcell hrest
      | succ index => exact .cons hhead (ih index)

theorem replicate_null (types : List ColumnType) :
    Row.Fits types (List.replicate types.length .null) := by
  induction types with
  | nil => exact .nil
  | cons type rest ih => exact .cons (Cell.fits_null type) ih

end Row.Fits

/-! ## Schemas -/

namespace Schema

/-- The types of the columns, in order. -/
def types (s : Schema) : List ColumnType := s.columns.map (·.type)

theorem length_types (s : Schema) : s.types.length = s.width := List.length_map ..

theorem length_names (s : Schema) : s.names.length = s.width := List.length_map ..

theorem columns_of_ofColumns {columns : List Column} {s : Schema} (h : ofColumns columns = .ok s) :
    s.columns = columns := by
  unfold ofColumns at h
  split at h
  · cases h
    rfl
  · cases h

theorem types_of_ofColumns {columns : List Column} {s : Schema} (h : ofColumns columns = .ok s) :
    s.types = columns.map (·.type) := by
  unfold types
  rw [columns_of_ofColumns h]

theorem push_eq_error_iff {s : Schema} {column : Column} {e : DuplicateColumn} :
    s.push column = .error e ↔ column.name ∈ s.names ∧ e = ⟨column.name⟩ := by
  unfold push
  split
  · next hname => exact ⟨fun h => ⟨hname, (Except.error.inj h).symm⟩, fun h => h.2 ▸ rfl⟩
  · next hname => exact ⟨fun h => (nomatch h), fun h => absurd h.1 hname⟩

theorem columns_of_push {s s' : Schema} {column : Column} (h : s.push column = .ok s') :
    s'.columns = s.columns ++ [column] := by
  unfold push at h
  split at h
  · cases h
  · cases h
    rfl

theorem types_of_push {s s' : Schema} {column : Column} (h : s.push column = .ok s') :
    s'.types = s.types ++ [column.type] := by
  unfold push at h
  split at h
  · cases h
  · cases h
    exact List.map_append ..

theorem types_eraseIdx (s : Schema) (index : Nat) :
    (s.eraseIdx index).types = s.types.eraseIdx index :=
  (List.eraseIdx_map ..).symm

theorem map_type_modify (type : ColumnType) (columns : List Column) (index : Nat) :
    (columns.modify index fun column => { column with type := type }).map (·.type) =
      (columns.map (·.type)).set index type := by
  induction columns generalizing index with
  | nil => cases index <;> rfl
  | cons column rest ih =>
      cases index with
      | zero => rfl
      | succ index =>
          rw [List.modify_succ_cons, List.map_cons, ih, List.map_cons, List.set_cons_succ]

theorem types_retype (s : Schema) (index : Nat) (type : ColumnType) :
    (s.retype index type).types = s.types.set index type :=
  map_type_modify type s.columns index

/-- Giving every column another name leaves the types. -/
theorem types_of_rename {s s' : Schema} {f : String → String}
    (h : ofColumns (s.columns.map fun column => { column with name := f column.name }) = .ok s') :
    s'.types = s.types := by
  rw [types_of_ofColumns h, List.map_map]
  rfl

theorem types_of_qualified {s s' : Schema} {table : String} (h : s.qualified table = .ok s') :
    s'.types = s.types :=
  types_of_rename h

theorem types_of_unqualified {s s' : Schema} (h : s.unqualified = .ok s') : s'.types = s.types :=
  types_of_rename h

theorem types_of_concat {s t s' : Schema} (h : s.concat t = .ok s') :
    s'.types = s.types ++ t.types := by
  rw [types_of_ofColumns h, List.map_append]
  rfl

theorem fits_emptyRow (s : Schema) : Row.Fits s.types s.emptyRow := by
  have h := Row.Fits.replicate_null s.types
  rwa [length_types] at h

/-- The position of a column is a position in the schema. -/
theorem indexOf?_lt_width {s : Schema} {name : String} {index : Nat}
    (h : s.indexOf? name = some index) : index < s.width := by
  rw [← length_names]
  exact (List.findIdx?_eq_some_iff_getElem.1 h).1

/-! ## Converting rows -/

theorem fits_of_coerceCells {columns : List Column} {row row' : Row}
    (h : coerceCells columns row = .ok row') (hlength : row.length = columns.length) :
    Row.Fits (columns.map (·.type)) row' := by
  induction columns generalizing row row' with
  | nil =>
      cases h
      exact .nil
  | cons column columns ih =>
      obtain ⟨cell, cells, rfl⟩ := List.exists_cons_of_length_eq_add_one hlength
      unfold coerceCells at h
      split at h
      · cases h
      · next cell' hcell =>
          obtain ⟨cells', hcells, rfl⟩ := map_eq_ok_iff.1 h
          exact .cons (ColumnType.fits_of_coerce hcell) (ih hcells (Nat.succ.inj hlength))

theorem fits_of_coerce {s : Schema} {row row' : Row} (h : s.coerce row = .ok row') :
    Row.Fits s.types row' := by
  unfold coerce at h
  split at h
  · next hlength => exact fits_of_coerceCells h hlength
  · cases h

theorem coerceCells_of_fits {columns : List Column} {row : Row}
    (h : Row.Fits (columns.map (·.type)) row) : coerceCells columns row = .ok row := by
  induction columns generalizing row with
  | nil =>
      cases h
      rfl
  | cons column columns ih =>
      obtain ⟨cell, cells, hcell, hcells, rfl⟩ := List.forall₂_cons_left_iff.1 h
      unfold coerceCells
      rw [ColumnType.coerce_of_fits hcell]
      change (coerceCells columns cells).map _ = _
      rw [ih hcells]
      rfl

theorem coerce_of_fits {s : Schema} {row : Row} (h : Row.Fits s.types row) :
    s.coerce row = .ok row := by
  have hlength : row.length = s.width := h.length_eq.trans s.length_types
  unfold coerce
  rw [if_pos hlength, coerceCells_of_fits h]

end Schema

end FlatTables
