import FlatTables.Cell

set_option autoImplicit false

/-! # Schemas

A schema is the list of a table's columns. Their names are pairwise different, and their order is
the order of the cells in a row. Names may be qualified: `A.x` is the column `x` of the table
`A`. -/

namespace FlatTables

/-- A column: a name and a type. -/
structure Column where
  name : String
  type : ColumnType
  deriving DecidableEq

/-- The names of a list of columns. -/
def columnNames (columns : List Column) : List String := columns.map (·.name)

/-- A list of columns in which a name stands twice. -/
structure DuplicateColumn where
  name : String
  deriving DecidableEq

def DuplicateColumn.message (e : DuplicateColumn) : String :=
  "column " ++ Text.quoted e.name ++ " is defined more than once"

/-- A row that does not fit a schema. -/
inductive RowError
  | width (expected found : Nat)
  | cell (column : String) (cause : ConversionError)
  deriving DecidableEq

def RowError.message : RowError → String
  | width expected found =>
    "got " ++ found.repr ++ " values for a row of " ++ expected.repr ++ " columns"
  | cell column cause =>
    "invalid value for column " ++ Text.quoted column ++ ": " ++ cause.message

/-! ## Distinct names -/

/-- The first name that stands in `seen` or earlier in the list. -/
def firstRepeated? (seen : List String) : List String → Option String
  | [] => none
  | name :: rest => if name ∈ seen then some name else firstRepeated? (name :: seen) rest

theorem nodup_of_firstRepeated?_eq_none {names : List String} :
    ∀ {seen : List String}, firstRepeated? seen names = none →
      names.Nodup ∧ ∀ name ∈ names, name ∉ seen := by
  induction names with
  | nil => exact fun _ => ⟨.nil, fun _ h => nomatch h⟩
  | cons name rest ih =>
    intro seen h
    rw [firstRepeated?] at h
    split at h
    · exact nomatch h
    · next hname =>
      obtain ⟨hrest, hseen⟩ := ih h
      refine ⟨List.nodup_cons.2 ⟨fun hmem => hseen name hmem List.mem_cons_self, hrest⟩, ?_⟩
      intro other hother
      rcases List.mem_cons.1 hother with rfl | hother
      · exact hname
      · exact fun hmem => hseen other hother (List.mem_cons_of_mem _ hmem)

/-! ## Qualified names -/

/-- The name `column` as a column of `table`, unless it is qualified already. -/
def qualify (table column : String) : String :=
  if column.toList.contains '.' then column else table ++ "." ++ column

/-- The name `column` without its qualifier: what follows the last point. -/
def unqualify (column : String) : String :=
  String.ofList (column.toList.reverse.takeWhile (· != '.')).reverse

/-! ## Schemas -/

/-- A list of columns with pairwise different names. -/
structure Schema where
  columns : List Column
  nodup : (columnNames columns).Nodup
  deriving DecidableEq

namespace Schema

/-- The schema with the given columns. -/
def ofColumns (columns : List Column) : Except DuplicateColumn Schema :=
  match h : firstRepeated? [] (columnNames columns) with
  | none => .ok ⟨columns, (nodup_of_firstRepeated?_eq_none h).1⟩
  | some name => .error ⟨name⟩

/-- The schema without columns. -/
def empty : Schema := ⟨[], .nil⟩

instance : Inhabited Schema := ⟨empty⟩

def names (s : Schema) : List String := columnNames s.columns

def width (s : Schema) : Nat := s.columns.length

/-- The position of the column called `name`. -/
def indexOf? (s : Schema) (name : String) : Option Nat := s.names.idxOf? name

/-- The column called `name`. -/
def find? (s : Schema) (name : String) : Option Column := s.columns.find? (·.name == name)

/-- The schema `s` with one more column at the end. -/
def push (s : Schema) (column : Column) : Except DuplicateColumn Schema :=
  if h : column.name ∈ s.names then .error ⟨column.name⟩
  else .ok ⟨s.columns ++ [column], by
    rw [columnNames, List.map_append, List.nodup_append]
    refine ⟨s.nodup, List.nodup_cons.2 ⟨List.not_mem_nil, .nil⟩, ?_⟩
    intro a ha b hb hab
    have hname : a = column.name := hab.trans (List.mem_singleton.1 hb)
    exact h (hname ▸ ha)⟩

/-- The schema `s` without the column at position `index`. -/
def eraseIdx (s : Schema) (index : Nat) : Schema :=
  ⟨s.columns.eraseIdx index, s.nodup.sublist ((List.eraseIdx_sublist _ _).map _)⟩

/-- The schema `s` without the column called `name`, and the position at which it stood. -/
def erase? (s : Schema) (name : String) : Option (Nat × Schema) :=
  (s.indexOf? name).map fun index => (index, s.eraseIdx index)

theorem columnNames_modify (type : ColumnType) :
    ∀ (columns : List Column) (index : Nat),
      columnNames (columns.modify index fun column => { column with type := type }) =
        columnNames columns
  | [], _ => by simp [columnNames]
  | _ :: _, 0 => rfl
  | column :: columns, index + 1 => by
    have ih := columnNames_modify type columns index
    simp only [columnNames, List.modify_succ_cons, List.map_cons] at ih ⊢
    rw [ih]

/-- The schema `s` with another type for the column at position `index`, if there is one. -/
def retype (s : Schema) (index : Nat) (type : ColumnType) : Schema :=
  ⟨s.columns.modify index fun column => { column with type := type },
    (columnNames_modify type s.columns index).symm ▸ s.nodup⟩

/-- The schema `s` with another type for the column at position `index`, which has to exist. -/
def setType? (s : Schema) (index : Nat) (type : ColumnType) : Option Schema :=
  if index < s.width then some (s.retype index type) else none

/-- The columns for whose names `keep` holds. -/
def restrict (s : Schema) (keep : String → Bool) : Schema :=
  ⟨s.columns.filter fun column => keep column.name,
    s.nodup.sublist (List.filter_sublist.map _)⟩

/-- The schema `s` with every column qualified by `table`. -/
def qualified (s : Schema) (table : String) : Except DuplicateColumn Schema :=
  ofColumns (s.columns.map fun column => { column with name := qualify table column.name })

/-- The schema `s` with every qualifier taken off. -/
def unqualified (s : Schema) : Except DuplicateColumn Schema :=
  ofColumns (s.columns.map fun column => { column with name := unqualify column.name })

/-- The columns of `s`, then those of `t`. -/
def concat (s t : Schema) : Except DuplicateColumn Schema := ofColumns (s.columns ++ t.columns)

/-- A row of nulls. -/
def emptyRow (s : Schema) : Row := List.replicate s.width .null

/-- Convert each cell to the type of its column; the leftmost that cannot be converted is
reported. -/
def coerceCells : List Column → Row → Except RowError Row
  | column :: columns, cell :: cells =>
    match column.type.coerce cell with
    | .error cause => .error (.cell column.name cause)
    | .ok cell' => (coerceCells columns cells).map (cell' :: ·)
  | _, _ => .ok []

/-- Convert a row to a row of this schema: one cell a column, each null or of its column's type. -/
def coerce (s : Schema) (row : Row) : Except RowError Row :=
  if row.length = s.width then coerceCells s.columns row
  else .error (.width s.width row.length)

end Schema

end FlatTables
