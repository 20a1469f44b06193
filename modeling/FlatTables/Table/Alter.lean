import FlatTables.Table.Basic

set_option autoImplicit false

/-! # Changing columns

Columns are added with the default of their type, dropped, and given another type. A change of type
converts every cell of the column, and fails as a whole if one cannot be converted. -/

namespace FlatTables

/-- The alteration of a name, in any case. -/
def Alteration.ofName (name : String) : Except TableError Alteration :=
  let upper := name.map Char.toUpper
  if upper = "ADD" then .ok add
  else if upper = "DROP" then .ok drop
  else if upper = "MODIFY" then .ok modify
  else .error (.unknownAlteration name)

namespace Table

/-- The table `t` with one more column, which holds the default of its type in every row. -/
def addColumn (t : Table) (name : String) (type : ColumnType) : Except TableError Table := do
  let schema ← (t.schema.push ⟨name, type⟩).mapError .columns
  .ok { t with schema := schema, rows := t.rows.map (· ++ [type.defaultCell]) }

/-- Rows without the cell at a position. -/
def dropCells (column : String) (index : Nat) : List Row → Except TableError (List Row)
  | [] => .ok []
  | row :: rest =>
    if index < row.length then (dropCells column index rest).map (row.eraseIdx index :: ·)
    else .error (.shortRow column)

/-- The table `t` without a column. -/
def dropColumn (t : Table) (name : String) : Except TableError Table :=
  match t.schema.erase? name with
  | none => .error (.columnNotFound name)
  | some (index, schema) => do
    let rows ← dropCells name index t.rows
    .ok { t with schema := schema, rows := rows }

/-- Rows with the cell at a position converted. -/
def convertCells (column : String) (type : ColumnType) (index : Nat) :
    List Row → Except TableError (List Row)
  | [] => .ok []
  | row :: rest =>
    match row[index]? with
    | none => .error (.shortRow column)
    | some cell => do
      let cell ← (type.coerce cell).mapError (.modifyColumn column type)
      let rows ← convertCells column type index rest
      .ok (row.set index cell :: rows)

/-- The table `t` with another type for a column. -/
def modifyColumn (t : Table) (name : String) (type : ColumnType) : Except TableError Table :=
  match t.schema.indexOf? name with
  | none => .error (.columnNotFound name)
  | some index => do
    let rows ← convertCells name type index t.rows
    .ok { t with schema := t.schema.retype index type, rows := rows }

/-- The table `t` after an alteration. Only a drop can do without a type. -/
def alter (t : Table) (alteration : Alteration) (column : String) (type? : Option ColumnType) :
    Except TableError Table :=
  match alteration, type? with
  | .drop, _ => t.dropColumn column
  | alteration, none => .error (.missingType alteration column)
  | .add, some type => t.addColumn column type
  | .modify, some type => t.modifyColumn column type

end Table

end FlatTables
