import FlatTables.Operation

set_option autoImplicit false

/-! # Tables changed in place

A caller holds a table and changes it where it is. An `Editing` is such a computation. It leaves a
table behind whether it ends in a result or in an error, and what it has changed before an error
stays changed. So the operations here look and convert first, and then change the schema and one row
after the other. -/

namespace FlatTables

/-- A computation that changes a table in place. It ends in a result or an error, and leaves a table
and a world behind in both cases. -/
def Editing (α : Type) : Type := Table → World → Except TableError α × Table × World

namespace Editing

variable {α β : Type}

/-- The result, the table and the world after running a change on a table. -/
def run (x : Editing α) (t : Table) (w : World) : Except TableError α × Table × World := x t w

/-- The change that changes nothing. -/
def pure (a : α) : Editing α := fun t w => (.ok a, t, w)

/-- The change that goes on with the result of `x`, and ends with its error. -/
def bind (x : Editing α) (f : α → Editing β) : Editing β := fun t w =>
  match x t w with
  | (.ok a, t', w') => f a t' w'
  | (.error e, t', w') => (.error e, t', w')

instance : Monad Editing where
  pure := pure
  bind := bind

/-! ## Steps of a change -/

/-- The table as it is. -/
def table : Editing Table := fun t w => (.ok t, t, w)

/-- An action that leaves the table as it is. -/
def act (x : Action TableError α) : Editing α := fun t w =>
  let (result, w') := x.run w
  (result, t, w')

/-- Put another schema in place. -/
def setSchema (schema : Schema) : Editing Unit := fun t w =>
  (.ok (), { t with schema := schema }, w)

/-- Put other rows in place. -/
def setRows (rows : List Row) : Editing Unit := fun t w => (.ok (), { t with rows := rows }, w)

/-- Change one row after the other. At a row that cannot be changed this stops; the rows in front of
it are changed by then. -/
def eachRow (f : Row → Except TableError Row) : List Row → Except TableError Unit × List Row
  | [] => (.ok (), [])
  | row :: rest =>
    match f row with
    | .error e => (.error e, row :: rest)
    | .ok row' =>
      let (result, rest') := eachRow f rest
      (result, row' :: rest')

/-- Change every row of the table where it is. A row that ends too early is a defect of the table,
and is not reported. -/
def changeRows (f : Row → Except TableError Row) : Editing Unit := fun t w =>
  let (result, rows) := eachRow f t.rows
  (result, { t with rows := rows }, w)

/-! ## Rows -/

/-- Put one more row at the end. -/
def append (row : Row) : Editing Unit := do
  let t ← table
  let row ← act (Operation.report (t.coerce row))
  setRows (t.rows ++ [row])
  act (Action.emit .debug "Row inserted")

/-- Put another row at a position. -/
def update (index : Nat) (row : Row) : Editing Unit := do
  let t ← table
  act (Operation.report (t.checkIndex index))
  let row ← act (Operation.report (t.coerce row))
  setRows (t.rows.set index row)
  act (Action.emit .debug "Row updated")

/-- Take out the row at a position, which is the result. -/
def delete (index : Nat) : Editing Row := do
  let t ← table
  act (Operation.report (t.checkIndex index))
  setRows (t.rows.eraseIdx index)
  act (Action.emit .debug "Row deleted")
  return t.rows[index]?.getD []

/-! ## Columns -/

/-- Add a column, which holds the default of its type in every row. -/
def addColumn (name : String) (type : ColumnType) : Editing Unit := do
  let t ← table
  let schema ← act (Operation.report ((t.schema.push ⟨name, type⟩).mapError .columns))
  setSchema schema
  changeRows fun row => .ok (row ++ [type.defaultCell])
  act (Action.emit .info ("added column " ++ name ++ " " ++ type.name ++ " to " ++ t.id.fullName))

/-- The row without the cell at a position. -/
def dropCell (column : String) (index : Nat) (row : Row) : Except TableError Row :=
  if index < row.length then .ok (row.eraseIdx index) else .error (.shortRow column)

/-- Drop a column. -/
def dropColumn (name : String) : Editing Unit := do
  let t ← table
  match t.schema.erase? name with
  | none => act (Action.fail TableError.message (.columnNotFound name))
  | some (index, schema) =>
    setSchema schema
    changeRows (dropCell name index)
    act (Action.emit .info ("dropped column " ++ name ++ " from " ++ t.id.fullName))

/-- The cells of a column, each converted to a type. -/
def convertedCells (column : String) (type : ColumnType) (index : Nat) :
    List Row → Except TableError (List Cell)
  | [] => .ok []
  | row :: rest =>
    match row[index]? with
    | none => .error (.shortRow column)
    | some cell => do
      let cell ← (type.coerce cell).mapError (.modifyColumn column type)
      let cells ← convertedCells column type index rest
      .ok (cell :: cells)

/-- The rows with other cells at a position, one for each row. -/
def replaceCells (index : Nat) : List Row → List Cell → List Row
  | row :: rows, cell :: cells => row.set index cell :: replaceCells index rows cells
  | rows, _ => rows

/-- Give a column another type. All of its cells are converted before the first one is replaced. -/
def modifyColumn (name : String) (type : ColumnType) : Editing Unit := do
  let t ← table
  match t.schema.indexOf? name with
  | none => act (Action.fail TableError.message (.columnNotFound name))
  | some index =>
    let cells ← act (Operation.report (convertedCells name type index t.rows))
    setRows (replaceCells index t.rows cells)
    setSchema (t.schema.retype index type)
    act (Action.emit .info
      ("changed column " ++ name ++ " of " ++ t.id.fullName ++ " to " ++ type.name))

/-- Change a column. Only a drop can do without a type. -/
def alter (alteration : Alteration) (column : String) (type? : Option ColumnType) : Editing Unit :=
  match alteration, type? with
  | .drop, _ => dropColumn column
  | alteration, none => act (Action.fail TableError.message (.missingType alteration column))
  | .add, some type => addColumn column type
  | .modify, some type => modifyColumn column type

/-! ## Cleaning -/

/-- Remove every row, and then empty the data file of the table, if it belongs to a store. -/
def clean : Editing Unit := do
  let t ← table
  setRows []
  act (Operation.cleanFile t)
  act (Action.emit .info ("cleaned table " ++ t.id.fullName))

end Editing

end FlatTables
