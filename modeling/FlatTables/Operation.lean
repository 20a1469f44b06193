import FlatTables.Operation.Algebra
import FlatTables.Table.Alter

set_option autoImplicit false

/-! # Operations on tables

What a caller can do with tables in a world. Each operation reports what it has done, or reports the
message of its error before it ends with it. An operation that changes rows or columns gives the
changed table; the one it was called on is still there when it fails. -/

namespace FlatTables.Operation

/-! ## Making tables -/

/-- A temporary table. -/
def temporary (id : String) (schema : Schema) (rows : List Row) : Action TableError Table := do
  let id := TableId.parse id temporaryDatabase
  let rows ← report (Table.coerceRows id schema rows)
  return ⟨id, schema, rows, none⟩

/-- The schema and the rows of a table whose data file exists. The columns come from the catalog,
and so do the rows from the file unless others are given. -/
def loadSaved (store : Store) (id : TableId) (path : Path) (rows? : Option (List Row)) :
    Action TableError (Schema × List Row) := do
  let schema ← (store.columns id).mapError .storage
  match rows? with
  | some rows => return (schema, rows)
  | none =>
    let rows ← stored (DataFile.readRows path schema)
    return (schema, rows)

/-- The schema and the rows of a table that has no data file. -/
def startNew (id : TableId) (schema? : Option Schema) (rows? : Option (List Row)) :
    Action TableError (Schema × List Row) :=
  match schema? with
  | none => Action.fail TableError.message (.missingSchema id)
  | some schema => return (schema, rows?.getD [])

/-- A table that belongs to a store. If its data file exists, its columns are those of the catalog;
otherwise they have to be given. Given rows take the place of those in the file. -/
def create (store : Store) (id : String) (schema? : Option Schema) (rows? : Option (List Row)) :
    Action TableError Table := do
  let id := store.config.resolve id
  let location ← stored (store.database id.database)
  let path := location.join (Config.dataFileName id.name)
  let w ← Action.world
  let (schema, rows) ←
    if w.files.contains path then loadSaved store id path rows?
    else startNew id schema? rows?
  let rows ← report (Table.coerceRows id schema rows)
  done .debug ("create:table:" ++ id.fullName ++ " (" ++ rows.length.repr ++ " rows)")
    ⟨id, schema, rows, some store⟩

/-- A saved table. -/
def load (store : Store) (id : String) : Action TableError Table := create store id none none

/-! ## Rows -/

def append (t : Table) (row : Row) : Action TableError Table := do
  let row ← report (t.coerce row)
  done .debug "Row inserted" { t with rows := t.rows ++ [row] }

def update (t : Table) (index : Nat) (row : Row) : Action TableError Table := do
  report (t.checkIndex index)
  let row ← report (t.coerce row)
  done .debug "Row updated" { t with rows := t.rows.set index row }

def delete (t : Table) (index : Nat) : Action TableError Table := do
  report (t.checkIndex index)
  done .debug "Row deleted" { t with rows := t.rows.eraseIdx index }

/-! ## Columns -/

def addColumn (t : Table) (name : String) (type : ColumnType) : Action TableError Table := do
  let schema ← report ((t.schema.push ⟨name, type⟩).mapError .columns)
  done .info ("added column " ++ name ++ " " ++ type.name ++ " to " ++ t.id.fullName)
    { t with schema := schema, rows := t.rows.map (· ++ [type.defaultCell]) }

def dropColumn (t : Table) (name : String) : Action TableError Table :=
  match t.schema.erase? name with
  | none => Action.fail TableError.message (.columnNotFound name)
  | some (index, schema) => do
    let rows ← Action.unreported (Table.dropCells name index t.rows)
    done .info ("dropped column " ++ name ++ " from " ++ t.id.fullName)
      { t with schema := schema, rows := rows }

def modifyColumn (t : Table) (name : String) (type : ColumnType) : Action TableError Table :=
  match t.schema.indexOf? name with
  | none => Action.fail TableError.message (.columnNotFound name)
  | some index => do
    let rows ← report (Table.convertCells name type index t.rows)
    done .info ("changed column " ++ name ++ " of " ++ t.id.fullName ++ " to " ++ type.name)
      { t with schema := t.schema.retype index type, rows := rows }

/-- The alteration of a name. -/
def alteration (name : String) : Action TableError Alteration := report (Alteration.ofName name)

/-- Change a column. Only a drop can do without a type. -/
def alter (t : Table) (alteration : Alteration) (column : String) (type? : Option ColumnType) :
    Action TableError Table :=
  match alteration, type? with
  | .drop, _ => dropColumn t column
  | alteration, none => Action.fail TableError.message (.missingType alteration column)
  | .add, some type => addColumn t column type
  | .modify, some type => modifyColumn t column type

/-! ## Saving and removing -/

/-- The store of a table, which it needs for an action. -/
def storeFor (t : Table) (action : StoredAction) : Action TableError Store :=
  match t.store with
  | some store => return store
  | none => Action.fail TableError.message (.temporary t.id action)

/-- Write the data file of a table, and then enter its columns into the catalog. -/
def save (t : Table) : Action TableError Unit := do
  let store ← storeFor t .save
  let location ← stored (store.database t.id.database)
  stored (DataFile.writeRows (location.join (Config.dataFileName t.id.name)) t.rows)
  stored (store.register t.id t.schema)
  Action.emit .info ("saved table " ++ t.id.fullName ++ " (" ++ t.length.repr ++ " rows)")

/-- The part that a table to be dropped is missing, if any. -/
def missingPart? (store : Store) (id : TableId) (w : World) : Option SavedPart :=
  if !w.files.contains (store.config.tablePath id) then some .dataFile
  else if !(store.catalogIn w).contains id then some .catalogEntry
  else none

/-- Remove the data file and the catalog entry of a table, if both exist. -/
def drop (t : Table) : Action TableError Unit := do
  let store ← storeFor t .drop
  let w ← Action.world
  match missingPart? store t.id w with
  | some part => Action.fail TableError.message (.dropMissing t.id part)
  | none =>
    stored (DataFile.remove (store.config.tablePath t.id))
    let _ ← stored (store.unregister t.id)
    Action.emit .info ("dropped table " ++ t.id.fullName)

/-- Empty the data file of a table, if it belongs to a store. -/
def cleanFile (t : Table) : Action TableError Unit :=
  match t.store with
  | none => return ()
  | some store => stored do
    let location ← store.database t.id.database
    DataFile.truncate (location.join (Config.dataFileName t.id.name))

/-- The table without its rows, and the action that removes them from its store too. The rows are
gone from the table even if that action fails. -/
def clean (t : Table) : Table × Action TableError Unit :=
  (t.cleared, do
    cleanFile t
    Action.emit .info ("cleaned table " ++ t.id.fullName))

end FlatTables.Operation
