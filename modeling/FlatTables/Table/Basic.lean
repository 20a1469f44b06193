import FlatTables.Store
import FlatTables.Table.Error

set_option autoImplicit false

/-! # Tables

A `Table` is a list of rows under a schema. A table that belongs to a store can be saved there; a
temporary one cannot. The functions here change rows and columns in memory: they give the changed
table, or an error and no table at all. -/

namespace FlatTables

/-- An ordered list of rows under a schema. -/
structure Table where
  id : TableId
  schema : Schema
  rows : List Row
  /-- The store in which the table can be saved. -/
  store : Option Store
  deriving DecidableEq

/-- The database that temporary tables belong to unless their identifier names one. -/
def temporaryDatabase : String := "temp"

namespace Table

/-- Convert rows for the table `id` with the given schema. -/
def coerceRows (id : TableId) (schema : Schema) : List Row → Except TableError (List Row)
  | [] => .ok []
  | row :: rest => do
    let row ← (schema.coerce row).mapError (.invalidRow id)
    let rows ← coerceRows id schema rest
    .ok (row :: rows)

/-- A table without a store. -/
def temporary (id : String) (schema : Schema) (rows : List Row) : Except TableError Table := do
  let id := TableId.parse id temporaryDatabase
  let rows ← coerceRows id schema rows
  .ok ⟨id, schema, rows, none⟩

/-! ## Looking -/

def name (t : Table) : String := t.id.name

def length (t : Table) : Nat := t.rows.length

def isTemporary (t : Table) : Bool := t.store.isNone

/-- The data file of a table that belongs to a store. -/
def location? (t : Table) : Option Path := t.store.map (·.config.tablePath t.id)

/-- The entry under which the table is saved. -/
def definition (t : Table) : TableDefinition := ⟨t.id.fullName, t.schema⟩

/-- Whether two tables hold equal rows in the same order. -/
def sameRows : List Row → List Row → Bool
  | [], [] => true
  | a :: as, b :: bs => Row.same a b && sameRows as bs
  | _, _ => false

/-! ## Rows -/

/-- Convert a row to a row of the table. -/
def coerce (t : Table) (row : Row) : Except TableError Row :=
  (t.schema.coerce row).mapError (.invalidRow t.id)

/-- Refuse a position at which there is no row. -/
def checkIndex (t : Table) (index : Nat) : Except TableError Unit :=
  if index < t.length then .ok () else .error (.rowIndex index t.length)

/-- The table `t` with one more row at the end. -/
def append (t : Table) (row : Row) : Except TableError Table := do
  let row ← t.coerce row
  .ok { t with rows := t.rows ++ [row] }

/-- The table `t` with another row at a position. -/
def update (t : Table) (index : Nat) (row : Row) : Except TableError Table := do
  t.checkIndex index
  let row ← t.coerce row
  .ok { t with rows := t.rows.set index row }

/-- The table `t` without the row at a position. -/
def delete (t : Table) (index : Nat) : Except TableError Table := do
  t.checkIndex index
  .ok { t with rows := t.rows.eraseIdx index }

/-- The table `t` without rows. -/
def cleared (t : Table) : Table := { t with rows := [] }

end Table

/-! ## Records -/

/-- A row read back with the names of its columns. -/
structure Record where
  fields : List (String × Cell)
  deriving DecidableEq

namespace Record

/-- The cell of the column called `column`. -/
def get? (r : Record) (column : String) : Option Cell := r.fields.lookup column

/-- Whether every cell is null. -/
def isEmpty (r : Record) : Bool := r.fields.all fun field => field.2.isNull

/-- The text of a record. -/
def display (r : Record) : String :=
  let texts := r.fields.map fun (name, cell) => name ++ ": " ++ cell.display
  "\x7b" ++ ", ".intercalate texts ++ "\x7d"

end Record

/-- The row at a position with its names; past the last row every cell is null. -/
def Table.record (t : Table) (index : Nat) : Record :=
  ⟨t.schema.names.zip (t.rows[index]?.getD t.schema.emptyRow)⟩

end FlatTables
