import FlatTables.Expression.Eval
import FlatTables.Storage.Error

set_option autoImplicit false

/-! # What can go wrong with tables -/

namespace FlatTables

/-- A change to the columns of a table. -/
inductive Alteration
  | add
  | drop
  | modify
  deriving DecidableEq, Repr

def Alteration.name : Alteration → String
  | add => "ADD"
  | drop => "DROP"
  | modify => "MODIFY"

/-- What only a table with a store can do. -/
inductive StoredAction
  | save
  | drop
  deriving DecidableEq, Repr

def StoredAction.name : StoredAction → String
  | save => "save"
  | drop => "drop"

/-- What a saved table consists of. -/
inductive SavedPart
  | dataFile
  | catalogEntry
  deriving DecidableEq, Repr

def SavedPart.name : SavedPart → String
  | dataFile => "data file"
  | catalogEntry => "catalog entry"

/-- Why an operation on a table failed. -/
inductive TableError
  | missingSchema (id : TableId)
  /-- The table has no store. -/
  | temporary (id : TableId) (action : StoredAction)
  | dropMissing (id : TableId) (part : SavedPart)
  | columnNotFound (column : String)
  | missingType (alteration : Alteration) (column : String)
  | unknownAlteration (name : String)
  | modifyColumn (column : String) (type : ColumnType) (cause : ConversionError)
  | columns (cause : DuplicateColumn)
  | invalidRow (id : TableId) (cause : RowError)
  | rowIndex (index length : Nat)
  | evaluate (expression : String) (cause : EvalError)
  | unsupportedResult (expression typeName : String)
  | resultType (expression : String) (expected found : ColumnType)
  | storage (cause : StorageError)
  /-- A row ends before the column that is asked for. This happens only to the union of tables of
  different widths. -/
  | shortRow (column : String)
  deriving DecidableEq

def TableError.message : TableError → String
  | missingSchema id => "table " ++ id.fullName ++ " does not exist and no columns were given"
  | temporary id action => "cannot " ++ action.name ++ " temporary table " ++ id.fullName
  | dropMissing id part =>
    "cannot drop table " ++ id.fullName ++ ": its " ++ part.name ++ " does not exist"
  | columnNotFound column => "column " ++ Text.quoted column ++ " not found"
  | missingType alteration column =>
    "a data type is required to " ++ alteration.name ++ " column " ++ Text.quoted column
  | unknownAlteration name => "unknown alteration " ++ Text.quoted name
  | modifyColumn column type cause =>
    "cannot change column " ++ Text.quoted column ++ " to " ++ type.name ++ ": " ++ cause.message
  | columns cause => "invalid columns: " ++ cause.message
  | invalidRow id cause => "invalid row for table " ++ id.fullName ++ ": " ++ cause.message
  | rowIndex index length =>
    "row " ++ index.repr ++ " out of range, table has " ++ length.repr ++ " rows"
  | evaluate expression cause => "cannot evaluate " ++ expression ++ ": " ++ cause.message
  | unsupportedResult expression typeName =>
    expression ++ " yields a " ++ typeName ++ " value, which no column can hold"
  | resultType expression expected found =>
    expression ++ " yields " ++ found.name ++ " after " ++ expected.name ++ " values"
  | storage cause => cause.message
  | shortRow column => "a row has no cell for column " ++ Text.quoted column

/-- The families of errors that a caller may want to tell apart. -/
inductive ErrorFamily
  /-- A missing table or schema, or an operation that a temporary table cannot perform. -/
  | table
  /-- Unknown, repeated or unconvertible columns. -/
  | column
  /-- Rows that do not fit, and failed evaluations. -/
  | data
  /-- Files and the catalog. -/
  | storage
  deriving DecidableEq, Repr

def ErrorFamily.name : ErrorFamily → String
  | table => "Table"
  | column => "Column"
  | data => "Data"
  | storage => "Storage"

def TableError.family : TableError → ErrorFamily
  | missingSchema _ | temporary _ _ | dropMissing _ _ => .table
  | columnNotFound _ | missingType _ _ | unknownAlteration _ | modifyColumn _ _ _ | columns _ =>
    .column
  | invalidRow _ _ | rowIndex _ _ | evaluate _ _ | unsupportedResult _ _ | resultType _ _ _
  | shortRow _ => .data
  | storage (.tableNotFound _) => .table
  | storage (.fieldCount _ _ _ _) | storage (.field _ _ _) => .data
  | storage _ => .storage

end FlatTables
