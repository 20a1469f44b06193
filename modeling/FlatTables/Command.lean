import FlatTables.Json.Printer
import FlatTables.Operation

set_option autoImplicit false

/-! # Commands

What the command line offers: make a store ready, and describe, empty, drop or alter a saved
table. -/

namespace FlatTables

/-- Why a command failed. -/
inductive CommandError
  | storage (cause : StorageError)
  | table (cause : TableError)
  | columnType (cause : UnknownType)
  deriving DecidableEq

def CommandError.message : CommandError → String
  | storage cause => "Failed to open the data directory, source: " ++ cause.message
  | table cause => cause.message
  | columnType cause => "Invalid column type, source: " ++ cause.message

namespace Command

/-- Open a store, and make the directories of its data and its default database. -/
def init (config : Config) : Action CommandError Store := do
  let store ← (Store.load config).mapError .storage
  let _ ← (store.database config.defaultDatabase).mapError .storage
  Action.emit .info ("initialized " ++ config.dataDir.text ++ " with database " ++
    config.defaultDatabase)
  return store

/-- The entry under which a table is saved, as a document. -/
def describe (store : Store) (id : String) : Action CommandError String := do
  let t ← (Operation.load store id).mapError .table
  return t.definition.toJson.pretty

/-- Remove every row of a saved table. -/
def clean (store : Store) (id : String) : Action CommandError Unit := do
  let t ← (Operation.load store id).mapError .table
  (Operation.clean t).2.mapError .table

/-- Remove a saved table. -/
def drop (store : Store) (id : String) : Action CommandError Unit := do
  let t ← (Operation.load store id).mapError .table
  (Operation.drop t).mapError .table

/-- The type of a name, if a name is given. -/
def columnType? : Option String → Action CommandError (Option ColumnType)
  | none => return none
  | some name => do
    let type ← Action.ofExcept CommandError.message
      ((ColumnType.ofName name).mapError .columnType)
    return some type

/-- Change a column of a saved table, and save it. -/
def alter (store : Store) (id alteration column : String) (type? : Option String) :
    Action CommandError Unit := do
  let alteration ← (Operation.alteration alteration).mapError .table
  let type? ← columnType? type?
  let t ← (Operation.load store id).mapError .table
  let t' ← (Operation.alter t alteration column type?).mapError .table
  (Operation.save t').mapError .table

end Command

end FlatTables
