import FlatTables.Table.Basic

set_option autoImplicit false

/-! # Reports of operations

An operation reports what it has done, or reports the message of its error before it ends with it.
The operations say themselves where they do so: `report` stands at a place where an error is
reported, and what has no such place ends without a word. -/

namespace FlatTables.Operation

/-- The result of a computation on tables, at a place where its error is reported. A row that ends
too early is a defect of the table, and ends the operation before its error could be reported. -/
def report {α : Type} : Except TableError α → Action TableError α
  | .error (.shortRow column) => Action.throw (.shortRow column)
  | result => Action.ofExcept TableError.message result

/-- An action on files or the catalog as a part of an operation on tables; its error is reported
once more. -/
def stored {α : Type} (x : Action StorageError α) : Action TableError α :=
  x.raise TableError.message .storage

/-- The table `t`, with a report of what was done. -/
def done (level : Level) (message : String) (t : Table) : Action TableError Table := do
  Action.emit level message
  return t

end FlatTables.Operation
