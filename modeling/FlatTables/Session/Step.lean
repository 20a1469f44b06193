import FlatTables.CommandLine.Run
import FlatTables.Expression.Document

set_option autoImplicit false

/-! # Steps of a session

A session is a list of steps that work on stores and tables by the names under which earlier steps
have left them. A `Step` holds what a caller wrote down, so columns and expressions are still to be
read; an `Answer` holds what came of it. -/

namespace FlatTables

/-! ## Steps -/

/-- Names of columns with names of types. -/
abbrev ColumnSpec := List (String × String)

/-- An operator on two tables that needs nothing else. -/
inductive SetOperator
  | union
  | intersect
  | difference
  | product
  deriving DecidableEq, Repr

inductive JoinKind
  | inner
  | left
  | right
  deriving DecidableEq, Repr

/-- A step on files, outside of any store. -/
inductive FileStep
  | write (path : Path) (content : List UInt8)
  | read (path : Path)
  | makeDirectory (path : Path)
  | delete (path : Path)
  | deleteDirectory (path : Path)
  | list
  | readRows (path : Path) (columns : ColumnSpec)
  | writeRows (path : Path) (rows : List Row)
  | truncate (path : Path)
  | remove (path : Path)

/-- A step on a store. -/
inductive StoreStep
  | database (name : String)
  | resolve (id : String)
  | ids
  | get (id : String)
  | contains (id : String)
  | set (id : String) (columns : ColumnSpec)
  | delete (id : String)
  | describe (id : String)
  | clean (id : String)
  | drop (id : String)
  | alter (id alteration column : String) (type? : Option String)

/-- A step that changes a table in place. -/
inductive EditStep
  | append (row : Row)
  | update (index : Nat) (row : Row)
  | delete (index : Nat)
  | alter (alteration column : String) (type? : Option String)
  | addColumn (column type : String)
  | dropColumn (column : String)
  | modifyColumn (column type : String)
  | clean

/-- A step that makes a table. -/
inductive MakeStep
  | temporary (id : String) (columns : ColumnSpec) (rows : List Row)
  | create (store id : String) (columns? : Option ColumnSpec) (rows? : Option (List Row))
  | load (store id : String)
  | combine (operator : SetOperator) (table other : String)
  | join (kind : JoinKind) (table other : String) (condition : Json)
  | select (table : String) (condition : Json)
  | extend (table : String) (expression : Json) (name? : Option String)
  | project (table : String) (names : List String)
  | rename (table newName : String)

/-- A step of a session. -/
inductive Step
  | file (step : FileStep)
  | openStore (handle : String) (config : Config)
  | init (handle : String) (config : Config)
  | store (handle : String) (step : StoreStep)
  | make (handle : String) (step : MakeStep)
  | edit (table : String) (step : EditStep)
  | read (table : String) (index : Nat)
  | inspect (table : String)
  | save (table : String)
  | drop (table : String)
  | sameRows (table other : String)
  /-- Run the program on a command line, in an environment. -/
  | program (args : List String) (environment : List (String × String))

/-! ## Answers -/

/-- What a step that succeeded has to show. -/
inductive Answer
  | nothing
  | text (value : String)
  | texts (values : List String)
  | flag (value : Bool)
  | store (store : Store) (ids : List String)
  | database (name : String) (location tablePath : Path)
  | resolved (id : TableId) (path : Path)
  | definition (definition : TableDefinition)
  | rows (rows : List Row)
  | row (row : Row)
  | table (table : Table)
  /-- A table with everything that can be asked of it. -/
  | inspection (table : Table)
  | record (record : Record)
  | output (output : CommandLine.Output)

/-- Why a step failed. -/
inductive StepError
  /-- There is no store or table under the name given. -/
  | noHandle
  | unknownType (cause : UnknownType)
  | duplicateColumn (cause : DuplicateColumn)
  | expression (cause : BuildError)
  | storage (cause : StorageError)
  | table (cause : TableError)
  | command (cause : CommandError)
  deriving DecidableEq

namespace ColumnSpec

/-- The columns of a specification; the first unknown type is reported. -/
def columns : ColumnSpec → Except UnknownType (List Column)
  | [] => .ok []
  | (name, typeName) :: rest => do
    let type ← ColumnType.ofName typeName
    let columns ← columns rest
    .ok (⟨name, type⟩ :: columns)

/-- The schema of a specification. -/
def schema (spec : ColumnSpec) : Except StepError Schema := do
  let columns ← spec.columns.mapError .unknownType
  (Schema.ofColumns columns).mapError .duplicateColumn

end ColumnSpec

end FlatTables
