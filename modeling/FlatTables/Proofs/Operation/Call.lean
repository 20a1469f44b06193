import FlatTables.Operation

set_option autoImplicit false

/-! # Calls on tables

The operations that a caller can apply to tables it holds, as data: an `Edit` changes a table in
place, a `Query` makes a new table out of one, and a `Combination` makes a new table out of two. A
`TableCall` is one of these, or makes, saves or drops a table. Statements about every sequence of
operations range over these. -/

namespace FlatTables

/-! ## Changes in place -/

/-- A change to a table. -/
inductive Edit
  | append (row : Row)
  | update (index : Nat) (row : Row)
  | delete (index : Nat)
  | addColumn (name : String) (type : ColumnType)
  | dropColumn (name : String)
  | modifyColumn (name : String) (type : ColumnType)
  | alter (alteration : Alteration) (column : String) (type? : Option ColumnType)
  | clean
  deriving DecidableEq

namespace Edit

/-- The operation of a change, with the changed table as its result. -/
def action (t : Table) : Edit → Action TableError Table
  | append row => Operation.append t row
  | update index row => Operation.update t index row
  | delete index => Operation.delete t index
  | addColumn name type => Operation.addColumn t name type
  | dropColumn name => Operation.dropColumn t name
  | modifyColumn name type => Operation.modifyColumn t name type
  | alter alteration column type? => Operation.alter t alteration column type?
  | clean => do
    (Operation.clean t).2
    return (Operation.clean t).1

/-- The table that a caller is left with when a change fails. Only cleaning has done something to
it by then. -/
def fallback (t : Table) : Edit → Table
  | clean => (Operation.clean t).1
  | _ => t

/-- The table that a caller is left with after a change, whether it succeeds or fails. -/
def outcome (edit : Edit) (t : Table) (w : World) : Table :=
  match ((edit.action t).run w).1 with
  | .ok t' => t'
  | .error _ => edit.fallback t

end Edit

/-! ## New tables -/

/-- A way to make a table out of another. -/
inductive Query
  | select (condition : Expression)
  | project (names : List String)
  | extend (expression : Expression) (name? : Option String)
  | rename (newName : String)

def Query.action (t : Table) : Query → Action TableError Table
  | select condition => Operation.select t condition
  | project names => Operation.project t names
  | extend expression name? => Operation.extend t expression name?
  | rename newName => Operation.rename t newName

/-- A way to make a table out of two others. -/
inductive Combination
  | union
  | intersect
  | difference
  | product
  | join (condition : Expression)
  | leftJoin (condition : Expression)
  | rightJoin (condition : Expression)

def Combination.action (t other : Table) : Combination → Action TableError Table
  | union => Operation.union t other
  | intersect => Operation.intersect t other
  | difference => Operation.difference t other
  | product => Operation.product t other
  | join condition => Operation.join t other condition
  | leftJoin condition => Operation.leftJoin t other condition
  | rightJoin condition => Operation.rightJoin t other condition

/-! ## Whatever a caller can do -/

/-- A call that a caller with a store can make, on tables that it holds. -/
inductive TableCall
  | temporary (id : String) (schema : Schema) (rows : List Row)
  | create (id : String) (schema? : Option Schema) (rows? : Option (List Row))
  | edit (t : Table) (edit : Edit)
  | query (t : Table) (query : Query)
  | combine (t other : Table) (combination : Combination)
  | save (t : Table)
  | drop (t : Table)

/-- The action of a call, without the table that it gives. -/
def TableCall.action (s : Store) : TableCall → Action TableError Unit
  | temporary id schema rows => do let _ ← Operation.temporary id schema rows
  | create id schema? rows? => do let _ ← Operation.create s id schema? rows?
  | edit t e => do let _ ← e.action t
  | query t q => do let _ ← q.action t
  | combine t other c => do let _ ← c.action t other
  | save t => Operation.save t
  | drop t => Operation.drop t

end FlatTables
