import FlatTables.Algebra.Join
import FlatTables.Operation.Report

set_option autoImplicit false

/-! # Operators of the algebra as operations

The operators with the places at which they report an error. An operator that goes through rows
reports at the row that it cannot use. A join reports nothing of its own: it is put together from
products, selections and projections, which have reported their errors by then. Union, intersection
and difference cannot fail.

Each gives what the function on tables of the same name gives. -/

namespace FlatTables.Operation

/-! ## Selection -/

/-- The rows for which a condition is true. A row for which it has no value is reported. -/
def selectRows (schema : Schema) (condition : Expression) :
    List Row → Action TableError (List Row)
  | [] => return []
  | row :: rest => do
    let value ← report
      ((condition.eval ⟨schema, row⟩).mapError (.evaluate condition.display))
    let rows ← selectRows schema condition rest
    return if value.isTruthy then row :: rows else rows

def select (t : Table) (condition : Expression) : Action TableError Table := do
  let rows ← selectRows t.schema condition t.rows
  return t.derive ("(" ++ t.name ++ "σ)") t.schema rows

/-! ## Projection -/

/-- The named columns of `t`. The columns that are kept are put together to a schema of their own,
which would report a repeated name. -/
def project (t : Table) (names : List String) : Action TableError Table :=
  match names.find? fun name => !t.schema.names.contains name with
  | some unknown => Action.fail TableError.message (.columnNotFound unknown)
  | none => do
    let keep := fun name => names.contains name
    let kept := t.schema.columns.filter fun column => keep column.name
    let schema ← report ((Schema.ofColumns kept).mapError .columns)
    let rows ← Action.unreported (Table.pickRows keep t.schema.columns t.rows)
    return t.derive ("(" ++ t.name ++ "π)") schema rows

/-! ## Computed columns -/

/-- The cell that an expression gives for a row. -/
def computeCell (schema : Schema) (expression : Expression) (row : Row) :
    Action TableError Cell := do
  let value ← report
    ((expression.eval ⟨schema, row⟩).mapError (.evaluate expression.display))
  match value.toCell? with
  | some cell => return cell
  | none =>
    Action.fail TableError.message (.unsupportedResult expression.display value.typeName)

/-- Rows with a computed cell at their ends, and the type of the new column. -/
def extendRows (schema : Schema) (expression : Expression) :
    Option ColumnType → List Row → Action TableError (Option ColumnType × List Row)
  | type?, [] => return (type?, [])
  | type?, row :: rest => do
    let cell ← computeCell schema expression row
    let type? ← report (Table.joinType expression type? cell)
    let (type?, rows) ← extendRows schema expression type? rest
    return (type?, (row ++ [cell]) :: rows)

def extend (t : Table) (expression : Expression) (name? : Option String) :
    Action TableError Table := do
  let (type?, rows) ← extendRows t.schema expression none t.rows
  let column : Column := ⟨name?.getD expression.display, type?.getD .text⟩
  let schema ← report ((t.schema.push column).mapError .columns)
  return t.derive ("(" ++ t.name ++ "Π)") schema rows

/-! ## Renaming -/

def rename (t : Table) (newName : String) : Action TableError Table := do
  let schema ← report (t.schema.unqualified.mapError .columns)
  return { t with id := TableId.parse newName t.id.database, schema := schema }

/-! ## Tables as sets of rows -/

def union (t other : Table) : Action TableError Table := return t.union other

def intersect (t other : Table) : Action TableError Table := return t.intersect other

def difference (t other : Table) : Action TableError Table := return t.difference other

/-! ## Products and joins -/

def product (t other : Table) : Action TableError Table := do
  let schema ← report ((t.productSchema other).mapError .columns)
  let rows := t.rows.flatMap fun row => other.rows.map fun row' => row ++ row'
  return t.derive ("(" ++ t.name ++ "×" ++ other.name ++ ")") schema rows

/-- The pairs of rows that satisfy a condition. -/
def matchingPairs (t other : Table) (condition : Expression) : Action TableError Table := do
  let pairs ← product t other
  select pairs condition

def join (t other : Table) (condition : Expression) : Action TableError Table := do
  let joined ← matchingPairs t other condition
  return joined.renamed ("(" ++ t.name ++ "⋈" ++ other.name ++ ")")

def leftJoin (t other : Table) (condition : Expression) : Action TableError Table := do
  let joined ← matchingPairs t other condition
  let matched ← project joined t.qualifiedNames
  let rest ← difference t matched
  let unmatched ← product rest (t.padding "⟕" other.schema)
  let all ← union joined unmatched
  return all.renamed ("(" ++ t.name ++ "⟕" ++ other.name ++ ")")

def rightJoin (t other : Table) (condition : Expression) : Action TableError Table := do
  let joined ← matchingPairs t other condition
  let matched ← project joined other.qualifiedNames
  let rest ← difference other matched
  let unmatched ← product (t.padding "⟖" t.schema) rest
  let all ← union joined unmatched
  return all.renamed ("(" ++ t.name ++ "⟖" ++ other.name ++ ")")

end FlatTables.Operation
