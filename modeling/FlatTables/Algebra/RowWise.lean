import FlatTables.Table.Basic

set_option autoImplicit false

/-! # Selection, projection and computed columns

Operators that look at one row after the other. The result of an operator is a table in the database
and the store of its operand, called after the operation. -/

namespace FlatTables.Table

/-- A table called `name` with the given schema and rows, in the database and the store of `t`. -/
def derive (t : Table) (name : String) (schema : Schema) (rows : List Row) : Table :=
  ⟨⟨t.id.database, name⟩, schema, rows, t.store⟩

/-! ## Selection -/

/-- The rows for which a condition is true, if it has a value for all of them. -/
def selectRows (schema : Schema) (condition : Expression) :
    List Row → Except EvalError (List Row)
  | [] => .ok []
  | row :: rest => do
    let value ← condition.eval ⟨schema, row⟩
    let rows ← selectRows schema condition rest
    .ok (if value.isTruthy then row :: rows else rows)

/-- The rows of `t` that satisfy a condition. -/
def select (t : Table) (condition : Expression) : Except TableError Table := do
  let rows ← (selectRows t.schema condition t.rows).mapError (.evaluate condition.display)
  .ok (t.derive ("(" ++ t.name ++ "σ)") t.schema rows)

/-! ## Projection -/

/-- The cells of the columns for whose names `keep` holds. Cells beyond the last column are left
out. -/
def pickCells (keep : String → Bool) : List Column → Row → Except TableError Row
  | [], _ => .ok []
  | column :: columns, [] =>
    if keep column.name then .error (.shortRow column.name) else pickCells keep columns []
  | column :: columns, cell :: cells =>
    if keep column.name then (pickCells keep columns cells).map (cell :: ·)
    else pickCells keep columns cells

/-- The picked cells of every row. -/
def pickRows (keep : String → Bool) (columns : List Column) :
    List Row → Except TableError (List Row)
  | [] => .ok []
  | row :: rest => do
    let cells ← pickCells keep columns row
    let rows ← pickRows keep columns rest
    .ok (cells :: rows)

/-- The named columns of `t`, in the order in which `t` has them. -/
def project (t : Table) (names : List String) : Except TableError Table :=
  match names.find? fun name => !t.schema.names.contains name with
  | some unknown => .error (.columnNotFound unknown)
  | none => do
    let keep := fun name => names.contains name
    let rows ← pickRows keep t.schema.columns t.rows
    .ok (t.derive ("(" ++ t.name ++ "π)") (t.schema.restrict keep) rows)

/-! ## Computed columns -/

/-- The cell that an expression gives for a row. -/
def computeCell (schema : Schema) (expression : Expression) (row : Row) :
    Except TableError Cell := do
  let value ← (expression.eval ⟨schema, row⟩).mapError (.evaluate expression.display)
  match value.toCell? with
  | some cell => .ok cell
  | none => .error (.unsupportedResult expression.display value.typeName)

/-- The type of a column with one more cell: every cell that is not null has the type of the
first such cell. -/
def joinType (expression : Expression) (type? : Option ColumnType) (cell : Cell) :
    Except TableError (Option ColumnType) :=
  match type?, cell.type? with
  | type?, none => .ok type?
  | none, some found => .ok (some found)
  | some expected, some found =>
    if expected = found then .ok (some expected)
    else .error (.resultType expression.display expected found)

/-- Rows with a computed cell at their ends, and the type of the new column, where `type?` is what
earlier rows gave. -/
def extendRows (schema : Schema) (expression : Expression) :
    Option ColumnType → List Row → Except TableError (Option ColumnType × List Row)
  | type?, [] => .ok (type?, [])
  | type?, row :: rest => do
    let cell ← computeCell schema expression row
    let type? ← joinType expression type? cell
    let (type?, rows) ← extendRows schema expression type? rest
    .ok (type?, (row ++ [cell]) :: rows)

/-- The table `t` with a computed column, called `name?` or else after the expression. A column in
which every cell is null is a text column. -/
def extend (t : Table) (expression : Expression) (name? : Option String) :
    Except TableError Table := do
  let (type?, rows) ← extendRows t.schema expression none t.rows
  let column : Column := ⟨name?.getD expression.display, type?.getD .text⟩
  let schema ← (t.schema.push column).mapError .columns
  .ok (t.derive ("(" ++ t.name ++ "Π)") schema rows)

/-! ## Renaming -/

/-- The rows of `t` under another name, with qualifiers taken off its columns. A name without a
database stays in the database of `t`. -/
def rename (t : Table) (newName : String) : Except TableError Table := do
  let schema ← t.schema.unqualified.mapError .columns
  .ok { t with id := TableId.parse newName t.id.database, schema := schema }

end FlatTables.Table
