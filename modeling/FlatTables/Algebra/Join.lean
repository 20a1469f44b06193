import FlatTables.Algebra.SetOperation

set_option autoImplicit false

/-! # Products and joins

A product pairs every row of one table with every row of another, under columns qualified by the
names of the tables. A join selects from a product, and an outer join also keeps the rows of one
side that found no partner, with nulls in place of the other side. -/

namespace FlatTables.Table

/-- The table `t` under another name in the same database. -/
def renamed (t : Table) (name : String) : Table := { t with id := { t.id with name := name } }

/-- The columns of a product: those of `t` and then those of `other`, qualified. -/
def productSchema (t other : Table) : Except DuplicateColumn Schema := do
  let left ← t.schema.qualified t.name
  let right ← other.schema.qualified other.name
  left.concat right

/-- Every row of `t` before every row of `other`. -/
def product (t other : Table) : Except TableError Table := do
  let schema ← (t.productSchema other).mapError .columns
  let rows := t.rows.flatMap fun row => other.rows.map fun row' => row ++ row'
  .ok (t.derive ("(" ++ t.name ++ "×" ++ other.name ++ ")") schema rows)

/-- The pairs of rows that satisfy a condition. -/
def matchingPairs (t other : Table) (condition : Expression) : Except TableError Table := do
  let pairs ← t.product other
  pairs.select condition

/-- The join of two tables on a condition. -/
def join (t other : Table) (condition : Expression) : Except TableError Table := do
  let joined ← t.matchingPairs other condition
  .ok (joined.renamed ("(" ++ t.name ++ "⋈" ++ other.name ++ ")"))

/-- The names that the columns of `t` have in a product. -/
def qualifiedNames (t : Table) : List String := t.schema.names.map (qualify t.name)

/-- A table of one row of nulls in the database of `t`. -/
def padding (t : Table) (name : String) (schema : Schema) : Table :=
  t.derive name schema [schema.emptyRow]

/-- The join, and the rows of `t` that found no partner, followed by nulls. -/
def leftJoin (t other : Table) (condition : Expression) : Except TableError Table := do
  let joined ← t.matchingPairs other condition
  let matched ← joined.project t.qualifiedNames
  let unmatched ← (t.difference matched).product (t.padding "⟕" other.schema)
  .ok ((joined.union unmatched).renamed ("(" ++ t.name ++ "⟕" ++ other.name ++ ")"))

/-- The join, and the rows of `other` that found no partner, preceded by nulls. -/
def rightJoin (t other : Table) (condition : Expression) : Except TableError Table := do
  let joined ← t.matchingPairs other condition
  let matched ← joined.project other.qualifiedNames
  let unmatched ← (t.padding "⟖" t.schema).product (other.difference matched)
  .ok ((joined.union unmatched).renamed ("(" ++ t.name ++ "⟖" ++ other.name ++ ")"))

end FlatTables.Table
