import Std.Data.HashSet
import FlatTables.Algebra.RowWise

set_option autoImplicit false

/-! # Union, intersection and difference

Tables as sets of rows. Rows are compared cell by cell, whatever the columns are called, and a set
of canonical rows answers whether a row occurs. The result has the schema of the left table. -/

namespace FlatTables.Table

/-- The rows that equal neither an earlier row nor one in `seen`, which holds canonical rows. -/
def firstOccurrences (seen : Std.HashSet Row) : List Row → List Row
  | [] => []
  | row :: rest =>
    let key := Row.canonical row
    if seen.contains key then firstOccurrences seen rest
    else row :: firstOccurrences (seen.insert key) rest

/-- The canonical rows of a list. -/
def rowSet (rows : List Row) : Std.HashSet Row := Std.HashSet.ofList (rows.map Row.canonical)

/-- The rows of `t`, then those of `other`, each only where it occurs first. -/
def union (t other : Table) : Table :=
  t.derive ("(" ++ t.name ++ "∪" ++ other.name ++ ")") t.schema
    (firstOccurrences ∅ (t.rows ++ other.rows))

/-- The rows of `t` that occur in `other` (`present`), or that do not. -/
def matching (t other : Table) (present : Bool) : List Row :=
  let lookup := rowSet other.rows
  t.rows.filter fun row => lookup.contains (Row.canonical row) == present

/-- The rows of `t` that occur in `other`. -/
def intersect (t other : Table) : Table :=
  t.derive ("(" ++ t.name ++ "∩" ++ other.name ++ ")") t.schema (t.matching other true)

/-- The rows of `t` that do not occur in `other`. -/
def difference (t other : Table) : Table :=
  t.derive ("(" ++ t.name ++ "−" ++ other.name ++ ")") t.schema (t.matching other false)

end FlatTables.Table
