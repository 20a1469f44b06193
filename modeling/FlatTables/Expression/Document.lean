import FlatTables.Expression.Basic
import FlatTables.Json.Printer

set_option autoImplicit false

/-! # Expressions as documents

An expression can be given as a JSON value. A string names a column, `{"literal": …}` and every
other value that is no object is a literal, and an object with one member applies the operator that
its key names to the items of an array, or to a single operand. -/

namespace FlatTables

mutual

/-- The datum that a JSON value without objects stands for. A number that is no 64-bit integer is a
double. -/
def Datum.ofJson : Json → Except BuildError Datum
  | .null => .ok .null
  | .bool b => .ok (.boolean b)
  | .number (.integer i) =>
    match Integer.ofInt? i with
    | some word => .ok (.integer word)
    | none => .ok (.float (Binary64.ofInt i))
  | .number (.float x) => .ok (.float x)
  | .string s => .ok (.text s)
  | .array items => (Datum.ofJsonItems items).map .list
  | .object members => .error (.malformed (Json.object members).compact)

/-- The data of a list of JSON values. -/
def Datum.ofJsonItems : List Json → Except BuildError (List Datum)
  | [] => .ok []
  | item :: rest => do
    let d ← Datum.ofJson item
    let ds ← Datum.ofJsonItems rest
    .ok (d :: ds)

end

/-- The key of an object that forces a literal. -/
def literalKey : String := "literal"

mutual

/-- The expression that a JSON value stands for. Under the name of an operator, the items of an
array are its operands, and any other value is its only operand. -/
def Expression.ofJson : Json → Except BuildError Expression
  | .string name => .ok (.column name)
  | .object [(key, .array items)] =>
    if key = literalKey then (Datum.ofJson (.array items)).map .literal
    else do
      let operands ← Expression.ofJsonItems items
      Expression.apply key operands
  | .object [(key, operand)] =>
    if key = literalKey then (Datum.ofJson operand).map .literal
    else do
      let operand ← Expression.ofJson operand
      Expression.apply key [operand]
  | .object members => .error (.malformed (Json.object members).compact)
  | value => (Datum.ofJson value).map .literal

/-- The expressions of a list of JSON values. -/
def Expression.ofJsonItems : List Json → Except BuildError (List Expression)
  | [] => .ok []
  | item :: rest => do
    let e ← Expression.ofJson item
    let es ← Expression.ofJsonItems rest
    .ok (e :: es)

end

end FlatTables
