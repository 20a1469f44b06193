import FlatTables.Expression.Basic
import FlatTables.Schema

set_option autoImplicit false

/-! # Evaluation

An expression is evaluated against one row. Every operand is evaluated, from left to right, before
its operator is applied; no operator leaves an operand out. Only arithmetic can fail. -/

namespace FlatTables

/-- A row together with the schema by which its cells are named. -/
structure Bindings where
  schema : Schema
  row : Row

/-- The cell in the column called `name`. -/
def Bindings.get? (b : Bindings) (name : String) : Option Cell :=
  (b.schema.indexOf? name).bind fun index => b.row[index]?

/-- Why an expression has no value for a row. -/
inductive EvalError
  | invalidOperands (op : Arithmetic) (lhs rhs : String)
  | divisionByZero
  | overflow (op : Arithmetic)
  deriving DecidableEq

def EvalError.message : EvalError → String
  | invalidOperands op lhs rhs => "cannot apply " ++ op.name ++ " to " ++ lhs ++ " and " ++ rhs
  | divisionByZero => "division by zero"
  | overflow op => "integer overflow in " ++ op.name

/-! ## Applying operators to data -/

/-- What a comparison says of two data. Only identity looks at null; the others read it as
false. -/
def Comparison.holds (op : Comparison) (lhs rhs : Datum) : Bool :=
  let x := lhs.orFalse
  let y := rhs.orFalse
  let order := x.looseCompare? y
  match op with
  | identical => lhs.identical rhs
  | equal => x.looseEq y
  | notEqual => !x.looseEq y
  | less => order == some .lt
  | greater => order == some .gt
  | lessOrEqual => order == some .lt || order == some .eq
  | greaterOrEqual => order == some .gt || order == some .eq
  | within => y.contains x
  | notWithin => !y.contains x

/-- What a connective says of two data. -/
def Connective.holds (op : Connective) (lhs rhs : Datum) : Bool :=
  match op with
  | and => lhs.isTruthy && rhs.isTruthy
  | or => lhs.isTruthy || rhs.isTruthy

/-- What an existence test says of a datum. -/
def Existence.holds (op : Existence) (operand : Datum) : Bool :=
  match op with
  | missing => operand.isNull
  | present => !operand.isNull

namespace Arithmetic

/-- The number that arithmetic takes `d` for. Unlike comparison it does not count with booleans. -/
def operand? : Datum → Option Binary64
  | .integer i => some (Binary64.ofInt64 i)
  | .float x => some x
  | _ => none

/-- The exact result of two integers; there is none for a division, which leaves the integers. -/
def exactResult (op : Arithmetic) (a b : Int) : Option Int :=
  match op with
  | add => some (a + b)
  | sub => some (a - b)
  | mul => some (a * b)
  | div => none

/-- The result in double precision. -/
def inexact (op : Arithmetic) (x y : Binary64) : Binary64 :=
  match op with
  | add => x.add y
  | sub => x.sub y
  | mul => x.mul y
  | div => x.div y

/-- The result of two data that count as doubles. -/
def applyFloats (op : Arithmetic) (lhs rhs : Datum) : Except EvalError Datum :=
  match operand? lhs, operand? rhs with
  | some x, some y =>
    if op = div && y.isZero then .error .divisionByZero else .ok (.float (op.inexact x y))
  | _, _ => .error (.invalidOperands op lhs.typeName rhs.typeName)

/-- The result of two integers: exact if it has an exact form that fits, refused if it does not
fit, and a double for a division. -/
def applyIntegers (op : Arithmetic) (a b : Int64) : Except EvalError Datum :=
  match op.exactResult a.toInt b.toInt with
  | some result =>
    match Integer.ofInt? result with
    | some i => .ok (.integer i)
    | none => .error (.overflow op)
  | none => op.applyFloats (.integer a) (.integer b)

/-- The result of two data that are not null. Texts can be added, and that joins them. -/
def applyPresent (op : Arithmetic) (lhs rhs : Datum) : Except EvalError Datum :=
  match op, lhs, rhs with
  | add, .text a, .text b => .ok (.text (a ++ b))
  | op, .integer a, .integer b => op.applyIntegers a b
  | op, lhs, rhs => op.applyFloats lhs rhs

/-- The result of two data; null if either is null. -/
def apply (op : Arithmetic) (lhs rhs : Datum) : Except EvalError Datum :=
  if lhs.isNull || rhs.isNull then .ok .null else op.applyPresent lhs rhs

end Arithmetic

/-! ## Evaluating expressions -/

/-- The value of an expression for a row. A name that the row has no cell for is read as a text. -/
def Expression.eval (b : Bindings) : Expression → Except EvalError Datum
  | literal value => .ok value
  | column name =>
    match b.get? name with
    | some cell => .ok (Datum.ofCell cell)
    | none => .ok (.text name)
  | compare op lhs rhs => do
    let x ← lhs.eval b
    let y ← rhs.eval b
    .ok (.boolean (op.holds x y))
  | connect op lhs rhs => do
    let x ← lhs.eval b
    let y ← rhs.eval b
    .ok (.boolean (op.holds x y))
  | test op operand => do
    let x ← operand.eval b
    .ok (.boolean (op.holds x))
  | calculate op lhs rhs => do
    let x ← lhs.eval b
    let y ← rhs.eval b
    op.apply x y

end FlatTables
