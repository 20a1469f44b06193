import FlatTables.Expression.Datum

set_option autoImplicit false

/-! # Expressions

An expression is a literal, a column, or the application of an operator. Operators come in four
families and are called by short names. `Expression.apply` builds an application from a name in any
case and a list of operands, and refuses a name it does not know and a wrong number of operands. -/

namespace FlatTables

/-! ## Operators -/

inductive Comparison
  | less
  | greater
  | equal
  | lessOrEqual
  | greaterOrEqual
  | notEqual
  | identical
  | within
  | notWithin
  deriving DecidableEq, Repr

inductive Connective
  | and
  | or
  deriving DecidableEq, Repr

inductive Existence
  | missing
  | present
  deriving DecidableEq, Repr

inductive Arithmetic
  | add
  | sub
  | div
  | mul
  deriving DecidableEq, Repr

namespace Comparison

def name : Comparison → String
  | less => "lt"
  | greater => "gt"
  | equal => "eq"
  | lessOrEqual => "lte"
  | greaterOrEqual => "gte"
  | notEqual => "neq"
  | identical => "is"
  | within => "in"
  | notWithin => "nin"

def all : List Comparison :=
  [less, greater, equal, lessOrEqual, greaterOrEqual, notEqual, identical, within, notWithin]

def ofName? (name : String) : Option Comparison := all.find? (·.name == name)

end Comparison

namespace Connective

def name : Connective → String
  | and => "and"
  | or => "or"

def all : List Connective := [and, or]

def ofName? (name : String) : Option Connective := all.find? (·.name == name)

end Connective

namespace Existence

def name : Existence → String
  | missing => "missing"
  | present => "exists"

def all : List Existence := [missing, present]

def ofName? (name : String) : Option Existence := all.find? (·.name == name)

end Existence

namespace Arithmetic

def name : Arithmetic → String
  | add => "add"
  | sub => "sub"
  | div => "div"
  | mul => "mul"

def all : List Arithmetic := [add, sub, div, mul]

def ofName? (name : String) : Option Arithmetic := all.find? (·.name == name)

end Arithmetic

/-! ## Expressions -/

/-- A condition or a computed value. -/
inductive Expression
  | literal (value : Datum)
  | column (name : String)
  | compare (op : Comparison) (lhs rhs : Expression)
  | connect (op : Connective) (lhs rhs : Expression)
  | test (op : Existence) (operand : Expression)
  | calculate (op : Arithmetic) (lhs rhs : Expression)

namespace Expression

/-- The text of an expression; an operator stands before its operands. -/
def display : Expression → String
  | literal d => d.displayLiteral
  | column name => name
  | compare op lhs rhs => op.name ++ "(" ++ display lhs ++ "," ++ display rhs ++ ")"
  | connect op lhs rhs => op.name ++ "(" ++ display lhs ++ "," ++ display rhs ++ ")"
  | test op operand => op.name ++ "(" ++ display operand ++ ")"
  | calculate op lhs rhs => op.name ++ "(" ++ display lhs ++ "," ++ display rhs ++ ")"

/-- Whether two expressions are built alike from identical literals. -/
def identical : Expression → Expression → Bool
  | literal a, literal b => a.identical b
  | column a, column b => a == b
  | compare op lhs rhs, compare op' lhs' rhs' =>
    op == op' && identical lhs lhs' && identical rhs rhs'
  | connect op lhs rhs, connect op' lhs' rhs' =>
    op == op' && identical lhs lhs' && identical rhs rhs'
  | test op operand, test op' operand' => op == op' && identical operand operand'
  | calculate op lhs rhs, calculate op' lhs' rhs' =>
    op == op' && identical lhs lhs' && identical rhs rhs'
  | _, _ => false

end Expression

/-- A chain of operands, nested from the right: `and` of `a`, `b` and `c` is `and(a,and(b,c))`. A
single operand stands for itself. -/
def Connective.fold? (op : Connective) : List Expression → Option Expression
  | [] => none
  | [operand] => some operand
  | operand :: rest => (op.fold? rest).map (.connect op operand)

/-! ## Building by name -/

/-- How many operands an operator takes. -/
inductive OperandRule
  | exactly (count : Nat)
  | atLeast (count : Nat)
  deriving DecidableEq, Repr

def OperandRule.display : OperandRule → String
  | exactly count => count.repr
  | atLeast count => count.repr ++ " or more"

/-- Why an expression could not be built. -/
inductive BuildError
  | unknownOperator (name : String)
  | operandCount (name : String) (expected : OperandRule) (found : Nat)
  /-- A document, given by its text, that has not the form of an expression. -/
  | malformed (document : String)
  deriving DecidableEq

def BuildError.message : BuildError → String
  | unknownOperator name => "unknown operator " ++ Text.quoted name
  | operandCount name expected found =>
    "operator " ++ name ++ " expects " ++ expected.display ++ " operand(s), got " ++ found.repr
  | malformed document => "cannot evaluate expression: " ++ document

/-- An operator of any family. -/
inductive Operator
  | connective (op : Connective)
  | existence (op : Existence)
  | comparison (op : Comparison)
  | arithmetic (op : Arithmetic)
  deriving DecidableEq, Repr

namespace Operator

/-- The operator called `name`, in lower case. No two operators have one name. -/
def ofName? (name : String) : Option Operator :=
  (Connective.ofName? name).map connective <|> (Existence.ofName? name).map existence <|>
    (Comparison.ofName? name).map comparison <|> (Arithmetic.ofName? name).map arithmetic

def rule : Operator → OperandRule
  | connective _ => .atLeast 2
  | existence _ => .exactly 1
  | comparison _ | arithmetic _ => .exactly 2

/-- The application of an operator, if the number of operands is right. -/
def build? : Operator → List Expression → Option Expression
  | connective op, lhs :: rhs :: rest => op.fold? (lhs :: rhs :: rest)
  | existence op, [operand] => some (.test op operand)
  | comparison op, [lhs, rhs] => some (.compare op lhs rhs)
  | arithmetic op, [lhs, rhs] => some (.calculate op lhs rhs)
  | _, _ => none

end Operator

/-- The application of the operator called `name`, in any case, to `operands`. -/
def Expression.apply (name : String) (operands : List Expression) :
    Except BuildError Expression :=
  let lower := name.map Char.toLower
  match Operator.ofName? lower with
  | none => .error (.unknownOperator lower)
  | some op =>
    match op.build? operands with
    | some expression => .ok expression
    | none => .error (.operandCount lower op.rule operands.length)

end FlatTables
