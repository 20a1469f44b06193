import FlatTables.Cell

set_option autoImplicit false

/-! # Data

A `Datum` is what an expression evaluates to: what a cell can hold, and also booleans and lists.
Three equalities live side by side. `identical` asks for the same kind of datum on both sides,
`looseEq` compares numbers of all kinds by value, and cells have `Cell.same` for sets of rows. -/

namespace FlatTables

/-- The value of an expression. -/
inductive Datum
  | null
  | boolean (value : Bool)
  | integer (value : Int64)
  | float (value : Binary64)
  | text (value : String)
  | list (items : List Datum)

instance : Inhabited Datum := ⟨.null⟩

namespace Datum

/-! ## Cells and data -/

def ofCell : Cell → Datum
  | .null => null
  | .integer i => integer i
  | .float x => float x
  | .text s => text s

/-- The cell that holds `d`. Booleans and lists fit into no column. -/
def toCell? : Datum → Option Cell
  | null => some .null
  | integer i => some (.integer i)
  | float x => some (.float x)
  | text s => some (.text s)
  | boolean _ | list _ => none

/-- The kind of `d`, by its name in messages. -/
def typeName : Datum → String
  | null => "null"
  | boolean _ => "boolean"
  | integer _ => "integer"
  | float _ => "float"
  | text _ => "text"
  | list _ => "list"

def isNull : Datum → Bool
  | null => true
  | _ => false

/-! ## Truth -/

/-- Whether `d` counts as true: it is not null, false, zero or empty. -/
def isTruthy : Datum → Bool
  | null => false
  | boolean b => b
  | integer i => i != 0
  | float x => !x.isZero
  | text s => s != ""
  | list items => !items.isEmpty

/-- The datum `d`, with null read as false. -/
def orFalse : Datum → Datum
  | null => boolean false
  | d => d

/-! ## Comparison -/

/-- The number that `d` compares as; true is one and false is zero. -/
def number? : Datum → Option Binary64
  | boolean b => some (Binary64.ofInt b.toNat)
  | integer i => some (Binary64.ofInt64 i)
  | float x => some x
  | null | text _ | list _ => none

/-- Numeric equality of two data that both compare as numbers. -/
def numericEq (a b : Datum) : Bool :=
  match a.number?, b.number? with
  | some x, some y => x.numericEq y
  | _, _ => false

mutual

/-- Equality across the kinds of numbers. Two integers are compared exactly, and lists item by
item. -/
def looseEq : Datum → Datum → Bool
  | integer a, integer b => a == b
  | text a, text b => a == b
  | list as, list bs => looseEqItems as bs
  | null, null => true
  | a, b => numericEq a b

/-- Whether two lists have equally many items and loosely equal ones at each place. -/
def looseEqItems : List Datum → List Datum → Bool
  | [], [] => true
  | a :: as, b :: bs => looseEq a b && looseEqItems as bs
  | _, _ => false

end

mutual

/-- Equality of kind and value; doubles are compared as numbers. -/
def identical : Datum → Datum → Bool
  | null, null => true
  | boolean a, boolean b => a == b
  | integer a, integer b => a == b
  | float a, float b => a.numericEq b
  | text a, text b => a == b
  | list as, list bs => identicalItems as bs
  | _, _ => false

/-- Whether two lists have equally many items and identical ones at each place. -/
def identicalItems : List Datum → List Datum → Bool
  | [], [] => true
  | a :: as, b :: bs => identical a b && identicalItems as bs
  | _, _ => false

end

/-- The order of two data: two integers exactly, texts by code points, and everything else that
compares as a number in double precision. -/
def looseCompare? : Datum → Datum → Option Ordering
  | integer a, integer b => some (compare a.toInt b.toInt)
  | text a, text b => some (compare a b)
  | a, b =>
    match a.number?, b.number? with
    | some x, some y => x.compare? y
    | _, _ => none

/-- Whether `part` stands somewhere in `whole`. -/
def isPartOf (part : List Char) : List Char → Bool
  | [] => part.isEmpty
  | c :: cs => part.isPrefixOf (c :: cs) || isPartOf part cs

/-- Whether `needle` is an item of a list, or a part of a text. -/
def contains (haystack needle : Datum) : Bool :=
  match haystack, needle with
  | list items, needle => items.any fun item => item.looseEq needle
  | text whole, text part => isPartOf part.toList whole.toList
  | _, _ => false

/-! ## Text -/

mutual

/-- The text of a datum, with the texts in it as they are. -/
def display : Datum → String
  | null => "null"
  | boolean b => if b then "true" else "false"
  | integer i => Integer.text i
  | float x => Binary64.Layout.cell.text x
  | text s => s
  | list items => "[" ++ displayItems items ++ "]"

/-- The texts of the items of a list, separated by commas. -/
def displayItems : List Datum → String
  | [] => ""
  | [item] => display item
  | item :: rest => display item ++ "," ++ displayItems rest

end

mutual

/-- The text of a datum in which texts stand between single quotes, so that they are not taken for
names of columns. -/
def displayLiteral : Datum → String
  | text s => "'" ++ s ++ "'"
  | list items => "[" ++ displayLiteralItems items ++ "]"
  | d => display d

/-- The literal texts of the items of a list, separated by commas. -/
def displayLiteralItems : List Datum → String
  | [] => ""
  | [item] => displayLiteral item
  | item :: rest => displayLiteral item ++ "," ++ displayLiteralItems rest

end

end Datum

end FlatTables
