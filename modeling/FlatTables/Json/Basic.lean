import FlatTables.Binary64.Layout

set_option autoImplicit false

/-! # JSON values

A number is an integer when its text has neither point nor exponent and it fits into 64 bits, and a
double otherwise. The members of an object are a list, in the order in which they stand. -/

namespace FlatTables

/-- The number of a document. -/
inductive JsonNumber
  | integer (value : Int)
  | float (value : Binary64)
  deriving DecidableEq

/-- A JSON value. -/
inductive Json
  | null
  | bool (value : Bool)
  | number (value : JsonNumber)
  | string (value : String)
  | array (items : List Json)
  | object (members : List (String × Json))

instance : Inhabited Json := ⟨.null⟩

namespace JsonNumber

/-- The text of a number. -/
def text : JsonNumber → String
  | integer i => i.repr
  | float x => Binary64.Layout.document.text x

end JsonNumber

end FlatTables
