set_option autoImplicit false

/-! # Delimited files

A delimited file holds one record a line, with a semicolon between two fields. A field that holds a
semicolon, a quote or a line end stands between quotes, and a quote in it is written twice. Fields
are bytes here; what text they are is asked later. -/

namespace FlatTables.Delimited

/-- The byte between two fields: a semicolon. -/
def delimiter : UInt8 := 59

/-- The byte around a quoted field. -/
def quote : UInt8 := 34

def lineFeed : UInt8 := 10

def carriageReturn : UInt8 := 13

/-- Whether `b` ends a line. A carriage return and a line feed do, each by itself. -/
def isLineEnd (b : UInt8) : Bool := b == lineFeed || b == carriageReturn

/-- The content of a field. -/
abbrev Field := List UInt8

end FlatTables.Delimited
