set_option autoImplicit false

/-! # Table identifiers

A table is called by a database and a name. In a text the two are joined by a point; a text with no
point, or with several, is the name of a table in a default database. -/

namespace FlatTables

/-- The full name of a table. -/
structure TableId where
  database : String
  name : String
  deriving DecidableEq

namespace TableId

/-- The identifier that `text` stands for where `default` is the default database. -/
def parse (text default : String) : TableId :=
  let cs := text.toList
  if cs.count '.' = 1 then
    ⟨String.ofList (cs.takeWhile (· != '.')), String.ofList ((cs.dropWhile (· != '.')).drop 1)⟩
  else ⟨default, text⟩

/-- Database and name, joined by a point. -/
def fullName (id : TableId) : String := id.database ++ "." ++ id.name

end TableId

end FlatTables
