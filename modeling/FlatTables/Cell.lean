import FlatTables.Binary64.Arithmetic
import FlatTables.Binary64.Decimal
import FlatTables.Binary64.Layout
import FlatTables.Integer
import FlatTables.Text.Blank
import FlatTables.Text.Quoted

set_option autoImplicit false

/-! # Cells and their types

A table is made of cells. A cell is null or holds an integer, a double or a text, and each column
has one of the three types. A type reads raw text (`ColumnType.parse`), converts cells of another
type (`ColumnType.coerce`), and has a default. Null belongs to every type. -/

namespace FlatTables

/-! ## Types -/

/-- The type of a column. -/
inductive ColumnType
  | integer
  | float
  | text
  deriving DecidableEq, Repr

/-- A name that is no type's. -/
structure UnknownType where
  name : String
  deriving DecidableEq

def UnknownType.message (e : UnknownType) : String :=
  "unknown data type " ++ Text.quoted e.name

namespace ColumnType

/-- The name under which a type is shown and stored. -/
def name : ColumnType → String
  | integer => "integer"
  | float => "float"
  | text => "text"

/-- The type of a name; every type has short forms, and case does not count. -/
def ofName (name : String) : Except UnknownType ColumnType :=
  let lower := name.map Char.toLower
  if lower = "int" || lower = "integer" then .ok integer
  else if lower = "float" then .ok float
  else if lower = "str" || lower = "string" || lower = "text" then .ok text
  else .error ⟨name⟩

end ColumnType

/-! ## Cells -/

/-- A single cell. -/
inductive Cell
  | null
  | integer (value : Int64)
  | float (value : Binary64)
  | text (value : String)
  deriving DecidableEq, Hashable

/-- The cells of a row, in the order of the columns. -/
abbrev Row := List Cell

namespace Cell

def isNull : Cell → Bool
  | null => true
  | _ => false

/-- The type of a cell; null has none. -/
def type? : Cell → Option ColumnType
  | null => none
  | integer _ => some .integer
  | float _ => some .float
  | text _ => some .text

/-- The cell that stands for `c` when cells are compared: the two zeros of the doubles are one. -/
def canonical : Cell → Cell
  | float x => float x.canonical
  | c => c

/-- Whether two cells are equal as members of a set. Cells of different types never are. -/
def same (a b : Cell) : Bool := a.canonical = b.canonical

/-- The text of a cell. A double keeps the fraction of a whole number. -/
def display : Cell → String
  | null => "null"
  | integer i => Integer.text i
  | float x => Binary64.Layout.cell.text x
  | text s => s

end Cell

/-- The row that stands for `row` when rows are compared. -/
def Row.canonical (row : Row) : Row := row.map Cell.canonical

/-- Whether two rows are equal as members of a set. -/
def Row.same (a b : Row) : Bool := Row.canonical a = Row.canonical b

/-! ## Reading and converting -/

/-- A text or number that cannot become a cell of the type asked for. -/
structure ConversionError where
  value : String
  target : ColumnType
  deriving DecidableEq

def ConversionError.message (e : ConversionError) : String :=
  "cannot convert " ++ Text.quoted e.value ++ " to " ++ e.target.name

namespace ColumnType

/-- What existing rows get in a new column of this type. -/
def defaultCell : ColumnType → Cell
  | integer => .integer 0
  | float => .float (Binary64.zero false)
  | text => .text ""

/-- The cell that a raw text spells. Blanks around a number do not count. -/
def parse (type : ColumnType) (raw : String) : Except ConversionError Cell :=
  match type with
  | integer =>
    match Integer.read? (Text.trim raw.toList) with
    | some i => .ok (.integer i)
    | none => .error ⟨raw, type⟩
  | float =>
    match Binary64.read? (Text.trim raw.toList) with
    | some x => .ok (.float x)
    | none => .error ⟨raw, type⟩
  | text => .ok (.text raw)

/-- Convert a cell to this type. Null stays null, a double loses its fraction on the way to an
integer, and a text is read. -/
def coerce (type : ColumnType) (cell : Cell) : Except ConversionError Cell :=
  match type, cell with
  | _, .null => .ok .null
  | integer, .integer i => .ok (.integer i)
  | integer, .float x =>
    match x.toInt64? with
    | some i => .ok (.integer i)
    | none => .error ⟨Binary64.Layout.plain.text x, type⟩
  | integer, .text s => parse integer s
  | float, .integer i => .ok (.float (Binary64.ofInt64 i))
  | float, .float x => .ok (.float x)
  | float, .text s => parse float s
  | text, .text s => .ok (.text s)
  | text, c => .ok (.text c.display)

end ColumnType

end FlatTables
