import FlatTables.Catalog.Document
import FlatTables.Delimited.Reader
import FlatTables.Delimited.Writer
import FlatTables.File.Tree

set_option autoImplicit false

/-! # What can go wrong with stored tables -/

namespace FlatTables

/-- Why a data file could not be read or written as a delimited file. -/
inductive DelimitedError
  | file (cause : FileError)
  /-- A field of a record is no UTF-8 text after its first `valid` bytes. -/
  | invalidText (record : Nat) (position : Delimited.Position) (field valid : Nat)
  | unequalLengths (cause : Delimited.UnequalLengths)
  deriving DecidableEq

def DelimitedError.message : DelimitedError → String
  | file cause => cause.message
  | invalidText record position field valid =>
    "CSV parse error: record " ++ record.repr ++ " (line " ++ position.line.repr ++ ", field: " ++
      field.repr ++ ", byte: " ++ position.byte.repr ++
      "): invalid utf-8: invalid UTF-8 in field " ++ field.repr ++ " near byte index " ++ valid.repr
  | unequalLengths cause =>
    "CSV error: found record with " ++ cause.found.repr ++
      " fields, but the previous record has " ++ cause.expected.repr ++ " fields"

/-- Why a stored table or the catalog could not be read, written or removed. -/
inductive StorageError
  | cannotCreate (path : Path) (cause : FileError)
  | cannotRead (path : Path) (cause : FileError)
  | cannotWrite (path : Path) (cause : FileError)
  | cannotRemove (path : Path) (cause : FileError)
  | catalogFormat (path : Path) (cause : DocumentError)
  | tableNotFound (id : String)
  | dataFile (path : Path) (cause : DelimitedError)
  | fieldCount (path : Path) (line expected found : Nat)
  | field (path : Path) (line : Nat) (cause : ConversionError)
  deriving DecidableEq

def StorageError.message : StorageError → String
  | cannotCreate path cause =>
    "failed to create directory " ++ path.text ++ ": " ++ cause.message
  | cannotRead path cause => "failed to read " ++ path.text ++ ": " ++ cause.message
  | cannotWrite path cause => "failed to write " ++ path.text ++ ": " ++ cause.message
  | cannotRemove path cause => "failed to remove " ++ path.text ++ ": " ++ cause.message
  | catalogFormat path cause => "malformed catalog " ++ path.text ++ ": " ++ cause.message
  | tableNotFound id => "table " ++ id ++ " is not registered in the catalog"
  | dataFile path cause => "malformed data file " ++ path.text ++ ": " ++ cause.message
  | fieldCount path line expected found =>
    path.text ++ ":" ++ line.repr ++ ": expected " ++ expected.repr ++ " fields, found " ++
      found.repr
  | field path line cause => path.text ++ ":" ++ line.repr ++ ": " ++ cause.message

end FlatTables
