import FlatTables.Delimited.Basic

set_option autoImplicit false

/-! # Writing delimited files

Every record is closed by a line feed. A record whose fields take no bytes at all is written as an
empty quoted field, because an empty line would be no record. All records of a file have as many
fields as the first. -/

namespace FlatTables.Delimited

/-- Whether a byte of a field makes it stand between quotes. -/
def needsQuotes (b : UInt8) : Bool := b == delimiter || b == quote || isLineEnd b

/-- The bytes of a field in a file, up to the quote that closes it. -/
def openField (field : Field) : List UInt8 :=
  if field.any needsQuotes then
    quote :: field.flatMap fun b => if b = quote then [quote, quote] else [b]
  else field

/-- The quote that closes a field, if one opened it. -/
def closingQuote (field : Field) : List UInt8 :=
  if field.any needsQuotes then [quote] else []

/-- The bytes of a field in a file. -/
def writeField (field : Field) : List UInt8 := openField field ++ closingQuote field

/-- The fields of a record with delimiters between them, before the line and its last field are
closed. -/
def openRecord : List Field → List UInt8
  | [] => []
  | [field] => openField field
  | field :: rest => writeField field ++ delimiter :: openRecord rest

/-- The fields of a record with delimiters between them, before the line is closed. -/
def writeFields : List Field → List UInt8
  | [] => []
  | [field] => writeField field
  | field :: rest => writeField field ++ delimiter :: writeFields rest

/-- The line of a record. -/
def writeRecord (fields : List Field) : List UInt8 :=
  let body := writeFields fields
  (if body.isEmpty then [quote, quote] else body) ++ [lineFeed]

/-- A record with another number of fields than the first. -/
structure UnequalLengths where
  expected : Nat
  found : Nat
  deriving DecidableEq

/-- The bytes of the records of a file in which every record has `width` fields. At the first record
that has not, writing stops after the content of its last field, so that neither this field nor the
line is closed. -/
def writeRecordsOfWidth (width : Nat) : List (List Field) → List UInt8 × Option UnequalLengths
  | [] => ([], none)
  | fields :: rest =>
    if fields.length = width then
      let (bytes, problem) := writeRecordsOfWidth width rest
      (writeRecord fields ++ bytes, problem)
    else (openRecord fields, some ⟨width, fields.length⟩)

/-- The bytes of a file with the given records, up to the first that has another number of fields
than the first one. -/
def writeRecords (records : List (List Field)) : List UInt8 × Option UnequalLengths :=
  writeRecordsOfWidth (records.head?.elim 0 List.length) records

end FlatTables.Delimited
