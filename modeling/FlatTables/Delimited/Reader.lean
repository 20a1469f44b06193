import FlatTables.Delimited.Basic

set_option autoImplicit false

/-! # Reading delimited files

A file is read byte by byte. Lines without content are passed over. A quote opens a quoted field
only at the start of a field; inside, two quotes stand for one, and what follows the closing quote
belongs to the field as it is. A quoted field that is not closed ends with the file. A byte order
mark at the start of the file is no content. -/

namespace FlatTables.Delimited

/-- A place in a file: the line, counted from one, and the number of bytes before it. -/
structure Position where
  line : Nat
  byte : Nat
  deriving DecidableEq

/-- The place after `b`. Only a line feed begins another line. -/
def Position.after (p : Position) (b : UInt8) : Position :=
  ⟨if b = lineFeed then p.line + 1 else p.line, p.byte + 1⟩

/-- A record, with the place at which its reading began: where the record before it ended. Empty
lines may stand between that place and the record. -/
structure Record where
  position : Position
  fields : List Field
  deriving DecidableEq

/-- Where in a field the reader stands. -/
inductive FieldMode
  /-- Before its first byte. -/
  | start
  /-- Outside quotes. -/
  | plain
  | quoted
  /-- After a quote that closes the field, unless another quote follows. -/
  | closing
  deriving DecidableEq

/-- What the reader has in hand: nothing between two records, and inside a record the field so far
and the fields before it, latest first. -/
inductive Scan
  | between
  | inside (mode : FieldMode) (field : Field) (fields : List Field)

/-- The fields of a record whose last field is `field`. -/
def closeFields (field : Field) (fields : List Field) : List Field :=
  (field.reverse :: fields).reverse

/-- Read a byte that no quote changes the meaning of. The second part holds the fields of a record
that the byte ends. -/
def readPlain (b : UInt8) (field : Field) (fields : List Field) : Scan × Option (List Field) :=
  if b = delimiter then (.inside .start [] (field.reverse :: fields), none)
  else if isLineEnd b then (.between, some (closeFields field fields))
  else (.inside .plain (b :: field) fields, none)

/-- Read a byte inside a record. -/
def readInside (b : UInt8) : FieldMode → Field → List Field → Scan × Option (List Field)
  | .start, field, fields =>
    if b = quote then (.inside .quoted field fields, none) else readPlain b field fields
  | .plain, field, fields => readPlain b field fields
  | .quoted, field, fields =>
    if b = quote then (.inside .closing field fields, none)
    else (.inside .quoted (b :: field) fields, none)
  | .closing, field, fields =>
    if b = quote then (.inside .quoted (quote :: field) fields, none)
    else readPlain b field fields

/-- Read a byte. -/
def readByte (b : UInt8) : Scan → Scan × Option (List Field)
  | .between => if isLineEnd b then (.between, none) else readInside b .start [] []
  | .inside mode field fields => readInside b mode field fields

/-- The records of the bytes that are still to be read; `start` is where the last record ended, and
`here` is the place of the next byte. -/
def readFrom (start here : Position) : Scan → List UInt8 → List Record
  | .between, [] => []
  | .inside _ field fields, [] => [⟨start, closeFields field fields⟩]
  | scan, b :: rest =>
    match readByte b scan with
    | (scan', none) => readFrom start (here.after b) scan' rest
    | (scan', some fields) =>
      ⟨start, fields⟩ :: readFrom (here.after b) (here.after b) scan' rest

/-- The UTF-8 byte order mark. -/
def byteOrderMark : List UInt8 := [0xef, 0xbb, 0xbf]

/-- The records of a file. -/
def readRecords (bytes : List UInt8) : List Record :=
  if byteOrderMark.isPrefixOf bytes then
    readFrom ⟨1, 0⟩ ⟨1, byteOrderMark.length⟩ .between (bytes.drop byteOrderMark.length)
  else readFrom ⟨1, 0⟩ ⟨1, 0⟩ .between bytes

end FlatTables.Delimited
