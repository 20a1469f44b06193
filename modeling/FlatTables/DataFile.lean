import FlatTables.Storage.Error
import FlatTables.Text.Utf8
import FlatTables.World

set_option autoImplicit false

/-! # Data files

The rows of a table stand in a delimited file, one record a row, without a header. A null is written
as an empty field, and an empty field is read as null, so an empty text comes back as null. -/

namespace FlatTables.DataFile

/-! ## Rows as records -/

/-- The field of a cell. -/
def fieldOfCell (cell : Cell) : Delimited.Field :=
  match cell with
  | .null => []
  | cell => Text.encode cell.display

/-- The file with the given rows, as far as it can be written. -/
def render (rows : List Row) : List UInt8 × Option Delimited.UnequalLengths :=
  Delimited.writeRecords (rows.map fun row => row.map fieldOfCell)

/-! ## Records as rows -/

/-- The texts of the fields of a record; `number` and `index` count records and fields from zero. -/
def textsOfFields (number : Nat) (position : Delimited.Position) :
    Nat → List Delimited.Field → Except DelimitedError (List String)
  | _, [] => .ok []
  | index, field :: rest =>
    match Text.decode? field with
    | none => .error (.invalidText number position index (Text.validLength field))
    | some text => (textsOfFields number position (index + 1) rest).map (text :: ·)

/-- The cells of a record, each read as its column's type. -/
def cellsOfTexts : List Column → List String → Except ConversionError Row
  | column :: columns, text :: texts => do
    let cell ← if text = "" then .ok Cell.null else column.type.parse text
    let cells ← cellsOfTexts columns texts
    .ok (cell :: cells)
  | _, _ => .ok []

/-- The row of a record. -/
def rowOfRecord (path : Path) (schema : Schema) (number : Nat) (record : Delimited.Record) :
    Except StorageError Row :=
  match textsOfFields number record.position 0 record.fields with
  | .error cause => .error (.dataFile path cause)
  | .ok texts =>
    if texts.length = schema.width then
      (cellsOfTexts schema.columns texts).mapError (.field path record.position.line)
    else .error (.fieldCount path record.position.line schema.width texts.length)

/-- The rows of the records from number `number` on; the first that is no row ends the reading. -/
def rowsOfRecords (path : Path) (schema : Schema) :
    Nat → List Delimited.Record → Except StorageError (List Row)
  | _, [] => .ok []
  | number, record :: rest => do
    let row ← rowOfRecord path schema number record
    let rows ← rowsOfRecords path schema (number + 1) rest
    .ok (row :: rows)

/-- The rows that a file holds. -/
def parse (path : Path) (schema : Schema) (content : List UInt8) : Except StorageError (List Row) :=
  rowsOfRecords path schema 0 (Delimited.readRecords content)

/-! ## Files -/

/-- The rows of the file at a path. -/
def read (files : FileTree) (path : Path) (schema : Schema) : Except StorageError (List Row) :=
  match files.read path with
  | .error cause => .error (.dataFile path (.file cause))
  | .ok content => parse path schema content

/-- Read the rows of a file. -/
def readRows (path : Path) (schema : Schema) : Action StorageError (List Row) := do
  let w ← Action.world
  let rows ← Action.ofExcept StorageError.message (read w.files path schema)
  Action.emit .debug ("loaded " ++ rows.length.repr ++ " rows from " ++ path.text)
  return rows

/-- Replace the content of a file by rows. They go through a buffer, so a fault can show while rows
are written, or when the rest of the buffer is handed over at the end. When a row has another number
of cells than the first, what was written up to there stays; the buffer is handed over then too, but
a fault in that goes unnoticed. -/
def writeRows (path : Path) (rows : List Row) : Action StorageError Unit := do
  let (content, problem) := render rows
  Action.openFile StorageError.message (fun e => .dataFile path (.file e)) path
  match ← Action.handOver content, problem with
  | some fault, _ =>
    Action.fill path (fault.keptByBuffer content)
    Action.fail StorageError.message (.dataFile path (.file fault.cause))
  | none, some cause =>
    let fault? ← Action.handOver content
    Action.fill path (Fault.kept fault? content)
    Action.fail StorageError.message (.dataFile path (.unequalLengths cause))
  | none, none =>
    match ← Action.handOver content with
    | some fault =>
      Action.fill path (fault.keptByBuffer content)
      Action.fail StorageError.message (.cannotWrite path fault.cause)
    | none =>
      Action.fill path content
      Action.emit .debug ("saved " ++ rows.length.repr ++ " rows to " ++ path.text)

/-- Leave an empty file. There are no bytes to hand over. -/
def truncate (path : Path) : Action StorageError Unit :=
  Action.openFile StorageError.message (.cannotWrite path) path

/-- Remove a file. -/
def remove (path : Path) : Action StorageError Unit :=
  Action.changeFiles StorageError.message (.cannotRemove path) (·.remove path)

end FlatTables.DataFile
