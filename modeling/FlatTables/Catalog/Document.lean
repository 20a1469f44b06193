import FlatTables.Catalog.Basic
import FlatTables.Json.Draft
import FlatTables.Json.Printer

set_option autoImplicit false

/-! # Catalogs and schemas as documents

A schema is written as an object from column names to types, in the order of the columns; an entry
of the catalog as an object with its `name` and `columns`; and the catalog as an object of entries
in the order of their keys.

Reading takes a draft from front to back and stops at the first thing that is wrong, be it damage to
the document or a value of the wrong form. An entry may also be an array of its name and columns,
and an entry that is an object may have other members, which are passed over. Of several entries
under one key the last counts.

A reading gives the problem with the number of bytes that have been taken when it shows; the error
of a document names the place instead. -/

namespace FlatTables

/-! ## Errors -/

/-- What keeps a document from being read. -/
inductive DocumentProblem
  /-- The text stops being JSON. -/
  | damaged (damage : Json.Damage)
  /-- A value has another form than expected. -/
  | wrongType (found expected : String)
  | missingField (name : String)
  | duplicateField (name : String)
  /-- An entry is an array of the wrong length. -/
  | wrongLength (length : Nat)
  | unknownType (cause : UnknownType)
  | duplicateColumn (cause : DuplicateColumn)
  deriving DecidableEq

def DocumentProblem.message : DocumentProblem → String
  | damaged damage => damage.text
  | wrongType found expected => "invalid type: " ++ found ++ ", expected " ++ expected
  | missingField name => "missing field `" ++ name ++ "`"
  | duplicateField name => "duplicate field `" ++ name ++ "`"
  | wrongLength length =>
    "invalid length " ++ length.repr ++ ", expected struct TableDefinition with 2 elements"
  | unknownType cause => cause.message
  | duplicateColumn cause => cause.message

/-- Why a document could not be read. -/
structure DocumentError where
  problem : DocumentProblem
  place : Json.Place
  deriving DecidableEq

def DocumentError.message (e : DocumentError) : String := e.problem.message ++ e.place.suffix

/-- The result of reading, or a problem with the offset at which it shows. -/
abbrev Reading := Except (DocumentProblem × Nat)

namespace Reading

variable {α : Type}

/-- End with a fault of the document. -/
def fault (f : Json.Fault) : Reading α := .error (.damaged f.damage, f.offset)

/-- What a reader wants from a token. -/
def wanted : Except Json.Fault α → Reading α
  | .ok a => .ok a
  | .error f => fault f

/-- The result of a reading in a text. -/
def within (text : String) (reading : Reading α) : Except DocumentError α :=
  reading.mapError fun (problem, offset) => ⟨problem, .ofOffset text offset⟩

end Reading

namespace Json

/-- What a scalar is called. -/
def Scalar.form : Scalar → Reading String
  | null => .ok "null"
  | bool b => .ok ("boolean `" ++ (if b then "true" else "false") ++ "`")
  | number n => do
    match ← Reading.wanted n with
    | .integer i => .ok ("integer `" ++ i.repr ++ "`")
    | .float x => .ok ("floating point `" ++ Binary64.Layout.document.text x ++ "`")
  | string s => do .ok ("string " ++ Text.quoted (← Reading.wanted s))

/-- The end of an array or object. -/
def closing : Ending → Reading Nat
  | .ok stop => .ok stop
  | .error cause => Reading.fault cause.wanted

namespace Draft

variable {α : Type}

/-- Refuse a draft that is not what was expected. -/
def refuse (expected : String) : Draft → Reading α
  | scalar value span => do
    let found ← value.form
    .error (.wrongType found expected, span.stop)
  | array start _ _ => .error (.wrongType "sequence" expected, start)
  | object start _ _ => .error (.wrongType "map" expected, start)
  | missing cause => Reading.fault cause.wanted

/-- The text of a string. -/
def asString : Draft → Reading String
  | scalar (.string s) _ => Reading.wanted s
  | d => d.refuse "a string"

/-- Pass over a draft, whatever it is. -/
def pass : Draft → Reading Unit
  | array _ _ (.error cause) => Reading.fault cause.passed
  | object _ _ (.error cause) => Reading.fault cause.passed
  | missing cause => Reading.fault cause.passed
  | _ => .ok ()

/-- Where a reader stands that has looked at the first byte of a draft. -/
def glance : Draft → Nat
  | scalar _ span => span.start + 1
  | array start _ _ => start + 1
  | object start _ _ => start + 1
  | missing cause => cause.found.glance

/-- What is wrong with a draft behind a comma where an array should have ended. -/
def intrusion : Draft → Damage
  | missing ⟨_, ⟨.closeArray, _⟩⟩ => .trailingComma
  | _ => .trailingText

end Draft

/-- Refuse a break at which an array should have ended. -/
def refuseBreak (cause : Break) : Reading Unit :=
  match cause.found.token with
  | .ending => Reading.fault cause.wanted
  | _ => Reading.fault (cause.atGlance .trailingText)

/-- The value that a text holds as a whole, given how to read it. -/
def Document.read {α : Type} (text : String) (reader : Draft → Reading α) :
    Except DocumentError α :=
  Reading.within text do
    let document := Document.ofString text
    let value ← reader document.root
    match document.excess with
    | some offset => Reading.fault ⟨.trailingText, offset⟩
    | none => .ok value

end Json

open Json (Draft Document Key Ending)

/-! ## Schemas -/

/-- The type that a draft names. -/
def ColumnType.ofDraft : Draft → Reading ColumnType
  | .scalar (.string s) span => do
    let name ← Reading.wanted s
    (ofName name).mapError fun cause => (.unknownType cause, span.onward)
  | d => d.refuse "a string"

/-- The columns that the members of an object define. -/
def columnsOfMembers : List (Key × Draft) → Reading (List Column)
  | [] => .ok []
  | (key, value) :: rest => do
    let name ← Reading.wanted key.name
    let type ← ColumnType.ofDraft value
    let columns ← columnsOfMembers rest
    .ok (⟨name, type⟩ :: columns)

namespace Schema

/-- The schema that a draft holds. -/
def ofDraft : Draft → Reading Schema
  | .object _ members ending => do
    let columns ← columnsOfMembers members
    let stop ← Json.closing ending
    (ofColumns columns).mapError fun cause => (.duplicateColumn cause, stop)
  | d => d.refuse "an object mapping column names to types"

/-- The schema that a text holds. -/
def ofText (text : String) : Except DocumentError Schema := Document.read text ofDraft

/-- A schema as an object from names to types. -/
def toJson (s : Schema) : Json :=
  .object (s.columns.map fun column => (column.name, .string column.type.name))

end Schema

/-! ## Entries -/

namespace TableDefinition

/-- The entry that the members of an object hold, where `name` and `columns` are what earlier
members gave. -/
def ofMembers (ending : Ending) :
    Option String → Option Schema → List (Key × Draft) → Reading TableDefinition
  | name, columns, [] => do
    let stop ← Json.closing ending
    match name, columns with
    | none, _ => .error (.missingField "name", stop)
    | some _, none => .error (.missingField "columns", stop)
    | some name, some columns => .ok ⟨name, columns⟩
  | name, columns, (key, value) :: rest => do
    let field ← Reading.wanted key.name
    if field = "name" then
      if name.isSome then .error (.duplicateField "name", key.span.onward)
      else do
        let name ← value.asString
        ofMembers ending (some name) columns rest
    else if field = "columns" then
      if columns.isSome then .error (.duplicateField "columns", key.span.onward)
      else do
        let columns ← Schema.ofDraft value
        ofMembers ending name (some columns) rest
    else do
      value.pass
      ofMembers ending name columns rest

/-- The end of an entry that is an array, behind its name and its columns. -/
def checkEnd (ending : Ending) : List Draft → Reading Unit
  | [] =>
    match ending with
    | .ok _ => .ok ()
    | .error cause => Json.refuseBreak cause
  | intruder :: _ => Reading.fault ⟨intruder.intrusion, intruder.glance⟩

/-- The entry that the items of an array hold. -/
def ofItems (ending : Ending) : List Draft → Reading TableDefinition
  | [] => do
    let stop ← Json.closing ending
    .error (.wrongLength 0, stop)
  | [name] => do
    let _ ← name.asString
    let stop ← Json.closing ending
    .error (.wrongLength 1, stop)
  | name :: columns :: rest => do
    let name ← name.asString
    let columns ← Schema.ofDraft columns
    checkEnd ending rest
    .ok ⟨name, columns⟩

/-- The entry that a draft holds. -/
def ofDraft : Draft → Reading TableDefinition
  | .object _ members ending => ofMembers ending none none members
  | .array _ items ending => ofItems ending items
  | d => d.refuse "struct TableDefinition"

/-- An entry as an object. -/
def toJson (d : TableDefinition) : Json :=
  .object [("name", .string d.name), ("columns", d.columns.toJson)]

end TableDefinition

/-! ## Catalogs -/

namespace CatalogEntries

/-- The entries that the members of an object hold, put to those in `entries`. -/
def ofMembers (ending : Ending) (entries : CatalogEntries) :
    List (Key × Draft) → Reading CatalogEntries
  | [] => (Json.closing ending).map fun _ => entries
  | (key, value) :: rest => do
    let name ← Reading.wanted key.name
    let definition ← TableDefinition.ofDraft value
    ofMembers ending (entries.insert name definition) rest

/-- The entries that a draft holds. -/
def ofDraft : Draft → Reading CatalogEntries
  | .object _ members ending => ofMembers ending .empty members
  | d => d.refuse "a map"

/-- The entries that a text holds. -/
def ofText (text : String) : Except DocumentError CatalogEntries := Document.read text ofDraft

/-- The entries as an object. -/
def toJson (entries : CatalogEntries) : Json :=
  .object (entries.entries.map fun (key, definition) => (key, definition.toJson))

/-- The document of the entries. -/
def toText (entries : CatalogEntries) : String := entries.toJson.pretty

end CatalogEntries

end FlatTables
