import FlatTables.Config
import FlatTables.DataFile

set_option autoImplicit false

/-! # Stores

A store is a data directory with its catalog. The catalog is read once, when the store is opened,
and every change of an entry writes its document anew; if that fails, the entry is put back as it
was. Everything that was opened through one store shares its catalog, and opening the directory
again reads the catalog again. -/

namespace FlatTables

/-- An opened store: its configuration, and the number of its catalog in the world. -/
structure Store where
  config : Config
  catalog : Nat
  deriving DecidableEq

/-! ## Directories and documents -/

/-- Make a directory and those around it. -/
def createDirectory (path : Path) : Action StorageError Unit := fun w =>
  match w.files.createDirectories path with
  | (.ok (), files) => (.ok (), { w with files := files })
  | (.error e, files) =>
    Action.fail StorageError.message (.cannotCreate path e) { w with files := files }

namespace Catalog

/-- Write the document of a catalog. -/
def write (catalog : Catalog) : Action StorageError Unit :=
  Action.writeFile StorageError.message (.cannotWrite catalog.path) catalog.path
    (Text.encode catalog.entries.toText)

/-- Start a catalog at a path where there is none. -/
def create (path : Path) : Action StorageError Catalog := do
  Action.emit .info ("creating new catalog in " ++ path.text)
  match path.parent? with
  | some dir => if dir.text = "" then pure () else createDirectory dir
  | none => pure ()
  let catalog : Catalog := ⟨path, .empty⟩
  catalog.write
  return catalog

/-- The entries in the bytes of a catalog document. -/
def entriesOfBytes (path : Path) (bytes : List UInt8) : Except StorageError CatalogEntries :=
  match Text.decode? bytes with
  | none => .error (.cannotRead path .invalidText)
  | some text => (CatalogEntries.ofText text).mapError (.catalogFormat path)

/-- Read the catalog at a path, or start one if there is none. -/
def load (path : Path) : Action StorageError Catalog := do
  let w ← Action.world
  match w.files.read path with
  | .error .notFound => create path
  | .error cause => Action.fail StorageError.message (.cannotRead path cause)
  | .ok bytes =>
    let entries ← Action.ofExcept StorageError.message (entriesOfBytes path bytes)
    Action.emit .debug ("loaded catalog " ++ path.text)
    return ⟨path, entries⟩

end Catalog

namespace Store

/-- Open the store of a configuration: load its catalog under the next number. -/
def load (config : Config) : Action StorageError Store := do
  let catalog ← Catalog.load config.catalogPath
  let w ← Action.world
  Action.change fun w => { w.setCatalog w.opened catalog with opened := w.opened + 1 }
  return ⟨config, w.opened⟩

/-! ## The catalog -/

/-- The catalog of a store as it is in a world. -/
def catalogIn (s : Store) (w : World) : Catalog := w.catalogs s.catalog

/-- The entry of a table. -/
def definition (s : Store) (id : TableId) : Action StorageError TableDefinition := do
  let w ← Action.world
  match (s.catalogIn w).find? id with
  | some definition => return definition
  | none => Action.fail StorageError.message (.tableNotFound id.fullName)

/-- The columns under which a table is entered. -/
def columns (s : Store) (id : TableId) : Action StorageError Schema := do
  return (← s.definition id).columns

/-- The world `w` with other entries in the catalog of the store. -/
def changeEntries (s : Store) (f : CatalogEntries → CatalogEntries) (w : World) : World :=
  w.setCatalog s.catalog { s.catalogIn w with entries := f (s.catalogIn w).entries }

/-- Write the document of the catalog as it is in memory. -/
def writeCatalog (s : Store) : Action StorageError Unit := do
  let w ← Action.world
  (s.catalogIn w).write

/-- Enter the columns of a table, in place of those it had. If the document cannot be written, the
entry is put back as it was, or taken out again. -/
def register (s : Store) (id : TableId) (columns : Schema) : Action StorageError Unit := do
  let w ← Action.world
  let previous? := (s.catalogIn w).entries.get? id.fullName
  Action.change (s.changeEntries (·.insert id.fullName ⟨id.fullName, columns⟩))
  s.writeCatalog.orElseUndo <| s.changeEntries fun entries =>
    match previous? with
    | some previous => entries.insert id.fullName previous
    | none => entries.erase id.fullName

/-- Take out the entry of a table, which is the result. If the document cannot be written, the entry
is put back. -/
def unregister (s : Store) (id : TableId) : Action StorageError TableDefinition := do
  let removed ← s.definition id
  Action.change (s.changeEntries (·.erase id.fullName))
  s.writeCatalog.orElseUndo (s.changeEntries (·.insert id.fullName removed))
  return removed

/-! ## Databases -/

/-- The directory of a database, made if it does not exist. -/
def database (s : Store) (name : String) : Action StorageError Path := do
  let path := s.config.databasePath name
  let w ← Action.world
  if w.files.isDirectory path then return path
  else
    createDirectory path
    Action.emit .debug ("create:path:" ++ path.text)
    return path

end Store

end FlatTables
