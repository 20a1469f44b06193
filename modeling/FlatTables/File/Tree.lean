import FlatTables.File.Path
import FlatTables.Lookup

set_option autoImplicit false

/-! # Files and directories

A `FileTree` says what stands at each location. A location is the list of the names that lead to it
from the root, innermost first, so the directory around a location is the tail of the list. Paths
are resolved part by part, and every part but the last has to be a directory.

A function that fails leaves the tree as it was, except that `createDirectories` keeps the outer
directories it has made. A file is not written at once: it is opened, which leaves it empty, and
then takes its bytes, which can stop halfway (`FlatTables.World`). What `write` says is how the tree
looks when a file holds a given content. -/

namespace FlatTables

/-- The names that lead to a place, innermost first. -/
abbrev Location := List String

/-- What stands at a location. -/
inductive Node
  | file (content : List UInt8)
  | directory
  deriving DecidableEq

/-- Why the system refused an operation on files. -/
inductive FileError
  | notFound
  | permissionDenied
  | alreadyExists
  | notDirectory
  | isDirectory
  | nameTooLong
  /-- The path holds a NUL character. -/
  | invalidPath
  /-- The content is no UTF-8 text. -/
  | invalidText
  /-- Any other refusal, with the text and the number that the system has for it. -/
  | other (text : String) (number : Nat)
  deriving DecidableEq

def FileError.message : FileError → String
  | notFound => "No such file or directory (os error 2)"
  | permissionDenied => "Permission denied (os error 13)"
  | alreadyExists => "File exists (os error 17)"
  | notDirectory => "Not a directory (os error 20)"
  | isDirectory => "Is a directory (os error 21)"
  | nameTooLong => "File name too long (os error 36)"
  | invalidPath => "file name contained an unexpected NUL byte"
  | invalidText => "stream did not contain valid UTF-8"
  | other text number => text ++ " (os error " ++ number.repr ++ ")"

/-- The files and directories of a system, with the directory in which relative paths start. -/
structure FileTree where
  /-- What stands at each location; the latest entry for a location counts. -/
  nodes : List (Location × Node)
  /-- The current directory. -/
  here : Location
  /-- The locations at which nothing may be written, created or removed. -/
  locked : List Location

namespace FileTree

/-! ## Locations -/

/-- What stands at a location. The root is a directory. -/
def node? (t : FileTree) (loc : Location) : Option Node :=
  if loc = [] then some .directory else t.nodes.lookup loc

/-- The tree `t` with `node` at `loc`. -/
def put (t : FileTree) (loc : Location) (node : Node) : FileTree :=
  { t with nodes := (loc, node) :: t.nodes.filter (·.1 != loc) }

/-- The tree `t` with nothing at `loc`. -/
def erase (t : FileTree) (loc : Location) : FileTree :=
  { t with nodes := t.nodes.filter (·.1 != loc) }

/-- The tree `t` with nothing at `loc` or inside it. -/
def eraseAll (t : FileTree) (loc : Location) : FileTree :=
  { t with nodes := t.nodes.filter fun p => !loc.isSuffixOf p.1 }

theorem node?_put (t : FileTree) {loc : Location} (h : loc ≠ []) (node : Node) (other : Location) :
    (t.put loc node).node? other = if other = loc then some node else t.node? other := by
  simp only [node?, put]
  by_cases ho : other = loc
  · simp [ho, h]
  · simp [ho, lookup_pair_cons, lookup_filter_ne]

theorem node?_erase (t : FileTree) {loc : Location} (h : loc ≠ []) (other : Location) :
    (t.erase loc).node? other = if other = loc then none else t.node? other := by
  simp only [node?, erase]
  by_cases ho : other = loc
  · simp [ho, h, lookup_filter_ne]
  · simp [ho, lookup_filter_ne]

/-! ## Resolving paths -/

/-- The longest name of a file or directory, in bytes. -/
def maxNameLength : Nat := 255

/-- A path of this many bytes or more is refused. -/
def pathLengthLimit : Nat := 4096

/-- Refuse a path that leads nowhere in any tree. -/
def checkPath (p : Path) : Except FileError Unit :=
  if p.text.toList.contains '\x00' then .error .invalidPath
  else if p.text = "" then .error .notFound
  else if pathLengthLimit ≤ p.text.utf8ByteSize then .error .nameTooLong
  else .ok ()

/-- Where a path starts. -/
def startOf (t : FileTree) (p : Path) : Location := if p.isAbsolute then [] else t.here

/-- Refuse a location that is no directory. -/
def checkDirectory (t : FileTree) (loc : Location) : Except FileError Unit :=
  match t.node? loc with
  | some .directory => .ok ()
  | some (.file _) => .error .notDirectory
  | none => .error .notFound

/-- The location one part further. -/
def enter (t : FileTree) (loc : Location) (part : Path.Part) : Except FileError Location := do
  t.checkDirectory loc
  match part with
  | .here => .ok loc
  | .up => .ok loc.tail
  | .name name =>
    if maxNameLength < name.utf8ByteSize then .error .nameTooLong else .ok (name :: loc)

/-- The location to which the parts lead. -/
def walk (t : FileTree) : Location → List Path.Part → Except FileError Location
  | loc, [] => .ok loc
  | loc, part :: rest => do
    let next ← t.enter loc part
    t.walk next rest

/-- The location to which a path leads; something need not stand there yet. -/
def locate (t : FileTree) (p : Path) : Except FileError Location := do
  checkPath p
  t.walk (t.startOf p) p.parts

/-! ## Looking -/

/-- What stands at a path. -/
def find (t : FileTree) (p : Path) : Except FileError Node := do
  let loc ← t.locate p
  match t.node? loc with
  | none => .error .notFound
  | some (.file content) => if p.endsInSlash then .error .notDirectory else .ok (.file content)
  | some .directory => .ok .directory

/-- Whether something stands at a path. -/
def contains (t : FileTree) (p : Path) : Bool :=
  match t.find p with
  | .ok _ => true
  | .error _ => false

def isDirectory (t : FileTree) (p : Path) : Bool :=
  match t.find p with
  | .ok .directory => true
  | _ => false

/-- The content of a file. -/
def read (t : FileTree) (p : Path) : Except FileError (List UInt8) := do
  match ← t.find p with
  | .file content => .ok content
  | .directory => .error .isDirectory

/-! ## Changing -/

/-- Refuse a location at which nothing may change. -/
def checkUnlocked (t : FileTree) (loc : Location) : Except FileError Unit :=
  if loc ∈ t.locked then .error .permissionDenied else .ok ()

/-- The location for a file at a path. A path that ends in a slash means a directory, whatever
stands there, and its last name is not even looked at. -/
def locateFile (t : FileTree) (p : Path) : Except FileError Location := do
  if p.endsInSlash then
    checkPath p
    let outer ← t.walk (t.startOf p) p.parts.dropLast
    t.checkDirectory outer
    .error .isDirectory
  else t.locate p

/-- The tree with a file of the given content at a path, in place of a file that stood there. It
depends on the path alone whether a file can be there. -/
def write (t : FileTree) (p : Path) (content : List UInt8) : Except FileError FileTree := do
  let loc ← t.locateFile p
  if t.node? loc = some .directory then .error .isDirectory
  t.checkUnlocked loc
  .ok (t.put loc (.file content))

/-- The tree without the file at a path. -/
def remove (t : FileTree) (p : Path) : Except FileError FileTree := do
  match ← t.find p with
  | .directory => .error .isDirectory
  | .file _ => .ok ()
  let loc ← t.locate p
  t.checkUnlocked loc
  .ok (t.erase loc)

/-- The tree without the directory at a path and all it holds. -/
def removeDirectory (t : FileTree) (p : Path) : Except FileError FileTree := do
  match ← t.find p with
  | .directory => .ok ()
  | .file _ => .error .notDirectory
  let loc ← t.locate p
  t.checkUnlocked loc
  .ok (t.eraseAll loc)

/-- The tree with a directory where the parts lead from a location, made if nothing is there. The
directory around it has to exist. -/
def provide (t : FileTree) : Location → List Path.Part → Except FileError FileTree
  | _, [] => .ok t
  | loc, [part] => do
    let target ← t.enter loc part
    match t.node? target with
    | some .directory => .ok t
    | some (.file _) => .error .alreadyExists
    | none => do
      t.checkUnlocked target
      .ok (t.put target .directory)
  | loc, part :: rest => do
    let next ← t.enter loc part
    t.provide next rest

/-- What came of a change, and the tree after it. -/
def settle (t : FileTree) : Except FileError FileTree → Except FileError Unit × FileTree
  | .ok t' => (.ok (), t')
  | .error e => (.error e, t)

/-- Make the directory to which the parts lead from `start`. If something on the way is missing, the
directory around it is made first, to which all but the innermost of `names` leads; these are the
parts that lead somewhere, innermost first. -/
def createParts (t : FileTree) (start : Location) (parts : List Path.Part) :
    (names : List Path.Part) → Except FileError Unit × FileTree
  | [] => t.settle (t.provide start parts)
  | _ :: outer =>
    match t.provide start parts with
    | .error .notFound =>
      match createParts t start outer.reverse outer with
      | (.ok (), t') => t'.settle (t'.provide start parts)
      | failed => failed
    | result => t.settle result

/-- Make the directory at a path and those around it, as far as they do not exist. There is nothing
to make for the empty path. A part `.` at the end asks for a directory that exists, so nothing is
made for what stands before it. -/
def createDirectories (t : FileTree) (p : Path) : Except FileError Unit × FileTree :=
  if p.text = "" then (.ok (), t)
  else
    match checkPath p with
    | .error e => (.error e, t)
    | .ok () => createParts t (t.startOf p) p.parts (p.parts.filter (· ≠ .here)).reverse

/-! ## Listing -/

/-- The names that lead from the current directory to `loc`, outermost first, if it lies below. -/
def below? (t : FileTree) (loc : Location) : Option (List String) :=
  let depth := loc.length - t.here.length
  if t.here.length < loc.length && loc.drop depth = t.here then some (loc.take depth).reverse
  else none

/-- Every path below the current directory, a directory with a slash at its end. -/
def listing (t : FileTree) : List String :=
  let texts := t.nodes.filterMap fun (loc, node) =>
    (t.below? loc).map fun names =>
      "/".intercalate names ++ (if node = .directory then "/" else "")
  texts.mergeSort

end FileTree

end FlatTables
