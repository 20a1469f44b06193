set_option autoImplicit false

/-! # Paths

A path is kept as the text in which it was given, because messages show that text. Its parts are
what stands between slashes. Joining and taking the directory of a path work on the text; where a
path leads is a matter of the tree (`FlatTables.File.Tree`). -/

namespace FlatTables

/-- A path, absolute if it begins with a slash. -/
structure Path where
  text : String
  deriving DecidableEq

namespace Path

/-- A part of a path: this directory, the directory above, or something inside. -/
inductive Part
  | here
  | up
  | name (name : String)
  deriving DecidableEq

/-- The part that stands between two slashes. -/
def Part.ofText (text : String) : Part :=
  if text = "." then .here else if text = ".." then .up else .name text

/-- The texts between the slashes of `cs`; `current` is what has been read of the first, last
character first. Empty texts are left out. -/
def splitAtSlashes (current : List Char) : List Char → List String
  | [] => if current.isEmpty then [] else [String.ofList current.reverse]
  | c :: cs =>
    if c = '/' then
      if current.isEmpty then splitAtSlashes [] cs
      else String.ofList current.reverse :: splitAtSlashes [] cs
    else splitAtSlashes (c :: current) cs

def parts (p : Path) : List Part := (splitAtSlashes [] p.text.toList).map Part.ofText

def isAbsolute (p : Path) : Bool := p.text.toList.head? == some '/'

/-- Whether only a directory can stand at the path. -/
def endsInSlash (p : Path) : Bool := p.text.toList.getLast? == some '/'

/-- The path of `part` as seen from `p`. An absolute part stands for itself. -/
def join (p : Path) (part : String) : Path :=
  if part.toList.head? == some '/' || p.text.toList.isEmpty then ⟨part⟩
  else if p.endsInSlash then ⟨p.text ++ part⟩
  else ⟨p.text ++ "/" ++ part⟩

/-- A reversed path text without slashes and parts `.` at its end. The slash of the root and a
leading `.` stay. -/
def trimReversed : List Char → List Char
  | ['/'] => ['/']
  | '/' :: rest => trimReversed rest
  | '.' :: '/' :: rest => trimReversed ('/' :: rest)
  | cs => cs

/-- The directory in which the last part of `p` stands. The root and the empty path have none. -/
def parent? (p : Path) : Option Path :=
  let trimmed := trimReversed p.text.toList.reverse
  if trimmed = [] || trimmed = ['/'] then none
  else some ⟨String.ofList (trimReversed (trimmed.dropWhile (· != '/'))).reverse⟩

end Path

end FlatTables
