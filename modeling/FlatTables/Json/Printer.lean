import FlatTables.Json.Basic
import FlatTables.Text.Quoted

set_option autoImplicit false

/-! # Writing JSON

`compact` writes a value without blanks, `pretty` with one member or item a line, indented by two
spaces a level. Neither changes the order of members, and neither ends in a line break. -/

namespace FlatTables.Json

/-! ## Strings -/

/-- How one character stands inside a string: quotes, backslashes and control characters are
escaped, and nothing else. -/
def escapedChar (c : Char) : List Char :=
  if c = '"' then ['\\', '"']
  else if c = '\\' then ['\\', '\\']
  else if c = '\x08' then ['\\', 'b']
  else if c = '\x0c' then ['\\', 'f']
  else if c = '\n' then ['\\', 'n']
  else if c = '\r' then ['\\', 'r']
  else if c = '\t' then ['\\', 't']
  else if c < ' ' then
    ['\\', 'u', '0', '0', Nat.digitChar (c.toNat / 16), Nat.digitChar (c.toNat % 16)]
  else [c]

/-- The text of a string. -/
def stringChars (s : String) : List Char :=
  '"' :: s.toList.flatMap escapedChar ++ ['"']

/-! ## Without blanks -/

mutual

/-- The characters of a value written without blanks. -/
def compactChars : Json → List Char
  | .null => ['n', 'u', 'l', 'l']
  | .bool true => ['t', 'r', 'u', 'e']
  | .bool false => ['f', 'a', 'l', 's', 'e']
  | .number n => n.text.toList
  | .string s => stringChars s
  | .array items => '[' :: compactItems true items ++ [']']
  | .object members => '\x7b' :: compactMembers true members ++ ['\x7d']

/-- The items of an array, with a comma before each but the first. -/
def compactItems (first : Bool) : List Json → List Char
  | [] => []
  | item :: rest =>
    (if first then [] else [',']) ++ compactChars item ++ compactItems false rest

/-- The members of an object, with a comma before each but the first. -/
def compactMembers (first : Bool) : List (String × Json) → List Char
  | [] => []
  | (key, value) :: rest =>
    (if first then [] else [',']) ++ stringChars key ++ ':' :: compactChars value ++
      compactMembers false rest

end

/-- The text of a value, without blanks. -/
def compact (j : Json) : String := String.ofList j.compactChars

/-! ## Indented -/

/-- A line break and the indentation of a level. -/
def newline (level : Nat) : List Char := '\n' :: List.replicate (2 * level) ' '

mutual

/-- The characters of a value that stands at the given level. -/
def prettyChars (level : Nat) : Json → List Char
  | .array [] => ['[', ']']
  | .array items => '[' :: prettyItems (level + 1) true items ++ newline level ++ [']']
  | .object [] => ['\x7b', '\x7d']
  | .object members =>
    '\x7b' :: prettyMembers (level + 1) true members ++ newline level ++ ['\x7d']
  | scalar => compactChars scalar

/-- The items of an array, each on a line of its own. -/
def prettyItems (level : Nat) (first : Bool) : List Json → List Char
  | [] => []
  | item :: rest =>
    (if first then [] else [',']) ++ newline level ++ prettyChars level item ++
      prettyItems level false rest

/-- The members of an object, each on a line of its own. -/
def prettyMembers (level : Nat) (first : Bool) : List (String × Json) → List Char
  | [] => []
  | (key, value) :: rest =>
    (if first then [] else [',']) ++ newline level ++ stringChars key ++ ':' :: ' ' ::
      prettyChars level value ++ prettyMembers level false rest

end

/-- The text of a value, indented. -/
def pretty (j : Json) : String := String.ofList (j.prettyChars 0)

end FlatTables.Json
