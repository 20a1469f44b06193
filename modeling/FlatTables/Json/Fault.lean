import FlatTables.Text.Utf8

set_option autoImplicit false

/-! # What is wrong with a document, and where

A `Fault` is a damage with the number of bytes that a reader has taken when it notices. People are
shown a `Place` instead: lines count from one, and the column is the number of bytes that have been
taken of the line. -/

namespace FlatTables.Json

/-- The ways in which a text fails to be a JSON document. -/
inductive Damage
  | endInArray
  | endInObject
  | endInString
  | endInValue
  | noColon
  | noItemEnd
  | noMemberEnd
  | noWord
  | noValue
  | badEscape
  | badNumber
  | numberOutOfRange
  | controlCharacter
  | keyNoString
  /-- An escape of half a surrogate pair that has no other half where it should be. -/
  | loneSurrogate
  | trailingComma
  | trailingText
  /-- The first half of a surrogate pair is followed by no escape at all. -/
  | openSurrogate
  deriving DecidableEq, Repr

def Damage.text : Damage → String
  | endInArray => "EOF while parsing a list"
  | endInObject => "EOF while parsing an object"
  | endInString => "EOF while parsing a string"
  | endInValue => "EOF while parsing a value"
  | noColon => "expected `:`"
  | noItemEnd => "expected `,` or `]`"
  | noMemberEnd => "expected `,` or `\x7d`"
  | noWord => "expected ident"
  | noValue => "expected value"
  | badEscape => "invalid escape"
  | badNumber => "invalid number"
  | numberOutOfRange => "number out of range"
  | controlCharacter => "control character (\\u0000-\\u001F) found while parsing a string"
  | keyNoString => "key must be a string"
  | loneSurrogate => "lone leading surrogate in hex escape"
  | trailingComma => "trailing comma"
  | trailingText => "trailing characters"
  | openSurrogate => "unexpected end of hex escape"

/-- A damage that is noticed after a number of bytes. -/
structure Fault where
  damage : Damage
  offset : Nat
  deriving DecidableEq

/-! ## Places -/

/-- A place in a text. -/
structure Place where
  line : Nat
  column : Nat
  deriving DecidableEq

namespace Place

/-- The place after one more byte. -/
def next (p : Place) (byte : UInt8) : Place :=
  if byte = 10 then ⟨p.line + 1, 0⟩ else ⟨p.line, p.column + 1⟩

/-- The place after the first `offset` bytes of a text. -/
def ofOffset (text : String) (offset : Nat) : Place :=
  ((Text.encode text).take offset).foldl next ⟨1, 0⟩

/-- How a place stands at the end of a message. -/
def suffix (p : Place) : String := " at line " ++ p.line.repr ++ " column " ++ p.column.repr

end Place

end FlatTables.Json
