import FlatTables.Json.Fault
import FlatTables.Json.Number

set_option autoImplicit false

/-! # The lexemes of a document

A document is cut into lexemes by an automaton that reads one character at a time. A lexeme is a
token with the places where it starts and stops, counted in bytes.

Whether a token is good can depend on what it is read for. A reader that wants the value of a number
or a string finds faults in it that do not show to one that passes over it: a number beyond the
doubles, and half of a surrogate pair that stands alone. So these tokens hold their value or its
fault. A text that cannot be continued to a token at all ends in a `broken` one, with a fault for
either reader, or in `junk`; nothing after it is cut. -/

namespace FlatTables.Json

/-- A value that is neither an array nor an object. -/
inductive Scalar
  | null
  | bool (value : Bool)
  | number (value : Except Fault JsonNumber)
  | string (value : Except Fault String)

inductive Token
  | openObject
  | closeObject
  | openArray
  | closeArray
  | comma
  | colon
  | scalar (value : Scalar)
  /-- The start of a scalar that goes wrong: the fault for a reader that wants its value, and the
  fault for one that passes over it. -/
  | broken (isString : Bool) (wanted passed : Fault)
  /-- A character that starts no token. -/
  | junk
  /-- The end of the document. -/
  | ending

/-- Where a token stands. -/
structure Span where
  start : Nat
  stop : Nat
  /-- Where a reader stands after the token when it has looked on for the end of an object: in front
  of the next token, or behind it if it is that end. -/
  onward : Nat
  deriving DecidableEq

structure Lexeme where
  token : Token
  span : Span

namespace Lexeme

/-- A lexeme that nothing is known to follow. -/
def lone (token : Token) (start stop : Nat) : Lexeme := ⟨token, start, stop, stop⟩

/-- Where a reader stands that has looked at the lexeme's first byte. -/
def glance (l : Lexeme) : Nat :=
  match l.token with
  | .ending => l.span.start
  | _ => l.span.start + 1

/-- Where a reader stands that meets the lexeme in search of the end of an object. -/
def met (l : Lexeme) : Nat :=
  match l.token with
  | .closeObject => l.span.stop
  | _ => l.span.start

end Lexeme

/-! ## Strings -/

/-- The value of a hexadecimal digit. -/
def hexValue? (c : Char) : Option Nat :=
  if '0' ≤ c && c ≤ '9' then some (c.toNat - '0'.toNat)
  else if 'a' ≤ c && c ≤ 'f' then some (c.toNat - 'a'.toNat + 10)
  else if 'A' ≤ c && c ≤ 'F' then some (c.toNat - 'A'.toNat + 10)
  else none

/-- The character that a backslash and `c` stand for. -/
def simpleEscape? (c : Char) : Option Char :=
  if c = '"' || c = '\\' || c = '/' then some c
  else if c = 'b' then some '\x08'
  else if c = 'f' then some '\x0c'
  else if c = 'n' then some '\n'
  else if c = 'r' then some '\r'
  else if c = 't' then some '\t'
  else none

/-- What has been read of a string: its characters, latest first, the first half of a surrogate pair
if it has just been read, and the first fault of the value. -/
structure Inner where
  chars : List Char
  high : Option Nat
  fault : Option Fault

namespace Inner

def empty : Inner := ⟨[], none, none⟩

/-- The string after a fault, unless it had one before. -/
def spoil (s : Inner) (fault : Fault) : Inner :=
  { s with high := none, fault := s.fault.or (some fault) }

/-- The string after a byte at `offset` that starts or continues no escape by number. -/
def interrupt (s : Inner) (offset : Nat) : Inner :=
  if s.high.isSome then s.spoil ⟨.openSurrogate, offset + 1⟩ else s

/-- The string with one more character. -/
def push (s : Inner) (c : Char) : Inner := { s with chars := c :: s.chars, high := none }

/-- The string after an escape by the number of a 16-bit unit that ends at `offset`. A unit of the
first half of the surrogates needs one of the second half right after it. -/
def pushUnit (s : Inner) (n offset : Nat) : Inner :=
  let isLow := 0xdc00 ≤ n && n ≤ 0xdfff
  match s.high with
  | some high =>
    if isLow then s.push (Char.ofNat (0x10000 + (high - 0xd800) * 0x400 + (n - 0xdc00)))
    else s.spoil ⟨.loneSurrogate, offset⟩
  | none =>
    if isLow then s.spoil ⟨.loneSurrogate, offset⟩
    else if 0xd800 ≤ n && n ≤ 0xdbff then { s with high := some n }
    else s.push (Char.ofNat n)

/-- The value of a complete string. -/
def value (s : Inner) : Except Fault String :=
  match s.fault with
  | some fault => .error fault
  | none => .ok (String.ofList s.chars.reverse)

/-- The token of a string that goes wrong. -/
def broken (s : Inner) (wanted passed : Fault) : Token := .broken true (s.fault.getD wanted) passed

end Inner

/-! ## Numbers -/

/-- How far the text of a number has come. -/
inductive NumberStage
  | minus
  | zero
  | whole
  | point
  | fraction
  | exponentMark
  | exponentSign
  | exponent
  deriving DecidableEq

namespace NumberStage

/-- Whether a number may end here. -/
def isComplete : NumberStage → Bool
  | zero | whole | fraction | exponent => true
  | minus | point | exponentMark | exponentSign => false

/-- The stage after `c`, if `c` can continue the number. A leading zero is continued by nothing but
a point or an exponent. -/
def next? (stage : NumberStage) (c : Char) : Option NumberStage :=
  match stage with
  | minus => if c = '0' then some zero else if c.isDigit then some whole else none
  | zero => if c = '.' then some point else if c = 'e' || c = 'E' then some exponentMark else none
  | whole =>
    if c.isDigit then some whole
    else if c = '.' then some point
    else if c = 'e' || c = 'E' then some exponentMark
    else none
  | point => if c.isDigit then some fraction else none
  | fraction =>
    if c.isDigit then some fraction
    else if c = 'e' || c = 'E' then some exponentMark
    else none
  | exponentMark =>
    if c = '+' || c = '-' then some exponentSign else if c.isDigit then some exponent else none
  | exponentSign => if c.isDigit then some exponent else none
  | exponent => if c.isDigit then some exponent else none

/-- Whether a number may not end here because of the `c` that follows: a digit after a leading
zero spoils the number. -/
def spoiledBy (stage : NumberStage) (c : Char) : Bool :=
  stage = zero && c.isDigit

end NumberStage

/-! ## The automaton -/

/-- What is being read. Texts read so far are kept latest character first. -/
inductive Mode
  /-- Between two tokens. -/
  | between
  /-- Inside one of the words `null`, `true` and `false`; `next` and `rest` are still to come. -/
  | word (start : Nat) (next : Char) (rest : List Char) (value : Scalar)
  | number (start : Nat) (stage : NumberStage) (text : List Char)
  | string (start : Nat) (inner : Inner)
  /-- After a backslash. -/
  | escape (start : Nat) (inner : Inner)
  /-- After a backslash and `u`; of the four digits from `first` on, `missing` are still to come. -/
  | unit (start first missing value : Nat) (inner : Inner)
  /-- After something that is no token. -/
  | lost

/-- Whether `c` may stand anywhere between two tokens. -/
def isSpace (c : Char) : Bool := c == ' ' || c == '\n' || c == '\t' || c == '\r'

/-- The lexemes completed by `c` at `offset` where a token may start, and how to go on. -/
def begin (offset : Nat) (c : Char) : List Lexeme × Mode :=
  let mark := fun token => ([Lexeme.lone token offset (offset + 1)], Mode.between)
  if isSpace c then ([], .between)
  else if c = '\x7b' then mark .openObject
  else if c = '\x7d' then mark .closeObject
  else if c = '[' then mark .openArray
  else if c = ']' then mark .closeArray
  else if c = ',' then mark .comma
  else if c = ':' then mark .colon
  else if c = '"' then ([], .string offset .empty)
  else if c = 'n' then ([], .word offset 'u' ['l', 'l'] .null)
  else if c = 't' then ([], .word offset 'r' ['u', 'e'] (.bool true))
  else if c = 'f' then ([], .word offset 'a' ['l', 's', 'e'] (.bool false))
  else if c = '-' then ([], .number offset .minus [c])
  else if c = '0' then ([], .number offset .zero [c])
  else if c.isDigit then ([], .number offset .whole [c])
  else ([.lone .junk offset (offset + 1)], .lost)

/-- The lexeme of a scalar. -/
def scalarLexeme (value : Scalar) (start stop : Nat) : Lexeme := .lone (.scalar value) start stop

/-- The lexeme of a complete number. -/
def numberLexeme (start : Nat) (text : List Char) : Lexeme :=
  let text := text.reverse
  let value := match JsonNumber.ofText? text with
    | some n => .ok n
    | none => .error ⟨.numberOutOfRange, start + JsonNumber.charsTaken text⟩
  scalarLexeme (.number value) start (start + text.length)

/-- A token that goes wrong, which ends the cutting. -/
def breakAt (start : Nat) (token : Token) : List Lexeme × Mode := ([.lone token start start], .lost)

/-- A token that goes wrong in the same way for every reader. -/
def breakWith (start : Nat) (damage : Damage) (offset : Nat) : List Lexeme × Mode :=
  breakAt start (.broken false ⟨damage, offset⟩ ⟨damage, offset⟩)

/-- The fault of an escape by number that does not have four digits from `first` on: all four are
taken before they are looked at. -/
def unitFault (size first : Nat) : Fault :=
  if first + 4 ≤ size then ⟨.badEscape, first + 4⟩ else ⟨.endInString, size⟩

/-- The lexemes completed by `c` at `offset` in a document of `size` bytes, and how to go on. -/
def step (size offset : Nat) : Mode → Char → List Lexeme × Mode
  | .between, c => begin offset c
  | .word start next rest value, c =>
    if c = next then
      match rest with
      | [] => ([scalarLexeme value start (offset + 1)], .between)
      | next' :: rest' => ([], .word start next' rest' value)
    else breakWith start .noWord (offset + 1)
  | .number start stage text, c =>
    match stage.next? c with
    | some stage' => ([], .number start stage' (c :: text))
    | none =>
      if stage.isComplete && !stage.spoiledBy c then
        let (lexemes, mode) := begin offset c
        (numberLexeme start text :: lexemes, mode)
      else breakWith start .badNumber (offset + 1)
  | .string start inner, c =>
    if c = '\\' then ([], .escape start inner)
    else
      let inner := inner.interrupt offset
      if c = '"' then ([scalarLexeme (.string inner.value) start (offset + 1)], .between)
      else if c < ' ' then
        breakAt start (inner.broken ⟨.controlCharacter, offset + 1⟩ ⟨.controlCharacter, offset⟩)
      else ([], .string start (inner.push c))
  | .escape start inner, c =>
    if c = 'u' then ([], .unit start (offset + 1) 4 0 inner)
    else
      let inner := inner.interrupt offset
      match simpleEscape? c with
      | some e => ([], .string start (inner.push e))
      | none => breakAt start (inner.broken ⟨.badEscape, offset + 1⟩ ⟨.badEscape, offset + 1⟩)
  | .unit start first missing value inner, c =>
    match hexValue? c with
    | none => breakAt start (inner.broken (unitFault size first) (unitFault size first))
    | some d =>
      let value' := 16 * value + d
      if missing ≤ 1 then ([], .string start (inner.pushUnit value' (offset + 1)))
      else ([], .unit start first (missing - 1) value' inner)
  | .lost, _ => ([], .lost)

/-- The lexemes completed by the end of a document of `size` bytes. -/
def finish (size : Nat) : Mode → List Lexeme
  | .between | .lost => []
  | .number start stage text =>
    if stage.isComplete then [numberLexeme start text]
    else [.lone (.broken false ⟨.endInValue, size⟩ ⟨.badNumber, size⟩) start start]
  | .word start _ _ _ => (breakWith start .endInValue size).1
  | .string start inner | .escape start inner | .unit start _ _ _ inner =>
    (breakAt start (inner.broken ⟨.endInString, size⟩ ⟨.endInString, size⟩)).1

/-- The lexemes of the characters that are still to be read in a mode, from `offset` on. -/
def lexemesFrom (size : Nat) : (offset : Nat) → Mode → List Char → List Lexeme
  | _, mode, [] => finish size mode
  | offset, mode, c :: cs =>
    let (lexemes, mode') := step size offset mode c
    lexemes ++ lexemesFrom size (offset + c.utf8Size) mode' cs

/-- The lexemes, each with the knowledge of the one that follows it. -/
def lookOnward (size : Nat) : List Lexeme → List Lexeme
  | [] => []
  | l :: rest =>
    let onward := match rest with
      | [] => size
      | next :: _ => next.met
    { l with span := { l.span with onward := onward } } :: lookOnward size rest

/-- The lexemes of a document. -/
def lexemes (s : String) : List Lexeme :=
  lookOnward s.utf8ByteSize (lexemesFrom s.utf8ByteSize 0 .between s.toList)

/-- The lexeme behind all others. -/
def lastLexeme (s : String) : Lexeme := .lone .ending s.utf8ByteSize s.utf8ByteSize

end FlatTables.Json
