import FlatTables.Dictionary
import FlatTables.Json.Lexeme

set_option autoImplicit false

/-! # Documents as far as they go

A `Draft` is what a text holds up to the point where it stops being JSON. Everything that was not
closed by then ends in the same `Break`, which says what should have come and what came instead.
Whoever reads a draft from front to back therefore meets its contents in the order of the text, and
notices a damaged document exactly where the damage is. A reader that wants a value can find another
fault than one that passes over it (`Break.wanted`, `Break.passed`).

Members keep their order, and a repeated key stays repeated. `Draft.value?` gives the plain JSON
value of an undamaged draft. -/

namespace FlatTables

namespace Json

/-! ## Where a document breaks off -/

/-- What may come next in a document. -/
inductive Expected
  /-- The value of the document or of a member. -/
  | value
  /-- The first value of an array, or its end. -/
  | firstItem
  /-- The value after a comma. -/
  | nextItem
  /-- A comma, or the end of an array. -/
  | itemEnd
  /-- The first key of an object, or its end. -/
  | firstKey
  /-- The key after a comma. -/
  | nextKey
  | colon
  /-- A comma, or the end of an object. -/
  | memberEnd
  deriving DecidableEq

/-- A point at which a document goes wrong: what should have come, and what came instead. -/
structure Break where
  expected : Expected
  found : Lexeme

namespace Break

/-- A fault that shows at the first byte of what was found. -/
def atGlance (b : Break) (damage : Damage) : Fault := ⟨damage, b.found.glance⟩

/-- The fault for a reader that wants what should have come. -/
def wanted (b : Break) : Fault :=
  match b.expected, b.found.token with
  | .value, .ending | .nextItem, .ending | .nextKey, .ending => b.atGlance .endInValue
  | .firstItem, .ending | .itemEnd, .ending => b.atGlance .endInArray
  | .firstKey, .ending | .colon, .ending | .memberEnd, .ending => b.atGlance .endInObject
  | .nextItem, .closeArray | .nextKey, .closeObject => b.atGlance .trailingComma
  | .firstKey, .broken true fault _ | .nextKey, .broken true fault _ => fault
  | .value, .broken _ fault _ => fault
  | .firstItem, .broken _ fault _ | .nextItem, .broken _ fault _ => fault
  | .value, _ | .firstItem, _ | .nextItem, _ => b.atGlance .noValue
  | .firstKey, _ | .nextKey, _ => b.atGlance .keyNoString
  | .colon, _ => b.atGlance .noColon
  | .itemEnd, _ => b.atGlance .noItemEnd
  | .memberEnd, _ => b.atGlance .noMemberEnd

/-- The fault for a reader that passes over what should have come. -/
def passed (b : Break) : Fault :=
  match b.expected, b.found.token with
  | .nextKey, .ending => b.atGlance .endInObject
  | .nextItem, .closeArray => b.atGlance .noValue
  | .nextKey, .closeObject => b.atGlance .keyNoString
  | .firstKey, .broken true _ fault | .nextKey, .broken true _ fault => fault
  | .value, .broken _ _ fault => fault
  | .firstItem, .broken _ _ fault | .nextItem, .broken _ _ fault => fault
  | _, _ => b.wanted

end Break

/-! ## Drafts -/

/-- The key of a member. -/
structure Key where
  name : Except Fault String
  span : Span

/-- How an array or object ends: at an offset, or not at all. -/
abbrev Ending := Except Break Nat

/-- A JSON value that may break off. -/
inductive Draft
  | scalar (value : Scalar) (span : Span)
  | array (start : Nat) (items : List Draft) (ending : Ending)
  | object (start : Nat) (members : List (Key × Draft)) (ending : Ending)
  /-- A value that does not come. -/
  | missing (cause : Break)

/-- A whole document: its value, and where a reader stands that has looked at what follows it,
unless that is nothing but blanks. -/
structure Document where
  root : Draft
  excess : Option Nat

/-! ## Building a draft from lexemes -/

/-- An array or object that waits for the value of an item or a member. What it holds so far comes
latest first. -/
inductive Frame
  | array (start : Nat) (items : List Draft)
  | member (start : Nat) (members : List (Key × Draft)) (key : Key)

/-- How far the building of a document has come: what is expected next, in which array or object,
and the frames around it, innermost first. -/
inductive Progress
  | value (outer : List Frame)
  | firstItem (start : Nat) (outer : List Frame)
  | nextItem (start : Nat) (items : List Draft) (outer : List Frame)
  | itemEnd (start : Nat) (items : List Draft) (outer : List Frame)
  | firstKey (start : Nat) (outer : List Frame)
  | nextKey (start : Nat) (members : List (Key × Draft)) (outer : List Frame)
  | colon (start : Nat) (members : List (Key × Draft)) (key : Key) (outer : List Frame)
  | memberEnd (start : Nat) (members : List (Key × Draft)) (outer : List Frame)
  /-- The value of the document is complete. -/
  | finished (root : Draft)
  /-- The document is damaged, or something follows its value; nothing further is read. -/
  | stopped (document : Document)

/-- The document that breaks off inside `inner`, which stands in the given frames. -/
def breakOff (cause : Break) (inner : Draft) : List Frame → Document
  | [] => ⟨inner, none⟩
  | .array start items :: outer =>
    breakOff cause (.array start (inner :: items).reverse (.error cause)) outer
  | .member start members key :: outer =>
    breakOff cause (.object start ((key, inner) :: members).reverse (.error cause)) outer

/-- The document when `l` comes and cannot be gone on with. -/
def Progress.documentAt (l : Lexeme) : Progress → Document
  | .value outer => breakOff ⟨.value, l⟩ (.missing ⟨.value, l⟩) outer
  | .firstItem start outer =>
    breakOff ⟨.firstItem, l⟩ (.missing ⟨.firstItem, l⟩) (.array start [] :: outer)
  | .nextItem start items outer =>
    breakOff ⟨.nextItem, l⟩ (.missing ⟨.nextItem, l⟩) (.array start items :: outer)
  | .itemEnd start items outer =>
    breakOff ⟨.itemEnd, l⟩ (.array start items.reverse (.error ⟨.itemEnd, l⟩)) outer
  | .firstKey start outer =>
    breakOff ⟨.firstKey, l⟩ (.object start [] (.error ⟨.firstKey, l⟩)) outer
  | .nextKey start members outer =>
    breakOff ⟨.nextKey, l⟩ (.object start members.reverse (.error ⟨.nextKey, l⟩)) outer
  | .colon start members key outer =>
    breakOff ⟨.colon, l⟩ (.missing ⟨.colon, l⟩) (.member start members key :: outer)
  | .memberEnd start members outer =>
    breakOff ⟨.memberEnd, l⟩ (.object start members.reverse (.error ⟨.memberEnd, l⟩)) outer
  | .finished root =>
    match l.token with
    | .ending => ⟨root, none⟩
    | _ => ⟨root, some l.glance⟩
  | .stopped document => document

/-- Go on after a complete value inside the given frames. -/
def complete (value : Draft) : List Frame → Progress
  | [] => .finished value
  | .array start items :: outer => .itemEnd start (value :: items) outer
  | .member start members key :: outer => .memberEnd start ((key, value) :: members) outer

/-- Go on with a lexeme that starts a value inside the given frames. -/
def beginValue? (frames : List Frame) (l : Lexeme) : Option Progress :=
  match l.token with
  | .scalar value => some (complete (.scalar value l.span) frames)
  | .openArray => some (.firstItem l.span.start frames)
  | .openObject => some (.firstKey l.span.start frames)
  | _ => none

/-- Go on with a lexeme that is the key of a member. -/
def beginMember? (start : Nat) (members : List (Key × Draft)) (outer : List Frame) (l : Lexeme) :
    Option Progress :=
  match l.token with
  | .scalar (.string name) => some (.colon start members ⟨name, l.span⟩ outer)
  | _ => none

/-- Go on with one more lexeme, if it may come here. -/
def advance? (l : Lexeme) : Progress → Option Progress
  | .value outer => beginValue? outer l
  | .firstItem start outer =>
    match l.token with
    | .closeArray => some (complete (.array start [] (.ok l.span.stop)) outer)
    | _ => beginValue? (.array start [] :: outer) l
  | .nextItem start items outer => beginValue? (.array start items :: outer) l
  | .itemEnd start items outer =>
    match l.token with
    | .comma => some (.nextItem start items outer)
    | .closeArray => some (complete (.array start items.reverse (.ok l.span.stop)) outer)
    | _ => none
  | .firstKey start outer =>
    match l.token with
    | .closeObject => some (complete (.object start [] (.ok l.span.stop)) outer)
    | _ => beginMember? start [] outer l
  | .nextKey start members outer => beginMember? start members outer l
  | .colon start members key outer =>
    match l.token with
    | .colon => some (.value (.member start members key :: outer))
    | _ => none
  | .memberEnd start members outer =>
    match l.token with
    | .comma => some (.nextKey start members outer)
    | .closeObject => some (complete (.object start members.reverse (.ok l.span.stop)) outer)
    | _ => none
  | .finished _ | .stopped _ => none

/-- Go on with one more lexeme. -/
def advance (p : Progress) (l : Lexeme) : Progress :=
  (advance? l p).getD (.stopped (p.documentAt l))

/-- The document that a text holds. -/
def Document.ofString (s : String) : Document :=
  ((lexemes s).foldl advance (.value [])).documentAt (lastLexeme s)

/-! ## Undamaged drafts -/

/-- The plain value of a scalar. -/
def Scalar.value? : Scalar → Option Json
  | .null => some .null
  | .bool b => some (.bool b)
  | .number n => n.toOption.map .number
  | .string s => s.toOption.map .string

mutual

/-- The plain value of an undamaged draft. -/
def Draft.value? : Draft → Option Json
  | .scalar value _ => value.value?
  | .array _ items (.ok _) => (itemValues? items).map .array
  | .object _ members (.ok _) => (memberValues? members).map .object
  | _ => none

/-- The plain values of undamaged drafts. -/
def itemValues? : List Draft → Option (List Json)
  | [] => some []
  | item :: rest => do
    let value ← item.value?
    let values ← itemValues? rest
    pure (value :: values)

/-- The plain values of undamaged members. -/
def memberValues? : List (Key × Draft) → Option (List (String × Json))
  | [] => some []
  | (key, value) :: rest => do
    let name ← key.name.toOption
    let v ← value.value?
    let members ← memberValues? rest
    pure ((name, v) :: members)

end

/-- The plain value of an undamaged document. -/
def Document.value? (d : Document) : Option Json :=
  if d.excess.isSome then none else d.root.value?

end Json

/-! ## Values with ordered members -/

namespace Json

mutual

/-- A value with the members of each object in key order, and of a repeated key only the last. -/
def ordered : Json → Json
  | .array items => .array (orderedItems items)
  | .object members => .object (Dictionary.ofList (orderedMembers members)).entries
  | scalar => scalar

def orderedItems : List Json → List Json
  | [] => []
  | item :: rest => item.ordered :: orderedItems rest

def orderedMembers : List (String × Json) → List (String × Json)
  | [] => []
  | (key, value) :: rest => (key, value.ordered) :: orderedMembers rest

end

/-- The JSON value that a text holds, with ordered members. -/
def ofString? (s : String) : Option Json := (Document.ofString s).value?.map ordered

end Json

end FlatTables
