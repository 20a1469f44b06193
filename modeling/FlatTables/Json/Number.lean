import FlatTables.Binary64.Arithmetic
import FlatTables.Binary64.Decimal
import FlatTables.Json.Basic

set_option autoImplicit false

/-! # Reading the numbers of a document

An integer of at most 64 bits is exact. Every other number is computed in double precision from a
64-bit significand: digits are taken into the significand as long as it has room, the further whole
digits only raise the power of ten and the further decimal places are left out; then one
multiplication or division by a power of ten gives the result. It may differ in its last bit from
the double nearest to the text. A number beyond the doubles has no value. -/

namespace FlatTables.JsonNumber

/-- The parts of the text of a number. -/
structure Parts where
  negative : Bool
  whole : List Char
  /-- The digits after the point, if there is a point. -/
  fraction : Option (List Char)
  /-- The power of ten and whether it is negative, if there is an exponent. -/
  exponent : Option (Bool × List Char)

/-- The parts of a text of the form of a number: an optional minus sign, digits, an optional
fraction, an optional exponent. -/
def Parts.ofText (text : List Char) : Parts :=
  let negative := text.head? == some '-'
  let unsigned := if negative then text.drop 1 else text
  let whole := unsigned.takeWhile Char.isDigit
  let afterWhole := unsigned.dropWhile Char.isDigit
  let fraction := match afterWhole with
    | '.' :: rest => some (rest.takeWhile Char.isDigit)
    | _ => none
  let afterFraction := match afterWhole with
    | '.' :: rest => rest.dropWhile Char.isDigit
    | rest => rest
  let exponent := match afterFraction.drop 1 with
    | [] => none
    | '+' :: digits => some (false, digits)
    | '-' :: digits => some (true, digits)
    | digits => some (false, digits)
  ⟨negative, whole, fraction, exponent⟩

/-- Take digits into a significand of at most `limit` while there is room; the second part holds
the digits left over. -/
def absorb (limit : Nat) : Nat → List Char → Nat × List Char
  | significand, [] => (significand, [])
  | significand, c :: cs =>
    let next := 10 * significand + (c.toNat - '0'.toNat)
    if next ≤ limit then absorb limit next cs else (significand, c :: cs)

/-- The greatest significand. -/
def maxSignificand : Nat := 0xffffffffffffffff

/-- The power `10 ^ e` as a double. -/
def powerOfTen (e : Nat) : Binary64 := Binary64.ofDecimal Binary64.toDouble false 1 e

/-- The product `x * 10 ^ exponent`, by one multiplication or division; a power of ten below
`10 ^ (-308)` is divided out in steps of that size, at most `steps` of them. -/
def scale? : Nat → Binary64 → Int → Option Binary64
  | steps, x, exponent =>
    if exponent.natAbs ≤ 308 then
      if 0 ≤ exponent then
        let result := x.mul (powerOfTen exponent.natAbs)
        if result.isInfinite then none else some result
      else some (x.div (powerOfTen exponent.natAbs))
    else if x.isZero then some x
    else if 0 ≤ exponent then none
    else match steps with
      | 0 => some x
      | steps + 1 => scale? steps (x.div (powerOfTen 308)) (exponent + 308)

/-- The double `significand * 10 ^ exponent`. After two steps of division by `10 ^ 308` nothing is
left of a 64-bit significand. -/
def float? (negative : Bool) (significand : Nat) (exponent : Int) : Option JsonNumber :=
  (scale? 3 (Binary64.ofInt significand) exponent).map fun x =>
    .float (if negative then x.neg else x)

/-- The greatest exponent that is computed with; beyond it a nonzero number is out of range, or
zero. -/
def maxExponent : Nat := 0x7fffffff

/-- The number with the given significand and power of ten, after an optional exponent. -/
def withExponent? (negative : Bool) (significand : Nat) (places : Int) :
    Option (Bool × List Char) → Option JsonNumber
  | none => float? negative significand places
  | some (down, digits) =>
    let e := Nat.ofDigitChars 10 digits 0
    if maxExponent < e then
      if significand != 0 && !down then none else some (.float (Binary64.zero negative))
    else float? negative significand (if down then places - e else places + e)

/-- The integer of the given sign and absolute value. A negative zero is a double, and so is an
integer below the signed 64-bit ones. -/
def ofSignificand (negative : Bool) (significand : Nat) : JsonNumber :=
  if !negative then .integer significand
  else if significand = 0 || 0x8000000000000000 < significand then
    .float (Binary64.ofInt significand).neg
  else .integer (-significand)

/-- The value of a number from its parts. -/
def ofParts? (p : Parts) : Option JsonNumber :=
  let (wholePart, dropped) := absorb maxSignificand 0 p.whole
  match p.fraction with
  | none =>
    if dropped.isEmpty && p.exponent.isNone then some (ofSignificand p.negative wholePart)
    else withExponent? p.negative wholePart dropped.length p.exponent
  | some fraction =>
    let (significand, unread) := absorb maxSignificand wholePart fraction
    let places : Int := dropped.length - (fraction.length - unread.length : Nat)
    withExponent? p.negative significand places p.exponent

/-- The value of a text of the form of a number, unless it is out of range. -/
def ofText? (text : List Char) : Option JsonNumber := ofParts? (Parts.ofText text)

/-- How many digits of an exponent are taken, up to the first that makes it too great; `e` is the
exponent so far. -/
def digitsTaken (e : Nat) : List Char → Nat
  | [] => 0
  | c :: cs =>
    let next := 10 * e + (c.toNat - '0'.toNat)
    if maxExponent < next then 1 else digitsTaken next cs + 1

/-- How many characters of a number beyond the doubles are taken before that shows. It shows inside
an exponent that is too great to be computed with, and otherwise at the end. -/
def charsTaken (text : List Char) : Nat :=
  match (Parts.ofText text).exponent with
  | some (_, digits) => text.length - digits.length + digitsTaken 0 digits
  | none => text.length

end FlatTables.JsonNumber
