import FlatTables.Binary64.Rounding

set_option autoImplicit false

/-! # Reading decimal numbers

A decimal text is a sign, digits with an optional point among them, and an optional power of ten;
it stands for the double nearest to its exact value, or, for a number that comes from single
precision, for the single precision number nearest to it. The words `inf`, `infinity` and `nan` are
read in any case. -/

namespace FlatTables.Binary64

/-- How the exact value `num / den` becomes a double with the given sign. -/
abbrev Rounding := Bool → Nat → Nat → Binary64

/-- Rounding to double precision. -/
def toDouble : Rounding := fun negative num den => ofUnits negative (num * unitsPerOne) den

/-- Rounding to single precision, whose unit is `2 ^ (-149)` and whose numbers end at `2 ^ 128`;
each of them is a double too. -/
def toSingle : Rounding := fun negative num den =>
  let (q, shift) := roundBits 23 (num <<< 149) den
  if 1 <<< 277 ≤ q <<< shift then infinity negative
  else ofUnits negative (q <<< (shift + 925)) 1

/-- The rounded value of `digits * 10 ^ exponent`. Outside the powers of ten that a double can come
near, the answer needs no computation. -/
def ofDecimal (round : Rounding) (negative : Bool) (digits : Nat) (exponent : Int) : Binary64 :=
  let scale := exponent + (Nat.toDigits 10 digits).length
  if digits = 0 || scale < -400 then zero negative
  else if 400 < scale then infinity negative
  else if 0 ≤ exponent then round negative (digits * Nat.pow 10 exponent.toNat) 1
  else round negative digits (Nat.pow 10 (-exponent).toNat)

/-- The power of ten after the digits: nothing, or `e` and an integer. -/
def exponent? : List Char → Option Int
  | [] => some 0
  | c :: cs => if c = 'e' || c = 'E' then Integer.int? cs else none

/-- An unsigned number in digits: whole digits, an optional point and further digits, at least one
digit in all, and an optional power of ten. -/
def readDigits? (round : Rounding) (negative : Bool) (cs : List Char) : Option Binary64 :=
  let whole := cs.takeWhile Char.isDigit
  let afterWhole := cs.dropWhile Char.isDigit
  let fractionAndRest := match afterWhole with
    | '.' :: rest => (rest.takeWhile Char.isDigit, rest.dropWhile Char.isDigit)
    | rest => ([], rest)
  let digits := whole ++ fractionAndRest.1
  if digits.isEmpty then none
  else (exponent? fractionAndRest.2).map fun e =>
    ofDecimal round negative (Nat.ofDigitChars 10 digits 0) (e - fractionAndRest.1.length)

/-- An unsigned number in digits or by name. -/
def readUnsigned? (round : Rounding) (negative : Bool) (cs : List Char) : Option Binary64 :=
  let name := cs.map Char.toLower
  if name = "inf".toList || name = "infinity".toList then some (infinity negative)
  else if name = "nan".toList then some (notANumber negative)
  else readDigits? round negative cs

/-- The number that `cs` spells, rounded by `round`. -/
def readRounded? (round : Rounding) : List Char → Option Binary64
  | '+' :: cs => readUnsigned? round false cs
  | '-' :: cs => readUnsigned? round true cs
  | cs => readUnsigned? round false cs

/-- The double that `cs` spells. -/
def read? (cs : List Char) : Option Binary64 := readRounded? toDouble cs

end FlatTables.Binary64
