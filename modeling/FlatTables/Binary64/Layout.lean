import FlatTables.Binary64.Shortest

set_option autoImplicit false

/-! # Writing doubles

A `Layout` fixes how the shortest digits of a number are laid out. Three are in use: cells and data
show a fraction on whole numbers and turn to a power of ten for very large and very small ones,
the message about a float that has no integer spells all digits out, and documents have a form of
their own. A value that is not a number has no sign in any of them. -/

namespace FlatTables.Binary64

/-- The choices of a way to write numbers. The leading digit of a number stands for a power of ten;
`positional` holds of the powers at which the number is written without an exponent. -/
structure Layout where
  tie : Tie
  positional : Int → Bool
  /-- Whether a whole number ends in `.0`. -/
  keepsFraction : Bool
  /-- Whether a positive exponent has a plus sign. -/
  signsExponent : Bool

namespace Layout

/-- Cells: plain from `0.0001` up to, but not including, `10 ^ 16`. -/
def cell : Layout := ⟨.up, fun e => -4 ≤ e && e < 16, true, false⟩

/-- All digits, always, and no fraction on a whole number. -/
def plain : Layout := ⟨.up, fun _ => true, false, false⟩

/-- Documents: plain from `0.00001` up to, but not including, `10 ^ 16`. -/
def document : Layout := ⟨.even, fun e => -5 ≤ e && e < 16, true, true⟩

/-- A decimal written out in full; `point` is the number of digits before the point. -/
def layPositional (n : Layout) (digits : List Char) (point : Int) : List Char :=
  if point ≤ 0 then '0' :: '.' :: (List.replicate (-point).toNat '0' ++ digits)
  else
    let whole := point.toNat
    if digits.length ≤ whole then
      digits ++ List.replicate (whole - digits.length) '0' ++
        (if n.keepsFraction then ['.', '0'] else [])
    else digits.take whole ++ '.' :: digits.drop whole

/-- A decimal with one digit before the point and a power of ten. -/
def layScientific (n : Layout) (digits : List Char) (exponent : Int) : List Char :=
  let fraction := match digits.drop 1 with
    | [] => []
    | rest => '.' :: rest
  let sign := if exponent < 0 then ['-'] else if n.signsExponent then ['+'] else []
  digits.take 1 ++ fraction ++ 'e' :: sign ++ Nat.toDigits 10 exponent.natAbs

/-- A decimal laid out by the rules of `n`. -/
def lay (n : Layout) (d : Decimal) : List Char :=
  let digits := (Nat.toDigits 10 d.digits).reverse.dropWhile (· == '0') |>.reverse
  let leading := d.exponent + (Nat.toDigits 10 d.digits).length - 1
  if n.positional leading then n.layPositional digits (leading + 1)
  else n.layScientific digits leading

/-- The absolute value of `x`. -/
def absolute (n : Layout) (x : Binary64) : List Char :=
  if x.isInfinite then ['i', 'n', 'f']
  else if x.isZero then (if n.keepsFraction then ['0', '.', '0'] else ['0'])
  else n.lay (shortest n.tie x.magnitude)

/-- The text of `x`. -/
def text (n : Layout) (x : Binary64) : String :=
  if x.isNaN then "NaN"
  else String.ofList ((if x.negative then ['-'] else []) ++ n.absolute x)

end Layout

end FlatTables.Binary64
