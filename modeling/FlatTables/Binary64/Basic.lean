set_option autoImplicit false

/-! # Double precision numbers

A `Binary64` is a sign and a magnitude. The magnitude is the exponent and fraction of the
interchange format read as one number, so magnitudes order like the absolute values they stand for:
zero, the finite numbers, infinity, and the not-a-number values above it. Nothing here rounds;
`units` gives the exact absolute value of a finite number as a multiple of `2 ^ (-1074)`, the
smallest positive one. -/

namespace FlatTables

/-- A double precision number: its sign, and its other 63 bits as a number. -/
structure Binary64 where
  /-- Whether the sign bit is set. -/
  negative : Bool
  /-- The position of the absolute value among the absolute values of all doubles. -/
  magnitude : Nat
  magnitude_lt : magnitude < 0x8000000000000000
  deriving DecidableEq

namespace Binary64

instance : Hashable Binary64 where
  hash x := mixHash (hash x.negative) (hash x.magnitude)

/-- The magnitude of infinity. -/
def infinityMagnitude : Nat := 0x7ff0000000000000

theorem infinityMagnitude_lt : infinityMagnitude < 0x8000000000000000 := by decide

/-- Zero of either sign. -/
def zero (negative : Bool) : Binary64 := ⟨negative, 0, by decide⟩

/-- Infinity of either sign. -/
def infinity (negative : Bool) : Binary64 := ⟨negative, infinityMagnitude, infinityMagnitude_lt⟩

/-- The not-a-number value that reading and invalid operations give, with either sign bit. -/
def notANumber (negative : Bool) : Binary64 :=
  ⟨negative, infinityMagnitude + 0x8000000000000, by decide⟩

def isNaN (x : Binary64) : Bool := infinityMagnitude < x.magnitude

def isInfinite (x : Binary64) : Bool := x.magnitude = infinityMagnitude

def isFinite (x : Binary64) : Bool := x.magnitude < infinityMagnitude

def isZero (x : Binary64) : Bool := x.magnitude = 0

/-- The number `x` with the other sign. -/
def neg (x : Binary64) : Binary64 := { x with negative := !x.negative }

/-- The value that stands for `x` when cells are compared as members of a set: the two zeros are
one, and not-a-number values are the same only when all their bits are. -/
def canonical (x : Binary64) : Binary64 := if x.isZero then zero false else x

/-- Where `x` stands among the numbers, the two zeros together. -/
def rank (x : Binary64) : Int := if x.negative then -(x.magnitude : Int) else x.magnitude

/-- The order of two numbers, or `none` when either is not a number. -/
def compare? (x y : Binary64) : Option Ordering :=
  if x.isNaN || y.isNaN then none else some (compare x.rank y.rank)

/-- Numeric equality: the zeros are equal, and a not-a-number value equals nothing. -/
def numericEq (x y : Binary64) : Bool := x.compare? y == some .eq

/-- The number of units of `2 ^ (-1074)` in one. -/
def unitsPerOne : Nat := 1 <<< 1074

/-- The number of magnitudes that share an exponent: one for each fraction of 52 bits. -/
abbrev fractionCount : Nat := 0x10000000000000

/-- The absolute value that a magnitude stands for, in units of `2 ^ (-1074)`. Read beyond the
finite magnitudes it continues the same progression, so that infinity sits where the next number
would. -/
def unitsOf (magnitude : Nat) : Nat :=
  if magnitude < fractionCount then magnitude
  else (fractionCount + magnitude % fractionCount) <<< (magnitude / fractionCount - 1)

/-- The absolute value of a finite `x` in units of `2 ^ (-1074)`. -/
def units (x : Binary64) : Nat := unitsOf x.magnitude

/-- The value of a finite `x` in units of `2 ^ (-1074)`. -/
def signedUnits (x : Binary64) : Int := if x.negative then -(x.units : Int) else x.units

end Binary64

end FlatTables
