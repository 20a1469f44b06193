import FlatTables.Binary64.Rounding

set_option autoImplicit false

/-! # Arithmetic of double precision numbers

Addition, subtraction, multiplication and division, each the exact result rounded once. An operand
that is not a number is the result, the left one before the right one; an operation without a
result, such as infinity less infinity, gives the not-a-number value with its sign bit set. -/

namespace FlatTables.Binary64

/-- The result of an operation that has none. -/
def invalid : Binary64 := notANumber true

/-- The result `f`, unless an operand is not a number. -/
def unlessNaN (x y : Binary64) (f : Binary64) : Binary64 :=
  if x.isNaN then x else if y.isNaN then y else f

/-- The sum of two values that are numbers. Only two negative zeros have a negative zero as their
exact zero sum. -/
def addNumbers (x y : Binary64) : Binary64 :=
  if x.isInfinite then
    if y.isInfinite && x.negative != y.negative then invalid else x
  else if y.isInfinite then y
  else
    let sum := x.signedUnits + y.signedUnits
    if sum = 0 then zero (x.negative && y.negative) else ofUnits (sum < 0) sum.natAbs 1

def add (x y : Binary64) : Binary64 := unlessNaN x y (addNumbers x y)

def sub (x y : Binary64) : Binary64 := unlessNaN x y (addNumbers x y.neg)

def mul (x y : Binary64) : Binary64 :=
  unlessNaN x y <|
    let negative := x.negative != y.negative
    if x.isInfinite || y.isInfinite then
      if x.isZero || y.isZero then invalid else infinity negative
    else ofUnits negative (x.units * y.units) unitsPerOne

def div (x y : Binary64) : Binary64 :=
  unlessNaN x y <|
    let negative := x.negative != y.negative
    if x.isInfinite then
      if y.isInfinite then invalid else infinity negative
    else if y.isInfinite then zero negative
    else if y.isZero then
      if x.isZero then invalid else infinity negative
    else ofUnits negative (x.units * unitsPerOne) y.units

end FlatTables.Binary64
