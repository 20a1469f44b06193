import FlatTables.Binary64.Basic
import FlatTables.Integer

set_option autoImplicit false

/-! # Rounding to double precision

Every inexact operation computes its exact result as a quotient of natural numbers and rounds once,
to the nearest double, a tie going to the even magnitude. -/

namespace FlatTables.Binary64

/-- The quotient `num / den` to at most `fractionBits + 1` significant bits: the pair `(q, shift)`
for which `q * 2 ^ shift` is nearest to it, a tie going to the even `q`. The `shift` is zero for a
quotient that has no more bits than that before its point. -/
def roundBits (fractionBits num den : Nat) : Nat × Nat :=
  let shift := (num / den).log2 - fractionBits
  let step := den <<< shift
  let q := num / step
  let r := num % step
  let up := step < 2 * r || (step = 2 * r && q % 2 = 1)
  (q + up.toNat, shift)

/-- The magnitude nearest to `num / den` units of `2 ^ (-1074)`, ties to even.

The number `q * 2 ^ shift` has the magnitude `shift * fractionCount + q`, also when rounding has
carried `q` to `2 ^ 53`; beyond the largest number it is infinity's. -/
def nearest (num den : Nat) : Nat :=
  let (q, shift) := roundBits 52 num den
  min (shift * fractionCount + q) infinityMagnitude

theorem nearest_lt (num den : Nat) : nearest num den < 0x8000000000000000 :=
  Nat.lt_of_le_of_lt (Nat.min_le_right _ _) infinityMagnitude_lt

/-- The double nearest to `num / den` units of `2 ^ (-1074)`, with the given sign. -/
def ofUnits (negative : Bool) (num den : Nat) : Binary64 :=
  ⟨negative, nearest num den, nearest_lt num den⟩

/-- The double nearest to an integer. -/
def ofInt (i : Int) : Binary64 :=
  ofUnits (i < 0) (i.natAbs * unitsPerOne) 1

/-- The double nearest to an integer cell. -/
def ofInt64 (i : Int64) : Binary64 := ofInt i.toInt

/-- A finite number with its fraction cut off. -/
def truncate (x : Binary64) : Int :=
  x.signedUnits.tdiv unitsPerOne

/-- The integer cell that a finite number becomes when its fraction is cut off, if it is in range.
-/
def toInt64? (x : Binary64) : Option Int64 :=
  if x.isFinite then Integer.ofInt? x.truncate else none

end FlatTables.Binary64
