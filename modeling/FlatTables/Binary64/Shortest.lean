import FlatTables.Binary64.Basic

set_option autoImplicit false

/-! # The shortest decimal of a double

Among the decimals that read back as a given double, one with the fewest digits is chosen, and of
those the nearest. The numbers that read back as a double fill the interval between the midpoints to
its two neighbours, ends included when its magnitude is even. The search walks the decimal grids
`10 ^ e` from coarse to fine and tests the two grid points around the value; the interval holds a
point of a grid only if it holds one of those two. -/

namespace FlatTables.Binary64

/-- Where the value goes when two grid points are equally near. -/
inductive Tie
  | up
  | even
  deriving DecidableEq, Repr

/-- The number `digits * 10 ^ exponent`. -/
structure Decimal where
  digits : Nat
  exponent : Int
  deriving DecidableEq, Repr

/-- The power `10 ^ e` as a quotient of natural numbers. -/
def tenPow (e : Int) : Nat × Nat :=
  if 0 ≤ e then (Nat.pow 10 e.toNat, 1) else (1, Nat.pow 10 (-e).toNat)

/-- Whether the quotient `num / den`, in units of `2 ^ (-1075)`, reads back as the double of
magnitude `m`. -/
def readsBack (m num den : Nat) : Bool :=
  let low := unitsOf (m - 1) + unitsOf m
  let high := unitsOf m + unitsOf (m + 1)
  if m % 2 = 0 then low * den ≤ num && num ≤ high * den
  else low * den < num && num < high * den

/-- The digits of the multiple of `10 ^ exponent` that is nearest to the double of magnitude `m`, of
those that read back as it. -/
def onGrid? (tie : Tie) (m : Nat) (exponent : Int) : Option Nat :=
  let (p, den) := tenPow exponent
  let step := p <<< 1075
  let value := 2 * unitsOf m * den
  let below := value / step
  let lowHit := readsBack m (below * step) den
  let highHit := readsBack m ((below + 1) * step) den
  let lowIsNearer : Bool :=
    match compare (2 * value) ((2 * below + 1) * step) with
    | .lt => true
    | .gt => false
    | .eq => match tie with
      | .up => false
      | .even => below % 2 = 0
  if lowHit && (lowIsNearer || !highHit) then some below
  else if highHit then some (below + 1)
  else none

/-- The first grid point found on `count` grids from `10 ^ exponent` downwards. -/
def search (tie : Tie) (m : Nat) : Nat → Int → Decimal
  | 0, exponent => ⟨0, exponent⟩
  | count + 1, exponent =>
    match onGrid? tie m exponent with
    | some digits => ⟨digits, exponent⟩
    | none => search tie m count (exponent - 1)

/-- A power of ten that is not below the double of magnitude `m`, and at most a hundred times it. -/
def coarsest (m : Nat) : Int :=
  let units := unitsOf m
  if unitsPerOne ≤ units then (Nat.toDigits 10 (units / unitsPerOne)).length
  else 1 - ((Nat.toDigits 10 (unitsPerOne / units)).length : Int)

/-- A shortest decimal that reads back as the positive finite double of magnitude `m`; seventeen
digits always suffice. -/
def shortest (tie : Tie) (m : Nat) : Decimal :=
  search tie m 20 (coarsest m)

end FlatTables.Binary64
