set_option autoImplicit false

/-! # Integer cells

Integers are signed 64-bit words. `ofInt?` is the one place where a mathematical integer becomes a
word, so arithmetic and reading both compute in `Int` and are refused exactly when the result has
no word. -/

namespace FlatTables.Integer

/-- The word whose value is `i`, when `-2^63 ≤ i < 2^63`. -/
def ofInt? (i : Int) : Option Int64 :=
  if -0x8000000000000000 ≤ i ∧ i ≤ 0x7fffffffffffffff then some (Int64.ofInt i) else none

/-- The value of a nonempty run of decimal digits. -/
def natural? (cs : List Char) : Option Nat :=
  if !cs.isEmpty && cs.all Char.isDigit then some (Nat.ofDigitChars 10 cs 0) else none

/-- The value of a run of decimal digits after at most one sign. -/
def int? : List Char → Option Int
  | '+' :: cs => (natural? cs).map Int.ofNat
  | '-' :: cs => (natural? cs).map fun n => -Int.ofNat n
  | cs => (natural? cs).map Int.ofNat

/-- The word that `cs` spells: at most one sign, then digits, with a value in range. -/
def read? (cs : List Char) : Option Int64 :=
  (int? cs).bind ofInt?

/-- The decimal form of a word. -/
def text (i : Int64) : String :=
  i.toInt.repr

end FlatTables.Integer
