set_option autoImplicit false

/-! # Texts as bytes

Files hold bytes and cells hold texts. `encode` and `decode?` go between the two by UTF-8;
`validLength` says how much of a text that cannot be decoded is still good, which is what a message
about a damaged file points at. -/

namespace FlatTables.Text

/-- The UTF-8 form of a text. -/
def encode (s : String) : List UInt8 :=
  s.toByteArray.data.toList

/-- The text whose UTF-8 form is `bytes`, if there is one. -/
def decode? (bytes : List UInt8) : Option String :=
  String.fromUTF8? ⟨bytes.toArray⟩

theorem decode?_encode (s : String) : decode? (encode s) = some s := by
  rw [decode?, encode, Array.toArray_toList, String.fromUTF8?]
  exact dif_pos s.isValidUTF8

/-- The greatest `k ≤ n` for which the first `k` of `bytes` are a UTF-8 text. -/
def validLengthWithin (bytes : List UInt8) : Nat → Nat
  | 0 => 0
  | n + 1 =>
    if (decode? (bytes.take (n + 1))).isSome then n + 1 else validLengthWithin bytes n

/-- The length of the longest start of `bytes` that is a UTF-8 text. -/
def validLength (bytes : List UInt8) : Nat :=
  validLengthWithin bytes bytes.length

end FlatTables.Text
