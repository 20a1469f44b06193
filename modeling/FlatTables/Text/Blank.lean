set_option autoImplicit false

/-! # Blank characters

`isBlank` is the Unicode property `White_Space`, and `trim` drops a run of such characters from both
ends of a text. Numbers are trimmed before they are read, so a no-break space or an ideographic
space around a number is as harmless as an ordinary one. -/

namespace FlatTables.Text

/-- The characters with the Unicode property `White_Space`. -/
def isBlank (c : Char) : Bool :=
  ('\t' ≤ c && c ≤ '\r') || c == ' ' || c == '\u0085' || c == '\u00a0' || c == '\u1680' ||
  ('\u2000' ≤ c && c ≤ '\u200a') || c == '\u2028' || c == '\u2029' || c == '\u202f' ||
  c == '\u205f' || c == '\u3000'

/-- The characters `cs` without their trailing blanks. -/
def trimEnd (cs : List Char) : List Char :=
  (cs.reverse.dropWhile isBlank).reverse

/-- The characters `cs` without the blanks at either end. -/
def trim (cs : List Char) : List Char :=
  trimEnd (cs.dropWhile isBlank)

end FlatTables.Text
