import FlatTables.Cell
import FlatTables.Proofs.Integer
import Mathlib.Data.Nat.Digits.Defs

set_option autoImplicit false

/-! # Numerals

A numeral is a run of decimal digits with at most one sign in front of it. Its value is that of the
digits by their places, so zeros in front of them do not count, however many there are.

What is read into a column of integers is a numeral of a word, with any blanks around it, and every
such text is read as that word (`ColumnType.parse_integer_exactly`). `Integer.Numeral` says what a
numeral is, apart from the function that reads it. -/

namespace FlatTables

namespace Integer

variable {cs : List Char} {n : Nat} {value : Int}

/-! ## Digits -/

/-- Whether `cs` are decimal digits, at least one, that stand for `n`: the last digit counts once,
and each one in front of it ten times as much as the next. -/
structure Digits (cs : List Char) (n : Nat) : Prop where
  ne_nil : cs ≠ []
  isDigit : ∀ c ∈ cs, c.isDigit = true
  value_eq : n = Nat.ofDigits 10 (cs.reverse.map fun c => c.toNat - '0'.toNat)

theorem ofDigitChars_eq_ofDigits (cs : List Char) :
    Nat.ofDigitChars 10 cs 0 = Nat.ofDigits 10 (cs.reverse.map fun c => c.toNat - '0'.toNat) := by
  rw [Nat.ofDigits_eq_foldr, List.foldr_map, List.foldr_reverse, Nat.ofDigitChars]
  refine congrArg (fun f => cs.foldl f 0) ?_
  funext sum c
  exact Nat.add_comm ..

theorem natural?_eq_some_iff : natural? cs = some n ↔ Digits cs n := by
  constructor
  · intro h
    unfold natural? at h
    split at h
    · next hcs =>
        rw [Bool.and_eq_true, List.all_eq_true] at hcs
        cases h
        exact ⟨by simpa using hcs.1, hcs.2, ofDigitChars_eq_ofDigits cs⟩
    · cases h
  · rintro ⟨hne, hdigits, rfl⟩
    rw [natural?_of_digits hne hdigits, ofDigitChars_eq_ofDigits]

theorem digits_toDigits (n : Nat) : Digits (Nat.toDigits 10 n) n :=
  natural?_eq_some_iff.1 (natural?_toDigits n)

/-- Zeros in front of digits count nothing. -/
theorem Digits.zeros (h : Digits cs n) (zeros : Nat) :
    Digits (List.replicate zeros '0' ++ cs) n where
  ne_nil := List.append_ne_nil_of_right_ne_nil _ h.ne_nil
  isDigit := by
    refine List.forall_mem_append.2 ⟨fun c hc => ?_, h.isDigit⟩
    rw [List.eq_of_mem_replicate hc]
    rfl
  value_eq := by
    rw [List.reverse_append, List.reverse_replicate, List.map_append, List.map_replicate,
      Nat.sub_self, Nat.ofDigits_append_replicate_zero]
    exact h.value_eq

/-! ## Signs -/

/-- Whether `cs` is a numeral of a value: digits, with one sign or none in front of them. -/
inductive Numeral : List Char → Int → Prop
  | unsigned {digits : List Char} {n : Nat} (h : Digits digits n) : Numeral digits n
  | plus {digits : List Char} {n : Nat} (h : Digits digits n) : Numeral ('+' :: digits) n
  | minus {digits : List Char} {n : Nat} (h : Digits digits n) : Numeral ('-' :: digits) (-n)

theorem int?_eq_some_iff : int? cs = some value ↔ Numeral cs value := by
  constructor
  · intro h
    rw [int?.eq_def] at h
    split at h
    · obtain ⟨n, hn, rfl⟩ := Option.map_eq_some_iff.1 h
      exact .plus (natural?_eq_some_iff.1 hn)
    · obtain ⟨n, hn, rfl⟩ := Option.map_eq_some_iff.1 h
      exact .minus (natural?_eq_some_iff.1 hn)
    · obtain ⟨n, hn, rfl⟩ := Option.map_eq_some_iff.1 h
      exact .unsigned (natural?_eq_some_iff.1 hn)
  · rintro (h | h | h)
    · rw [int?_of_digits h.isDigit, natural?_eq_some_iff.2 h]
      rfl
    · rw [int?, natural?_eq_some_iff.2 h]
      rfl
    · rw [int?, natural?_eq_some_iff.2 h]
      rfl

theorem read?_eq_some_iff {i : Int64} : read? cs = some i ↔ Numeral cs i.toInt := by
  unfold read?
  rw [Option.bind_eq_some_iff]
  simp only [int?_eq_some_iff, ofInt?_eq_some_iff, exists_eq_right']

/-- An integer has a word if it is in range. -/
theorem exists_toInt_iff : (∃ i : Int64, i.toInt = value) ↔ FitsWord value := by
  rw [← not_iff_not, ← ofInt?_eq_none_iff, Option.eq_none_iff_forall_ne_some, not_exists]
  exact forall_congr' fun i => not_congr ofInt?_eq_some_iff.symm

/-- The text of a word with zeros put in front of its digits. -/
def padded (zeros : Nat) (i : Int64) : List Char :=
  (if i.toInt < 0 then ['-'] else []) ++
    (List.replicate zeros '0' ++ Nat.toDigits 10 i.toInt.natAbs)

theorem padded_zero (i : Int64) : padded 0 i = (text i).toList := (toList_repr i.toInt).symm

theorem numeral_padded (zeros : Nat) (i : Int64) : Numeral (padded zeros i) i.toInt := by
  have h := (digits_toDigits i.toInt.natAbs).zeros zeros
  unfold padded
  split
  · have hvalue : -(i.toInt.natAbs : Int) = i.toInt := by omega
    have hnumeral := Numeral.minus h
    rwa [hvalue] at hnumeral
  · have hvalue : (i.toInt.natAbs : Int) = i.toInt := by omega
    have hnumeral := Numeral.unsigned h
    rwa [hvalue] at hnumeral

end Integer

/-! ## Cells -/

namespace ColumnType

variable {raw : String}

theorem parse_integer_eq_ok_iff_read? {cell : Cell} : integer.parse raw = .ok cell ↔
    ∃ i, Integer.read? (Text.trim raw.toList) = some i ∧ cell = .integer i := by
  unfold parse
  cases Integer.read? (Text.trim raw.toList) with
  | none => simp
  | some i => simp [eq_comm]

theorem parse_integer_eq_ok_iff {cell : Cell} : integer.parse raw = .ok cell ↔
    ∃ (core : List Char) (i : Int64),
      Text.Trims raw.toList core ∧ Integer.Numeral core i.toInt ∧ cell = .integer i := by
  simp only [parse_integer_eq_ok_iff_read?, ← Text.trim_eq_iff, ← Integer.read?_eq_some_iff,
    exists_and_left, exists_eq_left']

theorem exists_parse_integer_iff : (∃ cell, integer.parse raw = .ok cell) ↔
    ∃ (core : List Char) (value : Int),
      Text.Trims raw.toList core ∧ Integer.Numeral core value ∧ Integer.FitsWord value := by
  simp only [parse_integer_eq_ok_iff, ← Integer.exists_toInt_iff]
  constructor
  · rintro ⟨_, core, i, htrims, hnumeral, -⟩
    exact ⟨core, i.toInt, htrims, hnumeral, i, rfl⟩
  · rintro ⟨core, _, htrims, hnumeral, i, rfl⟩
    exact ⟨.integer i, core, i, htrims, hnumeral, rfl⟩

theorem parse_of_numeral {before core after : List Char} {i : Int64}
    (hbefore : ∀ c ∈ before, Text.isBlank c = true) (hafter : ∀ c ∈ after, Text.isBlank c = true)
    (hcore : Integer.Numeral core i.toInt) (hraw : raw.toList = before ++ core ++ after) :
    integer.parse raw = .ok (.integer i) := by
  have hblank := Integer.isBlank_of_int? (Integer.int?_eq_some_iff.2 hcore)
  have htrims := Text.trims_of_forall_not hbefore hafter hblank
  rw [← hraw] at htrims
  exact parse_integer_eq_ok_iff.2 ⟨core, i, htrims, hcore, rfl⟩

/-- **Integers are read exactly.** A column of integers takes a text if that is, without the blanks
around it, a numeral of a word, and then the cell is that word. So a text is taken exactly if it is
a numeral in range, and the text of any word is read as that word, with any blanks around it and any
number of zeros in front of its digits. -/
theorem parse_integer_exactly (raw : String) :
    (∀ cell, integer.parse raw = .ok cell ↔ ∃ (core : List Char) (i : Int64),
      Text.Trims raw.toList core ∧ Integer.Numeral core i.toInt ∧ cell = .integer i) ∧
    ((∃ cell, integer.parse raw = .ok cell) ↔ ∃ (core : List Char) (value : Int),
      Text.Trims raw.toList core ∧ Integer.Numeral core value ∧ Integer.FitsWord value) ∧
    ∀ (i : Int64) (before after : List Char), (∀ c ∈ before, Text.isBlank c = true) →
      (∀ c ∈ after, Text.isBlank c = true) →
      (raw.toList = before ++ (Cell.integer i).display.toList ++ after →
        integer.parse raw = .ok (.integer i)) ∧
      ∀ zeros, raw.toList = before ++ Integer.padded zeros i ++ after →
        integer.parse raw = .ok (.integer i) := by
  refine ⟨fun _ => parse_integer_eq_ok_iff, exists_parse_integer_iff, ?_⟩
  intro i before after hbefore hafter
  refine ⟨fun hraw => ?_, fun zeros hraw => ?_⟩
  · have hcore := Integer.numeral_padded 0 i
    rw [Integer.padded_zero] at hcore
    exact parse_of_numeral hbefore hafter hcore hraw
  · exact parse_of_numeral hbefore hafter (Integer.numeral_padded zeros i) hraw

/-- The least word is read with blanks around it and zeros in front of its digits. -/
theorem parse_integer_leastWord :
    integer.parse "\u3000-0009223372036854775808\n" = .ok (.integer Int64.minValue) := by
  obtain ⟨-, -, hwords⟩ := parse_integer_exactly "\u3000-0009223372036854775808\n"
  obtain ⟨-, hpadded⟩ := hwords Int64.minValue ['\u3000'] ['\n']
    (List.forall_mem_singleton.2 rfl) (List.forall_mem_singleton.2 rfl)
  exact hpadded 3 (by decide)

end ColumnType

end FlatTables
