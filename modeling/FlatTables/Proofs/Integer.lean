import FlatTables.Integer
import FlatTables.Proofs.Text.Blank

set_option autoImplicit false

/-! # Reading integers back

The decimal digits of a number are read as that number, with a sign or without one, and so every
integer cell is read back from its text. That text holds no blanks, so trimming leaves it as it
is. -/

namespace FlatTables

namespace Integer

/-! ## Digits -/

theorem natural?_of_digits {cs : List Char} (hne : cs ≠ []) (h : ∀ c ∈ cs, c.isDigit = true) :
    natural? cs = some (Nat.ofDigitChars 10 cs 0) := by
  unfold natural?
  rw [if_pos]
  simpa [hne] using h

theorem isDigit_of_mem_digits {n : Nat} : ∀ c ∈ Nat.toDigits 10 n, c.isDigit = true :=
  fun _ hc => Nat.isDigit_of_mem_toDigits (by decide) (by decide) hc

theorem natural?_toDigits (n : Nat) : natural? (Nat.toDigits 10 n) = some n := by
  rw [natural?_of_digits Nat.toDigits_ne_nil isDigit_of_mem_digits, Nat.ofDigitChars_ten_toDigits]

/-- Digits without a sign are a natural number. -/
theorem int?_of_digits {cs : List Char} (h : ∀ c ∈ cs, c.isDigit = true) :
    int? cs = (natural? cs).map Int.ofNat := by
  cases cs with
  | nil => rfl
  | cons c rest =>
      have hc := h c List.mem_cons_self
      rw [int?.eq_def]
      split
      · next heq => cases heq; cases hc
      · next heq => cases heq; cases hc
      · rfl

theorem int?_toDigits (n : Nat) : int? (Nat.toDigits 10 n) = some (n : Int) := by
  rw [int?_of_digits isDigit_of_mem_digits, natural?_toDigits]
  rfl

theorem int?_minus_toDigits (n : Nat) : int? ('-' :: Nat.toDigits 10 n) = some (-(n : Int)) := by
  rw [int?, natural?_toDigits]
  rfl

theorem int?_plus_toDigits (n : Nat) : int? ('+' :: Nat.toDigits 10 n) = some (n : Int) := by
  rw [int?, natural?_toDigits]
  rfl

/-- What is read as an integer holds no blanks. -/
theorem isBlank_of_natural? {cs : List Char} {n : Nat} (h : natural? cs = some n) :
    ∀ c ∈ cs, Text.isBlank c = false := by
  intro c hc
  unfold natural? at h
  split at h
  · next hdigits =>
      rw [Bool.and_eq_true, List.all_eq_true] at hdigits
      exact Text.isBlank_of_isDigit (hdigits.2 c hc)
  · cases h

theorem isBlank_of_int? {cs : List Char} {i : Int} (h : int? cs = some i) :
    ∀ c ∈ cs, Text.isBlank c = false := by
  rw [int?.eq_def] at h
  split at h
  · next rest =>
      obtain ⟨n, hn, -⟩ := Option.map_eq_some_iff.1 h
      exact List.forall_mem_cons.2 ⟨rfl, isBlank_of_natural? hn⟩
  · next rest =>
      obtain ⟨n, hn, -⟩ := Option.map_eq_some_iff.1 h
      exact List.forall_mem_cons.2 ⟨rfl, isBlank_of_natural? hn⟩
  · obtain ⟨n, hn, -⟩ := Option.map_eq_some_iff.1 h
    exact isBlank_of_natural? hn

/-! ## Integer cells -/

theorem toList_repr (i : Int) : i.repr.toList =
    (if i < 0 then ['-'] else []) ++ Nat.toDigits 10 i.natAbs := by
  cases i with
  | ofNat n => simp [Int.repr]
  | negSucc n => simp [Int.repr, Int.negSucc_lt_zero]

theorem int?_repr (i : Int) : int? i.repr.toList = some i := by
  rw [toList_repr]
  split
  · rw [List.singleton_append, int?_minus_toDigits]
    congr 1
    omega
  · rw [List.nil_append, int?_toDigits]
    congr 1
    omega

theorem ofInt?_toInt (i : Int64) : ofInt? i.toInt = some i := by
  have hlower := i.le_toInt
  have hupper := i.toInt_lt
  unfold ofInt?
  rw [if_pos (by omega), Int64.ofInt_toInt]

theorem ofInt?_eq_some_iff {i : Int} {word : Int64} : ofInt? i = some word ↔ word.toInt = i := by
  constructor
  · intro h
    unfold ofInt? at h
    split at h
    · next hin =>
        cases h
        exact Int64.toInt_ofInt_of_le (by omega) (by omega)
    · cases h
  · rintro rfl
    exact ofInt?_toInt word

/-- Whether an integer is the value of a signed 64-bit word. -/
def FitsWord (i : Int) : Prop := Int64.minValue.toInt ≤ i ∧ i ≤ Int64.maxValue.toInt

instance (i : Int) : Decidable (FitsWord i) :=
  inferInstanceAs (Decidable (Int64.minValue.toInt ≤ i ∧ i ≤ Int64.maxValue.toInt))

theorem ofInt?_eq_none_iff {i : Int} : ofInt? i = none ↔ ¬FitsWord i := by
  unfold ofInt? FitsWord
  rw [Int64.toInt_minValue, Int64.toInt_maxValue]
  split
  · next hin =>
      constructor
      · intro h
        cases h
      · intro hout
        omega
  · next hout =>
      refine ⟨fun _ hin => ?_, fun _ => rfl⟩
      omega

/-- **An integer is read back from its text.** -/
theorem read?_text (i : Int64) : read? (text i).toList = some i := by
  unfold read?
  rw [text, int?_repr]
  exact ofInt?_toInt i

theorem isBlank_of_mem_text {i : Int64} : ∀ c ∈ (text i).toList, Text.isBlank c = false :=
  isBlank_of_int? (int?_repr i.toInt)

theorem text_ne_empty (i : Int64) : text i ≠ "" := by
  intro h
  have hread := read?_text i
  rw [h] at hread
  cases hread

end Integer

end FlatTables
