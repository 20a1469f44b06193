import FlatTables.Binary64.Layout
import FlatTables.Proofs.Binary64.Decimal
import FlatTables.Proofs.Integer

set_option autoImplicit false

/-! # Doubles are read back from their texts

A layout drops the zeros at the end of the shortest digits of a number, sets the point, and may add
zeros of its own. `Spells` says which decimal a text stands for, and the texts of all layouts stand
for the shortest decimal up to zeros at its end, which reading takes no notice of. So every double
but a not-a-number value is read back from its text, whatever the layout (`read?_text`). -/

namespace FlatTables.Binary64

/-! ## Texts of decimals -/

/-- The text after the digits of a decimal, and the power of ten that it stands for. -/
inductive PowerText : List Char → Int → Prop
  | none : PowerText [] 0
  | power {cs : List Char} {e : Int} (h : Integer.int? cs = some e) : PowerText ('e' :: cs) e

/-- The texts of unsigned decimals: digits, with a point among them or without one, and a power of
ten. -/
inductive Spells : List Char → Decimal → Prop
  | whole {digits tail : List Char} {e : Int} (hdigits : ∀ c ∈ digits, c.isDigit = true)
      (hne : digits ≠ []) (htail : PowerText tail e) :
      Spells (digits ++ tail) ⟨Nat.ofDigitChars 10 digits 0, e⟩
  | point {digits fraction tail : List Char} {e : Int} (hdigits : ∀ c ∈ digits, c.isDigit = true)
      (hne : digits ≠ []) (hfraction : ∀ c ∈ fraction, c.isDigit = true)
      (htail : PowerText tail e) :
      Spells (digits ++ '.' :: (fraction ++ tail))
        ⟨Nat.ofDigitChars 10 (digits ++ fraction) 0, e - fraction.length⟩

theorem Spells.of_eq {cs cs' : List Char} {digits digits' : Nat} {e e' : Int}
    (h : Spells cs ⟨digits, e⟩) (hcs : cs' = cs) (hdigits : digits' = digits) (he : e' = e) :
    Spells cs' ⟨digits', e'⟩ := by
  rw [hcs, hdigits, he]
  exact h

theorem PowerText.exponent?_eq {tail : List Char} {e : Int} (h : PowerText tail e) :
    exponent? tail = some e := by
  cases h with
  | none => rfl
  | power hint => exact hint

/-- The text of a power of ten does not go on with the digits before it. -/
theorem PowerText.head_not_digit {tail : List Char} {e : Int} (h : PowerText tail e) :
    tail.takeWhile Char.isDigit = [] ∧ tail.dropWhile Char.isDigit = tail := by
  cases h with
  | none => exact ⟨rfl, rfl⟩
  | power hint => exact ⟨rfl, rfl⟩

theorem span_digits {digits rest : List Char} (hdigits : ∀ c ∈ digits, c.isDigit = true)
    (hrest : rest.takeWhile Char.isDigit = [] ∧ rest.dropWhile Char.isDigit = rest) :
    (digits ++ rest).takeWhile Char.isDigit = digits ∧
      (digits ++ rest).dropWhile Char.isDigit = rest := by
  rw [List.takeWhile_append_of_pos hdigits, List.dropWhile_append_of_pos hdigits, hrest.1, hrest.2,
    List.append_nil]
  exact ⟨rfl, rfl⟩

theorem Spells.readDigits?_eq {cs : List Char} {d : Decimal} (h : Spells cs d) (round : Rounding)
    (negative : Bool) :
    readDigits? round negative cs = some (ofDecimal round negative d.digits d.exponent) := by
  cases h with
  | @whole digits tail e hdigits hne htail =>
      obtain ⟨htake, hdrop⟩ := span_digits hdigits htail.head_not_digit
      have hwhole : readDigits? round negative (digits ++ tail) =
          if (digits ++ []).isEmpty then none
          else (exponent? tail).map fun e =>
            ofDecimal round negative (Nat.ofDigitChars 10 (digits ++ []) 0) (e - (0 : Nat)) := by
        unfold readDigits?
        rw [htake, hdrop]
        cases htail with
        | none => rfl
        | power hint => rfl
      rw [hwhole, List.append_nil, if_neg (by simpa using hne), htail.exponent?_eq]
      simp only [Option.map_some, Int.natCast_zero, Int.sub_zero]
  | @point digits fraction tail e hdigits hne hfraction htail =>
      -- the point ends the first run of digits, the power of ten ends the second
      have hpoint : ('.' :: (fraction ++ tail)).takeWhile Char.isDigit = [] ∧
          ('.' :: (fraction ++ tail)).dropWhile Char.isDigit = '.' :: (fraction ++ tail) :=
        ⟨rfl, rfl⟩
      obtain ⟨htake, hdrop⟩ := span_digits hdigits hpoint
      obtain ⟨htake', hdrop'⟩ := span_digits hfraction htail.head_not_digit
      simp only [readDigits?, htake, hdrop, htake', hdrop']
      rw [if_neg (by simp [hne]), htail.exponent?_eq]
      rfl

theorem Spells.exists_digit {cs : List Char} {d : Decimal} (h : Spells cs d) :
    ∃ c rest, cs = c :: rest ∧ c.isDigit = true := by
  cases h with
  | @whole digits tail e hdigits hne htail =>
      obtain ⟨c, rest, rfl⟩ := List.exists_cons_of_ne_nil hne
      exact ⟨c, rest ++ tail, rfl, hdigits c List.mem_cons_self⟩
  | @point digits fraction tail e hdigits hne hfraction htail =>
      obtain ⟨c, rest, rfl⟩ := List.exists_cons_of_ne_nil hne
      exact ⟨c, rest ++ '.' :: (fraction ++ tail), rfl, hdigits c List.mem_cons_self⟩

theorem PowerText.isBlank_eq_false {tail : List Char} {e : Int} (h : PowerText tail e) :
    ∀ c ∈ tail, Text.isBlank c = false := by
  cases h with
  | none => exact fun c hc => nomatch hc
  | power hint => exact List.forall_mem_cons.2 ⟨rfl, Integer.isBlank_of_int? hint⟩

theorem Spells.isBlank_eq_false {cs : List Char} {d : Decimal} (h : Spells cs d) :
    ∀ c ∈ cs, Text.isBlank c = false := by
  cases h with
  | whole hdigits hne htail =>
      rw [List.forall_mem_append]
      exact ⟨fun c hc => Text.isBlank_of_isDigit (hdigits c hc), htail.isBlank_eq_false⟩
  | point hdigits hne hfraction htail =>
      rw [List.forall_mem_append, List.forall_mem_cons, List.forall_mem_append]
      exact ⟨fun c hc => Text.isBlank_of_isDigit (hdigits c hc), rfl,
        fun c hc => Text.isBlank_of_isDigit (hfraction c hc), htail.isBlank_eq_false⟩

theorem toLower_of_isDigit {c : Char} (h : c.isDigit = true) : c.toLower = c := by
  obtain ⟨hlower, hupper⟩ := toNat_of_isDigit h
  have hletter : ¬ 65 ≤ c.toNat := by omega
  refine dif_neg ?_
  intro hcapital
  exact hletter (UInt32.le_iff_toNat_le.1 hcapital.1)

/-- Decimals are read as such: none of the words for special values begins with a digit. -/
theorem Spells.readUnsigned?_eq {cs : List Char} {d : Decimal} (h : Spells cs d) (round : Rounding)
    (negative : Bool) :
    readUnsigned? round negative cs = some (ofDecimal round negative d.digits d.exponent) := by
  obtain ⟨c, rest, rfl, hc⟩ := h.exists_digit
  have hname : ∀ d ds, d.isDigit = false → (c :: rest).map Char.toLower ≠ d :: ds := by
    intro d ds hd heq
    rw [List.map_cons, toLower_of_isDigit hc] at heq
    rw [(List.cons.inj heq).1, hd] at hc
    exact Bool.false_ne_true hc
  have hinf : (c :: rest).map Char.toLower ≠ "inf".toList := hname 'i' ['n', 'f'] rfl
  have hinfinity : (c :: rest).map Char.toLower ≠ "infinity".toList :=
    hname 'i' ['n', 'f', 'i', 'n', 'i', 't', 'y'] rfl
  have hnan : (c :: rest).map Char.toLower ≠ "nan".toList := hname 'n' ['a', 'n'] rfl
  rw [readUnsigned?, decide_eq_false hinf, decide_eq_false hinfinity, Bool.or_false,
    if_neg Bool.false_ne_true, if_neg hnan, h.readDigits?_eq]

theorem Spells.readRounded?_eq {cs : List Char} {d : Decimal} (h : Spells cs d) (round : Rounding)
    (negative : Bool) : readRounded? round ((if negative then ['-'] else []) ++ cs) =
      some (ofDecimal round negative d.digits d.exponent) := by
  cases negative with
  | true => exact h.readUnsigned?_eq round true
  | false =>
      -- without a sign of its own the text begins with a digit, so none is taken off
      obtain ⟨c, rest, rfl, hc⟩ := h.exists_digit
      rw [if_neg Bool.false_ne_true, List.nil_append, readRounded?.eq_def]
      split
      · next heq => cases heq; cases hc
      · next heq => cases heq; cases hc
      · exact h.readUnsigned?_eq round false

/-! ## Layouts -/

namespace Layout

variable (n : Layout) {digits : List Char} (hdigits : ∀ c ∈ digits, c.isDigit = true)
  (hne : digits ≠ [])

theorem isDigit_of_mem_replicate {k : Nat} : ∀ c ∈ List.replicate k '0', c.isDigit = true := by
  intro c hc
  rw [List.eq_of_mem_replicate hc]
  rfl

theorem ofDigitChars_append_zeros (cs : List Char) (k : Nat) :
    Nat.ofDigitChars 10 (cs ++ List.replicate k '0') 0 = 10 ^ k * Nat.ofDigitChars 10 cs 0 := by
  rw [Nat.ofDigitChars_append, Nat.ofDigitChars_replicate_zero]

/-- The text of the power of ten in a decimal with one digit before the point. -/
theorem powerText (e : Int) : PowerText
    ('e' :: ((if e < 0 then ['-'] else if n.signsExponent then ['+'] else []) ++
      Nat.toDigits 10 e.natAbs)) e := by
  refine .power ?_
  by_cases hsign : e < 0
  · rw [if_pos hsign, List.singleton_append, Integer.int?_minus_toDigits]
    congr 1
    omega
  · have habs : (e.natAbs : Int) = e := by omega
    rw [if_neg hsign]
    split
    · rw [List.singleton_append, Integer.int?_plus_toDigits, habs]
    · rw [List.nil_append, Integer.int?_toDigits, habs]

include hdigits

theorem isDigit_of_mem_append_zeros (k : Nat) :
    ∀ c ∈ digits ++ List.replicate k '0', c.isDigit = true := by
  intro c hc
  rcases List.mem_append.1 hc with hdigit | hzero
  · exact hdigits c hdigit
  · exact isDigit_of_mem_replicate c hzero

/-- Digits after the point, with zeros before them. -/
theorem spells_zeros_append (k : Nat) :
    Spells ('0' :: '.' :: (List.replicate k '0' ++ digits))
      ⟨Nat.ofDigitChars 10 digits 0, -k - digits.length⟩ := by
  have hfraction : ∀ c ∈ List.replicate k '0' ++ digits, c.isDigit = true := by
    intro c hc
    rcases List.mem_append.1 hc with hzero | hdigit
    · exact isDigit_of_mem_replicate c hzero
    · exact hdigits c hdigit
  refine (Spells.point (isDigit_of_mem_replicate (k := 1)) (by simp) hfraction .none).of_eq
    ?_ ?_ ?_
  · rw [List.append_nil]
    rfl
  · rw [Nat.ofDigitChars_append, Nat.ofDigitChars_append, Nat.ofDigitChars_replicate_zero,
      Nat.ofDigitChars_replicate_zero, Nat.mul_zero]
  · rw [List.length_append, List.length_replicate]
    omega

/-- Digits on both sides of the point. -/
theorem spells_take_drop {k : Nat} (hk : 0 < k) (hlt : k < digits.length) :
    Spells (digits.take k ++ '.' :: digits.drop k)
      ⟨Nat.ofDigitChars 10 digits 0, k - digits.length⟩ := by
  have htake : ∀ c ∈ digits.take k, c.isDigit = true :=
    fun c hc => hdigits c (List.mem_of_mem_take hc)
  have hdrop : ∀ c ∈ digits.drop k, c.isDigit = true :=
    fun c hc => hdigits c (List.mem_of_mem_drop hc)
  have htake_ne : digits.take k ≠ [] := by
    refine List.ne_nil_of_length_pos ?_
    rw [List.length_take]
    omega
  refine (Spells.point htake htake_ne hdrop .none).of_eq ?_ ?_ ?_
  · rw [List.append_nil]
  · rw [List.take_append_drop]
  · rw [List.length_drop]
    omega

include hne

/-- Digits before the point, with zeros after them. -/
theorem spells_append_zeros (k : Nat) :
    Spells (digits ++ List.replicate k '0') ⟨10 ^ k * Nat.ofDigitChars 10 digits 0, 0⟩ := by
  have hne' := List.append_ne_nil_of_left_ne_nil hne (List.replicate k '0')
  refine (Spells.whole (isDigit_of_mem_append_zeros hdigits k) hne' .none).of_eq ?_ ?_ ?_
  · rw [List.append_nil]
  · rw [ofDigitChars_append_zeros]
  · rfl

/-- Digits before the point, with zeros after them and one more after the point. -/
theorem spells_append_zeros_point (k : Nat) :
    Spells (digits ++ List.replicate k '0' ++ ['.', '0'])
      ⟨10 ^ (k + 1) * Nat.ofDigitChars 10 digits 0, -1⟩ := by
  have hne' := List.append_ne_nil_of_left_ne_nil hne (List.replicate k '0')
  refine (Spells.point (isDigit_of_mem_append_zeros hdigits k) hne'
    (isDigit_of_mem_replicate (k := 1)) .none).of_eq ?_ ?_ ?_
  · rfl
  · rw [List.append_assoc, List.replicate_append_replicate, ofDigitChars_append_zeros]
  · rfl

/-- A decimal written out in full, up to zeros at its end. -/
theorem exists_spells_layPositional (point : Int) : ∃ k : Nat,
    Spells (n.layPositional digits point)
      ⟨10 ^ k * Nat.ofDigitChars 10 digits 0, point - digits.length - k⟩ := by
  unfold layPositional
  -- the point stands before the digits, behind them or among them
  by_cases hpoint : point ≤ 0
  · rw [if_pos hpoint]
    refine ⟨0, (spells_zeros_append hdigits _).of_eq rfl ?_ ?_⟩
    · rw [Nat.pow_zero, Nat.one_mul]
    · omega
  · rw [if_neg hpoint]
    by_cases hshort : digits.length ≤ point.toNat
    · simp only [if_pos hshort]
      cases n.keepsFraction with
      | false =>
          rw [if_neg Bool.false_ne_true, List.append_nil]
          refine ⟨_, (spells_append_zeros hdigits hne _).of_eq rfl rfl ?_⟩
          omega
      | true =>
          rw [if_pos rfl]
          refine ⟨_, (spells_append_zeros_point hdigits hne _).of_eq rfl rfl ?_⟩
          omega
    · simp only [if_neg hshort]
      refine ⟨0, (spells_take_drop hdigits (by omega) (by omega)).of_eq rfl ?_ ?_⟩
      · rw [Nat.pow_zero, Nat.one_mul]
      · omega

/-- A decimal with one digit before the point. -/
theorem spells_layScientific (e : Int) : Spells (n.layScientific digits e)
    ⟨Nat.ofDigitChars 10 digits 0, e + 1 - digits.length⟩ := by
  obtain ⟨c, rest, rfl⟩ := List.exists_cons_of_ne_nil hne
  have hc : ∀ b ∈ [c], b.isDigit = true := fun b hb =>
    hdigits b (List.mem_singleton.1 hb ▸ List.mem_cons_self)
  cases rest with
  | nil =>
      refine (Spells.whole hc hne (n.powerText e)).of_eq rfl rfl ?_
      rw [List.length_singleton]
      omega
  | cons b rest =>
      have hrest : ∀ a ∈ b :: rest, a.isDigit = true :=
        fun a ha => hdigits a (List.mem_cons_of_mem _ ha)
      refine (Spells.point hc (List.cons_ne_nil _ _) hrest (n.powerText e)).of_eq ?_ rfl ?_
      · simp [layScientific]
      · rw [List.length_cons]
        omega

omit hdigits hne

/-- The digits of a number are those that a layout keeps, and zeros. -/
theorem exists_append_zeros_eq (cs : List Char) :
    ∃ k, (cs.reverse.dropWhile (· == '0')).reverse ++ List.replicate k '0' = cs := by
  refine ⟨(cs.reverse.takeWhile (· == '0')).length, ?_⟩
  have hzeros : (cs.reverse.takeWhile (· == '0')).reverse =
      List.replicate (cs.reverse.takeWhile (· == '0')).length '0' := by
    rw [List.eq_replicate_iff]
    refine ⟨List.length_reverse, fun c hc => ?_⟩
    have hzero := List.mem_takeWhile_imp (List.mem_reverse.1 hc)
    exact beq_iff_eq.1 hzero
  rw [← hzeros, ← List.reverse_append, List.takeWhile_append_dropWhile, List.reverse_reverse]

/-- The text of a decimal stands for it, up to zeros at the end of the digits of either. -/
theorem exists_spells_lay {d : Decimal} (hd : d.digits ≠ 0) :
    ∃ (digits : Nat) (e : Int) (j k : Nat), digits ≠ 0 ∧ d = ⟨10 ^ j * digits, e - j⟩ ∧
      Spells (n.lay d) ⟨10 ^ k * digits, e - k⟩ := by
  obtain ⟨j, hj⟩ := exists_append_zeros_eq (Nat.toDigits 10 d.digits)
  have hlay : n.lay d =
      let digits := ((Nat.toDigits 10 d.digits).reverse.dropWhile (· == '0')).reverse
      let leading := d.exponent + (Nat.toDigits 10 d.digits).length - 1
      if n.positional leading then n.layPositional digits (leading + 1)
      else n.layScientific digits leading := rfl
  generalize ((Nat.toDigits 10 d.digits).reverse.dropWhile (· == '0')).reverse = digits at *
  have hvalue : d.digits = 10 ^ j * Nat.ofDigitChars 10 digits 0 := by
    rw [← ofDigitChars_append_zeros, hj, Nat.ofDigitChars_ten_toDigits]
  have hdigits : ∀ c ∈ digits, c.isDigit = true := fun c hc =>
    Integer.isDigit_of_mem_digits c (hj ▸ List.mem_append_left _ hc)
  have hkept : Nat.ofDigitChars 10 digits 0 ≠ 0 := by
    intro hzero
    rw [hzero] at hvalue
    exact hd hvalue
  have hne : digits ≠ [] := by
    rintro rfl
    exact hkept rfl
  have hlength : (Nat.toDigits 10 d.digits).length = digits.length + j := by
    rw [← hj, List.length_append, List.length_replicate]
  refine ⟨Nat.ofDigitChars 10 digits 0, d.exponent + j, j, ?_⟩
  rw [hlay]
  simp only [hlength]
  split
  · obtain ⟨k, hspells⟩ := n.exists_spells_layPositional hdigits hne
      (d.exponent + (digits.length + j : Nat) - 1 + 1)
    refine ⟨k, hkept, ?_, hspells.of_eq rfl rfl (by omega)⟩
    rw [← hvalue, Int.add_sub_cancel]
  · refine ⟨0, hkept, ?_, (n.spells_layScientific hdigits hne _).of_eq rfl ?_ (by omega)⟩
    · rw [← hvalue, Int.add_sub_cancel]
    · rw [Nat.pow_zero, Nat.one_mul]

/-- The text of a finite number stands for a decimal that is read as that number. -/
theorem exists_spells_absolute {x : Binary64} (hfinite : x.magnitude < infinityMagnitude) :
    ∃ d, Spells (n.absolute x) d ∧ ofDecimal toDouble x.negative d.digits d.exponent = x := by
  have hinfinite : x.isInfinite = false := decide_eq_false (by omega)
  by_cases hzero : x.magnitude = 0
  · have hx : zero x.negative = x := by
      cases x
      cases hzero
      rfl
    have habsolute : n.absolute x = if n.keepsFraction then ['0', '.', '0'] else ['0'] := by
      unfold absolute
      rw [hinfinite, if_neg Bool.false_ne_true, isZero, hzero]
      rfl
    have hread : ∀ e, ofDecimal toDouble x.negative 0 e = x := fun e => hx
    rw [habsolute]
    split
    · exact ⟨_, .point (isDigit_of_mem_replicate (k := 1)) (by simp)
        (isDigit_of_mem_replicate (k := 1)) .none, hread _⟩
    · exact ⟨_, .whole (isDigit_of_mem_replicate (k := 1)) (by simp) .none, hread _⟩
  · have hpos := Nat.pos_of_ne_zero hzero
    have habsolute : n.absolute x = n.lay (shortest n.tie x.magnitude) := by
      unfold absolute
      rw [hinfinite, if_neg Bool.false_ne_true, isZero, decide_eq_false hzero]
      rfl
    have hreads := readsBack_shortest n.tie hpos
    have hx := ofDecimal_of_readsBack hpos hfinite hreads
    obtain ⟨digits, e, j, k, hne, hd, hspells⟩ := n.exists_spells_lay (hreads.digits_ne_zero hpos)
    refine ⟨_, habsolute ▸ hspells, ?_⟩
    rw [hd] at hx
    rw [ofDecimal_mul_pow x.negative hne]
    rwa [ofDecimal_mul_pow x.negative hne] at hx

theorem toList_text {x : Binary64} (h : x.isNaN = false) :
    (n.text x).toList = (if x.negative then ['-'] else []) ++ n.absolute x := by
  unfold text
  rw [h, if_neg Bool.false_ne_true, String.toList_ofList]

theorem magnitude_le_of_not_isNaN {x : Binary64} (h : x.isNaN = false) :
    x.magnitude ≤ infinityMagnitude := by
  unfold isNaN at h
  rw [decide_eq_false_iff_not] at h
  omega

/-- **Every double but a not-a-number value is read back from its text.** -/
theorem read?_text {x : Binary64} (h : x.isNaN = false) : read? (n.text x).toList = some x := by
  rw [n.toList_text h, read?]
  rcases Nat.lt_or_eq_of_le (magnitude_le_of_not_isNaN h) with hfinite | hinfinite
  · obtain ⟨d, hspells, hd⟩ := n.exists_spells_absolute hfinite
    rw [hspells.readRounded?_eq, hd]
  · obtain ⟨negative, magnitude, hlt⟩ := x
    cases hinfinite
    cases negative with
    | false => rfl
    | true => rfl

theorem isBlank_of_mem_text {x : Binary64} (h : x.isNaN = false) :
    ∀ c ∈ (n.text x).toList, Text.isBlank c = false := by
  have habsolute : ∀ c ∈ n.absolute x, Text.isBlank c = false := by
    rcases Nat.lt_or_eq_of_le (magnitude_le_of_not_isNaN h) with hfinite | hinfinite
    · obtain ⟨d, hspells, -⟩ := n.exists_spells_absolute hfinite
      exact hspells.isBlank_eq_false
    · unfold absolute
      rw [isInfinite, decide_eq_true hinfinite, if_pos rfl]
      intro c hc
      simp only [List.mem_cons, List.not_mem_nil, or_false] at hc
      rcases hc with rfl | rfl | rfl
      · rfl
      · rfl
      · rfl
  rw [n.toList_text h, List.forall_mem_append]
  refine ⟨?_, habsolute⟩
  intro c hc
  split at hc
  · rw [List.mem_singleton.1 hc]
    rfl
  · cases hc

theorem text_ne_empty {x : Binary64} (h : x.isNaN = false) : n.text x ≠ "" := by
  intro hempty
  have hread := n.read?_text h
  rw [hempty] at hread
  cases hread

end Layout

end FlatTables.Binary64
