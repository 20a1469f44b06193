import FlatTables.Binary64.Decimal
import FlatTables.Proofs.Binary64.Shortest

set_option autoImplicit false

/-! # Reading decimals back

A decimal that lies in the interval of a double is read as that double
(`ofDecimal_of_readsBack`), and what is read depends on the value of a decimal only, not on the
number of zeros that its digits end in (`ofDecimal_mul_pow`). -/

namespace FlatTables.Binary64

/-! ## Powers of ten in range -/

/-- Reading computes with the digits only when the number is neither out of range nor zero. -/
theorem ofDecimal_toDouble {digits : Nat} {e : Int} (negative : Bool) (hne : digits ≠ 0)
    (hlow : -400 ≤ e + (Nat.toDigits 10 digits).length)
    (hhigh : e + (Nat.toDigits 10 digits).length ≤ 400) :
    ofDecimal toDouble negative digits e =
      ofUnits negative (digits * (tenPow e).1 * unitsPerOne) (tenPow e).2 := by
  have hinside : (decide (digits = 0) ||
      decide (e + ((Nat.toDigits 10 digits).length : Int) < -400)) = false := by
    simp only [Bool.or_eq_false_iff, decide_eq_false_iff_not]
    exact ⟨hne, by omega⟩
  rw [ofDecimal, hinside, if_neg Bool.false_ne_true, if_neg (by omega), tenPow]
  by_cases hsign : 0 ≤ e
  · rw [if_pos hsign, if_pos hsign]
    rfl
  · rw [if_neg hsign, if_neg hsign, Nat.mul_one]
    rfl

/-- The power of ten just above the digits of a decimal is more than the decimal, and at most ten
times as much. -/
theorem tenPow_add_length {digits : Nat} (hne : digits ≠ 0) (e : Int) :
    let leading := tenPow (e + (Nat.toDigits 10 digits).length)
    digits * (tenPow e).1 * leading.2 < leading.1 * (tenPow e).2 ∧
      leading.1 * (tenPow e).2 ≤ 10 * (digits * (tenPow e).1 * leading.2) := by
  intro leading
  obtain ⟨hp, -⟩ := tenPow_pos e
  obtain ⟨-, hden⟩ := tenPow_pos (e + (Nat.toDigits 10 digits).length)
  have hpos : 0 < (tenPow e).1 * leading.2 := Nat.mul_pos hp hden
  have hsub := tenPow_sub (e + (Nat.toDigits 10 digits).length) (Nat.toDigits 10 digits).length
  rw [Int.add_sub_cancel] at hsub
  refine ⟨?_, ?_⟩
  · calc digits * (tenPow e).1 * leading.2 = digits * ((tenPow e).1 * leading.2) :=
          Nat.mul_assoc ..
      _ < 10 ^ (Nat.toDigits 10 digits).length * ((tenPow e).1 * leading.2) :=
          Nat.mul_lt_mul_of_pos_right (lt_pow_length_toDigits digits) hpos
      _ = leading.1 * (tenPow e).2 := by rw [← hsub]; ring
  · calc leading.1 * (tenPow e).2 =
          10 ^ (Nat.toDigits 10 digits).length * ((tenPow e).1 * leading.2) := by
          rw [← hsub]; ring
      _ ≤ 10 * digits * ((tenPow e).1 * leading.2) :=
          Nat.mul_le_mul_right _ (pow_length_toDigits_le (Nat.pos_of_ne_zero hne))
      _ = 10 * (digits * (tenPow e).1 * leading.2) := by ring

/-! ## Decimals in an interval -/

variable {m : Nat} {d : Decimal}

theorem Decimal.ReadsBack.readsBack_eq (h : d.ReadsBack m) :
    readsBack m (2 * (d.digits * (tenPow d.exponent).1 * unitsPerOne)) (tenPow d.exponent).2 =
      true := by
  rw [Nat.mul_assoc, Nat.mul_left_comm, ← step_eq]
  exact h

theorem unitsOf_pos (hm : 0 < m) : 0 < unitsOf m :=
  (Nat.zero_le (unitsOf 0)).trans_lt (unitsOf_strictMono hm)

theorem Decimal.ReadsBack.digits_ne_zero (hm : 0 < m) (h : d.ReadsBack m) : d.digits ≠ 0 := by
  intro hzero
  obtain ⟨-, hden⟩ := tenPow_pos d.exponent
  obtain ⟨hlower, -⟩ := readsBack_iff.1 h.readsBack_eq
  have hpos := Nat.mul_pos (Nat.add_pos_right (unitsOf (m - 1)) (unitsOf_pos hm)) hden
  rw [hzero, Nat.zero_mul, Nat.zero_mul] at hlower
  omega

/-- A decimal in the interval of a positive double is at least `10 ^ (-401)`. -/
theorem Decimal.ReadsBack.neg_le_leading (hm : 0 < m) (h : d.ReadsBack m) :
    -400 ≤ d.exponent + (Nat.toDigits 10 d.digits).length := by
  obtain ⟨hupper, -⟩ := tenPow_add_length (h.digits_ne_zero hm) d.exponent
  obtain ⟨hreads, -⟩ := readsBack_iff.1 h.readsBack_eq
  by_contra hlow
  obtain ⟨n, hn⟩ := Int.eq_ofNat_of_zero_le
    (show 0 ≤ -(d.exponent + (Nat.toDigits 10 d.digits).length) by omega)
  -- half the least positive double is more than `10 ^ (-400)`
  have hfar : 2 * unitsPerOne ≤ 10 ^ n :=
    le_trans (by decide +kernel) (Nat.pow_le_pow_right (by decide) (show 400 ≤ n by omega))
  have hunit := unitsPerOne_pos
  rw [show d.exponent + ((Nat.toDigits 10 d.digits).length : Int) = -(n : Int) by omega,
    tenPow_neg, Nat.one_mul] at hupper
  generalize unitsPerOne = unit at *
  refine Nat.lt_irrefl ((tenPow d.exponent).2 * 10 ^ n) ?_
  calc (tenPow d.exponent).2 * 10 ^ n
      ≤ 2 * (d.digits * (tenPow d.exponent).1 * unit) * 10 ^ n := by
        refine Nat.mul_le_mul_right _ (le_trans ?_ hreads)
        exact Nat.le_mul_of_pos_left _ (Nat.add_pos_right _ (unitsOf_pos hm))
    _ = 2 * unit * (d.digits * (tenPow d.exponent).1 * 10 ^ n) := by ring
    _ < 2 * unit * (tenPow d.exponent).2 := Nat.mul_lt_mul_of_pos_left hupper (by omega)
    _ ≤ 10 ^ n * (tenPow d.exponent).2 := Nat.mul_le_mul_right _ hfar
    _ = (tenPow d.exponent).2 * 10 ^ n := Nat.mul_comm ..

/-- A decimal in the interval of a finite double is less than `10 ^ 400`. -/
theorem Decimal.ReadsBack.leading_le (hm : 0 < m) (hfinite : m < infinityMagnitude)
    (h : d.ReadsBack m) : d.exponent + (Nat.toDigits 10 d.digits).length ≤ 400 := by
  obtain ⟨-, hlower⟩ := tenPow_add_length (h.digits_ne_zero hm) d.exponent
  obtain ⟨-, hreads, -⟩ := readsBack_iff.1 h.readsBack_eq
  obtain ⟨-, hden⟩ := tenPow_pos d.exponent
  have hself : unitsOf m + unitsOf (m + 1) ≤ 2 * unitsOf infinityMagnitude := by
    have hnext : unitsOf (m + 1) ≤ unitsOf infinityMagnitude :=
      unitsOf_strictMono.monotone hfinite
    have hlt : unitsOf m < unitsOf (m + 1) := unitsOf_strictMono (Nat.lt_succ_self m)
    omega
  by_contra hhigh
  obtain ⟨n, hn⟩ := Int.eq_ofNat_of_zero_le
    (show 0 ≤ d.exponent + (Nat.toDigits 10 d.digits).length by omega)
  have hpow := Nat.pow_le_pow_right (show 0 < 10 by decide) (show 400 ≤ n by omega)
  -- the doubles end at `2 ^ 1024`, which is less than `10 ^ 399`
  have hfar : 10 * (2 * unitsOf infinityMagnitude) < 2 * unitsPerOne * 10 ^ n :=
    lt_of_lt_of_le (by decide +kernel) (Nat.mul_le_mul_left _ hpow)
  rw [hn, tenPow_ofNat, Nat.mul_one] at hlower
  generalize unitsPerOne = unit at *
  generalize unitsOf infinityMagnitude = beyond at *
  refine Nat.lt_irrefl (2 * unit * 10 ^ n * (tenPow d.exponent).2) ?_
  calc 2 * unit * 10 ^ n * (tenPow d.exponent).2
      = 2 * unit * (10 ^ n * (tenPow d.exponent).2) := Nat.mul_assoc ..
    _ ≤ 2 * unit * (10 * (d.digits * (tenPow d.exponent).1)) := Nat.mul_le_mul_left _ hlower
    _ = 10 * (2 * (d.digits * (tenPow d.exponent).1 * unit)) := by ring
    _ ≤ 10 * ((unitsOf m + unitsOf (m + 1)) * (tenPow d.exponent).2) :=
        Nat.mul_le_mul_left _ hreads
    _ ≤ 10 * (2 * beyond * (tenPow d.exponent).2) :=
        Nat.mul_le_mul_left _ (Nat.mul_le_mul_right _ hself)
    _ = 10 * (2 * beyond) * (tenPow d.exponent).2 := (Nat.mul_assoc ..).symm
    _ < 2 * unit * 10 ^ n * (tenPow d.exponent).2 := Nat.mul_lt_mul_of_pos_right hfar hden

/-- **A decimal in the interval of a double is read as that double.** -/
theorem ofDecimal_of_readsBack {x : Binary64} (hpos : 0 < x.magnitude)
    (hfinite : x.magnitude < infinityMagnitude) (h : d.ReadsBack x.magnitude) :
    ofDecimal toDouble x.negative d.digits d.exponent = x := by
  obtain ⟨-, hden⟩ := tenPow_pos d.exponent
  rw [ofDecimal_toDouble x.negative (h.digits_ne_zero hpos) (h.neg_le_leading hpos)
    (h.leading_le hpos hfinite)]
  have hnearest := nearest_eq_of_readsBack (Nat.le_of_lt hfinite) hden h.readsBack_eq
  cases x
  simp only [ofUnits, hnearest]

/-! ## Trailing zeros -/

theorem length_toDigits_mul_ten {n : Nat} (hn : n ≠ 0) :
    (Nat.toDigits 10 (10 * n)).length = (Nat.toDigits 10 n).length + 1 := by
  have happend := Nat.toDigits_append_toDigits (b := 10) (n := n) (d := 0) (by decide)
    (Nat.pos_of_ne_zero hn) (by decide)
  rw [Nat.add_zero] at happend
  rw [← happend, List.length_append]
  rfl

theorem ofDecimal_mul_ten (negative : Bool) {digits : Nat} (hne : digits ≠ 0) (e : Int) :
    ofDecimal toDouble negative (10 * digits) (e - 1) = ofDecimal toDouble negative digits e := by
  have hlength : e - 1 + ((Nat.toDigits 10 (10 * digits)).length : Int) =
      e + (Nat.toDigits 10 digits).length := by
    rw [length_toDigits_mul_ten hne]
    omega
  -- the leading power is the same for both, so they are out of range together
  by_cases hlow : e + ((Nat.toDigits 10 digits).length : Int) < -400
  · simp only [ofDecimal, hlength, hlow, decide_true, Bool.or_true, if_true]
  · by_cases hhigh : 400 < e + ((Nat.toDigits 10 digits).length : Int)
    · have hten : 10 * digits ≠ 0 := by omega
      simp only [ofDecimal, hlength, hlow, hhigh, hne, hten, decide_false, Bool.or_false,
        Bool.false_eq_true, if_true, if_false]
    · obtain ⟨-, hden⟩ := tenPow_pos e
      obtain ⟨-, hden'⟩ := tenPow_pos (e - 1)
      have hsub : (tenPow (e - 1)).1 * 10 * (tenPow e).2 =
          (tenPow e).1 * (tenPow (e - 1)).2 := tenPow_sub e 1
      rw [ofDecimal_toDouble negative hne (by omega) (by omega),
        ofDecimal_toDouble negative (by omega) (by omega) (by omega)]
      simp only [ofUnits, Binary64.mk.injEq, true_and]
      refine nearest_congr hden' hden ?_
      calc 10 * digits * (tenPow (e - 1)).1 * unitsPerOne * (tenPow e).2
          = digits * ((tenPow (e - 1)).1 * 10 * (tenPow e).2) * unitsPerOne := by ring
        _ = digits * (tenPow e).1 * unitsPerOne * (tenPow (e - 1)).2 := by rw [hsub]; ring

/-- **Zeros at the end of the digits change nothing when the power of ten makes up for them.** -/
theorem ofDecimal_mul_pow (negative : Bool) {digits : Nat} (hne : digits ≠ 0) (e : Int) (k : Nat) :
    ofDecimal toDouble negative (10 ^ k * digits) (e - k) =
      ofDecimal toDouble negative digits e := by
  induction k with
  | zero => rw [Nat.pow_zero, Nat.one_mul, Int.natCast_zero, Int.sub_zero]
  | succ k ih =>
      have hmul : 10 ^ k * digits ≠ 0 :=
        Nat.mul_ne_zero (Nat.pow_pos (by decide)).ne' hne
      rw [← ih, ← ofDecimal_mul_ten negative hmul, Nat.pow_succ, Nat.mul_comm (10 ^ k) 10,
        Nat.mul_assoc, show e - ((k + 1 : Nat) : Int) = e - k - 1 by omega]

end FlatTables.Binary64
