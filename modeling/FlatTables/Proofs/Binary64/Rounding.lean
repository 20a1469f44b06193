import FlatTables.Binary64.Rounding
import FlatTables.Binary64.Shortest
import Mathlib.Order.Monotone.Basic
import Mathlib.Tactic.Ring

set_option autoImplicit false

/-! # What rounds to a double

A quotient rounds to the double of magnitude `m` exactly when it lies between the midpoints to the
two neighbours of `m`, ends included when `m` is even. `readsBack` tests for this, and here it is
tied to the rounding itself (`nearest_eq_of_readsBack`): the quotient lies in the interval of the
magnitude that it is rounded to, and it lies in the interval of one magnitude only.

A magnitude is `shift * fractionCount + q`, and stands for `q * 2 ^ shift` units. The form with `q`
equal to `2 * fractionCount` stands for the same number as the next greater exponent has for its
least `q` (`unitsOf_eq`), which is why carrying in the rounding needs no case of its own. -/

namespace FlatTables.Binary64

/-! ## Units of a magnitude -/

theorem unitsOf_eq {shift q : Nat} (h : shift = 0 ∨ fractionCount ≤ q)
    (hq : q ≤ 2 * fractionCount) : unitsOf (shift * fractionCount + q) = q * 2 ^ shift := by
  unfold unitsOf
  unfold fractionCount at *
  -- a small `q` stands for itself, there is no leading bit to add
  by_cases hsmall : q < 0x10000000000000
  · obtain rfl : shift = 0 := by omega
    rw [if_pos (by omega), Nat.zero_mul, Nat.zero_add, Nat.pow_zero, Nat.mul_one]
  · rw [if_neg (by omega), Nat.shiftLeft_eq]
    -- at `q = 2 * fractionCount` the exponent is one more and the fraction is zero
    rcases Nat.lt_or_ge q (2 * 0x10000000000000) with hlt | hge
    · have hdiv : (shift * 0x10000000000000 + q) / 0x10000000000000 = shift + 1 := by omega
      have hsum : 0x10000000000000 + (shift * 0x10000000000000 + q) % 0x10000000000000 = q := by
        omega
      rw [hdiv, hsum, Nat.add_sub_cancel]
    · have hdiv : (shift * 0x10000000000000 + q) / 0x10000000000000 - 1 = shift + 1 := by omega
      have hsum : 2 * (0x10000000000000 + (shift * 0x10000000000000 + q) % 0x10000000000000) =
          q := by omega
      rw [hdiv, Nat.pow_succ, Nat.mul_comm _ 2, ← Nat.mul_assoc, Nat.mul_comm _ 2, hsum]

/-- Every magnitude has a form with an exponent and a fraction. -/
theorem exists_eq_shift_mul_add (m : Nat) : ∃ shift q, m = shift * fractionCount + q ∧
    (shift = 0 ∨ fractionCount ≤ q) ∧ q < 2 * fractionCount := by
  unfold fractionCount
  refine ⟨m / 0x10000000000000 - 1, m - (m / 0x10000000000000 - 1) * 0x10000000000000, ?_, ?_, ?_⟩
  · omega
  · omega
  · omega

theorem parity_shift_mul_add (shift q : Nat) : (shift * fractionCount + q) % 2 = q % 2 := by
  rw [show shift * fractionCount = 2 * (shift * 0x8000000000000) by unfold fractionCount; omega]
  omega

/-- The next magnitude is one step further, and a number has at most `2 ^ 53` steps. -/
theorem exists_step (m : Nat) : ∃ step, 0 < step ∧ unitsOf (m + 1) = unitsOf m + step ∧
    unitsOf (m + 1) ≤ 2 * fractionCount * step := by
  obtain ⟨shift, q, rfl, hform, hq⟩ := exists_eq_shift_mul_add m
  refine ⟨2 ^ shift, Nat.two_pow_pos shift, ?_, ?_⟩
  · rw [Nat.add_assoc, unitsOf_eq (by omega) (by omega), unitsOf_eq hform (by omega)]
    ring
  · rw [Nat.add_assoc, unitsOf_eq (by omega) (by omega)]
    exact Nat.mul_le_mul_right _ (by omega)

theorem unitsOf_strictMono : StrictMono unitsOf := by
  refine strictMono_nat_of_lt_succ ?_
  intro m
  obtain ⟨step, hpos, hnext, -⟩ := exists_step m
  omega

/-! ## Intervals -/

theorem readsBack_iff {m num den : Nat} : readsBack m num den = true ↔
    (unitsOf (m - 1) + unitsOf m) * den ≤ num ∧ num ≤ (unitsOf m + unitsOf (m + 1)) * den ∧
      (m % 2 = 1 → (unitsOf (m - 1) + unitsOf m) * den ≠ num ∧
        num ≠ (unitsOf m + unitsOf (m + 1)) * den) := by
  unfold readsBack
  split
  · next heven => simp [heven]
  · next hodd =>
      have hone : m % 2 = 1 := by omega
      simp only [Bool.and_eq_true, decide_eq_true_eq, hone, forall_const]
      omega

/-- Of two magnitudes the greater one has an interval further up. -/
theorem not_readsBack_of_lt {m n num den : Nat} (hlt : m < n) (hden : 0 < den)
    (hm : readsBack m num den = true) : readsBack n num den ≠ true := by
  intro hn
  obtain ⟨-, hupper, hopen⟩ := readsBack_iff.1 hm
  obtain ⟨hlower, -, hopen'⟩ := readsBack_iff.1 hn
  have hends := Nat.le_of_mul_le_mul_right (hlower.trans hupper) hden
  have hpred : unitsOf m ≤ unitsOf (n - 1) := unitsOf_strictMono.monotone (by omega)
  have hself : unitsOf (m + 1) ≤ unitsOf n := unitsOf_strictMono.monotone hlt
  -- The intervals meet at most in a common end, and then only one of the magnitudes is even.
  obtain rfl : n = m + 1 := by
    have hle : unitsOf n ≤ unitsOf (m + 1) := by omega
    exact Nat.le_antisymm (unitsOf_strictMono.le_iff_le.1 hle) hlt
  have hnum : num = (unitsOf m + unitsOf (m + 1)) * den := by
    rw [Nat.add_sub_cancel] at hlower
    exact Nat.le_antisymm hupper hlower
  rcases Nat.mod_two_eq_zero_or_one m with heven | hodd
  · exact (hopen' (by omega)).1 (by rw [Nat.add_sub_cancel, hnum])
  · exact (hopen hodd).2 hnum

/-- A quotient lies in the interval of one magnitude only. -/
theorem eq_of_readsBack {m n num den : Nat} (hden : 0 < den) (hm : readsBack m num den = true)
    (hn : readsBack n num den = true) : m = n := by
  rcases Nat.lt_trichotomy m n with hlt | heq | hgt
  · exact absurd hn (not_readsBack_of_lt hlt hden hm)
  · exact heq
  · exact absurd hm (not_readsBack_of_lt hgt hden hn)

/-! ## Rounding -/

/-- The quotient of the leading bits has as many bits as a fraction can take. -/
theorem div_step_bounds (num den : Nat) :
    let shift := (num / den).log2 - 52
    (shift = 0 ∨ fractionCount ≤ num / (den <<< shift)) ∧
      num / (den <<< shift) < 2 * fractionCount := by
  intro shift
  have hquotient : num / (den <<< shift) = num / den / 2 ^ shift := by
    rw [Nat.shiftLeft_eq, Nat.div_div_eq_div_mul]
  have hupper : num / den < 2 ^ (shift + 53) := by
    refine Nat.lt_log2_self.trans_le (Nat.pow_le_pow_right (by decide) ?_)
    omega
  rw [hquotient]
  refine ⟨?_, ?_⟩
  · by_cases hshift : shift = 0
    · exact .inl hshift
    · right
      have hne : num / den ≠ 0 := by
        intro hzero
        refine hshift ?_
        change (num / den).log2 - 52 = 0
        rw [hzero]
        rfl
      have hlower : 2 ^ (52 + shift) ≤ num / den := by
        refine le_trans (Nat.pow_le_pow_right (by decide) ?_) (Nat.log2_self_le hne)
        omega
      rw [Nat.le_div_iff_mul_le (Nat.two_pow_pos _)]
      rwa [Nat.pow_add] at hlower
  · rw [Nat.div_lt_iff_lt_mul (Nat.two_pow_pos _)]
    rw [Nat.pow_add, Nat.mul_comm] at hupper
    exact hupper

/-- A quotient at most half a step above the multiple `q` of a step. -/
theorem readsBack_below {shift q num r den : Nat} (hform : shift = 0 ∨ fractionCount ≤ q)
    (hq : q < 2 * fractionCount) (hden : 0 < den) (hnum : num = q * (2 ^ shift * den) + r)
    (hr : 2 * r ≤ 2 ^ shift * den) (htie : 2 * r = 2 ^ shift * den → q % 2 = 0) :
    readsBack (shift * fractionCount + q) (2 * num) den = true := by
  have hself : unitsOf (shift * fractionCount + q) = q * 2 ^ shift := unitsOf_eq hform (by omega)
  have hnext : unitsOf (shift * fractionCount + q + 1) = (q + 1) * 2 ^ shift := by
    rw [Nat.add_assoc, unitsOf_eq (by omega) (by omega)]
  have hparity := parity_shift_mul_add shift q
  have hprev : unitsOf (shift * fractionCount + q - 1) ≤ q * 2 ^ shift :=
    hself ▸ unitsOf_strictMono.monotone (Nat.sub_le _ 1)
  have hupper : (q * 2 ^ shift + (q + 1) * 2 ^ shift) * den =
      2 * (q * (2 ^ shift * den)) + 2 ^ shift * den := by ring
  have hlower : (q * 2 ^ shift + q * 2 ^ shift) * den = 2 * (q * (2 ^ shift * den)) := by ring
  rw [readsBack_iff, hself, hnext, hupper, hparity]
  -- only the upper end can be met, and then `q` is even
  refine ⟨?_, by omega, fun hodd => ⟨?_, by omega⟩⟩
  · have hle := Nat.mul_le_mul_right den (Nat.add_le_add_right hprev (q * 2 ^ shift))
    omega
  · have hlt : unitsOf (shift * fractionCount + q - 1) < q * 2 ^ shift :=
      hself ▸ unitsOf_strictMono (by omega)
    have hle := Nat.mul_lt_mul_of_pos_right (Nat.add_lt_add_right hlt (q * 2 ^ shift)) hden
    omega

/-- A quotient at least half a step above the multiple `q` of a step. -/
theorem readsBack_above {shift q num r den : Nat} (hform : shift = 0 ∨ fractionCount ≤ q)
    (hq : q < 2 * fractionCount) (hden : 0 < den) (hnum : num = q * (2 ^ shift * den) + r)
    (hlt : r < 2 ^ shift * den) (hr : 2 ^ shift * den ≤ 2 * r)
    (htie : 2 * r = 2 ^ shift * den → q % 2 = 1) :
    readsBack (shift * fractionCount + (q + 1)) (2 * num) den = true := by
  have hself : unitsOf (shift * fractionCount + (q + 1)) = (q + 1) * 2 ^ shift :=
    unitsOf_eq (by omega) (by omega)
  have hprev : unitsOf (shift * fractionCount + (q + 1) - 1) = q * 2 ^ shift := by
    rw [← Nat.add_assoc, Nat.add_sub_cancel, unitsOf_eq hform (by omega)]
  have hparity := parity_shift_mul_add shift (q + 1)
  have hnext : (q + 1) * 2 ^ shift < unitsOf (shift * fractionCount + (q + 1) + 1) :=
    hself ▸ unitsOf_strictMono (Nat.lt_succ_self _)
  have hlower : (q * 2 ^ shift + (q + 1) * 2 ^ shift) * den =
      2 * (q * (2 ^ shift * den)) + 2 ^ shift * den := by ring
  have hupper : ((q + 1) * 2 ^ shift + (q + 1) * 2 ^ shift) * den =
      2 * (q * (2 ^ shift * den)) + 2 * (2 ^ shift * den) := by ring
  have hfar := Nat.mul_lt_mul_of_pos_right (Nat.add_lt_add_left hnext ((q + 1) * 2 ^ shift)) hden
  rw [readsBack_iff, hself, hprev, hlower, hparity]
  -- only the lower end can be met, and then `q + 1` is even
  refine ⟨by omega, by omega, fun hodd => ⟨?_, by omega⟩⟩
  intro heq
  have heven := htie (by omega)
  omega

theorem roundBits_spec {num den q shift : Nat} (hden : 0 < den)
    (h : roundBits 52 num den = (q, shift)) :
    readsBack (shift * fractionCount + q) (2 * num) den = true := by
  unfold roundBits at h
  rw [Prod.mk.injEq] at h
  obtain ⟨hq, rfl⟩ := h
  obtain ⟨hform, hbound⟩ := div_step_bounds num den
  have hstep : den <<< ((num / den).log2 - 52) = 2 ^ ((num / den).log2 - 52) * den := by
    rw [Nat.shiftLeft_eq, Nat.mul_comm]
  simp only [hstep] at hform hbound hq
  generalize (num / den).log2 - 52 = shift at *
  have hpos : 0 < 2 ^ shift * den := Nat.mul_pos (Nat.two_pow_pos shift) hden
  have hnum : num = num / (2 ^ shift * den) * (2 ^ shift * den) + num % (2 ^ shift * den) := by
    rw [Nat.mul_comm, Nat.div_add_mod]
  have hlt : num % (2 ^ shift * den) < 2 ^ shift * den := Nat.mod_lt _ hpos
  generalize num / (2 ^ shift * den) = below at *
  generalize num % (2 ^ shift * den) = r at *
  -- a remainder of more than half a step rounds up, and so does half a step above an odd `below`
  cases hup : decide (2 ^ shift * den < 2 * r) ||
      decide (2 ^ shift * den = 2 * r) && decide (below % 2 = 1) with
  | false =>
      rw [hup] at hq
      obtain rfl : below = q := hq
      simp only [Bool.or_eq_false_iff, Bool.and_eq_false_iff, decide_eq_false_iff_not] at hup
      exact readsBack_below hform hbound hden hnum (by omega) (by omega)
  | true =>
      rw [hup] at hq
      obtain rfl : below + 1 = q := hq
      simp only [Bool.or_eq_true, Bool.and_eq_true, decide_eq_true_eq] at hup
      exact readsBack_above hform hbound hden hnum hlt (by omega) (by omega)

/-- **What lies in the interval of a double rounds to it.** -/
theorem nearest_eq_of_readsBack {m num den : Nat} (hm : m ≤ infinityMagnitude) (hden : 0 < den)
    (h : readsBack m (2 * num) den = true) : nearest num den = m := by
  obtain ⟨⟨q, shift⟩, hround⟩ : ∃ r, roundBits 52 num den = r := ⟨_, rfl⟩
  have hreads := roundBits_spec hden hround
  unfold nearest
  rw [hround]
  simp only [eq_of_readsBack hden hreads h]
  exact Nat.min_eq_left hm

/-! ## Other quotients of the same value -/

theorem roundBits_mul (fractionBits num den : Nat) {c : Nat} (hc : 0 < c) :
    roundBits fractionBits (c * num) (c * den) = roundBits fractionBits num den := by
  have hstep : ∀ shift, (c * den) <<< shift = c * (den <<< shift) := fun shift => by
    rw [Nat.shiftLeft_eq, Nat.shiftLeft_eq, Nat.mul_assoc]
  have hless : ∀ a b, decide (c * a < 2 * (c * b)) = decide (a < 2 * b) := fun a b => by
    rw [decide_eq_decide, Nat.mul_left_comm, Nat.mul_lt_mul_left hc]
  have hequal : ∀ a b, decide (c * a = 2 * (c * b)) = decide (a = 2 * b) := fun a b => by
    rw [decide_eq_decide, Nat.mul_left_comm, Nat.mul_right_inj (Nat.ne_of_gt hc)]
  simp only [roundBits, Nat.mul_div_mul_left _ _ hc, hstep, Nat.mul_mod_mul_left, hless, hequal]

/-- Rounding depends on the value of a quotient only. -/
theorem nearest_congr {num den num' den' : Nat} (hden : 0 < den) (hden' : 0 < den')
    (h : num * den' = num' * den) : nearest num den = nearest num' den' := by
  have hround : roundBits 52 num den = roundBits 52 num' den' := by
    rw [← roundBits_mul 52 num den hden', ← roundBits_mul 52 num' den' hden,
      Nat.mul_comm den' num, h, Nat.mul_comm num' den, Nat.mul_comm den' den]
  rw [nearest, nearest, hround]

/-! ## Rounding to zero -/

/-- Nothing of one unit or more rounds to zero. -/
theorem nearest_pos {num den : Nat} (hden : 0 < den) (h : den ≤ num) : 0 < nearest num den := by
  obtain ⟨hform, -⟩ := div_step_bounds num den
  have hquotient : 0 < num / (den <<< ((num / den).log2 - 52)) := by
    rcases hform with hshift | hlarge
    · rw [hshift, Nat.shiftLeft_zero]
      exact Nat.div_pos h hden
    · exact Nat.lt_of_lt_of_le (by decide) hlarge
  simp only [nearest, roundBits]
  refine Nat.lt_min.2 ⟨?_, by decide⟩
  omega

/-- No integer but zero becomes a zero. -/
theorem isZero_ofInt_iff {i : Int} : (ofInt i).isZero = true ↔ i = 0 := by
  constructor
  · intro h
    by_contra hi
    have hunits : 1 ≤ i.natAbs * unitsPerOne := Nat.mul_pos (Int.natAbs_pos.2 hi) (by decide)
    have hpos := nearest_pos Nat.one_pos hunits
    have hzero : nearest (i.natAbs * unitsPerOne) 1 = 0 := of_decide_eq_true h
    omega
  · rintro rfl
    decide

end FlatTables.Binary64
