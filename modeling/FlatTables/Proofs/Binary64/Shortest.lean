import FlatTables.Proofs.Binary64.Rounding
import Mathlib.Tactic.Linarith

set_option autoImplicit false

/-! # The search for a shortest decimal succeeds

The grids that are searched become finer by a factor of ten each, from one that is at most ten times
as coarse as the value itself. On the last of the twenty the points lie closer together than the
value and the lower end of its interval, so at the latest there the search finds a decimal that reads
back (`readsBack_shortest`). -/

namespace FlatTables.Binary64

/-! ## Powers of ten -/

theorem tenPow_pos (e : Int) : 0 < (tenPow e).1 ∧ 0 < (tenPow e).2 := by
  have hpos : ∀ n, 0 < Nat.pow 10 n := fun n => Nat.pow_pos (by decide)
  unfold tenPow
  split
  · exact ⟨hpos _, Nat.one_pos⟩
  · exact ⟨Nat.one_pos, hpos _⟩

theorem tenPow_ofNat (n : Nat) : tenPow n = (10 ^ n, 1) := by
  unfold tenPow
  rw [if_pos (Int.natCast_nonneg n)]
  rfl

theorem tenPow_neg (n : Nat) : tenPow (-n) = (1, 10 ^ n) := by
  cases n with
  | zero => rfl
  | succ n =>
      unfold tenPow
      rw [if_neg (by omega), Int.neg_neg]
      rfl

/-- The power `10 ^ (e - k)` is the power `10 ^ e`, divided by `10 ^ k`. -/
theorem tenPow_sub (e : Int) (k : Nat) :
    (tenPow (e - k)).1 * 10 ^ k * (tenPow e).2 = (tenPow e).1 * (tenPow (e - k)).2 := by
  obtain ⟨n, rfl | rfl⟩ := e.eq_nat_or_neg
  · rcases Nat.le_total k n with hle | hle
    · have hsub : (n : Int) - k = ((n - k : Nat) : Int) := by omega
      rw [hsub, tenPow_ofNat, tenPow_ofNat, ← Nat.pow_add, Nat.sub_add_cancel hle]
    · have hsub : (n : Int) - k = -((k - n : Nat) : Int) := by omega
      rw [hsub, tenPow_ofNat, tenPow_neg, ← Nat.pow_add, Nat.add_sub_cancel' hle]
      ring
  · have hsub : -(n : Int) - k = -((n + k : Nat) : Int) := by omega
    rw [hsub, tenPow_neg, tenPow_neg, Nat.pow_add]
    ring

/-! ## One grid -/

theorem shiftLeft_pos {p : Nat} (hp : 0 < p) (k : Nat) : 0 < p <<< k := by
  rw [Nat.shiftLeft_eq]
  exact Nat.mul_pos hp (Nat.two_pow_pos k)

theorem unitsPerOne_pos : 0 < unitsPerOne := shiftLeft_pos Nat.one_pos 1074

theorem shiftLeft_succ_eq (p k : Nat) : p <<< (k + 1) = 2 * (p * (1 <<< k)) := by
  rw [Nat.shiftLeft_succ, Nat.shiftLeft_eq, Nat.shiftLeft_eq, Nat.one_mul]

/-- The distance between the points of a grid, in units of `2 ^ (-1075)` over the denominator of the
power. -/
theorem step_eq (e : Int) : (tenPow e).1 <<< 1075 = 2 * ((tenPow e).1 * unitsPerOne) :=
  shiftLeft_succ_eq (tenPow e).1 1074

/-- Whether a decimal reads back as the double of magnitude `m`. -/
def Decimal.ReadsBack (m : Nat) (d : Decimal) : Prop :=
  readsBack m (d.digits * ((tenPow d.exponent).1 <<< 1075)) (tenPow d.exponent).2 = true

/-- The digits of the grid point below the double of magnitude `m`. -/
def digitsBelow (m : Nat) (e : Int) : Nat :=
  2 * unitsOf m * (tenPow e).2 / ((tenPow e).1 <<< 1075)

/-- The search on one grid chooses among the points around the value. -/
theorem exists_onGrid?_eq (tie : Tie) (m : Nat) (e : Int) : ∃ lowIsNearer : Bool,
    onGrid? tie m e =
      let below := digitsBelow m e
      let lowHit := readsBack m (below * ((tenPow e).1 <<< 1075)) (tenPow e).2
      let highHit := readsBack m ((below + 1) * ((tenPow e).1 <<< 1075)) (tenPow e).2
      if lowHit && (lowIsNearer || !highHit) then some below
      else if highHit then some (below + 1)
      else none :=
  ⟨_, rfl⟩

theorem readsBack_of_onGrid? {tie : Tie} {m digits : Nat} {e : Int}
    (h : onGrid? tie m e = some digits) : Decimal.ReadsBack m ⟨digits, e⟩ := by
  obtain ⟨lowIsNearer, hgrid⟩ := exists_onGrid?_eq tie m e
  simp only [h] at hgrid
  split at hgrid
  · next hlow =>
      cases hgrid
      exact (Bool.and_eq_true_iff.1 hlow).1
  · split at hgrid
    · next hhigh =>
        cases hgrid
        exact hhigh
    · cases hgrid

theorem exists_onGrid?_eq_some {tie : Tie} {m : Nat} {e : Int}
    (h : Decimal.ReadsBack m ⟨digitsBelow m e, e⟩) : ∃ digits, onGrid? tie m e = some digits := by
  obtain ⟨lowIsNearer, hgrid⟩ := exists_onGrid?_eq tie m e
  have hlow : readsBack m (digitsBelow m e * ((tenPow e).1 <<< 1075)) (tenPow e).2 = true := h
  simp only [hlow, Bool.true_and] at hgrid
  rw [hgrid]
  split
  · exact ⟨_, rfl⟩
  · next hnear =>
      simp only [Bool.or_eq_true, Bool.not_eq_true', not_or, Bool.not_eq_false] at hnear
      exact ⟨_, if_pos hnear.2⟩

/-- On a grid that is fine enough the point below the value reads back. -/
theorem readsBack_digitsBelow {m : Nat} {e : Int} {gap : Nat}
    (hgap : unitsOf (m - 1) + gap ≤ unitsOf m)
    (hfine : 2 * ((tenPow e).1 * unitsPerOne) ≤ gap * (tenPow e).2) :
    Decimal.ReadsBack m ⟨digitsBelow m e, e⟩ := by
  obtain ⟨hp, hden⟩ := tenPow_pos e
  have hstep := shiftLeft_pos hp 1075
  rw [← step_eq] at hfine
  have hbelow : digitsBelow m e * ((tenPow e).1 <<< 1075) ≤ 2 * unitsOf m * (tenPow e).2 :=
    Nat.div_mul_le_self _ _
  have habove : 2 * unitsOf m * (tenPow e).2 <
      digitsBelow m e * ((tenPow e).1 <<< 1075) + (tenPow e).1 <<< 1075 :=
    Nat.lt_div_mul_add hstep
  have hlow : (unitsOf (m - 1) + unitsOf m) * (tenPow e).2 + gap * (tenPow e).2 ≤
      2 * unitsOf m * (tenPow e).2 := by
    rw [← Nat.add_mul]
    exact Nat.mul_le_mul_right _ (by omega)
  have hhigh : 2 * unitsOf m * (tenPow e).2 < (unitsOf m + unitsOf (m + 1)) * (tenPow e).2 := by
    have hnext : unitsOf m < unitsOf (m + 1) := unitsOf_strictMono (Nat.lt_succ_self m)
    exact Nat.mul_lt_mul_of_pos_right (by omega) hden
  -- the point lies less than a step below the value, and a step is at most the gap
  have hreads : readsBack m (digitsBelow m e * ((tenPow e).1 <<< 1075)) (tenPow e).2 = true := by
    rw [readsBack_iff]
    generalize digitsBelow m e * ((tenPow e).1 <<< 1075) = point at *
    generalize (tenPow e).1 <<< 1075 = step at *
    omega
  exact hreads

/-! ## The search -/

theorem readsBack_search {tie : Tie} {m : Nat} {count : Nat} {e : Int}
    (h : ∃ k < count, ∃ digits, onGrid? tie m (e - k) = some digits) :
    Decimal.ReadsBack m (search tie m count e) := by
  induction count generalizing e with
  | zero =>
      obtain ⟨k, hk, -⟩ := h
      omega
  | succ count ih =>
      unfold search
      split
      · next digits hdigits => exact readsBack_of_onGrid? hdigits
      · next hnone =>
          -- this grid failed, so the one that succeeds is among the finer ones
          obtain ⟨k, hk, digits, hdigits⟩ := h
          refine ih ?_
          cases k with
          | zero => simp [hnone] at hdigits
          | succ k =>
              refine ⟨k, by omega, digits, ?_⟩
              rw [← hdigits]
              congr 1
              omega

theorem pow_length_toDigits_le {n : Nat} (hn : 0 < n) :
    10 ^ (Nat.toDigits 10 n).length ≤ 10 * n := by
  obtain ⟨k, hk⟩ := Nat.exists_eq_add_one_of_ne_zero
    (Nat.ne_of_gt (Nat.length_toDigits_pos (b := 10) (n := n)))
  rw [hk, Nat.pow_succ, Nat.mul_comm]
  refine Nat.mul_le_mul_left 10 ?_
  by_contra hlt
  cases k with
  | zero => omega
  | succ k =>
      have hlength := (Nat.length_toDigits_le_iff (by decide) (Nat.succ_pos k)).2
        (Nat.lt_of_not_le hlt)
      omega

theorem lt_pow_length_toDigits (n : Nat) : n < 10 ^ (Nat.toDigits 10 n).length :=
  (Nat.length_toDigits_le_iff (by decide) Nat.length_toDigits_pos).1 (Nat.le_refl _)

/-- The search starts at a power of ten at most ten times the value. -/
theorem tenPow_coarsest_le {m : Nat} (hm : 0 < m) :
    (tenPow (coarsest m)).1 * unitsPerOne ≤ 10 * unitsOf m * (tenPow (coarsest m)).2 := by
  have hunits : 0 < unitsOf m := Nat.zero_le (unitsOf 0) |>.trans_lt (unitsOf_strictMono hm)
  have hone := unitsPerOne_pos
  rw [coarsest]
  -- from one up the digits of the value are counted, below one those of its inverse
  split
  · next hle =>
      have hquotient : 0 < unitsOf m / unitsPerOne := Nat.div_pos hle hone
      rw [tenPow_ofNat]
      calc 10 ^ (Nat.toDigits 10 (unitsOf m / unitsPerOne)).length * unitsPerOne
          ≤ 10 * (unitsOf m / unitsPerOne) * unitsPerOne :=
            Nat.mul_le_mul_right _ (pow_length_toDigits_le hquotient)
        _ = 10 * (unitsOf m / unitsPerOne * unitsPerOne) := Nat.mul_assoc ..
        _ ≤ 10 * unitsOf m := Nat.mul_le_mul_left _ (Nat.div_mul_le_self _ _)
        _ = 10 * unitsOf m * 1 := (Nat.mul_one _).symm
  · have hlt := lt_pow_length_toDigits (unitsPerOne / unitsOf m)
    obtain ⟨k, hk⟩ := Nat.exists_eq_add_one_of_ne_zero
      (Nat.ne_of_gt (Nat.length_toDigits_pos (b := 10) (n := unitsPerOne / unitsOf m)))
    rw [hk] at hlt ⊢
    rw [show (1 : Int) - ((k + 1 : Nat) : Int) = -(k : Int) by omega, tenPow_neg]
    calc 1 * unitsPerOne = unitsPerOne := Nat.one_mul _
      _ ≤ unitsOf m * (unitsPerOne / unitsOf m + 1) := Nat.le_of_lt (Nat.lt_mul_div_succ _ hunits)
      _ ≤ unitsOf m * 10 ^ (k + 1) := Nat.mul_le_mul_left _ hlt
      _ = 10 * unitsOf m * 10 ^ k := by rw [Nat.pow_succ]; ring

/-- **A shortest decimal reads back as its double.** -/
theorem readsBack_shortest (tie : Tie) {m : Nat} (hm : 0 < m) :
    Decimal.ReadsBack m (shortest tie m) := by
  obtain ⟨gap, -, hgap, hsteps⟩ := exists_step (m - 1)
  rw [Nat.sub_add_cancel hm] at hgap hsteps
  have hcoarse := tenPow_coarsest_le hm
  have hsub := tenPow_sub (coarsest m) 19
  obtain ⟨-, hd⟩ := tenPow_pos (coarsest m)
  refine readsBack_search ⟨19, by decide, ?_⟩
  refine exists_onGrid?_eq_some (readsBack_digitsBelow (Nat.le_of_eq hgap.symm) ?_)
  -- The last grid is `10 ^ 19` times as fine as the first, and `20 * 2 ^ 53` is less than that.
  generalize unitsPerOne = unit at *
  generalize tenPow (coarsest m - (19 : Nat)) = fine at *
  generalize tenPow (coarsest m) = coarse at *
  have hfine : fine.1 * 10 ^ 19 * unit ≤ 10 * unitsOf m * fine.2 := by
    refine Nat.le_of_mul_le_mul_right ?_ hd
    calc fine.1 * 10 ^ 19 * unit * coarse.2 = fine.1 * 10 ^ 19 * coarse.2 * unit := by ring
      _ = coarse.1 * unit * fine.2 := by rw [hsub]; ring
      _ ≤ 10 * unitsOf m * coarse.2 * fine.2 := Nat.mul_le_mul_right _ hcoarse
      _ = 10 * unitsOf m * fine.2 * coarse.2 := by ring
  have hvalue : unitsOf m * fine.2 ≤ 2 * fractionCount * (gap * fine.2) := by
    rw [← Nat.mul_assoc]
    exact Nat.mul_le_mul_right _ hsteps
  unfold fractionCount at hvalue
  have hleft : fine.1 * 10 ^ 19 * unit = 10 ^ 19 * (fine.1 * unit) := by ring
  have hright : 10 * unitsOf m * fine.2 = 10 * (unitsOf m * fine.2) := by ring
  omega

end FlatTables.Binary64
