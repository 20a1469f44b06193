import FlatTables.Proofs.Binary64.Shortest

set_option autoImplicit false

/-! # Integers as doubles

Rounding keeps the order of integers, but may make different ones equal (`rank_ofInt_mono`). Up to
`2 ^ 53` every integer is a double itself, so a smaller one stays apart from all others, however
large these are (`rank_ofInt_lt`). -/

namespace FlatTables.Binary64

/-! ## Absolute values -/

/-- The interval of a smaller quotient is not further up. -/
theorem le_of_readsBack {m m' num num' den : Nat} (hden : 0 < den) (hle : num ≤ num')
    (h : readsBack m num den = true) (h' : readsBack m' num' den = true) : m ≤ m' := by
  by_contra hlt
  obtain ⟨hlower, -, -⟩ := readsBack_iff.1 h
  obtain ⟨-, hupper, -⟩ := readsBack_iff.1 h'
  -- the interval of `m'` ends at the latest where that of `m` begins
  have hpred : unitsOf m' ≤ unitsOf (m - 1) := unitsOf_strictMono.monotone (by omega)
  have hself : unitsOf (m' + 1) ≤ unitsOf m := unitsOf_strictMono.monotone (by omega)
  have hends : (unitsOf m' + unitsOf (m' + 1)) * den ≤ (unitsOf (m - 1) + unitsOf m) * den :=
    Nat.mul_le_mul_right den (Nat.add_le_add hpred hself)
  obtain rfl : num = num' := by omega
  exact hlt (eq_of_readsBack hden h h').le

/-- The greater of two quotients does not round to a smaller double. -/
theorem nearest_mono {num num' den : Nat} (hden : 0 < den) (h : num ≤ num') :
    nearest num den ≤ nearest num' den := by
  obtain ⟨⟨q, shift⟩, hround⟩ : ∃ r, roundBits 52 num den = r := ⟨_, rfl⟩
  obtain ⟨⟨q', shift'⟩, hround'⟩ : ∃ r, roundBits 52 num' den = r := ⟨_, rfl⟩
  have hle := le_of_readsBack hden (Nat.mul_le_mul_left 2 h) (roundBits_spec hden hround)
    (roundBits_spec hden hround')
  unfold nearest
  rw [hround, hround']
  exact min_le_min_right infinityMagnitude hle

/-- A double rounds to itself. -/
theorem nearest_unitsOf {m : Nat} (hm : m ≤ infinityMagnitude) : nearest (unitsOf m) 1 = m := by
  refine nearest_eq_of_readsBack hm Nat.one_pos (readsBack_iff.2 ?_)
  have hpred : unitsOf (m - 1) ≤ unitsOf m := unitsOf_strictMono.monotone (Nat.sub_le m 1)
  have hnext : unitsOf m < unitsOf (m + 1) := unitsOf_strictMono (Nat.lt_succ_self m)
  refine ⟨by omega, by omega, fun hodd => ⟨?_, by omega⟩⟩
  have hlt : unitsOf (m - 1) < unitsOf m := unitsOf_strictMono (by omega)
  omega

/-- Zeros behind a natural number up to `2 ^ 53` give it as many bits as a fraction has. -/
theorem exists_scaled {n : Nat} (hpos : 0 < n) (h : n ≤ 2 * fractionCount) :
    ∃ k ≤ 52, fractionCount ≤ n * 2 ^ k ∧ n * 2 ^ k ≤ 2 * fractionCount := by
  rcases h.eq_or_lt with rfl | hlt
  · exact ⟨0, by decide, by decide, by decide⟩
  have hlog : n.log2 < 53 := (Nat.log2_lt hpos.ne').2 hlt
  have hsplit : n.log2 + (52 - n.log2) = 52 := by omega
  refine ⟨52 - n.log2, Nat.sub_le _ _, ?_, ?_⟩
  · calc fractionCount = 2 ^ n.log2 * 2 ^ (52 - n.log2) := by rw [← Nat.pow_add, hsplit]
      _ ≤ n * 2 ^ (52 - n.log2) := Nat.mul_le_mul_right _ (Nat.log2_self_le hpos.ne')
  · calc n * 2 ^ (52 - n.log2) ≤ 2 ^ (n.log2 + 1) * 2 ^ (52 - n.log2) :=
          Nat.mul_le_mul_right _ Nat.lt_log2_self.le
      _ = 2 ^ (52 + 1) := by rw [← Nat.pow_add, Nat.add_right_comm, hsplit]
      _ = 2 * fractionCount := rfl

/-- The natural numbers up to `2 ^ 53` are doubles. -/
theorem exists_unitsOf_eq {n : Nat} (h : n ≤ 2 * fractionCount) :
    ∃ m ≤ infinityMagnitude, unitsOf m = n * unitsPerOne := by
  rcases Nat.eq_zero_or_pos n with rfl | hpos
  · exact ⟨0, Nat.zero_le _, (Nat.zero_mul _).symm⟩
  obtain ⟨k, hk, hlower, hupper⟩ := exists_scaled hpos h
  have hpow : 2 ^ k * 2 ^ (1074 - k) = unitsPerOne := by
    rw [← Nat.pow_add, show k + (1074 - k) = 1074 by omega]
    exact (Nat.one_shiftLeft 1074).symm
  refine ⟨(1074 - k) * fractionCount + n * 2 ^ k, ?_, ?_⟩
  · unfold fractionCount infinityMagnitude at *
    omega
  · rw [unitsOf_eq (.inr hlower) hupper, Nat.mul_assoc, hpow]

/-- A natural number below `2 ^ 53` does not become equal to a greater one. -/
theorem nearest_whole_lt {n n' : Nat} (h : n < n') (hn : n < 2 * fractionCount) :
    nearest (n * unitsPerOne) 1 < nearest (n' * unitsPerOne) 1 := by
  obtain ⟨m, hm, hunits⟩ := exists_unitsOf_eq hn.le
  obtain ⟨m', hm', hunits'⟩ := exists_unitsOf_eq (show n + 1 ≤ 2 * fractionCount from hn)
  have hlt : m < m' := by
    rw [← unitsOf_strictMono.lt_iff_lt, hunits, hunits', Nat.succ_mul]
    exact Nat.lt_add_of_pos_right unitsPerOne_pos
  calc nearest (n * unitsPerOne) 1 = m := by rw [← hunits, nearest_unitsOf hm]
    _ < m' := hlt
    _ = nearest ((n + 1) * unitsPerOne) 1 := by rw [← hunits', nearest_unitsOf hm']
    _ ≤ nearest (n' * unitsPerOne) 1 := nearest_mono Nat.one_pos (Nat.mul_le_mul_right _ h)

/-! ## Signed integers -/

theorem rank_ofInt (i : Int) : (ofInt i).rank =
    if i < 0 then -(nearest (i.natAbs * unitsPerOne) 1 : Int)
    else nearest (i.natAbs * unitsPerOne) 1 := by
  simp only [rank, ofInt, ofUnits, decide_eq_true_eq]

/-- The greater of two integers does not become the smaller double. -/
theorem rank_ofInt_mono {i k : Int} (h : i ≤ k) : (ofInt i).rank ≤ (ofInt k).rank := by
  have hmono {n n' : Nat} (hle : n ≤ n') :
      nearest (n * unitsPerOne) 1 ≤ nearest (n' * unitsPerOne) 1 :=
    nearest_mono Nat.one_pos (Nat.mul_le_mul_right _ hle)
  rw [rank_ofInt, rank_ofInt]
  split
  · split
    · have hle : k.natAbs ≤ i.natAbs := by omega
      exact Int.neg_le_neg (Int.ofNat_le.2 (hmono hle))
    · omega
  · rw [if_neg (by omega)]
    exact Int.ofNat_le.2 (hmono (by omega))

/-- An integer below `2 ^ 53` does not become equal to any other. -/
theorem rank_ofInt_lt {i k : Int} (h : i < k)
    (hsmall : i.natAbs < 2 ^ 53 ∨ k.natAbs < 2 ^ 53) : (ofInt i).rank < (ofInt k).rank := by
  rw [rank_ofInt, rank_ofInt]
  split
  · have hpos : 0 < nearest (i.natAbs * unitsPerOne) 1 :=
      nearest_pos Nat.one_pos (Nat.mul_pos (by omega) unitsPerOne_pos)
    split
    · have hlt : k.natAbs < i.natAbs := by omega
      have hbound : k.natAbs < 2 ^ 53 := by omega
      exact Int.neg_lt_neg (Int.ofNat_lt.2 (nearest_whole_lt hlt hbound))
    · omega
  · have hlt : i.natAbs < k.natAbs := by omega
    have hbound : i.natAbs < 2 ^ 53 := by omega
    rw [if_neg (by omega)]
    exact Int.ofNat_lt.2 (nearest_whole_lt hlt hbound)

/-- Different integers become equal only if both of them have more bits than a double. -/
theorem le_natAbs_of_rank_eq {i k : Int} (hne : i ≠ k) (h : (ofInt i).rank = (ofInt k).rank) :
    2 ^ 53 ≤ i.natAbs ∧ 2 ^ 53 ≤ k.natAbs := by
  by_contra hbound
  rcases Int.lt_or_gt_of_ne hne with hlt | hgt
  · exact absurd h (rank_ofInt_lt hlt (by omega)).ne
  · exact absurd h (rank_ofInt_lt hgt (by omega)).ne'

/-- An integer is never rounded to what is not a number. -/
theorem isNaN_ofInt (i : Int) : (ofInt i).isNaN = false :=
  decide_eq_false (Nat.not_lt.2 (Nat.min_le_right _ _))

end FlatTables.Binary64
