import FlatTables.Proofs.Binary64.Whole
import FlatTables.Proofs.Expression.Coherence

set_option autoImplicit false

/-! # Numbers of different kinds in one order

Two integers are compared exactly, but an integer and a double are compared after the integer has
been rounded to a double. So every number has a place among the doubles, and integers and booleans
have an exact value besides. Two numbers are in order when both their places and their exact values
are, where they have them (`Datum.atMost_iff`).

The places alone would make this an order. The exact values break it in one way: a double can be
equal to two different integers that round to it, and these are not equal to each other
(`Datum.Blurred`). Nothing else can go wrong with three numbers, and even this takes integers from
`2 ^ 53` on (`Expression.transitive_iff_not_blurred`). -/

namespace FlatTables

namespace Binary64

theorem numericEq_iff_rank {x y : Binary64} :
    x.numericEq y = true ↔ x.isNaN = false ∧ y.isNaN = false ∧ x.rank = y.rank := by
  rw [numericEq_iff, compare?]
  cases x.isNaN <;> cases y.isNaN <;> simp

/-- Below `2 ^ 53` the doubles of two integers are ordered like the integers. -/
theorem compare_rank_ofInt {i k : Int} (hsmall : i.natAbs < 2 ^ 53 ∨ k.natAbs < 2 ^ 53) :
    compare (ofInt i).rank (ofInt k).rank = compare i k := by
  rcases Int.lt_trichotomy i k with hlt | rfl | hgt
  · rw [Int.compare_eq_lt.2 hlt, Int.compare_eq_lt.2 (rank_ofInt_lt hlt hsmall)]
  · rw [Std.compare_self, Std.compare_self]
  · rw [Int.compare_eq_gt.2 hgt, Int.compare_eq_gt.2 (rank_ofInt_lt hgt hsmall.symm)]

end Binary64

namespace Datum

/-- Whether a datum compares as a number: it is a boolean, an integer, or a double other than the
not-a-number values. -/
inductive ComparesAsNumber : Datum → Prop
  | boolean (v : Bool) : ComparesAsNumber (boolean v)
  | integer (i : Int64) : ComparesAsNumber (integer i)
  | float {x : Binary64} (h : x.isNaN = false) : ComparesAsNumber (float x)

/-- The exact value of a boolean or an integer. -/
def whole? : Datum → Option Int
  | boolean v => some v.toNat
  | integer i => some i.toInt
  | _ => none

/-- Where a number stands among the doubles. -/
def rank (d : Datum) : Int := (d.number?.getD (.zero false)).rank

/-- Two different integers with a double between them that both of them round to. -/
inductive Blurred : Datum → Datum → Datum → Prop
  | mk {i k : Int64} {x : Binary64} (hne : i ≠ k) (hi : (Binary64.ofInt64 i).numericEq x = true)
    (hk : (Binary64.ofInt64 k).numericEq x = true) : Blurred (integer i) (float x) (integer k)

variable {a b c : Datum} {i k : Int}

/-! ## Two numbers -/

theorem rank_of_whole (h : a.whole? = some i) : a.rank = (Binary64.ofInt i).rank := by
  cases a with
  | boolean v =>
      cases h
      rfl
  | integer j =>
      cases h
      rfl
  | _ => cases h

theorem ComparesAsNumber.exists_number (h : a.ComparesAsNumber) :
    ∃ x, a.number? = some x ∧ x.isNaN = false ∧ a.rank = x.rank := by
  cases h with
  | boolean v => exact ⟨_, rfl, Binary64.isNaN_ofInt _, rfl⟩
  | integer i => exact ⟨_, rfl, Binary64.isNaN_ofInt _, rfl⟩
  | float hx => exact ⟨_, rfl, hx, rfl⟩

/-- Numbers other than two integers are ordered by their places. -/
theorem looseCompare?_of_ranks (ha : a.ComparesAsNumber) (hb : b.ComparesAsNumber)
    (h : ∀ i k, a = integer i → b ≠ integer k) :
    a.looseCompare? b = some (compare a.rank b.rank) := by
  obtain ⟨x, hx, hxn, hxr⟩ := ha.exists_number
  obtain ⟨y, hy, hyn, hyr⟩ := hb.exists_number
  have htext : ∀ s t, a = text s → b ≠ text t := by
    rintro s t rfl
    cases ha
  rw [looseCompare?_eq_numbers h htext, hx, hy, hxr, hyr]
  simp [Binary64.compare?, hxn, hyn]

theorem ComparesAsNumber.of_whole (h : a.whole? = some i) : a.ComparesAsNumber := by
  cases a with
  | boolean v => exact .boolean v
  | integer j => exact .integer j
  | _ => cases h

/-- What has an exact value and is no integer is a boolean, and those are small. -/
theorem eq_integer_or_small (h : a.whole? = some i) :
    (∃ j, a = integer j ∧ j.toInt = i) ∨ i.natAbs < 2 ^ 53 ∧ ∀ j, a ≠ integer j := by
  cases a with
  | integer j =>
      cases h
      exact .inl ⟨j, rfl, rfl⟩
  | boolean v =>
      cases h
      cases v <;> exact .inr ⟨by decide, nofun⟩
  | _ => cases h

/-- Exact values decide the order of two numbers that have them. -/
theorem looseCompare?_of_whole (ha : a.whole? = some i) (hb : b.whole? = some k) :
    a.looseCompare? b = some (compare i k) := by
  have hranks (h : ∀ j l, a = integer j → b ≠ integer l)
      (hsmall : i.natAbs < 2 ^ 53 ∨ k.natAbs < 2 ^ 53) : a.looseCompare? b = some (compare i k) := by
    rw [looseCompare?_of_ranks (.of_whole ha) (.of_whole hb) h, rank_of_whole ha, rank_of_whole hb,
      Binary64.compare_rank_ofInt hsmall]
  rcases eq_integer_or_small ha with ⟨j, rfl, rfl⟩ | ⟨hsmall, hne⟩
  · rcases eq_integer_or_small hb with ⟨l, rfl, rfl⟩ | ⟨hsmall, hne⟩
    · rfl
    · exact hranks (fun _ l _ => hne l) (.inr hsmall)
  · exact hranks (fun j _ hj => absurd hj (hne j)) (.inl hsmall)

/-- Two numbers are compared by their exact values, or one of them has none and they are compared by
their places. -/
theorem looseCompare?_cases (ha : a.ComparesAsNumber) (hb : b.ComparesAsNumber) :
    ((∀ i k, a.whole? = some i → b.whole? ≠ some k) ∧
      a.looseCompare? b = some (compare a.rank b.rank)) ∨
    ∃ i k, a.whole? = some i ∧ b.whole? = some k ∧ a.rank = (Binary64.ofInt i).rank ∧
      b.rank = (Binary64.ofInt k).rank ∧ a.looseCompare? b = some (compare i k) := by
  by_cases h : ∃ i k, a.whole? = some i ∧ b.whole? = some k
  · obtain ⟨i, k, hi, hk⟩ := h
    exact .inr ⟨i, k, hi, hk, rank_of_whole hi, rank_of_whole hk, looseCompare?_of_whole hi hk⟩
  · have hnone : ∀ i k, a.whole? = some i → b.whole? ≠ some k := fun i k hi hk => h ⟨i, k, hi, hk⟩
    refine .inl ⟨hnone, looseCompare?_of_ranks ha hb ?_⟩
    rintro j l rfl rfl
    exact hnone _ _ rfl rfl

/-- Two numbers are equal if their places are, and their exact values, where both have one. -/
theorem looseCompare?_eq_iff (ha : a.ComparesAsNumber) (hb : b.ComparesAsNumber) :
    a.looseCompare? b = some .eq ↔
      a.rank = b.rank ∧ ∀ i k, a.whole? = some i → b.whole? = some k → i = k := by
  rcases looseCompare?_cases ha hb with ⟨hnone, h⟩ | ⟨i, k, hi, hk, hai, hbk, h⟩
  · simp only [h, Option.some.injEq, Std.compare_eq_iff_eq]
    exact ⟨fun heq => ⟨heq, fun i k hi hk => absurd hk (hnone i k hi)⟩, And.left⟩
  · rw [h, hai, hbk, hi, hk, Option.some.injEq, Std.compare_eq_iff_eq]
    constructor
    · rintro rfl
      exact ⟨rfl, by rintro _ _ ⟨⟩ ⟨⟩; rfl⟩
    · exact fun heq => heq.2 i k rfl rfl

/-- Whether `a` is less than `b` or equal to it. -/
def AtMost (a b : Datum) : Prop := ∃ order, a.looseCompare? b = some order ∧ order.isLE = true

/-- Two numbers are in order if their places are, and their exact values, where both have one. -/
theorem atMost_iff (ha : a.ComparesAsNumber) (hb : b.ComparesAsNumber) : a.AtMost b ↔
    a.rank ≤ b.rank ∧ ∀ i k, a.whole? = some i → b.whole? = some k → i ≤ k := by
  rcases looseCompare?_cases ha hb with ⟨hnone, h⟩ | ⟨i, k, hi, hk, hai, hbk, h⟩
  · simp only [AtMost, h, Option.some.injEq, exists_eq_left', Int.isLE_compare]
    exact ⟨fun hle => ⟨hle, fun i k hi hk => absurd hk (hnone i k hi)⟩, And.left⟩
  · simp only [AtMost, h, hai, hbk, hi, hk, Option.some.injEq, exists_eq_left', Int.isLE_compare]
    constructor
    · exact fun hle => ⟨Binary64.rank_ofInt_mono hle, by rintro _ _ rfl rfl; exact hle⟩
    · exact fun hle => hle.2 i k rfl rfl

/-! ## Three numbers -/

/-- What is blurred has its places together, and two exact values that are not. -/
theorem blurred_iff (hb : b.ComparesAsNumber) : Blurred a b c ↔
    a.rank = b.rank ∧ b.rank = c.rank ∧ b.whole? = none ∧
      ∃ i k, a.whole? = some i ∧ c.whole? = some k ∧ i ≠ k := by
  constructor
  · rintro ⟨hne, hi, hk⟩
    obtain ⟨-, -, hi⟩ := Binary64.numericEq_iff_rank.1 hi
    obtain ⟨-, -, hk⟩ := Binary64.numericEq_iff_rank.1 hk
    exact ⟨hi, hk.symm, rfl, _, _, rfl, rfl, fun h => hne (Int64.toInt_inj.1 h)⟩
  · rintro ⟨hab, hbc, hnone, i, k, hi, hk, hne⟩
    have hrank := hab.trans hbc
    rw [rank_of_whole hi, rank_of_whole hk] at hrank
    obtain ⟨hi', hk'⟩ := Binary64.le_natAbs_of_rank_eq hne hrank
    obtain ⟨i, rfl, rfl⟩ := (eq_integer_or_small hi).resolve_right (by omega)
    obtain ⟨k, rfl, rfl⟩ := (eq_integer_or_small hk).resolve_right (by omega)
    cases hb with
    | float hx =>
        have hinteger (j : Int64) : (Binary64.ofInt64 j).isNaN = false := Binary64.isNaN_ofInt _
        refine .mk (fun h => hne (h ▸ rfl)) ?_ ?_
        · exact Binary64.numericEq_iff_rank.2 ⟨hinteger i, hx, hab⟩
        · exact Binary64.numericEq_iff_rank.2 ⟨hinteger k, hx, hbc.symm⟩
    | _ => cases hnone

theorem Blurred.le_natAbs (h : Blurred a b c) {j : Int64} (hj : a = integer j ∨ c = integer j) :
    2 ^ 53 ≤ j.toInt.natAbs := by
  obtain ⟨hne, hi, hk⟩ := h
  obtain ⟨-, -, hi⟩ := Binary64.numericEq_iff_rank.1 hi
  obtain ⟨-, -, hk⟩ := Binary64.numericEq_iff_rank.1 hk
  have hbounds := Binary64.le_natAbs_of_rank_eq (fun h => hne (Int64.toInt_inj.1 h))
    (hi.trans hk.symm)
  rcases hj with hj | hj
  · cases hj
    exact hbounds.1
  · cases hj
    exact hbounds.2

variable (ha : a.ComparesAsNumber) (hb : b.ComparesAsNumber) (hc : c.ComparesAsNumber)
include ha hb hc

/-- Equality leads from one number over a second to a third unless the second blurs the others. -/
theorem equal_trans_iff :
    (a.looseCompare? b = some .eq → b.looseCompare? c = some .eq → a.looseCompare? c = some .eq) ↔
      ¬Blurred a b c := by
  rw [looseCompare?_eq_iff ha hb, looseCompare?_eq_iff hb hc, looseCompare?_eq_iff ha hc,
    blurred_iff hb]
  constructor
  · rintro h ⟨hab, hbc, hnone, i, k, hi, hk, hne⟩
    have hac := h ⟨hab, by simp [hnone]⟩ ⟨hbc, by simp [hnone]⟩
    exact hne (hac.2 i k hi hk)
  · rintro h ⟨hab, hwab⟩ ⟨hbc, hwbc⟩
    refine ⟨hab.trans hbc, fun i k hi hk => ?_⟩
    cases hj : b.whole? with
    | some j => exact (hwab i j hi hj).trans (hwbc j k hj hk)
    | none =>
        by_contra hne
        exact h ⟨hab, hbc, hj, i, k, hi, hk, hne⟩

/-- Order does so unless, moreover, the third of the numbers is less than the first. -/
theorem atMost_trans_iff : (a.AtMost b → b.AtMost c → a.AtMost c) ↔
    ¬(Blurred a b c ∧ c.looseCompare? a = some .lt) := by
  rw [atMost_iff ha hb, atMost_iff hb hc, atMost_iff ha hc, blurred_iff hb]
  constructor
  · rintro h ⟨⟨hab, hbc, hnone, i, k, hi, hk, -⟩, hlt⟩
    have hac := h ⟨hab.le, by simp [hnone]⟩ ⟨hbc.le, by simp [hnone]⟩
    rw [looseCompare?_of_whole hk hi, Option.some.injEq, Int.compare_eq_lt] at hlt
    exact absurd (hac.2 i k hi hk) (by omega)
  · rintro h ⟨hab, hwab⟩ ⟨hbc, hwbc⟩
    refine ⟨hab.trans hbc, fun i k hi hk => ?_⟩
    cases hj : b.whole? with
    | some j => exact (hwab i j hi hj).trans (hwbc j k hj hk)
    | none =>
        by_contra hlt
        have hca : c.rank ≤ a.rank := by
          rw [rank_of_whole hi, rank_of_whole hk]
          exact Binary64.rank_ofInt_mono (by omega)
        refine h ⟨⟨by omega, by omega, hj, i, k, hi, hk, by omega⟩, ?_⟩
        rw [looseCompare?_of_whole hk hi, Option.some.injEq, Int.compare_eq_lt]
        omega

omit ha hb hc

/-! ## Operators -/

theorem ComparesAsNumber.orFalse (h : a.ComparesAsNumber) : a.orFalse = a := by
  cases h <;> rfl

theorem ComparesAsNumber.ne_null (h : a.ComparesAsNumber) : a ≠ null := by
  rintro rfl
  cases h

theorem ComparesAsNumber.not_isList (h : a.ComparesAsNumber) : ¬a.IsList := by
  rintro ⟨items, rfl⟩
  cases h

theorem holds_equal_iff (ha : a.ComparesAsNumber) (hb : b.ComparesAsNumber) :
    Comparison.equal.holds a b = true ↔ a.looseCompare? b = some .eq := by
  simp only [Comparison.holds, ha.orFalse, hb.orFalse]
  exact looseEq_iff (fun h => ha.not_isList h.1) fun h => ha.ne_null h.1

theorem holds_less_iff (ha : a.ComparesAsNumber) (hb : b.ComparesAsNumber) :
    Comparison.less.holds a b = true ↔ a.looseCompare? b = some .lt := by
  simp only [Comparison.holds, ha.orFalse, hb.orFalse, beq_iff_eq]

theorem holds_lessOrEqual_iff (ha : a.ComparesAsNumber) (hb : b.ComparesAsNumber) :
    Comparison.lessOrEqual.holds a b = true ↔ a.AtMost b := by
  simp only [Comparison.holds, ha.orFalse, hb.orFalse, AtMost]
  cases a.looseCompare? b with
  | none => simp
  | some order => cases order <;> simp

end Datum

namespace Expression

variable {b : Bindings} {lhs mid rhs : Expression} {x y z : Datum}

/-- **Numbers of all kinds are in one order, but for blurred ones.** Equality and order of three
numbers are transitive, unless the first and the third are different integers, both of which round
to the second, a double. That takes integers from `2 ^ 53` on. -/
theorem transitive_iff_not_blurred (hlhs : lhs.eval b = .ok x) (hmid : mid.eval b = .ok y)
    (hrhs : rhs.eval b = .ok z) (hx : x.ComparesAsNumber) (hy : y.ComparesAsNumber)
    (hz : z.ComparesAsNumber) :
    ((b.Holds .equal lhs mid → b.Holds .equal mid rhs → b.Holds .equal lhs rhs) ↔
      ¬Datum.Blurred x y z) ∧
    ((b.Holds .lessOrEqual lhs mid → b.Holds .lessOrEqual mid rhs → b.Holds .lessOrEqual lhs rhs) ↔
      ¬(Datum.Blurred x y z ∧ b.Holds .less rhs lhs)) ∧
    (Datum.Blurred x y z → ∀ i, x = .integer i ∨ z = .integer i → 2 ^ 53 ≤ i.toInt.natAbs) := by
  refine ⟨?_, ?_, fun h i => h.le_natAbs⟩
  · rw [holds_iff hlhs hmid, holds_iff hmid hrhs, holds_iff hlhs hrhs, Datum.holds_equal_iff hx hy,
      Datum.holds_equal_iff hy hz, Datum.holds_equal_iff hx hz]
    exact Datum.equal_trans_iff hx hy hz
  · rw [holds_iff hlhs hmid, holds_iff hmid hrhs, holds_iff hlhs hrhs, holds_iff hrhs hlhs,
      Datum.holds_lessOrEqual_iff hx hy, Datum.holds_lessOrEqual_iff hy hz,
      Datum.holds_lessOrEqual_iff hx hz, Datum.holds_less_iff hz hx]
    exact Datum.atMost_trans_iff hx hy hz

/-- The greatest word rounds up to the double `2 ^ 63`, so that is no less, and neither is a double
above it. -/
theorem transitive_greatestWord :
    let b : Bindings := ⟨.empty, []⟩
    let word : Expression := literal (.integer Int64.maxValue)
    let double : Expression := literal (.float (Binary64.ofInt (2 ^ 63)))
    let above : Expression := literal (.float (Binary64.ofInt (2 ^ 64)))
    b.Holds .equal word double ∧ b.Holds .lessOrEqual double above ∧
      b.Holds .lessOrEqual word above := by
  intro b word double above
  have hword : word.eval b = .ok (.integer Int64.maxValue) := rfl
  have hdouble : double.eval b = .ok (.float (Binary64.ofInt (2 ^ 63))) := rfl
  have habove : above.eval b = .ok (.float (Binary64.ofInt (2 ^ 64))) := rfl
  have hnumber (i : Int) : (Datum.float (Binary64.ofInt i)).ComparesAsNumber :=
    .float (Binary64.isNaN_ofInt i)
  obtain ⟨-, horder, -⟩ :=
    transitive_iff_not_blurred hword hdouble habove (.integer _) (hnumber _) (hnumber _)
  have hequal : b.Holds .equal word double := by
    rw [holds_iff hword hdouble]
    decide +kernel
  have hlessOrEqual : b.Holds .lessOrEqual word double := by
    rw [holds_iff hword hdouble]
    decide +kernel
  have hlessOrEqual' : b.Holds .lessOrEqual double above := by
    rw [holds_iff hdouble habove]
    decide +kernel
  refine ⟨hequal, hlessOrEqual', horder.2 ?_ hlessOrEqual hlessOrEqual'⟩
  rintro ⟨⟨⟩, -⟩

/-- The double `2 ^ 53` is equal to that integer and to the next one, and these two are different. -/
theorem not_transitive_blurred :
    let b : Bindings := ⟨.empty, []⟩
    let word : Expression := literal (.integer 9007199254740992)
    let double : Expression := literal (.float (Binary64.ofInt 9007199254740992))
    let next : Expression := literal (.integer 9007199254740993)
    b.Holds .equal word double ∧ b.Holds .equal double next ∧ ¬b.Holds .equal word next ∧
      b.Holds .lessOrEqual next double ∧ b.Holds .lessOrEqual double word ∧
      ¬b.Holds .lessOrEqual next word := by
  intro b word double next
  have hword : word.eval b = .ok (.integer 9007199254740992) := rfl
  have hdouble : double.eval b = .ok (.float (Binary64.ofInt 9007199254740992)) := rfl
  have hnext : next.eval b = .ok (.integer 9007199254740993) := rfl
  rw [holds_iff hword hdouble, holds_iff hdouble hnext, holds_iff hword hnext,
    holds_iff hnext hdouble, holds_iff hdouble hword, holds_iff hnext hword]
  decide +kernel

end Expression

end FlatTables
