import FlatTables.Proofs.Algebra.OuterJoin
import FlatTables.Proofs.Expression.Canonical

set_option autoImplicit false

/-! # How often an outer join holds a row

An outer join ends in a union, and a union keeps one of several equal rows. So every row of the join,
and every row without a partner when it is filled up, occurs exactly once in the outer join
(`occurrences_leftJoin`, `occurrences_rightJoin`), however often it occurred before. Counted with
multiplicity no row is lost exactly when neither the rows of the join nor the rows without a partner
hold duplicates (`outerJoins_loseNone_iff`). -/

namespace FlatTables

/-! ## Rows with multiplicity -/

/-- How often a row occurs in a list. -/
def occurrences (rows : List Row) (row : Row) : Nat := rows.countP (Row.same row)

/-- Whether no two rows are equal. -/
def Distinct (rows : List Row) : Prop := rows.Pairwise fun a b => Row.same a b = false

instance (rows : List Row) : Decidable (Distinct rows) :=
  inferInstanceAs (Decidable (rows.Pairwise fun a b => Row.same a b = false))

namespace Row

theorem same_refl (row : Row) : Row.same row row = true := same_iff.2 rfl

theorem canonical_append (a b : Row) : canonical (a ++ b) = canonical a ++ canonical b :=
  List.map_append

theorem same_append_left (a b c : Row) : Row.same (a ++ c) (b ++ c) = Row.same a b := by
  rw [Bool.eq_iff_iff, same_iff, same_iff, canonical_append, canonical_append,
    List.append_cancel_right_eq]

theorem same_append_right (a b c : Row) : Row.same (c ++ a) (c ++ b) = Row.same a b := by
  rw [Bool.eq_iff_iff, same_iff, same_iff, canonical_append, canonical_append,
    List.append_cancel_left_eq]

/-- Equal rows of equal lengths in front are equal themselves. -/
theorem same_of_same_append {a a' b b' : Row} (h : Row.same (a ++ b) (a' ++ b') = true)
    (hlength : a.length = a'.length) : Row.same a a' = true ∧ Row.same b b' = true := by
  rw [same_iff, canonical_append, canonical_append] at h
  obtain ⟨ha, hb⟩ := List.append_inj h (by simp [canonical, hlength])
  exact ⟨same_iff.2 ha, same_iff.2 hb⟩

theorem same_congr_right {a b : Row} (h : Row.same a b = true) (row : Row) :
    Row.same row a = Row.same row b := by
  rw [Bool.eq_iff_iff, same_iff, same_iff, same_iff.1 h]

theorem same_congr_left {a b : Row} (h : Row.same a b = true) : Row.same a = Row.same b := by
  funext other
  rw [same_comm a, same_comm b, same_congr_right h]

end Row

theorem occurrences_cons (first : Row) (rest : List Row) (row : Row) :
    occurrences (first :: rest) row =
      occurrences rest row + if Row.same row first = true then 1 else 0 :=
  List.countP_cons

theorem occurrences_append (rows rows' : List Row) (row : Row) :
    occurrences (rows ++ rows') row = occurrences rows row + occurrences rows' row :=
  List.countP_append

/-- Equal rows occur equally often. -/
theorem occurrences_congr (rows : List Row) {row row' : Row} (h : Row.same row row' = true) :
    occurrences rows row = occurrences rows row' := by
  rw [occurrences, Row.same_congr_left h, occurrences]

theorem occurrences_pos_iff {rows : List Row} {row : Row} :
    0 < occurrences rows row ↔ ∃ other ∈ rows, Row.same row other = true :=
  List.countP_pos_iff

theorem occurrences_map {f : Row → Row} (hf : ∀ a b, Row.same (f a) (f b) = Row.same a b)
    (rows : List Row) (row : Row) : occurrences (rows.map f) (f row) = occurrences rows row := by
  unfold occurrences
  rw [List.countP_map]
  exact congrArg (List.countP · rows) (funext fun other => hf row other)

theorem distinct_iff {rows : List Row} : Distinct rows ↔ ∀ row, occurrences rows row ≤ 1 := by
  induction rows with
  | nil => simp [Distinct, occurrences]
  | cons first rest ih =>
      have hfirst : (∀ other ∈ rest, Row.same first other = false) ↔ occurrences rest first = 0 := by
        simp [occurrences, List.countP_eq_zero]
      rw [Distinct, List.pairwise_cons, ← Distinct, ih, hfirst]
      simp only [occurrences_cons]
      constructor
      · rintro ⟨hzero, hrest⟩ row
        split
        · next hsame => simp [occurrences_congr rest hsame, hzero]
        · exact hrest row
      · intro h
        refine ⟨?_, fun row => Nat.le_trans (Nat.le_add_right _ _) (h row)⟩
        have hone := h first
        rw [if_pos (Row.same_refl first)] at hone
        omega

/-! ## Later duplicates left out -/

namespace Table

/-- A row is kept once, unless it was seen before. -/
theorem occurrences_firstOccurrences (seen : Std.HashSet Row) (rows : List Row) (row : Row) :
    occurrences (firstOccurrences seen rows) row =
      if seen.contains (Row.canonical row) then 0 else min 1 (occurrences rows row) := by
  induction rows generalizing seen with
  | nil => simp [firstOccurrences, occurrences]
  | cons first rest ih =>
      have hsame : Row.same row first = true ↔ Row.canonical first = Row.canonical row := by
        rw [Row.same_iff]
        exact eq_comm
      unfold firstOccurrences
      rw [occurrences_cons]
      by_cases hseen : seen.contains (Row.canonical first) = true
      · rw [if_pos hseen, ih]
        by_cases hrow : Row.same row first = true
        · rw [if_pos (hsame.1 hrow ▸ hseen), if_pos (hsame.1 hrow ▸ hseen)]
        · rw [if_neg hrow, Nat.add_zero]
      · rw [if_neg hseen, occurrences_cons, ih, Std.HashSet.contains_insert]
        by_cases hrow : Row.same row first = true
        -- this is the one occurrence that is kept
        · rw [if_pos hrow, if_pos (by simp [hsame.1 hrow]), if_neg (hsame.1 hrow ▸ hseen)]
          omega
        · simp [hrow, mt hsame.2 hrow]

theorem eraseDupsBy_same_eq (rows : List Row) :
    rows.eraseDupsBy Row.same = firstOccurrences ∅ rows := by
  rw [firstOccurrences_eq, List.filter_eq_self.2]
  simp

/-- Without later duplicates every row that occurs does so once. -/
theorem occurrences_eraseDupsBy (rows : List Row) (row : Row) :
    occurrences (rows.eraseDupsBy Row.same) row = min 1 (occurrences rows row) := by
  rw [eraseDupsBy_same_eq, occurrences_firstOccurrences, if_neg (by simp)]

theorem eraseDupsBy_eq_self {rows : List Row} (h : Distinct rows) :
    rows.eraseDupsBy Row.same = rows := by
  induction rows with
  | nil => rfl
  | cons first rest ih =>
      obtain ⟨hfirst, hrest⟩ := List.pairwise_cons.1 h
      have hkeep : rest.filter (fun other => Row.same other first = false) = rest := by
        refine List.filter_eq_self.2 fun other hother => ?_
        rw [Row.same_comm, hfirst other hother]
        rfl
      rw [List.eraseDupsBy_cons, hkeep, ih hrest]

/-! ## Rows that a union adds to a join -/

/-- Whether an outer join `outer` loses no row of the join `inner` and none of the rows `lone` of
one side, which are those among `rows` that no row of the other side matches and which are filled up
with nulls. -/
structure LosesNone (outer inner rows lone : List Row) (fill : Row → Row) : Prop where
  /-- A row of the join occurs at least as often as in the join. -/
  joined : ∀ row, occurrences inner row ≤ occurrences outer row
  /-- A row without a partner occurs, filled up, as often as in its table. -/
  filled : ∀ row ∈ lone, occurrences outer (fill row) = occurrences rows row
  length : outer.length = inner.length + lone.length

section Union

variable {outer inner rows lone : List Row} {fill : Row → Row}

/-- Whatever a row of the join was, it occurs once in the union. -/
theorem occurrences_outer_of_mem (houter : outer = (inner ++ lone.map fill).eraseDupsBy Row.same)
    {row : Row} (hrow : row ∈ inner ++ lone.map fill) : occurrences outer row = 1 := by
  have hpos : 0 < occurrences (inner ++ lone.map fill) row :=
    occurrences_pos_iff.2 ⟨row, hrow, Row.same_refl row⟩
  rw [houter, occurrences_eraseDupsBy]
  omega

/-- No row is lost exactly when the union has no duplicates to leave out. -/
theorem losesNone_iff (houter : outer = (inner ++ lone.map fill).eraseDupsBy Row.same)
    (hfill : ∀ a b, Row.same (fill a) (fill b) = Row.same a b)
    (hlone : ∀ row ∈ lone, occurrences rows row = occurrences lone row)
    (hapart : ∀ row ∈ inner, ∀ other ∈ lone, Row.same row (fill other) = false) :
    LosesNone outer inner rows lone fill ↔ Distinct inner ∧ Distinct lone := by
  have houterOne : ∀ row, occurrences outer row ≤ 1 := by
    intro row
    rw [houter, occurrences_eraseDupsBy]
    exact Nat.min_le_left _ _
  constructor
  · intro h
    refine ⟨distinct_iff.2 fun row => Nat.le_trans (h.joined row) (houterOne row),
      distinct_iff.2 fun row => ?_⟩
    by_cases hpos : 0 < occurrences lone row
    · obtain ⟨other, hother, hsame⟩ := occurrences_pos_iff.1 hpos
      rw [occurrences_congr lone hsame, ← hlone other hother, ← h.filled other hother]
      exact houterOne _
    · omega
  · rintro ⟨hinner, hdistinct⟩
    have hall : Distinct (inner ++ lone.map fill) := by
      refine List.pairwise_append.2 ⟨hinner, List.pairwise_map.2 ?_, ?_⟩
      · simp only [hfill]
        exact hdistinct
      · intro row hrow other hother
        obtain ⟨lost, hlost, rfl⟩ := List.mem_map.1 hother
        exact hapart row hrow lost hlost
    rw [eraseDupsBy_eq_self hall] at houter
    subst houter
    refine ⟨fun row => ?_, fun row hrow => ?_, by simp⟩
    · rw [occurrences_append]
      exact Nat.le_add_right _ _
    · have hnone : occurrences inner (fill row) = 0 := by
        refine List.countP_eq_zero.2 fun other hother => ?_
        simp [Row.same_comm, hapart other hother row hrow]
      rw [occurrences_append, hnone, occurrences_map hfill, hlone row hrow, Nat.zero_add]

end Union

/-! ## Rows without a partner -/

/-- The rows that are matched with none of `partners`. -/
def unmatched (rows partners : List Row) (matched : Row → Row → Bool) : List Row :=
  rows.filter fun row => !partners.any (matched row)

/-- A condition does not tell equal rows apart. -/
theorem satisfies_congr {row row' : Row} (h : Row.same row row' = true) (schema : Schema)
    (condition : Expression) :
    satisfies schema condition row = satisfies schema condition row' := by
  have heval := condition.eval_congr (Row.same_iff.1 h) schema
  unfold satisfies
  cases hrow : condition.eval ⟨schema, row⟩ with
  | error e =>
      rw [hrow] at heval
      rw [map_eq_error_iff.1 heval.symm]
  | ok value =>
      rw [hrow] at heval
      obtain ⟨value', hvalue', hcanonical⟩ := map_eq_ok_iff.1 heval.symm
      rw [hvalue']
      exact (value.isTruthy_canonical.symm.trans (hcanonical ▸ value'.isTruthy_canonical))

section Matching

variable {rows partners : List Row} {matched : Row → Row → Bool}
  (hmatched : ∀ a a' b, Row.same a a' = true → matched a b = matched a' b)

include hmatched

/-- What has to be asked of a row is only whether it has a partner itself. -/
theorem isPaired_eq {row : Row} (hrow : row ∈ rows) :
    isPaired rows partners matched row = partners.any (matched row) := by
  rw [Bool.eq_iff_iff]
  simp only [isPaired, List.any_eq_true, Bool.and_eq_true]
  constructor
  · rintro ⟨other, -, hsame, partner, hpartner, hmatch⟩
    exact ⟨partner, hpartner, (hmatched row other partner hsame).trans hmatch⟩
  · rintro ⟨partner, hpartner, hmatch⟩
    exact ⟨row, hrow, Row.same_refl row, partner, hpartner, hmatch⟩

theorem filter_isPaired_eq :
    (rows.filter fun row => !isPaired rows partners matched row) =
      unmatched rows partners matched :=
  List.filter_congr fun row hrow => by rw [isPaired_eq hmatched hrow]

/-- A row without a partner is not matched wherever it occurs. -/
theorem occurrences_unmatched {row : Row} (hrow : row ∈ unmatched rows partners matched) :
    occurrences rows row = occurrences (unmatched rows partners matched) row := by
  unfold occurrences unmatched
  rw [List.countP_filter]
  refine List.countP_congr fun other _ => ?_
  have hlone := (List.mem_filter.1 hrow).2
  constructor
  · intro hsame
    have heq : matched other = matched row :=
      funext fun partner => (hmatched row other partner hsame).symm
    rw [Bool.and_eq_true, heq]
    exact ⟨hsame, hlone⟩
  · intro hand
    exact (Bool.and_eq_true_iff.1 hand).1

end Matching

/-! ## Both outer joins -/

section Joins

variable {t other inner outer : Table} {condition : Expression}

theorem matched_congr_left (schema : Schema) (condition : Expression) (a a' b : Row)
    (h : Row.same a a' = true) :
    satisfies schema condition (a ++ b) = satisfies schema condition (a' ++ b) :=
  satisfies_congr (by rw [Row.same_append_left, h]) _ _

theorem matched_congr_right (schema : Schema) (condition : Expression) (b b' a : Row)
    (h : Row.same b b' = true) :
    satisfies schema condition (a ++ b) = satisfies schema condition (a ++ b') :=
  satisfies_congr (by rw [Row.same_append_right, h]) _ _

theorem rows_leftJoin_eq (ht : t.WellFormed) (hother : other.WellFormed)
    (hinner : t.join other condition = .ok inner) (houter : t.leftJoin other condition = .ok outer) :
    outer.rows = (inner.rows ++ (unmatched t.rows other.rows fun a b =>
      satisfies inner.schema condition (a ++ b)).map (· ++ other.schema.emptyRow)).eraseDupsBy
        Row.same := by
  obtain ⟨inner', hinner', -, hrows⟩ := rows_of_leftJoin ht hother houter
  obtain rfl := Except.ok.inj (hinner'.symm.trans hinner)
  rw [hrows, filter_isPaired_eq (matched_congr_left _ _)]

theorem rows_rightJoin_eq (ht : t.WellFormed) (hother : other.WellFormed)
    (hinner : t.join other condition = .ok inner)
    (houter : t.rightJoin other condition = .ok outer) :
    outer.rows = (inner.rows ++ (unmatched other.rows t.rows fun b a =>
      satisfies inner.schema condition (a ++ b)).map (t.schema.emptyRow ++ ·)).eraseDupsBy
        Row.same := by
  obtain ⟨inner', hinner', -, hrows⟩ := rows_of_rightJoin ht hother houter
  obtain rfl := Except.ok.inj (hinner'.symm.trans hinner)
  rw [hrows, filter_isPaired_eq (matched_congr_right _ _)]

/-- A row of a join is a row of the one table and then one of the other, which match. -/
theorem exists_of_mem_join (hinner : t.join other condition = .ok inner) {row : Row}
    (hrow : row ∈ inner.rows) :
    ∃ a ∈ t.rows, ∃ b ∈ other.rows, row = a ++ b ∧
      satisfies inner.schema condition (a ++ b) = true := by
  obtain ⟨joined, hjoined⟩ := exists_matchingPairs_of_join hinner
  obtain ⟨inner', hinner', hschema, hrows⟩ := exists_join_eq_ok hjoined
  obtain rfl := Except.ok.inj (hinner'.symm.trans hinner)
  rw [hrows, rows_of_matchingPairs hjoined] at hrow
  obtain ⟨pair, hpair, rfl⟩ := List.mem_map.1 hrow
  obtain ⟨ha, hb⟩ := mem_of_mem_satisfyingPairs hpair
  exact ⟨pair.1, ha, pair.2, hb, rfl, hschema ▸ (List.mem_filter.1 hpair).2⟩

theorem not_matched_of_mem_unmatched {rows partners : List Row} {matched : Row → Row → Bool}
    {row partner : Row} (hrow : row ∈ unmatched rows partners matched)
    (hpartner : partner ∈ partners) : matched row partner = false := by
  have hnone := (List.mem_filter.1 hrow).2
  rw [Bool.not_eq_true', List.any_eq_false] at hnone
  simpa using hnone partner hpartner

/-- No row of a join equals a row of the left side that is filled up with nulls, even if it ends in
nulls itself: the two would have equal rows in front, of which only one has a partner. -/
theorem same_left_eq_false (ht : t.WellFormed) (hinner : t.join other condition = .ok inner)
    {row lone : Row} (hrow : row ∈ inner.rows)
    (hlone : lone ∈ unmatched t.rows other.rows fun a b =>
      satisfies inner.schema condition (a ++ b)) :
    Row.same row (lone ++ other.schema.emptyRow) = false := by
  obtain ⟨a, ha, b, hb, rfl, hmatch⟩ := exists_of_mem_join hinner hrow
  have hlength : a.length = lone.length := by
    rw [ht.length_row ha, ht.length_row (List.mem_of_mem_filter hlone)]
  rw [Bool.eq_false_iff]
  intro hsame
  have hsame := (Row.same_of_same_append hsame hlength).1
  have hnone := not_matched_of_mem_unmatched hlone hb
  rw [matched_congr_left _ _ a lone b hsame, hnone] at hmatch
  cases hmatch

theorem same_right_eq_false (ht : t.WellFormed) (hinner : t.join other condition = .ok inner)
    {row lone : Row} (hrow : row ∈ inner.rows)
    (hlone : lone ∈ unmatched other.rows t.rows fun b a =>
      satisfies inner.schema condition (a ++ b)) :
    Row.same row (t.schema.emptyRow ++ lone) = false := by
  obtain ⟨a, ha, b, hb, rfl, hmatch⟩ := exists_of_mem_join hinner hrow
  have hlength : a.length = t.schema.emptyRow.length := by
    rw [ht.length_row ha, Schema.emptyRow, List.length_replicate]
  rw [Bool.eq_false_iff]
  intro hsame
  have hsame := (Row.same_of_same_append hsame hlength).2
  have hnone := not_matched_of_mem_unmatched hlone ha
  rw [matched_congr_right _ _ b lone a hsame, hnone] at hmatch
  cases hmatch

/-- **Every row of the join, and every row of the left side without a partner, occurs exactly once**
in a left join. -/
theorem occurrences_leftJoin (ht : t.WellFormed) (hother : other.WellFormed)
    (hinner : t.join other condition = .ok inner)
    (houter : t.leftJoin other condition = .ok outer) :
    (∀ row ∈ inner.rows, occurrences outer.rows row = 1) ∧
      ∀ row ∈ unmatched t.rows other.rows fun a b => satisfies inner.schema condition (a ++ b),
        occurrences outer.rows (row ++ other.schema.emptyRow) = 1 := by
  have hrows := rows_leftJoin_eq ht hother hinner houter
  refine ⟨fun row hrow => ?_, fun row hrow => ?_⟩
  · exact occurrences_outer_of_mem hrows (List.mem_append_left _ hrow)
  · exact occurrences_outer_of_mem hrows (List.mem_append_right _ (List.mem_map_of_mem hrow))

/-- **Every row of the join, and every row of the right side without a partner, occurs exactly
once** in a right join. -/
theorem occurrences_rightJoin (ht : t.WellFormed) (hother : other.WellFormed)
    (hinner : t.join other condition = .ok inner)
    (houter : t.rightJoin other condition = .ok outer) :
    (∀ row ∈ inner.rows, occurrences outer.rows row = 1) ∧
      ∀ row ∈ unmatched other.rows t.rows fun b a => satisfies inner.schema condition (a ++ b),
        occurrences outer.rows (t.schema.emptyRow ++ row) = 1 := by
  have hrows := rows_rightJoin_eq ht hother hinner houter
  refine ⟨fun row hrow => ?_, fun row hrow => ?_⟩
  · exact occurrences_outer_of_mem hrows (List.mem_append_left _ hrow)
  · exact occurrences_outer_of_mem hrows (List.mem_append_right _ (List.mem_map_of_mem hrow))

/-- **Counted with multiplicity, an outer join loses no row exactly when there are no duplicates to
lose**: neither among the rows of the join nor among the rows of its side without a partner. -/
theorem outerJoins_loseNone_iff (ht : t.WellFormed) (hother : other.WellFormed)
    (hinner : t.join other condition = .ok inner) :
    (∀ outer, t.leftJoin other condition = .ok outer →
      let lone := unmatched t.rows other.rows fun a b => satisfies inner.schema condition (a ++ b)
      LosesNone outer.rows inner.rows t.rows lone (· ++ other.schema.emptyRow) ↔
        Distinct inner.rows ∧ Distinct lone) ∧
    (∀ outer, t.rightJoin other condition = .ok outer →
      let lone := unmatched other.rows t.rows fun b a => satisfies inner.schema condition (a ++ b)
      LosesNone outer.rows inner.rows other.rows lone (t.schema.emptyRow ++ ·) ↔
        Distinct inner.rows ∧ Distinct lone) := by
  refine ⟨fun outer houter => ?_, fun outer houter => ?_⟩
  · exact losesNone_iff (rows_leftJoin_eq ht hother hinner houter)
      (fun a b => Row.same_append_left a b _)
      (fun _ hrow => occurrences_unmatched (matched_congr_left _ _) hrow)
      (fun _ hrow _ hlone => same_left_eq_false ht hinner hrow hlone)
  · exact losesNone_iff (rows_rightJoin_eq ht hother hinner houter)
      (fun a b => Row.same_append_right a b _)
      (fun _ hrow => occurrences_unmatched (matched_congr_right _ _) hrow)
      (fun _ hrow _ hlone => same_right_eq_false ht hinner hrow hlone)

end Joins

/-- The parts and their offers hold no duplicates, so their left join loses no row. -/
theorem losesNone_parts_offers :
    ∃ inner outer, parts.join offers
        (.compare .equal (.column "parts.part") (.column "offers.for")) = .ok inner ∧
      parts.leftJoin offers
        (.compare .equal (.column "parts.part") (.column "offers.for")) = .ok outer ∧
      outer.rows.length = inner.rows.length + 1 := by
  have hparts : parts.WellFormed :=
    wellFormed_of_rows_fit (by simp [parts, Row.Fits, Cell.Fits, Schema.types, Cell.type?])
  have hoffers : offers.WellFormed :=
    wellFormed_of_rows_fit (by simp [offers, Row.Fits, Cell.Fits, Schema.types, Cell.type?])
  obtain ⟨inner, hinner⟩ : ∃ inner, parts.join offers
      (.compare .equal (.column "parts.part") (.column "offers.for")) = .ok inner := ⟨_, rfl⟩
  obtain ⟨joined, hjoined⟩ := exists_matchingPairs_of_join hinner
  obtain ⟨outer, houter⟩ :=
    exists_leftJoin_eq_ok hparts hoffers (by decide) (by decide) hjoined
  refine ⟨inner, outer, hinner, houter, ?_⟩
  have hiff := (outerJoins_loseNone_iff hparts hoffers hinner).1 outer houter
  cases hinner
  exact (hiff.2 (by decide +kernel)).length

/-- A table that holds one part twice. -/
def repeatedParts : Table := { parts with rows := [[.integer 1], [.integer 1]] }

/-- A table of offers that are still to come. -/
def noOffers : Table := { offers with rows := [] }

/-- A part that is held twice and has no offer stands only once in the left join, so one of its two
rows is lost. -/
theorem not_losesNone_repeatedParts : ∃ inner outer,
    repeatedParts.WellFormed ∧ noOffers.WellFormed ∧
      repeatedParts.join noOffers
        (.compare .equal (.column "parts.part") (.column "offers.for")) = .ok inner ∧
      repeatedParts.leftJoin noOffers
        (.compare .equal (.column "parts.part") (.column "offers.for")) = .ok outer ∧
      outer.rows = [[.integer 1, .null, .null]] ∧
      ¬ LosesNone outer.rows inner.rows repeatedParts.rows
        (unmatched repeatedParts.rows noOffers.rows fun a b => satisfies inner.schema
          (.compare .equal (.column "parts.part") (.column "offers.for")) (a ++ b))
        (· ++ noOffers.schema.emptyRow) := by
  have hparts : repeatedParts.WellFormed :=
    wellFormed_of_rows_fit
      (by simp [repeatedParts, parts, Row.Fits, Cell.Fits, Schema.types, Cell.type?])
  have hoffers : noOffers.WellFormed := wellFormed_of_rows_fit (by simp [noOffers])
  obtain ⟨inner, hinner⟩ : ∃ inner, repeatedParts.join noOffers
      (.compare .equal (.column "parts.part") (.column "offers.for")) = .ok inner := ⟨_, rfl⟩
  obtain ⟨joined, hjoined⟩ := exists_matchingPairs_of_join hinner
  obtain ⟨outer, houter⟩ :=
    exists_leftJoin_eq_ok hparts hoffers (by decide) (by decide) hjoined
  have hrows := rows_leftJoin_eq hparts hoffers hinner houter
  cases hinner
  have hone : outer.rows = [[.integer 1, .null, .null]] := hrows.trans (by decide +kernel)
  refine ⟨_, outer, hparts, hoffers, rfl, houter, hone, fun hnone => ?_⟩
  have hlength := hnone.length
  rw [hone] at hlength
  exact absurd hlength (by decide +kernel)

end Table

end FlatTables
