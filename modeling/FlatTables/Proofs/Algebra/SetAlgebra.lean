import FlatTables.Proofs.Algebra.Multiplicity

set_option autoImplicit false

/-! # The algebra of the set operators

The set operators obey the laws of sets, and keep the order of the rows while they do so
(`setOperators_eq`). Equality of rows is equality cell by cell (`Row.same_iff_forall₂`), and a union
is what nested loops over all rows before a row would give (`rows_union_eq_firstRows`).

Leaving out later duplicates carries the laws of the union: it commutes with every filter that does
not tell equal rows apart (`filter_eraseDupsBy`), so the second of two lists in a row only adds what
the first does not hold (`eraseDupsBy_append`). -/

namespace FlatTables

/-! ## Equality cell by cell -/

theorem Binary64.canonical_eq_iff {x y : Binary64} :
    x.canonical = y.canonical ↔ x = y ∨ (x.isZero = true ∧ y.isZero = true) := by
  unfold canonical
  constructor
  · intro h
    split at h
    · next hx =>
        split at h
        · next hy => exact .inr ⟨hx, hy⟩
        · next hy => exact absurd (h ▸ rfl) hy
    · next hx =>
        split at h
        · exact absurd (h ▸ rfl) hx
        · exact .inl h
  · rintro (rfl | ⟨hx, hy⟩)
    · rfl
    · rw [if_pos hx, if_pos hy]

/-- Whether two cells are equal: both are null, or they have one type and one value. Doubles are
compared by their bits, except that the two zeros are equal. -/
inductive Cell.Equal : Cell → Cell → Prop
  | null : Equal .null .null
  | integer (value : Int64) : Equal (.integer value) (.integer value)
  | float {x y : Binary64} (h : x = y ∨ (x.isZero = true ∧ y.isZero = true)) :
    Equal (.float x) (.float y)
  | text (value : String) : Equal (.text value) (.text value)

theorem Cell.canonical_eq_iff {a b : Cell} : a.canonical = b.canonical ↔ Equal a b := by
  constructor
  · intro h
    cases a <;> cases b <;> simp [Cell.canonical] at h
    · exact .null
    · subst h; exact .integer _
    · exact .float (Binary64.canonical_eq_iff.1 h)
    · subst h; exact .text _
  · rintro (_ | _ | h | _)
    · rfl
    · rfl
    · exact congrArg Cell.float (Binary64.canonical_eq_iff.2 h)
    · rfl

theorem Row.same_iff_forall₂ {a b : Row} : Row.same a b = true ↔ List.Forall₂ Cell.Equal a b := by
  rw [same_iff, Row.canonical, Row.canonical, ← List.forall₂_eq_eq_eq, List.forall₂_map_left_iff,
    List.forall₂_map_right_iff]
  simp only [Cell.canonical_eq_iff]

theorem Row.same_equivalence : Equivalence fun row row' => Row.same row row' = true where
  refl := same_refl
  symm h := (same_comm _ _).trans h
  trans h h' := (congrFun (same_congr_left h) _).trans h'

namespace Table

/-! ## Union by nested loops -/

theorem firstOccurrences_cons (seen : Std.HashSet Row) (row : Row) (rest : List Row) :
    firstOccurrences seen (row :: rest) =
      if seen.contains (Row.canonical row) = true then firstOccurrences seen rest
      else row :: firstOccurrences (seen.insert (Row.canonical row)) rest := rfl

theorem contains_insert_of_contains {seen : Std.HashSet Row} {key : Row}
    (h : seen.contains key = true) (other : Row) :
    (seen.insert key).contains other = seen.contains other := by
  rw [Std.HashSet.contains_insert]
  by_cases hother : key = other
  · rw [← hother, h, Bool.or_true]
  · rw [beq_eq_false_iff_ne.2 hother, Bool.false_or]

/-- Whether a row is kept depends on its equals only. -/
theorem firstOccurrences_congr {seen seen' : Std.HashSet Row} {rows : List Row}
    (h : ∀ row ∈ rows, seen.contains (Row.canonical row) = seen'.contains (Row.canonical row)) :
    firstOccurrences seen rows = firstOccurrences seen' rows := by
  rw [firstOccurrences_eq, firstOccurrences_eq]
  exact congrArg _ (List.filter_congr fun row hrow => by rw [h row hrow])

/-- The rows that no earlier row equals. -/
def firstRows (rows : List Row) : List Row :=
  (rows.zipIdx.filter fun entry => !(rows.take entry.2).any (Row.same entry.1)).map Prod.fst

/-- By induction on the rows still to come; what was seen are the rows before them. -/
theorem map_fst_filter_zipIdx (seen : Std.HashSet Row) (earlier rows : List Row)
    (hseen : ∀ row, seen.contains (Row.canonical row) = earlier.any (Row.same row)) :
    ((rows.zipIdx earlier.length).filter fun entry =>
        !((earlier ++ rows).take entry.2).any (Row.same entry.1)).map Prod.fst =
      firstOccurrences seen rows := by
  induction rows generalizing seen earlier with
  | nil => rfl
  | cons row rest ih =>
      have hinsert : ∀ other, (seen.insert (Row.canonical row)).contains (Row.canonical other) =
          (earlier ++ [row]).any (Row.same other) := by
        intro other
        rw [Std.HashSet.contains_insert, Row.canonical_beq, hseen, List.any_append, List.any_cons,
          List.any_nil, Bool.or_false, Bool.or_comm, Row.same_comm row other]
      have hrest := ih (seen.insert (Row.canonical row)) (earlier ++ [row]) hinsert
      rw [List.append_assoc, List.singleton_append, List.length_append,
        List.length_singleton] at hrest
      have hearlier : (earlier ++ row :: rest).take earlier.length = earlier := List.take_left
      rw [List.zipIdx_cons, List.filter_cons, hearlier, ← hseen, firstOccurrences_cons]
      by_cases hrow : seen.contains (Row.canonical row) = true
      · rw [if_neg (by simpa using hrow), if_pos hrow, hrest]
        exact firstOccurrences_congr fun other _ => contains_insert_of_contains hrow _
      · rw [if_pos (by simpa using hrow), if_neg hrow, List.map_cons, hrest]

theorem firstRows_eq (rows : List Row) : firstRows rows = rows.eraseDupsBy Row.same := by
  rw [eraseDupsBy_same_eq]
  exact map_fst_filter_zipIdx ∅ [] rows fun row => by simp

example : firstRows [[.integer 1], [.null], [.integer 1]] = [[.integer 1], [.null]] := by decide

/-! ## Later duplicates left out -/

/-- A filter that does not tell equal rows apart may come before or after. -/
theorem filter_firstOccurrences {p : Row → Bool}
    (hp : ∀ a b, Row.same a b = true → p a = p b) (seen : Std.HashSet Row) (rows : List Row) :
    (firstOccurrences seen rows).filter p = firstOccurrences seen (rows.filter p) := by
  induction rows generalizing seen with
  | nil => rfl
  | cons row rest ih =>
      by_cases hkeep : p row = true
      · rw [List.filter_cons_of_pos hkeep, firstOccurrences_cons, firstOccurrences_cons]
        split
        · exact ih seen
        · rw [List.filter_cons_of_pos hkeep, ih]
      · rw [List.filter_cons_of_neg hkeep, firstOccurrences_cons]
        split
        · exact ih seen
        · rw [List.filter_cons_of_neg hkeep, ih]
          -- the row that is filtered out equals none of the rows that stay
          refine firstOccurrences_congr fun other hother => ?_
          have hne : Row.canonical row ≠ Row.canonical other := fun heq =>
            hkeep ((hp _ _ (Row.same_iff.2 heq)).trans (List.mem_filter.1 hother).2)
          rw [Std.HashSet.contains_insert, beq_eq_false_iff_ne.2 hne, Bool.false_or]

theorem filter_eraseDupsBy {p : Row → Bool} (hp : ∀ a b, Row.same a b = true → p a = p b)
    (rows : List Row) :
    (rows.eraseDupsBy Row.same).filter p = (rows.filter p).eraseDupsBy Row.same := by
  rw [eraseDupsBy_same_eq, eraseDupsBy_same_eq, filter_firstOccurrences hp]

/-- Leaving out later duplicates takes no kind of row away. -/
theorem any_eraseDupsBy {p : Row → Bool} (hp : ∀ a b, Row.same a b = true → p a = p b)
    (rows : List Row) : (rows.eraseDupsBy Row.same).any p = rows.any p := by
  rw [Bool.eq_iff_iff, List.any_eq_true, List.any_eq_true]
  constructor
  · rintro ⟨row, hrow, h⟩
    rw [eraseDupsBy_same_eq] at hrow
    exact ⟨row, (firstOccurrences_sublist ∅ rows).subset hrow, h⟩
  · rintro ⟨row, hrow, h⟩
    have hpos : 0 < occurrences rows row :=
      occurrences_pos_iff.2 ⟨row, hrow, Row.same_refl row⟩
    have honce := occurrences_eraseDupsBy rows row
    obtain ⟨kept, hkept, hsame⟩ := occurrences_pos_iff.1
      (show 0 < occurrences (rows.eraseDupsBy Row.same) row by omega)
    exact ⟨kept, hkept, (hp row kept hsame).symm.trans h⟩

theorem any_same_eraseDupsBy (rows : List Row) (row : Row) :
    (rows.eraseDupsBy Row.same).any (Row.same row) = rows.any (Row.same row) :=
  any_eraseDupsBy (fun _ _ h => Row.same_congr_right h row) rows

theorem distinct_eraseDupsBy (rows : List Row) : Distinct (rows.eraseDupsBy Row.same) := by
  refine distinct_iff.2 fun row => ?_
  rw [occurrences_eraseDupsBy]
  exact Nat.min_le_left _ _

/-- After the rows of one list, those of the next are kept if neither these nor what was seen before
hold them. -/
theorem firstOccurrences_append {seen seen' : Std.HashSet Row} (rows rows' : List Row)
    (hseen' : ∀ row, seen'.contains (Row.canonical row) =
      (seen.contains (Row.canonical row) || rows.any (Row.same row))) :
    firstOccurrences seen (rows ++ rows') =
      firstOccurrences seen rows ++ firstOccurrences seen' rows' := by
  induction rows generalizing seen with
  | nil => exact firstOccurrences_congr fun row _ => ((hseen' row).trans (Bool.or_false _)).symm
  | cons row rest ih =>
      have hinsert : ∀ other, seen'.contains (Row.canonical other) =
          ((seen.insert (Row.canonical row)).contains (Row.canonical other) ||
            rest.any (Row.same other)) := by
        intro other
        rw [hseen', List.any_cons, Std.HashSet.contains_insert, Row.canonical_beq,
          Row.same_comm other row, ← Bool.or_assoc, Bool.or_comm (seen.contains _)]
      rw [List.cons_append, firstOccurrences_cons, firstOccurrences_cons]
      split
      · next hrow =>
          refine ih fun other => ?_
          rw [hinsert, contains_insert_of_contains hrow]
      · rw [ih hinsert, List.cons_append]

/-- The second of two lists adds the rows that the first does not hold. -/
theorem eraseDupsBy_append (rows rows' : List Row) :
    (rows ++ rows').eraseDupsBy Row.same =
      rows.eraseDupsBy Row.same ++
        (rows'.eraseDupsBy Row.same).filter fun row => !rows.any (Row.same row) := by
  have hseen : ∀ row, (rowSet rows).contains (Row.canonical row) =
      ((∅ : Std.HashSet Row).contains (Row.canonical row) || rows.any (Row.same row)) := by
    intro row
    rw [contains_rowSet, Std.HashSet.contains_empty, Bool.false_or]
  rw [eraseDupsBy_same_eq, firstOccurrences_append rows rows' hseen, ← eraseDupsBy_same_eq,
    firstOccurrences_eq, filter_eraseDupsBy]
  · simp only [contains_rowSet]
  · intro row row' h
    rw [Row.same_congr_left h]

theorem eraseDupsBy_append_left (rows rows' : List Row) :
    (rows.eraseDupsBy Row.same ++ rows').eraseDupsBy Row.same =
      (rows ++ rows').eraseDupsBy Row.same := by
  rw [eraseDupsBy_append, eraseDupsBy_append, eraseDupsBy_eq_self (distinct_eraseDupsBy rows)]
  simp only [any_same_eraseDupsBy]

theorem eraseDupsBy_append_right (rows rows' : List Row) :
    (rows ++ rows'.eraseDupsBy Row.same).eraseDupsBy Row.same =
      (rows ++ rows').eraseDupsBy Row.same := by
  rw [eraseDupsBy_append, eraseDupsBy_append, eraseDupsBy_eq_self (distinct_eraseDupsBy rows')]

/-! ## The laws -/

theorem rows_union_eq_firstRows (t other : Table) :
    (t.union other).rows = firstRows (t.rows ++ other.rows) := by
  rw [rows_union, firstRows_eq]

section Laws

variable (a b c : Table)

theorem any_rows_union (row : Row) :
    (a.union b).rows.any (Row.same row) =
      (a.rows.any (Row.same row) || b.rows.any (Row.same row)) := by
  rw [rows_union, any_same_eraseDupsBy, List.any_append]

theorem union_assoc : ((a.union b).union c).rows = (a.union (b.union c)).rows := by
  rw [rows_union (a.union b), rows_union a (b.union c), rows_union, rows_union,
    eraseDupsBy_append_left, eraseDupsBy_append_right, List.append_assoc]

theorem difference_union :
    (a.difference (b.union c)).rows = ((a.difference b).difference c).rows := by
  rw [rows_difference, rows_difference (a.difference b), rows_difference, List.filter_filter]
  refine List.filter_congr fun row _ => ?_
  rw [any_rows_union, Bool.not_or, Bool.and_comm]

theorem difference_intersect : (a.difference (a.intersect b)).rows = (a.difference b).rows := by
  rw [rows_difference, rows_difference, rows_intersect]
  refine List.filter_congr fun row hrow => congrArg Bool.not ?_
  rw [Bool.eq_iff_iff]
  simp only [List.any_filter, List.any_eq_true, Bool.and_eq_true]
  constructor
  · rintro ⟨row', -, hother, hsame⟩
    obtain ⟨other, hmem, hsame'⟩ := hother
    exact ⟨other, hmem, (congrFun (Row.same_congr_left hsame) other).trans hsame'⟩
  · intro hother
    exact ⟨row, hrow, hother, Row.same_refl row⟩

theorem union_difference :
    ((a.union b).difference b).rows = firstRows (a.difference b).rows := by
  have hown : b.rows.filter (fun row => !b.rows.any (Row.same row)) = [] := by
    refine List.filter_eq_nil_iff.2 fun row hrow hnone => ?_
    have hany := List.any_eq_true.2 ⟨row, hrow, Row.same_refl row⟩
    rw [hany] at hnone
    cases hnone
  rw [firstRows_eq, rows_difference, rows_difference, rows_union, filter_eraseDupsBy,
    List.filter_append, hown, List.append_nil]
  intro row row' h
  rw [Row.same_congr_left h]

theorem intersect_append_difference_perm :
    ((a.intersect b).rows ++ (a.difference b).rows).Perm a.rows := by
  rw [rows_intersect, rows_difference]
  exact List.filter_append_perm _ _

/-- No row that occurs in the other table equals one that does not. -/
theorem same_eq_false_of_mem {row row' : Row} (hrow : row ∈ (a.intersect b).rows)
    (hrow' : row' ∈ (a.difference b).rows) : Row.same row row' = false := by
  rw [rows_intersect] at hrow
  rw [rows_difference] at hrow'
  rw [Bool.eq_false_iff]
  intro hsame
  have hpresent := (List.mem_filter.1 hrow).2
  have habsent := (List.mem_filter.1 hrow').2
  rw [Row.same_congr_left hsame] at hpresent
  rw [hpresent] at habsent
  cases habsent

/-- **The set operators are what nested loops give, and obey the laws of sets** with the order and
the multiplicity of the rows. A union keeps the rows that no earlier row equals. Intersection and
difference split the rows of `a` into those that equal some row of `b` and the rest. -/
theorem setOperators_eq :
    (Equivalence fun row row' => Row.same row row' = true) ∧
    (∀ row row', Row.same row row' = true ↔ List.Forall₂ Cell.Equal row row') ∧
    (a.union b).rows = firstRows (a.rows ++ b.rows) ∧
    Distinct (a.union b).rows ∧
    (a.intersect b).rows = a.rows.filter (fun row => b.rows.any (Row.same row)) ∧
    (a.difference b).rows = a.rows.filter (fun row => !b.rows.any (Row.same row)) ∧
    ((a.intersect b).rows ++ (a.difference b).rows).Perm a.rows ∧
    (∀ row ∈ (a.intersect b).rows, ∀ row' ∈ (a.difference b).rows,
      Row.same row row' = false) ∧
    (a.difference (a.intersect b)).rows = (a.difference b).rows ∧
    ((a.union b).difference b).rows = firstRows (a.difference b).rows ∧
    ((a.union b).union c).rows = (a.union (b.union c)).rows ∧
    (a.difference (b.union c)).rows = ((a.difference b).difference c).rows := by
  have hdistinct : Distinct (a.union b).rows := by
    rw [rows_union]
    exact distinct_eraseDupsBy _
  exact ⟨Row.same_equivalence, fun _ _ => Row.same_iff_forall₂, rows_union_eq_firstRows a b,
    hdistinct, rows_intersect a b, rows_difference a b, intersect_append_difference_perm a b,
    fun _ hrow _ hrow' => same_eq_false_of_mem a b hrow hrow', difference_intersect a b,
    union_difference a b, union_assoc a b c, difference_union a b c⟩

end Laws

end Table

end FlatTables
