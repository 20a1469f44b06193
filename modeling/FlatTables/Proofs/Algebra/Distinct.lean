import FlatTables.Algebra.SetOperation

set_option autoImplicit false

/-! # Sets of rows by nested loops

The set operators look rows up in a set of canonical rows. Here they are described by what a
comparison of every row with every other would give: a union keeps the rows that equal no earlier
one (`rows_union`), and an intersection or a difference keeps the rows that equal some row or no row
of the other table (`matching_eq_filter`). -/

namespace FlatTables

/-! ## Equality of rows -/

namespace Row

theorem same_iff {a b : Row} : Row.same a b = true ↔ Row.canonical a = Row.canonical b :=
  decide_eq_true_iff

theorem same_comm (a b : Row) : Row.same a b = Row.same b a := by
  rw [Bool.eq_iff_iff, same_iff, same_iff]
  exact eq_comm

theorem canonical_beq (a b : Row) : (Row.canonical a == Row.canonical b) = Row.same a b := by
  rw [Bool.eq_iff_iff, same_iff, beq_iff_eq]

end Row

namespace Table

/-! ## Union -/

/-- The rows that are kept equal neither an earlier row nor one that was seen before. -/
theorem firstOccurrences_eq (seen : Std.HashSet Row) (rows : List Row) :
    firstOccurrences seen rows =
      (rows.filter fun row => !seen.contains (Row.canonical row)).eraseDupsBy Row.same := by
  induction rows generalizing seen with
  | nil => rfl
  | cons row rest ih =>
      unfold firstOccurrences
      by_cases hseen : seen.contains (Row.canonical row) = true
      · rw [if_pos hseen, ih, List.filter_cons_of_neg (by simp [hseen])]
      · rw [if_neg hseen, ih, List.filter_cons_of_pos (by simpa using hseen),
          List.eraseDupsBy_cons, List.filter_filter]
        congr 3
        funext other
        rw [Std.HashSet.contains_insert, Row.canonical_beq, Row.same_comm, Bool.not_or]
        cases Row.same other row <;> rfl

/-- A union holds the rows of both tables without later duplicates. -/
theorem rows_union (t other : Table) :
    (t.union other).rows = (t.rows ++ other.rows).eraseDupsBy Row.same := by
  refine (firstOccurrences_eq ∅ _).trans ?_
  rw [List.filter_eq_self.2]
  simp

/-! ## Intersection and difference -/

theorem contains_rowSet (rows : List Row) (row : Row) :
    (rowSet rows).contains (Row.canonical row) = rows.any (Row.same row) := by
  unfold rowSet
  rw [Std.HashSet.contains_ofList, List.contains_map]
  simp only [Row.canonical_beq]

theorem matching_eq_filter (t other : Table) (present : Bool) :
    t.matching other present =
      t.rows.filter fun row => other.rows.any (Row.same row) == present := by
  simp only [matching, contains_rowSet]

theorem rows_intersect (t other : Table) :
    (t.intersect other).rows = t.rows.filter fun row => other.rows.any (Row.same row) := by
  refine (matching_eq_filter t other true).trans (List.filter_congr fun row _ => ?_)
  exact beq_true _

theorem rows_difference (t other : Table) :
    (t.difference other).rows = t.rows.filter fun row => !other.rows.any (Row.same row) := by
  refine (matching_eq_filter t other false).trans (List.filter_congr fun row _ => ?_)
  cases other.rows.any (Row.same row) <;> rfl

end Table

end FlatTables
