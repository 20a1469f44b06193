import FlatTables.Proofs.Algebra.Join
import FlatTables.Proofs.Algebra.SetAlgebra
import Mathlib.Data.List.Perm.Basic

set_option autoImplicit false

/-! # Joins with their sides swapped

Swapping the sides of a join swaps the two blocks of its columns, in the schema and in every row
(`joins_symmetric`). A condition finds the same cells under the same names in either order
(`eval_swap`), and the nested loops give the same pairs in another order (`joinRows_swap_perm`). For
the outer joins this carries over to the rows without a partner; there duplicates are left out, so
what is the same is the set of rows. -/

namespace FlatTables

/-! ## Blocks of columns -/

/-- A list with its first `width` elements behind the others. -/
def swapBlocks {α : Type} (width : Nat) (l : List α) : List α := l.drop width ++ l.take width

theorem swapBlocks_append {α : Type} {width : Nat} {a b : List α} (h : width = a.length) :
    swapBlocks width (a ++ b) = b ++ a := by
  rw [swapBlocks, h, List.drop_left, List.take_left]

theorem Row.canonical_swapBlocks (width : Nat) (row : Row) :
    canonical (swapBlocks width row) = swapBlocks width (canonical row) := by
  simp only [canonical, swapBlocks, List.map_append, List.map_drop, List.map_take]

theorem Row.same_swapBlocks (width : Nat) {a b : Row} (h : Row.same a b = true) :
    Row.same (swapBlocks width a) (swapBlocks width b) = true := by
  rw [same_iff, canonical_swapBlocks, canonical_swapBlocks, same_iff.1 h]

namespace Table

variable {a b inner inner' : Table} {condition : Expression}

/-! ## Inner joins -/

theorem flatMap_comm_perm {α β γ : Type} (f : α → β → List γ) (as : List α) (bs : List β) :
    (as.flatMap fun x => bs.flatMap (f x)).Perm (bs.flatMap fun y => as.flatMap fun x => f x y) := by
  induction as with
  | nil => simp
  | cons x rest ih =>
      have hsplit := List.flatMap_append_perm bs (f x) fun y => rest.flatMap fun x => f x y
      exact (ih.append_left _).trans hsplit

/-- Swapping the loops of a join gives its rows in another order, each with its blocks swapped. -/
theorem joinRows_swap_perm {as bs : List Row} {m m' : Row → Row → Bool} {width : Nat}
    (hwidth : ∀ x ∈ as, width = x.length) (hm : ∀ x ∈ as, ∀ y ∈ bs, m x y = m' y x) :
    ((joinRows as bs m).map (swapBlocks width)).Perm (joinRows bs as m') := by
  have hswapped : (joinRows as bs m).map (swapBlocks width) =
      as.flatMap fun x => bs.flatMap fun y => if m' y x = true then [y ++ x] else [] := by
    unfold joinRows
    rw [List.map_flatMap]
    refine List.flatMap_congr fun x hx => ?_
    rw [List.map_flatMap]
    refine List.flatMap_congr fun y hy => ?_
    rw [hm x hx y hy]
    split
    · rw [List.map_singleton, swapBlocks_append (hwidth x hx)]
    · rfl
  rw [hswapped]
  exact flatMap_comm_perm _ as bs

/-- A condition has one value for a row of each table, whichever stands first. -/
theorem eval_swap (ha : a.WellFormed) (hb : b.WellFormed) {schema schema' : Schema}
    (hschema : schema.names = a.qualifiedNames ++ b.qualifiedNames)
    (hschema' : schema'.names = b.qualifiedNames ++ a.qualifiedNames) {x y : Row}
    (hx : x ∈ a.rows) (hy : y ∈ b.rows) :
    condition.eval ⟨schema, x ++ y⟩ = condition.eval ⟨schema', y ++ x⟩ :=
  condition.eval_append_swap hschema hschema' (ha.length_qualifiedNames hx)
    (hb.length_qualifiedNames hy)

theorem exists_join_swap (ha : a.WellFormed) (hb : b.WellFormed)
    (h : ∃ inner, a.join b condition = .ok inner) : ∃ inner', b.join a condition = .ok inner' := by
  obtain ⟨pairs, hpairs, hdefined⟩ := exists_join_iff.1 h
  obtain ⟨pairs', hpairs'⟩ : ∃ pairs', b.product a = .ok pairs' :=
    exists_product_iff.2 (List.nodup_append_comm.1 (exists_product_iff.1 ⟨pairs, hpairs⟩))
  refine exists_join_iff.2 ⟨pairs', hpairs', (definedOn_product_iff hpairs').2 ?_⟩
  intro y hy x hx
  rw [← eval_swap ha hb (names_of_product hpairs) (names_of_product hpairs') hx hy]
  exact (definedOn_product_iff hpairs).1 hdefined x hx y hy

theorem columns_join_swap (hinner : a.join b condition = .ok inner)
    (hinner' : b.join a condition = .ok inner') :
    inner'.schema.columns = swapBlocks a.schema.width inner.schema.columns := by
  have hwidth : a.schema.width = a.qualifiedColumns.length := by
    rw [qualifiedColumns, List.length_map, Schema.width]
  rw [columns_of_join hinner, columns_of_join hinner', swapBlocks_append hwidth]

section Swapped

variable (ha : a.WellFormed) (hb : b.WellFormed) (hinner : a.join b condition = .ok inner)
  (hinner' : b.join a condition = .ok inner')

include ha hb hinner hinner'

theorem satisfies_swap {x y : Row} (hx : x ∈ a.rows) (hy : y ∈ b.rows) :
    satisfies inner.schema condition (x ++ y) = satisfies inner'.schema condition (y ++ x) := by
  unfold satisfies
  rw [eval_swap ha hb (names_of_join hinner) (names_of_join hinner') hx hy]

theorem rows_join_swap_perm :
    (inner.rows.map (swapBlocks a.schema.width)).Perm inner'.rows := by
  rw [rows_of_join hinner, rows_of_join hinner']
  exact joinRows_swap_perm (fun x hx => (ha.length_row hx).symm)
    fun x hx y hy => satisfies_swap ha hb hinner hinner' hx hy

/-! ## Outer joins -/

theorem unmatched_swap :
    (unmatched b.rows a.rows fun y x => satisfies inner.schema condition (x ++ y)) =
      unmatched b.rows a.rows fun y x => satisfies inner'.schema condition (y ++ x) := by
  refine List.filter_congr fun y hy => congrArg Bool.not ?_
  rw [Bool.eq_iff_iff, List.any_eq_true, List.any_eq_true]
  constructor
  · rintro ⟨x, hx, h⟩
    exact ⟨x, hx, (satisfies_swap ha hb hinner hinner' hx hy).symm.trans h⟩
  · rintro ⟨x, hx, h⟩
    exact ⟨x, hx, (satisfies_swap ha hb hinner hinner' hx hy).trans h⟩

/-- A right join and the left join with its sides swapped hold the same rows. -/
theorem any_leftJoin_swap {right left : Table} (hright : a.rightJoin b condition = .ok right)
    (hleft : b.leftJoin a condition = .ok left) (row : Row) :
    left.rows.any (Row.same row) =
      (right.rows.map (swapBlocks a.schema.width)).any (Row.same row) := by
  have hfill : ∀ y : Row, swapBlocks a.schema.width (a.schema.emptyRow ++ y) =
      y ++ a.schema.emptyRow := fun y => swapBlocks_append (by simp [Schema.emptyRow])
  have hlone := unmatched_swap ha hb hinner hinner'
  have hjoined := rows_join_swap_perm ha hb hinner hinner'
  rw [List.any_map, rows_rightJoin_eq ha hb hinner hright, any_eraseDupsBy, ← List.any_map,
    rows_leftJoin_eq hb ha hinner' hleft, any_same_eraseDupsBy, ← hlone, List.map_append,
    List.any_append, List.any_append, hjoined.any_eq, List.map_map]
  · simp only [Function.comp_def, hfill]
  · intro other other' h
    exact Row.same_congr_right (Row.same_swapBlocks _ h) row

end Swapped

theorem distinct_leftJoin (ha : a.WellFormed) (hb : b.WellFormed) {left : Table}
    (h : a.leftJoin b condition = .ok left) : Distinct left.rows := by
  obtain ⟨inner, -, -, hrows⟩ := rows_of_leftJoin ha hb h
  rw [hrows]
  exact distinct_eraseDupsBy _

theorem distinct_rightJoin (ha : a.WellFormed) (hb : b.WellFormed) {right : Table}
    (h : a.rightJoin b condition = .ok right) : Distinct right.rows := by
  obtain ⟨inner, -, -, hrows⟩ := rows_of_rightJoin ha hb h
  rw [hrows]
  exact distinct_eraseDupsBy _

/-- **Joins are symmetric up to swapping the blocks of columns.** The one join exists exactly when
the other does; its rows are those of the other with their blocks swapped, each as often. A right
join and the left join of the swapped tables hold no row twice, and the same rows up to the order of
the blocks. -/
theorem joins_symmetric (ha : a.WellFormed) (hb : b.WellFormed) (condition : Expression) :
    ((∃ inner, a.join b condition = .ok inner) ↔ ∃ inner', b.join a condition = .ok inner') ∧
    (∀ inner inner', a.join b condition = .ok inner → b.join a condition = .ok inner' →
      inner'.schema.columns = swapBlocks a.schema.width inner.schema.columns ∧
        (inner.rows.map (swapBlocks a.schema.width)).Perm inner'.rows) ∧
    ∀ right left, a.rightJoin b condition = .ok right → b.leftJoin a condition = .ok left →
      Distinct right.rows ∧ Distinct left.rows ∧
        ∀ row, left.rows.any (Row.same row) =
          (right.rows.map (swapBlocks a.schema.width)).any (Row.same row) := by
  refine ⟨⟨exists_join_swap ha hb, exists_join_swap hb ha⟩, fun inner inner' h h' => ?_,
    fun right left hright hleft => ?_⟩
  · exact ⟨columns_join_swap h h', rows_join_swap_perm ha hb h h'⟩
  · obtain ⟨inner, hinner, -⟩ := rows_of_rightJoin ha hb hright
    obtain ⟨inner', hinner', -⟩ := rows_of_leftJoin hb ha hleft
    exact ⟨distinct_rightJoin ha hb hright, distinct_leftJoin hb ha hleft,
      any_leftJoin_swap ha hb hinner hinner' hright hleft⟩

/-- Offers joined with parts, and parts joined with offers, are the same but for the order of the
blocks; the part without an offer stands in both outer joins. -/
theorem joins_symmetric_offers_parts :
    let isFor : Expression := .compare .equal (.column "parts.part") (.column "offers.for")
    ∃ inner inner' right left,
      offers.join parts isFor = .ok inner ∧ parts.join offers isFor = .ok inner' ∧
      (inner.rows.map (swapBlocks 2)).Perm inner'.rows ∧
      offers.rightJoin parts isFor = .ok right ∧ parts.leftJoin offers isFor = .ok left ∧
      right.rows.length = 3 ∧ Distinct right.rows ∧ Distinct left.rows ∧
      ∀ row, left.rows.any (Row.same row) =
        (right.rows.map (swapBlocks 2)).any (Row.same row) := by
  intro isFor
  obtain ⟨hexists, hinner, houter⟩ := joins_symmetric wellFormed_offers wellFormed_parts isFor
  obtain ⟨inner, h⟩ : ∃ inner, offers.join parts isFor = .ok inner := ⟨_, rfl⟩
  obtain ⟨inner', h'⟩ := hexists.1 ⟨inner, h⟩
  obtain ⟨joined, hjoined⟩ := exists_matchingPairs_of_join h
  obtain ⟨joined', hjoined'⟩ := exists_matchingPairs_of_join h'
  obtain ⟨right, hright⟩ :=
    exists_rightJoin_eq_ok wellFormed_offers wellFormed_parts (by decide) (by decide) hjoined
  obtain ⟨left, hleft⟩ :=
    exists_leftJoin_eq_ok wellFormed_parts wellFormed_offers (by decide) (by decide) hjoined'
  obtain ⟨hdistinct, hdistinct', hsame⟩ := houter right left hright hleft
  refine ⟨inner, inner', right, left, h, h', (hinner inner inner' h h').2, hright, hleft, ?_,
    hdistinct, hdistinct', hsame⟩
  rw [rows_rightJoin_eq wellFormed_offers wellFormed_parts h hright]
  cases h
  decide +kernel

end Table

end FlatTables
