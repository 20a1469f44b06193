import FlatTables.Proofs.Algebra.WellFormed
import FlatTables.Proofs.Operation.Call
import FlatTables.Proofs.Operation.Create

set_option autoImplicit false

/-! # Reachable tables

A table is reachable when a caller can come to hold it: as a temporary table or a table of a store,
by changing a table in place, or by an operator. A union counts only when the types of its operands
agree position by position, which is what its operands are asked for and what it does not check.

Every reachable table is well formed, and no operation on reachable tables meets a row that is too
short (`wellFormed_and_neverShort_of_reachable`). Each operation keeps tables well formed by a lemma
of its own; the induction over how a table was reached puts them together. -/

namespace FlatTables

/-- What a combination asks of its operands without checking it. -/
def Combination.Admits (t other : Table) : Combination → Prop
  | union => t.schema.types = other.schema.types
  | _ => True

/-- The tables that a caller can come to hold, in whatever worlds its calls are made. -/
inductive Reachable : Table → Prop
  | temporary {id : String} {schema : Schema} {rows : List Row} {w w' : World} {t : Table}
      (h : (Operation.temporary id schema rows).run w = (.ok t, w')) : Reachable t
  | create {store : Store} {id : String} {schema? : Option Schema} {rows? : Option (List Row)}
      {w w' : World} {t : Table}
      (h : (Operation.create store id schema? rows?).run w = (.ok t, w')) : Reachable t
  | edit {t : Table} (ht : Reachable t) (edit : Edit) (w : World) : Reachable (edit.outcome t w)
  | query {t t' : Table} (ht : Reachable t) {query : Query} {w w' : World}
      (h : (query.action t).run w = (.ok t', w')) : Reachable t'
  | combine {t other t' : Table} (ht : Reachable t) (hother : Reachable other)
      {combination : Combination} (hadmits : combination.Admits t other) {w w' : World}
      (h : (combination.action t other).run w = (.ok t', w')) : Reachable t'

/-! ## Actions and short rows -/

theorem neverShort_run_bind {α β : Type} {x : Action TableError α} {f : α → Action TableError β}
    (hx : ∀ w, NeverShort (x.run w).1) (hf : ∀ a w, NeverShort ((f a).run w).1) (w : World) :
    NeverShort ((x >>= f).run w).1 := by
  rw [Action.run_bind]
  have h := hx w
  rcases hrun : x.run w with ⟨e | a, w'⟩
  · rw [hrun] at h
    intro column herror
    exact h column (congrArg Except.error (Except.error.inj herror))
  · exact hf a w'

/-- An action on files or the catalog has errors of its own kind. -/
theorem neverShort_run_stored {α : Type} (x : Action StorageError α) (w : World) :
    NeverShort ((Operation.stored x).run w).1 := by
  unfold Operation.stored
  rw [Action.fst_run_raise]
  exact .mapError fun _ _ h => nomatch h

theorem neverShort_run_cleanFile (t : Table) (w : World) :
    NeverShort ((Operation.cleanFile t).run w).1 := by
  rw [Operation.cleanFile]
  split
  · exact .ok ()
  · exact neverShort_run_stored _ w

/-! ## Making tables -/

theorem wellFormed_of_create {store : Store} {id : String} {schema? : Option Schema}
    {rows? : Option (List Row)} {w w' : World} {t : Table}
    (h : (Operation.create store id schema? rows?).run w = (.ok t, w')) : t.WellFormed := by
  obtain ⟨schema, rows, hrows, rfl⟩ := Operation.run_create_eq_ok h
  exact Table.wellFormed_of_rows_fit (Table.fits_of_coerceRows hrows)

/-! ## Changing tables -/

namespace Edit

variable {t : Table}

theorem wellFormed_of_result (ht : t.WellFormed) (edit : Edit) {t' : Table}
    (h : edit.result t = .ok t') : t'.WellFormed := by
  cases edit with
  | append row => exact ht.append h
  | update index row => exact ht.update h
  | delete index => exact ht.delete h
  | addColumn name type => exact ht.addColumn h
  | dropColumn name => exact ht.dropColumn h
  | modifyColumn name type => exact ht.modifyColumn h
  | alter alteration column type? =>
      cases alteration with
      | drop => exact ht.dropColumn h
      | add =>
          cases type? with
          -- without a type the change fails
          | none => cases h
          | some type => exact ht.addColumn h
      | modify =>
          cases type? with
          | none => cases h
          | some type => exact ht.modifyColumn h
  | clean =>
      cases h
      exact t.wellFormed_cleared

/-- The result of a change that succeeds. -/
theorem wellFormed_of_action (ht : t.WellFormed) (edit : Edit) {w w' : World} {t' : Table}
    (h : (edit.action t).run w = (.ok t', w')) : t'.WellFormed := by
  by_cases hclean : edit = .clean
  · subst hclean
    obtain ⟨-, w₁, -, h⟩ := Action.run_bind_eq_ok_iff.1 h
    cases h
    exact t.wellFormed_cleared
  · refine edit.wellFormed_of_result ht ?_
    rw [← (Operation.computes_edit t hclean).fst_run w, h]

theorem wellFormed_fallback (ht : t.WellFormed) (edit : Edit) : (edit.fallback t).WellFormed := by
  cases edit with
  | clean => exact t.wellFormed_cleared
  | _ => exact ht

/-- A change keeps a table well formed, whether it succeeds or fails. -/
theorem wellFormed_outcome (ht : t.WellFormed) (edit : Edit) (w : World) :
    (edit.outcome t w).WellFormed := by
  rw [outcome]
  split
  · next t' hrun => exact edit.wellFormed_of_action ht (Prod.ext hrun rfl)
  · exact edit.wellFormed_fallback ht

theorem neverShort_result (ht : t.WellFormed) (edit : Edit) : NeverShort (edit.result t) := by
  cases edit with
  | append row => exact t.neverShort_append row
  | update index row => exact t.neverShort_update index row
  | delete index => exact t.neverShort_delete index
  | addColumn name type => exact t.neverShort_addColumn name type
  | dropColumn name => exact ht.neverShort_dropColumn name
  | modifyColumn name type => exact ht.neverShort_modifyColumn name type
  | alter alteration column type? =>
      cases alteration with
      | drop => exact ht.neverShort_dropColumn column
      | add =>
          cases type? with
          | none => exact fun _ h => nomatch h
          | some type => exact t.neverShort_addColumn column type
      | modify =>
          cases type? with
          | none => exact fun _ h => nomatch h
          | some type => exact ht.neverShort_modifyColumn column type
  | clean => exact .ok _

theorem neverShort_action (ht : t.WellFormed) (edit : Edit) (w : World) :
    NeverShort ((edit.action t).run w).1 := by
  by_cases hclean : edit = .clean
  · subst hclean
    refine neverShort_run_bind (fun w => ?_) (fun _ _ _ h => by cases h) w
    exact neverShort_run_bind (neverShort_run_cleanFile t) (fun _ _ _ h => by cases h) w
  · rw [(Operation.computes_edit t hclean).fst_run]
    exact neverShort_result ht edit

end Edit

/-! ## New tables -/

namespace Query

variable {t : Table}

theorem wellFormed_of_action (ht : t.WellFormed) {query : Query} {w w' : World} {t' : Table}
    (h : (query.action t).run w = (.ok t', w')) : t'.WellFormed := by
  have hresult : query.result t = .ok t' := by
    rw [← (Operation.computes_query t query).fst_run w, h]
  cases query with
  | select condition => exact ht.select hresult
  | project names => exact ht.project hresult
  | extend expression name? => exact ht.extend hresult
  | rename newName => exact ht.rename hresult

theorem neverShort_action (ht : t.WellFormed) (query : Query) (w : World) :
    NeverShort ((query.action t).run w).1 := by
  rw [(Operation.computes_query t query).fst_run]
  cases query with
  | select condition => exact t.neverShort_select condition
  | project names => exact ht.neverShort_project names
  | extend expression name? => exact t.neverShort_extend expression name?
  | rename newName => exact t.neverShort_rename newName

end Query

namespace Combination

variable {t other : Table}

theorem wellFormed_of_action (ht : t.WellFormed) (hother : other.WellFormed)
    {combination : Combination} (hadmits : combination.Admits t other) {w w' : World} {t' : Table}
    (h : (combination.action t other).run w = (.ok t', w')) : t'.WellFormed := by
  have hresult : combination.result t other = .ok t' := by
    rw [← (Operation.computes_combination t other combination).fst_run w, h]
  cases combination with
  | union =>
      cases hresult
      exact ht.union hother hadmits
  | intersect =>
      cases hresult
      exact ht.intersect other
  | difference =>
      cases hresult
      exact ht.difference other
  | product => exact ht.product hother hresult
  | join condition => exact ht.join hother hresult
  | leftJoin condition => exact ht.leftJoin hother hresult
  | rightJoin condition => exact ht.rightJoin hother hresult

theorem neverShort_action (ht : t.WellFormed) (hother : other.WellFormed)
    (combination : Combination) (w : World) :
    NeverShort ((combination.action t other).run w).1 := by
  rw [(Operation.computes_combination t other combination).fst_run]
  cases combination with
  | union => exact .ok _
  | intersect => exact .ok _
  | difference => exact .ok _
  | product => exact t.neverShort_product other
  | join condition => exact t.neverShort_join other condition
  | leftJoin condition => exact ht.neverShort_leftJoin hother condition
  | rightJoin condition => exact ht.neverShort_rightJoin hother condition

end Combination

/-! ## Reachable tables -/

/-- Reachable tables are well formed: by induction over the calls that lead to them. -/
theorem Reachable.wellFormed {t : Table} (h : Reachable t) : t.WellFormed := by
  induction h with
  | @temporary id schema rows w w' t h =>
      have htemporary := (Operation.computes_temporary id schema rows).fst_run w
      rw [h] at htemporary
      exact Table.wellFormed_of_temporary htemporary.symm
  | create h => exact wellFormed_of_create h
  | edit _ edit w ih => exact edit.wellFormed_outcome ih w
  | query _ h ih => exact Query.wellFormed_of_action ih h
  | combine _ _ hadmits h iht ihother => exact Combination.wellFormed_of_action iht ihother hadmits h

/-- **Every reachable table is well formed**, so a position that a name leads to lies inside the
schema and inside every row, and no operation ends at a row that is too short. -/
theorem wellFormed_and_neverShort_of_reachable {t : Table} (h : Reachable t) :
    t.WellFormed ∧
      (∀ (name : String) (index : Nat), t.schema.indexOf? name = some index →
        (∀ type, (t.schema.setType? index type).isSome) ∧ ∀ row ∈ t.rows, index < row.length) ∧
      (∀ (edit : Edit) (w : World), NeverShort ((edit.action t).run w).1) ∧
      (∀ (query : Query) (w : World), NeverShort ((query.action t).run w).1) ∧
      ∀ (combination : Combination) (other : Table) (w : World), Reachable other →
        NeverShort ((combination.action t other).run w).1 := by
  have ht := h.wellFormed
  refine ⟨ht, ?_, fun edit w => edit.neverShort_action ht w,
    fun query w => query.neverShort_action ht w,
    fun combination other w hother => combination.neverShort_action ht hother.wellFormed w⟩
  intro name index hindex
  refine ⟨fun type => ?_, fun row hrow => ht.indexOf?_lt_length hindex hrow⟩
  unfold Schema.setType?
  rw [if_pos (Schema.indexOf?_lt_width hindex)]
  rfl

/-- A table of parts and their prices, which are still texts. -/
def pricedParts : Table where
  id := ⟨"temp", "parts"⟩
  schema := ⟨[⟨"part", .integer⟩, ⟨"price", .text⟩], by decide⟩
  rows := [[.integer 1, .text "10"], [.integer 2, .null]]
  store := none

/-- The parts stay well formed when the prices become integers and a row that is too short is
refused. -/
theorem pricedParts_wellFormed :
    ∃ t, Reachable t ∧ t.rows = [[.integer 1, .integer 10], [.integer 2, .null]] ∧
      t.WellFormed ∧ ∀ (edit : Edit) (w : World), NeverShort ((edit.action t).run w).1 := by
  let w := World.ofFiles ⟨[], [], []⟩
  have hmade : Reachable pricedParts :=
    .temporary (rfl : (Operation.temporary "parts" pricedParts.schema
      [[.integer 1, .text "10"], [.text "2", .null]]).run w = (.ok pricedParts, w))
  have hmodified := hmade.edit (.modifyColumn "price" .integer) w
  -- a refused change leaves a table that counts as reached too
  have hrefused := hmodified.edit (.append [.integer 1]) w
  obtain ⟨hwell, -, hshort, -⟩ := wellFormed_and_neverShort_of_reachable hrefused
  exact ⟨_, hrefused, rfl, hwell, hshort⟩

end FlatTables
