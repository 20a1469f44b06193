import FlatTables.Proofs.Algebra.OuterJoin
import FlatTables.Proofs.Expression.Names

set_option autoImplicit false

/-! # Selection before and after projection

A projection leaves cells out, and a name without a cell is read as a text. So a condition may say
something else of a row once columns are gone, but not if the columns that it mentions are kept
(`eval_pickCells`). Selection and projection may then change places, and give the same table or the
same error (`select_project_comm`). -/

namespace FlatTables.Table

variable {keep : String → Bool} {schema : Schema} {condition : Expression} {row row' : Row}
  {rows rows' : List Row}

/-! ## Cells that are left -/

/-- Among the picked cells a name leads to the cell that it led to, if it is kept, and otherwise
nowhere. -/
theorem lookup_zip_pickCells {columns : List Column} (h : pickCells keep columns row = .ok row')
    (name : String) :
    ((columnNames (columns.filter fun column => keep column.name)).zip row').lookup name =
      if keep name then ((columnNames columns).zip row).lookup name else none := by
  induction columns generalizing row row' with
  | nil => exact (ite_self none).symm
  | cons column columns ih =>
      by_cases hkeep : keep column.name = true
      · rw [List.filter_cons, if_pos hkeep]
        cases row with
        | nil =>
            rw [pickCells, if_pos hkeep] at h
            cases h
        | cons cell cells =>
            rw [pickCells, if_pos hkeep] at h
            obtain ⟨cells', hcells, rfl⟩ := map_eq_ok_iff.1 h
            simp only [columnNames, List.map_cons, List.zip_cons_cons, lookup_pair_cons]
            by_cases hname : name = column.name
            · rw [if_pos hname, if_pos hname, if_pos (hname ▸ hkeep)]
            · rw [if_neg hname, if_neg hname]
              exact ih hcells
      · rw [List.filter_cons, if_neg hkeep]
        cases row with
        | nil =>
            rw [pickCells, if_neg hkeep] at h
            rw [ih h, List.zip_nil_right, List.zip_nil_right]
        | cons cell cells =>
            rw [pickCells, if_neg hkeep] at h
            rw [ih h]
            simp only [columnNames, List.map_cons, List.zip_cons_cons, lookup_pair_cons]
            by_cases hname : name = column.name
            · rw [if_neg (hname ▸ hkeep), if_neg (hname ▸ hkeep)]
            · rw [if_neg hname]

/-- A condition that mentions no column that is left out says the same of the picked cells. -/
theorem eval_pickCells (h : pickCells keep schema.columns row = .ok row')
    (hkeep : ∀ name ∈ condition.names, name ∈ schema.names → keep name = true) :
    condition.eval ⟨schema.restrict keep, row'⟩ = condition.eval ⟨schema, row⟩ := by
  refine condition.eval_eq_of_agree fun name hname => ?_
  rw [Bindings.get?_eq_lookup, Bindings.get?_eq_lookup]
  refine (lookup_zip_pickCells h name).trans ?_
  by_cases hmem : name ∈ schema.names
  · rw [if_pos (hkeep name hname hmem)]
    rfl
  · have hnone : ((columnNames schema.columns).zip row).lookup name = none :=
      lookup_zip_of_not_mem hmem row
    rw [hnone, ite_self]
    exact hnone.symm

/-! ## Rows that are left -/

theorem selectRows_cons {value : Datum} (h : condition.eval ⟨schema, row⟩ = .ok value) :
    selectRows schema condition (row :: rows) =
      (selectRows schema condition rows).map fun rows =>
        if value.isTruthy then row :: rows else rows := by
  rw [selectRows, h]
  cases selectRows schema condition rows <;> rfl

/-- Picking cells out of the selected rows comes to selecting among the rows of picked cells. -/
theorem pickRows_selectRows (f : EvalError → TableError)
    (h : pickRows keep schema.columns rows = .ok rows')
    (hkeep : ∀ name ∈ condition.names, name ∈ schema.names → keep name = true) :
    ((selectRows schema condition rows).mapError f >>= pickRows keep schema.columns) =
      (selectRows (schema.restrict keep) condition rows').mapError f := by
  induction rows generalizing rows' with
  | nil =>
      cases h
      rfl
  | cons row rest ih =>
      obtain ⟨row', hrow, h⟩ := bind_eq_ok_iff.1 h
      obtain ⟨rest', hrest, h⟩ := bind_eq_ok_iff.1 h
      cases h
      have ih := ih hrest
      have heval := eval_pickCells hrow hkeep
      cases hvalue : condition.eval ⟨schema, row⟩ with
      | error e =>
          rw [hvalue] at heval
          rw [selectRows, selectRows, hvalue, heval]
          rfl
      | ok value =>
          rw [hvalue] at heval
          rw [selectRows_cons hvalue, selectRows_cons heval]
          cases hselected : selectRows schema condition rest with
          | error e =>
              rw [hselected] at ih
              cases hselected' : selectRows (schema.restrict keep) condition rest' with
              | error e' =>
                  rw [hselected'] at ih
                  exact ih
              | ok selected' =>
                  rw [hselected'] at ih
                  cases ih
          | ok selected =>
              rw [hselected, mapError_ok, ok_bind] at ih
              cases value.isTruthy with
              | false =>
                  refine ih.trans ?_
                  cases selectRows (schema.restrict keep) condition rest' <;> rfl
              | true =>
                  have hcons : pickRows keep schema.columns (row :: selected) =
                      (pickRows keep schema.columns selected).map (row' :: ·) := by
                    rw [pickRows, hrow]
                    cases pickRows keep schema.columns selected <;> rfl
                  refine hcons.trans ?_
                  rw [ih]
                  cases selectRows (schema.restrict keep) condition rest' <;> rfl

/-! ## Tables -/

variable {t : Table} {names : List String}

/-- A projection to columns that exist picks cells and does nothing else. -/
theorem project_of_known (hnames : ∀ name ∈ names, name ∈ t.schema.names) :
    t.project names =
      (pickRows (fun name => names.contains name) t.schema.columns t.rows).map
        (t.derive ("(" ++ t.name ++ "π)") (t.schema.restrict fun name => names.contains name)) := by
  have hfind : (names.find? fun name => !t.schema.names.contains name) = none := by
    rw [List.find?_eq_none]
    intro name hname
    simpa using hnames name hname
  unfold Table.project
  rw [hfind]
  exact bind_ok_eq_map _ _

theorem select_eq_map (t : Table) (condition : Expression) :
    t.select condition =
      ((selectRows t.schema condition t.rows).mapError (.evaluate condition.display)).map
        (t.derive ("(" ++ t.name ++ "σ)") t.schema) :=
  bind_ok_eq_map _ _

/-- **Selecting and projecting change places.** A projection that keeps every column that a condition
mentions may come before or after the selection: the rows, the columns, the database and the store
are the same, or the error is. Only the name of the table tells what came first. -/
theorem select_project_comm (ht : t.WellFormed) (hnames : ∀ name ∈ names, name ∈ t.schema.names)
    (hcondition : ∀ name ∈ condition.names, name ∈ t.schema.names → name ∈ names) (name : String) :
    (t.select condition >>= fun selected => selected.project names).map (·.renamed name) =
      (t.project names >>= fun projected => projected.select condition).map (·.renamed name) := by
  obtain ⟨rows', hrows', -⟩ :=
    pickRows_of_fits (fun name => names.contains name) ht.rows_fit
  have hcomm := pickRows_selectRows (.evaluate condition.display) hrows'
    fun name hname hmem => List.contains_iff_mem.2 (hcondition name hname hmem)
  have hselect (selected : List Row) :
      (t.derive ("(" ++ t.name ++ "σ)") t.schema selected).project names =
        (pickRows (fun name => names.contains name) t.schema.columns selected).map _ :=
    project_of_known hnames
  rw [project_of_known hnames, hrows', select_eq_map, map_bind_eq]
  simp only [hselect]
  change _ = (Table.select _ condition).map _
  rw [select_eq_map]
  change _ = (((selectRows (t.schema.restrict _) condition rows').mapError _).map _).map _
  rw [← hcomm]
  cases selectRows t.schema condition t.rows with
  | error e => rfl
  | ok selected =>
      change ((pickRows _ t.schema.columns selected).map _).map _ =
        ((pickRows _ t.schema.columns selected).map _).map _
      cases pickRows (fun name => names.contains name) t.schema.columns selected <;> rfl

/-- **An expression sees only the columns that it names.** Two rows of any width, which have the same
cell or none under every name that it mentions, give it the same value or the same error. So it does
not matter whether a table is projected before or after a selection on it, as long as the columns
that the table has under these names are kept. -/
theorem sees_only_mentioned_columns (condition : Expression) :
    (∀ b b' : Bindings, (∀ name ∈ condition.names, b.get? name = b'.get? name) →
      condition.eval b = condition.eval b') ∧
    ∀ (t : Table) (names : List String), t.WellFormed →
      (∀ name ∈ names, name ∈ t.schema.names) →
      (∀ name ∈ condition.names, name ∈ t.schema.names → name ∈ names) → ∀ name : String,
        (t.select condition >>= fun selected => selected.project names).map (·.renamed name) =
          (t.project names >>= fun projected => projected.select condition).map
            (·.renamed name) :=
  ⟨fun _ _ hagree => condition.eval_eq_of_agree hagree,
    fun _ _ ht hnames hcondition name => select_project_comm ht hnames hcondition name⟩

/-- The price of an offer is compared with a name that is no column, and so with a text. This says
the same of a row without the number of the part, and the high prices may be selected before or
after that number is left out. -/
theorem sees_only_mentioned_columns_offers :
    let isHigh : Expression := .compare .equal (.column "price") (.column "high")
    let price : Schema := ⟨[⟨"price", .text⟩], by decide⟩
    isHigh.eval ⟨offers.schema, [.integer 1, .text "high"]⟩ =
        isHigh.eval ⟨price, [.text "high"]⟩ ∧
      (offers.select isHigh >>= fun selected => selected.project ["price"]).map
          (·.renamed "high prices") = .ok ⟨⟨"temp", "high prices"⟩, price, [[.text "high"]], none⟩ ∧
      (offers.project ["price"] >>= fun projected => projected.select isHigh).map
          (·.renamed "high prices") =
        .ok ⟨⟨"temp", "high prices"⟩, price, [[.text "high"]], none⟩ := by
  intro isHigh price
  obtain ⟨heval, hcomm⟩ := sees_only_mentioned_columns isHigh
  have hselected : (offers.select isHigh >>= fun selected => selected.project ["price"]).map
      (·.renamed "high prices") =
        .ok ⟨⟨"temp", "high prices"⟩, price, [[.text "high"]], none⟩ := by decide +kernel
  exact ⟨heval _ _ (by decide), hselected, (hcomm offers ["price"] wellFormed_offers (by decide)
    (by decide) "high prices").symm.trans hselected⟩

end FlatTables.Table
