import FlatTables.Editing
import FlatTables.Proofs.Operation.Looking
import FlatTables.Proofs.Table.WellFormed

set_option autoImplicit false

/-! # Changes in place

A change in place works on the schema and on one row after the other, so it could leave a table with
some rows changed and others not. On a well-formed table it never does: it leaves the table that the
operation of the same name gives, and the old table if that operation fails
(`Edit.run_editing`). The checks that can fail come before the first step that touches the table,
and in a well-formed table no row ends before a column that is dropped.

Since those operations only look at the world, a change that fails has changed nothing at all, and
one that succeeds has changed the table only (`Editing.unchanged_of_error`). -/

namespace FlatTables

namespace Editing

variable {α β : Type} {t : Table}

/-! ## Rows changed one after the other -/

theorem eachRow_eq {f : Row → Except TableError Row} {g : Row → Row} {rows : List Row}
    (h : ∀ row ∈ rows, f row = .ok (g row)) : eachRow f rows = (.ok (), rows.map g) := by
  induction rows with
  | nil => rfl
  | cons row rest ih =>
      have hrest := ih fun r hr => h r (List.mem_cons_of_mem _ hr)
      simp only [eachRow, h row List.mem_cons_self, hrest, List.map_cons]

theorem run_changeRows {f : Row → Except TableError Row} {g : Row → Row}
    (h : ∀ row ∈ t.rows, f row = .ok (g row)) (w : World) :
    (changeRows f).run t w = (.ok (), { t with rows := t.rows.map g }, w) := by
  unfold run changeRows
  rw [eachRow_eq h]

/-- Converting the cells of a column and then replacing them comes to converting row by row. -/
theorem convertCells_eq (column : String) (type : ColumnType) (index : Nat) (rows : List Row) :
    Table.convertCells column type index rows =
      (convertedCells column type index rows).map (replaceCells index rows) := by
  induction rows with
  | nil => rfl
  | cons row rest ih =>
      unfold Table.convertCells convertedCells
      cases row[index]? with
      | none => rfl
      | some cell =>
          simp only [ih]
          cases type.coerce cell with
          | error cause => rfl
          | ok cell' => cases convertedCells column type index rest <;> rfl

/-! ## One change after the other -/

theorem run_table_bind (f : Table → Editing β) (t : Table) (w : World) :
    (table >>= f).run t w = (f t).run t w := rfl

theorem run_bind_of_ok {x : Editing α} {a : α} {t t' : Table} {w w' : World}
    (h : x.run t w = (.ok a, t', w')) (f : α → Editing β) : (x >>= f).run t w = (f a).run t' w' := by
  change bind x f t w = _
  unfold bind
  change x t w = _ at h
  rw [h]
  rfl

theorem run_bind_of_error {x : Editing α} {e : TableError} {t t' : Table} {w w' : World}
    (h : x.run t w = (.error e, t', w')) (f : α → Editing β) :
    (x >>= f).run t w = (.error e, t', w') := by
  change bind x f t w = _
  unfold bind
  change x t w = _ at h
  rw [h]

theorem run_bind_unit (x : Editing α) (t : Table) (w : World) :
    (do let _ ← x).run t w = ((x.run t w).1.map fun _ => (), (x.run t w).2) := by
  change bind x _ t w = ((x t w).1.map fun _ => (), (x t w).2)
  unfold bind
  rcases x t w with ⟨_ | _, t', w'⟩ <;> rfl

/-- What a caller of an operation is left with: a result, and the table that the operation gives, or
the old one if it fails. -/
def settle (t : Table) (b : β) (ended : Except TableError Table × World) :
    Except TableError β × Table × World :=
  (ended.1.map fun _ => b, ended.1.toOption.getD t, ended.2)

/-- A change that first asks for something, and fails without it, goes the way of the operation that
asks for the same first. -/
theorem run_report_bind {x : Except TableError α} {f : α → Editing β}
    {g : α → Action TableError Table} {b : β} {w : World}
    (h : ∀ a, x = .ok a → (f a).run t w = settle t b ((g a).run w)) :
    (act (Operation.report x) >>= f).run t w = settle t b ((Operation.report x >>= g).run w) := by
  cases x with
  | error e => cases e <;> rfl
  | ok a => exact h a rfl

theorem report_map_bind {γ : Type} (x : Except TableError α) (f : α → β)
    (g : β → Action TableError γ) :
    (Operation.report (x.map f) >>= g) = (Operation.report x >>= fun a => g (f a)) := by
  cases x with
  | error e => cases e <;> rfl
  | ok a => rfl

/-! ## Every change -/

theorem run_append (t : Table) (row : Row) (w : World) :
    (append row).run t w = settle t () ((Operation.append t row).run w) :=
  run_report_bind fun _ _ => rfl

theorem run_update (t : Table) (index : Nat) (row : Row) (w : World) :
    (update index row).run t w = settle t () ((Operation.update t index row).run w) :=
  run_report_bind fun _ _ => run_report_bind fun _ _ => rfl

theorem run_delete (t : Table) (index : Nat) (w : World) :
    (delete index).run t w =
      settle t (t.rows[index]?.getD []) ((Operation.delete t index).run w) :=
  run_report_bind fun _ _ => rfl

theorem run_addColumn (t : Table) (name : String) (type : ColumnType) (w : World) :
    (addColumn name type).run t w = settle t () ((Operation.addColumn t name type).run w) := by
  refine run_report_bind fun schema _ => ?_
  have hrows := run_changeRows (t := { t with schema := schema })
    (f := fun row => .ok (row ++ [type.defaultCell])) (fun _ _ => rfl) w
  exact run_bind_of_ok hrows _

theorem run_dropColumn (ht : t.WellFormed) (name : String) (w : World) :
    (dropColumn name).run t w = settle t () ((Operation.dropColumn t name).run w) := by
  unfold dropColumn Operation.dropColumn
  rw [run_table_bind, Schema.erase?]
  cases hindex : t.schema.indexOf? name with
  | none => rfl
  | some index =>
      have hlength : ∀ row ∈ t.rows, index < row.length :=
        fun row hrow => ht.indexOf?_lt_length hindex hrow
      have hcells : ∀ row ∈ t.rows, dropCell name index row = .ok (row.eraseIdx index) :=
        fun row hrow => if_pos (hlength row hrow)
      have hrows := run_changeRows (t := { t with schema := t.schema.eraseIdx index }) hcells w
      simp only [Option.map_some, Table.dropCells_eq_ok hlength]
      exact run_bind_of_ok hrows _

theorem run_modifyColumn (t : Table) (name : String) (type : ColumnType) (w : World) :
    (modifyColumn name type).run t w = settle t () ((Operation.modifyColumn t name type).run w) := by
  unfold modifyColumn Operation.modifyColumn
  rw [run_table_bind]
  cases t.schema.indexOf? name with
  | none => rfl
  | some index =>
      simp only [convertCells_eq, report_map_bind]
      exact run_report_bind fun _ _ => rfl

theorem run_alter (ht : t.WellFormed) (kind : Alteration) (column : String)
    (type? : Option ColumnType) (w : World) :
    (alter kind column type?).run t w =
      settle t () ((Operation.alter t kind column type?).run w) := by
  cases kind with
  | drop => exact run_dropColumn ht column w
  | add =>
      cases type? with
      | none => rfl
      | some type => exact run_addColumn t column type w
  | modify =>
      cases type? with
      | none => rfl
      | some type => exact run_modifyColumn t column type w

end Editing

namespace Edit

/-- The change in place of an edit; the row that a deletion gives is left out. -/
def editing : Edit → Editing Unit
  | append row => Editing.append row
  | update index row => Editing.update index row
  | delete index => do let _ ← Editing.delete index
  | addColumn name type => Editing.addColumn name type
  | dropColumn name => Editing.dropColumn name
  | modifyColumn name type => Editing.modifyColumn name type
  | alter kind column type? => Editing.alter kind column type?
  | clean => Editing.clean

variable {t : Table}

/-- A change other than cleaning leaves the old table if it fails. -/
theorem outcome_eq_getD {edit : Edit} (h : edit ≠ .clean) (t : Table) (w : World) :
    edit.outcome t w = ((edit.action t).run w).1.toOption.getD t := by
  unfold outcome
  cases ((edit.action t).run w).1 with
  | ok t' => rfl
  | error e =>
      cases edit with
      | clean => exact absurd rfl h
      | _ => rfl

theorem run_editing_clean (t : Table) (w : World) :
    (clean.editing).run t w =
      (((clean.action t).run w).1.map fun _ => (), clean.outcome t w,
        ((clean.action t).run w).2) := by
  -- The two differ only in when the rows go, which the file does not show.
  have hrows : (Editing.setRows []).run t w = (.ok (), t.cleared, w) := rfl
  have hediting : clean.editing.run t w = (do
      Editing.act (Operation.cleanFile t)
      Editing.act (Action.emit .info ("cleaned table " ++ t.id.fullName))).run t.cleared w := by
    rw [editing, Editing.clean, Editing.run_table_bind]
    exact Editing.run_bind_of_ok hrows _
  have haction : clean.action t = (do
      Operation.cleanFile t
      Action.emit .info ("cleaned table " ++ t.id.fullName)
      return t.cleared) :=
    bind_assoc _ _ _
  rw [hediting, outcome, haction, Action.run_bind]
  change Editing.bind _ _ _ _ = _
  unfold Editing.bind Editing.act
  rcases (Operation.cleanFile t).run w with ⟨_ | _, w'⟩ <;> rfl

/-- **A change in place leaves what its operation gives**: the same result, the same world, and the
table that a caller of the operation would go on with. -/
theorem run_editing (ht : t.WellFormed) (edit : Edit) (w : World) :
    edit.editing.run t w =
      (((edit.action t).run w).1.map fun _ => (), edit.outcome t w, ((edit.action t).run w).2) := by
  by_cases hclean : edit = .clean
  · subst hclean
    exact run_editing_clean t w
  rw [outcome_eq_getD hclean]
  cases edit with
  | append row => exact Editing.run_append t row w
  | update index row => exact Editing.run_update t index row w
  | delete index =>
      rw [editing, action, Editing.run_bind_unit, Editing.run_delete]
      rcases (Operation.delete t index).run w with ⟨_ | _, w'⟩ <;> rfl
  | addColumn name type => exact Editing.run_addColumn t name type w
  | dropColumn name => exact Editing.run_dropColumn ht name w
  | modifyColumn name type => exact Editing.run_modifyColumn t name type w
  | alter kind column type? => exact Editing.run_alter ht kind column type? w
  | clean => exact absurd rfl hclean

/-- A change other than cleaning succeeds in whatever world if its operation does, and leaves the
table that the operation gives. -/
theorem exists_run_editing_iff {edit : Edit} (ht : t.WellFormed) (hclean : edit ≠ .clean) (u : Table)
    (w : World) :
    (∃ w', edit.editing.run t w = (.ok (), u, w')) ↔ ((edit.action t).run w).1 = .ok u := by
  rw [run_editing ht, outcome_eq_getD hclean]
  cases ((edit.action t).run w).1 with
  | error e => simp [Except.map]
  | ok t' => simp [Except.map, Except.toOption]

end Edit

/-- **A change that fails has changed nothing**: the table is as it was before. Unless it is a
cleaning, no change touches a file or a catalog, whether it fails or not. -/
theorem Editing.unchanged_of_error {t : Table} (ht : t.WellFormed) {edit : Edit}
    (hclean : edit ≠ .clean) (w : World) :
    (∀ e, (edit.editing.run t w).1 = .error e → (edit.editing.run t w).2.1 = t) ∧
      ∃ events, (edit.editing.run t w).2.2 = { w with events := events } := by
  rw [Edit.run_editing ht, Edit.outcome_eq_getD hclean]
  refine ⟨fun e h => ?_, (Operation.onlyLooks_edit t hclean).exists_events w⟩
  rw [map_eq_error_iff.1 h]
  rfl

/-- A table of the prices on three days; that of the second is not known yet. -/
def dailyPrices : Table where
  id := ⟨"temp", "prices"⟩
  schema := ⟨[⟨"day", .integer⟩, ⟨"price", .text⟩], by decide⟩
  rows := [[.integer 1, .text "10"], [.integer 2, .text "soon"], [.integer 3, .text "12"]]
  store := none

/-- Making the prices integers fails on the second day, and the price of the first day is a text as
before. -/
theorem unchanged_dailyPrices :
    let w := World.ofFiles ⟨[], [], []⟩
    let after := (Edit.modifyColumn "price" .integer).editing.run dailyPrices w
    after.1 = .error (.modifyColumn "price" .integer ⟨"soon", .integer⟩) ∧
      after.2.1 = dailyPrices ∧ ∃ events, after.2.2 = { w with events := events } := by
  intro w after
  have hprices : dailyPrices.WellFormed :=
    Table.wellFormed_of_rows_fit
      (by simp [dailyPrices, Row.Fits, Cell.Fits, Schema.types, Cell.type?])
  have hclean : Edit.modifyColumn "price" .integer ≠ .clean := by decide
  obtain ⟨herror, hevents⟩ := Editing.unchanged_of_error hprices hclean w
  have hfails : after.1 = .error (.modifyColumn "price" .integer ⟨"soon", .integer⟩) := rfl
  exact ⟨hfails, herror _ hfails, hevents⟩

end FlatTables
