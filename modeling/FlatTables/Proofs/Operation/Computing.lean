import FlatTables.Proofs.Operation.Call
import FlatTables.Proofs.Outcome
import FlatTables.Proofs.Table.Names

set_option autoImplicit false

/-! # What operations compute

Most operations on tables do nothing in the world but report, and give the same result in every
world (`Action.Computes`). An operator reports at places of its own, but it computes what the
function on tables of the same name gives, joins included (`computes_query`,
`computes_combination`). So does a change to a table, unless it is a cleaning (`computes_edit`). -/

namespace FlatTables

/-- Whether an action gives `r` in every world and does nothing but report. -/
def Action.Computes {ε α : Type} (x : Action ε α) (r : Except ε α) : Prop :=
  ∀ w, ∃ events, x.run w = (r, { w with events := events })

/-! ## Actions in general -/

namespace Action.Computes

variable {ε α β : Type} {x : Action ε α} {r : Except ε α}

theorem fst_run (h : x.Computes r) (w : World) : (x.run w).1 = r := by
  obtain ⟨events, hrun⟩ := h w
  rw [hrun]

theorem pure (a : α) : (Pure.pure a : Action ε α).Computes (.ok a) := fun w => ⟨w.events, rfl⟩

theorem throw (e : ε) : (throw e : Action ε α).Computes (.error e) := fun w => ⟨w.events, rfl⟩

theorem fail (message : ε → String) (e : ε) : (fail message e : Action ε α).Computes (.error e) :=
  fun _ => ⟨_, rfl⟩

theorem emit (level : Level) (message : String) :
    (emit level message : Action ε Unit).Computes (.ok ()) := fun _ => ⟨_, rfl⟩

theorem unreported (r : Except ε α) : (unreported r).Computes r := by
  cases r with
  | error e => exact throw e
  | ok a => exact pure a

theorem bind {f : α → Action ε β} {g : α → Except ε β} (hx : x.Computes r)
    (hf : ∀ a, (f a).Computes (g a)) : (x >>= f).Computes (r >>= g) := by
  intro w
  obtain ⟨events, hrun⟩ := hx w
  rw [run_bind, hrun]
  cases r with
  | error e => exact ⟨events, rfl⟩
  | ok a => exact hf a { w with events := events }

/-- A step that has its result at hand. -/
theorem pure_bind {a : α} {f : α → Action ε β} {r : Except ε β} (h : (f a).Computes r) :
    (Pure.pure a >>= f).Computes r :=
  h

end Action.Computes

namespace Operation

variable (t other : Table) (condition expression : Expression)

theorem computes_report {α : Type} (r : Except TableError α) : (report r).Computes r := by
  rcases r with e | a
  · cases e with
    | shortRow column => exact .throw _
    | _ => exact .fail _ _
  · exact .pure a

theorem fst_run_report {α : Type} (r : Except TableError α) (w : World) :
    ((report r).run w).1 = r :=
  (computes_report r).fst_run w

theorem computes_done (level : Level) (message : String) : (done level message t).Computes (.ok t) :=
  .bind (.emit level message) fun _ => .pure t

theorem computes_temporary (id : String) (schema : Schema) (rows : List Row) :
    (temporary id schema rows).Computes (Table.temporary id schema rows) :=
  .bind (computes_report _) fun _ => .pure _

/-! ## Operators -/

theorem computes_selectRows (schema : Schema) (rows : List Row) :
    (selectRows schema condition rows).Computes
      ((Table.selectRows schema condition rows).mapError (.evaluate condition.display)) := by
  induction rows with
  | nil => exact .pure []
  | cons row rest ih =>
      rw [Table.selectRows, mapError_bind]
      refine .bind (computes_report _) fun value => ?_
      rw [mapError_bind]
      exact .bind ih fun _ => .pure _

theorem computes_select : (select t condition).Computes (t.select condition) :=
  .bind (computes_selectRows condition t.schema t.rows) fun _ => .pure _

theorem computes_project (names : List String) : (project t names).Computes (t.project names) := by
  unfold project Table.project
  cases names.find? fun name => !t.schema.names.contains name with
  | some unknown => exact .fail _ _
  | none =>
      -- columns that are kept have different names, so their schema is there
      have hkept := Schema.ofColumns_columns (t.schema.restrict fun name => names.contains name)
      change Schema.ofColumns (t.schema.columns.filter fun column => names.contains column.name) = _
        at hkept
      simp only [hkept]
      exact .bind (.unreported _) fun _ => .pure _

theorem computes_computeCell (schema : Schema) (row : Row) :
    (computeCell schema expression row).Computes (Table.computeCell schema expression row) := by
  refine .bind (computes_report _) fun value => ?_
  cases value.toCell? with
  | some cell => exact .pure cell
  | none => exact .fail _ _

theorem computes_extendRows (schema : Schema) (type? : Option ColumnType) (rows : List Row) :
    (extendRows schema expression type? rows).Computes
      (Table.extendRows schema expression type? rows) := by
  induction rows generalizing type? with
  | nil => exact .pure _
  | cons row rest ih =>
      exact .bind (computes_computeCell expression schema row) fun cell =>
        .bind (computes_report _) fun type? => .bind (ih type?) fun _ => .pure _

theorem computes_extend (name? : Option String) :
    (extend t expression name?).Computes (t.extend expression name?) :=
  .bind (computes_extendRows expression t.schema none t.rows) fun _ =>
    .bind (computes_report _) fun _ => .pure _

theorem computes_rename (newName : String) : (rename t newName).Computes (t.rename newName) :=
  .bind (computes_report _) fun _ => .pure _

theorem computes_product : (product t other).Computes (t.product other) :=
  .bind (computes_report _) fun _ => .pure _

theorem computes_matchingPairs :
    (matchingPairs t other condition).Computes (t.matchingPairs other condition) :=
  .bind (computes_product t other) fun pairs => computes_select pairs condition

theorem computes_join : (join t other condition).Computes (t.join other condition) :=
  .bind (computes_matchingPairs t other condition) fun _ => .pure _

theorem computes_leftJoin : (leftJoin t other condition).Computes (t.leftJoin other condition) :=
  .bind (computes_matchingPairs t other condition) fun joined =>
    .bind (computes_project joined t.qualifiedNames) fun matched =>
      .pure_bind (.bind (computes_product (t.difference matched) _) fun _ => .pure _)

theorem computes_rightJoin :
    (rightJoin t other condition).Computes (t.rightJoin other condition) :=
  .bind (computes_matchingPairs t other condition) fun joined =>
    .bind (computes_project joined other.qualifiedNames) fun matched =>
      .pure_bind (.bind (computes_product _ (other.difference matched)) fun _ => .pure _)

end Operation

/-- What a query gives. -/
def Query.result (t : Table) : Query → Except TableError Table
  | select condition => t.select condition
  | project names => t.project names
  | extend expression name? => t.extend expression name?
  | rename newName => t.rename newName

/-- What a combination gives. -/
def Combination.result (t other : Table) : Combination → Except TableError Table
  | union => .ok (t.union other)
  | intersect => .ok (t.intersect other)
  | difference => .ok (t.difference other)
  | product => t.product other
  | join condition => t.join other condition
  | leftJoin condition => t.leftJoin other condition
  | rightJoin condition => t.rightJoin other condition

/-- What a change gives if nothing is in its way. Only cleaning can meet something else. -/
def Edit.result (t : Table) : Edit → Except TableError Table
  | append row => t.append row
  | update index row => t.update index row
  | delete index => t.delete index
  | addColumn name type => t.addColumn name type
  | dropColumn name => t.dropColumn name
  | modifyColumn name type => t.modifyColumn name type
  | alter alteration column type? => t.alter alteration column type?
  | clean => .ok t.cleared

namespace Operation

variable (t other : Table)

/-- **A query computes what the function on tables gives.** -/
theorem computes_query (query : Query) : (query.action t).Computes (query.result t) := by
  cases query with
  | select condition => exact computes_select t condition
  | project names => exact computes_project t names
  | extend expression name? => exact computes_extend t expression name?
  | rename newName => exact computes_rename t newName

/-- **A combination computes what the function on tables gives.** -/
theorem computes_combination (combination : Combination) :
    (combination.action t other).Computes (combination.result t other) := by
  cases combination with
  | union => exact .pure _
  | intersect => exact .pure _
  | difference => exact .pure _
  | product => exact computes_product t other
  | join condition => exact computes_join t other condition
  | leftJoin condition => exact computes_leftJoin t other condition
  | rightJoin condition => exact computes_rightJoin t other condition

/-! ## Changes -/

theorem computes_addColumn (name : String) (type : ColumnType) :
    (addColumn t name type).Computes (t.addColumn name type) :=
  .bind (computes_report _) fun _ => computes_done _ _ _

theorem computes_dropColumn (name : String) :
    (dropColumn t name).Computes (t.dropColumn name) := by
  unfold dropColumn Table.dropColumn
  cases t.schema.erase? name with
  | none => exact .fail _ _
  | some dropped => exact .bind (.unreported _) fun _ => computes_done _ _ _

theorem computes_modifyColumn (name : String) (type : ColumnType) :
    (modifyColumn t name type).Computes (t.modifyColumn name type) := by
  unfold modifyColumn Table.modifyColumn
  cases t.schema.indexOf? name with
  | none => exact .fail _ _
  | some index => exact .bind (computes_report _) fun _ => computes_done _ _ _

theorem computes_alter (alteration : Alteration) (column : String) (type? : Option ColumnType) :
    (alter t alteration column type?).Computes (t.alter alteration column type?) := by
  cases alteration with
  | drop => exact computes_dropColumn t column
  | add =>
      cases type? with
      | none => exact .fail _ _
      | some type => exact computes_addColumn t column type
  | modify =>
      cases type? with
      | none => exact .fail _ _
      | some type => exact computes_modifyColumn t column type

/-- **A change computes what the function on tables gives**, unless it is a cleaning. -/
theorem computes_edit {edit : Edit} (h : edit ≠ .clean) :
    (edit.action t).Computes (edit.result t) := by
  cases edit with
  | append row => exact .bind (computes_report _) fun _ => computes_done _ _ _
  | update index row =>
      exact .bind (computes_report _) fun _ => .bind (computes_report _) fun _ => computes_done _ _ _
  | delete index => exact .bind (computes_report _) fun _ => computes_done _ _ _
  | addColumn name type => exact computes_addColumn t name type
  | dropColumn name => exact computes_dropColumn t name
  | modifyColumn name type => exact computes_modifyColumn t name type
  | alter alteration column type? => exact computes_alter t alteration column type?
  | clean => exact absurd rfl h

end Operation

end FlatTables
