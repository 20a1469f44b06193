import FlatTables.Proofs.Operation.Computing

set_option autoImplicit false

/-! # Creating a table, step by step

A table of a store is created in three steps: its database is made ready, its columns and rows are
found, and the rows are converted. `create_eq` says so, and what is proved about creating a table
goes through its steps. -/

namespace FlatTables.Operation

/-- Find the columns and rows of a table: those that are saved, if its data file exists. -/
def findRows (store : Store) (id : TableId) (path : Path) (schema? : Option Schema)
    (rows? : Option (List Row)) : Action TableError (Schema × List Row) := do
  let w ← Action.world
  if w.files.contains path then loadSaved store id path rows? else startNew id schema? rows?

/-- Make a table of a store with the columns and rows that were found. -/
def bindRows (store : Store) (id : TableId) (found : Schema × List Row) :
    Action TableError Table := do
  let rows ← report (Table.coerceRows id found.1 found.2)
  done .debug ("create:table:" ++ id.fullName ++ " (" ++ rows.length.repr ++ " rows)")
    ⟨id, found.1, rows, some store⟩

theorem create_eq (store : Store) (id : String) (schema? : Option Schema)
    (rows? : Option (List Row)) :
    create store id schema? rows? = (do
      let location ← stored (store.database (store.config.resolve id).database)
      let found ← findRows store (store.config.resolve id)
        (location.join (Config.dataFileName (store.config.resolve id).name)) schema? rows?
      bindRows store (store.config.resolve id) found) := by
  unfold create
  refine bind_congr ?_
  intro location
  unfold findRows
  rw [bind_assoc]
  refine bind_congr ?_
  intro w
  split
  · rfl
  · rfl

/-- A table is made of rows that can be converted, and only of those. -/
theorem fst_run_bindRows (store : Store) (id : TableId) (schema : Schema) (rows : List Row)
    (w : World) : ((bindRows store id (schema, rows)).run w).1 =
      (Table.coerceRows id schema rows).map fun rows => ⟨id, schema, rows, some store⟩ := by
  have hreport := fst_run_report (Table.coerceRows id schema rows) w
  rw [bindRows, Action.run_bind]
  rcases hrun : (report (Table.coerceRows id schema rows)).run w with ⟨e | rows', w₁⟩
  · rw [hrun] at hreport
    rw [← hreport]
    rfl
  · rw [hrun] at hreport
    rw [← hreport]
    rfl

/-- What is made of the columns and rows that an action finds does not depend on the world. -/
theorem fst_run_bind_bindRows (x : Action TableError (Schema × List Row)) (store : Store)
    (id : TableId) (w : World) : ((x >>= bindRows store id).run w).1 =
      (x.run w).1 >>= fun found =>
        (Table.coerceRows id found.1 found.2).map fun rows => ⟨id, found.1, rows, some store⟩ := by
  rw [Action.run_bind]
  rcases x.run w with ⟨e | ⟨schema, rows⟩, w₁⟩
  · rfl
  · exact fst_run_bindRows ..

/-- Rows are refused one by one. -/
theorem exists_of_coerceRows_error {id : TableId} {schema : Schema} {rows : List Row}
    {e : TableError} (h : Table.coerceRows id schema rows = .error e) :
    ∃ cause, e = .invalidRow id cause := by
  induction rows with
  | nil => cases h
  | cons row rest ih =>
      rcases bind_eq_error_iff.1 h with hrow | ⟨row', -, h⟩
      · obtain ⟨cause, -, rfl⟩ := mapError_eq_error_iff.1 hrow
        exact ⟨cause, rfl⟩
      · rcases bind_eq_error_iff.1 h with hrest | ⟨rows', -, h⟩
        · exact ih hrest
        · cases h

theorem run_create_eq_ok {store : Store} {id : String} {schema? : Option Schema}
    {rows? : Option (List Row)} {w w' : World} {t : Table}
    (h : (create store id schema? rows?).run w = (.ok t, w')) :
    ∃ schema rows, Table.coerceRows (store.config.resolve id) schema rows = .ok t.rows ∧
      t.schema = schema := by
  rw [create_eq] at h
  obtain ⟨location, w₁, -, h⟩ := Action.run_bind_eq_ok_iff.1 h
  obtain ⟨⟨schema, rows⟩, w₂, -, h⟩ := Action.run_bind_eq_ok_iff.1 h
  obtain ⟨rows', w₃, hrows, h⟩ := Action.run_bind_eq_ok_iff.1 h
  cases h
  have hcoerce := fst_run_report (Table.coerceRows (store.config.resolve id) schema rows) w₂
  rw [hrows] at hcoerce
  exact ⟨schema, rows, hcoerce.symm, rfl⟩

/-- A table that was made belongs to the store, under the name that its identifier means. -/
theorem id_and_store_of_create {store : Store} {id : String} {schema? : Option Schema}
    {rows? : Option (List Row)} {w w' : World} {t : Table}
    (h : (create store id schema? rows?).run w = (.ok t, w')) :
    t.id = store.config.resolve id ∧ t.store = some store := by
  rw [create_eq] at h
  obtain ⟨location, w₁, -, h⟩ := Action.run_bind_eq_ok_iff.1 h
  obtain ⟨found, w₂, -, h⟩ := Action.run_bind_eq_ok_iff.1 h
  obtain ⟨rows, w₃, -, h⟩ := Action.run_bind_eq_ok_iff.1 h
  cases h
  exact ⟨rfl, rfl⟩

end FlatTables.Operation
