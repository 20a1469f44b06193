import FlatTables.Proofs.Catalog.WriteThrough
import FlatTables.Proofs.Operation.Create
import FlatTables.Proofs.Operation.InPlace

set_option autoImplicit false

/-! # What is reported as an error

Whoever reads the journal finds every error that a caller was given, and no other: a call that ends
in an error has reported its message last, and a call that succeeds has reported no error
(`reports_of_call`). An error may be reported more than once, and under the message that it had when
it was wrapped into another.

The operations report at places of their own. What is put together from others and has no such place,
like the joins, relies on these: an action whose parts report their errors reports its own
(`Action.Reports.bind`). -/

namespace FlatTables

/-- Whether a caller is given this error. A row that ends too early is a defect of the table, and
ends an operation without a word. -/
def TableError.Raised (e : TableError) : Prop := ∀ column, e ≠ .shortRow column

/-- Whether a run from `w` to `w'` has reported the error that it ended with, last of all, or no
error at all if it succeeded. -/
def Reported {ε α : Type} (message : ε → String) (raised : ε → Prop) (w : World)
    (result : Except ε α) (w' : World) : Prop :=
  ∃ events, w'.events = events ++ w.events ∧
    match result with
    | .ok _ => ∀ event ∈ events, event.level ≠ .error
    | .error e => raised e → events.head? = some ⟨.error, message e⟩

/-- Whether every run of an action reports in this way. -/
def Action.Reports {ε α : Type} (message : ε → String) (raised : ε → Prop) (x : Action ε α) : Prop :=
  ∀ w, Reported message raised w (x.run w).1 (x.run w).2

/-! ## Actions in general -/

namespace Reported

variable {ε ε' α β : Type} {message : ε → String} {raised : ε → Prop} {w w' w'' : World}

/-- A run that succeeds and reports nothing. -/
theorem of_ok {a : α} (hevents : w'.events = w.events) :
    Reported message raised w (.ok a : Except ε α) w' :=
  ⟨[], hevents, fun _ hevent => absurd hevent List.not_mem_nil⟩

/-- A run that reports nothing, and succeeds or ends with an error that is not raised. -/
theorem silent {result : Except ε α} (hevents : w'.events = w.events)
    (h : ∀ e, result = .error e → ¬ raised e) : Reported message raised w result w' := by
  cases result with
  | ok a => exact of_ok hevents
  | error e => exact ⟨[], hevents, fun he => absurd he (h e rfl)⟩

/-- A run that ends with the report of its error. -/
theorem of_report {e : ε} (events : List Event)
    (hevents : w'.events = ⟨.error, message e⟩ :: (events ++ w.events)) :
    Reported message raised w (.error e : Except ε α) w' :=
  ⟨_ :: events, hevents, fun _ => rfl⟩

theorem trans {a : α} {result : Except ε β} (h : Reported message raised w (.ok a : Except ε α) w')
    (h' : Reported message raised w' result w'') : Reported message raised w result w'' := by
  obtain ⟨events, hevents, hquiet⟩ := h
  obtain ⟨events', hevents', hresult⟩ := h'
  refine ⟨events' ++ events, by rw [hevents', hevents, List.append_assoc], ?_⟩
  cases result with
  | ok b =>
      intro event hevent
      rcases List.mem_append.1 hevent with hevent | hevent
      · exact hresult event hevent
      · exact hquiet event hevent
  | error e =>
      intro he
      rw [List.head?_append, hresult he]
      rfl

/-- The report of an error stays last when nothing is done but to wrap the error. -/
theorem mapError {result : Except ε α} {message' : ε' → String} {raised' : ε' → Prop} {f : ε → ε'}
    (h : Reported message raised w result w') (hmessage : ∀ e, message' (f e) = message e)
    (hraised : ∀ e, raised' (f e) → raised e) :
    Reported message' raised' w (result.mapError f) w' := by
  obtain ⟨events, hevents, hresult⟩ := h
  refine ⟨events, hevents, ?_⟩
  cases result with
  | ok a => exact hresult
  | error e =>
      intro he
      rw [hmessage]
      exact hresult (hraised e he)

end Reported

namespace Action.Reports

variable {ε ε' α β : Type} {message : ε → String} {raised : ε → Prop}

theorem pure (a : α) : (Pure.pure a : Action ε α).Reports message raised :=
  fun _ => .of_ok rfl

theorem emit {level : Level} (h : level ≠ .error) (text : String) :
    (emit level text : Action ε Unit).Reports message raised :=
  fun _ => ⟨[⟨level, text⟩], rfl, fun _ hevent => List.mem_singleton.1 hevent ▸ h⟩

theorem throw {e : ε} (h : ¬ raised e) : (throw e : Action ε α).Reports message raised :=
  fun _ => .silent rfl fun _ he => Except.error.inj he ▸ h

theorem fail (e : ε) : (fail message e : Action ε α).Reports message raised :=
  fun _ => .of_report [] rfl

theorem ofExcept (x : Except ε α) : (ofExcept message x).Reports message raised := by
  cases x with
  | error e => exact fail e
  | ok a => exact pure a

theorem unreported {x : Except ε α} (h : ∀ e, x = .error e → ¬ raised e) :
    (unreported x).Reports message raised := by
  cases x with
  | error e => exact throw (h e rfl)
  | ok a => exact pure a

theorem change {f : World → World} (h : ∀ w, (f w).events = w.events) :
    (change f : Action ε Unit).Reports message raised :=
  fun w => .of_ok (h w)

theorem bind {x : Action ε α} {f : α → Action ε β} (hx : x.Reports message raised)
    (hf : ∀ a, (f a).Reports message raised) : (x >>= f).Reports message raised := by
  intro w
  have hx := hx w
  rw [run_bind]
  rcases hrun : x.run w with ⟨e | a, w'⟩
  · rw [hrun] at hx
    obtain ⟨events, hevents, hresult⟩ := hx
    exact ⟨events, hevents, hresult⟩
  · rw [hrun] at hx
    exact hx.trans (hf a w')

theorem world {f : World → Action ε β} (hf : ∀ w, (f w).Reports message raised) :
    (Action.world >>= f).Reports message raised :=
  fun w => hf w w

/-- An error that is wrapped has to keep its message, since it is not reported again. -/
theorem mapError {x : Action ε α} (hx : x.Reports message raised) {message' : ε' → String}
    {raised' : ε' → Prop} {f : ε → ε'} (hmessage : ∀ e, message' (f e) = message e)
    (hraised : ∀ e, raised' (f e) → raised e) : (x.mapError f).Reports message' raised' := by
  intro w
  rw [run_mapError]
  exact (hx w).mapError hmessage hraised

/-- An error that is raised as another kind is reported once more. -/
theorem raise {x : Action ε α} (hx : x.Reports message raised) (message' : ε' → String)
    (raised' : ε' → Prop) (f : ε → ε') : (x.raise message' f).Reports message' raised' := by
  intro w
  obtain ⟨events, hevents, hresult⟩ := hx w
  simp only [Action.run, Action.raise] at hevents hresult ⊢
  rcases hrun : x w with ⟨e | a, w'⟩
  · rw [hrun] at hevents
    exact .of_report _ (congrArg (List.cons _) hevents)
  · rw [hrun] at hevents hresult
    exact ⟨events, hevents, hresult⟩

theorem changeFiles (wrap : FileError → ε) (f : FileTree → Except FileError FileTree) :
    (changeFiles message wrap f).Reports message raised := by
  intro w
  simp only [Action.run, Action.changeFiles]
  cases f w.files with
  | error cause => exact fail (wrap cause) w
  | ok files => exact .of_ok rfl

/-- What is undone after an error was reported is undone without a word. -/
theorem orElseUndo {x : Action ε α} (hx : x.Reports message raised) {undo : World → World}
    (h : ∀ w, (undo w).events = w.events) : (x.orElseUndo undo).Reports message raised := by
  intro w
  have hx := hx w
  rcases hrun : x.run w with ⟨e | a, w'⟩
  · rw [run_orElseUndo_of_error hrun]
    rw [hrun] at hx
    obtain ⟨events, hevents, hresult⟩ := hx
    exact ⟨events, (h w').trans hevents, hresult⟩
  · rw [run_orElseUndo_of_ok hrun]
    rw [hrun] at hx
    exact hx

/-! ### Writing files -/

theorem openFile (wrap : FileError → ε) (path : Path) :
    (openFile message wrap path).Reports message raised :=
  changeFiles wrap _

theorem handOver (content : List UInt8) :
    (handOver content : Action ε (Option Fault)).Reports message raised :=
  fun _ => .of_ok rfl

theorem fill (path : Path) (content : List UInt8) :
    (fill path content : Action ε Unit).Reports message raised :=
  change fun _ => rfl

/-- A fault is met without a word, and reported once the file holds what was taken. -/
theorem writeFile (wrap : FileError → ε) (path : Path) (content : List UInt8) :
    (writeFile message wrap path content).Reports message raised := by
  refine bind (openFile wrap path) fun _ => bind (handOver content) fun fault? =>
    bind (fill path _) fun _ => ?_
  split
  · exact pure _
  · exact fail _

end Action.Reports

/-! ## Files and catalogs -/

/-- Whether an action on files or the catalog reports its errors; all of them are raised. -/
abbrev Action.ReportsStorage {α : Type} (x : Action StorageError α) : Prop :=
  x.Reports StorageError.message fun _ => True

/-- Whether an action on tables reports its errors. -/
abbrev Action.ReportsTable {α : Type} (x : Action TableError α) : Prop :=
  x.Reports TableError.message TableError.Raised

theorem reports_createDirectory (path : Path) : (createDirectory path).ReportsStorage := by
  intro w
  simp only [Action.run, createDirectory]
  split
  · exact .of_ok rfl
  · exact .of_report [] rfl

namespace Store

variable (s : Store)

theorem reports_definition (id : TableId) : (s.definition id).ReportsStorage := by
  refine .world fun w => ?_
  split
  · exact .pure _
  · exact .fail _

theorem reports_columns (id : TableId) : (s.columns id).ReportsStorage :=
  .bind (s.reports_definition id) fun _ => .pure _

theorem reports_writeCatalog : s.writeCatalog.ReportsStorage :=
  .world fun _ => .writeFile _ _ _

theorem reports_register (id : TableId) (columns : Schema) :
    (s.register id columns).ReportsStorage :=
  .world fun _ => .bind (.change fun _ => rfl) fun _ =>
    .orElseUndo s.reports_writeCatalog fun _ => rfl

theorem reports_unregister (id : TableId) : (s.unregister id).ReportsStorage :=
  .bind (s.reports_definition id) fun _ => .bind (.change fun _ => rfl) fun _ =>
    .bind (.orElseUndo s.reports_writeCatalog fun _ => rfl) fun _ => .pure _

theorem reports_database (name : String) : (s.database name).ReportsStorage := by
  refine .world fun w => ?_
  split
  · exact .pure _
  · exact .bind (reports_createDirectory _) fun _ => .bind (.emit (by decide) _) fun _ => .pure _

/-- **Every call on a catalog reports its error**, and no other. -/
theorem reports_catalogCall (call : CatalogCall) : (call.action s).ReportsStorage := by
  cases call with
  | set id columns => exact .bind (s.reports_register id columns) fun _ => .pure _
  | delete id => exact .bind (s.reports_unregister id) fun _ => .pure _
  | definition id => exact .bind (s.reports_definition id) fun _ => .pure _
  | contains id => exact .world fun _ => .pure _
  | ids => exact .world fun _ => .pure _

end Store

namespace DataFile

theorem reports_readRows (path : Path) (schema : Schema) : (readRows path schema).ReportsStorage :=
  .world fun _ => .bind (.ofExcept _) fun _ => .bind (.emit (by decide) _) fun _ => .pure _

/-- Each way in which rows cannot be written is reported where it shows: when the file is opened, when
a record is written, and when the buffer is emptied. -/
theorem reports_writeRows (path : Path) (rows : List Row) :
    (writeRows path rows).ReportsStorage := by
  refine .bind (.openFile _ _) fun _ => .bind (.handOver _) fun fault? => ?_
  split
  · exact .bind (.fill _ _) fun _ => .fail _
  · exact .bind (.handOver _) fun _ => .bind (.fill _ _) fun _ => .fail _
  · refine .bind (.handOver _) fun fault? => ?_
    split
    · exact .bind (.fill _ _) fun _ => .fail _
    · exact .bind (.fill _ _) fun _ => .emit (by decide) _

end DataFile

/-! ## Operations on tables -/

namespace Operation

theorem reports_report {α : Type} (x : Except TableError α) : (report x).ReportsTable := by
  rcases x with e | a
  · cases e with
    | shortRow column => exact .throw fun h => h column rfl
    | _ => exact .fail _
  · exact .pure a

theorem reports_stored {α : Type} {x : Action StorageError α} (hx : x.ReportsStorage) :
    (stored x).ReportsTable :=
  hx.raise _ _ _

theorem reports_done {level : Level} (h : level ≠ .error) (message : String) (t : Table) :
    (done level message t).ReportsTable :=
  .bind (.emit h message) fun _ => .pure t

theorem reports_create (s : Store) (id : String) (schema? : Option Schema)
    (rows? : Option (List Row)) : (create s id schema? rows?).ReportsTable := by
  rw [create_eq]
  refine .bind (reports_stored (s.reports_database _)) fun location => .bind (.world fun w => ?_)
    fun found => .bind (reports_report _) fun rows => reports_done (by decide) _ _
  split
  -- the missing entry was reported by the catalog, and keeps its message
  · refine .bind ((s.reports_columns _).mapError (fun _ => rfl) fun _ _ => trivial) fun schema => ?_
    split
    · exact .pure _
    · exact .bind (reports_stored (DataFile.reports_readRows _ _)) fun _ => .pure _
  · cases schema? with
    | none => exact .fail _
    | some schema => exact .pure _

theorem reports_storeFor (t : Table) (action : StoredAction) : (storeFor t action).ReportsTable := by
  unfold storeFor
  split
  · exact .pure _
  · exact .fail _

theorem reports_save (t : Table) : (save t).ReportsTable :=
  .bind (reports_storeFor t .save) fun store => .bind (reports_stored (store.reports_database _))
    fun _ => .bind (reports_stored (DataFile.reports_writeRows _ _)) fun _ =>
      .bind (reports_stored (store.reports_register _ _)) fun _ => .emit (by decide) _

theorem reports_drop (t : Table) : (drop t).ReportsTable := by
  refine .bind (reports_storeFor t .drop) fun store => .world fun w => ?_
  split
  · exact .fail _
  · exact .bind (reports_stored (.changeFiles _ _)) fun _ =>
      .bind (reports_stored (store.reports_unregister _)) fun _ => .emit (by decide) _

theorem reports_cleanFile (t : Table) : (cleanFile t).ReportsTable := by
  unfold cleanFile
  split
  · exact .pure ()
  · exact reports_stored (.bind (Store.reports_database _ _) fun _ => .openFile _ _)

theorem reports_temporary (id : String) (schema : Schema) (rows : List Row) :
    (temporary id schema rows).ReportsTable :=
  .bind (reports_report _) fun _ => .pure _

/-! ### Changes -/

theorem reports_addColumn (t : Table) (name : String) (type : ColumnType) :
    (addColumn t name type).ReportsTable :=
  .bind (reports_report _) fun _ => reports_done (by decide) _ _

/-- Dropping cells fails only at a row that ends too early. -/
theorem not_raised_of_dropCells {name : String} {index : Nat} {rows : List Row} {e : TableError}
    (h : Table.dropCells name index rows = .error e) : ¬ e.Raised := by
  induction rows with
  | nil => cases h
  | cons row rest ih =>
      unfold Table.dropCells at h
      split at h
      · exact ih (map_eq_error_iff.1 h)
      · cases h
        exact fun hraised => hraised name rfl

theorem reports_dropColumn (t : Table) (name : String) : (dropColumn t name).ReportsTable := by
  unfold dropColumn
  split
  · exact .fail _
  · exact .bind (.unreported fun _ => not_raised_of_dropCells) fun _ =>
      reports_done (by decide) _ _

theorem reports_modifyColumn (t : Table) (name : String) (type : ColumnType) :
    (modifyColumn t name type).ReportsTable := by
  unfold modifyColumn
  split
  · exact .fail _
  · exact .bind (reports_report _) fun _ => reports_done (by decide) _ _

theorem reports_alter (t : Table) (kind : Alteration) (column : String)
    (type? : Option ColumnType) : (alter t kind column type?).ReportsTable := by
  cases kind with
  | drop => exact reports_dropColumn t column
  | add =>
      cases type? with
      | none => exact .fail _
      | some type => exact reports_addColumn t column type
  | modify =>
      cases type? with
      | none => exact .fail _
      | some type => exact reports_modifyColumn t column type

theorem reports_edit (t : Table) (edit : Edit) : (edit.action t).ReportsTable := by
  cases edit with
  | append row => exact .bind (reports_report _) fun _ => reports_done (by decide) _ _
  | update index row =>
      exact .bind (reports_report _) fun _ => .bind (reports_report _) fun _ =>
        reports_done (by decide) _ _
  | delete index => exact .bind (reports_report _) fun _ => reports_done (by decide) _ _
  | addColumn name type => exact reports_addColumn t name type
  | dropColumn name => exact reports_dropColumn t name
  | modifyColumn name type => exact reports_modifyColumn t name type
  | alter kind column type? => exact reports_alter t kind column type?
  | clean =>
      exact .bind (.bind (reports_cleanFile t) fun _ => .emit (by decide) _) fun _ => .pure _

/-! ### Operators -/

/-- The row at which a selection stops is reported there. -/
theorem reports_selectRows (schema : Schema) (condition : Expression) (rows : List Row) :
    (selectRows schema condition rows).ReportsTable := by
  induction rows with
  | nil => exact .pure _
  | cons row rest ih => exact .bind (reports_report _) fun _ => .bind ih fun _ => .pure _

theorem reports_select (t : Table) (condition : Expression) : (select t condition).ReportsTable :=
  .bind (reports_selectRows t.schema condition t.rows) fun _ => .pure _

/-- Picking cells fails only at a row that ends too early. -/
theorem not_raised_of_pickCells {keep : String → Bool} {columns : List Column} {row : Row}
    {e : TableError} (h : Table.pickCells keep columns row = .error e) : ¬ e.Raised := by
  induction columns generalizing row with
  | nil => cases h
  | cons column rest ih =>
      cases row with
      | nil =>
          unfold Table.pickCells at h
          split at h
          · cases h
            exact fun hraised => hraised column.name rfl
          · exact ih h
      | cons cell cells =>
          unfold Table.pickCells at h
          split at h
          · exact ih (map_eq_error_iff.1 h)
          · exact ih h

theorem not_raised_of_pickRows {keep : String → Bool} {columns : List Column} {rows : List Row}
    {e : TableError} (h : Table.pickRows keep columns rows = .error e) : ¬ e.Raised := by
  induction rows with
  | nil => cases h
  | cons row rest ih =>
      rcases bind_eq_error_iff.1 h with hrow | ⟨cells, -, h⟩
      · exact not_raised_of_pickCells hrow
      · rcases bind_eq_error_iff.1 h with hrest | ⟨rows, -, h⟩
        · exact ih hrest
        · cases h

theorem reports_project (t : Table) (names : List String) : (project t names).ReportsTable := by
  unfold project
  split
  · exact .fail _
  · exact .bind (reports_report _) fun _ =>
      .bind (.unreported fun _ => not_raised_of_pickRows) fun _ => .pure _

theorem reports_extendRows (schema : Schema) (expression : Expression) (type? : Option ColumnType)
    (rows : List Row) : (extendRows schema expression type? rows).ReportsTable := by
  induction rows generalizing type? with
  | nil => exact .pure _
  | cons row rest ih =>
      refine .bind (.bind (reports_report _) fun value => ?_) fun cell =>
        .bind (reports_report _) fun type? => .bind (ih type?) fun _ => .pure _
      split
      · exact .pure _
      · exact .fail _

theorem reports_extend (t : Table) (expression : Expression) (name? : Option String) :
    (extend t expression name?).ReportsTable :=
  .bind (reports_extendRows t.schema expression none t.rows) fun _ =>
    .bind (reports_report _) fun _ => .pure _

theorem reports_query (t : Table) (query : Query) : (query.action t).ReportsTable := by
  cases query with
  | select condition => exact reports_select t condition
  | project names => exact reports_project t names
  | extend expression name? => exact reports_extend t expression name?
  | rename newName => exact .bind (reports_report _) fun _ => .pure _

section

variable (t other : Table) (condition : Expression)

theorem reports_product : (product t other).ReportsTable :=
  .bind (reports_report _) fun _ => .pure _

theorem reports_matchingPairs : (matchingPairs t other condition).ReportsTable :=
  .bind (reports_product t other) fun pairs => reports_select pairs condition

/-- A join has no report of its own: what stops it was reported by the product or the selection. -/
theorem reports_join : (join t other condition).ReportsTable :=
  .bind (reports_matchingPairs t other condition) fun _ => .pure _

/-- What stops an outer join was reported by one of the operators that it is made of. -/
theorem reports_leftJoin : (leftJoin t other condition).ReportsTable :=
  .bind (reports_matchingPairs t other condition) fun joined =>
    .bind (reports_project joined _) fun _ => .bind (.pure _) fun rest =>
      .bind (reports_product rest _) fun _ => .bind (.pure _) fun _ => .pure _

theorem reports_rightJoin : (rightJoin t other condition).ReportsTable :=
  .bind (reports_matchingPairs t other condition) fun joined =>
    .bind (reports_project joined _) fun _ => .bind (.pure _) fun rest =>
      .bind (reports_product _ rest) fun _ => .bind (.pure _) fun _ => .pure _

theorem reports_combination (combination : Combination) :
    (combination.action t other).ReportsTable := by
  cases combination with
  | union => exact .pure _
  | intersect => exact .pure _
  | difference => exact .pure _
  | product => exact reports_product t other
  | join condition => exact reports_join t other condition
  | leftJoin condition => exact reports_leftJoin t other condition
  | rightJoin condition => exact reports_rightJoin t other condition

end

/-- **Every call on a table reports its error**, and no other. -/
theorem reports_tableCall (s : Store) (call : TableCall) : (call.action s).ReportsTable := by
  cases call with
  | temporary id schema rows => exact .bind (reports_temporary id schema rows) fun _ => .pure ()
  | create id schema? rows? => exact .bind (reports_create s id schema? rows?) fun _ => .pure ()
  | edit t edit => exact .bind (reports_edit t edit) fun _ => .pure ()
  | query t query => exact .bind (reports_query t query) fun _ => .pure ()
  | combine t other c => exact .bind (reports_combination t other c) fun _ => .pure ()
  | save t => exact reports_save t
  | drop t => exact reports_drop t

end Operation

/-! ## Changes in place -/

/-- Whether every run of a change in place reports its error, and no other. -/
def Editing.Reports {α : Type} (x : Editing α) : Prop :=
  ∀ t w, Reported TableError.message TableError.Raised w (x.run t w).1 (x.run t w).2.2

namespace Editing.Reports

variable {α β : Type}

theorem act {x : Action TableError α} (hx : x.ReportsTable) : (act x).Reports := fun _ w => hx w

/-- A step that changes the table and not the world, and does not fail. -/
theorem quiet {x : Editing α} (h : ∀ t w, ∃ a t', x.run t w = (.ok a, t', w)) : x.Reports := by
  intro t w
  obtain ⟨a, t', hrun⟩ := h t w
  rw [hrun]
  exact .of_ok rfl

theorem bind {x : Editing α} {f : α → Editing β} (hx : x.Reports) (hf : ∀ a, (f a).Reports) :
    (x >>= f).Reports := by
  intro t w
  have hx := hx t w
  rcases hrun : x.run t w with ⟨e | a, t', w'⟩
  · rw [hrun] at hx
    rw [Editing.run_bind_of_error hrun f]
    obtain ⟨events, hevents, hresult⟩ := hx
    exact ⟨events, hevents, hresult⟩
  · rw [hrun] at hx
    rw [Editing.run_bind_of_ok hrun f]
    exact hx.trans (hf a t' w')

theorem pure (a : α) : (Pure.pure a : Editing α).Reports := quiet fun t _ => ⟨a, t, rfl⟩

theorem table {f : Table → Editing β} (hf : ∀ t, (f t).Reports) : (Editing.table >>= f).Reports :=
  fun t w => hf t t w

theorem setSchema (schema : Schema) : (setSchema schema).Reports := quiet fun _ _ => ⟨(), _, rfl⟩

theorem setRows (rows : List Row) : (setRows rows).Reports := quiet fun _ _ => ⟨(), _, rfl⟩

/-- Rows are changed without a word; only a row that ends too early stops this. -/
theorem changeRows {f : Row → Except TableError Row}
    (h : ∀ row e, f row = .error e → ¬ e.Raised) : (changeRows f).Reports := by
  intro t w
  refine .silent rfl ?_
  change ∀ e, (eachRow f t.rows).1 = .error e → ¬ e.Raised
  induction t.rows with
  | nil => exact fun e he => nomatch he
  | cons row rest ih =>
      intro e he
      unfold eachRow at he
      split at he
      · next cause hcause => exact Except.error.inj he ▸ h row cause hcause
      · exact ih e he

end Editing.Reports

namespace Editing

theorem reports_append (row : Row) : (append row).Reports :=
  .table fun _ => .bind (.act (Operation.reports_report _)) fun _ => .bind (.setRows _) fun _ =>
    .act (.emit (by decide) _)

theorem reports_update (index : Nat) (row : Row) : (update index row).Reports :=
  .table fun _ => .bind (.act (Operation.reports_report _)) fun _ =>
    .bind (.act (Operation.reports_report _)) fun _ => .bind (.setRows _) fun _ =>
      .act (.emit (by decide) _)

theorem reports_delete (index : Nat) : (delete index).Reports :=
  .table fun _ => .bind (.act (Operation.reports_report _)) fun _ => .bind (.setRows _) fun _ =>
    .bind (.act (.emit (by decide) _)) fun _ => .pure _

theorem reports_addColumn (name : String) (type : ColumnType) : (addColumn name type).Reports :=
  .table fun _ => .bind (.act (Operation.reports_report _)) fun _ => .bind (.setSchema _) fun _ =>
    .bind (.changeRows fun _ _ h => nomatch h) fun _ => .act (.emit (by decide) _)

theorem reports_dropColumn (name : String) : (dropColumn name).Reports := by
  refine .table fun t => ?_
  split
  · exact .act (.fail _)
  · next index schema hindex =>
      refine .bind (.setSchema _) fun _ => .bind (.changeRows fun row e h => ?_) fun _ =>
        .act (.emit (by decide) _)
      unfold dropCell at h
      split at h
      · cases h
      · cases h
        exact fun hraised => hraised name rfl

theorem reports_modifyColumn (name : String) (type : ColumnType) :
    (modifyColumn name type).Reports := by
  refine .table fun t => ?_
  split
  · exact .act (.fail _)
  · exact .bind (.act (Operation.reports_report _)) fun _ => .bind (.setRows _) fun _ =>
      .bind (.setSchema _) fun _ => .act (.emit (by decide) _)

theorem reports_alter (kind : Alteration) (column : String) (type? : Option ColumnType) :
    (alter kind column type?).Reports := by
  cases kind with
  | drop => exact reports_dropColumn column
  | add =>
      cases type? with
      | none => exact .act (.fail _)
      | some type => exact reports_addColumn column type
  | modify =>
      cases type? with
      | none => exact .act (.fail _)
      | some type => exact reports_modifyColumn column type

/-- **Every change in place reports its error**, and no other. -/
theorem reports_editing (edit : Edit) : edit.editing.Reports := by
  cases edit with
  | append row => exact reports_append row
  | update index row => exact reports_update index row
  | delete index => exact .bind (reports_delete index) fun _ => .pure _
  | addColumn name type => exact reports_addColumn name type
  | dropColumn name => exact reports_dropColumn name
  | modifyColumn name type => exact reports_modifyColumn name type
  | alter kind column type? => exact reports_alter kind column type?
  | clean =>
      exact .table fun t => .bind (.setRows _) fun _ =>
        .bind (.act (Operation.reports_cleanFile t)) fun _ => .act (.emit (by decide) _)

end Editing

/-- **The journal holds every error that a caller is given, and no other.** Whatever the world is, a
call on a table or on a catalog that ends in an error has reported the message of that error last,
and one that succeeds has reported no error. The same holds of a change in place. -/
theorem reports_of_call :
    (∀ (s : Store) (call : TableCall), (call.action s).ReportsTable) ∧
      (∀ edit : Edit, edit.editing.Reports) ∧
      (∀ (s : Store) (call : CatalogCall), (call.action s).ReportsStorage) ∧
      ∀ (s : Store) (id : TableId), (s.columns id).ReportsStorage :=
  ⟨Operation.reports_tableCall, Editing.reports_editing, Store.reports_catalogCall,
    Store.reports_columns⟩

end FlatTables
