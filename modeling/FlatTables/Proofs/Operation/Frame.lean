import FlatTables.Proofs.Operation.FailedSave
import FlatTables.Proofs.Operation.InPlace
import FlatTables.Proofs.Store.Touches

set_option autoImplicit false

/-! # A call touches only its own table

Whatever a caller does with a table, it stays in the store of that table, or in no store if the table
has none: operators give tables of the store of their receiver, and changes in place leave a table
where it is (`Table.Gives.store`). Together with what a single call touches, this frames everything
that can be done with a table (`touchesOnly_of_call`). -/

namespace FlatTables

/-! ## Tables that come of others -/

namespace Table

/-- Whether a result, if there is one, is a table of the store of `t`. -/
def KeepsStore (t : Table) (x : Except TableError Table) : Prop :=
  ∀ t', x = .ok t' → t'.store = t.store

namespace KeepsStore

variable {t : Table}

theorem error (e : TableError) : t.KeepsStore (.error e) := nofun

theorem ok {t' : Table} (h : t'.store = t.store) : t.KeepsStore (.ok t') := by
  intro _ ht
  cases ht
  exact h

theorem bind {α : Type} {x : Except TableError α} {f : α → Except TableError Table}
    (hf : ∀ a, x = .ok a → t.KeepsStore (f a)) : t.KeepsStore (x >>= f) := by
  intro t' ht
  obtain ⟨a, ha, ht⟩ := bind_eq_ok_iff.1 ht
  exact hf a ha t' ht

end KeepsStore

variable (t other : Table)

theorem keepsStore_project (names : List String) : t.KeepsStore (t.project names) := by
  unfold project
  split
  · exact .error _
  · exact .bind fun _ _ => .ok rfl

theorem keepsStore_product : t.KeepsStore (t.product other) := .bind fun _ _ => .ok rfl

theorem keepsStore_matchingPairs (condition : Expression) :
    t.KeepsStore (t.matchingPairs other condition) :=
  .bind fun pairs hpairs => .bind fun _ _ => .ok (t.keepsStore_product other pairs hpairs)

theorem keepsStore_join (condition : Expression) : t.KeepsStore (t.join other condition) :=
  .bind fun joined hjoined => .ok (t.keepsStore_matchingPairs other condition joined hjoined)

theorem keepsStore_leftJoin (condition : Expression) : t.KeepsStore (t.leftJoin other condition) :=
  .bind fun joined hjoined => .bind fun _ _ => .bind fun _ _ =>
    .ok (t.keepsStore_matchingPairs other condition joined hjoined)

theorem keepsStore_rightJoin (condition : Expression) :
    t.KeepsStore (t.rightJoin other condition) :=
  .bind fun joined hjoined => .bind fun _ _ => .bind fun _ _ =>
    .ok (t.keepsStore_matchingPairs other condition joined hjoined)

/-- **The result of an operator belongs to the store of its receiver.** -/
theorem keepsStore_query (query : Query) (w : World) :
    t.KeepsStore ((query.action t).run w).1 := by
  rw [(Operation.computes_query t query).fst_run]
  cases query with
  | select condition => exact .bind fun _ _ => .ok rfl
  | project names => exact t.keepsStore_project names
  | extend expression name? => exact .bind fun _ _ => .bind fun _ _ => .ok rfl
  | rename newName => exact .bind fun _ _ => .ok rfl

theorem keepsStore_combination (combination : Combination) (w : World) :
    t.KeepsStore ((combination.action t other).run w).1 := by
  rw [(Operation.computes_combination t other combination).fst_run]
  cases combination with
  | union => exact .ok rfl
  | intersect => exact .ok rfl
  | difference => exact .ok rfl
  | product => exact t.keepsStore_product other
  | join condition => exact t.keepsStore_join other condition
  | leftJoin condition => exact t.keepsStore_leftJoin other condition
  | rightJoin condition => exact t.keepsStore_rightJoin other condition

/-- The tables that come of `t` by changes in place and by operators of which they are the
receivers. -/
inductive Gives (t : Table) : Table → Prop
  | self : t.Gives t
  | edit {t' : Table} (h : t.Gives t') (edit : Edit) (w : World) :
      t.Gives (edit.editing.run t' w).2.1
  | query {t' t'' : Table} (h : t.Gives t') {query : Query} {w w' : World}
      (hrun : (query.action t').run w = (.ok t'', w')) : t.Gives t''
  | combine {t' other t'' : Table} (h : t.Gives t') {combination : Combination} {w w' : World}
      (hrun : (combination.action t' other).run w = (.ok t'', w')) : t.Gives t''

end Table

/-! ## Changes in place -/

/-- Whether every run of a change in place only reports, and leaves the table under its name and in
its store. -/
def Editing.OnlyLooks {α : Type} (x : Editing α) : Prop :=
  ∀ t w, (∃ events, (x.run t w).2.2 = { w with events := events }) ∧
    (x.run t w).2.1.id = t.id ∧ (x.run t w).2.1.store = t.store

namespace Editing.OnlyLooks

variable {α β : Type}

theorem pure (a : α) : (Pure.pure a : Editing α).OnlyLooks :=
  fun _ w => ⟨⟨w.events, rfl⟩, rfl, rfl⟩

theorem act {x : Action TableError α} (hx : x.OnlyLooks) : (act x).OnlyLooks :=
  fun _ w => ⟨hx.exists_events w, rfl, rfl⟩

theorem setSchema (schema : Schema) : (setSchema schema).OnlyLooks :=
  fun _ w => ⟨⟨w.events, rfl⟩, rfl, rfl⟩

theorem setRows (rows : List Row) : (setRows rows).OnlyLooks :=
  fun _ w => ⟨⟨w.events, rfl⟩, rfl, rfl⟩

theorem changeRows (f : Row → Except TableError Row) : (changeRows f).OnlyLooks :=
  fun _ w => ⟨⟨w.events, rfl⟩, rfl, rfl⟩

theorem table {f : Table → Editing β} (hf : ∀ t, (f t).OnlyLooks) :
    (Editing.table >>= f).OnlyLooks :=
  fun t w => hf t t w

theorem bind {x : Editing α} {f : α → Editing β} (hx : x.OnlyLooks) (hf : ∀ a, (f a).OnlyLooks) :
    (x >>= f).OnlyLooks := by
  intro t w
  have hx := hx t w
  rcases hrun : x.run t w with ⟨e | a, t', w'⟩
  · rw [hrun] at hx
    rw [Editing.run_bind_of_error hrun f]
    exact hx
  · rw [hrun] at hx
    rw [Editing.run_bind_of_ok hrun f]
    obtain ⟨⟨events, hworld⟩, hid, hstore⟩ := hx
    obtain ⟨⟨events', hworld'⟩, hid', hstore'⟩ := hf a t' w'
    refine ⟨⟨events', ?_⟩, hid'.trans hid, hstore'.trans hstore⟩
    rw [hworld']
    change w' = _ at hworld
    rw [hworld]

end Editing.OnlyLooks

namespace Editing

theorem onlyLooks_addColumn (name : String) (type : ColumnType) :
    (addColumn name type).OnlyLooks :=
  .table fun _ => .bind (.act (Operation.computes_report _).onlyLooks) fun _ =>
    .bind (.setSchema _) fun _ => .bind (.changeRows _) fun _ => .act (.emit _ _)

theorem onlyLooks_dropColumn (name : String) : (dropColumn name).OnlyLooks := by
  refine .table fun t => ?_
  split
  · exact .act (.fail _ _)
  · exact .bind (.setSchema _) fun _ => .bind (.changeRows _) fun _ => .act (.emit _ _)

theorem onlyLooks_modifyColumn (name : String) (type : ColumnType) :
    (modifyColumn name type).OnlyLooks := by
  refine .table fun t => ?_
  split
  · exact .act (.fail _ _)
  · exact .bind (.act (Operation.computes_report _).onlyLooks) fun _ => .bind (.setRows _) fun _ =>
      .bind (.setSchema _) fun _ => .act (.emit _ _)

/-- **A change in place only looks**, unless it is a cleaning, also when it stops at a row that ends
too early. -/
theorem onlyLooks_editing {edit : Edit} (h : edit ≠ .clean) : edit.editing.OnlyLooks := by
  have hreport := fun {α : Type} (x : Except TableError α) =>
    OnlyLooks.act (Operation.computes_report x).onlyLooks
  cases edit with
  | append row =>
      exact .table fun _ => .bind (hreport _) fun _ => .bind (.setRows _) fun _ => .act (.emit _ _)
  | update index row =>
      exact .table fun _ => .bind (hreport _) fun _ => .bind (hreport _) fun _ =>
        .bind (.setRows _) fun _ => .act (.emit _ _)
  | delete index =>
      exact .bind (.table fun _ => .bind (hreport _) fun _ => .bind (.setRows _) fun _ =>
        .bind (.act (.emit _ _)) fun _ => .pure _) fun _ => .pure _
  | addColumn name type => exact onlyLooks_addColumn name type
  | dropColumn name => exact onlyLooks_dropColumn name
  | modifyColumn name type => exact onlyLooks_modifyColumn name type
  | alter kind column type? =>
      cases kind with
      | drop => exact onlyLooks_dropColumn column
      | add =>
          cases type? with
          | none => exact .act (.fail _ _)
          | some type => exact onlyLooks_addColumn column type
      | modify =>
          cases type? with
          | none => exact .act (.fail _ _)
          | some type => exact onlyLooks_modifyColumn column type
  | clean => exact absurd rfl h

end Editing

namespace Edit

/-- Cleaning in place leaves the table without its rows, and the world that the operation leaves. -/
theorem leaves_of_editing_clean (t : Table) (w : World) :
    (clean.editing.run t w).2 = (t.cleared, ((Operation.clean t).2.run w).2) := by
  rw [run_editing_clean, outcome, action, Store.run_bind_pure]
  rcases (Operation.clean t).2.run w with ⟨_ | _, w'⟩ <;> rfl

/-- A change in place leaves a table under its name and in its store. -/
theorem id_and_store_of_editing (edit : Edit) (t : Table) (w : World) :
    (edit.editing.run t w).2.1.id = t.id ∧ (edit.editing.run t w).2.1.store = t.store := by
  by_cases hclean : edit = .clean
  · rw [hclean, leaves_of_editing_clean]
    exact ⟨rfl, rfl⟩
  · exact (Editing.onlyLooks_editing hclean t w).2

end Edit

/-- **Whatever comes of a table belongs to the store of that table.** -/
theorem Table.Gives.store {t t' : Table} (h : t.Gives t') : t'.store = t.store := by
  induction h with
  | self => rfl
  | @edit t' _ edit w ih => exact (edit.id_and_store_of_editing t' w).2.trans ih
  | @query t' t'' _ query w _ hrun ih =>
      exact (t'.keepsStore_query query w t'' (congrArg Prod.fst hrun)).trans ih
  | @combine t' other t'' _ combination w _ hrun ih =>
      exact (t'.keepsStore_combination other combination w t'' (congrArg Prod.fst hrun)).trans ih

/-! ## The main result -/

/-- **A call touches only its own table.** Whatever the world is and however the call ends, no file
changes but the data file of its table and the document of the catalog, no directory is made but on
the way to its database, and no entry in memory changes but its own. The same holds of a change in
place. If the document held the entries in memory before, and is another file than the data file,
then it holds them afterwards, so no other entry of it changes; unless the call failed because the
system stopped taking the bytes of the document, which is left with their beginning then. A call on a
table without a store changes nothing, and neither does one on a table that comes of such a table. -/
theorem touchesOnly_of_call (w : World) :
    (∀ (s : Store) (call : TableCall) (store : Store) (id : TableId),
      call.subject? s = some (store, id) →
        store.TouchesOnly id w ((call.action s).run w).1 ((call.action s).run w).2) ∧
      (∀ (edit : Edit) (t : Table) (store : Store), t.store = some store →
        store.TouchesOnly t.id w (edit.editing.run t w).1 (edit.editing.run t w).2.2) ∧
      (∀ (s : Store) (id : TableId) (result : Except TableError Unit) (w' : World),
        s.TouchesOnly id w result w' → s.DocumentedIn w →
          FileTree.place w.files.here (s.config.tablePath id) ≠
            FileTree.place w.files.here (s.catalogIn w).path →
          s.DocumentedIn w' ∨ s.CutShortIn id result w') ∧
      (∀ (s : Store) (call : TableCall), call.subject? s = none →
        ∃ events, ((call.action s).run w).2 = { w with events := events }) ∧
      (∀ (edit : Edit) (t : Table), t.store = none →
        ∃ events, (edit.editing.run t w).2.2 = { w with events := events }) ∧
      ∀ t t' : Table, t.Gives t' → t'.store = t.store := by
  refine ⟨fun s call store id h => Operation.touchesOnly_action s call h w,
    fun edit t store hstore => ?_, fun s id result w' h => h.documentedIn,
    fun s call h => (Operation.onlyLooks_call s h).exists_events w, fun edit t hstore => ?_,
    fun t t' h => h.store⟩
  · by_cases hclean : edit = .clean
    · rw [hclean, Edit.leaves_of_editing_clean]
      exact Operation.touchesOnly_clean hstore w _
    · obtain ⟨events, hworld⟩ := (Editing.onlyLooks_editing hclean t w).1
      rw [hworld]
      exact .refl store t.id w _ events
  · by_cases hclean : edit = .clean
    · rw [hclean, Edit.leaves_of_editing_clean]
      exact (Operation.onlyLooks_clean hstore).exists_events w
    · exact (Editing.onlyLooks_editing hclean t w).1

/-- The tally is saved beside the ledger. The entry of the ledger is as it was, in memory and in the
document. -/
theorem touchesOnly_of_call_tally :
    let s : Store := ⟨.standard, 0⟩
    let w := ((TableCall.save tally).action s).run (worldOf ledger)
    w.1 = .ok () ∧ (s.catalogIn w.2).entries.keys = ["default.ledger", "default.tally"] ∧
      (s.catalogIn w.2).entries.get? "default.ledger" = some ledger.definition ∧
      s.DocumentedIn w.2 := by
  intro s w
  obtain ⟨hcall, -, hdocument, -⟩ := touchesOnly_of_call (worldOf ledger)
  have htouches := hcall s (.save tally) s tally.id rfl
  have hok : w.1 = .ok () := by decide +kernel
  have hbefore : s.DocumentedIn (worldOf ledger) :=
    ⟨_, by decide +kernel, Catalog.entriesOfBytes_encode _ _⟩
  refine ⟨hok, by decide +kernel, ?_, ?_⟩
  · rw [htouches.entries "default.ledger" (by decide)]
    decide +kernel
  · refine (hdocument s tally.id _ _ htouches hbefore (by decide +kernel)).resolve_right ?_
    -- the document is whole, since the call has not failed
    rintro ⟨⟨cause, hfailed⟩, -⟩
    exact absurd (hok.symm.trans hfailed) nofun

/-- Whether the document of a catalog has entries of exactly the given names. -/
def Config.Documents (c : Config) (names : List String) (w : World) : Prop :=
  ∃ bytes entries, w.files.read c.catalogPath = .ok bytes ∧
    Catalog.entriesOfBytes c.catalogPath bytes = .ok entries ∧ entries.keys = names

theorem Config.documents_of_read {c : Config} {w : World} (entries : CatalogEntries)
    (hread : w.files.read c.catalogPath = .ok (Text.encode entries.toText)) :
    c.Documents entries.keys w :=
  ⟨_, _, hread, Catalog.entriesOfBytes_encode _ _, rfl⟩

/-- A store for which the data file of the tally is the document of the catalog. -/
def selfSavingStore : Store := ⟨{ Config.standard with catalogFile := "default/tally.csv" }, 0⟩

/-- The directory of the ledger was opened twice, and the ledger was saved through the second store.
Saving the tally through the first one, which has not seen that, takes the entry of the ledger out
of the document. So does cleaning the tally if its data file is the document, and saving it when the
disk is full by the time the document is written. -/
theorem not_touchesOnly_stale :
    (∃ w w', (Operation.save { ledger with store := some ⟨.standard, 1⟩ }).run
        ((Store.load .standard).run ((Store.load .standard).run (World.ofFiles ⟨[], [], []⟩)).2).2 =
          (.ok (), w) ∧
      Config.standard.Documents ["default.ledger"] w ∧
      (Operation.save tally).run w = (.ok (), w') ∧
      Config.standard.Documents ["default.tally"] w') ∧
    (∃ w w', (Operation.save { ledger with store := some selfSavingStore }).run
        ((Store.load selfSavingStore.config).run (World.ofFiles ⟨[], [], []⟩)).2 = (.ok (), w) ∧
      selfSavingStore.config.Documents ["default.ledger"] w ∧
      (Operation.clean { tally with store := some selfSavingStore }).2.run w = (.ok (), w') ∧
      w'.files.read selfSavingStore.config.catalogPath = .ok []) ∧
    ∃ w', (Operation.save tally).run (Operation.fullAfter 2 (worldOf ledger)) =
          (.error (.storage (.cannotWrite Config.standard.catalogPath Operation.diskFull)), w') ∧
      Config.standard.Documents ["default.ledger"] (worldOf ledger) ∧
      w'.files.read Config.standard.catalogPath = .ok [] := by
  refine ⟨⟨_, _, Action.run_eq_of_fst ?_,
      Config.documents_of_read (.insert .empty "default.ledger" ledger.definition) ?_,
      Action.run_eq_of_fst ?_,
      Config.documents_of_read (.insert .empty "default.tally" tally.definition) ?_⟩,
    ⟨_, _, Action.run_eq_of_fst ?_,
      Config.documents_of_read (.insert .empty "default.ledger" ledger.definition) ?_,
      Action.run_eq_of_fst ?_, ?_⟩,
    _, Action.run_eq_of_fst ?_,
      Config.documents_of_read (.insert .empty "default.ledger" ledger.definition) ?_, ?_⟩ <;>
  decide +kernel

end FlatTables
