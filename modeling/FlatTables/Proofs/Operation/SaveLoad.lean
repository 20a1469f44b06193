import FlatTables.Proofs.Operation.Stored
import FlatTables.Proofs.Store.Open
import FlatTables.Proofs.Table.WellFormed

set_option autoImplicit false

/-! # Saving and loading a table

A table that was saved is loaded again as it was, through a store that is opened anew
(`load_of_save`). `Table.SavedIn` says what saving leaves in the files: the directory of the
database, the rows in the data file and the columns in the document of the catalog. Saving
establishes it, as long as the data file is not that document itself, and loading needs nothing
else: it gives the columns that were saved and what comes back of the rows, or fails if they do not
come back (`exists_run_load`). -/

namespace FlatTables

/-! ## Saving -/

/-- Whether the files hold all that is needed to load a table. -/
structure Table.SavedIn (t : Table) (config : Config) (files : FileTree) : Prop where
  database : Store.Ready files (config.databasePath t.id.database)
  rows : files.read (config.tablePath t.id) = .ok (DataFile.render t.rows).1
  definition : ∃ bytes entries, files.read config.catalogPath = .ok bytes ∧
    Catalog.entriesOfBytes config.catalogPath bytes = .ok entries ∧
    entries.get? t.id.fullName = some t.definition

namespace Operation

variable {t : Table} {store : Store} {w w' : World}

/-- A table that was saved has its columns in the catalog. -/
theorem find?_of_save (hstore : t.store = some store) (hsave : (save t).run w = (.ok (), w')) :
    (store.catalogIn w').find? t.id = some t.definition := by
  cases saveEnds hstore hsave with
  | saved w₁ events faults hdatabase hwrite hdocument =>
      rw [Store.catalogIn_setCatalog, Catalog.find?, entriesWith, Dictionary.get?_insert, if_pos rfl]

/-- **Saving a table leaves all that is needed to load it**, unless its data file is the document of
the catalog. -/
theorem savedIn_of_save (hstore : t.store = some store) (hopen : store.OpenIn w)
    (hsave : (save t).run w = (.ok (), w'))
    (hother : w'.files.locate (store.config.tablePath t.id) ≠
      w'.files.locate store.config.catalogPath) : t.SavedIn store.config w'.files := by
  cases saveEnds hstore hsave with
  | saved w₁ events faults hdatabase hwrite hdocument =>
      obtain ⟨rfl, files, events₁, rfl, -, hready⟩ := Store.of_run_database hdatabase
      -- neither the directory nor the data file touches a catalog in memory
      have hcatalog : (store.catalogIn { w with files := files, events := events₁ }).path =
        store.config.catalogPath := hopen.path
      rw [hcatalog] at hdocument
      have hextends :=
        (FileTree.extends_of_write hwrite).trans (FileTree.extends_of_write hdocument)
      -- the document is written last, and leaves directories and the data file as they are
      refine ⟨hready.imp_right hextends.isDirectory, ?_, ?_⟩
      · exact FileTree.read_of_write_of_ne hdocument (FileTree.read_of_write hwrite) hother
      · refine ⟨_, _, FileTree.read_of_write hdocument, Catalog.entriesOfBytes_encode _ _, ?_⟩
        rw [entriesWith, Dictionary.get?_insert, if_pos rfl]

/-! ## Loading -/

/-- A store that is opened where a table was saved knows its columns. -/
theorem exists_store_of_savedIn {config : Config} (hsaved : t.SavedIn config w.files) :
    ∃ store w', (Store.load config).run w = (.ok store, w') ∧ store.config = config ∧
      w'.files = w.files ∧ (store.catalogIn w').find? t.id = some t.definition := by
  obtain ⟨bytes, entries, hread, hentries, hdefinition⟩ := hsaved.definition
  refine ⟨_, _, Store.run_load (Catalog.run_load_of_read hread hentries), rfl, rfl, ?_⟩
  have hcatalog := Store.catalogIn_setCatalog ⟨config, w.opened⟩
    (w.report ⟨.debug, "loaded catalog " ++ config.catalogPath.text⟩) ⟨config.catalogPath, entries⟩
  exact (congrArg (Catalog.find? · t.id) hcatalog).trans hdefinition

/-- Rows are read as the content of the file says. -/
theorem exists_run_readRows {path : Path} {content : List UInt8}
    (hread : w.files.read path = .ok content) (schema : Schema) :
    ∃ events, (DataFile.readRows path schema).run w =
      (DataFile.parse path schema content, { w with events := events }) := by
  unfold DataFile.readRows
  rw [Action.run_world_bind, DataFile.read, hread]
  cases hparse : DataFile.parse path schema content with
  | error e =>
      simp only [hparse]
      exact ⟨_, rfl⟩
  | ok rows =>
      simp only [hparse]
      exact ⟨_, rfl⟩

/-- The columns of a saved table are those of the catalog, and its rows those of the data file. -/
theorem exists_run_findRows {id : TableId} {path : Path} {content : List UInt8}
    {definition : TableDefinition} (hdefinition : (store.catalogIn w).find? id = some definition)
    (hread : w.files.read path = .ok content) :
    ∃ events, (findRows store id path none none).run w =
      (((DataFile.parse path definition.columns content).mapError .storage).map fun rows =>
        (definition.columns, rows), { w with events := events }) := by
  have hcontains : w.files.contains path = true := by
    unfold FileTree.contains
    rw [FileTree.read_eq_ok_iff.1 hread]
  have hcolumns : (store.columns id).run w = (.ok definition.columns, w) := by
    rw [Store.run_columns, hdefinition]
  obtain ⟨events, hrows⟩ := exists_run_readRows hread definition.columns
  unfold findRows
  rw [Action.run_world_bind, if_pos hcontains, loadSaved, Action.run_bind,
    Action.run_mapError, hcolumns]
  change ∃ events, (stored (DataFile.readRows path definition.columns) >>= fun rows =>
    pure (definition.columns, rows)).run w = (_, { w with events := events })
  obtain ⟨events, hraised⟩ := Action.exists_run_raise hrows TableError.message .storage
  rw [Action.run_bind, stored, hraised]
  cases DataFile.parse path definition.columns content with
  | error e => exact ⟨_, rfl⟩
  | ok rows => exact ⟨_, rfl⟩

theorem run_bindRows (store : Store) (id : TableId) (w : World) {schema : Schema}
    {rows : List Row} (hfits : ∀ row ∈ rows, Row.Fits schema.types row) :
    ∃ events, (bindRows store id (schema, rows)).run w =
      (.ok ⟨id, schema, rows, some store⟩, { w with events := events }) := by
  unfold bindRows
  rw [Table.coerceRows_of_fits hfits]
  exact ⟨_, rfl⟩

/-- The table whose data file has the given content and whose entry is `definition`. -/
def tableFrom (store : Store) (id : TableId) (definition : TableDefinition)
    (content : List UInt8) : Except TableError Table :=
  ((DataFile.parse (store.config.tablePath id) definition.columns content).mapError .storage).map
    fun rows => ⟨id, definition.columns, rows, some store⟩

/-- What is loaded of a table in a world in which its database has just been asked for. -/
theorem exists_run_load_of_database {text : String} {id : TableId} {path : Path} {w₁ : World}
    {content : List UInt8} {definition : TableDefinition} (hid : store.config.resolve text = id)
    (hdatabase : (store.database id.database).run w = (.ok path, w₁))
    (hread : w₁.files.read (store.config.tablePath id) = .ok content)
    (hdefinition : (store.catalogIn w₁).find? id = some definition) :
    ∃ events, (load store text).run w =
      (tableFrom store id definition content, { w₁ with events := events }) := by
  unfold load tableFrom
  rw [create_eq, hid]
  obtain ⟨rfl, -⟩ := Store.of_run_database hdatabase
  obtain ⟨events₁, hfound⟩ := exists_run_findRows hdefinition hread
  rw [run_stored_bind hdatabase]
  change ∃ events, (findRows store id (store.config.tablePath id) none none >>= _).run w₁ =
    (_, { w₁ with events := events })
  rw [Action.run_bind, hfound]
  cases hparse : DataFile.parse (store.config.tablePath id) definition.columns content with
  | error e => exact ⟨_, rfl⟩
  | ok rows =>
      obtain ⟨events₂, hbound⟩ :=
        run_bindRows store id { w₁ with events := events₁ } (DataFile.fits_of_parse hparse)
      exact ⟨events₂, hbound⟩

/-- **What is loaded of a table whose data file and entry are there**: the columns of the entry, and
the rows that the file holds by them. Nothing else changes. -/
theorem exists_run_load_of_read {text : String} {id : TableId} {content : List UInt8}
    {definition : TableDefinition} (hid : store.config.resolve text = id)
    (hready : Store.Ready w.files (store.config.databasePath id.database))
    (hread : w.files.read (store.config.tablePath id) = .ok content)
    (hdefinition : (store.catalogIn w).find? id = some definition) :
    ∃ events, (load store text).run w =
      (tableFrom store id definition content, { w with events := events }) := by
  obtain ⟨_, hdatabase⟩ := Store.exists_run_database hready
  obtain ⟨events, hload⟩ := exists_run_load_of_database hid hdatabase hread hdefinition
  exact ⟨events, hload⟩

/-- **What is loaded of a table that was saved**, through any store whose catalog has its entry:
its columns, and what comes back of its rows. Nothing else changes. -/
theorem exists_run_load {id : String} (hid : store.config.resolve id = t.id)
    (hsaved : t.SavedIn store.config w.files)
    (hdefinition : (store.catalogIn w).find? t.id = some t.definition) :
    ∃ events, (load store id).run w =
      (((DataFile.parse (store.config.tablePath t.id) t.schema
        (DataFile.render t.rows).1).mapError .storage).map fun rows =>
          { t with rows := rows, store := some store }, { w with events := events }) :=
  exists_run_load_of_read hid hsaved.database hsaved.rows hdefinition

/-- **A table that was saved is loaded as it was**, through any store whose catalog has its entry. -/
theorem exists_run_load_of_savedIn {id : String} (hid : store.config.resolve id = t.id)
    (hwidth : 0 < t.schema.width) (hfits : ∀ row ∈ t.rows, Row.Fits t.schema.types row)
    (hreads : ∀ row ∈ t.rows, ∀ cell ∈ row, cell.ReadsBack)
    (hmark : ¬ Delimited.byteOrderMark <+: (DataFile.render t.rows).1)
    (hsaved : t.SavedIn store.config w.files)
    (hdefinition : (store.catalogIn w).find? t.id = some t.definition) :
    ∃ w', (load store id).run w = (.ok { t with store := some store }, w') := by
  obtain ⟨events, hload⟩ := exists_run_load hid hsaved hdefinition
  rw [DataFile.parse_render (store.config.tablePath t.id) hwidth hfits hreads hmark] at hload
  exact ⟨_, hload⟩

/-- **Saving and loading undo each other.** -/
theorem load_of_save (hstore : t.store = some store) (hopen : store.OpenIn w)
    (hwidth : 0 < t.schema.width) (hfits : ∀ row ∈ t.rows, Row.Fits t.schema.types row)
    (hreads : ∀ row ∈ t.rows, ∀ cell ∈ row, cell.ReadsBack)
    (hmark : ¬ Delimited.byteOrderMark <+: (DataFile.render t.rows).1)
    (hsave : (save t).run w = (.ok (), w'))
    (hother : w'.files.locate (store.config.tablePath t.id) ≠
      w'.files.locate store.config.catalogPath) :
    ∃ store' w₁, (Store.load store.config).run w' = (.ok store', w₁) ∧
      ∀ id, store.config.resolve id = t.id →
        ∃ w₂, (load store' id).run w₁ = (.ok { t with store := some store' }, w₂) := by
  have hsaved := savedIn_of_save hstore hopen hsave hother
  obtain ⟨store', w₁, hload, hconfig, hfiles, hdefinition⟩ := exists_store_of_savedIn hsaved
  -- what was saved is still in the files after the store was opened
  refine ⟨store', w₁, hload, fun id hid => ?_⟩
  rw [← hconfig] at hid hsaved
  rw [← hfiles] at hsaved
  exact exists_run_load_of_savedIn hid hwidth hfits hreads hmark hsaved hdefinition

/-- A table with names, texts and numbers that have to be written with care. -/
def notes (store : Store) : Table where
  id := ⟨"default", "notes"⟩
  schema := ⟨[⟨"écrit par", .text⟩, ⟨"says; \"what\"", .text⟩, ⟨"weight", .float⟩], by decide⟩
  rows := [[.text " Ada ", .text "a;b\r\n\"c\"", .float ⟨false, 0x3fb999999999999a, by decide⟩],
    [.null, .null, .float (Binary64.infinity true)]]
  store := some store

/-- The notes are saved and loaded under their short name. -/
theorem load_of_save_notes : ∃ store w w' store' w₁ w₂,
    (Store.load .standard).run (World.ofFiles ⟨[], [], []⟩) = (.ok store, w) ∧
      (save (notes store)).run w = (.ok (), w') ∧
      (Store.load .standard).run w' = (.ok store', w₁) ∧
      (load store' "notes").run w₁ = (.ok (notes store'), w₂) := by
  let store : Store := ⟨.standard, 0⟩
  have hload := Action.run_eq_of_fst (x := Store.load .standard) (w := World.ofFiles ⟨[], [], []⟩)
    (r := .ok store) (by decide +kernel)
  have hsave := Action.run_eq_of_fst (x := save (notes store))
    (w := ((Store.load .standard).run (World.ofFiles ⟨[], [], []⟩)).2) (r := .ok ())
    (by decide +kernel)
  have hother : ((save (notes store)).run
      ((Store.load .standard).run (World.ofFiles ⟨[], [], []⟩)).2).2.files.locate
        (store.config.tablePath (notes store).id) ≠
      ((save (notes store)).run
        ((Store.load .standard).run (World.ofFiles ⟨[], [], []⟩)).2).2.files.locate
          store.config.catalogPath := by
    decide +kernel
  have hfits : ∀ row ∈ (notes store).rows, Row.Fits (notes store).schema.types row := by
    intro row hrow
    rcases List.mem_cons.1 hrow with rfl | hrow
    · exact .cons (.inr rfl) (.cons (.inr rfl) (.cons (.inr rfl) .nil))
    · rw [List.mem_singleton.1 hrow]
      exact .cons (.inl rfl) (.cons (.inl rfl) (.cons (.inr rfl) .nil))
  have hreads : ∀ row ∈ (notes store).rows, ∀ cell ∈ row, cell.ReadsBack := by
    change ∀ row ∈ (notes ⟨.standard, 0⟩).rows, ∀ cell ∈ row, cell.ReadsBack
    decide
  have hmark : ¬ Delimited.byteOrderMark <+: (DataFile.render (notes store).rows).1 := by
    obtain ⟨rest, hrest⟩ : ∃ rest, (DataFile.render (notes store).rows).1 = 32 :: rest := ⟨_, rfl⟩
    rw [hrest]
    intro h
    exact absurd (List.cons_prefix_cons.1 h).1 (by decide)
  obtain ⟨store', w₁, hopen, hall⟩ := load_of_save rfl (Store.openIn_of_load hload)
    (by change 0 < 3; decide) hfits hreads hmark hsave hother
  obtain ⟨w₂, hloaded⟩ := hall "notes" rfl
  exact ⟨store, _, _, store', w₁, w₂, hload, hsave, hopen, hloaded⟩

end Operation

end FlatTables
