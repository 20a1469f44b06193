import FlatTables.Proofs.Catalog.WriteThrough
import FlatTables.Proofs.DataFile
import FlatTables.Proofs.DataFile.Writing
import FlatTables.Proofs.File.Change
import FlatTables.Proofs.Operation.Looking

set_option autoImplicit false

/-! # How operations on stored tables end

Saving, cleaning and dropping a table take several steps, and each of them can fail. `SaveEnds`,
`CleanEnds` and `DropEnds` list the ways in which the operations can end, with the result of each
and the world that it leaves behind. Every run ends in one of these ways (`saveEnds`, `cleanEnds`,
`dropEnds`), so that what is proved about a run is proved by a case for each way. Creating a table
changes no more than the directories on the way to its database (`grows_of_create`). -/

namespace FlatTables

/-! ## The directory of a database -/

namespace Store

variable {s : Store} {w w' : World} {name : String} {result : Except StorageError Path}

/-- Whether the directory at a path can be asked for again without a change to the files. -/
def Ready (files : FileTree) (path : Path) : Prop :=
  path.text = "" ∨ files.isDirectory path = true

theorem run_createDirectory (path : Path) (w : World) :
    (createDirectory path).run w =
      match w.files.createDirectories path with
      | (.ok (), files) => (.ok (), { w with files := files })
      | (.error e, files) =>
        (.error (.cannotCreate path e), { w with files := files }.report
          ⟨.error, (StorageError.cannotCreate path e).message⟩) := rfl

theorem run_database (s : Store) (name : String) (w : World) :
    (s.database name).run w =
      if w.files.isDirectory (s.config.databasePath name) then (.ok (s.config.databasePath name), w)
      else ((createDirectory (s.config.databasePath name) >>= fun _ =>
        Action.emit .debug ("create:path:" ++ (s.config.databasePath name).text) >>= fun _ =>
        pure (s.config.databasePath name) : Action StorageError Path)).run w := by
  unfold database
  simp only [Action.run_world_bind]
  split
  · rfl
  · rfl

/-- Asking for a database adds the directories on its way and changes nothing else, and afterwards
its directory is there. -/
theorem of_run_database {path : Path}
    (h : (s.database name).run w = (.ok path, w')) :
    path = s.config.databasePath name ∧ ∃ files events,
      w' = { w with files := files, events := events } ∧
        FileTree.Grows (FileTree.way w.files.here path) w.files files ∧ Ready files path := by
  rw [run_database] at h
  split at h
  · next hdir =>
      cases h
      exact ⟨rfl, _, _, rfl, .refl _ _, .inr hdir⟩
  · simp only [Action.run_bind_eq_ok_iff] at h
    obtain ⟨_, w₁, hcreate, _, w₂, hemit, h⟩ := h
    cases h
    cases hemit
    rw [run_createDirectory] at hcreate
    split at hcreate
    · next files hfiles =>
        cases hcreate
        exact ⟨rfl, _, _, rfl, FileTree.grows_of_createDirectories hfiles,
          (FileTree.extends_of_createDirectories hfiles).2⟩
    · cases hcreate

/-- A database that has its directory is there at once. -/
theorem exists_run_database (h : Ready w.files (s.config.databasePath name)) :
    ∃ events, (s.database name).run w =
      (.ok (s.config.databasePath name), { w with events := events }) := by
  rw [run_database]
  split
  · exact ⟨w.events, rfl⟩
  · next hdir =>
      obtain hempty : (s.config.databasePath name).text = "" := h.resolve_right hdir
      -- at the empty path there is nothing to make
      have hcreate : w.files.createDirectories (s.config.databasePath name) = (.ok (), w.files) :=
        if_pos hempty
      rw [Action.run_bind, run_createDirectory, hcreate]
      exact ⟨_, rfl⟩

/-- Asking for a database fails only if its directory cannot be made; the directories around it that
were made stay. -/
theorem of_run_database_error {e : StorageError}
    (h : (s.database name).run w = (.error e, w')) :
    ∃ cause files events,
      w.files.createDirectories (s.config.databasePath name) = (.error cause, files) ∧
      e = .cannotCreate (s.config.databasePath name) cause ∧
      w' = { w with files := files, events := events } := by
  rw [run_database] at h
  split at h
  · cases h
  · rw [Action.run_bind, run_createDirectory] at h
    cases hcreate : w.files.createDirectories (s.config.databasePath name) with
    | mk result files =>
        rw [hcreate] at h
        cases result with
        | ok _ => cases h
        | error cause =>
            cases h
            exact ⟨cause, files, _, rfl, rfl, rfl⟩

theorem exists_run_database_error {cause : FileError} {files : FileTree}
    (h : w.files.createDirectories (s.config.databasePath name) = (.error cause, files)) :
    ∃ events, (s.database name).run w =
      (.error (.cannotCreate (s.config.databasePath name) cause),
        { w with files := files, events := events }) := by
  rw [run_database]
  split
  · next hdir =>
      rw [FileTree.createDirectories_of_isDirectory hdir] at h
      cases h
  · rw [Action.run_bind, run_createDirectory, h]
    exact ⟨_, rfl⟩

/-- **Asking for a database adds directories** on the way to its own, whether it succeeds or
fails. -/
theorem grows_of_run_database (h : (s.database name).run w = (result, w')) :
    w'.opened = w.opened ∧ w'.catalogs = w.catalogs ∧
      FileTree.Grows (FileTree.way w.files.here (s.config.databasePath name)) w.files w'.files := by
  cases result with
  | error e =>
      obtain ⟨cause, files, events, hcreate, -, rfl⟩ := of_run_database_error h
      exact ⟨rfl, rfl, FileTree.grows_of_createDirectories hcreate⟩
  | ok path =>
      obtain ⟨rfl, files, events, rfl, hgrows, -⟩ := of_run_database h
      exact ⟨rfl, rfl, hgrows⟩

end Store

namespace Operation

/-- The entries that a catalog has once a table is entered. -/
def entriesWith (store : Store) (t : Table) (w : World) : CatalogEntries :=
  (store.catalogIn w).entries.insert t.id.fullName t.definition

/-- The entries that a catalog has once a table is taken out. -/
def entriesWithout (store : Store) (id : TableId) (w : World) : CatalogEntries :=
  (store.catalogIn w).entries.erase id.fullName

theorem contains_entriesWith (store : Store) (t : Table) (w : World) (path : Path) (id : TableId) :
    Catalog.contains ⟨path, entriesWith store t w⟩ id =
      if id.fullName = t.id.fullName then true else (store.catalogIn w).contains id := by
  unfold Catalog.contains Dictionary.contains
  rw [entriesWith, Dictionary.get?_insert]
  split <;> rfl

theorem contains_entriesWithout (store : Store) (id' : TableId) (w : World) (path : Path)
    (id : TableId) :
    Catalog.contains ⟨path, entriesWithout store id' w⟩ id =
      if id.fullName = id'.fullName then false else (store.catalogIn w).contains id := by
  unfold Catalog.contains Dictionary.contains
  rw [entriesWithout, Dictionary.get?_erase]
  split <;> rfl

/-! ## The ways to end -/

section

variable (t : Table) (store : Store) (w : World)

/-- How saving a table can end. -/
inductive SaveEnds : Except TableError Unit → World → Prop
  /-- The directory of the database cannot be made. -/
  | noDirectory {e : StorageError} (w₁ : World) (events : List Event)
      (hdatabase : (store.database t.id.database).run w = (.error e, w₁)) :
      SaveEnds (.error (.storage e)) { w₁ with events := events }
  /-- The data file cannot be opened. -/
  | notOpened {path : Path} {cause : FileError} (w₁ : World) (events : List Event)
      (hdatabase : (store.database t.id.database).run w = (.ok path, w₁))
      (hwrite : w₁.files.write (store.config.tablePath t.id) (DataFile.render t.rows).1 =
        .error cause) :
      SaveEnds (.error (.storage (.dataFile (store.config.tablePath t.id) (.file cause))))
        { w₁ with events := events }
  /-- The data file is opened, but not all rows are written to it. -/
  | notWritten {path : Path} {content : List UInt8} {e : StorageError} {files : FileTree}
      (w₁ : World) (events : List Event) (faults : List (Option Fault))
      (hdatabase : (store.database t.id.database).run w = (.ok path, w₁))
      (hremains :
        DataFile.Remains (store.config.tablePath t.id) t.rows w.faults content (.error e))
      (hwrite : w₁.files.write (store.config.tablePath t.id) content = .ok files) :
      SaveEnds (.error (.storage e)) { w₁ with files := files, events := events, faults := faults }
  /-- All rows are written, but the document of the catalog cannot be opened. -/
  | notEntered {path : Path} {cause : FileError} {files : FileTree} (w₁ : World)
      (events : List Event) (faults : List (Option Fault))
      (hdatabase : (store.database t.id.database).run w = (.ok path, w₁))
      (hwrite : w₁.files.write (store.config.tablePath t.id) (DataFile.render t.rows).1 = .ok files)
      (hwhole : (DataFile.render t.rows).2 = none)
      (hdocument : files.write (store.catalogIn w₁).path
        (Text.encode (entriesWith store t w₁).toText) = .error cause) :
      SaveEnds (.error (.storage (.cannotWrite (store.catalogIn w₁).path cause)))
        { w₁ with files := files, events := events, faults := faults }
  /-- All rows are written, but only the beginning of the document. -/
  | halfEntered {path : Path} {fault : Fault} {files files' : FileTree} (w₁ : World)
      (events : List Event) (faults : List (Option Fault))
      (hdatabase : (store.database t.id.database).run w = (.ok path, w₁))
      (hwrite : w₁.files.write (store.config.tablePath t.id) (DataFile.render t.rows).1 = .ok files)
      (hwhole : (DataFile.render t.rows).2 = none) (hfault : some fault ∈ w.faults)
      (hdocument : files.write (store.catalogIn w₁).path
        ((Text.encode (entriesWith store t w₁).toText).take fault.taken) = .ok files') :
      SaveEnds (.error (.storage (.cannotWrite (store.catalogIn w₁).path fault.cause)))
        { w₁ with files := files', events := events, faults := faults }
  | saved {path : Path} {files files' : FileTree} (w₁ : World) (events : List Event)
      (faults : List (Option Fault))
      (hdatabase : (store.database t.id.database).run w = (.ok path, w₁))
      (hwrite : w₁.files.write (store.config.tablePath t.id) (DataFile.render t.rows).1 = .ok files)
      (hdocument : files.write (store.catalogIn w₁).path
        (Text.encode (entriesWith store t w₁).toText) = .ok files') :
      SaveEnds (.ok ())
        ({ w₁ with files := files', events := events, faults := faults }.setCatalog store.catalog
          ⟨(store.catalogIn w₁).path, entriesWith store t w₁⟩)

/-- How cleaning the data file of a table can end. -/
inductive CleanEnds : Except TableError Unit → World → Prop
  | noDirectory {e : StorageError} (w₁ : World) (events : List Event)
      (hdatabase : (store.database t.id.database).run w = (.error e, w₁)) :
      CleanEnds (.error (.storage e)) { w₁ with events := events }
  | notOpened {path : Path} {cause : FileError} (w₁ : World) (events : List Event)
      (hdatabase : (store.database t.id.database).run w = (.ok path, w₁))
      (hwrite : w₁.files.write (store.config.tablePath t.id) [] = .error cause) :
      CleanEnds (.error (.storage (.cannotWrite (store.config.tablePath t.id) cause)))
        { w₁ with events := events }
  | cleaned {path : Path} {files : FileTree} (w₁ : World) (events : List Event)
      (hdatabase : (store.database t.id.database).run w = (.ok path, w₁))
      (hwrite : w₁.files.write (store.config.tablePath t.id) [] = .ok files) :
      CleanEnds (.ok ()) { w₁ with files := files, events := events }

/-- How dropping a table can end. -/
inductive DropEnds : Except TableError Unit → World → Prop
  /-- There is no data file, or no entry. -/
  | missing {part : SavedPart} (events : List Event)
      (hpart : missingPart? store t.id w = some part) :
      DropEnds (.error (.dropMissing t.id part)) { w with events := events }
  | notRemoved {cause : FileError} (events : List Event)
      (hparts : missingPart? store t.id w = none)
      (hremove : w.files.remove (store.config.tablePath t.id) = .error cause) :
      DropEnds (.error (.storage (.cannotRemove (store.config.tablePath t.id) cause)))
        { w with events := events }
  /-- The data file is removed, but the document of the catalog cannot be opened. -/
  | notTakenOut {cause : FileError} {files : FileTree} (events : List Event)
      (hparts : missingPart? store t.id w = none)
      (hremove : w.files.remove (store.config.tablePath t.id) = .ok files)
      (hdocument : files.write (store.catalogIn w).path
        (Text.encode (entriesWithout store t.id w).toText) = .error cause) :
      DropEnds (.error (.storage (.cannotWrite (store.catalogIn w).path cause)))
        { w with files := files, events := events }
  /-- The data file is removed, but only the beginning of the document is written. -/
  | halfTakenOut {fault : Fault} {files files' : FileTree} (events : List Event)
      (faults : List (Option Fault)) (hparts : missingPart? store t.id w = none)
      (hremove : w.files.remove (store.config.tablePath t.id) = .ok files)
      (hfault : some fault ∈ w.faults)
      (hdocument : files.write (store.catalogIn w).path
        ((Text.encode (entriesWithout store t.id w).toText).take fault.taken) = .ok files') :
      DropEnds (.error (.storage (.cannotWrite (store.catalogIn w).path fault.cause)))
        { w with files := files', events := events, faults := faults }
  | dropped {files files' : FileTree} (events : List Event) (faults : List (Option Fault))
      (hparts : missingPart? store t.id w = none)
      (hremove : w.files.remove (store.config.tablePath t.id) = .ok files)
      (hdocument : files.write (store.catalogIn w).path
        (Text.encode (entriesWithout store t.id w).toText) = .ok files') :
      DropEnds (.ok ())
        ({ w with files := files', events := events, faults := faults }.setCatalog store.catalog
          ⟨(store.catalogIn w).path, entriesWithout store t.id w⟩)

end

/-! ## Every run ends in one of them -/

variable {t : Table} {store : Store} {w w' : World} {result : Except TableError Unit}

theorem run_stored_bind {α β : Type} {x : Action StorageError α} {w w₁ : World} {a : α}
    (h : x.run w = (.ok a, w₁)) (f : α → Action TableError β) :
    (stored x >>= f).run w = (f a).run w₁ :=
  Action.run_bind_of_ok (Action.run_raise_eq_ok_iff.2 h) f

theorem exists_run_stored_bind {α β : Type} {x : Action StorageError α} {w w₁ : World}
    {e : StorageError} (h : x.run w = (.error e, w₁)) (f : α → Action TableError β) :
    ∃ events, (stored x >>= f).run w = (.error (.storage e), { w₁ with events := events }) := by
  obtain ⟨events, hraised⟩ := Action.exists_run_raise h TableError.message .storage
  exact ⟨events, Action.run_bind_of_error hraised f⟩

theorem exists_run_changeFiles {ε : Type} (message : ε → String) (wrap : FileError → ε)
    (f : FileTree → Except FileError FileTree) (w : World) :
    ∃ events, (Action.changeFiles message wrap f).run w =
      match f w.files with
      | .error cause => (.error (wrap cause), { w with events := events })
      | .ok files => (.ok (), { w with files := files, events := events }) := by
  simp only [Action.run, Action.changeFiles]
  cases f w.files with
  | error cause => exact ⟨_, rfl⟩
  | ok files => exact ⟨w.events, rfl⟩

theorem run_register_of_replaceEntries {replaced : Except StorageError Unit}
    (h : (store.replaceEntries (entriesWith store t w)).run w = (replaced, w')) :
    (store.register t.id t.schema).run w = (replaced, w') :=
  (store.run_register t.id t.schema w).trans h

theorem run_unregister_of_replaceEntries {id : TableId} {definition : TableDefinition}
    {replaced : Except StorageError Unit} (hfind : (store.catalogIn w).find? id = some definition)
    (h : (store.replaceEntries (entriesWithout store id w)).run w = (replaced, w')) :
    (store.unregister id).run w = (replaced.map fun _ => definition, w') := by
  rw [Store.run_unregister, hfind]
  unfold entriesWithout at h
  simp only [h]

theorem run_storeFor (hstore : t.store = some store) (action : StoredAction) (w : World) :
    (storeFor t action).run w = (.ok store, w) := by
  unfold storeFor
  rw [hstore]
  rfl

/-- A temporary table has no store to save it in or drop it from. -/
theorem run_storeFor_of_temporary (hstore : t.store = none) (action : StoredAction) (w : World) :
    (storeFor t action).run w = (.error (.temporary t.id action),
      w.report ⟨.error, (TableError.temporary t.id action).message⟩) := by
  unfold storeFor
  rw [hstore]
  rfl

/-- How saving ends once all rows are written: with the document of the catalog. -/
theorem saveEnds_of_written {path : Path} {w₁ : World} {files : FileTree} {events : List Event}
    {faults : List (Option Fault)} {message : String} (hfaults : faults ⊆ w.faults)
    (hdatabase : (store.database t.id.database).run w = (.ok path, w₁))
    (hwrite : w₁.files.write (store.config.tablePath t.id) (DataFile.render t.rows).1 = .ok files)
    (hwhole : (DataFile.render t.rows).2 = none)
    (h : (stored (store.register t.id t.schema) >>= fun _ => Action.emit .info message).run
      { w₁ with files := files, events := events, faults := faults } = (result, w')) :
    SaveEnds t store w result w' := by
  let w₂ : World := { w₁ with files := files, events := events, faults := faults }
  rcases hreplace : (store.replaceEntries (entriesWith store t w₂)).run w₂ with ⟨replaced, w₃⟩
  have hregister := run_register_of_replaceEntries hreplace
  cases Store.replaceEnds hreplace with
  | notOpened _ hdocument =>
      obtain ⟨events, hrun⟩ := exists_run_stored_bind hregister _
      rw [hrun] at h
      cases h
      exact .notEntered w₁ events faults hdatabase hwrite hwhole hdocument
  | cutShort _ faults hfault hdocument =>
      obtain ⟨events, hrun⟩ := exists_run_stored_bind hregister _
      rw [hrun] at h
      cases h
      exact .halfEntered w₁ events faults hdatabase hwrite hwhole (hfaults hfault) hdocument
  | replaced hdocument =>
      rw [run_stored_bind hregister] at h
      cases h
      exact .saved w₁ (_ :: events) _ hdatabase hwrite hdocument

/-- **How saving ends.** -/
theorem saveEnds (hstore : t.store = some store) (h : (save t).run w = (result, w')) :
    SaveEnds t store w result w' := by
  unfold save at h
  rw [Action.run_bind_of_ok (run_storeFor hstore .save w)] at h
  rcases hdatabase : (store.database t.id.database).run w with ⟨e | path, w₁⟩
  · obtain ⟨events, hrun⟩ := exists_run_stored_bind hdatabase _
    rw [hrun] at h
    cases h
    exact .noDirectory w₁ events hdatabase
  rw [run_stored_bind hdatabase] at h
  obtain ⟨rfl, files₁, events₁, hw₁, -⟩ := Store.of_run_database hdatabase
  have hfaults₁ : w₁.faults = w.faults := by rw [hw₁]
  change (stored (DataFile.writeRows (store.config.tablePath t.id) t.rows) >>= _).run w₁ = _ at h
  rcases hrows : (DataFile.writeRows (store.config.tablePath t.id) t.rows).run w₁ with ⟨e | _, w₂⟩
  · obtain ⟨events, hrun⟩ := exists_run_stored_bind hrows _
    rw [hrun] at h
    cases h
    cases DataFile.writeEnds hrows with
    | notOpened _ hwrite => exact .notOpened w₁ events hdatabase (hwrite _)
    | opened _ hfaults hremains hwrite =>
        exact .notWritten w₁ events _ hdatabase (hfaults₁ ▸ hremains) hwrite
  · rw [run_stored_bind hrows] at h
    cases DataFile.writeEnds hrows with
    | opened _ hfaults hremains hwrite =>
        cases hremains with
        | whole hwhole =>
            exact saveEnds_of_written (hfaults₁ ▸ hfaults) hdatabase hwrite hwhole h

/-- **How cleaning ends.** -/
theorem cleanEnds (hstore : t.store = some store) (h : (clean t).2.run w = (result, w')) :
    CleanEnds t store w result w' := by
  simp only [clean, cleanFile, hstore] at h
  rcases hdatabase : (store.database t.id.database).run w with ⟨e | path, w₁⟩
  · obtain ⟨events, hrun⟩ := exists_run_stored_bind (Action.run_bind_of_error hdatabase _) _
    rw [hrun] at h
    cases h
    exact .noDirectory w₁ events hdatabase
  obtain ⟨rfl, -⟩ := Store.of_run_database hdatabase
  have hbody := Action.run_bind_of_ok hdatabase fun location =>
    DataFile.truncate (location.join (Config.dataFileName t.id.name))
  obtain ⟨events₁, htruncate⟩ := exists_run_changeFiles StorageError.message
    (.cannotWrite (store.config.tablePath t.id)) (·.write (store.config.tablePath t.id) []) w₁
  cases hwrite : w₁.files.write (store.config.tablePath t.id) [] with
  | error cause =>
      simp only [hwrite] at htruncate
      obtain ⟨events, hrun⟩ := exists_run_stored_bind (hbody.trans htruncate) _
      rw [hrun] at h
      cases h
      exact .notOpened w₁ events hdatabase hwrite
  | ok files =>
      simp only [hwrite] at htruncate
      rw [run_stored_bind (hbody.trans htruncate)] at h
      cases h
      exact .cleaned w₁ _ hdatabase hwrite

/-- A table of which no part is missing has an entry. -/
theorem exists_find?_of_missingPart?_eq_none {id : TableId}
    (h : missingPart? store id w = none) :
    ∃ definition, (store.catalogIn w).find? id = some definition := by
  unfold missingPart? at h
  split at h
  · cases h
  · split at h
    · cases h
    · next hentry =>
        simp only [Bool.not_eq_true', Bool.not_eq_false] at hentry
        exact Option.isSome_iff_exists.1 hentry

/-- How dropping ends once the data file is removed: with the document of the catalog. -/
theorem dropEnds_of_removed {files : FileTree} {events : List Event} {message : String}
    (hparts : missingPart? store t.id w = none)
    (hremove : w.files.remove (store.config.tablePath t.id) = .ok files)
    (h : (stored (store.unregister t.id) >>= fun _ => Action.emit .info message).run
      { w with files := files, events := events } = (result, w')) :
    DropEnds t store w result w' := by
  obtain ⟨definition, hfind⟩ := exists_find?_of_missingPart?_eq_none hparts
  let w₁ : World := { w with files := files, events := events }
  rcases hreplace : (store.replaceEntries (entriesWithout store t.id w₁)).run w₁ with ⟨replaced, w₂⟩
  have hunregister := run_unregister_of_replaceEntries (w := w₁) hfind hreplace
  cases Store.replaceEnds hreplace with
  | notOpened _ hdocument =>
      obtain ⟨events, hrun⟩ := exists_run_stored_bind hunregister _
      rw [hrun] at h
      cases h
      exact .notTakenOut events hparts hremove hdocument
  | cutShort _ faults hfault hdocument =>
      obtain ⟨events, hrun⟩ := exists_run_stored_bind hunregister _
      rw [hrun] at h
      cases h
      exact .halfTakenOut events faults hparts hremove hfault hdocument
  | replaced hdocument =>
      rw [run_stored_bind hunregister] at h
      cases h
      exact .dropped (_ :: events) _ hparts hremove hdocument

/-- **How dropping ends.** -/
theorem dropEnds (hstore : t.store = some store) (h : (drop t).run w = (result, w')) :
    DropEnds t store w result w' := by
  unfold drop at h
  rw [Action.run_bind_of_ok (run_storeFor hstore .drop w), Action.run_world_bind] at h
  cases hparts : missingPart? store t.id w with
  | some part =>
      rw [hparts] at h
      cases h
      exact .missing _ hparts
  | none =>
      simp only [hparts, DataFile.remove] at h
      obtain ⟨events, hfile⟩ := exists_run_changeFiles StorageError.message
        (.cannotRemove (store.config.tablePath t.id)) (·.remove (store.config.tablePath t.id)) w
      cases hremove : w.files.remove (store.config.tablePath t.id) with
      | error cause =>
          simp only [hremove] at hfile
          obtain ⟨events, hrun⟩ := exists_run_stored_bind hfile _
          rw [hrun] at h
          cases h
          exact .notRemoved events hparts hremove
      | ok files =>
          simp only [hremove] at hfile
          rw [run_stored_bind hfile] at h
          exact dropEnds_of_removed hparts hremove h

/-! ## Creating -/

section

variable {text : String} {schema? : Option Schema} {rows? : Option (List Row)} {path : Path}
  {w₁ : World}

/-- What is created depends on the world in which the database has its directory. -/
theorem fst_run_create (h : (store.database (store.config.resolve text).database).run w =
    (.ok path, w₁)) :
    ((create store text schema? rows?).run w).1 =
      ((findRows store (store.config.resolve text)
        (store.config.tablePath (store.config.resolve text)) schema? rows? >>=
          bindRows store (store.config.resolve text)).run w₁).1 := by
  obtain ⟨rfl, -⟩ := Store.of_run_database h
  rw [create_eq, run_stored_bind h]
  rfl

theorem fst_run_create_of_error {e : StorageError}
    (h : (store.database (store.config.resolve text).database).run w = (.error e, w₁)) :
    ((create store text schema? rows?).run w).1 = .error (.storage e) := by
  obtain ⟨events, hrun⟩ := exists_run_stored_bind h _
  rw [create_eq, hrun]

/-- **Creating a table adds directories** on the way to its database, and changes nothing else. -/
theorem grows_of_create {result : Except TableError Table}
    (h : (create store text schema? rows?).run w = (result, w')) :
    w'.opened = w.opened ∧ w'.catalogs = w.catalogs ∧
      FileTree.Grows (FileTree.way w.files.here
        (store.config.databasePath (store.config.resolve text).database)) w.files w'.files := by
  rw [create_eq] at h
  rcases hdatabase : (store.database (store.config.resolve text).database).run w with ⟨e | path, w₁⟩
  · have hgrows := Store.grows_of_run_database hdatabase
    obtain ⟨events, hrun⟩ := exists_run_stored_bind hdatabase _
    rw [hrun] at h
    cases h
    exact hgrows
  · have hgrows := Store.grows_of_run_database hdatabase
    rw [run_stored_bind hdatabase] at h
    obtain ⟨events, hworld⟩ := (onlyLooks_findRows_bindRows store _ _ schema? rows?).exists_events w₁
    rw [h] at hworld
    cases hworld
    exact hgrows

theorem fst_run_readRows (path : Path) (schema : Schema) (w : World) :
    ((DataFile.readRows path schema).run w).1 = DataFile.read w.files path schema := by
  unfold DataFile.readRows
  rw [Action.run_world_bind]
  cases DataFile.read w.files path schema <;> rfl

/-- What is found of a table whose data file exists: the columns of its entry, and with them the rows
that are given, or else those of the file. -/
theorem fst_run_loadSaved (store : Store) (id : TableId) (path : Path) (rows? : Option (List Row))
    (w : World) : ((loadSaved store id path rows?).run w).1 =
      match (store.catalogIn w).find? id, rows? with
      | none, _ => .error (.storage (.tableNotFound id.fullName))
      | some definition, some rows => .ok (definition.columns, rows)
      | some definition, none =>
        ((DataFile.read w.files path definition.columns).mapError .storage).map
          (definition.columns, ·) := by
  unfold loadSaved
  rw [Action.run_bind, Action.run_mapError, Store.run_columns]
  cases (store.catalogIn w).find? id with
  | none => rfl
  | some definition =>
      cases rows? with
      | some rows => rfl
      | none =>
          simp only [mapError_ok, Store.run_bind_pure, stored, Action.fst_run_raise,
            fst_run_readRows]

/-- A saved table is missing from the catalog only if it has no entry. -/
theorem contains_of_loadSaved {id : TableId} {name : String}
    (h : ((loadSaved store id path rows?).run w).1 = .error (.storage (.tableNotFound name))) :
    (store.catalogIn w).contains id = false := by
  rw [fst_run_loadSaved] at h
  cases hfind : (store.catalogIn w).find? id with
  | none => exact Option.isSome_eq_false_iff.2 (Option.isNone_iff_eq_none.2 hfind)
  | some definition =>
      rw [hfind] at h
      cases rows? with
      | some rows => cases h
      -- what goes wrong with the rows is reported with the path of the data file
      | none =>
          obtain ⟨e, hread, heq⟩ := mapError_eq_error_iff.1 (map_eq_error_iff.1 h)
          cases DataFile.inFile_of_read hread <;> cases heq

theorem contains_of_findRows_bindRows {id : TableId} {name : String}
    (h : ((findRows store id path schema? rows? >>= bindRows store id).run w).1 =
      .error (.storage (.tableNotFound name))) :
    w.files.contains path = true ∧ (store.catalogIn w).contains id = false := by
  rcases Action.fst_run_bind_eq_error_iff.1 h with h | ⟨⟨schema, rows⟩, w₁, -, h⟩
  · rw [findRows, Action.run_world_bind] at h
    split at h
    · next hcontains => exact ⟨hcontains, contains_of_loadSaved h⟩
    · cases schema? <;> cases h
  · rw [fst_run_bindRows, map_eq_error_iff] at h
    obtain ⟨cause, h⟩ := exists_of_coerceRows_error h
    cases h

end

end Operation

end FlatTables
