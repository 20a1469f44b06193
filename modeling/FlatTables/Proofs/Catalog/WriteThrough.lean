import FlatTables.Proofs.Catalog.Document
import FlatTables.Proofs.Dictionary
import FlatTables.Proofs.File.Writing

set_option autoImplicit false

/-! # The catalog is written through

After every call on the catalog of a store, whether it succeeded or not, the document of the catalog
holds exactly the entries that the store has in memory, as long as nobody else writes the document.
`Store.Synced` says so of one world. Opening a store establishes it (`synced_of_load`), each call
keeps it (`Synced.call`), and so does everything that other programs do elsewhere.

A store is therefore as good as one that is opened anew: the two agree on the entries and see the
same files, and every call keeps them so (`Alike.call`). -/

namespace FlatTables

/-! ## Calls on a catalog -/

/-- A call on the catalog of a store. -/
inductive CatalogCall
  | set (id : TableId) (columns : Schema)
  | delete (id : TableId)
  | definition (id : TableId)
  | contains (id : TableId)
  | ids

/-- What a call on a catalog gives. -/
inductive CatalogAnswer
  | done
  | definition (definition : TableDefinition)
  | known (known : Bool)
  | ids (ids : List String)
  deriving DecidableEq

/-- The action of a call on the catalog of a store. -/
def CatalogCall.action (s : Store) : CatalogCall → Action StorageError CatalogAnswer
  | .set id columns => do
    s.register id columns
    return .done
  | .delete id => do return .definition (← s.unregister id)
  | .definition id => do return .definition (← s.definition id)
  | .contains id => do return .known ((s.catalogIn (← Action.world)).contains id)
  | .ids => do return .ids (s.catalogIn (← Action.world)).entries.keys

/-- A step of a run: a call on the catalog, or whatever other programs do to the files. -/
inductive CatalogMove
  | call (call : CatalogCall)
  | others (change : FileTree → FileTree)

/-- Whether other programs leave the file at a path as it is. -/
def CatalogMove.Spares (path : Path) : CatalogMove → Prop
  | .call _ => True
  | .others change => ∀ files, (change files).read path = files.read path

/-- What the calls of a run answer, and the world after it. -/
def Store.runMoves (s : Store) :
    List CatalogMove → World → List (Except StorageError CatalogAnswer) × World
  | [], w => ([], w)
  | .call call :: rest, w =>
    let (answer, w') := (call.action s).run w
    let (answers, w'') := s.runMoves rest w'
    (answer :: answers, w'')
  | .others change :: rest, w => s.runMoves rest { w with files := change w.files }

/-- Whether an action succeeds, or fails and leaves the document of the catalog as it was. -/
def Store.Whole {α : Type} (s : Store) (x : Action StorageError α) (w : World) : Prop :=
  (∃ a, (x.run w).1 = .ok a) ∨
    (x.run w).2.files.read s.config.catalogPath = w.files.read s.config.catalogPath

/-- Whether every call of a run succeeds, or fails and leaves the document as it was. -/
def Store.WholeMoves (s : Store) : List CatalogMove → World → Prop
  | [], _ => True
  | .call call :: rest, w =>
    s.Whole (call.action s) w ∧ s.WholeMoves rest ((call.action s).run w).2
  | .others change :: rest, w => s.WholeMoves rest { w with files := change w.files }

/-! ## What the document holds -/

/-- Whether the document of a store's catalog holds exactly the entries in memory. -/
structure Store.Synced (s : Store) (w : World) : Prop where
  path : (s.catalogIn w).path = s.config.catalogPath
  document : ∃ bytes, w.files.read s.config.catalogPath = .ok bytes ∧
    Catalog.entriesOfBytes s.config.catalogPath bytes = .ok (s.catalogIn w).entries

theorem Catalog.run_write (catalog : Catalog) (w : World) :
    let bytes := Text.encode catalog.entries.toText
    catalog.write.run w =
      match w.files.write catalog.path (Fault.kept (w.fault? bytes) bytes) with
      | .error e =>
        (.error (.cannotWrite catalog.path e),
          w.report ⟨.error, (StorageError.cannotWrite catalog.path e).message⟩)
      | .ok files =>
        let w' := { w with files := files, faults := w.laterFaults bytes }
        match w.fault? bytes with
        | none => (.ok (), w')
        | some fault =>
          (.error (.cannotWrite catalog.path fault.cause),
            w'.report ⟨.error, (StorageError.cannotWrite catalog.path fault.cause).message⟩) :=
  Action.run_writeFile _ _ _ _ _

/-- Writing a document leaves the catalogs in memory. -/
theorem Catalog.catalogs_of_write (catalog : Catalog) (w : World) :
    (catalog.write.run w).2.catalogs = w.catalogs := by
  rw [run_write]
  cases w.files.write catalog.path _ with
  | error e => rfl
  | ok files => cases w.fault? (Text.encode catalog.entries.toText) <;> rfl

/-- Writing a document does not look at the catalogs in memory. -/
theorem Catalog.run_write_changeEntries (catalog : Catalog) (s : Store)
    (change : CatalogEntries → CatalogEntries) (w : World) :
    catalog.write.run (s.changeEntries change w) =
      ((catalog.write.run w).1, s.changeEntries change (catalog.write.run w).2) := by
  have hfiles : (s.changeEntries change w).files = w.files := rfl
  have hfault : ∀ bytes, (s.changeEntries change w).fault? bytes = w.fault? bytes := fun _ => rfl
  rw [run_write, run_write, hfiles]
  simp only [hfault]
  cases w.files.write catalog.path _ with
  | error e => rfl
  | ok files => cases w.fault? (Text.encode catalog.entries.toText) <;> rfl

/-- A catalog that was written is found in its document. -/
theorem Catalog.document_of_write {catalog : Catalog} {w w' : World}
    (h : catalog.write.run w = (.ok (), w')) : ∃ bytes, w'.files.read catalog.path = .ok bytes ∧
      entriesOfBytes catalog.path bytes = .ok catalog.entries := by
  rw [run_write] at h
  split at h
  · cases h
  · next files hfiles =>
      cases hfault : w.fault? (Text.encode catalog.entries.toText) with
      | some fault =>
          rw [hfault] at h
          cases h
      | none =>
          rw [hfault] at h hfiles
          cases h
          exact ⟨_, FileTree.read_of_write hfiles, entriesOfBytes_encode _ _⟩

/-- The directory in which a new document stands. -/
def Catalog.prepare (path : Path) : Action StorageError Unit :=
  match path.parent? with
  | some dir => if dir.text = "" then pure () else createDirectory dir
  | none => pure ()

theorem Catalog.create_eq (path : Path) :
    Catalog.create path = (do
      Action.emit .info ("creating new catalog in " ++ path.text)
      Catalog.prepare path
      Catalog.write ⟨path, .empty⟩
      return ⟨path, .empty⟩) := by
  unfold Catalog.create Catalog.prepare
  refine bind_congr ?_
  intro _
  cases path.parent? with
  | none => rfl
  | some dir =>
      by_cases hdir : dir.text = ""
      · simp only [hdir, if_true]
        rfl
      · simp only [hdir, if_false]

theorem Catalog.document_of_create {path : Path} {catalog : Catalog} {w w' : World}
    (h : (Catalog.create path).run w = (.ok catalog, w')) :
    catalog.path = path ∧ ∃ bytes, w'.files.read path = .ok bytes ∧
      entriesOfBytes path bytes = .ok catalog.entries := by
  rw [create_eq] at h
  simp only [Action.run_bind_eq_ok_iff] at h
  obtain ⟨_, w₁, -, _, w₂, -, _, w₃, hwrite, h⟩ := h
  cases h
  have hdocument := document_of_write hwrite
  exact ⟨rfl, hdocument⟩

theorem Catalog.run_load_of_read {path : Path} {bytes : List UInt8} {entries : CatalogEntries}
    {w : World} (hread : w.files.read path = .ok bytes)
    (hentries : entriesOfBytes path bytes = .ok entries) :
    (Catalog.load path).run w =
      (.ok ⟨path, entries⟩, w.report ⟨.debug, "loaded catalog " ++ path.text⟩) := by
  unfold Catalog.load
  rw [Action.run_world_bind]
  simp only [hread, hentries]
  rfl

/-- A catalog that was loaded is found in its document, whether it was read or created. -/
theorem Catalog.document_of_load {path : Path} {catalog : Catalog} {w w' : World}
    (h : (Catalog.load path).run w = (.ok catalog, w')) :
    catalog.path = path ∧ ∃ bytes, w'.files.read path = .ok bytes ∧
      entriesOfBytes path bytes = .ok catalog.entries := by
  unfold Catalog.load at h
  rw [Action.run_world_bind] at h
  cases hread : w.files.read path with
  | error cause =>
      simp only [hread] at h
      cases cause with
      | notFound => exact document_of_create h
      | _ => cases h
  | ok bytes =>
      simp only [hread] at h
      cases hentries : entriesOfBytes path bytes with
      | error cause =>
          rw [hentries] at h
          cases h
      | ok entries =>
          rw [hentries] at h
          cases h
          exact ⟨rfl, bytes, hread, hentries⟩

namespace Store

variable {s s' : Store} {w w' w₁ : World}

/-! ## Putting entries back -/

/-- Replace the entries of a catalog, first in the document and then in memory. -/
def replaceEntries (s : Store) (entries : CatalogEntries) : Action StorageError Unit := do
  let w ← Action.world
  Catalog.write ⟨(s.catalogIn w).path, entries⟩
  Action.change (s.changeEntries fun _ => entries)

theorem catalogIn_setCatalog (s : Store) (w : World) (catalog : Catalog) :
    s.catalogIn (w.setCatalog s.catalog catalog) = catalog :=
  if_pos rfl

theorem changeEntries_changeEntries (s : Store) (w : World)
    (f g : CatalogEntries → CatalogEntries) :
    s.changeEntries g (s.changeEntries f w) = s.changeEntries (fun entries => g (f entries)) w := by
  unfold changeEntries
  rw [catalogIn_setCatalog]
  simp only [World.setCatalog, World.mk.injEq, true_and, and_true]
  funext n
  split <;> rfl

theorem changeEntries_eq_self {s : Store} {w : World} {f : CatalogEntries → CatalogEntries}
    (h : f (s.catalogIn w).entries = (s.catalogIn w).entries) : s.changeEntries f w = w := by
  unfold changeEntries
  rw [h]
  simp only [World.setCatalog]
  congr 1
  funext n
  split
  · next heq => rw [heq, catalogIn]
  · rfl

theorem run_replaceEntries (s : Store) (entries : CatalogEntries) (w : World) :
    (s.replaceEntries entries).run w =
      match (Catalog.write ⟨(s.catalogIn w).path, entries⟩).run w with
      | (.ok (), w') => (.ok (), s.changeEntries (fun _ => entries) w')
      | (.error e, w') => (.error e, w') := by
  unfold replaceEntries
  rw [Action.run_world_bind, Action.run_bind]
  rcases (Catalog.write ⟨(s.catalogIn w).path, entries⟩).run w with ⟨_ | _, w'⟩ <;> rfl

/-- **A change in memory that is undone when the document cannot be written** is one that is made
after the document was written. -/
theorem run_writeCatalog_orElseUndo (s : Store) (w : World)
    {change undo : CatalogEntries → CatalogEntries}
    (hundo : undo (change (s.catalogIn w).entries) = (s.catalogIn w).entries) :
    (s.writeCatalog.orElseUndo (s.changeEntries undo)).run (s.changeEntries change w) =
      (s.replaceEntries (change (s.catalogIn w).entries)).run w := by
  let catalog : Catalog := ⟨(s.catalogIn w).path, change (s.catalogIn w).entries⟩
  have hcatalogs := catalog.catalogs_of_write w
  have hwrite : s.writeCatalog.run (s.changeEntries change w) =
      ((catalog.write.run w).1, s.changeEntries change (catalog.write.run w).2) := by
    change (s.catalogIn (s.changeEntries change w)).write.run _ = _
    have hmemory : s.catalogIn (s.changeEntries change w) = catalog := catalogIn_setCatalog s w _
    rw [hmemory]
    exact catalog.run_write_changeEntries s change w
  rw [run_replaceEntries]
  change _ = match catalog.write.run w with | (.ok (), w') => _ | (.error e, w') => _
  rcases hrun : catalog.write.run w with ⟨e | _, w'⟩ <;> rw [hrun] at hcatalogs hwrite
  · have hcatalog : s.catalogIn w' = s.catalogIn w := congrFun hcatalogs s.catalog
    rw [Action.run_orElseUndo_of_error hwrite, changeEntries_changeEntries,
      changeEntries_eq_self (by rw [hcatalog, hundo])]
  · have hcatalog : s.catalogIn w' = s.catalogIn w := congrFun hcatalogs s.catalog
    rw [Action.run_orElseUndo_of_ok hwrite]
    simp only [changeEntries, hcatalog]

/-- What an action leaves behind is what its first part leaves, if the rest changes nothing. -/
theorem run_bind_pure {ε α β : Type} (x : Action ε α) (f : α → β) (w : World) :
    (x >>= fun a => pure (f a)).run w = ((x.run w).1.map f, (x.run w).2) := by
  rw [Action.run_bind]
  rcases x.run w with ⟨_ | a, w'⟩ <;> rfl

theorem run_definition (s : Store) (id : TableId) (w : World) :
    (s.definition id).run w =
      match (s.catalogIn w).find? id with
      | some definition => (.ok definition, w)
      | none =>
        (.error (.tableNotFound id.fullName),
          w.report ⟨.error, (StorageError.tableNotFound id.fullName).message⟩) := by
  unfold definition
  rw [Action.run_world_bind]
  cases (s.catalogIn w).find? id <;> rfl

theorem run_columns (s : Store) (id : TableId) (w : World) :
    (s.columns id).run w =
      match (s.catalogIn w).find? id with
      | some definition => (.ok definition.columns, w)
      | none =>
        (.error (.tableNotFound id.fullName),
          w.report ⟨.error, (StorageError.tableNotFound id.fullName).message⟩) := by
  unfold columns
  rw [run_bind_pure, run_definition]
  cases (s.catalogIn w).find? id <;> rfl

/-- **Entering a table** is done in memory exactly when it is done in the document. -/
theorem run_register (s : Store) (id : TableId) (columns : Schema) (w : World) :
    (s.register id columns).run w =
      (s.replaceEntries
        ((s.catalogIn w).entries.insert id.fullName ⟨id.fullName, columns⟩)).run w := by
  refine s.run_writeCatalog_orElseUndo w ?_
  cases hprevious : (s.catalogIn w).entries.get? id.fullName with
  | none => exact Dictionary.erase_insert hprevious _
  | some previous => exact Dictionary.insert_insert hprevious _

/-- **Taking a table out** is done in memory exactly when it is done in the document. -/
theorem run_unregister (s : Store) (id : TableId) (w : World) :
    (s.unregister id).run w =
      match (s.catalogIn w).find? id with
      | some definition =>
        let replacing := s.replaceEntries ((s.catalogIn w).entries.erase id.fullName)
        ((replacing.run w).1.map fun _ => definition, (replacing.run w).2)
      | none =>
        (.error (.tableNotFound id.fullName),
          w.report ⟨.error, (StorageError.tableNotFound id.fullName).message⟩) := by
  unfold unregister
  rw [Action.run_bind, run_definition]
  cases hfind : (s.catalogIn w).find? id with
  | none => rfl
  | some definition =>
      have hreplace : (s.writeCatalog.orElseUndo
          (s.changeEntries (·.insert id.fullName definition))).run
            (s.changeEntries (·.erase id.fullName) w) =
          (s.replaceEntries ((s.catalogIn w).entries.erase id.fullName)).run w :=
        s.run_writeCatalog_orElseUndo w (Dictionary.insert_erase hfind)
      simp only [← hreplace]
      exact run_bind_pure (s.writeCatalog.orElseUndo _) (fun _ => definition)
        (s.changeEntries (·.erase id.fullName) w)

/-! ## How the entries are replaced -/

/-- How replacing the entries of a catalog can end. -/
inductive ReplaceEnds (s : Store) (entries : CatalogEntries) (w : World) :
    Except StorageError Unit → World → Prop
  /-- The document cannot be opened. -/
  | notOpened {cause : FileError} (events : List Event)
      (hwrite : w.files.write (s.catalogIn w).path (Text.encode entries.toText) = .error cause) :
      ReplaceEnds s entries w (.error (.cannotWrite (s.catalogIn w).path cause))
        { w with events := events }
  /-- The document is opened, but only the beginning of it is written. -/
  | cutShort {fault : Fault} {files : FileTree} (events : List Event) (faults : List (Option Fault))
      (hfault : some fault ∈ w.faults)
      (hwrite : w.files.write (s.catalogIn w).path
        ((Text.encode entries.toText).take fault.taken) = .ok files) :
      ReplaceEnds s entries w (.error (.cannotWrite (s.catalogIn w).path fault.cause))
        { w with files := files, events := events, faults := faults }
  | replaced {files : FileTree}
      (hwrite : w.files.write (s.catalogIn w).path (Text.encode entries.toText) = .ok files) :
      ReplaceEnds s entries w (.ok ())
        ({ w with files := files, faults := w.laterFaults (Text.encode entries.toText) }.setCatalog
          s.catalog ⟨(s.catalogIn w).path, entries⟩)

/-- **How replacing the entries ends.** -/
theorem replaceEnds {entries : CatalogEntries} {result : Except StorageError Unit}
    (h : (s.replaceEntries entries).run w = (result, w')) : s.ReplaceEnds entries w result w' := by
  rw [run_replaceEntries, Catalog.run_write] at h
  cases hfault : w.fault? (Text.encode entries.toText) with
  | none =>
      cases hwrite : w.files.write (s.catalogIn w).path (Text.encode entries.toText) with
      | error cause =>
          simp only [hfault, Fault.kept, hwrite] at h
          cases h
          exact .notOpened _ hwrite
      | ok files =>
          simp only [hfault, Fault.kept, hwrite] at h
          cases h
          exact .replaced hwrite
  | some fault =>
      cases hwrite : w.files.write (s.catalogIn w).path
          ((Text.encode entries.toText).take fault.taken) with
      | error cause =>
          simp only [hfault, Fault.kept, hwrite] at h
          cases h
          exact .notOpened _ (FileTree.write_error hwrite _)
      | ok files =>
          simp only [hfault, Fault.kept, hwrite] at h
          cases h
          exact .cutShort _ _ (World.mem_faults_of_fault? hfault) hwrite

/-! ## Every step keeps them equal -/

/-- A step that fails and leaves the document as it was. -/
theorem Synced.of_same (h : s.Synced w) (hcatalog : s.catalogIn w' = s.catalogIn w)
    (hread : w'.files.read s.config.catalogPath = w.files.read s.config.catalogPath) :
    s.Synced w' :=
  ⟨by rw [hcatalog, h.path], by rw [hread, hcatalog]; exact h.document⟩

theorem Synced.replaceEntries (h : s.Synced w) {entries : CatalogEntries}
    (hwhole : s.Whole (s.replaceEntries entries) w) :
    s.Synced ((s.replaceEntries entries).run w).2 := by
  rcases hrun : (s.replaceEntries entries).run w with ⟨result, w'⟩
  unfold Whole at hwhole
  rw [hrun] at hwhole
  cases replaceEnds hrun with
  -- nothing was written, and nothing was replaced in memory
  | notOpened events hwrite => exact h.of_same rfl rfl
  | cutShort events faults hfault hwrite =>
      obtain ⟨_, hok⟩ | hread := hwhole
      · cases hok
      · exact h.of_same rfl hread
  | replaced hwrite =>
      refine ⟨?_, ?_⟩
      · rw [catalogIn_setCatalog]
        exact h.path
      · rw [catalogIn_setCatalog]
        rw [h.path] at hwrite
        exact ⟨_, FileTree.read_of_write hwrite, Catalog.entriesOfBytes_encode _ _⟩

/-- A call on a catalog only looks at it, or replaces its entries. -/
theorem call_cases (s : Store) (call : CatalogCall) (w : World) :
    (∃ result events, (call.action s).run w = (result, { w with events := events })) ∨
    ∃ entries answer, (call.action s).run w =
      (((s.replaceEntries entries).run w).1.map fun _ => answer,
        ((s.replaceEntries entries).run w).2) := by
  cases call with
  | set id columns =>
      refine .inr ⟨(s.catalogIn w).entries.insert id.fullName ⟨id.fullName, columns⟩, .done, ?_⟩
      rw [CatalogCall.action, run_bind_pure, run_register]
  | delete id =>
      rw [CatalogCall.action, run_bind_pure, run_unregister]
      cases (s.catalogIn w).find? id with
      -- an entry that is not there is reported before anything is written
      | none => exact .inl ⟨_, _, rfl⟩
      | some definition =>
          refine .inr ⟨(s.catalogIn w).entries.erase id.fullName, .definition definition, ?_⟩
          dsimp only
          rcases (s.replaceEntries ((s.catalogIn w).entries.erase id.fullName)).run w with
            ⟨_ | _, w'⟩ <;> rfl
  | definition id =>
      rw [CatalogCall.action, run_bind_pure, run_definition]
      cases (s.catalogIn w).find? id <;> exact .inl ⟨_, _, rfl⟩
  | contains id => exact .inl ⟨_, _, rfl⟩
  | ids => exact .inl ⟨_, _, rfl⟩

/-- **A call keeps the document and the memory equal**, whether it succeeds, or fails and leaves the
document as it was. -/
theorem Synced.call (h : s.Synced w) {call : CatalogCall} (hwhole : s.Whole (call.action s) w) :
    s.Synced ((call.action s).run w).2 := by
  obtain ⟨result, events, hrun⟩ | ⟨entries, answer, hrun⟩ := s.call_cases call w
  · rw [hrun]
    exact h.of_same rfl rfl
  · unfold Whole at hwhole
    rw [hrun] at hwhole ⊢
    refine h.replaceEntries (hwhole.imp_left ?_)
    rintro ⟨_, hok⟩
    obtain ⟨_, hok, -⟩ := map_eq_ok_iff.1 hok
    exact ⟨_, hok⟩

theorem Synced.others (h : s.Synced w) {change : FileTree → FileTree}
    (hchange : ∀ files, (change files).read s.config.catalogPath =
      files.read s.config.catalogPath) : s.Synced { w with files := change w.files } :=
  h.of_same rfl (hchange _)

theorem Synced.runMoves (h : s.Synced w) {moves : List CatalogMove}
    (hmoves : ∀ move ∈ moves, move.Spares s.config.catalogPath) (hwhole : s.WholeMoves moves w) :
    s.Synced (s.runMoves moves w).2 := by
  induction moves generalizing w with
  | nil => exact h
  | cons move rest ih =>
      have hrest := fun later hlater => hmoves later (List.mem_cons_of_mem _ hlater)
      cases move with
      | call call => exact ih (h.call hwhole.1) hrest hwhole.2
      | others change => exact ih (h.others (hmoves _ List.mem_cons_self)) hrest hwhole

theorem whole_of_no_faults (hfaults : w.faults = []) (call : CatalogCall) :
    s.Whole (call.action s) w ∧ ((call.action s).run w).2.faults = [] := by
  unfold Whole
  obtain ⟨result, events, hrun⟩ | ⟨entries, answer, hrun⟩ := s.call_cases call w
  · rw [hrun]
    exact ⟨.inr rfl, hfaults⟩
  · rcases hreplace : (s.replaceEntries entries).run w with ⟨result, w'⟩
    rw [hrun, hreplace]
    cases replaceEnds hreplace with
    | notOpened events hwrite => exact ⟨.inr rfl, hfaults⟩
    | cutShort events faults hfault hwrite =>
        rw [hfaults] at hfault
        cases hfault
    | replaced hwrite =>
        have hlater := w.laterFaults_subset (Text.encode entries.toText)
        rw [hfaults] at hlater
        exact ⟨.inl ⟨answer, rfl⟩, List.subset_nil.1 hlater⟩

/-- Where the system takes all bytes of an open file, the document is always written as a whole. -/
theorem wholeMoves_of_no_faults (hfaults : w.faults = []) (moves : List CatalogMove) :
    s.WholeMoves moves w := by
  induction moves generalizing w with
  | nil => trivial
  | cons move rest ih =>
      cases move with
      | call call =>
          obtain ⟨hwhole, hfaults⟩ := whole_of_no_faults (s := s) hfaults call
          exact ⟨hwhole, ih hfaults⟩
      | others change => exact ih hfaults

/-! ## Opening a store -/

theorem run_load {config : Config} {catalog : Catalog}
    (h : (Catalog.load config.catalogPath).run w = (.ok catalog, w')) :
    (load config).run w =
      (.ok ⟨config, w'.opened⟩,
        { w'.setCatalog w'.opened catalog with opened := w'.opened + 1 }) := by
  unfold load
  rw [Action.run_bind, h]
  rfl

theorem exists_of_run_load {config : Config} (h : (load config).run w = (.ok s, w')) :
    s.config = config ∧ ∃ w₁, (Catalog.load config.catalogPath).run w =
      (.ok (s.catalogIn w'), w₁) ∧ w'.files = w₁.files := by
  rcases hload : (Catalog.load config.catalogPath).run w with ⟨e | catalog, w₁⟩
  · unfold load at h
    rw [Action.run_bind, hload] at h
    cases h
  · rw [run_load hload] at h
    cases h
    refine ⟨rfl, w₁, ?_, rfl⟩
    have hcatalog := catalogIn_setCatalog ⟨config, w₁.opened⟩ w₁ catalog
    exact congrArg (fun catalog => (Except.ok catalog, w₁)) hcatalog.symm

theorem synced_of_load {config : Config} (h : (load config).run w = (.ok s, w')) :
    s.config = config ∧ s.Synced w' := by
  obtain ⟨rfl, w₁, hload, hfiles⟩ := exists_of_run_load h
  obtain ⟨hpath, bytes, hread, hentries⟩ := Catalog.document_of_load hload
  exact ⟨rfl, hpath, bytes, hfiles ▸ hread, hentries⟩

/-- The catalog that is loaded from the document of a store is the one it has in memory, also where
nothing else of its world is known but the files. -/
theorem Synced.run_load_catalog (h : s.Synced w) (hfiles : w₁.files = w.files) :
    ∃ w', (Catalog.load s.config.catalogPath).run w₁ = (.ok (s.catalogIn w), w') ∧
      w'.files = w.files ∧ w'.faults = w₁.faults := by
  obtain ⟨bytes, hread, hentries⟩ := h.document
  rw [← hfiles] at hread
  have hload := Catalog.run_load_of_read hread hentries
  have hcatalog : (⟨s.config.catalogPath, (s.catalogIn w).entries⟩ : Catalog) = s.catalogIn w := by
    rw [← h.path]
  rw [hcatalog] at hload
  exact ⟨_, hload, hfiles, rfl⟩

/-- **A store that is opened where another one keeps its catalog** has the same catalog. -/
theorem Synced.of_load (h : s.Synced w) (hfiles : w₁.files = w.files)
    (hload : (load s.config).run w₁ = (.ok s', w')) :
    s'.config = s.config ∧ s'.catalogIn w' = s.catalogIn w ∧ w'.files = w.files := by
  obtain ⟨hconfig, w₂, hcatalog, hsame⟩ := exists_of_run_load hload
  obtain ⟨w₃, hmemory, hfiles₃, -⟩ := h.run_load_catalog hfiles
  obtain ⟨hequal, rfl⟩ := Prod.mk.inj (hcatalog.symm.trans hmemory)
  exact ⟨hconfig, Except.ok.inj hequal, hsame.trans hfiles₃⟩

/-! ## A store that is opened anew -/

/-- Whether two stores, each in a world of its own, see the same files with the same faults to come,
and hold the same catalog. -/
structure Alike (s s' : Store) (w w' : World) : Prop where
  files : w.files = w'.files
  faults : w.faults = w'.faults
  catalog : s.catalogIn w = s'.catalogIn w'

theorem Alike.replaceEntries (h : Alike s s' w w') (entries : CatalogEntries) :
    ((s.replaceEntries entries).run w).1 = ((s'.replaceEntries entries).run w').1 ∧
      Alike s s' ((s.replaceEntries entries).run w).2 ((s'.replaceEntries entries).run w').2 := by
  have hfault : w'.fault? = w.fault? := by
    unfold World.fault?
    rw [h.faults]
  have hlater : w'.laterFaults = w.laterFaults := by
    unfold World.laterFaults
    rw [h.faults]
  rw [run_replaceEntries, run_replaceEntries, Catalog.run_write, Catalog.run_write, ← h.files,
    ← h.catalog]
  simp only [hfault, hlater]
  cases w.files.write (s.catalogIn w).path _ with
  | error e => exact ⟨rfl, h.files, h.faults, h.catalog⟩
  | ok files =>
      cases w.fault? (Text.encode entries.toText) with
      | some fault => exact ⟨rfl, rfl, rfl, h.catalog⟩
      | none =>
          refine ⟨rfl, rfl, rfl, ?_⟩
          simp only [changeEntries, catalogIn_setCatalog]
          exact congrArg (fun catalog : Catalog => { catalog with entries := entries }) h.catalog

/-- **Stores that are alike answer alike**, and stay alike. -/
theorem Alike.call (h : Alike s s' w w') (call : CatalogCall) :
    ((call.action s).run w).1 = ((call.action s').run w').1 ∧
      Alike s s' ((call.action s).run w).2 ((call.action s').run w').2 := by
  cases call with
  | set id columns =>
      rw [CatalogCall.action, CatalogCall.action, run_bind_pure, run_bind_pure, run_register,
        run_register, ← h.catalog]
      obtain ⟨hresult, halike⟩ := h.replaceEntries
        ((s.catalogIn w).entries.insert id.fullName ⟨id.fullName, columns⟩)
      exact ⟨congrArg (Except.map _) hresult, halike⟩
  | delete id =>
      rw [CatalogCall.action, CatalogCall.action, run_bind_pure, run_bind_pure, run_unregister,
        run_unregister, ← h.catalog]
      cases (s.catalogIn w).find? id with
      | none => exact ⟨rfl, h.files, h.faults, h.catalog⟩
      | some definition =>
          obtain ⟨hresult, halike⟩ :=
            h.replaceEntries ((s.catalogIn w).entries.erase id.fullName)
          exact ⟨congrArg (fun result =>
            (result.map fun _ => definition).map CatalogAnswer.definition) hresult, halike⟩
  | definition id =>
      rw [CatalogCall.action, CatalogCall.action, run_bind_pure, run_bind_pure, run_definition,
        run_definition, ← h.catalog]
      cases (s.catalogIn w).find? id with
      | none => exact ⟨rfl, h.files, h.faults, h.catalog⟩
      | some definition => exact ⟨rfl, h⟩
  | contains id =>
      refine ⟨?_, h⟩
      change Except.ok (CatalogAnswer.known ((s.catalogIn w).contains id)) = _
      rw [h.catalog]
      rfl
  | ids =>
      refine ⟨?_, h⟩
      change Except.ok (CatalogAnswer.ids (s.catalogIn w).entries.keys) = _
      rw [h.catalog]
      rfl

theorem Alike.runMoves (h : Alike s s' w w') (moves : List CatalogMove) :
    (s.runMoves moves w).1 = (s'.runMoves moves w').1 := by
  induction moves generalizing w w' with
  | nil => rfl
  | cons move rest ih =>
      cases move with
      | call call =>
          obtain ⟨hanswer, halike⟩ := h.call call
          have hrest := ih halike
          simp only [Store.runMoves, hanswer, hrest]
      | others change =>
          have hfiles : change w.files = change w'.files := congrArg change h.files
          exact ih ⟨hfiles, h.faults, h.catalog⟩

/-- A store that is opened where another one keeps its catalog is like that one. -/
theorem Synced.exists_alike (h : s.Synced w) :
    ∃ s' w', (load s.config).run w = (.ok s', w') ∧ Alike s' s w' w := by
  obtain ⟨w₁, hcatalog, hfiles, hfaults⟩ := h.run_load_catalog rfl
  refine ⟨_, _, run_load hcatalog, hfiles, hfaults, ?_⟩
  exact catalogIn_setCatalog ⟨s.config, w₁.opened⟩ w₁ (s.catalogIn w)

end Store

/-! ## The main result -/

/-- **The catalog is written through.** A store is opened at a path, and a run of calls on its
catalog follows, each of which succeeds, or fails and leaves the document as it was; between the
calls other programs do as they like, but leave the document alone. After the run the path is opened
with exactly the catalog in memory. A store that is opened there answers every further run as the
first one does. -/
theorem catalog_writeThrough {config : Config} {s : Store} {w₀ w : World}
    (hload : (Store.load config).run w₀ = (.ok s, w)) {moves : List CatalogMove}
    (hmoves : ∀ move ∈ moves, move.Spares config.catalogPath) (hwhole : s.WholeMoves moves w) :
    let w' := (s.runMoves moves w).2
    (∃ w'', (Catalog.load config.catalogPath).run w' = (.ok (s.catalogIn w'), w'')) ∧
      ∃ s' w'', (Store.load config).run w' = (.ok s', w'') ∧
        s'.catalogIn w'' = s.catalogIn w' ∧
        ∀ later, (s'.runMoves later w'').1 = (s.runMoves later w').1 := by
  obtain ⟨rfl, hsynced⟩ := Store.synced_of_load hload
  have hafter := hsynced.runMoves hmoves hwhole
  obtain ⟨w₁, hcatalog, -⟩ := hafter.run_load_catalog rfl
  obtain ⟨s', w₂, hopen, halike⟩ := hafter.exists_alike
  exact ⟨⟨w₁, hcatalog⟩, s', w₂, hopen, halike.catalog, halike.runMoves⟩

/-- A run in which a table is entered, and the document is locked before the entry is deleted. -/
def lockedRun : List CatalogMove :=
  [.call (.set ⟨"default", "parts"⟩ ⟨[⟨"part", .integer⟩], by decide⟩),
    .others fun files => { files with locked := [["catalog.json", "data"]] },
    .call (.delete ⟨"default", "parts"⟩)]

/-- The entry that could not be deleted is still there, in memory and in the document. -/
theorem catalog_writeThrough_lockedRun :
    ∃ s w, (Store.load .standard).run (World.ofFiles ⟨[], [], []⟩) = (.ok s, w) ∧
      (s.catalogIn (s.runMoves lockedRun w).2).entries.keys = ["default.parts"] ∧
      ∃ w', (Catalog.load Config.standard.catalogPath).run (s.runMoves lockedRun w).2 =
        (.ok (s.catalogIn (s.runMoves lockedRun w).2), w') := by
  have hload := Action.run_eq_of_fst (x := Store.load .standard)
    (w := World.ofFiles ⟨[], [], []⟩) (r := .ok ⟨.standard, 0⟩) (by decide +kernel)
  have hspares : ∀ move ∈ lockedRun, move.Spares Config.standard.catalogPath := by
    simp only [lockedRun, List.forall_mem_cons, CatalogMove.Spares]
    exact ⟨trivial, fun _ => rfl, trivial, fun _ h => absurd h List.not_mem_nil⟩
  have hwhole := Store.wholeMoves_of_no_faults (s := ⟨.standard, 0⟩)
    (w := ((Store.load .standard).run (World.ofFiles ⟨[], [], []⟩)).2) (by decide +kernel) lockedRun
  exact ⟨_, _, hload, by decide +kernel, (catalog_writeThrough hload hspares hwhole).1⟩

end FlatTables
