import FlatTables.Proofs.Operation.FailedSave
import FlatTables.Proofs.Operation.Frame

set_option autoImplicit false

/-! # What cleaning and dropping leave behind

A table that cannot be cleaned has lost its rows in the hands of the caller, but files and catalogs
stay as they are. When a table cannot be dropped, files and catalogs stay too, with one exception
(`kept_of_removal`): the data file is removed before the document of the catalog is written anew, and
is not put back when that fails. If the system stops taking the bytes of the document, this is left
with their beginning. A table that was dropped has no entry any more. Its data file is gone too,
unless it is the document of the catalog, which was just written. -/

namespace FlatTables

variable {t : Table} {store : Store} {w w' : World}

/-- Whether a table has no entry, neither in memory nor in the document of the catalog. -/
structure Store.Forgets (s : Store) (id : TableId) (w : World) : Prop where
  entry : (s.catalogIn w).contains id = false
  document : s.DocumentedIn w

namespace Operation

/-- What cannot be cleaned is left as it is, but for the rows that the caller held. -/
theorem keptOutside_of_clean_error {e : TableError} {t' : Table} (hstore : t.store = some store)
    (h : Edit.clean.editing.run t w = (.error e, t', w')) :
    t' = { t with rows := [] } ∧ w.KeptOutside [] w' := by
  have hleaves := Edit.leaves_of_editing_clean t w
  have hresult := congrArg Prod.fst (Edit.run_editing_clean t w)
  rw [h] at hleaves hresult
  obtain ⟨rfl, rfl⟩ := Prod.mk.inj hleaves
  refine ⟨rfl, ?_⟩
  rcases hrun : (clean t).2.run w with ⟨cause | _, w₁⟩
  · cases cleanEnds hstore hrun with
    | noDirectory w₁ events hdatabase => exact keptOutside_of_run_database hdatabase events
    | notOpened w₁ events hdatabase hwrite => exact keptOutside_of_run_database hdatabase events
  -- an operation that succeeds does not end with an error in place
  · rw [Edit.action, Store.run_bind_pure, hrun] at hresult
    cases hresult

/-- What cannot be dropped is left as it is, unless the document of the catalog cannot be written.
Then the data file is gone, and the document is as it was or cut short. -/
theorem keptOutside_of_drop_error {e : TableError} (hstore : t.store = some store)
    (h : (drop t).run w = (.error e, w')) :
    let dataFile := FileTree.place w.files.here (store.config.tablePath t.id)
    let document := FileTree.place w.files.here (store.catalogIn w).path
    w.KeptOutside [] w' ∨
      ∃ cause, e = .storage (.cannotWrite (store.catalogIn w).path cause) ∧
        ((w.KeptOutside [dataFile] w' ∧
            w'.files.contains (store.config.tablePath t.id) = false) ∨
          ∃ fault, some fault ∈ w.faults ∧ cause = fault.cause ∧
            w.KeptOutside [document, dataFile] w' ∧
            w'.files.read (store.catalogIn w).path =
              .ok ((Text.encode (entriesWithout store t.id w).toText).take fault.taken) ∧
            (w'.files.contains (store.config.tablePath t.id) = false ↔ dataFile ≠ document)) := by
  intro dataFile document
  have hbefore := World.KeptOutside.refl [] w w.events
  cases dropEnds hstore h with
  | missing events hpart => exact .inl (.refl [] w events)
  | notRemoved events hparts hremove => exact .inl (.refl [] w events)
  | notTakenOut events hparts hremove hdocument =>
      exact .inr ⟨_, rfl, .inl ⟨hbefore.remove hremove events,
        FileTree.contains_of_remove hremove⟩⟩
  | halfTakenOut events faults hparts hremove hfault hdocument =>
      exact .inr ⟨_, rfl, .inr ⟨_, hfault, rfl,
        (hbefore.remove hremove events).write hdocument events faults,
        FileTree.read_of_write hdocument,
        FileTree.contains_of_write_of_remove hremove hdocument⟩⟩

/-- A table that was dropped has no entry, and no data file that is not the document. -/
theorem forgets_of_drop (hstore : t.store = some store) (h : (drop t).run w = (.ok (), w')) :
    store.Forgets t.id w' ∧
      (w'.files.contains (store.config.tablePath t.id) = false ↔
        FileTree.place w.files.here (store.config.tablePath t.id) ≠
          FileTree.place w.files.here (store.catalogIn w).path) := by
  cases dropEnds hstore h with
  | dropped events faults hparts hremove hdocument =>
      refine ⟨⟨?_, ?_⟩, FileTree.contains_of_write_of_remove hremove hdocument⟩
      · rw [Store.catalogIn_setCatalog, contains_entriesWithout, if_pos rfl]
      · unfold Store.DocumentedIn
        rw [Store.catalogIn_setCatalog]
        exact ⟨_, FileTree.read_of_write hdocument, Catalog.entriesOfBytes_encode _ _⟩

/-- **Cleaning and dropping fail without a trace in files and catalogs**, but for one case. When a
table cannot be cleaned, the caller is left with the table without its rows. When the document of the
catalog cannot be written for a table to be dropped, its data file is gone; the document is as before
if it could not be opened, and holds the beginning of what it should if the system stopped taking its
bytes; nothing else has changed. A table that was dropped has no entry, in memory or in the document,
and its data file is gone exactly if it does not lie where the document does. -/
theorem kept_of_removal (hstore : t.store = some store) (w : World) :
    let dataFile := FileTree.place w.files.here (store.config.tablePath t.id)
    let document := FileTree.place w.files.here (store.catalogIn w).path
    (∀ e t' w', Edit.clean.editing.run t w = (.error e, t', w') →
      t' = { t with rows := [] } ∧ w.KeptOutside [] w') ∧
    (∀ e w', (drop t).run w = (.error e, w') → w.KeptOutside [] w' ∨
      ∃ cause, e = .storage (.cannotWrite (store.catalogIn w).path cause) ∧
        ((w.KeptOutside [dataFile] w' ∧
            w'.files.contains (store.config.tablePath t.id) = false) ∨
          ∃ fault, some fault ∈ w.faults ∧ cause = fault.cause ∧
            w.KeptOutside [document, dataFile] w' ∧
            w'.files.read (store.catalogIn w).path =
              .ok ((Text.encode (entriesWithout store t.id w).toText).take fault.taken) ∧
            (w'.files.contains (store.config.tablePath t.id) = false ↔ dataFile ≠ document))) ∧
    ∀ w', (drop t).run w = (.ok (), w') → store.Forgets t.id w' ∧
      (w'.files.contains (store.config.tablePath t.id) = false ↔ dataFile ≠ document) :=
  ⟨fun _ _ _ => keptOutside_of_clean_error hstore, fun _ _ => keptOutside_of_drop_error hstore,
    fun _ => forgets_of_drop hstore⟩

/-- The world of the tally, in which its data file cannot be changed any more. -/
def sealedWorld : World :=
  { worldOf tally with
    files := { (worldOf tally).files with locked := [["tally.csv", "default", "data"]] } }

/-- The sealed tally can neither be cleaned nor dropped, and its data file keeps its row. Otherwise
it can be dropped. -/
theorem kept_of_removal_tally :
    (∃ w', Edit.clean.editing.run tally sealedWorld = (.error (.storage
        (.cannotWrite ⟨"data/default/tally.csv"⟩ .permissionDenied)), { tally with rows := [] }, w') ∧
      w'.files.read ⟨"data/default/tally.csv"⟩ = .ok (Text.encode "1\n")) ∧
    (∃ w', (drop tally).run sealedWorld = (.error (.storage
        (.cannotRemove ⟨"data/default/tally.csv"⟩ .permissionDenied)), w') ∧
      w'.files.read ⟨"data/default/tally.csv"⟩ = .ok (Text.encode "1\n")) ∧
    ∃ w', (drop tally).run (worldOf tally) = (.ok (), w') ∧
      Store.Forgets ⟨.standard, 0⟩ tally.id w' ∧
      w'.files.contains ⟨"data/default/tally.csv"⟩ = false := by
  have hread : sealedWorld.files.read ⟨"data/default/tally.csv"⟩ = .ok (Text.encode "1\n") := by
    decide +kernel
  have hresult : (Edit.clean.editing.run tally sealedWorld).1 = .error (.storage
      (.cannotWrite ⟨"data/default/tally.csv"⟩ .permissionDenied)) := by decide +kernel
  rcases hclean : Edit.clean.editing.run tally sealedWorld with ⟨result, t', w₁⟩
  rw [hclean] at hresult
  obtain rfl := hresult
  have hdrop := Action.run_eq_of_fst (x := drop tally) (w := sealedWorld) (r := .error (.storage
    (.cannotRemove ⟨"data/default/tally.csv"⟩ .permissionDenied))) (by decide +kernel)
  have hdropped := Action.run_eq_of_fst (x := drop tally) (w := worldOf tally) (r := .ok ())
    (by decide +kernel)
  obtain ⟨hcleaning, hdropping, -⟩ := kept_of_removal (t := tally) rfl sealedWorld
  obtain ⟨-, -, hgone⟩ := kept_of_removal (t := tally) rfl (worldOf tally)
  obtain ⟨rfl, hkept⟩ := hcleaning _ _ _ hclean
  refine ⟨⟨w₁, rfl, hkept.read _ _ List.not_mem_nil hread⟩,
    ⟨_, hdrop, ?_⟩, ⟨_, hdropped, (hgone _ hdropped).1, (hgone _ hdropped).2.2 ?_⟩⟩
  · obtain hkept | ⟨cause, h, -⟩ := hdropping _ _ hdrop
    · exact hkept.read _ _ List.not_mem_nil hread
    · cases h
  · decide +kernel

/-- The sealed tally loses its row in the hands of a caller who cannot clean it. The data file of the
tally is gone when its entry cannot be taken out, and when the disk is full, so is all that the
document of the catalog held. And the data file is still there after the tally was dropped in a store
for which it is the document. -/
theorem not_kept_of_removal :
    (tally.rows = [[.integer 1]] ∧
      (Edit.clean.editing.run tally sealedWorld).1 = .error (.storage
        (.cannotWrite ⟨"data/default/tally.csv"⟩ .permissionDenied)) ∧
      (Edit.clean.editing.run tally sealedWorld).2.1.rows = []) ∧
    (((drop tally).run lockedWorld).1 = .error (.storage
        (.cannotWrite ⟨"data/catalog.json"⟩ .permissionDenied)) ∧
      lockedWorld.files.contains ⟨"data/default/tally.csv"⟩ = true ∧
      ((drop tally).run lockedWorld).2.files.contains ⟨"data/default/tally.csv"⟩ = false ∧
      (Store.catalogIn ⟨.standard, 0⟩ ((drop tally).run lockedWorld).2).contains tally.id = true) ∧
    (((drop tally).run (fullAfter 0 (worldOf tally))).1 = .error (.storage
        (.cannotWrite ⟨"data/catalog.json"⟩ diskFull)) ∧
      ((drop tally).run (fullAfter 0 (worldOf tally))).2.files.read ⟨"data/catalog.json"⟩ = .ok []) ∧
    ∃ w w', (save { tally with store := some selfSavingStore }).run
        ((Store.load selfSavingStore.config).run (World.ofFiles ⟨[], [], []⟩)).2 = (.ok (), w) ∧
      (drop { tally with store := some selfSavingStore }).run w = (.ok (), w') ∧
      w'.files.contains (selfSavingStore.config.tablePath tally.id) = true := by
  refine ⟨⟨rfl, by decide +kernel, by decide +kernel⟩, by decide +kernel, by decide +kernel,
    _, _, Action.run_eq_of_fst ?_, Action.run_eq_of_fst ?_, ?_⟩ <;>
  decide +kernel

end Operation

end FlatTables
