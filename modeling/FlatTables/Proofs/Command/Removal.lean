import FlatTables.Command
import FlatTables.Proofs.Operation.Removal
import FlatTables.Proofs.Store.Paired

set_option autoImplicit false

/-! # Cleaning and dropping by command

The commands that clean and drop a saved table load it first, though they do not need its rows. So
they succeed only if the data file can be read by the columns of the catalog (`clean_and_drop_iff`).
A table whose file cannot be read, for instance because its last column was dropped, can neither be
cleaned nor dropped. -/

namespace FlatTables

variable {store : Store} {text : String} {id : TableId} {definition : TableDefinition}
  {content : List UInt8} {w w' : World}

namespace Operation

/-! ## Loading -/

section

variable (store : Store) (id : TableId) (definition : TableDefinition) (content : List UInt8)
  (w : World)

/-- How loading a table whose data file and entry are there can end. -/
inductive LoadEnds : Except TableError Table → World → Prop
  /-- The directory of the database cannot be made. -/
  | noDirectory {e : StorageError} (w' : World) (hfile : TableError.OnFile (.storage e)) :
      LoadEnds (.error (.storage e)) w'
  /-- The data file does not hold rows of the columns of the entry. -/
  | notParsed {e : StorageError} (w' : World)
      (hparse : DataFile.parse (store.config.tablePath id) definition.columns content = .error e) :
      LoadEnds (.error (.storage e)) w'
  | loaded {rows : List Row} (w' : World)
      (hparse : DataFile.parse (store.config.tablePath id) definition.columns content = .ok rows)
      (hkept : w.KeptOutside [] w') (hhere : w'.files.here = w.files.here) :
      LoadEnds (.ok ⟨id, definition.columns, rows, some store⟩) w'

end

/-- **How loading ends.** -/
theorem loadEnds {result : Except TableError Table} (hid : store.config.resolve text = id)
    (hread : w.files.read (store.config.tablePath id) = .ok content)
    (hfind : (store.catalogIn w).find? id = some definition)
    (h : (load store text).run w = (result, w')) :
    LoadEnds store id definition content w result w' := by
  rcases hdatabase : (store.database id.database).run w with ⟨e | path, w₁⟩
  · obtain ⟨cause, -, -, -, rfl, -⟩ := Store.of_run_database_error hdatabase
    obtain ⟨events, hrun⟩ := exists_run_stored_bind hdatabase _
    rw [load, create_eq, hid, hrun] at h
    cases h
    exact .noDirectory _ trivial
  · obtain ⟨-, hcatalogs, hgrows⟩ := Store.grows_of_run_database hdatabase
    have hkept := keptOutside_of_run_database hdatabase
    have hread₁ := (hkept w₁.events).read _ _ List.not_mem_nil hread
    have hfind₁ : (store.catalogIn w₁).find? id = some definition := by
      rw [← hfind]
      exact congrArg (Catalog.find? · id) (congrFun hcatalogs store.catalog)
    obtain ⟨events, hload⟩ := exists_run_load_of_database hid hdatabase hread₁ hfind₁
    rw [hload, tableFrom] at h
    cases hparse : DataFile.parse (store.config.tablePath id) definition.columns content with
    | error e =>
        rw [hparse] at h
        cases h
        exact .notParsed _ hparse
    | ok rows =>
        rw [hparse] at h
        cases h
        exact .loaded _ hparse (hkept events) hgrows.here

/-- No part of a table is missing whose data file and entry are there. -/
theorem missingPart?_eq_none (hread : w.files.read (store.config.tablePath id) = .ok content)
    (hfind : (store.catalogIn w).find? id = some definition) : missingPart? store id w = none := by
  have hfile : w.files.contains (store.config.tablePath id) = true := by
    rw [FileTree.contains, FileTree.read_eq_ok_iff.1 hread]
  have hentry : (store.catalogIn w).contains id = true := Option.isSome_iff_exists.2 ⟨_, hfind⟩
  simp [missingPart?, hfile, hentry]

end Operation

namespace Command

section

variable (hid : store.config.resolve text = id)
  (hread : w.files.read (store.config.tablePath id) = .ok content)
  (hfind : (store.catalogIn w).find? id = some definition)

include hid hread hfind

/-- A command that loads its table first goes on with that, unless the data file does not hold rows
of the columns of the entry. -/
theorem run_load_bind {f : Table → Action CommandError Unit}
    (hfile : ∀ e, (((Operation.load store text).mapError .table >>= f).run w).1 =
      .error (.table e) → ¬ e.OnFile) :
    (∃ e w₁, DataFile.parse (store.config.tablePath id) definition.columns content = .error e ∧
      ((Operation.load store text).mapError .table >>= f).run w =
        (.error (.table (.storage e)), w₁)) ∨
    ∃ rows w₁, DataFile.parse (store.config.tablePath id) definition.columns content = .ok rows ∧
      w.KeptOutside [] w₁ ∧ w₁.files.here = w.files.here ∧
      ((Operation.load store text).mapError .table >>= f).run w =
        (f ⟨id, definition.columns, rows, some store⟩).run w₁ := by
  have hfails : ∀ {e w₁}, (Operation.load store text).run w = (.error e, w₁) →
      ((Operation.load store text).mapError .table >>= f).run w = (.error (.table e), w₁) := by
    intro e w₁ hload
    refine Action.run_bind_of_error ?_ f
    rw [Action.run_mapError, hload]
    rfl
  rcases hload : (Operation.load store text).run w with ⟨result, w₁⟩
  cases Operation.loadEnds hid hread hfind hload with
  | noDirectory w₁ honFile =>
      exact absurd honFile (hfile _ (congrArg Prod.fst (hfails hload)))
  | notParsed w₁ hparse => exact .inl ⟨_, w₁, hparse, hfails hload⟩
  | loaded w₁ hparse hkept hhere =>
      exact .inr ⟨_, w₁, hparse, hkept, hhere,
        Action.run_bind_of_ok (Action.run_mapError_eq_ok_iff.2 hload) f⟩

/-- When a table is dropped by command, as far as files can be changed. -/
theorem drop_iff (hfile : ∀ e, ((drop store text).run w).1 = .error (.table e) → ¬ e.OnFile) :
    (∃ w', (drop store text).run w = (.ok (), w') ∧
        w'.files.contains (store.config.tablePath id) = false ∧ store.Forgets id w') ↔
      (∃ rows, DataFile.parse (store.config.tablePath id) definition.columns content = .ok rows) ∧
        FileTree.place w.files.here (store.config.tablePath id) ≠
          FileTree.place w.files.here (store.catalogIn w).path := by
  obtain ⟨e, w₁, hparse, hrun⟩ | ⟨rows, w₁, hparse, hkept, hhere, hrun⟩ :=
    run_load_bind hid hread hfind hfile
  · refine iff_of_false ?_ ?_
    · rintro ⟨w', hok, -⟩
      cases hrun.symm.trans hok
    · rintro ⟨⟨rows, hrows⟩, -⟩
      cases hparse.symm.trans hrows
  have hcatalog := hkept.catalogIn store
  have hread₁ := hkept.read _ _ List.not_mem_nil hread
  rcases hdrop : (Operation.drop ⟨id, definition.columns, rows, some store⟩).run w₁
    with ⟨result, w₂⟩
  rw [Action.run_mapError, hdrop] at hrun
  change (drop store text).run w = _ at hrun
  rw [hrun] at hfile ⊢
  cases Operation.dropEnds rfl hdrop with
  | missing events hpart =>
      rw [Operation.missingPart?_eq_none hread₁ (hcatalog ▸ hfind)] at hpart
      cases hpart
  | notRemoved events hparts hremove => exact absurd trivial (hfile _ rfl)
  | notTakenOut events hparts hremove hdocument => exact absurd trivial (hfile _ rfl)
  | halfTakenOut events faults hparts hremove hfault hdocument =>
      exact absurd trivial (hfile _ rfl)
  | dropped events faults hparts hremove hdocument =>
      obtain ⟨hforgets, hgone⟩ := Operation.forgets_of_drop rfl hdrop
      rw [hhere, hcatalog] at hgone
      constructor
      · rintro ⟨w', hok, hcontains, -⟩
        cases hok
        exact ⟨⟨_, hparse⟩, hgone.1 hcontains⟩
      · rintro ⟨-, hother⟩
        exact ⟨_, rfl, hgone.2 hother, hforgets⟩

/-- When a table is cleaned by command, as far as files can be changed. -/
theorem clean_iff (hfile : ∀ e, ((clean store text).run w).1 = .error (.table e) → ¬ e.OnFile) :
    (∃ w', (clean store text).run w = (.ok (), w') ∧
        ∀ text', store.config.resolve text' = id → ((Operation.load store text').run w').1 =
          .ok ⟨id, definition.columns, [], some store⟩) ↔
      ∃ rows, DataFile.parse (store.config.tablePath id) definition.columns content = .ok rows := by
  obtain ⟨e, w₁, hparse, hrun⟩ | ⟨rows, w₁, hparse, hkept, -, hrun⟩ :=
    run_load_bind hid hread hfind hfile
  · refine iff_of_false ?_ ?_
    · rintro ⟨w', hok, -⟩
      cases hrun.symm.trans hok
    · rintro ⟨rows, hrows⟩
      cases hparse.symm.trans hrows
  have hcatalog := hkept.catalogIn store
  rcases hclean : (Operation.clean ⟨id, definition.columns, rows, some store⟩).2.run w₁
    with ⟨result, w₂⟩
  rw [Action.run_mapError, hclean] at hrun
  change (clean store text).run w = _ at hrun
  rw [hrun] at hfile ⊢
  cases Operation.cleanEnds rfl hclean with
  | noDirectory w₂ events hdatabase =>
      obtain ⟨cause, -, -, -, rfl, -⟩ := Store.of_run_database_error hdatabase
      exact absurd trivial (hfile _ rfl)
  | notOpened w₂ events hdatabase hwrite => exact absurd trivial (hfile _ rfl)
  | cleaned w₂ events hdatabase hwrite =>
      have hkept₂ := Operation.keptOutside_of_run_database hdatabase w₂.events
      have hopens : store.OpensWith id [] { w₂ with files := _, events := events } :=
        Operation.opensWith_of_write hdatabase hwrite (.refl _) (FileTree.read_of_write hwrite)
      refine iff_of_true ⟨_, rfl, fun text' hid' => hopens.load text' definition hid' ?_⟩
        ⟨_, hparse⟩
      change (store.catalogIn w₂).find? id = some definition
      rw [hkept₂.catalogIn, hcatalog, hfind]

/-- **When a saved table can be cleaned and dropped by command**, as far as files can be changed:
exactly if its data file holds rows of the columns of its entry. Dropping needs the data file not to
be the document of the catalog, too, for otherwise that file stays. -/
theorem clean_and_drop_iff :
    ((∀ e, ((drop store text).run w).1 = .error (.table e) → ¬ e.OnFile) →
      ((∃ w', (drop store text).run w = (.ok (), w') ∧
          w'.files.contains (store.config.tablePath id) = false ∧ store.Forgets id w') ↔
        (∃ rows, DataFile.parse (store.config.tablePath id) definition.columns content = .ok rows) ∧
          FileTree.place w.files.here (store.config.tablePath id) ≠
            FileTree.place w.files.here (store.catalogIn w).path)) ∧
    ((∀ e, ((clean store text).run w).1 = .error (.table e) → ¬ e.OnFile) →
      ((∃ w', (clean store text).run w = (.ok (), w') ∧
          ∀ text', store.config.resolve text' = id → ((Operation.load store text').run w').1 =
            .ok ⟨id, definition.columns, [], some store⟩) ↔
        ∃ rows, DataFile.parse (store.config.tablePath id) definition.columns content = .ok rows)) :=
  ⟨drop_iff hid hread hfind, clean_iff hid hread hfind⟩

end

/-- The store of the ledger and the tally. -/
def standardStore : Store := ⟨.standard, 0⟩

/-- The ledger can be dropped, and it can be cleaned. -/
theorem clean_and_drop_iff_ledger :
    (∃ w', (drop standardStore "ledger").run (worldOf ledger) = (.ok (), w') ∧
      w'.files.contains (standardStore.config.tablePath ledger.id) = false ∧
      standardStore.Forgets ledger.id w') ∧
    ∃ w', (clean standardStore "ledger").run (worldOf ledger) = (.ok (), w') ∧
      ∀ text', standardStore.config.resolve text' = ledger.id →
        ((Operation.load standardStore text').run w').1 = .ok { ledger with rows := [] } := by
  have hid : standardStore.config.resolve "ledger" = ledger.id := by decide +kernel
  have hread : (worldOf ledger).files.read (standardStore.config.tablePath ledger.id) =
      .ok (DataFile.render ledger.rows).1 := by decide +kernel
  have hfind : (standardStore.catalogIn (worldOf ledger)).find? ledger.id =
      some ledger.definition := by decide +kernel
  have hparse : ∃ rows, DataFile.parse (standardStore.config.tablePath ledger.id)
      ledger.definition.columns (DataFile.render ledger.rows).1 = .ok rows :=
    ⟨[[.integer 1, .null], [.integer 2, .text "due"]], by decide +kernel⟩
  have hother : FileTree.place (worldOf ledger).files.here
        (standardStore.config.tablePath ledger.id) ≠
      FileTree.place (worldOf ledger).files.here
        (standardStore.catalogIn (worldOf ledger)).path := by decide +kernel
  have hdrop : ((drop standardStore "ledger").run (worldOf ledger)).1 = .ok () := by
    decide +kernel
  have hclean : ((clean standardStore "ledger").run (worldOf ledger)).1 = .ok () := by
    decide +kernel
  obtain ⟨hdrops, hcleans⟩ := clean_and_drop_iff hid hread hfind
  refine ⟨(hdrops fun e h => ?_).2 ⟨hparse, hother⟩, (hcleans fun e h => ?_).2 hparse⟩
  · rw [hdrop] at h
    cases h
  · rw [hclean] at h
    cases h

/-- The tally that lost its only column to a command cannot be dropped and cannot be cleaned. -/
theorem not_clean_and_drop_tally : ∃ w,
    (alter standardStore "tally" "drop" "entry" none).run (worldOf tally) = (.ok (), w) ∧
      w.files.read ⟨"data/default/tally.csv"⟩ = .ok (Text.encode "\"\"\n") ∧
      (standardStore.catalogIn w).contains tally.id = true ∧
      ((drop standardStore "tally").run w).1 =
        .error (.table (.storage (.fieldCount ⟨"data/default/tally.csv"⟩ 1 0 1))) ∧
      ((clean standardStore "tally").run w).1 =
        .error (.table (.storage (.fieldCount ⟨"data/default/tally.csv"⟩ 1 0 1))) := by
  refine ⟨_, Action.run_eq_of_fst ?_, ?_⟩ <;>
  decide +kernel

end Command

end FlatTables
