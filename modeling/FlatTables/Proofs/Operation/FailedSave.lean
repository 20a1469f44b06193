import FlatTables.Proofs.Algebra.Distinct
import FlatTables.Proofs.Operation.Alter
import FlatTables.Proofs.Operation.Stored

set_option autoImplicit false

/-! # What a failed save leaves behind

A save that fails changes no catalog in memory and no file but the data file and the document of the
catalog. Before the data file is opened nothing at all is lost, and the table is opened as before.
From then on the rows that the file held are gone: it holds those that were written, or some of
their bytes, and a table is opened with them. The document is opened after all rows were written. If
the system then stops taking its bytes, only a beginning of it is left (`kept_of_save_error`). -/

namespace FlatTables

/-- Whether `w'` has the catalogs and the directories of `w`, and the same files everywhere but at the
given spots. -/
structure World.KeptOutside (spots : List Location) (w w' : World) : Prop where
  catalogs : w'.catalogs = w.catalogs
  directories : w.files.Extends w'.files
  file_iff : ∀ loc content, loc ∉ spots →
    (w'.files.node? loc = some (.file content) ↔ w.files.node? loc = some (.file content))
  read : ∀ path content, FileTree.place w.files.here path ∉ spots →
    w.files.read path = .ok content → w'.files.read path = .ok content

namespace World.KeptOutside

variable {spots : List Location} {w w₁ w₂ : World} {files : FileTree} {file : Path}

theorem catalogIn (h : w.KeptOutside spots w₁) (s : Store) : s.catalogIn w₁ = s.catalogIn w :=
  congrFun h.catalogs s.catalog

/-- If the directories stay, then what was read is read again. -/
theorem of_extends (hcatalogs : w₁.catalogs = w.catalogs) (hextends : w.files.Extends w₁.files)
    (hfile : ∀ loc content, loc ∉ spots →
      (w₁.files.node? loc = some (.file content) ↔ w.files.node? loc = some (.file content))) :
    w.KeptOutside spots w₁ := by
  refine ⟨hcatalogs, hextends, hfile, fun path content hpath hread => ?_⟩
  obtain ⟨loc, hloc, hnode, hslash⟩ :=
    FileTree.find_eq_ok_file_iff.1 (FileTree.read_eq_ok_iff.1 hread)
  rw [← FileTree.locate_eq_place hloc] at hpath
  exact FileTree.read_eq_ok_iff.2 (FileTree.find_eq_ok_file_iff.2
    ⟨loc, hextends.locate hloc, (hfile loc content hpath).2 hnode, hslash⟩)

theorem refl (spots : List Location) (w : World) (events : List Event) :
    w.KeptOutside spots { w with events := events } :=
  .of_extends rfl (.refl w.files) fun _ _ _ => Iff.rfl

/-- A further step that changes what stands at one place. -/
theorem step (h : w.KeptOutside spots w₁) (hcatalogs : w₂.catalogs = w₁.catalogs)
    (hextends : w₁.files.Extends w₂.files)
    (hnode : ∀ loc, loc ≠ FileTree.place w₁.files.here file →
      w₂.files.node? loc = w₁.files.node? loc) :
    w.KeptOutside (FileTree.place w.files.here file :: spots) w₂ := by
  refine .of_extends (hcatalogs.trans h.catalogs) (h.directories.trans hextends) ?_
  intro loc content hloc
  obtain ⟨hne, hspots⟩ := not_or.1 (mt List.mem_cons.2 hloc)
  rw [hnode loc (h.directories.here ▸ hne)]
  exact h.file_iff loc content hspots

theorem write {content : List UInt8} (h : w.KeptOutside spots w₁)
    (hwrite : w₁.files.write file content = .ok files) (events : List Event)
    (faults : List (Option Fault)) :
    w.KeptOutside (FileTree.place w.files.here file :: spots)
      { w₁ with files := files, events := events, faults := faults } := by
  refine h.step rfl (FileTree.extends_of_write hwrite) fun loc hne => ?_
  rw [FileTree.node?_of_write hwrite, if_neg hne]

theorem remove (h : w.KeptOutside spots w₁) (hremove : w₁.files.remove file = .ok files)
    (events : List Event) :
    w.KeptOutside (FileTree.place w.files.here file :: spots)
      { w₁ with files := files, events := events } := by
  refine h.step rfl (FileTree.extends_of_remove hremove) fun loc hne => ?_
  rw [FileTree.node?_of_remove hremove, if_neg hne]

end World.KeptOutside

namespace Operation

variable {t : Table} {store : Store} {w w' w₁ : World} {path : Path} {events : List Event}
  {result : Except StorageError Path}

/-- Asking for a database changes no file, whether it succeeds or fails. -/
theorem keptOutside_of_run_database {name : String}
    (h : (store.database name).run w = (result, w₁)) (events : List Event) :
    w.KeptOutside [] { w₁ with events := events } := by
  obtain ⟨-, hcatalogs, hgrows⟩ := Store.grows_of_run_database h
  exact .of_extends hcatalogs hgrows.toExtends fun _ _ _ => hgrows.node?_eq_file_iff

/-! ## Opening before and after -/

section Opening

variable {text : String} {schema? : Option Schema} {rows? : Option (List Row)}

/-- Once the database has its directory, a table is created as if it had been asked for before. -/
theorem fst_run_create_after (h : (store.database (store.config.resolve text).database).run w =
    (.ok path, w₁)) (events : List Event) :
    ((create store text schema? rows?).run { w₁ with events := events }).1 =
      ((create store text schema? rows?).run w).1 := by
  obtain ⟨rfl, files, events₁, rfl, -, hready⟩ := Store.of_run_database h
  obtain ⟨events₂, hagain⟩ := Store.exists_run_database
    (w := { w with files := files, events := events }) hready
  rw [fst_run_create h, fst_run_create hagain]
  exact (onlyLooks_findRows_bindRows _ _ _ _ _).result _ _ rfl rfl

/-- A directory that cannot be made cannot be made when the table is opened afterwards. -/
theorem exists_fst_run_create_error {e : StorageError}
    (h : (store.database (store.config.resolve text).database).run w = (.error e, w₁))
    (events : List Event) :
    ∃ cause, ((create store text schema? rows?).run { w₁ with events := events }).1 =
      .error (.storage
        (.cannotCreate (store.config.databasePath (store.config.resolve text).database) cause)) := by
  obtain ⟨cause, files, events₁, hcreate, -, rfl⟩ := Store.of_run_database_error h
  obtain ⟨cause', hagain⟩ := FileTree.exists_createDirectories_error hcreate
  obtain ⟨events₂, hrun⟩ := Store.exists_run_database_error
    (w := { w with files := files, events := events }) hagain
  exact ⟨cause', fst_run_create_of_error hrun⟩

end Opening

end Operation

/-- Whether the data file of a table has the given content, and the table is opened with it, by the
columns that the catalog has in memory. -/
structure Store.OpensWith (s : Store) (id : TableId) (content : List UInt8) (w : World) : Prop where
  read : w.files.read (s.config.tablePath id) = .ok content
  load : ∀ text definition, s.config.resolve text = id →
    (s.catalogIn w).find? id = some definition →
      ((Operation.load s text).run w).1 = Operation.tableFrom s id definition content

namespace Operation

variable {t : Table} {store : Store} {w w' w₁ : World} {path : Path}

/-- **What is opened once the data file was overwritten**: what was written, read by the columns that
the catalog still has. -/
theorem opensWith_of_write {id : TableId} {content : List UInt8} {files : FileTree}
    (h : (store.database id.database).run w = (.ok path, w₁))
    (hwrite : w₁.files.write (store.config.tablePath id) content = .ok files)
    (hextends : files.Extends w'.files)
    (hread : w'.files.read (store.config.tablePath id) = .ok content) :
    store.OpensWith id content w' := by
  obtain ⟨rfl, files₁, events₁, rfl, -, hready⟩ := Store.of_run_database h
  have hready' := hready.imp_right
    ((FileTree.extends_of_write hwrite).trans hextends).isDirectory
  refine ⟨hread, fun text definition hid hfind => ?_⟩
  obtain ⟨events₂, hload⟩ := exists_run_load_of_read hid hready' hread hfind
  rw [hload]

/-! ## The main result -/

/-- **What a failed save leaves behind.** If the directory of the database cannot be made, or the
data file cannot be opened, then no file and no catalog changes, and the table is opened as before.
If rows cannot be written to the data file, then that file alone has changed, and it holds what was
written by then. Otherwise all rows are written, and the document of the catalog is not: either it
cannot be opened and stays as it was, or the system stops taking its bytes, and it holds only the
beginning of what it should. The catalog in memory is as before in every case. -/
theorem kept_of_save_error {e : TableError} (hstore : t.store = some store)
    (h : (save t).run w = (.error e, w')) :
    let dataFile := FileTree.place w.files.here (store.config.tablePath t.id)
    let document := FileTree.place w.files.here (store.catalogIn w).path
    (∃ cause, e = .storage
        (.cannotCreate (store.config.databasePath t.id.database) cause) ∧ w.KeptOutside [] w' ∧
      ∀ text, store.config.resolve text = t.id → ((load store text).run w).1 = .error e ∧
        ∃ cause', ((load store text).run w').1 = .error (.storage
          (.cannotCreate (store.config.databasePath t.id.database) cause'))) ∨
    (∃ cause, e = .storage (.dataFile (store.config.tablePath t.id) (.file cause)) ∧
      w.KeptOutside [] w' ∧ ∀ text, store.config.resolve text = t.id →
        ((load store text).run w').1 = ((load store text).run w).1) ∨
    (∃ cause content, e = .storage cause ∧
      DataFile.Remains (store.config.tablePath t.id) t.rows w.faults content (.error cause) ∧
      w.KeptOutside [dataFile] w' ∧ store.OpensWith t.id content w') ∨
    ((DataFile.render t.rows).2 = none ∧ ∃ cause,
      e = .storage (.cannotWrite (store.catalogIn w).path cause) ∧
        ((w.KeptOutside [dataFile] w' ∧ store.OpensWith t.id (DataFile.render t.rows).1 w') ∨
          ∃ fault, some fault ∈ w.faults ∧ cause = fault.cause ∧
            w.KeptOutside [document, dataFile] w' ∧
            w'.files.read (store.catalogIn w).path =
              .ok ((Text.encode (entriesWith store t w).toText).take fault.taken) ∧
            (dataFile ≠ document → store.OpensWith t.id (DataFile.render t.rows).1 w'))) := by
  intro dataFile document
  cases saveEnds hstore h with
  | noDirectory w₁ events hdatabase =>
      obtain ⟨cause, -, -, -, rfl, -⟩ := Store.of_run_database_error hdatabase
      refine .inl ⟨cause, rfl, keptOutside_of_run_database hdatabase events, fun text hid => ?_⟩
      rw [← hid] at hdatabase ⊢
      exact ⟨fst_run_create_of_error hdatabase, exists_fst_run_create_error hdatabase events⟩
  | notOpened w₁ events hdatabase hwrite =>
      refine .inr (.inl ⟨_, rfl, keptOutside_of_run_database hdatabase events, fun text hid => ?_⟩)
      rw [← hid] at hdatabase
      exact fst_run_create_after hdatabase events
  | notWritten w₁ events faults hdatabase hremains hwrite =>
      have hkept := (keptOutside_of_run_database hdatabase w₁.events).write hwrite events faults
      exact .inr (.inr (.inl ⟨_, _, rfl, hremains, hkept,
        opensWith_of_write hdatabase hwrite (.refl _) (FileTree.read_of_write hwrite)⟩))
  | notEntered w₁ events faults hdatabase hwrite hwhole hdocument =>
      have hdirectory := keptOutside_of_run_database hdatabase w₁.events
      rw [hdirectory.catalogIn] at hdocument ⊢
      exact .inr (.inr (.inr ⟨hwhole, _, rfl, .inl ⟨hdirectory.write hwrite events faults,
        opensWith_of_write hdatabase hwrite (.refl _) (FileTree.read_of_write hwrite)⟩⟩))
  | halfEntered w₁ events faults hdatabase hwrite hwhole hfault hdocument =>
      have hdirectory := keptOutside_of_run_database hdatabase w₁.events
      have hentries : entriesWith store t w₁ = entriesWith store t w :=
        congrArg (fun catalog : Catalog => catalog.entries.insert t.id.fullName t.definition)
          (hdirectory.catalogIn store)
      rw [hentries] at hdocument
      rw [hdirectory.catalogIn] at hdocument ⊢
      have hfile := hdirectory.write hwrite events faults
      refine .inr (.inr (.inr ⟨hwhole, _, rfl, .inr ⟨_, hfault, rfl,
        hfile.write hdocument events faults, FileTree.read_of_write hdocument, fun hne => ?_⟩⟩))
      refine opensWith_of_write hdatabase hwrite (FileTree.extends_of_write hdocument) ?_
      refine FileTree.read_of_write_of_place_ne hdocument (FileTree.read_of_write hwrite) ?_
      rw [hfile.directories.here]
      exact hne

/-- A table with two columns, of the store that holds the tally. -/
def pairs : Table where
  id := ⟨"default", "pairs"⟩
  schema := ⟨[⟨"entry", .integer⟩, ⟨"sum", .integer⟩], by decide⟩
  rows := [[.integer 2, .integer 3]]
  store := some ⟨.standard, 0⟩

/-- The tally with a row that is too long. -/
def overfullTally : Table := { tally with rows := [[.integer 1], [.integer 2, .integer 3]] }

/-- The overfull tally is not saved: its data file ends within the second row, and the tally is read
from that by the column of the catalog. -/
theorem kept_of_save_error_overfullTally : ∃ e w₁,
    (save overfullTally).run (worldOf tally) = (.error e, w₁) ∧
      w₁.catalogs = (worldOf tally).catalogs ∧
      w₁.files.read ⟨"data/default/tally.csv"⟩ = .ok (Text.encode "1\n2;3") ∧
      ((load ⟨.standard, 0⟩ "tally").run w₁).1 =
        tableFrom ⟨.standard, 0⟩ tally.id tally.definition (Text.encode "1\n2;3") := by
  have hsave := Action.run_eq_of_fst (x := save overfullTally) (w := worldOf tally)
    (r := .error (.storage (.dataFile ⟨"data/default/tally.csv"⟩ (.unequalLengths ⟨1, 2⟩))))
    (by decide +kernel)
  have hrender : (DataFile.render overfullTally.rows).1 = Text.encode "1\n2;3" := by decide +kernel
  have hfaults : (worldOf tally).faults = [] := by decide +kernel
  obtain ⟨_, h, -⟩ | ⟨_, h, -⟩ | ⟨_, _, h, hremains, hkept, hopens⟩ | ⟨-, _, h, -⟩ :=
    kept_of_save_error rfl hsave
  · cases h
  · cases h
  · have hfind : (Store.catalogIn ⟨.standard, 0⟩ (worldOf tally)).find? tally.id =
        some tally.definition := by decide +kernel
    rw [hfaults] at hremains
    rw [hremains.eq_render, hrender] at hopens
    refine ⟨_, _, hsave, hkept.catalogs, hopens.read, hopens.load "tally" _ rfl ?_⟩
    rw [hkept.catalogIn]
    exact hfind
  · cases h

/-- The world of the tally, in which the document of the catalog cannot be written any more. -/
def lockedWorld : World :=
  { worldOf tally with files := { (worldOf tally).files with locked := [["catalog.json", "data"]] } }

/-- What the system says when there is no room for more bytes. -/
def diskFull : FileError := .other "No space left on device" 28

/-- The world `w`, in which the disk is full when bytes are handed over, once some attempts have met
no fault. -/
def fullAfter (attempts : Nat) (w : World) : World :=
  { w with faults := List.replicate attempts none ++ [some ⟨0, diskFull, 0, 0⟩] }

/-- The tally with another row. -/
def recountedTally : Table := { tally with rows := [[.integer 2]] }

/-- The union of the tally with the pairs takes the place of the tally, cannot be saved, and the
tally cannot be opened any more. Nor is the tally opened as before when its catalog entry could not
be written, or when the disk was full at the end of its rows. And when the disk is full after that,
the document of the catalog is empty. -/
theorem not_load_after_save_error : ∃ joined,
    (((create ⟨.standard, 0⟩ "pairs" (some pairs.schema) (some pairs.rows)).run
        (worldOf tally)).1 = .ok pairs ∧
      ((union tally pairs).run (worldOf tally)).1 = .ok joined ∧
      ((rename joined "tally").run (worldOf tally)).1 = .ok overfullTally ∧
      ((load ⟨.standard, 0⟩ "tally").run (worldOf tally)).1 = .ok tally ∧
      ((save overfullTally).run (worldOf tally)).1 = .error (.storage
        (.dataFile ⟨"data/default/tally.csv"⟩ (.unequalLengths ⟨1, 2⟩))) ∧
      ((load ⟨.standard, 0⟩ "tally").run ((save overfullTally).run (worldOf tally)).2).1 =
        .error (.storage (.fieldCount ⟨"data/default/tally.csv"⟩ 2 1 2))) ∧
    (((load ⟨.standard, 0⟩ "tally").run lockedWorld).1 = .ok tally ∧
      ((save recountedTally).run lockedWorld).1 =
        .error (.storage (.cannotWrite ⟨"data/catalog.json"⟩ .permissionDenied)) ∧
      ((load ⟨.standard, 0⟩ "tally").run ((save recountedTally).run lockedWorld).2).1 =
        .ok recountedTally) ∧
    (((save recountedTally).run (fullAfter 1 (worldOf tally))).1 =
        .error (.storage (.cannotWrite ⟨"data/default/tally.csv"⟩ diskFull)) ∧
      ((load ⟨.standard, 0⟩ "tally").run
          ((save recountedTally).run (fullAfter 1 (worldOf tally))).2).1 =
        .ok { tally with rows := [] }) ∧
    ((save recountedTally).run (fullAfter 2 (worldOf tally))).1 =
        .error (.storage (.cannotWrite ⟨"data/catalog.json"⟩ diskFull)) ∧
      ((save recountedTally).run (fullAfter 2 (worldOf tally))).2.files.read ⟨"data/catalog.json"⟩ =
        .ok [] := by
  have hrows : (tally.union pairs).rows = overfullTally.rows := by
    rw [Table.rows_union]
    rfl
  have hrename : (tally.union pairs).rename "tally" = .ok overfullTally := by
    unfold Table.rename
    rw [hrows]
    rfl
  refine ⟨tally.union pairs, ⟨by decide +kernel, rfl, ?_, by decide +kernel, by decide +kernel,
    by decide +kernel⟩, by decide +kernel, by decide +kernel, by decide +kernel, by decide +kernel⟩
  rw [(computes_rename _ _).fst_run, hrename]

end Operation

end FlatTables
