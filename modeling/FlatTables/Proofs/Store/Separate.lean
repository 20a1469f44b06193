import FlatTables.Proofs.File.Making
import FlatTables.Proofs.Operation.FailedSave
import FlatTables.Proofs.Store.Touches
import FlatTables.Proofs.TableId

set_option autoImplicit false

/-! # Different tables are stored apart

Tables that are called differently have different catalog entries, whatever they are called
(`TableId.parse_eq_of_fullName_eq`). Their data files are different too, if databases and names hold
no slash and no database is called `.` or `..` (`TableId.Plain.eq_of_place_eq`); nothing checks that,
and other names can lead to one file.

What is done with such a table never changes what is opened under another name: a call touches only
its own table (`Store.TouchesOnly`), and opening a table depends on nothing but its entry, its data
file and the directories on the way to it (`fst_run_create_of_touchesOnly`). The store may be opened
anew in between, as every program does that is started, as long as the document of the catalog holds
the entries in memory (`fst_run_create_of_load`). A store that was opened earlier than another one
may write a document that lacks entries, and a call that fails while it writes the document may leave
none to open. -/

namespace FlatTables

open FileTree (place way)

/-! ## Identifiers that lead into the data directory -/

/-- Whether database and name hold no slash, and the database is a directory in the data directory or
that directory itself. -/
structure TableId.Plain (id : TableId) : Prop where
  database_slash : '/' ∉ id.database.toList
  database_ne_here : id.database ≠ "."
  database_ne_up : id.database ≠ ".."
  name_slash : '/' ∉ id.name.toList

/-- Whether the data file of table `i` lies where the directory of the database of `j` does. -/
def TableId.Nests (i j : TableId) : Prop :=
  i.database = "" ∧ j.database = Config.dataFileName i.name

instance (i j : TableId) : Decidable (i.Nests j) := inferInstanceAs (Decidable (_ ∧ _))

/-- Whether two tables have different full names, and neither lies in the way of the other. -/
structure TableId.Separate (i j : TableId) : Prop where
  name : i.fullName ≠ j.fullName
  left : i.Plain
  right : j.Plain
  not_nests : ¬ i.Nests j
  not_nested : ¬ j.Nests i

namespace TableId

variable {id i j : TableId} {here loc : Location} (c : Config)

theorem isName_dataFileName (h : '/' ∉ id.name.toList) :
    Path.IsName (Config.dataFileName id.name) := by
  have hlength : 4 ≤ (Config.dataFileName id.name).length := by
    simp only [Config.dataFileName, String.length_append]
    exact Nat.le_add_left 4 _
  refine ⟨by simpa [Config.dataFileName] using h, ?_, ?_, ?_⟩ <;>
  · intro heq
    rw [heq] at hlength
    revert hlength
    decide

theorem Plain.isName_database (h : id.Plain) (hne : id.database ≠ "") :
    Path.IsName id.database :=
  ⟨h.database_slash, hne, h.database_ne_here, h.database_ne_up⟩

/-- The place of the directory of a database: inside the data directory, or that itself. -/
theorem Plain.place_databasePath (h : id.Plain) (here : Location) :
    place here (c.databasePath id.database) =
      if id.database = "" then place here c.dataDir else id.database :: place here c.dataDir := by
  unfold Config.databasePath
  split
  · next hempty =>
      rw [hempty]
      exact FileTree.place_join_empty here c.dataDir
  · next hne => exact FileTree.place_join_name here c.dataDir (h.isName_database hne)

theorem Plain.place_tablePath (h : id.Plain) (here : Location) :
    place here (c.tablePath id) =
      Config.dataFileName id.name :: place here (c.databasePath id.database) :=
  FileTree.place_join_name here _ (isName_dataFileName h.name_slash)

/-- The directories on the way to a database are those on the way to the data directory, and its
own. -/
theorem Plain.mem_way_databasePath (h : id.Plain) :
    loc ∈ way here (c.databasePath id.database) ↔
      loc ∈ way here c.dataDir ∨ loc = place here (c.databasePath id.database) := by
  rw [h.place_databasePath]
  unfold Config.databasePath
  split
  · next hempty =>
      rw [hempty, FileTree.way_join_empty]
      exact (or_iff_left_of_imp fun heq => heq ▸ FileTree.place_mem_way here c.dataDir).symm
  · next hne => exact FileTree.mem_way_join_name (h.isName_database hne)

/-- **Different tables have different data files.** -/
theorem Plain.eq_of_place_eq (hi : i.Plain) (hj : j.Plain)
    (h : place here (c.tablePath i) = place here (c.tablePath j)) : i = j := by
  rw [hi.place_tablePath, hj.place_tablePath, hi.place_databasePath, hj.place_databasePath] at h
  obtain ⟨hfile, hdirectory⟩ := List.cons.inj h
  have hname : i.name = j.name := by
    have hchars := congrArg String.toList hfile
    rw [Config.dataFileName, Config.dataFileName, String.toList_append, String.toList_append]
      at hchars
    exact String.toList_inj.1 (List.append_cancel_right hchars)
  have hdatabase : i.database = j.database := by
    split at hdirectory <;> split at hdirectory
    · next hi hj => rw [hi, hj]
    · exact absurd hdirectory.symm (List.cons_ne_self _ _)
    · exact absurd hdirectory (List.cons_ne_self _ _)
    · exact (List.cons.inj hdirectory).1
  cases i
  cases j
  exact congrArg₂ TableId.mk hdatabase hname

/-- The data file of a table lies where a database does only if the two are called alike. -/
theorem Plain.nests_of_place_eq (hi : i.Plain) (hj : j.Plain)
    (h : place here (c.tablePath i) = place here (c.databasePath j.database)) : i.Nests j := by
  rw [hi.place_tablePath, hi.place_databasePath, hj.place_databasePath] at h
  split at h <;> split at h
  · exact absurd h (List.cons_ne_self _ _)
  · next hempty _ => exact ⟨hempty, (List.cons.inj h).1.symm⟩
  · refine absurd (congrArg List.length h) ?_
    simp only [List.length_cons]
    omega
  · exact absurd (List.cons.inj h).2 (List.cons_ne_self _ _)

end TableId

/-! ## What opening a table depends on -/

/-- Whether the database of table `j` has its directory or can be given one, and the document of the
catalog is neither there nor the data file of `j`. At the empty path, where nothing is ever made, the
directory is the current one. -/
structure Store.Serves (s : Store) (j : TableId) (w : World) : Prop where
  here : (s.config.databasePath j.database).text = "" →
    w.files.node? w.files.here = some .directory
  not_dataFile : place w.files.here (s.catalogIn w).path ≠ place w.files.here (s.config.tablePath j)
  not_database : place w.files.here (s.catalogIn w).path ≠
    place w.files.here (s.config.databasePath j.database)
  made : ∃ files, w.files.createDirectories (s.config.databasePath j.database) = (.ok (), files)

/-- The table `t` as one of the store `s`. -/
def Table.inStore (t : Table) (s : Store) : Table := { t with store := some s }

/-- The directory of a database that can be made is made. -/
theorem Store.exists_run_database_of_made {s : Store} {w : World} {name : String} {files : FileTree}
    (hmade : w.files.createDirectories (s.config.databasePath name) = (.ok (), files)) :
    ∃ events, (s.database name).run w =
      (.ok (s.config.databasePath name), { w with files := files, events := events }) := by
  rw [run_database]
  split
  · next hdir =>
      rw [FileTree.createDirectories_of_isDirectory hdir] at hmade
      cases hmade
      exact ⟨w.events, rfl⟩
  · rw [Action.run_bind, run_createDirectory, hmade]
    exact ⟨_, rfl⟩

namespace Operation

variable {s s' : Store} {w w' : World} {text : String}

section

variable {id : TableId} {path : Path} (hfind : w'.files.find path = w.files.find path)
  (hentry : (s'.catalogIn w').find? id = (s.catalogIn w).find? id)

include hfind hentry

/-- The columns of a saved table depend on its entry, and its rows on what stands at its path. -/
theorem fst_run_loadSaved_congr (rows? : Option (List Row)) :
    ((loadSaved s' id path rows?).run w').1 = ((loadSaved s id path rows?).run w).1 := by
  have hread (schema : Schema) :
      DataFile.read w'.files path schema = DataFile.read w.files path schema := by
    rw [DataFile.read, DataFile.read, FileTree.read, FileTree.read, hfind]
  simp only [fst_run_loadSaved, hentry, hread]

/-- **What is found of a table depends on what stands at its path and on its entry.** -/
theorem fst_run_findRows_congr (schema? : Option Schema) (rows? : Option (List Row)) :
    ((findRows s' id path schema? rows? >>= bindRows s' id).run w').1 =
      ((findRows s id path schema? rows? >>= bindRows s id).run w).1.map (·.inStore s') := by
  have hfound : ((findRows s' id path schema? rows?).run w').1 =
      ((findRows s id path schema? rows?).run w).1 := by
    have hcontains : w'.files.contains path = w.files.contains path := by
      rw [FileTree.contains, FileTree.contains, hfind]
    unfold findRows
    rw [Action.run_world_bind, Action.run_world_bind, hcontains]
    split
    · exact fst_run_loadSaved_congr hfind hentry rows?
    · cases schema? <;> rfl
  rw [fst_run_bind_bindRows, fst_run_bind_bindRows, hfound]
  cases ((findRows s id path schema? rows?).run w).1 with
  | error e => rfl
  | ok found => cases hrows : Table.coerceRows id found.1 found.2 <;> simp [hrows] <;> rfl

end

/-- **Two stores open a table alike**, or create it alike, if they have the same entry of it and meet
the same file once the directories of its database are made. -/
theorem fst_run_create_congr {files files' : FileTree} (hconfig : s'.config = s.config)
    (hmade : w.files.createDirectories
      (s.config.databasePath (s.config.resolve text).database) = (.ok (), files))
    (hmade' : w'.files.createDirectories
      (s.config.databasePath (s.config.resolve text).database) = (.ok (), files'))
    (hfind : files'.find (s.config.tablePath (s.config.resolve text)) =
      files.find (s.config.tablePath (s.config.resolve text)))
    (hentry : (s'.catalogIn w').find? (s.config.resolve text) =
      (s.catalogIn w).find? (s.config.resolve text))
    (schema? : Option Schema) (rows? : Option (List Row)) :
    ((create s' text schema? rows?).run w').1 =
      ((create s text schema? rows?).run w).1.map (·.inStore s') := by
  rw [← hconfig] at hmade'
  obtain ⟨events, hdatabase⟩ := Store.exists_run_database_of_made hmade
  obtain ⟨events', hdatabase'⟩ := Store.exists_run_database_of_made hmade'
  rw [fst_run_create hdatabase, fst_run_create hdatabase', hconfig]
  refine fst_run_findRows_congr ?_ ?_ schema? rows?
  · exact hfind
  · exact hentry

end Operation

/-! ## One call on another table -/

/-- Where a directory is ready, its path leads to a directory. -/
theorem Store.exists_walk_of_ready {files : FileTree} {path : Path}
    (hready : Store.Ready files path)
    (hhere : path.text = "" → files.node? files.here = some .directory) :
    ∃ loc, files.walk (files.startOf path) path.parts = .ok loc ∧
      files.node? loc = some .directory := by
  rcases hready with hempty | hdir
  · obtain rfl : path = ⟨""⟩ := by
      cases path
      exact congrArg Path.mk hempty
    exact ⟨files.here, rfl, hhere rfl⟩
  · obtain ⟨loc, hlocate, hnode⟩ := FileTree.isDirectory_iff.1 hdir
    obtain ⟨_, -, hwalk⟩ := bind_eq_ok_iff.1 hlocate
    exact ⟨loc, hwalk, hnode⟩

/-- On the way to a directory that is ready there are only directories. -/
theorem Store.directory_of_ready {files : FileTree} {path : Path} {loc : Location}
    (hready : Store.Ready files path)
    (hhere : path.text = "" → files.node? files.here = some .directory)
    (hmem : loc ∈ way files.here path) : files.node? loc = some .directory := by
  rcases hready with hempty | hdir
  · obtain rfl : path = ⟨""⟩ := by
      cases path
      exact congrArg Path.mk hempty
    obtain ⟨front, hfront, rfl⟩ := FileTree.mem_way_iff.1 hmem
    obtain rfl := List.prefix_nil.1 hfront
    exact hhere rfl
  · exact FileTree.directory_of_mem_way hdir hmem

namespace Store.TouchesOnly

variable {s : Store} {i j : TableId} {w w' : World} {result : Except TableError Unit}
  {loc : Location}

/-- What a call on one table changes on the way to the database of another are directories that it
adds. A file that it writes would have to lie on the way that led to its own data file. -/
theorem growsOn (h : s.TouchesOnly i w result w') (hsep : i.Separate j) (hserves : s.Serves j w) :
    FileTree.GrowsOn (way w.files.here (s.config.databasePath j.database)) w.files w'.files := by
  refine ⟨h.here, h.locked, fun loc hmem => (h.node? loc).imp_right fun htouches => ?_⟩
  -- the way to the data file of `i` leads through the data directory
  have hdataDir : ∀ {loc' : Location}, w'.files.locate (s.config.tablePath i) = .ok loc' →
      loc ∈ way w.files.here s.config.dataDir → w'.files.node? loc = some .directory := by
    intro loc' hlocate hmem
    refine FileTree.directory_of_locate_join (TableId.isName_dataFileName hsep.left.name_slash)
      hlocate ?_
    rw [h.here]
    exact (hsep.left.mem_way_databasePath s.config).2 (.inl hmem)
  rcases (hsep.right.mem_way_databasePath s.config).1 hmem with hmem | rfl
  · cases htouches with
    | directory _ hbefore hafter => exact ⟨hbefore, hafter⟩
    | dataFile hplace _ hafter => exact absurd (hdataDir hplace hmem) hafter
    | document _ _ hafter _ hdataFile =>
        obtain ⟨loc', hlocate⟩ := hdataFile
        exact absurd (hdataDir hlocate hmem) hafter
  · cases htouches with
    | directory _ hbefore hafter => exact ⟨hbefore, hafter⟩
    | dataFile hplace _ _ =>
        have hplace := FileTree.locate_eq_place hplace
        rw [h.here] at hplace
        exact absurd (hsep.left.nests_of_place_eq s.config hsep.right hplace.symm) hsep.not_nests
    | document hplace _ _ _ _ =>
        have hplace := FileTree.locate_eq_place hplace
        rw [h.here] at hplace
        exact absurd hplace.symm hserves.not_database

/-- What a call on one table changes where the data file of another is, is at most a directory on
the way to the data directory. -/
theorem node?_dataFile (h : s.TouchesOnly i w result w') (hsep : i.Separate j) (hserves : s.Serves j w)
    (hway : place w.files.here (s.config.tablePath j) ∉
      way w.files.here (s.config.databasePath j.database)) :
    w'.files.node? (place w.files.here (s.config.tablePath j)) =
      w.files.node? (place w.files.here (s.config.tablePath j)) := by
  refine (h.node? _).resolve_right fun htouches => ?_
  cases htouches with
  | directory hmem _ _ =>
      rcases (hsep.left.mem_way_databasePath s.config).1 hmem with hmem | heq
      · exact hway ((hsep.right.mem_way_databasePath s.config).2 (.inl hmem))
      · exact hsep.not_nested (hsep.right.nests_of_place_eq s.config hsep.left heq)
  | dataFile hplace _ _ =>
      have hplace := FileTree.locate_eq_place hplace
      rw [h.here] at hplace
      exact hsep.name
        (congrArg TableId.fullName (hsep.right.eq_of_place_eq s.config hsep.left hplace).symm)
  | document hplace _ _ _ _ =>
      have hplace := FileTree.locate_eq_place hplace
      rw [h.here] at hplace
      exact hserves.not_dataFile hplace.symm

/-- A store that can make the directory of a table still can after a call on another table. -/
theorem serves (h : s.TouchesOnly i w result w') (hsep : i.Separate j) (hserves : s.Serves j w) :
    s.Serves j w' := by
  obtain ⟨files, hmade⟩ := hserves.made
  refine ⟨?_, ?_, ?_, FileTree.createDirectories_of_growsOn (h.growsOn hsep hserves) hmade⟩
  · intro hempty
    rw [h.here]
    exact h.toExtends.directory _ (hserves.here hempty)
  · rw [h.here, h.path]
    exact hserves.not_dataFile
  · rw [h.here, h.path]
    exact hserves.not_database

/-- Once the directories of its database are made, the data file of a table is found as if the call
on another table had not been made. -/
theorem find_dataFile (h : s.TouchesOnly i w result w') (hsep : i.Separate j) (hserves : s.Serves j w)
    {files files' : FileTree}
    (hmade : w.files.createDirectories (s.config.databasePath j.database) = (.ok (), files))
    (hmade' : w'.files.createDirectories (s.config.databasePath j.database) = (.ok (), files')) :
    files'.find (s.config.tablePath j) = files.find (s.config.tablePath j) := by
  have hgrows := FileTree.grows_of_createDirectories hmade
  have hgrows' := FileTree.grows_of_createDirectories hmade'
  have hready : Store.Ready files (s.config.databasePath j.database) :=
    (FileTree.extends_of_createDirectories hmade).2
  have hready' : Store.Ready files' (s.config.databasePath j.database) :=
    (FileTree.extends_of_createDirectories hmade').2
  have hhere : (s.config.databasePath j.database).text = "" →
      files.node? files.here = some .directory := by
    intro hempty
    rw [hgrows.here]
    exact hgrows.toExtends.directory _ (hserves.here hempty)
  have hhere' : (s.config.databasePath j.database).text = "" →
      files'.node? files'.here = some .directory := by
    intro hempty
    rw [hgrows'.here]
    exact hgrows'.toExtends.directory _ ((h.serves hsep hserves).here hempty)
  have hsame : files'.here = files.here := by rw [hgrows'.here, h.here, hgrows.here]
  refine FileTree.find_join_congr (TableId.isName_dataFileName hsep.right.name_slash) hsame
    (exists_walk_of_ready hready hhere) (exists_walk_of_ready hready' hhere') ?_
  change files'.node? (place files.here (s.config.tablePath j)) =
    files.node? (place files.here (s.config.tablePath j))
  by_cases hmem : place files.here (s.config.tablePath j) ∈
      way files.here (s.config.databasePath j.database)
  · rw [directory_of_ready hready hhere hmem, directory_of_ready hready' hhere' (hsame ▸ hmem)]
  · rw [hgrows.here] at hmem ⊢
    rw [hgrows.node?_of_not_mem hmem, ← h.node?_dataFile hsep hserves hmem]
    exact hgrows'.node?_of_not_mem (h.here ▸ hmem)

end Store.TouchesOnly

namespace Operation

variable {s s' : Store} {i : TableId} {w w' w₁ : World} {result : Except TableError Unit}
  {text : String}

/-- **A call on another table does not change what is opened**, or created. -/
theorem fst_run_create_of_touchesOnly (h : s.TouchesOnly i w result w')
    (hsep : i.Separate (s.config.resolve text)) (hserves : s.Serves (s.config.resolve text) w)
    (schema? : Option Schema) (rows? : Option (List Row)) :
    ((create s text schema? rows?).run w').1 =
      ((create s text schema? rows?).run w).1.map (·.inStore s) := by
  obtain ⟨files, hmade⟩ := hserves.made
  obtain ⟨files', hmade'⟩ := (h.serves hsep hserves).made
  exact fst_run_create_congr rfl hmade hmade' (h.find_dataFile hsep hserves hmade hmade')
    (h.entries _ hsep.name.symm) schema? rows?

/-- **Opening the store anew does not change what is opened**, or created, if the document holds the
entries in memory. -/
theorem fst_run_create_of_load (h : s.Synced w) (hfiles : w₁.files = w.files)
    (hload : (Store.load s.config).run w₁ = (.ok s', w'))
    (hserves : s.Serves (s.config.resolve text) w) (schema? : Option Schema)
    (rows? : Option (List Row)) :
    ((create s' text schema? rows?).run w').1 =
      ((create s text schema? rows?).run w).1.map (·.inStore s') := by
  obtain ⟨hconfig, hcatalog, hsame⟩ := h.of_load hfiles hload
  obtain ⟨files, hmade⟩ := hserves.made
  exact fst_run_create_congr hconfig hmade (hsame ▸ hmade) rfl (by rw [hcatalog]) schema? rows?

end Operation

/-- A store that is opened anew can make the same directories. -/
theorem Store.Serves.of_load {s s' : Store} {j : TableId} {w w' w₁ : World} (hserves : s.Serves j w)
    (h : s.Synced w) (hfiles : w₁.files = w.files)
    (hload : (Store.load s.config).run w₁ = (.ok s', w')) : s'.Serves j w' := by
  obtain ⟨hconfig, hcatalog, hsame⟩ := h.of_load hfiles hload
  constructor <;> rw [hconfig, hsame]
  · exact hserves.here
  · rw [hcatalog]
    exact hserves.not_dataFile
  · rw [hcatalog]
    exact hserves.not_database
  · exact hserves.made

/-! ## Runs of calls -/

/-- The stores and worlds to which calls on table `i` lead, if a caller begins with the store `s` in
the world `w`. A call may end in any way, and is on a table of the store that was opened last. The
store may be opened anew whenever the document of the catalog holds the entries in memory, also by
another program, for which nothing of the world is the same but the files. -/
inductive Store.Leads (s : Store) (i : TableId) (w : World) : Store → World → Prop
  | start : s.Leads i w s w
  | call {s' : Store} {w' : World} (hleads : s.Leads i w s' w') (call : TableCall)
      (hsubject : call.subject? s' = some (s', i)) :
      s.Leads i w s' ((call.action s').run w').2
  | reopen {s' s'' : Store} {w' w₁ w'' : World} (hleads : s.Leads i w s' w')
      (hsynced : s'.Synced w') (hfiles : w₁.files = w'.files)
      (hload : (Store.load s'.config).run w₁ = (.ok s'', w'')) : s.Leads i w s'' w''

/-- A store can be opened anew after a call if it could before, unless the call failed while it wrote
the document. -/
theorem Store.TouchesOnly.synced {s : Store} {i : TableId} {w w' : World}
    {result : Except TableError Unit} (h : s.TouchesOnly i w result w') (hsynced : s.Synced w)
    (hother : place w.files.here (s.config.tablePath i) ≠
      place w.files.here s.config.catalogPath) : s.Synced w' ∨ s.CutShortIn i result w' := by
  have hpath := h.path.trans hsynced.path
  have hdocument : s.DocumentedIn w := by
    unfold DocumentedIn
    rw [hsynced.path]
    exact hsynced.document
  rw [← hsynced.path] at hother
  exact (h.documentedIn hdocument hother).imp_left fun hafter => ⟨hpath, hpath ▸ hafter⟩

/-- **No run of calls on another table changes what is opened**, or created, whether or not the store
is opened anew in between. -/
theorem Operation.fst_run_create_of_leads {s s' : Store} {i : TableId} {w w' : World} {text : String}
    (h : s.Leads i w s' w') (hsep : i.Separate (s.config.resolve text))
    (hserves : s.Serves (s.config.resolve text) w) (schema? : Option Schema)
    (rows? : Option (List Row)) :
    ((create s' text schema? rows?).run w').1 =
      ((create s text schema? rows?).run w).1.map (·.inStore s') := by
  have hinStore : ∀ {x : Except TableError Table} {s₁ s₂ : Store},
      (x.map (·.inStore s₁)).map (·.inStore s₂) = x.map (·.inStore s₂) := by
    intro x s₁ s₂
    cases x <;> rfl
  -- besides, every step keeps the configuration, and the directories that can be made
  suffices s'.config = s.config ∧ s'.Serves (s.config.resolve text) w' ∧
      ((create s' text schema? rows?).run w').1 =
        ((create s text schema? rows?).run w).1.map (·.inStore s') from this.2.2
  induction h with
  | start =>
      obtain ⟨files, hmade⟩ := hserves.made
      exact ⟨rfl, hserves, fst_run_create_congr rfl hmade hmade rfl rfl schema? rows?⟩
  | @call s' w' _ call hsubject ih =>
      obtain ⟨hconfig, hserves', hcreate⟩ := ih
      have htouches := touchesOnly_action s' call hsubject w'
      rw [← hconfig] at hsep hserves' ⊢
      refine ⟨rfl, htouches.serves hsep hserves', ?_⟩
      rw [fst_run_create_of_touchesOnly htouches hsep hserves', hcreate, hinStore]
  | @reopen s' s'' w' _ _ _ hsynced hfiles hload ih =>
      obtain ⟨hconfig, hserves', hcreate⟩ := ih
      obtain ⟨hconfig', -⟩ := hsynced.of_load hfiles hload
      refine ⟨hconfig'.trans hconfig, hserves'.of_load hsynced hfiles hload, ?_⟩
      rw [← hconfig] at hserves'
      rw [fst_run_create_of_load hsynced hfiles hload hserves', hcreate, hinStore]

/-- **Different tables do not share storage.** Two texts that mean different tables have different
catalog entries. If the databases and names of both hold no slash, and no database is called `.` or
`..`, then they have different data files. And if neither data file lies where the database of the
other does, nor the document of the catalog where the other table or its database does, then no run
of calls on the one table changes what is opened, or created, under the name of the other, as long as
the directory of its database is there or can be made. All calls go through the store that was opened
last. It may be opened anew whenever the document of the catalog holds the entries in memory. If the
data file of the one table is not the document, then no call on it makes an end of that, unless it
fails because the system stopped taking the bytes of the document. -/
theorem separate_of_resolve_ne {s : Store} {a b : String}
    (hne : s.config.resolve a ≠ s.config.resolve b) :
    (s.config.resolve a).fullName ≠ (s.config.resolve b).fullName ∧
      ((s.config.resolve a).Plain → (s.config.resolve b).Plain →
        (∀ here, place here (s.config.tablePath (s.config.resolve a)) ≠
          place here (s.config.tablePath (s.config.resolve b))) ∧
        (¬ (s.config.resolve a).Nests (s.config.resolve b) →
          ¬ (s.config.resolve b).Nests (s.config.resolve a) →
          ∀ (w : World) (s' : Store) (w' : World), s.Leads (s.config.resolve a) w s' w' →
            s.Serves (s.config.resolve b) w →
            ∀ schema? rows?,
              ((Operation.create s' b schema? rows?).run w').1 =
                ((Operation.create s b schema? rows?).run w).1.map (·.inStore s'))) ∧
      ∀ (call : TableCall) (w : World), call.subject? s = some (s, s.config.resolve a) →
        place w.files.here (s.config.tablePath (s.config.resolve a)) ≠
          place w.files.here s.config.catalogPath →
        s.Synced w → s.Synced ((call.action s).run w).2 ∨
          s.CutShortIn (s.config.resolve a) ((call.action s).run w).1 ((call.action s).run w).2 := by
  have hname : (s.config.resolve a).fullName ≠ (s.config.resolve b).fullName :=
    fun heq => hne (TableId.parse_eq_of_fullName_eq heq)
  refine ⟨hname, fun hleft hright => ⟨fun here heq => ?_,
    fun hnests hnested w s' w' hleads hserves => ?_⟩, fun call w hsubject hother hsynced => ?_⟩
  · exact hne (hleft.eq_of_place_eq s.config hright heq)
  · exact Operation.fst_run_create_of_leads hleads ⟨hname, hleft, hright, hnests, hnested⟩ hserves
  · exact (Operation.touchesOnly_action s call hsubject w).synced hsynced hother

/-- The world after a run of calls, whatever comes of each. -/
def Store.afterCalls (s : Store) : List TableCall → World → World
  | [], w => w
  | call :: rest, w => s.afterCalls rest ((call.action s).run w).2

/-- The tally is saved, and then cleaned and dropped by another program. That opens the ledger with
the same result as before, in a store of its own. -/
theorem separate_of_resolve_ne_tally :
    let s : Store := ⟨.standard, 0⟩
    s.config.resolve "tally" ≠ s.config.resolve "ledger" ∧
      ∃ s' w₁ w₂, (Store.load s.config).run (World.ofFiles
          ((Operation.save tally).run (worldOf ledger)).2.files) = (.ok s', w₁) ∧
        w₂ = s'.afterCalls [.edit (tally.inStore s') .clean, .drop (tally.inStore s')] w₁ ∧
        ((Operation.load s' "ledger").run w₂).1 =
          .ok { ledger with
            rows := [[.integer 1, .null], [.integer 2, .text "due"]], store := some s' } := by
  intro s
  have hne : s.config.resolve "tally" ≠ s.config.resolve "ledger" := by decide
  obtain ⟨-, hseparate, -⟩ := separate_of_resolve_ne hne
  obtain ⟨-, hleads⟩ := hseparate (by constructor <;> decide) (by constructor <;> decide)
  have hserves : s.Serves (s.config.resolve "ledger") (worldOf ledger) :=
    ⟨by decide +kernel, by decide +kernel, by decide +kernel, _,
      Prod.ext (by decide +kernel) rfl⟩
  have hsaved : s.Leads tally.id (worldOf ledger) s ((Operation.save tally).run (worldOf ledger)).2 :=
    Store.Leads.start.call (.save tally) rfl
  have hsynced : s.Synced ((Operation.save tally).run (worldOf ledger)).2 :=
    ⟨by decide +kernel, _, by decide +kernel, Catalog.entriesOfBytes_encode _ _⟩
  -- the other program begins with the files that are left
  have hfiles := World.files_ofFiles ((Operation.save tally).run (worldOf ledger)).2.files
  obtain ⟨w₁, hcatalog, -⟩ := hsynced.run_load_catalog hfiles
  have hload := Store.run_load hcatalog
  have hdropped := ((hsaved.reopen hsynced hfiles hload).call
    (.edit (tally.inStore _) .clean) rfl).call (.drop (tally.inStore _)) rfl
  refine ⟨hne, _, _, _, hload, rfl, ?_⟩
  have hledger : ((Operation.create s "ledger" none none).run (worldOf ledger)).1 =
      .ok { ledger with rows := [[.integer 1, .null], [.integer 2, .text "due"]] } := by
    decide +kernel
  rw [Operation.load]
  refine (hleads (by decide) (by decide) _ _ _ hdropped hserves none none).trans ?_
  rw [hledger]
  rfl

/-- The first store that is opened with a configuration. -/
def firstStore (config : Config) : Store := ⟨config, 0⟩

/-- The world in which that store was made and nothing else. -/
def firstWorld (config : Config) : World :=
  ((Store.load config).run (World.ofFiles ⟨[], [], []⟩)).2

/-- A table of that store with one column and one row. -/
def lineTable (config : Config) (id line : String) : Table :=
  ⟨config.resolve id, ⟨[⟨"line", .text⟩], by decide⟩, [[.text line]], some (firstStore config)⟩

/-- Whether saving the table `saved` changes what is opened under the other name `id`, in a store
that was just made and in which the tables of `earlier` were saved. -/
def Config.Disturbs (c : Config) (earlier : List String) (saved id : String) : Prop :=
  let w := (firstStore c).afterCalls (earlier.map fun id => .save (lineTable c id id)) (firstWorld c)
  let saving := (Operation.save (lineTable c saved saved)).run w
  c.resolve saved ≠ c.resolve id ∧ saving.1 = .ok () ∧
    ((Operation.load (firstStore c) id).run saving.2).1 ≠
      ((Operation.load (firstStore c) id).run w).1

instance (c : Config) (earlier : List String) (saved id : String) :
    Decidable (c.Disturbs earlier saved id) :=
  inferInstanceAs (Decidable (_ ∧ _ ∧ _))

/-- What a program that is started in a world finds under a name. It opens the store anew. -/
def Config.found (c : Config) (id : String) (w : World) : Except TableError Table :=
  match (Store.load c).run (World.ofFiles w.files) with
  | (.ok s, w') => ((Operation.load s id).run w').1
  | (.error e, _) => .error (.storage e)

/-- With slashes in their names two tables can have one data file: the one that was saved first is
opened with the row of the other. The other conditions are needed too: the default database can be
the data directory itself, or have the name of a data file in it; the document of the catalog can be
a data file; and where the data directory is missing, a path to it that ends in `.` leads nowhere
until another database is asked for. A table that was saved through the store opened last is not
found any more by other programs once another one was saved through a store opened before. Nor is it
found if the disk was full when the document was written for another one. -/
theorem not_separate_unusual :
    (let s := firstStore .standard
      let one := lineTable .standard "x.a/t" "one"
      let two := lineTable .standard "x/a.t" "two"
      s.config.resolve "x.a/t" ≠ s.config.resolve "x/a.t" ∧
        s.config.tablePath one.id = s.config.tablePath two.id ∧
        ∃ w₁ w₂ w₃,
          (Operation.create s "x/a.t" (some two.schema) (some two.rows)).run
            (firstWorld .standard) = (.ok two, w₁) ∧
          (Operation.save one).run w₁ = (.ok (), w₂) ∧
          ((Operation.load s "x.a/t").run w₂).1 = .ok one ∧
          (Operation.save two).run w₂ = (.ok (), w₃) ∧
          ((Operation.load s "x.a/t").run w₃).1 = .ok { one with rows := two.rows }) ∧
      Config.Disturbs ⟨⟨"data"⟩, ".", "catalog.json"⟩ ["t"] ".t" "t" ∧
      Config.Disturbs ⟨⟨"data"⟩, "t.csv", "catalog.json"⟩ [] ".t" "u" ∧
      Config.Disturbs ⟨⟨"data"⟩, "default", "default/t.csv"⟩ ["t"] "u" "t" ∧
      Config.Disturbs ⟨⟨"x/."⟩, "", "/catalog.json"⟩ [] "a.t" "t" ∧
      let t := lineTable .standard "t" "t"
      let u := lineTable .standard "u" "u"
      (∃ w w',
          (Operation.save (u.inStore ⟨.standard, 1⟩)).run
            ((Store.load .standard).run (firstWorld .standard)).2 = (.ok (), w) ∧
          Config.standard.found "u" w = .ok u ∧
          (Operation.save t).run w = (.ok (), w') ∧
          Config.standard.found "u" w' = .error (.storage (.tableNotFound "default.u"))) ∧
        ∃ w w',
          (Operation.save u).run (firstWorld .standard) = (.ok (), w) ∧
          (Operation.save t).run (Operation.fullAfter 2 w) =
            (.error (.storage (.cannotWrite ⟨"data/catalog.json"⟩ Operation.diskFull)), w') ∧
          Config.standard.found "u" w' = .error (.storage
            (.catalogFormat ⟨"data/catalog.json"⟩ ⟨.damaged .endInValue, ⟨1, 0⟩⟩)) := by
  refine ⟨⟨by decide, by decide, _, _, _, Action.run_eq_of_fst ?_, Action.run_eq_of_fst ?_, ?_,
    Action.run_eq_of_fst ?_, ?_⟩, ?_, ?_, ?_, ?_,
    ⟨_, _, Action.run_eq_of_fst ?_, ?_, Action.run_eq_of_fst ?_, ?_⟩,
    _, _, Action.run_eq_of_fst ?_, Action.run_eq_of_fst ?_, ?_⟩ <;>
  decide +kernel

end FlatTables
