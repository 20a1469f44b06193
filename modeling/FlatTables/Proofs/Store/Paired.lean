import FlatTables.Proofs.Operation.FailedSave

set_option autoImplicit false

/-! # Data files and catalog entries

In a store whose tables lead to different files, the data file of a table exists exactly if the
catalog has its entry (`exists_iff_contains_of_comes`), whatever tables a caller holds and whatever
it does with them, as long as no call fails on a file. Only two calls leave a data file without an
entry, and both only if there was no entry before: cleaning a table, which makes an empty file, and
saving a table whose rows differ in length, which fails after its file was begun. -/

namespace FlatTables

/-! ## Failures on files -/

/-- Whether an error says that a file or directory could not be read, written or removed. -/
def TableError.OnFile : TableError → Prop
  | .storage (.cannotCreate ..) | .storage (.cannotRead ..) | .storage (.cannotWrite ..)
  | .storage (.cannotRemove ..) | .storage (.dataFile _ (.file _)) => True
  | _ => False

/-! ## What a caller does -/

/-- Whether table `j` is `i` itself or has another name, another data file and no directory where
the data file of `i` is. -/
structure TableId.Apart (config : Config) (here : Location) (i j : TableId) : Prop where
  name : j.fullName = i.fullName → j = i
  file : FileTree.place here (config.tablePath j) = FileTree.place here (config.tablePath i) → j = i
  way : FileTree.place here (config.tablePath i) ∉
    FileTree.way here (config.databasePath j.database)

/-- Whether a table is temporary, or belongs to a store under one of the given names. -/
def Table.Among (s : Store) (ids : TableId → Prop) (t : Table) : Prop :=
  t.store = none ∨ t.store = some s ∧ ids t.id

namespace TableCall

/-- Whether a call is about temporary tables and tables of a store under the given names. -/
def Among (s : Store) (ids : TableId → Prop) : TableCall → Prop
  | temporary .. => True
  | create id .. => ids (s.config.resolve id)
  | edit t _ | query t _ | save t | drop t => t.Among s ids
  | combine t other _ => t.Among s ids ∧ other.Among s ids

/-- Whether a call begins the data file of table `i`, which has no entry, without entering it. -/
def Strays (s : Store) (i : TableId) (w : World) : TableCall → Prop
  | edit t .clean => t.store = some s ∧ t.id = i ∧ (s.catalogIn w).contains i = false
  | save t => t.store = some s ∧ t.id = i ∧ (s.catalogIn w).contains i = false ∧
      (DataFile.render t.rows).2 ≠ none
  | _ => False

end TableCall

/-- The worlds to which a caller comes from `w₀` by calls on tables apart from table `i`, or on `i`,
none of which fails on a file or leaves a data file of `i` without an entry. -/
inductive Comes (s : Store) (i : TableId) (w₀ : World) : World → Prop
  | start : Comes s i w₀ w₀
  | call {w w' : World} {result : Except TableError Unit} (hcomes : Comes s i w₀ w)
      (call : TableCall) (hrun : (call.action s).run w = (result, w'))
      (hamong : call.Among s (i.Apart s.config w₀.files.here))
      (hfile : ∀ e, result = .error e → ¬ e.OnFile) (hstrays : ¬ call.Strays s i w) :
      Comes s i w₀ w'

/-! ## What every call keeps -/

/-- Whether the data file of table `i` is there exactly if the catalog has its entry. -/
structure Store.PairedIn (s : Store) (i : TableId) (here : Location) (w : World) : Prop where
  openIn : s.OpenIn w
  here_eq : w.files.here = here
  not_directory : w.files.node? (FileTree.place here (s.config.tablePath i)) ≠ some .directory
  file_iff : (∃ content, w.files.node? (FileTree.place here (s.config.tablePath i)) =
    some (.file content)) ↔ (s.catalogIn w).contains i = true
  /-- The path of the data file leads to it. -/
  locate : (s.catalogIn w).contains i = true →
    w.files.locate (s.config.tablePath i) = .ok (FileTree.place here (s.config.tablePath i)) ∧
      (s.config.tablePath i).endsInSlash = false

namespace Store.PairedIn

variable {s : Store} {i j : TableId} {here : Location} {w w' w₁ : World} {path : Path}
  {content : List UInt8} {files files' : FileTree}

/-! ## One call -/

/-- What leaves the data file, its entry and all directories as they are keeps them paired. -/
theorem frame (h : s.PairedIn i here w) (hopen : s.OpenIn w')
    (hextends : w.files.Extends w'.files)
    (hnode : w'.files.node? (FileTree.place here (s.config.tablePath i)) =
      w.files.node? (FileTree.place here (s.config.tablePath i)))
    (hcontains : (s.catalogIn w').contains i = (s.catalogIn w).contains i) :
    s.PairedIn i here w' where
  openIn := hopen
  here_eq := hextends.here.trans h.here_eq
  not_directory := hnode ▸ h.not_directory
  file_iff := by rw [hnode, hcontains]; exact h.file_iff
  locate := fun hentry => by
    obtain ⟨hlocate, hslash⟩ := h.locate (hcontains ▸ hentry)
    exact ⟨hextends.locate hlocate, hslash⟩

/-- A data file and an entry that are both there are paired. -/
theorem of_present (hopen : s.OpenIn w') (hhere : w'.files.here = here)
    (hread : w'.files.read (s.config.tablePath i) = .ok content)
    (hcontains : (s.catalogIn w').contains i = true) : s.PairedIn i here w' := by
  obtain ⟨loc, hloc, hnode, hslash⟩ :=
    FileTree.find_eq_ok_file_iff.1 (FileTree.read_eq_ok_iff.1 hread)
  obtain rfl : loc = FileTree.place here (s.config.tablePath i) := by
    rw [FileTree.locate_eq_place hloc, hhere]
  exact ⟨hopen, hhere, by rw [hnode]; nofun, ⟨fun _ => hcontains, fun _ => ⟨content, hnode⟩⟩,
    fun _ => ⟨hloc, hslash⟩⟩

/-- A data file and an entry that are both missing are paired. -/
theorem of_absent (hopen : s.OpenIn w') (hhere : w'.files.here = here)
    (hnode : w'.files.node? (FileTree.place here (s.config.tablePath i)) = none)
    (hcontains : (s.catalogIn w').contains i = false) : s.PairedIn i here w' :=
  ⟨hopen, hhere, by rw [hnode]; nofun, by simp [hnode, hcontains], by simp [hcontains]⟩

theorem report (h : s.PairedIn i here w) (event : Event) : s.PairedIn i here (w.report event) :=
  h.frame ⟨h.openIn.opened, h.openIn.path⟩ (.refl _) rfl rfl

theorem of_onlyLooks {ε α : Type} {x : Action ε α} {result : Except ε α}
    (h : s.PairedIn i here w) (hx : x.OnlyLooks) (hrun : x.run w = (result, w')) :
    s.PairedIn i here w' := by
  obtain ⟨events, hworld⟩ := hx.exists_events w
  rw [hrun] at hworld
  subst hworld
  exact h.frame ⟨h.openIn.opened, h.openIn.path⟩ (.refl _) rfl rfl

/-- Directories that are made for a database keep them paired. -/
theorem of_grows {name : String} (h : s.PairedIn i here w)
    (hway : FileTree.place here (s.config.tablePath i) ∉
      FileTree.way here (s.config.databasePath name))
    (hgrows : w'.opened = w.opened ∧ w'.catalogs = w.catalogs ∧
      FileTree.Grows (FileTree.way w.files.here (s.config.databasePath name)) w.files w'.files) :
    s.PairedIn i here w' := by
  obtain ⟨hopened, hcatalogs, hgrows⟩ := hgrows
  have hcatalog : s.catalogIn w' = s.catalogIn w := congrFun hcatalogs s.catalog
  rw [h.here_eq] at hgrows
  refine h.frame ⟨hopened ▸ h.openIn.opened, hcatalog ▸ h.openIn.path⟩ hgrows.toExtends
    (hgrows.node?_of_not_mem hway) ?_
  rw [hcatalog]

/-- The document of the catalog stays where it is. -/
theorem path_of_catalogs (h : s.PairedIn i here w) (hcatalogs : w₁.catalogs = w.catalogs) :
    (s.catalogIn w₁).path = s.config.catalogPath := by
  rw [← h.openIn.path, catalogIn, catalogIn, hcatalogs]

/-- Writing the data file of a table of the store changes that of `i` only if the table is `i`. -/
theorem node?_of_write (h : s.PairedIn i here w) (hapart : i.Apart s.config here j)
    (hdatabase : (s.database j.database).run w = (.ok path, w₁))
    (hwrite : w₁.files.write (s.config.tablePath j) content = .ok files) (hne : j ≠ i) :
    files.node? (FileTree.place here (s.config.tablePath i)) =
      w.files.node? (FileTree.place here (s.config.tablePath i)) := by
  obtain ⟨-, -, hgrows⟩ := grows_of_run_database hdatabase
  rw [h.here_eq] at hgrows
  have hhere : w₁.files.here = here := hgrows.here.trans h.here_eq
  rw [FileTree.node?_of_write hwrite, hhere, if_neg fun heq => hne (hapart.file heq.symm),
    hgrows.node?_of_not_mem hapart.way]

theorem extends_of_write (hdatabase : (s.database j.database).run w = (.ok path, w₁))
    (hwrite : w₁.files.write (s.config.tablePath j) content = .ok files) :
    w.files.Extends files := by
  obtain ⟨-, -, hgrows⟩ := grows_of_run_database hdatabase
  exact hgrows.toExtends.trans (FileTree.extends_of_write hwrite)

/-- Overwriting the data file of a table that has an entry, or of another table. -/
theorem overwrite (h : s.PairedIn i here w) (hapart : i.Apart s.config here j)
    (hdatabase : (s.database j.database).run w = (.ok path, w₁))
    (hwrite : w₁.files.write (s.config.tablePath j) content = .ok files)
    (hentry : j = i → (s.catalogIn w).contains i = true) (events : List Event)
    (faults : List (Option Fault)) :
    s.PairedIn i here { w₁ with files := files, events := events, faults := faults } := by
  obtain ⟨hopened, hcatalogs, -⟩ := grows_of_run_database hdatabase
  have hextends := extends_of_write hdatabase hwrite
  let w₂ : World := { w₁ with files := files, events := events, faults := faults }
  have hcatalog : s.catalogIn w₂ = s.catalogIn w := congrFun hcatalogs s.catalog
  have hopen : s.OpenIn w₂ := ⟨h.openIn.opened.trans_eq hopened.symm, hcatalog ▸ h.openIn.path⟩
  by_cases hj : j = i
  · subst hj
    exact of_present hopen (hextends.here.trans h.here_eq) (FileTree.read_of_write hwrite)
      (hcatalog ▸ hentry rfl)
  · exact h.frame hopen hextends (h.node?_of_write hapart hdatabase hwrite hj) (by rw [hcatalog])

section

variable {t : Table} {result : Except TableError Unit}
  (hdocument : FileTree.place here (s.config.tablePath i) ≠
    FileTree.place here s.config.catalogPath)

include hdocument

/-- Writing the document of the catalog leaves the data file as it is. -/
theorem node?_of_write_document (h : s.PairedIn i here w) (hextends : w.files.Extends files)
    (hcatalogs : w₁.catalogs = w.catalogs)
    (hwrite : files.write (s.catalogIn w₁).path content = .ok files') :
    files'.node? (FileTree.place here (s.config.tablePath i)) =
      files.node? (FileTree.place here (s.config.tablePath i)) := by
  rw [FileTree.node?_of_write hwrite, h.path_of_catalogs hcatalogs,
    hextends.here.trans h.here_eq, if_neg hdocument]

/-- **Saving a table keeps them paired**, unless a table without an entry is cut short. -/
theorem save (h : s.PairedIn i here w) (hamong : t.Among s (i.Apart s.config here))
    (hrun : (Operation.save t).run w = (result, w'))
    (hfile : ∀ e, result = .error e → ¬ e.OnFile)
    (hwhole : t.store = some s → t.id = i →
      (s.catalogIn w).contains i = true ∨ (DataFile.render t.rows).2 = none) :
    s.PairedIn i here w' := by
  obtain hstore | ⟨hstore, hapart⟩ := hamong
  · rw [Operation.save, Action.run_bind_of_error
      (Operation.run_storeFor_of_temporary hstore .save w)] at hrun
    obtain ⟨-, rfl⟩ := Prod.mk.inj hrun
    exact h.report _
  have hopen := Operation.keepsOpen_save t s w h.openIn
  rw [hrun] at hopen
  cases Operation.saveEnds hstore hrun with
  | noDirectory w₁ events hdatabase =>
      obtain ⟨cause, -, -, -, rfl, -⟩ := of_run_database_error hdatabase
      exact absurd trivial (hfile _ rfl)
  | notOpened w₁ events hdatabase hwrite => exact absurd trivial (hfile _ rfl)
  | notWritten w₁ events faults hdatabase hremains hwrite =>
      cases hremains with
      | stopped hfault => exact absurd trivial (hfile _ rfl)
      | unequal _ hcut =>
          refine h.overwrite hapart hdatabase hwrite (fun heq => ?_) events faults
          exact (hwhole hstore heq).resolve_right (by rw [hcut]; nofun)
      | notFlushed hfault => exact absurd trivial (hfile _ rfl)
  | notEntered w₁ events faults hdatabase hwrite hwhole hdocument =>
      exact absurd trivial (hfile _ rfl)
  | halfEntered w₁ events faults hdatabase hwrite hwhole hfault hdocument =>
      exact absurd trivial (hfile _ rfl)
  | @saved _ files files' w₁ events faults hdatabase hwrite hwritten =>
      obtain ⟨-, hcatalogs, -⟩ := grows_of_run_database hdatabase
      have hextends := extends_of_write hdatabase hwrite
      have hextends' := hextends.trans (FileTree.extends_of_write hwritten)
      have hcontains := Operation.contains_entriesWith s t w₁ (s.catalogIn w₁).path i
      rw [← catalogIn_setCatalog s { w₁ with files := files', events := events, faults := faults }
        ⟨(s.catalogIn w₁).path, Operation.entriesWith s t w₁⟩] at hcontains
      by_cases hid : t.id = i
      · have hread := FileTree.read_of_write hwrite
        rw [hid] at hread
        have hread' := FileTree.read_of_write_of_place_ne hwritten hread (by
          rw [h.path_of_catalogs hcatalogs, hextends.here.trans h.here_eq]
          exact hdocument)
        exact of_present hopen (hextends'.here.trans h.here_eq) hread'
          (hcontains.trans (if_pos (by rw [hid])))
      · have hnode := h.node?_of_write_document hdocument hextends hcatalogs hwritten
        refine h.frame hopen hextends'
          (hnode.trans (h.node?_of_write hapart hdatabase hwrite hid)) (hcontains.trans ?_)
        rw [if_neg fun heq => hid (hapart.name heq.symm), catalogIn, catalogIn, hcatalogs]

/-- **Dropping a table keeps them paired.** -/
theorem drop (h : s.PairedIn i here w) (hamong : t.Among s (i.Apart s.config here))
    (hrun : (Operation.drop t).run w = (result, w'))
    (hfile : ∀ e, result = .error e → ¬ e.OnFile) : s.PairedIn i here w' := by
  obtain hstore | ⟨hstore, hapart⟩ := hamong
  · rw [Operation.drop, Action.run_bind_of_error
      (Operation.run_storeFor_of_temporary hstore .drop w)] at hrun
    obtain ⟨-, rfl⟩ := Prod.mk.inj hrun
    exact h.report _
  have hopen := Operation.keepsOpen_drop t s w h.openIn
  rw [hrun] at hopen
  cases Operation.dropEnds hstore hrun with
  | missing events hpart => exact h.frame hopen (.refl _) rfl rfl
  | notRemoved events hparts hremove => exact absurd trivial (hfile _ rfl)
  | notTakenOut events hparts hremove hdocument => exact absurd trivial (hfile _ rfl)
  | halfTakenOut events faults hparts hremove hfault hdocument =>
      exact absurd trivial (hfile _ rfl)
  | @dropped files files' events faults hparts hremove hwritten =>
      have hextends := FileTree.extends_of_remove hremove
      have hextends' := hextends.trans (FileTree.extends_of_write hwritten)
      have hnode := h.node?_of_write_document hdocument hextends rfl hwritten
      rw [FileTree.node?_of_remove hremove, h.here_eq] at hnode
      have hcontains := Operation.contains_entriesWithout s t.id w (s.catalogIn w).path i
      rw [← catalogIn_setCatalog s { w with files := files', events := events, faults := faults }
        ⟨(s.catalogIn w).path, Operation.entriesWithout s t.id w⟩] at hcontains
      by_cases hid : t.id = i
      · rw [if_pos (by rw [hid])] at hnode hcontains
        exact of_absent hopen (hextends'.here.trans h.here_eq) hnode hcontains
      · rw [if_neg fun heq => hid (hapart.file heq.symm)] at hnode
        rw [if_neg fun heq => hid (hapart.name heq.symm)] at hcontains
        exact h.frame hopen hextends' hnode hcontains

omit hdocument in
/-- **Cleaning a table keeps them paired**, unless it has no entry. -/
theorem clean (h : s.PairedIn i here w) (hamong : t.Among s (i.Apart s.config here))
    (hrun : (Operation.clean t).2.run w = (result, w'))
    (hfile : ∀ e, result = .error e → ¬ e.OnFile)
    (hentry : t.store = some s → t.id = i → (s.catalogIn w).contains i = true) :
    s.PairedIn i here w' := by
  rcases hamong with hstore | ⟨hstore, hapart⟩
  · have hfile : (Operation.cleanFile t).OnlyLooks := by
      rw [Operation.cleanFile, hstore]
      exact .pure ()
    exact h.of_onlyLooks (.bind hfile fun _ => .emit _ _) hrun
  · cases Operation.cleanEnds hstore hrun with
    | noDirectory w₁ events hdatabase =>
        obtain ⟨cause, -, -, -, rfl, -⟩ := of_run_database_error hdatabase
        exact absurd trivial (hfile _ rfl)
    | notOpened w₁ events hdatabase hwrite => exact absurd trivial (hfile _ rfl)
    | cleaned w₁ events hdatabase hwrite =>
        exact h.overwrite hapart hdatabase hwrite (hentry hstore) events w₁.faults

/-- **Every call keeps the data file and the entry of a table paired**, unless it strays. -/
theorem call (h : s.PairedIn i here w) (call : TableCall)
    (hrun : (call.action s).run w = (result, w'))
    (hamong : call.Among s (i.Apart s.config here))
    (hfile : ∀ e, result = .error e → ¬ e.OnFile) (hstrays : ¬ call.Strays s i w) :
    s.PairedIn i here w' := by
  cases call with
  | temporary id schema rows =>
      have hlooks := (Operation.computes_temporary id schema rows).onlyLooks
      exact h.of_onlyLooks (.bind hlooks fun _ => .pure ()) hrun
  | query t q => exact h.of_onlyLooks (.bind (Operation.onlyLooks_query t q) fun _ => .pure ()) hrun
  | combine t other c =>
      exact h.of_onlyLooks (.bind (Operation.onlyLooks_combination t other c) fun _ => .pure ()) hrun
  | create id schema? rows? =>
      rw [TableCall.action, run_bind_pure] at hrun
      obtain ⟨-, rfl⟩ := Prod.mk.inj hrun
      exact h.of_grows hamong.way (Operation.grows_of_create Prod.mk.eta.symm)
  | edit t e =>
      by_cases hclean : e = .clean
      · subst hclean
        rw [TableCall.action, Edit.action, bind_assoc] at hrun
        simp only [pure_bind] at hrun
        rw [run_bind_pure] at hrun
        obtain ⟨rfl, rfl⟩ := Prod.mk.inj hrun
        refine h.clean hamong Prod.mk.eta.symm (fun e he => hfile e (map_eq_error_iff.2 he)) ?_
        intro hstore hid
        exact Bool.not_eq_false _ ▸ fun hnone => hstrays ⟨hstore, hid, hnone⟩
      · exact h.of_onlyLooks (.bind (Operation.onlyLooks_edit t hclean) fun _ => .pure ()) hrun
  | save t =>
      refine h.save hdocument hamong hrun hfile fun hstore hid => ?_
      by_contra hnot
      rw [not_or, Bool.not_eq_true] at hnot
      exact hstrays ⟨hstore, hid, hnot⟩
  | drop t => exact h.drop hdocument hamong hrun hfile

end

end Store.PairedIn

/-- A run of calls keeps them paired. -/
theorem pairedIn_of_comes {s : Store} {i : TableId} {w₀ w : World}
    (hdocument : FileTree.place w₀.files.here (s.config.tablePath i) ≠
      FileTree.place w₀.files.here s.config.catalogPath)
    (h₀ : s.PairedIn i w₀.files.here w₀) (hcomes : Comes s i w₀ w) :
    s.PairedIn i w₀.files.here w := by
  induction hcomes with
  | start => exact h₀
  | call _ call hrun hamong hfile hstrays ih =>
      exact ih.call hdocument call hrun hamong hfile hstrays

/-! ## What a caller sees -/

namespace Store.PairedIn

variable {s : Store} {i : TableId} {here : Location} {w w₁ : World}

theorem exists_read (h : s.PairedIn i here w) (hcontains : (s.catalogIn w).contains i = true) :
    ∃ content, w.files.read (s.config.tablePath i) = .ok content := by
  obtain ⟨content, hnode⟩ := h.file_iff.2 hcontains
  obtain ⟨hlocate, hslash⟩ := h.locate hcontains
  exact ⟨content, FileTree.read_eq_ok_iff.2
    (FileTree.find_eq_ok_file_iff.2 ⟨_, hlocate, hnode, hslash⟩)⟩

/-- The data file is there exactly if the entry is. -/
theorem contains_eq (h : s.PairedIn i here w) :
    w.files.contains (s.config.tablePath i) = (s.catalogIn w).contains i := by
  unfold FileTree.contains
  cases hcontains : (s.catalogIn w).contains i with
  | true =>
      obtain ⟨content, hread⟩ := h.exists_read hcontains
      rw [FileTree.read_eq_ok_iff.1 hread]
  | false =>
      cases hfind : w.files.find (s.config.tablePath i) with
      | error e => rfl
      | ok node =>
          have hnode := FileTree.node?_of_find hfind
          rw [h.here_eq] at hnode
          cases node with
          | directory => exact absurd hnode h.not_directory
          | file content =>
              rw [h.file_iff.1 ⟨content, hnode⟩] at hcontains
              cases hcontains

/-- **What is created under a name that has no entry**: a table with the given columns and rows, if
the rows are rows of these columns. -/
theorem fst_run_create_of_not_contains {text : String} {path : Path} (h : s.PairedIn i here w)
    (hway : FileTree.place here (s.config.tablePath i) ∉
      FileTree.way here (s.config.databasePath i.database)) (hid : s.config.resolve text = i)
    (hcontains : (s.catalogIn w).contains i = false)
    (hdatabase : (s.database i.database).run w = (.ok path, w₁)) (schema : Schema)
    (rows? : Option (List Row)) :
    ((Operation.create s text (some schema) rows?).run w).1 =
      (Table.coerceRows i schema (rows?.getD [])).map fun rows => ⟨i, schema, rows, some s⟩ := by
  subst hid
  obtain ⟨-, hcatalogs, -⟩ := grows_of_run_database hdatabase
  have h₁ := h.of_grows hway (grows_of_run_database hdatabase)
  have hnone : w₁.files.contains (s.config.tablePath (s.config.resolve text)) = false := by
    rw [h₁.contains_eq, catalogIn, hcatalogs]
    exact hcontains
  have hfind : (Operation.findRows s (s.config.resolve text)
      (s.config.tablePath (s.config.resolve text)) (some schema) rows?).run w₁ =
        (.ok (schema, rows?.getD []), w₁) := by
    rw [Operation.findRows, Action.run_world_bind, hnone]
    rfl
  rw [Operation.fst_run_create hdatabase, Action.run_bind_of_ok hfind, Operation.fst_run_bindRows]

/-- **No data file without an entry is met.** -/
theorem fst_run_create_ne_tableNotFound {text : String} (h : s.PairedIn i here w)
    (hway : FileTree.place here (s.config.tablePath i) ∉
      FileTree.way here (s.config.databasePath i.database)) (hid : s.config.resolve text = i)
    (schema? : Option Schema) (rows? : Option (List Row)) (name : String) :
    ((Operation.create s text schema? rows?).run w).1 ≠ .error (.storage (.tableNotFound name)) := by
  subst hid
  rcases hdatabase : (s.database (s.config.resolve text).database).run w with ⟨e | path, w₁⟩
  · obtain ⟨cause, -, -, -, rfl, -⟩ := of_run_database_error hdatabase
    rw [Operation.fst_run_create_of_error hdatabase]
    nofun
  · have h₁ := h.of_grows hway (grows_of_run_database hdatabase)
    rw [Operation.fst_run_create hdatabase]
    intro hrun
    obtain ⟨hcontains, hnone⟩ := Operation.contains_of_findRows_bindRows hrun
    rw [h₁.contains_eq, hnone] at hcontains
    cases hcontains

end Store.PairedIn

/-- **Data files and catalog entries stay paired.** A store is opened that has neither an entry nor
a data file of table `i`. After any run of calls, of which none fails on a file, the data file is
there exactly if the entry is. So no data file without an entry is met when the table is created,
and if it has no entry, then it can be created with columns of any kind. The other tables of the run
have other names and other data files, no database lies where the data file of `i` is, and as long
as `i` has no entry it is not cleaned and its rows, if saved, have one length. -/
theorem exists_iff_contains_of_comes {config : Config} {s : Store} {i : TableId} {w₀ w₁ w : World}
    (hload : (Store.load config).run w₀ = (.ok s, w₁))
    (hentry : (s.catalogIn w₁).contains i = false)
    (hnode : w₁.files.node? (FileTree.place w₁.files.here (config.tablePath i)) = none)
    (hway : FileTree.place w₁.files.here (config.tablePath i) ∉
      FileTree.way w₁.files.here (config.databasePath i.database))
    (hcomes : Comes s i w₁ w) :
    w.files.contains (config.tablePath i) = (s.catalogIn w).contains i ∧
      ((s.catalogIn w).contains i = true →
        ∃ content, w.files.read (config.tablePath i) = .ok content) ∧
      ∀ text, config.resolve text = i →
        (∀ schema? rows? name, ((Operation.create s text schema? rows?).run w).1 ≠
          .error (.storage (.tableNotFound name))) ∧
        ((s.catalogIn w).contains i = false → ∀ schema rows?,
          ((Operation.create s text (some schema) rows?).run w).1 =
              (Table.coerceRows i schema (rows?.getD [])).map (⟨i, schema, ·, some s⟩) ∨
            ∃ cause, ((Operation.create s text (some schema) rows?).run w).1 =
              .error (.storage (.cannotCreate (config.databasePath i.database) cause))) := by
  obtain ⟨rfl, hsynced⟩ := Store.synced_of_load hload
  -- the document of the catalog is a file, so the data file is another one
  have hdocument : FileTree.place w₁.files.here (s.config.tablePath i) ≠
      FileTree.place w₁.files.here s.config.catalogPath := by
    obtain ⟨bytes, hread, -⟩ := hsynced.document
    have hfile := FileTree.node?_of_find (FileTree.read_eq_ok_iff.1 hread)
    intro heq
    rw [← heq, hnode] at hfile
    cases hfile
  have hpaired := pairedIn_of_comes hdocument
    (.of_absent (Store.openIn_of_load hload) rfl hnode hentry) hcomes
  refine ⟨hpaired.contains_eq, hpaired.exists_read, fun text hid => ⟨?_, ?_⟩⟩
  · exact hpaired.fst_run_create_ne_tableNotFound hway hid
  · intro hcontains schema rows?
    rcases hdatabase : (s.database i.database).run w with ⟨e | path, w₂⟩
    · obtain ⟨cause, -, -, -, rfl, -⟩ := Store.of_run_database_error hdatabase
      subst hid
      exact .inr ⟨cause, Operation.fst_run_create_of_error hdatabase⟩
    · exact .inl (hpaired.fst_run_create_of_not_contains hway hid hcontains hdatabase schema rows?)

/-- The first store that is opened, with the given default database. -/
def storeOf (database : String) : Store := ⟨{ Config.standard with defaultDatabase := database }, 0⟩

/-- The world in which that store was made and nothing else. -/
def freshWorld (database : String) : World :=
  ((Store.load (storeOf database).config).run (World.ofFiles ⟨[], [], []⟩)).2

/-- The tally is saved, cleaned and dropped, while the ledger is saved. Then there is neither a data
file nor an entry of the tally, and it can be created with other columns. -/
theorem exists_iff_contains_of_comes_tally : ∃ w,
    Comes (storeOf "default") tally.id (freshWorld "default") w ∧
      (Store.catalogIn (storeOf "default") w).entries.keys = ["default.ledger"] ∧
      w.files.contains ⟨"data/default/tally.csv"⟩ = false ∧
      let created := (Operation.create (storeOf "default") "tally" (some ledger.schema) none).run w
      created.1 = .ok ⟨tally.id, ledger.schema, [], some (storeOf "default")⟩ ∨
        ∃ cause, created.1 = .error (.storage (.cannotCreate ⟨"data/default"⟩ cause)) := by
  have hself : tally.id.Apart .standard [] tally.id := by constructor <;> decide +kernel
  have hother : tally.id.Apart .standard [] ledger.id := by constructor <;> decide +kernel
  have hload := Action.run_eq_of_fst (x := Store.load (storeOf "default").config)
    (w := World.ofFiles ⟨[], [], []⟩) (r := .ok (storeOf "default")) (by decide +kernel)
  have hsaved : Comes (storeOf "default") tally.id (freshWorld "default") _ :=
    .call .start (.save tally) (Action.run_eq_of_fst (r := .ok ()) (by decide +kernel))
      (.inr ⟨rfl, hself⟩) nofun fun h => h.2.2.2 (by decide +kernel)
  have hcleaned := hsaved.call (.edit tally .clean)
    (Action.run_eq_of_fst (r := .ok ()) (by decide +kernel)) (.inr ⟨rfl, hself⟩) nofun
    fun h => absurd h.2.2 (by decide +kernel)
  have hledger := hcleaned.call (.save ledger)
    (Action.run_eq_of_fst (r := .ok ()) (by decide +kernel)) (.inr ⟨rfl, hother⟩) nofun
    fun h => h.2.2.2 (by decide +kernel)
  have hdropped := hledger.call (.drop tally)
    (Action.run_eq_of_fst (r := .ok ()) (by decide +kernel)) (.inr ⟨rfl, hself⟩) nofun id
  obtain ⟨hcontains, -, hcreate⟩ := exists_iff_contains_of_comes hload (by decide +kernel)
    (by decide +kernel) (by decide +kernel) hdropped
  refine ⟨_, hdropped, by decide +kernel, hcontains.trans (by decide +kernel), ?_⟩
  exact (hcreate "tally" rfl).2 (by decide +kernel) ledger.schema none

/-- Whether table `i` has a data file without an entry, or an entry without a data file. -/
def Store.Unpaired (s : Store) (i : TableId) (w : World) : Prop :=
  w.files.contains (s.config.tablePath i) ≠ (s.catalogIn w).contains i

instance (s : Store) (i : TableId) (w : World) : Decidable (s.Unpaired i w) :=
  inferInstanceAs (Decidable (_ ≠ _))

/-- A tally that was never saved has a data file without an entry once it is cleaned, and cannot be
created any more. So has one that is saved with rows of different lengths. The data file of a saved
tally is found under a name that was never saved. Where the directory of a database lies it is taken
for a data file, and a table that was never saved has the entry of one with the same full name. -/
theorem not_exists_iff_contains_unsaved :
    (∃ w₁ w₂, (Operation.create (storeOf "default") "tally" (some tally.schema) none).run
        (freshWorld "default") = (.ok tally.cleared, w₁) ∧
      (Operation.clean tally.cleared).2.run w₁ = (.ok (), w₂) ∧
      (storeOf "default").Unpaired tally.id w₂ ∧
      ((Operation.create (storeOf "default") "tally" (some tally.schema) none).run w₂).1 =
        .error (.storage (.tableNotFound "default.tally"))) ∧
    (∃ w, (Operation.save Operation.overfullTally).run (freshWorld "default") =
        (.error (.storage (.dataFile ⟨"data/default/tally.csv"⟩ (.unequalLengths ⟨1, 2⟩))), w) ∧
      (storeOf "default").Unpaired tally.id w) ∧
    (∃ w, (Operation.save tally).run (freshWorld "default") = (.ok (), w) ∧
      (storeOf "default").Unpaired ((storeOf "default").config.resolve "../default/tally") w) ∧
    (∃ t w, (Operation.create (storeOf "tally.csv") "parts" (some tally.schema) none).run
        (freshWorld "tally.csv") = (.ok t, w) ∧
      (storeOf "tally.csv").Unpaired ((storeOf "tally.csv").config.resolve ".tally") w) ∧
    ∃ t t' w w', (Operation.create (storeOf "a.b") "a.x" (some tally.schema) none).run
        (freshWorld "a.b") = (.ok t, w) ∧
      ((Operation.rename t "b.c.d.e").run w).1 = .ok t' ∧
      (Operation.save ⟨(storeOf "a.b").config.resolve "c.d.e", tally.schema, [],
        some (storeOf "a.b")⟩).run w = (.ok (), w') ∧
      (storeOf "a.b").Unpaired t'.id w' := by
  refine ⟨⟨_, _, Action.run_eq_of_fst ?_, Action.run_eq_of_fst ?_, ?_, ?_⟩,
    ⟨_, Action.run_eq_of_fst ?_, ?_⟩, ⟨_, Action.run_eq_of_fst ?_, ?_⟩,
    ⟨⟨⟨"tally.csv", "parts"⟩, tally.schema, [], some (storeOf "tally.csv")⟩, _,
      Action.run_eq_of_fst ?_, ?_⟩,
    ⟨⟨"a", "x"⟩, tally.schema, [], some (storeOf "a.b")⟩,
    ⟨⟨"a", "b.c.d.e"⟩, tally.schema, [], some (storeOf "a.b")⟩, _, _,
    Action.run_eq_of_fst ?_, ?_, Action.run_eq_of_fst ?_, ?_⟩ <;>
  decide +kernel

end FlatTables
