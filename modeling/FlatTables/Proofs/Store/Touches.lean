import FlatTables.Proofs.Operation.Stored

set_option autoImplicit false

/-! # What a call on a table touches

A call on a table of a store touches what belongs to that table, and nothing else: its data file, the
directories on the way to its database, its entry in the catalog of the store, and the document of
that catalog, which is written anew whenever an entry changes. `Store.TouchesOnly` says so of two
worlds, and every run of a call is of that kind, however it ends (`touchesOnly_action`). A call on a
table without a store touches nothing at all.

The document is written with the entries that are in memory. It keeps the entries of the other
tables if it held them before, that is, if nobody else has written it since. When the system stops
taking its bytes, the call fails, and the document is left with a beginning of what was to be
written. -/

namespace FlatTables

/-! ## Worlds before and after -/

/-- Whether the document of a catalog holds exactly the entries in memory. -/
def Store.DocumentedIn (s : Store) (w : World) : Prop :=
  ∃ bytes, w.files.read (s.catalogIn w).path = .ok bytes ∧
    Catalog.entriesOfBytes (s.catalogIn w).path bytes = .ok (s.catalogIn w).entries

/-- Whether a call on table `id` failed while the document of the catalog was written, and left the
document with a beginning of what was to be written: the entries in memory, but for that of the
table. -/
structure Store.CutShortIn (s : Store) (id : TableId) (result : Except TableError Unit)
    (w : World) : Prop where
  failed : ∃ cause, result = .error (.storage (.cannotWrite (s.catalogIn w).path cause))
  document : ∃ (entries : CatalogEntries) (count : Nat),
    (∀ name, name ≠ id.fullName →
      entries.get? name = (s.catalogIn w).entries.get? name) ∧
      w.files.read (s.catalogIn w).path = .ok ((Text.encode entries.toText).take count)

/-- The ways in which what stands at a location may differ after a call on table `id`. -/
inductive Store.Touches (s : Store) (id : TableId) (w : World) (result : Except TableError Unit)
    (w' : World) (loc : Location) : Prop
  /-- A directory was made on the way to that of the database. -/
  | directory (hway : loc ∈ FileTree.way w.files.here (s.config.databasePath id.database))
      (hbefore : w.files.node? loc = none) (hafter : w'.files.node? loc = some .directory)
  /-- The data file was written or removed. -/
  | dataFile (hplace : w'.files.locate (s.config.tablePath id) = .ok loc)
      (hbefore : w.files.node? loc ≠ some .directory)
      (hafter : w'.files.node? loc ≠ some .directory)
  /-- The document was written with the entries in memory, or up to where the call failed, after the
  data file had been found. -/
  | document (hplace : w'.files.locate (s.catalogIn w).path = .ok loc)
      (hbefore : w.files.node? loc ≠ some .directory)
      (hafter : w'.files.node? loc ≠ some .directory)
      (hdocument : s.DocumentedIn w' ∨ s.CutShortIn id result w')
      (hdataFile : ∃ loc', w'.files.locate (s.config.tablePath id) = .ok loc')

/-- Whether a call on table `id` of the store may lead from `w` to `w'` with the given result. -/
structure Store.TouchesOnly (s : Store) (id : TableId) (w : World) (result : Except TableError Unit)
    (w' : World) : Prop where
  opened : w'.opened = w.opened
  here : w'.files.here = w.files.here
  locked : w'.files.locked = w.files.locked
  /-- No other catalog in memory changes. -/
  catalogs : ∀ number, number ≠ s.catalog → w'.catalogs number = w.catalogs number
  path : (s.catalogIn w').path = (s.catalogIn w).path
  /-- No entry of another table changes. -/
  entries : ∀ name, name ≠ id.fullName →
    (s.catalogIn w').entries.get? name = (s.catalogIn w).entries.get? name
  /-- An entry changes only together with the document. -/
  written : (s.catalogIn w').entries = (s.catalogIn w).entries ∨ s.DocumentedIn w'
  node? : ∀ loc, w'.files.node? loc = w.files.node? loc ∨ s.Touches id w result w' loc

namespace Store.TouchesOnly

variable {s : Store} {id : TableId} {w w₁ w₂ : World} {result : Except TableError Unit}
  {files : FileTree} {events : List Event} {faults : List (Option Fault)}

theorem refl (s : Store) (id : TableId) (w : World) (result : Except TableError Unit)
    (events : List Event) : s.TouchesOnly id w result { w with events := events } :=
  ⟨rfl, rfl, rfl, fun _ _ => rfl, rfl, fun _ _ => rfl, .inl rfl, fun _ => .inl rfl⟩

/-- An action that only looks. -/
theorem of_onlyLooks {ε α : Type} {x : Action ε α} (hx : x.OnlyLooks) (s : Store) (id : TableId)
    (w : World) (result : Except TableError Unit) : s.TouchesOnly id w result (x.run w).2 := by
  obtain ⟨events, hworld⟩ := hx.exists_events w
  rw [hworld]
  exact refl s id w result events

/-- Directories stay. -/
theorem toExtends (h : s.TouchesOnly id w result w₁) : w.files.Extends w₁.files := by
  refine ⟨h.here, fun loc hdir => ?_⟩
  cases h.node? loc with
  | inl hsame => rw [hsame, hdir]
  | inr htouches =>
      cases htouches with
      | directory _ hbefore hafter => exact hafter
      | dataFile _ hbefore _ => exact absurd hdir hbefore
      | document _ hbefore _ _ _ => exact absurd hdir hbefore

section

variable (hgrows : w₁.opened = w.opened ∧ w₁.catalogs = w.catalogs ∧
  FileTree.Grows (FileTree.way w.files.here (s.config.databasePath id.database)) w.files w₁.files)

include hgrows

/-- Making the directory of the database. -/
theorem of_grows (result : Except TableError Unit) (events : List Event) :
    s.TouchesOnly id w result { w₁ with events := events } := by
  obtain ⟨hopened, hcatalogs, hgrows⟩ := hgrows
  have hcatalog : s.catalogIn { w₁ with events := events } = s.catalogIn w :=
    congrFun hcatalogs s.catalog
  refine ⟨hopened, hgrows.here, hgrows.locked, fun number _ => congrFun hcatalogs number,
    by rw [hcatalog], fun _ _ => by rw [hcatalog], .inl (by rw [hcatalog]), fun loc => ?_⟩
  exact (hgrows.node? loc).imp_right fun ⟨hway, hbefore, hafter⟩ => .directory hway hbefore hafter

/-- Changing the data file after that. -/
theorem of_changesAt (hfile : FileTree.ChangesAt (s.config.tablePath id) w₁.files files)
    (result : Except TableError Unit) (events : List Event) (faults : List (Option Fault)) :
    s.TouchesOnly id w result
      { w₁ with files := files, events := events, faults := faults } := by
  obtain ⟨hopened, hcatalogs, hgrows⟩ := hgrows
  have hcatalog : s.catalogIn { w₁ with files := files, events := events, faults := faults } =
      s.catalogIn w := congrFun hcatalogs s.catalog
  refine ⟨hopened, hfile.toExtends.here.trans hgrows.here, hfile.locked.trans hgrows.locked,
    fun number _ => congrFun hcatalogs number, by rw [hcatalog], fun _ _ => by rw [hcatalog],
    .inl (by rw [hcatalog]), fun loc => ?_⟩
  rcases hfile.node? loc with hsame | ⟨hplace, hbefore, hafter⟩
  · change files.node? loc = _ ∨ _
    rw [hsame]
    refine (hgrows.node? loc).imp_right fun ⟨hway, hbefore, hafter⟩ => ?_
    exact .directory hway hbefore (hsame.trans hafter)
  · exact .inr (.dataFile hplace (mt (hgrows.toExtends.directory loc) hbefore) hafter)

end

/-- Writing the document after that, as a whole or up to where the call fails. -/
theorem of_write {content : List UInt8} (h : s.TouchesOnly id w result w₁)
    (hdataFile : ∃ loc, w₁.files.locate (s.config.tablePath id) = .ok loc)
    (hwrite : w₁.files.write (s.catalogIn w).path content = .ok w₂.files)
    (hopened : w₂.opened = w₁.opened)
    (hcatalogs : ∀ number, number ≠ s.catalog → w₂.catalogs number = w₁.catalogs number)
    (hpath : (s.catalogIn w₂).path = (s.catalogIn w).path)
    (hentries : ∀ name, name ≠ id.fullName →
      (s.catalogIn w₂).entries.get? name = (s.catalogIn w).entries.get? name)
    (hwritten : (s.catalogIn w₂).entries = (s.catalogIn w).entries ∨ s.DocumentedIn w₂)
    (hdocument : s.DocumentedIn w₂ ∨ s.CutShortIn id result w₂) :
    s.TouchesOnly id w result w₂ := by
  have hchange := FileTree.changesAt_of_write hwrite
  obtain ⟨loc', hlocate⟩ := hdataFile
  have hlocate := hchange.toExtends.locate hlocate
  refine ⟨hopened.trans h.opened, hchange.toExtends.here.trans h.here,
    hchange.locked.trans h.locked, fun number hne => (hcatalogs number hne).trans
      (h.catalogs number hne), hpath, hentries, hwritten, fun loc => ?_⟩
  rcases hchange.node? loc with hsame | ⟨hplace, hbefore, hafter⟩
  · rw [hsame]
    refine (h.node? loc).imp_right fun htouches => ?_
    cases htouches with
    | directory hway hbefore hafter => exact .directory hway hbefore (hsame.trans hafter)
    | dataFile hplace hbefore hafter =>
        exact .dataFile (hchange.toExtends.locate hplace) hbefore (hsame.symm ▸ hafter)
    | document hplace hbefore hafter _ _ =>
        exact .document (hchange.toExtends.locate hplace) hbefore (hsame.symm ▸ hafter) hdocument
          ⟨loc', hlocate⟩
  · exact .inr (.document hplace (mt (h.toExtends.directory loc) hbefore) hafter hdocument
      ⟨loc', hlocate⟩)

/-- Writing the document, and replacing the entries in memory. -/
theorem document {path : Path} {entries : CatalogEntries} (h : s.TouchesOnly id w result w₁)
    (hentries : ∀ name, name ≠ id.fullName → entries.get? name = (s.catalogIn w).entries.get? name)
    (hdataFile : ∃ loc, w₁.files.locate (s.config.tablePath id) = .ok loc)
    (hpath : path = (s.catalogIn w).path)
    (hwrite : w₁.files.write path (Text.encode entries.toText) = .ok files) :
    s.TouchesOnly id w result
      ({ w₁ with files := files, events := events, faults := faults }.setCatalog s.catalog
        ⟨path, entries⟩) := by
  subst hpath
  let w₂ : World := { w₁ with files := files, events := events, faults := faults }
  have hcatalog := catalogIn_setCatalog s w₂ ⟨(s.catalogIn w).path, entries⟩
  have hdocument :
      s.DocumentedIn (w₂.setCatalog s.catalog ⟨(s.catalogIn w).path, entries⟩) := by
    unfold DocumentedIn
    rw [hcatalog]
    exact ⟨_, FileTree.read_of_write hwrite, Catalog.entriesOfBytes_encode _ _⟩
  refine h.of_write hdataFile hwrite rfl (fun number hne => ?_) (by rw [hcatalog])
    (by rw [hcatalog]; exact hentries) (.inr hdocument) (.inl hdocument)
  rw [World.catalogs_setCatalog, if_neg hne]

/-- Writing a beginning of the document, and failing for that. The entries in memory stay. -/
theorem cutShort {path : Path} {entries : CatalogEntries} {count : Nat} {cause : FileError}
    (h : s.TouchesOnly id w (.error (.storage (.cannotWrite path cause))) w₁)
    (hentries : ∀ name, name ≠ id.fullName → entries.get? name = (s.catalogIn w).entries.get? name)
    (hdataFile : ∃ loc, w₁.files.locate (s.config.tablePath id) = .ok loc)
    (hcatalog : s.catalogIn w₁ = s.catalogIn w) (hpath : path = (s.catalogIn w).path)
    (hwrite : w₁.files.write path ((Text.encode entries.toText).take count) = .ok files) :
    s.TouchesOnly id w (.error (.storage (.cannotWrite path cause)))
      { w₁ with files := files, events := events, faults := faults } := by
  subst hpath
  have hcatalog₂ : s.catalogIn { w₁ with files := files, events := events, faults := faults } =
      s.catalogIn w := hcatalog
  refine h.of_write hdataFile hwrite rfl (fun _ _ => rfl) (by rw [hcatalog₂])
    (fun _ _ => by rw [hcatalog₂]) (.inl (by rw [hcatalog₂])) (.inr ⟨?_, ?_⟩)
  · rw [hcatalog₂]
    exact ⟨cause, rfl⟩
  · rw [hcatalog₂]
    exact ⟨entries, count, hentries, FileTree.read_of_write hwrite⟩

/-- **A document that holds the entries in memory still does** after a call on a table whose data
file is another file, unless the call failed while the document was written. So it has changed for
that table only. -/
theorem documentedIn (h : s.TouchesOnly id w result w₁) (hdocument : s.DocumentedIn w)
    (hother : FileTree.place w.files.here (s.config.tablePath id) ≠
      FileTree.place w.files.here (s.catalogIn w).path) :
    s.DocumentedIn w₁ ∨ s.CutShortIn id result w₁ := by
  rcases h.written with hsame | hwritten
  case inr => exact .inl hwritten
  obtain ⟨bytes, hread, hentries⟩ := hdocument
  obtain ⟨loc, hloc, hnode, hslash⟩ :=
    FileTree.find_eq_ok_file_iff.1 (FileTree.read_eq_ok_iff.1 hread)
  cases h.node? loc with
  | inl hnode' =>
      refine .inl ⟨bytes, ?_, by rw [h.path, hsame]; exact hentries⟩
      rw [h.path]
      exact FileTree.read_eq_ok_iff.2 (FileTree.find_eq_ok_file_iff.2
        ⟨loc, h.toExtends.locate hloc, hnode'.trans hnode, hslash⟩)
  | inr htouches =>
      cases htouches with
      | directory _ hbefore _ =>
          rw [hbefore] at hnode
          cases hnode
      | dataFile hplace _ _ =>
          refine absurd ?_ hother
          rw [← FileTree.locate_eq_place hloc, FileTree.locate_eq_place hplace, h.here]
      | document _ _ _ hdocument _ => exact hdocument

end Store.TouchesOnly

/-! ## Saving, cleaning and dropping -/

namespace Operation

variable {t : Table} {s : Store}

theorem touchesOnly_save (hstore : t.store = some s) (w : World) :
    s.TouchesOnly t.id w ((save t).run w).1 ((save t).run w).2 := by
  rcases hrun : (save t).run w with ⟨result, w'⟩
  have hends := saveEnds hstore hrun
  cases hends with
  | noDirectory w₁ events hdatabase =>
      exact .of_grows (Store.grows_of_run_database hdatabase) _ events
  | notOpened w₁ events hdatabase hwrite =>
      exact .of_grows (Store.grows_of_run_database hdatabase) _ events
  | notWritten w₁ events faults hdatabase hremains hwrite =>
      exact .of_changesAt (Store.grows_of_run_database hdatabase)
        (FileTree.changesAt_of_write hwrite) _ events faults
  | notEntered w₁ events faults hdatabase hwrite hwhole hdocument =>
      exact .of_changesAt (Store.grows_of_run_database hdatabase)
        (FileTree.changesAt_of_write hwrite) _ events faults
  | halfEntered w₁ events faults hdatabase hwrite hwhole hfault hdocument =>
      have hgrows := Store.grows_of_run_database hdatabase
      have hcatalog : s.catalogIn w₁ = s.catalogIn w := congrFun hgrows.2.1 s.catalog
      have hchange := FileTree.changesAt_of_write hwrite
      refine (Store.TouchesOnly.of_changesAt hgrows hchange _ events faults).cutShort
        (fun name hne => ?_) hchange.locate hcatalog (by rw [hcatalog]) hdocument
      rw [entriesWith, Dictionary.get?_insert, if_neg hne, hcatalog]
  | saved w₁ events faults hdatabase hwrite hdocument =>
      have hgrows := Store.grows_of_run_database hdatabase
      have hcatalog : s.catalogIn w₁ = s.catalogIn w := congrFun hgrows.2.1 s.catalog
      have hchange := FileTree.changesAt_of_write hwrite
      refine (Store.TouchesOnly.of_changesAt hgrows hchange _ events faults).document
        (fun name hne => ?_) hchange.locate (by rw [hcatalog]) hdocument
      rw [entriesWith, Dictionary.get?_insert, if_neg hne, hcatalog]

theorem touchesOnly_clean (hstore : t.store = some s) (w : World)
    (result : Except TableError Unit) :
    s.TouchesOnly t.id w result ((clean t).2.run w).2 := by
  rcases hrun : (clean t).2.run w with ⟨_, w'⟩
  cases cleanEnds hstore hrun with
  | noDirectory w₁ events hdatabase =>
      exact .of_grows (Store.grows_of_run_database hdatabase) result events
  | notOpened w₁ events hdatabase hwrite =>
      exact .of_grows (Store.grows_of_run_database hdatabase) result events
  | cleaned w₁ events hdatabase hwrite =>
      exact .of_changesAt (Store.grows_of_run_database hdatabase)
        (FileTree.changesAt_of_write hwrite) result events w₁.faults

theorem touchesOnly_drop (hstore : t.store = some s) (w : World) :
    s.TouchesOnly t.id w ((drop t).run w).1 ((drop t).run w).2 := by
  rcases hrun : (drop t).run w with ⟨result, w'⟩
  have hends := dropEnds hstore hrun
  -- no directory is made
  have hgrows := FileTree.Grows.refl
    (FileTree.way w.files.here (s.config.databasePath t.id.database)) w.files
  cases hends with
  | missing events hpart => exact .refl s t.id w _ events
  | notRemoved events hparts hremove => exact .refl s t.id w _ events
  | notTakenOut events hparts hremove hdocument =>
      exact .of_changesAt ⟨rfl, rfl, hgrows⟩ (FileTree.changesAt_of_remove hremove) _ events w.faults
  | halfTakenOut events faults hparts hremove hfault hdocument =>
      have hchange := FileTree.changesAt_of_remove hremove
      refine (Store.TouchesOnly.of_changesAt ⟨rfl, rfl, hgrows⟩ hchange _ events faults).cutShort
        (fun name hne => ?_) hchange.locate rfl rfl hdocument
      rw [entriesWithout, Dictionary.get?_erase, if_neg hne]
  | dropped events faults hparts hremove hdocument =>
      have hchange := FileTree.changesAt_of_remove hremove
      refine (Store.TouchesOnly.of_changesAt ⟨rfl, rfl, hgrows⟩ hchange _ events faults).document
        (fun name hne => ?_) hchange.locate rfl hdocument
      rw [entriesWithout, Dictionary.get?_erase, if_neg hne]

end Operation

/-! ## Any call -/

/-- The store and the identifier of the table that a call is on. A table without a store has
none. -/
def TableCall.subject? (s : Store) : TableCall → Option (Store × TableId)
  | temporary .. => none
  | create text .. => some (s, s.config.resolve text)
  | edit t _ | query t _ | combine t _ _ | save t | drop t => t.store.map (·, t.id)

namespace Operation

theorem run_edit_clean (s : Store) (t : Table) (w : World) :
    (((TableCall.edit t .clean).action s).run w).2 = ((clean t).2.run w).2 := by
  rw [TableCall.action, Edit.action, bind_assoc]
  simp only [pure_bind]
  rw [Store.run_bind_pure]

/-- What a table without a store cannot do only reports so. -/
theorem onlyLooks_storeFor_bind {α : Type} {t : Table} (hstore : t.store = none)
    (action : StoredAction) (f : Store → Action TableError α) :
    (storeFor t action >>= f).OnlyLooks := by
  have hrun := fun w => Action.run_bind_of_error (run_storeFor_of_temporary hstore action w) f
  exact ⟨fun w => ⟨_, congrArg Prod.snd (hrun w)⟩, fun w w' _ _ => by rw [hrun, hrun]⟩

/-- Cleaning a table without a store leaves all files. -/
theorem onlyLooks_clean {t : Table} (hstore : t.store = none) : (clean t).2.OnlyLooks := by
  have hfile : (cleanFile t).OnlyLooks := by
    rw [cleanFile, hstore]
    exact .pure ()
  exact .bind hfile fun _ => .emit _ _

/-- **A call on a table without a store only looks.** -/
theorem onlyLooks_call (s : Store) {call : TableCall} (h : call.subject? s = none) :
    (call.action s).OnlyLooks := by
  cases call with
  | temporary text schema rows =>
      exact .bind (computes_temporary text schema rows).onlyLooks fun _ => .pure ()
  | create text schema? rows? => cases h
  | edit t e =>
      by_cases hclean : e = .clean
      · subst hclean
        have hclean := onlyLooks_clean (Option.map_eq_none_iff.1 h)
        exact .bind (.bind hclean fun _ => .pure _) fun _ => .pure ()
      · exact .bind (onlyLooks_edit t hclean) fun _ => .pure ()
  | query t q => exact .bind (onlyLooks_query t q) fun _ => .pure ()
  | combine t other c => exact .bind (onlyLooks_combination t other c) fun _ => .pure ()
  | save t => exact onlyLooks_storeFor_bind (Option.map_eq_none_iff.1 h) _ _
  | drop t => exact onlyLooks_storeFor_bind (Option.map_eq_none_iff.1 h) _ _

/-- **A call touches only the table that it is on**, however it ends. -/
theorem touchesOnly_action (s : Store) (call : TableCall) {store : Store} {id : TableId}
    (h : call.subject? s = some (store, id)) (w : World) :
    store.TouchesOnly id w ((call.action s).run w).1 ((call.action s).run w).2 := by
  have htable : ∀ {t : Table}, t.store.map (·, t.id) = some (store, id) →
      t.store = some store ∧ t.id = id := by
    intro t ht
    obtain ⟨store', hstore, hpair⟩ := Option.map_eq_some_iff.1 ht
    cases hpair
    exact ⟨hstore, rfl⟩
  cases call with
  | temporary text schema rows => cases h
  | create text schema? rows? =>
      obtain ⟨rfl, rfl⟩ := Prod.mk.inj (Option.some.inj h)
      rw [TableCall.action, Store.run_bind_pure]
      rcases hrun : (create s text schema? rows?).run w with ⟨result, w'⟩
      exact .of_grows (grows_of_create hrun) _ w'.events
  | edit t e =>
      obtain ⟨hstore, rfl⟩ := htable h
      by_cases hclean : e = .clean
      · subst hclean
        rw [run_edit_clean]
        exact touchesOnly_clean hstore w _
      · exact .of_onlyLooks (.bind (onlyLooks_edit t hclean) fun _ => .pure ()) store t.id w _
  | query t q => exact .of_onlyLooks (.bind (onlyLooks_query t q) fun _ => .pure ()) store id w _
  | combine t other c =>
      exact .of_onlyLooks (.bind (onlyLooks_combination t other c) fun _ => .pure ()) store id w _
  | save t =>
      obtain ⟨hstore, rfl⟩ := htable h
      exact touchesOnly_save hstore w
  | drop t =>
      obtain ⟨hstore, rfl⟩ := htable h
      exact touchesOnly_drop hstore w

end Operation

end FlatTables
