import FlatTables.Proofs.Catalog.WriteThrough
import FlatTables.Proofs.DataFile.Writing
import FlatTables.Proofs.Operation.Looking

set_option autoImplicit false

/-! # Stores that are open

A store is open in a world that has its catalog, with the document that its configuration names.
Opening a store makes it so (`Store.openIn_of_load`), and nothing that can be done in a world makes
it otherwise: every call keeps every open store open (`Operation.keepsOpen_call`). A store that a
caller holds is therefore open in every world that the caller comes to. -/

namespace FlatTables

/-- Whether a store was opened in a world, and its catalog has the path that its configuration
names. -/
structure Store.OpenIn (s : Store) (w : World) : Prop where
  opened : s.catalog < w.opened
  path : (s.catalogIn w).path = s.config.catalogPath

/-- Whether an action keeps every open store open, whether it succeeds or fails. -/
def Action.KeepsOpen {ε α : Type} (x : Action ε α) : Prop :=
  ∀ (s : Store) (w : World), s.OpenIn w → s.OpenIn (x.run w).2

/-! ## Actions in general -/

namespace Action.KeepsOpen

variable {ε ε' α β : Type}

/-- An action that opens nothing and changes no catalog. -/
theorem of_catalogs {x : Action ε α}
    (h : ∀ w, (x.run w).2.opened = w.opened ∧ (x.run w).2.catalogs = w.catalogs) :
    x.KeepsOpen := by
  intro s w hs
  obtain ⟨hopened, hcatalogs⟩ := h w
  refine ⟨hopened ▸ hs.opened, ?_⟩
  unfold Store.catalogIn
  rw [hcatalogs]
  exact hs.path

/-- An action that only looks. -/
theorem of_onlyLooks {x : Action ε α} (hx : x.OnlyLooks) : x.KeepsOpen := by
  refine of_catalogs fun w => ?_
  obtain ⟨events, hworld⟩ := hx.exists_events w
  rw [hworld]
  exact ⟨rfl, rfl⟩

theorem pure (a : α) : (Pure.pure a : Action ε α).KeepsOpen := of_onlyLooks (.pure a)

theorem emit (level : Level) (message : String) : (emit level message : Action ε Unit).KeepsOpen :=
  of_onlyLooks (.emit level message)

theorem bind {x : Action ε α} {f : α → Action ε β} (hx : x.KeepsOpen)
    (hf : ∀ a, (f a).KeepsOpen) : (x >>= f).KeepsOpen := by
  intro s w hs
  have hx := hx s w hs
  rw [run_bind]
  rcases hrun : x.run w with ⟨e | a, w'⟩
  · rw [hrun] at hx
    exact hx
  · rw [hrun] at hx
    exact hf a s w' hx

/-- An action that looks at the world first. -/
theorem world {f : World → Action ε β} (hf : ∀ w, (f w).KeepsOpen) :
    (Action.world >>= f).KeepsOpen :=
  bind (fun _ _ h => h) hf

theorem raise {x : Action ε α} (hx : x.KeepsOpen) (message : ε' → String) (f : ε → ε') :
    (x.raise message f).KeepsOpen := by
  intro s w hs
  have hx := hx s w hs
  simp only [Action.run, Action.raise] at hx ⊢
  rcases hrun : x w with ⟨e | a, w'⟩
  · rw [hrun] at hx
    exact of_onlyLooks (.fail message (f e)) s w' hx
  · rw [hrun] at hx
    exact hx

theorem changeFiles (message : ε → String) (wrap : FileError → ε)
    (f : FileTree → Except FileError FileTree) : (changeFiles message wrap f).KeepsOpen := by
  refine of_catalogs ?_
  intro w
  simp only [Action.run, Action.changeFiles]
  cases f w.files with
  | error e => exact ⟨rfl, rfl⟩
  | ok files => exact ⟨rfl, rfl⟩

theorem openFile (message : ε → String) (wrap : FileError → ε) (path : Path) :
    (openFile message wrap path).KeepsOpen :=
  changeFiles message wrap _

theorem handOver (content : List UInt8) :
    (handOver content : Action ε (Option Fault)).KeepsOpen :=
  of_catalogs fun _ => ⟨rfl, rfl⟩

theorem fill (path : Path) (content : List UInt8) :
    (fill path content : Action ε Unit).KeepsOpen :=
  of_catalogs fun _ => ⟨rfl, rfl⟩

theorem writeFile (message : ε → String) (wrap : FileError → ε) (path : Path)
    (content : List UInt8) : (writeFile message wrap path content).KeepsOpen := by
  refine bind (openFile _ _ _) fun _ => bind (handOver _) fun fault? => bind (fill _ _) fun _ => ?_
  split
  · exact pure _
  · exact of_onlyLooks (.fail _ _)

end Action.KeepsOpen

/-! ## Stores and their catalogs -/

theorem keepsOpen_createDirectory (path : Path) : (createDirectory path).KeepsOpen := by
  refine .of_catalogs ?_
  intro w
  simp only [Action.run, createDirectory]
  split
  · exact ⟨rfl, rfl⟩
  · exact ⟨rfl, rfl⟩

theorem Catalog.keepsOpen_write (catalog : Catalog) : catalog.write.KeepsOpen :=
  .writeFile _ _ _ _

theorem Catalog.keepsOpen_load (path : Path) : (Catalog.load path).KeepsOpen := by
  refine .world ?_
  intro w
  split
  · rw [create_eq]
    refine .bind (.emit _ _) fun _ => .bind ?_ fun _ => .bind (keepsOpen_write _) fun _ => .pure _
    unfold prepare
    split
    · split
      · exact .pure _
      · exact keepsOpen_createDirectory _
    · exact .pure _
  · exact .of_onlyLooks (.fail _ _)
  · exact .bind (.of_onlyLooks (.ofExcept _ _)) fun _ => .bind (.emit _ _) fun _ => .pure _

namespace Store

/-- A store that was opened is open. -/
theorem openIn_of_load {config : Config} {s : Store} {w w' : World}
    (h : (load config).run w = (.ok s, w')) : s.OpenIn w' := by
  have hpath := (synced_of_load h).2.path
  rcases hload : (Catalog.load config.catalogPath).run w with ⟨e | catalog, w₁⟩
  · unfold load at h
    rw [Action.run_bind, hload] at h
    cases h
  · rw [run_load hload] at h
    cases h
    exact ⟨Nat.lt_succ_self _, hpath⟩

/-- Opening a store puts its catalog where none was, and so leaves those of other stores. -/
theorem keepsOpen_load (config : Config) : (load config).KeepsOpen := by
  intro s w hs
  have hs' := Catalog.keepsOpen_load config.catalogPath s w hs
  rcases hload : (Catalog.load config.catalogPath).run w with ⟨e | catalog, w₁⟩
  · rw [hload] at hs'
    unfold load
    rw [Action.run_bind, hload]
    exact hs'
  · rw [hload] at hs'
    rw [run_load hload]
    refine ⟨Nat.lt_succ_of_lt hs'.opened, ?_⟩
    -- the new catalog has a number that no store in use has
    have hother : s.catalogIn (w₁.setCatalog w₁.opened catalog) = s.catalogIn w₁ :=
      if_neg (Nat.ne_of_lt hs'.opened)
    exact (congrArg Catalog.path hother).trans hs'.path

/-- Changing the entries of a catalog leaves its path. -/
theorem keepsOpen_changeEntries (store : Store) (f : CatalogEntries → CatalogEntries) :
    (Action.change (store.changeEntries f) : Action StorageError Unit).KeepsOpen := by
  intro s w hs
  refine ⟨hs.opened, ?_⟩
  -- other stores may share the catalog, but its path stays
  change ((w.setCatalog store.catalog _).catalogs s.catalog).path = _
  rw [World.catalogs_setCatalog]
  split
  · next heq =>
      rw [← hs.path, catalogIn, catalogIn, heq]
  · exact hs.path

theorem keepsOpen_replaceEntries (store : Store) (entries : CatalogEntries) :
    (store.replaceEntries entries).KeepsOpen :=
  .world fun _ => .bind (Catalog.keepsOpen_write _) fun _ => store.keepsOpen_changeEntries _

theorem keepsOpen_register (store : Store) (id : TableId) (columns : Schema) :
    (store.register id columns).KeepsOpen := by
  intro s w hs
  rw [run_register]
  exact store.keepsOpen_replaceEntries _ s w hs

theorem keepsOpen_unregister (store : Store) (id : TableId) :
    (store.unregister id).KeepsOpen := by
  intro s w hs
  rw [run_unregister]
  cases (store.catalogIn w).find? id with
  | none => exact ⟨hs.opened, hs.path⟩
  | some definition => exact store.keepsOpen_replaceEntries _ s w hs

theorem keepsOpen_database (store : Store) (name : String) : (store.database name).KeepsOpen := by
  refine .world ?_
  intro w
  split
  · exact .pure _
  · exact .bind (keepsOpen_createDirectory _) fun _ => .bind (.emit _ _) fun _ => .pure _

end Store

/-! ## Operations on tables -/

theorem DataFile.keepsOpen_writeRows (path : Path) (rows : List Row) :
    (writeRows path rows).KeepsOpen := by
  refine .of_catalogs fun w => ?_
  rcases hrun : (writeRows path rows).run w with ⟨result, w'⟩
  cases writeEnds hrun with
  | notOpened events hwrite => exact ⟨rfl, rfl⟩
  | opened events hfaults hremains hwrite => exact ⟨rfl, rfl⟩

namespace Operation

theorem keepsOpen_create (store : Store) (id : String) (schema? : Option Schema)
    (rows? : Option (List Row)) : (create store id schema? rows?).KeepsOpen := by
  rw [create_eq]
  refine .bind ((store.keepsOpen_database _).raise _ _) ?_
  intro location
  exact .of_onlyLooks (onlyLooks_findRows_bindRows store _ _ schema? rows?)

theorem keepsOpen_save (t : Table) : (save t).KeepsOpen := by
  unfold save
  refine .bind (.of_onlyLooks (onlyLooks_storeFor t _)) ?_
  intro store
  refine .bind ((store.keepsOpen_database _).raise _ _) ?_
  intro location
  refine .bind ((DataFile.keepsOpen_writeRows _ _).raise _ _) ?_
  intro _
  exact .bind ((store.keepsOpen_register _ _).raise _ _) fun _ => .emit _ _

theorem keepsOpen_drop (t : Table) : (drop t).KeepsOpen := by
  unfold drop
  refine .bind (.of_onlyLooks (onlyLooks_storeFor t _)) fun store => .world ?_
  intro w
  split
  · exact .of_onlyLooks (.fail _ _)
  · refine .bind (.raise (.changeFiles _ _ _) _ _) ?_
    intro _
    exact .bind ((store.keepsOpen_unregister _).raise _ _) fun _ => .emit _ _

theorem keepsOpen_cleanFile (t : Table) : (cleanFile t).KeepsOpen := by
  unfold cleanFile
  split
  · exact .pure _
  · next store _ =>
      exact .raise (.bind (store.keepsOpen_database _) fun _ => .openFile _ _ _) _ _

theorem keepsOpen_edit (t : Table) (edit : Edit) : (edit.action t).KeepsOpen := by
  by_cases hclean : edit = .clean
  · subst hclean
    exact .bind (.bind (keepsOpen_cleanFile t) fun _ => .emit _ _) fun _ => .pure _
  · exact .of_onlyLooks (onlyLooks_edit t hclean)

/-- **Every call keeps every open store open.** -/
theorem keepsOpen_call (s : Store) (call : TableCall) : (call.action s).KeepsOpen := by
  cases call with
  | temporary id schema rows =>
      exact .bind (.of_onlyLooks (computes_temporary id schema rows).onlyLooks) fun _ => .pure _
  | create id schema? rows? => exact .bind (keepsOpen_create s id schema? rows?) fun _ => .pure _
  | edit t e => exact .bind (keepsOpen_edit t e) fun _ => .pure _
  | query t q => exact .bind (.of_onlyLooks (onlyLooks_query t q)) fun _ => .pure _
  | combine t other c =>
      exact .bind (.of_onlyLooks (onlyLooks_combination t other c)) fun _ => .pure _
  | save t => exact keepsOpen_save t
  | drop t => exact keepsOpen_drop t

end Operation

end FlatTables
