import FlatTables.Proofs.Operation.Call
import FlatTables.Proofs.Operation.Create

set_option autoImplicit false

/-! # Operations that only look

Most operations on tables change nothing in the world but what was reported, and give a result that
depends on nothing but the files and the catalogs (`Action.OnlyLooks`). Every change in place is
such an operation, except for cleaning, and so is every operator of the algebra. Of creating a
table, only the first step, which asks for the directory of its database, is none. -/

namespace FlatTables

/-- Whether an action does nothing but report, and its result depends on files and catalogs only. -/
structure Action.OnlyLooks {ε α : Type} (x : Action ε α) : Prop where
  exists_events : ∀ w, ∃ events, (x.run w).2 = { w with events := events }
  result : ∀ w w' : World, w'.files = w.files → w'.catalogs = w.catalogs →
    (x.run w').1 = (x.run w).1

/-! ## Actions in general -/

namespace Action.OnlyLooks

variable {ε ε' α β : Type}

theorem pure (a : α) : (Pure.pure a : Action ε α).OnlyLooks :=
  ⟨fun w => ⟨w.events, rfl⟩, fun _ _ _ _ => rfl⟩

theorem emit (level : Level) (message : String) : (emit level message : Action ε Unit).OnlyLooks :=
  ⟨fun _ => ⟨_, rfl⟩, fun _ _ _ _ => rfl⟩

theorem fail (message : ε → String) (e : ε) : (fail message e : Action ε α).OnlyLooks :=
  ⟨fun _ => ⟨_, rfl⟩, fun _ _ _ _ => rfl⟩

theorem ofExcept (message : ε → String) (x : Except ε α) : (ofExcept message x).OnlyLooks := by
  cases x with
  | error e => exact fail message e
  | ok a => exact pure a

theorem bind {x : Action ε α} {f : α → Action ε β} (hx : x.OnlyLooks)
    (hf : ∀ a, (f a).OnlyLooks) : (x >>= f).OnlyLooks := by
  constructor
  · intro w
    obtain ⟨events, hworld⟩ := hx.exists_events w
    rw [run_bind]
    rcases hrun : x.run w with ⟨e | a, w₁⟩
    · rw [hrun] at hworld
      exact ⟨events, hworld⟩
    · rw [hrun] at hworld
      obtain ⟨events', hworld'⟩ := (hf a).exists_events w₁
      cases hworld
      exact ⟨events', hworld'⟩
  · intro w w' hfiles hcatalogs
    obtain ⟨events, hworld⟩ := hx.exists_events w
    obtain ⟨events', hworld'⟩ := hx.exists_events w'
    have hresult := hx.result w w' hfiles hcatalogs
    rw [run_bind, run_bind]
    rcases hrun : x.run w with ⟨e | a, w₁⟩
    · rcases hrun' : x.run w' with ⟨e' | a', w₁'⟩
      · rw [hrun, hrun'] at hresult
        exact congrArg Except.error (Except.error.inj hresult)
      · rw [hrun, hrun'] at hresult
        cases hresult
    · rcases hrun' : x.run w' with ⟨e' | a', w₁'⟩
      · rw [hrun, hrun'] at hresult
        cases hresult
      · rw [hrun, hrun'] at hresult
        rw [hrun] at hworld
        rw [hrun'] at hworld'
        cases hresult
        cases hworld
        cases hworld'
        exact (hf a).result _ _ hfiles hcatalogs

/-- An action that looks at the world first, but only at files and catalogs. -/
theorem world {f : World → Action ε β} (hf : ∀ w, (f w).OnlyLooks)
    (hsame : ∀ w w' : World, w'.files = w.files → w'.catalogs = w.catalogs → f w' = f w) :
    (Action.world >>= f).OnlyLooks := by
  refine ⟨fun w => (hf w).exists_events w, fun w w' hfiles hcatalogs => ?_⟩
  rw [run_world_bind, run_world_bind, hsame w w' hfiles hcatalogs]
  exact (hf w).result w w' hfiles hcatalogs

theorem mapError {x : Action ε α} (hx : x.OnlyLooks) (f : ε → ε') : (x.mapError f).OnlyLooks := by
  constructor
  · intro w
    rw [run_mapError]
    exact hx.exists_events w
  · intro w w' hfiles hcatalogs
    rw [run_mapError, run_mapError, hx.result w w' hfiles hcatalogs]

theorem raise {x : Action ε α} (hx : x.OnlyLooks) (message : ε' → String) (f : ε → ε') :
    (x.raise message f).OnlyLooks := by
  constructor
  · intro w
    obtain ⟨events, hworld⟩ := hx.exists_events w
    have hrun : x.run w = ((x.run w).1, { w with events := events }) := Prod.ext rfl hworld
    obtain ⟨events', hraise⟩ := exists_run_raise hrun message f
    exact ⟨events', congrArg Prod.snd hraise⟩
  · intro w w' hfiles hcatalogs
    rw [fst_run_raise, fst_run_raise, hx.result w w' hfiles hcatalogs]

end Action.OnlyLooks

/-- What gives the same result in every world does not look at it. -/
theorem Action.Computes.onlyLooks {ε α : Type} {x : Action ε α} {r : Except ε α}
    (h : x.Computes r) : x.OnlyLooks := by
  refine ⟨fun w => ?_, fun w w' _ _ => by rw [h.fst_run, h.fst_run]⟩
  obtain ⟨events, hrun⟩ := h w
  rw [hrun]
  exact ⟨events, rfl⟩

/-! ## Catalogs and data files -/

theorem Store.onlyLooks_definition (s : Store) (id : TableId) : (s.definition id).OnlyLooks := by
  refine .world (fun w => ?_) (fun w w' _ hcatalogs => ?_)
  · split
    · exact .pure _
    · exact .fail _ _
  · rw [catalogIn, catalogIn, hcatalogs]

theorem DataFile.onlyLooks_readRows (path : Path) (schema : Schema) :
    (readRows path schema).OnlyLooks := by
  refine .world (fun w => ?_) (fun w w' hfiles _ => ?_)
  · exact .bind (.ofExcept _ _) fun _ => .bind (.emit _ _) fun _ => .pure _
  · rw [hfiles]

/-! ## Operations on tables -/

namespace Operation

theorem onlyLooks_storeFor (t : Table) (action : StoredAction) :
    (storeFor t action).OnlyLooks := by
  unfold storeFor
  split
  · exact .pure _
  · exact .fail _ _

theorem onlyLooks_loadSaved (store : Store) (id : TableId) (path : Path)
    (rows? : Option (List Row)) : (loadSaved store id path rows?).OnlyLooks := by
  have hcolumns : (store.columns id).OnlyLooks :=
    .bind (store.onlyLooks_definition id) fun _ => .pure _
  refine .bind (hcolumns.mapError _) ?_
  intro schema
  split
  · exact .pure _
  · exact .bind ((DataFile.onlyLooks_readRows path schema).raise _ _) fun _ => .pure _

theorem onlyLooks_findRows (store : Store) (id : TableId) (path : Path) (schema? : Option Schema)
    (rows? : Option (List Row)) : (findRows store id path schema? rows?).OnlyLooks := by
  refine .world (fun w => ?_) (fun w w' hfiles _ => by rw [hfiles])
  split
  · exact onlyLooks_loadSaved store id path rows?
  · cases schema? with
    | none => exact .fail _ _
    | some schema => exact .pure _

/-- Once the directory of its database is there, creating a table only looks. -/
theorem onlyLooks_findRows_bindRows (store : Store) (id : TableId) (path : Path)
    (schema? : Option Schema) (rows? : Option (List Row)) :
    (findRows store id path schema? rows? >>= bindRows store id).OnlyLooks :=
  .bind (onlyLooks_findRows store id path schema? rows?) fun _ =>
    .bind (computes_report _).onlyLooks fun _ => .bind (.emit _ _) fun _ => .pure _

/-- **A change in place only looks**, unless it is a cleaning. -/
theorem onlyLooks_edit (t : Table) {edit : Edit} (h : edit ≠ .clean) :
    (edit.action t).OnlyLooks :=
  (computes_edit t h).onlyLooks

/-- **An operator only looks.** -/
theorem onlyLooks_query (t : Table) (query : Query) : (query.action t).OnlyLooks :=
  (computes_query t query).onlyLooks

theorem onlyLooks_combination (t other : Table) (combination : Combination) :
    (combination.action t other).OnlyLooks :=
  (computes_combination t other combination).onlyLooks

end Operation

end FlatTables
