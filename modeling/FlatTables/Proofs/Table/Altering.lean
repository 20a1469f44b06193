import FlatTables.Proofs.Table.Names
import FlatTables.Proofs.Table.WellFormed

set_option autoImplicit false

/-! # Dropping and converting columns

A column is dropped, or its cells are converted to a type. Either happens at one position of the
list of columns and of every row alike (`ColumnChange.apply_eq_ok_iff`), so both are instances of
one change of lists, `changeAt`. Dropping moves what stands further back, and `placeAfter` says
where to; with that, changes at different positions commute (`changeAt_changeAt`), and so do changes
of different columns (`ColumnChange.apply_comm`). What stands at other positions is kept
(`Table.KeepsOthers`). -/

namespace FlatTables

/-! ## Changes at a position -/

variable {α β : Type}

/-- The list `l` without its item at `index`, or with this item changed. -/
def changeAt (change : Option (α → α)) (index : Nat) (l : List α) : List α :=
  match change with
  | none => l.eraseIdx index
  | some f => l.modify index f

/-- Where the item at `place` stands after a change of another one, which is gone if it `drops`. -/
def placeAfter (drops : Bool) (index place : Nat) : Nat :=
  if drops && index < place then place - 1 else place

theorem changeAt_nil (c : Option (α → α)) (i : Nat) : changeAt c i [] = [] := by
  cases c <;> simp [changeAt]

theorem changeAt_succ_cons (c : Option (α → α)) (i : Nat) (a : α) (l : List α) :
    changeAt c (i + 1) (a :: l) = a :: changeAt c i l := by
  cases c <;> rfl

theorem placeAfter_succ_zero (drops : Bool) (i : Nat) : placeAfter drops (i + 1) 0 = 0 := by
  simp [placeAfter]

theorem placeAfter_succ_succ (drops : Bool) (i j : Nat) :
    placeAfter drops (i + 1) (j + 1) = placeAfter drops i j + 1 := by
  cases drops with
  | false => rfl
  | true =>
      simp only [placeAfter, Bool.true_and, decide_eq_true_eq]
      split <;> split <;> omega

/-- Behind a change of the first item the others are found where `placeAfter` says. -/
theorem changeAt_placeAfter_zero (c d : Option (α → α)) (j : Nat) (a : α) (l : List α) :
    changeAt d (placeAfter c.isNone 0 (j + 1)) (changeAt c 0 (a :: l)) =
      changeAt c 0 (a :: changeAt d j l) := by
  cases c <;> cases d <;> rfl

theorem changeAt_changeAt (c d : Option (α → α)) {i j : Nat} (h : i ≠ j) (l : List α) :
    changeAt d (placeAfter c.isNone i j) (changeAt c i l) =
      changeAt c (placeAfter d.isNone j i) (changeAt d j l) := by
  induction l generalizing i j with
  | nil => simp only [changeAt_nil]
  | cons a l ih =>
      cases i with
      | zero =>
          cases j with
          | zero => exact absurd rfl h
          | succ j =>
              rw [changeAt_placeAfter_zero, changeAt_succ_cons, placeAfter_succ_zero]
      | succ i =>
          cases j with
          | zero => rw [changeAt_placeAfter_zero, changeAt_succ_cons, placeAfter_succ_zero]
          | succ j =>
              have hij : i ≠ j := fun heq => h (congrArg (· + 1) heq)
              simp only [changeAt_succ_cons, placeAfter_succ_succ, ih hij]

/-- The other items are found where `placeAfter` says. -/
theorem getElem?_changeAt (c : Option (α → α)) {i j : Nat} (h : i ≠ j) (l : List α) :
    (changeAt c i l)[placeAfter c.isNone i j]? = l[j]? := by
  cases c with
  | none =>
      simp only [changeAt, placeAfter, List.getElem?_eraseIdx, Option.isNone_none, Bool.true_and,
        decide_eq_true_eq]
      split
      · rw [if_neg (by omega), Nat.sub_add_cancel (by omega)]
      · rw [if_pos (by omega)]
  | some f => simp [changeAt, placeAfter, h]

/-- A change of an item that is filtered out, before and after, does not show. -/
theorem filter_changeAt {c : Option (α → α)} {p : α → Bool} {i : Nat} {l : List α}
    (h : ∀ a, l[i]? = some a → p a = false ∧ ∀ f ∈ c, p (f a) = false) :
    (changeAt c i l).filter p = l.filter p := by
  induction l generalizing i with
  | nil => rw [changeAt_nil]
  | cons a l ih =>
      cases i with
      | zero =>
          obtain ⟨ha, hc⟩ := h a rfl
          cases c with
          | none => simp [changeAt, ha]
          | some f => simp [changeAt, ha, hc f rfl]
      | succ i => rw [changeAt_succ_cons, List.filter_cons, List.filter_cons, ih h]

/-- Two changes side by side. -/
def bothChanges (c : Option (α → α)) (d : Option (β → β)) : Option (α × β → α × β) :=
  c.bind fun f => d.map fun g => Prod.map f g

theorem exists_fst_of_mem_bothChanges {c : Option (α → α)} {d : Option (β → β)}
    {h : α × β → α × β} (hmem : h ∈ bothChanges c d) : ∃ f ∈ c, ∀ ab, (h ab).1 = f ab.1 := by
  obtain ⟨f, hf, hmem⟩ := Option.bind_eq_some_iff.1 hmem
  obtain ⟨g, -, rfl⟩ := Option.map_eq_some_iff.1 hmem
  exact ⟨f, hf, fun _ => rfl⟩

theorem zip_changeAt {c : Option (α → α)} {d : Option (β → β)} (h : c.isNone = d.isNone) (i : Nat)
    (l : List α) (m : List β) :
    (changeAt c i l).zip (changeAt d i m) = changeAt (bothChanges c d) i (l.zip m) := by
  induction l generalizing i m with
  | nil => rw [changeAt_nil, List.zip_nil_left, List.zip_nil_left, changeAt_nil]
  | cons a l ih =>
      cases m with
      | nil => rw [changeAt_nil, List.zip_nil_right, List.zip_nil_right, changeAt_nil]
      | cons b m =>
          cases i with
          | succ i => simp only [changeAt_succ_cons, List.zip_cons_cons, ih]
          | zero =>
              cases c with
              | none =>
                  obtain rfl := Option.isNone_iff_eq_none.1 h.symm
                  rfl
              | some f =>
                  cases d with
                  | none => cases h
                  | some g => rfl

/-! ## Positions of columns -/

namespace Schema

variable {s : Schema} {name : String} {index : Nat}

theorem indexOf?_eq_some_iff : s.indexOf? name = some index ↔ s.names[index]? = some name := by
  unfold indexOf?
  rw [List.idxOf?, List.findIdx?_eq_some_iff_getElem, List.getElem?_eq_some_iff]
  constructor
  · rintro ⟨hindex, hname, -⟩
    exact ⟨hindex, eq_of_beq hname⟩
  · rintro ⟨hindex, hname⟩
    refine ⟨hindex, beq_iff_eq.2 hname, fun place hplace hsame => ?_⟩
    -- the name stands at one position only
    have hnodup : s.names.Nodup := s.nodup
    have heq := hnodup.getElem_inj_iff.1 ((eq_of_beq hsame).trans hname.symm)
    omega

theorem exists_indexOf?_iff : (∃ index, s.indexOf? name = some index) ↔ name ∈ s.names := by
  simp only [indexOf?_eq_some_iff]
  exact List.mem_iff_getElem?.symm

end Schema

/-! ## Changes of columns -/

/-- A change of a column: it is dropped, or its cells are converted to a type. -/
inductive ColumnChange
  | drop
  | convert (type : ColumnType)

namespace ColumnChange

/-- The table after a change of the column called `name`. -/
def apply (change : ColumnChange) (name : String) (t : Table) : Except TableError Table :=
  match change with
  | drop => t.dropColumn name
  | convert type => t.modifyColumn name type

/-- What a change does to the column. -/
def onColumn : ColumnChange → Option (Column → Column)
  | drop => none
  | convert type => some fun column => { column with type := type }

/-- What a change does to the schema. -/
def onSchema (change : ColumnChange) (index : Nat) (s : Schema) : Schema :=
  match change with
  | drop => s.eraseIdx index
  | convert type => s.retype index type

/-- What a change does to the cell of a row in the column, if it can be done. -/
inductive OnCell : ColumnChange → Option Cell → Option (Cell → Cell) → Prop
  | drop (cell? : Option Cell) : OnCell drop cell? none
  | convert {type : ColumnType} {cell cell' : Cell} (h : type.coerce cell = .ok cell') :
    OnCell (convert type) (some cell) (some fun _ => cell')

/-- Whether a change turns one row into the other. -/
def OnRow (change : ColumnChange) (index : Nat) (row row' : Row) : Prop :=
  ∃ f, change.OnCell row[index]? f ∧ row' = changeAt f index row

/-- Whether a change turns one table into the other: at one position of the schema and of all
rows. -/
structure Makes (change : ColumnChange) (index : Nat) (t u : Table) : Prop where
  id_eq : u.id = t.id
  store_eq : u.store = t.store
  schema_eq : u.schema = change.onSchema index t.schema
  rows : List.Forall₂ (change.OnRow index) t.rows u.rows

/-- Whether a schema shows that the column called `name` was changed. -/
def DoneIn (change : ColumnChange) (name : String) (s : Schema) : Prop :=
  match change with
  | drop => name ∉ s.names
  | convert type => ⟨name, type⟩ ∈ s.columns

variable {change : ColumnChange} {name : String} {index : Nat} {t u : Table}

theorem columns_onSchema (change : ColumnChange) (index : Nat) (s : Schema) :
    (change.onSchema index s).columns = changeAt change.onColumn index s.columns := by
  cases change <;> rfl

theorem OnCell.isNone_eq {cell? : Option Cell} {f : Option (Cell → Cell)}
    (h : change.OnCell cell? f) : f.isNone = change.onColumn.isNone := by
  cases h <;> rfl

theorem convertCells_eq_ok_iff {type : ColumnType} {rows rows' : List Row} :
    Table.convertCells name type index rows = .ok rows' ↔
      List.Forall₂ ((convert type).OnRow index) rows rows' := by
  induction rows generalizing rows' with
  | nil =>
      rw [List.forall₂_nil_left_iff]
      constructor
      · rintro ⟨⟩
        rfl
      · rintro rfl
        rfl
  | cons row rest ih =>
      rw [List.forall₂_cons_left_iff]
      unfold Table.convertCells
      constructor
      · intro h
        split at h
        · cases h
        · next cell hcell =>
          obtain ⟨cell', hcell', h⟩ := bind_eq_ok_iff.1 h
          obtain ⟨rest', hrest, h⟩ := bind_eq_ok_iff.1 h
          have honCell := OnCell.convert (mapError_eq_ok_iff.1 hcell')
          refine ⟨_, rest', ⟨_, hcell ▸ honCell, ?_⟩, ih.1 hrest, (Except.ok.inj h).symm⟩
          exact List.set_eq_modify _ _ _
      · rintro ⟨row', rest', ⟨f, hcell, rfl⟩, hrest, rfl⟩
        generalize hfound : row[index]? = cell? at hcell
        cases hcell with
        | convert hcell' =>
            dsimp only
            rw [mapError_eq_ok_iff.2 hcell', ih.2 hrest]
            exact congrArg (fun r => Except.ok (r :: rest')) (List.set_eq_modify _ _ _)

theorem onRow_drop_iff {row row' : Row} :
    drop.OnRow index row row' ↔ row' = row.eraseIdx index := by
  constructor
  · rintro ⟨f, ⟨⟩, rfl⟩
    rfl
  · rintro rfl
    exact ⟨none, .drop _, rfl⟩

theorem map_eraseIdx_eq_iff {rows rows' : List Row} :
    rows.map (·.eraseIdx index) = rows' ↔ List.Forall₂ (drop.OnRow index) rows rows' := by
  induction rows generalizing rows' with
  | nil => rw [List.forall₂_nil_left_iff, List.map_nil, eq_comm]
  | cons row rest ih =>
      rw [List.forall₂_cons_left_iff, List.map_cons]
      simp only [onRow_drop_iff, ← ih]
      constructor
      · rintro rfl
        exact ⟨_, _, rfl, rfl, rfl⟩
      · rintro ⟨_, _, rfl, rfl, rfl⟩
        rfl

/-- A change of a column of a well-formed table is a change at its position in the schema and in
every row. -/
theorem apply_eq_ok_iff (ht : t.WellFormed) : change.apply name t = .ok u ↔
    ∃ index, t.schema.indexOf? name = some index ∧ change.Makes index t u := by
  obtain ⟨id, schema, rows, store⟩ := u
  cases change with
  | drop =>
      rw [apply, ht.dropColumn_eq]
      cases t.schema.indexOf? name with
      | none => simp
      | some index =>
          simp only [Except.ok.injEq, Table.mk.injEq, Option.some.injEq, exists_eq_left']
          constructor
          · rintro ⟨hid, hschema, hrows, hstore⟩
            exact ⟨hid.symm, hstore.symm, hschema.symm, map_eraseIdx_eq_iff.1 hrows⟩
          · rintro ⟨hid, hstore, hschema, hrows⟩
            exact ⟨hid.symm, hschema.symm, map_eraseIdx_eq_iff.2 hrows, hstore.symm⟩
  | convert type =>
      rw [apply, Table.modifyColumn]
      cases t.schema.indexOf? name with
      | none => simp
      | some index =>
          simp only [bind_eq_ok_iff, convertCells_eq_ok_iff, Except.ok.injEq, Table.mk.injEq,
            Option.some.injEq, exists_eq_left']
          constructor
          · rintro ⟨_, hrows, hid, hschema, rfl, hstore⟩
            exact ⟨hid.symm, hstore.symm, hschema.symm, hrows⟩
          · rintro ⟨hid, hstore, hschema, hrows⟩
            exact ⟨_, hrows, hid.symm, hschema.symm, rfl, hstore.symm⟩

theorem wellFormed_of_apply (ht : t.WellFormed) (h : change.apply name t = .ok u) :
    u.WellFormed := by
  cases change with
  | drop => exact ht.dropColumn h
  | convert type => exact ht.modifyColumn h

/-- The position at which a column stood is the only one with its name, so dropping it leaves none. -/
theorem doneIn_of_apply (ht : t.WellFormed) (h : change.apply name t = .ok u) :
    change.DoneIn name u.schema := by
  obtain ⟨index, hindex, hmakes⟩ := (apply_eq_ok_iff ht).1 h
  rw [hmakes.schema_eq]
  cases change with
  | drop =>
      intro hmem
      rw [onSchema, Schema.names, Schema.eraseIdx, columnNames, ← List.eraseIdx_map,
        List.mem_eraseIdx_iff_getElem?] at hmem
      obtain ⟨place, hne, hplace⟩ := hmem
      rw [Schema.indexOf?_eq_some_iff.2 hplace] at hindex
      exact hne (Option.some.inj hindex)
  | convert type =>
      rw [Schema.indexOf?_eq_some_iff, Schema.names, columnNames, List.getElem?_map,
        Option.map_eq_some_iff] at hindex
      obtain ⟨column, hcolumn, rfl⟩ := hindex
      refine List.mem_of_getElem? (i := index) ?_
      simp [onSchema, Schema.retype, hcolumn]

/-! ## Changes of two columns -/

variable {other : ColumnChange} {name' : String} {index' : Nat} {s : Schema} {v : Table}

theorem names_onSchema (change : ColumnChange) (index : Nat) (s : Schema) :
    (change.onSchema index s).names = (changeAt change.onColumn index s.columns).map (·.name) := by
  rw [Schema.names, columns_onSchema]
  rfl

/-- Another column is found where `placeAfter` says. -/
theorem indexOf?_onSchema (hne : index ≠ index') (h : s.indexOf? name = some index') :
    (change.onSchema index s).indexOf? name =
      some (placeAfter change.onColumn.isNone index index') := by
  rw [Schema.indexOf?_eq_some_iff] at h ⊢
  rw [names_onSchema, List.getElem?_map, getElem?_changeAt _ hne]
  rwa [Schema.names, columnNames, List.getElem?_map] at h

theorem mem_names_of_onSchema (h : name ∈ (change.onSchema index s).names) : name ∈ s.names := by
  cases change with
  | drop => exact (((List.eraseIdx_sublist _ _).map _).mem h)
  | convert type => rwa [onSchema, Schema.names, Schema.retype, Schema.columnNames_modify] at h

theorem onSchema_comm (hne : index ≠ index') (s : Schema) :
    other.onSchema (placeAfter change.onColumn.isNone index index') (change.onSchema index s) =
      change.onSchema (placeAfter other.onColumn.isNone index' index) (other.onSchema index' s) := by
  refine Schema.eq_of_columns_eq ?_
  simp only [columns_onSchema]
  exact changeAt_changeAt _ _ hne _

/-- A change of a row does not see whether another cell was changed before. -/
theorem OnRow.comm {row row' row'' : Row} (hne : index ≠ index') (h : change.OnRow index row row')
    (h' : other.OnRow (placeAfter change.onColumn.isNone index index') row' row'') :
    ∃ mid, other.OnRow index' row mid ∧
      change.OnRow (placeAfter other.onColumn.isNone index' index) mid row'' := by
  obtain ⟨f, hf, rfl⟩ := h
  obtain ⟨g, hg, rfl⟩ := h'
  rw [← hf.isNone_eq] at hg ⊢
  rw [getElem?_changeAt f hne] at hg
  refine ⟨changeAt g index' row, ⟨g, hg, rfl⟩, f, ?_, ?_⟩
  · rwa [← hg.isNone_eq, getElem?_changeAt g hne.symm]
  · rw [← hg.isNone_eq, changeAt_changeAt f g hne]

/-- Steps that can be exchanged for single items can be exchanged for lists. -/
theorem exists_forall₂_exchange {R S R' S' : α → α → Prop} {l m n : List α}
    (hexchange : ∀ a b c, R a b → S b c → ∃ mid, S' a mid ∧ R' mid c) (h : List.Forall₂ R l m)
    (h' : List.Forall₂ S m n) : ∃ mids, List.Forall₂ S' l mids ∧ List.Forall₂ R' mids n := by
  induction h generalizing n with
  | nil =>
      cases h'
      exact ⟨[], .nil, .nil⟩
  | cons hab _ ih =>
      cases h' with
      | cons hbc hrest =>
          obtain ⟨mid, ham, hmc⟩ := hexchange _ _ _ hab hbc
          obtain ⟨mids, hl, hn⟩ := ih hrest
          exact ⟨mid :: mids, .cons ham hl, .cons hmc hn⟩

theorem Makes.comm (hne : index ≠ index') (h : change.Makes index t u)
    (h' : other.Makes (placeAfter change.onColumn.isNone index index') u v) :
    ∃ mid, other.Makes index' t mid ∧
      change.Makes (placeAfter other.onColumn.isNone index' index) mid v := by
  have hexchange : ∀ row row' row'', change.OnRow index row row' →
      other.OnRow (placeAfter change.onColumn.isNone index index') row' row'' →
      ∃ mid, other.OnRow index' row mid ∧
        change.OnRow (placeAfter other.onColumn.isNone index' index) mid row'' :=
    fun _ _ _ => OnRow.comm hne
  obtain ⟨rows, hrows, hrows'⟩ := exists_forall₂_exchange hexchange h.rows h'.rows
  refine ⟨{ t with schema := other.onSchema index' t.schema, rows := rows },
    ⟨rfl, rfl, rfl, hrows⟩, h'.id_eq.trans h.id_eq, h'.store_eq.trans h.store_eq, ?_, hrows'⟩
  rw [h'.schema_eq, h.schema_eq]
  exact onSchema_comm hne t.schema

/-- **Changes of different columns commute.** -/
theorem apply_comm (ht : t.WellFormed) (hne : name ≠ name') (h : change.apply name t = .ok u)
    (h' : other.apply name' u = .ok v) :
    ∃ mid, other.apply name' t = .ok mid ∧ change.apply name mid = .ok v := by
  have hu := wellFormed_of_apply ht h
  obtain ⟨i, hi, hmakes⟩ := (apply_eq_ok_iff ht).1 h
  obtain ⟨j', hj', hmakes'⟩ := (apply_eq_ok_iff hu).1 h'
  -- the second column was there before the first change, and has moved with it
  have hmem : name' ∈ (change.onSchema i t.schema).names := by
    rw [← hmakes.schema_eq]
    exact Schema.exists_indexOf?_iff.1 ⟨j', hj'⟩
  obtain ⟨j, hj⟩ := Schema.exists_indexOf?_iff.2 (mem_names_of_onSchema hmem)
  have hij : i ≠ j := by
    rintro rfl
    rw [Schema.indexOf?_eq_some_iff] at hi hj
    exact hne (Option.some.inj (hi.symm.trans hj))
  obtain rfl : j' = placeAfter change.onColumn.isNone i j := by
    rw [hmakes.schema_eq, indexOf?_onSchema hij hj] at hj'
    exact (Option.some.inj hj').symm
  obtain ⟨mid, hmid, hlast⟩ := hmakes.comm hij hmakes'
  have hfirst := (apply_eq_ok_iff ht).2 ⟨j, hj, hmid⟩
  refine ⟨mid, hfirst, (apply_eq_ok_iff (wellFormed_of_apply ht hfirst)).2 ⟨_, ?_, hlast⟩⟩
  rw [hmid.schema_eq]
  exact indexOf?_onSchema hij.symm hi

end ColumnChange

/-! ## What is kept -/

/-- Whether `u` has the columns of `t` other than those called `names`, in the same order, and the
same cells in them in every row. -/
structure Table.KeepsOthers (names : List String) (t u : Table) : Prop where
  columns : (u.schema.columns.filter fun column => column.name ∉ names) =
    t.schema.columns.filter fun column => column.name ∉ names
  cells : List.Forall₂ (fun row row' =>
    ((u.schema.columns.zip row').filter fun field => field.1.name ∉ names) =
      (t.schema.columns.zip row).filter fun field => field.1.name ∉ names) t.rows u.rows

theorem filter_eq_of_imp {p q : α → Bool} {l l' : List α} (h : l'.filter p = l.filter p)
    (himp : ∀ a, q a = true → p a = true) : l'.filter q = l.filter q := by
  have hboth : (fun a => q a && p a) = q := by
    funext a
    cases hq : q a with
    | false => rfl
    | true => rw [himp a hq, Bool.true_and]
  have hfilter := congrArg (List.filter q) h
  rwa [List.filter_filter, List.filter_filter, hboth] at hfilter

namespace Table.KeepsOthers

variable {names names' : List String} {t u v : Table}

/-- Apart from more columns less is kept. -/
theorem mono (h : KeepsOthers names t u) (hsubset : names ⊆ names') : KeepsOthers names' t u := by
  have himp (name : String) (hname : decide (name ∉ names') = true) :
      decide (name ∉ names) = true := by
    simp only [decide_eq_true_eq] at hname ⊢
    exact fun hmem => hname (hsubset hmem)
  refine ⟨filter_eq_of_imp h.columns fun column => himp column.name, ?_⟩
  exact h.cells.imp fun row row' hrow => filter_eq_of_imp hrow fun field => himp field.1.name

theorem trans (h : KeepsOthers names t u) (h' : KeepsOthers names u v) : KeepsOthers names t v := by
  refine ⟨h'.columns.trans h.columns, ?_⟩
  obtain ⟨-, hcells⟩ := h
  obtain ⟨-, hcells'⟩ := h'
  generalize t.rows = rows at hcells ⊢
  generalize u.rows = rows' at hcells hcells'
  generalize v.rows = rows'' at hcells' ⊢
  induction hcells generalizing rows'' with
  | nil =>
      cases hcells'
      exact .nil
  | cons hrow _ ih =>
      cases hcells' with
      | cons hrow' hrest => exact .cons (hrow'.trans hrow) (ih _ hrest)

end Table.KeepsOthers

theorem ColumnChange.keepsOthers_of_apply {change : ColumnChange} {name : String} {t u : Table}
    (ht : t.WellFormed) (h : change.apply name t = .ok u) : t.KeepsOthers [name] u := by
  obtain ⟨index, hindex, hmakes⟩ := (apply_eq_ok_iff ht).1 h
  have hcolumns : u.schema.columns = changeAt change.onColumn index t.schema.columns := by
    rw [hmakes.schema_eq, columns_onSchema]
  -- neither kind of change gives the column another name
  have hout : ∀ column, t.schema.columns[index]? = some column →
      decide (column.name ∉ [name]) = false ∧
        ∀ f ∈ change.onColumn, decide ((f column).name ∉ [name]) = false := by
    intro column hcolumn
    rw [Schema.indexOf?_eq_some_iff, Schema.names, columnNames, List.getElem?_map, hcolumn] at hindex
    obtain rfl : column.name = name := Option.some.inj hindex
    refine ⟨by simp, fun f hf => ?_⟩
    cases change with
    | drop => cases hf
    | convert type =>
        cases hf
        simp
  refine ⟨?_, hmakes.rows.imp ?_⟩
  · rw [hcolumns]
    exact filter_changeAt hout
  · rintro row _ ⟨f, hf, rfl⟩
    rw [hcolumns, zip_changeAt hf.isNone_eq.symm]
    refine filter_changeAt ?_
    rintro ⟨column, cell⟩ hfield
    obtain ⟨hcolumn, -⟩ := List.getElem?_zip_eq_some.1 hfield
    obtain ⟨hname, hnames⟩ := hout column hcolumn
    refine ⟨hname, fun g hg => ?_⟩
    obtain ⟨f', hf', hfst⟩ := exists_fst_of_mem_bothChanges hg
    rw [hfst]
    exact hnames f' hf'

end FlatTables
