import FlatTables.Command
import FlatTables.Proofs.Operation.Reachable
import FlatTables.Proofs.Operation.SaveLoad

set_option autoImplicit false

/-! # Altering a saved table

The command that alters a column loads a table, alters it in memory and saves it. The table that is
loaded afterwards is the altered one, with empty texts as nulls, exactly when the altered table can
come back from a data file (`load_of_alter_iff`). It cannot when its last column was dropped while
it had rows, when its file happens to begin with a byte order mark, or when a text became a
not-a-number value with a sign. -/

namespace FlatTables

/-! ## What a table is expected to come back as -/

/-- The cell `cell`, with null in place of an empty text. -/
def Cell.emptyAsNull : Cell → Cell
  | .text s => if s = "" then .null else .text s
  | cell => cell

/-- A cell comes back as expected, unless it is not a number and has other bits than the value that
is read. -/
theorem Cell.readBack_eq_emptyAsNull_iff {cell : Cell} :
    cell.readBack = cell.emptyAsNull ↔
      ∀ x, cell = .float x → x.isNaN = true → x = .notANumber false := by
  cases cell with
  | null => exact ⟨fun _ _ h => (nomatch h), fun _ => rfl⟩
  | integer i => exact ⟨fun _ _ h => (nomatch h), fun _ => rfl⟩
  | text s => exact ⟨fun _ _ h => (nomatch h), fun _ => rfl⟩
  | float x =>
      change Cell.float (if x.isNaN then .notANumber false else x) = .float x ↔ _
      constructor
      · rintro h _ ⟨⟩ hnan
        rw [if_pos hnan] at h
        exact (Cell.float.inj h).symm
      · intro h
        split
        · next hnan => rw [← h x rfl hnan]
        · rfl

namespace Table

/-- The table `t`, with nulls in place of empty texts. -/
def emptyAsNull (t : Table) : Table :=
  { t with rows := t.rows.map fun row => row.map Cell.emptyAsNull }

/-- Whether a table comes back from its data file, with its empty texts as nulls. -/
structure ComesBack (t : Table) : Prop where
  /-- There is a cell in every row. -/
  cells : 0 < t.schema.width ∨ t.rows = []
  mark : ¬ Delimited.byteOrderMark <+: (DataFile.render t.rows).1
  /-- A value that is not a number has the bits of the one that is read. -/
  numbers : ∀ row ∈ t.rows, ∀ x, .float x ∈ row → x.isNaN = true → x = .notANumber false

variable {t t' : Table}

theorem map_readBack_eq_iff (rows : List Row) :
    rows.map Row.readBack = rows.map (fun row => row.map Cell.emptyAsNull) ↔
      ∀ row ∈ rows, ∀ x, .float x ∈ row → x.isNaN = true → x = .notANumber false := by
  simp only [List.map_inj_left, Row.readBack, Cell.readBack_eq_emptyAsNull_iff]
  constructor
  · intro h row hrow x hx
    exact h row hrow _ hx x rfl
  · rintro h row hrow cell hcell x rfl
    exact h row hrow x hcell

/-- **When a table comes back**: what is read of its file is the table with nulls in place of empty
texts. -/
theorem WellFormed.parse_render_iff (ht : t.WellFormed) (path : Path) :
    DataFile.parse path t.schema (DataFile.render t.rows).1 = .ok t.emptyAsNull.rows ↔
      t.ComesBack := by
  rw [emptyAsNull, DataFile.parse_render_iff path ht.rows_fit fun s hs => if_neg hs,
    map_readBack_eq_iff]
  exact ⟨fun ⟨⟨hcells, hmark⟩, hnumbers⟩ => ⟨hcells, hmark, hnumbers⟩,
    fun h => ⟨⟨h.cells, h.mark⟩, h.numbers⟩⟩

/-! ## Altering in memory -/

/-- An alteration leaves a table under its name and in its store. -/
theorem id_and_store_of_alter {kind : Alteration} {column : String} {type? : Option ColumnType}
    (h : t.alter kind column type? = .ok t') : t'.id = t.id ∧ t'.store = t.store := by
  have hadd : ∀ type, t.addColumn column type = .ok t' → t'.id = t.id ∧ t'.store = t.store := by
    intro type h
    obtain ⟨schema, -, h⟩ := bind_eq_ok_iff.1 h
    cases h
    exact ⟨rfl, rfl⟩
  have hmodify : ∀ type, t.modifyColumn column type = .ok t' →
      t'.id = t.id ∧ t'.store = t.store := by
    intro type h
    unfold modifyColumn at h
    split at h
    · cases h
    · obtain ⟨rows, -, h⟩ := bind_eq_ok_iff.1 h
      cases h
      exact ⟨rfl, rfl⟩
  cases kind with
  | drop =>
      change t.dropColumn column = .ok t' at h
      unfold dropColumn at h
      split at h
      · cases h
      · obtain ⟨rows, -, h⟩ := bind_eq_ok_iff.1 h
        cases h
        exact ⟨rfl, rfl⟩
  | add =>
      cases type? with
      | none => cases h
      | some type => exact hadd type h
  | modify =>
      cases type? with
      | none => cases h
      | some type => exact hmodify type h

theorem WellFormed.alter (ht : t.WellFormed) {kind : Alteration} {column : String}
    {type? : Option ColumnType} (h : t.alter kind column type? = .ok t') : t'.WellFormed := by
  cases kind with
  | drop => exact ht.dropColumn h
  | add =>
      cases type? with
      | none => cases h
      | some type => exact ht.addColumn h
  | modify =>
      cases type? with
      | none => cases h
      | some type => exact ht.modifyColumn h

end Table

/-! ## The command -/

namespace Command

variable {store : Store} {w w' : World}

/-- The alteration of a name is known without a look at the world. -/
theorem of_run_alteration {name : String} {kind : Alteration}
    (h : ((Operation.alteration name).mapError CommandError.table).run w = (.ok kind, w')) :
    Alteration.ofName name = .ok kind ∧ w = w' := by
  rw [Action.run_mapError, Operation.alteration] at h
  cases hname : Alteration.ofName name with
  | error e =>
      rw [hname] at h
      cases e <;> cases h
  | ok kind' =>
      rw [hname] at h
      cases h
      exact ⟨rfl, rfl⟩

theorem of_run_columnType? {name? : Option String} {type? : Option ColumnType}
    (h : (columnType? name?).run w = (.ok type?, w')) :
    name?.mapM ColumnType.ofName = .ok type? ∧ w = w' := by
  cases name? with
  | none =>
      cases h
      exact ⟨rfl, rfl⟩
  | some name =>
      obtain ⟨type, w₁, htype, h⟩ := Action.run_bind_eq_ok_iff.1 h
      cases hname : ColumnType.ofName name with
      | error e =>
          rw [hname] at htype
          cases htype
      | ok type' =>
          rw [hname] at htype
          cases htype
          cases h
          refine ⟨?_, rfl⟩
          rw [Option.mapM_some, hname]
          rfl

/-- The command alters the table that is loaded, and saves what the alteration in memory gives. -/
theorem exists_of_run_alter {id alteration column : String} {type? : Option String} {t : Table}
    {w₁ : World} (hopen : store.OpenIn w)
    (hload : (Operation.load store id).run w = (.ok t, w₁))
    (halter : (alter store id alteration column type?).run w = (.ok (), w')) :
    ∃ kind type'? t' w₂, Alteration.ofName alteration = .ok kind ∧
      type?.mapM ColumnType.ofName = .ok type'? ∧ t.alter kind column type'? = .ok t' ∧
      store.OpenIn w₂ ∧ (Operation.save t').run w₂ = (.ok (), w') := by
  simp only [alter, Action.run_bind_eq_ok_iff] at halter
  obtain ⟨kind, _, hkind, type'?, _, htype, t₁, w₂, hagain, t', w₃, haltered, hsave⟩ := halter
  obtain ⟨hname, rfl⟩ := of_run_alteration hkind
  obtain ⟨htypeName, rfl⟩ := of_run_columnType? htype
  rw [Action.run_mapError_eq_ok_iff] at hagain haltered hsave
  -- nothing has happened before the table is loaded
  obtain ⟨rfl, rfl⟩ : t₁ = t ∧ w₂ = w₁ := by
    rw [hload] at hagain
    cases hagain
    exact ⟨rfl, rfl⟩
  refine ⟨kind, type'?, t', w₃, hname, htypeName, ?_, ?_, hsave⟩
  · rw [← (Operation.computes_alter t₁ kind column type'?).fst_run w₂, haltered]
  · have hopen₁ := Operation.keepsOpen_create store id none none store w hopen
    rw [show Operation.create store id none none = Operation.load store id from rfl, hload]
      at hopen₁
    have hopen₂ := Action.KeepsOpen.of_onlyLooks
      (Operation.computes_alter t₁ kind column type'?).onlyLooks store w₂ hopen₁
    rw [haltered] at hopen₂
    exact hopen₂

end Command

/-- **Altering a saved table agrees with altering it in memory, exactly when the altered table can
come back.** The command that alters a table succeeds only where the alteration in memory does. The
table is then loaded as the altered one, with nulls in place of empty texts, if and only if that one
comes back from a data file. The data file must not be the document of the catalog. -/
theorem load_of_alter_iff {store : Store} {id alteration column : String} {type? : Option String}
    {t : Table} {w w₁ w' : World} (hopen : store.OpenIn w)
    (hload : (Operation.load store id).run w = (.ok t, w₁))
    (halter : (Command.alter store id alteration column type?).run w = (.ok (), w'))
    (hother : w'.files.locate (store.config.tablePath (store.config.resolve id)) ≠
      w'.files.locate store.config.catalogPath) :
    ∃ kind type'? t', Alteration.ofName alteration = .ok kind ∧
      type?.mapM ColumnType.ofName = .ok type'? ∧ t.alter kind column type'? = .ok t' ∧
      ((∃ w'', (Operation.load store id).run w' = (.ok t'.emptyAsNull, w'')) ↔ t'.ComesBack) := by
  obtain ⟨kind, type'?, t', w₂, hkind, htype, haltered, hopen₂, hsave⟩ :=
    Command.exists_of_run_alter hopen hload halter
  refine ⟨kind, type'?, t', hkind, htype, haltered, ?_⟩
  obtain ⟨hid, hstore⟩ := Operation.id_and_store_of_create hload
  obtain ⟨hid', hstore'⟩ := Table.id_and_store_of_alter haltered
  rw [hstore] at hstore'
  rw [← hid, ← hid'] at hother
  have hsaved := Operation.savedIn_of_save hstore' hopen₂ hsave hother
  have hfind := Operation.find?_of_save hstore' hsave
  obtain ⟨events, hloaded⟩ := Operation.exists_run_load (hid.symm.trans hid'.symm) hsaved hfind
  have hwell : t'.WellFormed := (wellFormed_of_create hload).alter haltered
  rw [← hwell.parse_render_iff (store.config.tablePath t'.id), hloaded]
  constructor
  · rintro ⟨w'', h⟩
    obtain ⟨rows, hrows, heq⟩ := map_eq_ok_iff.1 (Prod.mk.inj h).1
    rw [mapError_eq_ok_iff.1 hrows, ← heq]
  · intro h
    rw [h]
    rw [← hstore']
    exact ⟨_, rfl⟩

/-- A table of entries, of which one has an empty note. -/
def ledger : Table where
  id := ⟨"default", "ledger"⟩
  schema := ⟨[⟨"entry", .integer⟩, ⟨"note", .text⟩], by decide⟩
  rows := [[.integer 1, .text ""], [.integer 2, .text "due"]]
  store := some ⟨.standard, 0⟩

/-- The world in which a store was made, and `t` was saved in it. -/
def worldOf (t : Table) : World :=
  ((Operation.save t).run ((Store.load .standard).run (World.ofFiles ⟨[], [], []⟩)).2).2

/-- The ledger is loaded with the column that was added to it, and with null for its empty note. -/
theorem load_of_alter_ledger : ∃ w₁ w₂ t,
    (Command.alter ⟨.standard, 0⟩ "ledger" "add" "sum" (some "integer")).run (worldOf ledger) =
        (.ok (), w₁) ∧
      (Operation.load ⟨.standard, 0⟩ "ledger").run w₁ = (.ok t, w₂) ∧
      t.rows = [[.integer 1, .null, .integer 0], [.integer 2, .text "due", .integer 0]] := by
  have hopen : Store.OpenIn ⟨.standard, 0⟩ (worldOf ledger) :=
    ⟨by decide +kernel, by decide +kernel⟩
  have hload := Action.run_eq_of_fst (x := Operation.load ⟨.standard, 0⟩ "ledger")
    (w := worldOf ledger) (r := .ok { ledger with
      rows := [[.integer 1, .null], [.integer 2, .text "due"]] }) (by decide +kernel)
  have halter := Action.run_eq_of_fst
    (x := Command.alter ⟨.standard, 0⟩ "ledger" "add" "sum" (some "integer"))
    (w := worldOf ledger) (r := .ok ()) (by decide +kernel)
  obtain ⟨kind, type'?, t', hkind, htype, haltered, hiff⟩ :=
    load_of_alter_iff hopen hload halter (by decide +kernel)
  have hadd : Alteration.ofName "add" = .ok .add := by decide +kernel
  have hinteger : (some "integer").mapM ColumnType.ofName = .ok (some .integer) := by
    decide +kernel
  obtain rfl := Except.ok.inj (hkind.symm.trans hadd)
  obtain rfl := Except.ok.inj (htype.symm.trans hinteger)
  obtain rfl := Except.ok.inj haltered
  obtain ⟨w₂, hagain⟩ :=
    hiff.2 ⟨.inl (by decide), by decide +kernel, by simp [ColumnType.defaultCell]⟩
  exact ⟨_, w₂, _, halter, hagain, rfl⟩

/-- A table with a single column. -/
def tally : Table where
  id := ⟨"default", "tally"⟩
  schema := ⟨[⟨"entry", .integer⟩], by decide⟩
  rows := [[.integer 1]]
  store := some ⟨.standard, 0⟩

/-- The only column of the tally is dropped, in memory and by the command, but the tally cannot be
loaded any more. -/
theorem not_load_of_alter_tally : ∃ w₁ w₂ t',
    (Operation.load ⟨.standard, 0⟩ "tally").run (worldOf tally) = (.ok tally, w₁) ∧
      (∀ row ∈ tally.rows, ∀ x, .float x ∈ row → x.isNaN = false) ∧
      tally.alter .drop "entry" none = .ok t' ∧
      (Command.alter ⟨.standard, 0⟩ "tally" "drop" "entry" none).run (worldOf tally) =
        (.ok (), w₂) ∧
      ((Operation.load ⟨.standard, 0⟩ "tally").run w₂).1 =
        .error (.storage (.fieldCount ⟨"data/default/tally.csv"⟩ 1 0 1)) := by
  refine ⟨_, _, _, Action.run_eq_of_fst ?_, by simp [tally], rfl, Action.run_eq_of_fst ?_, ?_⟩
  · decide +kernel
  · decide +kernel
  · decide +kernel

end FlatTables
