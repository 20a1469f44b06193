import FlatTables.Proofs.Operation.Alter
import FlatTables.Proofs.Table.Converting

set_option autoImplicit false

/-! # Rows are converted once

Rows are converted whenever a table is made, also those that were just read from its data file by
the types of its columns. A second conversion changes nothing and cannot fail, so the rows of a table
that is loaded are exactly those that were read (`Operation.conversion_stable`). -/

namespace FlatTables.Operation

variable {store : Store} {id : TableId} {path : Path} {schema : Schema} {rows : List Row}
  {w w₁ : World} {text : String} {t : Table}

/-- **Rows that were read are not changed by converting them.** -/
theorem coerceRows_of_readRows (id : TableId)
    (h : ((DataFile.readRows path schema).run w).1 = .ok rows) :
    Table.coerceRows id schema rows = .ok rows := by
  rw [fst_run_readRows, DataFile.read] at h
  cases hread : w.files.read path with
  | error cause =>
      rw [hread] at h
      cases h
  | ok content =>
      rw [hread] at h
      exact Table.coerceRows_of_fits (DataFile.fits_of_parse h)

theorem fst_run_loadSaved_eq_ok_iff :
    ((loadSaved store id path none).run w).1 = .ok (schema, rows) ↔
      (∃ name, (store.catalogIn w).find? id = some ⟨name, schema⟩) ∧
        ((DataFile.readRows path schema).run w).1 = .ok rows := by
  rw [fst_run_loadSaved, fst_run_readRows]
  cases (store.catalogIn w).find? id with
  | none => simp
  | some definition =>
      simp only [map_eq_ok_iff, mapError_eq_ok_iff, Prod.mk.injEq]
      constructor
      · rintro ⟨_, hread, rfl, rfl⟩
        exact ⟨⟨definition.name, rfl⟩, hread⟩
      · rintro ⟨⟨name, hdefinition⟩, hread⟩
        cases hdefinition
        exact ⟨rows, hread, rfl, rfl⟩

/-- **A table whose data file exists** is made if it has an entry and the file is read by its
columns, and then its rows are the rows that were read. -/
theorem fst_run_create_eq_ok_iff {location : Path} {schema? : Option Schema}
    (hdatabase : (store.database (store.config.resolve text).database).run w = (.ok location, w₁))
    (hcontains : w₁.files.contains (store.config.tablePath (store.config.resolve text)) = true) :
    ((create store text schema? none).run w).1 = .ok t ↔
      t.id = store.config.resolve text ∧ t.store = some store ∧
        (∃ name, (store.catalogIn w₁).find? t.id = some ⟨name, t.schema⟩) ∧
        ((DataFile.readRows (store.config.tablePath t.id) t.schema).run w₁).1 = .ok t.rows := by
  have hfound : ((findRows store (store.config.resolve text)
      (store.config.tablePath (store.config.resolve text)) schema? none).run w₁).1 =
        ((loadSaved store (store.config.resolve text)
          (store.config.tablePath (store.config.resolve text)) none).run w₁).1 := by
    rw [findRows, Action.run_world_bind, if_pos hcontains]
  rw [fst_run_create hdatabase, fst_run_bind_bindRows, hfound, bind_eq_ok_iff]
  constructor
  · rintro ⟨⟨schema, rows⟩, hsaved, h⟩
    obtain ⟨hentry, hread⟩ := fst_run_loadSaved_eq_ok_iff.1 hsaved
    obtain ⟨rows', hrows, rfl⟩ := map_eq_ok_iff.1 h
    rw [coerceRows_of_readRows _ hread] at hrows
    cases hrows
    exact ⟨rfl, rfl, hentry, hread⟩
  · obtain ⟨id, schema, rows, store?⟩ := t
    rintro ⟨rfl, rfl, hentry, hread⟩
    exact ⟨(schema, rows), fst_run_loadSaved_eq_ok_iff.2 ⟨hentry, hread⟩,
      map_eq_ok_iff.2 ⟨rows, coerceRows_of_readRows _ hread, rfl⟩⟩

/-- **Converting rows is stable.** A row is refused for its number of cells exactly if that is not
the number of columns, and otherwise for the leftmost cell that cannot be converted. Every other row
is brought into a normal form, which a second conversion leaves as it is. So rows that were read are
not changed when they are converted again, and the rows of a table that is made from its data file
are exactly those that were read. -/
theorem conversion_stable :
    (∀ (s : Schema) (row : Row),
      (∀ expected found, s.coerce row = .error (.width expected found) ↔
        row.length ≠ s.width ∧ expected = s.width ∧ found = row.length) ∧
      (∀ name cause, s.coerce row = .error (.cell name cause) ↔ row.length = s.width ∧
        First Column.Refuses (s.columns.zip row) (.cell name cause)) ∧
      ((∃ row', s.coerce row = .ok row') ↔ row.length = s.width ∧
        ∀ pair ∈ s.columns.zip row, ∀ cause, ¬pair.1.type.Refuses pair.2 cause) ∧
      ∀ row', s.coerce row = .ok row' → s.NormalForm row row') ∧
    (∀ id path schema w rows, ((DataFile.readRows path schema).run w).1 = .ok rows →
      Table.coerceRows id schema rows = .ok rows) ∧
    ∀ (store : Store) (text : String) (schema? : Option Schema) (w w₁ : World) (location : Path),
      (store.database (store.config.resolve text).database).run w = (.ok location, w₁) →
      w₁.files.contains (store.config.tablePath (store.config.resolve text)) = true →
      ∀ t, ((create store text schema? none).run w).1 = .ok t ↔
        t.id = store.config.resolve text ∧ t.store = some store ∧
          (∃ name, (store.catalogIn w₁).find? t.id = some ⟨name, t.schema⟩) ∧
          ((DataFile.readRows (store.config.tablePath t.id) t.schema).run w₁).1 = .ok t.rows := by
  refine ⟨fun s row => ⟨fun _ _ => Schema.coerce_eq_width_iff, fun _ _ => Schema.coerce_eq_cell_iff,
    Schema.exists_coerce_iff, fun _ => Schema.normalForm_of_coerce⟩, ?_, ?_⟩
  · intro id path schema w rows hread
    exact coerceRows_of_readRows id hread
  · intro store text schema? w w₁ location hdatabase hcontains t
    exact fst_run_create_eq_ok_iff hdatabase hcontains

/-- A row with a text for its entry is converted to a row of the ledger, one whose entry spells no
number is refused, and so is one that is too short. The ledger is loaded with the rows that are read
from its file. -/
theorem conversion_stable_ledger :
    ledger.schema.NormalForm [.text " 007 ", .null] [.integer 7, .null] ∧
      ledger.schema.coerce [.text "due", .integer 7] =
        .error (.cell "entry" ⟨"due", .integer⟩) ∧
      ledger.schema.coerce [.null] = .error (.width 2 1) ∧
      ((load ⟨.standard, 0⟩ "ledger").run (worldOf ledger)).1 =
        .ok { ledger with rows := [[.integer 1, .null], [.integer 2, .text "due"]] } := by
  obtain ⟨hrows, -, hmade⟩ := conversion_stable
  obtain ⟨hwidth, -⟩ := hrows ledger.schema [.null]
  obtain ⟨-, hcell, -⟩ := hrows ledger.schema [.text "due", .integer 7]
  obtain ⟨-, -, -, hnormal⟩ := hrows ledger.schema [.text " 007 ", .null]
  have hdatabase := Action.run_eq_of_fst
    (x := Store.database ⟨.standard, 0⟩ "default") (w := worldOf ledger)
    (r := .ok ⟨"data/default"⟩) (by decide +kernel)
  refine ⟨hnormal _ (by decide +kernel), ?_, (hwidth 2 1).2 (by decide), ?_⟩
  · refine (hcell _ _).2 ⟨by decide, first_cons_iff.2 (.inl ⟨_, .text ?_, rfl⟩)⟩
    intro cell h
    cases h
  · refine (hmade ⟨.standard, 0⟩ "ledger" none _ _ _ hdatabase (by decide +kernel) _).2 ?_
    exact ⟨rfl, rfl, ⟨"default.ledger", by decide +kernel⟩, by decide +kernel⟩

end FlatTables.Operation
