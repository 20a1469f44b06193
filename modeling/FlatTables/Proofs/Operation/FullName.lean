import FlatTables.Proofs.Operation.Alter
import FlatTables.Proofs.TableId

set_option autoImplicit false

/-! # Opening a table by its full name

The catalog lists tables by their full names. A full name is also an identifier, but it has to be
read as one: it opens its table exactly if it has no point except the one that joins database and
name (`fullName_opens`). With more points it is taken for a name in the default database, and a table
of that name is looked for. -/

namespace FlatTables

/-- A table that has an entry is listed by its full name. -/
theorem Catalog.fullName_mem_keys {catalog : Catalog} {id : TableId} {definition : TableDefinition}
    (h : catalog.find? id = some definition) : id.fullName ∈ catalog.entries.keys :=
  List.mem_map.2 ⟨_, Dictionary.mem_entries_iff.2 h, rfl⟩

namespace Operation

variable {store : Store} {id : TableId} {definition : TableDefinition} {content : List UInt8}
  {rows : List Row} {w : World}

/-- A saved table is opened by its full name exactly if that is read as the table. -/
theorem load_fullName_iff (hdefinition : (store.catalogIn w).find? id = some definition)
    (hready : Store.Ready w.files (store.config.databasePath id.database))
    (hread : w.files.read (store.config.tablePath id) = .ok content)
    (hrows : DataFile.parse (store.config.tablePath id) definition.columns content = .ok rows) :
    ((load store id.fullName).run w).1 = .ok ⟨id, definition.columns, rows, some store⟩ ↔
      store.config.resolve id.fullName = id := by
  constructor
  · intro h
    exact (id_and_store_of_create (Action.run_eq_of_fst h)).1.symm
  · intro hid
    obtain ⟨events, hload⟩ := exists_run_load_of_read hid hready hread hdefinition
    rw [hload, tableFrom, hrows]
    rfl

/-- **When a full name finds its table.** The full name of what a text means is read as the same table
exactly if the text has one point, or if neither it nor the default database has any. The catalog
lists a saved table by its full name, and that opens the table exactly if neither database nor name
has a point. -/
theorem fullName_opens (store : Store) :
    (∀ text, store.config.resolve (store.config.resolve text).fullName =
        store.config.resolve text ↔
      text.toList.count '.' = 1 ∨
        '.' ∉ text.toList ∧ '.' ∉ store.config.defaultDatabase.toList) ∧
    ∀ w id definition content rows, (store.catalogIn w).find? id = some definition →
      Store.Ready w.files (store.config.databasePath id.database) →
      w.files.read (store.config.tablePath id) = .ok content →
      DataFile.parse (store.config.tablePath id) definition.columns content = .ok rows →
      id.fullName ∈ (store.catalogIn w).entries.keys ∧
        (((load store id.fullName).run w).1 = .ok ⟨id, definition.columns, rows, some store⟩ ↔
          '.' ∉ id.database.toList ∧ '.' ∉ id.name.toList) := by
  refine ⟨fun text => TableId.parse_fullName_parse_iff, ?_⟩
  intro w id definition content rows hdefinition hready hread hrows
  refine ⟨Catalog.fullName_mem_keys hdefinition, ?_⟩
  rw [load_fullName_iff hdefinition hready hread hrows]
  exact TableId.parse_fullName_iff

/-- The ledger is listed as `default.ledger`, and opened by that name. -/
theorem fullName_opens_ledger :
    (Store.catalogIn ⟨.standard, 0⟩ (worldOf ledger)).entries.keys = ["default.ledger"] ∧
      ((load ⟨.standard, 0⟩ "default.ledger").run (worldOf ledger)).1 =
        .ok { ledger with rows := [[.integer 1, .null], [.integer 2, .text "due"]] } := by
  obtain ⟨-, hopens⟩ := fullName_opens ⟨.standard, 0⟩
  obtain ⟨-, hiff⟩ := hopens (worldOf ledger) ledger.id ledger.definition
    (DataFile.render ledger.rows).1 [[.integer 1, .null], [.integer 2, .text "due"]]
    (by decide +kernel) (.inr (by decide +kernel)) (by decide +kernel) (by decide +kernel)
  exact ⟨by decide +kernel, hiff.2 (by decide)⟩

/-- A tally of a version, whose name holds points. -/
def versionTally : Table := { tally with id := Config.standard.resolve "1.0.2" }

/-- The tally of the version is opened by its name, but not by the full name that the catalog
lists. -/
theorem not_fullName_opens_versionTally :
    (Store.catalogIn ⟨.standard, 0⟩ (worldOf versionTally)).entries.keys = ["default.1.0.2"] ∧
      Config.standard.resolve "default.1.0.2" ≠ Config.standard.resolve "1.0.2" ∧
      ((load ⟨.standard, 0⟩ "1.0.2").run (worldOf versionTally)).1 = .ok versionTally ∧
      ((load ⟨.standard, 0⟩ "default.1.0.2").run (worldOf versionTally)).1 =
        .error (.missingSchema ⟨"default", "default.1.0.2"⟩) := by
  decide +kernel

end Operation

end FlatTables
