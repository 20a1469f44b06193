import FlatTables.Catalog.Document
import FlatTables.Proofs.Json.Drafting
import FlatTables.Proofs.Outcome
import FlatTables.Proofs.Table.Names
import FlatTables.Store

set_option autoImplicit false

/-! # Reading back a catalog

The document that is written for a catalog is read as exactly its entries (`ofText_toText`): the
same keys, the same names, and the same columns in the same order. Reading looks only at what an
undamaged draft holds, so each reader is described by the plain value of its draft, from the types
of columns up to the whole catalog. -/

namespace FlatTables

open Json (Draft Key)

/-! ## Drafts of given values -/

namespace Json

theorem exists_of_value?_eq_string {d : Draft} {s : String} (h : d.value? = some (.string s)) :
    ∃ span, d = .scalar (.string (.ok s)) span := by
  unfold Draft.value? at h
  split at h
  · next value span =>
      refine ⟨span, ?_⟩
      cases value with
      | null => cases h
      | bool b => cases h
      | number n => obtain ⟨_, _, hn⟩ := Option.map_eq_some_iff.1 h; cases hn
      | string value =>
          cases value with
          | error fault => cases h
          | ok s' => cases h; rfl
  · obtain ⟨_, _, hitems⟩ := Option.map_eq_some_iff.1 h; cases hitems
  · obtain ⟨_, _, hmembers⟩ := Option.map_eq_some_iff.1 h; cases hmembers
  · cases h

theorem exists_of_value?_eq_object {d : Draft} {members : List (String × Json)}
    (h : d.value? = some (.object members)) : ∃ start drafts stop,
      d = .object start drafts (.ok stop) ∧ memberValues? drafts = some members := by
  unfold Draft.value? at h
  split at h
  · next value span =>
      cases value with
      | null => cases h
      | bool b => cases h
      | number n => obtain ⟨_, _, hn⟩ := Option.map_eq_some_iff.1 h; cases hn
      | string s => obtain ⟨_, _, hs⟩ := Option.map_eq_some_iff.1 h; cases hs
  · obtain ⟨_, _, hitems⟩ := Option.map_eq_some_iff.1 h; cases hitems
  · next start drafts stop =>
      obtain ⟨_, hmembers, heq⟩ := Option.map_eq_some_iff.1 h
      cases heq
      exact ⟨start, drafts, stop, rfl, hmembers⟩
  · cases h

theorem eq_nil_of_memberValues? {drafts : List (Key × Draft)}
    (h : memberValues? drafts = some []) : drafts = [] := by
  cases drafts with
  | nil => rfl
  | cons first rest =>
      simp only [memberValues?, Option.bind_eq_bind, Option.bind_eq_some_iff] at h
      obtain ⟨name, -, v, -, members, -, h⟩ := h
      cases h

theorem exists_of_memberValues?_eq_cons {drafts : List (Key × Draft)} {name : String} {j : Json}
    {members : List (String × Json)} (h : memberValues? drafts = some ((name, j) :: members)) :
    ∃ span draft rest, drafts = (⟨.ok name, span⟩, draft) :: rest ∧ draft.value? = some j ∧
      memberValues? rest = some members := by
  cases drafts with
  | nil => cases h
  | cons first rest =>
      obtain ⟨⟨key, span⟩, draft⟩ := first
      simp only [memberValues?, Option.bind_eq_bind, Option.bind_eq_some_iff] at h
      obtain ⟨name', hname, v, hv, members', hmembers, h⟩ := h
      cases h
      cases key with
      | error fault => cases hname
      | ok key =>
          cases hname
          exact ⟨span, draft, rest, rfl, hv, hmembers⟩

end Json

open Json (exists_of_value?_eq_string exists_of_value?_eq_object eq_nil_of_memberValues?
  exists_of_memberValues?_eq_cons memberValues?)

/-! ## Schemas -/

theorem ColumnType.map_toLower_name (type : ColumnType) :
    type.name.map Char.toLower = type.name := by
  rw [← String.toList_inj, String.toList_map]
  cases type <;> decide

theorem ColumnType.ofName_name (type : ColumnType) : ofName type.name = .ok type := by
  unfold ofName
  rw [map_toLower_name]
  cases type <;> rfl

theorem ColumnType.ofDraft_of_value? {d : Draft} {type : ColumnType}
    (h : d.value? = some (.string type.name)) : ofDraft d = .ok type := by
  obtain ⟨span, rfl⟩ := exists_of_value?_eq_string h
  rw [ofDraft, Reading.wanted, ok_bind, ofName_name]
  rfl

theorem columnsOfMembers_of_memberValues? {columns : List Column} {drafts : List (Key × Draft)}
    (h : memberValues? drafts =
      some (columns.map fun column => (column.name, .string column.type.name))) :
    columnsOfMembers drafts = .ok columns := by
  induction columns generalizing drafts with
  | nil =>
      rw [eq_nil_of_memberValues? h]
      rfl
  | cons column columns ih =>
      obtain ⟨span, draft, rest, rfl, hvalue, hrest⟩ := exists_of_memberValues?_eq_cons h
      unfold columnsOfMembers
      rw [Reading.wanted, ok_bind, ColumnType.ofDraft_of_value? hvalue, ok_bind,
        ih hrest, ok_bind]

namespace Schema

theorem ofDraft_of_value? {d : Draft} {s : Schema} (h : d.value? = some s.toJson) :
    ofDraft d = .ok s := by
  obtain ⟨start, drafts, stop, rfl, hmembers⟩ := exists_of_value?_eq_object h
  rw [ofDraft, columnsOfMembers_of_memberValues? hmembers, ok_bind, Json.closing, ok_bind,
    ofColumns_columns]
  rfl

end Schema

/-! ## Entries -/

theorem TableDefinition.ofDraft_of_value? {d : Draft} {definition : TableDefinition}
    (h : d.value? = some definition.toJson) : ofDraft d = .ok definition := by
  obtain ⟨start, drafts, stop, rfl, hmembers⟩ := exists_of_value?_eq_object h
  obtain ⟨_, name, rest, rfl, hname, hrest⟩ := exists_of_memberValues?_eq_cons hmembers
  obtain ⟨_, columns, rest', rfl, hcolumns, hrest'⟩ := exists_of_memberValues?_eq_cons hrest
  obtain rfl := eq_nil_of_memberValues? hrest'
  obtain ⟨span, rfl⟩ := exists_of_value?_eq_string hname
  have hschema := Schema.ofDraft_of_value? hcolumns
  simp [ofDraft, ofMembers, Reading.wanted, Draft.asString, hschema, Json.closing]

/-! ## Catalogs -/

namespace CatalogEntries

/-- A key behind all others is put at the end. -/
theorem insertPair_of_lt {α : Type} {k : String} {v : α} {l : List (String × α)}
    (h : ∀ p ∈ l, p.1 < k) : insertPair k v l = l ++ [(k, v)] := by
  induction l with
  | nil => rfl
  | cons p rest ih =>
      have hp := h p List.mem_cons_self
      unfold insertPair
      rw [if_neg (String.lt_asymm hp), if_neg fun heq => String.lt_irrefl _ (heq ▸ hp),
        ih fun q hq => h q (List.mem_cons_of_mem _ hq)]
      rfl

theorem ofMembers_of_memberValues? {stop : Nat} {pairs : List (String × TableDefinition)}
    {drafts : List (Key × Draft)} {acc : CatalogEntries}
    (hordered : (acc.entries ++ pairs).Pairwise fun a b => a.1 < b.1)
    (h : memberValues? drafts = some (pairs.map fun (key, definition) => (key, definition.toJson))) :
    ∃ entries, ofMembers (.ok stop) acc drafts = .ok entries ∧
      entries.entries = acc.entries ++ pairs := by
  induction pairs generalizing drafts acc with
  | nil =>
      rw [eq_nil_of_memberValues? h]
      exact ⟨acc, rfl, (List.append_nil _).symm⟩
  | cons pair pairs ih =>
      obtain ⟨span, draft, rest, rfl, hvalue, hrest⟩ := exists_of_memberValues?_eq_cons h
      -- all keys read so far are smaller than the next one
      have hlast : (acc.insert pair.1 pair.2).entries = acc.entries ++ [pair] :=
        insertPair_of_lt fun p hp =>
          (List.pairwise_append.1 hordered).2.2 p hp pair List.mem_cons_self
      obtain ⟨entries, hentries, heq⟩ := @ih rest (acc.insert pair.1 pair.2)
        (by rwa [hlast, List.append_assoc]) hrest
      refine ⟨entries, ?_, by rw [heq, hlast, List.append_assoc]; rfl⟩
      unfold ofMembers
      rw [Reading.wanted, ok_bind, TableDefinition.ofDraft_of_value? hvalue, ok_bind,
        hentries]

theorem numberlessMembers_columns (columns : List Column) :
    Json.NumberlessMembers
      (columns.map fun column => (column.name, .string column.type.name)) := by
  induction columns with
  | nil => trivial
  | cons column rest ih => exact ⟨trivial, ih⟩

theorem numberless_toJson (entries : CatalogEntries) : entries.toJson.Numberless := by
  unfold toJson
  induction entries.entries with
  | nil => trivial
  | cons pair rest ih => exact ⟨⟨trivial, numberlessMembers_columns _, trivial⟩, ih⟩

/-- **A catalog is read as it was written.** -/
theorem ofText_toText (entries : CatalogEntries) : ofText entries.toText = .ok entries := by
  obtain ⟨draft, hvalue, hdocument⟩ := Json.ofString_pretty entries.numberless_toJson
  obtain ⟨start, drafts, stop, rfl, hmembers⟩ := exists_of_value?_eq_object hvalue
  have hread : ∃ found, ofMembers (.ok stop) .empty drafts = .ok found ∧
      found.entries = Dictionary.empty.entries ++ entries.entries :=
    ofMembers_of_memberValues? entries.ordered hmembers
  obtain ⟨found, hfound, heq⟩ := hread
  obtain rfl := Dictionary.eq_of_entries_eq heq
  unfold ofText
  rw [Json.Document.read, toText, hdocument, Reading.within]
  change Except.mapError _ (ofMembers _ _ _ >>= _) = _
  rw [hfound]
  rfl

end CatalogEntries

theorem Catalog.entriesOfBytes_encode (path : Path) (entries : CatalogEntries) :
    entriesOfBytes path (Text.encode entries.toText) = .ok entries := by
  unfold entriesOfBytes
  rw [Text.decode?_encode]
  exact mapError_eq_ok_iff.2 entries.ofText_toText

end FlatTables
