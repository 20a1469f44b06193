import FlatTables.Proofs.Integer
import FlatTables.Proofs.Operation.Commuting

set_option autoImplicit false

/-! # Alterations that undo each other

A column that was added is dropped again, a column is given the type it has, and a column of integers
is made one of texts and then one of integers again. Each time the table is afterwards what it was
before (`Editing.alterations_undone`).

Dropping finds the new column behind all others, in the schema and in every row
(`Table.WellFormed.dropColumn_of_addColumn`). A conversion is taken back by the one to the old type
if that one gives back every cell that fits (`ColumnChange.apply_convert_back`), and the text of an
integer is read as that integer (`ColumnType.coerce_asText`). -/

namespace FlatTables

/-! ## Dropping a new column -/

theorem eraseIdx_length_concat {α : Type} (l : List α) (a : α) :
    (l ++ [a]).eraseIdx l.length = l := by
  rw [List.eraseIdx_append_of_length_le (Nat.le_refl _), Nat.sub_self, List.eraseIdx_cons_zero,
    List.append_nil]

theorem Schema.indexOf?_of_push {s s' : Schema} {column : Column} (h : s.push column = .ok s') :
    s'.indexOf? column.name = some s.width := by
  have hnames : s'.names = s.names ++ [column.name] := by
    rw [names, columns_of_push h, columnNames, List.map_append]
    rfl
  rw [indexOf?_eq_some_iff, hnames, ← length_names, List.getElem?_concat_length]

theorem Schema.eraseIdx_of_push {s s' : Schema} {column : Column} (h : s.push column = .ok s') :
    s'.eraseIdx s.width = s := by
  refine eq_of_columns_eq ?_
  change s'.columns.eraseIdx s.columns.length = s.columns
  rw [columns_of_push h, eraseIdx_length_concat]

/-- **A column that was added can be dropped**, and then nothing of it is left. -/
theorem Table.WellFormed.dropColumn_of_addColumn {t u : Table} (ht : t.WellFormed) {name : String}
    {type : ColumnType} (h : t.addColumn name type = .ok u) : u.dropColumn name = .ok t := by
  have hu := ht.addColumn h
  obtain ⟨schema, hschema, h⟩ := bind_eq_ok_iff.1 h
  cases h
  have hpush := mapError_eq_ok_iff.1 hschema
  have hrow : ∀ row ∈ t.rows, (row ++ [type.defaultCell]).eraseIdx t.schema.width = row := by
    intro row hrow
    rw [← ht.length_row hrow, eraseIdx_length_concat]
  have hrows : (t.rows.map (· ++ [type.defaultCell])).map (·.eraseIdx t.schema.width) = t.rows := by
    rw [List.map_map]
    exact (List.map_congr_left hrow).trans (List.map_id _)
  rw [hu.dropColumn_eq, Schema.indexOf?_of_push hpush]
  simp only [Schema.eraseIdx_of_push hpush, hrows]

/-! ## Converting there and back -/

/-- Of a function that is applied at one position, only the value there counts. -/
theorem modify_const_eq {α : Type} {l : List α} {index : Nat} {a : α} (h : l[index]? = some a)
    (g : α → α) : l.modify index (fun _ => g a) = l.modify index g := by
  rw [List.modify_eq_set_getElem?, List.modify_eq_set_getElem?, h]
  rfl

/-- An item that is put where it stands changes nothing. -/
theorem modify_eq_self {α : Type} {l : List α} {index : Nat} {a : α} (h : l[index]? = some a) :
    l.modify index (fun _ => a) = l :=
  (modify_const_eq h id).trans (List.modify_id ..)

/-- In a row that fits there is a cell for every column. -/
theorem Row.Fits.exists_getElem? {types : List ColumnType} {row : Row} (h : Row.Fits types row)
    {index : Nat} {type : ColumnType} (htype : types[index]? = some type) :
    ∃ cell, row[index]? = some cell ∧ cell.Fits type :=
  exists_getElem?_of_forall₂ h htype

namespace Schema

variable {s : Schema} {index : Nat} {column : Column}

theorem indexOf?_of_getElem? (h : s.columns[index]? = some column) :
    s.indexOf? column.name = some index := by
  rw [indexOf?_eq_some_iff, names, columnNames, List.getElem?_map, h]
  rfl

theorem retype_self (h : s.columns[index]? = some column) : s.retype index column.type = s := by
  refine eq_of_columns_eq ?_
  change s.columns.modify index _ = s.columns
  rw [← modify_const_eq h]
  exact modify_eq_self h

/-- A column that gets its old type back is what it was. -/
theorem retype_retype (h : s.columns[index]? = some column) (type : ColumnType) :
    (s.retype index type).retype index column.type = s := by
  refine eq_of_columns_eq ?_
  change (s.columns.modify index _).modify index _ = s.columns
  rw [List.modify_modify_eq, ← modify_const_eq h]
  exact modify_eq_self h

end Schema

namespace ColumnChange

variable {t : Table} {column : Column} {index : Nat} {type : ColumnType} {g : Cell → Cell}

/-- The table `t` with the column at a position converted by `g`. -/
def converted (t : Table) (index : Nat) (type : ColumnType) (g : Cell → Cell) : Table :=
  { t with schema := t.schema.retype index type, rows := t.rows.map (·.modify index g) }

theorem onRow_convert {row : Row} {cell cell' : Cell} (hcell : row[index]? = some cell)
    (h : type.coerce cell = .ok cell') :
    (convert type).OnRow index row (row.modify index fun _ => cell') :=
  ⟨some fun _ => cell', hcell ▸ .convert h, rfl⟩

/-- In a well-formed table every row has a cell in a column, and it fits. -/
theorem exists_cell (ht : t.WellFormed) (hcolumn : t.schema.columns[index]? = some column)
    {row : Row} (hrow : row ∈ t.rows) :
    ∃ cell, row[index]? = some cell ∧ cell.Fits column.type := by
  refine (ht.rows_fit row hrow).exists_getElem? ?_
  rw [Schema.types, List.getElem?_map, hcolumn]
  rfl

/-- A conversion whose outcome is known for every cell that fits the column. -/
theorem apply_convert (ht : t.WellFormed) (hcolumn : t.schema.columns[index]? = some column)
    (hg : ∀ cell : Cell, cell.Fits column.type → type.coerce cell = .ok (g cell)) :
    (convert type).apply column.name t = .ok (converted t index type g) := by
  have hindex := Schema.indexOf?_of_getElem? hcolumn
  refine (apply_eq_ok_iff ht).2 ⟨index, hindex, rfl, rfl, rfl, ?_⟩
  change List.Forall₂ _ t.rows (t.rows.map _)
  rw [List.forall₂_map_right_iff, List.forall₂_same]
  intro row hrow
  obtain ⟨cell, hcell, hfits⟩ := exists_cell ht hcolumn hrow
  rw [← modify_const_eq hcell g]
  exact onRow_convert hcell (hg cell hfits)

/-- **A conversion is taken back** by the one to the old type, if that one gives back every cell that
fits. -/
theorem apply_convert_back (ht : t.WellFormed) (hcolumn : t.schema.columns[index]? = some column)
    (hg : ∀ cell : Cell, cell.Fits column.type → type.coerce cell = .ok (g cell))
    (hback : ∀ cell : Cell, cell.Fits column.type → column.type.coerce (g cell) = .ok cell) :
    (convert column.type).apply column.name (converted t index type g) = .ok t := by
  have hu := wellFormed_of_apply ht (apply_convert ht hcolumn hg)
  have hindex : (t.schema.retype index type).indexOf? column.name = some index := by
    rw [Schema.indexOf?, Schema.names, Schema.retype, Schema.columnNames_modify]
    exact Schema.indexOf?_of_getElem? hcolumn
  have hschema := (Schema.retype_retype hcolumn type).symm
  refine (apply_eq_ok_iff hu).2 ⟨index, hindex, rfl, rfl, hschema, ?_⟩
  change List.Forall₂ _ (t.rows.map _) t.rows
  rw [List.forall₂_map_left_iff, List.forall₂_same]
  intro row hrow
  obtain ⟨cell, hcell, hfits⟩ := exists_cell ht hcolumn hrow
  have hcell' : (row.modify index g)[index]? = some (g cell) := by simp [hcell]
  have honRow := onRow_convert hcell' (hback cell hfits)
  rw [List.modify_modify_eq] at honRow
  have hrow' : row.modify index ((fun _ => cell) ∘ g) = row := modify_eq_self hcell
  rwa [hrow'] at honRow

/-- **A conversion to the type that a column has changes nothing.** -/
theorem apply_convert_self (ht : t.WellFormed) (hcolumn : column ∈ t.schema.columns) :
    (convert column.type).apply column.name t = .ok t := by
  obtain ⟨index, hindex⟩ := List.mem_iff_getElem?.1 hcolumn
  have hsame : converted t index column.type id = t := by
    simp [converted, Schema.retype_self hindex, List.modify_id]
  have happly := apply_convert (g := id) ht hindex fun _ hfits => ColumnType.coerce_of_fits hfits
  rwa [hsame] at happly

end ColumnChange

/-! ## Integers as texts -/

/-- The text of a cell as a cell. -/
def Cell.asText : Cell → Cell
  | null => null
  | cell => text cell.display

theorem ColumnType.coerce_text_eq (cell : Cell) : text.coerce cell = .ok cell.asText := by
  cases cell <;> rfl

/-- **The text of an integer is read as that integer**, and a null stays null. -/
theorem ColumnType.coerce_asText {cell : Cell} (h : cell.Fits integer) :
    integer.coerce cell.asText = .ok cell := by
  rcases h with rfl | h
  · rfl
  · cases cell with
    | integer i =>
        change parse integer (Integer.text i) = .ok (.integer i)
        rw [parse, Text.trim_of_forall_not Integer.isBlank_of_mem_text, Integer.read?_text]
    | _ => cases h

theorem ColumnChange.exists_text_and_back {t : Table} (ht : t.WellFormed) {name : String}
    (hcolumn : ⟨name, .integer⟩ ∈ t.schema.columns) :
    ∃ u, (convert .text).apply name t = .ok u ∧ (convert .integer).apply name u = .ok t := by
  obtain ⟨index, hindex⟩ := List.mem_iff_getElem?.1 hcolumn
  have htext : ∀ cell : Cell, cell.Fits .integer → ColumnType.text.coerce cell = .ok cell.asText :=
    fun cell _ => ColumnType.coerce_text_eq cell
  have hback := apply_convert_back ht hindex htext fun cell => ColumnType.coerce_asText
  exact ⟨_, apply_convert ht hindex htext, hback⟩

/-! ## Undoing in place -/

/-- Whether an edit adds a column with the given name and type. -/
inductive Edit.Adds : Edit → String → ColumnType → Prop
  | addColumn (name : String) (type : ColumnType) : Adds (addColumn name type) name type
  | alterAdd (name : String) (type : ColumnType) : Adds (alter .add name (some type)) name type

theorem Edit.Adds.exists_run_iff {edit : Edit} {name : String} {type : ColumnType} {t : Table}
    (h : edit.Adds name type) (ht : t.WellFormed) (u : Table) (w : World) :
    (∃ w', edit.editing.run t w = (.ok (), u, w')) ↔ t.addColumn name type = .ok u := by
  have hclean : edit ≠ clean := by
    rintro rfl
    cases h
  have haction : ((edit.action t).run w).1 = t.addColumn name type := by
    rw [(Operation.computes_edit t hclean).fst_run]
    cases h <;> rfl
  rw [← haction]
  exact exists_run_editing_iff ht hclean u w

/-- **Alterations that should undo each other do.** Whenever a column can be added to a well-formed
table, it can be dropped again. Any column can be given the type it has. Any column of integers can
be made one of texts, and then one of integers again. In each case the table is then what it was
before, with the same schema and the same rows. -/
theorem Editing.alterations_undone {t : Table} (ht : t.WellFormed) (w : World) :
    (∀ (adding dropping : Edit) (name : String) (type : ColumnType), adding.Adds name type →
      dropping.Alters .drop name → ∀ u w', adding.editing.run t w = (.ok (), u, w') →
      ∃ w'', dropping.editing.run u w' = (.ok (), t, w'')) ∧
    (∀ (converting : Edit) (column : Column), column ∈ t.schema.columns →
      converting.Alters (.convert column.type) column.name →
      ∃ w', converting.editing.run t w = (.ok (), t, w')) ∧
    ∀ (writing reading : Edit) (name : String), ⟨name, .integer⟩ ∈ t.schema.columns →
      writing.Alters (.convert .text) name → reading.Alters (.convert .integer) name →
      ∃ u w', writing.editing.run t w = (.ok (), u, w') ∧ ⟨name, .text⟩ ∈ u.schema.columns ∧
        ∃ w'', reading.editing.run u w' = (.ok (), t, w'') := by
  refine ⟨?_, ?_, ?_⟩
  · intro adding dropping name type hadding hdropping u w' hrun
    have hadd := (hadding.exists_run_iff ht u w).1 ⟨w', hrun⟩
    have hdrop := ht.dropColumn_of_addColumn hadd
    exact (hdropping.exists_run_iff (ht.addColumn hadd) t w').2 hdrop
  · intro converting column hcolumn hconverting
    have hself := ColumnChange.apply_convert_self ht hcolumn
    exact (hconverting.exists_run_iff ht t w).2 hself
  · intro writing reading name hcolumn hwriting hreading
    obtain ⟨u, hwrite, hread⟩ := ColumnChange.exists_text_and_back ht hcolumn
    obtain ⟨w', hrun⟩ := (hwriting.exists_run_iff ht u w).2 hwrite
    have hu := ColumnChange.wellFormed_of_apply ht hwrite
    refine ⟨u, w', hrun, ColumnChange.doneIn_of_apply ht hwrite, ?_⟩
    exact (hreading.exists_run_iff hu t w').2 hread

/-- A table of meters, one of them at each end of the integers and one without a count. -/
def meters : Table where
  id := ⟨"temp", "meters"⟩
  schema := ⟨[⟨"count", .integer⟩, ⟨"site", .text⟩], by decide⟩
  rows := [[.integer (-0x8000000000000000), .text "north"], [.null, .text ""],
    [.integer 0x7fffffffffffffff, .text "south"]]
  store := none

/-- The meters get a price and lose it again, the sites stay texts, and the counts are written out
and read back. -/
theorem Editing.alterations_undone_meters :
    let w := World.ofFiles ⟨[], [], []⟩
    (∃ u w' w'', (Edit.addColumn "price" .float).editing.run meters w = (.ok (), u, w') ∧
      (Edit.alter .drop "price" none).editing.run u w' = (.ok (), meters, w'')) ∧
      (∃ w', (Edit.modifyColumn "site" .text).editing.run meters w = (.ok (), meters, w')) ∧
      ∃ u w' w'', (Edit.alter .modify "count" (some .text)).editing.run meters w = (.ok (), u, w') ∧
        (Edit.modifyColumn "count" .integer).editing.run u w' = (.ok (), meters, w'') := by
  intro w
  have hmeters : meters.WellFormed :=
    Table.wellFormed_of_rows_fit
      (by simp [meters, Row.Fits, Cell.Fits, Schema.types, Cell.type?])
  obtain ⟨hadd, hself, htext⟩ := alterations_undone hmeters w
  refine ⟨?_, ?_, ?_⟩
  · obtain ⟨u, w', hrun⟩ : ∃ u w', (Edit.addColumn "price" .float).editing.run meters w =
        (.ok (), u, w') := ⟨_, _, rfl⟩
    obtain ⟨w'', hback⟩ := hadd _ _ _ _ (.addColumn "price" .float) (.alterDrop "price" none) u w' hrun
    exact ⟨u, w', w'', hrun, hback⟩
  · exact hself _ ⟨"site", .text⟩ (by decide) (.modifyColumn "site" .text)
  · obtain ⟨u, w', hrun, -, w'', hback⟩ := htext _ _ "count" (by decide)
      (.alterModify "count" .text) (.modifyColumn "count" .integer)
    exact ⟨u, w', w'', hrun, hback⟩

end FlatTables
