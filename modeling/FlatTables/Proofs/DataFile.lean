import FlatTables.DataFile
import FlatTables.Proofs.Binary64.Layout
import FlatTables.Proofs.Delimited
import FlatTables.Proofs.Table.Fitting

set_option autoImplicit false

/-! # Data files are read back

Every cell is read back from its field, except for two kinds that share the text of another cell: an
empty text, whose field is that of null, and the not-a-number values, which all have one text. What
comes back is `Cell.readBack` (`parse_render_eq`), whatever bytes the texts take in the file. So the
rows of a table are read back as they are if they hold no cell of these kinds (`parse_render`).

Two files are read as something else (`parse_render_iff`): one for rows without cells, whose records
have an empty field, and one that happens to begin with a byte order mark, which is lost
(`parse_render_of_mark`). -/

namespace FlatTables

/-! ## Cells -/

/-- Whether a cell is read back from its field: it is neither an empty text nor a not-a-number
value. -/
def Cell.ReadsBack : Cell → Prop
  | .float x => x.isNaN = false
  | .text s => s ≠ ""
  | _ => True

instance : (cell : Cell) → Decidable cell.ReadsBack
  | .null => isTrue trivial
  | .integer _ => isTrue trivial
  | .float x => inferInstanceAs (Decidable (x.isNaN = false))
  | .text s => inferInstanceAs (Decidable (s ≠ ""))

/-- The cell that comes back from the field of a cell. -/
def Cell.readBack : Cell → Cell
  | .float x => .float (if x.isNaN then .notANumber false else x)
  | .text s => if s = "" then .null else .text s
  | cell => cell

theorem Cell.readBack_eq_self {cell : Cell} (h : cell.ReadsBack) : cell.readBack = cell := by
  cases cell with
  | null => rfl
  | integer i => rfl
  | float x => exact congrArg Cell.float (if_neg (by simp [show x.isNaN = false from h]))
  | text s => exact if_neg h

/-- The row that comes back from a record. -/
def Row.readBack (row : Row) : Row := row.map Cell.readBack

theorem Row.readBack_eq_self {row : Row} (h : ∀ cell ∈ row, cell.ReadsBack) : row.readBack = row :=
  (List.map_congr_left fun cell hcell => Cell.readBack_eq_self (h cell hcell)).trans (List.map_id row)

namespace DataFile

/-- The text that stands in the field of a cell. -/
def textOfCell : Cell → String
  | .null => ""
  | cell => cell.display

theorem fieldOfCell_eq (cell : Cell) : fieldOfCell cell = Text.encode (textOfCell cell) := by
  cases cell <;> rfl

/-- The cell of a text in a column of a type. -/
def cellOfText (type : ColumnType) (text : String) : Except ConversionError Cell :=
  if text = "" then .ok .null else type.parse text

/-- **A cell is read back from its text**, or else the cell that shares its text. -/
theorem cellOfText_textOfCell {type : ColumnType} {cell : Cell} (hfits : cell.Fits type) :
    cellOfText type (textOfCell cell) = .ok cell.readBack := by
  rcases hfits with rfl | htype
  · rfl
  · cases cell with
    | null => cases htype
    | integer i =>
        cases htype
        -- numbers are trimmed before they are read, but their texts hold no blanks
        have htrim := Text.trim_of_forall_not (Integer.isBlank_of_mem_text (i := i))
        change cellOfText .integer (Integer.text i) = _
        unfold cellOfText
        rw [if_neg (Integer.text_ne_empty i), ColumnType.parse, htrim,
          Integer.read?_text]
        rfl
    | float x =>
        cases htype
        change cellOfText .float (Binary64.Layout.cell.text x) = .ok (.float (ite _ _ _))
        cases hnan : x.isNaN with
        | true =>
            have htext : Binary64.Layout.cell.text x = "NaN" := if_pos hnan
            rw [htext]
            rfl
        | false =>
            have htrim := Text.trim_of_forall_not (Binary64.Layout.cell.isBlank_of_mem_text hnan)
            unfold cellOfText
            rw [if_neg (Binary64.Layout.cell.text_ne_empty hnan), ColumnType.parse, htrim,
              Binary64.Layout.cell.read?_text hnan]
            rfl
    | text s =>
        cases htype
        change (if s = "" then .ok Cell.null else .ok (.text s)) =
          Except.ok (if s = "" then Cell.null else .text s)
        split
        · rfl
        · rfl

/-! ## Rows -/

theorem textsOfFields_map (number : Nat) (position : Delimited.Position) (index : Nat) (row : Row) :
    textsOfFields number position index (row.map fieldOfCell) = .ok (row.map textOfCell) := by
  induction row generalizing index with
  | nil => rfl
  | cons cell rest ih =>
      rw [List.map_cons, textsOfFields, fieldOfCell_eq, Text.decode?_encode]
      simp only [ih]
      rfl

theorem cellsOfTexts_cons (column : Column) (columns : List Column) (text : String)
    (texts : List String) : cellsOfTexts (column :: columns) (text :: texts) = (do
      let cell ← cellOfText column.type text
      let cells ← cellsOfTexts columns texts
      .ok (cell :: cells)) := by
  rw [cellsOfTexts, cellOfText]
  split
  · rfl
  · rfl

theorem cellsOfTexts_map {columns : List Column} {row : Row}
    (hfits : Row.Fits (columns.map (·.type)) row) :
    cellsOfTexts columns (row.map textOfCell) = .ok row.readBack := by
  induction columns generalizing row with
  | nil =>
      cases hfits
      rfl
  | cons column columns ih =>
      obtain ⟨cell, cells, hcell, hcells, rfl⟩ := List.forall₂_cons_left_iff.1 hfits
      rw [List.map_cons, cellsOfTexts_cons, cellOfText_textOfCell hcell, ih hcells]
      rfl

variable {schema : Schema}

/-- A row is read back from a record with its fields, wherever the record stands. -/
theorem rowOfRecord_of_fields (path : Path) (number : Nat) {record : Delimited.Record} {row : Row}
    (hfits : Row.Fits schema.types row) (hfields : record.fields = row.map fieldOfCell) :
    rowOfRecord path schema number record = .ok row.readBack := by
  have hlength : (row.map textOfCell).length = schema.width := by
    rw [List.length_map, hfits.length_eq, schema.length_types]
  unfold rowOfRecord
  rw [hfields, textsOfFields_map]
  simp only [if_pos hlength]
  rw [cellsOfTexts_map hfits]
  rfl

theorem rowsOfRecords_of_fields (path : Path) {rows : List Row}
    (hfits : ∀ row ∈ rows, Row.Fits schema.types row) (number : Nat)
    {records : List Delimited.Record}
    (hfields : records.map Delimited.Record.fields = rows.map fun row => row.map fieldOfCell) :
    rowsOfRecords path schema number records = .ok (rows.map Row.readBack) := by
  induction rows generalizing number records with
  | nil =>
      rw [List.map_nil, List.map_eq_nil_iff] at hfields
      rw [hfields]
      rfl
  | cons row rest ih =>
      obtain ⟨hrow, hrest⟩ := List.forall_mem_cons.1 hfits
      obtain ⟨record, records, rfl, hrecord, hrecords⟩ := List.map_eq_cons_iff.1 hfields
      unfold rowsOfRecords
      rw [rowOfRecord_of_fields path number hrow hrecord, ih hrest (number + 1) hrecords]
      rfl

/-! ## Files -/

theorem length_of_mem_records {rows : List Row}
    (hfits : ∀ row ∈ rows, Row.Fits schema.types row) :
    ∀ fields ∈ rows.map fun row => row.map fieldOfCell, fields.length = schema.width := by
  intro fields hmem
  obtain ⟨row, hrow, rfl⟩ := List.mem_map.1 hmem
  rw [List.length_map, (hfits row hrow).length_eq, schema.length_types]

/-- **Every row comes back from the data file**, with the cells that share the texts of others as
those. -/
theorem parse_render_eq (path : Path) (hwidth : 0 < schema.width) {rows : List Row}
    (hfits : ∀ row ∈ rows, Row.Fits schema.types row)
    (hmark : ¬ Delimited.byteOrderMark <+: (render rows).1) :
    parse path schema (render rows).1 = .ok (rows.map Row.readBack) := by
  refine rowsOfRecords_of_fields path hfits 0 ?_
  exact Delimited.fields_readRecords hwidth (length_of_mem_records hfits) hmark

/-- **The rows of a table are read back from its data file.** -/
theorem parse_render (path : Path) (hwidth : 0 < schema.width) {rows : List Row}
    (hfits : ∀ row ∈ rows, Row.Fits schema.types row)
    (hreads : ∀ row ∈ rows, ∀ cell ∈ row, cell.ReadsBack)
    (hmark : ¬ Delimited.byteOrderMark <+: (render rows).1) :
    parse path schema (render rows).1 = .ok rows := by
  have hsame : rows.map Row.readBack = rows.map id :=
    List.map_congr_left fun row hrow => Row.readBack_eq_self (hreads row hrow)
  rw [parse_render_eq path hwidth hfits hmark, hsame, List.map_id]

/-! ## What is read fits -/

theorem fits_of_cellOfText {type : ColumnType} {text : String} {cell : Cell}
    (h : cellOfText type text = .ok cell) : cell.Fits type := by
  unfold cellOfText at h
  split at h
  · cases h
    exact .inl rfl
  · exact .inr (ColumnType.type?_of_parse h)

theorem fits_of_cellsOfTexts {columns : List Column} {texts : List String} {row : Row}
    (h : cellsOfTexts columns texts = .ok row) (hlength : texts.length = columns.length) :
    Row.Fits (columns.map (·.type)) row := by
  induction columns generalizing texts row with
  | nil =>
      obtain rfl := List.length_eq_zero_iff.1 hlength
      cases h
      exact .nil
  | cons column columns ih =>
      obtain ⟨text, texts, rfl⟩ := List.exists_cons_of_length_eq_add_one hlength
      rw [cellsOfTexts_cons] at h
      obtain ⟨cell, hcell, h⟩ := bind_eq_ok_iff.1 h
      obtain ⟨cells, hcells, h⟩ := bind_eq_ok_iff.1 h
      cases h
      exact .cons (fits_of_cellOfText hcell) (ih hcells (Nat.succ.inj hlength))

theorem fits_of_rowsOfRecords {path : Path} {number : Nat} {records : List Delimited.Record}
    {rows : List Row} (h : rowsOfRecords path schema number records = .ok rows) :
    ∀ row ∈ rows, Row.Fits schema.types row := by
  induction records generalizing number rows with
  | nil =>
      cases h
      exact fun _ hrow => absurd hrow List.not_mem_nil
  | cons record rest ih =>
      obtain ⟨row, hrow, h⟩ := bind_eq_ok_iff.1 h
      obtain ⟨rows', hrows, h⟩ := bind_eq_ok_iff.1 h
      cases h
      refine List.forall_mem_cons.2 ⟨?_, ih hrows⟩
      unfold rowOfRecord at hrow
      split at hrow
      · cases hrow
      · split at hrow
        · next hlength => exact fits_of_cellsOfTexts (mapError_eq_ok_iff.1 hrow) hlength
        · cases hrow

/-- Rows that were read need no conversion. -/
theorem fits_of_parse {path : Path} {content : List UInt8} {rows : List Row}
    (h : parse path schema content = .ok rows) : ∀ row ∈ rows, Row.Fits schema.types row :=
  fits_of_rowsOfRecords h

/-! ## Errors -/

/-- An error in a data file, which names the file. -/
inductive InFile (path : Path) : StorageError → Prop
  | dataFile (cause : DelimitedError) : InFile path (.dataFile path cause)
  | fieldCount (line expected found : Nat) : InFile path (.fieldCount path line expected found)
  | field (line : Nat) (cause : ConversionError) : InFile path (.field path line cause)

theorem inFile_of_rowOfRecord {path : Path} {number : Nat} {record : Delimited.Record}
    {e : StorageError} (h : rowOfRecord path schema number record = .error e) : InFile path e := by
  unfold rowOfRecord at h
  split at h
  · cases h
    exact .dataFile _
  · split at h
    · obtain ⟨cause, -, rfl⟩ := mapError_eq_error_iff.1 h
      exact .field _ _
    · cases h
      exact .fieldCount _ _ _

theorem inFile_of_rowsOfRecords {path : Path} {number : Nat} {records : List Delimited.Record}
    {e : StorageError} (h : rowsOfRecords path schema number records = .error e) :
    InFile path e := by
  induction records generalizing number with
  | nil => cases h
  | cons record rest ih =>
      rcases bind_eq_error_iff.1 h with hrow | ⟨row, -, h⟩
      · exact inFile_of_rowOfRecord hrow
      · rcases bind_eq_error_iff.1 h with hrest | ⟨rows, -, h⟩
        · exact ih hrest
        · cases h

/-- Whatever goes wrong with a data file is reported with its path. -/
theorem inFile_of_read {files : FileTree} {path : Path} {e : StorageError}
    (h : read files path schema = .error e) : InFile path e := by
  unfold read at h
  split at h
  · cases h
    exact .dataFile _
  · exact inFile_of_rowsOfRecords h

/-! ## Files that are not read back -/

/-- A record has at least one field, so a row without cells does not come back. -/
theorem parse_render_of_width_eq_zero (path : Path) (hwidth : schema.width = 0) {rows : List Row}
    (hfits : ∀ row ∈ rows, Row.Fits schema.types row) (hne : rows ≠ []) :
    parse path schema (render rows).1 = .error (.fieldCount path 1 schema.width 1) := by
  obtain ⟨row, rest, rfl⟩ := List.exists_cons_of_ne_nil hne
  obtain ⟨hrow, -⟩ := List.forall_mem_cons.1 hfits
  have hnil : row = [] := by
    rw [← List.length_eq_zero_iff, hrow.length_eq, schema.length_types, hwidth]
  subst hnil
  -- the line of no fields is the line of one empty field
  obtain ⟨records, hrecords⟩ : ∃ records,
      Delimited.readRecords (render ([] :: rest)).1 = ⟨⟨1, 0⟩, [[]]⟩ :: records := by
    obtain ⟨here, hread⟩ := Delimited.readFrom_writeRecord (List.cons_ne_nil [] []) ⟨1, 0⟩ ⟨1, 0⟩
      (Delimited.writeRecordsOfWidth 0 (rest.map fun row => row.map fieldOfCell)).1
    exact ⟨_, hread⟩
  have hfirst : rowOfRecord path schema 0 ⟨⟨1, 0⟩, [[]]⟩ =
      .error (.fieldCount path 1 schema.width 1) := if_neg (by simp [hwidth])
  unfold parse
  rw [hrecords, rowsOfRecords, hfirst]
  rfl

/-- Only a text can begin with a mark. -/
theorem exists_text_of_mark {cell : Cell} {s : String}
    (h : textOfCell cell = "\ufeff" ++ s) : cell = .text ("\ufeff" ++ s) := by
  cases cell with
  | null => simpa [textOfCell] using congrArg String.toList h
  | integer i =>
      have hread := Integer.read?_text i
      rw [show Integer.text i = "\ufeff" ++ s from h] at hread
      simp [Integer.read?, Integer.int?, Integer.natural?] at hread
  | float x =>
      have htext : Binary64.Layout.cell.text x = "\ufeff" ++ s := h
      cases hnan : x.isNaN with
      | true =>
          rw [show Binary64.Layout.cell.text x = "NaN" from if_pos hnan] at htext
          simpa using congrArg String.toList htext
      | false =>
          have hread := Binary64.Layout.cell.read?_text hnan
          rw [htext, String.toList_append] at hread
          simp [Binary64.read?, Binary64.readRounded?, Binary64.readUnsigned?,
            Binary64.readDigits?] at hread
  | text s' => exact congrArg Cell.text h

theorem encode_append (s s' : String) :
    Text.encode (s ++ s') = Text.encode s ++ Text.encode s' := by
  simp [Text.encode]

theorem encode_mark : Text.encode "\ufeff" = Delimited.byteOrderMark := rfl

theorem encode_injective {s s' : String} (h : Text.encode s = Text.encode s') : s = s' := by
  have hdecode := Text.decode?_encode s
  rw [h, Text.decode?_encode] at hdecode
  exact (Option.some.inj hdecode).symm

/-- What follows a text in the bytes of a longer one is the rest of that text. -/
theorem exists_of_encode_eq_append {s s' : String} {bytes : List UInt8}
    (h : Text.encode s = Text.encode s' ++ bytes) :
    ∃ rest, s = s' ++ rest ∧ bytes = Text.encode rest := by
  have hbytes : s'.toList.utf8Encode ++ (⟨bytes.toArray⟩ : ByteArray) = s.toList.utf8Encode := by
    rw [String.utf8Encode_toList, String.utf8Encode_toList]
    ext1
    rw [ByteArray.data_append]
    refine Array.toList_inj.1 ?_
    rw [Array.toList_append]
    exact h.symm
  obtain ⟨rest, hrest⟩ := List.isPrefix_of_utf8Encode_append_eq_utf8Encode _ hbytes
  have hs : s = s' ++ String.ofList rest :=
    String.toList_inj.1 (by rw [String.toList_append, String.toList_ofList, hrest])
  rw [hs, encode_append] at h
  exact ⟨_, hs, (List.append_cancel_left h).symm⟩

/-- A field that begins with a mark is that of a text. -/
theorem exists_of_fieldOfCell_eq_append {cell : Cell} {tail : List UInt8}
    (h : fieldOfCell cell = Delimited.byteOrderMark ++ tail) :
    ∃ s, cell = .text ("\ufeff" ++ s) ∧ tail = fieldOfCell (.text s) := by
  rw [fieldOfCell_eq, ← encode_mark] at h
  obtain ⟨s, hs, htail⟩ := exists_of_encode_eq_append h
  exact ⟨s, exists_text_of_mark hs, htail⟩

/-- **What is read of a file that begins with a mark**: its first cell is a text, and comes back
without the mark. A row that holds nothing else does not come back. -/
theorem parse_render_of_mark (path : Path) (hwidth : 0 < schema.width) {rows : List Row}
    (hfits : ∀ row ∈ rows, Row.Fits schema.types row)
    (hmark : Delimited.byteOrderMark <+: (render rows).1) :
    ∃ s cells rest, rows = (.text ("\ufeff" ++ s) :: cells) :: rest ∧
      parse path schema (render rows).1 =
        .ok ((if s = "" ∧ cells = [] then rest else (.text s :: cells) :: rest).map Row.readBack) := by
  cases rows with
  | nil => exact absurd (List.prefix_nil.1 hmark) (by decide)
  | cons row rest =>
      obtain ⟨column, columns, hcolumns⟩ := List.exists_cons_of_length_pos hwidth
      obtain ⟨hrow, hrest⟩ := List.forall_mem_cons.1 hfits
      have htypes : schema.types = column.type :: columns.map (·.type) := by
        rw [Schema.types, hcolumns, List.map_cons]
      rw [htypes] at hrow
      obtain ⟨cell, cells, hcell, hcells, rfl⟩ := List.forall₂_cons_left_iff.1 hrow
      obtain ⟨tail, hfield, hread⟩ :=
        Delimited.fields_readRecords_of_mark hwidth (length_of_mem_records hfits) hmark
      obtain ⟨s, rfl, htail⟩ := exists_of_fieldOfCell_eq_append hfield
      refine ⟨s, cells, rest, rfl, rowsOfRecords_of_fields path ?_ 0 ?_⟩
      -- a text without its mark is still a text
      · have htype : column.type = .text := (Option.some.inj (hcell.resolve_left nofun)).symm
        split
        · exact hrest
        · refine List.forall_mem_cons.2 ⟨?_, hrest⟩
          rw [htypes]
          exact .cons (.inr (by rw [htype]; rfl)) hcells
      · have hempty : tail = [] ↔ s = "" := by
          rw [htail, fieldOfCell_eq]
          exact ⟨fun h => encode_injective h, fun h => by rw [h]; rfl⟩
        refine hread.trans ?_
        simp only [hempty, List.map_eq_nil_iff]
        rw [htail]
        split
        · rfl
        · rfl

/-- A file that begins with a mark loses it, and with it a text or a row. -/
theorem parse_render_ne_of_mark (path : Path) (hwidth : 0 < schema.width) {rows : List Row}
    (hfits : ∀ row ∈ rows, Row.Fits schema.types row)
    (hmark : Delimited.byteOrderMark <+: (render rows).1) {expected : Cell → Cell}
    (hexpected : ∀ s, s ≠ "" → expected (.text s) = .text s) :
    parse path schema (render rows).1 ≠ .ok (rows.map fun row => row.map expected) := by
  obtain ⟨s, cells, rest, rfl, hparse⟩ := parse_render_of_mark path hwidth hfits hmark
  rw [hparse]
  intro h
  have hrows := Except.ok.inj h
  split at hrows
  · have hlength := congrArg List.length hrows
    rw [List.length_map, List.length_map, List.length_cons] at hlength
    omega
  · have hcell : (Cell.text s).readBack = expected (.text ("\ufeff" ++ s)) :=
      (List.cons.inj (List.cons.inj hrows).1).1
    rw [hexpected _ fun hempty => by simpa using congrArg String.length hempty] at hcell
    change (if s = "" then Cell.null else .text s) = _ at hcell
    split at hcell
    · cases hcell
    · have hlength := congrArg String.length (Cell.text.inj hcell)
      rw [String.length_append] at hlength
      simp at hlength

/-- **Exactly which files are read back**: those of rows with cells in them that do not begin with a
byte order mark. -/
theorem parse_render_iff (path : Path) {rows : List Row}
    (hfits : ∀ row ∈ rows, Row.Fits schema.types row) {expected : Cell → Cell}
    (hexpected : ∀ s, s ≠ "" → expected (.text s) = .text s) :
    parse path schema (render rows).1 = .ok (rows.map fun row => row.map expected) ↔
      ((0 < schema.width ∨ rows = []) ∧ ¬ Delimited.byteOrderMark <+: (render rows).1) ∧
        rows.map Row.readBack = rows.map fun row => row.map expected := by
  by_cases hwidth : 0 < schema.width
  · by_cases hmark : Delimited.byteOrderMark <+: (render rows).1
    · have hfail := parse_render_ne_of_mark path hwidth hfits hmark hexpected
      exact ⟨fun h => absurd h hfail, fun h => absurd hmark h.1.2⟩
    · rw [parse_render_eq path hwidth hfits hmark, Except.ok.injEq]
      exact ⟨fun h => ⟨⟨.inl hwidth, hmark⟩, h⟩, fun h => h.2⟩
  · by_cases hrows : rows = []
    -- an empty file has no records, whatever the columns are
    · subst hrows
      exact ⟨fun _ => ⟨⟨.inr rfl, by decide⟩, rfl⟩, fun _ => rfl⟩
    · have hfail := parse_render_of_width_eq_zero path (Nat.eq_zero_of_not_pos hwidth) hfits hrows
      rw [hfail]
      exact ⟨fun h => (nomatch h), fun h => absurd h.1.1 (by simp [hwidth, hrows])⟩

end DataFile

end FlatTables
