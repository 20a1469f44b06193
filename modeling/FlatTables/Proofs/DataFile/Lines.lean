import FlatTables.Proofs.Operation.Stored

set_option autoImplicit false

/-! # The lines that messages name

A record that does not fit its schema is reported with the line at which the reader stood when it
was through with the record before it. Between that place and the first byte of the record there may
be ends of lines: those of empty lines, and the line feed of a line that ends with a carriage return
and a line feed. `Delimited.standings` tells these places apart for every record of a file, and
`Delimited.forall₂_standings` says which of them the reader notes.

The first record that does not fit is always found, and the message names its line exactly if there
is no line feed between (`DataFile.names_line_iff`). -/

namespace FlatTables

namespace Delimited

/-! ## Where records stand -/

/-- The line of the byte that comes after the given ones, counted from one. -/
def lineAfter (bytes : List UInt8) : Nat := 1 + bytes.count lineFeed

/-- Where a record stands in a file. -/
structure Standing where
  /-- The bytes up to the one that ends the record before it; at first, the byte order mark. -/
  before : List UInt8
  /-- The ends of lines between these and the first byte of the record. -/
  gap : List UInt8

/-- The line on which the first byte of a record stands. -/
def Standing.line (s : Standing) : Nat := lineAfter (s.before ++ s.gap)

/-- Where the records stand that begin in the bytes still to be read. What has been read is
`before ++ gap`, where `gap` is what came since a record ended. -/
def standingsFrom (before gap : List UInt8) : Scan → List UInt8 → List Standing
  | _, [] => []
  | .between, b :: rest =>
    if isLineEnd b then standingsFrom before (gap ++ [b]) .between rest
    else ⟨before, gap⟩ :: standingsFrom (before ++ gap ++ [b]) [] (readByte b .between).1 rest
  | .inside mode field fields, b :: rest =>
    standingsFrom (before ++ gap ++ [b]) [] (readInside b mode field fields).1 rest

/-- Where the records of a file stand. -/
def standings (bytes : List UInt8) : List Standing :=
  if byteOrderMark.isPrefixOf bytes then
    standingsFrom byteOrderMark [] .between (bytes.drop byteOrderMark.length)
  else standingsFrom [] [] .between bytes

/-- Whether a file has a record, or the beginning of one, at the given place. -/
structure Standing.In (s : Standing) (bytes : List UInt8) : Prop where
  gap : ∀ b ∈ s.gap, isLineEnd b = true
  opens : ∃ b rest, bytes = s.before ++ s.gap ++ b :: rest ∧ isLineEnd b = false

/-! ## Steps of the reader -/

theorem readPlain_cases (b : UInt8) (field : Field) (fields : List Field) :
    (∃ mode field' fields', readPlain b field fields = (.inside mode field' fields', none)) ∨
      ∃ fields', readPlain b field fields = (.between, some fields') := by
  unfold readPlain
  split
  · exact .inl ⟨_, _, _, rfl⟩
  · split
    · exact .inr ⟨_, rfl⟩
    · exact .inl ⟨_, _, _, rfl⟩

/-- Inside a record the reader either stays there, or ends the record. -/
theorem readInside_cases (b : UInt8) (mode : FieldMode) (field : Field) (fields : List Field) :
    (∃ mode' field' fields',
        readInside b mode field fields = (.inside mode' field' fields', none)) ∨
      ∃ fields', readInside b mode field fields = (.between, some fields') := by
  cases mode with
  | plain => exact readPlain_cases b field fields
  | quoted =>
      rw [readInside]
      split
      · exact .inl ⟨_, _, _, rfl⟩
      · exact .inl ⟨_, _, _, rfl⟩
  | start | closing =>
      rw [readInside]
      split
      · exact .inl ⟨_, _, _, rfl⟩
      · exact readPlain_cases b field fields

/-- A byte that ends no line opens a record. -/
theorem exists_readByte_between {b : UInt8} (h : isLineEnd b = false) :
    ∃ mode field fields, readByte b .between = (.inside mode field fields, none) := by
  simp only [readByte, readInside, readPlain, h, Bool.false_eq_true, if_false]
  split
  · exact ⟨_, _, _, rfl⟩
  · split
    · exact ⟨_, _, _, rfl⟩
    · exact ⟨_, _, _, rfl⟩

theorem lineAfter_concat (bytes : List UInt8) (b : UInt8) :
    lineAfter (bytes ++ [b]) = if b = lineFeed then lineAfter bytes + 1 else lineAfter bytes := by
  unfold lineAfter
  rw [List.count_append, List.count_singleton]
  split <;> simp_all [Nat.add_assoc]

theorem Position.line_after {here : Position} {bytes : List UInt8}
    (h : here.line = lineAfter bytes) (b : UInt8) :
    (here.after b).line = lineAfter (bytes ++ [b]) := by
  rw [lineAfter_concat, ← h]
  rfl

/-! ## What the reader notes -/

/-- A record is noted with the line at which the one before it ended. A record that is being read
has been placed already, at `s`. -/
theorem forall₂_standingsFrom (bytes : List UInt8) :
    (∀ (start here : Position) (before gap : List UInt8), start.line = lineAfter before →
      here.line = lineAfter (before ++ gap) →
      List.Forall₂ (fun record s => record.position.line = lineAfter s.before)
        (readFrom start here .between bytes) (standingsFrom before gap .between bytes)) ∧
    ∀ (start here : Position) (read : List UInt8) (mode : FieldMode) (field : Field)
      (fields : List Field) (s : Standing), start.line = lineAfter s.before →
      here.line = lineAfter read →
      List.Forall₂ (fun record s => record.position.line = lineAfter s.before)
        (readFrom start here (.inside mode field fields) bytes)
        (s :: standingsFrom read [] (.inside mode field fields) bytes) := by
  induction bytes with
  | nil =>
      constructor
      · intros
        exact .nil
      · intro start here read mode field fields s hstart hhere
        exact .cons hstart .nil
  | cons b rest ih =>
      obtain ⟨ihbetween, ihinside⟩ := ih
      constructor
      · intro start here before gap hstart hhere
        rw [readFrom_cons, standingsFrom]
        have hafter := Position.line_after hhere b
        cases hb : isLineEnd b with
        -- the end of an empty line takes the reader on, but not the place that it notes
        | true =>
            simp only [readByte, hb, if_true]
            rw [List.append_assoc] at hafter
            exact ihbetween _ _ _ _ hstart hafter
        | false =>
            obtain ⟨mode, field, fields, hbyte⟩ := exists_readByte_between hb
            simp only [hbyte, Bool.false_eq_true, if_false]
            exact ihinside _ _ _ _ _ _ ⟨before, gap⟩ hstart hafter
      · intro start here read mode field fields s hstart hhere
        rw [readFrom_cons, standingsFrom, List.append_nil, readByte]
        have hafter := Position.line_after hhere b
        rcases readInside_cases b mode field fields with ⟨mode', field', fields', h⟩ | ⟨fields', h⟩
        · simp only [h]
          exact ihinside _ _ _ _ _ _ s hstart hafter
        -- the next record is noted here, behind the first byte of the line end
        · simp only [h]
          refine .cons hstart (ihbetween _ _ _ _ hafter ?_)
          rwa [List.append_nil]

/-- **The line that is noted with a record** is the one in which the record before it ended. -/
theorem forall₂_standings (bytes : List UInt8) :
    List.Forall₂ (fun record s => record.position.line = lineAfter s.before) (readRecords bytes)
      (standings bytes) := by
  unfold readRecords standings
  split
  · exact (forall₂_standingsFrom _).1 ⟨1, 0⟩ ⟨1, byteOrderMark.length⟩ byteOrderMark [] rfl rfl
  · exact (forall₂_standingsFrom _).1 ⟨1, 0⟩ ⟨1, 0⟩ [] [] rfl rfl

theorem in_of_mem_standingsFrom {before gap : List UInt8} {scan : Scan} {bytes : List UInt8}
    (hgap : ∀ b ∈ gap, isLineEnd b = true) {s : Standing}
    (h : s ∈ standingsFrom before gap scan bytes) : s.In (before ++ gap ++ bytes) := by
  induction bytes generalizing before gap scan with
  | nil => cases scan <;> cases h
  | cons b rest ih =>
      have hnil : ∀ b ∈ ([] : List UInt8), isLineEnd b = true := by simp
      cases scan with
      | between =>
          rw [standingsFrom] at h
          cases hb : isLineEnd b with
          | true =>
              rw [if_pos hb] at h
              have hgap' : ∀ b' ∈ gap ++ [b], isLineEnd b' = true :=
                List.forall_mem_append.2 ⟨hgap, List.forall_mem_singleton.2 hb⟩
              simpa using ih hgap' h
          | false =>
              rw [hb, if_neg Bool.false_ne_true] at h
              rcases List.mem_cons.1 h with rfl | h
              · exact ⟨hgap, b, rest, rfl, hb⟩
              · simpa using ih hnil h
      | inside mode field fields =>
          rw [standingsFrom] at h
          simpa using ih hnil h

theorem in_of_mem_standings {bytes : List UInt8} {s : Standing} (h : s ∈ standings bytes) :
    s.In bytes := by
  unfold standings at h
  split at h
  · next hmark =>
      obtain ⟨rest, rfl⟩ := List.isPrefixOf_iff_prefix.1 hmark
      rw [List.drop_left] at h
      simpa using in_of_mem_standingsFrom (by simp) h
  · exact in_of_mem_standingsFrom (by simp) h

theorem Standing.line_eq (s : Standing) : s.line = lineAfter s.before + s.gap.count lineFeed := by
  rw [Standing.line, lineAfter, lineAfter, List.count_append, Nat.add_assoc]

end Delimited

open Delimited (Standing readRecords standings lineAfter lineFeed)

/-- The line that an error names. -/
def StorageError.line? : StorageError → Option Nat
  | .fieldCount _ line _ _ => some line
  | .field _ line _ => some line
  | _ => none

namespace DataFile

/-! ## Records that fit -/

variable {path : Path} {schema : Schema}

/-- Whether the fields of a record are a row of a schema: they are texts, one for each column, and
each is empty or of its column's type. -/
def Fits (schema : Schema) (fields : List Delimited.Field) : Prop :=
  ∃ texts row, List.Forall₂ (fun field text => Text.decode? field = some text) fields texts ∧
    texts.length = schema.width ∧ cellsOfTexts schema.columns texts = .ok row

theorem textsOfFields_eq_ok_iff {number index : Nat} {position : Delimited.Position}
    {fields : List Delimited.Field} {texts : List String} :
    textsOfFields number position index fields = .ok texts ↔
      List.Forall₂ (fun field text => Text.decode? field = some text) fields texts := by
  induction fields generalizing index texts with
  | nil =>
      rw [List.forall₂_nil_left_iff]
      exact ⟨fun h => (Except.ok.inj h).symm, fun h => congrArg _ h.symm⟩
  | cons field rest ih =>
      rw [textsOfFields, List.forall₂_cons_left_iff]
      cases hfield : Text.decode? field with
      | none => simp
      | some text =>
          simp only [map_eq_ok_iff, ih]
          constructor
          · rintro ⟨texts', hrest, rfl⟩
            exact ⟨text, texts', rfl, hrest, rfl⟩
          · rintro ⟨text', texts', htext, hrest, rfl⟩
            cases htext
            exact ⟨texts', hrest, rfl⟩

theorem exists_rowOfRecord_iff (path : Path) (number : Nat) {record : Delimited.Record} :
    (∃ row, rowOfRecord path schema number record = .ok row) ↔ Fits schema record.fields := by
  unfold rowOfRecord
  constructor
  · rintro ⟨row, h⟩
    split at h
    · cases h
    · next texts htexts =>
        split at h
        · next hlength =>
            exact ⟨texts, row, textsOfFields_eq_ok_iff.1 htexts, hlength, mapError_eq_ok_iff.1 h⟩
        · cases h
  · rintro ⟨texts, row, htexts, hlength, hrow⟩
    refine ⟨row, ?_⟩
    simp only [textsOfFields_eq_ok_iff.2 htexts, if_pos hlength, mapError_eq_ok_iff]
    exact hrow

theorem not_fits_of_rowOfRecord (path : Path) (number : Nat) {record : Delimited.Record}
    {e : StorageError} (h : rowOfRecord path schema number record = .error e) :
    ¬Fits schema record.fields := by
  rw [← exists_rowOfRecord_iff path number, h]
  exact fun ⟨_, hrow⟩ => nomatch hrow

/-! ## The first record that does not fit -/

/-- Whether the first record of a file that does not fit the schema stands at `s`. -/
def FirstMisfit (schema : Schema) (content : List UInt8) (s : Standing) : Prop :=
  ∃ number record, (readRecords content)[number]? = some record ∧
    (standings content)[number]? = some s ∧ ¬Fits schema record.fields ∧
    ∀ earlier ∈ (readRecords content).take number, Fits schema earlier.fields

/-- There is only one first record that does not fit. -/
theorem FirstMisfit.unique {content : List UInt8} {s s' : Standing}
    (h : FirstMisfit schema content s) (h' : FirstMisfit schema content s') : s = s' := by
  obtain ⟨number, record, hrecord, hs, hmisfit, hearlier⟩ := h
  obtain ⟨number', record', hrecord', hs', hmisfit', hearlier'⟩ := h'
  -- of two numbers the smaller one would belong to a record that fits
  obtain hlt | rfl | hlt := Nat.lt_trichotomy number number'
  · refine absurd (hearlier' record (List.mem_of_getElem? (i := number) ?_)) hmisfit
    rwa [List.getElem?_take_of_lt hlt]
  · exact Option.some.inj (hs.symm.trans hs')
  · refine absurd (hearlier record' (List.mem_of_getElem? (i := number') ?_)) hmisfit'
    rwa [List.getElem?_take_of_lt hlt]

/-- The line in a message is the one that was noted with the record. -/
theorem line_of_rowOfRecord {number : Nat} {record : Delimited.Record} {e : StorageError}
    (h : rowOfRecord path schema number record = .error e) {line : Nat}
    (hline : e.line? = some line) : line = record.position.line := by
  unfold rowOfRecord at h
  split at h
  · cases h
    cases hline
  · split at h
    · obtain ⟨cause, -, rfl⟩ := mapError_eq_error_iff.1 h
      exact (Option.some.inj hline).symm
    · cases h
      exact (Option.some.inj hline).symm

/-- A reading that fails does so at the first record that does not fit. -/
theorem exists_of_rowsOfRecords_eq_error {number : Nat} {records : List Delimited.Record}
    {e : StorageError} (h : rowsOfRecords path schema number records = .error e) :
    ∃ index record, records[index]? = some record ∧
      rowOfRecord path schema (number + index) record = .error e ∧
      ∀ earlier ∈ records.take index, Fits schema earlier.fields := by
  induction records generalizing number with
  | nil => cases h
  | cons record rest ih =>
      rcases bind_eq_error_iff.1 h with hrow | ⟨row, hrow, h⟩
      · exact ⟨0, record, rfl, hrow, by simp⟩
      · rcases bind_eq_error_iff.1 h with hrest | ⟨rows, -, h⟩
        · obtain ⟨index, record', hrecord', herror, hearlier⟩ := ih hrest
          refine ⟨index + 1, record', hrecord', ?_, ?_⟩
          · rwa [Nat.add_comm index, ← Nat.add_assoc]
          · exact List.forall_mem_cons.2 ⟨(exists_rowOfRecord_iff _ _).1 ⟨row, hrow⟩, hearlier⟩
        · cases h

/-! ## The main result -/

/-- **Which line a message names.** When a file is not read and the message names a line, there is a
first record that does not fit the schema. The line of its first byte comes after the named one by
the line feeds that stand between it and the record before it, so the message is right exactly if
there are none. -/
theorem names_line_iff {w : World} {e : StorageError} {line : Nat}
    (h : ((readRows path schema).run w).1 = .error e) (hline : e.line? = some line) :
    ∃ content s, w.files.read path = .ok content ∧ s.In content ∧ FirstMisfit schema content s ∧
      s.line = line + s.gap.count lineFeed ∧ (line = s.line ↔ lineFeed ∉ s.gap) := by
  rw [Operation.fst_run_readRows, DataFile.read] at h
  cases hread : w.files.read path with
  | error cause =>
      rw [hread] at h
      cases h
      cases hline
  | ok content =>
      rw [hread] at h
      obtain ⟨number, record, hrecord, herror, hearlier⟩ := exists_of_rowsOfRecords_eq_error h
      obtain ⟨s, hs, hnoted⟩ : ∃ s, (standings content)[number]? = some s ∧
          record.position.line = lineAfter s.before := by
        obtain ⟨hlength, hlines⟩ := List.forall₂_iff_get.1 (Delimited.forall₂_standings content)
        obtain ⟨hnumber, rfl⟩ := List.getElem?_eq_some_iff.1 hrecord
        have hnumber' : number < (standings content).length := hlength ▸ hnumber
        exact ⟨_, List.getElem?_eq_getElem hnumber', hlines number hnumber hnumber'⟩
      refine ⟨content, s, rfl, Delimited.in_of_mem_standings (List.mem_of_getElem? hs),
        ⟨number, record, hrecord, hs, not_fits_of_rowOfRecord _ _ herror, hearlier⟩, ?_⟩
      have hcount : s.line = line + s.gap.count lineFeed := by
        rw [s.line_eq, line_of_rowOfRecord herror hline, hnoted]
      refine ⟨hcount, ?_⟩
      rw [hcount, left_eq_add, List.count_eq_zero]

/-- A file with a field of two lines before the record that does not fit. -/
def quotedLines : List UInt8 := Text.encode "1;\"two\nlines\"\nx;\n"

/-- The columns of that file. -/
def remarked : Schema := ⟨[⟨"part", .integer⟩, ⟨"remark", .text⟩], by decide⟩

theorem firstMisfit_quotedLines :
    FirstMisfit remarked quotedLines ⟨Text.encode "1;\"two\nlines\"\n", []⟩ := by
  refine ⟨1, ⟨⟨3, 14⟩, [Text.encode "x", []]⟩, rfl, rfl, ?_, ?_⟩
  · exact not_fits_of_rowOfRecord ⟨"notes.csv"⟩ 1 rfl
  · have htake : (readRecords quotedLines).take 1 =
        [⟨⟨1, 0⟩, [Text.encode "1", Text.encode "two\nlines"]⟩] := rfl
    rw [htake, List.forall_mem_singleton]
    exact ⟨["1", "two\nlines"], _, .cons rfl (.cons rfl .nil), rfl, rfl⟩

/-- A field of two lines does not mislead the reader. -/
theorem names_line_iff_quotedLines :
    ∃ e s, ((readRows ⟨"notes.csv"⟩ remarked).run
        (World.ofFiles ⟨[(["notes.csv"], .file quotedLines)], [], []⟩)).1 = .error e ∧
      e.line? = some 3 ∧ FirstMisfit remarked quotedLines s ∧ s.line = 3 := by
  obtain ⟨e, h, hline⟩ : ∃ e, ((readRows ⟨"notes.csv"⟩ remarked).run
      (World.ofFiles ⟨[(["notes.csv"], .file quotedLines)], [], []⟩)).1 = .error e ∧
        e.line? = some 3 := ⟨_, rfl, rfl⟩
  obtain ⟨content, s, hread, -, hs, -, hiff⟩ := names_line_iff h hline
  cases hread
  obtain rfl := hs.unique firstMisfit_quotedLines
  exact ⟨e, _, h, hline, hs, (hiff.2 List.not_mem_nil).symm⟩

/-- A file whose lines end with a carriage return and a line feed. -/
def carriageReturned : List UInt8 := Text.encode "1\r\nx\r\n"

/-- The columns of that file. -/
def numbered : Schema := ⟨[⟨"lot", .integer⟩], by decide⟩

/-- The record on the second line is reported for the first one, which is over at its carriage
return. -/
theorem not_names_line_carriageReturned :
    ∃ e s, ((readRows ⟨"lots.csv"⟩ numbered).run
        (World.ofFiles ⟨[(["lots.csv"], .file carriageReturned)], [], []⟩)).1 = .error e ∧
      e.line? = some 1 ∧ FirstMisfit numbered carriageReturned s ∧ s.line = 2 := by
  refine ⟨_, ⟨Text.encode "1\r", Text.encode "\n"⟩, rfl, rfl, ?_, rfl⟩
  refine ⟨1, ⟨⟨1, 2⟩, [Text.encode "x"]⟩, rfl, rfl, ?_, ?_⟩
  · exact not_fits_of_rowOfRecord ⟨"lots.csv"⟩ 1 rfl
  · have htake : (readRecords carriageReturned).take 1 = [⟨⟨1, 0⟩, [Text.encode "1"]⟩] := rfl
    rw [htake, List.forall_mem_singleton]
    exact ⟨["1"], _, .cons rfl .nil, rfl, rfl⟩

end DataFile

end FlatTables
