import FlatTables.Delimited.Reader
import FlatTables.Delimited.Writer

set_option autoImplicit false

/-! # Delimited files are read back

The reader goes through the bytes that the writer puts down for a field without completing a record,
and afterwards it holds the field (`exists_passes_writeField`). From there the line feed at the end
of a record completes it, so a file that was written whole is read back record by record
(`fields_readRecords`). The file must not happen to begin with a byte order mark, which the reader
would drop. -/

namespace FlatTables.Delimited

/-! ## Bytes that complete no record -/

/-- The reader goes from one state to another through the given bytes, completing no record. -/
inductive Passes : Scan → List UInt8 → Scan → Prop
  | refl (scan : Scan) : Passes scan [] scan
  | step {scan scan' scan'' : Scan} {b : UInt8} {bytes : List UInt8}
      (hbyte : readByte b scan = (scan', none)) (hrest : Passes scan' bytes scan'') :
      Passes scan (b :: bytes) scan''

theorem Passes.byte {scan scan' : Scan} {b : UInt8} (h : readByte b scan = (scan', none)) :
    Passes scan [b] scan' :=
  .step h (.refl scan')

theorem Passes.trans {scan scan' scan'' : Scan} {bytes bytes' : List UInt8}
    (h : Passes scan bytes scan') (h' : Passes scan' bytes' scan'') :
    Passes scan (bytes ++ bytes') scan'' := by
  induction h with
  | refl => exact h'
  | step hbyte hrest ih => exact .step hbyte (ih h')

theorem readFrom_cons (start here : Position) (scan : Scan) (b : UInt8) (rest : List UInt8) :
    readFrom start here scan (b :: rest) =
      match readByte b scan with
      | (scan', none) => readFrom start (here.after b) scan' rest
      | (scan', some fields) =>
        ⟨start, fields⟩ :: readFrom (here.after b) (here.after b) scan' rest := by
  cases scan with
  | between => rfl
  | inside mode field fields => rfl

theorem Passes.readFrom_append {scan scan' : Scan} {bytes : List UInt8}
    (h : Passes scan bytes scan') (start here : Position) (rest : List UInt8) :
    readFrom start here scan (bytes ++ rest) =
      readFrom start (bytes.foldl Position.after here) scan' rest := by
  induction h generalizing here with
  | refl => rfl
  | step hbyte hrest ih =>
      rw [List.cons_append, readFrom_cons, hbyte]
      exact ih _

/-- The first byte of a record opens its first field, unless it ends a line. -/
theorem Passes.between {bytes : List UInt8} {scan : Scan}
    (h : Passes (.inside .start [] []) bytes scan) (hne : bytes ≠ [])
    (hhead : ∀ b rest, bytes = b :: rest → isLineEnd b = false) : Passes .between bytes scan := by
  cases h with
  | refl => exact absurd rfl hne
  | step hbyte hrest =>
      refine .step ?_ hrest
      rw [readByte, hhead _ _ rfl, if_neg Bool.false_ne_true]
      exact hbyte

/-! ## Fields -/

theorem readInside_of_ne_quote {mode : FieldMode} (hmode : mode ≠ .quoted) {b : UInt8}
    (hb : b ≠ quote) (field : Field) (fields : List Field) :
    readInside b mode field fields = readPlain b field fields := by
  cases mode with
  | start => rw [readInside, if_neg hb]
  | plain => rw [readInside]
  | quoted => exact absurd rfl hmode
  | closing => rw [readInside, if_neg hb]

theorem ne_of_needsQuotes_eq_false {b : UInt8} (h : needsQuotes b = false) :
    b ≠ delimiter ∧ b ≠ quote ∧ isLineEnd b = false := by
  rw [needsQuotes, Bool.or_eq_false_iff, Bool.or_eq_false_iff, beq_eq_false_iff_ne,
    beq_eq_false_iff_ne] at h
  exact ⟨h.1.1, h.1.2, h.2⟩

theorem readPlain_of_needsQuotes_eq_false {b : UInt8} (h : needsQuotes b = false) (field : Field)
    (fields : List Field) :
    readPlain b field fields = (.inside .plain (b :: field) fields, none) := by
  obtain ⟨hdelimiter, -, hline⟩ := ne_of_needsQuotes_eq_false h
  rw [readPlain, if_neg hdelimiter, hline, if_neg Bool.false_ne_true]

/-- A field without special bytes is read as it stands. -/
theorem exists_passes_plain {field : Field} (h : ∀ b ∈ field, needsQuotes b = false)
    {mode : FieldMode} (hmode : mode ≠ .quoted) (before : Field) (fields : List Field) :
    ∃ mode', mode' ≠ .quoted ∧
      Passes (.inside mode before fields) field (.inside mode' (field.reverse ++ before) fields) := by
  induction field generalizing mode before with
  | nil => exact ⟨mode, hmode, .refl _⟩
  | cons b rest ih =>
      obtain ⟨hb, hrest⟩ := List.forall_mem_cons.1 h
      obtain ⟨mode', hmode', hpasses⟩ :=
        ih hrest (show FieldMode.plain ≠ .quoted by decide) (b :: before)
      refine ⟨mode', hmode', ?_⟩
      rw [List.reverse_cons, List.append_assoc]
      refine .step ?_ hpasses
      rw [readByte, readInside_of_ne_quote hmode (ne_of_needsQuotes_eq_false hb).2.1,
        readPlain_of_needsQuotes_eq_false hb]

/-- Between quotes every byte is content, and two quotes are one. -/
theorem passes_quoted (field before : Field) (fields : List Field) :
    Passes (.inside .quoted before fields)
      (field.flatMap fun b => if b = quote then [quote, quote] else [b])
      (.inside .quoted (field.reverse ++ before) fields) := by
  induction field generalizing before with
  | nil => exact .refl _
  | cons b rest ih =>
      rw [List.flatMap_cons, List.reverse_cons, List.append_assoc]
      refine Passes.trans ?_ (ih (b :: before))
      by_cases hb : b = quote
      -- the first quote seems to close the field, and the second takes that back
      · rw [if_pos hb, hb]
        exact .step rfl (.byte rfl)
      · rw [if_neg hb]
        refine .byte ?_
        rw [readByte, readInside, if_neg hb]

/-- **A field is read back from its bytes**, and what comes next is not taken as quoted. -/
theorem exists_passes_writeField (field : Field) (fields : List Field) :
    ∃ mode, mode ≠ .quoted ∧
      Passes (.inside .start [] fields) (writeField field) (.inside mode field.reverse fields) := by
  unfold writeField
  rw [openField, closingQuote]
  cases hquotes : field.any needsQuotes with
  | false =>
      have hplain : ∀ b ∈ field, needsQuotes b = false := by
        simpa using hquotes
      obtain ⟨mode, hmode, hpasses⟩ :=
        exists_passes_plain hplain (show FieldMode.start ≠ .quoted by decide) [] fields
      refine ⟨mode, hmode, ?_⟩
      simpa using hpasses
  | true =>
      refine ⟨.closing, by decide, .step rfl ?_⟩
      have hpasses := passes_quoted field [] fields
      rw [List.append_nil] at hpasses
      exact hpasses.trans (.byte rfl)

/-! ## Records -/

theorem readPlain_delimiter (field : Field) (fields : List Field) :
    readPlain delimiter field fields = (.inside .start [] (field.reverse :: fields), none) := rfl

theorem writeFields_cons_cons (field next : Field) (rest : List Field) :
    writeFields (field :: next :: rest) =
      writeField field ++ delimiter :: writeFields (next :: rest) := rfl

theorem readPlain_lineFeed (field : Field) (fields : List Field) :
    readPlain lineFeed field fields = (.between, some (closeFields field fields)) := rfl

/-- The fields of a record are read from its bytes, the last one up to the end of the line. -/
theorem exists_passes_writeFields {fields : List Field} (hne : fields ≠ []) (before : List Field) :
    ∃ mode field prior, mode ≠ FieldMode.quoted ∧
      Passes (.inside .start [] before) (writeFields fields) (.inside mode field prior) ∧
      closeFields field prior = before.reverse ++ fields := by
  induction fields generalizing before with
  | nil => exact absurd rfl hne
  | cons field rest ih =>
      obtain ⟨mode, hmode, hpasses⟩ := exists_passes_writeField field before
      cases rest with
      | nil =>
          refine ⟨mode, field.reverse, before, hmode, hpasses, ?_⟩
          unfold closeFields
          rw [List.reverse_reverse, List.reverse_cons]
      | cons next rest =>
          obtain ⟨mode', last, prior, hmode', hpasses', hclose⟩ :=
            ih (List.cons_ne_nil _ _) (field :: before)
          refine ⟨mode', last, prior, hmode', ?_, ?_⟩
          -- the delimiter closes the field, whether that was quoted or not
          · refine hpasses.trans (.step ?_ hpasses')
            rw [readByte, readInside_of_ne_quote hmode (by decide), readPlain_delimiter,
              List.reverse_reverse]
          · rw [hclose, List.reverse_cons, List.append_assoc, List.singleton_append]

theorem writeField_head {field : Field} {b : UInt8} {rest : List UInt8}
    (h : writeField field = b :: rest) : isLineEnd b = false := by
  unfold writeField at h
  rw [openField, closingQuote] at h
  cases hquotes : field.any needsQuotes with
  | false =>
      simp only [hquotes, Bool.false_eq_true, if_false, List.append_nil] at h
      rw [h, List.any_cons, Bool.or_eq_false_iff] at hquotes
      exact (ne_of_needsQuotes_eq_false hquotes.1).2.2
  | true =>
      simp only [hquotes, if_true, List.cons_append, List.cons.injEq] at h
      rw [← h.1]
      rfl

/-- No record begins with the end of a line. -/
theorem writeFields_head {fields : List Field} {b : UInt8} {rest : List UInt8}
    (h : writeFields fields = b :: rest) : isLineEnd b = false := by
  cases fields with
  | nil => cases h
  | cons field fields =>
      cases fields with
      | nil => exact writeField_head h
      | cons next fields =>
          cases hfield : writeField field with
          -- an empty field in front leaves the delimiter as the first byte
          | nil =>
              rw [writeFields_cons_cons, hfield, List.nil_append, List.cons.injEq] at h
              rw [← h.1]
              rfl
          | cons b' rest' =>
              rw [writeFields_cons_cons, hfield, List.cons_append, List.cons.injEq] at h
              exact h.1 ▸ writeField_head hfield

/-- Only a single empty field takes no bytes. -/
theorem eq_of_writeFields_eq_nil {fields : List Field} (hne : fields ≠ [])
    (h : writeFields fields = []) : fields = [[]] := by
  cases fields with
  | nil => exact absurd rfl hne
  | cons field rest =>
      cases rest with
      | nil =>
          change writeField field = [] at h
          unfold writeField at h
          rw [openField] at h
          cases hquotes : field.any needsQuotes with
          | false =>
              simp only [hquotes, Bool.false_eq_true, if_false, List.append_eq_nil_iff] at h
              rw [h.1]
          | true => simp [hquotes] at h
      | cons next rest =>
          rw [writeFields_cons_cons] at h
          exact absurd h (List.append_ne_nil_of_right_ne_nil _ (List.cons_ne_nil _ _))

/-- **A record is read back from its line.** -/
theorem readFrom_writeRecord {fields : List Field} (hne : fields ≠ []) (start here : Position)
    (rest : List UInt8) : ∃ here',
      readFrom start here .between (writeRecord fields ++ rest) =
        ⟨start, fields⟩ :: readFrom here' here' .between rest := by
  -- an empty body is that of one empty field, for which two quotes are written
  obtain ⟨mode, field, prior, hmode, hpasses, hclose⟩ : ∃ mode field prior,
      mode ≠ FieldMode.quoted ∧
      Passes .between (if (writeFields fields).isEmpty then [quote, quote] else writeFields fields)
        (.inside mode field prior) ∧
      closeFields field prior = fields := by
    cases hbody : writeFields fields with
    | nil =>
        refine ⟨.closing, [], [], by decide, .step rfl (.byte rfl), ?_⟩
        rw [eq_of_writeFields_eq_nil hne hbody]
        rfl
    | cons b bytes =>
        obtain ⟨mode, field, prior, hmode, hpasses, hclose⟩ := exists_passes_writeFields hne []
        refine ⟨mode, field, prior, hmode, ?_, hclose⟩
        rw [hbody] at hpasses
        refine hpasses.between (List.cons_ne_nil _ _) ?_
        intro b' bytes' heq
        exact writeFields_head (hbody.trans heq)
  unfold writeRecord
  rw [List.append_assoc, hpasses.readFrom_append, List.singleton_append,
    readFrom_cons, readByte, readInside_of_ne_quote hmode (by decide), readPlain_lineFeed, hclose]
  exact ⟨_, rfl⟩

/-! ## Files -/

theorem fields_readFrom {width : Nat} (hwidth : 0 < width) {records : List (List Field)}
    (h : ∀ fields ∈ records, fields.length = width) (start here : Position) :
    (readFrom start here .between (writeRecordsOfWidth width records).1).map Record.fields =
      records := by
  induction records generalizing start here with
  | nil => rfl
  | cons fields rest ih =>
      obtain ⟨hfields, hrest⟩ := List.forall_mem_cons.1 h
      have hne : fields ≠ [] := List.ne_nil_of_length_pos (hfields ▸ hwidth)
      obtain ⟨here', hread⟩ :=
        readFrom_writeRecord hne start here (writeRecordsOfWidth width rest).1
      unfold writeRecordsOfWidth
      rw [if_pos hfields]
      change (readFrom start here .between
        (writeRecord fields ++ (writeRecordsOfWidth width rest).1)).map Record.fields = _
      rw [hread, List.map_cons, ih hrest]

/-- The records of a file have the width that the first one sets. -/
theorem writeRecords_eq {width : Nat} {records : List (List Field)}
    (h : ∀ fields ∈ records, fields.length = width) :
    writeRecords records = writeRecordsOfWidth width records := by
  cases records with
  | nil => rfl
  | cons fields rest => rw [writeRecords, List.head?_cons, Option.elim_some,
      h fields List.mem_cons_self]

/-- **A file is read back record by record**, if it does not begin with a byte order mark. -/
theorem fields_readRecords {width : Nat} (hwidth : 0 < width) {records : List (List Field)}
    (h : ∀ fields ∈ records, fields.length = width)
    (hmark : ¬ byteOrderMark <+: (writeRecords records).1) :
    (readRecords (writeRecords records).1).map Record.fields = records := by
  rw [← List.isPrefixOf_iff_prefix] at hmark
  unfold readRecords
  rw [if_neg hmark, writeRecords_eq h]
  exact fields_readFrom hwidth h _ _

/-! ## Files that begin with a byte order mark -/

/-- What follows the first field of a record does not depend on that field. -/
theorem exists_writeFields_cons (rest : List Field) : ∃ after : List UInt8,
    (∀ field, writeFields (field :: rest) = writeField field ++ after) ∧
      ∃ b bytes, after ++ [lineFeed] = b :: bytes ∧ (b = delimiter ∨ b = lineFeed) := by
  cases rest with
  | nil => exact ⟨[], fun field => (List.append_nil _).symm, lineFeed, [], rfl, .inr rfl⟩
  | cons next rest =>
      exact ⟨delimiter :: writeFields (next :: rest), fun _ => rfl, delimiter, _, rfl, .inl rfl⟩

theorem writeField_of_any_eq_false {field : Field} (h : field.any needsQuotes = false) :
    writeField field = field := by
  unfold writeField
  simp [openField, closingQuote, h]

theorem writeRecord_of_eq_nil {fields : List Field} (h : writeFields fields = []) :
    writeRecord fields = [quote, quote, lineFeed] := by
  simp [writeRecord, h]

theorem writeRecord_of_ne_nil {fields : List Field} (h : writeFields fields ≠ []) :
    writeRecord fields = writeFields fields ++ [lineFeed] := by
  simp [writeRecord, h]

/-- The three bytes of a mark do not run into what follows a field. -/
theorem exists_of_mark_prefix_append {field : Field} {b : UInt8} {bytes : List UInt8}
    (hb : b = delimiter ∨ b = lineFeed) (h : byteOrderMark <+: field ++ b :: bytes) :
    ∃ tail, field = byteOrderMark ++ tail := by
  have hne : ∀ c ∈ byteOrderMark, c ≠ b := by
    rcases hb with rfl | rfl
    · simp [byteOrderMark, delimiter]
    · simp [byteOrderMark, lineFeed]
  rcases List.prefix_or_prefix_of_prefix h (List.prefix_append field _) with hmark | hfield
  · obtain ⟨tail, rfl⟩ := hmark
    exact ⟨tail, rfl⟩
  · obtain ⟨rest, hrest⟩ := hfield
    cases rest with
    | nil => exact ⟨[], by simp [← hrest]⟩
    | cons c rest =>
        rw [← hrest, List.prefix_append_right_inj] at h
        have hc : c ∈ byteOrderMark := hrest ▸ List.mem_append_right _ List.mem_cons_self
        exact absurd (List.cons_prefix_cons.1 h).1 (hne c hc)

/-- A mark at the start of a record is the start of its first field, which then stands there
without quotes. -/
theorem exists_of_mark_prefix {field : Field} {fields : List Field} {bytes : List UInt8}
    (h : byteOrderMark <+: writeRecord (field :: fields) ++ bytes) :
    ∃ tail, field = byteOrderMark ++ tail ∧
      writeRecord (field :: fields) =
        byteOrderMark ++ (writeFields (tail :: fields) ++ [lineFeed]) := by
  obtain ⟨after, hafter, b, more, hline, hb⟩ := exists_writeFields_cons fields
  have hhead : ∀ rest, ¬ byteOrderMark <+: quote :: rest :=
    fun rest hprefix => absurd (List.cons_prefix_cons.1 hprefix).1 (by decide)
  by_cases hempty : writeFields (field :: fields) = []
  · rw [writeRecord_of_eq_nil hempty] at h
    exact absurd h (hhead _)
  · rw [writeRecord_of_ne_nil hempty] at h ⊢
    cases hquotes : field.any needsQuotes with
    | true =>
        -- a quoted field begins with its quote
        rw [hafter, writeField, openField, if_pos hquotes] at h
        exact absurd h (hhead _)
    | false =>
        rw [hafter, writeField_of_any_eq_false hquotes, List.append_assoc field, hline,
          List.append_assoc, List.cons_append] at h
        obtain ⟨tail, rfl⟩ := exists_of_mark_prefix_append hb h
        rw [List.any_append, Bool.or_eq_false_iff] at hquotes
        refine ⟨tail, rfl, ?_⟩
        have hfield : (byteOrderMark ++ tail).any needsQuotes = false := by
          rw [List.any_append, hquotes.1, hquotes.2, Bool.or_false]
        rw [hafter, hafter, writeField_of_any_eq_false hquotes.2,
          writeField_of_any_eq_false hfield, List.append_assoc, List.append_assoc, List.append_assoc]

/-- A first field that is the mark stands at the start of the file as it is. -/
theorem mark_prefix_writeRecords (fields : List Field) (records : List (List Field)) :
    byteOrderMark <+: (writeRecords ((byteOrderMark :: fields) :: records)).1 := by
  obtain ⟨after, hafter, -⟩ := exists_writeFields_cons fields
  have hfields : writeFields (byteOrderMark :: fields) = byteOrderMark ++ after := by
    rw [hafter, writeField_of_any_eq_false (by decide)]
  have hne : writeFields (byteOrderMark :: fields) ≠ [] := by
    rw [hfields]
    exact List.append_ne_nil_of_left_ne_nil (List.cons_ne_nil _ _) after
  rw [writeRecords, List.head?_cons, Option.elim_some, writeRecordsOfWidth, if_pos rfl]
  simp only [writeRecord_of_ne_nil hne, hfields, List.append_assoc]
  exact List.prefix_append _ _

/-- **A mark at the start of a file is lost**: the first field comes back without it, or its record
does not come back when it holds nothing else. -/
theorem fields_readRecords_of_mark {width : Nat} (hwidth : 0 < width) {field : Field}
    {fields : List Field} {records : List (List Field)}
    (h : ∀ record ∈ (field :: fields) :: records, record.length = width)
    (hmark : byteOrderMark <+: (writeRecords ((field :: fields) :: records)).1) :
    ∃ tail, field = byteOrderMark ++ tail ∧
      (readRecords (writeRecords ((field :: fields) :: records)).1).map Record.fields =
        if tail = [] ∧ fields = [] then records else (tail :: fields) :: records := by
  obtain ⟨hfields, hrecords⟩ := List.forall_mem_cons.1 h
  have hwritten : (writeRecords ((field :: fields) :: records)).1 =
      writeRecord (field :: fields) ++ (writeRecordsOfWidth width records).1 := by
    rw [writeRecords_eq h, writeRecordsOfWidth, if_pos hfields]
  rw [hwritten] at hmark
  obtain ⟨tail, hfield, hrecord⟩ := exists_of_mark_prefix hmark
  refine ⟨tail, hfield, ?_⟩
  have hread : readRecords (writeRecords ((field :: fields) :: records)).1 =
      readFrom ⟨1, 0⟩ ⟨1, 3⟩ .between
        (writeFields (tail :: fields) ++ [lineFeed] ++ (writeRecordsOfWidth width records).1) := by
    unfold readRecords
    rw [hwritten, if_pos (List.isPrefixOf_iff_prefix.2 hmark), hrecord, List.append_assoc,
      List.drop_left]
    rfl
  by_cases hempty : writeFields (tail :: fields) = []
  · obtain ⟨htail, hrest⟩ := List.cons.inj (eq_of_writeFields_eq_nil (List.cons_ne_nil _ _) hempty)
    rw [if_pos ⟨htail, hrest⟩, hread, hempty]
    exact fields_readFrom hwidth hrecords _ _
  · have hne : ¬ (tail = [] ∧ fields = []) := by
      rintro ⟨rfl, rfl⟩
      exact hempty rfl
    rw [if_neg hne, hread, ← writeRecord_of_ne_nil hempty]
    obtain ⟨here', hrest⟩ := readFrom_writeRecord (List.cons_ne_nil tail fields) ⟨1, 0⟩ ⟨1, 3⟩
      (writeRecordsOfWidth width records).1
    rw [hrest, List.map_cons, fields_readFrom hwidth hrecords]

end FlatTables.Delimited
