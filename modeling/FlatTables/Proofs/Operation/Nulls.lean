import FlatTables.Proofs.Operation.Stored

set_option autoImplicit false

/-! # Rows and nulls in a data file

Rows that were written are read again, as many as there were. The nulls among the cells are then
those that were written, and the empty texts. One file is an exception (`nullsKept_iff`): when its
first cell is the text of a byte order mark and nothing else, this is taken for a mark of the file.
It comes back as a null, or not at all with its row, if there is no other cell in it. -/

namespace FlatTables

/-- A cell comes back as a null if it is one, or an empty text. -/
theorem Cell.readBack_eq_null_iff {cell : Cell} :
    cell.readBack = .null ↔ cell = .null ∨ cell = .text "" := by
  cases cell with
  | null => exact iff_of_true rfl (.inl rfl)
  | integer i => exact iff_of_false nofun (not_or.2 ⟨nofun, nofun⟩)
  | float x => exact iff_of_false nofun (not_or.2 ⟨nofun, nofun⟩)
  | text s =>
      change (if s = "" then Cell.null else .text s) = .null ↔ _
      by_cases hempty : s = ""
      · rw [if_pos hempty, hempty]
        exact iff_of_true rfl (.inr rfl)
      · rw [if_neg hempty]
        exact iff_of_false nofun (not_or.2 ⟨nofun, fun h => hempty (Cell.text.inj h)⟩)

namespace DataFile

/-- Whether there are as many rows and cells in `rows'` as in `rows`, with a null for every null and
every empty text, and nowhere else. -/
def NullsKept (rows rows' : List Row) : Prop :=
  List.Forall₂ (List.Forall₂ fun cell cell' => cell' = .null ↔ cell = .null ∨ cell = .text "")
    rows rows'

theorem nullsKept_map_readBack (rows : List Row) : NullsKept rows (rows.map Row.readBack) := by
  refine List.forall₂_map_right_iff.2 (List.forall₂_same.2 fun row _ => ?_)
  exact List.forall₂_map_right_iff.2 (List.forall₂_same.2 fun cell _ => Cell.readBack_eq_null_iff)

/-- A first cell that is no null and no empty text is kept as what comes back of some other text. -/
theorem nullsKept_cons_iff {s s' : String} {cells : Row} {rest : List Row} (hs : s ≠ "") :
    NullsKept ((.text s :: cells) :: rest) (((.text s' :: cells) :: rest).map Row.readBack) ↔
      s' ≠ "" := by
  have hcell : ¬ (Cell.text s = .null ∨ Cell.text s = .text "") :=
    not_or.2 ⟨nofun, fun h => hs (Cell.text.inj h)⟩
  have hback : (Cell.text s').readBack = .null ↔ s' = "" :=
    Cell.readBack_eq_null_iff.trans ⟨fun h => Cell.text.inj (h.resolve_left nofun),
      fun h => .inr (congrArg Cell.text h)⟩
  obtain ⟨hcells, hrest⟩ := List.forall₂_cons.1 (nullsKept_map_readBack (cells :: rest))
  constructor
  · intro h hempty
    have hrow := (List.forall₂_cons.1 h).1
    exact hcell ((List.forall₂_cons.1 hrow).1.1 (hback.2 hempty))
  · intro hne
    exact .cons (.cons (iff_of_false (mt hback.1 hne) hcell) hcells) hrest

variable {path : Path} {schema : Schema} {rows : List Row} {w w' : World}

/-- **Which data files keep every row and invent no null**: all but those whose first cell is the text
of a byte order mark alone. Whatever was written is read again. -/
theorem nullsKept_iff (hwidth : 0 < schema.width)
    (hfits : ∀ row ∈ rows, Row.Fits schema.types row)
    (hwrite : (writeRows path rows).run w = (.ok (), w')) :
    ∃ rows', ((readRows path schema).run w').1 = .ok rows' ∧
      (NullsKept rows rows' ↔ ∀ cells rest, rows ≠ (.text "\ufeff" :: cells) :: rest) := by
  rw [Operation.fst_run_readRows, read, read_of_run_writeRows hwrite]
  by_cases hmark : Delimited.byteOrderMark <+: (render rows).1
  · obtain ⟨s, cells, rest, rfl, hparse⟩ := parse_render_of_mark path hwidth hfits hmark
    refine ⟨_, hparse, ?_⟩
    have hfirst : (∀ cells' rest', (Cell.text ("\ufeff" ++ s) :: cells) :: rest ≠
        (.text "\ufeff" :: cells') :: rest') ↔ s ≠ "" := by
      constructor
      · rintro h rfl
        exact h cells rest rfl
      · intro hs cells' rest' h
        have htext := Cell.text.inj (List.cons.inj (List.cons.inj h).1).1
        exact hs (by simpa using congrArg String.toList htext)
    rw [hfirst]
    split
    -- the row of the mark is gone
    · next hlost =>
        refine iff_of_false (fun h => ?_) (not_not.2 hlost.1)
        have hlength := List.Forall₂.length_eq h
        rw [List.length_map, List.length_cons] at hlength
        omega
    · exact nullsKept_cons_iff fun h => by simpa using congrArg String.length h
  · refine ⟨_, parse_render_eq path hwidth hfits hmark, iff_of_true (nullsKept_map_readBack rows) ?_⟩
    rintro cells rest rfl
    exact hmark (Delimited.mark_prefix_writeRecords _ _)

/-- A single column of texts. -/
def remarkColumns : Schema := ⟨[⟨"remark", .text⟩], by decide⟩

/-- Lines that are nearly empty are read again, also one that holds a byte order mark. -/
theorem nullsKept_remarks : ∃ w' rows',
    (writeRows ⟨"remarks.csv"⟩ [[.text ""], [.null], [.text "\ufeff"], [.text " "]]).run
        (World.ofFiles ⟨[], [], []⟩) = (.ok (), w') ∧
      ((readRows ⟨"remarks.csv"⟩ remarkColumns).run w').1 = .ok rows' ∧
      NullsKept [[.text ""], [.null], [.text "\ufeff"], [.text " "]] rows' := by
  have hfits : ∀ row ∈ [[.text ""], [.null], [.text "\ufeff"], [.text " "]],
      Row.Fits remarkColumns.types row := by
    simp only [List.forall_mem_cons]
    exact ⟨.cons (.inr rfl) .nil, .cons (.inl rfl) .nil, .cons (.inr rfl) .nil,
      .cons (.inr rfl) .nil, nofun⟩
  have hwrite := Action.run_eq_of_fst
    (x := writeRows ⟨"remarks.csv"⟩ [[.text ""], [.null], [.text "\ufeff"], [.text " "]])
    (w := World.ofFiles ⟨[], [], []⟩) (r := .ok ()) (by decide +kernel)
  obtain ⟨rows', hread, hkept⟩ := nullsKept_iff (by decide) hfits hwrite
  exact ⟨_, rows', hwrite, hread, hkept.2 (by simp)⟩

/-- A mark alone in the first line takes its row with it. -/
theorem not_nullsKept_remark : ∃ w',
    (∀ row ∈ [[.text "\ufeff"]], Row.Fits remarkColumns.types row) ∧
      (writeRows ⟨"remarks.csv"⟩ [[.text "\ufeff"]]).run (World.ofFiles ⟨[], [], []⟩) =
        (.ok (), w') ∧
      ((readRows ⟨"remarks.csv"⟩ remarkColumns).run w').1 = .ok [] ∧
      ¬ NullsKept [[.text "\ufeff"]] [] :=
  ⟨_, List.forall_mem_singleton.2 (.cons (.inr rfl) .nil),
    Action.run_eq_of_fst (by decide +kernel), by decide +kernel, nofun⟩

end DataFile

end FlatTables
