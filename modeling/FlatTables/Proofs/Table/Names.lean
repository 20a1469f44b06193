import FlatTables.Proofs.Table.Fitting
import Mathlib.Data.List.Nodup

set_option autoImplicit false

/-! # Names of columns

A list of columns is a schema exactly when its names are pairwise different. Names without a point
keep this property under a qualifier, and a qualifier makes no difference to what is left of a name
when qualifiers are taken off (`unqualify_qualify`). -/

namespace FlatTables

/-! ## Different names -/

theorem firstRepeated?_eq_none_of_nodup {seen names : List String} (hnames : names.Nodup)
    (hseen : ∀ name ∈ names, name ∉ seen) : firstRepeated? seen names = none := by
  induction names generalizing seen with
  | nil => rfl
  | cons name rest ih =>
      obtain ⟨hname, hrest⟩ := List.nodup_cons.1 hnames
      unfold firstRepeated?
      rw [if_neg (hseen name List.mem_cons_self)]
      refine ih hrest ?_
      intro other hother hmem
      rcases List.mem_cons.1 hmem with rfl | hmem
      · exact hname hother
      · exact hseen other (List.mem_cons_of_mem _ hother) hmem

theorem Schema.exists_ofColumns_eq_ok {columns : List Column}
    (h : (columnNames columns).Nodup) : ∃ s, Schema.ofColumns columns = .ok s := by
  have hnone := firstRepeated?_eq_none_of_nodup h fun _ _ => List.not_mem_nil
  unfold Schema.ofColumns
  split
  · exact ⟨_, rfl⟩
  · next hsome => rw [hnone] at hsome; cases hsome

theorem Schema.eq_of_columns_eq {s s' : Schema} (h : s.columns = s'.columns) : s = s' := by
  cases s
  cases s'
  cases h
  rfl

theorem Schema.ofColumns_columns (s : Schema) : Schema.ofColumns s.columns = .ok s := by
  obtain ⟨s', h⟩ := exists_ofColumns_eq_ok s.nodup
  rw [h, eq_of_columns_eq (columns_of_ofColumns h)]

theorem Schema.ofColumns_eq_ok_iff {columns : List Column} {s : Schema} :
    Schema.ofColumns columns = .ok s ↔ s.columns = columns := by
  refine ⟨columns_of_ofColumns, ?_⟩
  rintro rfl
  exact s.ofColumns_columns

theorem Schema.exists_ofColumns_iff {columns : List Column} :
    (∃ s, Schema.ofColumns columns = .ok s) ↔ (columnNames columns).Nodup := by
  refine ⟨?_, exists_ofColumns_eq_ok⟩
  rintro ⟨s, h⟩
  rw [← columns_of_ofColumns h]
  exact s.nodup

theorem columnNames_rename (f : String → String) (columns : List Column) :
    columnNames (columns.map fun column => { column with name := f column.name }) =
      (columnNames columns).map f := by
  simp only [columnNames, List.map_map, Function.comp_def]

/-! ## Qualified names -/

theorem qualify_of_dotless {column : String} (h : '.' ∉ column.toList) (table : String) :
    qualify table column = table ++ "." ++ column := by
  unfold qualify
  rw [if_neg]
  rwa [List.contains_iff_mem]

/-- Names without a point stay different when they are qualified. -/
theorem nodup_map_qualify {names : List String} (hnames : names.Nodup)
    (hdots : ∀ name ∈ names, '.' ∉ name.toList) (table : String) :
    (names.map (qualify table)).Nodup := by
  refine List.Nodup.map_on (fun a ha b hb hab => ?_) hnames
  rw [qualify_of_dotless (hdots a ha), qualify_of_dotless (hdots b hb), String.append_right_inj]
    at hab
  exact hab

/-! ## Names with and without qualifiers -/

theorem dot_mem_qualify (table column : String) : '.' ∈ (qualify table column).toList := by
  rw [← List.contains_iff_mem]
  unfold qualify
  split
  · assumption
  · simp

/-- A name with a point is qualified, and stays as it is. -/
theorem qualify_of_dot_mem {column : String} (h : '.' ∈ column.toList) (table : String) :
    qualify table column = column := by
  rw [qualify, if_pos (List.contains_iff_mem.2 h)]

theorem qualify_qualify (table table' column : String) :
    qualify table (qualify table' column) = qualify table' column :=
  qualify_of_dot_mem (dot_mem_qualify table' column) table

theorem takeWhile_dotless {cs : List Char} (h : '.' ∉ cs) (rest : List Char) :
    (cs ++ rest).takeWhile (· != '.') = cs ++ rest.takeWhile (· != '.') := by
  refine List.takeWhile_append_of_pos fun c hc => ?_
  rw [bne_iff_ne]
  rintro rfl
  exact h hc

/-- Without a qualifier there is nothing to take off. -/
theorem unqualify_of_dotless {column : String} (h : '.' ∉ column.toList) :
    unqualify column = column := by
  have hall := takeWhile_dotless (mt List.mem_reverse.1 h) []
  rw [List.append_nil, List.takeWhile_nil, List.append_nil] at hall
  rw [unqualify, hall, List.reverse_reverse, String.ofList_toList]

theorem unqualify_append_dot {column : String} (h : '.' ∉ column.toList) (table : String) :
    unqualify (table ++ "." ++ column) = column := by
  have hlist : (table ++ "." ++ column).toList.reverse =
      column.toList.reverse ++ '.' :: table.toList.reverse := by
    simp
  rw [unqualify, hlist, takeWhile_dotless (mt List.mem_reverse.1 h),
    List.takeWhile_cons_of_neg (by decide), List.append_nil, List.reverse_reverse,
    String.ofList_toList]

/-- **A qualifier that is put on is taken off again.** -/
theorem unqualify_qualify (table column : String) :
    unqualify (qualify table column) = unqualify column := by
  by_cases h : '.' ∈ column.toList
  · rw [qualify_of_dot_mem h]
  · rw [qualify_of_dotless h, unqualify_append_dot h, unqualify_of_dotless h]

theorem append_dot_ne {table table' : String} {c c' : Char} (hc : table.toList.head? = some c)
    (hc' : table'.toList.head? = some c') (hne : c ≠ c') (name name' : String) :
    table ++ "." ++ name ≠ table' ++ "." ++ name' := by
  intro h
  have hheads := congrArg (fun s => s.toList.head?) h
  simp only [String.toList_append, List.head?_append, hc, hc', Option.some_or,
    Option.some.injEq] at hheads
  exact hne hheads

/-- Whether no column has a point in its name. -/
def Schema.Dotless (s : Schema) : Prop := ∀ name ∈ s.names, '.' ∉ name.toList

instance (s : Schema) : Decidable s.Dotless :=
  inferInstanceAs (Decidable (∀ name ∈ s.names, '.' ∉ name.toList))

end FlatTables
