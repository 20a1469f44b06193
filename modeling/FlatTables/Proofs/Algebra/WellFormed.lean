import FlatTables.Proofs.Table.WellFormed

set_option autoImplicit false

/-! # The algebra on well-formed tables

Every operator makes a well-formed table out of well-formed operands; a union needs operands whose
types agree. None of them meets a short row. The outer joins need no argument of their own: they
are put together from the other operators, and their union takes operands of agreeing types. -/

namespace FlatTables.Table

variable {t other t' : Table}

/-! ## Selection -/

theorem selectRows_sublist {schema : Schema} {condition : Expression} {rows rows' : List Row}
    (h : selectRows schema condition rows = .ok rows') : rows'.Sublist rows := by
  induction rows generalizing rows' with
  | nil =>
      cases h
      exact .slnil
  | cons row rest ih =>
      obtain ⟨value, -, h⟩ := bind_eq_ok_iff.1 h
      obtain ⟨rest', hrest', h⟩ := bind_eq_ok_iff.1 h
      cases h
      by_cases hvalue : value.isTruthy = true
      · rw [if_pos hvalue]
        exact (ih hrest').cons_cons row
      · rw [if_neg hvalue]
        exact (ih hrest').cons row

theorem WellFormed.select (ht : t.WellFormed) {condition : Expression}
    (h : t.select condition = .ok t') : t'.WellFormed := by
  obtain ⟨rows, hrows, h⟩ := bind_eq_ok_iff.1 h
  cases h
  exact wellFormed_of_rows_fit fun r hr =>
    ht.rows_fit r ((selectRows_sublist (mapError_eq_ok_iff.1 hrows)).mem hr)

theorem neverShort_select (t : Table) (condition : Expression) :
    NeverShort (t.select condition) :=
  .bind (.mapError fun _ _ h => nomatch h) fun _ _ => .ok _

/-! ## Projection -/

/-- A row that fits has a cell for every column that is picked. -/
theorem pickCells_of_fits (keep : String → Bool) {columns : List Column} {row : Row}
    (h : Row.Fits (columns.map (·.type)) row) :
    ∃ row', pickCells keep columns row = .ok row' ∧
      Row.Fits ((columns.filter fun column => keep column.name).map (·.type)) row' := by
  induction columns generalizing row with
  | nil =>
      cases h
      exact ⟨[], rfl, .nil⟩
  | cons column columns ih =>
      obtain ⟨cell, cells, hcell, hcells, rfl⟩ := List.forall₂_cons_left_iff.1 h
      obtain ⟨cells', hpick, hfits⟩ := ih hcells
      by_cases hkeep : keep column.name = true
      · refine ⟨cell :: cells', ?_, ?_⟩
        · unfold pickCells
          rw [if_pos hkeep, hpick]
          rfl
        · rw [List.filter_cons, if_pos hkeep]
          exact .cons hcell hfits
      · refine ⟨cells', ?_, ?_⟩
        · unfold pickCells
          rw [if_neg hkeep, hpick]
        · rw [List.filter_cons, if_neg hkeep]
          exact hfits

theorem pickRows_of_fits (keep : String → Bool) {schema : Schema} {rows : List Row}
    (h : ∀ row ∈ rows, Row.Fits schema.types row) :
    ∃ rows', pickRows keep schema.columns rows = .ok rows' ∧
      ∀ row ∈ rows', Row.Fits (schema.restrict keep).types row := by
  induction rows with
  | nil => exact ⟨[], rfl, fun row hrow => absurd hrow List.not_mem_nil⟩
  | cons row rest ih =>
      obtain ⟨row', hpick, hfits⟩ := pickCells_of_fits keep (h row List.mem_cons_self)
      obtain ⟨rest', hrest, hrests⟩ := ih fun r hr => h r (List.mem_cons_of_mem _ hr)
      refine ⟨row' :: rest', ?_, ?_⟩
      · unfold pickRows
        rw [hpick, hrest]
        rfl
      · intro r hr
        rcases List.mem_cons.1 hr with rfl | hr
        · exact hfits
        · exact hrests r hr

/-- A projection of a well-formed table fails only at a name that is no column. -/
theorem WellFormed.exists_project_eq (ht : t.WellFormed) {names : List String}
    (hnames : ∀ name ∈ names, name ∈ t.schema.names) :
    ∃ t', t.project names = .ok t' ∧ t'.WellFormed := by
  have hfind : (names.find? fun name => !t.schema.names.contains name) = none := by
    rw [List.find?_eq_none]
    intro name hname
    simpa using hnames name hname
  obtain ⟨rows, hrows, hfits⟩ :=
    pickRows_of_fits (fun name => names.contains name) ht.rows_fit
  unfold Table.project
  rw [hfind]
  simp only [hrows]
  exact ⟨_, rfl, wellFormed_of_rows_fit hfits⟩

theorem names_known_of_project {names : List String} (h : t.project names = .ok t') :
    ∀ name ∈ names, name ∈ t.schema.names := by
  unfold Table.project at h
  split at h
  · cases h
  · next hfind =>
      intro name hname
      simpa using List.find?_eq_none.1 hfind name hname

theorem WellFormed.project (ht : t.WellFormed) {names : List String}
    (h : t.project names = .ok t') : t'.WellFormed := by
  obtain ⟨t'', h', hwell⟩ := ht.exists_project_eq (names_known_of_project h)
  rw [h] at h'
  cases h'
  exact hwell

theorem WellFormed.neverShort_project (ht : t.WellFormed) (names : List String) :
    NeverShort (t.project names) := by
  intro column h
  by_cases hnames : ∀ name ∈ names, name ∈ t.schema.names
  · obtain ⟨t'', h', -⟩ := ht.exists_project_eq hnames
    rw [h'] at h
    cases h
  · unfold Table.project at h
    split at h
    · cases h
    · next hfind =>
        refine hnames ?_
        intro name hname
        simpa using List.find?_eq_none.1 hfind name hname

/-! ## Computed columns -/

/-- What a column of type `type?` becomes by one more cell is a type that the cell fits, and that
earlier cells keep fitting. -/
theorem joinType_eq_ok {expression : Expression} {type? type?' : Option ColumnType} {cell : Cell}
    (h : joinType expression type? cell = .ok type?') :
    (cell = .null ∨ cell.type? = type?') ∧ (∀ type, type? = some type → type?' = some type) := by
  cases hcell : cell.type? with
  | none =>
      obtain rfl := Cell.type?_eq_none_iff.1 hcell
      cases type? with
      | none =>
          cases h
          exact ⟨.inl rfl, fun _ h => nomatch h⟩
      | some type =>
          cases h
          exact ⟨.inl rfl, fun _ h => h⟩
  | some found =>
      cases type? with
      | none =>
          simp only [joinType, hcell] at h
          cases h
          exact ⟨.inr rfl, fun _ h => nomatch h⟩
      | some type =>
          simp only [joinType, hcell] at h
          split at h
          · next heq =>
              cases h
              exact ⟨.inr (congrArg some heq.symm), fun _ h => h⟩
          · cases h

/-- The computed cells fit the type of their column, which earlier rows may have fixed. -/
theorem fits_of_extendRows {schema : Schema} {expression : Expression}
    {type? type?' : Option ColumnType} {types : List ColumnType} {rows rows' : List Row}
    (hrows : ∀ row ∈ rows, Row.Fits types row)
    (h : extendRows schema expression type? rows = .ok (type?', rows')) :
    (∀ type, type? = some type → type?' = some type) ∧
      ∀ row ∈ rows', Row.Fits (types ++ [type?'.getD .text]) row := by
  induction rows generalizing type? rows' with
  | nil =>
      cases h
      exact ⟨fun _ h => h, fun row hrow => absurd hrow List.not_mem_nil⟩
  | cons row rest ih =>
      obtain ⟨cell, -, h⟩ := bind_eq_ok_iff.1 h
      obtain ⟨next?, hnext, h⟩ := bind_eq_ok_iff.1 h
      obtain ⟨⟨last?, rest'⟩, hrest, h⟩ := bind_eq_ok_iff.1 h
      cases h
      obtain ⟨hcell, hkeeps⟩ := joinType_eq_ok hnext
      obtain ⟨hkeeps', hfits⟩ := ih (fun r hr => hrows r (List.mem_cons_of_mem _ hr)) hrest
      refine ⟨fun type htype => hkeeps' type (hkeeps type htype), fun r hr => ?_⟩
      rcases List.mem_cons.1 hr with rfl | hr
      · refine (hrows row List.mem_cons_self).append (.cons ?_ .nil)
        -- the type that this cell settles is still that of the column after the last row
        rcases hcell with rfl | hcell
        · exact Cell.fits_null _
        · cases htype : cell.type? with
          | none => exact .inl (Cell.type?_eq_none_iff.1 htype)
          | some type =>
              rw [hkeeps' type (hcell.symm.trans htype)]
              exact Cell.fits_of_type? htype
      · exact hfits r hr

theorem WellFormed.extend (ht : t.WellFormed) {expression : Expression} {name? : Option String}
    (h : t.extend expression name? = .ok t') : t'.WellFormed := by
  obtain ⟨⟨type?, rows⟩, hrows, h⟩ := bind_eq_ok_iff.1 h
  obtain ⟨schema, hschema, h⟩ := bind_eq_ok_iff.1 h
  cases h
  refine wellFormed_of_rows_fit ?_
  intro r hr
  change Row.Fits schema.types r
  rw [Schema.types_of_push (mapError_eq_ok_iff.1 hschema)]
  exact (fits_of_extendRows ht.rows_fit hrows).2 r hr

theorem neverShort_computeCell (schema : Schema) (expression : Expression) (row : Row) :
    NeverShort (computeCell schema expression row) := by
  refine .bind (.mapError fun _ _ h => nomatch h) ?_
  intro value _
  split
  · exact .ok _
  · intro _ h
    cases h

theorem neverShort_joinType (expression : Expression) (type? : Option ColumnType) (cell : Cell) :
    NeverShort (joinType expression type? cell) := by
  rw [joinType.eq_def]
  split
  · exact .ok _
  · exact .ok _
  · split
    · exact .ok _
    · intro _ h
      cases h

theorem neverShort_extendRows (schema : Schema) (expression : Expression)
    (type? : Option ColumnType) (rows : List Row) :
    NeverShort (extendRows schema expression type? rows) := by
  induction rows generalizing type? with
  | nil => exact .ok _
  | cons row rest ih =>
      refine .bind (neverShort_computeCell schema expression row) ?_
      intro cell _
      refine .bind (neverShort_joinType expression type? cell) ?_
      intro next? _
      exact .bind (ih next?) fun _ _ => .ok _

theorem neverShort_extend (t : Table) (expression : Expression) (name? : Option String) :
    NeverShort (t.extend expression name?) :=
  .bind (neverShort_extendRows t.schema expression none t.rows) fun _ _ =>
    .bind (.mapError fun _ _ h => nomatch h) fun _ _ => .ok _

/-! ## Renaming -/

theorem WellFormed.rename (ht : t.WellFormed) {newName : String}
    (h : t.rename newName = .ok t') : t'.WellFormed := by
  obtain ⟨schema, hschema, h⟩ := bind_eq_ok_iff.1 h
  cases h
  refine wellFormed_of_rows_fit ?_
  intro r hr
  rw [Schema.types_of_unqualified (mapError_eq_ok_iff.1 hschema)]
  exact ht.rows_fit r hr

theorem neverShort_rename (t : Table) (newName : String) : NeverShort (t.rename newName) :=
  .bind (.mapError fun _ _ h => nomatch h) fun _ _ => .ok _

theorem WellFormed.renamed (ht : t.WellFormed) (name : String) : (t.renamed name).WellFormed :=
  ⟨ht.names_nodup, ht.rows_fit⟩

/-! ## Sets of rows -/

theorem firstOccurrences_sublist (seen : Std.HashSet Row) (rows : List Row) :
    (firstOccurrences seen rows).Sublist rows := by
  induction rows generalizing seen with
  | nil => exact .slnil
  | cons row rest ih =>
      rw [firstOccurrences]
      split
      · exact (ih seen).cons row
      · exact (ih _).cons_cons row

/-- The union of tables whose types agree. -/
theorem WellFormed.union (ht : t.WellFormed) (hother : other.WellFormed)
    (htypes : t.schema.types = other.schema.types) : (t.union other).WellFormed := by
  refine wellFormed_of_rows_fit ?_
  intro r hr
  rcases List.mem_append.1 ((firstOccurrences_sublist _ _).mem hr) with hr | hr
  · exact ht.rows_fit r hr
  · change Row.Fits t.schema.types r
    rw [htypes]
    exact hother.rows_fit r hr

theorem WellFormed.intersect (ht : t.WellFormed) (other : Table) :
    (t.intersect other).WellFormed :=
  wellFormed_of_rows_fit fun r hr => ht.rows_fit r (List.mem_of_mem_filter hr)

theorem WellFormed.difference (ht : t.WellFormed) (other : Table) :
    (t.difference other).WellFormed :=
  wellFormed_of_rows_fit fun r hr => ht.rows_fit r (List.mem_of_mem_filter hr)

/-! ## Products and joins -/

theorem types_of_productSchema {schema : Schema} (h : t.productSchema other = .ok schema) :
    schema.types = t.schema.types ++ other.schema.types := by
  obtain ⟨left, hleft, h⟩ := bind_eq_ok_iff.1 h
  obtain ⟨right, hright, h⟩ := bind_eq_ok_iff.1 h
  rw [Schema.types_of_concat h, Schema.types_of_qualified hleft, Schema.types_of_qualified hright]

theorem types_of_product (h : t.product other = .ok t') :
    t'.schema.types = t.schema.types ++ other.schema.types := by
  obtain ⟨schema, hschema, h⟩ := bind_eq_ok_iff.1 h
  cases h
  exact types_of_productSchema (mapError_eq_ok_iff.1 hschema)

theorem WellFormed.product (ht : t.WellFormed) (hother : other.WellFormed)
    (h : t.product other = .ok t') : t'.WellFormed := by
  have htypes := types_of_product h
  obtain ⟨schema, -, h⟩ := bind_eq_ok_iff.1 h
  cases h
  refine wellFormed_of_rows_fit ?_
  intro r hr
  obtain ⟨row, hrow, hr⟩ := List.mem_flatMap.1 hr
  obtain ⟨row', hrow', rfl⟩ := List.mem_map.1 hr
  rw [htypes]
  exact (ht.rows_fit row hrow).append (hother.rows_fit row' hrow')

theorem neverShort_product (t other : Table) : NeverShort (t.product other) :=
  .bind (.mapError fun _ _ h => nomatch h) fun _ _ => .ok _

theorem WellFormed.matchingPairs (ht : t.WellFormed) (hother : other.WellFormed)
    {condition : Expression} (h : t.matchingPairs other condition = .ok t') : t'.WellFormed := by
  obtain ⟨pairs, hpairs, h⟩ := bind_eq_ok_iff.1 h
  exact (ht.product hother hpairs).select h

theorem types_of_matchingPairs {condition : Expression}
    (h : t.matchingPairs other condition = .ok t') :
    t'.schema.types = t.schema.types ++ other.schema.types := by
  obtain ⟨pairs, hpairs, h⟩ := bind_eq_ok_iff.1 h
  obtain ⟨rows, -, h⟩ := bind_eq_ok_iff.1 h
  cases h
  have htypes := types_of_product hpairs
  exact htypes

theorem neverShort_matchingPairs (t other : Table) (condition : Expression) :
    NeverShort (t.matchingPairs other condition) :=
  .bind (neverShort_product t other) fun pairs _ => neverShort_select pairs condition

theorem WellFormed.join (ht : t.WellFormed) (hother : other.WellFormed) {condition : Expression}
    (h : t.join other condition = .ok t') : t'.WellFormed := by
  obtain ⟨joined, hjoined, h⟩ := bind_eq_ok_iff.1 h
  cases h
  exact (ht.matchingPairs hother hjoined).renamed _

theorem neverShort_join (t other : Table) (condition : Expression) :
    NeverShort (t.join other condition) :=
  .bind (neverShort_matchingPairs t other condition) fun _ _ => .ok _

theorem wellFormed_padding (t : Table) (name : String) (schema : Schema) :
    (t.padding name schema).WellFormed := by
  refine wellFormed_of_rows_fit ?_
  intro r hr
  rw [List.mem_singleton.1 hr]
  exact schema.fits_emptyRow

theorem WellFormed.leftJoin (ht : t.WellFormed) (hother : other.WellFormed)
    {condition : Expression} (h : t.leftJoin other condition = .ok t') : t'.WellFormed := by
  obtain ⟨joined, hjoined, h⟩ := bind_eq_ok_iff.1 h
  obtain ⟨matched, -, h⟩ := bind_eq_ok_iff.1 h
  obtain ⟨unmatched, hunmatched, h⟩ := bind_eq_ok_iff.1 h
  cases h
  have hwell := (ht.difference matched).product (wellFormed_padding t "⟕" other.schema) hunmatched
  -- both operands of the union have the types of the product
  refine ((ht.matchingPairs hother hjoined).union hwell ?_).renamed _
  rw [types_of_matchingPairs hjoined, types_of_product hunmatched]
  rfl

theorem WellFormed.rightJoin (ht : t.WellFormed) (hother : other.WellFormed)
    {condition : Expression} (h : t.rightJoin other condition = .ok t') : t'.WellFormed := by
  obtain ⟨joined, hjoined, h⟩ := bind_eq_ok_iff.1 h
  obtain ⟨matched, -, h⟩ := bind_eq_ok_iff.1 h
  obtain ⟨unmatched, hunmatched, h⟩ := bind_eq_ok_iff.1 h
  cases h
  have hwell := (wellFormed_padding t "⟖" t.schema).product (hother.difference matched) hunmatched
  refine ((ht.matchingPairs hother hjoined).union hwell ?_).renamed _
  rw [types_of_matchingPairs hjoined, types_of_product hunmatched]
  rfl

theorem WellFormed.neverShort_leftJoin (ht : t.WellFormed) (hother : other.WellFormed)
    (condition : Expression) : NeverShort (t.leftJoin other condition) := by
  refine .bind (neverShort_matchingPairs t other condition) ?_
  intro joined hjoined
  refine .bind ((ht.matchingPairs hother hjoined).neverShort_project _) ?_
  intro matched _
  exact .bind (neverShort_product _ _) fun _ _ => .ok _

theorem WellFormed.neverShort_rightJoin (ht : t.WellFormed) (hother : other.WellFormed)
    (condition : Expression) : NeverShort (t.rightJoin other condition) := by
  refine .bind (neverShort_matchingPairs t other condition) ?_
  intro joined hjoined
  refine .bind ((ht.matchingPairs hother hjoined).neverShort_project _) ?_
  intro matched _
  exact .bind (neverShort_product _ _) fun _ _ => .ok _

end FlatTables.Table
