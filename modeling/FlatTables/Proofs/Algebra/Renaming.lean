import FlatTables.Proofs.Algebra.Join

set_option autoImplicit false

/-! # Qualifiers put on and taken off

A product qualifies the columns of its sides, and a renaming takes qualifiers off. On one schema the
second undoes the first, in the sense that qualifying makes no difference to what stripping gives
(`Schema.unqualified_of_qualified`, `Schema.exists_qualified_of_unqualified`): where stripping makes
two names equal it fails either way. So a product gets its columns back under their own names exactly
when the two sides have no name in common (`Table.stripping_undoes_qualifying`). -/

namespace FlatTables

/-! ## Schemas -/

namespace Schema

variable {s s' : Schema} {table : String}

/-- Whether every column has a point in its name. -/
def IsQualified (s : Schema) : Prop := ∀ name ∈ s.names, '.' ∈ name.toList

theorem isQualified_of_qualified (h : s.qualified table = .ok s') : s'.IsQualified := by
  intro name hname
  rw [names, columns_of_ofColumns h, columnNames_rename] at hname
  obtain ⟨column, -, rfl⟩ := List.mem_map.1 hname
  exact dot_mem_qualify table column

/-- Qualified names stay as they are. -/
theorem IsQualified.qualified_eq (h : s.IsQualified) (table : String) : s.qualified table = .ok s := by
  refine ofColumns_eq_ok_iff.2 ?_
  conv_lhs => rw [← List.map_id s.columns]
  refine List.map_congr_left fun column hcolumn => ?_
  rw [qualify_of_dot_mem (h column.name (List.mem_map_of_mem hcolumn))]
  rfl

/-- Stripping does not see whether a schema was qualified. -/
theorem unqualified_of_qualified (h : s.qualified table = .ok s') :
    s'.unqualified = s.unqualified := by
  unfold unqualified
  rw [columns_of_ofColumns h, List.map_map]
  simp only [Function.comp_def, unqualify_qualify]

/-- Names that are different without their qualifiers are different with them. -/
theorem exists_qualified_of_unqualified (h : s.unqualified = .ok s') (table : String) :
    ∃ q, s.qualified table = .ok q := by
  have hnodup := exists_ofColumns_iff.1 ⟨s', h⟩
  refine exists_ofColumns_iff.2 ?_
  rw [columnNames_rename] at hnodup ⊢
  refine List.Nodup.of_map unqualify ?_
  rw [List.map_map]
  simpa only [Function.comp_def, unqualify_qualify] using hnodup

theorem unqualified_qualified_eq_ok_iff :
    (do (← s.qualified table).unqualified) = .ok s' ↔ s.unqualified = .ok s' := by
  constructor
  · intro h
    obtain ⟨q, hq, h⟩ := bind_eq_ok_iff.1 h
    rwa [unqualified_of_qualified hq] at h
  · intro h
    obtain ⟨q, hq⟩ := exists_qualified_of_unqualified h table
    exact bind_eq_ok_iff.2 ⟨q, hq, (unqualified_of_qualified hq).trans h⟩

end Schema

/-! ## Products -/

namespace Table

variable {t other pairs u : Table}

theorem unqualify_qualifiedColumns (h : t.schema.Dotless) :
    (t.qualifiedColumns.map fun column => { column with name := unqualify column.name }) =
      t.schema.columns := by
  rw [qualifiedColumns, List.map_map]
  conv_rhs => rw [← List.map_id t.schema.columns]
  refine List.map_congr_left fun column hcolumn => ?_
  have hdotless := h column.name (List.mem_map_of_mem hcolumn)
  simp only [Function.comp_apply, unqualify_qualify, unqualify_of_dotless hdotless]
  rfl

/-- Stripping a product comes to putting the columns of its sides together. -/
theorem unqualified_product (h : t.product other = .ok pairs) (ht : t.schema.Dotless)
    (hother : other.schema.Dotless) : pairs.schema.unqualified = t.schema.concat other.schema := by
  rw [Schema.unqualified, columns_of_product h, List.map_append, unqualify_qualifiedColumns ht,
    unqualify_qualifiedColumns hother]
  rfl

theorem rename_eq_ok_iff {newName : String} : pairs.rename newName = .ok u ↔
    ∃ schema, pairs.schema.unqualified = .ok schema ∧
      u = { pairs with id := TableId.parse newName pairs.id.database, schema := schema } := by
  rw [rename, bind_eq_ok_iff]
  simp only [mapError_eq_ok_iff, Except.ok.injEq, @eq_comm _ _ u]

/-- **Stripping undoes qualifying.** Of any schema, stripping gives the same schema or fails, whether
the schema was qualified before or not. A schema that is qualified already, as every one is that
qualifying has given, stays as it is when it is qualified again. So if no column of two tables has a
point in its name, their product can be renamed exactly when they have no name in common; the result
has the columns of both sides, as they were, over the rows of the product. -/
theorem stripping_undoes_qualifying :
    (∀ (s : Schema) (table : String),
      (∀ s', (do (← s.qualified table).unqualified) = .ok s' ↔ s.unqualified = .ok s') ∧
      (∀ q, s.qualified table = .ok q → q.IsQualified) ∧
      (s.IsQualified → s.qualified table = .ok s)) ∧
    ∀ t other pairs : Table, t.product other = .ok pairs → t.schema.Dotless →
      other.schema.Dotless → ∀ newName,
      ((∃ u, pairs.rename newName = .ok u) ↔ t.schema.names.Disjoint other.schema.names) ∧
      ∀ u, pairs.rename newName = .ok u →
        u.schema.columns = t.schema.columns ++ other.schema.columns ∧ u.rows = pairs.rows := by
  refine ⟨fun s table => ⟨fun s' => Schema.unqualified_qualified_eq_ok_iff,
    fun q => Schema.isQualified_of_qualified, fun h => h.qualified_eq table⟩, ?_⟩
  intro t other pairs hproduct ht hother newName
  have hstripped := unqualified_product hproduct ht hother
  constructor
  · calc (∃ u, pairs.rename newName = .ok u)
      _ ↔ ∃ schema, t.schema.concat other.schema = .ok schema := by
        simp only [rename_eq_ok_iff, hstripped, exists_comm, exists_and_left, exists_eq, and_true]
      _ ↔ (t.schema.names ++ other.schema.names).Nodup := by
        rw [Schema.concat, Schema.exists_ofColumns_iff, columnNames, List.map_append]
        rfl
      _ ↔ t.schema.names.Disjoint other.schema.names := by
        have hnames : t.schema.names.Nodup := t.schema.nodup
        have hnames' : other.schema.names.Nodup := other.schema.nodup
        simp only [List.nodup_append', hnames, hnames', true_and]
  · intro u hu
    obtain ⟨schema, hschema, rfl⟩ := rename_eq_ok_iff.1 hu
    rw [hstripped] at hschema
    exact ⟨Schema.columns_of_ofColumns hschema, rfl⟩

/-- The columns of the parts are qualified once. The parts and the offers have no column in common,
so their product can be renamed. -/
theorem stripping_undoes_qualifying_parts_offers :
    (∃ q, parts.schema.qualified "stock.parts" = .ok q ∧ q.qualified "sold" = .ok q) ∧
      ∃ pairs, parts.product offers = .ok pairs ∧ ∃ u, pairs.rename "offered" = .ok u ∧
        u.schema.columns = [⟨"part", .integer⟩, ⟨"for", .integer⟩, ⟨"price", .text⟩] ∧
        u.rows = pairs.rows := by
  obtain ⟨hschemas, htables⟩ := stripping_undoes_qualifying
  constructor
  · obtain ⟨q, hq⟩ : ∃ q, parts.schema.qualified "stock.parts" = .ok q := ⟨_, rfl⟩
    obtain ⟨-, hqualified, -⟩ := hschemas parts.schema "stock.parts"
    obtain ⟨-, -, hagain⟩ := hschemas q "sold"
    exact ⟨q, hq, hagain (hqualified q hq)⟩
  · obtain ⟨pairs, hpairs⟩ : ∃ pairs, parts.product offers = .ok pairs := ⟨_, rfl⟩
    obtain ⟨hrename, hcolumns⟩ :=
      htables parts offers pairs hpairs (by decide) (by decide) "offered"
    obtain ⟨u, hu⟩ := hrename.2 (by simp [parts, offers, Schema.names, columnNames])
    exact ⟨pairs, hpairs, u, hu, hcolumns u hu⟩

end Table

end FlatTables
