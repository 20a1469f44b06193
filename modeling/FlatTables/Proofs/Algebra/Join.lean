import FlatTables.Proofs.Algebra.Multiplicity
import FlatTables.Proofs.Expression.Names

set_option autoImplicit false

/-! # Inner joins

A product exists exactly when the qualified names of both sides are different
(`exists_product_iff`), and a join exists exactly when the product does and the condition has a
value for all of its rows (`exists_join_iff`). Its rows are those of two nested loops
(`rows_of_join`).

Two joins in a row may be grouped either way (`join_assoc`). The columns of a join are qualified
already, so both groupings have the columns of all three tables under the same names
(`schema_join_assoc`). A row of all three then answers each condition as the row of its two tables
does (`eval_front`, `eval_back`), and the nested loops run over the same rows in the same order
(`joinRows_assoc`). -/

namespace FlatTables

/-- Whether an expression has a value for every row of a table. -/
def Expression.DefinedOn (e : Expression) (t : Table) : Prop :=
  ∀ row ∈ t.rows, ∃ value, e.eval ⟨t.schema, row⟩ = .ok value

namespace Table

variable {t other pairs inner : Table} {condition : Expression}

/-! ## The schema of a product -/

theorem columns_of_product (h : t.product other = .ok pairs) :
    pairs.schema.columns = t.qualifiedColumns ++ other.qualifiedColumns := by
  obtain ⟨schema, hschema, h⟩ := bind_eq_ok_iff.1 h
  cases h
  exact columns_of_productSchema (mapError_eq_ok_iff.1 hschema)

theorem names_of_product (h : t.product other = .ok pairs) :
    pairs.schema.names = t.qualifiedNames ++ other.qualifiedNames := by
  rw [Schema.names, columns_of_product h, columnNames, List.map_append]
  exact congrArg₂ _ t.columnNames_qualified other.columnNames_qualified

/-- Two tables have a product exactly when all the qualified names are different. -/
theorem exists_product_iff :
    (∃ pairs, t.product other = .ok pairs) ↔ (t.qualifiedNames ++ other.qualifiedNames).Nodup := by
  constructor
  · rintro ⟨pairs, h⟩
    rw [← names_of_product h]
    exact pairs.schema.nodup
  · intro h
    obtain ⟨schema, hschema⟩ := exists_productSchema_eq_ok h
    exact ⟨_, bind_eq_ok_iff.2 ⟨schema, mapError_eq_ok_iff.2 hschema, rfl⟩⟩

/-! ## When a join exists -/

theorem exists_selectRows_iff {schema : Schema} {rows : List Row} :
    (∃ rows', selectRows schema condition rows = .ok rows') ↔
      ∀ row ∈ rows, ∃ value, condition.eval ⟨schema, row⟩ = .ok value := by
  induction rows with
  | nil => exact ⟨fun _ _ h => absurd h List.not_mem_nil, fun _ => ⟨[], rfl⟩⟩
  | cons row rest ih =>
      rw [List.forall_mem_cons, ← ih]
      constructor
      · rintro ⟨rows', h⟩
        obtain ⟨value, hvalue, h⟩ := bind_eq_ok_iff.1 h
        obtain ⟨rest', hrest', -⟩ := bind_eq_ok_iff.1 h
        exact ⟨⟨value, hvalue⟩, rest', hrest'⟩
      · rintro ⟨⟨value, hvalue⟩, rest', hrest'⟩
        exact ⟨_, bind_eq_ok_iff.2 ⟨value, hvalue, bind_eq_ok_iff.2 ⟨rest', hrest', rfl⟩⟩⟩

/-- Two tables have a join exactly when they have a product and the condition has a value for all
of its rows. -/
theorem exists_join_iff :
    (∃ inner, t.join other condition = .ok inner) ↔
      ∃ pairs, t.product other = .ok pairs ∧ condition.DefinedOn pairs := by
  constructor
  · rintro ⟨inner, h⟩
    obtain ⟨joined, h, -⟩ := bind_eq_ok_iff.1 h
    obtain ⟨pairs, hpairs, h⟩ := bind_eq_ok_iff.1 h
    obtain ⟨rows, hrows, -⟩ := bind_eq_ok_iff.1 h
    exact ⟨pairs, hpairs, exists_selectRows_iff.1 ⟨rows, mapError_eq_ok_iff.1 hrows⟩⟩
  · rintro ⟨pairs, hpairs, hdefined⟩
    obtain ⟨rows, hrows⟩ := exists_selectRows_iff.2 hdefined
    exact ⟨_, bind_eq_ok_iff.2 ⟨_, bind_eq_ok_iff.2 ⟨pairs, hpairs,
      bind_eq_ok_iff.2 ⟨rows, mapError_eq_ok_iff.2 hrows, rfl⟩⟩, rfl⟩⟩

theorem exists_product_of_join (h : t.join other condition = .ok inner) :
    ∃ pairs, t.product other = .ok pairs ∧ pairs.schema = inner.schema := by
  obtain ⟨joined, h, hinner⟩ := bind_eq_ok_iff.1 h
  obtain ⟨pairs, hpairs, h⟩ := bind_eq_ok_iff.1 h
  obtain ⟨rows, -, h⟩ := bind_eq_ok_iff.1 h
  cases h
  cases hinner
  exact ⟨pairs, hpairs, rfl⟩

/-! ## The rows of a join -/

/-- The rows of two nested loops: each row of the first list before each row of the second that it
is matched with. -/
def joinRows (rows rows' : List Row) (matched : Row → Row → Bool) : List Row :=
  rows.flatMap fun a => rows'.flatMap fun b => if matched a b = true then [a ++ b] else []

theorem map_filter_eq_flatMap {α β : Type} (p : α → Bool) (f : α → β) (l : List α) :
    (l.filter p).map f = l.flatMap fun x => if p x = true then [f x] else [] := by
  induction l with
  | nil => rfl
  | cons x rest ih =>
      rw [List.flatMap_cons, ← ih, List.filter_cons]
      split <;> rfl

theorem rows_of_join (h : t.join other condition = .ok inner) :
    inner.rows =
      joinRows t.rows other.rows fun a b => satisfies inner.schema condition (a ++ b) := by
  obtain ⟨joined, hjoined⟩ := exists_matchingPairs_of_join h
  obtain ⟨inner', hinner', hschema, hrows⟩ := exists_join_eq_ok hjoined
  obtain rfl := Except.ok.inj (hinner'.symm.trans h)
  rw [hrows, rows_of_matchingPairs hjoined, ← hschema, satisfyingPairs, map_filter_eq_flatMap]
  simp only [joinRows, SProd.sprod, List.product, List.flatMap_assoc, List.flatMap_map]

/-- The nested loops of two joins in a row may be grouped either way, if each condition is asked of
the rows that it is about. -/
theorem joinRows_assoc {as bs cs : List Row} {m₁ m₁' m₂ m₂' : Row → Row → Bool}
    (h₁ : ∀ a ∈ as, ∀ b ∈ bs, ∀ c ∈ cs, m₁' a (b ++ c) = m₁ a b)
    (h₂ : ∀ a ∈ as, ∀ b ∈ bs, ∀ c ∈ cs, m₂' (a ++ b) c = m₂ b c) :
    joinRows (joinRows as bs m₁) cs m₂' = joinRows as (joinRows bs cs m₂) m₁' := by
  unfold joinRows
  rw [List.flatMap_assoc]
  refine List.flatMap_congr fun a ha => ?_
  rw [List.flatMap_assoc, List.flatMap_assoc]
  refine List.flatMap_congr fun b hb => ?_
  rw [List.flatMap_assoc]
  -- for one pair `a`, `b` both sides run over `cs`, or both have nothing
  split
  · next hab =>
      rw [List.flatMap_singleton]
      refine List.flatMap_congr fun c hc => ?_
      rw [h₂ a ha b hb c hc]
      split
      · rw [List.flatMap_singleton, h₁ a ha b hb c hc, if_pos hab, List.append_assoc]
      · rfl
  · next hab =>
      refine (List.flatMap_eq_nil_iff.2 fun c hc => ?_).symm
      split
      · rw [List.flatMap_singleton, h₁ a ha b hb c hc, if_neg hab]
      · rfl

/-! ## Joins of joins -/

theorem columns_of_join (h : t.join other condition = .ok inner) :
    inner.schema.columns = t.qualifiedColumns ++ other.qualifiedColumns := by
  obtain ⟨pairs, hpairs, hschema⟩ := exists_product_of_join h
  rw [← hschema, columns_of_product hpairs]

theorem names_of_join (h : t.join other condition = .ok inner) :
    inner.schema.names = t.qualifiedNames ++ other.qualifiedNames := by
  obtain ⟨pairs, hpairs, hschema⟩ := exists_product_of_join h
  rw [← hschema, names_of_product hpairs]

/-- The columns of a join are qualified, and stay as they are in the next product. -/
theorem qualifiedColumns_of_join (h : t.join other condition = .ok inner) :
    inner.qualifiedColumns = inner.schema.columns := by
  rw [qualifiedColumns, columns_of_join h]
  simp only [qualifiedColumns, List.map_append, List.map_map, Function.comp_def, qualify_qualify]

theorem qualifiedNames_of_join (h : t.join other condition = .ok inner) :
    inner.qualifiedNames = t.qualifiedNames ++ other.qualifiedNames := by
  rw [← inner.columnNames_qualified, qualifiedColumns_of_join h]
  exact names_of_join h

theorem definedOn_product_iff (h : t.product other = .ok pairs) :
    condition.DefinedOn pairs ↔ ∀ a ∈ t.rows, ∀ b ∈ other.rows,
      ∃ value, condition.eval ⟨pairs.schema, a ++ b⟩ = .ok value := by
  unfold Expression.DefinedOn
  rw [rows_of_product h, List.forall_mem_map]
  simp only [Prod.forall, List.mem_product, and_imp]
  exact ⟨fun hall a ha b hb => hall a b ha hb, fun hall a b ha hb => hall a ha b hb⟩

/-! ## Associativity -/

section Associativity

variable {a b c ab bc : Table} {c₁ c₂ : Expression}

/-- A condition that mentions no name of the table behind asks of a row of all three only what it
asks of the two rows in front. -/
theorem eval_front (ha : a.WellFormed) (hb : b.WellFormed)
    (hforeign : c₁.names.Disjoint c.qualifiedNames) {schema schema' : Schema}
    (hschema : schema.names = a.qualifiedNames ++ b.qualifiedNames ++ c.qualifiedNames)
    (hschema' : schema'.names = a.qualifiedNames ++ b.qualifiedNames) {x y z : Row}
    (hx : x ∈ a.rows) (hy : y ∈ b.rows) :
    c₁.eval ⟨schema, x ++ (y ++ z)⟩ = c₁.eval ⟨schema', x ++ y⟩ := by
  rw [← List.append_assoc]
  refine c₁.eval_append_right hschema hschema' ?_ hforeign
  rw [List.length_append, List.length_append, ha.length_qualifiedNames hx,
    hb.length_qualifiedNames hy]

/-- The same for a condition that mentions no name of the table in front. -/
theorem eval_back (ha : a.WellFormed) (hforeign : c₂.names.Disjoint a.qualifiedNames)
    {schema schema' : Schema}
    (hschema : schema.names = a.qualifiedNames ++ b.qualifiedNames ++ c.qualifiedNames)
    (hschema' : schema'.names = b.qualifiedNames ++ c.qualifiedNames) {x y z : Row}
    (hx : x ∈ a.rows) :
    c₂.eval ⟨schema, x ++ y ++ z⟩ = c₂.eval ⟨schema', y ++ z⟩ := by
  rw [List.append_assoc] at hschema ⊢
  exact c₂.eval_append_left hschema hschema' (ha.length_qualifiedNames hx) hforeign

variable (ha : a.WellFormed) (hb : b.WellFormed)
  (hnames : (a.qualifiedNames ++ b.qualifiedNames ++ c.qualifiedNames).Nodup)
  (hforeign₁ : c₁.names.Disjoint c.qualifiedNames)
  (hforeign₂ : c₂.names.Disjoint a.qualifiedNames)

include ha hnames hforeign₂ in
theorem exists_join_behind {pairs : Table} (hpairs : b.product c = .ok pairs)
    (hdefined : c₂.DefinedOn pairs) (hab : a.join b c₁ = .ok ab) :
    ∃ left, ab.join c c₂ = .ok left := by
  obtain ⟨pairs', hpairs'⟩ : ∃ pairs', ab.product c = .ok pairs' :=
    exists_product_iff.2 (by rwa [qualifiedNames_of_join hab])
  have hschema := names_of_product hpairs'
  rw [qualifiedNames_of_join hab] at hschema
  refine exists_join_iff.2 ⟨pairs', hpairs', (definedOn_product_iff hpairs').2 ?_⟩
  intro xy hxy z hz
  obtain ⟨x, hx, y, hy, rfl, -⟩ := exists_of_mem_join hab hxy
  rw [eval_back ha hforeign₂ hschema (names_of_product hpairs) hx]
  exact (definedOn_product_iff hpairs).1 hdefined y hy z hz

include ha hb hnames hforeign₁ in
theorem exists_join_before {pairs : Table} (hpairs : a.product b = .ok pairs)
    (hdefined : c₁.DefinedOn pairs) (hbc : b.join c c₂ = .ok bc) :
    ∃ right, a.join bc c₁ = .ok right := by
  rw [List.append_assoc] at hnames
  obtain ⟨pairs', hpairs'⟩ : ∃ pairs', a.product bc = .ok pairs' :=
    exists_product_iff.2 (by rwa [qualifiedNames_of_join hbc])
  have hschema := names_of_product hpairs'
  rw [qualifiedNames_of_join hbc, ← List.append_assoc] at hschema
  refine exists_join_iff.2 ⟨pairs', hpairs', (definedOn_product_iff hpairs').2 ?_⟩
  intro x hx yz hyz
  obtain ⟨y, hy, z, hz, rfl, -⟩ := exists_of_mem_join hbc hyz
  rw [eval_front ha hb hforeign₁ hschema (names_of_product hpairs) hx hy]
  exact (definedOn_product_iff hpairs).1 hdefined x hx y hy

/-- Both groupings of two joins have the columns of all three tables. -/
theorem schema_join_assoc {left right : Table} (hab : a.join b c₁ = .ok ab)
    (hleft : ab.join c c₂ = .ok left) (hbc : b.join c c₂ = .ok bc)
    (hright : a.join bc c₁ = .ok right) : left.schema = right.schema := by
  refine Schema.eq_of_columns_eq ?_
  rw [columns_of_join hleft, columns_of_join hright, qualifiedColumns_of_join hab,
    qualifiedColumns_of_join hbc, columns_of_join hab, columns_of_join hbc, List.append_assoc]

include ha hb hforeign₁ hforeign₂ in
theorem rows_join_assoc {left right : Table} (hab : a.join b c₁ = .ok ab)
    (hleft : ab.join c c₂ = .ok left) (hbc : b.join c c₂ = .ok bc)
    (hright : a.join bc c₁ = .ok right) : left.rows = right.rows := by
  have hschema := schema_join_assoc hab hleft hbc hright
  have hnames : left.schema.names = a.qualifiedNames ++ b.qualifiedNames ++ c.qualifiedNames := by
    rw [names_of_join hleft, qualifiedNames_of_join hab]
  rw [rows_of_join hleft, rows_of_join hab, rows_of_join hright, rows_of_join hbc, ← hschema]
  refine joinRows_assoc (fun x hx y hy z _ => ?_) (fun x hx y _ z _ => ?_)
  · unfold satisfies
    rw [eval_front ha hb hforeign₁ hnames (names_of_join hab) hx hy]
  · unfold satisfies
    rw [eval_back ha hforeign₂ hnames (names_of_join hbc) hx]

end Associativity

/-- **Joins are associative.** If all qualified names are different, and each condition has a value
for every pair of rows of its two tables and mentions no name of the third table, then both
groupings of two joins exist, with one schema and the same rows in the same order. -/
theorem join_assoc {a b c : Table} {c₁ c₂ : Expression} (ha : a.WellFormed) (hb : b.WellFormed)
    (hnames : (a.qualifiedNames ++ b.qualifiedNames ++ c.qualifiedNames).Nodup)
    (hdefined₁ : ∀ pairs, a.product b = .ok pairs → c₁.DefinedOn pairs)
    (hdefined₂ : ∀ pairs, b.product c = .ok pairs → c₂.DefinedOn pairs)
    (hforeign₁ : c₁.names.Disjoint c.qualifiedNames)
    (hforeign₂ : c₂.names.Disjoint a.qualifiedNames) :
    ∃ ab left bc right,
      a.join b c₁ = .ok ab ∧ ab.join c c₂ = .ok left ∧
      b.join c c₂ = .ok bc ∧ a.join bc c₁ = .ok right ∧
      left.schema = right.schema ∧ left.rows = right.rows := by
  obtain ⟨front, hfront⟩ := exists_product_iff.2 hnames.of_append_left
  obtain ⟨back, hback⟩ : ∃ back, b.product c = .ok back := by
    refine exists_product_iff.2 ?_
    rw [List.append_assoc] at hnames
    exact hnames.of_append_right
  obtain ⟨ab, hab⟩ := exists_join_iff.2 ⟨front, hfront, hdefined₁ front hfront⟩
  obtain ⟨bc, hbc⟩ := exists_join_iff.2 ⟨back, hback, hdefined₂ back hback⟩
  obtain ⟨left, hleft⟩ :=
    exists_join_behind ha hnames hforeign₂ hback (hdefined₂ back hback) hab
  obtain ⟨right, hright⟩ :=
    exists_join_before ha hb hnames hforeign₁ hfront (hdefined₁ front hfront) hbc
  exact ⟨ab, left, bc, right, hab, hleft, hbc, hright, schema_join_assoc hab hleft hbc hright,
    rows_join_assoc ha hb hforeign₁ hforeign₂ hab hleft hbc hright⟩

/-- A table of the grades that go with a price. -/
def grades : Table where
  id := ⟨"temp", "grades"⟩
  schema := ⟨[⟨"price", .text⟩, ⟨"grade", .integer⟩], by decide⟩
  rows := [[.text "high", .integer 5], [.text "low", .integer 2]]
  store := none

/-- The parts, their offers and the grades of these can be joined in either order. -/
theorem join_assoc_parts_offers_grades :
    let isFor : Expression := .compare .equal (.column "parts.part") (.column "offers.for")
    let goesWith : Expression := .compare .equal (.column "offers.price") (.column "grades.price")
    ∃ offered left graded right,
      parts.join offers isFor = .ok offered ∧ offered.join grades goesWith = .ok left ∧
      offers.join grades goesWith = .ok graded ∧ parts.join graded isFor = .ok right ∧
      left.rows = right.rows ∧
      right.rows =
        [[.integer 1, .integer 1, .text "low", .text "low", .integer 2],
          [.integer 1, .integer 1, .text "high", .text "high", .integer 5]] := by
  intro isFor goesWith
  -- a comparison of two columns has a value for every row
  have hdefined : ∀ (name name' : String) (t : Table),
      (Expression.compare .equal (.column name) (.column name')).DefinedOn t := by
    intro name name' t row _
    simp only [Expression.eval]
    split <;> split <;> exact ⟨_, rfl⟩
  obtain ⟨offered, left, graded, right, hoffered, hleft, hgraded, hright, -, hrows⟩ :=
    join_assoc (c := grades) wellFormed_parts wellFormed_offers (by decide)
      (fun _ _ => hdefined "parts.part" "offers.for" _)
      (fun _ _ => hdefined "offers.price" "grades.price" _)
      (List.disjoint_left.2 (by decide : ∀ name ∈ isFor.names, name ∉ grades.qualifiedNames))
      (List.disjoint_left.2 (by decide : ∀ name ∈ goesWith.names, name ∉ parts.qualifiedNames))
  refine ⟨offered, left, graded, right, hoffered, hleft, hgraded, hright, hrows, ?_⟩
  cases hgraded
  cases hright
  rfl

end Table

end FlatTables
