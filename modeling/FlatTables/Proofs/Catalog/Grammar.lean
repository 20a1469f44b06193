import FlatTables.Proofs.Catalog.WriteThrough
import FlatTables.Proofs.Expression.Building
import FlatTables.Proofs.Traversal

set_option autoImplicit false

/-! # Which documents are catalogs

A well-formed document is nested lists, in which the order counts and a key may stand several times;
its `Outline` says so. A document that was printed for a value has the outline of the value
(`Json.outline?_ofString_pretty`).

What a catalog looks like is said of outlines: `Outline.IsCatalog` over `Outline.IsEntry` over
`Outline.DefinesColumns`. The readers accept exactly these, each by a lemma of its own, from the
types of columns up to the whole catalog (`Catalog.opens_iff_isCatalog`). -/

namespace FlatTables

open Json (Draft Key Ending)

/-! ## Documents as they are written -/

namespace Json

/-- A document as it is written. A string that spells half of a surrogate pair is part of a
well-formed document, but is no text; as a string it is `string none`, as a key it is `none`. -/
inductive Outline
  /-- A null, a boolean or a number. -/
  | plain
  | string (text : Option String)
  | array (items : List Outline)
  | object (members : List (Option String × Outline))

mutual

/-- The outline of a draft in which nothing breaks off. -/
def Draft.outline? : Draft → Option Outline
  | .scalar (.string s) _ => some (.string s.toOption)
  | .scalar _ _ => some .plain
  | .array _ items (.ok _) => (itemOutlines? items).map .array
  | .object _ members (.ok _) => (memberOutlines? members).map .object
  | _ => none

/-- The outlines of the items of an array. -/
def itemOutlines? : List Draft → Option (List Outline)
  | [] => some []
  | item :: rest => do
    let outline ← item.outline?
    let outlines ← itemOutlines? rest
    pure (outline :: outlines)

/-- The keys and outlines of the members of an object. -/
def memberOutlines? : List (Key × Draft) → Option (List (Option String × Outline))
  | [] => some []
  | (key, value) :: rest => do
    let outline ← value.outline?
    let outlines ← memberOutlines? rest
    pure ((key.name.toOption, outline) :: outlines)

end

mutual

/-- The outline of a value. -/
def outline : Json → Outline
  | .string s => .string (some s)
  | .array items => .array (itemOutlines items)
  | .object members => .object (memberOutlines members)
  | _ => .plain

/-- The outlines of the items of an array. -/
def itemOutlines : List Json → List Outline
  | [] => []
  | item :: rest => item.outline :: itemOutlines rest

/-- The keys and outlines of the members of an object. -/
def memberOutlines : List (String × Json) → List (Option String × Outline)
  | [] => []
  | (key, value) :: rest => (some key, value.outline) :: memberOutlines rest

end

/-- The outline of a well-formed document. -/
def Document.outline? (d : Document) : Option Outline :=
  if d.excess.isSome then none else d.root.outline?

end Json

/-! ## The grammar -/

/-- The names by which a document can call a type. -/
def ColumnType.spellings : ColumnType → List String
  | integer => ["int", "integer"]
  | float => ["float"]
  | text => ["str", "string", "text"]

/-- Whether a name calls a type; the case of ASCII letters does not count. -/
def ColumnType.Called (type : ColumnType) (name : String) : Prop :=
  ∃ spelling ∈ type.spellings, Text.SameLetters name spelling

namespace Json.Outline

/-- Whether a member of an object defines a column: its key is the name, and its value calls the
type. -/
def DefinesColumn (member : Option String × Outline) (column : Column) : Prop :=
  member.1 = some column.name ∧ ∃ name, member.2 = .string (some name) ∧ column.type.Called name

/-- Whether an outline is an object whose members define the columns of a schema, in their order.
The names of a schema are pairwise different. -/
def DefinesColumns (o : Outline) (s : Schema) : Prop :=
  ∃ members, o = .object members ∧ List.Forall₂ DefinesColumn members s.columns

/-- The values that stand under a key. -/
def valuesOf (key : String) (members : List (Option String × Outline)) : List Outline :=
  (members.filter (·.1 = some key)).map (·.2)

/-- Whether an outline is an entry of a catalog. It is an object whose keys are texts and that holds
`name` once, over a text, and `columns` once, over the columns; under other keys there may be
anything. Or it is an array of a text and the columns. -/
inductive IsEntry : Outline → TableDefinition → Prop
  | object {members : List (Option String × Outline)} {d : TableDefinition} {columns : Outline}
    (hkeys : ∀ member ∈ members, member.1.isSome)
    (hname : valuesOf "name" members = [.string (some d.name)])
    (hcolumns : valuesOf "columns" members = [columns]) (h : columns.DefinesColumns d.columns) :
    IsEntry (.object members) d
  | array {name : String} {columns : Outline} {s : Schema} (h : columns.DefinesColumns s) :
    IsEntry (.array [.string (some name), columns]) ⟨name, s⟩

/-- Whether an outline is a catalog: an object in which every key is a text and every value an
entry. -/
def IsCatalog (o : Outline) : Prop :=
  ∃ members, o = .object members ∧ ∀ member ∈ members, member.1.isSome ∧ ∃ d, member.2.IsEntry d

/-- Whether the last of the values that stand under a key is the entry `d`. -/
def LastEntry (o : Outline) (key : String) (d : TableDefinition) : Prop :=
  ∃ members value, o = .object members ∧ (valuesOf key members).getLast? = some value ∧
    value.IsEntry d

end Json.Outline

/-! ## Drafts by their outlines -/

namespace Json

/-- The drafts that an outline can belong to. -/
inductive Draft.HasOutline : Draft → Outline → Prop
  | plain {value : Scalar} (span : Span) (h : ∀ s, value ≠ .string s) :
    HasOutline (.scalar value span) .plain
  | string (s : Except Fault String) (span : Span) :
    HasOutline (.scalar (.string s) span) (.string s.toOption)
  | array (start stop : Nat) {items : List Draft} {outlines : List Outline}
    (h : itemOutlines? items = some outlines) :
    HasOutline (.array start items (.ok stop)) (.array outlines)
  | object (start stop : Nat) {members : List (Key × Draft)}
    {outlines : List (Option String × Outline)} (h : memberOutlines? members = some outlines) :
    HasOutline (.object start members (.ok stop)) (.object outlines)

theorem Draft.hasOutline_of_outline? {d : Draft} {o : Outline} (h : d.outline? = some o) :
    d.HasOutline o := by
  unfold Draft.outline? at h
  split at h
  · cases h
    exact .string _ _
  · next hvalue =>
      cases h
      exact .plain _ fun s hs => hvalue s hs
  · obtain ⟨outlines, houtlines, rfl⟩ := Option.map_eq_some_iff.1 h
    exact .array _ _ houtlines
  · obtain ⟨outlines, houtlines, rfl⟩ := Option.map_eq_some_iff.1 h
    exact .object _ _ houtlines
  · cases h

theorem itemOutlines?_cons_iff {item : Draft} {rest : List Draft} {outlines : List Outline} :
    itemOutlines? (item :: rest) = some outlines ↔ ∃ o os, item.outline? = some o ∧
      itemOutlines? rest = some os ∧ outlines = o :: os := by
  simp only [itemOutlines?, Option.bind_eq_bind, Option.bind_eq_some_iff, Option.pure_def,
    Option.some.injEq, @eq_comm _ outlines, exists_and_left]

theorem memberOutlines?_cons_iff {key : Key} {value : Draft} {rest : List (Key × Draft)}
    {outlines : List (Option String × Outline)} :
    memberOutlines? ((key, value) :: rest) = some outlines ↔ ∃ o os, value.outline? = some o ∧
      memberOutlines? rest = some os ∧ outlines = (key.name.toOption, o) :: os := by
  simp only [memberOutlines?, Option.bind_eq_bind, Option.bind_eq_some_iff, Option.pure_def,
    Option.some.injEq, @eq_comm _ outlines, exists_and_left]

theorem Scalar.outline?_of_value? {value : Scalar} {j : Json} (span : Span)
    (h : value.value? = some j) : (Draft.scalar value span).outline? = some j.outline := by
  cases value with
  | null =>
      cases h
      rfl
  | bool b =>
      cases h
      rfl
  | number n =>
      obtain ⟨_, -, rfl⟩ := Option.map_eq_some_iff.1 h
      rfl
  | string s =>
      obtain ⟨_, htext, rfl⟩ := Option.map_eq_some_iff.1 h
      exact congrArg (fun text => some (Outline.string text)) htext

mutual

theorem Draft.outline?_of_value? : ∀ {d : Draft} {j : Json}, d.value? = some j →
    d.outline? = some j.outline
  | .scalar value span, _, h => Scalar.outline?_of_value? span h
  | .array _ items ending, j, h => by
      cases ending with
      | error cause => cases h
      | ok stop =>
          obtain ⟨values, hvalues, rfl⟩ := Option.map_eq_some_iff.1 h
          exact congrArg (Option.map _) (itemOutlines?_of_itemValues? hvalues)
  | .object _ members ending, j, h => by
      cases ending with
      | error cause => cases h
      | ok stop =>
          obtain ⟨values, hvalues, rfl⟩ := Option.map_eq_some_iff.1 h
          exact congrArg (Option.map _) (memberOutlines?_of_memberValues? hvalues)
  | .missing _, _, h => nomatch h

theorem itemOutlines?_of_itemValues? : ∀ {items : List Draft} {values : List Json},
    itemValues? items = some values → itemOutlines? items = some (itemOutlines values)
  | [], _, h => by
      cases h
      rfl
  | item :: rest, values, h => by
      simp only [itemValues?, Option.bind_eq_bind, Option.bind_eq_some_iff] at h
      obtain ⟨value, hvalue, values, hvalues, h⟩ := h
      cases h
      exact itemOutlines?_cons_iff.2 ⟨_, _, Draft.outline?_of_value? hvalue,
        itemOutlines?_of_itemValues? hvalues, rfl⟩

theorem memberOutlines?_of_memberValues? : ∀ {members : List (Key × Draft)}
    {values : List (String × Json)}, memberValues? members = some values →
      memberOutlines? members = some (memberOutlines values)
  | [], _, h => by
      cases h
      rfl
  | (key, value) :: rest, _, h => by
      simp only [memberValues?, Option.bind_eq_bind, Option.bind_eq_some_iff] at h
      obtain ⟨name, hname, value, hvalue, values, hvalues, h⟩ := h
      cases h
      refine memberOutlines?_cons_iff.2 ⟨_, _, Draft.outline?_of_value? hvalue,
        memberOutlines?_of_memberValues? hvalues, ?_⟩
      rw [hname]
      rfl

end

/-- A document that was printed has the outline of its value. -/
theorem outline?_ofString_pretty {j : Json} (h : j.Numberless) :
    (Document.ofString j.pretty).outline? = some j.outline := by
  obtain ⟨draft, hvalue, hdocument⟩ := ofString_pretty h
  rw [hdocument]
  exact Draft.outline?_of_value? hvalue

theorem Draft.refuse_ne_ok {α : Type} (d : Draft) (expected : String) (a : α) :
    d.refuse expected ≠ .ok a := by
  cases d with
  | scalar value span =>
      intro h
      obtain ⟨_, -, h⟩ := bind_eq_ok_iff.1 h
      cases h
  | _ => exact fun h => nomatch h

theorem Draft.pass_of_outline? {d : Draft} {o : Outline} (h : d.outline? = some o) :
    d.pass = .ok () := by
  cases hasOutline_of_outline? h <;> rfl

end Json

theorem Reading.wanted_eq_ok_iff {α : Type} {x : Except Json.Fault α} {a : α} :
    wanted x = .ok a ↔ x.toOption = some a := by
  cases x with
  | error fault => exact iff_of_false (fun h => nomatch h) (fun h => nomatch h)
  | ok a' =>
      constructor
      · intro h
        exact congrArg some (Except.ok.inj h)
      · intro h
        exact congrArg Except.ok (Option.some.inj h)

/-! ## Columns -/

theorem ColumnType.ofName_eq_ok_iff {name : String} {type : ColumnType} :
    ofName name = .ok type ↔ type.Called name := by
  have hlower : ∀ spelling ∈ type.spellings, spelling.map Char.toLower = spelling := by
    simp only [← String.toList_inj, String.toList_map]
    cases type <;> decide
  have hcalled : type.Called name ↔ name.map Char.toLower ∈ type.spellings := by
    constructor
    · rintro ⟨spelling, hmem, h⟩
      rw [Text.SameLetters, hlower spelling hmem] at h
      rwa [h]
    · intro h
      exact ⟨_, h, (hlower _ h).symm⟩
  rw [hcalled, ofName]
  generalize name.map Char.toLower = lower
  cases type <;> simp [spellings] <;> grind

open Json (Outline itemOutlines? itemOutlines?_cons_iff memberOutlines? memberOutlines?_cons_iff)

theorem Json.Draft.asString_eq_ok_iff {d : Draft} {o : Outline} {s : String}
    (h : d.outline? = some o) : d.asString = .ok s ↔ o = .string (some s) := by
  unfold Draft.asString
  cases Draft.hasOutline_of_outline? h with
  | string s span => simp only [Reading.wanted_eq_ok_iff, Outline.string.injEq]
  | plain span hvalue =>
      split
      · next heq => cases heq; exact absurd rfl (hvalue _)
      · exact iff_of_false (Draft.refuse_ne_ok _ _ _) (by simp)
  | array | object => exact iff_of_false (Draft.refuse_ne_ok _ _ _) (by simp)

/-- A type is read where a text can be read that is the name of one. -/
theorem ColumnType.ofDraft_eq_ok_iff {d : Draft} {o : Outline} {type : ColumnType}
    (h : d.outline? = some o) :
    ofDraft d = .ok type ↔ ∃ name, o = .string (some name) ∧ type.Called name := by
  simp only [← Draft.asString_eq_ok_iff h, ← ofName_eq_ok_iff]
  have hrefuse : d.refuse "a string" = .ok type ↔
      ∃ name, d.refuse "a string" = .ok name ∧ ofName name = .ok type :=
    iff_of_false (d.refuse_ne_ok _ _) fun ⟨_, h, _⟩ => d.refuse_ne_ok _ _ h
  cases d with
  | scalar value span =>
      cases value with
      | string s => simp only [ofDraft, Draft.asString, bind_eq_ok_iff, mapError_eq_ok_iff]
      | null | bool | number => exact hrefuse
  | array | object | missing => exact hrefuse

theorem columnsOfMembers_eq_ok_iff {members : List (Key × Draft)}
    {outlines : List (Option String × Outline)} {columns : List Column}
    (h : memberOutlines? members = some outlines) :
    columnsOfMembers members = .ok columns ↔
      List.Forall₂ Outline.DefinesColumn outlines columns := by
  induction members generalizing outlines columns with
  | nil =>
      cases h
      rw [List.forall₂_nil_left_iff]
      exact ⟨fun h => (Except.ok.inj h).symm, fun h => congrArg _ h.symm⟩
  | cons member rest ih =>
      obtain ⟨key, value⟩ := member
      obtain ⟨o, os, ho, hos, rfl⟩ := memberOutlines?_cons_iff.1 h
      simp only [columnsOfMembers, bind_eq_ok_iff, Reading.wanted_eq_ok_iff,
        ColumnType.ofDraft_eq_ok_iff ho, ih hos, List.forall₂_cons_left_iff, Outline.DefinesColumn,
        Except.ok.injEq]
      constructor
      · rintro ⟨name, hname, type, htype, columns', hcolumns, rfl⟩
        exact ⟨⟨name, type⟩, columns', ⟨hname, htype⟩, hcolumns, rfl⟩
      · rintro ⟨⟨name, type⟩, columns', ⟨hname, htype⟩, hcolumns, rfl⟩
        exact ⟨name, hname, type, htype, columns', hcolumns, rfl⟩

theorem Schema.ofDraft_eq_ok_iff {d : Draft} {o : Outline} {s : Schema} (h : d.outline? = some o) :
    ofDraft d = .ok s ↔ o.DefinesColumns s := by
  unfold ofDraft
  cases Draft.hasOutline_of_outline? h with
  | object start stop hmembers =>
      simp only [bind_eq_ok_iff, columnsOfMembers_eq_ok_iff hmembers, Json.closing,
        mapError_eq_ok_iff, ofColumns_eq_ok_iff, Except.ok.injEq, exists_eq_left',
        Outline.DefinesColumns, Outline.object.injEq]
      constructor
      · rintro ⟨columns, hcolumns, rfl⟩
        exact hcolumns
      · intro hcolumns
        exact ⟨_, hcolumns, rfl⟩
  | string | plain | array =>
      refine iff_of_false (Draft.refuse_ne_ok _ _ _) ?_
      rintro ⟨_, h, _⟩
      cases h

/-! ## Entries -/

namespace Json.Outline

theorem valuesOf_cons (key : String) (member : Option String × Outline)
    (members : List (Option String × Outline)) :
    valuesOf key (member :: members) =
      if member.1 = some key then member.2 :: valuesOf key members else valuesOf key members := by
  unfold valuesOf
  rw [List.filter_cons]
  simp only [decide_eq_true_eq]
  split <;> rfl

/-- Whether a field of an entry is `a`, where `found` is what earlier members gave for it and
`values` are the values that later ones give. It has to be given once. -/
def GivenOnce {α : Type} (r : Outline → α → Prop) (found : Option α) (values : List Outline)
    (a : α) : Prop :=
  match found with
  | none => ∃ value, values = [value] ∧ r value a
  | some a' => values = [] ∧ a' = a

theorem givenOnce_cons_iff {α : Type} {r : Outline → α → Prop} {found : Option α} {value : Outline}
    {values : List Outline} {a : α} :
    GivenOnce r found (value :: values) a ↔
      found = none ∧ ∃ a', r value a' ∧ GivenOnce r (some a') values a := by
  cases found with
  | none => simp [GivenOnce, and_comm]
  | some a' => simp [GivenOnce]

end Json.Outline

open Json.Outline (GivenOnce givenOnce_cons_iff valuesOf valuesOf_cons)

namespace TableDefinition

theorem ofMembers_eq_ok_iff {stop : Nat} {members : List (Key × Draft)}
    {outlines : List (Option String × Outline)} (h : memberOutlines? members = some outlines)
    {name : Option String} {columns : Option Schema} {d : TableDefinition} :
    ofMembers (.ok stop) name columns members = .ok d ↔
      (∀ member ∈ outlines, member.1.isSome) ∧
      GivenOnce (fun value text => value = .string (some text)) name (valuesOf "name" outlines)
        d.name ∧
      GivenOnce Outline.DefinesColumns columns (valuesOf "columns" outlines) d.columns := by
  induction members generalizing outlines name columns with
  | nil =>
      cases h
      obtain ⟨name', columns'⟩ := d
      cases name <;> cases columns <;> simp [ofMembers, Json.closing, GivenOnce, valuesOf]
  | cons member rest ih =>
      obtain ⟨key, value⟩ := member
      obtain ⟨o, os, ho, hos, rfl⟩ := memberOutlines?_cons_iff.1 h
      unfold ofMembers
      simp only [valuesOf_cons, List.forall_mem_cons]
      cases hfield : key.name with
      | error fault =>
        refine iff_of_false ?_ ?_
        · intro h
          cases h
        · rintro ⟨⟨hkey, -⟩, -⟩
          cases hkey
      | ok field =>
        simp only [Reading.wanted, ok_bind, Except.toOption, Option.isSome_some, true_and,
          Option.some.injEq]
        by_cases hname : field = "name"
        · subst hname
          simp only [if_true, String.reduceEq, if_false, givenOnce_cons_iff]
          cases name with
          -- a second name is refused by the reader, and too many for the grammar
          | some earlier => simp
          | none =>
              simp only [Option.isSome_none, Bool.false_eq_true, if_false, bind_eq_ok_iff,
                Draft.asString_eq_ok_iff ho, ih hos, true_and]
              constructor
              · rintro ⟨text, htext, hkeys, hname, hcolumns⟩
                exact ⟨hkeys, ⟨text, htext, hname⟩, hcolumns⟩
              · rintro ⟨hkeys, ⟨text, htext, hname⟩, hcolumns⟩
                exact ⟨text, htext, hkeys, hname, hcolumns⟩
        · simp only [hname, if_false]
          by_cases hcolumns : field = "columns"
          · subst hcolumns
            simp only [if_true, givenOnce_cons_iff]
            cases columns with
            | some earlier => simp
            | none =>
                simp only [Option.isSome_none, Bool.false_eq_true, if_false, bind_eq_ok_iff,
                  Schema.ofDraft_eq_ok_iff ho, ih hos, true_and]
                constructor
                · rintro ⟨schema, hschema, hkeys, hname, hcolumns⟩
                  exact ⟨hkeys, hname, schema, hschema, hcolumns⟩
                · rintro ⟨hkeys, hname, schema, hschema, hcolumns⟩
                  exact ⟨schema, hschema, hkeys, hname, hcolumns⟩
          -- whatever stands under another key is passed over, as it is well-formed
          · simp only [hcolumns, if_false, Draft.pass_of_outline? ho, ok_bind, ih hos]

theorem ofItems_eq_ok_iff {stop : Nat} {items : List Draft} {outlines : List Outline}
    (h : itemOutlines? items = some outlines) {d : TableDefinition} :
    ofItems (.ok stop) items = .ok d ↔ ∃ columns,
      outlines = [.string (some d.name), columns] ∧ columns.DefinesColumns d.columns := by
  match items with
  | [] =>
      cases h
      exact iff_of_false (fun h => nomatch h) (by simp)
  | [name] =>
      obtain ⟨o, os, ho, hos, rfl⟩ := itemOutlines?_cons_iff.1 h
      cases hos
      refine iff_of_false (fun h => ?_) (by simp)
      obtain ⟨_, -, h⟩ := bind_eq_ok_iff.1 h
      cases h
  | [name, columns] =>
      obtain ⟨o, os, ho, hos, rfl⟩ := itemOutlines?_cons_iff.1 h
      obtain ⟨o', os', ho', hos', rfl⟩ := itemOutlines?_cons_iff.1 hos
      cases hos'
      simp only [ofItems, checkEnd, ok_bind, bind_eq_ok_iff, Draft.asString_eq_ok_iff ho,
        Schema.ofDraft_eq_ok_iff ho', Except.ok.injEq]
      constructor
      · rintro ⟨name', rfl, columns', hcolumns, rfl⟩
        exact ⟨o', rfl, hcolumns⟩
      · rintro ⟨columns', heq, hcolumns⟩
        cases heq
        exact ⟨_, rfl, _, hcolumns, rfl⟩
  | name :: columns :: intruder :: rest =>
      obtain ⟨o, os, -, hos, rfl⟩ := itemOutlines?_cons_iff.1 h
      obtain ⟨o', os', -, hos', rfl⟩ := itemOutlines?_cons_iff.1 hos
      obtain ⟨o'', os'', -, -, rfl⟩ := itemOutlines?_cons_iff.1 hos'
      refine iff_of_false (fun h => ?_) (by simp)
      obtain ⟨_, -, h⟩ := bind_eq_ok_iff.1 h
      obtain ⟨_, -, h⟩ := bind_eq_ok_iff.1 h
      cases h

theorem ofDraft_eq_ok_iff {draft : Draft} {o : Outline} {d : TableDefinition}
    (h : draft.outline? = some o) : ofDraft draft = .ok d ↔ o.IsEntry d := by
  unfold ofDraft
  cases Draft.hasOutline_of_outline? h with
  | object start stop hmembers =>
      rw [ofMembers_eq_ok_iff hmembers]
      constructor
      · rintro ⟨hkeys, ⟨_, hname, rfl⟩, columns, hcolumns, hdefines⟩
        exact .object hkeys hname hcolumns hdefines
      · intro hentry
        cases hentry with
        | object hkeys hname hcolumns hdefines =>
            exact ⟨hkeys, ⟨_, hname, rfl⟩, _, hcolumns, hdefines⟩
  | array start stop hitems =>
      rw [ofItems_eq_ok_iff hitems]
      constructor
      · rintro ⟨columns, rfl, hcolumns⟩
        exact .array hcolumns
      · intro hentry
        cases hentry with
        | array hcolumns => exact ⟨_, rfl, hcolumns⟩
  | string | plain =>
      refine iff_of_false (Draft.refuse_ne_ok _ _ _) ?_
      intro hentry
      cases hentry

end TableDefinition

/-! ## Catalogs -/

namespace CatalogEntries

theorem ofMembers_cons_eq_ok_iff {stop : Nat} {entries found : CatalogEntries} {key : Key}
    {value : Draft} {rest : List (Key × Draft)} {o : Outline} (h : value.outline? = some o) :
    ofMembers (.ok stop) entries ((key, value) :: rest) = .ok found ↔
      ∃ name d, key.name.toOption = some name ∧ o.IsEntry d ∧
        ofMembers (.ok stop) (entries.insert name d) rest = .ok found := by
  simp only [ofMembers, bind_eq_ok_iff, Reading.wanted_eq_ok_iff,
    TableDefinition.ofDraft_eq_ok_iff h, exists_and_left]

theorem exists_ofMembers_iff {stop : Nat} {entries : CatalogEntries} {members : List (Key × Draft)}
    {outlines : List (Option String × Outline)} (h : memberOutlines? members = some outlines) :
    (∃ found, ofMembers (.ok stop) entries members = .ok found) ↔
      ∀ member ∈ outlines, member.1.isSome ∧ ∃ d, member.2.IsEntry d := by
  induction members generalizing outlines entries with
  | nil =>
      cases h
      exact iff_of_true ⟨_, rfl⟩ (fun _ hmember => absurd hmember List.not_mem_nil)
  | cons member rest ih =>
      obtain ⟨key, value⟩ := member
      obtain ⟨o, os, ho, hos, rfl⟩ := memberOutlines?_cons_iff.1 h
      simp only [List.forall_mem_cons, ofMembers_cons_eq_ok_iff ho]
      constructor
      · rintro ⟨found, name, d, hname, hd, hrest⟩
        exact ⟨⟨Option.isSome_of_eq_some hname, d, hd⟩, (ih hos).1 ⟨found, hrest⟩⟩
      · rintro ⟨⟨hname, d, hd⟩, hrest⟩
        obtain ⟨name, hname⟩ := Option.isSome_iff_exists.1 hname
        obtain ⟨found, hfound⟩ := (ih hos).2 hrest
        exact ⟨found, name, d, hname, hd, hfound⟩

/-- What stands under a key when the members have been read: the entry that the last of them gives
for it, or what stood there before. -/
theorem get?_of_ofMembers {stop : Nat} {entries found : CatalogEntries}
    {members : List (Key × Draft)} {outlines : List (Option String × Outline)}
    (h : memberOutlines? members = some outlines)
    (hfound : ofMembers (.ok stop) entries members = .ok found) {key : String}
    {d : TableDefinition} :
    found.get? key = some d ↔
      (∃ value, (valuesOf key outlines).getLast? = some value ∧ value.IsEntry d) ∨
        valuesOf key outlines = [] ∧ entries.get? key = some d := by
  induction members generalizing outlines entries with
  | nil =>
      cases h
      cases hfound
      simp [valuesOf]
  | cons member rest ih =>
      obtain ⟨key', value⟩ := member
      obtain ⟨o, os, ho, hos, rfl⟩ := memberOutlines?_cons_iff.1 h
      obtain ⟨name, d', hname, hd', hrest⟩ := (ofMembers_cons_eq_ok_iff ho).1 hfound
      -- a draft is read as one entry only
      have hentry : o.IsEntry d ↔ d' = d := by
        rw [← TableDefinition.ofDraft_eq_ok_iff ho] at hd' ⊢
        rw [hd', Except.ok.injEq]
      rw [ih hos hrest, valuesOf_cons, hname, Dictionary.get?_insert]
      by_cases hkey : key = name
      · subst hkey
        cases hvalues : valuesOf key os with
        | nil => simp [hentry]
        | cons first later => simp
      · rw [if_neg hkey, if_neg fun heq => hkey (Option.some.inj heq).symm]

theorem exists_ofDraft_iff {draft : Draft} {o : Outline} (h : draft.outline? = some o) :
    (∃ found, ofDraft draft = .ok found) ↔ o.IsCatalog := by
  unfold ofDraft Outline.IsCatalog
  cases Draft.hasOutline_of_outline? h with
  | object start stop hmembers => simp [exists_ofMembers_iff hmembers]
  | string | plain | array =>
      exact iff_of_false (fun ⟨_, h⟩ => Draft.refuse_ne_ok _ _ _ h) (by simp)

theorem get?_of_ofDraft {draft : Draft} {o : Outline} (h : draft.outline? = some o)
    {found : CatalogEntries} (hfound : ofDraft draft = .ok found) (key : String)
    (d : TableDefinition) : found.get? key = some d ↔ o.LastEntry key d := by
  unfold ofDraft at hfound
  cases Draft.hasOutline_of_outline? h with
  | object start stop hmembers =>
      rw [get?_of_ofMembers hmembers hfound, Dictionary.get?_empty]
      simp [Outline.LastEntry]
  | string | plain | array => exact absurd hfound (Draft.refuse_ne_ok _ _ _)

end CatalogEntries

/-! ## The main result -/

namespace Json

theorem Document.outline?_eq_some_iff {document : Document} {o : Outline} :
    document.outline? = some o ↔ document.excess = none ∧ document.root.outline? = some o := by
  unfold Document.outline?
  cases document.excess <;> simp

theorem Document.read_eq_ok_iff {α : Type} {text : String} {reader : Draft → Reading α} {a : α}
    (h : (ofString text).excess = none) :
    read text reader = .ok a ↔ reader (ofString text).root = .ok a := by
  simp only [read, Reading.within, mapError_eq_ok_iff, h, bind_eq_ok_iff, Except.ok.injEq,
    exists_eq_right]

end Json

namespace Catalog

theorem exists_run_load_iff {path : Path} {bytes : List UInt8} {w : World}
    (hread : w.files.read path = .ok bytes) {catalog : Catalog} :
    (∃ w', (load path).run w = (.ok catalog, w')) ↔
      catalog.path = path ∧ entriesOfBytes path bytes = .ok catalog.entries := by
  constructor
  · rintro ⟨w', h⟩
    cases hentries : entriesOfBytes path bytes with
    | error cause =>
        unfold load at h
        rw [Action.run_world_bind] at h
        simp only [hread, hentries] at h
        cases h
    | ok entries =>
        rw [run_load_of_read hread hentries] at h
        cases h
        exact ⟨rfl, rfl⟩
  · rintro ⟨rfl, hentries⟩
    exact ⟨_, run_load_of_read hread hentries⟩

theorem entriesOfBytes_encode_eq_ok_iff {path : Path} {text : String} {o : Outline}
    (h : (Json.Document.ofString text).outline? = some o) {entries : CatalogEntries} :
    entriesOfBytes path (Text.encode text) = .ok entries ↔
      CatalogEntries.ofDraft (Json.Document.ofString text).root = .ok entries := by
  have hexcess := (Json.Document.outline?_eq_some_iff.1 h).1
  unfold entriesOfBytes
  rw [Text.decode?_encode, ← Json.Document.read_eq_ok_iff hexcess]
  exact mapError_eq_ok_iff

/-- **The reader of catalogs accepts exactly the catalogs.** A file that holds a well-formed
document is opened if and only if the document is a catalog. Under each key there is then the last
entry that the document has for it, and a catalog that is written anew is opened again with the same
entries. -/
theorem opens_iff_isCatalog {w : World} {path : Path} {text : String} {o : Outline}
    (hread : w.files.read path = .ok (Text.encode text))
    (ho : (Json.Document.ofString text).outline? = some o) :
    ((∃ catalog w', (load path).run w = (.ok catalog, w')) ↔ o.IsCatalog) ∧
      ∀ catalog w', (load path).run w = (.ok catalog, w') →
        catalog.path = path ∧
        (∀ key d, catalog.entries.get? key = some d ↔ o.LastEntry key d) ∧
        ∀ w₁ w₂, catalog.write.run w₁ = (.ok (), w₂) →
          ∃ w₃, (load path).run w₂ = (.ok catalog, w₃) := by
  have hroot := (Json.Document.outline?_eq_some_iff.1 ho).2
  constructor
  · simp only [exists_run_load_iff hread, entriesOfBytes_encode_eq_ok_iff ho,
      ← CatalogEntries.exists_ofDraft_iff hroot]
    constructor
    · rintro ⟨catalog, -, hentries⟩
      exact ⟨_, hentries⟩
    · rintro ⟨entries, hentries⟩
      exact ⟨⟨path, entries⟩, rfl, hentries⟩
  · intro catalog w' h
    obtain ⟨rfl, hentries⟩ := (exists_run_load_iff hread).1 ⟨w', h⟩
    rw [entriesOfBytes_encode_eq_ok_iff ho] at hentries
    refine ⟨rfl, CatalogEntries.get?_of_ofDraft hroot hentries, ?_⟩
    intro w₁ w₂ hwrite
    obtain ⟨bytes, hbytes, hagain⟩ := document_of_write hwrite
    exact (exists_run_load_iff hbytes).2 ⟨rfl, hagain⟩

/-- A catalog in which the first of two entries for one table is an array, and the last one has a
member that is no part of an entry. -/
def overriding : Json :=
  .object [("parts", .array [.string "old", .object []]),
    ("parts", .object [("columns", .object [("weight", .string "Int")]), ("note", .null),
      ("name", .string "new")])]

/-- The files when that catalog stands at its usual place. -/
def overridingFiles : FileTree :=
  ⟨[(["catalog.json", "data"], .file (Text.encode overriding.pretty)), (["data"], .directory)],
    [], []⟩

/-- The entry that overrides the first one. -/
def overridingEntry : TableDefinition := ⟨"new", ⟨[⟨"weight", .integer⟩], by decide⟩⟩

theorem isEntry_overridingEntry : (Outline.object
    [(some "columns", .object [(some "weight", .string (some "Int"))]), (some "note", .plain),
      (some "name", .string (some "new"))]).IsEntry overridingEntry := by
  have hcalled : ColumnType.integer.Called "Int" := by
    refine ⟨"int", by decide, ?_⟩
    rw [Text.SameLetters, ← String.toList_inj, String.toList_map, String.toList_map]
    decide
  exact .object (by simp) rfl rfl ⟨_, rfl, .cons ⟨rfl, "Int", rfl, hcalled⟩ .nil⟩

theorem isCatalog_overriding : overriding.outline.IsCatalog := by
  have hempty : (Outline.object []).DefinesColumns ⟨[], by decide⟩ := ⟨[], rfl, .nil⟩
  refine ⟨_, rfl, List.forall_mem_cons.2 ⟨⟨rfl, _, .array hempty⟩, ?_⟩⟩
  exact List.forall_mem_singleton.2 ⟨rfl, _, isEntry_overridingEntry⟩

/-- The table is opened with the entry that overrides the first one. -/
theorem opens_iff_isCatalog_overriding :
    ∃ catalog w, (load Config.standard.catalogPath).run (World.ofFiles overridingFiles) =
      (.ok catalog, w) ∧ catalog.entries.get? "parts" = some overridingEntry := by
  have hread : overridingFiles.read Config.standard.catalogPath =
      .ok (Text.encode overriding.pretty) := rfl
  have hnumberless : overriding.Numberless :=
    ⟨⟨trivial, trivial, trivial⟩, ⟨⟨trivial, trivial⟩, trivial, trivial, trivial⟩, trivial⟩
  have ho := Json.outline?_ofString_pretty hnumberless
  obtain ⟨hopens, hentries⟩ := opens_iff_isCatalog (w := World.ofFiles overridingFiles) hread ho
  obtain ⟨catalog, w, hcatalog⟩ := hopens.2 isCatalog_overriding
  refine ⟨catalog, w, hcatalog, ((hentries _ _ hcatalog).2.1 _ _).2 ?_⟩
  exact ⟨_, _, rfl, rfl, isEntry_overridingEntry⟩

end Catalog

end FlatTables
