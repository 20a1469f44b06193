import FlatTables.Json.Draft
import FlatTables.Proofs.Json.Lexing

set_option autoImplicit false

/-! # Building drafts from printed values

Lexemes with the tokens of a value build a draft of that value, in whatever array or object the
value stands (`parses_of_tokens`). Together with the cutting of printed values this makes the
document of a printed value an undamaged one that holds the value (`ofString_pretty`). -/

namespace FlatTables.Json

/-! ## Values inside frames -/

/-- Whether lexemes build a draft of `j`, inside any frames. -/
def Parses (ls : List Lexeme) (j : Json) : Prop :=
  ∃ draft : Draft, draft.value? = some j ∧ ∃ l rest, ls = l :: rest ∧
    ∀ frames, ∃ p, beginValue? frames l = some p ∧ rest.foldl advance p = complete draft frames

theorem advance_of_advance? {p p' : Progress} {l : Lexeme} (h : advance? l p = some p') :
    advance p l = p' := by
  unfold advance
  rw [h]
  rfl

theorem advance_firstItem {start : Nat} {outer : List Frame} {l : Lexeme} {p : Progress}
    (h : beginValue? (.array start [] :: outer) l = some p) :
    advance (.firstItem start outer) l = p := by
  obtain ⟨token, span⟩ := l
  cases token <;> first | exact advance_of_advance? h | cases h

/-- A value that is expected, in any of the places where one can be. -/
theorem Parses.foldl_value {ls : List Lexeme} {j : Json} (h : Parses ls j) :
    ∃ draft : Draft, draft.value? = some j ∧
      (∀ frames, ls.foldl advance (.value frames) = complete draft frames) ∧
      (∀ start outer, ls.foldl advance (.firstItem start outer) =
        .itemEnd start [draft] outer) ∧
      ∀ start items outer, ls.foldl advance (.nextItem start items outer) =
        .itemEnd start (draft :: items) outer := by
  obtain ⟨draft, hvalue, l, rest, rfl, hparse⟩ := h
  refine ⟨draft, hvalue, fun frames => ?_, fun start outer => ?_, fun start items outer => ?_⟩
  · obtain ⟨p, hbegin, hrest⟩ := hparse frames
    rw [List.foldl_cons, advance_of_advance? (p := .value frames) hbegin, hrest]
  · obtain ⟨p, hbegin, hrest⟩ := hparse (.array start [] :: outer)
    rw [List.foldl_cons, advance_firstItem hbegin, hrest]
    rfl
  · obtain ⟨p, hbegin, hrest⟩ := hparse (.array start items :: outer)
    rw [List.foldl_cons, advance_of_advance? (p := .nextItem start items outer) hbegin, hrest]
    rfl

/-! ## Plain values of lists -/

theorem itemValues?_cons {draft : Draft} {drafts : List Draft} {j : Json} {items : List Json}
    (h : draft.value? = some j) (hrest : itemValues? drafts = some items) :
    itemValues? (draft :: drafts) = some (j :: items) := by
  unfold itemValues?
  rw [h, hrest]
  rfl

theorem memberValues?_cons {name : String} {span : Span} {draft : Draft}
    {drafts : List (Key × Draft)} {j : Json} {members : List (String × Json)}
    (h : draft.value? = some j) (hrest : memberValues? drafts = some members) :
    memberValues? ((⟨.ok name, span⟩, draft) :: drafts) = some ((name, j) :: members) := by
  unfold memberValues?
  rw [h, hrest]
  rfl

/-! ## Lexemes of given tokens -/

theorem exists_of_map_token_append {ls : List Lexeme} {toks toks' : List Token}
    (h : ls.map (·.token) = toks ++ toks') :
    ∃ ls₁ ls₂, ls = ls₁ ++ ls₂ ∧ ls₁.map (·.token) = toks ∧ ls₂.map (·.token) = toks' := by
  obtain ⟨ls₁, ls₂, rfl, h₁, h₂⟩ := List.map_eq_append_iff.1 h
  exact ⟨ls₁, ls₂, rfl, h₁, h₂⟩

theorem exists_of_map_token_cons {ls : List Lexeme} {token : Token} {toks : List Token}
    (h : ls.map (·.token) = token :: toks) :
    ∃ span rest, ls = ⟨token, span⟩ :: rest ∧ rest.map (·.token) = toks := by
  obtain ⟨⟨token', span⟩, rest, rfl, rfl, hrest⟩ := List.map_eq_cons_iff.1 h
  exact ⟨span, rest, rfl, hrest⟩

theorem exists_of_map_token_singleton {ls : List Lexeme} {token : Token}
    (h : ls.map (·.token) = [token]) : ∃ span, ls = [⟨token, span⟩] := by
  obtain ⟨span, rest, rfl, hrest⟩ := exists_of_map_token_cons h
  exact ⟨span, by rw [List.map_eq_nil_iff.1 hrest]⟩

theorem parses_scalar {ls : List Lexeme} {value : Scalar} {j : Json}
    (h : ls.map (·.token) = [.scalar value]) (hvalue : value.value? = some j) : Parses ls j := by
  obtain ⟨span, rfl⟩ := exists_of_map_token_singleton h
  exact ⟨.scalar value span, by rw [Draft.value?, hvalue], _, [], rfl, fun frames => ⟨_, rfl, rfl⟩⟩

mutual

/-- **Lexemes with the tokens of a value build a draft of it.** -/
theorem parses_of_tokens : ∀ (j : Json) {ls : List Lexeme},
    ls.map (·.token) = j.tokens → Parses ls j
  | .null, _, h => parses_scalar h rfl
  | .bool _, _, h => parses_scalar h rfl
  | .number _, _, h => parses_scalar h rfl
  | .string _, _, h => parses_scalar h rfl
  | .array items, ls, h => by
    obtain ⟨span, body, rfl, hbody⟩ := exists_of_map_token_cons h
    obtain ⟨inner, last, rfl, hitems, hlast⟩ := exists_of_map_token_append hbody
    obtain ⟨stop, rfl⟩ := exists_of_map_token_singleton hlast
    obtain ⟨drafts, hvalues, hfold⟩ := foldl_firstItems items hitems
    refine ⟨.array span.start drafts (.ok stop.stop), by rw [Draft.value?, hvalues]; rfl, _, _,
      rfl, fun frames => ⟨_, rfl, ?_⟩⟩
    rw [List.foldl_append]
    exact hfold span.start stop frames
  | .object members, ls, h => by
    obtain ⟨span, body, rfl, hbody⟩ := exists_of_map_token_cons h
    obtain ⟨inner, last, rfl, hmembers, hlast⟩ := exists_of_map_token_append hbody
    obtain ⟨stop, rfl⟩ := exists_of_map_token_singleton hlast
    obtain ⟨drafts, hvalues, hfold⟩ := foldl_firstMembers members hmembers
    refine ⟨.object span.start drafts (.ok stop.stop), by rw [Draft.value?, hvalues]; rfl, _, _,
      rfl, fun frames => ⟨_, rfl, ?_⟩⟩
    rw [List.foldl_append]
    exact hfold span.start stop frames

/-- All items of an array, and its end. -/
theorem foldl_firstItems : ∀ (items : List Json) {ls : List Lexeme},
    ls.map (·.token) = itemTokens true items →
      ∃ drafts, itemValues? drafts = some items ∧ ∀ start stop outer,
        [⟨.closeArray, stop⟩].foldl advance (ls.foldl advance (.firstItem start outer)) =
          complete (.array start drafts (.ok stop.stop)) outer
  | [], ls, h => by
    rw [List.map_eq_nil_iff.1 h]
    exact ⟨[], rfl, fun _ _ _ => rfl⟩
  | item :: rest, ls, h => by
    have htokens : ls.map (·.token) = item.tokens ++ itemTokens false rest := h
    obtain ⟨ls₁, ls₂, rfl, hitem, hrest⟩ := exists_of_map_token_append htokens
    obtain ⟨draft, hvalue, -, hfirst, -⟩ := (parses_of_tokens item hitem).foldl_value
    obtain ⟨drafts, hvalues, hfold⟩ := foldl_nextItems rest hrest
    refine ⟨draft :: drafts, itemValues?_cons hvalue hvalues, fun start stop outer => ?_⟩
    rw [List.foldl_append, hfirst, hfold, List.foldl_cons, advance_of_advance? rfl,
      List.reverse_append, List.reverse_reverse]
    rfl

/-- The items of an array behind the first. -/
theorem foldl_nextItems : ∀ (items : List Json) {ls : List Lexeme},
    ls.map (·.token) = itemTokens false items →
      ∃ drafts, itemValues? drafts = some items ∧ ∀ start acc outer,
        ls.foldl advance (.itemEnd start acc outer) =
          .itemEnd start (drafts.reverse ++ acc) outer
  | [], ls, h => by
    rw [List.map_eq_nil_iff.1 h]
    exact ⟨[], rfl, fun _ _ _ => rfl⟩
  | item :: rest, ls, h => by
    have htokens : ls.map (·.token) = .comma :: (item.tokens ++ itemTokens false rest) := h
    obtain ⟨comma, behind, rfl, hbehind⟩ := exists_of_map_token_cons htokens
    obtain ⟨ls₁, ls₂, rfl, hitem, hrest⟩ := exists_of_map_token_append hbehind
    obtain ⟨draft, hvalue, -, -, hnext⟩ := (parses_of_tokens item hitem).foldl_value
    obtain ⟨drafts, hvalues, hfold⟩ := foldl_nextItems rest hrest
    refine ⟨draft :: drafts, itemValues?_cons hvalue hvalues, fun start acc outer => ?_⟩
    rw [List.foldl_cons, advance_of_advance? rfl, List.foldl_append, hnext, hfold,
      List.reverse_cons, List.append_assoc]
    rfl

/-- All members of an object, and its end. -/
theorem foldl_firstMembers : ∀ (members : List (String × Json)) {ls : List Lexeme},
    ls.map (·.token) = memberTokens true members →
      ∃ drafts, memberValues? drafts = some members ∧ ∀ start stop outer,
        [⟨.closeObject, stop⟩].foldl advance (ls.foldl advance (.firstKey start outer)) =
          complete (.object start drafts (.ok stop.stop)) outer
  | [], ls, h => by
    rw [List.map_eq_nil_iff.1 h]
    exact ⟨[], rfl, fun _ _ _ => rfl⟩
  | (name, value) :: rest, ls, h => by
    have htokens : ls.map (·.token) =
        .scalar (.string (.ok name)) :: .colon :: (value.tokens ++ memberTokens false rest) := h
    obtain ⟨key, behind, rfl, hbehind⟩ := exists_of_map_token_cons htokens
    obtain ⟨colon, tail, rfl, htail⟩ := exists_of_map_token_cons hbehind
    obtain ⟨ls₁, ls₂, rfl, hitem, hrest⟩ := exists_of_map_token_append htail
    obtain ⟨draft, hvalue, hparse, -, -⟩ := (parses_of_tokens value hitem).foldl_value
    obtain ⟨drafts, hvalues, hfold⟩ := foldl_nextMembers rest hrest
    refine ⟨(⟨.ok name, key⟩, draft) :: drafts, memberValues?_cons hvalue hvalues,
      fun start stop outer => ?_⟩
    -- the key and the colon, the value, and then the members behind it
    have hmembers : (⟨.scalar (.string (.ok name)), key⟩ :: ⟨.colon, colon⟩ ::
        (ls₁ ++ ls₂)).foldl advance (.firstKey start outer) =
          .memberEnd start (drafts.reverse ++ [(⟨.ok name, key⟩, draft)]) outer := by
      rw [List.foldl_cons, advance_of_advance? rfl, List.foldl_cons, advance_of_advance? rfl,
        List.foldl_append, hparse, complete, hfold]
    rw [hmembers, List.foldl_cons, advance_of_advance? rfl, List.reverse_append,
      List.reverse_reverse]
    rfl

/-- The members of an object behind the first. -/
theorem foldl_nextMembers : ∀ (members : List (String × Json)) {ls : List Lexeme},
    ls.map (·.token) = memberTokens false members →
      ∃ drafts, memberValues? drafts = some members ∧ ∀ start acc outer,
        ls.foldl advance (.memberEnd start acc outer) =
          .memberEnd start (drafts.reverse ++ acc) outer
  | [], ls, h => by
    rw [List.map_eq_nil_iff.1 h]
    exact ⟨[], rfl, fun _ _ _ => rfl⟩
  | (name, value) :: rest, ls, h => by
    have htokens : ls.map (·.token) = .comma :: .scalar (.string (.ok name)) :: .colon ::
        (value.tokens ++ memberTokens false rest) := h
    obtain ⟨comma, behind, rfl, hbehind⟩ := exists_of_map_token_cons htokens
    obtain ⟨key, body, rfl, hbody⟩ := exists_of_map_token_cons hbehind
    obtain ⟨colon, tail, rfl, htail⟩ := exists_of_map_token_cons hbody
    obtain ⟨ls₁, ls₂, rfl, hitem, hrest⟩ := exists_of_map_token_append htail
    obtain ⟨draft, hvalue, hparse, -, -⟩ := (parses_of_tokens value hitem).foldl_value
    obtain ⟨drafts, hvalues, hfold⟩ := foldl_nextMembers rest hrest
    refine ⟨(⟨.ok name, key⟩, draft) :: drafts, memberValues?_cons hvalue hvalues,
      fun start acc outer => ?_⟩
    rw [List.foldl_cons, advance_of_advance? rfl, List.foldl_cons, advance_of_advance? rfl,
      List.foldl_cons, advance_of_advance? rfl, List.foldl_append, hparse, complete, hfold,
      List.reverse_cons, List.append_assoc]
    rfl

end

/-! ## Printed values -/

theorem map_token_lookOnward (size : Nat) (ls : List Lexeme) :
    (lookOnward size ls).map (·.token) = ls.map (·.token) := by
  induction ls with
  | nil => rfl
  | cons l rest ih =>
      rw [lookOnward.eq_def, List.map_cons, ih]
      rfl

/-- **A printed value is read as a whole**, by a document that holds it and nothing else. -/
theorem ofString_pretty {j : Json} (h : j.Numberless) :
    ∃ draft : Draft, draft.value? = some j ∧ Document.ofString j.pretty = ⟨draft, none⟩ := by
  obtain ⟨offset, hcut⟩ := lexes_pretty 0 h j.pretty.utf8ByteSize 0 []
  -- looking onward changes where tokens stand, not what they are
  have htokens : (lexemes j.pretty).map (·.token) = j.tokens := by
    unfold lexemes
    rw [map_token_lookOnward, pretty, String.toList_ofList]
    rw [List.append_nil] at hcut
    exact hcut.trans (List.append_nil _)
  obtain ⟨draft, hvalue, hparse, -, -⟩ := (parses_of_tokens j htokens).foldl_value
  refine ⟨draft, hvalue, ?_⟩
  unfold Document.ofString
  rw [hparse]
  rfl

end FlatTables.Json
