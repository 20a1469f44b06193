import FlatTables.Json.Lexeme
import FlatTables.Json.Printer

set_option autoImplicit false

/-! # Cutting printed values

A printed value is cut into the tokens that it was made of, whatever follows it (`lexes_pretty`).
The statements are about tokens only, and leave out where they stand: a text `Lexes` to a list of
tokens when an automaton that is between two tokens gives these and is between two tokens again.
That relation composes, so the proofs follow the printer.

Numbers are left out. How their texts are read is a matter of its own, and nothing that is printed
here holds one. -/

namespace FlatTables.Json

/-! ## Tokens of a value -/

mutual

/-- The tokens of a value. -/
def tokens : Json → List Token
  | .null => [.scalar .null]
  | .bool b => [.scalar (.bool b)]
  | .number n => [.scalar (.number (.ok n))]
  | .string s => [.scalar (.string (.ok s))]
  | .array items => .openArray :: (itemTokens true items ++ [.closeArray])
  | .object members => .openObject :: (memberTokens true members ++ [.closeObject])

/-- The tokens of the items of an array, with a comma before each but the first. -/
def itemTokens (first : Bool) : List Json → List Token
  | [] => []
  | item :: rest => (if first then [] else [.comma]) ++ (item.tokens ++ itemTokens false rest)

/-- The tokens of the members of an object, with a comma before each but the first. -/
def memberTokens (first : Bool) : List (String × Json) → List Token
  | [] => []
  | (key, value) :: rest =>
    (if first then [] else [.comma]) ++
      (.scalar (.string (.ok key)) :: .colon :: (value.tokens ++ memberTokens false rest))

end

mutual

/-- Whether a value holds no number. -/
def Numberless : Json → Prop
  | .number _ => False
  | .array items => NumberlessItems items
  | .object members => NumberlessMembers members
  | _ => True

def NumberlessItems : List Json → Prop
  | [] => True
  | item :: rest => item.Numberless ∧ NumberlessItems rest

def NumberlessMembers : List (String × Json) → Prop
  | [] => True
  | (_, value) :: rest => value.Numberless ∧ NumberlessMembers rest

end

/-! ## Texts that are cut into given tokens -/

/-- The tokens of the characters that are still to be read. -/
def cut (size offset : Nat) (mode : Mode) (cs : List Char) : List Token :=
  (lexemesFrom size offset mode cs).map (·.token)

theorem cut_cons (size offset : Nat) (mode : Mode) (c : Char) (cs : List Char) :
    cut size offset mode (c :: cs) =
      (step size offset mode c).1.map (·.token) ++
        cut size (offset + c.utf8Size) (step size offset mode c).2 cs := by
  simp only [cut, lexemesFrom, List.map_append]

/-- A character that completes no token. -/
theorem cut_cons_of_step {size offset : Nat} {mode mode' : Mode} {c : Char}
    (h : step size offset mode c = ([], mode')) (cs : List Char) :
    cut size offset mode (c :: cs) = cut size (offset + c.utf8Size) mode' cs := by
  rw [cut_cons, h]
  rfl

/-- Whether a text is cut into the given tokens where a token may start, so that a token may start
after it. -/
def Lexes (cs : List Char) (toks : List Token) : Prop :=
  ∀ size offset rest, ∃ offset',
    cut size offset .between (cs ++ rest) = toks ++ cut size offset' .between rest

namespace Lexes

theorem nil : Lexes [] [] := fun _ offset _ => ⟨offset, rfl⟩

theorem append {cs cs' : List Char} {toks toks' : List Token} (h : Lexes cs toks)
    (h' : Lexes cs' toks') : Lexes (cs ++ cs') (toks ++ toks') := by
  intro size offset rest
  obtain ⟨middle, hmiddle⟩ := h size offset (cs' ++ rest)
  obtain ⟨last, hlast⟩ := h' size middle rest
  exact ⟨last, by rw [List.append_assoc, hmiddle, hlast, List.append_assoc]⟩

/-- A character that is a token by itself. -/
theorem mark {c : Char} {token : Token} (h : ∀ size offset,
    step size offset .between c = ([.lone token offset (offset + 1)], .between)) :
    Lexes [c] [token] := by
  intro size offset rest
  refine ⟨offset + c.utf8Size, ?_⟩
  rw [List.singleton_append, cut_cons, h]
  rfl

theorem cons {c : Char} {token : Token} {cs : List Char} {toks : List Token}
    (h : Lexes [c] [token]) (h' : Lexes cs toks) : Lexes (c :: cs) (token :: toks) :=
  h.append h'

theorem openObject : Lexes ['\x7b'] [.openObject] := mark fun _ _ => rfl
theorem closeObject : Lexes ['\x7d'] [.closeObject] := mark fun _ _ => rfl
theorem openArray : Lexes ['['] [.openArray] := mark fun _ _ => rfl
theorem closeArray : Lexes [']'] [.closeArray] := mark fun _ _ => rfl
theorem comma : Lexes [','] [.comma] := mark fun _ _ => rfl
theorem colon : Lexes [':'] [.colon] := mark fun _ _ => rfl

theorem space {c : Char} {cs : List Char} {toks : List Token} (hc : isSpace c = true)
    (h : Lexes cs toks) : Lexes (c :: cs) toks := by
  intro size offset rest
  obtain ⟨offset', hrest⟩ := h size (offset + c.utf8Size) rest
  refine ⟨offset', ?_⟩
  have hstep : step size offset .between c = ([], .between) := by
    rw [step, begin, if_pos hc]
  rw [List.cons_append, cut_cons_of_step hstep, hrest]

theorem newline (level : Nat) : Lexes (newline level) [] := by
  refine space (by decide) ?_
  induction 2 * level with
  | zero => exact nil
  | succ n ih => exact space (by decide) ih

theorem append_newline {cs : List Char} {toks : List Token} (h : Lexes cs toks) (level : Nat) :
    Lexes (cs ++ Json.newline level) toks := by
  have happend := h.append (newline level)
  rwa [List.append_nil] at happend

theorem separator (first : Bool) :
    Lexes (if first then [] else [',']) (if first then [] else [.comma]) := by
  cases first with
  | true => exact nil
  | false => exact comma

end Lexes

/-! ## Strings -/

theorem hexValue?_digitChar {d : Nat} (h : d < 16) : hexValue? (Nat.digitChar d) = some d := by
  have hall : ∀ d : Fin 16, hexValue? (Nat.digitChar d) = some d.1 := by decide
  exact hall ⟨d, h⟩

/-- A string with the characters `acc`, latest first, and no fault. -/
def Inner.ofChars (acc : List Char) : Inner := ⟨acc, none, none⟩

theorem step_backslash (size offset start : Nat) (inner : Inner) :
    step size offset (.string start inner) '\\' = ([], .escape start inner) := rfl

theorem cut_shortEscape (size offset start : Nat) (acc : List Char) {c e : Char}
    (he : simpleEscape? e = some c) (hu : e ≠ 'u') (rest : List Char) : ∃ offset',
      cut size offset (.string start (.ofChars acc)) ('\\' :: e :: rest) =
        cut size offset' (.string start (.ofChars (c :: acc))) rest := by
  have hstep : ∀ offset, step size offset (.escape start (.ofChars acc)) e =
      ([], .string start (.ofChars (c :: acc))) := by
    intro offset
    simp only [step, if_neg hu, he]
    rfl
  rw [cut_cons_of_step (step_backslash ..), cut_cons_of_step (hstep _)]
  exact ⟨_, rfl⟩

theorem step_unit (size offset start first missing value : Nat) (inner : Inner) {d : Nat}
    (hd : d < 16) (hmissing : ¬missing ≤ 1) :
    step size offset (.unit start first missing value inner) (Nat.digitChar d) =
      ([], .unit start first (missing - 1) (16 * value + d) inner) := by
  simp only [step, hexValue?_digitChar hd, if_neg hmissing]

theorem step_lastUnit (size offset start first value : Nat) (inner : Inner) {d : Nat}
    (hd : d < 16) :
    step size offset (.unit start first 1 value inner) (Nat.digitChar d) =
      ([], .string start (inner.pushUnit (16 * value + d) (offset + 1))) := by
  simp only [step, hexValue?_digitChar hd, Nat.le_refl, if_true]

/-- A control character is written by its number, in four digits. -/
theorem cut_unitEscape (size offset start : Nat) (acc : List Char) {c : Char} (hc : c < ' ')
    (rest : List Char) : ∃ offset',
      cut size offset (.string start (.ofChars acc))
          ('\\' :: 'u' :: '0' :: '0' :: Nat.digitChar (c.toNat / 16) ::
            Nat.digitChar (c.toNat % 16) :: rest) =
        cut size offset' (.string start (.ofChars (c :: acc))) rest := by
  have hsmall : c.toNat < 32 := hc
  -- the four digits give the number again, and it is below the surrogates
  have hpush : ∀ offset, (Inner.ofChars acc).pushUnit
      (16 * (16 * (16 * (16 * 0 + 0) + 0) + c.toNat / 16) + c.toNat % 16) offset =
        .ofChars (c :: acc) := by
    intro offset
    rw [show 16 * (16 * (16 * (16 * 0 + 0) + 0) + c.toNat / 16) + c.toNat % 16 = c.toNat by omega]
    have hlow : ¬0xdc00 ≤ c.toNat := by omega
    have hhigh : ¬0xd800 ≤ c.toNat := by omega
    simp [Inner.pushUnit, Inner.ofChars, hlow, hhigh, Inner.push]
  have hunit : ∀ offset, step size offset (.escape start (.ofChars acc)) 'u' =
      ([], .unit start (offset + 1) 4 0 (.ofChars acc)) := fun _ => rfl
  have hzero : '0' = Nat.digitChar 0 := rfl
  have hlast : c.toNat % 16 < 16 := Nat.mod_lt _ (by decide)
  rw [cut_cons_of_step (step_backslash ..), cut_cons_of_step (hunit _), hzero,
    cut_cons_of_step (step_unit _ _ _ _ _ _ _ (by decide) (by decide)),
    cut_cons_of_step (step_unit _ _ _ _ _ _ _ (by decide) (by decide)),
    cut_cons_of_step (step_unit _ _ _ _ _ _ _ (by omega) (by decide)),
    cut_cons_of_step (step_lastUnit _ _ _ _ _ _ hlast), hpush]
  exact ⟨_, rfl⟩

/-- A character that is not escaped is taken as it is. -/
theorem cut_plainChar (size offset start : Nat) (acc : List Char) {c : Char} (hquote : c ≠ '"')
    (hslash : c ≠ '\\') (hc : ¬c < ' ') (rest : List Char) : ∃ offset',
      cut size offset (.string start (.ofChars acc)) (c :: rest) =
        cut size offset' (.string start (.ofChars (c :: acc))) rest := by
  have hstep : step size offset (.string start (.ofChars acc)) c =
      ([], .string start (.ofChars (c :: acc))) := by
    simp only [step, if_neg hslash, if_neg hquote, if_neg hc]
    rfl
  exact ⟨_, cut_cons_of_step hstep rest⟩

/-- What an escaped character adds to a string that is being read. -/
theorem cut_escapedChar (size offset start : Nat) (acc : List Char) (c : Char)
    (rest : List Char) : ∃ offset',
      cut size offset (.string start (.ofChars acc)) (escapedChar c ++ rest) =
        cut size offset' (.string start (.ofChars (c :: acc))) rest := by
  unfold escapedChar
  -- seven characters have short escapes, the control characters left over go by number
  split
  · next h => subst h; exact cut_shortEscape _ _ _ _ rfl (by decide) rest
  split
  · next h => subst h; exact cut_shortEscape _ _ _ _ rfl (by decide) rest
  split
  · next h => subst h; exact cut_shortEscape _ _ _ _ rfl (by decide) rest
  split
  · next h => subst h; exact cut_shortEscape _ _ _ _ rfl (by decide) rest
  split
  · next h => subst h; exact cut_shortEscape _ _ _ _ rfl (by decide) rest
  split
  · next h => subst h; exact cut_shortEscape _ _ _ _ rfl (by decide) rest
  split
  · next h => subst h; exact cut_shortEscape _ _ _ _ rfl (by decide) rest
  split
  · next hc => exact cut_unitEscape _ _ _ _ hc rest
  · next hquote hslash _ _ _ _ _ hc => exact cut_plainChar _ _ _ _ hquote hslash hc rest

theorem cut_stringRest (size offset start : Nat) (acc cs rest : List Char) : ∃ offset',
    cut size offset (.string start (.ofChars acc)) (cs.flatMap escapedChar ++ '"' :: rest) =
      .scalar (.string (.ok (String.ofList (acc.reverse ++ cs)))) ::
        cut size offset' .between rest := by
  induction cs generalizing offset acc with
  | nil =>
      -- the closing quote completes the token
      refine ⟨offset + '"'.utf8Size, ?_⟩
      rw [List.append_nil, List.flatMap_nil, List.nil_append, cut_cons]
      rfl
  | cons c cs ih =>
      obtain ⟨middle, hmiddle⟩ :=
        cut_escapedChar size offset start acc c (cs.flatMap escapedChar ++ '"' :: rest)
      obtain ⟨last, hlast⟩ := ih middle (c :: acc)
      refine ⟨last, ?_⟩
      rw [List.flatMap_cons, List.append_assoc, hmiddle, hlast, List.reverse_cons,
        List.append_assoc]
      rfl

/-- **A printed string is read back**, whatever characters it holds. -/
theorem lexes_stringChars (s : String) :
    Lexes (stringChars s) [.scalar (.string (.ok s))] := by
  intro size offset rest
  obtain ⟨offset', h⟩ := cut_stringRest size (offset + '"'.utf8Size) offset [] s.toList rest
  refine ⟨offset', ?_⟩
  unfold stringChars
  rw [List.cons_append, List.cons_append, List.append_assoc, cut_cons]
  -- the opening quote completes none
  change [] ++ cut size _ (.string offset (.ofChars [])) _ = _
  rw [List.nil_append, List.singleton_append, h, List.reverse_nil, List.nil_append,
    String.ofList_toList]
  rfl

/-! ## Values -/

theorem lexes_null : Lexes ['n', 'u', 'l', 'l'] [.scalar .null] :=
  fun _ offset _ => ⟨offset + 1 + 1 + 1 + 1, rfl⟩

theorem lexes_true : Lexes ['t', 'r', 'u', 'e'] [.scalar (.bool true)] :=
  fun _ offset _ => ⟨offset + 1 + 1 + 1 + 1, rfl⟩

theorem lexes_false : Lexes ['f', 'a', 'l', 's', 'e'] [.scalar (.bool false)] :=
  fun _ offset _ => ⟨offset + 1 + 1 + 1 + 1 + 1, rfl⟩

mutual

/-- **A printed value is cut into its tokens.** -/
theorem lexes_pretty (level : Nat) :
    ∀ {j : Json}, j.Numberless → Lexes (prettyChars level j) j.tokens
  | .null, _ => lexes_null
  | .bool true, _ => lexes_true
  | .bool false, _ => lexes_false
  | .string s, _ => lexes_stringChars s
  | .array [], _ => Lexes.openArray.cons .closeArray
  | .array (item :: rest), h => by
    have hitems := (lexes_prettyItems (level + 1) true h).append_newline level
    exact Lexes.openArray.cons (hitems.append .closeArray)
  | .object [], _ => Lexes.openObject.cons .closeObject
  | .object (member :: rest), h => by
    have hmembers := (lexes_prettyMembers (level + 1) true h).append_newline level
    exact Lexes.openObject.cons (hmembers.append .closeObject)

theorem lexes_prettyItems (level : Nat) (first : Bool) :
    ∀ {items : List Json}, NumberlessItems items →
      Lexes (prettyItems level first items) (itemTokens first items)
  | [], _ => .nil
  | item :: rest, h => by
    have hitem := ((Lexes.separator first).append_newline level).append (lexes_pretty level h.1)
    have hall := hitem.append (lexes_prettyItems level false h.2)
    rwa [List.append_assoc _ item.tokens] at hall

theorem lexes_prettyMembers (level : Nat) (first : Bool) :
    ∀ {members : List (String × Json)}, NumberlessMembers members →
      Lexes (prettyMembers level first members) (memberTokens first members)
  | [], _ => .nil
  | (key, value) :: rest, h => by
    have hkey := ((Lexes.separator first).append_newline level).append (lexes_stringChars key)
    have hvalue := (lexes_pretty level h.1).append (lexes_prettyMembers level false h.2)
    have hmember := hkey.append (Lexes.colon.cons (hvalue.space (c := ' ') (by decide)))
    unfold prettyMembers
    rw [memberTokens]
    simpa only [List.append_assoc, List.singleton_append, List.cons_append, List.nil_append]
      using hmember

end

end FlatTables.Json
