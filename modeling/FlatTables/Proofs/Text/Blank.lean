import FlatTables.Text.Blank
import Mathlib.Data.List.DropRight

set_option autoImplicit false

/-! # Blanks around a text

Numbers are trimmed before they are read. Trimming finds what stands between the blanks at the two
ends of a text (`Text.trim_eq_iff`), and leaves a text without blanks as it is. Digits are no
blanks. -/

namespace FlatTables

/-! ## Trimming -/

namespace Text

variable {cs core before after : List Char}

/-- Whether `cs` is `core` with blanks around it, where `core` neither begins nor ends with one. -/
structure Trims (cs core : List Char) : Prop where
  around : ∃ before after, cs = before ++ core ++ after ∧
    (∀ c ∈ before, isBlank c = true) ∧ ∀ c ∈ after, isBlank c = true
  first : ∀ c ∈ core.head?, isBlank c = false
  last : ∀ c ∈ core.getLast?, isBlank c = false

theorem trimEnd_eq_rdropWhile (cs : List Char) : trimEnd cs = cs.rdropWhile isBlank := rfl

theorem dropWhile_of_head? (h : ∀ c ∈ cs.head?, isBlank c = false) :
    cs.dropWhile isBlank = cs := by
  cases cs with
  | nil => rfl
  | cons c rest => exact List.dropWhile_cons_of_neg (by simp [h c rfl])

theorem trimEnd_append (hafter : ∀ c ∈ after, isBlank c = true)
    (hlast : ∀ c ∈ core.getLast?, isBlank c = false) : trimEnd (core ++ after) = core := by
  have hreverse : ∀ c ∈ after.reverse, isBlank c = true := fun c hc =>
    hafter c (List.mem_reverse.1 hc)
  rw [← List.head?_reverse] at hlast
  rw [trimEnd, List.reverse_append, List.dropWhile_append_of_pos hreverse, dropWhile_of_head? hlast,
    List.reverse_reverse]

theorem trims_trim (cs : List Char) : Trims cs (trim cs) where
  around := by
    refine ⟨cs.takeWhile isBlank, (cs.dropWhile isBlank).rtakeWhile isBlank, ?_, ?_, ?_⟩
    · rw [trim, trimEnd_eq_rdropWhile, List.append_assoc, List.rdropWhile_append_rtakeWhile,
        List.takeWhile_append_dropWhile]
    · exact fun c hc => List.mem_takeWhile_imp hc
    · exact fun c hc => List.mem_rtakeWhile_imp hc
  first := by
    intro c hc
    -- the first character is still that of the text before its end was cut
    obtain ⟨tail, htail⟩ := List.rdropWhile_prefix isBlank (cs.dropWhile isBlank)
    obtain ⟨rest, hrest⟩ := List.head?_eq_some_iff.1 hc
    rw [← trimEnd_eq_rdropWhile, ← trim, hrest] at htail
    have hhead := List.head?_dropWhile_not isBlank cs
    rwa [← htail] at hhead
  last := by
    intro c hc
    obtain ⟨hne, rfl⟩ := List.mem_getLast?_eq_getLast hc
    exact eq_false_of_ne_true (List.rdropWhile_last_not isBlank _ hne)

/-- Dropping the blanks at both ends leaves what stands between them. -/
theorem trim_eq_iff : trim cs = core ↔ Trims cs core := by
  constructor
  · rintro rfl
    exact trims_trim cs
  · rintro ⟨⟨before, after, rfl, hbefore, hafter⟩, hfirst, hlast⟩
    rw [trim, List.append_assoc, List.dropWhile_append_of_pos hbefore]
    cases core with
    | nil =>
        rw [List.nil_append, List.dropWhile_eq_nil_iff.2 hafter]
        rfl
    | cons c rest =>
        rw [List.cons_append, List.dropWhile_cons_of_neg (by simp [hfirst c rfl]),
          ← List.cons_append, trimEnd_append hafter hlast]

theorem trims_of_forall_not (hbefore : ∀ c ∈ before, isBlank c = true)
    (hafter : ∀ c ∈ after, isBlank c = true) (hcore : ∀ c ∈ core, isBlank c = false) :
    Trims (before ++ core ++ after) core where
  around := ⟨before, after, rfl, hbefore, hafter⟩
  first := fun c hc => hcore c (List.mem_of_mem_head? hc)
  last := fun c hc => hcore c (List.mem_of_mem_getLast? hc)

/-- A text without blanks is left as it is. -/
theorem trim_of_forall_not (h : ∀ c ∈ cs, isBlank c = false) : trim cs = cs := by
  have htrims : Trims ([] ++ cs ++ []) cs := trims_of_forall_not (by simp) (by simp) h
  rw [List.nil_append, List.append_nil] at htrims
  exact trim_eq_iff.2 htrims

end Text

/-! ## Digits -/

/-- Digits have the codes from 48 to 57. -/
theorem toNat_of_isDigit {c : Char} (h : c.isDigit = true) : 48 ≤ c.toNat ∧ c.toNat ≤ 57 := by
  rw [Char.isDigit, Bool.and_eq_true, decide_eq_true_eq, decide_eq_true_eq] at h
  exact ⟨UInt32.le_iff_toNat_le.1 h.1, UInt32.le_iff_toNat_le.1 h.2⟩

/-- Blanks have codes up to that of the space, or beyond ASCII. -/
theorem Text.toNat_of_isBlank {c : Char} (h : isBlank c = true) :
    c.toNat ≤ 32 ∨ 133 ≤ c.toNat := by
  simp only [isBlank, Bool.or_eq_true, Bool.and_eq_true, decide_eq_true_eq, beq_iff_eq,
    Char.le_def, UInt32.le_iff_toNat_le] at h
  rcases h with (((((((((h | rfl) | rfl) | rfl) | rfl) | h) | rfl) | rfl) | rfl) | rfl) | rfl
  · exact .inl (Nat.le_trans h.2 (by decide))
  · exact .inl (by decide)
  · exact .inr (by decide)
  · exact .inr (by decide)
  · exact .inr (by decide)
  · exact .inr (Nat.le_trans (by decide) h.1)
  · exact .inr (by decide)
  · exact .inr (by decide)
  · exact .inr (by decide)
  · exact .inr (by decide)
  · exact .inr (by decide)

theorem Text.isBlank_of_isDigit {c : Char} (h : c.isDigit = true) : isBlank c = false := by
  obtain ⟨hlower, hupper⟩ := toNat_of_isDigit h
  rw [← Bool.not_eq_true]
  intro hblank
  rcases toNat_of_isBlank hblank with hlow | hhigh
  · omega
  · omega

end FlatTables
