import FlatTables.Proofs.File.Change

set_option autoImplicit false

/-! # Joining paths

What stands between the slashes of a path that was joined is what stands between those of its two
halves, as long as the second does not begin with a slash (`Path.parts_join`). So the joined path
leads on from where the first half leads (`FileTree.place_join`), and every location on the way of
the first half is on the way of the joined path. -/

namespace FlatTables

namespace Path

/-! ## Texts between slashes -/

theorem splitAtSlashes_append_slash (current cs rest : List Char) :
    splitAtSlashes current (cs ++ '/' :: rest) =
      splitAtSlashes current cs ++ splitAtSlashes [] rest := by
  induction cs generalizing current with
  | nil =>
      rw [List.nil_append, splitAtSlashes, splitAtSlashes, if_pos rfl]
      split
      · rw [List.nil_append]
      · rw [List.singleton_append]
  | cons c cs ih =>
      rw [List.cons_append, splitAtSlashes, splitAtSlashes]
      split
      · split
        · exact ih []
        · rw [ih [], List.cons_append]
      · exact ih (c :: current)

/-- A text without slashes is one part. -/
theorem splitAtSlashes_of_not_mem {current cs : List Char} (hcs : '/' ∉ cs)
    (hne : current ≠ [] ∨ cs ≠ []) :
    splitAtSlashes current cs = [String.ofList (current.reverse ++ cs)] := by
  induction cs generalizing current with
  | nil =>
      obtain hcurrent : current ≠ [] := hne.resolve_right fun h => h rfl
      rw [splitAtSlashes, if_neg (by simpa using hcurrent), List.append_nil]
  | cons c cs ih =>
      obtain ⟨hc, hcs⟩ := not_or.1 (mt List.mem_cons.2 hcs)
      rw [splitAtSlashes, if_neg (Ne.symm hc), ih hcs (.inl (List.cons_ne_nil c current))]
      simp

/-- Whether a text can be joined to a path and leads on from there. -/
def LeadsOn (part : String) : Prop := part.toList.head? ≠ some '/'

theorem leadsOn_of_not_mem {part : String} (h : '/' ∉ part.toList) : LeadsOn part :=
  fun hhead => h (List.mem_of_mem_head? hhead)

theorem join_eq {part : String} (p : Path) (h : LeadsOn part) :
    p.join part =
      if p.text = "" then ⟨part⟩
      else if p.endsInSlash then ⟨p.text ++ part⟩
      else ⟨p.text ++ "/" ++ part⟩ := by
  have hhead : (part.toList.head? == some '/') = false := by simpa [LeadsOn] using h
  unfold join
  simp [hhead]

theorem exists_eq_append_slash {p : Path} (h : p.endsInSlash = true) :
    ∃ cs, p.text.toList = cs ++ ['/'] := by
  have hlast : p.text.toList.getLast? = some '/' := by simpa [endsInSlash] using h
  obtain ⟨cs, hcs⟩ := List.getLast?_eq_some_iff.1 hlast
  exact ⟨cs, hcs⟩

/-- **The parts of a joined path** are those of its halves. -/
theorem parts_join {part : String} (p : Path) (h : LeadsOn part) :
    (p.join part).parts = p.parts ++ parts ⟨part⟩ := by
  rw [join_eq p h]
  unfold parts
  rw [← List.map_append]
  split
  · next hempty =>
      rw [hempty]
      rfl
  · split
    -- the slash at the end of the first half is one between two parts, of which the second is empty
    · next hslash =>
        obtain ⟨cs, hcs⟩ := exists_eq_append_slash hslash
        have hfirst := splitAtSlashes_append_slash [] cs []
        have hboth := splitAtSlashes_append_slash [] cs part.toList
        rw [String.toList_append, hcs, List.append_assoc, List.singleton_append, hboth, hfirst]
        simp [splitAtSlashes]
    · rw [String.toList_append, String.toList_append, List.append_assoc]
      exact congrArg _ (splitAtSlashes_append_slash [] p.text.toList part.toList)

/-- A joined path starts where its first half does. -/
theorem isAbsolute_join {part : String} (p : Path) (h : LeadsOn part) :
    (p.join part).isAbsolute = p.isAbsolute := by
  have hhead : (part.toList.head? == some '/') = false := by simpa [LeadsOn] using h
  rw [join_eq p h]
  unfold isAbsolute
  split
  · next hempty =>
      rw [hempty]
      exact hhead
  · next hne =>
      obtain ⟨c, cs, hchars⟩ : ∃ c cs, p.text.toList = c :: cs :=
        List.exists_cons_of_ne_nil fun hnil => hne (String.toList_eq_nil_iff.1 hnil)
      split <;> simp [hchars]

/-- The parts of a text without slashes. -/
theorem parts_of_not_mem {part : String} (h : '/' ∉ part.toList) :
    parts ⟨part⟩ = if part = "" then [] else [Part.ofText part] := by
  unfold parts
  split
  · next hempty =>
      rw [hempty]
      rfl
  · next hne =>
      rw [splitAtSlashes_of_not_mem h (.inr fun hnil => hne (String.toList_eq_nil_iff.1 hnil))]
      simp

/-- A text that is a name: it is not empty, holds no slash and leads to no directory around. -/
structure IsName (part : String) : Prop where
  slash : '/' ∉ part.toList
  ne_empty : part ≠ ""
  ne_here : part ≠ "."
  ne_up : part ≠ ".."

theorem IsName.parts {part : String} (h : IsName part) : parts ⟨part⟩ = [.name part] := by
  rw [parts_of_not_mem h.slash, if_neg h.ne_empty, Part.ofText, if_neg h.ne_here, if_neg h.ne_up]

theorem IsName.leadsOn {part : String} (h : IsName part) : LeadsOn part := leadsOn_of_not_mem h.slash

end Path

/-! ## Where a joined path leads -/

namespace FileTree

open FlatTables.Path (LeadsOn IsName)

variable {p : Path} {part : String}

theorem origin_join (here : Location) (p : Path) (h : LeadsOn part) :
    origin here (p.join part) = origin here p := by
  rw [origin, origin, Path.isAbsolute_join p h]

/-- **A joined path leads on from where its first half leads.** -/
theorem place_join (here : Location) (p : Path) (h : LeadsOn part) :
    place here (p.join part) = target (place here p) (Path.parts ⟨part⟩) := by
  rw [place, origin_join here p h, Path.parts_join p h]
  exact List.foldl_append

theorem place_join_name (here : Location) (p : Path) (h : IsName part) :
    place here (p.join part) = part :: place here p := by
  rw [place_join here p h.leadsOn, h.parts]
  rfl

theorem place_join_empty (here : Location) (p : Path) :
    place here (p.join "") = place here p :=
  place_join here p (by simp [LeadsOn])

theorem mem_way_iff {here loc : Location} :
    loc ∈ way here p ↔
      ∃ front, front <+: p.parts.filter (· ≠ .here) ∧ target (origin here p) front = loc := by
  simp [way]

/-- A path leads through the place to which it leads. -/
theorem place_mem_way (here : Location) (p : Path) : place here p ∈ way here p :=
  mem_way_iff.2 ⟨_, List.prefix_refl _, target_filter_here _ _⟩

/-- A path that was joined with a name leads through one more location. -/
theorem mem_way_join_name {here loc : Location} (h : IsName part) :
    loc ∈ way here (p.join part) ↔ loc ∈ way here p ∨ loc = part :: place here p := by
  have hparts : (p.join part).parts.filter (· ≠ .here) =
      p.parts.filter (· ≠ .here) ++ [.name part] := by
    rw [Path.parts_join p h.leadsOn, h.parts, List.filter_append]
    rfl
  have hlast : target (origin here p) (p.parts.filter (· ≠ .here) ++ [.name part]) =
      part :: place here p := by
    rw [place, ← target_filter_here (origin here p) p.parts]
    exact List.foldl_append
  rw [mem_way_iff, mem_way_iff, hparts, origin_join here p h.leadsOn]
  constructor
  · rintro ⟨front, hfront, rfl⟩
    rcases List.prefix_concat_iff.1 hfront with rfl | hfront
    · exact .inr hlast
    · exact .inl ⟨front, hfront, rfl⟩
  · rintro (⟨front, hfront, rfl⟩ | rfl)
    · exact ⟨front, hfront.trans (List.prefix_append _ _), rfl⟩
    · exact ⟨_, List.prefix_refl _, hlast⟩

theorem way_join_empty (here : Location) (p : Path) : way here (p.join "") = way here p := by
  have h : LeadsOn "" := by simp [LeadsOn]
  rw [way, way, origin_join here p h, Path.parts_join p h]
  simp [Path.parts, Path.splitAtSlashes]

end FileTree

end FlatTables
