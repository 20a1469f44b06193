import FlatTables.File.Tree
import FlatTables.Proofs.Outcome

set_option autoImplicit false

/-! # Reading what was written

A file that was written is read back (`read_of_write`), files at other locations keep their content
(`read_of_write_of_ne`), and directories that were made are there (`extends_of_createDirectories`).
All this follows from one fact: no operation that succeeds here takes a directory away, so a path
that leads somewhere still leads there afterwards (`Extends.locate`). -/

namespace FlatTables.FileTree

variable {t t' t'' : FileTree} {p q : Path} {loc : Location}

/-! ## Trees with the same directories and more -/

/-- Whether `t'` has every directory of `t`, and relative paths start in the same one. -/
structure Extends (t t' : FileTree) : Prop where
  here : t'.here = t.here
  directory : ∀ loc, t.node? loc = some .directory → t'.node? loc = some .directory

namespace Extends

theorem refl (t : FileTree) : t.Extends t := ⟨rfl, fun _ h => h⟩

theorem trans (h : t.Extends t') (h' : t'.Extends t'') : t.Extends t'' :=
  ⟨h'.here.trans h.here, fun loc hloc => h'.directory loc (h.directory loc hloc)⟩

/-- Putting something where there is no directory. -/
theorem put (h : t.node? loc ≠ some .directory) (node : Node) : t.Extends (t.put loc node) := by
  refine ⟨rfl, fun other hother => ?_⟩
  -- the root is a directory in every tree, so nothing is put there
  have hloc : loc ≠ [] := fun hnil => h (by rw [hnil]; rfl)
  have hne : other ≠ loc := fun heq => h (heq ▸ hother)
  rw [node?_put t hloc, if_neg hne, hother]

theorem checkDirectory (h : t.Extends t') (hloc : t.checkDirectory loc = .ok ()) :
    t'.checkDirectory loc = .ok () := by
  unfold FileTree.checkDirectory at hloc ⊢
  split at hloc
  · next hdir => rw [h.directory loc hdir]
  · cases hloc
  · cases hloc

theorem enter (h : t.Extends t') {part : Path.Part} {next : Location}
    (hnext : t.enter loc part = .ok next) : t'.enter loc part = .ok next := by
  obtain ⟨_, hdir, hpart⟩ := bind_eq_ok_iff.1 hnext
  exact bind_eq_ok_iff.2 ⟨(), h.checkDirectory hdir, hpart⟩

theorem walk (h : t.Extends t') {parts : List Path.Part} {start : Location}
    (hwalk : t.walk start parts = .ok loc) : t'.walk start parts = .ok loc := by
  induction parts generalizing start with
  | nil => exact hwalk
  | cons part rest ih =>
      obtain ⟨next, hnext, hrest⟩ := bind_eq_ok_iff.1 hwalk
      exact bind_eq_ok_iff.2 ⟨next, h.enter hnext, ih hrest⟩

/-- A path that leads somewhere still leads there. -/
theorem locate (h : t.Extends t') (hloc : t.locate p = .ok loc) : t'.locate p = .ok loc := by
  obtain ⟨_, hcheck, hwalk⟩ := bind_eq_ok_iff.1 hloc
  have hstart : t'.startOf p = t.startOf p := by rw [startOf, startOf, h.here]
  exact bind_eq_ok_iff.2 ⟨(), hcheck, hstart ▸ h.walk hwalk⟩

end Extends

/-! ## Files -/

theorem find_eq_ok_file_iff {content : List UInt8} :
    t.find p = .ok (.file content) ↔
      ∃ loc, t.locate p = .ok loc ∧ t.node? loc = some (.file content) ∧
        p.endsInSlash = false := by
  unfold find
  rw [bind_eq_ok_iff]
  refine exists_congr fun loc => and_congr_right ?_
  intro _
  cases hnode : t.node? loc with
  | none => simp
  | some node =>
      cases node with
      | directory => simp
      | file content' => cases hslash : p.endsInSlash <;> simp

theorem read_eq_ok_iff {content : List UInt8} :
    t.read p = .ok content ↔ t.find p = .ok (.file content) := by
  unfold read
  rw [bind_eq_ok_iff]
  constructor
  · rintro ⟨node, hfind, hnode⟩
    cases node with
    | directory => cases hnode
    | file content' =>
        cases hnode
        exact hfind
  · intro hfind
    exact ⟨_, hfind, rfl⟩

theorem locateFile_eq_ok_iff :
    t.locateFile p = .ok loc ↔ p.endsInSlash = false ∧ t.locate p = .ok loc := by
  cases hslash : p.endsInSlash with
  | false => simp [locateFile, hslash]
  | true => simp [locateFile, hslash, bind_eq_ok_iff]

theorem write_eq_ok_iff {content : List UInt8} :
    t.write p content = .ok t' ↔
      ∃ loc, t.locate p = .ok loc ∧ p.endsInSlash = false ∧ t.node? loc ≠ some .directory ∧
        loc ∉ t.locked ∧ t' = t.put loc (.file content) := by
  unfold write
  rw [bind_eq_ok_iff]
  refine exists_congr ?_
  intro loc
  rw [locateFile_eq_ok_iff]
  by_cases hdir : t.node? loc = some .directory
  · simp [hdir, bind_eq_ok_iff]
  · by_cases hlocked : loc ∈ t.locked
    · simp [hdir, hlocked, checkUnlocked, bind_eq_ok_iff]
    · simp only [checkUnlocked, ne_eq, hdir, hlocked, not_false_eq_true, true_and]
      constructor
      · rintro ⟨⟨hslash, hloc⟩, h⟩
        cases h
        exact ⟨hloc, hslash, rfl⟩
      · rintro ⟨hloc, hslash, rfl⟩
        exact ⟨⟨hslash, hloc⟩, rfl⟩

/-- **A file that was written is read back.** -/
theorem read_of_write {content : List UInt8} (h : t.write p content = .ok t') :
    t'.read p = .ok content := by
  obtain ⟨loc, hloc, hslash, hdir, -, rfl⟩ := write_eq_ok_iff.1 h
  have hroot : loc ≠ [] := fun hnil => hdir (by rw [hnil]; rfl)
  refine read_eq_ok_iff.2 (find_eq_ok_file_iff.2 ⟨loc, (Extends.put hdir _).locate hloc, ?_, hslash⟩)
  rw [node?_put t hroot, if_pos rfl]

theorem extends_of_write {content : List UInt8} (h : t.write p content = .ok t') :
    t.Extends t' := by
  obtain ⟨loc, -, -, hdir, -, rfl⟩ := write_eq_ok_iff.1 h
  exact .put hdir _

/-- A file at another location keeps its content. -/
theorem read_of_write_of_ne {content content' : List UInt8} (h : t.write p content = .ok t')
    (hread : t.read q = .ok content') (hne : t'.locate q ≠ t'.locate p) :
    t'.read q = .ok content' := by
  have hextends := extends_of_write h
  obtain ⟨loc, hloc, -, hdir, -, rfl⟩ := write_eq_ok_iff.1 h
  obtain ⟨loc', hloc', hnode, hslash⟩ := find_eq_ok_file_iff.1 (read_eq_ok_iff.1 hread)
  have hroot : loc ≠ [] := fun hnil => hdir (by rw [hnil]; rfl)
  -- paths that lead to one place before the write still do so after it
  have hother : loc' ≠ loc := by
    rintro rfl
    exact hne (by rw [hextends.locate hloc, hextends.locate hloc'])
  refine read_eq_ok_iff.2 (find_eq_ok_file_iff.2 ⟨loc', hextends.locate hloc', ?_, hslash⟩)
  rw [node?_put t hroot, if_neg hother, hnode]

theorem put_put (t : FileTree) (loc : Location) (node node' : Node) :
    (t.put loc node).put loc node' = t.put loc node' := by
  unfold put
  rw [List.filter_cons_of_neg (by simp), List.filter_filter]
  simp only [Bool.and_self]

/-- A file that was written can be written again, and what it held in between is gone. -/
theorem write_of_write {content : List UInt8} (h : t.write p content = .ok t')
    (content' : List UInt8) :
    ∃ t'', t.write p content' = .ok t'' ∧ t'.write p content' = .ok t'' := by
  obtain ⟨loc, hloc, hslash, hdir, hlocked, rfl⟩ := write_eq_ok_iff.1 h
  have hroot : loc ≠ [] := fun hnil => hdir (by rw [hnil]; rfl)
  refine ⟨_, write_eq_ok_iff.2 ⟨loc, hloc, hslash, hdir, hlocked, rfl⟩,
    write_eq_ok_iff.2 ⟨loc, (Extends.put hdir _).locate hloc, hslash, ?_, hlocked, ?_⟩⟩
  · rw [node?_put t hroot, if_pos rfl]
    nofun
  · rw [put_put]

/-- Whether a file can be written does not depend on its content. -/
theorem write_error {content : List UInt8} {e : FileError} (h : t.write p content = .error e)
    (content' : List UInt8) : t.write p content' = .error e := by
  unfold write at h ⊢
  cases hloc : t.locateFile p with
  | error cause =>
      rw [hloc] at h
      cases h
      rfl
  | ok loc =>
      simp only [hloc, ok_bind] at h ⊢
      by_cases hdir : t.node? loc = some .directory
      · simp only [if_pos hdir] at h ⊢
        exact h
      · by_cases hlocked : loc ∈ t.locked
        · simp only [if_neg hdir, checkUnlocked, if_pos hlocked] at h ⊢
          exact h
        · simp only [if_neg hdir, checkUnlocked, if_neg hlocked] at h
          cases h

/-! ## Directories -/

theorem isDirectory_iff :
    t.isDirectory p = true ↔ ∃ loc, t.locate p = .ok loc ∧ t.node? loc = some .directory := by
  have hfind : t.find p = .ok .directory ↔
      ∃ loc, t.locate p = .ok loc ∧ t.node? loc = some .directory := by
    unfold find
    rw [bind_eq_ok_iff]
    refine exists_congr fun loc => and_congr_right ?_
    intro _
    cases hnode : t.node? loc with
    | none => simp
    | some node =>
        cases node with
        | directory => simp
        | file content => cases hslash : p.endsInSlash <;> simp
  rw [← hfind, isDirectory]
  split
  · next h => simp [h]
  · next h => simpa using h

theorem Extends.isDirectory (h : t.Extends t') (hdir : t.isDirectory p = true) :
    t'.isDirectory p = true := by
  obtain ⟨loc, hloc, hnode⟩ := isDirectory_iff.1 hdir
  exact isDirectory_iff.2 ⟨loc, h.locate hloc, h.directory loc hnode⟩

/-- Providing a directory takes none away, and afterwards the parts lead to one. -/
theorem extends_of_provide {start : Location} {parts : List Path.Part}
    (h : t.provide start parts = .ok t') : t.Extends t' ∧
      (parts = [] ∨ ∃ loc, t'.walk start parts = .ok loc ∧ t'.node? loc = some .directory) := by
  induction parts generalizing start with
  | nil =>
      cases h
      exact ⟨.refl t, .inl rfl⟩
  | cons part rest ih =>
      cases rest with
      | nil =>
          obtain ⟨target, htarget, h⟩ := bind_eq_ok_iff.1 h
          have hwalk : t.walk start [part] = .ok target :=
            bind_eq_ok_iff.2 ⟨target, htarget, rfl⟩
          split at h
          · next hnode =>
              cases h
              exact ⟨.refl t, .inr ⟨target, hwalk, hnode⟩⟩
          · cases h
          · next hnode =>
              obtain ⟨_, -, h⟩ := bind_eq_ok_iff.1 h
              cases h
              have hroot : target ≠ [] := fun hnil => by
                rw [hnil] at hnode
                cases hnode
              have hextends : t.Extends (t.put target .directory) := .put (by simp [hnode]) _
              refine ⟨hextends, .inr ⟨target, hextends.walk hwalk, ?_⟩⟩
              rw [node?_put t hroot, if_pos rfl]
      | cons part' rest =>
          obtain ⟨next, hnext, h⟩ := bind_eq_ok_iff.1 h
          obtain ⟨hextends, hnil | ⟨loc, hwalk, hnode⟩⟩ := ih h
          · cases hnil
          · refine ⟨hextends, .inr ⟨loc, ?_, hnode⟩⟩
            exact bind_eq_ok_iff.2 ⟨next, hextends.enter hnext, hwalk⟩

theorem settle_eq_ok_iff {result : Except FileError FileTree} :
    t.settle result = (.ok (), t') ↔ result = .ok t' := by
  cases result <;> simp [settle]

/-- However many directories around it have to be made first, the last step provides the one asked
for. -/
theorem exists_provide_of_createParts {start : Location} {parts names : List Path.Part}
    (h : t.createParts start parts names = (.ok (), t')) :
    ∃ t₀, t.Extends t₀ ∧ t₀.provide start parts = .ok t' := by
  induction names generalizing parts t' with
  | nil => exact ⟨t, .refl t, settle_eq_ok_iff.1 h⟩
  | cons name outer ih =>
      unfold createParts at h
      split at h
      · split at h
        · next t₀ houter =>
            obtain ⟨t₁, hextends, hprovide⟩ := ih houter
            have hextends' := hextends.trans (extends_of_provide hprovide).1
            exact ⟨t₀, hextends', settle_eq_ok_iff.1 h⟩
        · next hfailed => exact absurd h (hfailed t')
      · exact ⟨t, .refl t, settle_eq_ok_iff.1 h⟩

theorem splitAtSlashes_ne_nil {current : List Char} (h : current ≠ []) (cs : List Char) :
    Path.splitAtSlashes current cs ≠ [] := by
  induction cs generalizing current with
  | nil => simp [Path.splitAtSlashes, h]
  | cons c cs ih =>
      unfold Path.splitAtSlashes
      split
      · simp [h]
      · exact ih (List.cons_ne_nil c current)

/-- A path without parts is nothing but slashes. -/
theorem isAbsolute_of_parts_eq_nil (hne : p.text ≠ "") (h : p.parts = []) :
    p.isAbsolute = true := by
  unfold Path.parts at h
  rw [List.map_eq_nil_iff] at h
  unfold Path.isAbsolute
  cases hchars : p.text.toList with
  | nil => exact absurd (String.toList_eq_nil_iff.1 hchars) hne
  | cons c cs =>
      rw [hchars, Path.splitAtSlashes] at h
      by_cases hslash : c = '/'
      · rw [hslash]
        rfl
      · rw [if_neg hslash] at h
        exact absurd h (splitAtSlashes_ne_nil (List.cons_ne_nil c []) cs)

/-- **Directories that were made are there**, and none is taken away. -/
theorem extends_of_createDirectories (h : t.createDirectories p = (.ok (), t')) :
    t.Extends t' ∧ (p.text = "" ∨ t'.isDirectory p = true) := by
  unfold createDirectories at h
  split at h
  · next hempty =>
      cases h
      exact ⟨.refl t, .inl hempty⟩
  · next hne =>
      split at h
      · cases h
      · next hcheck =>
          obtain ⟨t₀, hextends, hprovide⟩ := exists_provide_of_createParts h
          obtain ⟨hextends', hwalk⟩ := extends_of_provide hprovide
          have hall := hextends.trans hextends'
          have hstart : t'.startOf p = t.startOf p := by rw [startOf, startOf, hall.here]
          refine ⟨hall, .inr (isDirectory_iff.2 ?_)⟩
          -- a path of slashes only leads to the root, which needs no making
          rcases hwalk with hparts | ⟨loc, hwalk, hnode⟩
          · refine ⟨[], bind_eq_ok_iff.2 ⟨(), hcheck, ?_⟩, rfl⟩
            rw [hparts, startOf, isAbsolute_of_parts_eq_nil hne hparts, if_pos rfl]
            rfl
          · exact ⟨loc, bind_eq_ok_iff.2 ⟨(), hcheck, hstart ▸ hwalk⟩, hnode⟩

end FlatTables.FileTree
