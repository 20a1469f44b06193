import FlatTables.Proofs.File.Tree
import Mathlib.Data.List.Infix

set_option autoImplicit false

/-! # What an operation on files changes

Where a path leads can be read off the path alone, if it leads anywhere (`locate_eq_place`). So an
operation on a file changes what stands at one location that is known before (`node?_of_write`,
`node?_of_remove`), and making directories adds directories on the way to the one asked for and
changes nothing else, whether it succeeds or fails (`grows_of_createDirectories`). Directories that
could not be made cannot be made when they are asked for again
(`exists_createDirectories_error`). -/

namespace FlatTables.FileTree

variable {t t' t'' : FileTree} {p q : Path} {loc start : Location} {parts : List Path.Part}

/-! ## Where a path leads -/

/-- The location one part further. -/
def along (loc : Location) : Path.Part → Location
  | .here => loc
  | .up => loc.tail
  | .name name => name :: loc

/-- The location to which the parts lead from `start`, if they lead anywhere. -/
def target (start : Location) (parts : List Path.Part) : Location := parts.foldl along start

/-- Where a path starts if relative paths start at `here`. -/
def origin (here : Location) (p : Path) : Location := if p.isAbsolute then [] else here

/-- The location to which a path leads, if it leads anywhere. -/
def place (here : Location) (p : Path) : Location := target (origin here p) p.parts

theorem enter_eq_along {part : Path.Part} {next : Location} (h : t.enter loc part = .ok next) :
    next = along loc part := by
  obtain ⟨_, -, h⟩ := bind_eq_ok_iff.1 h
  cases part with
  | here => exact (Except.ok.inj h).symm
  | up => exact (Except.ok.inj h).symm
  | name name =>
      dsimp only at h
      split at h
      · cases h
      · exact (Except.ok.inj h).symm

theorem walk_eq_target (h : t.walk start parts = .ok loc) : loc = target start parts := by
  induction parts generalizing start with
  | nil => exact (Except.ok.inj h).symm
  | cons part rest ih =>
      obtain ⟨next, hnext, hrest⟩ := bind_eq_ok_iff.1 h
      rw [ih hrest, enter_eq_along hnext]
      rfl

/-- **A path leads to a place that does not depend on what stands where.** -/
theorem locate_eq_place (h : t.locate p = .ok loc) : loc = place t.here p := by
  obtain ⟨_, -, hwalk⟩ := bind_eq_ok_iff.1 h
  exact walk_eq_target hwalk

/-- What is found at a path stands at its place. -/
theorem node?_of_find {node : Node} (h : t.find p = .ok node) :
    t.node? (place t.here p) = some node := by
  obtain ⟨loc, hloc, h⟩ := bind_eq_ok_iff.1 h
  rw [← locate_eq_place hloc]
  cases hnode : t.node? loc with
  | none => simp [hnode] at h
  | some found =>
      cases found with
      | directory =>
          simp only [hnode] at h
          rw [Except.ok.inj h]
      | file content =>
          simp only [hnode] at h
          split at h
          · cases h
          · rw [Except.ok.inj h]

/-! ## Files -/

/-- **Writing a file changes its place, and nothing else.** -/
theorem node?_of_write {content : List UInt8} (h : t.write p content = .ok t') (loc : Location) :
    t'.node? loc = if loc = place t.here p then some (.file content) else t.node? loc := by
  obtain ⟨loc', hloc, -, hdir, -, rfl⟩ := write_eq_ok_iff.1 h
  have hroot : loc' ≠ [] := fun hnil => hdir (by rw [hnil]; rfl)
  rw [node?_put t hroot, locate_eq_place hloc]

/-- A file at another place keeps its content. -/
theorem read_of_write_of_place_ne {content content' : List UInt8} (h : t.write p content = .ok t')
    (hread : t.read q = .ok content') (hne : place t.here q ≠ place t.here p) :
    t'.read q = .ok content' := by
  obtain ⟨loc, hloc, hnode, hslash⟩ := find_eq_ok_file_iff.1 (read_eq_ok_iff.1 hread)
  refine read_eq_ok_iff.2 (find_eq_ok_file_iff.2
    ⟨loc, (extends_of_write h).locate hloc, ?_, hslash⟩)
  rw [node?_of_write h, locate_eq_place hloc, if_neg hne, ← locate_eq_place hloc, hnode]

theorem remove_eq_ok_iff :
    t.remove p = .ok t' ↔ ∃ loc content, t.locate p = .ok loc ∧ t.node? loc = some (.file content) ∧
      p.endsInSlash = false ∧ loc ∉ t.locked ∧ t' = t.erase loc := by
  unfold remove
  rw [bind_eq_ok_iff]
  constructor
  · rintro ⟨node, hfind, h⟩
    cases node with
    | directory => cases h
    | file content =>
        obtain ⟨loc, hloc, hnode, hslash⟩ := find_eq_ok_file_iff.1 hfind
        obtain ⟨_, -, h⟩ := bind_eq_ok_iff.1 h
        obtain ⟨loc', hloc', h⟩ := bind_eq_ok_iff.1 h
        obtain rfl := Except.ok.inj (hloc.symm.trans hloc')
        obtain ⟨_, hunlocked, h⟩ := bind_eq_ok_iff.1 h
        unfold checkUnlocked at hunlocked
        split at hunlocked
        · cases hunlocked
        · next hlocked => exact ⟨loc, content, hloc, hnode, hslash, hlocked, (Except.ok.inj h).symm⟩
  · rintro ⟨loc, content, hloc, hnode, hslash, hlocked, rfl⟩
    refine ⟨_, find_eq_ok_file_iff.2 ⟨loc, hloc, hnode, hslash⟩, ?_⟩
    simp [hloc, checkUnlocked, hlocked]

/-- **Removing a file changes its place, and nothing else.** -/
theorem node?_of_remove (h : t.remove p = .ok t') (loc : Location) :
    t'.node? loc = if loc = place t.here p then none else t.node? loc := by
  obtain ⟨loc', content, hloc, hnode, -, -, rfl⟩ := remove_eq_ok_iff.1 h
  have hroot : loc' ≠ [] := fun hnil => by
    rw [hnil] at hnode
    cases hnode
  rw [node?_erase t hroot, locate_eq_place hloc]

theorem extends_of_remove (h : t.remove p = .ok t') : t.Extends t' := by
  obtain ⟨loc', content, hloc, hnode, -, -, rfl⟩ := remove_eq_ok_iff.1 h
  refine ⟨rfl, fun loc hdir => ?_⟩
  have hroot : loc' ≠ [] := fun hnil => by
    rw [hnil] at hnode
    cases hnode
  have hne : loc ≠ loc' := by
    rintro rfl
    rw [hnode] at hdir
    cases hdir
  rw [node?_erase t hroot, if_neg hne, hdir]

/-- Nothing is found at a path where there is nothing. -/
theorem contains_eq_false_of_node? (h : t.node? (place t.here p) = none) :
    t.contains p = false := by
  unfold contains
  cases hfind : t.find p with
  | error e => rfl
  | ok node =>
      rw [node?_of_find hfind] at h
      cases h

theorem contains_of_remove (h : t.remove p = .ok t') : t'.contains p = false := by
  refine contains_eq_false_of_node? ?_
  rw [node?_of_remove h, (extends_of_remove h).here, if_pos rfl]

/-- A file that was removed stays away, unless another path by which a file is written leads to the
same place. -/
theorem contains_of_write_of_remove {t'' : FileTree} {content : List UInt8}
    (hremove : t.remove p = .ok t') (hwrite : t'.write q content = .ok t'') :
    t''.contains p = false ↔ place t.here p ≠ place t.here q := by
  have hhere := (extends_of_remove hremove).here
  have hhere' := (extends_of_write hwrite).here.trans hhere
  by_cases hsame : place t.here p = place t.here q
  · obtain ⟨loc, _, hloc, -, hslash, -⟩ := remove_eq_ok_iff.1 hremove
    have hloc' := (extends_of_write hwrite).locate ((extends_of_remove hremove).locate hloc)
    have hnode : t''.node? loc = some (.file content) := by
      rw [node?_of_write hwrite, locate_eq_place hloc, hhere, if_pos hsame]
    have hfind := find_eq_ok_file_iff.2 ⟨loc, hloc', hnode, hslash⟩
    exact iff_of_false (by simp [contains, hfind]) (not_not.2 hsame)
  · refine iff_of_true (contains_eq_false_of_node? ?_) hsame
    rw [node?_of_write hwrite, hhere', hhere, if_neg hsame, node?_of_remove hremove, if_pos rfl]

/-- Whether `t'` is `t` with at most another file, or none, at the place to which `p` leads. -/
structure ChangesAt (p : Path) (t t' : FileTree) : Prop where
  toExtends : t.Extends t'
  locked : t'.locked = t.locked
  locate : ∃ loc, t'.locate p = .ok loc
  node? : ∀ loc, t'.node? loc = t.node? loc ∨ (t'.locate p = .ok loc ∧
    t.node? loc ≠ some .directory ∧ t'.node? loc ≠ some .directory)

/-- Writing and removing a file are changes at its place. -/
theorem changesAt_of_write {content : List UInt8} (h : t.write p content = .ok t') :
    ChangesAt p t t' := by
  have hextends := extends_of_write h
  obtain ⟨place, hplace, -, hdir, -, rfl⟩ := write_eq_ok_iff.1 h
  have hlocate := hextends.locate hplace
  refine ⟨hextends, rfl, ⟨place, hlocate⟩, fun loc => ?_⟩
  rw [node?_of_write h, ← locate_eq_place hplace]
  split
  · next heq => exact .inr ⟨heq ▸ hlocate, heq ▸ hdir, nofun⟩
  · exact .inl rfl

theorem changesAt_of_remove (h : t.remove p = .ok t') : ChangesAt p t t' := by
  have hextends := extends_of_remove h
  obtain ⟨place, content, hplace, hnode, -, -, rfl⟩ := remove_eq_ok_iff.1 h
  have hlocate := hextends.locate hplace
  refine ⟨hextends, rfl, ⟨place, hlocate⟩, fun loc => ?_⟩
  rw [node?_of_remove h, ← locate_eq_place hplace]
  split
  · next heq => exact .inr ⟨heq ▸ hlocate, by rw [heq, hnode]; nofun, nofun⟩
  · exact .inl rfl

/-! ## Directories -/

/-- Whether `t'` is `t` with directories added at some of the locations of `way`. -/
structure Grows (way : List Location) (t t' : FileTree) : Prop where
  here : t'.here = t.here
  locked : t'.locked = t.locked
  node? : ∀ loc, t'.node? loc = t.node? loc ∨
    (loc ∈ way ∧ t.node? loc = none ∧ t'.node? loc = some .directory)

namespace Grows

variable {way : List Location}

theorem refl (way : List Location) (t : FileTree) : Grows way t t :=
  ⟨rfl, rfl, fun _ => .inl rfl⟩

theorem trans (h : Grows way t t') (h' : Grows way t' t'') : Grows way t t'' := by
  refine ⟨h'.here.trans h.here, h'.locked.trans h.locked, fun loc => ?_⟩
  rcases h'.node? loc with hsame' | ⟨hway, hnone, hdir⟩
  · rw [hsame']
    exact h.node? loc
  · rcases h.node? loc with hsame | ⟨-, -, hdir'⟩
    · exact .inr ⟨hway, hsame ▸ hnone, hdir⟩
    · rw [hnone] at hdir'
      cases hdir'

theorem toExtends (h : Grows way t t') : t.Extends t' := by
  refine ⟨h.here, fun loc hdir => ?_⟩
  rcases h.node? loc with hsame | ⟨-, -, hdir'⟩
  · rw [hsame, hdir]
  · exact hdir'

/-- Off the way, everything is the same. -/
theorem node?_of_not_mem (h : Grows way t t') (hloc : loc ∉ way) : t'.node? loc = t.node? loc :=
  (h.node? loc).resolve_right fun ⟨hmem, _⟩ => hloc hmem

/-- The files are the same. -/
theorem node?_eq_file_iff (h : Grows way t t') {content : List UInt8} :
    t'.node? loc = some (.file content) ↔ t.node? loc = some (.file content) := by
  rcases h.node? loc with hsame | ⟨-, hnone, hdir⟩
  · rw [hsame]
  · rw [hnone, hdir]
    simp

end Grows

/-- The locations through which a path leads, where parts `.` lead nowhere. -/
def way (here : Location) (p : Path) : List Location :=
  (p.parts.filter (· ≠ .here)).inits.map (target (origin here p))

theorem target_filter_here (start : Location) (parts : List Path.Part) :
    target start (parts.filter (· ≠ .here)) = target start parts := by
  induction parts generalizing start with
  | nil => rfl
  | cons part rest ih =>
      cases part with
      | here => exact ih start
      | up => exact ih start.tail
      | name name => exact ih (name :: start)

section Making

variable {route : List Location} {result : Except FileError Unit}

theorem grows_of_provide (h : t.provide start parts = .ok t') (hroute : target start parts ∈ route) :
    Grows route t t' := by
  induction parts generalizing start with
  | nil =>
      cases h
      exact .refl route t
  | cons part rest ih =>
      cases rest with
      | nil =>
          obtain ⟨made, hmade, h⟩ := bind_eq_ok_iff.1 h
          obtain rfl := enter_eq_along hmade
          split at h
          · cases h
            exact .refl route t
          · cases h
          · next hnone =>
              obtain ⟨_, -, h⟩ := bind_eq_ok_iff.1 h
              cases h
              have hroot : along start part ≠ [] := fun hnil => by
                rw [hnil] at hnone
                cases hnone
              refine ⟨rfl, rfl, fun loc => ?_⟩
              rw [node?_put t hroot]
              split
              · next heq =>
                  subst heq
                  exact .inr ⟨hroute, hnone, rfl⟩
              · exact .inl rfl
      | cons part' rest =>
          obtain ⟨next, hnext, h⟩ := bind_eq_ok_iff.1 h
          obtain rfl := enter_eq_along hnext
          exact ih h hroute

theorem grows_of_settle (h : t.settle (t.provide start parts) = (result, t'))
    (hroute : target start parts ∈ route) : Grows route t t' := by
  cases hprovide : t.provide start parts with
  | error e =>
      rw [hprovide] at h
      cases h
      exact .refl route t
  | ok t₁ =>
      rw [hprovide] at h
      cases h
      exact grows_of_provide hprovide hroute

theorem grows_of_createParts {names : List Path.Part}
    (h : t.createParts start parts names = (result, t')) (hparts : target start parts ∈ route)
    (hnames : ∀ outer, outer <:+ names → target start outer.reverse ∈ route) : Grows route t t' := by
  induction names generalizing parts result t' with
  | nil => exact grows_of_settle h hparts
  | cons name outer ih =>
      have hsuffix : ∀ inner, inner <:+ outer → target start inner.reverse ∈ route :=
        fun inner hinner => hnames inner (hinner.trans (List.suffix_cons name outer))
      have houter := hsuffix outer (List.suffix_refl outer)
      unfold createParts at h
      split at h
      · split at h
        -- the directories around it were made first
        · next t₁ hmade => exact (ih hmade houter hsuffix).trans (grows_of_settle h hparts)
        · exact ih h houter hsuffix
      · exact grows_of_settle h hparts

/-- **Making directories adds directories on the way, and changes nothing else**, whether it
succeeds or fails. -/
theorem grows_of_createDirectories (h : t.createDirectories p = (result, t')) :
    Grows (way t.here p) t t' := by
  unfold createDirectories at h
  split at h
  · cases h
    exact .refl _ t
  · split at h
    · cases h
      exact .refl _ t
    · refine grows_of_createParts h ?_ ?_
      · rw [← target_filter_here]
        exact List.mem_map_of_mem ((List.mem_inits _ _).2 (List.prefix_refl _))
      · intro outer houter
        refine List.mem_map_of_mem ((List.mem_inits _ _).2 ?_)
        rw [← List.reverse_suffix, List.reverse_reverse]
        exact houter

end Making

/-! ## Directories that cannot be made -/

/-- Where there is a directory, there is nothing to make. -/
theorem provide_of_walk (hwalk : t.walk start parts = .ok loc)
    (hdir : t.node? loc = some .directory) : t.provide start parts = .ok t := by
  induction parts generalizing start with
  | nil => rfl
  | cons part rest ih =>
      obtain ⟨next, hnext, hrest⟩ := bind_eq_ok_iff.1 hwalk
      cases rest with
      | nil =>
          cases hrest
          exact bind_eq_ok_iff.2 ⟨_, hnext, by rw [hdir]⟩
      | cons part' rest => exact bind_eq_ok_iff.2 ⟨next, hnext, ih hrest⟩

theorem createParts_of_provide {names : List Path.Part} (h : t.provide start parts = .ok t') :
    t.createParts start parts names = (.ok (), t') := by
  cases names with
  | nil => exact settle_eq_ok_iff.2 h
  | cons name outer =>
      unfold createParts
      rw [h]
      rfl

/-- Directories that were made are not made again. -/
theorem createParts_of_createParts {names : List Path.Part}
    (h : t.createParts start parts names = (.ok (), t')) :
    t'.createParts start parts names = (.ok (), t') := by
  obtain ⟨t₀, -, hprovide⟩ := exists_provide_of_createParts h
  refine createParts_of_provide ?_
  rcases (extends_of_provide hprovide).2 with rfl | ⟨loc, hwalk, hdir⟩
  · rfl
  · exact provide_of_walk hwalk hdir

/-- Where there is a directory, making it changes nothing. -/
theorem createDirectories_of_isDirectory (h : t.isDirectory p = true) :
    t.createDirectories p = (.ok (), t) := by
  obtain ⟨loc, hloc, hdir⟩ := isDirectory_iff.1 h
  obtain ⟨_, hcheck, hwalk⟩ := bind_eq_ok_iff.1 hloc
  unfold createDirectories
  split
  · rfl
  · rw [hcheck]
    exact createParts_of_provide (provide_of_walk hwalk hdir)

theorem checkDirectory_eq_ok_iff : t.checkDirectory loc = .ok () ↔ t.node? loc = some .directory := by
  unfold checkDirectory
  split <;> simp_all

theorem walk_append_eq_ok_iff {rest : List Path.Part} :
    t.walk start (parts ++ rest) = .ok loc ↔
      ∃ between, t.walk start parts = .ok between ∧ t.walk between rest = .ok loc := by
  induction parts generalizing start with
  | nil =>
      constructor
      · intro h
        exact ⟨start, rfl, h⟩
      · rintro ⟨_, h, h'⟩
        cases h
        exact h'
  | cons part tail ih =>
      rw [List.cons_append, walk, walk, bind_eq_ok_iff]
      simp only [ih, bind_eq_ok_iff]
      constructor
      · rintro ⟨next, hnext, between, hwalk, hrest⟩
        exact ⟨between, ⟨next, hnext, hwalk⟩, hrest⟩
      · rintro ⟨between, ⟨next, hnext, hwalk⟩, hrest⟩
        exact ⟨next, hnext, between, hwalk, hrest⟩

theorem walk_filter_here (h : t.walk start parts = .ok loc) :
    t.walk start (parts.filter (· ≠ .here)) = .ok loc := by
  induction parts generalizing start with
  | nil => exact h
  | cons part rest ih =>
      obtain ⟨next, hnext, hrest⟩ := bind_eq_ok_iff.1 h
      cases part with
      | here =>
          obtain rfl := enter_eq_along hnext
          exact ih hrest
      | up => exact bind_eq_ok_iff.2 ⟨next, hnext, ih hrest⟩
      | name name => exact bind_eq_ok_iff.2 ⟨next, hnext, ih hrest⟩

/-- What stands around a directory that is there or was made is a directory. -/
theorem exists_walk_of_provide {last : Path.Part} (h : t.provide start (parts ++ [last]) = .ok t') :
    ∃ loc, t.walk start parts = .ok loc ∧ t.node? loc = some .directory := by
  induction parts generalizing start with
  | nil =>
      obtain ⟨made, hmade, -⟩ := bind_eq_ok_iff.1 h
      obtain ⟨_, hdir, -⟩ := bind_eq_ok_iff.1 hmade
      exact ⟨start, rfl, checkDirectory_eq_ok_iff.1 hdir⟩
  | cons part rest ih =>
      have hstep : ∃ next, t.enter start part = .ok next ∧
          t.provide next (rest ++ [last]) = .ok t' := by
        cases rest with
        | nil => exact bind_eq_ok_iff.1 h
        | cons part' rest => exact bind_eq_ok_iff.1 h
      obtain ⟨next, hnext, hrest⟩ := hstep
      obtain ⟨loc, hwalk, hdir⟩ := ih hrest
      exact ⟨loc, bind_eq_ok_iff.2 ⟨next, hnext, hwalk⟩, hdir⟩

/-- If the parts lead on from a directory, then the directories around the last name are there. -/
theorem provide_outer_of_walk {last : Path.Part} {outer : List Path.Part} {name : Path.Part}
    (hwalk : t.walk start parts = .ok loc) (hdir : t.node? loc = some .directory)
    (hparts : (parts ++ [last]).filter (· ≠ .here) = outer ++ [name]) :
    t.provide start outer = .ok t := by
  have hwalk := walk_filter_here hwalk
  by_cases hlast : last = .here
  -- a last part `.` stands for the directory that the name before it leads to
  · rw [List.filter_append, hlast] at hparts
    simp only [ne_eq, decide_not, decide_true, Bool.not_true, List.filter_cons_of_neg,
      List.filter_nil, List.append_nil, Bool.false_eq_true, not_false_eq_true] at hparts
    simp only [ne_eq, decide_not, hparts] at hwalk
    obtain ⟨between, hbetween, hname⟩ := walk_append_eq_ok_iff.1 hwalk
    obtain ⟨next, hnext, -⟩ := bind_eq_ok_iff.1 hname
    obtain ⟨_, hdir', -⟩ := bind_eq_ok_iff.1 hnext
    exact provide_of_walk hbetween (checkDirectory_eq_ok_iff.1 hdir')
  · rw [List.filter_append, List.filter_cons_of_pos (by simpa using hlast)] at hparts
    obtain ⟨hfront, -⟩ := List.append_inj' hparts rfl
    rw [hfront] at hwalk
    exact provide_of_walk hwalk hdir

/-- If a directory is there or can be made, then those around it are there. -/
theorem provide_outer {outer : List Path.Part} {name : Path.Part}
    (h : t.provide start parts = .ok t') (hparts : parts.filter (· ≠ .here) = outer ++ [name]) :
    t.provide start outer = .ok t := by
  rcases List.eq_nil_or_concat' parts with rfl | ⟨front, last, rfl⟩
  · simp at hparts
  · obtain ⟨loc, hwalk, hdir⟩ := exists_walk_of_provide h
    exact provide_outer_of_walk hwalk hdir hparts

theorem settle_eq_error_iff {provided : Except FileError FileTree} {e : FileError} :
    t.settle provided = (.error e, t') ↔ provided = .error e ∧ t' = t := by
  cases provided with
  | error e' => simp [settle, eq_comm]
  | ok t₁ => simp [settle]

/-- Whether the directories around it are made first depends on how the directory is refused. -/
theorem createParts_cons_of_provide {name : Path.Part} {outer : List Path.Part} {e : FileError}
    (h : t.provide start parts = .error e) :
    t.createParts start parts (name :: outer) =
      if e = .notFound then
        match t.createParts start outer.reverse outer with
        | (.ok (), t') => t'.settle (t'.provide start parts)
        | failed => failed
      else (.error e, t) := by
  rw [createParts, h]
  cases e <;> rfl

theorem exists_createParts_error {names : List Path.Part} {e : FileError}
    (hnames : parts.filter (· ≠ .here) = names.reverse)
    (h : t.createParts start parts names = (.error e, t')) :
    ∃ e', t'.createParts start parts names = (.error e', t') := by
  induction names generalizing parts t' e with
  | nil =>
      obtain ⟨-, rfl⟩ := settle_eq_error_iff.1 h
      exact ⟨e, h⟩
  | cons name outer ih =>
      rw [List.reverse_cons] at hnames
      have houterNames : outer.reverse.filter (· ≠ .here) = outer.reverse := by
        refine List.filter_eq_self.2 fun part hpart => ?_
        have hmem : part ∈ parts.filter (· ≠ .here) :=
          hnames ▸ List.mem_append_left _ hpart
        exact (List.mem_filter.1 hmem).2
      cases hprovide : t.provide start parts with
      | ok t₁ =>
          rw [createParts_of_provide hprovide] at h
          cases h
      | error e₀ =>
          rw [createParts_cons_of_provide hprovide] at h
          split at h
          · split at h
            -- the directories around it are there, but it cannot be made in them
            · next t₁ hmade =>
                obtain ⟨hrefused, rfl⟩ := settle_eq_error_iff.1 h
                rw [createParts_cons_of_provide hrefused, createParts_of_createParts hmade]
                split
                · exact ⟨e, h⟩
                · exact ⟨e, rfl⟩
            -- one of the directories around it could not be made, and still cannot
            · obtain ⟨e', hagain⟩ := ih houterNames h
              cases hprovide' : t'.provide start parts with
              | ok t₂ =>
                  have houter := provide_outer hprovide' hnames
                  rw [createParts_of_provide houter] at hagain
                  cases hagain
              | error e₁ =>
                  rw [createParts_cons_of_provide hprovide', hagain]
                  split
                  · exact ⟨e', rfl⟩
                  · exact ⟨e₁, rfl⟩
          · next hother =>
              cases h
              exact ⟨e, by rw [createParts_cons_of_provide hprovide, if_neg hother]⟩

/-- **Directories that cannot be made still cannot be made** after the attempt, which changes
nothing more. The second refusal may be another one, because a way on which directories were made
can be followed further. -/
theorem exists_createDirectories_error {e : FileError}
    (h : t.createDirectories p = (.error e, t')) :
    ∃ e', t'.createDirectories p = (.error e', t') := by
  have hhere := (grows_of_createDirectories h).here
  unfold createDirectories at h ⊢
  split at h
  · cases h
  · next hne =>
      rw [if_neg hne]
      split at h
      · next e₀ hcheck =>
          cases h
          exact ⟨e, rfl⟩
      · have hstart : t'.startOf p = t.startOf p := by rw [startOf, startOf, hhere]
        rw [hstart]
        exact exists_createParts_error (List.reverse_reverse _).symm h

end FlatTables.FileTree
