import FlatTables.Proofs.File.Path

set_option autoImplicit false

/-! # Making directories where more of them are

A directory that is there or can be made still is or can be where there are more directories on its
way than before, and nothing else has changed there (`createDirectories_of_growsOn`). Making it does
then lead to the same directories on the way. What is refused for a reason other than a missing
directory is refused in both trees (`provide_eq_error_of_growsOn`), so both follow the same way. -/

namespace FlatTables.FileTree

variable {t t' t₁ t₂ : FileTree} {p : Path} {loc start : Location} {parts : List Path.Part}

/-! ## Directories on a way -/

/-- Whatever parts lead on from is a directory. -/
theorem directory_of_walk {front : List Path.Part} {part : Path.Part} {rest : List Path.Part}
    (h : t.walk start (front ++ part :: rest) = .ok loc) :
    t.node? (target start front) = some .directory := by
  obtain ⟨between, hfront, hrest⟩ := walk_append_eq_ok_iff.1 h
  obtain ⟨next, hnext, -⟩ := bind_eq_ok_iff.1 hrest
  obtain ⟨_, hdir, -⟩ := bind_eq_ok_iff.1 hnext
  rw [← walk_eq_target hfront]
  exact checkDirectory_eq_ok_iff.1 hdir

/-- On the way to a directory there are only directories. -/
theorem directory_of_mem_way (h : t.isDirectory p = true) (hmem : loc ∈ way t.here p) :
    t.node? loc = some .directory := by
  obtain ⟨last, hlocate, hdir⟩ := isDirectory_iff.1 h
  obtain ⟨_, -, hwalk⟩ := bind_eq_ok_iff.1 hlocate
  have hwalk := walk_filter_here hwalk
  obtain ⟨front, ⟨rest, hrest⟩, rfl⟩ := mem_way_iff.1 hmem
  rw [← hrest] at hwalk
  cases rest with
  | nil =>
      rw [List.append_nil] at hwalk
      rwa [walk_eq_target hwalk] at hdir
  | cons part rest => exact directory_of_walk hwalk

/-- On the way to the directory in which a name leads somewhere there are only directories. -/
theorem directory_of_locate_join {name : String} {loc' : Location} (hname : Path.IsName name)
    (h : t.locate (p.join name) = .ok loc') (hmem : loc ∈ way t.here p) :
    t.node? loc = some .directory := by
  obtain ⟨_, -, hwalk⟩ := bind_eq_ok_iff.1 h
  have hwalk := walk_filter_here hwalk
  have hstart : t.startOf (p.join name) = origin t.here p := origin_join t.here p hname.leadsOn
  obtain ⟨front, ⟨rest, hrest⟩, rfl⟩ := mem_way_iff.1 hmem
  rw [Path.parts_join p hname.leadsOn, hname.parts, List.filter_append, ← hrest, hstart,
    List.append_assoc] at hwalk
  cases rest with
  | nil => exact directory_of_walk hwalk
  | cons part rest => exact directory_of_walk hwalk

theorem walk_append (t : FileTree) (start : Location) (parts rest : List Path.Part) :
    t.walk start (parts ++ rest) = t.walk start parts >>= (t.walk · rest) := by
  induction parts generalizing start with
  | nil => rfl
  | cons part tail ih =>
      rw [List.cons_append, walk, walk, bind_assoc]
      exact bind_congr fun next => ih next

/-- What is found under a name in a directory that two trees have is what stands at its place. -/
theorem find_join_congr {name : String} (hname : Path.IsName name) (hhere : t'.here = t.here)
    (hdir : ∃ loc, t.walk (t.startOf p) p.parts = .ok loc ∧ t.node? loc = some .directory)
    (hdir' : ∃ loc, t'.walk (t'.startOf p) p.parts = .ok loc ∧ t'.node? loc = some .directory)
    (hnode : t'.node? (place t.here (p.join name)) = t.node? (place t.here (p.join name))) :
    t'.find (p.join name) = t.find (p.join name) := by
  have hlocate : t'.locate (p.join name) = t.locate (p.join name) := by
    obtain ⟨loc, hwalk, hdir⟩ := hdir
    obtain ⟨loc', hwalk', hdir'⟩ := hdir'
    have hstart : t'.startOf p = t.startOf p := by rw [startOf, startOf, hhere]
    have hjoin : ∀ t : FileTree, t.startOf (p.join name) = t.startOf p :=
      fun t => origin_join t.here p hname.leadsOn
    obtain rfl : loc' = loc := by rw [walk_eq_target hwalk', walk_eq_target hwalk, hstart]
    rw [locate, locate, hjoin, hjoin, Path.parts_join p hname.leadsOn, walk_append, walk_append,
      hwalk, hwalk', hname.parts]
    refine bind_congr fun _ => ?_
    change t'.walk loc' [.name name] = t.walk loc' [.name name]
    rw [walk, walk, enter, enter, checkDirectory_eq_ok_iff.2 hdir, checkDirectory_eq_ok_iff.2 hdir']
    rfl
  rw [find, find, hlocate]
  cases hloc : t.locate (p.join name) with
  | error e => rfl
  | ok loc =>
      rw [locate_eq_place hloc]
      simp only [ok_bind, hnode]

/-! ## Trees with more directories on a way -/

/-- Whether `t'` is like `t` at the locations of `route`, but may have more directories there. -/
structure GrowsOn (route : List Location) (t t' : FileTree) : Prop where
  here : t'.here = t.here
  locked : t'.locked = t.locked
  node? : ∀ loc ∈ route, t'.node? loc = t.node? loc ∨
    (t.node? loc = none ∧ t'.node? loc = some .directory)

theorem Grows.growsOn {way : List Location} (h : Grows way t t') (route : List Location) :
    GrowsOn route t t' :=
  ⟨h.here, h.locked, fun loc _ => (h.node? loc).imp_right And.right⟩

section

variable {route : List Location} (h : GrowsOn route t t')

include h

theorem GrowsOn.directory (hmem : loc ∈ route) (hdir : t.node? loc = some .directory) :
    t'.node? loc = some .directory := by
  rcases h.node? loc hmem with hsame | ⟨-, hdir'⟩
  · rw [hsame, hdir]
  · exact hdir'

theorem GrowsOn.enter {part : Path.Part} {next : Location} (hmem : start ∈ route)
    (hnext : t.enter start part = .ok next) : t'.enter start part = .ok next := by
  obtain ⟨_, hdir, hpart⟩ := bind_eq_ok_iff.1 hnext
  have hdir' := h.directory hmem (checkDirectory_eq_ok_iff.1 hdir)
  exact bind_eq_ok_iff.2 ⟨(), checkDirectory_eq_ok_iff.2 hdir', hpart⟩

/-- A part that is refused, and not because its directory is missing, is refused in both trees. -/
theorem GrowsOn.enter_error {part : Path.Part} {e : FileError} (hmem : start ∈ route)
    (hrefused : t.enter start part = .error e) (he : e ≠ .notFound) :
    t'.enter start part = .error e := by
  rcases bind_eq_error_iff.1 hrefused with hdir | ⟨_, hdir, hpart⟩
  · have hsame : t'.node? start = t.node? start := by
      refine (h.node? start hmem).resolve_right fun ⟨hnone, _⟩ => he ?_
      rw [checkDirectory, hnone] at hdir
      exact (Except.error.inj hdir).symm
    refine bind_eq_error_iff.2 (.inl ?_)
    rw [checkDirectory, hsame]
    exact hdir
  · have hdir' := h.directory hmem (checkDirectory_eq_ok_iff.1 hdir)
    exact bind_eq_error_iff.2 (.inr ⟨(), checkDirectory_eq_ok_iff.2 hdir', hpart⟩)

/-- Where a directory is provided in the smaller tree, it is provided in the larger one. -/
theorem GrowsOn.provide (hroute : ∀ front, front <+: parts → target start front ∈ route)
    (hmade : t.provide start parts = .ok t₁) :
    ∃ t₁', t'.provide start parts = .ok t₁' ∧ GrowsOn route t₁ t₁' := by
  induction parts generalizing start with
  | nil =>
      cases hmade
      exact ⟨t', rfl, h⟩
  | cons part rest ih =>
      have hstart : start ∈ route := hroute [] (List.nil_prefix)
      cases rest with
      | nil =>
          obtain ⟨made, hnext, hmade⟩ := bind_eq_ok_iff.1 hmade
          have hnext' := h.enter hstart hnext
          have hmem : made ∈ route := enter_eq_along hnext ▸ hroute [part] (List.prefix_refl _)
          cases hnode : t.node? made with
          | some node =>
              cases node with
              | file content =>
                  rw [hnode] at hmade
                  cases hmade
              | directory =>
                  rw [hnode] at hmade
                  cases hmade
                  have hdir := h.directory hmem hnode
                  exact ⟨t', bind_eq_ok_iff.2 ⟨made, hnext', by rw [hdir]⟩, h⟩
          | none =>
              rw [hnode] at hmade
              obtain ⟨_, hunlocked, hmade⟩ := bind_eq_ok_iff.1 hmade
              cases hmade
              have hroot : made ≠ [] := fun hnil => by
                rw [hnil] at hnode
                cases hnode
              rcases h.node? made hmem with hsame | ⟨-, hdir⟩
              · refine ⟨t'.put made .directory, bind_eq_ok_iff.2 ⟨made, hnext', ?_⟩,
                  h.here, h.locked, fun loc hloc => ?_⟩
                · rw [hsame, hnode]
                  refine bind_eq_ok_iff.2 ⟨(), ?_, rfl⟩
                  rw [checkUnlocked, h.locked]
                  exact hunlocked
                · rw [node?_put t hroot, node?_put t' hroot]
                  split
                  · exact .inl rfl
                  · exact h.node? loc hloc
              -- in the larger tree it was there already
              · refine ⟨t', bind_eq_ok_iff.2 ⟨made, hnext', by rw [hdir]⟩, h.here, h.locked,
                  fun loc hloc => ?_⟩
                rw [node?_put t hroot]
                split
                · next heq => exact .inl (heq ▸ hdir)
                · exact h.node? loc hloc
      | cons part' rest =>
          obtain ⟨next, hnext, hmade⟩ := bind_eq_ok_iff.1 hmade
          have hnext' := h.enter hstart hnext
          obtain rfl := enter_eq_along hnext
          obtain ⟨t₁', hmade', hgrows⟩ := ih
            (fun front hfront => hroute (part :: front) (List.cons_prefix_cons.2 ⟨rfl, hfront⟩)) hmade
          exact ⟨t₁', bind_eq_ok_iff.2 ⟨_, hnext', hmade'⟩, hgrows⟩

/-- A directory that is refused, and not because one around it is missing, is refused in both trees,
unless only the directory itself is. -/
theorem GrowsOn.provide_error {e : FileError}
    (hroute : ∀ front, front <+: parts → target start front ∈ route)
    (hrefused : t.provide start parts = .error e) (he : e ≠ .notFound) :
    t'.provide start parts = .error e ∨
      ∃ front last outer, parts = front ++ [last] ∧ t.walk start front = .ok outer ∧
        t.node? outer = some .directory := by
  induction parts generalizing start with
  | nil => cases hrefused
  | cons part rest ih =>
      have hstart : start ∈ route := hroute [] (List.nil_prefix)
      cases rest with
      | nil =>
          rcases bind_eq_error_iff.1 hrefused with hrefused | ⟨made, hnext, -⟩
          · exact .inl (bind_eq_error_iff.2 (.inl (h.enter_error hstart hrefused he)))
          · obtain ⟨_, hdir, -⟩ := bind_eq_ok_iff.1 hnext
            exact .inr ⟨[], part, start, rfl, rfl, checkDirectory_eq_ok_iff.1 hdir⟩
      | cons part' rest =>
          rcases bind_eq_error_iff.1 hrefused with hrefused | ⟨next, hnext, hrefused⟩
          · exact .inl (bind_eq_error_iff.2 (.inl (h.enter_error hstart hrefused he)))
          · have hnext' := h.enter hstart hnext
            obtain rfl := enter_eq_along hnext
            rcases ih (fun front hfront => hroute (part :: front)
              (List.cons_prefix_cons.2 ⟨rfl, hfront⟩)) hrefused with hrefused' | hfront
            · exact .inl (bind_eq_error_iff.2 (.inr ⟨_, hnext', hrefused'⟩))
            · obtain ⟨front, last, outer, hparts, hwalk, hdir⟩ := hfront
              refine .inr ⟨part :: front, last, outer, by rw [hparts, List.cons_append], ?_, hdir⟩
              exact bind_eq_ok_iff.2 ⟨_, hnext, hwalk⟩

end

/-- Prefixes of the parts lead where prefixes of the names among them lead. -/
theorem target_mem_of_filter {route : List Location}
    (hroute : ∀ front, front <+: parts.filter (· ≠ .here) → target start front ∈ route) :
    ∀ front, front <+: parts → target start front ∈ route := by
  intro front hfront
  rw [← target_filter_here]
  exact hroute _ (hfront.filter _)

/-- Names that lead somewhere, innermost first, are names when they are turned around. -/
theorem filter_reverse_of_append {name : Path.Part} {outer : List Path.Part}
    (hnames : parts.filter (· ≠ .here) = outer.reverse ++ [name]) :
    outer.reverse.filter (· ≠ .here) = outer.reverse := by
  refine List.filter_eq_self.2 fun part hpart => ?_
  have hmem : part ∈ parts.filter (· ≠ .here) := hnames ▸ List.mem_append_left _ hpart
  exact (List.mem_filter.1 hmem).2

section

variable {route : List Location} {names : List Path.Part}

/-- What was made for the names is on their way. -/
theorem growsOn_of_createParts (h : t.createParts start names.reverse names = (.ok (), t'))
    (hroute : ∀ front, front <+: names.reverse → target start front ∈ route) :
    GrowsOn route t t' :=
  (grows_of_createParts h (hroute _ (List.prefix_refl _)) fun _ houter =>
    hroute _ (List.reverse_prefix.2 houter)).growsOn route

/-- However many directories are made first in the smaller tree, the directory is made in the larger
one too, where some of them may be there. -/
theorem GrowsOn.createParts (h : GrowsOn route t t')
    (hnames : parts.filter (· ≠ .here) = names.reverse)
    (hroute : ∀ front, front <+: names.reverse → target start front ∈ route)
    (hmade : t.createParts start parts names = (.ok (), t₁)) :
    ∃ t₁', t'.createParts start parts names = (.ok (), t₁') ∧ GrowsOn route t₁ t₁' := by
  induction names generalizing parts t₁ with
  | nil =>
      obtain ⟨t₁', hprovide', hgrows⟩ :=
        h.provide (target_mem_of_filter (hnames ▸ hroute)) (settle_eq_ok_iff.1 hmade)
      exact ⟨t₁', settle_eq_ok_iff.2 hprovide', hgrows⟩
  | cons name outer ih =>
      have hprefixes := target_mem_of_filter (hnames ▸ hroute)
      rw [List.reverse_cons] at hnames hroute
      have houterRoute : ∀ front, front <+: outer.reverse → target start front ∈ route :=
        fun front hfront => hroute front (hfront.trans (List.prefix_append _ _))
      cases hprovide : t.provide start parts with
      | ok t₂ =>
          obtain ⟨t₂', hprovide', hgrows⟩ := h.provide hprefixes hprovide
          rw [createParts_of_provide hprovide] at hmade
          cases hmade
          exact ⟨t₂', createParts_of_provide hprovide', hgrows⟩
      | error e =>
          rw [createParts_cons_of_provide hprovide] at hmade
          split at hmade
          case isFalse => cases hmade
          split at hmade
          case h_2 hfailed => exact absurd hmade (hfailed t₁)
          next t₂ houter =>
          -- the directories around it were made first; in the larger tree some may be there
          have hprovide₂ := settle_eq_ok_iff.1 hmade
          obtain ⟨t₂', houter', hgrows⟩ := ih (filter_reverse_of_append hnames) houterRoute houter
          obtain ⟨t₁', hprovide₂', hgrows₁⟩ := hgrows.provide hprefixes hprovide₂
          have hthere : t'.provide start outer.reverse = .ok t' → t₂' = t' := fun hprovided => by
            rw [createParts_of_provide hprovided] at houter'
            exact (Prod.mk.inj houter').2.symm
          cases hprovide' : t'.provide start parts with
          | ok t₃ =>
              obtain rfl := hthere (provide_outer hprovide' hnames)
              exact ⟨t₁', createParts_of_provide hprovide₂', hgrows₁⟩
          | error e' =>
              by_cases he' : e' = .notFound
              · refine ⟨t₁', ?_, hgrows₁⟩
                rw [createParts_cons_of_provide hprovide', if_pos he', houter']
                exact settle_eq_ok_iff.2 hprovide₂'
              · have hgrows' := growsOn_of_createParts houter' houterRoute
                rcases hgrows'.provide_error hprefixes hprovide' he' with
                  hrefused | ⟨front, last, around, rfl, hwalk, hdir⟩
                · rw [hrefused] at hprovide₂'
                  cases hprovide₂'
                · obtain rfl := hthere (provide_outer_of_walk hwalk hdir hnames)
                  rw [hprovide'] at hprovide₂'
                  cases hprovide₂'

end

/-- **A directory that can be made can be made where more directories are** on its way. -/
theorem createDirectories_of_growsOn (h : GrowsOn (way t.here p) t t')
    (hmade : t.createDirectories p = (.ok (), t₁)) :
    ∃ t₁', t'.createDirectories p = (.ok (), t₁') := by
  unfold createDirectories at hmade ⊢
  split at hmade
  · next hempty =>
      rw [if_pos hempty]
      exact ⟨t', rfl⟩
  · next hne =>
      rw [if_neg hne]
      split at hmade
      · cases hmade
      · have hstart : t'.startOf p = t.startOf p := by rw [startOf, startOf, h.here]
        rw [hstart]
        have hnames : p.parts.filter (· ≠ .here) =
            (p.parts.filter (· ≠ .here)).reverse.reverse := (List.reverse_reverse _).symm
        obtain ⟨t₁', hmade', -⟩ := h.createParts hnames
          (fun front hfront => mem_way_iff.2 ⟨front, hnames ▸ hfront, rfl⟩) hmade
        exact ⟨t₁', hmade'⟩

end FlatTables.FileTree
