import FlatTables.TableId
import Mathlib.Data.List.Basic

set_option autoImplicit false

/-! # Identifiers and full names

The full name of a table is the key of its catalog entry. A text with one point is read as a database
and a name, and is itself the full name; a text without one, or with several, is put behind the
default database. So a full name can arise in two ways, but both mean the same table
(`parse_eq_of_fullName_eq`). A full name is itself read as its table only if it has no further point
(`parse_fullName_iff`). -/

namespace FlatTables.TableId

variable {text other defaultName : String} {id : TableId}

theorem toList_fullName (id : TableId) :
    id.fullName.toList = id.database.toList ++ '.' :: id.name.toList := by
  simp [fullName]

theorem parse_of_count_ne (h : text.toList.count '.' ≠ 1) :
    parse text defaultName = ⟨defaultName, text⟩ :=
  if_neg h

/-- A database and a name without points are read back from their full name. -/
theorem parse_fullName (hdatabase : '.' ∉ id.database.toList) (hname : '.' ∉ id.name.toList) :
    parse id.fullName defaultName = id := by
  have hcount : id.fullName.toList.count '.' = 1 := by
    rw [toList_fullName, List.count_append, List.count_cons_self,
      List.count_eq_zero_of_not_mem hdatabase, List.count_eq_zero_of_not_mem hname]
  have hkeep : ∀ c ∈ id.database.toList, (c != '.') = true :=
    fun c hc => bne_iff_ne.2 fun heq => hdatabase (heq ▸ hc)
  rw [parse, if_pos hcount, toList_fullName, List.takeWhile_append_of_pos hkeep,
    List.dropWhile_append_of_pos hkeep]
  simp

/-- A text with one point is the full name of a table, and means that table. -/
theorem exists_parse_eq (defaultName : String) (h : text.toList.count '.' = 1) :
    ∃ id : TableId, text = id.fullName ∧ parse text defaultName = id := by
  have hmem : '.' ∈ text.toList := List.count_pos_iff.1 (by omega)
  obtain ⟨front, back, hchars⟩ := List.append_of_mem hmem
  rw [hchars, List.count_append, List.count_cons_self] at h
  have hfront : '.' ∉ front := List.count_eq_zero.1 (by omega)
  have hback : '.' ∉ back := List.count_eq_zero.1 (by omega)
  have htext : text = (⟨String.ofList front, String.ofList back⟩ : TableId).fullName := by
    rw [← String.toList_inj, toList_fullName, hchars]
    simp
  refine ⟨_, htext, ?_⟩
  rw [htext]
  exact parse_fullName (by simpa using hfront) (by simpa using hback)

/-- The full name of a table in the default database is that of another one only if it has one
point. Then the other one is read as the same database and the same name. -/
theorem parse_eq_of_fullName_default (hone : text.toList.count '.' = 1)
    (h : text = (⟨defaultName, other⟩ : TableId).fullName) :
    parse text defaultName = ⟨defaultName, other⟩ := by
  have hcount := hone
  rw [h, toList_fullName, List.count_append, List.count_cons_self] at hcount
  rw [h]
  exact parse_fullName (List.count_eq_zero.1 (by omega)) (List.count_eq_zero.1 (by omega))

/-- **Identifiers with one full name mean one table.** -/
theorem parse_eq_of_fullName_eq
    (h : (parse text defaultName).fullName = (parse other defaultName).fullName) :
    parse text defaultName = parse other defaultName := by
  by_cases hone : text.toList.count '.' = 1
  · obtain ⟨id, htext, hid⟩ := exists_parse_eq defaultName hone
    by_cases hone' : other.toList.count '.' = 1
    · obtain ⟨id', hother, hid'⟩ := exists_parse_eq defaultName hone'
      rw [hid, hid', ← htext, ← hother] at h
      rw [h]
    · rw [hid, ← htext, parse_of_count_ne hone'] at h
      rw [parse_of_count_ne hone']
      exact parse_eq_of_fullName_default hone h
  · by_cases hone' : other.toList.count '.' = 1
    · obtain ⟨id', hother, hid'⟩ := exists_parse_eq defaultName hone'
      rw [hid', ← hother, parse_of_count_ne hone] at h
      rw [parse_of_count_ne hone]
      exact (parse_eq_of_fullName_default hone' h.symm).symm
    · rw [parse_of_count_ne hone, parse_of_count_ne hone'] at h ⊢
      -- both have the default database in front
      have hchars := congrArg String.toList h
      rw [toList_fullName, toList_fullName] at hchars
      have hname := List.append_cancel_left hchars
      exact congrArg (TableId.mk defaultName) (String.toList_inj.1 (List.cons.inj hname).2)

/-! ## Reading a full name -/

/-- A full name is read as the table that it belongs to exactly if it has no point but its own. -/
theorem parse_fullName_iff :
    parse id.fullName defaultName = id ↔ '.' ∉ id.database.toList ∧ '.' ∉ id.name.toList := by
  constructor
  · intro h
    by_cases hone : id.fullName.toList.count '.' = 1
    · rw [toList_fullName, List.count_append, List.count_cons_self] at hone
      exact ⟨List.count_eq_zero.1 (by omega), List.count_eq_zero.1 (by omega)⟩
    -- otherwise it is read as a name, but it is longer than the name of its table
    · rw [parse_of_count_ne hone] at h
      have hname : id.fullName.toList = id.name.toList :=
        congrArg String.toList (congrArg TableId.name h)
      have hlength := congrArg List.length hname
      rw [toList_fullName, List.length_append, List.length_cons] at hlength
      omega
  · rintro ⟨hdatabase, hname⟩
    exact parse_fullName hdatabase hname

/-- **When the full name of what a text means is read as the same table**: if the text has one point,
or if neither it nor the default database has any. -/
theorem parse_fullName_parse_iff :
    parse (parse text defaultName).fullName defaultName = parse text defaultName ↔
      text.toList.count '.' = 1 ∨ '.' ∉ text.toList ∧ '.' ∉ defaultName.toList := by
  by_cases hone : text.toList.count '.' = 1
  · obtain ⟨id, htext, hid⟩ := exists_parse_eq defaultName hone
    rw [hid, ← htext, hid]
    exact iff_of_true rfl (.inl hone)
  · rw [parse_of_count_ne hone, parse_fullName_iff]
    constructor
    · rintro ⟨hdefault, htext⟩
      exact .inr ⟨htext, hdefault⟩
    · intro h
      obtain ⟨htext, hdefault⟩ := h.resolve_left hone
      exact ⟨hdefault, htext⟩

end FlatTables.TableId
