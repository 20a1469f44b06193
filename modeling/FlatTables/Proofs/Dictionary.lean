import FlatTables.Dictionary

set_option autoImplicit false

/-! # Dictionaries with the same content

A dictionary is kept in the order of its keys, so two of them are equal if they give the same under
every key (`Dictionary.ext`). What an insertion or an erasure did can therefore be undone by another
one. -/

namespace FlatTables.Dictionary

variable {α : Type} {d e : Dictionary α} {k : String} {v : α}

theorem mem_entries_iff : (k, v) ∈ d.entries ↔ d.get? k = some v := by
  unfold get?
  rw [List.lookup_eq_some_iff]
  constructor
  · intro hmem
    obtain ⟨front, rest, hsplit⟩ := List.append_of_mem hmem
    refine ⟨front, rest, hsplit, fun p hp => ?_⟩
    -- what stands in front has a smaller key
    have hlt := (List.pairwise_append.1 (hsplit ▸ d.ordered)).2.2 p hp (k, v) List.mem_cons_self
    have hne : k ≠ p.1 := fun heq => String.lt_irrefl p.1 (heq ▸ hlt)
    simpa using hne
  · rintro ⟨front, rest, hsplit, -⟩
    rw [hsplit]
    exact List.mem_append_right front List.mem_cons_self

/-- **Dictionaries that give the same under every key are equal.** -/
theorem ext (h : ∀ k, d.get? k = e.get? k) : d = e := by
  have hmem : ∀ p, p ∈ d.entries ↔ p ∈ e.entries := by
    rintro ⟨k, v⟩
    rw [mem_entries_iff, mem_entries_iff, h k]
  have hnodup : ∀ d : Dictionary α, d.entries.Nodup := by
    refine fun d => d.ordered.imp ?_
    rintro p q hlt rfl
    exact String.lt_irrefl _ hlt
  have hperm := (List.perm_ext_iff_of_nodup (hnodup d) (hnodup e)).2 hmem
  refine eq_of_entries_eq (hperm.eq_of_pairwise ?_ d.ordered e.ordered)
  exact fun p q _ _ hpq hqp => absurd hpq (String.lt_asymm hqp)

/-! ## Undoing -/

theorem erase_insert (h : d.get? k = none) (v : α) : (d.insert k v).erase k = d := by
  refine ext fun other => ?_
  rw [get?_erase, get?_insert]
  split
  · next heq => rw [heq, h]
  · rfl

theorem insert_insert (h : d.get? k = some v) (v' : α) : (d.insert k v').insert k v = d := by
  refine ext fun other => ?_
  rw [get?_insert, get?_insert]
  split
  · next heq => rw [heq, h]
  · rfl

theorem insert_erase (h : d.get? k = some v) : (d.erase k).insert k v = d := by
  refine ext fun other => ?_
  rw [get?_insert, get?_erase]
  split
  · next heq => rw [heq, h]
  · rfl

end FlatTables.Dictionary
