import FlatTables.Lookup

set_option autoImplicit false

/-! # Dictionaries in key order

A `Dictionary` is a finite map from texts, kept as a list of pairs in strictly increasing order of
the keys. Texts are ordered by their code points, which is also the order of their UTF-8 bytes. Two
dictionaries with the same content are therefore equal, and listing one lists its keys in order. -/

namespace FlatTables

variable {α : Type}

/-! ## Ordered lists of pairs -/

/-- Put `v` under `k`, in place of what stood there. -/
def insertPair (k : String) (v : α) : List (String × α) → List (String × α)
  | [] => [(k, v)]
  | (k', v') :: rest =>
    if k < k' then (k, v) :: (k', v') :: rest
    else if k = k' then (k, v) :: rest
    else (k', v') :: insertPair k v rest

theorem fst_mem_of_mem_insertPair {k : String} {v : α} {p : String × α} :
    ∀ {l : List (String × α)}, p ∈ insertPair k v l → p.1 = k ∨ p ∈ l
  | [], h => by
    rw [insertPair, List.mem_singleton] at h
    exact .inl (h ▸ rfl)
  | (k', v') :: rest, h => by
    rw [insertPair] at h
    split at h
    · rcases List.mem_cons.1 h with h | h
      · exact .inl (h ▸ rfl)
      · exact .inr h
    · split at h
      · rcases List.mem_cons.1 h with h | h
        · exact .inl (h ▸ rfl)
        · exact .inr (List.mem_cons_of_mem _ h)
      · rcases List.mem_cons.1 h with h | h
        · exact .inr (h ▸ List.mem_cons_self)
        · exact (fst_mem_of_mem_insertPair h).imp_right (List.mem_cons_of_mem _)

theorem lt_of_not_lt_of_ne {a b : String} (h : ¬a < b) (hne : a ≠ b) : b < a :=
  String.not_le.1 fun hab => hne (String.le_antisymm hab (String.not_lt.1 h))

theorem pairwise_insertPair (k : String) (v : α) :
    ∀ {l : List (String × α)}, l.Pairwise (fun a b => a.1 < b.1) →
      (insertPair k v l).Pairwise (fun a b => a.1 < b.1)
  | [], _ => List.pairwise_singleton _ _
  | (k', v') :: rest, h => by
    obtain ⟨hhead, htail⟩ := List.pairwise_cons.1 h
    rw [insertPair]
    split
    · next hlt =>
      refine List.pairwise_cons.2 ⟨fun p hp => ?_, h⟩
      rcases List.mem_cons.1 hp with hp | hp
      · exact hp ▸ hlt
      · exact String.lt_trans hlt (hhead p hp)
    · next hlt =>
      split
      · next heq => exact List.pairwise_cons.2 ⟨fun p hp => heq ▸ hhead p hp, htail⟩
      · next hne =>
        refine List.pairwise_cons.2 ⟨fun p hp => ?_, pairwise_insertPair k v htail⟩
        rcases fst_mem_of_mem_insertPair hp with hp | hp
        · exact hp ▸ lt_of_not_lt_of_ne hlt hne
        · exact hhead p hp

theorem lookup_insertPair (k : String) (v : α) (k' : String) (l : List (String × α)) :
    (insertPair k v l).lookup k' = if k' = k then some v else l.lookup k' := by
  induction l with
  | nil => rw [insertPair, lookup_pair_cons]
  | cons p rest ih =>
    obtain ⟨k'', v''⟩ := p
    rw [insertPair]
    split
    · rw [lookup_pair_cons]
    · split
      · next heq => by_cases h : k' = k <;> simp [lookup_pair_cons, h, ← heq]
      · next hne =>
        rw [lookup_pair_cons, lookup_pair_cons, ih]
        by_cases h : k' = k''
        · simp [h, Ne.symm hne]
        · simp [h]

/-! ## The type -/

/-- A finite map from texts, listed in strictly increasing order of its keys. -/
structure Dictionary (α : Type) where
  entries : List (String × α)
  ordered : entries.Pairwise (fun a b => a.1 < b.1)

namespace Dictionary

/-- The dictionary without entries. -/
def empty : Dictionary α := ⟨[], .nil⟩

instance : Inhabited (Dictionary α) := ⟨empty⟩

/-- The keys, in order. -/
def keys (d : Dictionary α) : List String := d.entries.map (·.1)

/-- What stands under `k`. -/
def get? (d : Dictionary α) (k : String) : Option α := d.entries.lookup k

def contains (d : Dictionary α) (k : String) : Bool := (d.get? k).isSome

/-- The dictionary `d` with `v` under `k`. -/
def insert (d : Dictionary α) (k : String) (v : α) : Dictionary α :=
  ⟨insertPair k v d.entries, pairwise_insertPair k v d.ordered⟩

/-- The dictionary `d` with nothing under `k`. -/
def erase (d : Dictionary α) (k : String) : Dictionary α :=
  ⟨d.entries.filter (·.1 != k), d.ordered.filter _⟩

/-- The pairs of a list; of several with one key, the last counts. -/
def ofList (l : List (String × α)) : Dictionary α :=
  l.foldl (fun d p => d.insert p.1 p.2) empty

/-! ## What stands where -/

theorem get?_empty (k : String) : (empty : Dictionary α).get? k = none := rfl

theorem get?_insert (d : Dictionary α) (k : String) (v : α) (k' : String) :
    (d.insert k v).get? k' = if k' = k then some v else d.get? k' :=
  lookup_insertPair k v k' d.entries

theorem get?_erase (d : Dictionary α) (k k' : String) :
    (d.erase k).get? k' = if k' = k then none else d.get? k' :=
  lookup_filter_ne k k' d.entries

theorem eq_of_entries_eq {d e : Dictionary α} (h : d.entries = e.entries) : d = e := by
  cases d
  cases e
  exact (mk.injEq ..).mpr h

end Dictionary

end FlatTables
