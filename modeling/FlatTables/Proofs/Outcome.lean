import FlatTables.Operation

set_option autoImplicit false

/-! # Results of composed computations

A composition succeeds with what its last part gives, after all of its parts have succeeded, and it
fails with the error of the first part that fails. The lemmas here say so once, for computations
without effects (`bind_eq_ok_iff`) and for actions (`Action.run_bind_eq_ok_iff`), so that proofs
about operations take a computation apart instead of unfolding it. -/

namespace FlatTables

variable {ε ε' α β : Type}

/-! ## Computations without effects -/

theorem bind_eq_ok_iff {x : Except ε α} {f : α → Except ε β} {b : β} :
    (x >>= f) = .ok b ↔ ∃ a, x = .ok a ∧ f a = .ok b := by
  cases x with
  | error e => simp [bind, Except.bind]
  | ok a => simp [bind, Except.bind]

theorem bind_eq_error_iff {x : Except ε α} {f : α → Except ε β} {e : ε} :
    (x >>= f) = .error e ↔ x = .error e ∨ ∃ a, x = .ok a ∧ f a = .error e := by
  cases x with
  | error e => simp [bind, Except.bind]
  | ok a => simp [bind, Except.bind]

theorem exists_eq_ok_iff {x : Except ε α} : (∃ a, x = .ok a) ↔ ∀ e, x ≠ .error e := by
  cases x <;> simp

theorem map_eq_ok_iff {x : Except ε α} {f : α → β} {b : β} :
    x.map f = .ok b ↔ ∃ a, x = .ok a ∧ f a = b := by
  cases x <;> simp [Except.map]

theorem map_eq_error_iff {x : Except ε α} {f : α → β} {e : ε} :
    x.map f = .error e ↔ x = .error e := by
  cases x <;> simp [Except.map]

theorem exists_map_eq_ok_iff {x : Except ε α} {f : α → β} :
    (∃ b, x.map f = .ok b) ↔ ∃ a, x = .ok a := by
  simp only [exists_eq_ok_iff, ne_eq, map_eq_error_iff]

theorem map_bind_eq {γ : Type} (x : Except ε α) (f : α → β) (g : β → Except ε γ) :
    (x.map f >>= g) = x >>= fun a => g (f a) := by
  cases x <;> rfl

theorem bind_ok_eq_map (x : Except ε α) (f : α → β) : (x >>= fun a => .ok (f a)) = x.map f := by
  cases x <;> rfl

theorem mapError_ok (f : ε → ε') (a : α) : (Except.ok a : Except ε α).mapError f = .ok a := rfl

theorem mapError_error (f : ε → ε') (e : ε) :
    (Except.error e : Except ε α).mapError f = .error (f e) := rfl

theorem mapError_eq_ok_iff {x : Except ε α} {f : ε → ε'} {a : α} :
    x.mapError f = .ok a ↔ x = .ok a := by
  cases x with
  | error e => simp [mapError_error]
  | ok a' => simp [mapError_ok]

theorem mapError_eq_error_iff {x : Except ε α} {f : ε → ε'} {e : ε'} :
    x.mapError f = .error e ↔ ∃ e', x = .error e' ∧ f e' = e := by
  cases x with
  | error e' => simp [mapError_error]
  | ok a => simp [mapError_ok]

theorem mapError_bind {γ : Type} (x : Except ε α) (g : α → Except ε β) (f : ε → γ) :
    (x >>= g).mapError f = x.mapError f >>= fun a => (g a).mapError f := by
  cases x <;> rfl

@[simp]
theorem ok_bind (a : α) (f : α → Except ε β) : (Except.ok a >>= f) = f a := rfl

/-! ## Actions -/

namespace Action

instance (ε : Type) : LawfulMonad (Action ε) := by
  refine .mk' (Action ε) ?_ ?_ ?_
  · intro α x
    funext w
    change (match x w with | (.ok a, w') => (.ok a, w') | (.error e, w') => (.error e, w')) = x w
    rcases x w with ⟨_ | a, w'⟩ <;> rfl
  · intro α β a f
    rfl
  · intro α β γ x f g
    funext w
    change bind (bind x f) g w = bind x (fun a => bind (f a) g) w
    simp only [bind]
    rcases x w with ⟨_ | a, w'⟩ <;> rfl

theorem run_bind_eq_ok_iff {x : Action ε α} {f : α → Action ε β} {w w' : World} {b : β} :
    (x >>= f).run w = (.ok b, w') ↔
      ∃ a w₁, x.run w = (.ok a, w₁) ∧ (f a).run w₁ = (.ok b, w') := by
  rw [run_bind]
  rcases x.run w with ⟨_ | a, w₁⟩
  · simp
  · constructor
    · intro h
      exact ⟨a, w₁, rfl, h⟩
    · rintro ⟨_, _, h, h'⟩
      cases h
      exact h'

theorem fst_run_bind_eq_error_iff {x : Action ε α} {f : α → Action ε β} {w : World} {e : ε} :
    ((x >>= f).run w).1 = .error e ↔
      (x.run w).1 = .error e ∨ ∃ a w₁, x.run w = (.ok a, w₁) ∧ ((f a).run w₁).1 = .error e := by
  rw [run_bind]
  rcases x.run w with ⟨e' | a, w₁⟩
  · simp
  · constructor
    · intro h
      exact .inr ⟨a, w₁, rfl, h⟩
    · rintro (h | ⟨_, _, h, h'⟩)
      · cases h
      · cases h
        exact h'

theorem run_bind_of_ok {x : Action ε α} {w w₁ : World} {a : α} (h : x.run w = (.ok a, w₁))
    (f : α → Action ε β) : (x >>= f).run w = (f a).run w₁ := by
  rw [run_bind, h]

theorem run_bind_of_error {x : Action ε α} {w w₁ : World} {e : ε} (h : x.run w = (.error e, w₁))
    (f : α → Action ε β) : (x >>= f).run w = (.error e, w₁) := by
  rw [run_bind, h]

/-- A run is known by its result, whatever world it leaves behind. -/
theorem run_eq_of_fst {x : Action ε α} {w : World} {r : Except ε α} (h : (x.run w).1 = r) :
    x.run w = (r, (x.run w).2) :=
  Prod.ext h rfl

theorem run_orElseUndo_of_ok {x : Action ε α} {w w' : World} {a : α} (h : x.run w = (.ok a, w'))
    (undo : World → World) : (x.orElseUndo undo).run w = (.ok a, w') := by
  change x w = _ at h
  simp only [Action.run, orElseUndo, h]

theorem run_orElseUndo_of_error {x : Action ε α} {w w' : World} {e : ε}
    (h : x.run w = (.error e, w')) (undo : World → World) :
    (x.orElseUndo undo).run w = (.error e, undo w') := by
  change x w = _ at h
  simp only [Action.run, orElseUndo, h]

theorem run_world_bind (f : World → Action ε α) (w : World) :
    (world >>= f).run w = (f w).run w := rfl

theorem run_mapError (x : Action ε α) (f : ε → ε') (w : World) :
    (x.mapError f).run w = ((x.run w).1.mapError f, (x.run w).2) := by
  simp only [Action.run, mapError]
  rcases x w with ⟨_ | a, w'⟩ <;> rfl

theorem run_mapError_eq_ok_iff {x : Action ε α} {f : ε → ε'} {w w' : World} {a : α} :
    (x.mapError f).run w = (.ok a, w') ↔ x.run w = (.ok a, w') := by
  rw [run_mapError]
  rcases x.run w with ⟨_ | a', w₁⟩
  · simp [mapError_error]
  · simp [mapError_ok]

theorem fst_run_raise (x : Action ε α) (message : ε' → String) (f : ε → ε') (w : World) :
    ((x.raise message f).run w).1 = (x.run w).1.mapError f := by
  simp only [Action.run, raise]
  rcases x w with ⟨_ | a, w'⟩ <;> rfl

theorem run_raise_eq_ok_iff {x : Action ε α} {message : ε' → String} {f : ε → ε'} {w w' : World}
    {a : α} : (x.raise message f).run w = (.ok a, w') ↔ x.run w = (.ok a, w') := by
  simp only [Action.run, raise]
  rcases x w with ⟨_ | a, w₁⟩
  · simp [fail]
  · simp

/-- Raising an error as another kind changes nothing but the events. -/
theorem exists_run_raise {x : Action ε α} {result : Except ε α} {w w₁ : World}
    (h : x.run w = (result, w₁)) (message : ε' → String) (f : ε → ε') :
    ∃ events, (x.raise message f).run w = (result.mapError f, { w₁ with events := events }) := by
  change x w = (result, w₁) at h
  simp only [Action.run, raise, h]
  cases result with
  | error e => exact ⟨_, rfl⟩
  | ok a => exact ⟨w₁.events, rfl⟩

end Action

end FlatTables
