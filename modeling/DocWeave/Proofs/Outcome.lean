/-
Outcomes of steps that may fail.  When a whole computation succeeds, so did each of its steps,
and what the whole gives is known from what the steps gave.  A failure in other words was one
before.  Two computations are compared step by step.
-/

namespace DocWeave

variable {ε ε' α β : Type}

theorem exists_of_bind_eq_ok {x : Except ε α} {f : α → Except ε β} {b : β}
    (h : (x >>= f) = .ok b) : ∃ a, x = .ok a ∧ f a = .ok b := by
  cases x with
  | error e => cases h
  | ok a => exact ⟨a, rfl, h⟩

theorem exists_of_map_eq_ok {f : α → β} {x : Except ε α} {b : β} (h : x.map f = .ok b) :
    ∃ a, x = .ok a ∧ f a = b := by
  cases x with
  | error e => cases h
  | ok a =>
      cases h
      exact ⟨a, rfl, rfl⟩

theorem eq_ok_of_mapError_eq_ok {x : Except ε α} {f : ε → ε'} {a : α}
    (h : x.mapError f = .ok a) : x = .ok a := by
  cases x with
  | error e => cases h
  | ok b => rw [Except.ok.inj h]

theorem exists_of_mapError_eq_error {x : Except ε α} {f : ε → ε'} {e' : ε'}
    (h : x.mapError f = .error e') : ∃ e, x = .error e ∧ f e = e' := by
  cases x with
  | error e => exact ⟨e, rfl, Except.error.inj h⟩
  | ok a => cases h

/-! ### Two computations side by side -/

section CarriesOver

variable {α' β' : Type} {R : α → α' → Prop} {S : β → β' → Prop}

/-- If one computation succeeds then so does another one, with a related outcome. -/
def CarriesOver (R : α → α' → Prop) (x : Except ε α) (x' : Except ε α') : Prop :=
  ∀ a, x = .ok a → ∃ a', x' = .ok a' ∧ R a a'

namespace CarriesOver

theorem error (e : ε) (x' : Except ε α') : CarriesOver R (.error e) x' := by
  intro a h
  cases h

theorem ok {a : α} {a' : α'} (h : R a a') :
    CarriesOver R (.ok a : Except ε α) (.ok a' : Except ε α') := by
  intro b hb
  cases hb
  exact ⟨a', rfl, h⟩

theorem bind {x : Except ε α} {x' : Except ε α'} {f : α → Except ε β} {f' : α' → Except ε β'}
    (h : CarriesOver R x x') (hnext : ∀ a a', R a a' → CarriesOver S (f a) (f' a')) :
    CarriesOver S (x >>= f) (x' >>= f') := by
  intro b hb
  obtain ⟨a, ha, hb⟩ := exists_of_bind_eq_ok hb
  obtain ⟨a', rfl, hR⟩ := h a ha
  exact hnext a a' hR b hb

theorem map {x : Except ε α} {x' : Except ε α'} {f : α → β} {f' : α' → β'}
    (h : CarriesOver R x x') (hf : ∀ a a', R a a' → S (f a) (f' a')) :
    CarriesOver S (x.map f) (x'.map f') := by
  intro b hb
  obtain ⟨a, ha, rfl⟩ := exists_of_map_eq_ok hb
  obtain ⟨a', rfl, hR⟩ := h a ha
  exact ⟨f' a', rfl, hf a a' hR⟩

/-- A step that both computations take. -/
theorem after (x : Except ε α) {f : α → Except ε β} {f' : α → Except ε β'}
    (hnext : ∀ a, CarriesOver S (f a) (f' a)) : CarriesOver S (x >>= f) (x >>= f') := by
  cases x with
  | error e => exact error e _
  | ok a => exact hnext a

end CarriesOver

end CarriesOver

end DocWeave
