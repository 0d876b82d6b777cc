namespace CollectionRun

theorem mapError_eq_ok_iff {ε ε' α : Type} {f : ε → ε'} {r : Except ε α} {x : α} :
    r.mapError f = .ok x ↔ r = .ok x := by
  cases r with
  | ok y =>
    constructor
    · rintro ⟨⟩
      rfl
    · rintro ⟨⟩
      rfl
  | error e => exact iff_of_false nofun nofun

theorem map_mapError {ε ε' α β : Type} (r : Except ε α) (f : ε → ε') (g : α → β) :
    (r.mapError f).map g = (r.map g).mapError f := by
  cases r <;> rfl

theorem map_eq_ok_iff {ε α β : Type} {f : α → β} {r : Except ε α} {y : β} :
    r.map f = .ok y ↔ ∃ x, r = .ok x ∧ f x = y := by
  cases r with
  | ok x =>
    constructor
    · intro h
      exact ⟨x, rfl, Except.ok.inj h⟩
    · rintro ⟨_, ⟨⟩, rfl⟩
      rfl
  | error e => exact iff_of_false nofun nofun

theorem toOption_eq_some_iff {ε α : Type} {r : Except ε α} {x : α} :
    r.toOption = some x ↔ r = .ok x := by
  cases r with
  | ok y =>
    constructor
    · rintro ⟨⟩
      rfl
    · rintro ⟨⟩
      rfl
  | error e => exact iff_of_false nofun nofun

theorem map_eq_error_iff {ε α β : Type} {f : α → β} {r : Except ε α} {e : ε} :
    r.map f = .error e ↔ r = .error e := by
  cases r with
  | ok x => exact iff_of_false nofun nofun
  | error e' =>
    constructor
    · rintro ⟨⟩
      rfl
    · rintro ⟨⟩
      rfl

theorem bind_eq_ok_iff {ε α β : Type} {r : Except ε α} {f : α → Except ε β} {y : β} :
    r >>= f = .ok y ↔ ∃ x, r = .ok x ∧ f x = .ok y := by
  cases r with
  | ok x =>
    constructor
    · intro h
      exact ⟨x, rfl, h⟩
    · rintro ⟨_, ⟨⟩, h⟩
      exact h
  | error e => exact iff_of_false nofun nofun

theorem bind_eq_error_iff {ε α β : Type} {r : Except ε α} {f : α → Except ε β} {e : ε} :
    r >>= f = .error e ↔ r = .error e ∨ ∃ x, r = .ok x ∧ f x = .error e := by
  cases r with
  | ok x =>
    constructor
    · intro h
      exact .inr ⟨x, rfl, h⟩
    · rintro (h | ⟨_, ⟨⟩, h⟩)
      · contradiction
      · exact h
  | error e' =>
    constructor
    · intro h
      exact .inl (congrArg Except.error (Except.error.inj h))
    · rintro (h | ⟨x, h, -⟩)
      · exact congrArg Except.error (Except.error.inj h)
      · contradiction

/-- Two computations in step: where the values of the first ones correspond, those of the whole do. -/
theorem map_bind {ε α β σ τ : Type} {f : α → σ} {g : β → τ} {x : Except ε α} {k : α → Except ε β}
    {l : σ → Except ε τ} (h : ∀ a, (k a).map g = l (f a)) : (x >>= k).map g = x.map f >>= l := by
  cases x with
  | error e => rfl
  | ok a => exact h a

theorem bind_eq_bind {ε α β σ : Type} {f : α → σ} {x x' : Except ε α} {k k' : α → Except ε β}
    (same : x.map f = x'.map f) (h : ∀ a a', f a = f a' → k a = k' a') : x >>= k = x' >>= k' := by
  cases x with
  | error e =>
    cases x' with
    | error e' => exact congrArg Except.error (Except.error.inj same)
    | ok a' => cases same
  | ok a =>
    cases x' with
    | error e' => cases same
    | ok a' => exact h a a' (Except.ok.inj same)

theorem map_bind_eq_map_bind {ε α β σ τ : Type} {f : α → σ} {g : β → τ} {x x' : Except ε α}
    {k k' : α → Except ε β} (same : x.map f = x'.map f)
    (h : ∀ a a', f a = f a' → (k a).map g = (k' a').map g) :
    (x >>= k).map g = (x' >>= k').map g := by
  have inside (y : Except ε α) (l : α → Except ε β) :
      (y >>= l).map g = y >>= fun a => (l a).map g := by
    cases y <;> rfl
  rw [inside, inside]
  exact bind_eq_bind same h

end CollectionRun
