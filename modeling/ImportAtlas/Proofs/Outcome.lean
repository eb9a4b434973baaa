import ImportAtlas.Outcome

/-! Computations with a state that may fail: when one succeeds, and what holds
of every value that one succeeds with. -/

namespace ImportAtlas.Outcome

variable {ε ε' σ α β : Type}

theorem mapError_eq_ok {x : Except ε α} {f : ε → ε'} {a : α} :
    x.mapError f = .ok a ↔ x = .ok a := by
  cases x with
  | error e =>
    constructor
    · intro h
      cases h
    · intro h
      cases h
  | ok b =>
    constructor
    · intro h
      cases h
      rfl
    · intro h
      cases h
      rfl

theorem eq_ok_of_toOption {x : Except ε α} {a : α} (h : x.toOption = some a) : x = .ok a := by
  cases x with
  | error e => cases h
  | ok b =>
    cases h
    rfl

theorem exists_of_isOk {x : Except ε α} (h : x.isOk = true) : ∃ a, x = .ok a := by
  cases x with
  | error e => cases h
  | ok a => exact ⟨a, rfl⟩

theorem exists_error_of_isOk {x : Except ε α} (h : x.isOk = false) : ∃ e, x = .error e := by
  cases x with
  | error e => exact ⟨e, rfl⟩
  | ok a => cases h

inductive Agree (E : ε → ε' → Prop) (R : α → β → Prop) : Except ε α → Except ε' β → Prop
  | ok {a : α} {b : β} (h : R a b) : Agree E R (.ok a) (.ok b)
  | error {e : ε} {e' : ε'} (h : E e e') : Agree E R (.error e) (.error e')

namespace Agree

theorem refl (x : Except ε α) : Agree Eq Eq x x := by
  cases x with
  | error e => exact .error rfl
  | ok a => exact .ok rfl

variable {α' β' : Type} {E : ε → ε' → Prop} {R : α → β → Prop} {S : α' → β' → Prop}
  {x : Except ε α} {y : Except ε' β}

theorem bind {f : α → Except ε α'} {g : β → Except ε' β'} (h : Agree E R x y)
    (hf : ∀ a b, x = .ok a → R a b → Agree E S (f a) (g b)) : Agree E S (x >>= f) (y >>= g) := by
  cases h with
  | error he => exact .error he
  | ok hab => exact hf _ _ rfl hab

theorem mono {S : α → β → Prop} (h : Agree E R x y) (hS : ∀ a b, R a b → S a b) :
    Agree E S x y := by
  cases h with
  | error he => exact .error he
  | ok hab => exact .ok (hS _ _ hab)

theorem bind_left {f : α → Except ε α'} {S : α' → β → Prop} (h : Agree E R x y)
    (hf : ∀ a b, x = .ok a → R a b → Agree E S (f a) (.ok b)) : Agree E S (x >>= f) y := by
  cases h with
  | error he => exact .error he
  | ok hab => exact hf _ _ rfl hab

theorem bind_right {g : β → Except ε' β'} {S : α → β' → Prop} (h : Agree E R x y)
    (hg : ∀ a b, R a b → Agree E S (.ok a) (g b)) : Agree E S x (y >>= g) := by
  cases h with
  | error he => exact .error he
  | ok hab => exact hg _ _ hab

theorem map {f : α → α'} {g : β → β'} (h : Agree E R x y) (hf : ∀ a b, R a b → S (f a) (g b)) :
    Agree E S (f <$> x) (g <$> y) := by
  cases h with
  | error he => exact .error he
  | ok hab => exact .ok (hf _ _ hab)

theorem ite {p : Prop} [Decidable p] {x₂ : Except ε α} {y₂ : Except ε' β}
    (h : p → Agree E R x y) (h₂ : ¬ p → Agree E R x₂ y₂) :
    Agree E R (if p then x else x₂) (if p then y else y₂) := by
  split
  · exact h ‹_›
  · exact h₂ ‹_›

end Agree

/-- They agree, or the second is an error that breaks it off. -/
inductive AgreeUnless (P : ε' → Prop) (E : ε → ε' → Prop) (R : α → β → Prop) :
    Except ε α → Except ε' β → Prop
  | agree {x : Except ε α} {y : Except ε' β} (h : Agree E R x y) : AgreeUnless P E R x y
  | broken {x : Except ε α} {e' : ε'} (h : P e') : AgreeUnless P E R x (.error e')

namespace AgreeUnless

variable {α' β' : Type} {P : ε' → Prop} {E : ε → ε' → Prop} {R : α → β → Prop}
  {S : α' → β' → Prop} {x : Except ε α} {y : Except ε' β}

theorem ok {a : α} {b : β} (h : R a b) : AgreeUnless P E R (.ok a) (.ok b) := .agree (.ok h)

theorem error {e : ε} {e' : ε'} (h : E e e') : AgreeUnless P E R (.error e) (.error e') :=
  .agree (.error h)

theorem toAgree (h : AgreeUnless P E R x y) (hP : ∀ e', ¬ P e') : Agree E R x y := by
  cases h with
  | agree h => exact h
  | broken h => exact absurd h (hP _)

theorem bind {f : α → Except ε α'} {g : β → Except ε' β'} (h : AgreeUnless P E R x y)
    (hf : ∀ a b, x = .ok a → y = .ok b → R a b → AgreeUnless P E S (f a) (g b)) :
    AgreeUnless P E S (x >>= f) (y >>= g) := by
  cases h with
  | broken h => exact .broken h
  | agree h =>
    cases h with
    | error he => exact .error he
    | ok hab => exact hf _ _ rfl rfl hab

theorem mono {S : α → β → Prop} (h : AgreeUnless P E R x y) (hS : ∀ a b, R a b → S a b) :
    AgreeUnless P E S x y := by
  cases h with
  | broken h => exact .broken h
  | agree h => exact .agree (h.mono hS)

theorem map {f : α → α'} {g : β → β'} (h : AgreeUnless P E R x y)
    (hf : ∀ a b, x = .ok a → y = .ok b → R a b → S (f a) (g b)) :
    AgreeUnless P E S (f <$> x) (g <$> y) := by
  cases h with
  | broken h => exact .broken h
  | agree h =>
    cases h with
    | error he => exact .error he
    | ok hab => exact .ok (hf _ _ rfl rfl hab)

theorem ite {p : Prop} [Decidable p] {x₂ : Except ε α} {y₂ : Except ε' β}
    (h : p → AgreeUnless P E R x y) (h₂ : ¬ p → AgreeUnless P E R x₂ y₂) :
    AgreeUnless P E R (if p then x else x₂) (if p then y else y₂) := by
  split
  · exact h ‹_›
  · exact h₂ ‹_›

end AgreeUnless

/-- From the state `s` the computation succeeds with `a` and leaves `s'`. -/
def Gives (x : ExceptT ε (StateM σ) α) (s : σ) (a : α) (s' : σ) : Prop :=
  x.run s = (.ok a, s')

theorem run_bind (x : ExceptT ε (StateM σ) α) (f : α → ExceptT ε (StateM σ) β) (s : σ) :
    (x >>= f).run s = ExceptT.bindCont f (x.run s).1 (x.run s).2 := rfl

theorem run_bind_of_gives {x : ExceptT ε (StateM σ) α} {f : α → ExceptT ε (StateM σ) β}
    {s s' : σ} {a : α} (h : Gives x s a s') : (x >>= f).run s = (f a).run s' := by
  rw [run_bind, show (x.run s : Except ε α × σ) = _ from h]
  rfl

theorem run_bind_of_error {x : ExceptT ε (StateM σ) α} {f : α → ExceptT ε (StateM σ) β}
    {s s' : σ} {e : ε} (h : x.run s = (.error e, s')) : (x >>= f).run s = (.error e, s') := by
  rw [run_bind, show (x.run s : Except ε α × σ) = _ from h]
  rfl

theorem gives_bind {x : ExceptT ε (StateM σ) α} {f : α → ExceptT ε (StateM σ) β} {s s' : σ}
    {b : β} : Gives (x >>= f) s b s' ↔ ∃ a t, Gives x s a t ∧ Gives (f a) t b s' := by
  rcases hx : (x.run s : Except ε α × σ) with ⟨e | a, t⟩
  · rw [Gives, run_bind_of_error hx]
    constructor
    · intro h
      cases h
    · rintro ⟨_, _, h, _⟩
      cases hx.symm.trans h
  · rw [Gives, run_bind_of_gives hx]
    constructor
    · intro h
      exact ⟨a, t, hx, h⟩
    · rintro ⟨_, _, h, hf⟩
      cases hx.symm.trans h
      exact hf

theorem run_bind_pure {x : ExceptT ε (StateM σ) α} {f : α → β} {s s' : σ} {r : Except ε α}
    (h : x.run s = (r, s')) : (x >>= fun a => pure (f a)).run s = (r.map f, s') := by
  cases r with
  | error e => exact run_bind_of_error h
  | ok a => exact run_bind_of_gives h

theorem gives_pure {a b : α} {s s' : σ} :
    Gives (pure a : ExceptT ε (StateM σ) α) s b s' ↔ a = b ∧ s = s' := by
  change ((Except.ok a, s) : Except ε α × σ) = _ ↔ _
  simp

theorem gives_liftM {x : Except ε α} {a : α} {s s' : σ} :
    Gives (liftM x : ExceptT ε (StateM σ) α) s a s' ↔ x = .ok a ∧ s = s' := by
  change ((x, s) : Except ε α × σ) = _ ↔ _
  simp

theorem Gives.unique {x : ExceptT ε (StateM σ) α} {s s₁ s₂ : σ} {a b : α} (ha : Gives x s a s₁)
    (hb : Gives x s b s₂) : a = b ∧ s₁ = s₂ := by
  have h : ((.ok a, s₁) : Except ε α × σ) = (.ok b, s₂) := ha.symm.trans hb
  cases h
  exact ⟨rfl, rfl⟩

theorem run_tryCatch_of_gives {x : ExceptT ε (StateM σ) α} {f : ε → ExceptT ε (StateM σ) α}
    {s s' : σ} {a : α} (h : Gives x s a s') : (MonadExcept.tryCatch x f).run s = (.ok a, s') :=
  congrArg (fun p => (MonadExcept.tryCatch (fun _ => p : ExceptT ε (StateM σ) α) f).run s) h

theorem run_tryCatch_of_error {x : ExceptT ε (StateM σ) α} {f : ε → ExceptT ε (StateM σ) α}
    {s s' : σ} {e : ε} (h : x.run s = (.error e, s')) :
    (MonadExcept.tryCatch x f).run s = (f e).run s' :=
  congrArg (fun p => (MonadExcept.tryCatch (fun _ => p : ExceptT ε (StateM σ) α) f).run s) h

theorem gives_tryCatch {x : ExceptT ε (StateM σ) α} {f : ε → ExceptT ε (StateM σ) α} {s s' : σ}
    {a : α} : Gives (MonadExcept.tryCatch x f) s a s' ↔
      Gives x s a s' ∨ ∃ e t, x.run s = (.error e, t) ∧ Gives (f e) t a s' := by
  rcases hx : (x.run s : Except ε α × σ) with ⟨e | b, t⟩
  · rw [Gives, run_tryCatch_of_error hx]
    constructor
    · intro h
      exact .inr ⟨e, t, rfl, h⟩
    · rintro (h | ⟨_, _, h, hf⟩)
      · cases hx.symm.trans h
      · cases h
        exact hf
  · rw [Gives, run_tryCatch_of_gives hx]
    constructor
    · intro h
      exact .inl (hx.trans h)
    · rintro (h | ⟨_, _, h, _⟩)
      · exact hx.symm.trans h
      · cases h

theorem exists_gives {x : ExceptT ε (StateM σ) α} {s : σ} (h : Except.isOk (x.run s).1 = true) :
    ∃ a s', Gives x s a s' := by
  change ∃ a s', (x.run s : Except ε α × σ) = (.ok a, s')
  revert h
  rcases x.run s with ⟨e | a, s'⟩
  · intro h
    cases h
  · intro _
    exact ⟨a, s', rfl⟩

theorem exists_gives_of_view {x : ExceptT ε (StateM σ) α} {s : σ} {f : α → β} {b : β}
    (h : (x.run s).1.toOption.map f = some b) : ∃ a s', Gives x s a s' ∧ f a = b := by
  change ∃ a s', (x.run s : Except ε α × σ) = (.ok a, s') ∧ f a = b
  revert h
  rcases x.run s with ⟨e | a, s'⟩
  · intro h
    cases h
  · intro h
    exact ⟨a, s', rfl, Option.some.inj h⟩

theorem exists_failure {x : ExceptT ε (StateM σ) α} {s : σ}
    (h : Except.isOk (x.run s).1 = false) : ∃ e s', x.run s = (.error e, s') := by
  revert h
  rcases x.run s with ⟨e | a, s'⟩
  · intro _
    exact ⟨e, s', rfl⟩
  · intro h
    cases h

def Ensures (x : ExceptT ε (StateM σ) α) (P : α → Prop) : Prop :=
  ∀ s a s', Gives x s a s' → P a

namespace Ensures

theorem trivial (x : ExceptT ε (StateM σ) α) : Ensures x fun _ => True :=
  fun _ _ _ _ => .intro

theorem pure {P : α → Prop} {a : α} (h : P a) :
    Ensures (Pure.pure a : ExceptT ε (StateM σ) α) P := by
  intro s b s' hb
  rw [← (gives_pure.1 hb).1]
  exact h

theorem throw {P : α → Prop} {e : ε} :
    Ensures (MonadExcept.throw e : ExceptT ε (StateM σ) α) P := by
  intro s b s' hb
  cases hb

theorem liftM {P : α → Prop} {x : Except ε α} (h : ∀ a, x = .ok a → P a) :
    Ensures (MonadLiftT.monadLift x : ExceptT ε (StateM σ) α) P := by
  intro s b s' hb
  exact h b (gives_liftM.1 hb).1

theorem bind {P : α → Prop} {Q : β → Prop} {x : ExceptT ε (StateM σ) α}
    {f : α → ExceptT ε (StateM σ) β} (hx : Ensures x P) (hf : ∀ a, P a → Ensures (f a) Q) :
    Ensures (x >>= f) Q := by
  intro s b s' hb
  obtain ⟨a, t, ha, hb⟩ := gives_bind.1 hb
  exact hf a (hx s a t ha) t b s' hb

theorem after {Q : β → Prop} {x : ExceptT ε (StateM σ) α} {f : α → ExceptT ε (StateM σ) β}
    (hf : ∀ a, Ensures (f a) Q) : Ensures (x >>= f) Q :=
  (trivial x).bind fun a _ => hf a

end Ensures

def Fails (x : ExceptT ε (StateM σ) α) (P : ε → Prop) : Prop :=
  ∀ s e s', x.run s = (.error e, s') → P e

namespace Fails

variable {P : ε → Prop}

theorem pure {a : α} : Fails (Pure.pure a : ExceptT ε (StateM σ) α) P := by
  intro s e s' h
  cases h

theorem throw {e : ε} (h : P e) : Fails (MonadExcept.throw e : ExceptT ε (StateM σ) α) P := by
  intro s e' s' he
  cases he
  exact h

theorem liftM {x : Except ε α} (h : ∀ e, x = .error e → P e) :
    Fails (MonadLiftT.monadLift x : ExceptT ε (StateM σ) α) P := by
  intro s e s' he
  change ((x, s) : Except ε α × σ) = _ at he
  cases he
  exact h e rfl

theorem bind_gives {x : ExceptT ε (StateM σ) α} {f : α → ExceptT ε (StateM σ) β}
    (hx : Fails x P)
    (hf : ∀ s a s', Gives x s a s' → ∀ e s'', (f a).run s' = (.error e, s'') → P e) :
    Fails (x >>= f) P := by
  intro s e s' h
  rcases hrun : (x.run s : Except ε α × σ) with ⟨e' | a, t⟩
  · rw [run_bind_of_error hrun] at h
    cases h
    exact hx s _ _ hrun
  · rw [run_bind_of_gives hrun] at h
    exact hf s a t hrun e s' h

theorem bind {x : ExceptT ε (StateM σ) α} {f : α → ExceptT ε (StateM σ) β} (hx : Fails x P)
    (hf : ∀ a, Fails (f a) P) : Fails (x >>= f) P :=
  hx.bind_gives fun _ a s' _ => hf a s'

theorem tryCatch {x : ExceptT ε (StateM σ) α} {f : ε → ExceptT ε (StateM σ) α}
    (hf : ∀ e, Fails (f e) P) : Fails (MonadExcept.tryCatch x f) P := by
  intro s e s' h
  rcases hrun : (x.run s : Except ε α × σ) with ⟨e' | a, t⟩
  · rw [run_tryCatch_of_error hrun] at h
    exact hf e' t e s' h
  · rw [run_tryCatch_of_gives hrun] at h
    cases h

end Fails

end ImportAtlas.Outcome
