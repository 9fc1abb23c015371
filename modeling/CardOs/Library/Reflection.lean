import CardOs.Library.Action

/-! An action that only looks at its state carries out a pure computation: both stop
with the same error, or return values that belong together. The rules take the two
apart at the same binds. -/
namespace CardOs.Library.Action

variable {ε ε' σ τ α β γ δ : Type}

/-- The same error, or values that belong together. -/
inductive Matches (R : α → β → Prop) : Except ε α → Except ε β → Prop
  | error (e : ε) : Matches R (.error e) (.error e)
  | ok {a : α} {b : β} (related : R a b) : Matches R (.ok a) (.ok b)

/-- Run from `s`, the action changes nothing and ends as the pure computation does. -/
def Reflects (x : Action ε σ α) (s : σ) (R : α → β → Prop) (y : Except ε β) : Prop := ∃ r, x s = (r, s) ∧ Matches R r y

variable {x : Action ε σ α} {f : α → Action ε σ γ} {s : σ} {y : Except ε β} {g : β → Except ε δ}
  {R : α → β → Prop} {Q : γ → δ → Prop} {a : α} {b : β} {e : ε}

theorem reflects_pure (related : R a b) : Reflects (pure a : Action ε σ α) s R (.ok b) := ⟨_, rfl, .ok related⟩

theorem reflects_fail : Reflects (fail e : Action ε σ α) s R (.error e) := ⟨_, rfl, .error e⟩

theorem reflects_ok (ran : x s = (.ok a, s)) (related : R a b) : Reflects x s R (.ok b) := ⟨_, ran, .ok related⟩

theorem reflects_error (ran : x s = (.error e, s)) : Reflects x s R (.error e) := ⟨_, ran, .error e⟩

/-- Both stop with the same error, or both return. -/
theorem reflects_cases (reflects : Reflects x s R y) :
    (∃ e, x s = (.error e, s) ∧ y = .error e) ∨ ∃ a b, x s = (.ok a, s) ∧ y = .ok b ∧ R a b := by
  obtain ⟨r, ran, matched⟩ := reflects
  cases matched with
  | error e => exact .inl ⟨e, ran, rfl⟩
  | ok related => exact .inr ⟨_, _, ran, rfl, related⟩

theorem reflects_bind (first : Reflects x s R y) (rest : ∀ a b, R a b → Reflects (f a) s Q (g b)) :
    Reflects (x >>= f) s Q (y >>= g) := by
  rcases reflects_cases first with ⟨e, ran, rfl⟩ | ⟨a, b, ran, rfl, related⟩
  · exact reflects_error (bind_error ran)
  · obtain ⟨r, ran', matched⟩ := rest a b related
    exact ⟨r, (bind_ok ran).trans ran', matched⟩

end CardOs.Library.Action
