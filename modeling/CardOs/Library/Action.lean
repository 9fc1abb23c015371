import Mathlib.Logic.Basic

/-! Computations over a state that may stop with an error and keep the state
they had reached when they stopped, the way a C function returning a status
leaves behind every store it made before the failing one. The lemmas peel such
a computation apart at its binds, so that no proof unfolds the monad. -/
namespace CardOs.Library

/-- A computation that either returns a value or stops with an error. The state
is produced in both cases: an error undoes nothing. -/
def Action (ε σ α : Type) : Type := σ → Except ε α × σ

namespace Action

/-- Run the first computation and hand its value on, unless it stopped. -/
def andThen (x : Action ε σ α) (f : α → Action ε σ β) : Action ε σ β := fun s =>
  match x s with
  | (.ok a, s') => f a s'
  | (.error e, s') => (.error e, s')

instance : Monad (Action ε σ) where
  pure a := fun s => (.ok a, s)
  bind := andThen

/-- Stop here with an error. -/
def fail (e : ε) : Action ε σ α := fun s => (.error e, s)

/-- The current state. -/
def state : Action ε σ σ := fun s => (.ok s, s)

/-- Replace the state by a function of it. -/
def update (f : σ → σ) : Action ε σ Unit := fun s => (.ok (), f s)

/-- Run a computation and report how it ended instead of stopping with it: the
caller that compares a returned status and goes on. -/
def attempt (x : Action ε σ α) : Action ε' σ (Except ε α) := fun s =>
  match x s with
  | (r, s') => (.ok r, s')

/-- Run a computation on a part of a larger state, translating its errors. -/
def within (get : τ → σ) (set : σ → τ → τ) (err : ε → ε') (x : Action ε σ α) : Action ε' τ α :=
  fun t => match x (get t) with
  | (.ok a, s) => (.ok a, set s t)
  | (.error e, s) => (.error (err e), set s t)

variable {ε ε' σ τ α β : Type} {x : Action ε σ α} {f : α → Action ε σ β} {s s' s'' : σ} {a : α}
  {b : β} {e : ε}

@[simp] theorem run_pure : (pure a : Action ε σ α) s = (.ok a, s) := rfl

@[simp] theorem run_fail : (fail e : Action ε σ α) s = (.error e, s) := rfl

@[simp] theorem run_state : (state : Action ε σ σ) s = (.ok s, s) := rfl

@[simp] theorem run_update {g : σ → σ} : (update g : Action ε σ Unit) s = (.ok (), g s) := rfl

@[simp] theorem run_attempt : (attempt x : Action ε' σ _) s = (.ok (x s).1, (x s).2) := rfl

theorem run_bind : (x >>= f) s =
    match x s with
    | (.ok a, s') => f a s'
    | (.error e, s') => (.error e, s') := rfl

theorem bind_ok (ran : x s = (.ok a, s')) : (x >>= f) s = f a s' := by
  rw [run_bind, ran]

theorem bind_error (ran : x s = (.error e, s')) : (x >>= f) s = (.error e, s') := by
  rw [run_bind, ran]

/-- Reading the state, or another computation that cannot stop, hands its value
straight to what follows. -/
@[simp] theorem state_bind {g : σ → Action ε σ β} : (state >>= g) s = g s s := rfl

@[simp] theorem pure_bind {g : α → Action ε σ β} : ((pure a : Action ε σ α) >>= g) s = g a s := rfl

@[simp] theorem fail_bind {g : α → Action ε σ β} :
    ((fail e : Action ε σ α) >>= g) s = (.error e, s) := rfl

@[simp] theorem update_bind {h : σ → σ} {g : Unit → Action ε σ β} :
    (update h >>= g) s = g () (h s) := rfl

@[simp] theorem attempt_bind {g : Except ε α → Action ε' σ β} :
    (attempt x >>= g) s = g (x s).1 (x s).2 := rfl

/-- A sequence that returned a value passed through a value of its first part. -/
theorem bind_eq_ok (ran : (x >>= f) s = (.ok b, s'')) :
    ∃ a s', x s = (.ok a, s') ∧ f a s' = (.ok b, s'') := by
  rw [run_bind] at ran
  split at ran
  · exact ⟨_, _, by assumption, ran⟩
  · simp at ran

/-- A sequence that stopped did so in its first part or, after a value of the
first part, in its second. -/
theorem bind_eq_error (ran : (x >>= f) s = (.error e, s'')) :
    x s = (.error e, s'') ∨ ∃ a s', x s = (.ok a, s') ∧ f a s' = (.error e, s'') := by
  rw [run_bind] at ran
  split at ran
  · exact .inr ⟨_, _, by assumption, ran⟩
  · rename_i stopped
    left
    rw [stopped]
    simpa using ran

theorem within_ok {get : τ → σ} {set : σ → τ → τ} {err : ε → ε'} {t : τ}
    (ran : x (get t) = (.ok a, s')) : within get set err x t = (.ok a, set s' t) := by
  rw [within, ran]

theorem within_error {get : τ → σ} {set : σ → τ → τ} {err : ε → ε'} {t : τ}
    (ran : x (get t) = (.error e, s')) : within get set err x t = (.error (err e), set s' t) := by
  rw [within, ran]

/-- Run from `s`, the computation changes nothing, and a value it returns
satisfies `P`. -/
def Inspects (x : Action ε σ α) (s : σ) (P : α → Prop) : Prop :=
  (x s).2 = s ∧ ∀ a, (x s).1 = .ok a → P a

variable {P Q : α → Prop} {R : β → Prop}

theorem inspects_of_eq {r : Except ε α} (ran : x s = (r, s)) (holds : ∀ a, r = .ok a → P a) :
    Inspects x s P := by
  unfold Inspects
  rw [ran]
  exact ⟨rfl, holds⟩

/-- An inspection returns a value that satisfies `P`, or stops. -/
theorem inspects_cases (inspects : Inspects x s P) :
    (∃ a, x s = (.ok a, s) ∧ P a) ∨ ∃ e, x s = (.error e, s) := by
  obtain ⟨same, holds⟩ := inspects
  rcases ran : x s with ⟨r, s'⟩
  rw [ran] at same holds
  obtain rfl : s' = s := same
  cases r with
  | error e => exact .inr ⟨e, rfl⟩
  | ok a => exact .inl ⟨a, rfl, holds a rfl⟩

theorem inspects_pure (holds : P a) : Inspects (pure a : Action ε σ α) s P :=
  inspects_of_eq rfl fun _ returned => Except.ok.inj returned ▸ holds

theorem inspects_fail : Inspects (fail e : Action ε σ α) s P :=
  inspects_of_eq rfl fun _ returned => nomatch returned

theorem inspects_bind (first : Inspects x s Q) (rest : ∀ a, Q a → Inspects (f a) s R) :
    Inspects (x >>= f) s R := by
  unfold Inspects
  rcases inspects_cases first with ⟨a, ran, holds⟩ | ⟨e, ran⟩
  · rw [bind_ok ran]
    exact rest a holds
  · rw [bind_error ran]
    exact ⟨rfl, by simp⟩

theorem inspects_state_bind {g : σ → Action ε σ β} (rest : Inspects (g s) s R) :
    Inspects (state >>= g) s R := rest

theorem inspects_attempt_bind {g : Except ε α → Action ε' σ β} (first : Inspects x s Q)
    (returned : ∀ a, Q a → Inspects (g (.ok a)) s R) (stopped : ∀ e, Inspects (g (.error e)) s R) :
    Inspects (attempt x >>= g) s R := by
  obtain ⟨same, holds⟩ := first
  unfold Inspects
  rw [attempt_bind, same]
  cases result : (x s).1 with
  | error e => exact stopped e
  | ok a => exact returned a (holds a result)

theorem inspects_mono (inspects : Inspects x s P) (weaker : ∀ a, P a → Q a) : Inspects x s Q :=
  ⟨inspects.1, fun a returned => weaker a (inspects.2 a returned)⟩

/-- An inspection of a part of the state inspects the whole. -/
theorem inspects_within {get : τ → σ} {set : σ → τ → τ} {err : ε → ε'} {t : τ}
    (inspects : Inspects x (get t) P) (unchanged : set (get t) t = t) :
    Inspects (within get set err x) t P := by
  rcases inspects_cases inspects with ⟨a, ran, holds⟩ | ⟨e, ran⟩
  · refine inspects_of_eq (r := .ok a) (by rw [within_ok ran, unchanged]) ?_
    rintro b ⟨⟩
    exact holds
  · exact inspects_of_eq (r := .error (err e)) (by rw [within_error ran, unchanged]) (by simp)

/-- From every state, the computation stops with an error that satisfies `E` or
returns a value that satisfies `P`. -/
def Ends (x : Action ε σ α) (E : ε → Prop) (P : α → Prop) : Prop :=
  ∀ s, (∀ e s', x s = (.error e, s') → E e) ∧ ∀ a s', x s = (.ok a, s') → P a

/-- The computation never changes the part of the state that `get` reads. -/
def Keeps (x : Action ε σ α) (get : σ → γ) : Prop := ∀ s, get (x s).2 = get s

section Everywhere
variable {γ : Type} {E : ε → Prop} {get : σ → γ}

theorem ends_pure (holds : P a) : Ends (pure a : Action ε σ α) E P := by
  intro s
  constructor
  · rintro e s' ⟨⟩
  · rintro b s' ⟨⟩
    exact holds

theorem ends_fail (allowed : E e) : Ends (fail e : Action ε σ α) E P := by
  intro s
  constructor
  · rintro e s' ⟨⟩
    exact allowed
  · rintro b s' ⟨⟩

theorem ends_state {P : σ → Prop} (holds : ∀ s, P s) : Ends (state : Action ε σ σ) E P := by
  intro s
  constructor
  · rintro e s' ⟨⟩
  · rintro b s' ⟨⟩
    exact holds s

theorem ends_update {g : σ → σ} {P : Unit → Prop} (holds : P ()) :
    Ends (update g : Action ε σ Unit) E P := by
  intro s
  constructor
  · rintro e s' ⟨⟩
  · rintro b s' ⟨⟩
    exact holds

theorem ends_bind (first : Ends x E Q) (rest : ∀ a, Q a → Ends (f a) E R) : Ends (x >>= f) E R := by
  intro s
  constructor
  · intro e s' ran
    rcases bind_eq_error ran with stopped | ⟨a, s₁, went, stopped⟩
    · exact (first s).1 e s' stopped
    · exact (rest a ((first s).2 a s₁ went) s₁).1 e s' stopped
  · intro b s' ran
    obtain ⟨a, s₁, went, returned⟩ := bind_eq_ok ran
    exact (rest a ((first s).2 a s₁ went) s₁).2 b s' returned

theorem ends_any : Ends x (fun _ => True) (fun _ => True) :=
  fun _ => ⟨fun _ _ _ => trivial, fun _ _ _ => trivial⟩

theorem ends_within {E' : ε' → Prop} {read : τ → σ} {set : σ → τ → τ} {err : ε → ε'} (ends : Ends x E P)
    (allowed : ∀ e, E e → E' (err e)) : Ends (within read set err x) E' P := by
  intro t
  constructor
  · intro e t' ran
    unfold within at ran
    split at ran
    · cases ran
    · rename_i stopped
      cases ran
      exact allowed _ ((ends _).1 _ _ stopped)
  · intro a t' ran
    unfold within at ran
    split at ran
    · rename_i returned
      cases ran
      exact (ends _).2 _ _ returned
    · cases ran

theorem keeps_pure : Keeps (pure a : Action ε σ α) get := fun _ => rfl

theorem keeps_fail : Keeps (fail e : Action ε σ α) get := fun _ => rfl

theorem keeps_bind (first : Keeps x get) (rest : ∀ a, Keeps (f a) get) : Keeps (x >>= f) get := by
  intro s
  have here := first s
  rcases ran : x s with ⟨_ | a, s'⟩
  · rw [bind_error ran]
    rw [ran] at here
    exact here
  · rw [bind_ok ran]
    rw [ran] at here
    exact (rest a s').trans here

theorem keeps_state_bind {g : σ → Action ε σ β} (rest : ∀ s, Keeps (g s) get) :
    Keeps (state >>= g) get := fun s => rest s s

theorem keeps_update {g : σ → σ} (same : ∀ s, get (g s) = get s) :
    Keeps (update g : Action ε σ Unit) get := same

theorem keeps_within {get : τ → γ} {read : τ → σ} {set : σ → τ → τ} {err : ε → ε'}
    (same : ∀ s t, get (set s t) = get t) : Keeps (within read set err x) get := by
  intro t
  unfold within
  split
  · exact same _ t
  · exact same _ t

end Everywhere

/-- Run from `s`, the computation leaves a state related to `s`: by `stopped` when
it stops with an error, by `returned` when it returns a value. -/
def Moves (x : Action ε σ α) (s : σ) (stopped returned : σ → σ → Prop) : Prop :=
  (∀ e s', x s = (.error e, s') → stopped s s') ∧ ∀ a s', x s = (.ok a, s') → returned s s'

section Moving
variable {S R S' R' : σ → σ → Prop}

theorem moves_pure [Std.Refl R] : Moves (pure a : Action ε σ α) s S R := by
  constructor
  · rintro e s' ⟨⟩
  · rintro b s' ⟨⟩
    exact Std.Refl.refl s

theorem moves_fail [Std.Refl S] : Moves (fail e : Action ε σ α) s S R := by
  constructor
  · rintro e s' ⟨⟩
    exact Std.Refl.refl s
  · rintro b s' ⟨⟩

theorem moves_mono (moves : Moves x s S R) (stopped : ∀ s', S s s' → S' s s')
    (returned : ∀ s', R s s' → R' s s') : Moves x s S' R' :=
  ⟨fun e s' ran => stopped s' (moves.1 e s' ran), fun a s' ran => returned s' (moves.2 a s' ran)⟩

/-- A first part that stays within `S` however it ends, and a rest that does so
when it stops. -/
theorem moves_bind [Trans S S S] [Trans S R R] (first : Moves x s S S)
    (rest : ∀ a s', x s = (.ok a, s') → Moves (f a) s' S R) : Moves (x >>= f) s S R := by
  constructor
  · intro e s'' ran
    rcases bind_eq_error ran with stopped | ⟨a, s', went, stopped⟩
    · exact first.1 e s'' stopped
    · exact Trans.trans (first.2 a s' went) ((rest a s' went).1 e s'' stopped)
  · intro b s'' ran
    obtain ⟨a, s', went, returned⟩ := bind_eq_ok ran
    exact Trans.trans (first.2 a s' went) ((rest a s' went).2 b s'' returned)

/-- Returning another value moves nothing. -/
theorem moves_map (moves : Moves x s S R) (g : α → β) : Moves (x >>= fun a => pure (g a)) s S R := by
  constructor
  · intro e s' ran
    rcases bind_eq_error ran with stopped | ⟨a, s₁, _, impossible⟩
    · exact moves.1 e s' stopped
    · cases impossible
  · intro b s' ran
    obtain ⟨a, s₁, went, returned⟩ := bind_eq_ok ran
    cases returned
    exact moves.2 a s' went

theorem moves_state_bind {g : σ → Action ε σ β} (rest : Moves (g s) s S R) :
    Moves (state >>= g) s S R := rest

end Moving

/-- From every variant of `s` the computation does what it does from `s`: it never
asks for what the variants differ in. -/
def Blind (vary : ι → σ → σ) (x : Action ε σ α) (s : σ) : Prop :=
  ∀ v, x (vary v s) = ((x s).1, vary v (x s).2)

/-- Run from `s`, the computation leaves a state related to `s` and is blind to
what the variants of `s` differ in. -/
def Looks (vary : ι → σ → σ) (x : Action ε σ α) (s : σ) (R : σ → σ → Prop) : Prop :=
  R s (x s).2 ∧ Blind vary x s

/-- Running `x` from `s`, or from a variant of it, is running `y` from `s'`, or from
the same variant of that. -/
def Becomes (vary : ι → σ → σ) (x : Action ε σ α) (s : σ) (y : Action ε σ α) (s' : σ) : Prop :=
  x s = y s' ∧ ∀ v, x (vary v s) = y (vary v s')

section Looking
variable {ι : Type} {vary : ι → σ → σ} {R : σ → σ → Prop}

theorem looks_moves (looks : Looks vary x s R) : Moves x s R R := by
  have related := looks.1
  refine ⟨fun e s' ran => ?_, fun a s' ran => ?_⟩ <;> rwa [ran] at related

theorem looks_pure [Std.Refl R] : Looks vary (pure a : Action ε σ α) s R := ⟨Std.Refl.refl s, fun _ => rfl⟩

theorem looks_fail [Std.Refl R] : Looks vary (fail e : Action ε σ α) s R := ⟨Std.Refl.refl s, fun _ => rfl⟩

theorem blind_ok (blind : Blind vary x s) (ran : x s = (.ok a, s')) (v : ι) :
    x (vary v s) = (.ok a, vary v s') := by
  rw [blind v, ran]

theorem blind_error (blind : Blind vary x s) (ran : x s = (.error e, s')) (v : ι) :
    x (vary v s) = (.error e, vary v s') := by
  rw [blind v, ran]

theorem looks_bind [Trans R R R] (first : Looks vary x s R)
    (rest : ∀ a s', x s = (.ok a, s') → Looks vary (f a) s' R) : Looks vary (x >>= f) s R := by
  obtain ⟨moved, blind⟩ := first
  rcases ran : x s with ⟨e | a, s'⟩
  · rw [ran] at moved
    unfold Looks Blind
    rw [bind_error ran]
    exact ⟨moved, fun v => bind_error (blind_error blind ran v)⟩
  · rw [ran] at moved
    obtain ⟨moved', blind'⟩ := rest a s' ran
    unfold Looks Blind
    rw [bind_ok ran]
    refine ⟨Trans.trans moved moved', fun v => ?_⟩
    rw [bind_ok (blind_ok blind ran v)]
    exact blind' v

theorem looks_state_bind {g : σ → Action ε σ β} (same : ∀ v, g (vary v s) = g s) (rest : Looks vary (g s) s R) :
    Looks vary (state >>= g) s R := by
  refine ⟨rest.1, fun v => ?_⟩
  rw [state_bind, same]
  exact rest.2 v

theorem looks_attempt_bind [Trans R R R] {g : Except ε α → Action ε' σ β} (first : Looks vary x s R)
    (rest : ∀ r s', x s = (r, s') → Looks vary (g r) s' R) : Looks vary (attempt x >>= g) s R := by
  obtain ⟨moved, blind⟩ := first
  obtain ⟨moved', blind'⟩ := rest (x s).1 (x s).2 rfl
  refine ⟨Trans.trans moved moved', fun v => ?_⟩
  rw [attempt_bind, blind v]
  exact blind' v

theorem looks_within {get : τ → σ} {set : σ → τ → τ} {err : ε → ε'} {t : τ} {vary' : ι → τ → τ}
    {R' : τ → τ → Prop} (looks : Looks vary x (get t) R) (reads : ∀ v, get (vary' v t) = vary v (get t))
    (writes : ∀ v s, set (vary v s) (vary' v t) = vary' v (set s t)) (related : ∀ s, R (get t) s → R' t (set s t)) :
    Looks vary' (within get set err x) t R' := by
  obtain ⟨moved, blind⟩ := looks
  rcases ran : x (get t) with ⟨e | a, s'⟩
  · rw [ran] at moved
    unfold Looks Blind
    rw [within_error ran]
    refine ⟨related s' moved, fun v => ?_⟩
    rw [within_error (by rw [reads]; exact blind_error blind ran v), writes]
  · rw [ran] at moved
    unfold Looks Blind
    rw [within_ok ran]
    refine ⟨related s' moved, fun v => ?_⟩
    rw [within_ok (by rw [reads]; exact blind_ok blind ran v), writes]

/-- After a first part that looked and returned, only the rest is left to do. -/
theorem becomes_ok {g : Action ε σ β} (blind : Blind vary x s) (ran : x s = (.ok a, s'))
    (rest : Becomes vary (f a) s' g s'') : Becomes vary (x >>= f) s g s'' := by
  refine ⟨(bind_ok ran).trans rest.1, fun v => ?_⟩
  rw [bind_ok (blind_ok blind ran v)]
  exact rest.2 v

theorem becomes_error {g : Action ε σ β} (blind : Blind vary x s) (ran : x s = (.error e, s'))
    (stops : ∀ s, g s = (.error e, s)) : Becomes vary (x >>= f) s g s' := by
  refine ⟨(bind_error ran).trans (stops s').symm, fun v => ?_⟩
  rw [bind_error (blind_error blind ran v), stops]

end Looking

/-- From a state with `inv`, the computation keeps `inv` and uses up at most `n` of
what `left` counts. -/
def Spends (inv : σ → Prop) (left : σ → Nat) (n : Nat) (x : Action ε σ α) : Prop :=
  ∀ s, inv s → inv (x s).2 ∧ left s ≤ left (x s).2 + n

section Spending
variable {inv : σ → Prop} {left : σ → Nat} {n m k : Nat}

theorem spends_pure : Spends inv left n (pure a : Action ε σ α) := fun _ holds => ⟨holds, Nat.le_add_right _ _⟩

theorem spends_fail : Spends inv left n (fail e : Action ε σ α) := fun _ holds => ⟨holds, Nat.le_add_right _ _⟩

theorem spends_mono (spends : Spends inv left n x) (enough : n ≤ k) : Spends inv left k x := fun s holds =>
  ⟨(spends s holds).1, Nat.le_trans (spends s holds).2 (Nat.add_le_add_left enough _)⟩

theorem spends_update {g : σ → σ} (keeps : ∀ s, inv s → inv (g s)) (same : ∀ s, left (g s) = left s) :
    Spends inv left n (update g : Action ε σ Unit) := fun s holds =>
  ⟨keeps s holds, by rw [run_update, same]; exact Nat.le_add_right _ _⟩

/-- What two computations one after the other use up adds. -/
theorem spends_bind (first : Spends inv left n x) (rest : ∀ a, Spends inv left m (f a)) (enough : n + m ≤ k) :
    Spends inv left k (x >>= f) := by
  intro s holds
  obtain ⟨holds', spent⟩ := first s holds
  rcases ran : x s with ⟨e | a, s'⟩
  all_goals rw [ran] at holds' spent
  · rw [bind_error ran]
    exact ⟨holds', by dsimp only at spent ⊢; omega⟩
  · rw [bind_ok ran]
    obtain ⟨holds'', spent'⟩ := rest a s' holds'
    exact ⟨holds'', by dsimp only at spent; omega⟩

theorem spends_state_bind {g : σ → Action ε σ β} (rest : ∀ s, inv s → Spends inv left n (g s)) :
    Spends inv left n (state >>= g) := fun s holds => rest s holds s holds

theorem spends_attempt_bind {g : Except ε α → Action ε' σ β} (first : Spends inv left n x)
    (rest : ∀ r, Spends inv left m (g r)) (enough : n + m ≤ k) : Spends inv left k (attempt x >>= g) := by
  intro s holds
  obtain ⟨holds', spent⟩ := first s holds
  obtain ⟨holds'', spent'⟩ := rest (x s).1 (x s).2 holds'
  rw [attempt_bind]
  exact ⟨holds'', by omega⟩

theorem spends_within {get : τ → σ} {set : σ → τ → τ} {err : ε → ε'} (spends : Spends inv left n x)
    (reads : ∀ s t, get (set s t) = s) :
    Spends (fun t => inv (get t)) (fun t => left (get t)) n (within get set err x) := by
  intro t holds
  obtain ⟨holds', spent⟩ := spends (get t) holds
  rcases ran : x (get t) with ⟨e | a, s'⟩
  all_goals rw [ran] at holds' spent
  · rw [within_error ran]
    dsimp only
    rw [reads]
    exact ⟨holds', spent⟩
  · rw [within_ok ran]
    dsimp only
    rw [reads]
    exact ⟨holds', spent⟩

end Spending

end Action
end CardOs.Library
