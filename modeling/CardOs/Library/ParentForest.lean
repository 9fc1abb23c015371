import Mathlib.Logic.Function.Basic

/-! Trees stored as parent links. A node is rooted when following its links
arrives at the root; adding a node that nothing used before and removing a node
that nothing points at both keep every other node rooted. -/
namespace CardOs.Library.ParentForest

variable {ι : Type}

/-- Follow `n` parent links. A missing link ends the walk with nothing. -/
def climb (parent : ι → Option ι) : Nat → ι → Option ι
  | 0, i => some i
  | n + 1, i => (parent i).bind (climb parent n)

/-- Finitely many links lead from `i` to the root. -/
def Rooted (parent : ι → Option ι) (root i : ι) : Prop := ∃ n, climb parent n i = some root

variable {parent : ι → Option ι} {root i p x : ι}

theorem rooted_self : Rooted parent root root := ⟨0, rfl⟩

theorem rooted_link (link : parent i = some p) (rooted : Rooted parent root p) :
    Rooted parent root i := by
  obtain ⟨n, walk⟩ := rooted
  exact ⟨n + 1, by rw [climb, link]; exact walk⟩

private theorem climb_loop (loop : parent i = some i) (n : Nat) : climb parent n i = some i := by
  induction n with
  | zero => rfl
  | succ n ih => rw [climb, loop]; exact ih

/-- A rooted node is not its own parent. -/
theorem rooted_not_loop (rooted : Rooted parent root i) (top : parent root = none) :
    parent i ≠ some i := by
  intro loop
  obtain ⟨n, walk⟩ := rooted
  rw [climb_loop loop n] at walk
  cases walk
  rw [loop] at top
  cases top

/-- More links keep every walk. -/
theorem climb_mono {parent' : ι → Option ι} {n : Nat} (links : ∀ j p, parent j = some p → parent' j = some p)
    (walk : climb parent n i = some x) : climb parent' n i = some x := by
  induction n generalizing i with
  | zero => exact walk
  | succ n ih =>
    rw [climb] at walk ⊢
    obtain ⟨q, up, rest⟩ := Option.bind_eq_some_iff.mp walk
    rw [links i q up]
    exact ih rest

/-- Walks to the root have one length. -/
theorem climb_unique {m n : Nat} (top : parent root = none) (first : climb parent m i = some root)
    (second : climb parent n i = some root) : m = n := by
  have stops : ∀ k, climb parent (k + 1) root ≠ some root := by
    intro k walk
    rw [climb, top] at walk
    cases walk
  induction m generalizing i n with
  | zero =>
    cases first
    cases n with
    | zero => rfl
    | succ n => exact absurd second (stops n)
  | succ m ih =>
    cases n with
    | zero =>
      cases second
      exact absurd first (stops m)
    | succ n =>
      rw [climb] at first second
      obtain ⟨p, up, rest⟩ := Option.bind_eq_some_iff.mp first
      rw [up] at second
      exact congrArg (· + 1) (ih rest second)

section Changes
variable [DecidableEq ι]

/-- A new node had no parent link before, so no old walk goes through it. -/
theorem climb_insert {link : Option ι} {n : Nat} (fresh : parent x = none) (walk : climb parent n i = some root) :
    climb (Function.update parent x link) n i = some root := by
  refine climb_mono (fun j p up => ?_) walk
  have other : j ≠ x := fun same => by rw [same, fresh] at up; cases up
  rw [Function.update_of_ne other]
  exact up

theorem rooted_insert {link : Option ι} (fresh : parent x = none) (rooted : Rooted parent root i) :
    Rooted (Function.update parent x link) root i :=
  rooted.imp fun _ => climb_insert fresh

/-- Removing a node that nothing points at cuts no other walk. -/
theorem rooted_remove (leaf : ∀ j, parent j ≠ some x) (other : i ≠ x)
    (rooted : Rooted parent root i) : Rooted (Function.update parent x none) root i := by
  obtain ⟨n, walk⟩ := rooted
  induction n generalizing i with
  | zero =>
    cases walk
    exact rooted_self
  | succ n ih =>
    rw [climb] at walk
    obtain ⟨q, up, rest⟩ := Option.bind_eq_some_iff.mp walk
    have beyond : q ≠ x := fun same => leaf i (same ▸ up)
    exact rooted_link (by rw [Function.update_of_ne other]; exact up) (ih beyond rest)

end Changes
end CardOs.Library.ParentForest
