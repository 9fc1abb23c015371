import Mathlib.Logic.Function.Basic

/-! Tables whose entries never clash, and extents handed out by a bump allocator
as a case of them. Every extent lies below the allocator's top and no two
overlap, so an extent placed at or above the top clashes with none; giving one
back or moving the top up disturbs nothing. -/
namespace CardOs.Library

/-- No two entries of a table are related. -/
def Distinct {ι α : Type} (clash : α → α → Prop) (table : ι → Option α) : Prop :=
  ∀ i j a b, table i = some a → table j = some b → clash a b → i = j

section Distinct
variable {ι α : Type} [DecidableEq ι] {clash : α → α → Prop} {table : ι → Option α} {x : ι} {new : α}

theorem distinct_insert (symmetric : ∀ a b, clash a b → clash b a) (distinct : Distinct clash table)
    (fresh : ∀ i a, table i = some a → ¬ clash a new) :
    Distinct clash (Function.update table x (some new)) := by
  intro i j a b here there related
  by_cases first : i = x
  · by_cases second : j = x
    · rw [first, second]
    · subst first
      rw [Function.update_self] at here
      rw [Function.update_of_ne second] at there
      cases here
      exact absurd (symmetric _ _ related) (fresh j b there)
  · rw [Function.update_of_ne first] at here
    by_cases second : j = x
    · subst second
      rw [Function.update_self] at there
      cases there
      exact absurd related (fresh i a here)
    · rw [Function.update_of_ne second] at there
      exact distinct i j a b here there related

theorem distinct_remove (distinct : Distinct clash table) :
    Distinct clash (Function.update table x none) := by
  intro i j a b here there related
  by_cases first : i = x
  · subst first
    simp at here
  · by_cases second : j = x
    · subst second
      simp at there
    · rw [Function.update_of_ne first] at here
      rw [Function.update_of_ne second] at there
      exact distinct i j a b here there related

end Distinct

namespace Extents

/-- Two half-open extents `[start, stop)` share a cell, or an empty one lies
inside the other. -/
def Overlap (a b : Nat × Nat) : Prop := b.1 < a.2 ∧ a.1 < b.2

/-- Extents that a bump allocator has handed out. -/
structure Packed {ι : Type} (extent : ι → Option (Nat × Nat)) (top : Nat) : Prop where
  below : ∀ i a, extent i = some a → a.2 ≤ top
  apart : Distinct Overlap extent

variable {ι : Type} {extent : ι → Option (Nat × Nat)} {top top' : Nat}

theorem Packed.raise (packed : Packed extent top) (up : top ≤ top') : Packed extent top' where
  below i a owned := Nat.le_trans (packed.below i a owned) up
  apart := packed.apart

section Changes
variable [DecidableEq ι] {x : ι}

theorem Packed.remove (packed : Packed extent top) : Packed (Function.update extent x none) top where
  below := by
    intro i a owned
    by_cases same : i = x
    · subst same
      simp at owned
    · rw [Function.update_of_ne same] at owned
      exact packed.below i a owned
  apart := distinct_remove packed.apart

/-- A new extent between the old top and the new one. -/
theorem Packed.insert {new : Option (Nat × Nat)} (packed : Packed extent top) (up : top ≤ top')
    (placed : ∀ a, new = some a → top ≤ a.1 ∧ a.2 ≤ top') :
    Packed (Function.update extent x new) top' := by
  cases new with
  | none => exact packed.remove.raise up
  | some new =>
    obtain ⟨above, below⟩ := placed new rfl
    refine ⟨?_, distinct_insert ?_ packed.apart ?_⟩
    · intro i a owned
      by_cases same : i = x
      · subst same
        rw [Function.update_self] at owned
        cases owned
        exact below
      · rw [Function.update_of_ne same] at owned
        exact Nat.le_trans (packed.below i a owned) up
    · rintro a b ⟨left, right⟩
      exact ⟨right, left⟩
    · rintro i a owned ⟨left, _⟩
      have bound := packed.below i a owned
      exact absurd (Nat.lt_of_lt_of_le left (Nat.le_trans bound above)) (Nat.lt_irrefl _)

end Changes
end Extents
end CardOs.Library
