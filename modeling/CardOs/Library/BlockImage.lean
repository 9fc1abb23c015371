import Mathlib.Data.List.Basic
import Mathlib.Order.Lattice

/-! An image put together from blocks that arrive in any order, overlap and leave
gaps: a position holds what the latest block covering it brought. -/
namespace CardOs.Library

structure Block (α : Type) where
  offset : Nat
  data : List α
  deriving DecidableEq, Repr

namespace Block
variable {α : Type} {blocks : List (Block α)} {b : Block α} {fill : α} {i : Nat}

/-- The position behind the block. -/
def stop (b : Block α) : Nat := b.offset + b.data.length

def covers (b : Block α) (i : Nat) : Bool := b.offset ≤ i && i < b.offset + b.data.length

/-- The image of the blocks, oldest first, over a background. -/
def imageAt (fill : α) (blocks : List (Block α)) (i : Nat) : α :=
  match blocks.reverse.find? fun b => b.covers i with
  | some b => b.data.getD (i - b.offset) fill
  | none => fill

/-- The position behind every block. -/
def reach (blocks : List (Block α)) : Nat := (blocks.map stop).foldl max 0

theorem covers_iff : b.covers i = true ↔ b.offset ≤ i ∧ i < b.offset + b.data.length := by
  simp [covers]

/-- One more block hides what it covers and nothing else. -/
theorem imageAt_concat : imageAt fill (blocks ++ [b]) i =
    if b.covers i then b.data.getD (i - b.offset) fill else imageAt fill blocks i := by
  unfold imageAt
  rw [List.reverse_append, List.reverse_singleton, List.singleton_append, List.find?_cons]
  cases b.covers i <;> rfl

/-- Where no other block reaches, a block shows or else the background does. -/
theorem imageAt_alone (member : b ∈ blocks) (alone : ∀ c ∈ blocks, c ≠ b → c.covers i = false) :
    imageAt fill blocks i = if b.covers i then b.data.getD (i - b.offset) fill else fill := by
  unfold imageAt
  split
  · rename_i c found
    have covered := List.find?_some found
    have same : c = b := by
      by_contra other
      have bare := alone c (List.mem_reverse.mp (List.mem_of_find?_eq_some found)) other
      exact absurd covered (by rw [bare]; exact Bool.false_ne_true)
    rw [← same, if_pos covered]
  · rename_i none
    rw [if_neg (List.find?_eq_none.mp none b (List.mem_reverse.mpr member))]

theorem reach_concat : reach (blocks ++ [b]) = max (reach blocks) b.stop := by
  simp [reach]

end Block
end CardOs.Library
