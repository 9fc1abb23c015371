import Mathlib.Logic.Function.Basic
import Mathlib.Data.List.Basic

/-! Checksums kept in a register that takes one item at a time. When a step loses
neither the register nor the item, two sequences that differ in one item have
different checksums. -/
namespace CardOs.Library.Checksum

variable {σ α : Type} {f : σ → α → σ} {s : σ}

/-- The rest of a sequence does not hide a difference in the register. -/
theorem foldl_injective (register : ∀ a, Function.Injective fun s => f s a) (items : List α) :
    Function.Injective fun s => items.foldl f s := by
  induction items with
  | nil => exact Function.injective_id
  | cons a rest ih => exact ih.comp (register a)

/-- One changed item changes the checksum. -/
theorem foldl_set_ne {items : List α} {k : Nat} {b : α} (register : ∀ a, Function.Injective fun s => f s a)
    (item : ∀ s, Function.Injective (f s)) (inside : k < items.length) (changed : b ≠ items[k]) :
    (items.set k b).foldl f s ≠ items.foldl f s := by
  induction items generalizing s k with
  | nil => cases inside
  | cons a rest ih =>
    cases k with
    | zero => exact fun same => changed (item s (foldl_injective register rest same))
    | succ k => exact ih (Nat.lt_of_succ_lt_succ inside) changed

end CardOs.Library.Checksum
