import Mathlib.Data.List.GetD
import Mathlib.Tactic.Common

/-! A byte-addressed memory region of a fixed size. A block store happens one
byte at a time in ascending order; what later reads see of it is given by the
two frame rules, inside and outside the stored block. -/
namespace CardOs.Library

/-- A region of `size` bytes. Cells at or beyond `size` are never addressed by
a bounds-checked access. -/
@[ext] structure Region where
  size : UInt32
  byte : Nat → UInt8

namespace Region

/-- Every cell holds the same byte. -/
def uniform (size : UInt32) (b : UInt8) : Region := ⟨size, fun _ => b⟩

/-- Store one byte. -/
def store (r : Region) (offset : Nat) (b : UInt8) : Region :=
  { r with byte := fun i => if i = offset then b else r.byte i }

/-- Store a block, byte after byte from its first. -/
def write (r : Region) (offset : Nat) : List UInt8 → Region
  | [] => r
  | b :: rest => (r.store offset b).write (offset + 1) rest

/-- Set `n` cells to the same byte. -/
def fill (r : Region) (offset n : Nat) (b : UInt8) : Region :=
  { r with byte := fun i => if offset ≤ i ∧ i < offset + n then b else r.byte i }

/-- The block of `n` bytes starting at `offset`. -/
def read (r : Region) (offset n : Nat) : List UInt8 :=
  (List.range n).map fun i => r.byte (offset + i)

variable {r : Region} {offset offset' n i : Nat} {b : UInt8} {bytes : List UInt8}

@[simp] theorem store_size : (r.store offset b).size = r.size := rfl

@[simp] theorem fill_size : (r.fill offset n b).size = r.size := rfl

theorem fill_byte : (r.fill offset n b).byte i = if offset ≤ i ∧ i < offset + n then b else r.byte i := rfl

@[simp] theorem write_size : (r.write offset bytes).size = r.size := by
  induction bytes generalizing r offset with
  | nil => rfl
  | cons b rest ih => rw [write, ih, store_size]

@[simp] theorem read_length : (r.read offset n).length = n := by
  simp [read]

theorem read_getElem (inside : i < (r.read offset n).length) :
    (r.read offset n)[i] = r.byte (offset + i) := by
  simp [read]

theorem read_getD (inside : i < n) : (r.read offset n).getD i 0 = r.byte (offset + i) := by
  rw [List.getD_eq_getElem _ _ (by simpa using inside), read_getElem]

/-- Cells outside a stored block keep their byte. -/
theorem byte_write_outside (outside : i < offset ∨ offset + bytes.length ≤ i) :
    (r.write offset bytes).byte i = r.byte i := by
  induction bytes generalizing r offset with
  | nil => rfl
  | cons b rest ih =>
    simp only [List.length_cons] at outside
    rw [write, ih (by omega)]
    simp only [store]
    rw [if_neg (by omega)]

/-- Cells inside a stored block hold its bytes in order. -/
theorem byte_write_inside (inside : i < bytes.length) :
    (r.write offset bytes).byte (offset + i) = bytes[i] := by
  induction bytes generalizing r offset i with
  | nil => simp at inside
  | cons b rest ih =>
    cases i with
    | zero =>
      rw [write, byte_write_outside (by omega)]
      simp [store]
    | succ i =>
      rw [write, show offset + (i + 1) = offset + 1 + i by omega,
        ih (by simpa using inside), List.getElem_cons_succ]

/-- Reading a stored block gives it back. -/
theorem read_write_same (whole : n = bytes.length) : (r.write offset bytes).read offset n = bytes := by
  apply List.ext_getElem
  · simp [whole]
  · intro i left right
    rw [read_getElem, byte_write_inside right]

/-- Reading beside a stored block sees the region as it was. -/
theorem read_write_apart (apart : offset' + n ≤ offset ∨ offset + bytes.length ≤ offset') :
    (r.write offset bytes).read offset' n = r.read offset' n := by
  apply List.map_congr_left
  intro i member
  have bound := List.mem_range.mp member
  exact byte_write_outside (by omega)

/-- Storing the bytes that a block holds changes nothing. -/
theorem write_read_same : r.write offset (r.read offset n) = r := by
  have cells : (r.write offset (r.read offset n)).byte = r.byte := by
    funext i
    by_cases inside : offset ≤ i ∧ i < offset + n
    · obtain ⟨k, rfl⟩ := Nat.exists_eq_add_of_le inside.1
      have bound : k < (r.read offset n).length := by
        rw [read_length]
        omega
      rw [byte_write_inside bound, read_getElem]
    · exact byte_write_outside (by rw [read_length]; omega)
  exact Region.ext write_size cells

/-- Blocks agree when all their cells do. -/
theorem read_congr {r' : Region} (same : ∀ i < n, r'.byte (offset + i) = r.byte (offset + i)) :
    r'.read offset n = r.read offset n :=
  List.map_congr_left fun i member => same i (List.mem_range.mp member)

/-- Reading cells that all hold the same byte. -/
theorem read_replicate (same : ∀ i < n, r.byte (offset + i) = b) : r.read offset n = List.replicate n b := by
  refine List.eq_replicate_iff.mpr ⟨read_length, fun c member => ?_⟩
  obtain ⟨i, inside, rfl⟩ := List.mem_map.mp member
  exact same i (List.mem_range.mp inside)

/-- A block read in two pieces. -/
theorem read_append (m : Nat) : r.read offset (n + m) = r.read offset n ++ r.read (offset + n) m := by
  simp only [read, List.range_add, List.map_append, List.map_map, Function.comp_def, Nat.add_assoc]

/-- A block stored right behind what is read extends it. -/
theorem read_write_end : (r.write n bytes).read 0 (n + bytes.length) = r.read 0 n ++ bytes := by
  rw [read_append, read_write_apart (.inl (Nat.le_of_eq (Nat.zero_add n))), Nat.zero_add, read_write_same rfl]

theorem take_read (m : Nat) (le : m ≤ n) : (r.read offset n).take m = r.read offset m := by
  rw [read, ← List.map_take, List.take_range, Nat.min_eq_left le, read]

theorem drop_read (m : Nat) : (r.read offset n).drop m = r.read (offset + m) (n - m) := by
  apply List.ext_getElem
  · simp
  · intro i left right
    rw [List.getElem_drop, read_getElem, read_getElem, Nat.add_assoc]

/-- A block stored inside what is read replaces that part of it. -/
theorem read_write_inside {m : Nat} (inside : m + bytes.length ≤ n) :
    (r.write (offset + m) bytes).read offset n =
      (r.read offset n).take m ++ bytes ++ (r.read offset n).drop (m + bytes.length) := by
  have parts : n = m + bytes.length + (n - (m + bytes.length)) := by omega
  rw [take_read m (by omega), drop_read, ← Nat.add_assoc]
  conv_lhs => rw [parts, read_append, read_append]
  rw [read_write_apart (.inl (Nat.le_refl _)), read_write_same rfl, ← Nat.add_assoc,
    read_write_apart (.inr (Nat.le_refl _))]

@[simp] theorem uniform_byte {size : UInt32} : (uniform size b).byte i = b := rfl

theorem uniform_read {size : UInt32} : (uniform size b).read offset n = List.replicate n b := by
  apply List.ext_getElem
  · simp
  · intro i left right
    rw [read_getElem, List.getElem_replicate, uniform_byte]

end Region
end CardOs.Library
