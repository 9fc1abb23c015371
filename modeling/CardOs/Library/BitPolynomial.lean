import Mathlib.Algebra.Polynomial.FieldDivision
import Mathlib.Algebra.Field.ZMod
import Mathlib.Algebra.CharP.Two
import Mathlib.RingTheory.AdjoinRoot
import Mathlib.RingTheory.Coprime.Lemmas
import Mathlib.Tactic.LinearCombination

/-! Bit strings as polynomials over the field of two elements, the first bit the highest
coefficient, and what a multiple of a generator polynomial cannot look like: a burst no
longer than its degree, or an odd number of bits when 1 is a root of it. -/
namespace CardOs.Library.BitPolynomial
open Polynomial

noncomputable section

/-- The coefficient of a bit. -/
def coefficient (b : Bool) : ZMod 2 := if b then 1 else 0

/-- The polynomial of a bit string. -/
def bitPoly : List Bool → (ZMod 2)[X]
  | [] => 0
  | b :: rest => C (coefficient b) * X ^ rest.length + bitPoly rest

variable {g : (ZMod 2)[X]} {bits bits' : List Bool}

theorem bitPoly_append (bits bits' : List Bool) :
    bitPoly (bits ++ bits') = bitPoly bits * X ^ bits'.length + bitPoly bits' := by
  induction bits with
  | nil => simp [bitPoly]
  | cons b rest ih =>
    rw [List.cons_append, bitPoly, bitPoly, ih, List.length_append, pow_add]
    ring

theorem bitPoly_unset (unset : ∀ b ∈ bits, b = false) : bitPoly bits = 0 := by
  induction bits with
  | nil => rfl
  | cons b rest ih =>
    obtain ⟨rfl, later⟩ := List.forall_mem_cons.mp unset
    simp [bitPoly, coefficient, ih later]

theorem coefficient_xor (a b : Bool) : coefficient (a ^^ b) = coefficient a + coefficient b := by
  cases a <;> cases b <;> decide

theorem bitPoly_xor (same : bits.length = bits'.length) :
    bitPoly (List.zipWith xor bits bits') = bitPoly bits + bitPoly bits' := by
  induction bits generalizing bits' with
  | nil =>
    obtain rfl := List.length_eq_zero_iff.mp same.symm
    simp [bitPoly]
  | cons a rest ih =>
    obtain _ | ⟨b, rest'⟩ := bits'
    · cases same
    have same : rest.length = rest'.length := Nat.succ.inj same
    rw [List.zipWith_cons_cons, bitPoly, bitPoly, bitPoly, ih same, List.length_zipWith, ← same, Nat.min_self,
      coefficient_xor, C_add]
    ring

theorem eq_of_xor_unset (same : bits.length = bits'.length) (unset : ∀ b ∈ List.zipWith xor bits bits', b = false) :
    bits = bits' := by
  induction bits generalizing bits' with
  | nil => exact (List.length_eq_zero_iff.mp same.symm).symm
  | cons a rest ih =>
    obtain _ | ⟨b, rest'⟩ := bits'
    · cases same
    obtain ⟨first, later⟩ := List.forall_mem_cons.mp unset
    rw [ih (Nat.succ.inj same) later, show a = b by simpa using first]

theorem degree_bitPoly_lt (bits : List Bool) : (bitPoly bits).degree < bits.length := by
  induction bits with
  | nil => simp [bitPoly]
  | cons b rest ih =>
    refine (degree_add_le _ _).trans_lt (max_lt ?_ ?_)
    · refine (degree_C_mul_X_pow_le _ _).trans_lt ?_
      exact_mod_cast Nat.lt_succ_self _
    · refine ih.trans ?_
      exact_mod_cast Nat.lt_succ_self _

/-- Only unset bits make the zero polynomial. -/
theorem unset_of_bitPoly (zero : bitPoly bits = 0) : ∀ b ∈ bits, b = false := by
  induction bits with
  | nil => simp
  | cons b rest ih =>
    have top : coefficient b = 0 := by
      have coeff := congrArg (fun p => p.coeff rest.length) zero
      simpa [bitPoly, coeff_eq_zero_of_degree_lt (degree_bitPoly_lt rest)] using coeff
    have unset : b = false := by
      cases b with
      | false => rfl
      | true => exact absurd top (by decide)
    refine List.forall_mem_cons.mpr ⟨unset, ih ?_⟩
    simpa [bitPoly, top] using zero

/-- The value at 1 counts the set bits. -/
theorem eval_one_bitPoly (bits : List Bool) : (bitPoly bits).eval 1 = (bits.count true : ZMod 2) := by
  induction bits with
  | nil => simp [bitPoly]
  | cons b rest ih => cases b <;> simp [bitPoly, coefficient, ih, add_comm]

/-- A burst that fits below the degree of the generator is not a multiple of it, unless
it is no error at all. -/
theorem burst_unset {n start : Nat} (degree : g.degree = n) (apart : IsCoprime g X)
    (burst : ∀ k, bits[k]? = some true → start ≤ k ∧ k < start + n) (divides : g ∣ bitPoly bits) :
    ∀ b ∈ bits, b = false := by
  have before : bitPoly (bits.take start) = 0 := by
    refine bitPoly_unset fun b member => Bool.eq_false_iff.mpr fun set => ?_
    obtain ⟨k, inside, rfl⟩ := List.getElem_of_mem member
    rw [List.getElem_take] at set
    rw [List.length_take] at inside
    have placed := (burst k (List.getElem?_eq_some_iff.mpr ⟨by omega, set⟩)).1
    omega
  have behind : bitPoly ((bits.drop start).drop n) = 0 := by
    refine bitPoly_unset fun b member => Bool.eq_false_iff.mpr fun set => ?_
    obtain ⟨k, inside, rfl⟩ := List.getElem_of_mem member
    rw [List.getElem_drop, List.getElem_drop] at set
    have placed := (burst (start + (n + k)) (List.getElem?_eq_some_iff.mpr ⟨_, set⟩)).2
    omega
  -- the window is the whole polynomial up to a power of X, which the generator cannot share
  have whole : bitPoly bits = bitPoly ((bits.drop start).take n) * X ^ ((bits.drop start).drop n).length := by
    conv_lhs => rw [← List.take_append_drop start bits, ← List.take_append_drop n (bits.drop start)]
    rw [bitPoly_append, bitPoly_append, before, behind, zero_mul, zero_add, add_zero]
  have window : bitPoly ((bits.drop start).take n) = 0 := by
    refine eq_zero_of_dvd_of_degree_lt (apart.pow_right.dvd_of_dvd_mul_right (whole ▸ divides)) ?_
    rw [degree]
    refine (degree_bitPoly_lt _).trans_le ?_
    exact_mod_cast List.length_take_le _ _
  exact unset_of_bitPoly (by rw [whole, window, zero_mul])

/-- With 1 a root of the generator, a multiple of it has an even number of bits. -/
theorem even_of_dvd (root : g.eval 1 = 0) (divides : g ∣ bitPoly bits) : Even (bits.count true) := by
  obtain ⟨q, same⟩ := divides
  have count := eval_one_bitPoly bits
  rw [same, eval_mul, root, zero_mul] at count
  exact (ZMod.natCast_eq_zero_iff_even).mp count.symm

section Residue

/-- What a generator leaves of a bit string. -/
def residue (g : (ZMod 2)[X]) (bits : List Bool) : AdjoinRoot g := AdjoinRoot.mk g (bitPoly bits)

theorem residue_cons (b : Bool) (rest : List Bool) :
    residue g (b :: rest) = AdjoinRoot.mk g (C (coefficient b)) * AdjoinRoot.root g ^ rest.length + residue g rest := by
  simp [residue, bitPoly]

theorem residue_append (bits bits' : List Bool) :
    residue g (bits ++ bits') = residue g bits * AdjoinRoot.root g ^ bits'.length + residue g bits' := by
  simp [residue, bitPoly_append]

theorem residue_xor (same : bits.length = bits'.length) :
    residue g (List.zipWith xor bits bits') = residue g bits + residue g bits' := by
  rw [residue, bitPoly_xor same, map_add, residue, residue]

theorem residue_unset (unset : ∀ b ∈ bits, b = false) : residue g bits = 0 := by
  rw [residue, bitPoly_unset unset, map_zero]

theorem residue_eq_zero : residue g bits = 0 ↔ g ∣ bitPoly bits := AdjoinRoot.mk_eq_zero

/-- A residue added to itself is nothing. -/
theorem add_self (r : AdjoinRoot g) : r + r = 0 := by
  obtain ⟨p, rfl⟩ := AdjoinRoot.mk_surjective r
  rw [← map_add, CharTwo.add_self_eq_zero, map_zero]

end Residue

section Register
variable {n m : Nat}

/-- The bits of a word, the most significant one first. -/
def wordBits (v : BitVec n) : List Bool := List.ofFn fun i : Fin n => v.getMsbD i

@[simp] theorem length_wordBits (v : BitVec n) : (wordBits v).length = n := by simp [wordBits]

@[simp] theorem getElem_wordBits (v : BitVec n) {i : Nat} (inside : i < (wordBits v).length) :
    (wordBits v)[i] = v.getMsbD i := by
  simp [wordBits]

theorem wordBits_injective : Function.Injective (@wordBits n) := by
  intro v w same
  refine BitVec.eq_of_getMsbD_eq fun i inside => ?_
  exact congrFun (List.ofFn_injective same) ⟨i, inside⟩

theorem wordBits_xor (v w : BitVec n) : wordBits (v ^^^ w) = List.zipWith xor (wordBits v) (wordBits w) := by
  refine List.ext_getElem (by simp) fun i inside _ => ?_
  simp

theorem wordBits_append (v : BitVec n) (w : BitVec m) : wordBits (v ++ w) = wordBits v ++ wordBits w := by
  refine List.ext_getElem (by simp) fun i inside _ => ?_
  simp only [List.getElem_append, getElem_wordBits, length_wordBits, BitVec.getMsbD_append]
  by_cases first : i < n
  · rw [if_neg (by omega), dif_pos first]
  · rw [if_pos (by omega), dif_neg first]

/-- The generator of a register that folds `tail` in. -/
def generator (tail : BitVec n) : (ZMod 2)[X] := X ^ n + bitPoly (wordBits tail)

theorem degree_generator (tail : BitVec n) : (generator tail).degree = n := by
  have low := degree_bitPoly_lt (wordBits tail)
  rw [length_wordBits] at low
  rw [generator, degree_add_eq_left_of_degree_lt (by rwa [degree_X_pow]), degree_X_pow]

/-- Up to the generator its top power is its tail. -/
theorem residue_tail (tail : BitVec n) :
    residue (generator tail) (wordBits tail) = AdjoinRoot.root (generator tail) ^ n := by
  have whole : AdjoinRoot.mk (generator tail) (X ^ n + bitPoly (wordBits tail)) = 0 := AdjoinRoot.mk_self
  rw [map_add, map_pow, AdjoinRoot.mk_X, ← residue] at whole
  linear_combination whole - add_self (AdjoinRoot.root (generator tail) ^ n)

/-- One step of the register: shift, and fold `tail` in for the bit that left. -/
def shifted (tail v : BitVec n) : BitVec n := if v.msb then (v <<< 1) ^^^ tail else v <<< 1

/-- The shift takes the first bit off and puts an unset one behind. -/
theorem wordBits_shiftLeft (v : BitVec (n + 1)) :
    ∃ rest, wordBits v = v.msb :: rest ∧ wordBits (v <<< 1) = rest ++ [false] := by
  refine ⟨List.ofFn fun i : Fin n => v.getMsbD (i + 1), ?_, ?_⟩
  · rw [wordBits, List.ofFn_succ]
    rfl
  · refine List.ext_getElem (by simp) fun i inside _ => ?_
    rw [length_wordBits] at inside
    rw [getElem_wordBits, BitVec.getMsbD_shiftLeft]
    by_cases last : i < n
    · rw [List.getElem_append_left (by simpa using last), List.getElem_ofFn]
    · obtain rfl : i = n := by omega
      simp

/-- A step multiplies what the register holds by X, up to the generator. -/
theorem residue_shifted (tail v : BitVec n) :
    residue (generator tail) (wordBits (shifted tail v)) =
      residue (generator tail) (wordBits v) * AdjoinRoot.root (generator tail) := by
  cases n with
  | zero => simp [residue, wordBits, bitPoly]
  | succ n =>
    obtain ⟨rest, whole, moved⟩ := wordBits_shiftLeft v
    have size : rest.length = n := by simpa using (congrArg List.length whole).symm
    have start : residue (generator tail) (wordBits v) * AdjoinRoot.root (generator tail) =
        AdjoinRoot.mk _ (C (coefficient v.msb)) * AdjoinRoot.root (generator tail) ^ (n + 1) +
          residue (generator tail) (wordBits (v <<< 1)) := by
      rw [moved, whole, residue_append, residue_cons, size, residue_unset (show ∀ b ∈ [false], b = false by simp)]
      simp only [List.length_singleton]
      ring
    rw [start, shifted]
    cases v.msb with
    | false => simp [coefficient]
    | true =>
      rw [if_pos rfl, wordBits_xor, residue_xor (by simp), residue_tail]
      simp [coefficient, add_comm]

theorem residue_iterate (tail v : BitVec n) (k : Nat) :
    residue (generator tail) (wordBits ((shifted tail)^[k] v)) =
      residue (generator tail) (wordBits v) * AdjoinRoot.root (generator tail) ^ k := by
  induction k with
  | zero => simp
  | succ k ih => rw [Function.iterate_succ_apply', residue_shifted, ih, pow_succ, mul_assoc]

end Register

end

end CardOs.Library.BitPolynomial
