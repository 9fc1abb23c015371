import Mathlib.Tactic.Common
import Mathlib.Data.Nat.Bitwise

/-! Big-endian words, written and read a byte at a time with shifts and masks.
The arithmetic meaning of both directions gives the round trips. -/
namespace CardOs.Library.BigEndian

/-- The two bytes of a 16-bit word, most significant first. -/
def bytes16 (v : UInt16) : List UInt8 := [(v >>> 8).toUInt8, (v &&& 0xFF).toUInt8]

/-- The 16-bit word of two bytes. -/
def word16 (hi lo : UInt8) : UInt16 := (hi.toUInt16 <<< 8) ||| lo.toUInt16

/-- The four bytes of a 32-bit word, most significant first. -/
def bytes32 (v : UInt32) : List UInt8 :=
  [(v >>> 24).toUInt8, (v >>> 16).toUInt8, (v >>> 8).toUInt8, (v &&& 0xFF).toUInt8]

/-- The 32-bit word of four bytes. -/
def word32 (a b c d : UInt8) : UInt32 :=
  (a.toUInt32 <<< 24) ||| (b.toUInt32 <<< 16) ||| (c.toUInt32 <<< 8) ||| d.toUInt32

private theorem shifted_or (hi lo width : Nat) (small : lo < 2 ^ width) :
    hi * 2 ^ width ||| lo = hi * 2 ^ width + lo := by
  rw [← Nat.shiftLeft_eq, ← Nat.shiftLeft_add_eq_or_of_lt small]

theorem low_byte (n : Nat) : n &&& 255 = n % 256 := Nat.and_two_pow_sub_one_eq_mod n 8

theorem word16_toNat (hi lo : UInt8) : (word16 hi lo).toNat = hi.toNat * 2 ^ 8 + lo.toNat := by
  have hiBound := hi.toNat_lt
  have loBound := lo.toNat_lt
  have value : (word16 hi lo).toNat = hi.toNat * 2 ^ 8 % 2 ^ 16 ||| lo.toNat := by
    simp [word16, Nat.shiftLeft_eq]
  rw [value, Nat.mod_eq_of_lt (by omega), shifted_or _ _ _ loBound]

theorem word32_toNat (a b c d : UInt8) :
    (word32 a b c d).toNat = a.toNat * 2 ^ 24 + b.toNat * 2 ^ 16 + c.toNat * 2 ^ 8 + d.toNat := by
  have aBound := a.toNat_lt
  have bBound := b.toNat_lt
  have cBound := c.toNat_lt
  have dBound := d.toNat_lt
  have value : (word32 a b c d).toNat =
      a.toNat * 2 ^ 24 % 2 ^ 32 ||| b.toNat * 2 ^ 16 % 2 ^ 32 ||| c.toNat * 2 ^ 8 % 2 ^ 32 |||
        d.toNat := by
    simp [word32, Nat.shiftLeft_eq]
  rw [value, Nat.mod_eq_of_lt (by omega), Nat.mod_eq_of_lt (by omega), Nat.mod_eq_of_lt (by omega),
    shifted_or _ _ 24 (by omega),
    show a.toNat * 2 ^ 24 + b.toNat * 2 ^ 16 = (a.toNat * 2 ^ 8 + b.toNat) * 2 ^ 16 by omega,
    shifted_or _ _ 16 (by omega),
    show (a.toNat * 2 ^ 8 + b.toNat) * 2 ^ 16 + c.toNat * 2 ^ 8 =
      (a.toNat * 2 ^ 16 + b.toNat * 2 ^ 8 + c.toNat) * 2 ^ 8 by omega,
    shifted_or _ _ 8 (by omega)]

/-- Reading back the two bytes of a word gives the word. -/
@[simp] theorem word16_bytes16 (v : UInt16) :
    word16 (v >>> 8).toUInt8 (v &&& 0xFF).toUInt8 = v := by
  have bound := v.toNat_lt
  apply UInt16.toNat_inj.mp
  rw [word16_toNat]
  simp [Nat.shiftRight_eq_div_pow, low_byte]
  omega

/-- Reading back the four bytes of a word gives the word. -/
@[simp] theorem word32_bytes32 (v : UInt32) :
    word32 (v >>> 24).toUInt8 (v >>> 16).toUInt8 (v >>> 8).toUInt8 (v &&& 0xFF).toUInt8 = v := by
  have bound := v.toNat_lt
  apply UInt32.toNat_inj.mp
  rw [word32_toNat]
  simp [Nat.shiftRight_eq_div_pow, low_byte]
  omega

/-- Writing the word of two bytes gives the bytes. -/
theorem bytes16_word16 (hi lo : UInt8) : bytes16 (word16 hi lo) = [hi, lo] := by
  have hiBound := hi.toNat_lt
  have loBound := lo.toNat_lt
  have high : ((word16 hi lo) >>> 8).toUInt8 = hi := by
    apply UInt8.toNat_inj.mp
    simp [word16_toNat, Nat.shiftRight_eq_div_pow]
    omega
  have low : ((word16 hi lo) &&& 0xFF).toUInt8 = lo := by
    apply UInt8.toNat_inj.mp
    simp [word16_toNat, low_byte]
  rw [bytes16, high, low]

/-- Writing the word of four bytes gives the bytes. -/
theorem bytes32_word32 (a b c d : UInt8) : bytes32 (word32 a b c d) = [a, b, c, d] := by
  have aBound := a.toNat_lt
  have bBound := b.toNat_lt
  have cBound := c.toNat_lt
  have dBound := d.toNat_lt
  have value := word32_toNat a b c d
  have first : ((word32 a b c d) >>> 24).toUInt8 = a := by
    apply UInt8.toNat_inj.mp
    simp [value, Nat.shiftRight_eq_div_pow]
    omega
  have second : ((word32 a b c d) >>> 16).toUInt8 = b := by
    apply UInt8.toNat_inj.mp
    simp [value, Nat.shiftRight_eq_div_pow]
    omega
  have third : ((word32 a b c d) >>> 8).toUInt8 = c := by
    apply UInt8.toNat_inj.mp
    simp [value, Nat.shiftRight_eq_div_pow]
    omega
  have fourth : ((word32 a b c d) &&& 0xFF).toUInt8 = d := by
    apply UInt8.toNat_inj.mp
    simp [value, low_byte]
    omega
  rw [bytes32, first, second, third, fourth]

@[simp] theorem bytes16_length (v : UInt16) : (bytes16 v).length = 2 := rfl

@[simp] theorem bytes32_length (v : UInt32) : (bytes32 v).length = 4 := rfl

end CardOs.Library.BigEndian
