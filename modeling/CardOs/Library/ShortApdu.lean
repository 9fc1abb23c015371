import Mathlib.Data.List.Basic

/-! The short form of an ISO 7816-4 command: four header bytes, a data field of 1 to
255 bytes behind its length byte, and an expected length of 1 to 256 in one byte.
Either of the two last parts may be missing, which makes the four cases. -/
namespace CardOs.Library.ShortApdu

@[ext] structure DataField where
  bytes : List UInt8
  nonempty : bytes ≠ []
  short : bytes.length ≤ 255

/-- An expected length. -/
@[ext] structure Expected where
  amount : Nat
  positive : 1 ≤ amount
  short : amount ≤ 256

inductive Body where
  | case1
  | case2 (le : Expected)
  | case3 (data : DataField)
  | case4 (data : DataField) (le : Expected)

structure Command where
  cla : UInt8
  ins : UInt8
  p1 : UInt8
  p2 : UInt8
  body : Body

/-- 256 does not fit in a byte and is sent as zero. -/
def Expected.byte (le : Expected) : UInt8 := UInt8.ofNat le.amount

def DataField.encode (data : DataField) : List UInt8 := UInt8.ofNat data.bytes.length :: data.bytes

def Body.encode : Body → List UInt8
  | .case1 => []
  | .case2 le => [le.byte]
  | .case3 data => data.encode
  | .case4 data le => data.encode ++ [le.byte]

def Command.encode (c : Command) : List UInt8 := c.cla :: c.ins :: c.p1 :: c.p2 :: c.body.encode

/-- The expected length that a byte stands for. -/
def Expected.ofByte (b : UInt8) : Expected where
  amount := if b = 0 then 256 else b.toNat
  positive := by
    split
    · decide
    · rename_i other
      exact Nat.pos_of_ne_zero fun zero => other (UInt8.toNat_inj.mp zero)
  short := by
    have bound := b.toNat_lt
    split <;> omega

@[simp] theorem Expected.byte_ofByte (b : UInt8) : (Expected.ofByte b).byte = b := by
  by_cases zero : b = 0
  · simp [byte, ofByte, zero]
  · simp [byte, ofByte, zero]

@[simp] theorem Expected.ofByte_byte (le : Expected) : Expected.ofByte le.byte = le := by
  obtain ⟨amount, positive, short⟩ := le
  ext
  by_cases most : amount = 256
  · subst most
    simp [ofByte, byte]
  · have small : amount < 256 := by omega
    have value : (UInt8.ofNat amount).toNat = amount := UInt8.toNat_ofNat_of_lt' small
    have other : UInt8.ofNat amount ≠ 0 := by
      intro zero
      rw [zero] at value
      exact absurd positive (by rw [← value]; decide)
    simp only [ofByte, byte, if_neg other, value]

/-- The length byte in front of a data field is never zero and says its length. -/
theorem DataField.length_byte (data : DataField) :
    (UInt8.ofNat data.bytes.length).toNat = data.bytes.length ∧ UInt8.ofNat data.bytes.length ≠ 0 := by
  have value : (UInt8.ofNat data.bytes.length).toNat = data.bytes.length :=
    UInt8.toNat_ofNat_of_lt' (Nat.lt_succ_of_le data.short)
  refine ⟨value, fun zero => data.nonempty (List.length_eq_zero_iff.mp ?_)⟩
  rw [← value, zero]
  rfl

/-- A length byte that is not zero, and that many bytes, are a data field. -/
def DataField.ofLength {n : UInt8} {bytes : List UInt8} (some : n ≠ 0) (whole : bytes.length = n.toNat) : DataField where
  bytes := bytes
  nonempty := by
    rintro rfl
    exact some (UInt8.toNat_inj.mp whole.symm)
  short := by
    have bound := n.toNat_lt
    omega

theorem DataField.encode_ofLength {n : UInt8} {bytes : List UInt8} (some : n ≠ 0) (whole : bytes.length = n.toNat) :
    (DataField.ofLength some whole).encode = n :: bytes := by
  simp [encode, ofLength, whole]

end CardOs.Library.ShortApdu
