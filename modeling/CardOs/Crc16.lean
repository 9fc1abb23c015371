import Mathlib.Logic.Function.Iterate

/-! `src/kernel/crc16.c`: CRC-16/CCITT-FALSE, computed bit by bit. Polynomial
`0x1021`, initial value `0xFFFF`, no reflection and no final exclusive or. -/
namespace CardOs.Crc16

/-- The inner loop body: shift out the top bit and fold the polynomial in when
it was set. -/
def crcBit (crc : UInt16) : UInt16 :=
  if crc &&& 0x8000 ≠ 0 then (crc <<< 1) ^^^ 0x1021 else crc <<< 1

/-- The outer loop body: one byte enters at the top, then eight bit steps. -/
def crcByte (crc : UInt16) (b : UInt8) : UInt16 :=
  crcBit^[8] (crc ^^^ (b.toUInt16 <<< 8))

def crc16 (data : List UInt8) : UInt16 := data.foldl crcByte 0xFFFF

example : crc16 [0x31, 0x32, 0x33, 0x34, 0x35, 0x36, 0x37, 0x38, 0x39] = 0x29B1 := by
  decide +kernel

end CardOs.Crc16
