import CardOs.Apdu
import CardOs.Library.StoreLog

/-! `src/apdu/apdu_resp.c` down to the caller's buffer. The builder never reads what it
stored, so that all it does to the buffer is a log of byte stores, each at its distance
from `buf`; nothing in the types keeps a store below `cap`. -/
namespace CardOs.ResponseBuffer
open CardOs.Library CardOs.Library.BigEndian CardOs.Apdu

/-- One byte stored through `buf`. -/
abbrev BufStore := ByteStore Unit Unit

/-- `apdu_response`, with the stores made so far; `buf` is false for `NULL`. -/
structure Response where
  buf : Bool
  cap : UInt16
  len : UInt16
  overflow : Bool
  stores : List BufStore
  deriving DecidableEq, Repr

def apduRspInit (buf : Bool) (cap : UInt16) : Response := ⟨buf, if buf then cap else 0, 0, false, []⟩

/-- The lengths are added in 32 bits, and the room for the copy is a difference that
`size_t` takes modulo 2^32. -/
def apduRspPut (r : Response) (src : Option (List UInt8)) (n : UInt16) : Bool × Response :=
  if n = 0 then (true, r)
  else match src with
    | none => (false, { r with overflow := true })
    | some src =>
      let reserve : UInt32 := 2
      let available := if r.cap.toUInt32 ≥ reserve then r.cap.toUInt32 - reserve else 0
      if r.len.toUInt32 + n.toUInt32 > available then (false, { r with overflow := true })
      else match osMemcpyChecked (r.cap.toUInt32 - r.len.toUInt32).toNat (src.take n.toNat) with
        | none => (false, { r with overflow := true })
        | some copied =>
          (true, { r with len := r.len + n, stores := r.stores ++ ByteStore.ofBlock () () r.len.toNat copied })

def apduRspPutU8 (r : Response) (b : UInt8) : Bool × Response := apduRspPut r (some [b]) 1

def apduRspPutU16 (r : Response) (v : UInt16) : Bool × Response := apduRspPut r (some (bytes16 v)) 2

/-- The length returned, and the response with its status word. -/
def apduRspFinish (r : Response) (sw : Sw) : UInt16 × Response :=
  if r.buf = false ∨ r.cap < 2 then (0, r)
  else
    let len := if r.overflow then 0 else r.len
    let status := if r.overflow then swNoPreciseDiagnosis else sw
    (len + 2, { r with len := len + 2, stores :=
      r.stores ++ [⟨(), (), len.toNat, sw1 status⟩, ⟨(), (), len.toNat + 1, sw2 status⟩] })

/-- A call of the builder. The caller's source is readable for as many bytes as it says. -/
inductive PushCall where
  | put (src : Option (List UInt8)) (n : UInt16) (readable : ∀ bytes, src = some bytes → n.toNat ≤ bytes.length)
  | putU8 (b : UInt8)
  | putU16 (v : UInt16)

def PushCall.push (r : Response) : PushCall → Bool × Response
  | .put src n _ => apduRspPut r src n
  | .putU8 b => apduRspPutU8 r b
  | .putU16 v => apduRspPutU16 r v

/-- The builder after a sequence of calls, whatever each of them returned. -/
def pushAll (r : Response) (calls : List PushCall) : Response := calls.foldl (fun r c => (c.push r).2) r

/-- The buffer after the stores of a response, from what it held before. -/
def buffer (memory : Region) (r : Response) : Region := ByteStore.replay (fun _ => memory) r.stores ()

end CardOs.ResponseBuffer
