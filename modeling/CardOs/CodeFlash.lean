import CardOs.Library.ByteRegion

/-! `src/boot/cflash.c`: the rules code flash lives by. Erasing sets whole pages
to `FF`; programming can only clear bits and is refused as a whole when one byte
would need a bit set. -/
namespace CardOs.CodeFlash
open CardOs.Library

inductive CfStatus where
  | ok
  | param
  | range
  | align
  | notErased
  deriving DecidableEq, Repr

/-- `in_range`: the end of the request is computed in 64 bits. -/
def inRange (size off : UInt32) (n : Nat) : Bool := off.toNat + n ≤ size.toNat

def cfErasePage (base : Region) (pageSize off : UInt32) : CfStatus × Region :=
  if base.size = 0 ∨ pageSize = 0 then (.param, base)
  else if off % pageSize ≠ 0 then (.align, base)
  else if !inRange base.size off pageSize.toNat then (.range, base)
  else (.ok, base.fill off.toNat pageSize.toNat 0xFF)

/-- The page loop of `cf_erase_all` over the pages still to erase. -/
def erasePages (base : Region) (pageSize : UInt32) : List Nat → CfStatus × Region
  | [] => (.ok, base)
  | page :: rest =>
    match cfErasePage base pageSize (UInt32.ofNat (page * pageSize.toNat)) with
    | (.ok, base) => erasePages base pageSize rest
    | failed => failed

def cfEraseAll (base : Region) (pageSize : UInt32) : CfStatus × Region :=
  if base.size = 0 ∨ pageSize = 0 then (.param, base)
  else if base.size % pageSize ≠ 0 then (.range, base)
  else erasePages base pageSize (List.range (base.size.toNat / pageSize.toNat))

/-- No byte of the new block has a bit that the old one lacks. -/
def clearsOnly (old new : List UInt8) : Bool := (old.zip new).all fun (old, new) => old &&& new = new

def cfProgram (base : Region) (off : UInt32) (src : List UInt8) : CfStatus × Region :=
  if base.size = 0 then (.param, base)
  else if !inRange base.size off src.length then (.range, base)
  else if !clearsOnly (base.read off.toNat src.length) src then (.notErased, base)
  else (.ok, base.write off.toNat src)

end CardOs.CodeFlash
