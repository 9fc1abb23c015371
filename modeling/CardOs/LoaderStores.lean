import CardOs.BootLoader
import CardOs.Library.StoreLog

/-! The single byte stores behind the loader's commands, in the order in which the
loops of `src/boot/cflash.c` make them: pages and blocks in ascending order, the
header region before OSFLASH. A power cut ends the sequence anywhere. -/
namespace CardOs.LoaderStores
open CardOs.Library CardOs.Library.BigEndian CardOs.Crc16 CardOs.CodeFlash CardOs.BootLoader

inductive FlashRegion where
  | oshdr
  | osflash
  deriving DecidableEq, Repr

/-- The commands that store. -/
inductive LoaderOp where
  | erase
  | load
  | verify
  | activate
  deriving DecidableEq, Repr

abbrev FlashStore := ByteStore FlashRegion LoaderOp

/-- The two regions a context works on. -/
def flashOf (ctx : BootCtx) : FlashRegion → Region
  | .oshdr => ctx.oshdr
  | .osflash => ctx.osflash

/-- The stores of `cf_erase_all`, when it accepts the region. -/
def cfEraseAllStores (region : FlashRegion) (base : Region) (pageSize : UInt32) : List FlashStore :=
  if (cfEraseAll base pageSize).1 ≠ .ok then []
  else (List.range (base.size.toNat / pageSize.toNat)).flatMap fun page =>
    ByteStore.ofBlock .erase region (page * pageSize.toNat) (List.replicate pageSize.toNat 0xFF)

/-- The stores of `cf_program`, when it accepts the block. -/
def cfProgramStores (op : LoaderOp) (region : FlashRegion) (base : Region) (off : UInt32) (src : List UInt8) :
    List FlashStore :=
  if (cfProgram base off src).1 ≠ .ok then [] else ByteStore.ofBlock op region off.toNat src

def doEraseStores (ctx : BootCtx) : List FlashStore :=
  cfEraseAllStores .oshdr ctx.oshdr ctx.pageSize ++
    if (cfEraseAll ctx.oshdr ctx.pageSize).1 ≠ .ok then [] else cfEraseAllStores .osflash ctx.osflash ctx.pageSize

def doLoadStores (p1 p2 : UInt8) (data : List UInt8) (ctx : BootCtx) : List FlashStore :=
  if !ctx.erased then []
  else if data.length = 0 ∨ data.length > bootBlockSize then []
  else
    let off := (word16 p1 p2).toNat * bootBlockSize
    if off + data.length > ctx.osflash.size.toNat then []
    else cfProgramStores .load .osflash ctx.osflash (UInt32.ofNat off) data

def doVerifyStores (data : List UInt8) (ctx : BootCtx) : List FlashStore :=
  if data.length ≠ 6 then []
  else if !ctx.erased then []
  else
    let len := rd32 data 0
    let crc := rd16 data 4
    if len = 0 ∨ len > ctx.osflash.size then []
    else if len > ctx.highWater then []
    else if crc16 (ctx.osflash.read 0 len.toNat) ≠ crc then []
    else if !bootImagePlausible ctx.osflash len ctx.loadAddr ctx.sramBase ctx.sramSize then []
    else
      let h : BootHdr := { length := len, imageCrc := crc, state := bootStateLoaded, version := bootHdrVersion }
      cfProgramStores .verify .oshdr ctx.oshdr 0 (bootHdrSerialise h)

def doActivateStores (ctx : BootCtx) : List FlashStore :=
  match (bootSlotCheck ctx.oshdr ctx.osflash).1 with
  | .loaded => cfProgramStores .activate .oshdr ctx.oshdr 14 [0x00, 0x00]
  | .blank | .damaged | .active => []

/-- The stores of the `switch` of `boot_handle`. -/
def bootDispatchStores (ins p1 p2 : UInt8) (data : List UInt8) (ctx : BootCtx) : List FlashStore :=
  if ins = bootInsErase then if data.length ≠ 0 ∨ p1 ≠ 0 ∨ p2 ≠ 0 then [] else doEraseStores ctx
  else if ins = bootInsLoad then if data.length = 0 then [] else doLoadStores p1 p2 data ctx
  else if ins = bootInsVerify then
    if data.length = 0 ∨ p1 ≠ 0 ∨ p2 ≠ 0 then [] else doVerifyStores data ctx
  else if ins = bootInsActivate then if data.length ≠ 0 ∨ p1 ≠ 0 ∨ p2 ≠ 0 then [] else doActivateStores ctx
  else []

def bootStores (cmd : List UInt8) (ctx : BootCtx) : List FlashStore :=
  if cmd.length < 4 then []
  else if cmd.getD 0 0 ≠ bootCla then []
  else match bodyOf cmd with
    | none => []
    | some data => bootDispatchStores (cmd.getD 1 0) (cmd.getD 2 0) (cmd.getD 3 0) data ctx

/-- Every store of a run of commands, in order. -/
def bootLog (ctx : BootCtx) (rspCap : UInt32) : List (List UInt8) → List FlashStore
  | [] => []
  | cmd :: rest => bootStores cmd ctx ++ bootLog (bootHandle cmd rspCap ctx).2 rspCap rest

/-- What the flash holds when power is lost after `n` stores of a run. -/
def survivingFlash (ctx : BootCtx) (cmds : List (List UInt8)) (rspCap : UInt32) (n : Nat) : FlashRegion → Region :=
  ByteStore.replay (flashOf ctx) ((bootLog ctx rspCap cmds).take n)

end CardOs.LoaderStores
