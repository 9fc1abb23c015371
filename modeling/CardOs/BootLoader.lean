import CardOs.CodeFlash
import CardOs.Crc16
import CardOs.Library.BigEndian

/-! `src/boot/boot_hdr.c` and `src/boot/boot_loader.c`: the slot header, the boot
decision and the loader's commands, over the two flash regions of a context. -/
namespace CardOs.BootLoader
open CardOs.Library CardOs.Library.BigEndian CardOs.Crc16 CardOs.CodeFlash

def bootHdrSize : Nat := 16
def bootHdrMagic : List UInt8 := [0x53, 0x43, 0x4F, 0x53]
def bootHdrVersion : UInt16 := 1
def bootStateLoaded : UInt16 := 0xFFFF
def bootStateActive : UInt16 := 0x0000
def bootBlockSize : Nat := 128

structure BootHdr where
  length : UInt32
  imageCrc : UInt16
  state : UInt16
  version : UInt16
  deriving DecidableEq, Repr

def rd16 (p : List UInt8) (k : Nat) : UInt16 := word16 (p.getD k 0) (p.getD (k + 1) 0)

def rd32 (p : List UInt8) (k : Nat) : UInt32 :=
  word32 (p.getD k 0) (p.getD (k + 1) 0) (p.getD (k + 2) 0) (p.getD (k + 3) 0)

def bootHdrParse (raw : List UInt8) : Option BootHdr :=
  if raw.take 4 ≠ bootHdrMagic then none
  else if rd16 raw 4 ≠ bootHdrVersion then none
  else if rd16 raw 12 ≠ crc16 (raw.take 12) then none
  else some { version := rd16 raw 4, length := rd32 raw 6, imageCrc := rd16 raw 10, state := rd16 raw 14 }

/-- The twelve header bytes the header CRC covers. -/
def hdrBody (length : UInt32) (imageCrc : UInt16) : List UInt8 :=
  bootHdrMagic ++ bytes16 bootHdrVersion ++ bytes32 length ++ bytes16 imageCrc

/-- The state word is left erased. -/
def bootHdrSerialise (h : BootHdr) : List UInt8 :=
  hdrBody h.length h.imageCrc ++ bytes16 (crc16 (hdrBody h.length h.imageCrc)) ++ [0xFF, 0xFF]

inductive BootSlotState where
  | blank
  | loaded
  | active
  | damaged
  deriving DecidableEq, Repr

def BootSlotState.code : BootSlotState → UInt8
  | .blank => 0
  | .loaded => 1
  | .active => 2
  | .damaged => 3

inductive BootAction where
  | none
  | restart
  deriving DecidableEq, Repr

structure BootCtx where
  osflash : Region
  oshdr : Region
  pageSize : UInt32
  loadAddr : UInt32
  sramBase : UInt32
  sramSize : UInt32
  highWater : UInt32
  erased : Bool

def bootCtxInit (osflash oshdr : Region) (pageSize loadAddr sramBase sramSize : UInt32) : BootCtx :=
  { osflash, oshdr, pageSize, loadAddr, sramBase, sramSize, highWater := 0, erased := false }

/-- The header a caller starts from, and keeps when none can be parsed. -/
def BootHdr.zeroed : BootHdr := ⟨0, 0, 0, 0⟩

/-- The slot state, and the header handed out when one could be parsed. -/
def bootSlotCheck (oshdr osflash : Region) : BootSlotState × BootHdr :=
  if oshdr.size.toNat < bootHdrSize then (.damaged, .zeroed)
  else match bootHdrParse (oshdr.read 0 bootHdrSize) with
    | none => (.blank, .zeroed)
    | some h =>
      if h.length = 0 ∨ h.length > osflash.size then (.damaged, h)
      else if crc16 (osflash.read 0 h.length.toNat) ≠ h.imageCrc then (.damaged, h)
      else (if h.state = bootStateActive then .active else .loaded, h)

/-- A little-endian word of the image. -/
def imageWord (img : Region) (k : Nat) : UInt32 :=
  word32 (img.byte (k + 3)) (img.byte (k + 2)) (img.byte (k + 1)) (img.byte k)

/-- The stack pointer must lie above the base of SRAM and the reset vector be a
Thumb address inside the image; both bounds are computed in 64 bits. -/
def bootImagePlausible (img : Region) (len loadAddr sramBase sramSize : UInt32) : Bool :=
  let sp := imageWord img 0
  let pc := imageWord img 4
  let entry := pc &&& 0xFFFFFFFE
  if len < 8 then false
  else if sp ≤ sramBase ∨ sp.toNat > sramBase.toNat + sramSize.toNat then false
  else if sp % 4 ≠ 0 then false
  else if pc &&& 1 = 0 then false
  else if entry < loadAddr then false
  else if entry.toNat ≥ loadAddr.toNat + len.toNat then false
  else true

def swOk : UInt16 := 0x9000
def swWrongLength : UInt16 := 0x6700
def swWrongP1P2 : UInt16 := 0x6A86
def swNoSpace : UInt16 := 0x6A84
def swCondNotMet : UInt16 := 0x6985
def swMemoryFailure : UInt16 := 0x6581
def swNotFound : UInt16 := 0x6A82
def swBadData : UInt16 := 0x6A80
def swDataInvalid : UInt16 := 0x6984
def swInsNotSup : UInt16 := 0x6D00
def swClaNotSup : UInt16 := 0x6E00

def bootCla : UInt8 := 0x80
def bootInsGetStatus : UInt8 := 0xF2
def bootInsErase : UInt8 := 0x0E
def bootInsLoad : UInt8 := 0x54
def bootInsVerify : UInt8 := 0xA0
def bootInsActivate : UInt8 := 0x44
def bootInsRestart : UInt8 := 0xF0

def bootStatusRspLen : UInt32 := 16

/-- What a command hands back: status word, response data and action. -/
structure BootReply where
  sw : UInt16
  rsp : List UInt8
  action : BootAction
  deriving DecidableEq, Repr

def BootReply.word (sw : UInt16) : BootReply := ⟨sw, [], .none⟩

def buildStatus (rspCap : UInt32) (ctx : BootCtx) : BootReply :=
  if rspCap < bootStatusRspLen then .word swWrongLength
  else
    let (st, h) := bootSlotCheck ctx.oshdr ctx.osflash
    let h := if st = .loaded ∨ st = .active then h else .zeroed
    { sw := swOk
      rsp := [1, st.code] ++ bytes32 ctx.osflash.size ++ bytes32 h.length ++ bytes16 h.imageCrc ++
        [UInt8.ofNat bootBlockSize, if ctx.erased then 1 else 0] ++ bytes16 ctx.highWater.toUInt16
      action := .none }

/-- The header is erased before the image. -/
def doErase (ctx : BootCtx) : UInt16 × BootCtx :=
  match cfEraseAll ctx.oshdr ctx.pageSize with
  | (.ok, oshdr) =>
    match cfEraseAll ctx.osflash ctx.pageSize with
    | (.ok, osflash) => (swOk, { ctx with oshdr, osflash, erased := true, highWater := 0 })
    | (_, osflash) => (swMemoryFailure, { ctx with oshdr, osflash })
  | (_, oshdr) => (swMemoryFailure, { ctx with oshdr })

def doLoad (p1 p2 : UInt8) (data : List UInt8) (ctx : BootCtx) : UInt16 × BootCtx :=
  if !ctx.erased then (swCondNotMet, ctx)
  else if data.length = 0 ∨ data.length > bootBlockSize then (swWrongLength, ctx)
  else
    let off := (word16 p1 p2).toNat * bootBlockSize
    if off + data.length > ctx.osflash.size.toNat then (swNoSpace, ctx)
    else match cfProgram ctx.osflash (UInt32.ofNat off) data with
      | (.ok, osflash) =>
        let highWater :=
          if off + data.length > ctx.highWater.toNat then UInt32.ofNat (off + data.length) else ctx.highWater
        (swOk, { ctx with osflash, highWater })
      | (.notErased, _) => (swCondNotMet, ctx)
      | (_, _) => (swMemoryFailure, ctx)

/-- Program the slot header, as VERIFY and ACTIVATE end. -/
def programHdr (off : UInt32) (src : List UInt8) (ctx : BootCtx) : UInt16 × BootCtx :=
  match cfProgram ctx.oshdr off src with
  | (.ok, oshdr) => (swOk, { ctx with oshdr })
  | (_, _) => (swMemoryFailure, ctx)

def doVerify (data : List UInt8) (ctx : BootCtx) : UInt16 × BootCtx :=
  if data.length ≠ 6 then (swWrongLength, ctx)
  else if !ctx.erased then (swCondNotMet, ctx)
  else
    let len := rd32 data 0
    let crc := rd16 data 4
    if len = 0 ∨ len > ctx.osflash.size then (swNoSpace, ctx)
    else if len > ctx.highWater then (swBadData, ctx)
    else if crc16 (ctx.osflash.read 0 len.toNat) ≠ crc then (swBadData, ctx)
    else if !bootImagePlausible ctx.osflash len ctx.loadAddr ctx.sramBase ctx.sramSize then
      (swDataInvalid, ctx)
    else
      let h : BootHdr := { length := len, imageCrc := crc, state := bootStateLoaded, version := bootHdrVersion }
      programHdr 0 (bootHdrSerialise h) ctx

def doActivate (ctx : BootCtx) : UInt16 × BootCtx :=
  match (bootSlotCheck ctx.oshdr ctx.osflash).1 with
  | .blank => (swNotFound, ctx)
  | .damaged => (swDataInvalid, ctx)
  | .active => (swOk, ctx)
  | .loaded => programHdr 14 [0x00, 0x00] ctx

def doRestart (ctx : BootCtx) : BootReply :=
  if (bootSlotCheck ctx.oshdr ctx.osflash).1 ≠ .active then .word swNotFound else ⟨swOk, [], .restart⟩

/-- The data field of a command in one of the two accepted shapes. -/
def bodyOf (cmd : List UInt8) : Option (List UInt8) :=
  if cmd.length > 5 then
    if cmd.getD 4 0 = 0 ∨ (cmd.getD 4 0).toNat ≠ cmd.length - 5 then none else some (cmd.drop 5)
  else if cmd.length = 5 then
    if cmd.getD 4 0 ≠ 0 ∧ cmd.getD 1 0 ≠ bootInsGetStatus then none else some []
  else some []

/-- A command that only hands a status word back. -/
def replyWord (result : UInt16 × BootCtx) : BootReply × BootCtx := (.word result.1, result.2)

/-- The checks of the commands that take no data and no parameters. -/
def plainly (p1 p2 : UInt8) (data : List UInt8) (ctx : BootCtx) (act : BootReply × BootCtx) :
    BootReply × BootCtx :=
  if data.length ≠ 0 then (.word swWrongLength, ctx)
  else if p1 ≠ 0 ∨ p2 ≠ 0 then (.word swWrongP1P2, ctx)
  else act

/-- The `switch` of `boot_handle`. -/
def bootDispatch (ins p1 p2 : UInt8) (data : List UInt8) (rspCap : UInt32) (ctx : BootCtx) :
    BootReply × BootCtx :=
  if ins = bootInsGetStatus then plainly p1 p2 data ctx (buildStatus rspCap ctx, ctx)
  else if ins = bootInsErase then plainly p1 p2 data ctx (replyWord (doErase ctx))
  else if ins = bootInsLoad then
    if data.length = 0 then (.word swWrongLength, ctx) else replyWord (doLoad p1 p2 data ctx)
  else if ins = bootInsVerify then
    if data.length = 0 then (.word swWrongLength, ctx)
    else if p1 ≠ 0 ∨ p2 ≠ 0 then (.word swWrongP1P2, ctx)
    else replyWord (doVerify data ctx)
  else if ins = bootInsActivate then plainly p1 p2 data ctx (replyWord (doActivate ctx))
  else if ins = bootInsRestart then plainly p1 p2 data ctx (doRestart ctx, ctx)
  else (.word swInsNotSup, ctx)

def bootHandle (cmd : List UInt8) (rspCap : UInt32) (ctx : BootCtx) : BootReply × BootCtx :=
  if cmd.length < 4 then (.word swWrongLength, ctx)
  else if cmd.getD 0 0 ≠ bootCla then (.word swClaNotSup, ctx)
  else match bodyOf cmd with
    | none => (.word swWrongLength, ctx)
    | some data => bootDispatch (cmd.getD 1 0) (cmd.getD 2 0) (cmd.getD 3 0) data rspCap ctx

/-- The context after a sequence of commands. -/
def bootRun (ctx : BootCtx) (cmds : List (List UInt8)) (rspCap : UInt32) : BootCtx :=
  cmds.foldl (fun ctx cmd => (bootHandle cmd rspCap ctx).2) ctx

end CardOs.BootLoader
