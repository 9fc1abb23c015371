import CardOs.Crc16
import CardOs.FsTypes
import CardOs.HalNvm
import CardOs.Library.BigEndian

/-! `src/filesystem/fs_store.c`: the physical layer. A 16-byte superblock and a
table of 20-byte descriptors in EEPROM, both big-endian and CRC-protected, and
bump-allocated file data in FLASH. `Superblock` is the RAM mirror `s_sb`. -/
namespace CardOs.FsStore
open CardOs.Library CardOs.Library.BigEndian CardOs.Crc16 CardOs.FsTypes CardOs.HalNvm

@[ext] structure Superblock where
  mounted : Bool
  version : UInt16
  maxFiles : UInt16
  dataTop : UInt32
  deriving DecidableEq, Repr

/-- Everything the store works on: the device and the superblock mirror. -/
structure Store where
  hal : Hal
  sb : Superblock

abbrev FsM := Action FsError Store

/-- A HAL call whose failure is answered with the given filesystem error. -/
def liftHal (onError : FsError) (x : HalM α) : FsM α :=
  x.within Store.hal (fun hal s => { s with hal }) (fun _ => onError)

def fsMagic : List UInt8 := [0x53, 0x43, 0x4F, 0x53]

def fsLayoutVersion : UInt16 := 1

def fsDescBase : UInt32 := 16

def putU16 (v : UInt16) : List UInt8 := bytes16 v

def getU16 (p : List UInt8) (k : Nat) : UInt16 := word16 (p.getD k 0) (p.getD (k + 1) 0)

def putU32 (v : UInt32) : List UInt8 := bytes32 v

def getU32 (p : List UInt8) (k : Nat) : UInt32 :=
  word32 (p.getD k 0) (p.getD (k + 1) 0) (p.getD (k + 2) 0) (p.getD (k + 3) 0)

/-- `hal_nvm_write` followed by the barrier, as every durable store does it.
Only a refused data write is not reported as `FS_ERR_NVM`. -/
def writeDurably (region : NvmRegion) (offset : UInt32) (raw : List UInt8) (refused : FsError) :
    FsM Unit := do
  liftHal refused (halNvmWrite region offset raw)
  liftHal .nvm halNvmSync

/-- The fourteen superblock bytes its CRC covers. -/
def sbBody (dataTop : UInt32) : List UInt8 :=
  fsMagic ++ putU16 fsLayoutVersion ++ putU16 fsMaxFiles ++ putU32 dataTop ++ putU16 0

def sbBytes (dataTop : UInt32) : List UInt8 := sbBody dataTop ++ putU16 (crc16 (sbBody dataTop))

def sbWrite : FsM Unit := do
  let s ← Action.state
  writeDurably .eeprom 0 (sbBytes s.sb.dataTop) .nvm

/-- `FS_DESC_BASE + n * FS_DESC_SIZE`, computed in 32 bits. -/
def descOffset (n : UInt16) : UInt32 := fsDescBase + n.toUInt32 * 20

def fsStoreMount : FsM Unit := do
  Action.update fun s => { s with sb := { s.sb with mounted := false } }
  let raw ← liftHal .nvm (halNvmRead .eeprom 0 fsSuperblockSize)
  if raw.take 4 ≠ fsMagic then Action.fail .notFormatted
  else if getU16 raw 14 ≠ crc16 (raw.take 14) then Action.fail .corrupt
  else if getU16 raw 4 ≠ fsLayoutVersion then Action.fail .version
  else if getU16 raw 6 = 0 ∨ getU16 raw 6 > fsMaxFiles then Action.fail .corrupt
  else do
    let s ← Action.state
    if getU32 raw 8 > halNvmSize s.hal .flash then Action.fail .corrupt
    else if descOffset (getU16 raw 6) > halNvmSize s.hal .eeprom then Action.fail .corrupt
    else Action.update fun s => { s with sb := ⟨true, getU16 raw 4, getU16 raw 6, getU32 raw 8⟩ }

def freeDesc : List UInt8 := List.replicate fsDescSize 0xFF

/-- The formatting loop: each slot is written free, with no barrier between. -/
def eraseSlots : List Nat → FsM Unit
  | [] => pure ()
  | i :: rest => do
    liftHal .nvm (halNvmWrite .eeprom (descOffset (UInt16.ofNat i)) freeDesc)
    eraseSlots rest

def fsStoreFormat : FsM Unit := do
  let s ← Action.state
  if descOffset fsMaxFiles > halNvmSize s.hal .eeprom then Action.fail .noSpace
  else do
    eraseSlots (List.range fsMaxFiles.toNat)
    Action.update fun s =>
      { s with sb := { s.sb with dataTop := 0, version := fsLayoutVersion, maxFiles := fsMaxFiles } }
    sbWrite
    Action.update fun s => { s with sb := { s.sb with mounted := true } }

def fsStoreMaxFiles (s : Store) : UInt16 := if s.sb.mounted then s.sb.maxFiles else 0

def descRawRead (index : UInt16) : FsM (List UInt8) := do
  let s ← Action.state
  if !s.sb.mounted then Action.fail .notFormatted
  else if index ≥ s.sb.maxFiles then Action.fail .param
  else liftHal .nvm (halNvmRead .eeprom (descOffset index) fsDescSize)

/-- A slot is free by its type byte alone; erased memory would fail any CRC. -/
def rawIsFree (raw : List UInt8) : Bool := raw.getD 2 0 = FsFileType.free.code

def fsStoreSlotIsFree (index : UInt16) : FsM Bool := do
  match ← Action.attempt (descRawRead index) with
  | .ok raw => pure (rawIsFree raw)
  | .error _ => pure false

def fileTypeOf (code : UInt8) : Option FsFileType :=
  if code = FsFileType.mf.code then some .mf
  else if code = FsFileType.df.code then some .df
  else if code = FsFileType.efTransparent.code then some .efTransparent
  else none

/-- The checks and field extraction of `fs_store_read_desc` on a raw slot. -/
def decodeDesc (flashSize : UInt32) (raw : List UInt8) : Except FsError FsDescriptor :=
  if rawIsFree raw then .error .notFound
  else if getU16 raw 18 ≠ crc16 (raw.take 18) then .error .corrupt
  else match fileTypeOf (raw.getD 2 0) with
    | none => .error .corrupt
    | some type =>
      let d : FsDescriptor :=
        { fileId := getU16 raw 0, type, lifecycle := raw.getD 3 0, parent := getU16 raw 4
          size := getU16 raw 6, dataOffset := getU32 raw 8, acRead := raw.getD 12 0
          acUpdate := raw.getD 13 0, sfi := raw.getD 14 0, flags := raw.getD 15 0 }
      if d.type = .efTransparent ∧ d.dataOffset.toNat + d.size.toNat > flashSize.toNat then
        .error .corrupt
      else .ok d

def fsStoreReadDesc (index : UInt16) : FsM FsDescriptor := do
  let raw ← descRawRead index
  let s ← Action.state
  match decodeDesc (halNvmSize s.hal .flash) raw with
  | .ok d => pure d
  | .error e => Action.fail e

/-- The eighteen descriptor bytes its CRC covers. -/
def descBody (d : FsDescriptor) : List UInt8 :=
  putU16 d.fileId ++ [d.type.code, d.lifecycle] ++ putU16 d.parent ++ putU16 d.size ++
    putU32 d.dataOffset ++ [d.acRead, d.acUpdate, d.sfi, d.flags] ++ putU16 0

def descBytes (d : FsDescriptor) : List UInt8 := descBody d ++ putU16 (crc16 (descBody d))

def fsStoreWriteDesc (index : UInt16) (desc : FsDescriptor) : FsM Unit := do
  let s ← Action.state
  if !s.sb.mounted then Action.fail .notFormatted
  else if index ≥ s.sb.maxFiles then Action.fail .param
  else if desc.type = .free then Action.fail .param
  else writeDurably .eeprom (descOffset index) (descBytes desc) .nvm

def fsStoreFreeDesc (index : UInt16) : FsM Unit := do
  let s ← Action.state
  if !s.sb.mounted then Action.fail .notFormatted
  else if index ≥ s.sb.maxFiles then Action.fail .param
  else writeDurably .eeprom (descOffset index) freeDesc .nvm

/-- The scan of `fs_store_find_free_slot` over the slots still to visit. -/
def findFreeSlotIn : List Nat → FsM UInt16
  | [] => pure fsInvalidIndex
  | i :: rest => do
    if ← fsStoreSlotIsFree (UInt16.ofNat i) then pure (UInt16.ofNat i) else findFreeSlotIn rest

def fsStoreFindFreeSlot : FsM UInt16 := do
  let s ← Action.state
  if !s.sb.mounted then pure fsInvalidIndex
  else findFreeSlotIn (List.range s.sb.maxFiles.toNat)

/-- The RAM mirror moves first; the superblock write may then still fail. -/
def fsStoreAllocData (size : UInt16) : FsM UInt32 := do
  let s ← Action.state
  if !s.sb.mounted then Action.fail .notFormatted
  else if s.sb.dataTop.toNat + size.toNat > (halNvmSize s.hal .flash).toNat then
    Action.fail .noSpace
  else do
    Action.update fun s =>
      { s with sb := { s.sb with dataTop := UInt32.ofNat (s.sb.dataTop.toNat + size.toNat) } }
    sbWrite
    pure s.sb.dataTop

def fsStoreReadData (offset : UInt32) (len : UInt16) : FsM (List UInt8) := do
  let s ← Action.state
  if len = 0 then pure []
  else if !s.sb.mounted then Action.fail .notFormatted
  else liftHal .range (halNvmRead .flash offset len.toNat)

def fsStoreWriteData (offset : UInt32) (src : List UInt8) : FsM Unit := do
  let s ← Action.state
  if src = [] then pure ()
  else if !s.sb.mounted then Action.fail .notFormatted
  else writeDurably .flash offset src .range

def fsStoreDataFree (s : Store) : UInt32 :=
  if !s.sb.mounted then 0
  else if halNvmSize s.hal .flash > s.sb.dataTop then halNvmSize s.hal .flash - s.sb.dataTop
  else 0

end CardOs.FsStore
