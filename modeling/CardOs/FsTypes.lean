import Mathlib.Logic.Basic

/-! `include/filesystem/fs_types.h` and the selection record of
`include/filesystem/fs.h`. -/
namespace CardOs.FsTypes

def fsMaxFiles : UInt16 := 32
def fsDescSize : Nat := 20
def fsSuperblockSize : Nat := 16
def fsMaxEfSize : UInt16 := 32767
def fsMaxDepth : Nat := 8
def fsFidMf : UInt16 := 0x3F00
def fsInvalidIndex : UInt16 := 0xFFFF
def fsNoParent : UInt16 := 0xFFFF
def fsNoSfi : UInt8 := 0

inductive FsFileType where
  | mf
  | df
  | efTransparent
  | free
  deriving DecidableEq, Repr

def FsFileType.code : FsFileType → UInt8
  | .mf => 0x01
  | .df => 0x02
  | .efTransparent => 0x03
  | .free => 0xFF

/-- `fs_lifecycle`. The C enumeration holds whatever byte was read from NVM, so
a value outside the five named ones is representable and simply not usable. -/
abbrev FsLifecycle := UInt8

def fsLcCreation : FsLifecycle := 0x01
def fsLcInitialised : FsLifecycle := 0x03
def fsLcActivated : FsLifecycle := 0x05
def fsLcDeactivated : FsLifecycle := 0x04

structure FsDescriptor where
  fileId : UInt16
  type : FsFileType
  lifecycle : FsLifecycle
  parent : UInt16
  size : UInt16
  dataOffset : UInt32
  acRead : UInt8
  acUpdate : UInt8
  sfi : UInt8
  flags : UInt8
  deriving DecidableEq, Repr

def fsIsDf (d : FsDescriptor) : Bool := d.type = .df || d.type = .mf

def fsIsEf (d : FsDescriptor) : Bool := d.type = .efTransparent

def fsIsUsable (d : FsDescriptor) : Bool := d.lifecycle = fsLcActivated

/-- The error half of `fs_status`; `FS_OK` is a returned value. -/
inductive FsError where
  | param
  | notFound
  | corrupt
  | noSpace
  | exists
  | notUsable
  | wrongType
  | range
  | nvm
  | notFormatted
  | version
  deriving DecidableEq, Repr

@[ext] structure FsSelection where
  curDf : UInt16
  curEf : UInt16
  deriving DecidableEq, Repr

/-- A descriptor after `os_memset(&d, 0, sizeof(d))`, with its type set. -/
def FsDescriptor.zeroed (type : FsFileType) : FsDescriptor :=
  ⟨0, type, 0, 0, 0, 0, 0, 0, 0, 0⟩

end CardOs.FsTypes
