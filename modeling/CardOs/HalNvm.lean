import CardOs.Library.Action
import CardOs.Library.ByteRegion

/-! The non-volatile memory part of `include/hal/hal.h`. Requests are bounds
checked as both HAL implementations check them (`in_range`, in 64 bits), and
writes are whole-block copies. Device failures come from a plan: every read,
write or barrier consumes the next entry of its plan and an exhausted plan
means that nothing fails any more, so any finite pattern of failures in a run
is some plan. -/
namespace CardOs.HalNvm
open CardOs.Library

inductive NvmRegion where
  | eeprom
  | flash
  deriving DecidableEq, Repr

/-- The error half of `hal_status`; `HAL_OK` is a returned value. -/
inductive HalError where
  | param
  | range
  | io
  | unsupported
  | power
  | linkDown
  deriving DecidableEq, Repr

/-- What the next write or barrier does: succeed, report a failure without
having stored anything, or report a failure after the whole store. -/
inductive WriteFault where
  | none
  | lost
  | stored
  deriving DecidableEq, Repr

@[ext] structure Nvm where
  eeprom : Region
  flash : Region

def Nvm.region (nvm : Nvm) : NvmRegion → Region
  | .eeprom => nvm.eeprom
  | .flash => nvm.flash

def Nvm.write (nvm : Nvm) (region : NvmRegion) (offset : Nat) (bytes : List UInt8) : Nvm :=
  match region with
  | .eeprom => { nvm with eeprom := nvm.eeprom.write offset bytes }
  | .flash => { nvm with flash := nvm.flash.write offset bytes }

section Nvm
variable {nvm : Nvm} {region : NvmRegion} {offset : Nat} {bytes : List UInt8}

@[simp] theorem Nvm.write_eeprom_eeprom :
    (nvm.write .eeprom offset bytes).eeprom = nvm.eeprom.write offset bytes := rfl

@[simp] theorem Nvm.write_eeprom_flash : (nvm.write .eeprom offset bytes).flash = nvm.flash := rfl

@[simp] theorem Nvm.write_flash_eeprom : (nvm.write .flash offset bytes).eeprom = nvm.eeprom := rfl

@[simp] theorem Nvm.write_flash_flash :
    (nvm.write .flash offset bytes).flash = nvm.flash.write offset bytes := rfl

end Nvm

/-- The device: its memories, the failures still to come, and two counters that
no decision reads: write requests made, and requests outside their region. -/
structure Hal where
  nvm : Nvm
  readFaults : List Bool
  writeFaults : List WriteFault
  writes : Nat
  rangeErrors : Nat

abbrev HalM := Action HalError Hal

def halNvmSize (hal : Hal) (region : NvmRegion) : UInt32 := (hal.nvm.region region).size

/-- `in_range`: the end of the request is computed without wrapping. -/
def inRange (size offset : UInt32) (len : Nat) : Bool := offset.toNat + len ≤ size.toNat

theorem inRange_iff {size offset : UInt32} {len : Nat} :
    inRange size offset len = true ↔ offset.toNat + len ≤ size.toNat := decide_eq_true_iff

def nextRead (hal : Hal) : Bool × Hal :=
  match hal.readFaults with
  | [] => (false, hal)
  | fault :: rest => (fault, { hal with readFaults := rest })

def nextWrite (hal : Hal) : WriteFault × Hal :=
  match hal.writeFaults with
  | [] => (.none, hal)
  | fault :: rest => (fault, { hal with writeFaults := rest })

def halNvmRead (region : NvmRegion) (offset : UInt32) (len : Nat) : HalM (List UInt8) := fun hal =>
  if len = 0 then (.ok [], hal)
  else if !inRange (halNvmSize hal region) offset len then
    (.error .range, { hal with rangeErrors := hal.rangeErrors + 1 })
  else match nextRead hal with
    | (true, hal) => (.error .io, hal)
    | (false, hal) => (.ok ((hal.nvm.region region).read offset.toNat len), hal)

def applyWrite (region : NvmRegion) (offset : UInt32) (src : List UInt8) (hal : Hal) : Hal :=
  { hal with nvm := hal.nvm.write region offset.toNat src }

def halNvmWrite (region : NvmRegion) (offset : UInt32) (src : List UInt8) : HalM Unit := fun hal =>
  let hal := { hal with writes := hal.writes + 1 }
  if src = [] then (.ok (), hal)
  else if !inRange (halNvmSize hal region) offset src.length then
    (.error .range, { hal with rangeErrors := hal.rangeErrors + 1 })
  else match nextWrite hal with
    | (.none, hal) => (.ok (), applyWrite region offset src hal)
    | (.lost, hal) => (.error .io, hal)
    | (.stored, hal) => (.error .io, applyWrite region offset src hal)

/-- `hal_nvm_sync`: a barrier stores nothing itself. -/
def halNvmSync : HalM Unit := fun hal =>
  match nextWrite hal with
  | (.none, hal) => (.ok (), hal)
  | (.lost, hal) | (.stored, hal) => (.error .io, hal)

end CardOs.HalNvm
