import CardOs.BootRom
import CardOs.CardLoop

/-! A card from power-on to power-off: `simulator/main.c` on the virtual chip of
`simulator/virtual_card.c`, and `src/hal/arm-scv1/card_main.c` on the memories of
`hal_arm_nvm.c`. Both builds keep a card in the same two files, which they read when
power comes and write only on the way down. -/
namespace CardOs.PowerSession
open CardOs.Library CardOs.HalNvm CardOs.FsStore CardOs.Kernel CardOs.Transport CardOs.CardLoop

/-- `card_eeprom.bin` and `card_flash.bin`, as far as they exist. -/
structure StateDir where
  eeprom : Option (List UInt8)
  flash : Option (List UInt8)
  deriving DecidableEq, Repr

def StateDir.empty : StateDir := ⟨none, none⟩

/-- The card in its static memory, with these contents in its NVM. -/
def powered (nvm : Nvm) : Card :=
  ⟨ScosKernel.zeroed, ⟨{ nvm, readFaults := [], writeFaults := [], writes := 0, rangeErrors := 0 }, ⟨false, 0, 0, 0⟩⟩⟩

/-- What a `main` leaves when it has returned, or else when nothing more comes from the
reader: the exit code, what it printed, and the files of its host. -/
structure Outcome where
  code : Option Nat
  printed : List UInt8
  host : Option StateDir
  deriving DecidableEq, Repr

/-- `scos_init` failed with something else than a filesystem that does not mount. -/
def fatal (booted : ScosStatus × Card) : Bool := booted.1 ≠ .ok ∧ booted.2.kernel.lifecycle ≠ .fsError

/-- A region as a file. -/
def imageOf (r : Region) : List UInt8 := r.read 0 r.size.toNat

def imagesOf (nvm : Nvm) : StateDir := ⟨some (imageOf nvm.eeprom), some (imageOf nvm.flash)⟩

/-- Both programs introduce themselves with these historical bytes. -/
def atr : List UInt8 := [0x3B, 0x94, 0x11, 0x00, 0x53, 0x43, 0x4F, 0x53]

namespace Sim

def scosEepromBytes : UInt32 := 16 * 1024
def scosFlashBytes : UInt32 := 256 * 1024

/-- The part of `vcard_config` that decides about the memories. Whether there is a
`state_dir` is whether `main` has a host directory. -/
structure VcardConfig where
  eepromSize : UInt32
  flashSize : UInt32
  deriving DecidableEq, Repr

/-- A size of zero or above the capacity stands for the capacity. -/
def clamped (size capacity : UInt32) : UInt32 := if size = 0 ∨ size > capacity then capacity else size

def vcardConfigure (cfg : VcardConfig) : VcardConfig :=
  ⟨clamped cfg.eepromSize scosEepromBytes, clamped cfg.flashSize scosFlashBytes⟩

/-- `region_load` into as much of the buffer as is used. -/
def regionLoad (file : Option (List UInt8)) (buf : Region) : Region :=
  match file with
  | none => buf.fill 0 buf.size.toNat 0xFF
  | some image =>
    let got := image.take buf.size.toNat
    let buf := buf.write 0 got
    if got.length < buf.size.toNat then buf.fill got.length (buf.size.toNat - got.length) 0xFF else buf

/-- `vcard_power_on`. The arrays behind the regions are static and so zero at first. -/
def vcardPowerOn (cfg : VcardConfig) (host : Option StateDir) : Nvm :=
  let eeprom := Region.uniform cfg.eepromSize 0x00
  let flash := Region.uniform cfg.flashSize 0x00
  match host with
  | some dir => ⟨regionLoad dir.eeprom eeprom, regionLoad dir.flash flash⟩
  | none => ⟨eeprom.fill 0 cfg.eepromSize.toNat 0xFF, flash.fill 0 cfg.flashSize.toNat 0xFF⟩

/-- `vcard_power_off`, with files that can be written. -/
def vcardPowerOff (nvm : Nvm) (host : Option StateDir) : Option StateDir := host.map fun _ => imagesOf nvm

/-- The simulator, from its configuration on. -/
def main (cfg : VcardConfig) (host : Option StateDir) (stdin : List UInt8) : Outcome :=
  let booted := scosInit (powered (vcardPowerOn (vcardConfigure cfg) host))
  if fatal booted then ⟨some 1, [], vcardPowerOff booted.2.store.hal.nvm host⟩
  else match scosCardLoop (sim atr) booted.2 ⟨stdin, []⟩ with
    | (.linkDown, card, link) => ⟨some 0, link.output, vcardPowerOff card.store.hal.nvm host⟩
    | (_, _, link) => ⟨none, link.output, host⟩

end Sim

/-- The decimal digits of a number, the last one first, while there is room for them. -/
def decDigits : Nat → UInt32 → List UInt8
  | 0, _ => []
  | room + 1, v => if v = 0 then [] else (0x30 + (v % 10).toUInt8) :: decDigits room (v / 10)

/-- A number for a banner, over a buffer of `room` digits. -/
def decimal (room : Nat) (v : UInt32) : List UInt8 := if v = 0 then chars "0" else (decDigits room v).reverse

namespace Scv1

def scv1EepromBase : Nat := 0x10000
def scv1EepromSize : UInt32 := 16 * 1024
def scv1DflashBase : Nat := 0x14000
def scv1DflashSize : UInt32 := 256 * 1024

/-- What the chip has at each address when power comes. -/
abbrev Memory := Nat → UInt8

def eepromOf (memory : Memory) : Region := ⟨scv1EepromSize, fun i => memory (scv1EepromBase + i)⟩

def dflashOf (memory : Memory) : Region := ⟨scv1DflashSize, fun i => memory (scv1DflashBase + i)⟩

/-- `semihost_load`: how much was read, unless the file is not there. -/
def semihostLoad (file : Option (List UInt8)) (dst : Region) : Option Nat × Region :=
  match file with
  | none => (none, dst)
  | some image =>
    let got := image.take dst.size.toNat
    (some got.length, dst.write 0 got)

/-- One of the two loads of `scv1_nvm_power_on`: an empty file is as good as none, and
a short one is followed by erased cells. -/
def loadRegion (file : Option (List UInt8)) (dst : Region) : Bool × Region :=
  match semihostLoad file dst with
  | (some n, dst) =>
    if n > 0 then (true, if n < dst.size.toNat then dst.fill n (dst.size.toNat - n) 0xFF else dst) else (false, dst)
  | (none, dst) => (false, dst)

def hasFs (eeprom : Region) : Bool := eeprom.read 0 4 = chars "SCOS"

def erased (r : Region) : Region := r.fill 0 r.size.toNat 0xFF

/-- The load, if there is a host to load from. -/
def loadFrom (host : Option StateDir) (image : StateDir → Option (List UInt8)) (dst : Region) : Bool × Region :=
  match host with
  | some dir => loadRegion (image dir) dst
  | none => (false, dst)

/-- `scv1_nvm_power_on`. What is already there is left alone if it may be a filesystem. -/
def scv1NvmPowerOn (host : Option StateDir) (memory : Memory) : Nvm :=
  let eeprom := loadFrom host StateDir.eeprom (eepromOf memory)
  let dflash := loadFrom host StateDir.flash (dflashOf memory)
  if !eeprom.1 && !hasFs eeprom.2 then ⟨erased eeprom.2, if dflash.1 then dflash.2 else erased dflash.2⟩
  else ⟨eeprom.2, dflash.2⟩

def scv1NvmPowerOff (nvm : Nvm) (host : Option StateDir) : Option StateDir := host.map fun _ => imagesOf nvm

/-- `put_u32_dec` of `card_main.c`. -/
def putU32Dec : UInt32 → List UInt8 := decimal 12

def banner (hosted : Bool) : List UInt8 :=
  chars "SmartCard OS on SCV1 (ARM Cortex-M3)\r\n" ++
  chars "Version: 0.1.0\r\n" ++
  chars "OSFLASH 0x00002000  " ++ putU32Dec (BootRom.scv1OsflashSize / 1024) ++
  chars " KB\r\nEEPROM  0x00010000  " ++ putU32Dec (scv1EepromSize / 1024) ++
  chars " KB\r\nDFLASH  0x00014000  " ++ putU32Dec (scv1DflashSize / 1024) ++
  chars " KB\r\nSRAM    0x20000000  " ++ putU32Dec (BootRom.scv1SramSize / 1024) ++
  chars " KB\r\nATR: 3B 94 11 00 53 43 4F 53\r\n" ++
  chars "Started by the SCV1 boot ROM from an ACTIVE OS slot.\r\n" ++
  (if hosted then chars "NVM: persistent (semihosting)\r\n" else chars "NVM: volatile (no semihosting host)\r\n") ++
  chars "Waiting for APDU...\r\n"

/-- `semihost_exit` needs a host, to which it reports an ordinary exit whatever its code. -/
def semihostExit (host : Option StateDir) : Option Nat := host.map fun _ => 0

/-- What the program has to say before it serves. -/
def opening (host : Option StateDir) (card : Card) : List UInt8 :=
  (if card.kernel.lifecycle = .fsError then chars "WARNING: filesystem did not mount; answering 6581\r\n" else []) ++
  banner host.isSome

def closing : List UInt8 := chars "card powered down\r\n"

/-- The program in the OS slot, on a UART that may have been used before. -/
def cardMain (host : Option StateDir) (memory : Memory) (link : Link) : Outcome :=
  let booted := scosInit (powered (scv1NvmPowerOn host memory))
  if fatal booted then ⟨semihostExit host, link.output ++ chars "fatal: OS init failed\r\n", host⟩
  else match scosCardLoop (scv1 atr) booted.2 { link with output := link.output ++ opening host booted.2 } with
    | (.linkDown, card, link) =>
      ⟨semihostExit host, link.output ++ closing, scv1NvmPowerOff card.store.hal.nvm host⟩
    | (_, _, link) => ⟨none, link.output, host⟩

end Scv1

end CardOs.PowerSession
