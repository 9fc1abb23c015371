import CardOs.LoaderScript
import CardOs.PowerSession

/-! A board from power-on to power-off. `src/hal/arm-scv1/boot_main.c` takes the slot from
its files, decides, and is programmed over the UART if it does not start what it finds;
a jump hands the UART over to the program in the slot. The scripts it is fed are the
texts that `tools/mkldr.py` writes. -/
namespace CardOs.BootSession
open CardOs.Library CardOs.Library.BigEndian CardOs.BootLoader CardOs.BootRom CardOs.Transport CardOs.CardLoop
open CardOs.PowerSession CardOs.PowerSession.Scv1

/-- The files next to a board: the mirror of the slot, the strap that is held while its
file exists, and the files of the card. -/
structure BoardFiles where
  osflash : Option (List UInt8)
  oshdr : Option (List UInt8)
  bootsel : Bool
  card : StateDir
  deriving DecidableEq, Repr

/-- `scv1_atr_bytes` of the boot ROM. -/
def romAtr : List UInt8 := [0x3B, 0x94, 0x11, 0x00, 0x42, 0x4F, 0x4F, 0x54]

def bootselAsserted (host : Option BoardFiles) : Bool := host.any BoardFiles.bootsel

def scv1OshdrBase : Nat := 0xFC00

/-- The slot as it is in memory. -/
def slotOf (memory : Memory) : Slot :=
  ⟨fun i => memory (scv1OsflashBase.toNat + i), fun i => memory (scv1OshdrBase + i)⟩

/-- `slot_power_on`: unless both files have something, the slot is erased. -/
def slotPowerOn (host : Option BoardFiles) (memory : Memory) : Slot :=
  let slot := slotOf memory
  match host with
  | none => ⟨(erased slot.image).byte, (erased slot.header).byte⟩
  | some files =>
    let osflash := semihostLoad files.osflash slot.image
    let oshdr := semihostLoad files.oshdr slot.header
    if osflash.1.getD 0 > 0 ∧ oshdr.1.getD 0 > 0 then ⟨osflash.2.byte, oshdr.2.byte⟩
    else ⟨(erased osflash.2).byte, (erased oshdr.2).byte⟩

/-- `slot_flush`: what `g_dirty` and the files become. -/
def slotFlush (ctx : BootCtx) (dirty : Bool) (host : Option BoardFiles) : Bool × Option BoardFiles :=
  match host with
  | none => (dirty, none)
  | some files =>
    if dirty then (false, some { files with osflash := some (imageOf ctx.osflash), oshdr := some (imageOf ctx.oshdr) })
    else (dirty, some files)

/-- How the boot ROM ends: gone for good after `boot_jump` with the slot as it was then,
told to close, still waiting in the link, or refused by it again and again. -/
inductive RomExit where
  | jumped (oshdr osflash : Region) (host : Option BoardFiles) (link : Link)
  | closed (host : Option BoardFiles) (link : Link)
  | waiting (host : Option BoardFiles) (link : Link)
  | spinning (host : Option BoardFiles) (link : Link)

/-- The answer to a command as `loader_loop` sends it. -/
def replyBytes (reply : BootReply) : List UInt8 := reply.rsp ++ [(reply.sw >>> 8).toUInt8, reply.sw.toUInt8]

/-- `loader_loop`, with the context and `g_dirty`. -/
def loaderLoop (ctx : BootCtx) (dirty : Bool) (host : Option BoardFiles) (link : Link) : RomExit :=
  match _ : (scv1 romAtr).receive (UInt32.ofNat cmdCapacity) link with
  | (.linkDown, link) => .closed (slotFlush ctx dirty host).2 link
  | (.reset, link) =>
    let flushed := slotFlush ctx dirty host
    if !bootselAsserted flushed.2 ∧ (bootSlotCheck ctx.oshdr ctx.osflash).1 = .active then
      .jumped ctx.oshdr ctx.osflash flushed.2 link
    else loaderLoop { ctx with erased := false, highWater := 0 } flushed.1 flushed.2 link
  | (.waiting, link) => .waiting host link
  | (.param, link) => .spinning host link
  | (.command cmd, link) =>
    let (reply, ctx) := bootHandle cmd bootStatusRspLen ctx
    let dirty := dirty || reply.sw = swOk
    let link := (scv1 romAtr).send (replyBytes reply) link
    if reply.action = .restart then .jumped ctx.oshdr ctx.osflash (slotFlush ctx dirty host).2 link
    else loaderLoop ctx dirty host link
termination_by link.input.length
decreasing_by
  · exact CardHal.shorter ‹_› rfl
  · rw [CardHal.sends]
    exact CardHal.shorter ‹_› rfl

/-- `put_hex8` and `put_u32` of `boot_main.c`. -/
def putHex8 : UInt8 → List UInt8 := Transport.Scv1.putHexByte
def putU32 : UInt32 → List UInt8 := decimal 10

def slotName : BootSlotState → List UInt8
  | .blank => chars "BLANK (no OS loaded)"
  | .loaded => chars "LOADED (not activated)"
  | .active => chars "ACTIVE"
  | .damaged => chars "DAMAGED (header or image failed CRC)"

def romBanner (st : BootSlotState) (h : BootHdr) (strap hosted : Bool) : List UInt8 :=
  chars "SCV1 BOOT ROM v1  (mask ROM, 8 KB at 0x00000000)\r\n" ++
  chars "OS slot: 0x00002000  " ++ putU32 (scv1OsflashSize / 1024) ++
  chars " KB\r\nState:   " ++ slotName st ++ chars "\r\n" ++
  (if st = .loaded ∨ st = .active then
    chars "Image:   " ++ putU32 h.length ++ chars " bytes, CRC " ++ putHex8 (h.imageCrc >>> 8).toUInt8 ++
      putHex8 h.imageCrc.toUInt8 ++ chars "\r\n"
  else []) ++
  (if strap then chars "BOOTSEL: held -- staying in the loader\r\n" else []) ++
  chars "ATR:     3B 94 11 00 42 4F 4F 54\r\n" ++
  (if hosted then chars "Slot:    persistent (semihosting)\r\n"
    else chars "Slot:    volatile (no semihosting host)\r\n") ++
  chars "Waiting for loader APDUs (CLA 80)...\r\n"

def starting : List UInt8 := chars "SCV1 BOOT ROM: OS slot ACTIVE, starting OS\r\n"

/-- `main` of the boot ROM, up to its end or its jump. -/
def romMain (host : Option BoardFiles) (memory : Memory) (link : Link) : RomExit :=
  let slot := slotPowerOn host memory
  let (st, h) := bootSlotCheck slot.header slot.image
  let strap := bootselAsserted host
  if !strap ∧ st = .active ∧
      bootImagePlausible slot.image h.length scv1OsflashBase scv1SramBase scv1SramSize then
    .jumped slot.header slot.image host { link with output := link.output ++ starting }
  else
    loaderLoop (bootCtxInit slot.image slot.header scv1CflashPage scv1OsflashBase scv1SramBase scv1SramSize) false host
      { link with output := link.output ++ romBanner st h strap host.isSome }

/-- What a board leaves: the exit code, all that came over its UART, and its files. -/
structure BoardOutcome where
  code : Option Nat
  printed : List UInt8
  host : Option BoardFiles
  deriving DecidableEq, Repr

/-- A board that is given power, for which `os` is the binary of the card program: the
boot ROM and then, where that jumps to it, the program. Another program in the slot is
beyond this model. -/
def boardMain (os : List UInt8) (host : Option BoardFiles) (memory : Memory) (input : List UInt8) :
    Option BoardOutcome :=
  match romMain host memory ⟨input, []⟩ with
  | .jumped oshdr osflash host link =>
    if osflash.read 0 (bootSlotCheck oshdr osflash).2.length.toNat = os then
      let card := cardMain (host.map BoardFiles.card) memory link
      some ⟨card.code, card.printed, host.map fun files => { files with card := card.host.getD files.card }⟩
    else none
  | .closed host link => some ⟨host.map fun _ => 0, link.output ++ chars "boot loader: link closed\r\n", host⟩
  | .waiting host link | .spinning host link => some ⟨none, link.output, host⟩

/-! The texts of `mkldr.py`. -/

/-- A number as Python prints it. -/
def pyDecimal (n : Nat) : List UInt8 :=
  if n < 10 then [0x30 + UInt8.ofNat n] else pyDecimal (n / 10) ++ [0x30 + UInt8.ofNat (n % 10)]

/-- The line of one APDU. -/
def apduLine (cmd : List UInt8) : List UInt8 := cmd.flatMap Transport.Sim.printHex

def genRecycleLines : List (List UInt8) :=
  [chars "# recycle.ldr -- return an SCV1 to the state it left the factory in.",
    chars "#",
    chars "# Erases the OS slot and its header. Afterwards the card answers with",
    chars "# the BOOT ROM's ATR (3B 94 11 00 42 4F 4F 54) rather than the OS's,",
    chars "# because the boot loader is what is answering.",
    chars "#",
    chars "# This does NOT touch EEPROM or DFLASH -- the filesystem survives. A",
    chars "# real product would wipe those too at recycle time; doing it here",
    chars "# needs a command the OS owns, not one the boot loader owns.",
    [],
    chars "# GET STATUS -- so a transcript shows what was there before",
    apduLine (LoaderScript.apdu 0x80 0xF2 0 0 []),
    [],
    chars "# ERASE",
    apduLine LoaderScript.cmdErase,
    [],
    chars "# GET STATUS -- should now report slot state 00 (BLANK)",
    apduLine (LoaderScript.apdu 0x80 0xF2 0 0 [])]

/-- The lines up to the first block. -/
def osHeadLines (image crc : List UInt8) : List (List UInt8) :=
  [chars "# os.ldr -- load a SmartCard OS image into an SCV1 OS slot.",
    chars "#",
    chars "# image length : " ++ pyDecimal image.length ++ chars " bytes",
    chars "# CRC-16       : " ++ apduLine crc ++ chars "  (CCITT-FALSE, poly 1021, init FFFF)",
    chars "# blocks       : " ++ pyDecimal (LoaderScript.blockCount image) ++ chars " x 128 bytes",
    chars "# load address : 0x00002000  (OSFLASH)",
    chars "#",
    chars "# Generated by tools/mkldr.py. Protocol: include/boot/boot_loader.h",
    [],
    chars "# --- ERASE ----------------------------------------------------------",
    apduLine LoaderScript.cmdErase,
    [],
    chars "# --- LOAD BLOCK -----------------------------------------------------",
    chars "# 80 54 <block hi> <block lo> <len> <data>   offset = block * 128"]

/-- The lines from the last block on, with the body of VERIFY. -/
def osTailLines (body : List UInt8) : List (List UInt8) :=
  [[],
    chars "# --- VERIFY ---------------------------------------------------------",
    chars "# 80 A0 00 00 06 <length:4> <crc:2>",
    chars "# The card recomputes the CRC over what it actually stored, checks the",
    chars "# image's first two words look like an ARMv7-M vector table, and only",
    chars "# then writes the slot header. A failure here leaves no header behind.",
    apduLine (LoaderScript.apdu 0x80 0xA0 0 0 body),
    [],
    chars "# --- ACTIVATE -------------------------------------------------------",
    chars "# Separate from VERIFY on purpose: a card that was powered off midway",
    chars "# through a load must not come up running a partial OS.",
    apduLine (LoaderScript.apdu 0x80 0x44 0 0 []),
    [],
    chars "# --- GET STATUS -----------------------------------------------------",
    chars "# Expect: 01 02 <capacity:4> <length:4> <crc:2> 80 01 <hw:2> 9000",
    chars "#             ^^ slot state 02 = ACTIVE",
    apduLine (LoaderScript.apdu 0x80 0xF2 0 0 [])]

def osRestartLines : List (List UInt8) :=
  [[],
    chars "# --- RESTART --------------------------------------------------------",
    chars "# Hands the core to the loaded OS. Everything after this line is",
    chars "# answered by the OS, not by the boot loader -- including the ATR.",
    apduLine (LoaderScript.apdu 0x80 0xF0 0 0 [])]

/-- The lines of `gen_os`. -/
def genOsLines (image : List UInt8) (restart : Bool) : Option (List (List UInt8)) := do
  let length ← LoaderScript.toBytes 4 image.length
  let crc ← LoaderScript.toBytes 2 (LoaderScript.crc16 image)
  some (osHeadLines image crc ++
    (List.range (LoaderScript.blockCount image)).map (fun i => apduLine (LoaderScript.loadBlock image i)) ++
    osTailLines (length ++ crc) ++ if restart then osRestartLines else [])

/-- The file that `main` of `mkldr.py` writes. -/
def ldrFile (lines : List (List UInt8)) : List UInt8 := lines.flatMap (· ++ [0x0A])

end CardOs.BootSession
