import CardOs.BootLoader

/-! `src/hal/arm-scv1/boot_main.c`: the boot ROM of SCV1. `main` takes the boot
decision at power-on and otherwise enters the loader loop, which can hand over
on a warm reset or on a granted RESTART. The mirror of the slot in host files is
not part of the chip and is left out: the slot starts with any content. -/
namespace CardOs.BootRom
open CardOs.Library CardOs.BootLoader

def scv1OsflashBase : UInt32 := 0x2000
def scv1OsflashSize : UInt32 := 55 * 1024
def scv1OshdrSize : UInt32 := 1024
def scv1CflashPage : UInt32 := 1024
def scv1SramBase : UInt32 := 0x20000000
def scv1SramSize : UInt32 := 16 * 1024

/-- The programmable part of the chip at power-on: any bytes in the two regions. -/
structure Slot where
  osflash : Nat → UInt8
  oshdr : Nat → UInt8

def Slot.image (slot : Slot) : Region := ⟨scv1OsflashSize, slot.osflash⟩

def Slot.header (slot : Slot) : Region := ⟨scv1OshdrSize, slot.oshdr⟩

/-- What `hal_card_receive` reports. The strap is sampled anew at each reset. -/
inductive LinkEvent where
  | apdu (cmd : List UInt8)
  | reset (bootsel : Bool)
  | linkError
  | linkDown
  deriving DecidableEq, Repr

/-- Where the ROM is: in the loader loop, gone for good after `boot_jump` with
the slot as it was then, or stopped because the link went down. -/
inductive Rom where
  | loader (ctx : BootCtx)
  | jumped (oshdr osflash : Region)
  | stopped

/-- The capacity of `s_cmd`; a longer command is a link error. -/
def cmdCapacity : Nat := 5 + bootBlockSize

/-- One round of `loader_loop`. -/
def loaderLoop (ctx : BootCtx) : LinkEvent → Rom
  | .linkDown => .stopped
  | .linkError => .loader ctx
  | .reset bootsel =>
    if !bootsel ∧ (bootSlotCheck ctx.oshdr ctx.osflash).1 = .active then .jumped ctx.oshdr ctx.osflash
    else .loader { ctx with erased := false, highWater := 0 }
  | .apdu cmd =>
    if cmd.length > cmdCapacity then .loader ctx
    else
      let (reply, ctx) := bootHandle cmd bootStatusRspLen ctx
      if reply.action = .restart then .jumped ctx.oshdr ctx.osflash else .loader ctx

/-- The boot decision at power-on. -/
def main (slot : Slot) (strap : Bool) : Rom :=
  let (st, h) := bootSlotCheck slot.header slot.image
  if !strap ∧ st = .active ∧
      bootImagePlausible slot.image h.length scv1OsflashBase scv1SramBase scv1SramSize then
    .jumped slot.header slot.image
  else
    .loader (bootCtxInit slot.image slot.header scv1CflashPage scv1OsflashBase scv1SramBase scv1SramSize)

def romStep (rom : Rom) (event : LinkEvent) : Rom :=
  match rom with
  | .loader ctx => loaderLoop ctx event
  | .jumped oshdr osflash => .jumped oshdr osflash
  | .stopped => .stopped

/-- A power-on followed by link events. -/
def romRun (slot : Slot) (strap : Bool) (events : List LinkEvent) : Rom := events.foldl romStep (main slot strap)

end CardOs.BootRom
