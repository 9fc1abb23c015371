import CardOs.BootSession

/-! `tools/mkcardimage.py`: one flat image of the address space of a chip, put together
from the files of its regions and described again. What `build` reports on its way is
left out. -/
namespace CardOs.CardImage
open CardOs.Transport CardOs.LoaderScript CardOs.BootSession

/-- The base and size of a region. -/
structure Span where
  base : Nat
  size : Nat
  deriving DecidableEq, Repr

def bootrom : Span := ⟨0x00000000, 8 * 1024⟩
def osflash : Span := ⟨0x00002000, 55 * 1024⟩
def oshdr : Span := ⟨0x0000FC00, 1024⟩
def eeprom : Span := ⟨0x00010000, 16 * 1024⟩
def dflash : Span := ⟨0x00014000, 256 * 1024⟩
def imageSize : Nat := dflash.base + dflash.size

def erased : UInt8 := 0xFF

/-- `place`, which gives up on a file that is too long for its region. -/
def place (image : List UInt8) (span : Span) (data : List UInt8) : Option (List UInt8) :=
  if data.length > span.size then none else some (setSlice image span.base data)

/-- The files on the command line; all but the boot ROM may be missing. -/
structure Parts where
  bootrom : List UInt8
  os : Option (List UInt8)
  oshdr : Option (List UInt8)
  eeprom : Option (List UInt8)
  dflash : Option (List UInt8)

def placeGiven (image : List UInt8) (span : Span) : Option (List UInt8) → Option (List UInt8)
  | some data => place image span data
  | none => some image

def build (parts : Parts) : Option (List UInt8) := do
  let image ← place (List.replicate imageSize erased) bootrom parts.bootrom
  let image ← placeGiven image osflash parts.os
  let image ← placeGiven image oshdr parts.oshdr
  let image ← placeGiven image eeprom parts.eeprom
  placeGiven image dflash parts.dflash

/-- `image[first:first + n]`. -/
def slice (image : List UInt8) (first n : Nat) : List UInt8 := (image.drop first).take n

/-- `int.from_bytes(data, "big")`. -/
def fromBig (data : List UInt8) : Nat := data.foldl (fun n b => n * 256 + b.toNat) 0

/-- A number in hex with this many digits, which are enough wherever it is used. -/
def pyHex (width n : Nat) : List UInt8 :=
  (List.range width).reverse.map fun k => Transport.Sim.hexDigit (UInt8.ofNat (n / 16 ^ k % 16))

def slotText (state : Nat) : List UInt8 :=
  if state = 0x0000 then chars "ACTIVE" else if state = 0xFFFF then chars "LOADED" else chars "?" ++ pyHex 4 state

/-- The two lines about the vectors. -/
def vectorLines (image : List UInt8) : List (List UInt8) :=
  let sp := fromLittle (slice image 0 4)
  let pc := fromLittle (slice image 4 4)
  [chars "  vector[0] initial SP = 0x" ++ pyHex 8 sp ++
      chars (if sp = 0x20004000 then "  (SRAM top)" else "  (unexpected)"),
    chars "  vector[1] reset PC   = 0x" ++ pyHex 8 pc ++
      chars (if pc &&& 1 ≠ 0 then "  (Thumb)" else "  (NOT Thumb -- suspicious)")]

def oshdrLine (image : List UInt8) : List UInt8 :=
  let hdr := slice image oshdr.base 16
  if slice hdr 0 4 = chars "SCOS" then
    chars "  OSHDR   slot " ++ slotText (fromBig (slice hdr 14 2)) ++ chars ", image " ++
      pyDecimal (fromBig (slice hdr 6 4)) ++ chars " bytes, CRC " ++ pyHex 4 (fromBig (slice hdr 10 2))
  else chars "  OSHDR   no slot header -- the card will come up in the loader"

def eepromLine (image : List UInt8) : List UInt8 :=
  let sb := slice image eeprom.base 16
  if slice sb 0 4 = chars "SCOS" then
    chars "  EEPROM filesystem present: layout v" ++ pyDecimal (fromBig (slice sb 4 2)) ++ chars ", " ++
      pyDecimal (fromBig (slice sb 6 2)) ++ chars " slots, " ++ pyDecimal (fromBig (slice sb 8 4)) ++
        chars " bytes of file data"
  else if sb.all (· = erased) then
    chars "  EEPROM erased -- a factory-blank card; it will personalise itself on first boot"
  else chars "  EEPROM has no filesystem magic and is not erased"

/-- The lines that `inspect` prints. -/
def inspect (path image : List UInt8) : List (List UInt8) :=
  [path ++ chars ": " ++ pyDecimal image.length ++ chars " bytes"] ++
  (if image.length ≠ imageSize
    then [chars "  WARNING: expected " ++ pyDecimal imageSize ++ chars " bytes for an SCV1 image"] else []) ++
  (if image.length ≥ 8 then vectorLines image else []) ++
  [chars "  BOOTROM " ++ pyDecimal ((slice image bootrom.base bootrom.size).rdropWhile (· = erased)).length ++
    chars " bytes used of " ++ pyDecimal bootrom.size] ++
  [oshdrLine image] ++
  (if image.length ≥ eeprom.base + 16 then [eepromLine image] else [])

end CardOs.CardImage
