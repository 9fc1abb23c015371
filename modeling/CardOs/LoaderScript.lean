import CardOs.BootRom

/-! `tools/mkldr.py`: the host side of loading an image. A script is given as the
APDUs its lines spell in hex, without the comment lines that the transports skip;
Python's unbounded integers are naturals and an exception is `none`. -/
namespace CardOs.LoaderScript
open CardOs.Library CardOs.BootLoader

def block : Nat := 128

def crcBit (crc : Nat) : Nat :=
  if crc &&& 0x8000 ≠ 0 then ((crc <<< 1) ^^^ 0x1021) &&& 0xFFFF else (crc <<< 1) &&& 0xFFFF

def crcByte (crc : Nat) (b : UInt8) : Nat := crcBit^[8] (crc ^^^ (b.toNat <<< 8))

/-- The tool's own `crc16`, which must agree with the card's. -/
def crc16 (data : List UInt8) : Nat := data.foldl crcByte 0xFFFF

/-- `int.to_bytes(width, "big")`, which raises when the number does not fit. -/
def toBytes (width n : Nat) : Option (List UInt8) :=
  if n < 256 ^ width then some ((List.range width).reverse.map fun k => UInt8.ofNat (n >>> (8 * k))) else none

/-- `int.from_bytes(data, "little")`. -/
def fromLittle (data : List UInt8) : Nat := data.foldr (fun b rest => b.toNat + 256 * rest) 0

/-- One APDU; no caller passes more data than a length byte can tell. -/
def apdu (cla ins p1 p2 : UInt8) (data : List UInt8) : List UInt8 :=
  if data ≠ [] then [cla, ins, p1, p2, UInt8.ofNat data.length] ++ data else [cla, ins, p1, p2, 0x00]

def cmdErase : List UInt8 := apdu 0x80 0x0E 0 0 []

/-- `image[i * BLOCK:(i + 1) * BLOCK]`. -/
def chunk (image : List UInt8) (i : Nat) : List UInt8 := (image.drop (i * block)).take block

def loadBlock (image : List UInt8) (i : Nat) : List UInt8 :=
  apdu 0x80 0x54 (UInt8.ofNat ((i >>> 8) &&& 0xFF)) (UInt8.ofNat (i &&& 0xFF)) (chunk image i)

def blockCount (image : List UInt8) : Nat := (image.length + block - 1) / block

/-- The commands that end a script: ACTIVATE, GET STATUS and perhaps RESTART. -/
def closing (restart : Bool) : List (List UInt8) :=
  [apdu 0x80 0x44 0 0 [], apdu 0x80 0xF2 0 0 []] ++ if restart then [apdu 0x80 0xF0 0 0 []] else []

def genOs (image : List UInt8) (restart : Bool) : Option (List (List UInt8)) := do
  let length ← toBytes 4 image.length
  let crc ← toBytes 2 (crc16 image)
  some ([cmdErase] ++ (List.range (blockCount image)).map (loadBlock image) ++
    [apdu 0x80 0xA0 0 0 (length ++ crc)] ++ closing restart)

/-- `buf[k:k + len(bytes)] = bytes`. -/
def setSlice (buf : List UInt8) (k : Nat) (bytes : List UInt8) : List UInt8 :=
  buf.take k ++ bytes ++ buf.drop (k + bytes.length)

/-- The contents of the two files of a pre-programmed slot. -/
def cmdSlot (image : List UInt8) (active : Bool) : Option (List UInt8 × List UInt8) := do
  let cap := 55 * 1024
  if image.length > cap then none
  else
    let osflash := image ++ List.replicate (cap - image.length) 0xFF
    let hdr := List.replicate 1024 0xFF
    let hdr := setSlice hdr 0 [0x53, 0x43, 0x4F, 0x53]
    let hdr := setSlice hdr 4 (← toBytes 2 1)
    let hdr := setSlice hdr 6 (← toBytes 4 image.length)
    let hdr := setSlice hdr 10 (← toBytes 2 (crc16 image))
    let hdr := setSlice hdr 12 (← toBytes 2 (crc16 (hdr.take 12)))
    let hdr := setSlice hdr 14 (if active then [0x00, 0x00] else [0xFF, 0xFF])
    some (osflash, hdr)

/-- What the tool finds wrong with an image, with the word it complains about. -/
inductive Problem where
  | stackPointer (sp : Nat)
  | thumbBit (pc : Nat)
  | resetVector (pc : Nat)
  deriving DecidableEq, Repr

def initialSp (image : List UInt8) : Nat := fromLittle (image.take 4)

def resetPc (image : List UInt8) : Nat := fromLittle ((image.drop 4).take 4)

/-- `pc & ~1`. -/
def entryOf (pc : Nat) : Nat := pc - pc % 2

def problems (image : List UInt8) : List Problem :=
  let sp := initialSp image
  let pc := resetPc image
  (if ¬ (0x20000000 < sp ∧ sp ≤ 0x20004000) then [.stackPointer sp] else []) ++
    if pc &&& 1 = 0 then [.thumbBit pc]
    else if ¬ (0x2000 ≤ entryOf pc ∧ entryOf pc < 0x2000 + image.length) then [.resetVector pc]
    else []

/-- `mkldr.py os`: the script it writes, or nothing when it refuses the image. -/
def mainOs (image : List UInt8) (force restart : Bool) : Option (List (List UInt8)) :=
  if image.length < 8 then none
  else if problems image ≠ [] ∧ !force then none
  else genOs image restart

/-- What the card answers to a script, command by command. -/
def bootReplies (ctx : BootCtx) (rspCap : UInt32) : List (List UInt8) → List BootReply
  | [] => []
  | cmd :: rest => (bootHandle cmd rspCap ctx).1 :: bootReplies (bootHandle cmd rspCap ctx).2 rspCap rest

example : crc16 [0x31, 0x32, 0x33, 0x34, 0x35, 0x36, 0x37, 0x38, 0x39] = 0x29B1 := by decide +kernel

end CardOs.LoaderScript
