import CardOs.LoaderScript
import CardOs.BootRomProofs
import CardOs.ImageProofs

/-! The two ways to program a card. Replaying the loader script of an image leaves
the flash that writing the slot directly leaves; and the script is answered 9000
throughout exactly when the image fits the slot and its stack pointer is aligned,
neither of which the host checks. -/
namespace CardOs.ProgrammingProofs
open CardOs.Library CardOs.Library.BigEndian CardOs.CodeFlash CardOs.BootLoader CardOs.BootProofs CardOs.BootRom
open CardOs.BootRomProofs CardOs.ImageProofs CardOs.LoaderScript

section Encodings

private theorem low_word (n : Nat) : n &&& 0xFFFF = n % 2 ^ 16 := Nat.and_two_pow_sub_one_eq_mod n 16

private theorem crcBit_toNat (crc : UInt16) : LoaderScript.crcBit crc.toNat = (Crc16.crcBit crc).toNat := by
  have top : crc &&& 0x8000 ≠ 0 ↔ crc.toNat &&& 0x8000 ≠ 0 := by
    rw [ne_eq, ne_eq, ← UInt16.toNat_inj, UInt16.toNat_and]
    rfl
  unfold LoaderScript.crcBit Crc16.crcBit
  by_cases set : crc.toNat &&& 0x8000 ≠ 0
  · rw [if_pos set, if_pos (top.mpr set), low_word, Nat.xor_mod_two_pow]
    rfl
  · rw [if_neg set, if_neg (fun h => set (top.mp h)), low_word]
    rfl

private theorem crcBits_toNat (crc : UInt16) (n : Nat) :
    LoaderScript.crcBit^[n] crc.toNat = (Crc16.crcBit^[n] crc).toNat := by
  induction n generalizing crc with
  | zero => rfl
  | succ n ih => rw [Function.iterate_succ_apply, Function.iterate_succ_apply, crcBit_toNat, ih]

private theorem crcByte_toNat (crc : UInt16) (b : UInt8) :
    LoaderScript.crcByte crc.toNat b = (Crc16.crcByte crc b).toNat := by
  have small : b.toNat <<< 8 < 2 ^ 16 := by
    have bound := b.toNat_lt
    rw [Nat.shiftLeft_eq]
    omega
  have enters : crc.toNat ^^^ (b.toNat <<< 8) = (crc ^^^ (b.toUInt16 <<< 8)).toNat := by
    simp [Nat.mod_eq_of_lt (show b.toNat <<< 8 < 65536 from small)]
  rw [LoaderScript.crcByte, enters, crcBits_toNat, Crc16.crcByte]

/-- The host and the card compute the same checksum. -/
theorem crc16_toNat (data : List UInt8) : crc16 data = (Crc16.crc16 data).toNat := by
  suffices folded : ∀ crc : UInt16, data.foldl LoaderScript.crcByte crc.toNat =
      (data.foldl Crc16.crcByte crc).toNat from folded 0xFFFF
  induction data with
  | nil => exact fun _ => rfl
  | cons b rest ih =>
    intro crc
    rw [List.foldl_cons, List.foldl_cons, crcByte_toNat, ih]

theorem toBytes_bytes16 (v : UInt16) : toBytes 2 v.toNat = some (bytes16 v) := by
  have bound : v.toNat < 256 ^ 2 := v.toNat_lt
  rw [toBytes, if_pos bound]
  simp [bytes16, List.range_succ, ← UInt8.toNat_inj, low_byte]

theorem toBytes_bytes32 (v : UInt32) : toBytes 4 v.toNat = some (bytes32 v) := by
  have bound : v.toNat < 256 ^ 4 := v.toNat_lt
  rw [toBytes, if_pos bound]
  simp [bytes32, List.range_succ, ← UInt8.toNat_inj, low_byte]

end Encodings

/-- The loader's context on an SCV1, with any flash content. -/
structure Scv1 (ctx : BootCtx) : Prop extends OnChip ctx where
  osflash : ctx.osflash.size = scv1OsflashSize
  oshdr : ctx.oshdr.size = scv1OshdrSize
  page : ctx.pageSize = scv1CflashPage

/-- The first bytes of an image are in place over erased flash. -/
structure Staged (image : List UInt8) (n : Nat) (ctx : BootCtx) : Prop where
  chip : Scv1 ctx
  erased : ctx.erased = true
  header : ∀ i < ctx.oshdr.size.toNat, ctx.oshdr.byte i = 0xFF
  bytes : ∀ i < ctx.osflash.size.toNat, ctx.osflash.byte i = if i < n then image.getD i 0xFF else 0xFF
  highWater : ctx.highWater.toNat = n

section Commands
variable {ctx : BootCtx} {image : List UInt8} {rspCap : UInt32} {n i : Nat}

theorem Scv1.reprogrammed {osflash oshdr : Region} (chip : Scv1 ctx) (body : osflash.size = ctx.osflash.size)
    (header : oshdr.size = ctx.oshdr.size) (highWater : UInt32) (erased : Bool) :
    Scv1 { ctx with osflash, oshdr, highWater, erased } where
  loadAddr := chip.loadAddr
  sramBase := chip.sramBase
  sramSize := chip.sramSize
  osflash := body.trans chip.osflash
  oshdr := header.trans chip.oshdr
  page := chip.page

/-- ERASE is carried out whatever the slot held. -/
theorem erase_stages (chip : Scv1 ctx) (image : List UInt8) (rspCap : UInt32) :
    (bootHandle cmdErase rspCap ctx).1.sw = swOk ∧ Staged image 0 (bootHandle cmdErase rspCap ctx).2 := by
  have header : cfEraseAll ctx.oshdr ctx.pageSize = (.ok, ctx.oshdr.fill 0 ctx.oshdr.size.toNat 0xFF) :=
    cfEraseAll_ok (by rw [chip.oshdr]; decide) (by rw [chip.page]; decide) (by rw [chip.oshdr, chip.page]; decide)
  have body : cfEraseAll ctx.osflash ctx.pageSize = (.ok, ctx.osflash.fill 0 ctx.osflash.size.toNat 0xFF) :=
    cfEraseAll_ok (by rw [chip.osflash]; decide) (by rw [chip.page]; decide) (by rw [chip.osflash, chip.page]; decide)
  have ran : bootHandle cmdErase rspCap ctx = (.word swOk, { ctx with
      oshdr := ctx.oshdr.fill 0 ctx.oshdr.size.toNat 0xFF
      osflash := ctx.osflash.fill 0 ctx.osflash.size.toNat 0xFF, erased := true, highWater := 0 }) := by
    have handled : bootHandle cmdErase rspCap ctx = replyWord (doErase ctx) := rfl
    rw [handled, doErase, header, body]
    rfl
  rw [ran]
  exact ⟨rfl, {
    chip := chip.reprogrammed Region.fill_size Region.fill_size _ _
    erased := rfl
    header := fun i inside => if_pos ⟨Nat.zero_le i, by rw [Nat.zero_add]; exact inside⟩
    bytes := fun i inside => if_pos ⟨Nat.zero_le i, by rw [Nat.zero_add]; exact inside⟩
    highWater := rfl }⟩

theorem chunk_length (image : List UInt8) (i : Nat) : (chunk image i).length = min 128 (image.length - i * 128) := by
  simp [chunk, block]

theorem loadBlock_eq (here : i < blockCount image) :
    loadBlock image i = [0x80, 0x54, UInt8.ofNat ((i >>> 8) &&& 0xFF), UInt8.ofNat (i &&& 0xFF),
      UInt8.ofNat (chunk image i).length] ++ chunk image i := by
  have long := chunk_length image i
  rw [blockCount, block] at here
  refine if_pos fun empty => ?_
  rw [empty, List.length_nil] at long
  omega

theorem loadBlock_offset (here : i < blockCount image) (small : i < 65536) :
    blockOffset (loadBlock image i) = i * 128 := by
  have hi : (UInt8.ofNat ((i >>> 8) &&& 0xFF)).toNat = i / 256 := by
    simp [low_byte, Nat.shiftRight_eq_div_pow]
    omega
  have lo : (UInt8.ofNat (i &&& 0xFF)).toNat = i % 256 := by simp [low_byte]
  rw [loadBlock_eq here, blockOffset]
  simp only [List.cons_append, List.getD_cons_succ, List.getD_cons_zero, word16_toNat, hi, lo, bootBlockSize]
  omega

theorem loadBlock_body (here : i < blockCount image) : bodyOf (loadBlock image i) = some (chunk image i) := by
  have long := chunk_length image i
  have tells : (UInt8.ofNat (chunk image i).length).toNat = (chunk image i).length := by
    rw [UInt8.toNat_ofNat']
    omega
  have some : 0 < (chunk image i).length := by
    rw [blockCount, block] at here
    omega
  rw [loadBlock_eq here, bodyOf]
  have told : UInt8.ofNat (chunk image i).length ≠ 0 := by
    intro zero
    rw [zero, UInt8.toNat_zero] at tells
    omega
  simp [tells, told, some]

private theorem clearsOnly_erased {old new : List UInt8} (erased : ∀ b ∈ old, b = 0xFF) : clearsOnly old new = true := by
  refine List.all_eq_true.mpr fun ⟨a, b⟩ member => ?_
  rw [erased a (List.of_mem_zip member).1, decide_eq_true_eq, ← UInt8.toNat_inj, UInt8.toNat_and]
  exact (Nat.and_comm _ _).trans ((low_byte _).trans (Nat.mod_eq_of_lt b.toNat_lt))

private theorem read_erased {r : Region} {off : Nat} (erased : ∀ i < n, r.byte (off + i) = 0xFF) :
    ∀ b ∈ r.read off n, b = 0xFF := by
  intro b member
  obtain ⟨i, inside, rfl⟩ := List.mem_map.mp member
  exact erased i (List.mem_range.mp inside)

theorem chunk_getElem (inside : n < (chunk image i).length) : (chunk image i)[n] = image.getD (i * 128 + n) 0xFF := by
  have long := chunk_length image i
  have bound : i * 128 + n < image.length := by omega
  simp [chunk, block, bound]

/-- One block more, when it lies inside the slot. -/
theorem load_stages (staged : Staged image (min (i * 128) image.length) ctx) (here : i < blockCount image)
    (fits : i * 128 + (chunk image i).length ≤ 56320) (rspCap : UInt32) :
    (bootHandle (loadBlock image i) rspCap ctx).1.sw = swOk ∧
      Staged image (min ((i + 1) * 128) image.length) (bootHandle (loadBlock image i) rspCap ctx).2 := by
  have long := chunk_length image i
  have size : ctx.osflash.size.toNat = 56320 := by rw [staged.chip.osflash]; rfl
  have started : i * 128 < image.length := by
    rw [blockCount, block] at here
    omega
  have offset := loadBlock_offset here (by omega)
  have loads : Loads ctx (loadBlock image i) (chunk image i) := {
    cla := by rw [loadBlock_eq here]; rfl
    ins := by rw [loadBlock_eq here]; rfl
    body := loadBlock_body here
    erased := staged.erased
    nonempty := by omega
    block := by rw [bootBlockSize]; omega
    inside := by rw [offset]; omega
    clears := by
      refine clearsOnly_erased (read_erased fun k inside => ?_)
      rw [offset, staged.bytes _ (by omega), if_neg (by omega)] }
  rw [bootHandle_loads rspCap loads]
  refine ⟨rfl, {
    chip := staged.chip.reprogrammed Region.write_size rfl _ _
    erased := staged.erased
    header := staged.header
    bytes := ?_
    highWater := ?_ }⟩
  · intro k inside
    rw [reloadedImage, offset] at inside ⊢
    rw [Region.write_size] at inside
    by_cases within : i * 128 ≤ k ∧ k < i * 128 + (chunk image i).length
    · obtain ⟨m, rfl⟩ := Nat.exists_eq_add_of_le within.1
      rw [Region.byte_write_inside (by omega), chunk_getElem (by omega), if_pos (by omega)]
    · rw [Region.byte_write_outside (by omega), staged.bytes k inside]
      by_cases before : k < i * 128
      · rw [if_pos (by omega), if_pos (by omega)]
      · rw [if_neg (by omega), if_neg (by omega)]
  · have stop : (UInt32.ofNat (i * 128 + (chunk image i).length)).toNat = i * 128 + (chunk image i).length :=
      UInt32.toNat_ofNat_of_lt' (show _ < 2 ^ 32 by omega)
    rw [raisedWater, offset, staged.highWater, if_pos (by omega), stop]
    omega

/-- Whether the card will take an image for one of its own. -/
def plausibleOnScv1 (image : List UInt8) : Bool :=
  bootImagePlausible ⟨UInt32.ofNat image.length, fun i => image.getD i 0xFF⟩ (UInt32.ofNat image.length)
    scv1OsflashBase scv1SramBase scv1SramSize

/-- The header of an image that has passed VERIFY. -/
def headerOf (image : List UInt8) : BootHdr :=
  ⟨UInt32.ofNat image.length, Crc16.crc16 image, bootStateLoaded, bootHdrVersion⟩

/-- The VERIFY command of an image. -/
def verifyOf (image : List UInt8) : List UInt8 :=
  apdu 0x80 0xA0 0 0 (bytes32 (UInt32.ofNat image.length) ++ bytes16 (Crc16.crc16 image))

theorem plausible_congr {img img' : Region} (same : ∀ k < 8, img.byte k = img'.byte k)
    (len loadAddr sramBase sramSize : UInt32) :
    bootImagePlausible img len loadAddr sramBase sramSize = bootImagePlausible img' len loadAddr sramBase sramSize := by
  have word : ∀ k ≤ 4, imageWord img k = imageWord img' k := by
    intro k low
    rw [imageWord, same _ (by omega), same _ (by omega), same _ (by omega), same _ (by omega)]
    rfl
  simp only [bootImagePlausible, word 0 (by omega), word 4 (by omega)]

theorem Staged.read_image (staged : Staged image image.length ctx) (fits : image.length ≤ 56320) :
    ctx.osflash.read 0 image.length = image := by
  have size : ctx.osflash.size.toNat = 56320 := by rw [staged.chip.osflash]; rfl
  refine List.ext_getElem Region.read_length fun k _ inside => ?_
  rw [Region.read_getElem, Nat.zero_add, staged.bytes k (by omega), if_pos inside]
  exact List.getD_eq_getElem _ _ inside

/-- The whole region: the image over erased flash. -/
theorem Staged.read_slot (staged : Staged image image.length ctx) (fits : image.length ≤ 56320) :
    ctx.osflash.read 0 56320 = image ++ List.replicate (56320 - image.length) 0xFF := by
  have size : ctx.osflash.size.toNat = 56320 := by rw [staged.chip.osflash]; rfl
  have whole : ctx.osflash.read 0 56320 = ctx.osflash.read 0 (image.length + (56320 - image.length)) := by
    rw [Nat.add_sub_of_le fits]
  have rest : ctx.osflash.read (0 + image.length) (56320 - image.length) =
      List.replicate (56320 - image.length) 0xFF := by
    refine List.eq_replicate_iff.mpr ⟨Region.read_length, read_erased fun k inside => ?_⟩
    rw [staged.bytes _ (by omega), if_neg (by omega)]
  rw [whole, Region.read_append, staged.read_image fits, rest]

/-- A header programmed over erased flash and then activated. -/
theorem read_activated {r : Region} {header : List UInt8} (erased : ∀ k < 1024, r.byte k = 0xFF)
    (width : header.length = 16) :
    ((r.write 0 header).write 14 [0x00, 0x00]).read 0 1024 =
      header.take 14 ++ [0x00, 0x00] ++ List.replicate 1008 0xFF := by
  have front : ((r.write 0 header).write 14 [0x00, 0x00]).read 0 14 = header.take 14 := by
    rw [Region.read_write_apart (.inl (Nat.le_refl 14)), ← Region.take_read 14 (show 14 ≤ 16 by omega),
      Region.read_write_same width.symm]
  have state : ((r.write 0 header).write 14 [0x00, 0x00]).read 14 2 = [0x00, 0x00] := Region.read_write_same rfl
  have rest : ((r.write 0 header).write 14 [0x00, 0x00]).read 16 1008 = List.replicate 1008 0xFF := by
    refine List.eq_replicate_iff.mpr ⟨Region.read_length, read_erased fun k inside => ?_⟩
    rw [Region.byte_write_outside (.inr (by simp)), Region.byte_write_outside (.inr (by omega)), erased _ (by omega)]
  have split : (1024 : Nat) = 14 + 2 + 1008 := rfl
  rw [split, Region.read_append, Region.read_append]
  simp only [Nat.zero_add, Nat.reduceAdd, front, state, rest]

theorem Staged.sane (staged : Staged image image.length ctx) (fits : image.length ≤ 56320) (long : 8 ≤ image.length) :
    bootImagePlausible ctx.osflash (UInt32.ofNat image.length) ctx.loadAddr ctx.sramBase ctx.sramSize =
      plausibleOnScv1 image := by
  have size : ctx.osflash.size.toNat = 56320 := by rw [staged.chip.osflash]; rfl
  rw [staged.chip.loadAddr, staged.chip.sramBase, staged.chip.sramSize]
  refine plausible_congr (fun k low => ?_) _ _ _ _
  rw [staged.bytes k (by omega), if_pos (by omega)]

/-- VERIFY of the whole image checks only whether it is plausible. -/
theorem verify_staged (staged : Staged image image.length ctx) (fits : image.length ≤ 56320) (long : 8 ≤ image.length)
    (rspCap : UInt32) :
    bootHandle (verifyOf image) rspCap ctx =
      if plausibleOnScv1 image = true then
        (.word swOk, { ctx with oshdr := ctx.oshdr.write 0 (bootHdrSerialise (headerOf image)) })
      else (.word swDataInvalid, ctx) := by
  have size : ctx.osflash.size.toNat = 56320 := by rw [staged.chip.osflash]; rfl
  have headerSize : ctx.oshdr.size.toNat = 1024 := by rw [staged.chip.oshdr]; rfl
  have handled : bootHandle (verifyOf image) rspCap ctx =
    replyWord (doVerify (bytes32 (UInt32.ofNat image.length) ++ bytes16 (Crc16.crc16 image)) ctx) := rfl
  have len : rd32 (bytes32 (UInt32.ofNat image.length) ++ bytes16 (Crc16.crc16 image)) 0 =
    UInt32.ofNat image.length := word32_bytes32 _
  have crc : rd16 (bytes32 (UInt32.ofNat image.length) ++ bytes16 (Crc16.crc16 image)) 4 =
    Crc16.crc16 image := word16_bytes16 _
  have toNat : (UInt32.ofNat image.length).toNat = image.length :=
    UInt32.toNat_ofNat_of_lt' (show _ < 2 ^ 32 by omega)
  have sized : ¬ (UInt32.ofNat image.length = 0 ∨ UInt32.ofNat image.length > ctx.osflash.size) := by
    rw [← UInt32.toNat_inj, gt_iff_lt, UInt32.lt_iff_toNat_lt, toNat, UInt32.toNat_zero]
    omega
  have written : ¬ UInt32.ofNat image.length > ctx.highWater := by
    rw [gt_iff_lt, UInt32.lt_iff_toNat_lt, toNat, staged.highWater]
    omega
  have programmed : programHdr 0 (bootHdrSerialise (headerOf image)) ctx =
      (swOk, { ctx with oshdr := ctx.oshdr.write 0 (bootHdrSerialise (headerOf image)) }) := by
    have width : (bootHdrSerialise (headerOf image)).length = 16 := rfl
    have nonempty : ctx.oshdr.size ≠ 0 := by rw [staged.chip.oshdr]; decide
    have inside : inRange ctx.oshdr.size 0 (bootHdrSerialise (headerOf image)).length = true := by
      rw [inRange, width, headerSize]
      rfl
    have clears : clearsOnly (ctx.oshdr.read (0 : UInt32).toNat (bootHdrSerialise (headerOf image)).length)
        (bootHdrSerialise (headerOf image)) = true :=
      clearsOnly_erased (read_erased fun k low => staged.header _ (by rw [width] at low; simp; omega))
    rw [programHdr, cfProgram, if_neg nonempty, inside, clears]
    rfl
  rw [handled, doVerify, if_neg (by simp), if_neg (by simp [staged.erased])]
  simp only [len, crc]
  rw [if_neg sized, if_neg written, toNat, staged.read_image fits, if_neg (by simp), staged.sane fits long]
  split
  · rename_i refused
    rw [if_neg (by simpa using refused)]
    rfl
  · rename_i accepted
    rw [if_pos (by simpa using accepted)]
    exact congrArg replyWord programmed

/-- After a VERIFY that went through, the slot holds the image without being active. -/
theorem verified_loaded (staged : Staged image image.length ctx) (fits : image.length ≤ 56320)
    (long : 8 ≤ image.length) :
    bootSlotCheck (ctx.oshdr.write 0 (bootHdrSerialise (headerOf image))) ctx.osflash = (.loaded, headerOf image) := by
  have toNat : (headerOf image).length.toNat = image.length :=
    UInt32.toNat_ofNat_of_lt' (show _ < 2 ^ 32 by omega)
  have room : bootHdrSize ≤ ctx.oshdr.size.toNat := by
    rw [staged.chip.oshdr]
    decide
  have some : (headerOf image).length ≠ 0 := by
    rw [ne_eq, ← UInt32.toNat_inj, toNat, UInt32.toNat_zero]
    omega
  have inside : (headerOf image).length ≤ ctx.osflash.size := by
    rw [UInt32.le_iff_toNat_le, toNat, staged.chip.osflash]
    exact fits
  have crc : Crc16.crc16 (ctx.osflash.read 0 (headerOf image).length.toNat) = (headerOf image).imageCrc := by
    rw [toNat, staged.read_image fits]
    rfl
  exact header_slot room some inside crc

end Commands

/-- Every command of a script is answered 9000. -/
def AllOk (ctx : BootCtx) (rspCap : UInt32) (cmds : List (List UInt8)) : Prop :=
  ∀ reply ∈ bootReplies ctx rspCap cmds, reply.sw = swOk

section Scripts
variable {ctx : BootCtx} {image : List UInt8} {rspCap : UInt32} {cmds : List (List UInt8)} {restart : Bool} {n : Nat}

theorem allOk_cons {cmd : List UInt8} :
    AllOk ctx rspCap (cmd :: cmds) ↔
      (bootHandle cmd rspCap ctx).1.sw = swOk ∧ AllOk (bootHandle cmd rspCap ctx).2 rspCap cmds := by
  simp [AllOk, bootReplies]

theorem allOk_append {more : List (List UInt8)} :
    AllOk ctx rspCap (cmds ++ more) ↔ AllOk ctx rspCap cmds ∧ AllOk (bootRun ctx cmds rspCap) rspCap more := by
  induction cmds generalizing ctx with
  | nil => simp [AllOk, bootReplies, bootRun]
  | cons cmd rest ih =>
    rw [List.cons_append, allOk_cons, allOk_cons, ih, and_assoc]
    rfl

/-- The blocks of an image, replayed after an ERASE. -/
theorem blocks_staged (staged : Staged image 0 ctx) (fits : image.length ≤ 56320) (rspCap : UInt32)
    (within : n ≤ blockCount image) :
    AllOk ctx rspCap ((List.range n).map (loadBlock image)) ∧
      Staged image (min (n * 128) image.length) (bootRun ctx ((List.range n).map (loadBlock image)) rspCap) := by
  induction n with
  | zero =>
    rw [Nat.zero_mul, Nat.zero_min]
    exact ⟨fun reply member => absurd member List.not_mem_nil, staged⟩
  | succ n ih =>
    obtain ⟨ok, reached⟩ := ih (by omega)
    have long := chunk_length image n
    have count : n < (image.length + 128 - 1) / 128 := within
    obtain ⟨loaded, next⟩ := load_stages reached within (by omega) rspCap
    rw [List.range_succ, List.map_append, allOk_append, bootRun_append]
    exact ⟨⟨ok, allOk_cons.mpr ⟨loaded, fun reply member => absurd member List.not_mem_nil⟩⟩, next⟩

/-- Everything a script does before VERIFY, from any state of the chip. -/
theorem image_staged (chip : Scv1 ctx) (fits : image.length ≤ 56320) (rspCap : UInt32) :
    AllOk ctx rspCap (cmdErase :: (List.range (blockCount image)).map (loadBlock image)) ∧
      Staged image image.length
        (bootRun ctx (cmdErase :: (List.range (blockCount image)).map (loadBlock image)) rspCap) := by
  obtain ⟨erased, start⟩ := erase_stages chip image rspCap
  obtain ⟨ok, staged⟩ := blocks_staged start fits rspCap (Nat.le_refl _)
  have whole : min (blockCount image * 128) image.length = image.length := by
    rw [blockCount, block]
    omega
  rw [whole] at staged
  exact ⟨allOk_cons.mpr ⟨erased, ok⟩, staged⟩

/-- A loaded slot is activated, and reported and restarted as asked. -/
theorem closing_activates (ctx : BootCtx) {h : BootHdr} (checked : bootSlotCheck ctx.oshdr ctx.osflash = (.loaded, h))
    (room : bootStatusRspLen ≤ rspCap) (restart : Bool) :
    AllOk ctx rspCap (closing restart) ∧
      bootRun ctx (closing restart) rspCap = { ctx with oshdr := ctx.oshdr.write 14 [0x00, 0x00] } := by
  obtain ⟨ran, active⟩ := doActivate_loaded checked
  have activates : bootHandle (apdu 0x80 0x44 0 0 []) rspCap ctx =
      (.word swOk, { ctx with oshdr := ctx.oshdr.write 14 [0x00, 0x00] }) := congrArg replyWord ran
  have reports : ∀ ctx, bootHandle (apdu 0x80 0xF2 0 0 []) rspCap ctx = (buildStatus rspCap ctx, ctx) := fun _ => rfl
  have answers : ∀ ctx, (buildStatus rspCap ctx).sw = swOk := fun ctx => by
    rw [buildStatus, if_neg (UInt32.not_lt.mpr room)]
  have restarts : ∀ ctx, bootHandle (apdu 0x80 0xF0 0 0 []) rspCap ctx = (doRestart ctx, ctx) := fun _ => rfl
  have done : ∀ ctx, AllOk ctx rspCap [] := fun ctx reply member => absurd member List.not_mem_nil
  cases restart with
  | false =>
    constructor
    · simp [closing, allOk_cons, activates, reports, answers, done, BootReply.word]
    · simp [closing, bootRun, activates, reports]
  | true =>
    constructor
    · simp [closing, allOk_cons, activates, reports, answers, restarts, done, BootReply.word, doRestart, active]
    · simp [closing, bootRun, activates, reports, restarts]

/-- The script the host writes, in the card's words. -/
theorem genOs_eq (small : image.length < 2 ^ 32) (restart : Bool) :
    genOs image restart = some (cmdErase :: (List.range (blockCount image)).map (loadBlock image) ++
      verifyOf image :: closing restart) := by
  have length : toBytes 4 image.length = some (bytes32 (UInt32.ofNat image.length)) := by
    rw [← toBytes_bytes32, UInt32.toNat_ofNat_of_lt' small]
  rw [genOs, length, crc16_toNat, toBytes_bytes16]
  simp [verifyOf]

/-- A whole script, up to VERIFY's verdict on the image. -/
theorem script_replayed (chip : Scv1 ctx) (fits : image.length ≤ 56320) (long : 8 ≤ image.length)
    (room : bootStatusRspLen ≤ rspCap) {script : List (List UInt8)} (built : genOs image restart = some script) :
    (AllOk ctx rspCap script ↔ plausibleOnScv1 image = true) ∧
      (plausibleOnScv1 image = true → ∃ staged, Staged image image.length staged ∧ bootRun ctx script rspCap =
        { staged with oshdr := (staged.oshdr.write 0 (bootHdrSerialise (headerOf image))).write 14 [0x00, 0x00] }) := by
  rw [genOs_eq (by omega)] at built
  cases built
  obtain ⟨ok, staged⟩ := image_staged chip fits rspCap
  have verified := verify_staged staged fits long rspCap
  generalize cmdErase :: (List.range (blockCount image)).map (loadBlock image) = staging at ok staged verified ⊢
  rw [allOk_append, bootRun_append]
  generalize bootRun ctx staging rspCap = loaded at staged verified ⊢
  rw [allOk_cons]
  by_cases sane : plausibleOnScv1 image = true
  · rw [if_pos sane] at verified
    obtain ⟨closed, after⟩ :=
      closing_activates { loaded with oshdr := loaded.oshdr.write 0 (bootHdrSerialise (headerOf image)) }
        (verified_loaded staged fits long) room restart
    constructor
    · rw [verified]
      exact ⟨fun _ => sane, fun _ => ⟨ok, rfl, closed⟩⟩
    · intro _
      refine ⟨_, staged, ?_⟩
      rw [bootRun, List.foldl_cons, verified]
      exact after
  · rw [if_neg sane] at verified
    refine ⟨⟨fun all => ?_, fun yes => absurd yes sane⟩, fun yes => absurd yes sane⟩
    have refused := all.2.1
    rw [verified] at refused
    exact absurd (show swDataInvalid = swOk from refused) (by decide)

/-- What the direct path writes, in the card's words. -/
theorem cmdSlot_eq (fits : image.length ≤ 56320) :
    cmdSlot image true = some (image ++ List.replicate (56320 - image.length) 0xFF,
      (bootHdrSerialise (headerOf image)).take 14 ++ [0x00, 0x00] ++ List.replicate 1008 0xFF) := by
  have length : toBytes 4 image.length = some (bytes32 (UInt32.ofNat image.length)) := by
    rw [← toBytes_bytes32, UInt32.toNat_ofNat_of_lt' (show _ < 2 ^ 32 by omega)]
  have version : toBytes 2 1 = some (bytes16 bootHdrVersion) := by decide
  have cap : ¬ image.length > 55 * 1024 := by omega
  rw [cmdSlot, if_neg cap, length, version, crc16_toNat image, toBytes_bytes16]
  simp only [Option.bind_eq_bind, Option.bind_some, crc16_toNat, toBytes_bytes16]
  rfl

/-- Only images that hold a vector table are plausible. -/
theorem plausible_long (fits : image.length ≤ 56320) (sane : plausibleOnScv1 image = true) : 8 ≤ image.length := by
  by_contra short
  have toNat : (UInt32.ofNat image.length).toNat = image.length :=
    UInt32.toNat_ofNat_of_lt' (show _ < 2 ^ 32 by omega)
  have refused : UInt32.ofNat image.length < 8 := by
    rw [UInt32.lt_iff_toNat_lt, toNat]
    exact Nat.not_le.mp short
  rw [plausibleOnScv1, bootImagePlausible] at sane
  simp only [if_pos refused] at sane
  exact absurd sane (by decide)

/-- For every image the card takes for its own, and from every state of the chip,
each APDU of the loader script is answered 9000 and the two regions end up byte
for byte as the direct path writes them. -/
theorem programming_paths_agree (image : List UInt8) (restart : Bool) (ctx : BootCtx) (rspCap : UInt32)
    (fits : image.length ≤ 56320) (sane : plausibleOnScv1 image = true) (chip : Scv1 ctx)
    (room : bootStatusRspLen ≤ rspCap) :
    ∃ script osflash oshdr, genOs image restart = some script ∧ cmdSlot image true = some (osflash, oshdr) ∧
      (∀ reply ∈ bootReplies ctx rspCap script, reply.sw = swOk) ∧
      (bootRun ctx script rspCap).osflash.size = scv1OsflashSize ∧
      (bootRun ctx script rspCap).oshdr.size = scv1OshdrSize ∧
      (bootRun ctx script rspCap).osflash.read 0 scv1OsflashSize.toNat = osflash ∧
      (bootRun ctx script rspCap).oshdr.read 0 scv1OshdrSize.toNat = oshdr := by
  have long := plausible_long fits sane
  have built := genOs_eq (show image.length < 2 ^ 32 by omega) restart
  obtain ⟨ok, ends⟩ := script_replayed chip fits long room built
  obtain ⟨ctx', staged, after⟩ := ends sane
  refine ⟨_, _, _, built, cmdSlot_eq fits, ok.mpr sane, ?_⟩
  have headerSize : ctx'.oshdr.size.toNat = 1024 := by rw [staged.chip.oshdr]; rfl
  rw [after]
  exact ⟨staged.chip.osflash, (Region.write_size.trans Region.write_size).trans staged.chip.oshdr,
    staged.read_slot fits,
    read_activated (fun k low => staged.header k (by omega)) rfl⟩

/-- A vector table and nothing else. -/
def tableOnly : List UInt8 := [0x00, 0x40, 0x00, 0x20, 0x01, 0x20, 0x00, 0x00]

/-- An SCV1 that has just entered its loader, with the same byte all over its flash. -/
def uniformChip (b : UInt8) : BootCtx :=
  bootCtxInit (.uniform scv1OsflashSize b) (.uniform scv1OshdrSize b) scv1CflashPage scv1OsflashBase scv1SramBase
    scv1SramSize

theorem uniformChip_scv1 (b : UInt8) : Scv1 (uniformChip b) := ⟨⟨rfl, rfl, rfl⟩, rfl, rfl, rfl⟩

theorem programming_paths_agree_table_only :
    plausibleOnScv1 tableOnly = true ∧ ∃ script osflash oshdr, genOs tableOnly true = some script ∧
      cmdSlot tableOnly true = some (osflash, oshdr) ∧
      (bootRun (uniformChip 0x00) script 16).osflash.read 0 scv1OsflashSize.toNat = osflash ∧
      (bootRun (uniformChip 0x00) script 16).oshdr.read 0 scv1OshdrSize.toNat = oshdr := by
  have sane : plausibleOnScv1 tableOnly = true := by decide +kernel
  obtain ⟨script, osflash, oshdr, built, slot, _, _, _, image, header⟩ := programming_paths_agree tableOnly true
    (uniformChip 0x00) 16 (by decide) sane (uniformChip_scv1 0x00) (by decide)
  exact ⟨sane, script, osflash, oshdr, built, slot, image, header⟩

/-- The host's checks of an image. -/
structure HostAccepts (image : List UInt8) : Prop where
  long : 8 ≤ image.length
  aboveSram : 0x20000000 < initialSp image
  withinSram : initialSp image ≤ 0x20004000
  thumb : resetPc image &&& 1 ≠ 0
  aboveLoad : 0x2000 ≤ entryOf (resetPc image)
  withinImage : entryOf (resetPc image) < 0x2000 + image.length

theorem mainOs_accepts {script : List (List UInt8)} (accepted : mainOs image false restart = some script) :
    HostAccepts image ∧ genOs image restart = some script := by
  unfold mainOs at accepted
  split at accepted
  · cases accepted
  rename_i long
  split at accepted
  · cases accepted
  rename_i clean
  have clean : problems image = [] := by simpa using clean
  rw [problems] at clean
  obtain ⟨stack, vector⟩ := List.append_eq_nil_iff.mp clean
  have stack : 0x20000000 < initialSp image ∧ initialSp image ≤ 0x20004000 := by
    by_contra bad
    rw [if_pos bad] at stack
    cases stack
  have thumb : resetPc image &&& 1 ≠ 0 := by
    intro bad
    rw [if_pos bad] at vector
    cases vector
  rw [if_neg thumb] at vector
  have entry : 0x2000 ≤ entryOf (resetPc image) ∧ entryOf (resetPc image) < 0x2000 + image.length := by
    by_contra bad
    rw [if_pos bad] at vector
    cases vector
  exact ⟨⟨Nat.not_lt.mp long, stack.1, stack.2, thumb, entry.1, entry.2⟩, accepted⟩

private theorem entry_toNat (pc : UInt32) : (pc &&& 0xFFFFFFFE).toNat = entryOf pc.toNat := by
  have bound := pc.toNat_lt
  have half : (pc.toNat &&& 0xFFFFFFFE) / 2 = pc.toNat / 2 := by
    rw [Nat.and_div_two]
    exact (Nat.and_two_pow_sub_one_eq_mod _ 31).trans (Nat.mod_eq_of_lt (by omega))
  have even : (pc.toNat &&& 0xFFFFFFFE) % 2 = 0 := by
    rw [← Nat.pow_one 2, Nat.and_mod_two_pow]
    exact Nat.and_zero _
  rw [UInt32.toNat_and, entryOf]
  change pc.toNat &&& 0xFFFFFFFE = _
  omega

/-- The vector table as the card and the host read it. -/
private theorem imageWord_toNat (long : 8 ≤ image.length) (size : UInt32) :
    (imageWord ⟨size, fun k => image.getD k 0xFF⟩ 0).toNat = initialSp image ∧
      (imageWord ⟨size, fun k => image.getD k 0xFF⟩ 4).toNat = resetPc image := by
  match image, long with
  | a :: b :: c :: d :: e :: f :: g :: h :: rest, _ =>
    simp only [imageWord, word32_toNat, initialSp, resetPc, fromLittle]
    simp
    omega

/-- Of an image the host accepts, the card only checks the alignment of the stack
pointer again. -/
theorem plausible_iff_aligned (host : HostAccepts image) (small : image.length < 2 ^ 32) :
    plausibleOnScv1 image = true ↔ initialSp image % 4 = 0 := by
  obtain ⟨sp, pc⟩ := imageWord_toNat host.long (UInt32.ofNat image.length)
  have toNat : (UInt32.ofNat image.length).toNat = image.length := UInt32.toNat_ofNat_of_lt' small
  have long : ¬ UInt32.ofNat image.length < 8 := by
    rw [UInt32.lt_iff_toNat_lt, toNat]
    exact Nat.not_lt.mpr host.long
  unfold plausibleOnScv1 bootImagePlausible
  dsimp only
  generalize imageWord _ 0 = spWord at sp ⊢
  generalize imageWord _ 4 = pcWord at pc ⊢
  have stack : ¬ (spWord ≤ scv1SramBase ∨ spWord.toNat > scv1SramBase.toNat + scv1SramSize.toNat) := by
    rw [UInt32.le_iff_toNat_le, sp]
    exact not_or.mpr ⟨Nat.not_le.mpr host.aboveSram, Nat.not_lt.mpr host.withinSram⟩
  have thumb : ¬ (pcWord &&& 1 = 0) := by
    rw [← UInt32.toNat_inj, UInt32.toNat_and, pc]
    exact host.thumb
  have above : ¬ (pcWord &&& 0xFFFFFFFE < scv1OsflashBase) := by
    rw [UInt32.lt_iff_toNat_lt, entry_toNat, pc]
    exact Nat.not_lt.mpr host.aboveLoad
  have within : ¬ ((pcWord &&& 0xFFFFFFFE).toNat ≥ scv1OsflashBase.toNat + (UInt32.ofNat image.length).toNat) := by
    rw [entry_toNat, pc, toNat]
    exact Nat.not_le.mpr host.withinImage
  have aligned : spWord % 4 = 0 ↔ initialSp image % 4 = 0 := by
    rw [← UInt32.toNat_inj, UInt32.toNat_mod, sp]
    rfl
  rw [if_neg long, if_neg stack, if_neg thumb, if_neg above, if_neg within, ← aligned]
  simp

/-- A block behind the end of the slot is refused, in whatever state. -/
theorem block_beyond_refused (sized : ctx.osflash.size = scv1OsflashSize) (here : n < blockCount image)
    (small : n < 65536) (beyond : 56320 ≤ n * 128) :
    (bootHandle (loadBlock image n) rspCap ctx).1.sw ≠ swOk := by
  intro ok
  have ins : (loadBlock image n).getD 1 0 = bootInsLoad := by rw [loadBlock_eq here]; rfl
  have loads := load_done ins (decide_eq_true ok)
  have inside := loads.inside
  have some := Nat.pos_of_ne_zero loads.nonempty
  rw [loadBlock_offset here small, sized, show scv1OsflashSize.toNat = 56320 from rfl] at inside
  omega

theorem genOs_small {script : List (List UInt8)} (built : genOs image restart = some script) :
    image.length < 2 ^ 32 := by
  by_contra large
  have refused : toBytes 4 image.length = none := if_neg large
  rw [genOs, refused] at built
  cases built

/-- Whatever is answered 9000 throughout has no block behind the end of the slot. -/
theorem allOk_fits (chip : Scv1 ctx) {script : List (List UInt8)} (built : genOs image restart = some script)
    (all : AllOk ctx rspCap script) : image.length ≤ 56320 := by
  by_contra large
  rw [genOs_eq (genOs_small built)] at built
  cases built
  have here : 440 < blockCount image := by
    rw [blockCount, block]
    omega
  obtain ⟨before, after, split⟩ := List.append_of_mem (List.mem_map_of_mem (List.mem_range.mpr here))
  rw [split, ← List.cons_append, List.append_assoc, allOk_append, List.cons_append] at all
  refine block_beyond_refused ?_ here (by decide) (by decide) (allOk_cons.mp all.2).1
  rw [(run_confined ctx _ rspCap).1.size, chip.osflash]

/-- A script the host writes is answered 9000 throughout exactly when the image
fits the slot and its stack pointer is a multiple of four: the host checks
neither, and has the card erased before the card can. -/
theorem host_check_suffices_iff (image : List UInt8) (restart : Bool) (script : List (List UInt8)) (ctx : BootCtx)
    (rspCap : UInt32) (accepted : mainOs image false restart = some script) (chip : Scv1 ctx)
    (room : bootStatusRspLen ≤ rspCap) :
    (∀ reply ∈ bootReplies ctx rspCap script, reply.sw = swOk) ↔
      image.length ≤ 56320 ∧ initialSp image % 4 = 0 := by
  obtain ⟨host, built⟩ := mainOs_accepts accepted
  by_cases fits : image.length ≤ 56320
  · rw [← plausible_iff_aligned host (by omega)]
    have replayed := (script_replayed chip fits host.long room built).1
    exact replayed.trans ⟨fun sane => ⟨fits, sane⟩, fun both => both.2⟩
  · exact ⟨fun all => absurd (allOk_fits chip built all) fits, fun both => absurd both.1 fits⟩

/-- An image whose stack pointer is in range but not aligned. -/
def misaligned : List UInt8 := [0xFE, 0x3F, 0x00, 0x20, 0x01, 0x20, 0x00, 0x00]

theorem host_check_suffices_iff_table_only :
    ∃ script, mainOs tableOnly false true = some script ∧
      ∀ reply ∈ bootReplies (uniformChip 0x00) 16 script, reply.sw = swOk := by
  obtain ⟨script, accepted⟩ := Option.isSome_iff_exists.mp (show (mainOs tableOnly false true).isSome by decide +kernel)
  refine ⟨script, accepted, ?_⟩
  exact (host_check_suffices_iff tableOnly true script (uniformChip 0x00) 16 accepted (uniformChip_scv1 0x00)
    (by decide)).mpr (by decide +kernel)

/-- The host writes a script for it; the card erases its slot, refuses the image at
VERIFY and is left blank. -/
theorem misaligned_image_blanks_card :
    ∃ script, mainOs misaligned false true = some script ∧
      (bootReplies (uniformChip 0xFF) 16 script).map BootReply.sw =
        [swOk, swOk, swDataInvalid, swNotFound, swOk, swNotFound] ∧
      (bootSlotCheck (bootRun (uniformChip 0xFF) script 16).oshdr
        (bootRun (uniformChip 0xFF) script 16).osflash).1 = .blank := by
  refine ⟨(mainOs misaligned false true).getD [], ?_, ?_, ?_⟩
  · decide +kernel
  · decide +kernel
  · decide +kernel

end Scripts
end CardOs.ProgrammingProofs
