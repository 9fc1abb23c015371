import CardOs.BoardProofs
import CardOs.CardImage
import CardOs.Library.BlockImage
import Mathlib.Data.List.Pairwise

/-! What a card image does. It has the bytes of every file where the chip looks for them,
and its description says so; a new board with an image of a card in its memory lives on as
that card. The program in an image is another matter: the boot ROM erases it. -/
namespace CardOs.CardImageProofs
open CardOs.Library CardOs.Library.BigEndian CardOs.LoaderScript CardOs.CardImage CardOs.Transport CardOs.HalNvm
open CardOs.PowerSession CardOs.BootLoader CardOs.BootRom CardOs.BootSession CardOs.LoopProofs CardOs.SessionProofs
open CardOs.CardLoop CardOs.BoardProofs CardOs.ProgrammingProofs CardOs.FsTypes CardOs.FsStore CardOs.FsStoreProofs
open CardOs.FileService

section Slices
variable {buf bytes : List UInt8} {k i : Nat} {fill : UInt8}

theorem setSlice_length (inside : k + bytes.length ≤ buf.length) : (setSlice buf k bytes).length = buf.length := by
  rw [setSlice, List.length_append, List.length_append, List.length_take, List.length_drop]
  omega

theorem setSlice_getD (inside : k + bytes.length ≤ buf.length) :
    (setSlice buf k bytes).getD i fill =
      if k ≤ i ∧ i < k + bytes.length then bytes.getD (i - k) fill else buf.getD i fill := by
  have before : (buf.take k).length = k := by rw [List.length_take]; omega
  have both : (buf.take k ++ bytes).length = k + bytes.length := by rw [List.length_append, before]
  simp only [setSlice, List.getD_eq_getElem?_getD]
  by_cases behind : k + bytes.length ≤ i
  · rw [if_neg (by omega), List.getElem?_append_right (by omega), both, List.getElem?_drop, Nat.add_sub_cancel' behind]
  rw [List.getElem?_append_left (by omega)]
  by_cases low : i < k
  · rw [if_neg (by omega), List.getElem?_append_left (by omega), List.getElem?_take_of_lt low]
  · rw [if_pos (by omega), List.getElem?_append_right (by omega), before]

end Slices

/-- The files as pieces of the image. -/
def pieces (parts : Parts) : List (Span × List UInt8) :=
  [(bootrom, parts.bootrom), (osflash, parts.os.getD []), (oshdr, parts.oshdr.getD []), (eeprom, parts.eeprom.getD []),
    (dflash, parts.dflash.getD [])]

def pieceBlock (piece : Span × List UInt8) : Block UInt8 := ⟨piece.1.base, piece.2⟩

/-- The image has these pieces one over the other. -/
structure Laid (image : List UInt8) (laid : List (Span × List UInt8)) : Prop where
  length : image.length = imageSize
  byte : ∀ i, image.getD i erased = Block.imageAt erased (laid.map pieceBlock) i
  fits : ∀ piece ∈ laid, piece.2.length ≤ piece.1.size

section Layout
variable {image image' data : List UInt8} {span : Span} {laid more : List (Span × List UInt8)} {parts : Parts}

/-- One more piece. -/
theorem place_lays (before : Laid image laid) (inside : span.base + span.size ≤ imageSize)
    (placed : place image span data = some image') : Laid image' (laid ++ [(span, data)]) := by
  have fits : data.length ≤ span.size ∧ setSlice image span.base data = image' := by
    simpa [place] using placed
  obtain ⟨fits, rfl⟩ := fits
  have room : span.base + data.length ≤ image.length := by rw [before.length]; omega
  refine ⟨(setSlice_length room).trans before.length, ?_, ?_⟩
  · intro i
    rw [setSlice_getD room, List.map_append, List.map_singleton, Block.imageAt_concat, before.byte]
    simp only [Block.covers_iff, pieceBlock]
  · rw [List.forall_mem_append, List.forall_mem_singleton]
    exact ⟨before.fits, fits⟩

/-- All of them. -/
theorem places_lay (before : Laid image laid) (inside : ∀ piece ∈ more, piece.1.base + piece.1.size ≤ imageSize)
    (placed : more.foldlM (fun image piece => place image piece.1 piece.2) image = some image') :
    Laid image' (laid ++ more) := by
  induction more generalizing image laid with
  | nil =>
    cases placed
    rwa [List.append_nil]
  | cons piece rest ih =>
    obtain ⟨here, later⟩ := List.forall_mem_cons.mp inside
    rw [List.foldlM_cons, Option.bind_eq_bind, Option.bind_eq_some_iff] at placed
    obtain ⟨next, first, placed⟩ := placed
    have laid := ih (place_lays before here first) later placed
    rwa [List.append_assoc] at laid

theorem placeGiven_eq (image : List UInt8) (span : Span) (file : Option (List UInt8)) :
    placeGiven image span file = place image span (file.getD []) := by
  cases file with
  | none => simp [placeGiven, place, setSlice]
  | some data => rfl

theorem build_eq (parts : Parts) : build parts =
    (pieces parts).foldlM (fun image piece => place image piece.1 piece.2) (List.replicate imageSize erased) := by
  simp only [build, placeGiven_eq, pieces, List.foldlM_cons, List.foldlM_nil, bind_pure]

theorem pieces_inside (parts : Parts) : ∀ piece ∈ pieces parts, piece.1.base + piece.1.size ≤ imageSize := by
  have inside : ∀ span ∈ [bootrom, osflash, oshdr, eeprom, dflash], span.base + span.size ≤ imageSize := by decide
  exact fun piece member => inside piece.1 (List.mem_map_of_mem member)

theorem build_lays (built : build parts = some image) : Laid image (pieces parts) := by
  rw [build_eq] at built
  have blank : Laid (List.replicate imageSize erased) [] := by
    refine ⟨List.length_replicate, fun i => ?_, fun piece member => by cases member⟩
    rw [List.getD_eq_getElem?_getD, List.getElem?_replicate]
    split <;> rfl
  exact places_lay blank (pieces_inside parts) built

/-- An image is made unless a file is too long for its region. -/
theorem build_some (fits : ∀ piece ∈ pieces parts, piece.2.length ≤ piece.1.size) :
    ∃ image, build parts = some image := by
  have places (more : List (Span × List UInt8)) (fits : ∀ piece ∈ more, piece.2.length ≤ piece.1.size)
      (image : List UInt8) :
      ∃ image', more.foldlM (fun image piece => place image piece.1 piece.2) image = some image' := by
    induction more generalizing image with
    | nil => exact ⟨image, rfl⟩
    | cons piece rest ih =>
      obtain ⟨here, later⟩ := List.forall_mem_cons.mp fits
      rw [List.foldlM_cons, place, if_neg (Nat.not_lt.mpr here)]
      exact ih later _
  rw [build_eq]
  exact places _ fits _

/-- Two regions do not meet. -/
def Apart (p q : Span) : Prop := p.base + p.size ≤ q.base ∨ q.base + q.size ≤ p.base

instance (p q : Span) : Decidable (Apart p q) := inferInstanceAs (Decidable (_ ∨ _))

/-- Where pieces do not meet, each region has its file and is erased behind it. -/
theorem piece_byte (laid : Laid image more) (apart : more.Pairwise fun p q => Apart p.1 q.1) {piece : Span × List UInt8}
    (member : piece ∈ more) {i : Nat} (inside : i < piece.1.size) :
      image.getD (piece.1.base + i) erased = piece.2.getD i erased := by
  have alone : ∀ b ∈ more.map pieceBlock, b ≠ pieceBlock piece → b.covers (piece.1.base + i) = false := by
    intro b there other
    obtain ⟨q, member', rfl⟩ := List.mem_map.mp there
    have : Std.Symm fun p q : Span × List UInt8 => Apart p.1 q.1 := ⟨fun _ _ => Or.symm⟩
    have between := apart.forall member' member fun same => other (congrArg pieceBlock same)
    have short := laid.fits q member'
    rw [Bool.eq_false_iff, Ne, Block.covers_iff]
    rcases between with before | behind
    · simp only [pieceBlock]
      omega
    · simp only [pieceBlock]
      omega
  rw [laid.byte, Block.imageAt_alone (List.mem_map_of_mem member) alone]
  split
  · rw [pieceBlock, Nat.add_sub_cancel_left]
  · rename_i bare
    simp only [Block.covers_iff, pieceBlock] at bare
    exact (List.getD_eq_default _ _ (by omega)).symm

theorem pieces_apart (parts : Parts) : (pieces parts).Pairwise fun p q => Apart p.1 q.1 := by
  have apart : [bootrom, osflash, oshdr, eeprom, dflash].Pairwise Apart := by decide
  exact List.pairwise_map.mp apart

theorem build_byte (built : build parts = some image) {piece : Span × List UInt8} (member : piece ∈ pieces parts)
    {i : Nat} (inside : i < piece.1.size) : image.getD (piece.1.base + i) erased = piece.2.getD i erased :=
  piece_byte (build_lays built) (pieces_apart parts) member inside

/-- A region of the image has its file, and is erased behind it. -/
theorem slice_of_piece (built : build parts = some image) {piece : Span × List UInt8} (member : piece ∈ pieces parts)
    {n : Nat} (inside : n ≤ piece.1.size) :
    slice image piece.1.base n = (piece.2 ++ List.replicate (piece.1.size - piece.2.length) erased).take n := by
  have laid := build_lays built
  have fits := laid.fits piece member
  have within := pieces_inside parts piece member
  have length : (slice image piece.1.base n).length = n := by
    rw [slice, List.length_take, List.length_drop, laid.length]
    omega
  have filled : (piece.2 ++ List.replicate (piece.1.size - piece.2.length) erased).length = piece.1.size := by
    rw [List.length_append, List.length_replicate]
    omega
  refine List.ext_getElem (by rw [length, List.length_take]; omega) fun i here there => ?_
  have byte := build_byte built member (show i < piece.1.size by omega)
  rw [List.getD_eq_getElem _ _ (by rw [laid.length]; omega)] at byte
  simp only [slice, List.getElem_take, List.getElem_drop]
  rw [byte]
  by_cases covered : i < piece.2.length
  · rw [List.getD_eq_getElem _ _ covered, List.getElem_append_left covered]
  · rw [List.getD_eq_default _ _ (Nat.not_lt.mp covered), List.getElem_append_right (Nat.not_lt.mp covered),
      List.getElem_replicate]

theorem slice_of_file (built : build parts = some image) {piece : Span × List UInt8} (member : piece ∈ pieces parts)
    {n : Nat} (whole : n ≤ piece.2.length) : slice image piece.1.base n = piece.2.take n := by
  rw [slice_of_piece built member (Nat.le_trans whole ((build_lays built).fits piece member)),
    List.take_append_of_le_length whole]

theorem slice_of_nothing (built : build parts = some image) {span : Span} (member : (span, []) ∈ pieces parts) {n : Nat}
    (inside : n ≤ span.size) : slice image span.base n = List.replicate n erased := by
  have read := slice_of_piece built member inside
  rwa [List.nil_append, List.length_nil, Nat.sub_zero, List.take_replicate, Nat.min_eq_left inside] at read

end Layout

/-- The memory of a chip that was programmed with an image. -/
def programmed (image : List UInt8) : PowerSession.Scv1.Memory := fun a => image.getD a erased

/-- Its NVM. -/
def nvmOf (image : List UInt8) : Nvm :=
  ⟨PowerSession.Scv1.eepromOf (programmed image), PowerSession.Scv1.dflashOf (programmed image)⟩

section Card
variable {image : List UInt8} {parts : Parts} {nvm : Nvm} {host : Option StateDir} {card : Kernel.Card} {cursor : Cursor}
  {kept : Kept}

/-- The NVM of a chip that is programmed with the files of a card has the bytes of the card. -/
theorem image_reloads (built : build parts = some image) (eepromFile : parts.eeprom = some (imageOf nvm.eeprom))
    (dflashFile : parts.dflash = some (imageOf nvm.flash)) : Reloads nvm (nvmOf image) := by
  constructor
  · intro i inside
    have byte := @build_byte image parts built (eeprom, parts.eeprom.getD []) (by simp [pieces]) i inside
    rw [eepromFile] at byte
    exact byte
  · intro i inside
    have byte := @build_byte image parts built (dflash, parts.dflash.getD []) (by simp [pieces]) i inside
    rw [dflashFile] at byte
    exact byte

theorem holds_hasFs {table : Table} {top : UInt32} (holds : Holds nvm table top) :
    PowerSession.Scv1.hasFs nvm.eeprom = true := by
  have magic : nvm.eeprom.read 0 4 = fsMagic := by
    rw [← Region.take_read 4 (show 4 ≤ fsSuperblockSize by decide), holds.superblock]
    rfl
  rw [PowerSession.Scv1.hasFs, magic]
  decide

/-- Without files, the firmware takes the card that it finds in the memory. -/
theorem image_boots (refines : ServiceProofs.Refines card ⟨kept.volume, cursor⟩)
    (flash : card.store.hal.nvm.flash.size.toNat = kept.flash) (built : build parts = some image)
    (eepromFile : parts.eeprom = some (imageOf card.store.hal.nvm.eeprom))
    (dflashFile : parts.dflash = some (imageOf card.store.hal.nvm.flash))
    (empty : ∀ dir, host = some dir → dir = .empty) (space : kept.used ≤ PowerSession.Scv1.scv1DflashSize.toNat) :
    ∃ card', Kernel.scosInit (powered (PowerSession.Scv1.scv1NvmPowerOn host (programmed image))) = (.ok, card') ∧
      card'.store.hal.nvm.flash.size = PowerSession.Scv1.scv1DflashSize ∧
      ServiceProofs.Refines card' (started (some kept) PowerSession.Scv1.scv1DflashSize) := by
  have reloads := image_reloads built eepromFile dflashFile
  have slots : 656 ≤ (nvmOf image).eeprom.size.toNat := by
    show 656 ≤ PowerSession.Scv1.scv1EepromSize.toNat
    decide
  obtain ⟨t, place, stands⟩ := refines.stands
  obtain ⟨-, used⟩ := refines_top refines stands
  have room : t.top ≤ (nvmOf image).flash.size := by
    rw [UInt32.le_iff_toNat_le, ← used, flash]
    exact space
  have found := holds_hasFs (reload_holds stands.ready.holds reloads slots room)
  have left : PowerSession.Scv1.scv1NvmPowerOn host (programmed image) = nvmOf image := by
    rw [PowerSession.Scv1.scv1NvmPowerOn, loadFrom_empty empty rfl, loadFrom_empty empty rfl]
    dsimp only
    rw [show PowerSession.Scv1.hasFs (PowerSession.Scv1.eepromOf (programmed image)) = true from found]
    rfl
  rw [left]
  exact reload_refines refines flash reloads slots space

end Card

/-- The directory after some sessions, and the card that is kept then. -/
def leftBy (sessions : List Session) (dir : StateDir) : StateDir :=
  sessions.foldl (fun dir x => (x.run dir).host.getD dir) dir

noncomputable def keptBy (sessions : List Session) (kept : Option Kept) : Option Kept :=
  sessions.foldl (fun kept x => x.after kept) kept

theorem shelves_run {dir : StateDir} {kept : Option Kept} (shelves : Shelves dir kept) (sessions : List Session)
    (fit : AllFit kept sessions) : Shelves (leftBy sessions dir) (keptBy sessions kept) := by
  induction sessions generalizing dir kept with
  | nil => exact shelves
  | cons x rest ih => exact ih (session_keeps shelves fit.1).2 fit.2

/-- The first turn of a new board that has the image of a card in its memory. -/
theorem image_turn {image os : List UInt8} {parts : Parts} {dir : StateDir} {kept : Option Kept}
    (shelves : Shelves dir kept)
    (built : build parts = some image) (eepromFile : parts.eeprom = dir.eeprom) (dflashFile : parts.dflash = dir.flash)
    (fits : os.length ≤ 56320) (sane : plausibleOnScv1 os = true) {strap : Bool} {orders : List Order}
    (fit : Turn.Fits ⟨false, kept⟩ ⟨programmed image, strap, .program orders true⟩) :
    let turn : Turn := ⟨programmed image, strap, .program orders true⟩
    ∃ left, turn.run os newBoard = some ⟨(turn.shown os ⟨false, kept⟩).1, (turn.shown os ⟨false, kept⟩).2, some left⟩ ∧
      Boards os left (turn.after ⟨false, kept⟩) := by
  intro turn
  rcases kept with _ | kept
  · exact turn_kept ⟨.inl ⟨rfl, rfl⟩, rfl⟩ fits sane fit
  obtain ⟨card, cursor, refines, flash, -, rfl⟩ := shelves
  obtain ⟨card', boots, size, refines'⟩ := image_boots refines flash built eepromFile dflashFile
    (fun dir there => (Option.some.inj there).symm) fit.2.space
  obtain ⟨oshdr, osflash, carries, jumps⟩ :=
    @program_jumps os newBoard ⟨false, some kept⟩ turn (.inl ⟨rfl, rfl⟩) fits sane
    (.inr rfl) (turn.session orders true).input
  have ran := jump_serves carries fits jumps rfl rfl boots refines' fit.2.valid
  exact ⟨_, ran, ⟨rfl, rfl⟩, @shelves_after (turn.session orders true) card' _ refines' size orders⟩

/-- A card is personalised in any sessions that fit and its files are put into an image, with
whatever else. A new board with this image in its memory, once it has been sent a program
and the session has come to its end, shows over any turns that fit what that card would. -/
theorem card_image_carries_the_card (sessions : List Session) (fit : AllFit none sessions) {parts : Parts}
    {image : List UInt8} (built : build parts = some image) (eepromFile : parts.eeprom = (leftBy sessions .empty).eeprom)
    (dflashFile : parts.dflash = (leftBy sessions .empty).flash) (os : List UInt8) (fits : os.length ≤ 56320)
    (sane : plausibleOnScv1 os = true) (strap : Bool) (orders : List Order) (turns : List Turn)
    (lives : Turns ⟨false, keptBy sessions none⟩ (⟨programmed image, strap, .program orders true⟩ :: turns)) :
    turnShowings os newBoard (⟨programmed image, strap, .program orders true⟩ :: turns) =
      lifeShowings os ⟨false, keptBy sessions none⟩ (⟨programmed image, strap, .program orders true⟩ :: turns) := by
  have shelves : Shelves (leftBy sessions .empty) (keptBy sessions none) := @shelves_run .empty none rfl sessions fit
  obtain ⟨left, ran, boards⟩ := image_turn shelves built eepromFile dflashFile fits sane lives.1
  rw [turnShowings, lifeShowings, ran, ← showings_of_life boards fits sane turns lives.2]
  rfl

/-- The first byte of the EF with the short identifier 1. -/
def readFirst : List Order := [.apdu [0x00, 0xB0, 0x81, 0x00, 0x01]]

/-- A program without a header, and the files of a card on which a byte was written. -/
def writtenParts : Parts :=
  ⟨[], some tableOnly, none, (leftBy [written] .empty).eeprom, (leftBy [written] .empty).flash⟩

theorem written_fits : AllFit none [written] :=
  ⟨⟨List.forall_mem_singleton.mpr (show _ ∧ _ by decide), by decide, by decide, fun _ _ board => by cases board⟩,
    trivial⟩

theorem written_kept : ∃ kept, keptBy [written] none = some kept ∧ kept.flash = 128 := ⟨_, rfl, rfl⟩

theorem card_image_carries_a_written_byte : ∃ image,
    build writtenParts = some image ∧
      turnShowings tableOnly newBoard [⟨programmed image, false, .program readFirst true⟩] =
        [some (some 0, romBanner .blank .zeroed false true ++
          replyLines (loadingReplies tableOnly ++ [⟨swOk, [], .restart⟩]) ++
          (PowerSession.Scv1.banner true ++ chars "AA9000\n" ++ PowerSession.Scv1.closing))] := by
  obtain ⟨kept, left, flash⟩ := written_kept
  have space : kept.used ≤ PowerSession.Scv1.scv1DflashSize.toNat := Nat.le_trans (Nat.sub_le ..) (by rw [flash]; decide)
  have reads (memory : PowerSession.Scv1.Memory) : Session.Fits ⟨.scv1 memory, true, readFirst, true⟩ (some kept) :=
    ⟨List.forall_mem_singleton.mpr (show _ ∧ _ by decide), (show 656 ≤ PowerSession.Scv1.scv1EepromSize.toNat by decide),
      space, fun none => by cases none⟩
  -- what the session shows does not depend on the memory, so that it can be run on an empty one
  have shown (memory : PowerSession.Scv1.Memory) : (Session.shown ⟨.scv1 memory, true, readFirst, true⟩ (some kept)) =
      (some 0, PowerSession.Scv1.banner true ++ chars "AA9000\n" ++ PowerSession.Scv1.closing) := by
    have shelves : Shelves (leftBy [written] .empty) (some kept) := left ▸ @shelves_run .empty none rfl _ written_fits
    have ran := (session_keeps shelves (reads fun _ => 0x00)).1
    refine ran.symm.trans ?_
    decide +kernel
  obtain ⟨image, built⟩ := @build_some writtenParts (by decide +kernel)
  refine ⟨image, built, ?_⟩
  have eepromFile : writtenParts.eeprom = (leftBy [written] .empty).eeprom := by rw [writtenParts]
  have dflashFile : writtenParts.dflash = (leftBy [written] .empty).flash := by rw [writtenParts]
  rw [card_image_carries_the_card [written] written_fits built eepromFile dflashFile tableOnly (by decide)
      (by decide +kernel) false readFirst [] (by rw [left]; exact ⟨⟨.inr rfl, reads _⟩, trivial⟩),
    left, lifeShowings, lifeShowings, Turn.shown]
  dsimp only
  rw [Turn.session, shown]
  rfl

section Slot
variable {image os osFile hdrFile : List UInt8} {parts : Parts}

theorem imageOf_eq {r : Region} {data : List UInt8} (whole : data.length = r.size.toNat)
    (same : ∀ i < r.size.toNat, r.byte i = data.getD i erased) : imageOf r = data := by
  refine List.ext_getElem (by rw [imageOf, Region.read_length, whole]) fun i here there => ?_
  rw [imageOf, Region.read_length] at here
  simp only [imageOf]
  rw [Region.read_getElem, Nat.zero_add, same i here, List.getD_eq_getElem _ _ there]

/-- A slot that was made on the host is in the memory as the loader would have left it. -/
theorem image_carries (fits : os.length ≤ 56320) (sane : plausibleOnScv1 os = true)
    (slot : cmdSlot os true = some (osFile, hdrFile)) (built : build parts = some image)
    (program : parts.os = some osFile) (header : parts.oshdr = some hdrFile) :
    Carries os (slotOf (programmed image)).header (slotOf (programmed image)).image := by
  obtain ⟨rfl, rfl⟩ := Prod.mk.inj (Option.some.inj ((cmdSlot_eq fits).symm.trans slot))
  refine carries_of_images fits sane rfl rfl (imageOf_eq ?_ fun i inside => ?_) (imageOf_eq ?_ fun i inside => ?_)
  · exact slotHeader_length os
  · have byte := @build_byte image parts built (oshdr, parts.oshdr.getD []) (by simp [pieces]) i inside
    rw [header] at byte
    exact byte
  · exact slotImage_length fits
  · have byte := @build_byte image parts built (osflash, parts.os.getD []) (by simp [pieces]) i inside
    rw [program] at byte
    exact byte

/-- An order that is for a card: it fits the buffer of the loader and is of another class
than its commands. -/
def ForCard (order : Order) : Prop :=
  order.Valid cmdCapacity ∧ ∀ cmd, order = .apdu cmd → cmd.getD 0 0 ≠ bootCla

/-- What the loader has to say to it. -/
def romAnswers : Order → List (List UInt8)
  | .apdu cmd => [replyBytes (.word (if cmd.length < 4 then swWrongLength else swClaNotSup))]
  | .reset | .atr => [romAtr]
  | .comment _ | .blank => []

variable {ctx : BootCtx} {host : Option BoardFiles}

theorem clean_flush (ctx : BootCtx) (host : Option BoardFiles) : slotFlush ctx false host = (false, host) := by
  cases host <;> rfl

theorem foreign_handled {cmd : List UInt8} (foreign : cmd.getD 0 0 ≠ bootCla) (rspCap : UInt32) (ctx : BootCtx) :
    bootHandle cmd rspCap ctx = (.word (if cmd.length < 4 then swWrongLength else swClaNotSup), ctx) := by
  rw [bootHandle, if_pos foreign]
  split
  · rfl
  · rfl

/-- Such an order leaves a loader without a program as it was, but for its progress. -/
theorem rom_order {order : Order} (foreign : ForCard order) (idle : (bootSlotCheck ctx.oshdr ctx.osflash).1 ≠ .active)
    (rest out : List UInt8) :
    ∃ ctx', ctx'.oshdr = ctx.oshdr ∧ ctx'.osflash = ctx.osflash ∧
      BootSession.loaderLoop ctx false host ⟨order.line ++ rest, out⟩ =
        BootSession.loaderLoop ctx' false host ⟨rest, out ++ (romAnswers order).flatMap hexLine⟩ := by
  obtain ⟨valid, other⟩ := foreign
  cases order with
  | apdu cmd =>
    refine ⟨ctx, rfl, rfl, ?_⟩
    have word (short : Prop) [Decidable short] : (if short then swWrongLength else swClaNotSup) ≠ swOk := by
      split <;> decide
    rw [Order.line, rom_got (rom_speaks.command cmd rest out valid.1 valid.2), looped, foreign_handled (other cmd rfl)]
    dsimp only
    rw [BootReply.word, if_neg (fun restarts => by cases restarts), rom_speaks.send, decide_eq_false (word _)]
    simp only [romAnswers, BootReply.word, List.flatMap_singleton, Bool.or_false]
  | reset =>
    refine ⟨{ ctx with erased := false, highWater := 0 }, rfl, rfl, ?_⟩
    rw [Order.line, rom_got (rom_speaks.reset rest out), looped, clean_flush, if_neg fun active => idle active.2,
      romAnswers, List.flatMap_singleton]
  | atr =>
    refine ⟨ctx, rfl, rfl, ?_⟩
    rw [Order.line, rom_congr (rom_speaks.atr rest out), romAnswers, List.flatMap_singleton]
  | comment text =>
    refine ⟨ctx, rfl, rfl, ?_⟩
    rw [Order.line, List.append_assoc, romAnswers, List.flatMap_nil, List.append_nil]
    exact rom_congr (rom_speaks.comment text rest out valid.1 valid.2)
  | blank =>
    refine ⟨ctx, rfl, rfl, ?_⟩
    rw [romAnswers, List.flatMap_nil, List.append_nil]
    exact rom_congr (rom_speaks.blank rest out)

theorem rom_orders (orders : List Order) (foreign : ∀ order ∈ orders, ForCard order)
    (idle : (bootSlotCheck ctx.oshdr ctx.osflash).1 ≠ .active) (rest out : List UInt8) :
    ∃ ctx', BootSession.loaderLoop ctx false host ⟨script orders ++ rest, out⟩ =
      BootSession.loaderLoop ctx' false host ⟨rest, out ++ (orders.flatMap romAnswers).flatMap hexLine⟩ := by
  induction orders generalizing ctx out with
  | nil => exact ⟨ctx, by simp [script]⟩
  | cons order orders ih =>
    obtain ⟨here, later⟩ := List.forall_mem_cons.mp foreign
    obtain ⟨between, header, flash, first⟩ := @rom_order ctx host order here idle (script orders ++ rest) out
    obtain ⟨ctx', others⟩ :=
      @ih between later (by rw [header, flash]; exact idle) (out ++ (romAnswers order).flatMap hexLine)
    refine ⟨ctx', ?_⟩
    rw [script, List.flatMap_cons, List.append_assoc, ← script, first, others, List.flatMap_cons, List.flatMap_append,
      List.append_assoc]

/-- An image with the slot of a plausible program, as the host tool makes it, gives the memory
a slot that the boot ROM would start. But power-on erases the slot unless it is in files as
well, so that the board comes up blank, and to a reader that takes it for a card and whose
orders fit its buffer the loader answers. -/
theorem card_image_program_is_erased (fits : os.length ≤ 56320) (sane : plausibleOnScv1 os = true)
    (slot : cmdSlot os true = some (osFile, hdrFile)) (built : build parts = some image)
    (program : parts.os = some osFile)
    (header : parts.oshdr = some hdrFile) (unfiled : Unfiled host) (orders : List Order)
    (foreign : ∀ order ∈ orders, ForCard order) :
    Carries os (slotOf (programmed image)).header (slotOf (programmed image)).image ∧
      boardMain os host (programmed image) (script orders) =
        some ⟨none, romBanner .blank .zeroed (bootselAsserted host) host.isSome ++
          (orders.flatMap romAnswers).flatMap hexLine, host⟩ := by
  refine ⟨image_carries fits sane slot built program header, ?_⟩
  obtain ⟨ctx, -, checked, stays⟩ := rom_unfiled unfiled (programmed image) ⟨script orders, []⟩
  have idle : (bootSlotCheck ctx.oshdr ctx.osflash).1 ≠ .active := by
    rw [checked]
    decide
  obtain ⟨ctx', answered⟩ := @rom_orders ctx host orders foreign idle []
    (romBanner .blank .zeroed (bootselAsserted host) host.isSome)
  have blocks (out : List UInt8) : (CardLoop.scv1 romAtr).receive 133 ⟨[], out⟩ = (.waiting, ⟨[], out⟩) := by
    show Transport.Scv1.halCardReceive romAtr 133 ⟨[], out⟩ = _
    rw [Transport.Scv1.halCardReceive]
    rfl
  rw [List.append_nil, rom_got (blocks _)] at answered
  rw [boardMain, stays.trans answered]
  rfl

/-- A program and its header, as the host tool makes them. -/
def slotParts : Parts := ⟨tableOnly, some (slotImage tableOnly), some (slotHeader tableOnly), none, none⟩

theorem slotParts_built : ∃ image, build slotParts = some image := by
  refine build_some ?_
  simp only [slotParts, pieces, Option.getD_some, Option.getD_none, List.forall_mem_cons, slotHeader_length]
  exact ⟨by decide, Nat.le_of_eq (slotImage_length (by decide)), Nat.le_refl 1024, by decide, by decide,
    fun _ none => by cases none⟩

theorem card_image_program_is_erased_after_reset : ∃ image, build slotParts = some image ∧
    boardMain tableOnly none (programmed image) (script [.reset, .apdu [0x00, 0xA4, 0x00, 0x00]]) =
      some ⟨none, romBanner .blank .zeroed false false ++ chars "3B941100424F4F54\n6E00\n", none⟩ := by
  obtain ⟨image, built⟩ := slotParts_built
  have foreign : ∀ order ∈ [Order.reset, .apdu [0x00, 0xA4, 0x00, 0x00]], ForCard order := by
    simp only [List.forall_mem_cons]
    refine ⟨⟨trivial, fun _ apdu => by cases apdu⟩, ⟨⟨by decide, by decide⟩, fun cmd apdu => ?_⟩,
      fun _ none => by cases none⟩
    cases apdu
    decide
  have unfiled : Unfiled none := fun _ hosted => by cases hosted
  have erased := card_image_program_is_erased (by decide) (by decide +kernel) (cmdSlot_eq (by decide)) built rfl rfl
    unfiled [.reset, .apdu [0x00, 0xA4, 0x00, 0x00]] foreign
  exact ⟨image, built, erased.2⟩

end Slot

/-- What goes into an image: a boot ROM, the slot of a program as the host tool makes it if
there is a program, and the files of a card. -/
def partsOf (bootrom : List UInt8) (os : Option (List UInt8)) (dir : StateDir) : Parts :=
  ⟨bootrom, os.bind fun os => (cmdSlot os true).map Prod.fst, os.bind fun os => (cmdSlot os true).map Prod.snd,
    dir.eeprom, dir.flash⟩

/-- How a slot should be described. -/
def slotDescribed : Option (List UInt8) → List UInt8
  | none => chars "  OSHDR   no slot header -- the card will come up in the loader"
  | some os => chars "  OSHDR   slot ACTIVE, image " ++ pyDecimal os.length ++ chars " bytes, CRC " ++ pyHex 4 (crc16 os)

/-- How a card should be. -/
def cardDescribed : Option Kept → List UInt8
  | none => chars "  EEPROM erased -- a factory-blank card; it will personalise itself on first boot"
  | some kept => chars "  EEPROM filesystem present: layout v" ++ pyDecimal 1 ++ chars ", " ++ pyDecimal 32 ++
      chars " slots, " ++ pyDecimal kept.used ++ chars " bytes of file data"

/-- How the first two words of a boot ROM should be, with their low bytes first. -/
def vectorsDescribed (bootrom : List UInt8) : List (List UInt8) :=
  let byte k := (bootrom.getD k 0).toNat
  let sp := byte 0 + byte 1 * 2 ^ 8 + byte 2 * 2 ^ 16 + byte 3 * 2 ^ 24
  let pc := byte 4 + byte 5 * 2 ^ 8 + byte 6 * 2 ^ 16 + byte 7 * 2 ^ 24
  [chars "  vector[0] initial SP = 0x" ++ pyHex 8 sp ++
      if sp = 0x20004000 then chars "  (SRAM top)" else chars "  (unexpected)",
    chars "  vector[1] reset PC   = 0x" ++ pyHex 8 pc ++
      if pc % 2 = 1 then chars "  (Thumb)" else chars "  (NOT Thumb -- suspicious)"]

/-- The description of an image, for what was put into it. -/
def described (path bootrom : List UInt8) (os : Option (List UInt8)) (kept : Option Kept) : List (List UInt8) :=
  [path ++ chars ": " ++ pyDecimal 344064 ++ chars " bytes"] ++ vectorsDescribed bootrom ++
    [chars "  BOOTROM " ++ pyDecimal (bootrom.rdropWhile (· = erased)).length ++ chars " bytes used of " ++
      pyDecimal 8192, slotDescribed os, cardDescribed kept]

section Inspection
variable {image bootrom : List UInt8} {os : Option (List UInt8)} {dir : StateDir} {parts : Parts}

theorem fromBig_bytes16 (v : UInt16) : fromBig (bytes16 v) = v.toNat := by
  have value := word16_toNat (v >>> 8).toUInt8 (v &&& 0xFF).toUInt8
  rw [word16_bytes16] at value
  simp only [fromBig, bytes16, List.foldl_cons, List.foldl_nil]
  omega

theorem fromBig_bytes32 (v : UInt32) : fromBig (bytes32 v) = v.toNat := by
  have value := word32_toNat (v >>> 24).toUInt8 (v >>> 16).toUInt8 (v >>> 8).toUInt8 (v &&& 0xFF).toUInt8
  rw [word32_bytes32] at value
  simp only [fromBig, bytes32, List.foldl_cons, List.foldl_nil]
  omega

theorem slice_within {k n m : Nat} (inside : k + n ≤ m) (data : List UInt8) :
    slice (data.take m) k n = slice data k n := by
  rw [slice, slice, List.drop_take, List.take_take, Nat.min_eq_left (by omega)]

/-- The vectors are those of the boot ROM. -/
theorem vectorLines_built (built : build parts = some image) (vectors : 8 ≤ parts.bootrom.length) :
    vectorLines image = vectorLines parts.bootrom := by
  have read : image.take 8 = parts.bootrom.take 8 :=
    @slice_of_file image parts built (CardImage.bootrom, parts.bootrom) (by simp [pieces]) 8 vectors
  have same {k : Nat} (inside : k + 4 ≤ 8) : slice image k 4 = slice parts.bootrom k 4 := by
    rw [← slice_within inside image, read, slice_within inside]
  rw [vectorLines, vectorLines, same (by decide), same (by decide)]

private theorem fromLittle_word {data : List UInt8} {k : Nat} (inside : k + 4 ≤ data.length) :
    fromLittle (slice data k 4) = (data.getD k 0).toNat + (data.getD (k + 1) 0).toNat * 2 ^ 8 +
      (data.getD (k + 2) 0).toNat * 2 ^ 16 + (data.getD (k + 3) 0).toNat * 2 ^ 24 := by
  have byte (i : Nat) : data.getD (k + i) 0 = (data.drop k).getD i 0 := by
    rw [List.getD_eq_getElem?_getD, List.getD_eq_getElem?_getD, List.getElem?_drop]
  have long : 4 ≤ (data.drop k).length := by
    rw [List.length_drop]
    omega
  rw [slice, byte 1, byte 2, byte 3, show data.getD k 0 = (data.drop k).getD 0 0 from byte 0]
  generalize data.drop k = word at long
  rcases word with _ | ⟨a, _ | ⟨b, _ | ⟨c, _ | ⟨d, rest⟩⟩⟩⟩
  case cons.cons.cons.cons =>
    simp only [fromLittle, List.take_succ_cons, List.take_zero, List.foldr_cons, List.foldr_nil, List.getD_cons_zero,
      List.getD_cons_succ]
    omega
  all_goals simp at long

theorem vectorLines_described (vectors : 8 ≤ bootrom.length) : vectorLines bootrom = vectorsDescribed bootrom := by
  have odd (n : Nat) : n &&& 1 ≠ 0 ↔ n % 2 = 1 := by
    rw [Nat.and_one_is_mod]
    omega
  simp only [vectorLines, vectorsDescribed, fromLittle_word (show 0 + 4 ≤ bootrom.length by omega),
    fromLittle_word (show 4 + 4 ≤ bootrom.length by omega), odd, apply_ite chars]

theorem rdropWhile_fill (data : List UInt8) (n : Nat) :
    (data ++ List.replicate n erased).rdropWhile (· = erased) = data.rdropWhile (· = erased) := by
  induction n with
  | zero => rw [List.replicate_zero, List.append_nil]
  | succ n ih => rw [List.replicate_succ', ← List.append_assoc, List.rdropWhile_concat_pos _ _ _ (by decide), ih]

theorem bootrom_used (built : build parts = some image) :
    (slice image CardImage.bootrom.base CardImage.bootrom.size).rdropWhile (· = erased) =
      parts.bootrom.rdropWhile (· = erased) := by
  have fits : parts.bootrom.length ≤ CardImage.bootrom.size :=
    (build_lays built).fits (CardImage.bootrom, parts.bootrom) (by simp [pieces])
  rw [@slice_of_piece image parts built (CardImage.bootrom, parts.bootrom) (by simp [pieces]) _ (Nat.le_refl _),
    List.take_of_length_le, rdropWhile_fill]
  rw [List.length_append, List.length_replicate]
  dsimp only
  omega

theorem oshdrLine_built (built : build (partsOf bootrom os dir) = some image)
    (fits : ∀ program, os = some program → program.length ≤ 56320) : oshdrLine image = slotDescribed os := by
  have magic : chars "SCOS" = bootHdrMagic := by decide +kernel
  cases os with
  | none =>
    have read : slice image oshdr.base 16 = List.replicate 16 erased :=
      slice_of_nothing built (by simp [pieces, partsOf]) (by decide)
    rw [oshdrLine, read, magic, if_neg (by decide)]
    rfl
  | some os =>
    have short := fits os rfl
    have made : cmdSlot os true = some (slotImage os, slotHeader os) := cmdSlot_eq short
    have read : slice image oshdr.base 16 = (slotHeader os).take 16 := by
      refine @slice_of_file image _ built (oshdr, slotHeader os) ?_ 16 (by rw [slotHeader_length]; decide)
      simp [pieces, partsOf, made]
    have length : (UInt32.ofNat os.length).toNat = os.length := UInt32.toNat_ofNat_of_lt' (show _ < 2 ^ 32 by omega)
    have start : slice ((slotHeader os).take 16) 0 4 = bootHdrMagic := rfl
    have size : slice ((slotHeader os).take 16) 6 4 = bytes32 (UInt32.ofNat os.length) := rfl
    have crc : slice ((slotHeader os).take 16) 10 2 = bytes16 (Crc16.crc16 os) := rfl
    have state : slice ((slotHeader os).take 16) 14 2 = [0x00, 0x00] := rfl
    rw [oshdrLine, read, magic, if_pos start, size, crc, state, fromBig_bytes32, fromBig_bytes16, length, ← crc16_toNat]
    rfl

theorem eepromLine_built {kept : Option Kept} (built : build (partsOf bootrom os dir) = some image)
    (shelves : Shelves dir kept) : eepromLine image = cardDescribed kept := by
  have magic : chars "SCOS" = fsMagic := by decide +kernel
  cases kept with
  | none =>
    have empty : dir = .empty := shelves
    have read : slice image eeprom.base 16 = List.replicate 16 erased := by
      refine slice_of_nothing built ?_ (by decide)
      rw [empty]
      simp [pieces, partsOf, StateDir.empty]
    rw [eepromLine, read, magic, if_neg (by decide), if_pos (by decide)]
    rfl
  | some kept =>
    obtain ⟨card, cursor, refines, flash, -, rfl⟩ := shelves
    obtain ⟨t, place, stands⟩ := refines.stands
    obtain ⟨-, used⟩ := refines_top refines stands
    have holds := stands.ready.holds
    have large := holds.fits
    have read : slice image eeprom.base 16 = sbBytes t.top := by
      have short : 16 ≤ card.store.hal.nvm.eeprom.size.toNat := by omega
      have file : slice image eeprom.base 16 = (imageOf card.store.hal.nvm.eeprom).take 16 := by
        refine @slice_of_file image _ built (eeprom, imageOf card.store.hal.nvm.eeprom) ?_ 16 ?_
        · simp [pieces, partsOf, imagesOf]
        · rw [imageOf, Region.read_length]
          exact short
      exact file.trans ((Region.take_read 16 short).trans holds.superblock)
    have start : slice (sbBytes t.top) 0 4 = fsMagic := rfl
    have top : slice (sbBytes t.top) 8 4 = bytes32 t.top := rfl
    have version : slice (sbBytes t.top) 4 2 = bytes16 fsLayoutVersion := rfl
    have slots : slice (sbBytes t.top) 6 2 = bytes16 fsMaxFiles := rfl
    rw [eepromLine, read, magic, if_pos start, top, version, slots, fromBig_bytes32, fromBig_bytes16, fromBig_bytes16,
      ← used, flash]
    rfl

theorem inspect_built {kept : Option Kept} (path : List UInt8) (vectors : 8 ≤ bootrom.length)
    (fits : ∀ program, os = some program → program.length ≤ 56320) (built : build (partsOf bootrom os dir) = some image)
    (shelves : Shelves dir kept) : inspect path image = described path bootrom os kept := by
  have length := (build_lays built).length
  have first := (vectorLines_built built vectors).trans (vectorLines_described vectors)
  have used := bootrom_used built
  have same : (partsOf bootrom os dir).bootrom = bootrom := rfl
  rw [same] at first used
  rw [inspect, length, if_neg (not_not.mpr rfl), if_pos (by decide), if_pos (by decide), first, used,
    oshdrLine_built built fits, eepromLine_built built shelves, described]
  simp only [List.append_nil, List.append_assoc, List.cons_append, List.nil_append]
  rfl

end Inspection

/-- The description of an image tells what was put into it: the vectors and the size of the
boot ROM, the length and checksum of the program, and how much of its FLASH the card has
taken that was personalised in these sessions, which may be any that fit. -/
theorem inspect_tells_what_was_built (path : List UInt8) {bootrom : List UInt8} (vectors : 8 ≤ bootrom.length)
    {os : Option (List UInt8)} (fits : ∀ program, os = some program → program.length ≤ 56320) (sessions : List Session)
    (fit : AllFit none sessions) {image : List UInt8}
    (built : build (partsOf bootrom os (leftBy sessions .empty)) = some image) :
    inspect path image = described path bootrom os (keptBy sessions none) :=
  inspect_built path vectors fits built (@shelves_run .empty none rfl sessions fit)

theorem inspect_tells_of_a_written_card : ∃ image kept,
    build (partsOf tableOnly none (leftBy [written] .empty)) = some image ∧ kept.flash = 128 ∧
      inspect (chars "card.bin") image = described (chars "card.bin") tableOnly none (some kept) := by
  obtain ⟨kept, left, flash⟩ := written_kept
  obtain ⟨image, built⟩ := @build_some (partsOf tableOnly none (leftBy [written] .empty)) (by decide +kernel)
  have told := inspect_tells_what_was_built (chars "card.bin") (by decide) (fun _ none => by cases none) [written]
    written_fits built
  rw [left] at told
  exact ⟨image, kept, built, flash, told⟩

end CardOs.CardImageProofs
