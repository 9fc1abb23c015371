import CardOs.FsChangeProofs

/-! Bringing the filesystem up. Mounting an image that holds a tree reads it back
without a write; a chip without the magic is formatted and given the factory
files, as far as its FLASH has room for them. -/
namespace CardOs.FsInitProofs
open CardOs.Library CardOs.Library.Action CardOs.Library.BigEndian CardOs.Crc16 CardOs.FsTypes CardOs.HalNvm
open CardOs.FsStore CardOs.FsStoreProofs CardOs.Fs CardOs.FileTree CardOs.FsProofs CardOs.FsChangeProofs

variable {s s' : Store} {t : FileTree} {table : Table} {top : UInt32}

/-- The mirror after mounting an image with this data top. -/
def mirrorOf (top : UInt32) : Superblock := ⟨true, fsLayoutVersion, fsMaxFiles, top⟩

/-- Mounting decodes the superblock, and forgets the old one when that fails. -/
theorem fsStoreMount_decodes (reads : s.hal.readFaults = []) (large : fsSuperblockSize ≤ s.hal.nvm.eeprom.size.toNat) :
    fsStoreMount s = match decodeSb s.hal.nvm.flash.size s.hal.nvm.eeprom.size
        (s.hal.nvm.eeprom.read 0 fsSuperblockSize) with
      | .ok sb => (.ok (), { s with sb })
      | .error e => (.error e, unmount s) := by
  have read : halNvmRead .eeprom 0 fsSuperblockSize s.hal = (.ok (s.hal.nvm.eeprom.read 0 fsSuperblockSize), s.hal) :=
    halNvmRead_reliable .eeprom 0 fsSuperblockSize reads (by
      simp only [Nvm.region, UInt32.reduceToNat, Nat.zero_add]
      exact large)
  rw [fsStoreMount_eq, read]
  dsimp only
  cases decodeSb s.hal.nvm.flash.size s.hal.nvm.eeprom.size (s.hal.nvm.eeprom.read 0 fsSuperblockSize) <;> rfl

/-- The superblock bytes that `sb_write` produces, decoded again. -/
theorem decodeSb_sbBytes (flashSize eepromSize top : UInt32) :
    decodeSb flashSize eepromSize (sbBytes top) =
      if top > flashSize ∨ descOffset fsMaxFiles > eepromSize then .error .corrupt else .ok (mirrorOf top) := by
  have magic : (sbBytes top).take 4 = fsMagic := rfl
  have intact : getU16 (sbBytes top) 14 = crc16 ((sbBytes top).take 14) := word16_bytes16 _
  have version : getU16 (sbBytes top) 4 = fsLayoutVersion := word16_bytes16 fsLayoutVersion
  have files : getU16 (sbBytes top) 6 = fsMaxFiles := word16_bytes16 fsMaxFiles
  have stored : getU32 (sbBytes top) 8 = top := word32_bytes32 top
  have legal : ¬ (fsMaxFiles = 0 ∨ fsMaxFiles > fsMaxFiles) := by decide
  unfold decodeSb
  simp only [magic, intact, version, files, stored, ne_eq, not_true_eq_false, if_false, legal]
  by_cases beyond : top > flashSize
  · simp [beyond]
  · by_cases table : descOffset fsMaxFiles > eepromSize
    · simp [table]
    · simp [beyond, table, mirrorOf]

theorem fsStoreMount_holds (reads : s.hal.readFaults = []) (holds : Holds s.hal.nvm table top) :
    fsStoreMount s = (.ok (), { s with sb := mirrorOf top }) := by
  have fits := holds.fits
  have inside : ¬ (top > s.hal.nvm.flash.size ∨ descOffset fsMaxFiles > s.hal.nvm.eeprom.size) := by
    refine not_or.mpr ⟨UInt32.not_lt.mpr holds.topInside, UInt32.not_lt.mpr (UInt32.le_iff_toNat_le.mpr ?_)⟩
    rw [descOffset_toNat]
    exact fits
  rw [fsStoreMount_decodes reads (by rw [fsSuperblockSize]; omega), holds.superblock, decodeSb_sbBytes, if_neg inside]

theorem mounted_mirrorOf (reads : s.hal.readFaults = []) (holds : Holds s.hal.nvm table top) :
    Mounted { s with sb := mirrorOf top } table top :=
  ⟨reads, rfl, rfl, holds, UInt32.le_refl _, holds.topInside⟩

/-- An image that holds a tree mounts as that tree. -/
theorem fsInit_mounts (reads : s.hal.readFaults = []) (holds : Holds s.hal.nvm t.table t.top) :
    fsInit s = (.ok (), { s with sb := mirrorOf t.top }) := by
  unfold fsInit
  rw [attempt_bind, fsStoreMount_holds reads holds]
  have ready : Ready { s with sb := mirrorOf t.top } t := mounted_mirrorOf reads holds
  simp only [attempt_bind, readDesc_live ready t.root]
  rfl

/-- The slot writes of the formatting loop on a device that does not fail. -/
private theorem eraseSlots_reliable (slots : List Nat) (reliable : s.hal.writeFaults = [])
    (fits : 656 ≤ s.hal.nvm.eeprom.size.toNat) (inside : ∀ n ∈ slots, n < 32) :
    ∃ s', eraseSlots slots s = (.ok (), s') ∧ s'.sb = s.sb ∧ s'.hal.writeFaults = [] ∧
      s'.hal.readFaults = s.hal.readFaults ∧ s'.hal.nvm.flash = s.hal.nvm.flash ∧
      s'.hal.nvm.eeprom.size = s.hal.nvm.eeprom.size ∧
      ∀ i, i < fsMaxFiles →
        (i.toNat ∈ slots ∨ s.hal.nvm.eeprom.read (descOffset i).toNat fsDescSize = freeDesc) →
        s'.hal.nvm.eeprom.read (descOffset i).toNat fsDescSize = freeDesc := by
  induction slots generalizing s with
  | nil => exact ⟨s, rfl, rfl, reliable, rfl, rfl, rfl, fun i _ erased => erased.resolve_left (by simp)⟩
  | cons n rest ih =>
    have here := inside n (by simp)
    have small : (UInt16.ofNat n).toNat = n := UInt16.toNat_ofNat_of_lt' (Nat.lt_trans here (by decide))
    rcases first : halNvmWrite .eeprom (descOffset (UInt16.ofNat n)) freeDesc s.hal with ⟨outcome, hal⟩
    obtain ⟨reads, stored, faultless⟩ := halNvmWrite_spec (by decide)
      (by rw [descOffset_toNat, small, freeDesc_length, fsDescSize]; simp only [Nvm.region]; omega) first
    obtain ⟨rfl, left⟩ := faultless reliable
    have written := stored.resolve_right fun failed => failed.2 rfl
    have size : hal.nvm.eeprom.size = s.hal.nvm.eeprom.size := by
      rw [written, Nvm.write_eeprom_eeprom, Region.write_size]
    obtain ⟨s', erased, sb, left', reads', flash, size', free⟩ :=
      ih (s := { s with hal }) left (by rw [size]; exact fits)
        fun m member => inside m (List.mem_cons_of_mem n member)
    refine ⟨s', ?_, sb, left', reads'.trans reads, ?_, size'.trans size, ?_⟩
    · rw [eraseSlots, bind_ok (liftHal_ok first), erased]
    · rw [flash, written, Nvm.write_eeprom_flash]
    · intro i bound erasedBefore
      apply free i bound
      dsimp only
      rw [written, Nvm.write_eeprom_eeprom]
      by_cases same : i = UInt16.ofNat n
      · right
        rw [same]
        exact Region.read_write_same rfl
      · have apart : i.toNat ≠ n := by
          intro equal
          apply same
          rw [← equal, UInt16.ofNat_toNat]
        rcases erasedBefore with member | erasedBefore
        · left
          exact (List.mem_cons.mp member).resolve_left apart
        · right
          refine (Region.read_write_apart ?_).trans erasedBefore
          rw [descOffset_toNat, descOffset_toNat, small, freeDesc_length, fsDescSize]
          omega

/-- Formatting on a device that does not fail leaves an empty table. -/
theorem fsStoreFormat_formats (reads : s.hal.readFaults = []) (reliable : s.hal.writeFaults = [])
    (fits : 656 ≤ s.hal.nvm.eeprom.size.toNat) :
    ∃ s', fsStoreFormat s = (.ok (), s') ∧ Mounted s' (fun _ => none) 0 ∧ s'.hal.writeFaults = [] ∧
      s'.hal.nvm.flash = s.hal.nvm.flash ∧ s'.sb.dataTop = 0 := by
  have whole : ¬ descOffset fsMaxFiles > halNvmSize s.hal .eeprom := by
    apply UInt32.not_lt.mpr
    apply UInt32.le_iff_toNat_le.mpr
    rw [descOffset_toNat]
    exact fits
  obtain ⟨s₁, erased, sb, left, reads₁, flash, size, free⟩ :=
    eraseSlots_reliable (List.range fsMaxFiles.toNat) reliable fits fun n member => List.mem_range.mp member
  unfold fsStoreFormat
  rw [state_bind, if_neg whole, bind_ok erased, update_bind]
  generalize staged : ({ s₁ with sb := { s₁.sb with
    dataTop := 0, version := fsLayoutVersion, maxFiles := fsMaxFiles } } : Store) = s₂
  have hal : s₂.hal = s₁.hal := by rw [← staged]
  rcases wrote : sbWrite s₂ with ⟨result, s₃⟩
  have written := writeDurably_written (List.ne_nil_of_length_pos (by rw [sbBytes_length]; decide))
    (by rw [sbBytes_length, hal]; simp only [Nvm.region, fsSuperblockSize, UInt32.reduceToNat, size]; omega)
    wrote
  obtain ⟨rfl, left₃⟩ := written.reliable (by rw [hal]; exact left)
  have stored := written.nvm.resolve_right fun failed => failed.2 rfl
  have top : s₂.sb.dataTop = 0 := by rw [← staged]
  rw [hal, top] at stored
  refine ⟨{ s₃ with sb := { s₃.sb with mounted := true } }, by rw [bind_ok wrote]; rfl,
    ⟨?_, rfl, ?_, ?_, ?_, ?_⟩, left₃, ?_, ?_⟩
  · exact written.reads.trans (by rw [hal]; exact reads₁.trans reads)
  · dsimp only
    rw [written.sb, ← staged]
  · dsimp only
    rw [stored]
    refine ⟨by simpa [size] using fits, Region.read_write_same (by simp), ?_, by simp, ?_⟩
    · intro i bound
      rw [slotBytes, ← free i bound (.inl (List.mem_range.mpr (UInt16.lt_iff_toNat_lt.mp bound)))]
      apply Region.read_write_apart
      right
      rw [descOffset_toNat, sbBytes_length, fsSuperblockSize]
      simp only [UInt32.reduceToNat]
      omega
    · exact UInt32.le_iff_toNat_le.mpr (Nat.zero_le _)
  · exact UInt32.le_iff_toNat_le.mpr (Nat.zero_le _)
  · dsimp only
    rw [written.sb, top]
    exact UInt32.le_iff_toNat_le.mpr (Nat.zero_le _)
  · dsimp only
    rw [stored, Nvm.write_eeprom_flash, flash]
  · dsimp only
    rw [written.sb, top]

/-- A descriptor without its place in FLASH. -/
def shape (d : FsDescriptor) : FsDescriptor := { d with dataOffset := 0 }

/-- The tree holds exactly these files, wherever their data lies. -/
structure Shows (t : FileTree) (files : List (UInt16 × FsDescriptor)) : Prop where
  all : ∀ x ∈ files, ∃ d, t.table x.1 = some d ∧ shape d = x.2
  only : ∀ i d, t.table i = some d → (i, shape d) ∈ files

instance (d e : FsDescriptor) : Decidable (SameId d e) := inferInstanceAs (Decidable (_ ∧ _))

instance (d e : FsDescriptor) : Decidable (SameSfi d e) := inferInstanceAs (Decidable (_ ∧ _))

/-- A layout entry that may enter a tree which holds these files. -/
def EntryOk (files : List (UInt16 × FsDescriptor)) (entry : LayoutEntry) : Prop :=
  entry.index < fsMaxFiles ∧ (∀ x ∈ files, x.1 ≠ entry.index) ∧
    (entry.type = .df ∨ entry.type = .efTransparent) ∧
    (∃ x ∈ files, x.1 = entry.parent ∧ fsIsDf x.2 = true) ∧ fidIsReserved entry.fileId = false ∧
    (entry.type = .efTransparent → 1 ≤ entry.size ∧ entry.size ≤ fsMaxEfSize) ∧
    (∀ x ∈ files, ¬ SameId x.2 entry.descriptor) ∧ ∀ x ∈ files, ¬ SameSfi x.2 entry.descriptor

instance (files : List (UInt16 × FsDescriptor)) (entry : LayoutEntry) : Decidable (EntryOk files entry) :=
  inferInstanceAs (Decidable (_ ∧ _))

/-- Each entry of a layout may enter a tree that holds the files before it. -/
def LayoutOk : List (UInt16 × FsDescriptor) → List LayoutEntry → Prop
  | _, [] => True
  | files, entry :: rest => EntryOk files entry ∧ LayoutOk ((entry.index, entry.descriptor) :: files) rest

instance decidableLayoutOk : (files : List (UInt16 × FsDescriptor)) → (layout : List LayoutEntry) →
    Decidable (LayoutOk files layout)
  | _, [] => isTrue trivial
  | files, entry :: rest =>
    have := decidableLayoutOk ((entry.index, entry.descriptor) :: files) rest
    inferInstanceAs (Decidable (EntryOk files entry ∧ _))

/-- The files of the factory layout, each put before the earlier ones. -/
def filesOf (files : List (UInt16 × FsDescriptor)) (layout : List LayoutEntry) :
    List (UInt16 × FsDescriptor) :=
  layout.foldl (fun files entry => (entry.index, entry.descriptor) :: files) files

theorem factoryLayout_ok : LayoutOk [(fsRootIndex, factoryMf)] factoryLayout := by
  decide

private theorem admissible_of_layout {files : List (UInt16 × FsDescriptor)} {entry : LayoutEntry}
    (shows : Shows t files) (ok : EntryOk files entry) :
    Admissible t entry.index entry.descriptor := by
  obtain ⟨bound, unused, kind, ⟨x, member, parent, isDf⟩, id, size, newId, newSfi⟩ := ok
  obtain ⟨p, live, same⟩ := shows.all x member
  refine ⟨bound, ?_, ⟨kind, ⟨p, ?_, ?_⟩, id, size⟩, ?_, ?_⟩
  · cases free : t.table entry.index with
    | none => rfl
    | some d => exact absurd rfl (unused _ (shows.only _ d free))
  · rw [parent] at live
    exact live
  · rw [← same] at isDf
    exact isDf
  · intro i e held clash
    exact newId _ (shows.only i e held) clash
  · intro i e held clash
    exact newSfi _ (shows.only i e held) clash

private theorem shows_insert {files : List (UInt16 × FsDescriptor)} {slot : UInt16} {d : FsDescriptor}
    (shows : Shows t files) (ok : Insertable t slot d top) :
    Shows (t.insert ok) ((slot, shape d) :: files) where
  all := by
    intro x member
    rcases List.mem_cons.mp member with rfl | member
    · exact ⟨d, Function.update_self .., rfl⟩
    · obtain ⟨e, live, same⟩ := shows.all x member
      have other : x.1 ≠ slot := by
        intro equal
        rw [equal, ok.free] at live
        cases live
      exact ⟨e, (Function.update_of_ne other _ _).trans live, same⟩
  only := by
    intro i e live
    by_cases same : i = slot
    · subst same
      rw [show (t.insert ok).table i = some d from Function.update_self ..] at live
      cases live
      exact List.mem_cons_self
    · rw [show (t.insert ok).table i = t.table i from Function.update_of_ne same _ _] at live
      exact List.mem_cons_of_mem _ (shows.only i e live)

/-- The data bytes a layout asks for. -/
def layoutBytes (layout : List LayoutEntry) : Nat :=
  (layout.map fun entry => if entry.type = .efTransparent then entry.size.toNat else 0).sum

theorem shape_placedAt (s : Store) (entry : LayoutEntry) :
    shape (placedAt s entry.descriptor) = entry.descriptor := by
  unfold placedAt
  split <;> rfl

/-- Writing a layout on a device that does not fail leaves a tree, and the whole
layout in it when FLASH has room. -/
theorem writeLayout_writes {files : List (UInt16 × FsDescriptor)} {layout : List LayoutEntry}
    (ready : Ready s t) (reliable : s.hal.writeFaults = []) (shows : Shows t files)
    (ok : LayoutOk files layout) :
    ∃ result s' t', writeLayout layout s = (result, s') ∧ Ready s' t' ∧ s'.hal.writeFaults = [] ∧
      s'.hal.nvm.flash = s.hal.nvm.flash ∧
      (result = .ok () → Shows t' (filesOf files layout)) ∧
      (s.sb.dataTop.toNat + layoutBytes layout ≤ s.hal.nvm.flash.size.toNat ↔ result = .ok ()) := by
  induction layout generalizing s t files with
  | nil =>
    refine ⟨_, s, t, rfl, ready, reliable, rfl, fun _ => shows, ?_⟩
    have inside := UInt32.le_iff_toNat_le.mp ready.mirrorInside
    simp [layoutBytes, inside]
  | cons entry rest ih =>
    obtain ⟨entryOk, later⟩ := ok
    have may := admissible_of_layout shows entryOk
    have bytes : layoutBytes (entry :: rest) =
        (if entry.type = .efTransparent then entry.size.toNat else 0) + layoutBytes rest := by
      simp [layoutBytes]
    rcases ran : placeFile entry.index entry.descriptor s with ⟨outcome, s₁⟩
    cases placeFile_placed may ready ran with
    | noSpace ef full =>
      refine ⟨_, _, t, by rw [writeLayout, bind_error ran], ready, reliable, rfl, by simp, ?_⟩
      have isEf : entry.type = .efTransparent := ef
      have size : entry.descriptor.size = entry.size := rfl
      rw [bytes, if_pos isEf]
      rw [size] at full
      constructor
      · intro room
        omega
      · intro impossible
        cases impossible
    | torn e faulty _ _ => exact absurd reliable faulty
    | done ok' ready' flash grown kept =>
      have shows' := shows_insert shows ok'
      rw [shape_placedAt] at shows'
      obtain ⟨result, s', t', wrote, ready'', left, flash', complete, room⟩ :=
        ih ready' (kept reliable) shows' later
      refine ⟨result, s', t', by rw [writeLayout, bind_ok ran]; exact wrote, ready'', left,
        flash'.trans flash, complete, ?_⟩
      have kind : entry.descriptor.type = entry.type := rfl
      have size : entry.descriptor.size = entry.size := rfl
      rw [← room, grown, flash, bytes, kind, size, Nat.add_assoc]

/-- The files of a personalised card. -/
def factoryFiles : List (UInt16 × FsDescriptor) := filesOf [(fsRootIndex, factoryMf)] factoryLayout

private theorem bare_shows : Shows FileTree.bare [(fsRootIndex, factoryMf)] where
  all := by
    intro x member
    rw [List.mem_singleton.mp member]
    exact ⟨factoryMf, rfl, rfl⟩
  only := by
    intro i d live
    rw [show FileTree.bare.table i = bareTable i from rfl, bareTable] at live
    split at live
    · rename_i root
      cases live
      rw [root]
      exact List.mem_singleton.mpr rfl
    · cases live

private theorem writeMf_bare (ready : Mounted s (fun _ => none) 0) (reliable : s.hal.writeFaults = []) :
    ∃ s', fsStoreWriteDesc 0 factoryMf s = (.ok (), s') ∧ Ready s' FileTree.bare ∧
      s'.hal.writeFaults = [] ∧ s'.hal.nvm.flash = s.hal.nvm.flash ∧ s'.sb = s.sb := by
  rcases ran : fsStoreWriteDesc 0 factoryMf s with ⟨result, s'⟩
  have legal : Legal s.hal.nvm.flash.size factoryMf := ⟨by decide, fun ef => absurd ef (by decide)⟩
  have wrote := (writeDesc_eq ready (by decide) (by decide)).symm.trans ran
  obtain ⟨sb, flash, state, faultless⟩ :=
    writeSlot_mounted ready (by decide) (fun _ same => Option.some.inj same ▸ legal) wrote
  obtain ⟨rfl, left⟩ := faultless reliable
  have held := state.resolve_right fun failed => failed.2 rfl
  have table : Function.update (fun _ => none) 0 (some factoryMf) = bareTable := by
    funext i
    by_cases root : i = 0
    · subst root
      rw [Function.update_self]
      rfl
    · rw [Function.update_of_ne root]
      exact (if_neg root).symm
  rw [table] at held
  exact ⟨s', rfl, held, left, flash, sb⟩

/-- Personalising a chip on a device that does not fail gives a tree, and the
whole factory tree exactly when its 112 data bytes fit. -/
theorem fsPersonalise_personalises (reads : s.hal.readFaults = []) (reliable : s.hal.writeFaults = [])
    (fits : 656 ≤ s.hal.nvm.eeprom.size.toNat) :
    ∃ result s' t', fsPersonalise s = (result, s') ∧ Ready s' t' ∧ s'.hal.writeFaults = [] ∧
      s'.hal.nvm.flash = s.hal.nvm.flash ∧ (result = .ok () → Shows t' factoryFiles) ∧
      (112 ≤ s.hal.nvm.flash.size.toNat ↔ result = .ok ()) := by
  obtain ⟨s₁, formatted, ready₁, left₁, flash₁, top₁⟩ := fsStoreFormat_formats reads reliable fits
  obtain ⟨s₂, wrote, ready₂, left₂, flash₂, sb₂⟩ := writeMf_bare ready₁ left₁
  obtain ⟨result, s', t', laid, ready, left, flash, complete, room⟩ :=
    writeLayout_writes ready₂ left₂ bare_shows factoryLayout_ok
  refine ⟨result, s', t', ?_, ready, left, (flash.trans flash₂).trans flash₁, complete, ?_⟩
  · rw [fsPersonalise, bind_ok formatted, bind_ok wrote, laid]
  · have empty : s₂.sb.dataTop.toNat = 0 := by rw [sb₂, top₁]; rfl
    have bytes : layoutBytes factoryLayout = 112 := by decide
    rw [← room, empty, bytes, flash₂, flash₁, Nat.zero_add]

/-- A memory without the magic, on a device that does not fail. -/
structure Unformatted (s : Store) : Prop where
  reads : s.hal.readFaults = []
  reliable : s.hal.writeFaults = []
  noMagic : s.hal.nvm.eeprom.read 0 4 ≠ fsMagic

theorem fsStoreMount_tiny (tiny : s.hal.nvm.eeprom.size.toNat < fsSuperblockSize) :
    fsStoreMount s =
      (.error .nvm, { unmount s with hal := { s.hal with rangeErrors := s.hal.rangeErrors + 1 } }) := by
  have outside : inRange (halNvmSize s.hal .eeprom) 0 fsSuperblockSize = false := by
    apply Bool.eq_false_iff.mpr
    intro inside
    have whole := inRange_iff.mp inside
    simp only [UInt32.reduceToNat, Nat.zero_add] at whole
    exact absurd tiny (Nat.not_lt.mpr whole)
  have failed : halNvmRead .eeprom 0 fsSuperblockSize s.hal =
      (.error .range, { s.hal with rangeErrors := s.hal.rangeErrors + 1 }) := by
    rw [halNvmRead, if_neg (by decide), outside]
    rfl
  rw [fsStoreMount_eq, failed]

/-- Without the magic there is no filesystem to mount. -/
theorem fsStoreMount_unformatted (reads : s.hal.readFaults = [])
    (large : fsSuperblockSize ≤ s.hal.nvm.eeprom.size.toNat) (noMagic : s.hal.nvm.eeprom.read 0 4 ≠ fsMagic) :
    fsStoreMount s = (.error .notFormatted, unmount s) := by
  have other : (s.hal.nvm.eeprom.read 0 fsSuperblockSize).take 4 ≠ fsMagic := by
    rw [Region.take_read 4 (by decide)]
    exact noMagic
  rw [fsStoreMount_decodes reads large, decodeSb, if_pos other]

/-- Without the magic a boot personalises the chip. -/
theorem fsInit_personalises (reads : s.hal.readFaults = []) (large : fsSuperblockSize ≤ s.hal.nvm.eeprom.size.toNat)
    (noMagic : s.hal.nvm.eeprom.read 0 4 ≠ fsMagic) : fsInit s = fsPersonalise (unmount s) := by
  rw [fsInit, attempt_bind, fsStoreMount_unformatted reads large noMagic]

theorem fsPersonalise_small (small : s.hal.nvm.eeprom.size.toNat < 656) :
    fsPersonalise s = (.error .noSpace, s) := by
  have beyond : descOffset fsMaxFiles > halNvmSize s.hal .eeprom := by
    apply UInt32.lt_iff_toNat_lt.mpr
    rw [descOffset_toNat]
    exact small
  rw [fsPersonalise]
  apply bind_error
  rw [fsStoreFormat, state_bind, if_pos beyond]
  rfl

/-- Initialising such a chip personalises it when the table fits in EEPROM, and
otherwise writes nothing. -/
theorem fsInit_unformatted (blank : Unformatted s) :
    (s.hal.nvm.eeprom.size.toNat < 656 ∧
      ∃ e s', fsInit s = (.error e, s') ∧ Unformatted s' ∧ s'.sb.mounted = false ∧
        s'.hal.nvm = s.hal.nvm ∧ s'.hal.writes = s.hal.writes) ∨
      (656 ≤ s.hal.nvm.eeprom.size.toNat ∧
        ∃ result s' t', fsInit s = (result, s') ∧ Ready s' t' ∧ s'.hal.writeFaults = [] ∧
          s'.hal.nvm.flash = s.hal.nvm.flash ∧ (result = .ok () → Shows t' factoryFiles) ∧
          (112 ≤ s.hal.nvm.flash.size.toNat ↔ result = .ok ())) := by
  obtain ⟨reads, reliable, noMagic⟩ := blank
  by_cases tiny : s.hal.nvm.eeprom.size.toNat < fsSuperblockSize
  · refine .inl ⟨Nat.lt_trans tiny (by decide), .nvm,
      { unmount s with hal := { s.hal with rangeErrors := s.hal.rangeErrors + 1 } }, ?_,
      ⟨reads, reliable, noMagic⟩, rfl, rfl, rfl⟩
    rw [fsInit, attempt_bind, fsStoreMount_tiny tiny]
    rfl
  · rw [fsInit_personalises reads (Nat.not_lt.mp tiny) noMagic]
    by_cases small : s.hal.nvm.eeprom.size.toNat < 656
    · exact .inl ⟨small, .noSpace, unmount s, fsPersonalise_small small, ⟨reads, reliable, noMagic⟩, rfl, rfl, rfl⟩
    · exact .inr ⟨Nat.not_lt.mp small, @fsPersonalise_personalises (unmount s) reads reliable (Nat.not_lt.mp small)⟩

end CardOs.FsInitProofs
