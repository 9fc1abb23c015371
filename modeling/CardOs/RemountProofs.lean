import CardOs.Transactions

/-! Whether a power cycle is noticed, on any storage that mounts. The superblock is
written with the compiled-in `FS_MAX_FILES` and not with the count it was mounted
with, so that it is not noticed exactly when the two are equal or nothing was
allocated. -/
namespace CardOs.RemountProofs
open CardOs.Library CardOs.Library.Action CardOs.Library.BigEndian CardOs.Crc16 CardOs.Apdu CardOs.FsTypes
open CardOs.HalNvm CardOs.FsStore CardOs.FsStoreProofs CardOs.Fs CardOs.FileCommands CardOs.Kernel
open CardOs.FsInitProofs CardOs.StorageProofs CardOs.StoreChanges CardOs.Transactions

/-- The superblock bytes in EEPROM. -/
def rawSuperblock (s : Store) : List UInt8 := s.hal.nvm.eeprom.read 0 fsSuperblockSize

/-- EEPROM tells what the RAM mirror holds. -/
def Synced (s : Store) : Prop := decodeSb s.hal.nvm.flash.size s.hal.nvm.eeprom.size (rawSuperblock s) = .ok s.sb

/-- An APDU that takes data space: a CREATE FILE for an EF that passes every check
and for which there is room. -/
structure Allocates (card : Card) (cmd : Option (List UInt8)) (cap : UInt16) (c : ApduCommand) (data : List UInt8)
    (req : FsDescriptor) : Prop where
  room : 2 ≤ cap
  operational : card.kernel.lifecycle = .operational
  parsed : apduParse cmd = (.ok, c)
  cla : apduCheckCla c.cla = .ok
  ins : c.ins = insCreateFile
  plain : c.p1 = 0 ∧ c.p2 = 0
  body : c.data = some data ∧ c.lc ≠ 0
  template : parseFcp data c.lc = .ok req
  ef : req.type = .efTransparent
  checked : ∃ slot s', createChecks card.kernel.sel req card.store = (.ok slot, s')
  fits : card.store.sb.dataTop.toNat + req.size.toNat ≤ card.store.hal.nvm.flash.size.toNat

section Steps
variable {s s' : Store} {card : Card} {cmd : Option (List UInt8)} {cap : UInt16} {change : Change}

/-- A change that moves the end of the allocated data. -/
def Raises (change : Change) : Prop := ∃ top slot d, change = .allocate top slot d

private theorem createChange_raises (sel : FsSelection) (req : FsDescriptor) (s : Store) :
    Raises (createChange sel req s) ↔ req.type = .efTransparent ∧
      (∃ slot s', createChecks sel req s = (.ok slot, s')) ∧
      s.sb.dataTop.toNat + req.size.toNat ≤ s.hal.nvm.flash.size.toNat := by
  unfold createChange
  rcases createChecks sel req s with ⟨e | slot, s'⟩
  · constructor
    · rintro ⟨top, slot, d, ⟨⟩⟩
    · rintro ⟨_, ⟨slot, s', ⟨⟩⟩, _⟩
  by_cases ef : req.type = .efTransparent
  · by_cases full : s.sb.dataTop.toNat + req.size.toNat > s.hal.nvm.flash.size.toNat
    · simp [Raises, halNvmSize, Nvm.region, ef, full]
    · simp [Raises, halNvmSize, Nvm.region, ef, full, Nat.not_lt.mp full]
  · simp [Raises, ef]

/-- An APDU moves the end of the allocated data exactly when it takes data space. -/
theorem processChange_raises (card : Card) (cmd : Option (List UInt8)) (cap : UInt16) :
    Raises (processChange cmd cap card) ↔ ∃ c data req, Allocates card cmd cap c data req := by
  rw [processChange_creates cmd cap card (P := Raises) (by rintro ⟨_, _, _, ⟨⟩⟩) (by rintro _ _ ⟨_, _, _, ⟨⟩⟩)
    (by rintro _ ⟨_, _, _, ⟨⟩⟩)]
  constructor
  · rintro ⟨c, data, req, ⟨room, operational, parsed, cla, ins, plain, body, template⟩, raises⟩
    obtain ⟨ef, checked, fits⟩ := (createChange_raises _ req _).mp raises
    exact ⟨c, data, req, room, operational, parsed, cla, ins, plain, body, template, ef, checked, fits⟩
  · rintro ⟨c, data, req, takes⟩
    exact ⟨c, data, req, ⟨takes.room, takes.operational, takes.parsed, takes.cla, takes.ins, takes.plain, takes.body,
      takes.template⟩, (createChange_raises _ req _).mpr ⟨takes.ef, takes.checked, takes.fits⟩⟩

/-- The superblock after a change: rewritten by an allocation, and else as it was. -/
theorem applied_superblock (change : Change) (nvm : Nvm) :
    (applyAll change.requests nvm).eeprom.read 0 fsSuperblockSize =
      match change with
      | .allocate top _ _ => sbBytes top
      | _ => nvm.eeprom.read 0 fsSuperblockSize := by
  have slots : ∀ (r : Region) (slot : UInt16) (raw : List UInt8),
      (r.write (descOffset slot).toNat raw).read 0 fsSuperblockSize = r.read 0 fsSuperblockSize :=
    fun r slot raw => Region.read_write_apart (.inl (by rw [descOffset_toNat, fsSuperblockSize]; omega))
  cases change with
  | nothing => rfl
  | update position src => rfl
  | free slot => exact slots _ _ _
  | place slot d => exact slots _ _ _
  | allocate top slot d => exact (slots _ _ _).trans (Region.read_write_same rfl)

/-- What an APDU that takes no data space leaves of the superblock: all of it. -/
theorem process_quiet (fits : Fits card.store) (calm : Calm card.store)
    (quiet : ¬ ∃ c data req, Allocates card cmd cap c data req) :
    (scosProcess cmd cap card).2.2.store.sb = card.store.sb ∧
      rawSuperblock (scosProcess cmd cap card).2.2.store = rawSuperblock card.store := by
  obtain ⟨sb, nvm, _⟩ := scosProcess_calm fits calm cmd cap
  rw [← processChange_raises] at quiet
  have applied := applied_superblock (processChange cmd cap card) card.store.hal.nvm
  rw [rawSuperblock, nvm, sb]
  cases same : processChange cmd cap card with
  | allocate top slot d => exact absurd ⟨top, slot, d, same⟩ quiet
  | _ =>
    rw [same] at applied
    exact ⟨rfl, applied⟩

/-- What an APDU that takes data space leaves of it: a count of `FS_MAX_FILES`. -/
theorem process_raises (fits : Fits card.store) (calm : Calm card.store)
    (takes : ∃ c data req, Allocates card cmd cap c data req) :
    ∃ top ≤ card.store.hal.nvm.flash.size,
      (scosProcess cmd cap card).2.2.store.sb = { card.store.sb with dataTop := top } ∧
        rawSuperblock (scosProcess cmd cap card).2.2.store = sbBytes top := by
  obtain ⟨sb, nvm, _⟩ := scosProcess_calm fits calm cmd cap
  rw [← processChange_raises] at takes
  obtain ⟨top, slot, d, raised⟩ := takes
  have applied := applied_superblock (processChange cmd cap card) card.store.hal.nvm
  rw [raised] at applied nvm sb
  exact ⟨top, (processChange_top raised).2, sb, by rw [rawSuperblock, nvm]; exact applied⟩

/-- What no APDU changes on a card that was mounted with room for `count` files. -/
structure Serving (count : UInt16) (s : Store) : Prop where
  fits : Fits s
  calm : Calm s
  mounted : s.sb.mounted = true
  version : s.sb.version = fsLayoutVersion
  maxFiles : s.sb.maxFiles = count

/-- EEPROM tells another count than the RAM mirror. -/
def Stale (s : Store) : Prop := s.sb.maxFiles ≠ fsMaxFiles ∧ ∃ top, rawSuperblock s = sbBytes top

theorem Stale.not_synced (stale : Stale s) : ¬ Synced s := by
  obtain ⟨differs, top, raw⟩ := stale
  intro synced
  rw [Synced, raw, decodeSb_sbBytes] at synced
  split at synced
  · cases synced
  · exact differs (congrArg Superblock.maxFiles (Except.ok.inj synced)).symm

/-- Mounting again, with whatever in RAM, finds the very same store. -/
def Transparent (s : Store) : Prop := ∀ ram, fsStoreMount { s with sb := ram } = (.ok (), s)

theorem transparent_iff {count : UInt16} (serving : Serving count s) : Transparent s ↔ Synced s := by
  have large : fsSuperblockSize ≤ s.hal.nvm.eeprom.size.toNat := by
    have table := UInt32.le_iff_toNat_le.mp (serving.fits serving.mounted)
    rw [descOffset_toNat] at table
    rw [fsSuperblockSize]
    omega
  have mounts : ∀ ram, fsStoreMount { s with sb := ram } = _ := fun ram =>
    fsStoreMount_decodes (s := { s with sb := ram }) serving.calm.1 large
  unfold Transparent Synced rawSuperblock
  constructor
  · intro transparent
    have again := (mounts s.sb).symm.trans (transparent s.sb)
    dsimp only at again
    split at again
    · rename_i sb decoded
      rw [decoded]
      exact congrArg (fun result => Except.ok result.2.sb) again
    · cases again
  · intro synced ram
    rw [mounts ram]
    dsimp only
    rw [synced]

section Sequences
variable {count : UInt16} {apdus : List (Option (List UInt8) × UInt16)}

/-- The card after a sequence of APDUs. -/
def after (card : Card) (apdus : List (Option (List UInt8) × UInt16)) : Card :=
  run card (apdus.map fun apdu => .apdu apdu.1 apdu.2)

theorem process_serving (serving : Serving count card.store) (cmd : Option (List UInt8)) (cap : UInt16) :
    Serving count (scosProcess cmd cap card).2.2.store := by
  obtain ⟨sb, _, calm, fits⟩ := scosProcess_calm serving.fits serving.calm cmd cap
  have same : ∀ change : Change, (change.mirror card.store.sb).mounted = card.store.sb.mounted ∧
      (change.mirror card.store.sb).version = card.store.sb.version ∧
      (change.mirror card.store.sb).maxFiles = card.store.sb.maxFiles := fun change => by
    cases change <;> exact ⟨rfl, rfl, rfl⟩
  obtain ⟨mounted, version, maxFiles⟩ := same (processChange cmd cap card)
  rw [← sb] at mounted version maxFiles
  exact ⟨fits, calm, mounted.trans serving.mounted, version.trans serving.version, maxFiles.trans serving.maxFiles⟩

theorem process_sizes (serving : Serving count card.store) (cmd : Option (List UInt8)) (cap : UInt16)
    (region : NvmRegion) :
    ((scosProcess cmd cap card).2.2.store.hal.nvm.region region).size = (card.store.hal.nvm.region region).size := by
  obtain ⟨_, nvm, _⟩ := scosProcess_calm serving.fits serving.calm cmd cap
  rw [nvm, applyAll_size]

theorem process_synced (serving : Serving count card.store) (synced : Synced card.store)
    (even : count = fsMaxFiles ∨ ¬ ∃ c data req, Allocates card cmd cap c data req) :
    Synced (scosProcess cmd cap card).2.2.store := by
  have flash := process_sizes serving cmd cap .flash
  have eeprom := process_sizes serving cmd cap .eeprom
  simp only [Nvm.region] at flash eeprom
  by_cases takes : ∃ c data req, Allocates card cmd cap c data req
  · obtain ⟨top, inside, sb, raw⟩ := process_raises serving.fits serving.calm takes
    have count32 : card.store.sb.maxFiles = fsMaxFiles :=
      serving.maxFiles.trans (even.resolve_right fun quiet => quiet takes)
    have table := serving.fits serving.mounted
    rw [count32] at table
    rw [Synced, raw, flash, eeprom, decodeSb_sbBytes,
      if_neg (not_or.mpr ⟨UInt32.not_lt.mpr inside, UInt32.not_lt.mpr table⟩), sb]
    refine congrArg _ ?_
    rw [mirrorOf, ← count32, ← serving.mounted, ← serving.version]
  · obtain ⟨sb, raw⟩ := process_quiet serving.fits serving.calm takes
    rw [Synced, raw, flash, eeprom, sb]
    exact synced

theorem process_stale (serving : Serving count card.store)
    (start : Stale card.store ∨ count ≠ fsMaxFiles ∧ ∃ c data req, Allocates card cmd cap c data req) :
    Stale (scosProcess cmd cap card).2.2.store := by
  have uneven : (scosProcess cmd cap card).2.2.store.sb.maxFiles ≠ fsMaxFiles := by
    rw [(process_serving serving cmd cap).maxFiles, ← serving.maxFiles]
    rcases start with stale | ⟨differs, _⟩
    · exact stale.1
    · rw [serving.maxFiles]
      exact differs
  refine ⟨uneven, ?_⟩
  by_cases takes : ∃ c data req, Allocates card cmd cap c data req
  · obtain ⟨top, _, _, raw⟩ := process_raises serving.fits serving.calm takes
    exact ⟨top, raw⟩
  · obtain ⟨_, top, old⟩ := start.resolve_right fun wanted => takes wanted.2
    exact ⟨top, (process_quiet serving.fits serving.calm takes).2.trans old⟩

theorem after_serving (serving : Serving count card.store) (apdus : List (Option (List UInt8) × UInt16)) :
    Serving count (after card apdus).store := by
  induction apdus generalizing card with
  | nil => exact serving
  | cons apdu rest ih => exact ih (process_serving serving apdu.1 apdu.2)

theorem after_synced (serving : Serving count card.store) (synced : Synced card.store)
    (even : count = fsMaxFiles ∨ ∀ before apdu later, apdus = before ++ apdu :: later →
      ¬ ∃ c data req, Allocates (after card before) apdu.1 apdu.2 c data req) :
    Synced (after card apdus).store := by
  induction apdus generalizing card with
  | nil => exact synced
  | cons apdu rest ih =>
    refine ih (process_serving serving apdu.1 apdu.2) (process_synced serving synced ?_) ?_
    · exact even.imp_right fun quiet => quiet [] apdu rest rfl
    · exact even.imp_right fun quiet before other later split =>
        quiet (apdu :: before) other later (by rw [split, List.cons_append])

theorem after_stale (serving : Serving count card.store)
    (start : Stale card.store ∨ count ≠ fsMaxFiles ∧ ∃ before apdu later, apdus = before ++ apdu :: later ∧
      ∃ c data req, Allocates (after card before) apdu.1 apdu.2 c data req) :
    Stale (after card apdus).store := by
  induction apdus generalizing card with
  | nil =>
    rcases start with stale | ⟨_, before, apdu, later, split, _⟩
    · exact stale
    · cases before <;> cases split
  | cons apdu rest ih =>
    refine ih (process_serving serving apdu.1 apdu.2) ?_
    rcases start with stale | ⟨differs, before, other, later, split, takes⟩
    · exact .inl (process_stale serving (.inl stale))
    · cases before with
      | nil =>
        cases split
        exact .inl (process_stale serving (.inr ⟨differs, takes⟩))
      | cons first before =>
        cases split
        exact .inr ⟨differs, before, other, later, rfl, takes⟩

end Sequences
end Steps

section Booting
variable {s : Store}

private theorem mount_decoded (calm : Calm s) (mounts : (fsStoreMount s).1 = .ok ()) :
    ∃ sb, decodeSb s.hal.nvm.flash.size s.hal.nvm.eeprom.size (rawSuperblock s) = .ok sb ∧
      fsStoreMount s = (.ok (), { s with sb }) := by
  by_cases tiny : s.hal.nvm.eeprom.size.toNat < fsSuperblockSize
  · rw [fsStoreMount_tiny tiny] at mounts
    cases mounts
  have mount := fsStoreMount_decodes calm.1 (Nat.not_lt.mp tiny)
  rw [mount] at mounts ⊢
  unfold rawSuperblock
  cases decoded : decodeSb s.hal.nvm.flash.size s.hal.nvm.eeprom.size (s.hal.nvm.eeprom.read 0 fsSuperblockSize) with
  | error e =>
    rw [decoded] at mounts
    cases mounts
  | ok sb => exact ⟨sb, rfl, rfl⟩

/-- A boot that mounted without formatting serves what EEPROM tells. -/
theorem boot_serves (calm : Calm s) (mounts : (fsStoreMount s).1 = .ok ()) :
    Serving (fsInit s).2.sb.maxFiles (fsInit s).2 ∧ Synced (fsInit s).2 := by
  obtain ⟨sb, decoded, mounted⟩ := mount_decoded calm mounts
  have fits := mount_fits s
  rw [mounted] at fits
  have looked : (fsStoreReadDesc fsRootIndex { s with sb }).2 = { s with sb } :=
    ((readDesc_peeks fsRootIndex { s with sb }).1.undone fits).2 calm
  have booted : (fsInit s).2 = { s with sb } := by
    rw [fsInit, attempt_bind, mounted]
    dsimp only
    rw [attempt_bind]
    rcases read : fsStoreReadDesc fsRootIndex { s with sb } with ⟨e | mf, s'⟩
    · rw [read] at looked
      cases e <;> exact looked
    · rw [read] at looked
      dsimp only
      split <;> exact looked
  have bounds := decodeSb_bounds decoded
  rw [booted]
  exact ⟨⟨fits, calm, bounds.mounted, bounds.version, rfl⟩, decoded⟩

/-- Take any storage on which booting mounts without formatting, and any APDUs
after it on a device without failures. Mounting again, with whatever in RAM, finds
exactly the store there was if and only if the storage was mounted with
`FS_MAX_FILES` files or no APDU took data space. -/
theorem remount_is_transparent_iff (kernel : ScosKernel) (s : Store) (calm : Calm s)
    (mounts : (fsStoreMount s).1 = .ok ()) (boots : (fsInit s).1 = .ok ())
    (apdus : List (Option (List UInt8) × UInt16)) :
    let booted := (scosInit ⟨kernel, s⟩).2
    (∀ ram, fsStoreMount { (after booted apdus).store with sb := ram } = (.ok (), (after booted apdus).store)) ↔
      booted.store.sb.maxFiles = fsMaxFiles ∨ ∀ before apdu later, apdus = before ++ apdu :: later →
        ¬ ∃ c data req, Allocates (after booted before) apdu.1 apdu.2 c data req := by
  intro booted
  have store : booted.store = (fsInit s).2 := by
    rcases ran : fsInit s with ⟨e | u, s'⟩
    · rw [ran] at boots
      cases boots
    · simp only [booted, scosInit, ran]
  obtain ⟨serving, synced⟩ := boot_serves calm mounts
  rw [← store] at serving synced
  refine (transparent_iff (after_serving serving apdus)).trans ⟨fun still => ?_, after_synced serving synced⟩
  by_contra uneven
  obtain ⟨differs, takes⟩ := not_or.mp uneven
  push Not at takes
  exact (after_stale serving (.inr ⟨differs, takes⟩)).not_synced still

/-- Storage formatted for a few files, with these in its first slots and 16 bytes of FLASH. -/
def smallStorage (count : UInt16) (top : UInt32) (files : List FsDescriptor) : Store :=
  let body := fsMagic ++ putU16 fsLayoutVersion ++ putU16 count ++ putU32 top ++ putU16 0
  { hal :=
      { nvm := ⟨(Region.uniform (descOffset count) 0xFF).write 0
          (body ++ putU16 (crc16 body) ++ files.flatMap descBytes), .uniform 16 0xFF⟩
        readFaults := [], writeFaults := [], writes := 0, rangeErrors := 0 }
    sb := ⟨false, 0, 0, 0⟩ }

/-- Storage with room for two files: the MF and a free slot. -/
def twoFiles : Store := smallStorage 2 0 [factoryMf]

/-- Storage with room for three files: the MF, an EF of four bytes and a free slot. -/
def threeFiles : Store :=
  smallStorage 3 4 [factoryMf, ⟨0x2F00, .efTransparent, fsLcActivated, fsRootIndex, 4, 0, 0, 0, 0, 0⟩]

/-- CREATE FILE for an EF of one byte. -/
def createOneByte : Option (List UInt8) :=
  some [0x00, 0xE0, 0x00, 0x00, 0x0B, 0x82, 0x01, 0x01, 0x83, 0x02, 0x12, 0x34, 0x80, 0x02, 0x00, 0x01]

/-- The EF is selected and written, and a DF is made. -/
def writeAndNest : List (Option (List UInt8) × UInt16) :=
  [(some [0x00, 0xA4, 0x00, 0x0C, 0x02, 0x2F, 0x00], 258), (some [0x00, 0xD6, 0x00, 0x02, 0x02, 0xAB, 0xCD], 258),
    (some [0x00, 0xE0, 0x00, 0x00, 0x07, 0x82, 0x01, 0x38, 0x83, 0x02, 0x7F, 0x20], 258)]

private def asksForEf (cmd : Option (List UInt8)) : Bool :=
  (apduParse cmd).2.ins = insCreateFile ∧
    (parseFcp ((apduParse cmd).2.data.getD []) (apduParse cmd).2.lc).toOption.any fun req => req.type = .efTransparent

private theorem allocates_asks {card : Card} {cmd : Option (List UInt8)} {cap : UInt16} {c : ApduCommand}
    {data : List UInt8} {req : FsDescriptor} (allocates : Allocates card cmd cap c data req) : asksForEf cmd = true := by
  simp [asksForEf, Except.toOption, allocates.parsed, allocates.ins, allocates.body.1, allocates.template, allocates.ef]

/-- Neither takes data space, and both are found again. -/
theorem remount_is_transparent_iff_written_and_nested :
    let booted := (scosInit ⟨ScosKernel.zeroed, threeFiles⟩).2
    let used := after booted writeAndNest
    (fsStoreMount threeFiles).1 = .ok () ∧ (fsInit threeFiles).1 = .ok () ∧
      (fsEfRead 1 2 2 used.store).1 = .ok [0xAB, 0xCD] ∧
      (fsStoreReadDesc 2 used.store).1.map FsDescriptor.fileId = .ok 0x7F20 ∧
      ∀ ram, fsStoreMount { used.store with sb := ram } = (.ok (), used.store) := by
  have mounts : (fsStoreMount threeFiles).1 = .ok () := by decide +kernel
  have boots : (fsInit threeFiles).1 = .ok () := by decide +kernel
  have transparent := remount_is_transparent_iff ScosKernel.zeroed threeFiles ⟨rfl, rfl⟩ mounts boots writeAndNest
  have asks : writeAndNest.all (fun apdu => !asksForEf apdu.1) = true := by decide +kernel
  refine ⟨mounts, boots, by decide +kernel, by decide +kernel, Iff.mpr transparent (.inr ?_)⟩
  rintro before apdu later split ⟨c, data, req, allocates⟩
  have member : apdu ∈ writeAndNest := by simp [split]
  simpa [allocates_asks allocates] using List.all_eq_true.mp asks apdu member

/-- The file is created and the card serves it, but after the power cycle the
superblock asks for a table that EEPROM has no room for. -/
theorem creation_ends_remounting :
    let booted := (scosInit ⟨ScosKernel.zeroed, twoFiles⟩)
    let created := scosProcess createOneByte 258 booted.2
    (fsStoreMount twoFiles).1 = .ok () ∧ booted.1 = .ok ∧ created.2.1 = [0x90, 0x00] ∧
      (fsStoreMount created.2.2.store).1 = .error .corrupt ∧ (powerUp created.2.2).1 = .state := by
  decide +kernel

end Booting
end CardOs.RemountProofs
