import CardOs.FsStore

/-! What the physical layer stores and reads back. `Holds` relates the EEPROM
image to a descriptor table and a stored data top, `Mounted` adds the RAM mirror.
Reads of a mounted store are lookups in the table and change nothing; a write is
one change of the table, and when the device reports a failure it is that change
or none. -/
namespace CardOs.FsStoreProofs
open CardOs.Library CardOs.Library.BigEndian CardOs.Crc16 CardOs.FsTypes CardOs.HalNvm CardOs.FsStore

abbrev Table := UInt16 → Option FsDescriptor

/-- A descriptor the physical layer accepts back: a file, with its data inside
FLASH when it has data. -/
structure Legal (flashSize : UInt32) (d : FsDescriptor) : Prop where
  file : d.type ≠ .free
  inside : d.type = .efTransparent → d.dataOffset.toNat + d.size.toNat ≤ flashSize.toNat

@[simp] theorem descBytes_length (d : FsDescriptor) : (descBytes d).length = fsDescSize := rfl

@[simp] theorem sbBytes_length (top : UInt32) : (sbBytes top).length = fsSuperblockSize := rfl

@[simp] theorem freeDesc_length : freeDesc.length = fsDescSize := rfl

theorem fileTypeOf_code {type : FsFileType} (file : type ≠ .free) : fileTypeOf type.code = some type := by
  cases type with
  | mf => rfl
  | df => rfl
  | efTransparent => rfl
  | free => exact absurd rfl file

private theorem code_ne_free {type : FsFileType} (file : type ≠ .free) :
    type.code ≠ FsFileType.free.code := by
  cases type with
  | mf => decide
  | df => decide
  | efTransparent => decide
  | free => exact absurd rfl file

/-- A stored descriptor is read back as it was. -/
theorem decodeDesc_descBytes {flashSize : UInt32} {d : FsDescriptor} (legal : Legal flashSize d) :
    decodeDesc flashSize (descBytes d) = .ok d := by
  have notFree : rawIsFree (descBytes d) = false := by
    simpa [rawIsFree, descBytes, descBody, putU16, bytes16] using code_ne_free legal.file
  have intact : getU16 (descBytes d) 18 = crc16 ((descBytes d).take 18) := word16_bytes16 _
  have code : (descBytes d).getD 2 0 = d.type.code := rfl
  have fileId : getU16 (descBytes d) 0 = d.fileId := word16_bytes16 d.fileId
  have parent : getU16 (descBytes d) 4 = d.parent := word16_bytes16 d.parent
  have size : getU16 (descBytes d) 6 = d.size := word16_bytes16 d.size
  have offset : getU32 (descBytes d) 8 = d.dataOffset := word32_bytes32 d.dataOffset
  have fits : ¬ (d.type = .efTransparent ∧ d.dataOffset.toNat + d.size.toNat > flashSize.toNat) := by
    rintro ⟨ef, beyond⟩
    exact absurd (legal.inside ef) (Nat.not_le.mpr beyond)
  unfold decodeDesc
  rw [notFree, code, fileTypeOf_code legal.file]
  simp only [Bool.false_eq_true, if_false, ne_eq, intact, not_true_eq_false, fileId, parent, size, offset,
    fits]
  rfl

section Decoding
variable {flashSize : UInt32} {raw : List UInt8} {d : FsDescriptor}

/-- The bytes of a slot that reads as a file, and the file. -/
structure Decoded (flashSize : UInt32) (raw : List UInt8) (d : FsDescriptor) : Prop where
  taken : rawIsFree raw = false
  intact : getU16 raw 18 = crc16 (raw.take 18)
  type : fileTypeOf (raw.getD 2 0) = some d.type
  fields : d =
    { fileId := getU16 raw 0, type := d.type, lifecycle := raw.getD 3 0, parent := getU16 raw 4
      size := getU16 raw 6, dataOffset := getU32 raw 8, acRead := raw.getD 12 0
      acUpdate := raw.getD 13 0, sfi := raw.getD 14 0, flags := raw.getD 15 0 }
  inside : d.type = .efTransparent → d.dataOffset.toNat + d.size.toNat ≤ flashSize.toNat

theorem decodeDesc_decoded (decoded : decodeDesc flashSize raw = .ok d) : Decoded flashSize raw d := by
  unfold decodeDesc at decoded
  split at decoded
  · cases decoded
  rename_i taken
  split at decoded
  · cases decoded
  rename_i intact
  split at decoded
  · cases decoded
  rename_i type known
  dsimp only at decoded
  split at decoded
  · cases decoded
  rename_i inside
  cases decoded
  refine ⟨by simpa using taken, not_not.mp intact, known, rfl, fun ef => ?_⟩
  exact Nat.not_lt.mp fun beyond => inside ⟨ef, beyond⟩

theorem fileTypeOf_eq_some {code : UInt8} {type : FsFileType} (known : fileTypeOf code = some type) :
    type.code = code := by
  unfold fileTypeOf at known
  split at known
  · rename_i same
    cases known
    exact same.symm
  split at known
  · rename_i same
    cases known
    exact same.symm
  split at known
  · rename_i same
    cases known
    exact same.symm
  · cases known

theorem Decoded.file (decoded : Decoded flashSize raw d) : d.type ≠ .free := by
  intro free
  have code := fileTypeOf_eq_some decoded.type
  have taken := decoded.taken
  rw [rawIsFree, ← code, free] at taken
  cases taken

/-- A slot whose reserved bytes are zero is what writing its file again would store. -/
theorem descBytes_decoded (size : raw.length = fsDescSize) (decoded : Decoded flashSize raw d)
    (reserved : raw.getD 16 0 = 0 ∧ raw.getD 17 0 = 0) : descBytes d = raw := by
  match raw, size with
  | [b0, b1, b2, b3, b4, b5, b6, b7, b8, b9, b10, b11, b12, b13, b14, b15, b16, b17, b18, b19], _ =>
    obtain ⟨-, intact, type, fields, -⟩ := decoded
    obtain ⟨zero, zero'⟩ : b16 = 0 ∧ b17 = 0 := reserved
    have code : d.type.code = b2 := fileTypeOf_eq_some type
    have fileId : putU16 d.fileId = [b0, b1] := by rw [fields]; exact bytes16_word16 b0 b1
    have parent : putU16 d.parent = [b4, b5] := by rw [fields]; exact bytes16_word16 b4 b5
    have length : putU16 d.size = [b6, b7] := by rw [fields]; exact bytes16_word16 b6 b7
    have offset : putU32 d.dataOffset = [b8, b9, b10, b11] := by rw [fields]; exact bytes32_word32 b8 b9 b10 b11
    have body : descBody d = [b0, b1, b2, b3, b4, b5, b6, b7, b8, b9, b10, b11, b12, b13, b14, b15, b16, b17] := by
      rw [descBody, fileId, parent, length, offset, code, zero, zero', fields]
      rfl
    have crc : word16 b18 b19 = crc16 (descBody d) := by rw [body]; exact intact
    rw [descBytes, body, ← body, ← crc, putU16, bytes16_word16, body]
    rfl

end Decoding

/-- The bytes of a slot that is free or holds a file. -/
def slotBytes : Option FsDescriptor → List UInt8
  | none => freeDesc
  | some d => descBytes d

@[simp] theorem slotBytes_length (slot : Option FsDescriptor) : (slotBytes slot).length = fsDescSize := by
  cases slot <;> rfl

/-- Where slot `i` starts; the 32-bit computation never wraps. -/
theorem descOffset_toNat (i : UInt16) : (descOffset i).toNat = 16 + i.toNat * 20 := by
  have bound := i.toNat_lt
  simp only [descOffset, fsDescBase, UInt32.toNat_add, UInt32.toNat_mul, UInt16.toNat_toUInt32,
    UInt32.reduceToNat]
  omega

theorem index_lt {i : UInt16} (inside : i < fsMaxFiles) : i.toNat < 32 :=
  UInt16.lt_iff_toNat_lt.mp inside

/-- The EEPROM image of a card with this table and this stored data top. -/
structure Holds (nvm : Nvm) (table : Table) (top : UInt32) : Prop where
  fits : 656 ≤ nvm.eeprom.size.toNat
  superblock : nvm.eeprom.read 0 fsSuperblockSize = sbBytes top
  slot : ∀ i, i < fsMaxFiles →
    nvm.eeprom.read (descOffset i).toNat fsDescSize = slotBytes (table i)
  legal : ∀ i d, table i = some d → Legal nvm.flash.size d
  topInside : top ≤ nvm.flash.size

/-- Overwriting one slot changes the table there and nowhere else. -/
theorem Holds.write_slot {nvm : Nvm} {table : Table} {top : UInt32} {i : UInt16}
    {entry : Option FsDescriptor} (holds : Holds nvm table top) (inside : i < fsMaxFiles)
    (legal : ∀ d, entry = some d → Legal nvm.flash.size d) :
    Holds (nvm.write .eeprom (descOffset i).toNat (slotBytes entry)) (Function.update table i entry) top where
  fits := by simpa using holds.fits
  superblock := by
    rw [← holds.superblock]
    apply Region.read_write_apart
    left
    rw [descOffset_toNat]
    simp [fsSuperblockSize]
  slot := by
    intro j bound
    by_cases same : j = i
    · subst same
      rw [Function.update_self]
      exact Region.read_write_same (by simp)
    · rw [Function.update_of_ne same, ← holds.slot j bound]
      apply Region.read_write_apart
      have apart : j.toNat ≠ i.toNat := fun equal => same (UInt16.toNat_inj.mp equal)
      rw [descOffset_toNat, descOffset_toNat, slotBytes_length, fsDescSize]
      omega
  legal := by
    intro j d live
    by_cases same : j = i
    · subst same
      rw [Function.update_self] at live
      exact legal d live
    · rw [Function.update_of_ne same] at live
      exact holds.legal j d live
  topInside := holds.topInside

/-- Rewriting the superblock changes the stored data top only. -/
theorem Holds.write_top {nvm : Nvm} {table : Table} {top top' : UInt32} (holds : Holds nvm table top)
    (inside : top' ≤ nvm.flash.size) : Holds (nvm.write .eeprom 0 (sbBytes top')) table top' where
  fits := by simpa using holds.fits
  superblock := Region.read_write_same (by simp)
  slot := by
    intro i bound
    rw [← holds.slot i bound]
    apply Region.read_write_apart
    right
    rw [descOffset_toNat, sbBytes_length, fsSuperblockSize]
    omega
  legal := holds.legal
  topInside := inside

/-- File data lives in the other region. -/
theorem Holds.write_flash {nvm : Nvm} {table : Table} {top : UInt32} {offset : Nat} {bytes : List UInt8}
    (holds : Holds nvm table top) : Holds (nvm.write .flash offset bytes) table top where
  fits := holds.fits
  superblock := holds.superblock
  slot := holds.slot
  legal := by
    intro i d live
    simpa using holds.legal i d live
  topInside := by simpa using holds.topInside

/-- A mounted store: reads never fail, the mirror names the whole table, and the
data top in RAM is at or above the stored one. -/
structure Mounted (s : Store) (table : Table) (top : UInt32) : Prop where
  reads : s.hal.readFaults = []
  mounted : s.sb.mounted = true
  maxFiles : s.sb.maxFiles = fsMaxFiles
  holds : Holds s.hal.nvm table top
  mirror : top ≤ s.sb.dataTop
  mirrorInside : s.sb.dataTop ≤ s.hal.nvm.flash.size

/-- What reading a slot of the table answers. -/
def lookup (table : Table) (i : UInt16) : Except FsError FsDescriptor :=
  if i < fsMaxFiles then
    match table i with
    | some d => .ok d
    | none => .error .notFound
  else .error .param

theorem lookup_eq_ok {table : Table} {i : UInt16} {d : FsDescriptor} :
    lookup table i = .ok d ↔ i < fsMaxFiles ∧ table i = some d := by
  unfold lookup
  split
  · rename_i inside
    cases table i with
    | none => simp
    | some e => simp [inside]
  · rename_i outside
    simp [outside]

theorem lookup_not_corrupt {table : Table} {i : UInt16} : lookup table i ≠ .error .corrupt := by
  unfold lookup
  split
  · cases table i <;> simp
  · simp

/-- A bounds-checked read on a device whose reads do not fail. -/
theorem halNvmRead_reliable {hal : Hal} (region : NvmRegion) (offset : UInt32) (len : Nat)
    (reads : hal.readFaults = []) (inside : offset.toNat + len ≤ (hal.nvm.region region).size.toNat) :
    halNvmRead region offset len hal = (.ok ((hal.nvm.region region).read offset.toNat len), hal) := by
  unfold halNvmRead
  by_cases empty : len = 0
  · subst empty
    simp [Region.read]
  · have within : inRange (halNvmSize hal region) offset len = true := inRange_iff.mpr inside
    rw [if_neg empty, within]
    simp [nextRead, reads]

section Reading
variable {s : Store} {table : Table} {top : UInt32}

theorem liftHal_ok {x : HalM α} {e : FsError} {a : α} {hal : Hal} (ran : x s.hal = (.ok a, hal)) :
    liftHal e x s = (.ok a, { s with hal }) := Action.within_ok ran

theorem liftHal_error {x : HalM α} {e : FsError} {failed : HalError} {hal : Hal}
    (ran : x s.hal = (.error failed, hal)) : liftHal e x s = (.error e, { s with hal }) :=
  Action.within_error ran

/-- The bytes in a descriptor slot. -/
def rawSlot (s : Store) (i : UInt16) : List UInt8 := s.hal.nvm.eeprom.read (descOffset i).toNat fsDescSize

/-- A mounted store with a whole table, whatever its slots hold, on a device whose reads work. -/
structure Mapped (s : Store) : Prop where
  reads : s.hal.readFaults = []
  mounted : s.sb.mounted = true
  maxFiles : s.sb.maxFiles = fsMaxFiles
  fits : 656 ≤ s.hal.nvm.eeprom.size.toNat

theorem Mounted.mapped (ready : Mounted s table top) : Mapped s :=
  ⟨ready.reads, ready.mounted, ready.maxFiles, ready.holds.fits⟩

/-- A mounted store whose slots, however many, lie inside the EEPROM. -/
structure Slotted (s : Store) : Prop where
  reads : s.hal.readFaults = []
  mounted : s.sb.mounted = true
  fits : descOffset s.sb.maxFiles ≤ s.hal.nvm.eeprom.size

theorem Mapped.slotted (mapped : Mapped s) : Slotted s where
  reads := mapped.reads
  mounted := mapped.mounted
  fits := by
    rw [mapped.maxFiles]
    exact UInt32.le_iff_toNat_le.mpr mapped.fits

/-- A slot of a table that fits lies inside. -/
theorem slot_inside {files i : UInt16} {size : UInt32} (table : descOffset files ≤ size) (below : i < files) :
    (descOffset i).toNat + fsDescSize ≤ size.toNat := by
  have table := UInt32.le_iff_toNat_le.mp table
  have bound := UInt16.lt_iff_toNat_lt.mp below
  rw [descOffset_toNat] at table ⊢
  rw [fsDescSize]
  omega

theorem Slotted.slot (slotted : Slotted s) {i : UInt16} (below : i < s.sb.maxFiles) :
    (descOffset i).toNat + fsDescSize ≤ s.hal.nvm.eeprom.size.toNat := slot_inside slotted.fits below

theorem descRawRead_slotted (slotted : Slotted s) (i : UInt16) :
    descRawRead i s = (if i < s.sb.maxFiles then .ok (rawSlot s i) else .error .param, s) := by
  unfold descRawRead
  rw [Action.state_bind]
  simp only [slotted.mounted, Bool.not_true, Bool.false_eq_true, if_false]
  by_cases inside : i < s.sb.maxFiles
  · rw [if_neg (by exact fun above => absurd inside (UInt16.not_lt.mpr above)), if_pos inside]
    have read := halNvmRead_reliable .eeprom (descOffset i) fsDescSize slotted.reads (slotted.slot inside)
    rw [liftHal_ok read]
    rfl
  · rw [if_pos (UInt16.not_lt.mp inside), if_neg inside]
    rfl

/-- Reading a descriptor decodes the bytes of its slot. -/
theorem readDesc_slotted (slotted : Slotted s) (i : UInt16) :
    fsStoreReadDesc i s =
      (if i < s.sb.maxFiles then decodeDesc s.hal.nvm.flash.size (rawSlot s i) else .error .param, s) := by
  have raw := descRawRead_slotted slotted i
  unfold fsStoreReadDesc
  by_cases inside : i < s.sb.maxFiles
  · rw [if_pos inside] at raw
    rw [Action.bind_ok raw, Action.state_bind, if_pos inside,
      show halNvmSize s.hal .flash = s.hal.nvm.flash.size from rfl]
    cases decodeDesc s.hal.nvm.flash.size (rawSlot s i) <;> rfl
  · rw [if_neg inside] at raw
    rw [Action.bind_error raw, if_neg inside]

theorem descRawRead_mapped (mapped : Mapped s) (i : UInt16) :
    descRawRead i s = (if i < fsMaxFiles then .ok (rawSlot s i) else .error .param, s) := by
  rw [descRawRead_slotted mapped.slotted, mapped.maxFiles]

theorem readDesc_mapped (mapped : Mapped s) (i : UInt16) :
    fsStoreReadDesc i s =
      (if i < fsMaxFiles then decodeDesc s.hal.nvm.flash.size (rawSlot s i) else .error .param, s) := by
  rw [readDesc_slotted mapped.slotted, mapped.maxFiles]

theorem slotIsFree_mapped (mapped : Mapped s) {i : UInt16} (inside : i < fsMaxFiles) :
    fsStoreSlotIsFree i s = (.ok (rawIsFree (rawSlot s i)), s) := by
  have raw := descRawRead_mapped mapped i
  rw [if_pos inside] at raw
  rw [fsStoreSlotIsFree, Action.attempt_bind, raw]
  rfl

/-- Reading a descriptor of a mounted store looks it up in the table. -/
theorem readDesc_eq (ready : Mounted s table top) (i : UInt16) :
    fsStoreReadDesc i s = (lookup table i, s) := by
  rw [readDesc_mapped ready.mapped, lookup]
  by_cases inside : i < fsMaxFiles
  · rw [if_pos inside, if_pos inside, rawSlot, ready.holds.slot i inside]
    cases live : table i with
    | none => rfl
    | some d => rw [slotBytes, decodeDesc_descBytes (ready.holds.legal i d live)]
  · rw [if_neg inside, if_neg inside]

theorem maxFiles_eq (ready : Mounted s table top) : fsStoreMaxFiles s = fsMaxFiles := by
  simp [fsStoreMaxFiles, ready.mounted, ready.maxFiles]

/-- The bytes of a slot tell whether it holds a file. -/
theorem rawIsFree_slot (ready : Mounted s table top) {i : UInt16} (inside : i < fsMaxFiles) :
    rawIsFree (rawSlot s i) = (table i).isNone := by
  rw [rawSlot, ready.holds.slot i inside]
  cases live : table i with
  | none => rfl
  | some d =>
    have legal := ready.holds.legal i d live
    simpa [slotBytes, rawIsFree, descBytes, descBody, putU16, bytes16] using code_ne_free legal.file

end Reading

section Mounting
variable {s : Store} {flashSize eepromSize : UInt32} {raw : List UInt8} {sb : Superblock}

/-- The store as `fs_store_mount` leaves it when it fails. -/
def unmount (s : Store) : Store := { s with sb := { s.sb with mounted := false } }

/-- What mounting makes of the sixteen superblock bytes. -/
def decodeSb (flashSize eepromSize : UInt32) (raw : List UInt8) : Except FsError Superblock :=
  if raw.take 4 ≠ fsMagic then .error .notFormatted
  else if getU16 raw 14 ≠ crc16 (raw.take 14) then .error .corrupt
  else if getU16 raw 4 ≠ fsLayoutVersion then .error .version
  else if getU16 raw 6 = 0 ∨ getU16 raw 6 > fsMaxFiles then .error .corrupt
  else if getU32 raw 8 > flashSize then .error .corrupt
  else if descOffset (getU16 raw 6) > eepromSize then .error .corrupt
  else .ok ⟨true, getU16 raw 4, getU16 raw 6, getU32 raw 8⟩

/-- A superblock that is accepted keeps the table and the data inside their regions. -/
structure SbBounds (flashSize eepromSize : UInt32) (sb : Superblock) : Prop where
  mounted : sb.mounted = true
  version : sb.version = fsLayoutVersion
  files : sb.maxFiles ≤ fsMaxFiles
  top : sb.dataTop ≤ flashSize
  table : descOffset sb.maxFiles ≤ eepromSize

theorem decodeSb_bounds (decoded : decodeSb flashSize eepromSize raw = .ok sb) : SbBounds flashSize eepromSize sb := by
  unfold decodeSb at decoded
  split at decoded
  · cases decoded
  split at decoded
  · cases decoded
  split at decoded
  · cases decoded
  rename_i version
  split at decoded
  · cases decoded
  rename_i files
  split at decoded
  · cases decoded
  rename_i top
  split at decoded
  · cases decoded
  rename_i table
  cases decoded
  exact ⟨rfl, not_not.mp version, UInt16.not_lt.mp (not_or.mp files).2, UInt32.not_lt.mp top, UInt32.not_lt.mp table⟩

/-- Mounting reads the superblock and decodes it; whatever fails, the old mirror is
forgotten. -/
theorem fsStoreMount_eq (s : Store) :
    fsStoreMount s = match halNvmRead .eeprom 0 fsSuperblockSize s.hal with
      | (.error _, hal) => (.error .nvm, { unmount s with hal })
      | (.ok raw, hal) => match decodeSb hal.nvm.flash.size hal.nvm.eeprom.size raw with
        | .error e => (.error e, { unmount s with hal })
        | .ok sb => (.ok (), { hal, sb }) := by
  rcases read : halNvmRead .eeprom 0 fsSuperblockSize s.hal with ⟨e | raw, hal⟩
  · exact Action.update_bind.trans (Action.bind_error (liftHal_error (s := unmount s) read))
  rw [show fsStoreMount s = _ from Action.update_bind.trans (Action.bind_ok (liftHal_ok (s := unmount s) read))]
  dsimp only
  unfold decodeSb
  split
  · rfl
  split
  · rfl
  split
  · rfl
  split
  · rfl
  rw [Action.state_bind, show halNvmSize hal .flash = hal.nvm.flash.size from rfl,
    show halNvmSize hal .eeprom = hal.nvm.eeprom.size from rfl]
  split
  · rfl
  split
  · rfl
  · rfl

end Mounting

/-- How a durable write may end: the mirror and the read plan are untouched, the
whole block is stored or, with an error reported, possibly none of it; without
failures to come it is stored and reported so. -/
structure Written (region : NvmRegion) (offset : Nat) (raw : List UInt8) (s : Store)
    (result : Except FsError Unit) (s' : Store) : Prop where
  sb : s'.sb = s.sb
  reads : s'.hal.readFaults = s.hal.readFaults
  nvm : s'.hal.nvm = s.hal.nvm.write region offset raw ∨ (s'.hal.nvm = s.hal.nvm ∧ result ≠ .ok ())
  reliable : s.hal.writeFaults = [] → result = .ok () ∧ s'.hal.writeFaults = []

section Writing
variable {s s' : Store} {table : Table} {top : UInt32} {region : NvmRegion} {offset : UInt32}
  {raw : List UInt8} {result : Except FsError Unit} {refused : FsError}

private theorem halNvmSync_spec {hal hal' : Hal} {outcome : Except HalError Unit}
    (ran : halNvmSync hal = (outcome, hal')) :
    hal'.nvm = hal.nvm ∧ hal'.readFaults = hal.readFaults ∧
      (hal.writeFaults = [] → outcome = .ok () ∧ hal'.writeFaults = []) := by
  unfold halNvmSync nextWrite at ran
  cases plan : hal.writeFaults with
  | nil =>
    simp only [plan] at ran
    cases ran
    exact ⟨rfl, rfl, fun _ => ⟨rfl, plan⟩⟩
  | cons fault rest =>
    simp only [plan] at ran
    cases fault <;> cases ran <;> exact ⟨rfl, rfl, by simp⟩

/-- What one write request inside its region can do. -/
theorem halNvmWrite_spec {hal hal' : Hal} {outcome : Except HalError Unit} (nonempty : raw ≠ [])
    (inside : offset.toNat + raw.length ≤ (hal.nvm.region region).size.toNat)
    (ran : halNvmWrite region offset raw hal = (outcome, hal')) :
    hal'.readFaults = hal.readFaults ∧
      (hal'.nvm = hal.nvm.write region offset.toNat raw ∨
        (hal'.nvm = hal.nvm ∧ outcome ≠ .ok ())) ∧
      (hal.writeFaults = [] → outcome = .ok () ∧ hal'.writeFaults = []) := by
  have within : inRange (halNvmSize hal region) offset raw.length = true := inRange_iff.mpr inside
  unfold halNvmWrite nextWrite at ran
  simp only [if_neg nonempty, show ∀ n, halNvmSize { hal with writes := n } region =
    halNvmSize hal region from fun _ => rfl, within, Bool.not_true, Bool.false_eq_true, if_false] at ran
  cases plan : hal.writeFaults with
  | nil =>
    simp only [plan] at ran
    cases ran
    exact ⟨rfl, .inl rfl, fun _ => ⟨rfl, rfl⟩⟩
  | cons fault rest =>
    simp only [plan] at ran
    cases fault with
    | none => cases ran; exact ⟨rfl, .inl rfl, by simp⟩
    | lost => cases ran; exact ⟨rfl, .inr ⟨rfl, by simp⟩, by simp⟩
    | stored => cases ran; exact ⟨rfl, .inl rfl, by simp⟩

/-- A durable write inside its region ends in one of the ways of `Written`. -/
theorem writeDurably_written (nonempty : raw ≠ [])
    (inside : offset.toNat + raw.length ≤ (s.hal.nvm.region region).size.toNat)
    (ran : writeDurably region offset raw refused s = (result, s')) :
    Written region offset.toNat raw s result s' := by
  unfold writeDurably at ran
  rcases first : halNvmWrite region offset raw s.hal with ⟨outcome, hal⟩
  obtain ⟨reads, stored, reliable⟩ := halNvmWrite_spec nonempty inside first
  cases outcome with
  | error e =>
    rw [Action.bind_error (liftHal_error first)] at ran
    cases ran
    refine ⟨rfl, reads, ?_, ?_⟩
    · rcases stored with stored | ⟨lost, _⟩
      · exact .inl stored
      · exact .inr ⟨lost, by simp⟩
    · intro faultless
      exact absurd (reliable faultless).1 (by simp)
  | ok u =>
    rw [Action.bind_ok (liftHal_ok first)] at ran
    rcases second : halNvmSync hal with ⟨outcome, hal'⟩
    obtain ⟨same, reads', reliable'⟩ := halNvmSync_spec second
    have written : hal'.nvm = s.hal.nvm.write region offset.toNat raw := by
      rcases stored with stored | ⟨_, failed⟩
      · exact same.trans stored
      · exact absurd rfl failed
    cases outcome with
    | error e =>
      rw [liftHal_error (s := { s with hal }) second] at ran
      cases ran
      refine ⟨rfl, reads'.trans reads, .inl written, ?_⟩
      intro faultless
      exact absurd (reliable' (reliable faultless).2).1 (by simp)
    | ok u =>
      rw [liftHal_ok (s := { s with hal }) second] at ran
      cases ran
      exact ⟨rfl, reads'.trans reads, .inl written, fun faultless =>
        ⟨rfl, (reliable' (reliable faultless).2).2⟩⟩

/-- A store with the same mirror over another image it still fits. -/
theorem Mounted.carry {table' : Table} {top' : UInt32} (ready : Mounted s table top) (sb : s'.sb = s.sb)
    (reads : s'.hal.readFaults = s.hal.readFaults) (holds : Holds s'.hal.nvm table' top')
    (mirror : top' ≤ s.sb.dataTop) (size : s'.hal.nvm.flash.size = s.hal.nvm.flash.size) :
    Mounted s' table' top' where
  reads := reads.trans ready.reads
  mounted := by rw [sb]; exact ready.mounted
  maxFiles := by rw [sb]; exact ready.maxFiles
  holds := holds
  mirror := by rw [sb]; exact mirror
  mirrorInside := by rw [sb, size]; exact ready.mirrorInside

/-- A change of one slot of a mounted store. With an error the slot may also
have kept what it held. -/
theorem writeSlot_mounted {i : UInt16} {entry : Option FsDescriptor} (ready : Mounted s table top)
    (slot : i < fsMaxFiles) (legal : ∀ d, entry = some d → Legal s.hal.nvm.flash.size d)
    (ran : writeDurably .eeprom (descOffset i) (slotBytes entry) .nvm s = (result, s')) :
    s'.sb = s.sb ∧ s'.hal.nvm.flash = s.hal.nvm.flash ∧
      (Mounted s' (Function.update table i entry) top ∨ (Mounted s' table top ∧ result ≠ .ok ())) ∧
      (s.hal.writeFaults = [] → result = .ok () ∧ s'.hal.writeFaults = []) := by
  have bound := index_lt slot
  have fits := ready.holds.fits
  have nonempty : slotBytes entry ≠ [] := List.ne_nil_of_length_pos (by rw [slotBytes_length]; decide)
  have written := writeDurably_written nonempty
    (by rw [descOffset_toNat, slotBytes_length, fsDescSize]; simp only [Nvm.region]; omega) ran
  rcases written.nvm with stored | ⟨same, failed⟩
  · refine ⟨written.sb, by rw [stored, Nvm.write_eeprom_flash], .inl ?_, written.reliable⟩
    exact ready.carry written.sb written.reads (stored ▸ ready.holds.write_slot slot legal) ready.mirror
      (by rw [stored, Nvm.write_eeprom_flash])
  · refine ⟨written.sb, by rw [same], .inr ⟨?_, failed⟩, written.reliable⟩
    exact ready.carry written.sb written.reads (same ▸ ready.holds) ready.mirror (by rw [same])

/-- Allocation moves the data top in RAM; the stored top follows when the
superblock write went through. -/
theorem allocData_mounted {size : UInt16} {allocated : Except FsError UInt32} (ready : Mounted s table top)
    (ran : fsStoreAllocData size s = (allocated, s')) :
    (allocated = .error .noSpace ∧ s' = s ∧
        s.hal.nvm.flash.size.toNat < s.sb.dataTop.toNat + size.toNat) ∨
      (s'.sb.dataTop.toNat = s.sb.dataTop.toNat + size.toNat ∧ s'.hal.nvm.flash = s.hal.nvm.flash ∧
        ((allocated = .ok s.sb.dataTop ∧ Mounted s' table s'.sb.dataTop) ∨
          (∃ e, allocated = .error e) ∧ (Mounted s' table s'.sb.dataTop ∨ Mounted s' table top)) ∧
        (s.hal.writeFaults = [] → allocated = .ok s.sb.dataTop ∧ s'.hal.writeFaults = [])) := by
  unfold fsStoreAllocData at ran
  rw [Action.state_bind] at ran
  simp only [ready.mounted, Bool.not_true, Bool.false_eq_true, if_false] at ran
  split at ran
  · rename_i full
    cases ran
    exact .inl ⟨rfl, rfl, full⟩
  · rename_i room
    right
    have bound : s.sb.dataTop.toNat + size.toNat ≤ s.hal.nvm.flash.size.toNat := Nat.not_lt.mp room
    have flash := s.hal.nvm.flash.size.toNat_lt
    rw [Action.update_bind] at ran
    generalize raised : ({ s with sb := { s.sb with dataTop := UInt32.ofNat (s.sb.dataTop.toNat + size.toNat) } } :
      Store) = t at ran
    have dataTop : t.sb.dataTop.toNat = s.sb.dataTop.toNat + size.toNat := by
      rw [← raised]
      exact UInt32.toNat_ofNat_of_lt' (Nat.lt_of_le_of_lt bound flash)
    have hal : t.hal = s.hal := by rw [← raised]
    have topUp : top ≤ t.sb.dataTop := by
      have stored := UInt32.le_iff_toNat_le.mp ready.mirror
      exact UInt32.le_iff_toNat_le.mpr (by omega)
    have inside : t.sb.dataTop ≤ t.hal.nvm.flash.size := by
      rw [hal]
      exact UInt32.le_iff_toNat_le.mpr (by omega)
    have staged : Mounted t table top := by
      refine ⟨?_, ?_, ?_, ?_, topUp, inside⟩
      · rw [hal]; exact ready.reads
      · rw [← raised]; exact ready.mounted
      · rw [← raised]; exact ready.maxFiles
      · rw [hal]; exact ready.holds
    rcases wrote : sbWrite t with ⟨result, t'⟩
    have fits := ready.holds.fits
    have written := writeDurably_written (List.ne_nil_of_length_pos (by rw [sbBytes_length]; decide))
      (by rw [sbBytes_length, hal]; simp only [Nvm.region, fsSuperblockSize, UInt32.reduceToNat]; omega) wrote
    have kept : Mounted t' table t'.sb.dataTop ∨ (Mounted t' table top ∧ result ≠ .ok ()) := by
      rw [written.sb]
      rcases written.nvm with stored | ⟨same, failed⟩
      · left
        exact staged.carry written.sb written.reads (stored ▸ staged.holds.write_top inside)
          (UInt32.le_refl _) (by rw [stored, Nvm.write_eeprom_flash])
      · right
        exact ⟨staged.carry written.sb written.reads (same ▸ staged.holds) topUp (by rw [same]), failed⟩
    have flashSame : t'.hal.nvm.flash = s.hal.nvm.flash := by
      rw [← hal]
      rcases written.nvm with stored | ⟨same, _⟩
      · rw [stored, Nvm.write_eeprom_flash]
      · rw [same]
    cases result with
    | error e =>
      rw [Action.bind_error wrote] at ran
      cases ran
      refine ⟨by rw [written.sb, dataTop], flashSame, .inr ⟨⟨e, rfl⟩, ?_⟩, ?_⟩
      · exact kept.imp id And.left
      · intro faultless
        exact absurd (written.reliable (by rw [hal]; exact faultless)).1 (by simp)
    | ok u =>
      rw [Action.bind_ok wrote] at ran
      cases ran
      refine ⟨by rw [written.sb, dataTop], flashSame, .inl ⟨rfl, ?_⟩, ?_⟩
      · rcases kept with kept | ⟨_, failed⟩
        · exact kept
        · exact absurd rfl failed
      · intro faultless
        exact ⟨rfl, (written.reliable (by rw [hal]; exact faultless)).2⟩

end Writing
end CardOs.FsStoreProofs
