import CardOs.StorageProofs

/-! Descriptors written to a slot and read back, in any mounted store whose slots lie
inside the EEPROM: what was written is read, the other slots and the superblock are
as they were, and writing back what was read stores the bytes that were there. -/
namespace CardOs.DescriptorProofs
open CardOs.Library CardOs.Library.Action CardOs.FsTypes CardOs.HalNvm CardOs.FsStore CardOs.FsStoreProofs
open CardOs.Fs CardOs.StorageProofs

section Slots
variable {s s' : Store} {i j : UInt16} {d : FsDescriptor}

/-- The store with a descriptor in one of its slots. -/
structure Stored (s : Store) (i : UInt16) (d : FsDescriptor) (s' : Store) : Prop where
  sb : s'.sb = s.sb
  reads : s'.hal.readFaults = s.hal.readFaults
  nvm : s'.hal.nvm = s.hal.nvm.write .eeprom (descOffset i).toNat (descBytes d)

theorem writeDesc_stores (slotted : Slotted s) (reliable : s.hal.writeFaults = []) (below : i < s.sb.maxFiles)
    (file : d.type ≠ .free) : ∃ s', fsStoreWriteDesc i d s = (.ok (), s') ∧ Stored s i d s' := by
  have writes : fsStoreWriteDesc i d s = writeDurably .eeprom (descOffset i) (descBytes d) .nvm s := by
    rw [fsStoreWriteDesc, state_bind, slotted.mounted, if_neg (by simp), if_neg (UInt16.not_le.mpr below), if_neg file]
  rcases ran : writeDurably .eeprom (descOffset i) (descBytes d) .nvm s with ⟨r, s'⟩
  have written := writeDurably_written (by simp [descBytes, descBody, putU16, BigEndian.bytes16])
    (by rw [descBytes_length]; exact slotted.slot below) ran
  obtain ⟨rfl, -⟩ := written.reliable reliable
  exact ⟨s', writes.trans ran, written.sb, written.reads, written.nvm.resolve_right fun kept => kept.2 rfl⟩

theorem Stored.slotted (stored : Stored s i d s') (slotted : Slotted s) : Slotted s' where
  reads := stored.reads.trans slotted.reads
  mounted := stored.sb ▸ slotted.mounted
  fits := by
    rw [stored.sb, stored.nvm]
    simpa using slotted.fits

theorem Stored.slot (stored : Stored s i d s') : rawSlot s' i = descBytes d := by
  rw [rawSlot, stored.nvm]
  exact Region.read_write_same (by simp)

theorem Stored.other (stored : Stored s i d s') (other : j ≠ i) : rawSlot s' j = rawSlot s j := by
  rw [rawSlot, rawSlot, stored.nvm]
  apply Region.read_write_apart
  have apart : j.toNat ≠ i.toNat := fun same => other (UInt16.toNat_inj.mp same)
  rw [descOffset_toNat, descOffset_toNat, descBytes_length, fsDescSize]
  omega

theorem Stored.superblock (stored : Stored s i d s') :
    s'.hal.nvm.eeprom.read 0 fsSuperblockSize = s.hal.nvm.eeprom.read 0 fsSuperblockSize := by
  rw [stored.nvm]
  apply Region.read_write_apart
  left
  rw [descOffset_toNat, fsSuperblockSize]
  omega

/-- Storing the bytes that are there leaves the region as it is. -/
theorem Stored.unchanged (stored : Stored s i d s') (same : descBytes d = rawSlot s i) : s'.hal.nvm = s.hal.nvm := by
  rw [stored.nvm, same, rawSlot, Nvm.write, Region.write_read_same]

end Slots

/-- In a mounted store whose slots lie inside the EEPROM a file of a legal kind, and
with its data inside the FLASH, is read back from the slot it is written to; every
other slot reads as before and the superblock is the same. A slot that reads as a
file and has its reserved bytes zero keeps all its bytes when the file is written back. -/
theorem descriptors_round_trip {s : Store} (slotted : Slotted s) (reliable : s.hal.writeFaults = []) {i : UInt16}
    (below : i < s.sb.maxFiles) :
    (∀ d, Legal s.hal.nvm.flash.size d → ∃ s', fsStoreWriteDesc i d s = (.ok (), s') ∧
      fsStoreReadDesc i s' = (.ok d, s') ∧ (∀ j, j ≠ i → (fsStoreReadDesc j s').1 = (fsStoreReadDesc j s).1) ∧
      s'.sb = s.sb ∧ s'.hal.nvm.eeprom.read 0 fsSuperblockSize = s.hal.nvm.eeprom.read 0 fsSuperblockSize) ∧
    (∀ d, fsStoreReadDesc i s = (.ok d, s) → (rawSlot s i).getD 16 0 = 0 → (rawSlot s i).getD 17 0 = 0 →
      ∃ s', fsStoreWriteDesc i d s = (.ok (), s') ∧ s'.hal.nvm = s.hal.nvm) := by
  constructor
  · intro d legal
    obtain ⟨s', wrote, stored⟩ := writeDesc_stores slotted reliable below legal.file
    have slotted' := stored.slotted slotted
    have flash : s'.hal.nvm.flash = s.hal.nvm.flash := by rw [stored.nvm, Nvm.write_eeprom_flash]
    refine ⟨s', wrote, ?_, fun j other => ?_, stored.sb, stored.superblock⟩
    · rw [readDesc_slotted slotted', stored.sb, if_pos below, stored.slot, flash, decodeDesc_descBytes legal]
    · rw [readDesc_slotted slotted', readDesc_slotted slotted, stored.sb, stored.other other, flash]
  · intro d read high low
    rw [readDesc_slotted slotted, if_pos below] at read
    have decoded := decodeDesc_decoded (congrArg Prod.fst read)
    have same := descBytes_decoded (by simp [rawSlot]) decoded ⟨high, low⟩
    obtain ⟨s', wrote, stored⟩ := writeDesc_stores slotted reliable below decoded.file
    exact ⟨s', wrote, stored.unchanged same⟩

/-- A table of two slots with a DF in the second. -/
def dfInSecondSlot : Store :=
  let df : FsDescriptor := ⟨0x7F10, .df, fsLcActivated, 0, 0, 0, 0, 0, 0, 0⟩
  ⟨⟨⟨(Region.uniform 56 0xFF).write 36 (descBytes df), .uniform 0 0xFF⟩, [], [], 0, 0⟩, ⟨true, 1, 2, 0⟩⟩

/-- The MF goes into the first slot and the DF stays what it was. -/
theorem descriptors_round_trip_two_slots : ∃ s', fsStoreWriteDesc 0 factoryMf dfInSecondSlot = (.ok (), s') ∧
    fsStoreReadDesc 0 s' = (.ok factoryMf, s') ∧
    (fsStoreReadDesc 1 s').1 = .ok ⟨0x7F10, .df, fsLcActivated, 0, 0, 0, 0, 0, 0, 0⟩ := by
  have slotted : Slotted dfInSecondSlot := ⟨rfl, rfl, by decide⟩
  obtain ⟨s', wrote, read, others, -⟩ :=
    (descriptors_round_trip slotted rfl (i := 0) (by decide)).1 factoryMf ⟨by decide, by decide⟩
  exact ⟨s', wrote, read, (others 1 (by decide)).trans (by decide +kernel)⟩

end CardOs.DescriptorProofs
