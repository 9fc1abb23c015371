import CardOs.CrashProofs
import CardOs.DamageProofs
import CardOs.Library.Checksum

/-! One damaged byte in a descriptor. The CRC step loses no information, so that the CRC
tells any single change; but a slot is taken for free by its type byte before its CRC is
looked at, and that is the one change that is not reported. -/
namespace CardOs.CorruptionProofs
open CardOs.Library CardOs.Library.Action CardOs.Library.BigEndian CardOs.Crc16 CardOs.FsTypes CardOs.HalNvm
open CardOs.FsStore CardOs.FsStoreProofs CardOs.Fs CardOs.FsProofs CardOs.Kernel CardOs.CardProofs CardOs.CardSafety
open CardOs.DamageProofs CardOs.CrashProofs

section Crc

theorem top_bit (c : UInt16) : c &&& 0x8000 ≠ 0 ↔ c.toBitVec.getLsbD 15 = true := by
  rw [ne_eq, ← UInt16.toBitVec_inj, UInt16.toBitVec_and, show (0x8000 : UInt16).toBitVec = BitVec.twoPow 16 15 by decide,
    BitVec.and_twoPow]
  cases c.toBitVec.getLsbD 15 <;> simp

private theorem shift_bit (c : UInt16) {i : Nat} (inside : i < 15) :
    (c <<< 1).toBitVec.getLsbD (i + 1) = c.toBitVec.getLsbD i := by
  rw [UInt16.toBitVec_shiftLeft]
  simp [BitVec.getLsbD_shiftLeft]
  omega

private theorem shift_low (c : UInt16) : (c <<< 1).toBitVec.getLsbD 0 = false := by
  rw [UInt16.toBitVec_shiftLeft]
  simp

/-- A shift loses the top bit alone. -/
private theorem eq_of_shift {a b : UInt16} (shifted : a <<< 1 = b <<< 1) (top : a &&& 0x8000 ≠ 0 ↔ b &&& 0x8000 ≠ 0) :
    a = b := by
  apply UInt16.toBitVec_inj.mp
  apply BitVec.eq_of_getLsbD_eq
  intro i inside
  by_cases last : i = 15
  · rw [top_bit, top_bit] at top
    rw [last]
    exact Bool.eq_iff_iff.mpr top
  · rw [← shift_bit a (by omega), ← shift_bit b (by omega), shifted]

/-- The polynomial marks in the low bit that the top bit was set. -/
private theorem low_apart (a b : UInt16) : (a <<< (1 : UInt16)) ^^^ (0x1021 : UInt16) ≠ b <<< (1 : UInt16) := by
  intro same
  have low := congrArg (fun c : UInt16 => c.toBitVec.getLsbD 0) same
  simp only [UInt16.toBitVec_xor, BitVec.getLsbD_xor, shift_low] at low
  cases low

theorem crcBit_injective : Function.Injective crcBit := by
  intro a b same
  unfold crcBit at same
  by_cases topA : a &&& 0x8000 ≠ 0 <;> by_cases topB : b &&& 0x8000 ≠ 0
  · rw [if_pos topA, if_pos topB, UInt16.xor_left_inj] at same
    exact eq_of_shift same (iff_of_true topA topB)
  · rw [if_pos topA, if_neg topB] at same
    exact absurd same (low_apart a b)
  · rw [if_neg topA, if_pos topB] at same
    exact absurd same.symm (low_apart b a)
  · rw [if_neg topA, if_neg topB] at same
    exact eq_of_shift same (iff_of_false topA topB)

theorem crcByte_register (b : UInt8) : Function.Injective fun crc => crcByte crc b :=
  fun _ _ same => (UInt16.xor_left_inj _).mp (crcBit_injective.iterate 8 same)

theorem crcByte_byte (crc : UInt16) : Function.Injective (crcByte crc) := by
  intro x y same
  have shifted := congrArg UInt16.toNat ((UInt16.xor_right_inj crc).mp (crcBit_injective.iterate 8 same))
  have small := x.toNat_lt
  have small' := y.toNat_lt
  simp only [UInt16.toNat_shiftLeft, UInt8.toNat_toUInt16, UInt16.reduceToNat, Nat.reduceMod, Nat.shiftLeft_eq]
    at shifted
  exact UInt8.toNat_inj.mp (by omega)

/-- The CRC tells any change of one byte. -/
theorem crc16_set_ne {data : List UInt8} {k : Nat} {b : UInt8} (inside : k < data.length) (changed : b ≠ data[k]) :
    crc16 (data.set k b) ≠ crc16 data :=
  Checksum.foldl_set_ne crcByte_register crcByte_byte inside changed

end Crc

section Decoding
variable {raw : List UInt8} {k : Nat} {b : UInt8} {flashSize : UInt32} {d : FsDescriptor}

private theorem word16_inj {a b c d : UInt8} (same : word16 a b = word16 c d) : a = c ∧ b = d := by
  have bytes := congrArg bytes16 same
  rw [bytes16_word16, bytes16_word16] at bytes
  simpa using bytes

private theorem set_getD (i : Nat) (inside : k < raw.length) :
    (raw.set k b).getD i 0 = if i = k then b else raw.getD i 0 := by
  rw [List.getD_eq_getElem?_getD, List.getElem?_set, List.getD_eq_getElem?_getD]
  by_cases here : k = i
  · simp [here, here ▸ inside]
  · rw [if_neg here, if_neg (Ne.symm here)]

/-- The stored CRC does not match the damaged bytes. -/
private theorem damaged_crc (size : raw.length = fsDescSize) (inside : k < raw.length) (changed : b ≠ raw[k])
    (intact : getU16 raw 18 = crc16 (raw.take 18)) :
    getU16 (raw.set k b) 18 ≠ crc16 ((raw.set k b).take 18) := by
  rw [fsDescSize] at size
  by_cases covered : k < 18
  · have same : getU16 (raw.set k b) 18 = getU16 raw 18 := by
      rw [getU16, getU16, set_getD 18 inside, set_getD (18 + 1) inside, if_neg (by omega), if_neg (by omega)]
    rw [same, intact, List.take_set]
    exact (crc16_set_ne (by simp; omega) (by simpa using changed)).symm
  · have same : (raw.set k b).take 18 = raw.take 18 := List.take_set_of_le (by omega)
    rw [same, ← intact, getU16, getU16, set_getD 18 inside, set_getD (18 + 1) inside]
    intro unchanged
    obtain ⟨high, low⟩ := word16_inj unchanged
    have old : raw.getD k 0 = raw[k] := List.getD_eq_getElem _ _ inside
    rcases (show k = 18 ∨ k = 18 + 1 by omega) with rfl | rfl
    · rw [if_pos rfl, old] at high
      exact changed high
    · rw [if_pos rfl, old] at low
      exact changed low

/-- What one changed byte makes of the bytes of a descriptor. -/
theorem decodeDesc_damaged (size : raw.length = fsDescSize) (decoded : decodeDesc flashSize raw = .ok d)
    (inside : k < raw.length) (changed : b ≠ raw[k]) :
    (rawIsFree (raw.set k b) = true ↔ k = 2 ∧ b = 0xFF) ∧
      decodeDesc flashSize (raw.set k b) = .error (if k = 2 ∧ b = 0xFF then .notFound else .corrupt) := by
  obtain ⟨taken, intact, -⟩ := decodeDesc_decoded decoded
  have free : rawIsFree (raw.set k b) = true ↔ k = 2 ∧ b = 0xFF := by
    rw [rawIsFree, decide_eq_true_iff, set_getD 2 inside]
    by_cases here : 2 = k
    · rw [if_pos here]
      exact ⟨fun erased => ⟨here.symm, erased⟩, fun both => both.2⟩
    · rw [if_neg here]
      exact iff_of_false (of_decide_eq_false taken) fun both => here both.1.symm
  refine ⟨free, ?_⟩
  unfold decodeDesc
  by_cases erased : k = 2 ∧ b = 0xFF
  · rw [if_pos (free.mpr erased), if_pos erased]
  · rw [if_neg (mt free.mp erased), if_neg erased, if_pos (damaged_crc size inside changed intact)]

end Decoding

section Slots
variable {s : Store} {i j : UInt16} {k : Nat} {b : UInt8}

theorem damage_mapped (mapped : Mapped s) (p : Nat) (b : UInt8) : Mapped (damage s p b [] []) :=
  ⟨rfl, mapped.mounted, mapped.maxFiles, mapped.fits⟩

/-- The changed byte in the slot it lies in. -/
theorem rawSlot_damaged (i : UInt16) (k : Nat) :
    rawSlot (damage s ((descOffset i).toNat + k) b [] []) i = (rawSlot s i).set k b := by
  apply List.ext_getElem
  · simp [rawSlot]
  · intro n left right
    rw [List.getElem_set]
    simp only [rawSlot, Region.read_getElem, damage, Region.store]
    by_cases here : k = n
    · rw [if_pos here, if_pos (by omega)]
    · rw [if_neg here, if_neg (by omega)]

/-- No other slot has the byte. -/
theorem rawSlot_kept (inside : k < fsDescSize) (other : j ≠ i) :
    rawSlot (damage s ((descOffset i).toNat + k) b [] []) j = rawSlot s j := by
  refine Region.read_congr fun n bound => ?_
  have apart : j.toNat ≠ i.toNat := fun same => other (UInt16.toNat_inj.mp same)
  rw [fsDescSize] at inside bound
  simp only [damage, Region.store, descOffset_toNat]
  rw [if_neg (by omega)]

end Slots

/-- A descriptor that is damaged in one byte is reported as corrupt, its slot is not given
out and no other slot reads differently, unless the byte is the type and says free now. -/
theorem damaged_descriptor_reported_iff {eepromSize flashSize : UInt32} {booted : Card}
    (boots : scosInit (blankCard eepromSize flashSize) = (.ok, booted)) (events : List LifeEvent) {i : UInt16}
    {d : FsDescriptor} (live : fileAt (life booted events).store i = some d) {k : Nat} (inside : k < fsDescSize)
    {b : UInt8} (changed : b ≠ (life booted events).store.hal.nvm.eeprom.byte ((descOffset i).toNat + k)) :
    let s := (life booted events).store
    let damaged := damage s ((descOffset i).toNat + k) b [] []
    ((fsStoreReadDesc i damaged).1 = .error .corrupt ∧ (fsStoreFindFreeSlot damaged).1 ≠ .ok i ∧
        ∀ j, j ≠ i → (fsStoreReadDesc j damaged).1 = (fsStoreReadDesc j s).1) ↔
      ¬ (k = 2 ∧ b = 0xFF) := by
  intro s damaged
  obtain ⟨t, serving⟩ := booted_serving boots events
  have mapped : Mapped s := serving.live.ready.mapped
  have mapped' : Mapped damaged := damage_mapped mapped _ b
  rw [fileAt_ready serving.live.ready] at live
  have bound := t.bounded i d live
  have size : (rawSlot s i).length = fsDescSize := by simp [rawSlot]
  have decoded : decodeDesc s.hal.nvm.flash.size (rawSlot s i) = .ok d := by
    have read := readDesc_live serving.live.ready live
    rw [readDesc_mapped mapped, if_pos bound] at read
    exact congrArg Prod.fst read
  have differs : b ≠ (rawSlot s i)[k] := by
    simp only [rawSlot, Region.read_getElem]
    exact changed
  obtain ⟨free, result⟩ := decodeDesc_damaged size decoded (by omega) differs
  rw [← rawSlot_damaged i k] at free result
  have read : (fsStoreReadDesc i damaged).1 = .error (if k = 2 ∧ b = 0xFF then .notFound else .corrupt) := by
    rw [readDesc_mapped mapped', if_pos bound]
    exact result
  constructor
  · rintro ⟨corrupt, _⟩ erased
    rw [read, if_pos erased] at corrupt
    cases corrupt
  · intro intact
    refine ⟨by rw [read, if_neg intact], fun given => ?_, fun j other => ?_⟩
    · obtain ⟨slot, found, raw, _⟩ := findFreeSlot_mapped mapped'
      rw [found] at given
      obtain rfl := Except.ok.inj given
      exact intact (free.mp (raw (FileTree.live_ne_invalid live)).2)
    · rw [readDesc_mapped mapped', readDesc_mapped mapped, rawSlot_kept inside other]
      rfl

/-- The first byte of the identifier of EF 2F00. -/
theorem damaged_descriptor_reported_iff_identifier : ∃ booted, scosInit (blankCard 656 112) = (.ok, booted) ∧
    (fsStoreReadDesc 1 (damage (life booted []).store ((descOffset 1).toNat + 0) 0x00 [] [])).1 = .error .corrupt := by
  obtain ⟨booted, boots⟩ := small_chip_boots
  have held : (fileAt (scosInit (blankCard 656 112)).2.store 1).isSome = true ∧
      0x00 ≠ (scosInit (blankCard 656 112)).2.store.hal.nvm.eeprom.byte ((descOffset 1).toNat + 0) := by decide +kernel
  rw [boots] at held
  obtain ⟨d, live⟩ := Option.isSome_iff_exists.mp held.1
  exact ⟨booted, boots, ((damaged_descriptor_reported_iff boots [] live (by decide) held.2).mpr (by simp)).1⟩

/-- The type byte of EF 2F00 set to FF: the file is gone without a report, and its slot is given out. -/
theorem erased_type_frees_slot :
    let s := (scosInit (blankCard 656 112)).2.store
    let damaged := damage s ((descOffset 1).toNat + 2) 0xFF [] []
    (fileAt s 1).map (·.fileId) = some 0x2F00 ∧ s.hal.nvm.eeprom.byte ((descOffset 1).toNat + 2) ≠ 0xFF ∧
      (fsStoreReadDesc 1 damaged).1 = .error .notFound ∧ (fsStoreFindFreeSlot damaged).1 = .ok 1 := by
  decide +kernel

end CardOs.CorruptionProofs
