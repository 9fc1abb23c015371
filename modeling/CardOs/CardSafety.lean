import CardOs.CardProofs

/-! What always holds on the card, stated on what the store itself reads back:
the descriptor table is a tree, file data does not overlap, and the selection
names live files. -/
namespace CardOs.CardSafety
open CardOs.Library CardOs.Library.Action CardOs.Apdu CardOs.FsTypes CardOs.HalNvm CardOs.FsStore
open CardOs.FsStoreProofs CardOs.Fs CardOs.FileTree CardOs.FsProofs CardOs.FsChangeProofs CardOs.FsInitProofs
open CardOs.FileCommands CardOs.Kernel CardOs.AnswerProofs CardOs.CommandProofs CardOs.CardProofs

/-- The live descriptor of a slot, as the store reads it. -/
def fileAt (s : Store) (i : UInt16) : Option FsDescriptor := (fsStoreReadDesc i s).1.toOption

/-- The `data_top` field of the superblock in EEPROM. -/
def storedTop (nvm : Nvm) : UInt32 := getU32 (nvm.eeprom.read 0 fsSuperblockSize) 8

section Ready
variable {s : Store} {t : FileTree}

theorem fileAt_unmounted (unmounted : s.sb.mounted = false) (i : UInt16) : fileAt s i = none := by
  simp [fileAt, fsStoreReadDesc, descRawRead, Action.run_bind, unmounted, Except.toOption]

theorem fileAt_mounted {table : Table} {top : UInt32} (mounted : Mounted s table top)
    (bounded : ∀ i d, table i = some d → i < fsMaxFiles) : fileAt s = table := by
  funext i
  unfold fileAt
  rw [readDesc_eq mounted i, lookup]
  cases live : table i with
  | none => split <;> rfl
  | some d =>
    rw [if_pos (bounded i d live)]
    rfl

theorem fileAt_ready (ready : Ready s t) : fileAt s = t.table := fileAt_mounted ready t.bounded

theorem storedTop_ready (ready : Ready s t) : storedTop s.hal.nvm = t.top := by
  unfold storedTop
  rw [ready.holds.superblock]
  exact BigEndian.word32_bytes32 t.top

end Ready

/-- The descriptor table is a tree of files under the master file in slot 0. -/
structure WellFormed (s : Store) : Prop where
  root : ∃ mf, fileAt s 0 = some mf ∧ mf.fileId = 0x3F00 ∧ mf.type = .mf ∧ mf.lifecycle = fsLcActivated ∧
    mf.parent = 0xFFFF
  onlyMf : ∀ i d, fileAt s i = some d → d.type = .mf → i = 0
  kinds : ∀ i d, fileAt s i = some d → i ≠ 0 → d.type = .df ∨ d.type = .efTransparent
  parents : ∀ i d, fileAt s i = some d → i ≠ 0 →
    ∃ p, fileAt s d.parent = some p ∧ (p.type = .mf ∨ p.type = .df)
  rooted : ∀ i d, fileAt s i = some d → ParentForest.Rooted (parentOf (fileAt s)) 0 i
  uniqueIds : ∀ i j d e, fileAt s i = some d → fileAt s j = some e → d.parent = e.parent →
    d.fileId = e.fileId → i = j
  uniqueSfis : ∀ i j d e, fileAt s i = some d → fileAt s j = some e → d.type = .efTransparent →
    e.type = .efTransparent → d.parent = e.parent → d.sfi = e.sfi → d.sfi ≠ 0 → i = j
  sizes : ∀ i d, fileAt s i = some d → d.type = .efTransparent → 1 ≤ d.size ∧ d.size ≤ 32767
  ids : ∀ i d, fileAt s i = some d → i ≠ 0 → d.fileId ≠ 0x3F00 ∧ d.fileId ≠ 0xFFFF
  intact : ∀ i, (fsStoreReadDesc i s).1 ≠ .error .corrupt

/-- File data does not overlap and lies below the stored top, which is below the
mirrored one and the end of FLASH. -/
structure DataApart (s : Store) : Prop where
  disjoint : ∀ i j d e, fileAt s i = some d → fileAt s j = some e → i ≠ j → d.type = .efTransparent →
    e.type = .efTransparent →
    d.dataOffset.toNat + d.size.toNat ≤ e.dataOffset.toNat ∨
      e.dataOffset.toNat + e.size.toNat ≤ d.dataOffset.toNat
  below : ∀ i d, fileAt s i = some d → d.type = .efTransparent →
    d.dataOffset.toNat + d.size.toNat ≤ (storedTop s.hal.nvm).toNat
  mirror : storedTop s.hal.nvm ≤ s.sb.dataTop
  inside : storedTop s.hal.nvm ≤ s.hal.nvm.flash.size

/-- The selection names live, activated files that belong together. -/
structure SelectionOk (card : Card) : Prop where
  df : ∃ d, fileAt card.store card.kernel.sel.curDf = some d ∧ (d.type = .mf ∨ d.type = .df) ∧
    d.lifecycle = fsLcActivated
  ef : card.kernel.sel.curEf = fsInvalidIndex ∨
    ∃ d, fileAt card.store card.kernel.sel.curEf = some d ∧ d.type = .efTransparent ∧
      d.lifecycle = fsLcActivated ∧ d.parent = card.kernel.sel.curDf

section Views
variable {s : Store} {t : FileTree} {d : FsDescriptor}

private theorem isDf_cases (isDf : fsIsDf d = true) : d.type = .mf ∨ d.type = .df := by
  rcases Bool.or_eq_true_iff.mp isDf with df | mf
  · exact .inr (of_decide_eq_true df)
  · exact .inl (of_decide_eq_true mf)

theorem ready_wellFormed (ready : Ready s t) : WellFormed s where
  root := by
    rw [fileAt_ready ready]
    exact ⟨factoryMf, t.root, rfl, rfl, rfl, rfl⟩
  onlyMf i d live mf := by
    rw [fileAt_ready ready] at live
    exact mf_is_root live mf
  kinds i d live other := by
    rw [fileAt_ready ready] at live
    exact (t.file i d live other).kind
  parents i d live other := by
    rw [fileAt_ready ready] at live ⊢
    obtain ⟨p, parentLive, isDf⟩ := (t.file i d live other).parent
    exact ⟨p, parentLive, isDf_cases isDf⟩
  rooted i d live := by
    rw [fileAt_ready ready] at live ⊢
    exact t.rooted i d live
  uniqueIds i j d e liveD liveE siblings same := by
    rw [fileAt_ready ready] at liveD liveE
    exact t.ids i j d e liveD liveE ⟨siblings, same⟩
  uniqueSfis i j d e liveD liveE efD efE siblings same named := by
    rw [fileAt_ready ready] at liveD liveE
    exact t.sfis i j d e liveD liveE ⟨efD, efE, siblings, same, named⟩
  sizes i d live ef := by
    rw [fileAt_ready ready] at live
    exact (t.file i d live (ne_root live (by simp [ef]))).size ef
  ids i d live other := by
    rw [fileAt_ready ready] at live
    have free := (t.file i d live other).id
    unfold fidIsReserved at free
    rw [Bool.or_eq_false_iff, decide_eq_false_iff_not, decide_eq_false_iff_not] at free
    exact free
  intact i := by
    rw [readDesc_eq ready i]
    exact lookup_not_corrupt

private theorem extentOf_ef {i : UInt16} (live : t.table i = some d) (ef : d.type = .efTransparent) :
    extentOf t.table i = some (d.dataOffset.toNat, d.dataOffset.toNat + d.size.toNat) := by
  rw [extentOf, live, Option.bind_some, if_pos ef]

theorem ready_dataApart (ready : Ready s t) : DataApart s where
  disjoint i j d e liveD liveE different efD efE := by
    rw [fileAt_ready ready] at liveD liveE
    by_contra overlap
    obtain ⟨left, right⟩ := not_or.mp overlap
    exact different (t.packed.apart i j _ _ (extentOf_ef liveD efD) (extentOf_ef liveE efE)
      ⟨Nat.not_le.mp left, Nat.not_le.mp right⟩)
  below i d live ef := by
    rw [fileAt_ready ready] at live
    rw [storedTop_ready ready]
    exact t.packed.below i _ (extentOf_ef live ef)
  mirror := by
    rw [storedTop_ready ready]
    exact ready.mirror
  inside := by
    rw [storedTop_ready ready]
    exact ready.holds.topInside

theorem live_selectionOk {card : Card} (live : Live t card) (ef : EfSelected t card.kernel.sel) :
    SelectionOk card where
  df := by
    rw [fileAt_ready live.ready]
    obtain ⟨d, dfLive, isDf, usable⟩ := live.df
    exact ⟨d, dfLive, isDf_cases isDf, of_decide_eq_true usable⟩
  ef := by
    rw [fileAt_ready live.ready]
    rcases ef with none | ⟨d, efLive, isEf, usable, under⟩
    · exact .inl none
    · exact .inr ⟨d, efLive, of_decide_eq_true isEf, of_decide_eq_true usable, under⟩

end Views

/-- From a booted blank chip, the table is a well-formed tree after every run. -/
theorem table_stays_well_formed {eepromSize flashSize : UInt32} {card : Card}
    (booted : scosInit (blankCard eepromSize flashSize) = (.ok, card)) (events : List CardEvent) :
    WellFormed (run card events).store := by
  obtain ⟨t, live, _⟩ := blank_boots booted
  obtain ⟨t', live', _⟩ := run_live live events
  exact ready_wellFormed live'.ready

theorem large_chip_boots {eepromSize flashSize : UInt32} (large : 656 ≤ eepromSize.toNat ∧ 112 ≤ flashSize.toNat) :
    ∃ card, scosInit (blankCard eepromSize flashSize) = (.ok, card) := by
  have ok : (scosInit (blankCard eepromSize flashSize)).1 = .ok := blank_boots_iff.mpr large
  generalize scosInit (blankCard eepromSize flashSize) = booted at ok ⊢
  obtain ⟨status, card⟩ := booted
  obtain rfl : status = .ok := ok
  exact ⟨card, rfl⟩

theorem small_chip_boots : ∃ card, scosInit (blankCard 656 112) = (.ok, card) := large_chip_boots (by decide)

theorem table_stays_well_formed_after_create :
    ∃ card, scosInit (blankCard 656 112) = (.ok, card) ∧ WellFormed (run card
      [.apdu (some [0x00, 0xE0, 0x00, 0x00, 0x07, 0x82, 0x01, 0x38, 0x83, 0x02, 0x12, 0x34]) 258, .init]).store := by
  obtain ⟨card, booted⟩ := small_chip_boots
  exact ⟨card, booted, table_stays_well_formed booted _⟩

/-- From a booted blank chip, the selection names live files after every run. -/
theorem selection_stays_valid {eepromSize flashSize : UInt32} {card : Card}
    (booted : scosInit (blankCard eepromSize flashSize) = (.ok, card)) (events : List CardEvent) :
    SelectionOk (run card events) := by
  obtain ⟨t, live, reliable, ef⟩ := blank_boots booted
  obtain ⟨t', live', kept⟩ := run_live live events
  exact live_selectionOk live' ((kept reliable).2 ef)

theorem selection_stays_valid_after_delete :
    ∃ card, scosInit (blankCard 656 112) = (.ok, card) ∧ SelectionOk (run card
      [.apdu (some [0x00, 0xA4, 0x00, 0x0C, 0x02, 0x2F, 0x00]) 258,
        .apdu (some [0x00, 0xE4, 0x00, 0x00, 0x02, 0x2F, 0x00]) 258]) := by
  obtain ⟨card, booted⟩ := small_chip_boots
  exact ⟨card, booted, selection_stays_valid booted _⟩

section Faults
variable {s s' : Store}

private theorem personalised_fits (personalised : fsPersonalise s = (.ok (), s')) :
    656 ≤ s.hal.nvm.eeprom.size.toNat := by
  obtain ⟨_, s₁, formatted, _⟩ := bind_eq_ok personalised
  unfold fsStoreFormat at formatted
  rw [state_bind] at formatted
  split at formatted
  · cases formatted
  · rename_i fits
    exact UInt32.le_iff_toNat_le.mp (UInt32.not_lt.mp fits)

/-- From a freshly personalised card, whatever writes and barriers the device
then refuses, file data stays apart after every run. -/
theorem data_stays_apart_under_faults (reads : s.hal.readFaults = []) (writes : s.hal.writeFaults = [])
    (personalised : fsPersonalise s = (.ok (), s')) (faults : List WriteFault) (events : List CardEvent) :
    DataApart (run ⟨⟨.operational, 0, fsSelectionReset⟩,
      { s' with hal := { s'.hal with writeFaults := faults } }⟩ events).store := by
  obtain ⟨result, s₁, t, ran, ready, _⟩ :=
    fsPersonalise_personalises reads writes (personalised_fits personalised)
  rw [personalised] at ran
  obtain rfl : s' = s₁ := (Prod.mk.inj ran).2
  have live : Live t ⟨⟨.operational, 0, fsSelectionReset⟩,
      { s' with hal := { s'.hal with writeFaults := faults } }⟩ :=
    ⟨⟨ready.reads, ready.mounted, ready.maxFiles, ready.holds, ready.mirror, ready.mirrorInside⟩,
      (reset_selected t).1⟩
  obtain ⟨t', live', _⟩ := run_live live events
  exact ready_dataApart live'.ready

end Faults

private theorem small_chip_personalises :
    ∃ s', fsPersonalise (blankCard 656 112).store = (.ok (), s') := by
  obtain ⟨result, s', t, ran, _, _, _, _, room⟩ :=
    @fsPersonalise_personalises (blankCard 656 112).store rfl rfl (by decide)
  exact ⟨s', by rw [ran, room.mp (by decide)]⟩

theorem data_stays_apart_when_create_is_torn :
    ∃ s', fsPersonalise (blankCard 656 112).store = (.ok (), s') ∧
      DataApart (run ⟨⟨.operational, 0, fsSelectionReset⟩,
        { s' with hal := { s'.hal with writeFaults := [.none, .lost, .stored] } }⟩
        [.apdu (some [0x00, 0xE4, 0x00, 0x00, 0x02, 0x2F, 0x00]) 258, .powerCycle,
          .apdu (some [0x00, 0xE0, 0x00, 0x00, 0x07, 0x82, 0x01, 0x38, 0x83, 0x02, 0x12, 0x34]) 258]).store := by
  obtain ⟨s', personalised⟩ := small_chip_personalises
  exact ⟨s', personalised, data_stays_apart_under_faults rfl rfl personalised _ _⟩

end CardOs.CardSafety
