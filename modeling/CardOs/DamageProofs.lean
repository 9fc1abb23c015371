import CardOs.CardSafety

/-! One changed byte of EEPROM under a mountable image. Only a missing magic makes
`fs_init` write, so the bytes that decide between reporting and formatting are
the four bytes of the magic, which no CRC is asked about first. -/
namespace CardOs.DamageProofs
open CardOs.Library CardOs.Library.Action CardOs.FsTypes CardOs.HalNvm CardOs.FsStore CardOs.FsStoreProofs CardOs.Fs
open CardOs.FsProofs CardOs.FsInitProofs CardOs.Kernel CardOs.CardSafety

/-- The store with one byte of EEPROM changed, over a device that will fail as
planned. -/
def damage (s : Store) (p : Nat) (b : UInt8) (readFaults : List Bool) (writeFaults : List WriteFault) : Store :=
  { s with hal := { s.hal with
      nvm := { s.hal.nvm with eeprom := s.hal.nvm.eeprom.store p b }, readFaults, writeFaults } }

/-- No memory differs and no write was even requested. -/
def Untouched (s s' : Store) : Prop := s'.hal.nvm = s.hal.nvm ∧ s'.hal.writes = s.hal.writes

section Init
variable {s : Store}

/-- What a write would change. -/
private def writable (s : Store) : Nvm × Nat := (s.hal.nvm, s.hal.writes)

private theorem halRead_keeps (region : NvmRegion) (offset : UInt32) (len : Nat) (onError : FsError) :
    Keeps (liftHal onError (halNvmRead region offset len)) writable := by
  have kept : ∀ hal, (halNvmRead region offset len hal).2.nvm = hal.nvm ∧
      (halNvmRead region offset len hal).2.writes = hal.writes := by
    intro hal
    have plan : (nextRead hal).2.nvm = hal.nvm ∧ (nextRead hal).2.writes = hal.writes := by
      unfold nextRead
      split
      · exact ⟨rfl, rfl⟩
      · exact ⟨rfl, rfl⟩
    unfold halNvmRead
    split
    · exact ⟨rfl, rfl⟩
    split
    · exact ⟨rfl, rfl⟩
    rcases next : nextRead hal with ⟨failed, hal'⟩
    rw [next] at plan
    cases failed with
    | true => exact plan
    | false => exact plan
  intro s
  obtain ⟨nvm, writes⟩ := kept s.hal
  rcases ran : halNvmRead region offset len s.hal with ⟨_ | bytes, hal⟩
  · rw [liftHal_error ran]
    simp_all [writable]
  · rw [liftHal_ok ran]
    simp_all [writable]

private theorem mount_keeps : Keeps fsStoreMount writable := by
  refine keeps_bind (keeps_update fun _ => rfl) fun _ => keeps_bind (halRead_keeps _ _ _ _) fun raw => ?_
  repeat' split
  all_goals first
    | exact keeps_fail
    | skip
  refine keeps_state_bind fun s => ?_
  repeat' split
  all_goals first
    | exact keeps_fail
    | exact keeps_update fun _ => rfl

private theorem readDesc_keeps (i : UInt16) : Keeps (fsStoreReadDesc i) writable := by
  refine keeps_bind (keeps_state_bind fun s => ?_) fun raw => keeps_state_bind fun s => ?_
  · repeat' split
    all_goals first
      | exact keeps_fail
      | exact halRead_keeps _ _ _ _
  · split
    · exact keeps_pure
    · exact keeps_fail

/-- Whatever an image with a filesystem holds, initialising it writes nothing. -/
theorem fsInit_untouched (formatted : (fsStoreMount s).1 ≠ .error .notFormatted) :
    Untouched s (fsInit s).2 := by
  have mount := mount_keeps s
  have root := readDesc_keeps fsRootIndex (fsStoreMount s).2
  have kept : writable (fsInit s).2 = writable s := by
    unfold fsInit
    rw [attempt_bind]
    rcases result : (fsStoreMount s).1 with e | u
    · cases e
      case notFormatted => exact absurd result formatted
      all_goals exact mount
    · simp only [attempt_bind]
      rcases (fsStoreReadDesc fsRootIndex (fsStoreMount s).2).1 with e | mf
      · cases e
        all_goals exact root.trans mount
      · dsimp only
        split
        · exact root.trans mount
        · exact root.trans mount
  exact ⟨congrArg Prod.fst kept, congrArg Prod.snd kept⟩

/-- Whether the next read is planned to fail. -/
def readFails (hal : Hal) : Prop := hal.readFaults.head? = some true

private theorem superblock_cases (hal : Hal) :
    (fsSuperblockSize ≤ hal.nvm.eeprom.size.toNat ∧ ¬ readFails hal ∧ ∃ hal',
        halNvmRead .eeprom 0 fsSuperblockSize hal = (.ok (hal.nvm.eeprom.read 0 fsSuperblockSize), hal')) ∨
      ((hal.nvm.eeprom.size.toNat < fsSuperblockSize ∨ readFails hal) ∧
        ∃ e hal', halNvmRead .eeprom 0 fsSuperblockSize hal = (.error e, hal')) := by
  unfold halNvmRead readFails nextRead
  rw [if_neg (by decide)]
  by_cases large : fsSuperblockSize ≤ hal.nvm.eeprom.size.toNat
  · have inside : inRange (halNvmSize hal .eeprom) 0 fsSuperblockSize = true := by
      refine inRange_iff.mpr ?_
      rwa [show (0 : UInt32).toNat = 0 from rfl, Nat.zero_add]
    rw [inside]
    rcases hal.readFaults with _ | ⟨_ | _, rest⟩
    · exact .inl ⟨large, by simp, _, rfl⟩
    · exact .inl ⟨large, by simp, _, rfl⟩
    · exact .inr ⟨.inr rfl, _, _, rfl⟩
  · have outside : inRange (halNvmSize hal .eeprom) 0 fsSuperblockSize = false := by
      refine Bool.eq_false_iff.mpr fun inside => large ?_
      have whole := inRange_iff.mp inside
      rwa [show (0 : UInt32).toNat = 0 from rfl, Nat.zero_add] at whole
    rw [outside]
    exact .inr ⟨.inl (Nat.not_le.mp large), _, _, rfl⟩

/-- Mounting reports an error when the superblock cannot be read; else the magic
alone tells an image from an unformatted chip. -/
theorem mount_cases (s : Store) :
    ((s.hal.nvm.eeprom.size.toNat < fsSuperblockSize ∨ readFails s.hal) ∧ (fsStoreMount s).1 = .error .nvm) ∨
      (fsSuperblockSize ≤ s.hal.nvm.eeprom.size.toNat ∧ ¬ readFails s.hal ∧
        ((s.hal.nvm.eeprom.read 0 4 ≠ fsMagic ∧ (fsStoreMount s).1 = .error .notFormatted) ∨
          (s.hal.nvm.eeprom.read 0 4 = fsMagic ∧ (fsStoreMount s).1 ≠ .error .notFormatted))) := by
  rcases superblock_cases s.hal with ⟨large, readable, hal', read⟩ | ⟨unreadable, e, hal', read⟩
  · refine .inr ⟨large, readable, ?_⟩
    rw [show fsStoreMount s = _ from update_bind.trans (bind_ok (liftHal_ok (s := unmount s) read)),
      Region.take_read 4 (by decide)]
    by_cases magic : s.hal.nvm.eeprom.read 0 4 = fsMagic
    · rw [if_neg (not_not.mpr magic)]
      refine .inr ⟨magic, ?_⟩
      repeat' split
      all_goals simp
      repeat' split
      all_goals simp
    · rw [if_pos magic]
      exact .inl ⟨magic, rfl⟩
  · rw [show fsStoreMount s = _ from update_bind.trans (bind_error (liftHal_error (s := unmount s) read))]
    exact .inl ⟨unreadable, rfl⟩

/-- An image that mounts starts with the magic. -/
theorem mounts_magic (accepted : (fsStoreMount s).1 = .ok ()) :
    fsSuperblockSize ≤ s.hal.nvm.eeprom.size.toNat ∧ s.hal.nvm.eeprom.read 0 4 = fsMagic := by
  rcases mount_cases s with ⟨_, failed⟩ | ⟨large, _, ⟨_, failed⟩ | ⟨magic, _⟩⟩
  · rw [failed] at accepted
    cases accepted
  · rw [failed] at accepted
    cases accepted
  · exact ⟨large, magic⟩

end Init

section Requests
variable {s : Store}

/-- No write request is taken back. -/
def Requested (s s' : Store) : Prop := s.hal.writes ≤ s'.hal.writes

instance : Std.Refl Requested := ⟨fun s => Nat.le_refl s.hal.writes⟩

instance : Trans Requested Requested Requested := ⟨Nat.le_trans⟩

private theorem requested_of {x : FsM α} (counts : ∀ s, s.hal.writes ≤ (x s).2.hal.writes) :
    Moves x s Requested Requested := by
  have here := counts s
  exact ⟨fun e s' ran => by rwa [ran] at here, fun a s' ran => by rwa [ran] at here⟩

/-- Every write request is counted, whatever becomes of it. -/
private theorem halNvmWrite_counts (region : NvmRegion) (offset : UInt32) (raw : List UInt8) (e : FsError)
    (s : Store) : (liftHal e (halNvmWrite region offset raw) s).2.hal.writes = s.hal.writes + 1 := by
  have counted : (halNvmWrite region offset raw s.hal).2.writes = s.hal.writes + 1 := by
    unfold halNvmWrite nextWrite applyWrite
    dsimp only
    split
    · rfl
    split
    · rfl
    rcases s.hal.writeFaults with _ | ⟨_ | _ | _, rest⟩ <;> rfl
  rcases ran : halNvmWrite region offset raw s.hal with ⟨failed | u, hal⟩
  · rw [ran] at counted
    rw [liftHal_error ran]
    exact counted
  · rw [ran] at counted
    rw [liftHal_ok ran]
    exact counted

private theorem write_requested (region : NvmRegion) (offset : UInt32) (raw : List UInt8) (e : FsError)
    (s : Store) : Moves (liftHal e (halNvmWrite region offset raw)) s Requested Requested :=
  requested_of fun s => by rw [halNvmWrite_counts]; exact Nat.le_succ _

private theorem sync_requested (e : FsError) (s : Store) : Moves (liftHal e halNvmSync) s Requested Requested := by
  refine requested_of fun s => Nat.le_of_eq ?_
  have counted : (halNvmSync s.hal).2.writes = s.hal.writes := by
    unfold halNvmSync nextWrite
    rcases s.hal.writeFaults with _ | ⟨_ | _ | _, rest⟩ <;> rfl
  rcases ran : halNvmSync s.hal with ⟨failed | u, hal⟩
  · rw [ran] at counted
    rw [liftHal_error ran]
    exact counted.symm
  · rw [ran] at counted
    rw [liftHal_ok ran]
    exact counted.symm

private theorem writeDurably_requested (region : NvmRegion) (offset : UInt32) (raw : List UInt8) (e : FsError)
    (s : Store) : Moves (writeDurably region offset raw e) s Requested Requested :=
  moves_bind (write_requested _ _ _ _ s) fun _ s' _ => sync_requested _ s'

private theorem update_requested {f : Store → Store} (same : ∀ s, (f s).hal = s.hal) (s : Store) :
    Moves (update f : FsM Unit) s Requested Requested :=
  requested_of fun s => by rw [run_update, same]

private theorem writeDesc_requested (i : UInt16) (d : FsDescriptor) (s : Store) :
    Moves (fsStoreWriteDesc i d) s Requested Requested := by
  apply moves_state_bind
  repeat' split
  all_goals first
    | exact moves_fail
    | exact writeDurably_requested _ _ _ _ s

private theorem placeFile_requested (slot : UInt16) (d : FsDescriptor) (s : Store) :
    Moves (placeFile slot d) s Requested Requested := by
  refine moves_bind ?_ fun _ s' _ => writeDesc_requested _ _ s'
  unfold allocateFor
  split
  · refine moves_map (moves_state_bind ?_) _
    repeat' split
    · exact moves_fail
    · exact moves_fail
    · exact moves_bind (update_requested (by intro; rfl) s) fun _ s' _ =>
        moves_map (moves_state_bind (writeDurably_requested _ _ _ _ s')) _
  · exact moves_pure

private theorem writeLayout_requested (layout : List LayoutEntry) (s : Store) :
    Moves (writeLayout layout) s Requested Requested := by
  induction layout generalizing s with
  | nil => exact moves_pure
  | cons entry rest ih => exact moves_bind (placeFile_requested _ _ s) fun _ s' _ => ih s'

private theorem eraseSlots_requested (slots : List Nat) (s : Store) :
    Moves (eraseSlots slots) s Requested Requested := by
  induction slots generalizing s with
  | nil => exact moves_pure
  | cons i rest ih => exact moves_bind (write_requested _ _ _ _ s) fun _ s' _ => ih s'

private theorem bind_requested {x : FsM α} {f : α → FsM β} {n : Nat} (first : n ≤ (x s).2.hal.writes)
    (rest : ∀ a s', Moves (f a) s' Requested Requested) : n ≤ ((x >>= f) s).2.hal.writes := by
  rcases ran : x s with ⟨e | a, s'⟩
  · rw [bind_error ran]
    rwa [ran] at first
  · rw [bind_ok ran]
    rw [ran] at first
    rcases went : f a s' with ⟨e | b, s''⟩
    · exact Nat.le_trans first ((rest a s').1 e s'' went)
    · exact Nat.le_trans first ((rest a s').2 b s'' went)

/-- A format that fits in EEPROM requests writes. -/
theorem personalise_requests (fits : 656 ≤ s.hal.nvm.eeprom.size.toNat) :
    s.hal.writes < (fsPersonalise s).2.hal.writes := by
  have room : ¬ descOffset fsMaxFiles > halNvmSize s.hal .eeprom := by
    refine UInt32.not_lt.mpr (UInt32.le_iff_toNat_le.mpr ?_)
    rw [descOffset_toNat]
    exact fits
  have erase : s.hal.writes + 1 ≤ (eraseSlots (List.range fsMaxFiles.toNat) s).2.hal.writes :=
    bind_requested (Nat.le_of_eq (halNvmWrite_counts _ _ _ _ s).symm) fun _ s' => eraseSlots_requested _ s'
  refine bind_requested ?_ fun _ s' => moves_bind (writeDesc_requested _ _ s') fun _ s' _ =>
    writeLayout_requested _ s'
  unfold fsStoreFormat
  rw [state_bind, if_neg room]
  refine bind_requested erase fun _ s' => moves_bind (update_requested (by intro; rfl) s') fun _ s' _ =>
    moves_bind (moves_state_bind (writeDurably_requested _ _ _ _ s')) fun _ s' _ =>
      update_requested (by intro; rfl) s'

end Requests

section Damage
variable {s : Store} {p : Nat} {b : UInt8} {readFaults : List Bool} {writeFaults : List WriteFault}

private theorem damage_byte (i : Nat) : (damage s p b readFaults writeFaults).hal.nvm.eeprom.byte i =
    if i = p then b else s.hal.nvm.eeprom.byte i := rfl

/-- The magic survives exactly the changes behind it. -/
private theorem damage_magic (magic : s.hal.nvm.eeprom.read 0 4 = fsMagic) (changed : b ≠ s.hal.nvm.eeprom.byte p) :
    (damage s p b readFaults writeFaults).hal.nvm.eeprom.read 0 4 = fsMagic ↔ 4 ≤ p := by
  rw [← magic]
  constructor
  · intro same
    by_contra inside
    have byte := congrArg (List.getD · p 0) same
    simp only [Region.read_getD (Nat.not_le.mp inside), damage_byte, Nat.zero_add, if_true] at byte
    exact changed byte
  · intro outside
    refine Region.read_congr fun i inside => ?_
    rw [damage_byte, if_neg (by omega)]

private theorem init_unformatted (unformatted : (fsStoreMount s).1 = .error .notFormatted) :
    Untouched s (fsInit s).2 ↔ s.hal.nvm.eeprom.size.toNat < 656 := by
  have kept := mount_keeps s
  have init : fsInit s = fsPersonalise (fsStoreMount s).2 := by
    rw [fsInit, attempt_bind, unformatted]
  rw [init]
  generalize (fsStoreMount s).2 = s₁ at kept ⊢
  obtain ⟨nvm, writes⟩ : s₁.hal.nvm = s.hal.nvm ∧ s₁.hal.writes = s.hal.writes := by
    simpa [writable] using kept
  by_cases small : s.hal.nvm.eeprom.size.toNat < 656
  · rw [fsPersonalise_small (by rwa [nvm])]
    exact iff_of_true ⟨nvm, writes⟩ small
  · refine iff_of_false ?_ small
    rintro ⟨_, requests⟩
    have more := personalise_requests (s := s₁) (by rw [nvm]; exact Nat.not_lt.mp small)
    rw [requests, writes] at more
    exact Nat.lt_irrefl _ more

/-- Initialising an image that mounted before one byte of it changed writes
nothing exactly when that byte is not one of the magic's, when EEPROM is too
small to be formatted at all, or when the superblock cannot be read. -/
theorem one_damaged_byte_writes_nothing_iff (accepted : (fsStoreMount s).1 = .ok ())
    (changed : b ≠ s.hal.nvm.eeprom.byte p) (readFaults : List Bool) (writeFaults : List WriteFault) :
    Untouched (damage s p b readFaults writeFaults) (fsInit (damage s p b readFaults writeFaults)).2 ↔
      4 ≤ p ∨ s.hal.nvm.eeprom.size.toNat < 656 ∨ readFaults.head? = some true := by
  obtain ⟨large, magic⟩ := mounts_magic accepted
  have survives := @damage_magic s p b readFaults writeFaults magic changed
  rcases mount_cases (damage s p b readFaults writeFaults) with
    ⟨unreadable, failed⟩ | ⟨_, readable, ⟨lost, unformatted⟩ | ⟨kept, formatted⟩⟩
  · refine iff_of_true (fsInit_untouched (by rw [failed]; simp)) (.inr (.inr ?_))
    exact unreadable.resolve_left (Nat.not_lt.mpr large)
  · rw [init_unformatted unformatted]
    constructor
    · exact fun small => .inr (.inl small)
    · rintro (outside | small | fails)
      · exact absurd (survives.mpr outside) lost
      · exact small
      · exact absurd fails readable
  · exact iff_of_true (fsInit_untouched formatted) (.inl (survives.mp kept))

end Damage

/-- A personalised chip on which DF 1234 has been created. -/
def withDf : Store :=
  (run (blankCard 656 112)
    [.init, .apdu (some [0x00, 0xE0, 0x00, 0x00, 0x07, 0x82, 0x01, 0x38, 0x83, 0x02, 0x12, 0x34]) 258]).store

private theorem withDf_mounts :
    (fsStoreMount withDf).1 = .ok () ∧ withDf.hal.nvm.eeprom.byte 15 ≠ 0x00 := by
  decide +kernel

theorem one_damaged_byte_writes_nothing_iff_crc_byte :
    Untouched (damage withDf 15 0x00 [] []) (fsInit (damage withDf 15 0x00 [] [])).2 ↔
      4 ≤ 15 ∨ withDf.hal.nvm.eeprom.size.toNat < 656 ∨ ([] : List Bool).head? = some true := by
  obtain ⟨mounts, changed⟩ := withDf_mounts
  exact one_damaged_byte_writes_nothing_iff mounts changed.symm [] []

/-- Clearing one bit of the magic makes the next boot format the card: it
succeeds, and the created file is gone. -/
theorem damaged_magic_wipes_card :
    (fsStoreMount withDf).1.toOption = some () ∧ withDf.hal.nvm.eeprom.byte 0 = 0x53 ∧
      (fileAt withDf 5).map (·.fileId) = some 0x1234 ∧
      (fsInit (damage withDf 0 0x52 [] [])).1.toOption = some () ∧
      (fsInit (damage withDf 0 0x52 [] [])).2.hal.writes > (damage withDf 0 0x52 [] []).hal.writes ∧
      fileAt (fsInit (damage withDf 0 0x52 [] [])).2 5 = none := by
  decide +kernel

end CardOs.DamageProofs
