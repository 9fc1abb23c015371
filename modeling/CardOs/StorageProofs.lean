import CardOs.FsStoreProofs
import CardOs.Fs

/-! What the filesystem does on any storage content, tree or not. A mounted table
lies inside EEPROM (`Fits`), whatever the device fails. From there lookups and
checks only use up planned read failures (`Peeked`), and a call that stops on a
device without failures has changed nothing (`Undone`). -/
namespace CardOs.StorageProofs
open CardOs.Library CardOs.Library.Action CardOs.FsTypes CardOs.HalNvm CardOs.FsStore CardOs.FsStoreProofs CardOs.Fs

variable {s s' : Store}

/-- A mounted descriptor table lies inside EEPROM. -/
def Fits (s : Store) : Prop := s.sb.mounted = true → descOffset s.sb.maxFiles ≤ s.hal.nvm.eeprom.size

/-- The device has no failure to come. -/
def Calm (s : Store) : Prop := s.hal.readFaults = [] ∧ s.hal.writeFaults = []

/-- Nothing happened but planned read failures that were used up. -/
def Peeked (s s' : Store) : Prop :=
  Fits s → ∃ plan, plan <:+ s.hal.readFaults ∧ s' = { s with hal := { s.hal with readFaults := plan } }

/-- Nothing at all happened unless the device failed. -/
def Undone (s s' : Store) : Prop := Fits s → Fits s' ∧ (Calm s → s' = s)

def Fitting (s s' : Store) : Prop := Fits s → Fits s'

theorem Peeked.fitting (peeked : Peeked s s') : Fitting s s' := by
  intro fits
  obtain ⟨plan, _, rfl⟩ := peeked fits
  exact fits

theorem Peeked.undone (peeked : Peeked s s') : Undone s s' := by
  refine fun fits => ⟨peeked.fitting fits, fun calm => ?_⟩
  obtain ⟨plan, suffix, rfl⟩ := peeked fits
  rw [calm.1, List.suffix_nil] at suffix
  rw [suffix, ← calm.1]

instance : Std.Refl Peeked := ⟨fun s _ => ⟨s.hal.readFaults, List.suffix_rfl, rfl⟩⟩

instance : Std.Refl Fitting := ⟨fun _ => id⟩

instance : Trans Peeked Peeked Peeked where
  trans := by
    intro s₁ s₂ s₃ first second fits
    have fits₂ := first.fitting fits
    obtain ⟨plan, suffix, rfl⟩ := first fits
    obtain ⟨plan', suffix', rfl⟩ := second fits₂
    exact ⟨plan', suffix'.trans suffix, rfl⟩

/-- The store whose device will fail writes as planned. -/
def withPlan (plan : List WriteFault) (s : Store) : Store := { s with hal := { s.hal with writeFaults := plan } }

/-- A call that only looks, and at nothing that planned write failures could change. -/
abbrev Peeks (x : FsM α) (s : Store) : Prop := Looks withPlan x s Peeked

theorem Peeks.peeked {x : FsM α} {r : Except FsError α} (peeks : Peeks x s) (ran : x s = (r, s')) :
    Peeked s s' := by
  have peeked := peeks.1
  rwa [ran] at peeked

section Looking

theorem halNvmRead_peeks {hal hal' : Hal} {region : NvmRegion} {offset : UInt32} {len : Nat}
    {r : Except HalError (List UInt8)} (inside : offset.toNat + len ≤ (hal.nvm.region region).size.toNat)
    (ran : halNvmRead region offset len hal = (r, hal')) :
    ∃ plan, plan <:+ hal.readFaults ∧ hal' = { hal with readFaults := plan } := by
  unfold halNvmRead at ran
  split at ran
  · cases ran
    exact ⟨hal.readFaults, List.suffix_rfl, rfl⟩
  rw [show inRange (halNvmSize hal region) offset len = true from inRange_iff.mpr inside] at ran
  unfold nextRead at ran
  cases plan : hal.readFaults with
  | nil =>
    simp only [plan, Bool.not_true, Bool.false_eq_true, if_false] at ran
    cases ran
    exact ⟨[], List.suffix_rfl, by rw [← plan]⟩
  | cons fault rest =>
    simp only [plan, Bool.not_true, Bool.false_eq_true, if_false] at ran
    cases fault <;> cases ran <;> exact ⟨rest, List.suffix_cons _ _, rfl⟩

private theorem halNvmRead_blind (region : NvmRegion) (offset : UInt32) (len : Nat) (hal : Hal)
    (plan : List WriteFault) :
    halNvmRead region offset len { hal with writeFaults := plan } =
      ((halNvmRead region offset len hal).1, { (halNvmRead region offset len hal).2 with writeFaults := plan }) := by
  obtain ⟨nvm, reads, _, writes, rangeErrors⟩ := hal
  unfold halNvmRead halNvmSize nextRead
  dsimp only
  split
  · rfl
  split
  · rfl
  rcases reads with _ | ⟨_ | _, rest⟩ <;> rfl

private theorem liftHal_peeks {region : NvmRegion} {offset : UInt32} {len : Nat} {e : FsError}
    (inside : Fits s → offset.toNat + len ≤ (s.hal.nvm.region region).size.toNat) :
    Peeks (liftHal e (halNvmRead region offset len)) s := by
  have looks : Looks (fun plan hal => { hal with writeFaults := plan }) (halNvmRead region offset len) s.hal
      fun hal hal' => Fits s → ∃ plan, plan <:+ hal.readFaults ∧ hal' = { hal with readFaults := plan } :=
    ⟨fun fits => halNvmRead_peeks (inside fits) rfl, halNvmRead_blind region offset len s.hal⟩
  refine looks_within looks (fun _ => rfl) (fun _ _ => rfl) fun hal' moved fits => ?_
  obtain ⟨plan, suffix, rfl⟩ := moved fits
  exact ⟨plan, suffix, rfl⟩

/-- A slot below the count of a table that fits lies inside EEPROM. -/
theorem Fits.slot (fits : Fits s) (mounted : s.sb.mounted = true) {i : UInt16} (below : i < s.sb.maxFiles) :
    (descOffset i).toNat + fsDescSize ≤ s.hal.nvm.eeprom.size.toNat := slot_inside (fits mounted) below

theorem mapped_fits (mapped : Mapped s) : Fits s := fun _ => mapped.slotted.fits

theorem descRawRead_peeks (i : UInt16) (s : Store) : Peeks (descRawRead i) s := by
  apply looks_state_bind fun _ => rfl
  split
  · exact looks_fail
  rename_i mounted
  split
  · exact looks_fail
  rename_i below
  exact liftHal_peeks fun fits => fits.slot (by simpa using mounted) (UInt16.not_le.mp below)

theorem readDesc_peeks (i : UInt16) (s : Store) : Peeks (fsStoreReadDesc i) s := by
  apply looks_bind (descRawRead_peeks i s)
  intro raw s' _
  apply looks_state_bind fun _ => rfl
  split
  · exact looks_pure
  · exact looks_fail

theorem slotIsFree_peeks (i : UInt16) (s : Store) : Peeks (fsStoreSlotIsFree i) s := by
  apply looks_attempt_bind (descRawRead_peeks i s)
  rintro (e | raw) s' _
  · exact looks_pure
  · exact looks_pure

private theorem findFreeSlotIn_peeks (slots : List Nat) (s : Store) : Peeks (findFreeSlotIn slots) s := by
  induction slots generalizing s with
  | nil => exact looks_pure
  | cons i rest ih =>
    apply looks_bind (slotIsFree_peeks _ s)
    intro free s' _
    split
    · exact looks_pure
    · exact ih s'

theorem findFreeSlot_peeks (s : Store) : Peeks fsStoreFindFreeSlot s := by
  apply looks_state_bind fun _ => rfl
  split
  · exact looks_pure
  · exact findFreeSlotIn_peeks _ s

private theorem scanFor_peeks (wanted : FsDescriptor → Bool) (skips : FsError → Bool) (slots : List Nat)
    (s : Store) : Peeks (scanFor wanted skips slots) s := by
  induction slots generalizing s with
  | nil => exact looks_fail
  | cons i rest ih =>
    apply looks_attempt_bind (readDesc_peeks _ s)
    rintro (e | d) s' _
    · dsimp only
      split
      · exact ih s'
      · exact looks_fail
    · dsimp only
      split
      · exact looks_pure
      · exact ih s'

theorem findChild_peeks (parent fileId : UInt16) (s : Store) : Peeks (fsFindChild parent fileId) s :=
  looks_state_bind (fun _ => rfl) (scanFor_peeks _ _ _ s)

theorem findBySfi_peeks (df : UInt16) (sfi : UInt8) (s : Store) : Peeks (fsFindBySfi df sfi) s := by
  apply looks_state_bind fun _ => rfl
  split
  · exact looks_fail
  · exact scanFor_peeks _ _ _ s

private theorem childCountIn_peeks (parent : UInt16) (slots : List Nat) (s : Store) :
    Peeks (childCountIn parent slots) s := by
  induction slots generalizing s with
  | nil => exact looks_pure
  | cons i rest ih =>
    apply looks_attempt_bind (readDesc_peeks _ s)
    rintro (e | d) s' _
    · exact ih s'
    · exact looks_bind (ih s') fun _ _ _ => looks_pure

theorem resolve_peeks (i : UInt16) (s : Store) : Peeks (resolve i) s := by
  apply looks_bind (readDesc_peeks i s)
  intro d s' _
  split
  · exact looks_fail
  · exact looks_pure

end Looking

section Selecting
variable {sel : FsSelection} {fileId index : UInt16}

private theorem orChild_peeks (s : Store) : Peeks (orChild sel fileId index) s := by
  unfold orChild
  split
  · exact looks_pure
  apply looks_attempt_bind (findChild_peeks _ _ s)
  rintro (e | found) s' _
  · exact looks_pure
  · exact looks_pure

private theorem orCurrent_peeks (s : Store) : Peeks (orCurrent sel fileId index) s := by
  unfold orCurrent
  split
  · exact looks_pure
  apply looks_attempt_bind (readDesc_peeks _ s)
  rintro (e | d) s' _
  · exact looks_pure
  · exact looks_pure

private theorem orParent_peeks (s : Store) : Peeks (orParent sel fileId index) s := by
  unfold orParent
  split
  · exact looks_pure
  apply looks_attempt_bind (readDesc_peeks _ s)
  rintro (e | d) s' _
  · exact looks_pure
  dsimp only
  split
  · exact looks_pure
  apply looks_attempt_bind (readDesc_peeks _ s')
  rintro (e | p) s'' _
  · exact looks_pure
  · exact looks_pure

theorem selectByFid_peeks (sel : FsSelection) (fileId : UInt16) (s : Store) :
    Peeks (fsSelectByFid sel fileId) s := by
  apply looks_bind (orChild_peeks s)
  intro _ s₁ _
  apply looks_bind (orCurrent_peeks s₁)
  intro _ s₂ _
  apply looks_bind (orParent_peeks s₂)
  intro index s₃ _
  split
  · exact looks_fail
  · exact looks_bind (resolve_peeks index s₃) fun _ _ _ => looks_pure

theorem selectChildTyped_peeks (sel : FsSelection) (fileId : UInt16) (wantDf : Bool) (s : Store) :
    Peeks (selectChildTyped sel fileId wantDf) s := by
  apply looks_bind (findChild_peeks _ _ s)
  intro index s₁ _
  apply looks_bind (resolve_peeks index s₁)
  intro d s₂ _
  split
  · exact looks_fail
  · exact looks_pure

theorem selectParent_peeks (sel : FsSelection) (s : Store) : Peeks (fsSelectParent sel) s := by
  apply looks_bind (readDesc_peeks _ s)
  intro cur s₁ _
  split
  · exact looks_fail
  · exact looks_bind (resolve_peeks _ s₁) fun _ _ _ => looks_pure

private theorem namesHere_peeks (scratch : FsSelection) (first : Bool) (fid : UInt16) (s : Store) :
    Peeks (namesHere scratch first fid) s := by
  unfold namesHere
  split
  · exact looks_pure
  apply looks_attempt_bind (readDesc_peeks _ s)
  rintro (e | here) s' _
  · exact looks_pure
  · exact looks_pure

private theorem walkPath_peeks (scratch : FsSelection) (first : Bool) (fids : List UInt16) (s : Store) :
    Peeks (walkPath scratch first fids) s := by
  induction fids generalizing scratch first s with
  | nil => exact looks_pure
  | cons fid rest ih =>
    apply looks_bind (namesHere_peeks _ _ _ s)
    intro here s₁ _
    split
    · exact ih _ _ s₁
    apply looks_attempt_bind (findChild_peeks _ _ s₁)
    rintro (e | index) s₂ _
    · exact looks_fail
    apply looks_bind (resolve_peeks index s₂)
    intro d s₃ _
    split
    · exact looks_fail
    · exact ih _ _ s₃

theorem selectByPath_peeks (sel : FsSelection) (path : List UInt8) (fromMf : Bool) (s : Store) :
    Peeks (fsSelectByPath sel path fromMf) s := by
  unfold fsSelectByPath
  split
  · exact looks_fail
  split
  · exact looks_fail
  · exact walkPath_peeks _ _ _ s

end Selecting

section Data
variable {d : FsDescriptor} {i index offset len : UInt16} {src : List UInt8}

/-- A descriptor is only found below the count of a mounted table, and the data of
an EF that is found lies inside FLASH. -/
theorem readDesc_found (found : fsStoreReadDesc i s = (.ok d, s')) :
    (s.sb.mounted = true ∧ i < s.sb.maxFiles) ∧
      (d.type = .efTransparent → d.dataOffset.toNat + d.size.toNat ≤ s'.hal.nvm.flash.size.toNat) := by
  obtain ⟨raw, s₁, read, rest⟩ := bind_eq_ok found
  constructor
  · unfold descRawRead at read
    rw [state_bind] at read
    split at read
    · cases read
    rename_i mounted
    split at read
    · cases read
    rename_i below
    exact ⟨by simpa using mounted, UInt16.not_le.mp below⟩
  · rw [state_bind] at rest
    cases decoded : decodeDesc (halNvmSize s₁.hal .flash) raw with
    | error e =>
      rw [decoded] at rest
      cases rest
    | ok d' =>
      rw [decoded] at rest
      cases rest
      exact (decodeDesc_decoded decoded).inside

theorem resolve_found (found : resolve i s = (.ok d, s')) :
    s.sb.mounted = true ∧
      (d.type = .efTransparent → d.dataOffset.toNat + d.size.toNat ≤ s'.hal.nvm.flash.size.toNat) := by
  obtain ⟨d', s₁, read, rest⟩ := bind_eq_ok found
  split at rest
  · cases rest
  · cases rest
    obtain ⟨⟨mounted, _⟩, inside⟩ := readDesc_found read
    exact ⟨mounted, inside⟩

/-- Inside the data of an EF the 32-bit position never wraps. -/
theorem data_position {flashSize : UInt32} (fits : d.dataOffset.toNat + d.size.toNat ≤ flashSize.toNat)
    (inside : offset.toNat ≤ d.size.toNat) :
    (d.dataOffset + offset.toUInt32).toNat = d.dataOffset.toNat + offset.toNat := by
  have flash := flashSize.toNat_lt
  rw [UInt32.toNat_add, UInt16.toNat_toUInt32]
  omega

/-- What `fs_ef_read` asks the store for. -/
theorem amount_toNat {size : UInt16} (len : UInt16) (inside : offset ≤ size) :
    (if len < size - offset then len else size - offset).toNat = min len.toNat (size.toNat - offset.toNat) := by
  have left := UInt16.toNat_sub_of_le size offset inside
  split
  · rename_i less
    have less := UInt16.lt_iff_toNat_lt.mp less
    omega
  · rename_i more
    have more := UInt16.le_iff_toNat_le.mp (UInt16.not_lt.mp more)
    omega

theorem amount_le {size : UInt16} (len : UInt16) (inside : offset ≤ size) :
    (if len < size - offset then len else size - offset).toNat ≤ len.toNat ∧
      (if len < size - offset then len else size - offset).toNat ≤ size.toNat - offset.toNat := by
  rw [amount_toNat len inside]
  exact ⟨Nat.min_le_left .., Nat.min_le_right ..⟩

theorem isEf_type (ef : ¬ (!fsIsEf d) = true) : d.type = .efTransparent := by
  simpa [fsIsEf] using ef

theorem efRead_peeks (index offset len : UInt16) (s : Store) : Peeks (fsEfRead index offset len) s := by
  apply looks_bind (resolve_peeks index s)
  intro d s' found
  obtain ⟨_, stored⟩ := resolve_found found
  split
  · exact looks_fail
  rename_i ef
  split
  · exact looks_fail
  rename_i below
  have inside : offset ≤ d.size := UInt16.not_lt.mp below
  have few := (amount_le len inside).2
  dsimp only
  generalize (if len < d.size - offset then len else d.size - offset) = toRead at few
  split
  · exact looks_pure
  apply looks_state_bind fun _ => rfl
  split
  · exact looks_pure
  split
  · exact looks_fail
  apply liftHal_peeks
  intro _
  have offsetInside := UInt16.le_iff_toNat_le.mp inside
  have flash := stored (isEf_type ef)
  rw [data_position flash offsetInside]
  simp only [Nvm.region]
  omega

end Data

section Writing
variable {region : NvmRegion} {offset : UInt32} {raw : List UInt8} {refused : FsError}

theorem liftHal_sb (e : FsError) (x : HalM α) : Keeps (liftHal e x) Store.sb := keeps_within fun _ _ => rfl

/-- Where the table lies; no write changes it. -/
def frame (s : Store) : Bool × UInt16 × UInt32 := (s.sb.mounted, s.sb.maxFiles, s.hal.nvm.eeprom.size)

theorem fits_of_frame (same : frame s' = frame s) (fits : Fits s) : Fits s' := by
  simp only [frame, Prod.mk.injEq] at same
  obtain ⟨mounted, count, size⟩ := same
  unfold Fits
  rw [mounted, count, size]
  exact fits

theorem fitting_of_frame {x : FsM α} (keeps : Keeps x frame) : Moves x s Fitting Fitting := by
  have same := keeps s
  refine ⟨fun e s' ran => ?_, fun a s' ran => ?_⟩ <;> rw [ran] at same <;> exact fits_of_frame same

theorem Peeked.sb (peeked : Peeked s s') (fits : Fits s) : s'.sb = s.sb := by
  obtain ⟨plan, _, rfl⟩ := peeked fits
  rfl

theorem Peeked.nvm (peeked : Peeked s s') (fits : Fits s) : s'.hal.nvm = s.hal.nvm := by
  obtain ⟨plan, _, rfl⟩ := peeked fits
  rfl

theorem halNvmWrite_size (region : NvmRegion) (offset : UInt32) (raw : List UInt8) (other : NvmRegion) :
    Keeps (halNvmWrite region offset raw) fun hal => (hal.nvm.region other).size := by
  intro hal
  unfold halNvmWrite nextWrite applyWrite
  dsimp only
  split
  · rfl
  split
  · rfl
  rcases hal.writeFaults with _ | ⟨_ | _ | _, rest⟩ <;> cases region <;> cases other <;> simp [Nvm.region]

theorem halNvmSync_size (other : NvmRegion) : Keeps halNvmSync fun hal => (hal.nvm.region other).size := by
  intro hal
  unfold halNvmSync nextWrite
  rcases hal.writeFaults with _ | ⟨_ | _ | _, rest⟩ <;> rfl

private theorem liftHal_frame {x : HalM α} {e : FsError} (keeps : Keeps x fun hal => hal.nvm.eeprom.size) :
    Keeps (liftHal e x) frame := by
  intro s
  have same := keeps s.hal
  rcases ran : x s.hal with ⟨failed | a, hal⟩ <;> rw [ran] at same
  · rw [liftHal_error ran]
    exact congrArg (fun size => (s.sb.mounted, s.sb.maxFiles, size)) same
  · rw [liftHal_ok ran]
    exact congrArg (fun size => (s.sb.mounted, s.sb.maxFiles, size)) same

theorem writeDurably_frame (region : NvmRegion) (offset : UInt32) (raw : List UInt8) (refused : FsError) :
    Keeps (writeDurably region offset raw refused) frame :=
  keeps_bind (liftHal_frame (halNvmWrite_size region offset raw .eeprom)) fun _ =>
    liftHal_frame (halNvmSync_size .eeprom)

theorem sbWrite_frame : Keeps sbWrite frame := keeps_state_bind fun _ => writeDurably_frame _ _ _ _

theorem writeDesc_frame (i : UInt16) (d : FsDescriptor) : Keeps (fsStoreWriteDesc i d) frame := by
  apply keeps_state_bind
  intro s
  split
  · exact keeps_fail
  split
  · exact keeps_fail
  split
  · exact keeps_fail
  · exact writeDurably_frame _ _ _ _

theorem allocData_frame (size : UInt16) : Keeps (fsStoreAllocData size) frame := by
  apply keeps_state_bind
  intro s
  repeat' split
  · exact keeps_fail
  · exact keeps_fail
  · exact keeps_bind (keeps_update fun _ => rfl) fun _ => keeps_bind sbWrite_frame fun _ => keeps_pure

theorem placeFile_frame (slot : UInt16) (d : FsDescriptor) : Keeps (placeFile slot d) frame := by
  refine keeps_bind ?_ fun _ => writeDesc_frame _ _
  unfold allocateFor
  split
  · exact keeps_bind (allocData_frame _) fun _ => keeps_pure
  · exact keeps_pure

end Writing

section Structure
variable {sel : FsSelection} {req d : FsDescriptor} {slot : UInt16}

private theorem hasChildren_peeks (index : UInt16) (d : FsDescriptor) (s : Store) :
    Peeks (hasChildren index d) s := by
  unfold hasChildren
  split
  · exact looks_pure
  · exact looks_bind (looks_state_bind (fun _ => rfl) (childCountIn_peeks _ _ s)) fun _ _ _ => looks_pure

theorem deleteChecks_peeks (sel : FsSelection) (fileId : UInt16) (s : Store) :
    Peeks (deleteChecks sel fileId) s := by
  unfold deleteChecks
  split
  · exact looks_fail
  apply looks_bind (findChild_peeks _ _ s)
  intro index s₁ _
  apply looks_bind (readDesc_peeks index s₁)
  intro d s₂ _
  split
  · exact looks_fail
  apply looks_bind (hasChildren_peeks index d s₂)
  intro occupied s₃ _
  split
  · exact looks_fail
  · exact looks_pure

/-- What the checks of a deletion have established: the slot lies in the mounted
table. -/
theorem deleteChecks_found {fileId : UInt16} (fits : Fits s) (passed : deleteChecks sel fileId s = (.ok slot, s')) :
    s'.sb.mounted = true ∧ slot < s'.sb.maxFiles := by
  have sb := ((deleteChecks_peeks sel fileId s).peeked passed).sb fits
  unfold deleteChecks at passed
  split at passed
  · cases passed
  obtain ⟨index, s₁, searched, rest⟩ := bind_eq_ok passed
  obtain ⟨d, s₂, read, rest⟩ := bind_eq_ok rest
  split at rest
  · cases rest
  obtain ⟨occupied, s₃, _, rest⟩ := bind_eq_ok rest
  split at rest
  · cases rest
  cases rest
  rw [sb, ← ((findChild_peeks _ _ s).peeked searched).sb fits]
  exact (readDesc_found read).1

theorem sfiTaken_peeks (df : UInt16) (sfi : UInt8) (s : Store) : Peeks (sfiTaken df sfi) s := by
  unfold sfiTaken
  split
  · exact looks_pure
  apply looks_attempt_bind (findBySfi_peeks df sfi s)
  rintro (e | i) s' _
  · exact looks_pure
  · exact looks_pure

theorem createChecks_peeks (sel : FsSelection) (req : FsDescriptor) (s : Store) :
    Peeks (createChecks sel req) s := by
  apply looks_bind (readDesc_peeks _ s)
  intro parent s₁ _
  split
  · exact looks_fail
  split
  · exact looks_fail
  split
  · exact looks_fail
  cases checkRequestType req with
  | some e => exact looks_fail
  | none =>
    dsimp only
    split
    · exact looks_fail
    apply looks_attempt_bind (findChild_peeks _ _ s₁)
    rintro (e | i) s₂ _
    · apply looks_bind (sfiTaken_peeks _ _ s₂)
      intro taken s₃ _
      split
      · exact looks_fail
      apply looks_bind (findFreeSlot_peeks s₃)
      intro slot s₄ _
      split
      · exact looks_fail
      · exact looks_pure
    · exact looks_fail

private theorem findFreeSlotIn_member {slots : List Nat} (found : findFreeSlotIn slots s = (.ok slot, s')) :
    slot = fsInvalidIndex ∨ ∃ i ∈ slots, slot = UInt16.ofNat i := by
  induction slots generalizing s with
  | nil =>
    cases found
    exact .inl rfl
  | cons i rest ih =>
    obtain ⟨free, s₁, _, rest⟩ := bind_eq_ok found
    split at rest
    · cases rest
      exact .inr ⟨i, List.mem_cons_self, rfl⟩
    · rcases ih rest with none | ⟨j, member, same⟩
      · exact .inl none
      · exact .inr ⟨j, List.mem_cons_of_mem i member, same⟩

private theorem findFreeSlot_found (fits : Fits s) (found : fsStoreFindFreeSlot s = (.ok slot, s'))
    (valid : slot ≠ fsInvalidIndex) : s'.sb.mounted = true ∧ slot < s'.sb.maxFiles := by
  have sb := ((findFreeSlot_peeks s).peeked found).sb fits
  unfold fsStoreFindFreeSlot at found
  rw [state_bind] at found
  split at found
  · cases found
    exact absurd rfl valid
  rename_i mounted
  obtain ⟨i, member, rfl⟩ := (findFreeSlotIn_member found).resolve_left valid
  have bound := List.mem_range.mp member
  rw [sb]
  refine ⟨by simpa using mounted, UInt16.lt_iff_toNat_lt.mpr ?_⟩
  have width := s.sb.maxFiles.toNat_lt
  rw [UInt16.toNat_ofNat_of_lt' (Nat.lt_trans bound width)]
  exact bound

/-- How the checks of a creation pass: every state they go through. -/
inductive Passes (sel : FsSelection) (req : FsDescriptor) (s : Store) (slot : UInt16) (s' : Store) : Prop
  | intro {parent : FsDescriptor} {e : FsError} {s₁ s₂ s₃ : Store}
      (read : fsStoreReadDesc sel.curDf s = (.ok parent, s₁)) (isDf : fsIsDf parent = true)
      (usable : fsIsUsable parent = true) (unreserved : fidIsReserved req.fileId = false)
      (sound : checkRequestType req = none) (creatable : lifecycleCreatable req.lifecycle = true)
      (missing : fsFindChild sel.curDf req.fileId s₁ = (.error e, s₂))
      (untaken : sfiTaken sel.curDf req.sfi s₂ = (.ok false, s₃)) (found : fsStoreFindFreeSlot s₃ = (.ok slot, s'))
      (valid : slot ≠ fsInvalidIndex) : Passes sel req s slot s'

theorem createChecks_iff : createChecks sel req s = (.ok slot, s') ↔ Passes sel req s slot s' := by
  constructor
  · intro passed
    obtain ⟨parent, s₁, read, rest⟩ := bind_eq_ok passed
    cases isDf : fsIsDf parent with
    | false => simp [isDf] at rest
    | true => ?_
    cases usable : fsIsUsable parent with
    | false => simp [isDf, usable] at rest
    | true => ?_
    cases unreserved : fidIsReserved req.fileId with
    | true => simp [isDf, usable, unreserved] at rest
    | false => ?_
    cases sound : checkRequestType req with
    | some e => simp [isDf, usable, unreserved, sound] at rest
    | none => ?_
    cases creatable : lifecycleCreatable req.lifecycle with
    | false => simp [isDf, usable, unreserved, sound, creatable] at rest
    | true => ?_
    simp only [isDf, usable, unreserved, sound, creatable, Bool.not_true, Bool.false_eq_true, if_false, attempt_bind]
      at rest
    rcases missing : fsFindChild sel.curDf req.fileId s₁ with ⟨e | i, s₂⟩
    · rw [missing] at rest
      obtain ⟨taken, s₃, untaken, rest⟩ := bind_eq_ok rest
      cases taken with
      | true => simp at rest
      | false => ?_
      obtain ⟨found, s₄, searched, rest⟩ := bind_eq_ok rest
      by_cases valid : found = fsInvalidIndex
      · simp [valid] at rest
      · simp only [valid, if_false, run_pure, Prod.mk.injEq, Except.ok.injEq] at rest
        obtain ⟨rfl, rfl⟩ := rest
        exact .intro read isDf usable unreserved sound creatable missing untaken searched valid
    · simp [missing] at rest
  · rintro ⟨read, isDf, usable, unreserved, sound, creatable, missing, untaken, found, valid⟩
    rw [createChecks, bind_ok read]
    simp only [isDf, usable, unreserved, sound, creatable, Bool.not_true, Bool.false_eq_true, if_false, attempt_bind,
    missing]
    rw [bind_ok untaken]
    simp only [Bool.false_eq_true, if_false]
    rw [bind_ok found, if_neg valid]
    rfl

/-- What the checks of a creation have established: the slot lies in the mounted
table, and the request is for a file. -/
theorem createChecks_found (fits : Fits s) (passed : createChecks sel req s = (.ok slot, s')) :
    (s'.sb.mounted = true ∧ slot < s'.sb.maxFiles) ∧ req.type ≠ .free := by
  obtain ⟨read, -, -, -, sound, -, missing, untaken, found, valid⟩ := createChecks_iff.mp passed
  have fits₁ := ((readDesc_peeks _ s).peeked read).fitting fits
  have fits₂ := ((findChild_peeks _ _ _).peeked missing).fitting fits₁
  have fits₃ := ((sfiTaken_peeks _ _ _).peeked untaken).fitting fits₂
  refine ⟨findFreeSlot_found fits₃ found valid, fun free => ?_⟩
  rw [checkRequestType, free] at sound
  cases sound

end Structure

section Booting

private theorem fits_unmounted (unmounted : s.sb.mounted = false) : Fits s := by
  intro mounted
  rw [unmounted] at mounted
  cases mounted

/-- However mounting ends, a table that is mounted afterwards fits. -/
theorem mount_fits (s : Store) : Fits (fsStoreMount s).2 := by
  rw [fsStoreMount_eq]
  rcases halNvmRead .eeprom 0 fsSuperblockSize s.hal with ⟨e | raw, hal⟩
  · exact fits_unmounted rfl
  dsimp only
  cases decoded : decodeSb hal.nvm.flash.size hal.nvm.eeprom.size raw with
  | error e => exact fits_unmounted rfl
  | ok sb => exact fun _ => (decodeSb_bounds decoded).table

theorem eraseSlots_frame (slots : List Nat) : Keeps (eraseSlots slots) frame := by
  induction slots with
  | nil => exact keeps_pure
  | cons i rest ih => exact keeps_bind (liftHal_frame (halNvmWrite_size _ _ _ .eeprom)) fun _ => ih

private theorem writeLayout_frame (layout : List LayoutEntry) : Keeps (writeLayout layout) frame := by
  induction layout with
  | nil => exact keeps_pure
  | cons entry rest ih => exact keeps_bind (placeFile_frame _ _) fun _ => ih

instance : Trans Fitting Fitting Fitting where
  trans first second := fun fits => second (first fits)

theorem format_fitting (s : Store) : Moves fsStoreFormat s Fitting Fitting := by
  unfold fsStoreFormat
  apply moves_state_bind
  split
  · exact moves_fail
  rename_i room
  have roomy : descOffset fsMaxFiles ≤ s.hal.nvm.eeprom.size := UInt32.not_lt.mp room
  apply moves_bind (fitting_of_frame (eraseSlots_frame _))
  intro _ s₁ erased
  have size₁ : s₁.hal.nvm.eeprom.size = s.hal.nvm.eeprom.size := by
    have same := eraseSlots_frame (List.range fsMaxFiles.toNat) s
    rw [erased] at same
    exact congrArg (fun framed => framed.2.2) same
  unfold Moves
  rw [update_bind]
  generalize staged : ({ s₁ with sb := { s₁.sb with
    dataTop := 0, version := fsLayoutVersion, maxFiles := fsMaxFiles } } : Store) = s₂
  have count : s₂.sb.maxFiles = fsMaxFiles := by rw [← staged]
  have inside : descOffset fsMaxFiles ≤ s₂.hal.nvm.eeprom.size := by
    rw [← staged]
    exact size₁ ▸ roomy
  have same := sbWrite_frame s₂
  rcases wrote : sbWrite s₂ with ⟨e | u, s₃⟩
  all_goals
    rw [wrote] at same
    obtain ⟨_, count₃, size₃⟩ : s₃.sb.mounted = s₂.sb.mounted ∧ s₃.sb.maxFiles = s₂.sb.maxFiles ∧
      s₃.hal.nvm.eeprom.size = s₂.hal.nvm.eeprom.size := by simpa [frame] using same
    have table : descOffset s₃.sb.maxFiles ≤ s₃.hal.nvm.eeprom.size := by rw [count₃, count, size₃]; exact inside
  · rw [bind_error wrote]
    constructor
    · rintro e s' ⟨⟩ _ _
      exact table
    · rintro a s' ⟨⟩
  · rw [bind_ok wrote]
    constructor
    · rintro e s' ⟨⟩
    · rintro a s' ⟨⟩ _ _
      exact table

theorem personalise_fitting (s : Store) : Moves fsPersonalise s Fitting Fitting := by
  apply moves_bind (format_fitting s)
  intro _ s₁ _
  apply moves_bind (fitting_of_frame (writeDesc_frame _ _))
  intro _ s₂ _
  exact fitting_of_frame (writeLayout_frame _)

/-- Whatever is stored and whatever the device fails, booting leaves a table that
fits. -/
theorem init_fits (s : Store) : Fits (fsInit s).2 := by
  unfold fsInit
  rw [attempt_bind]
  have fits := mount_fits s
  generalize fsStoreMount s = mounted at fits ⊢
  obtain ⟨e | u, s₁⟩ := mounted
  · cases e with
    | notFormatted =>
      show Fits (fsPersonalise s₁).2
      rcases ran : fsPersonalise s₁ with ⟨e | u, s₂⟩
      · exact (personalise_fitting s₁).1 e s₂ ran fits
      · exact (personalise_fitting s₁).2 u s₂ ran fits
    | _ => exact fits
  · dsimp only
    rw [attempt_bind]
    rcases read : fsStoreReadDesc fsRootIndex s₁ with ⟨e | mf, s₂⟩
    · have fits₂ := ((readDesc_peeks _ s₁).peeked read).fitting fits
      cases e <;> exact fits₂
    · have fits₂ := ((readDesc_peeks _ s₁).peeked read).fitting fits
      dsimp only
      split
      · exact fits₂
      · exact fits₂

end Booting

end CardOs.StorageProofs
