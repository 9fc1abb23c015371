import CardOs.FactoryChanges
import CardOs.TlvReadingProofs
import CardOs.Transactions
import CardOs.UnboundedProofs

/-! Storage of any size and content, on a device that fails as it likes. Whatever
is initialised, reset and processed, no request leaves its region, no offset,
length or data top wraps, and a call asks for a bounded number of device
operations, however the parent links run. -/
namespace CardOs.OverrunProofs
open CardOs.Library CardOs.Library.Action CardOs.Library.BigEndian CardOs.Apdu CardOs.Tlv CardOs.FsTypes CardOs.HalNvm
open CardOs.FsStore CardOs.FsStoreProofs CardOs.Fs CardOs.FileCommands CardOs.Kernel CardOs.StorageProofs
open CardOs.AnswerProofs CardOs.StoreChanges CardOs.FsInitProofs CardOs.FactoryChanges CardOs.Transactions
open CardOs.TlvProofs (over_init)
open CardOs.TlvReadingProofs (Unwrapped readerAfter readerAfter_over unwrapped)
open CardOs.UnboundedProofs

section Range
variable {s s' : Store} {card : Card}

/-- What mounting checks, and every call relies on. -/
structure Bounded (s : Store) : Prop where
  large : fsSuperblockSize ≤ s.hal.nvm.eeprom.size.toNat
  fits : Fits s
  files : fsStoreMaxFiles s ≤ fsMaxFiles
  top : s.sb.mounted = true → s.sb.dataTop ≤ s.hal.nvm.flash.size

/-- A call that started within the bounds ended within them and asked for nothing
outside a region. -/
def Sound (s s' : Store) : Prop := Bounded s → Bounded s' ∧ s'.hal.rangeErrors = s.hal.rangeErrors

instance : Std.Refl Sound := ⟨fun _ bounded => ⟨bounded, rfl⟩⟩

instance : Trans Sound Sound Sound where
  trans first second := fun bounded => by
    obtain ⟨bounded₁, range₁⟩ := first bounded
    obtain ⟨bounded₂, range₂⟩ := second bounded₁
    exact ⟨bounded₂, range₂.trans range₁⟩

theorem bounded_unmounted (large : fsSuperblockSize ≤ s.hal.nvm.eeprom.size.toNat) (unmounted : s.sb.mounted = false) :
    Bounded s where
  large := large
  fits := fun mounted => by
    rw [unmounted] at mounted
    cases mounted
  files := by
    rw [fsStoreMaxFiles, unmounted]
    exact (by decide : (0 : UInt16) ≤ fsMaxFiles)
  top := fun mounted => by
    rw [unmounted] at mounted
    cases mounted

/-- The bounds are about the mirror and the sizes of the two regions. -/
theorem Bounded.carry (bounded : Bounded s) (mounted : s'.sb.mounted = s.sb.mounted)
    (files : s'.sb.maxFiles = s.sb.maxFiles)
    (sizes : ∀ region, (s'.hal.nvm.region region).size = (s.hal.nvm.region region).size)
    (top : s'.sb.dataTop ≤ s'.hal.nvm.flash.size ∨ s'.sb.dataTop = s.sb.dataTop) : Bounded s' where
  large := by
    rw [show s'.hal.nvm.eeprom.size = s.hal.nvm.eeprom.size from sizes .eeprom]
    exact bounded.large
  fits := fits_of_frame (by rw [frame, frame, mounted, files, show s'.hal.nvm.eeprom.size = _ from sizes .eeprom]; rfl)
    bounded.fits
  files := by
    rw [fsStoreMaxFiles, mounted, files]
    exact bounded.files
  top := fun up => by
    rcases top with inside | same
    · exact inside
    · rw [same, show s'.hal.nvm.flash.size = s.hal.nvm.flash.size from sizes .flash]
      exact bounded.top (mounted ▸ up)

theorem peeked_sound (peeked : Peeked s s') : Sound s s' := by
  intro bounded
  obtain ⟨plan, _, rfl⟩ := peeked bounded.fits
  exact ⟨bounded.carry rfl rfl (fun _ => rfl) (.inr rfl), rfl⟩

/-- Device operations inside their regions. -/
theorem perform_sound {requests : List Request} (inside : Bounded s → ∀ request ∈ requests, request.Inside s.hal.nvm) :
    Moves (perform requests) s Sound Sound := by
  have sound : ∀ result s', perform requests s = (result, s') → Sound s s' := by
    intro result s' ran bounded
    have performed := perform_performed (inside bounded) ran
    obtain ⟨done, _, nvm, _⟩ := performed.nvm
    refine ⟨bounded.carry (congrArg Superblock.mounted performed.sb) (congrArg Superblock.maxFiles performed.sb) ?_
      (.inr (congrArg Superblock.dataTop performed.sb)), performed.range⟩
    rw [nvm]
    exact applyAll_size done s.hal.nvm
  exact ⟨fun e => sound (.error e), fun u => sound (.ok u)⟩

/-- A change that is inside the regions and does not move the data top outside. -/
theorem carried_sound {change : Change} (inside : Bounded s → change.Inside s.hal.nvm)
    (top : Bounded s → ∀ t slot d, change = .allocate t slot d → t ≤ s.hal.nvm.flash.size) :
    Sound s (perform change.requests { s with sb := change.mirror s.sb }).2 := by
  intro bounded
  have staged : Bounded { s with sb := change.mirror s.sb } := by
    cases change with
    | allocate t slot d => exact bounded.carry rfl rfl (fun _ => rfl) (.inl (top bounded t slot d rfl))
    | _ => exact bounded
  have moved := perform_sound (s := { s with sb := change.mirror s.sb }) fun _ => inside bounded
  rcases ran : perform change.requests { s with sb := change.mirror s.sb } with ⟨e | u, s'⟩
  · exact moved.1 e s' ran staged
  · exact moved.2 u s' ran staged

theorem scosProcess_sound (cmd : Option (List UInt8)) (cap : UInt16) (card : Card) :
    Sound card.store (scosProcess cmd cap card).2.2.store := by
  intro bounded
  obtain ⟨store, peeked, after, _⟩ := scosProcess_transacts bounded.fits cmd cap
  have looked := peeked_sound peeked bounded
  have nvm := peeked.nvm bounded.fits
  have moved := @carried_sound store (processChange cmd cap card)
    (fun _ => by rw [nvm]; exact processChange_inside bounded.fits cmd cap)
    (fun _ t slot d allocates => by rw [nvm]; exact (processChange_top allocates).2)
  rw [after]
  obtain ⟨bounded', range⟩ := moved looked.1
  exact ⟨bounded', range.trans looked.2⟩

/-- Giving a file its data space and its slot. -/
theorem placeFile_sound {slot : UInt16} {d : FsDescriptor} (mounted : s.sb.mounted = true) (below : slot < s.sb.maxFiles)
    (file : d.type ≠ .free) : Moves (placeFile slot d) s Sound Sound := by
  suffices sound : Sound s (placeFile slot d s).2 by
    constructor
    · intro e s' ran
      rwa [ran] at sound
    · intro u s' ran
      rwa [ran] at sound
  by_cases full : Full s d
  · rw [placeFile_full mounted full]
    exact Std.Refl.refl s
  · rw [placeFile_concludes mounted below file full, conclude_store]
    exact carried_sound (fun bounded => placeChange_inside bounded.fits mounted below)
      fun _ t slot' d' allocates => (placeChange_top full allocates).2

private theorem writeLayout_sound {layout : List LayoutEntry} (mounted : s.sb.mounted = true)
    (below : ∀ entry ∈ layout, entry.index < s.sb.maxFiles ∧ entry.type ≠ .free) :
    Moves (writeLayout layout) s Sound Sound := by
  induction layout generalizing s with
  | nil => exact moves_pure
  | cons entry rest ih =>
    obtain ⟨inside, file⟩ := below entry List.mem_cons_self
    refine moves_bind (placeFile_sound mounted inside file) fun _ s' placed => ?_
    have kept := placeFile_frame entry.index entry.descriptor s
    rw [placed] at kept
    obtain ⟨mounted', files', _⟩ : s'.sb.mounted = s.sb.mounted ∧ s'.sb.maxFiles = s.sb.maxFiles ∧
      s'.hal.nvm.eeprom.size = s.hal.nvm.eeprom.size := by simpa [frame] using kept
    refine ih (mounted'.trans mounted) fun other member => ?_
    rw [files']
    exact below other (List.mem_cons_of_mem _ member)

/-- Formatting checks first that the whole table fits. -/
private theorem format_sound (unmounted : s.sb.mounted = false) : Moves fsStoreFormat s Sound Sound := by
  by_cases table : descOffset fsMaxFiles ≤ s.hal.nvm.eeprom.size
  · have hal := (format_carries table).1
    have sound : ∀ result s', fsStoreFormat s = (result, s') → Sound s s' := by
      intro result s' ran bounded
      unfold Asks at hal
      rw [ran] at hal
      rcases performed : perform formatRequests s with ⟨outcome, s''⟩
      rw [performed] at hal
      have asked := perform_performed (formatRequests_inside (UInt32.le_iff_toNat_le.mp table)) performed
      have sizes : ∀ region, (s'.hal.nvm.region region).size = (s.hal.nvm.region region).size := by
        intro region
        have kept := perform_size formatRequests region s
        rw [performed] at kept
        rw [show s'.hal = s''.hal from hal]
        exact kept
      have range : s'.hal.rangeErrors = s.hal.rangeErrors := by
        rw [show s'.hal = s''.hal from hal]
        exact asked.range
      have large : fsSuperblockSize ≤ s'.hal.nvm.eeprom.size.toNat := by
        rw [show s'.hal.nvm.eeprom.size = _ from sizes .eeprom]
        exact bounded.large
      refine ⟨?_, range⟩
      rcases format_ends table ran with ⟨_, sb⟩ | ⟨_, still⟩
      · refine ⟨large, fun _ => ?_, ?_, fun _ => ?_⟩
        · rw [sb, show s'.hal.nvm.eeprom.size = _ from sizes .eeprom]
          exact table
        · rw [fsStoreMaxFiles, sb]
          decide
        · rw [sb]
          exact UInt32.le_iff_toNat_le.mpr (Nat.zero_le _)
      · exact bounded_unmounted large (still.trans unmounted)
    exact ⟨fun e => sound (.error e), fun u => sound (.ok u)⟩
  · constructor
    · intro e s' ran
      rw [format_refused table] at ran
      cases ran
      exact Std.Refl.refl s
    · intro u s' ran
      rw [format_refused table] at ran
      cases ran

theorem personalise_sound (unmounted : s.sb.mounted = false) : Moves fsPersonalise s Sound Sound := by
  refine moves_bind (format_sound unmounted) fun _ s₁ formatted => ?_
  have sb₁ : s₁.sb = mirrorOf 0 := format_mirror formatted
  have mf : fsStoreWriteDesc 0 factoryMf s₁ = placeFile 0 factoryMf s₁ := rfl
  have placed : Moves (fsStoreWriteDesc 0 factoryMf) s₁ Sound Sound := by
    unfold Moves
    rw [mf]
    exact placeFile_sound (by rw [sb₁]; rfl) (by rw [sb₁]; decide) (by decide)
  refine moves_bind placed fun _ s₂ wrote => ?_
  have kept := writeDesc_frame 0 factoryMf s₁
  rw [wrote] at kept
  obtain ⟨mounted, files, _⟩ : s₂.sb.mounted = s₁.sb.mounted ∧ s₂.sb.maxFiles = s₁.sb.maxFiles ∧
    s₂.hal.nvm.eeprom.size = s₁.hal.nvm.eeprom.size := by simpa [frame] using kept
  refine writeLayout_sound (by rw [mounted, sb₁]; rfl) ?_
  rw [files, sb₁]
  decide

/-- Mounting accepts only what keeps to the regions. -/
private theorem mount_sound (large : fsSuperblockSize ≤ s.hal.nvm.eeprom.size.toNat) :
    Bounded (fsStoreMount s).2 ∧ (fsStoreMount s).2.hal.rangeErrors = s.hal.rangeErrors ∧
      ∀ e, (fsStoreMount s).1 = .error e → (fsStoreMount s).2.sb.mounted = false := by
  rw [fsStoreMount_eq]
  rcases read : halNvmRead .eeprom 0 fsSuperblockSize s.hal with ⟨e | raw, hal⟩
  all_goals
    obtain ⟨plan, _, rfl⟩ := halNvmRead_peeks (by
      simp only [Nvm.region, UInt32.reduceToNat, Nat.zero_add]
      exact large) read
    dsimp only
  · exact ⟨bounded_unmounted large rfl, rfl, fun _ _ => rfl⟩
  cases decoded : decodeSb s.hal.nvm.flash.size s.hal.nvm.eeprom.size raw with
  | error e => exact ⟨bounded_unmounted large rfl, rfl, fun _ _ => rfl⟩
  | ok sb =>
    have bounds := decodeSb_bounds decoded
    refine ⟨⟨large, fun _ => bounds.table, ?_, fun _ => bounds.top⟩, rfl, fun e failed => ?_⟩
    · simpa [fsStoreMaxFiles, bounds.mounted] using bounds.files
    · cases failed

/-- Whatever is stored and whatever the device fails, initialising keeps to the
regions. -/
theorem fsInit_sound (large : fsSuperblockSize ≤ s.hal.nvm.eeprom.size.toNat) :
    Bounded (fsInit s).2 ∧ (fsInit s).2.hal.rangeErrors = s.hal.rangeErrors := by
  obtain ⟨bounded, range, unmounted⟩ := mount_sound large
  rw [← range]
  unfold fsInit
  rw [attempt_bind]
  generalize fsStoreMount s = mounted at bounded unmounted ⊢
  obtain ⟨e | u, s₁⟩ := mounted
  · cases e with
    | notFormatted =>
      dsimp only
      have moved := personalise_sound (unmounted .notFormatted rfl)
      rcases ran : fsPersonalise s₁ with ⟨e | u, s₂⟩
      · exact moved.1 e s₂ ran bounded
      · exact moved.2 u s₂ ran bounded
    | _ => exact ⟨bounded, rfl⟩
  · dsimp only
    rw [attempt_bind]
    rcases read : fsStoreReadDesc fsRootIndex s₁ with ⟨e | mf, s₂⟩
    · have looked := peeked_sound ((readDesc_peeks _ s₁).peeked read) bounded
      cases e <;> exact looked
    · have looked := peeked_sound ((readDesc_peeks _ s₁).peeked read) bounded
      dsimp only
      split
      · exact looked
      · exact looked

end Range

section Effort
variable {n : Nat}

/-- The table a call scans is not larger than the compiled-in one. -/
def FewFiles (s : Store) : Prop := s.sb.maxFiles ≤ fsMaxFiles

/-- What is left of the device's plan. Every read, write and barrier that reaches the
device takes one entry. -/
def operationsLeft (s : Store) : Nat := s.hal.readFaults.length + s.hal.writeFaults.length

/-- The call asks for at most `n` device operations. -/
abbrev Takes (n : Nat) (x : FsM α) : Prop := Spends FewFiles operationsLeft n x

private theorem liftHal_takes {x : HalM α} {e : FsError}
    (uses : ∀ hal, hal.readFaults.length + hal.writeFaults.length ≤
      (x hal).2.readFaults.length + (x hal).2.writeFaults.length + 1) : Takes 1 (liftHal e x) := by
  intro s few
  have used := uses s.hal
  have same := liftHal_sb e x s
  refine ⟨?_, ?_⟩
  · unfold FewFiles
    rw [same]
    exact few
  · rcases ran : x s.hal with ⟨failed | a, hal⟩
    all_goals rw [ran] at used
    · rw [liftHal_error ran]
      exact used
    · rw [liftHal_ok ran]
      exact used

private theorem read_takes (region : NvmRegion) (offset : UInt32) (len : Nat) (e : FsError) :
    Takes 1 (liftHal e (halNvmRead region offset len)) := by
  refine liftHal_takes fun hal => ?_
  obtain ⟨nvm, reads, writes, count, rangeErrors⟩ := hal
  unfold halNvmRead nextRead
  split
  · simp
  split
  · simp
  rcases reads with _ | ⟨_ | _, rest⟩ <;> simp <;> omega

private theorem write_takes (region : NvmRegion) (offset : UInt32) (raw : List UInt8) (e : FsError) :
    Takes 1 (liftHal e (halNvmWrite region offset raw)) := by
  refine liftHal_takes fun hal => ?_
  obtain ⟨nvm, reads, writes, count, rangeErrors⟩ := hal
  unfold halNvmWrite nextWrite applyWrite
  dsimp only
  split
  · simp
  split
  · simp
  rcases writes with _ | ⟨_ | _ | _, rest⟩ <;> simp <;> omega

private theorem sync_takes (e : FsError) : Takes 1 (liftHal e halNvmSync) := by
  refine liftHal_takes fun hal => ?_
  obtain ⟨nvm, reads, writes, count, rangeErrors⟩ := hal
  unfold halNvmSync nextWrite
  rcases writes with _ | ⟨_ | _ | _, rest⟩ <;> simp <;> omega

private theorem readDesc_takes (i : UInt16) : Takes 1 (fsStoreReadDesc i) := by
  have raw : Takes 1 (descRawRead i) := by
    refine spends_state_bind fun s _ => ?_
    split
    · exact spends_fail
    split
    · exact spends_fail
    · exact read_takes _ _ _ _
  refine spends_bind (m := 0) raw (fun raw => spends_state_bind fun s _ => ?_) (by omega)
  cases decodeDesc (halNvmSize s.hal .flash) raw with
  | ok d => exact spends_pure
  | error e => exact spends_fail

private theorem slotIsFree_takes (i : UInt16) : Takes 1 (fsStoreSlotIsFree i) := by
  have raw : Takes 1 (descRawRead i) := by
    refine spends_state_bind fun s _ => ?_
    split
    · exact spends_fail
    split
    · exact spends_fail
    · exact read_takes _ _ _ _
  refine spends_attempt_bind (m := 0) raw (fun r => ?_) (by omega)
  cases r with
  | ok raw => exact spends_pure
  | error e => exact spends_pure

/-- A scan reads each slot at most once. -/
private theorem scanFor_takes (wanted : FsDescriptor → Bool) (skips : FsError → Bool) (slots : List Nat) :
    Takes slots.length (scanFor wanted skips slots) := by
  induction slots with
  | nil => exact spends_fail
  | cons i rest ih =>
    refine spends_attempt_bind (readDesc_takes _) (fun r => ?_) (Nat.add_comm 1 _).le
    cases r with
    | error e =>
      dsimp only
      split
      · exact ih
      · exact spends_fail
    | ok d =>
      dsimp only
      split
      · exact spends_pure
      · exact ih

private theorem findFreeSlotIn_takes (slots : List Nat) : Takes slots.length (findFreeSlotIn slots) := by
  induction slots with
  | nil => exact spends_pure
  | cons i rest ih =>
    refine spends_bind (slotIsFree_takes _) (fun free => ?_) (Nat.add_comm 1 _).le
    split
    · exact spends_pure
    · exact ih

private theorem childCountIn_takes (parent : UInt16) (slots : List Nat) :
    Takes slots.length (childCountIn parent slots) := by
  induction slots with
  | nil => exact spends_pure
  | cons i rest ih =>
    refine spends_attempt_bind (readDesc_takes _) (fun r => ?_) (Nat.add_comm 1 _).le
    cases r with
    | error e => exact ih
    | ok d => exact spends_bind (m := 0) ih (fun _ => spends_pure) (by omega)

/-- The slots of the table: at most 32. -/
private theorem table_length {s : Store} (few : FewFiles s) : (List.range (fsStoreMaxFiles s).toNat).length ≤ 32 := by
  rw [List.length_range, fsStoreMaxFiles]
  split
  · exact UInt16.le_iff_toNat_le.mp few
  · exact Nat.zero_le 32

private theorem findChild_takes (parent fileId : UInt16) : Takes 32 (fsFindChild parent fileId) :=
  spends_state_bind fun _ few => spends_mono (scanFor_takes _ _ _) (table_length few)

private theorem findBySfi_takes (df : UInt16) (sfi : UInt8) : Takes 32 (fsFindBySfi df sfi) := by
  refine spends_state_bind fun _ few => ?_
  split
  · exact spends_fail
  · exact spends_mono (scanFor_takes _ _ _) (table_length few)

private theorem childCount_takes (parent : UInt16) : Takes 32 (fsChildCount parent) :=
  spends_state_bind fun _ few => spends_mono (childCountIn_takes _ _) (table_length few)

private theorem findFreeSlot_takes : Takes 32 fsStoreFindFreeSlot := by
  refine spends_state_bind fun s few => ?_
  split
  · exact spends_pure
  · refine spends_mono (findFreeSlotIn_takes _) ?_
    rw [List.length_range]
    exact UInt16.le_iff_toNat_le.mp few

private theorem resolve_takes (i : UInt16) : Takes 1 (resolve i) := by
  refine spends_bind (m := 0) (readDesc_takes i) (fun d => ?_) (by omega)
  split
  · exact spends_fail
  · exact spends_pure

private theorem selectByFid_takes (sel : FsSelection) (fileId : UInt16) : Takes 36 (fsSelectByFid sel fileId) := by
  have child : ∀ index, Takes 32 (orChild sel fileId index) := fun index => by
    unfold orChild
    split
    · exact spends_pure
    refine spends_attempt_bind (m := 0) (findChild_takes _ _) (fun r => ?_) (by omega)
    cases r <;> exact spends_pure
  have current : ∀ index, Takes 1 (orCurrent sel fileId index) := fun index => by
    unfold orCurrent
    split
    · exact spends_pure
    refine spends_attempt_bind (m := 0) (readDesc_takes _) (fun r => ?_) (by omega)
    cases r <;> exact spends_pure
  have parent : ∀ index, Takes 2 (orParent sel fileId index) := fun index => by
    unfold orParent
    split
    · exact spends_pure
    refine spends_attempt_bind (m := 1) (readDesc_takes _) (fun r => ?_) (by omega)
    cases r with
    | error e => exact spends_pure
    | ok d =>
      dsimp only
      split
      · exact spends_pure
      refine spends_attempt_bind (m := 0) (readDesc_takes _) (fun r => ?_) (by omega)
      cases r <;> exact spends_pure
  refine spends_bind (m := 4) (child _) (fun index => ?_) (by omega)
  refine spends_bind (m := 3) (current _) (fun index => ?_) (by omega)
  refine spends_bind (m := 1) (parent _) (fun index => ?_) (by omega)
  split
  · exact spends_fail
  · exact spends_bind (m := 0) (resolve_takes _) (fun _ => spends_pure) (by omega)

private theorem selectChildTyped_takes (sel : FsSelection) (fileId : UInt16) (wantDf : Bool) :
    Takes 33 (selectChildTyped sel fileId wantDf) := by
  refine spends_bind (m := 1) (findChild_takes _ _) (fun index => ?_) (by omega)
  refine spends_bind (m := 0) (resolve_takes _) (fun d => ?_) (by omega)
  split
  · exact spends_fail
  · exact spends_pure

private theorem selectParent_takes (sel : FsSelection) : Takes 2 (fsSelectParent sel) := by
  refine spends_bind (m := 1) (readDesc_takes _) (fun cur => ?_) (by omega)
  split
  · exact spends_fail
  · exact spends_bind (m := 0) (resolve_takes _) (fun _ => spends_pure) (by omega)

/-- The walk is along the path, not along the parent links: each component costs
one look at the table. -/
private theorem walkPath_takes (scratch : FsSelection) (first : Bool) (fids : List UInt16) :
    Takes (34 * fids.length) (walkPath scratch first fids) := by
  induction fids generalizing scratch first with
  | nil => exact spends_pure
  | cons fid rest ih =>
    have here : Takes 1 (namesHere scratch first fid) := by
      unfold namesHere
      split
      · exact spends_pure
      refine spends_attempt_bind (m := 0) (readDesc_takes _) (fun r => ?_) (by omega)
      cases r <;> exact spends_pure
    have length : (fid :: rest).length = rest.length + 1 := rfl
    refine spends_bind (m := 33 + 34 * rest.length) here (fun named => ?_) (by omega)
    split
    · exact spends_mono (ih _ _) (by omega)
    refine spends_attempt_bind (m := 1 + 34 * rest.length) (findChild_takes _ _) (fun r => ?_) (by omega)
    cases r with
    | error e => exact spends_fail
    | ok index =>
      refine spends_bind (m := 34 * rest.length) (resolve_takes _) (fun d => ?_) (by omega)
      split
      · exact spends_fail
      · exact ih _ _

private theorem pathIds_length (path : List UInt8) : (pathIds path).length ≤ path.length / 2 := by
  induction path using pathIds.induct with
  | case1 hi lo rest ih =>
    simp only [pathIds, List.length_cons]
    omega
  | case2 path short => simp [pathIds]

private theorem selectByPath_takes (sel : FsSelection) (path : List UInt8) (fromMf : Bool) :
    Takes 272 (fsSelectByPath sel path fromMf) := by
  unfold fsSelectByPath
  split
  · exact spends_fail
  split
  · exact spends_fail
  rename_i short
  refine spends_mono (walkPath_takes _ _ _) ?_
  have ids := pathIds_length path
  rw [fsMaxDepth] at short
  omega

private theorem efRead_takes (index offset len : UInt16) : Takes 2 (fsEfRead index offset len) := by
  refine spends_bind (m := 1) (resolve_takes _) (fun d => ?_) (by omega)
  split
  · exact spends_fail
  split
  · exact spends_fail
  dsimp only
  generalize (if len < d.size - offset then len else d.size - offset) = amount
  split
  · exact spends_pure
  refine spends_state_bind fun s _ => ?_
  split
  · exact spends_pure
  split
  · exact spends_fail
  · exact read_takes _ _ _ _

private theorem writeDurably_takes (region : NvmRegion) (offset : UInt32) (raw : List UInt8) (refused : FsError) :
    Takes 2 (writeDurably region offset raw refused) :=
  spends_bind (write_takes _ _ _ _) (fun _ => sync_takes _) (by omega)

private theorem efWrite_takes (index offset : UInt16) (src : List UInt8) : Takes 3 (fsEfWrite index offset src) := by
  unfold fsEfWrite
  split
  · exact spends_pure
  refine spends_bind (m := 2) (resolve_takes _) (fun d => ?_) (by omega)
  split
  · exact spends_fail
  split
  · exact spends_fail
  refine spends_state_bind fun s _ => ?_
  split
  · exact spends_pure
  split
  · exact spends_fail
  · exact writeDurably_takes _ _ _ _

private theorem writeDesc_takes (i : UInt16) (d : FsDescriptor) : Takes 2 (fsStoreWriteDesc i d) := by
  refine spends_state_bind fun s _ => ?_
  split
  · exact spends_fail
  split
  · exact spends_fail
  split
  · exact spends_fail
  · exact writeDurably_takes _ _ _ _

private theorem placeFile_takes (slot : UInt16) (d : FsDescriptor) : Takes 4 (placeFile slot d) := by
  have allocates : Takes 2 (allocateFor d) := by
    unfold allocateFor
    split
    · refine spends_bind (m := 0) (spends_state_bind fun s _ => ?_) (fun _ => spends_pure) (Nat.le_refl 2)
      split
      · exact spends_fail
      split
      · exact spends_fail
      refine spends_bind (n := 0) (m := 2) (spends_update (fun _ few => few) fun _ => rfl) (fun _ => ?_) (by omega)
      exact spends_bind (m := 0) (spends_state_bind fun _ _ => writeDurably_takes _ _ _ _) (fun _ => spends_pure)
        (Nat.le_refl 2)
    · exact spends_pure
  exact spends_bind allocates (fun _ => writeDesc_takes _ _) (by omega)

private theorem createFile_takes (sel : FsSelection) (req : FsDescriptor) : Takes 101 (fsCreateFile sel req) := by
  have taken : Takes 32 (sfiTaken sel.curDf req.sfi) := by
    unfold sfiTaken
    split
    · exact spends_pure
    refine spends_attempt_bind (m := 0) (findBySfi_takes _ _) (fun r => ?_) (by omega)
    cases r <;> exact spends_pure
  have checks : Takes 97 (createChecks sel req) := by
    refine spends_bind (m := 96) (readDesc_takes _) (fun parent => ?_) (by omega)
    split
    · exact spends_fail
    split
    · exact spends_fail
    split
    · exact spends_fail
    cases checkRequestType req with
    | some e => exact spends_fail
    | none =>
      dsimp only
      split
      · exact spends_fail
      refine spends_attempt_bind (m := 64) (findChild_takes _ _) (fun r => ?_) (by omega)
      cases r with
      | ok index => exact spends_fail
      | error e =>
        refine spends_bind (m := 32) taken (fun used => ?_) (by omega)
        split
        · exact spends_fail
        refine spends_bind (m := 0) findFreeSlot_takes (fun slot => ?_) (by omega)
        split
        · exact spends_fail
        · exact spends_pure
  refine spends_bind (m := 4) checks (fun slot => ?_) (by omega)
  exact spends_bind (m := 0) (placeFile_takes _ _) (fun _ => spends_pure) (by omega)

private theorem deleteFile_takes (sel : FsSelection) (fileId : UInt16) : Takes 67 (fsDeleteFile sel fileId) := by
  have checks : Takes 65 (deleteChecks sel fileId) := by
    unfold deleteChecks
    split
    · exact spends_fail
    refine spends_bind (m := 33) (findChild_takes _ _) (fun index => ?_) (by omega)
    refine spends_bind (m := 32) (readDesc_takes _) (fun d => ?_) (by omega)
    split
    · exact spends_fail
    have children : Takes 32 (hasChildren index d) := by
      unfold hasChildren
      split
      · exact spends_pure
      · exact spends_bind (m := 0) (childCount_takes _) (fun _ => spends_pure) (by omega)
    refine spends_bind (m := 0) children (fun parent => ?_) (by omega)
    split
    · exact spends_fail
    · exact spends_pure
  refine spends_bind (m := 2) checks (fun index => ?_) (by omega)
  refine spends_bind (m := 0) (spends_state_bind fun s _ => ?_) (fun _ => spends_pure) (Nat.le_refl 2)
  split
  · exact spends_fail
  split
  · exact spends_fail
  · exact writeDurably_takes _ _ _ _

private theorem mount_takes : Takes 1 fsStoreMount := by
  refine spends_bind (n := 0) (m := 1) (spends_update (fun _ few => few) fun _ => rfl) (fun _ => ?_) (by omega)
  refine spends_bind (m := 0) (read_takes _ _ _ _) (fun raw => ?_) (by omega)
  split
  · exact spends_fail
  split
  · exact spends_fail
  split
  · exact spends_fail
  split
  · exact spends_fail
  rename_i files
  refine spends_state_bind fun s _ => ?_
  split
  · exact spends_fail
  split
  · exact spends_fail
  exact spends_update (fun _ _ => UInt16.not_lt.mp (not_or.mp files).2) fun _ => rfl

private theorem eraseSlots_takes (slots : List Nat) : Takes slots.length (eraseSlots slots) := by
  induction slots with
  | nil => exact spends_pure
  | cons i rest ih => exact spends_bind (write_takes _ _ _ _) (fun _ => ih) (Nat.add_comm 1 _).le

private theorem format_takes : Takes 34 fsStoreFormat := by
  refine spends_state_bind fun s _ => ?_
  split
  · exact spends_fail
  refine spends_bind (n := 32) (m := 2) (eraseSlots_takes _) (fun _ => ?_) (by omega)
  refine spends_bind (n := 0) (m := 2) (spends_update (fun _ _ => UInt16.le_refl fsMaxFiles) fun _ => rfl) (fun _ => ?_)
    (by omega)
  refine spends_bind (n := 2) (m := 0) (spends_state_bind fun _ _ => writeDurably_takes _ _ _ _) (fun _ => ?_) (by omega)
  exact spends_update (fun _ few => few) fun _ => rfl

private theorem writeLayout_takes (layout : List LayoutEntry) : Takes (4 * layout.length) (writeLayout layout) := by
  induction layout with
  | nil => exact spends_pure
  | cons entry rest ih =>
    refine spends_bind (placeFile_takes _ _) (fun _ => ih) ?_
    rw [List.length_cons]
    omega

private theorem fsInit_takes : Takes 53 fsInit := by
  refine spends_attempt_bind (m := 52) mount_takes (fun r => ?_) (by omega)
  cases r with
  | ok u =>
    refine spends_attempt_bind (m := 0) (readDesc_takes _) (fun r => ?_) (by omega)
    cases r with
    | error e => cases e <;> exact spends_fail
    | ok mf =>
      dsimp only
      split
      · exact spends_fail
      · exact spends_pure
  | error e =>
    cases e with
    | notFormatted =>
      refine spends_bind (m := 18) format_takes (fun _ => ?_) (by omega)
      exact spends_bind (writeDesc_takes _ _) (fun _ => writeLayout_takes _) (by decide)
    | _ => exact spends_fail

/-- The handler asks for at most `n` device operations. -/
abbrev Costs (n : Nat) (x : CmdM α) : Prop := Spends (fun c => FewFiles c.store) (fun c => operationsLeft c.store) n x

private theorem liftFs_costs {x : FsM α} (takes : Takes n x) : Costs n (liftFs x) := spends_within takes fun _ _ => rfl

private theorem put_costs (src : List UInt8) : Costs 0 (put src) := by
  intro c few
  unfold put
  rcases apduRspPut c.rsp src with ⟨_ | _, rsp⟩ <;> exact ⟨few, Nat.le_refl _⟩

private theorem selectTarget_costs (cmd : ApduCommand) (sel : FsSelection) : Costs 272 (selectTarget cmd sel) := by
  have selecting := selectTarget_selecting cmd sel
  generalize selectTarget cmd sel = target at selecting
  cases selecting with
  | refused => exact spends_fail
  | byFid fileId => exact spends_mono (liftFs_costs (selectByFid_takes sel fileId)) (by omega)
  | child fileId wantDf => exact spends_mono (liftFs_costs (selectChildTyped_takes sel fileId wantDf)) (by omega)
  | parent => exact spends_mono (liftFs_costs (selectParent_takes sel)) (by omega)
  | byPath path fromMf => exact liftFs_costs (selectByPath_takes sel path fromMf)

private theorem emitFci_costs (cmd : ApduCommand) (index : UInt16) (retOpt : UInt8) :
    Costs 1 (emitFci cmd index retOpt) := by
  unfold emitFci
  split
  · exact spends_pure
  split
  · exact spends_fail
  refine spends_bind (m := 0) (liftFs_costs (readDesc_takes _)) (fun d => ?_) (by omega)
  dsimp only
  split
  · exact spends_fail
  split
  · exact spends_pure
  split
  · exact spends_fail
  refine spends_bind (m := 0) (put_costs _) (fun _ => ?_) (by omega)
  exact spends_bind (put_costs _) (fun _ => put_costs _) (by omega)

private theorem scosCmdSelect_costs (cmd : ApduCommand) : Costs 273 (scosCmdSelect cmd) := by
  unfold scosCmdSelect
  split
  · exact spends_fail
  split
  · exact spends_fail
  refine spends_state_bind fun c _ => ?_
  refine spends_bind (m := 1) (selectTarget_costs _ _) (fun sel => ?_) (by omega)
  refine spends_bind (m := 0) (emitFci_costs _ _ _) (fun _ => ?_) (by omega)
  exact spends_bind (n := 0) (m := 0) (spends_update (fun _ few => few) fun _ => rfl) (fun _ => spends_pure) (by omega)

private theorem resolveTarget_costs (p1 p2 : UInt8) : Costs 32 (resolveTarget p1 p2) := by
  refine spends_state_bind fun c _ => ?_
  split
  · split
    · exact spends_fail
    split
    · exact spends_fail
    · exact spends_bind (m := 0) (liftFs_costs (findBySfi_takes _ _)) (fun _ => spends_pure) (by omega)
  · split
    · exact spends_fail
    · exact spends_pure

private theorem scosCmdReadBinary_costs (cmd : ApduCommand) : Costs 34 (scosCmdReadBinary cmd) := by
  unfold scosCmdReadBinary
  split
  · exact spends_fail
  split
  · exact spends_fail
  refine spends_bind (m := 2) (resolveTarget_costs _ _) (fun target => ?_) (by omega)
  dsimp only
  split
  · exact spends_fail
  refine spends_bind (m := 0) (liftFs_costs (efRead_takes _ _ _)) (fun got => ?_) (by omega)
  exact spends_bind (m := 0) (put_costs _) (fun _ => spends_pure) (by omega)

private theorem scosCmdUpdateBinary_costs (cmd : ApduCommand) : Costs 35 (scosCmdUpdateBinary cmd) := by
  unfold scosCmdUpdateBinary
  split
  · exact spends_fail
  split
  · exact spends_fail
  split
  · exact spends_fail
  refine spends_bind (m := 3) (resolveTarget_costs _ _) (fun target => ?_) (by omega)
  exact spends_bind (m := 0) (liftFs_costs (efWrite_takes _ _ _)) (fun _ => spends_pure) (by omega)

private theorem scosCmdCreateFile_costs (cmd : ApduCommand) : Costs 101 (scosCmdCreateFile cmd) := by
  refine spends_state_bind fun c _ => ?_
  split
  · exact spends_fail
  split
  · exact spends_fail
  split
  · exact spends_fail
  split
  · exact spends_fail
  split
  · exact spends_fail
  · exact spends_bind (m := 0) (liftFs_costs (createFile_takes _ _)) (fun _ => spends_pure) (by omega)

private theorem scosCmdDeleteFile_costs (cmd : ApduCommand) : Costs 67 (scosCmdDeleteFile cmd) := by
  refine spends_state_bind fun c _ => ?_
  split
  · exact spends_fail
  split
  · exact spends_fail
  split
  · exact spends_fail
  split
  · exact spends_fail
  refine spends_bind (m := 0) (liftFs_costs (deleteFile_takes _ _)) (fun sel => ?_) (by omega)
  exact spends_bind (n := 0) (m := 0) (spends_update (fun _ few => few) fun _ => rfl) (fun _ => spends_pure) (by omega)

/-- The most device operations one call asks for. -/
def callOperations : Nat := 273

private theorem scosDispatch_costs (cmd : ApduCommand) : Costs callOperations (scosDispatch cmd) := by
  rcases scosDispatch_cases cmd with
    ⟨_, same⟩ | ⟨_, same⟩ | ⟨_, same⟩ | ⟨_, same⟩ | ⟨_, same⟩ | ⟨_, same⟩ <;> rw [same]
  · exact scosCmdSelect_costs cmd
  · exact spends_mono (scosCmdReadBinary_costs cmd) (by decide)
  · exact spends_mono (scosCmdUpdateBinary_costs cmd) (by decide)
  · exact spends_mono (scosCmdCreateFile_costs cmd) (by decide)
  · exact spends_mono (scosCmdDeleteFile_costs cmd) (by decide)
  · exact spends_pure

/-- One call, whatever is stored. -/
theorem step_costs {card : Card} (few : FewFiles card.store) (event : CardEvent) :
    FewFiles (step card event).store ∧
      operationsLeft card.store ≤ operationsLeft (step card event).store + callOperations := by
  have boots : ∀ kernel s, FewFiles s → FewFiles (scosInit ⟨kernel, s⟩).2.store ∧
      operationsLeft s ≤ operationsLeft (scosInit ⟨kernel, s⟩).2.store + callOperations := fun kernel s few => by
    have spent := spends_mono fsInit_takes (by decide : 53 ≤ callOperations) s few
    unfold scosInit
    dsimp only
    rcases ran : fsInit s with ⟨e | u, s'⟩ <;> rw [ran] at spent <;> exact spent
  cases event with
  | apdu cmd cap =>
    rcases scosProcess_split cmd cap card.kernel with quiet | ⟨c, _, _, _, _, dispatched⟩
    · rw [step, (quiet card.store).1]
      exact ⟨few, Nat.le_add_right _ _⟩
    · rw [step, (dispatched card.store).1]
      exact scosDispatch_costs c ⟨card.kernel, card.store, apduRspInit cap⟩ few
  | reset => exact ⟨few, Nat.le_add_right _ _⟩
  | init => exact boots card.kernel card.store few
  | powerCycle => exact boots _ { card.store with sb := ⟨false, 0, 0, 0⟩ } (UInt16.le_iff_toNat_le.mpr (Nat.zero_le _))

end Effort

section Arithmetic
variable {s s' : Store}

/-- Every offset, length, count and data top that the code computes from this store, in
16 or 32 bits, is the one that unbounded numbers give: where a slot and the table lie,
how many children a DF has, where file data is read and written and how much of it, where
the data top goes and how much FLASH is above it, and where a template is read. -/
structure Exact (s : Store) : Prop where
  mounts : fsStoreMount s = fsStoreMountNat s
  formats : fsStoreFormat s = fsStoreFormatNat s
  readsSlot : ∀ index, descRawRead index s = descRawReadNat index.toNat s
  writesSlot : ∀ index d, fsStoreWriteDesc index d s = fsStoreWriteDescNat index.toNat d s
  freesSlot : ∀ index, fsStoreFreeDesc index s = fsStoreFreeDescNat index.toNat s
  counts : ∀ parent, (fsChildCount parent s).2 = (fsChildCountNat parent s).2 ∧
    (fsChildCount parent s).1.map UInt16.toNat = (fsChildCountNat parent s).1
  readsData : ∀ index offset len, fsEfRead index offset len s = fsEfReadNat index offset.toNat len.toNat s
  writesData : ∀ index offset src, fsEfWrite index offset src s = fsEfWriteNat index offset.toNat src s
  allocates : ∀ size, if s.sb.mounted = true ∧ s.sb.dataTop.toNat + size.toNat ≤ s.hal.nvm.flash.size.toNat
    then ∃ top, AllocatesNat size.toNat s (fsStoreAllocData size s) top
    else ∃ e, fsStoreAllocData size s = (.error e, s)
  free : s.sb.mounted = true → s.sb.dataTop.toNat + (fsStoreDataFree s).toNat = s.hal.nvm.flash.size.toNat
  template : ∀ bytes k, bytes.length ≤ 65535 →
    Unwrapped bytes (readerAfter (tlvReaderInit (some bytes) (UInt16.ofNat bytes.length)) k)

theorem Bounded.exact (bounded : Bounded s) : Exact s where
  mounts := congrFun fsStoreMount_exact s
  formats := congrFun fsStoreFormat_exact s
  readsSlot := fun index => congrFun (descRawRead_exact index) s
  writesSlot := fun index d => congrFun (fsStoreWriteDesc_exact index d) s
  freesSlot := fun index => congrFun (fsStoreFreeDesc_exact index) s
  counts := fun parent => fsChildCount_exact parent s
  readsData := fun index offset len => fsEfRead_exact index offset len s
  writesData := fun index offset src => fsEfWrite_exact index offset src s
  allocates := fun size => by
    split
    · rename_i room
      exact fsStoreAllocData_exact room.1 room.2
    · rename_i full
      exact fsStoreAllocData_refused full
  free := fun mounted => fsStoreDataFree_exact mounted (bounded.top mounted)
  template := fun _ k short => unwrapped (readerAfter_over (over_init (Nat.lt_succ_of_le short)) k)

/-- A store that may be met while a call that ends in `s` runs: the same regions with
anything in them and any failures to come, and nothing mounted or the table of `s` with
the data top anywhere in FLASH. -/
structure Alike (s s' : Store) : Prop where
  sizes : ∀ region, (s'.hal.nvm.region region).size = (s.hal.nvm.region region).size
  table : s'.sb.mounted = true → s.sb.mounted = true ∧ s'.sb.maxFiles = s.sb.maxFiles
  top : s'.sb.mounted = true → s'.sb.dataTop ≤ s'.hal.nvm.flash.size

theorem Bounded.alike (bounded : Bounded s) (alike : Alike s s') : Bounded s' := by
  have large : fsSuperblockSize ≤ s'.hal.nvm.eeprom.size.toNat := by
    rw [show s'.hal.nvm.eeprom.size = s.hal.nvm.eeprom.size from alike.sizes .eeprom]
    exact bounded.large
  cases mounted : s'.sb.mounted with
  | false => exact bounded_unmounted large mounted
  | true =>
    obtain ⟨mounted', files⟩ := alike.table mounted
    exact bounded.carry (mounted.trans mounted'.symm) files alike.sizes (.inl (alike.top mounted))

end Arithmetic

section Runs
variable {card : Card}

theorem step_sound (bounded : Bounded card.store) (event : CardEvent) :
    Bounded (step card event).store ∧ (step card event).store.hal.rangeErrors = card.store.hal.rangeErrors := by
  have boots : ∀ kernel s, fsSuperblockSize ≤ s.hal.nvm.eeprom.size.toNat →
      Bounded (scosInit ⟨kernel, s⟩).2.store ∧
        (scosInit ⟨kernel, s⟩).2.store.hal.rangeErrors = s.hal.rangeErrors := fun kernel s large => by
    have sound := fsInit_sound large
    unfold scosInit
    dsimp only
    rcases ran : fsInit s with ⟨e | u, s'⟩ <;> rw [ran] at sound <;> exact sound
  cases event with
  | apdu cmd cap => exact scosProcess_sound cmd cap card bounded
  | reset => exact ⟨bounded, rfl⟩
  | init => exact boots card.kernel card.store bounded.large
  | powerCycle => exact boots _ { card.store with sb := ⟨false, 0, 0, 0⟩ } bounded.large

theorem run_sound (bounded : Bounded card.store) (events : List CardEvent) :
    Bounded (run card events).store ∧ (run card events).store.hal.rangeErrors = card.store.hal.rangeErrors := by
  induction events generalizing card with
  | nil => exact ⟨bounded, rfl⟩
  | cons event rest ih =>
    obtain ⟨bounded', range⟩ := step_sound bounded event
    obtain ⟨bounded'', range'⟩ := ih bounded'
    exact ⟨bounded'', range'.trans range⟩

theorem run_costs (few : FewFiles card.store) (events : List CardEvent) :
    operationsLeft card.store ≤ operationsLeft (run card events).store + callOperations * events.length := by
  induction events generalizing card with
  | nil => exact Nat.le_refl _
  | cons event rest ih =>
    obtain ⟨few', spent⟩ := step_costs few event
    have later : operationsLeft (step card event).store ≤
        operationsLeft (run card (event :: rest)).store + callOperations * rest.length := ih few'
    rw [List.length_cons, Nat.mul_succ]
    omega

/-- Take any storage whose EEPROM holds at least a superblock, and a card that has
just been powered. Over any calls, and any device failures, no read or write is
asked for outside its region, no offset, length or data top wraps, and the device
is asked for a bounded number of operations by every call. -/
theorem storage_never_overrun (card : Card) (large : 16 ≤ card.store.hal.nvm.eeprom.size.toNat)
    (cold : card.store.sb = ⟨false, 0, 0, 0⟩) (events : List CardEvent) :
    (run card events).store.hal.rangeErrors = card.store.hal.rangeErrors ∧ Bounded (run card events).store ∧
      Exact (run card events).store ∧ (∀ s, Alike (run card events).store s → Exact s) ∧
      operationsLeft card.store ≤ operationsLeft (run card events).store + callOperations * events.length := by
  have bounded : Bounded card.store := bounded_unmounted large (by rw [cold])
  have few : FewFiles card.store := by
    rw [FewFiles, cold]
    decide
  obtain ⟨bounded', range⟩ := run_sound bounded events
  exact ⟨range, bounded', bounded'.exact, fun s alike => (bounded'.alike alike).exact, run_costs few events⟩

/-- A chip that boots with 16 bytes of FLASH above the factory files is given an EF that
takes them all, and the EF its last two bytes. -/
def fillingUp : List CardEvent :=
  [.init,
    .apdu (some [0x00, 0xE0, 0x00, 0x00, 0x0B, 0x82, 0x01, 0x01, 0x83, 0x02, 0x6F, 0x07, 0x80, 0x02, 0x00, 0x10]) 258,
    .apdu (some [0x00, 0xA4, 0x00, 0x0C, 0x02, 0x6F, 0x07]) 258,
    .apdu (some [0x00, 0xD6, 0x00, 0x0E, 0x02, 0xAB, 0xCD]) 258]

/-- The two bytes are read back from where they belong, and the next allocation is refused. -/
theorem storage_never_overrun_filling_up :
    let card := run (blankCard 656 128) fillingUp
    card.store.hal.rangeErrors = 0 ∧ card.store.sb.dataTop.toNat = 112 + 16 ∧
      (scosProcess (some [0x00, 0xB0, 0x00, 0x0E, 0x02]) 258 card).2.1 = [0xAB, 0xCD, 0x90, 0x00] ∧
      (fsEfReadNat card.kernel.sel.curEf 14 256 card.store).1 = .ok [0xAB, 0xCD] ∧
      ∃ e, fsStoreAllocData 1 card.store = (.error e, card.store) := by
  obtain ⟨range, -, exact, -⟩ := storage_never_overrun (blankCard 656 128) (by decide) rfl fillingUp
  have evaluated :
      (run (blankCard 656 128) fillingUp).store.sb.dataTop.toNat = 112 + 16 ∧
      (run (blankCard 656 128) fillingUp).store.hal.nvm.flash.size.toNat = 128 ∧
      (scosProcess (some [0x00, 0xB0, 0x00, 0x0E, 0x02]) 258 (run (blankCard 656 128) fillingUp)).2.1 =
        [0xAB, 0xCD, 0x90, 0x00] ∧
      (fsEfRead (run (blankCard 656 128) fillingUp).kernel.sel.curEf 14 256
        (run (blankCard 656 128) fillingUp).store).1 = .ok [0xAB, 0xCD] := by decide +kernel
  generalize run (blankCard 656 128) fillingUp = card at range exact evaluated ⊢
  obtain ⟨top, flash, answer, read⟩ := evaluated
  have full := exact.allocates 1
  rw [top, flash, if_neg (by simp)] at full
  rw [exact.readsData] at read
  exact ⟨range, top, answer, read, full⟩

end Runs

end CardOs.OverrunProofs
