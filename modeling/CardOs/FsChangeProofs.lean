import CardOs.FsProofs
import CardOs.StorageProofs

/-! Everything the logical layer writes. A new file is placed at the top of the
data space and in a free slot, a deleted file leaves as a leaf, an update stays
inside the data of one EF. The outcomes say what a failing device can leave
behind: an earlier stage of the same change, never anything else. -/
namespace CardOs.FsChangeProofs
open CardOs.Library CardOs.Library.Action CardOs.FsTypes CardOs.HalNvm CardOs.FsStore CardOs.FsStoreProofs
open CardOs.Fs CardOs.FileTree CardOs.FsProofs
open CardOs.StorageProofs (data_position amount_toNat amount_le)

variable {s s' : Store} {t : FileTree} {slot : UInt16} {d : FsDescriptor} {sel : FsSelection}

section Data
variable {index offset len : UInt16} {src : List UInt8} {result : Except FsError Unit}

theorem data_inside (ready : Ready s t) (live : t.table index = some d) (ef : fsIsEf d = true) :
    d.dataOffset.toNat + d.size.toNat ≤ s.hal.nvm.flash.size.toNat :=
  (ready.holds.legal index d live).inside (by simpa [fsIsEf] using ef)

/-- Reading an EF returns bytes of that EF's own data, from the offset on. -/
theorem fsEfRead_inspects (ready : Ready s t) (index offset len : UInt16) :
    Inspects (fsEfRead index offset len) s fun bytes => ∃ d, t.table index = some d ∧
      fsIsEf d = true ∧ fsIsUsable d = true ∧ offset.toNat + bytes.length ≤ d.size.toNat ∧
      bytes.length ≤ len.toNat ∧
      bytes = s.hal.nvm.flash.read (d.dataOffset.toNat + offset.toNat) bytes.length := by
  apply inspects_bind (resolve_inspects ready index)
  rintro d ⟨live, usable⟩
  split
  · exact inspects_fail
  · rename_i ef
    have ef : fsIsEf d = true := by simpa using ef
    split
    · exact inspects_fail
    · rename_i below
      have inside := UInt16.le_iff_toNat_le.mp (UInt16.not_lt.mp below)
      have few := amount_le len (UInt16.not_lt.mp below)
      dsimp only
      generalize (if len < d.size - offset then len else d.size - offset) = toRead at few
      split
      · exact inspects_pure ⟨d, live, ef, usable, by simpa using inside, Nat.zero_le _, rfl⟩
      · rename_i some
        have fits := data_inside ready live ef
        have position := data_position fits inside
        have read := halNvmRead_reliable .flash (d.dataOffset + offset.toUInt32) toRead.toNat ready.reads
          (by rw [position]; simp only [Nvm.region]; omega)
        unfold fsStoreReadData
        apply inspects_state_bind
        rw [if_neg some, ready.mounted]
        refine inspects_of_eq (liftHal_ok read) ?_
        rintro bytes ⟨⟩
        refine ⟨d, live, ef, usable, ?_, ?_, ?_⟩
        · rw [Region.read_length]; omega
        · rw [Region.read_length]; exact few.1
        · rw [Region.read_length, position]; rfl

/-- A usable EF reads as the FLASH cells of its data, as far as they go. -/
theorem fsEfRead_live (ready : Ready s t) (live : t.table index = some d) (ef : fsIsEf d = true)
    (usable : fsIsUsable d = true) (inside : offset ≤ d.size) (len : UInt16) :
    fsEfRead index offset len s =
      (.ok (s.hal.nvm.flash.read (d.dataOffset.toNat + offset.toNat) (min len.toNat (d.size.toNat - offset.toNat))),
        s) := by
  have resolved : resolve index s = (.ok d, s) := by
    rw [resolve, bind_ok (readDesc_live ready live), usable]
    rfl
  have offsetInside := UInt16.le_iff_toNat_le.mp inside
  have fits := data_inside ready live ef
  have position := data_position fits offsetInside
  have amount := amount_toNat len inside
  rw [fsEfRead, bind_ok resolved]
  simp only [ef, Bool.not_true, Bool.false_eq_true, if_false, if_neg (UInt16.not_lt.mpr inside)]
  generalize (if len < d.size - offset then len else d.size - offset) = toRead at amount
  rw [← amount]
  split
  · rename_i none
    rw [none]
    rfl
  · rename_i some
    have read := halNvmRead_reliable .flash (d.dataOffset + offset.toUInt32) toRead.toNat ready.reads
      (by rw [position]; simp only [Nvm.region]; omega)
    rw [fsStoreReadData, state_bind, if_neg some, ready.mounted]
    simp only [Bool.not_true, Bool.false_eq_true, if_false]
    rw [liftHal_ok read, position]
    rfl

/-- A byte of a usable EF is the FLASH cell at its place. -/
theorem fsEfRead_byte (ready : Ready s t) (live : t.table index = some d) (ef : fsIsEf d = true)
    (usable : fsIsUsable d = true) (inside : offset < d.size) :
    fsEfRead index offset 1 s = (.ok [s.hal.nvm.flash.byte (d.dataOffset.toNat + offset.toNat)], s) := by
  have below := UInt16.lt_iff_toNat_lt.mp inside
  rw [fsEfRead_live ready live ef usable (UInt16.le_of_lt inside), UInt16.toNat_one, Nat.min_eq_left (by omega)]
  rfl

/-- How an update of an EF may end. A refused one changes nothing; otherwise the
bytes go inside the data of the addressed EF and the tree stays as it was. -/
inductive Updated (t : FileTree) (index offset : UInt16) (src : List UInt8) (s : Store) :
    Except FsError Unit → Store → Prop
  | refused (e : FsError) : Updated t index offset src s (.error e) s
  | done {s' : Store} (d : FsDescriptor) (live : t.table index = some d) (ef : fsIsEf d = true)
      (usable : fsIsUsable d = true) (inside : offset.toNat + src.length ≤ d.size.toNat)
      (ready : Ready s' t) (sb : s'.sb = s.sb)
      (nvm : s'.hal.nvm = s.hal.nvm.write .flash (d.dataOffset.toNat + offset.toNat) src)
      (reliable : s.hal.writeFaults = [] → s'.hal.writeFaults = []) :
      Updated t index offset src s (.ok ()) s'
  | torn {s' : Store} (e : FsError) (faulty : s.hal.writeFaults ≠ []) (ready : Ready s' t) :
      Updated t index offset src s (.error e) s'

theorem fsEfWrite_updated (ready : Ready s t) (nonempty : src ≠ [])
    (ran : fsEfWrite index offset src s = (result, s')) : Updated t index offset src s result s' := by
  unfold fsEfWrite at ran
  rw [if_neg (by simpa using nonempty)] at ran
  rcases inspects_cases (resolve_inspects ready index) with ⟨d, target, live, usable⟩ | ⟨e, target⟩
  · rw [bind_ok target] at ran
    split at ran
    · cases ran
      exact .refused .wrongType
    · rename_i ef
      have ef : fsIsEf d = true := by simpa using ef
      split at ran
      · cases ran
        exact .refused .range
      · rename_i within
        have inside := Nat.not_lt.mp within
        have fits := data_inside ready live ef
        have position := data_position fits (by omega : offset.toNat ≤ d.size.toNat)
        unfold fsStoreWriteData at ran
        rw [state_bind, if_neg nonempty, ready.mounted] at ran
        have written := writeDurably_written nonempty
          (by rw [position]; simp only [Nvm.region]; omega) ran
        rw [position] at written
        have held : Ready s' t := by
          rcases written.nvm with stored | ⟨same, _⟩
          · exact ready.carry written.sb written.reads (stored ▸ ready.holds.write_flash) ready.mirror
              (by rw [stored, Nvm.write_flash_flash, Region.write_size])
          · exact ready.carry written.sb written.reads (same ▸ ready.holds) ready.mirror (by rw [same])
        cases result with
        | error e =>
          refine .torn e ?_ held
          intro faultless
          exact absurd (written.reliable faultless).1 (by simp)
        | ok u =>
          have stored := written.nvm.resolve_right fun failed => failed.2 rfl
          exact .done d live ef usable inside held written.sb stored
            fun faultless => (written.reliable faultless).2
  · rw [bind_error target] at ran
    cases ran
    exact .refused e

end Data

/-- The descriptor a new file gets: an EF starts at the data top in RAM. -/
def placedAt (s : Store) (d : FsDescriptor) : FsDescriptor :=
  if d.type = .efTransparent then { d with dataOffset := s.sb.dataTop } else d

/-- A file that may enter the tree in this slot once it has its data space. -/
structure Admissible (t : FileTree) (slot : UInt16) (d : FsDescriptor) : Prop where
  bound : slot < fsMaxFiles
  free : t.table slot = none
  file : FileOk t.table d
  newId : ∀ i e, t.table i = some e → ¬ SameId e d
  newSfi : ∀ i e, t.table i = some e → ¬ SameSfi e d

/-- How placing a file may end. -/
inductive Placed (t : FileTree) (slot : UInt16) (d : FsDescriptor) (s : Store) :
    Except FsError Unit → Store → Prop
  | noSpace (ef : d.type = .efTransparent)
      (full : s.hal.nvm.flash.size.toNat < s.sb.dataTop.toNat + d.size.toNat) :
      Placed t slot d s (.error .noSpace) s
  | done {s' : Store} {top : UInt32} (ok : Insertable t slot (placedAt s d) top)
      (ready : Ready s' (t.insert ok)) (flash : s'.hal.nvm.flash = s.hal.nvm.flash)
      (grown : s'.sb.dataTop.toNat =
        s.sb.dataTop.toNat + if d.type = .efTransparent then d.size.toNat else 0)
      (reliable : s.hal.writeFaults = [] → s'.hal.writeFaults = []) :
      Placed t slot d s (.ok ()) s'
  | torn {s' : Store} {t' : FileTree} (e : FsError) (faulty : s.hal.writeFaults ≠ [])
      (ready : Ready s' t') (kept : ∀ i e, t.table i = some e → t'.table i = some e) :
      Placed t slot d s (.error e) s'

section Place
variable {result : Except FsError Unit} {top : UInt32}

private theorem insertable_df (may : Admissible t slot d) (df : d.type ≠ .efTransparent) :
    Insertable t slot d t.top :=
  { may with raise := UInt32.le_refl _, data := fun ef => absurd ef df }

private theorem insertable_ef (may : Admissible t slot d) (ready : Ready s t)
    (grown : top.toNat = s.sb.dataTop.toNat + d.size.toNat) :
    Insertable t slot { d with dataOffset := s.sb.dataTop } top where
  bound := may.bound
  free := may.free
  file := ⟨may.file.kind, may.file.parent, may.file.id, may.file.size⟩
  newId := may.newId
  newSfi := may.newSfi
  raise := by
    have mirror := UInt32.le_iff_toNat_le.mp ready.mirror
    exact UInt32.le_iff_toNat_le.mpr (by omega)
  data _ := ⟨ready.mirror, Nat.le_of_eq grown.symm⟩

theorem kept_insert {e : FsDescriptor} {i : UInt16} (ok : Insertable t slot d top)
    (live : t.table i = some e) : (t.insert ok).table i = some e := by
  have other : i ≠ slot := by
    intro same
    rw [same, ok.free] at live
    cases live
  exact (Function.update_of_ne other _ _).trans live

theorem writeDesc_eq {table : Table} (ready : Mounted s table top) (bound : slot < fsMaxFiles)
    (file : d.type ≠ .free) :
    fsStoreWriteDesc slot d s = writeDurably .eeprom (descOffset slot) (slotBytes (some d)) .nvm s := by
  unfold fsStoreWriteDesc
  rw [state_bind, ready.mounted, ready.maxFiles, if_neg (by simp), if_neg (UInt16.not_le.mpr bound),
    if_neg file]
  rfl

/-- Writing the descriptor of an insertable file whose data space is taken. -/
private theorem writeDesc_inserts (ok : Insertable t slot d top) (ready : Mounted s t.table top)
    (legal : Legal s.hal.nvm.flash.size d) (ran : fsStoreWriteDesc slot d s = (result, s')) :
    s'.sb = s.sb ∧ s'.hal.nvm.flash = s.hal.nvm.flash ∧
      (Ready s' (t.insert ok) ∨ (Mounted s' t.table top ∧ result ≠ .ok ())) ∧
      (s.hal.writeFaults = [] → result = .ok () ∧ s'.hal.writeFaults = []) := by
  rw [writeDesc_eq ready ok.bound legal.file] at ran
  exact writeSlot_mounted ready ok.bound (fun _ same => Option.some.inj same ▸ legal) ran

theorem placeFile_placed (may : Admissible t slot d) (ready : Ready s t)
    (ran : placeFile slot d s = (result, s')) : Placed t slot d s result s' := by
  have file : d.type ≠ .free := by
    intro free
    rcases may.file.kind with kind | kind
    · rw [free] at kind; cases kind
    · rw [free] at kind; cases kind
  unfold placeFile at ran
  by_cases ef : d.type = .efTransparent
  · rcases taken : fsStoreAllocData d.size s with ⟨allocated, s₁⟩
    have given : allocateFor d s =
        (allocated.map fun offset => { d with dataOffset := offset }, s₁) := by
      unfold allocateFor
      rw [if_pos ef]
      cases allocated with
      | error e => exact bind_error taken
      | ok offset => exact bind_ok taken
    rcases allocData_mounted ready taken with ⟨refused, same, full⟩ | ⟨grown, flash, outcome, reliable⟩
    · subst refused same
      rw [bind_error given] at ran
      cases ran
      exact .noSpace ef full
    · rcases outcome with ⟨granted, staged⟩ | ⟨⟨e, failed⟩, staged⟩
      · subst granted
        rw [bind_ok given] at ran
        have ok := insertable_ef may ready grown
        have legal : Legal s₁.hal.nvm.flash.size { d with dataOffset := s.sb.dataTop } := by
          refine ⟨file, fun _ => ?_⟩
          have inside := UInt32.le_iff_toNat_le.mp staged.mirrorInside
          dsimp only
          omega
        obtain ⟨sb, flash', outcome, reliable'⟩ := writeDesc_inserts ok staged legal ran
        have here : placedAt s d = { d with dataOffset := s.sb.dataTop } := if_pos ef
        cases result with
        | error e =>
          have faulty : s.hal.writeFaults ≠ [] := by
            intro faultless
            exact absurd (reliable' (reliable faultless).2).1 (by simp)
          rcases outcome with ready' | ⟨kept, _⟩
          · exact .torn e faulty ready' fun _ _ => kept_insert ok
          · exact .torn e faulty (show Ready s' (t.reserve ok.raise) from kept) fun _ _ live => live
        | ok u =>
          have ready' := outcome.resolve_right fun failed => failed.2 rfl
          rw [← here] at ok
          refine .done ok ?_ (flash'.trans flash) ?_ ?_
          · simpa only [here] using ready'
          · rw [sb, grown, if_pos ef]
          · intro faultless
            exact (reliable' (reliable faultless).2).2
      · subst failed
        rw [bind_error given] at ran
        cases ran
        have faulty : s.hal.writeFaults ≠ [] := by
          intro faultless
          exact absurd (reliable faultless).1 (by simp)
        rcases staged with raised | kept
        · have up := (insertable_ef may ready grown).raise
          exact .torn e faulty (show Ready s' (t.reserve up) from raised) fun _ _ live => live
        · exact .torn e faulty kept fun _ _ live => live
  · have given : allocateFor d s = (.ok d, s) := by
      unfold allocateFor
      rw [if_neg ef]
      rfl
    rw [bind_ok given] at ran
    have ok := insertable_df may ef
    have legal : Legal s.hal.nvm.flash.size d := ⟨file, fun isEf => absurd isEf ef⟩
    obtain ⟨sb, flash, outcome, reliable⟩ := writeDesc_inserts ok ready legal ran
    have here : placedAt s d = d := if_neg ef
    cases result with
    | error e =>
      have faulty : s.hal.writeFaults ≠ [] := by
        intro faultless
        exact absurd (reliable faultless).1 (by simp)
      rcases outcome with ready' | ⟨kept, _⟩
      · exact .torn e faulty ready' fun _ _ => kept_insert ok
      · exact .torn e faulty kept fun _ _ live => live
    | ok u =>
      have ready' := outcome.resolve_right fun failed => failed.2 rfl
      rw [← here] at ok
      refine .done ok ?_ flash ?_ fun faultless => (reliable faultless).2
      · simpa only [here] using ready'
      · rw [sb, if_neg ef]; rfl

end Place

section Create
variable {req : FsDescriptor} {result : Except FsError UInt16}

/-- What the refusals of `fs_create_file` leave of a request. -/
theorem request_ok (passed : checkRequestType req = none) :
    (req.type = .df ∧ req.size = 0 ∧ req.sfi = fsNoSfi ∨ req.type = .efTransparent ∧ 1 ≤ req.size ∧
      req.size ≤ fsMaxEfSize) ∧ req.sfi ≤ 30 := by
  unfold checkRequestType at passed
  cases kind : req.type with
  | df =>
    simp only [kind] at passed
    split at passed
    · cases passed
    · rename_i plain
      obtain ⟨noSize, noSfi⟩ := not_or.mp plain
      have none : req.sfi = fsNoSfi := not_not.mp noSfi
      exact ⟨.inl ⟨rfl, not_not.mp noSize, none⟩, by rw [none]; decide⟩
  | efTransparent =>
    simp only [kind] at passed
    split at passed
    · cases passed
    · rename_i sized
      obtain ⟨nonzero, small⟩ := not_or.mp sized
      split at passed
      · cases passed
      · rename_i short
        have positive : 1 ≤ req.size := by
          apply UInt16.le_iff_toNat_le.mpr
          exact Nat.pos_of_ne_zero fun zero => nonzero (UInt16.toNat_inj.mp zero)
        refine ⟨.inr ⟨rfl, positive, UInt16.not_lt.mp small⟩, ?_⟩
        by_cases none : req.sfi = fsNoSfi
        · rw [none]; decide
        · apply UInt8.not_lt.mp
          intro large
          exact short ⟨none, .inr large⟩
  | mf =>
    simp only [kind] at passed
    cases passed
  | free =>
    simp only [kind] at passed
    cases passed

theorem sfiTaken_decides (ready : Ready s t) (df : UInt16) {sfi : UInt8} (small : sfi ≤ 30) :
    (sfiTaken df sfi s = (.ok false, s) ∧
        (sfi ≠ fsNoSfi → ∀ i d, t.table i = some d → d.parent = df → fsIsEf d = true → d.sfi ≠ sfi)) ∨
      (sfiTaken df sfi s = (.ok true, s) ∧ sfi ≠ fsNoSfi ∧
        ∃ i d, t.table i = some d ∧ d.parent = df ∧ fsIsEf d = true ∧ d.sfi = sfi) := by
  unfold sfiTaken
  by_cases none : sfi = fsNoSfi
  · rw [if_pos none]
    exact .inl ⟨rfl, absurd none⟩
  · rw [if_neg none, attempt_bind]
    rcases fsFindBySfi_cases ready df sfi with ⟨i, d, found, live, child, ef, same, _⟩ | ⟨e, missing, fresh⟩
    · rw [found]
      exact .inr ⟨rfl, none, i, d, live, child, ef, same⟩
    · rw [missing]
      exact .inl ⟨rfl, fun named => fresh named small⟩

/-- A request that passed every check may enter the tree in the slot found. -/
theorem createChecks_inspects (ready : Ready s t) (sel : FsSelection) (req : FsDescriptor) :
    Inspects (createChecks sel req) s fun slot => Admissible t slot (newDescriptor sel req) := by
  apply inspects_bind (readDesc_inspects ready sel.curDf)
  intro parent parentLive
  split
  · exact inspects_fail
  rename_i isDf
  split
  · exact inspects_fail
  split
  · exact inspects_fail
  rename_i unreserved
  cases passed : checkRequestType req with
  | some e => exact inspects_fail
  | none =>
    obtain ⟨kind, sfi⟩ := request_ok passed
    dsimp only
    split
    · exact inspects_fail
    rcases fsFindChild_cases ready sel.curDf req.fileId with ⟨i, d, found, _⟩ | ⟨missing, freshId⟩
    · exact inspects_of_eq (r := .error .exists) (by rw [attempt_bind, found]; rfl) (by simp)
    · unfold Inspects
      rw [attempt_bind, missing]
      rcases sfiTaken_decides ready sel.curDf sfi with ⟨untaken, freshSfi⟩ | ⟨taken, _⟩
      swap
      · exact inspects_of_eq (r := .error .exists) (by dsimp only; rw [bind_ok taken]; rfl) (by simp)
      dsimp only
      rw [bind_ok untaken]
      obtain ⟨slot, free, unused, _⟩ := fsStoreFindFreeSlot_spec ready
      apply inspects_bind (Q := fun found => found = slot)
        (inspects_of_eq free fun _ same => (Except.ok.inj same).symm)
      rintro _ rfl
      split
      · exact inspects_fail
      rename_i valid
      obtain ⟨bound, empty⟩ := unused valid
      refine inspects_pure ⟨bound, empty, ⟨?_, ⟨parent, parentLive, by simpa using isDf⟩, ?_, ?_⟩, ?_, ?_⟩
      · rcases kind with ⟨df, _⟩ | ⟨ef, _⟩
        · exact .inl df
        · exact .inr ef
      · exact Bool.eq_false_iff.mpr unreserved
      · intro ef
        rcases kind with ⟨df, _⟩ | ⟨_, sized⟩
        · exact absurd (df.symm.trans ef) (by simp)
        · exact sized
      · rintro i e live ⟨siblings, same⟩
        exact freshId i e live siblings same
      · rintro i e live ⟨ef, _, siblings, same, named⟩
        have named : req.sfi ≠ fsNoSfi := fun none => named (same.trans none)
        exact freshSfi named i e live siblings (by simp [fsIsEf, ef]) same

/-- Nothing in the tree stands against the request. -/
structure Fresh (t : FileTree) (sel : FsSelection) (req : FsDescriptor) : Prop where
  unreserved : fidIsReserved req.fileId = false
  newId : ∀ i d, t.table i = some d → d.parent = sel.curDf → d.fileId ≠ req.fileId
  newSfi : req.sfi ≠ fsNoSfi → ∀ i d, t.table i = some d → d.parent = sel.curDf → fsIsEf d = true → d.sfi ≠ req.sfi
  slot : ∃ i, i < fsMaxFiles ∧ t.table i = none

/-- A sound request passes all checks exactly when nothing in the tree stands against it. -/
theorem createChecks_decides (ready : Ready s t) (df : DfSelected t sel) (sound : checkRequestType req = none)
    (creatable : lifecycleCreatable req.lifecycle = true) :
    (Fresh t sel req ∧ ∃ slot, createChecks sel req s = (.ok slot, s)) ∨
      (¬ Fresh t sel req ∧ ∃ e, e ≠ .param ∧ createChecks sel req s = (.error e, s)) := by
  obtain ⟨parent, live, isDf, usable⟩ := df
  rw [createChecks, bind_ok (readDesc_live ready live)]
  simp only [isDf, usable, Bool.not_true, Bool.false_eq_true, if_false]
  cases reserved : fidIsReserved req.fileId with
  | true => exact .inr ⟨fun fresh => by simp [fresh.unreserved] at reserved, .exists, by simp, rfl⟩
  | false =>
    simp only [Bool.false_eq_true, if_false, sound, creatable, Bool.not_true, attempt_bind]
    rcases fsFindChild_cases ready sel.curDf req.fileId with ⟨i, d, found, taken, child, same⟩ | ⟨missing, newId⟩
    · rw [found]
      exact .inr ⟨fun fresh => fresh.newId i d taken child same, .exists, by simp, rfl⟩
    rw [missing]
    dsimp only
    rcases sfiTaken_decides ready sel.curDf (request_ok sound).2 with
      ⟨free, newSfi⟩ | ⟨taken, named, i, d, there, child, ef, same⟩
    · rw [bind_ok free]
      simp only [Bool.false_eq_true, if_false]
      obtain ⟨slot, found, unused, full⟩ := fsStoreFindFreeSlot_spec ready
      rw [bind_ok found]
      by_cases invalid : slot = fsInvalidIndex
      · rw [if_pos invalid]
        refine .inr ⟨fun fresh => ?_, .noSpace, by simp, rfl⟩
        obtain ⟨i, bound, empty⟩ := fresh.slot
        exact full invalid i bound empty
      · rw [if_neg invalid]
        exact .inl ⟨⟨reserved, newId, newSfi, slot, unused invalid⟩, slot, rfl⟩
    · rw [bind_ok taken]
      exact .inr ⟨fun fresh => fresh.newSfi named i d there child ef same, .exists, by simp, rfl⟩

/-- A sound request that nothing stands against passes all checks. -/
theorem createChecks_passes (ready : Ready s t) (df : DfSelected t sel) (sound : checkRequestType req = none)
    (creatable : lifecycleCreatable req.lifecycle = true) (fresh : Fresh t sel req) :
    ∃ slot, createChecks sel req s = (.ok slot, s) :=
  (createChecks_decides ready df sound creatable).elim And.right fun refused => absurd fresh refused.1

/-- How a creation may end: refused with nothing changed, or placed in a free
slot as a file that may enter the tree. -/
inductive Created (t : FileTree) (sel : FsSelection) (req : FsDescriptor) (s : Store) :
    Except FsError UInt16 → Store → Prop
  | refused (e : FsError) : Created t sel req s (.error e) s
  | placed {s' : Store} (slot : UInt16) (outcome : Except FsError Unit)
      (may : Admissible t slot (newDescriptor sel req))
      (placed : Placed t slot (newDescriptor sel req) s outcome s') :
      Created t sel req s (outcome.map fun _ => slot) s'

theorem fsCreateFile_created (ready : Ready s t) (ran : fsCreateFile sel req s = (result, s')) :
    Created t sel req s result s' := by
  unfold fsCreateFile at ran
  rcases inspects_cases (createChecks_inspects ready sel req) with ⟨slot, passed, may⟩ | ⟨e, failed⟩
  · rw [bind_ok passed] at ran
    rcases placed : placeFile slot (newDescriptor sel req) s with ⟨outcome, s₁⟩
    have result_eq : result = outcome.map (fun _ => slot) ∧ s' = s₁ := by
      cases outcome with
      | error e => rw [bind_error placed] at ran; cases ran; exact ⟨rfl, rfl⟩
      | ok u => rw [bind_ok placed] at ran; cases ran; exact ⟨rfl, rfl⟩
    obtain ⟨rfl, rfl⟩ := result_eq
    exact .placed slot outcome may (placeFile_placed may ready placed)
  · rw [bind_error failed] at ran
    cases ran
    exact .refused e

end Create

section Delete
variable {result : Except FsError FsSelection}

/-- How a deletion may end. The file that leaves is a leaf of the current DF; only
a deletion without an error also fixes the selection up. -/
inductive Deleted (t : FileTree) (sel : FsSelection) (s : Store) :
    Except FsError FsSelection → Store → Prop
  | refused (e : FsError) : Deleted t sel s (.error e) s
  | done {s' : Store} (slot : UInt16) (d : FsDescriptor) (live : t.table slot = some d)
      (child : d.parent = sel.curDf) (ok : Removable t slot) (ready : Ready s' (t.remove ok))
      (flash : s'.hal.nvm.flash = s.hal.nvm.flash) (sb : s'.sb = s.sb)
      (reliable : s.hal.writeFaults = [] → s'.hal.writeFaults = []) :
      Deleted t sel s (.ok (deselect sel slot)) s'
  | torn {s' : Store} {t' : FileTree} (e : FsError) (faulty : s.hal.writeFaults ≠ [])
      (ready : Ready s' t') (kept : t'.table sel.curDf = t.table sel.curDf) :
      Deleted t sel s (.error e) s'

theorem freeDesc_eq {table : Table} {top : UInt32} (ready : Mounted s table top)
    (bound : slot < fsMaxFiles) :
    fsStoreFreeDesc slot s = writeDurably .eeprom (descOffset slot) (slotBytes none) .nvm s := by
  unfold fsStoreFreeDesc
  rw [state_bind, ready.mounted, ready.maxFiles, if_neg (by simp), if_neg (UInt16.not_le.mpr bound)]
  rfl

private theorem hasChildren_inspects (ready : Ready s t) (live : t.table slot = some d) :
    Inspects (hasChildren slot d) s fun occupied => occupied = false →
      ∀ i e, t.table i = some e → e.parent ≠ slot := by
  unfold hasChildren
  split
  · rename_i notDf
    apply inspects_pure
    rintro _ i e child rfl
    have valid : e.parent ≠ fsNoParent := live_ne_invalid live
    obtain ⟨p, parentLive, isDf⟩ := parent_df child valid
    rw [live] at parentLive
    cases parentLive
    simp [isDf] at notDf
  · obtain ⟨count, counted, childless⟩ := fsChildCount_spec ready slot
    refine inspects_of_eq (r := .ok (count > 0)) (by rw [bind_ok counted]; rfl) ?_
    rintro occupied ⟨⟩ empty
    have small := UInt16.not_lt.mp (of_decide_eq_false empty)
    exact childless.mp (UInt16.toNat_inj.mp (Nat.le_zero.mp (UInt16.le_iff_toNat_le.mp small)))

private theorem hasChildren_leaf (ready : Ready s t) (leaf : ∀ i e, t.table i = some e → e.parent ≠ slot)
    (d : FsDescriptor) : hasChildren slot d s = (.ok false, s) := by
  unfold hasChildren
  split
  · rfl
  · obtain ⟨count, counted, childless⟩ := fsChildCount_spec ready slot
    rw [bind_ok counted, childless.mpr leaf]
    rfl

/-- What `fs_delete_file` goes on to free is a leaf of the current DF. -/
theorem deleteChecks_inspects (ready : Ready s t) (sel : FsSelection) (fileId : UInt16) :
    Inspects (deleteChecks sel fileId) s fun slot =>
      ∃ d, t.table slot = some d ∧ d.parent = sel.curDf ∧ Removable t slot := by
  unfold deleteChecks
  split
  · exact inspects_fail
  apply inspects_bind (fsFindChild_inspects ready sel.curDf fileId)
  rintro slot ⟨d, live, child⟩
  apply inspects_bind (readDesc_inspects ready slot)
  intro e live'
  rw [live] at live'
  cases live'
  split
  · exact inspects_fail
  rename_i notMf
  apply inspects_bind (hasChildren_inspects ready live)
  intro occupied leaf
  split
  · exact inspects_fail
  rename_i empty
  exact inspects_pure ⟨d, live, child, ne_root live notMf, leaf (Bool.eq_false_iff.mpr empty)⟩

/-- An EF is a leaf. -/
theorem removable_ef (live : t.table slot = some d) (ef : d.type = .efTransparent) : Removable t slot where
  notRoot := ne_root live (by simp [ef])
  leaf := by
    rintro i e child rfl
    obtain ⟨p, parentLive, isDf⟩ := parent_df child (live_ne_invalid live)
    cases live.symm.trans parentLive
    simp [fsIsDf, ef] at isDf

/-- A leaf of the current DF passes the checks of a deletion. -/
theorem deleteChecks_passes (ready : Ready s t) (live : t.table slot = some d) (child : d.parent = sel.curDf)
    (ok : Removable t slot) : deleteChecks sel d.fileId s = (.ok slot, s) := by
  have found : fsFindChild sel.curDf d.fileId s = (.ok slot, s) := by
    rcases fsFindChild_cases ready sel.curDf d.fileId with ⟨i, e, found, taken, under, same⟩ | ⟨_, fresh⟩
    · rw [found, t.ids i slot e d taken live ⟨under.trans child.symm, same⟩]
    · exact absurd rfl (fresh slot d live child)
  have notMf : d.type ≠ .mf := fun mf => ok.notRoot (mf_is_root live mf)
  rw [deleteChecks, if_neg (fileId_ne_mf live ok.notRoot), bind_ok found, bind_ok (readDesc_live ready live),
    if_neg notMf, bind_ok (hasChildren_leaf ready ok.leaf d)]
  rfl

/-- Without a fault a leaf of the current DF is deleted. -/
theorem fsDeleteFile_leaf (ready : Ready s t) (reliable : s.hal.writeFaults = []) (live : t.table slot = some d)
    (child : d.parent = sel.curDf) (ok : Removable t slot) :
    ∃ s', fsDeleteFile sel d.fileId s = (.ok (deselect sel slot), s') ∧ Ready s' (t.remove ok) ∧ s'.sb = s.sb := by
  have bound := t.bounded slot d live
  rcases freed : fsStoreFreeDesc slot s with ⟨outcome, s'⟩
  obtain ⟨sb, -, state, done⟩ := writeSlot_mounted ready bound (by simp) ((freeDesc_eq ready bound).symm.trans freed)
  obtain ⟨rfl, -⟩ := done reliable
  have removed : Ready s' (t.remove ok) := state.resolve_right fun failed => failed.2 rfl
  exact ⟨s', (bind_ok (deleteChecks_passes ready live child ok)).trans (bind_ok freed), removed, sb⟩

theorem fsDeleteFile_deleted {fileId : UInt16} (ready : Ready s t)
    (ran : fsDeleteFile sel fileId s = (result, s')) : Deleted t sel s result s' := by
  unfold fsDeleteFile at ran
  rcases inspects_cases (deleteChecks_inspects ready sel fileId) with
    ⟨slot, passed, d, live, child, ok⟩ | ⟨e, failed⟩
  · rw [bind_ok passed] at ran
    have other : sel.curDf ≠ slot := fun same => parent_ne_self live (child.trans same)
    have bound := t.bounded slot d live
    rcases freed : fsStoreFreeDesc slot s with ⟨outcome, s₁⟩
    obtain ⟨sb, flash, state, reliable⟩ :=
      writeSlot_mounted ready bound (by simp) ((freeDesc_eq ready bound).symm.trans freed)
    cases outcome with
    | error e =>
      rw [bind_error freed] at ran
      cases ran
      have faulty : s.hal.writeFaults ≠ [] := by
        intro faultless
        exact absurd (reliable faultless).1 (by simp)
      rcases state with removed | ⟨kept, _⟩
      · exact .torn e faulty (show Ready s' (t.remove ok) from removed) (Function.update_of_ne other _ _)
      · exact .torn e faulty kept rfl
    | ok u =>
      rw [bind_ok freed] at ran
      cases ran
      have removed := state.resolve_right fun failed => failed.2 rfl
      exact .done slot d live child ok removed flash sb fun faultless => (reliable faultless).2
  · rw [bind_error failed] at ran
    cases ran
    exact .refused e

end Delete
end CardOs.FsChangeProofs
