import CardOs.FcpProofs
import CardOs.ResidueProofs

/-! CREATE FILE from template to table: every file that exists can be described and
made again, and of a parsed request only the tree and the room left decide. -/
namespace CardOs.CreationProofs

open CardOs.Library
open CardOs.Library.Action
open CardOs.Library.BigEndian
open CardOs.Library.BerTlv (Item Sequence values)
open CardOs.FsTypes
open CardOs.FsStore
open CardOs.FsStoreProofs
open CardOs.Fs
open CardOs.FileTree
open CardOs.FsProofs
open CardOs.FsChangeProofs
open CardOs.FileCommands
open CardOs.Kernel
open CardOs.CardSafety
open CardOs.StorageProofs
open CardOs.StoreChanges
open CardOs.Transactions
open CardOs.CrashProofs
open CardOs.IsolationProofs
open CardOs.FcpProofs
open CardOs.ResidueProofs (factoryTree factory_member blank_files)

/-! The template of a file. -/

/-- The items of the template that `fs_build_fcp` emits. -/
def fcpItems (d : FsDescriptor) : List Item :=
  [⟨0x82, [fsIsoDescriptorByte d]⟩, ⟨0x83, bytes16 d.fileId⟩] ++ (if fsIsEf d then [⟨0x80, bytes16 d.size⟩] else []) ++
    [⟨0x8A, [d.lifecycle]⟩] ++ (if fsIsEf d ∧ d.sfi ≠ fsNoSfi then [⟨0x88, [d.sfi <<< 3]⟩] else [])

/-- The request that asks for a file like this one. -/
def requestFor (d : FsDescriptor) : FsDescriptor :=
  { fcpStart.req with fileId := d.fileId, type := d.type, lifecycle := d.lifecycle, size := d.size, sfi := d.sfi }

section Template
variable {d : FsDescriptor}

theorem fcpObjects_sequence (d : FsDescriptor) : Sequence (fcpObjects d).flatten (fcpItems d) := by
  have sfi : Sequence (if fsIsEf d ∧ d.sfi ≠ fsNoSfi then [0x88, 0x01, d.sfi <<< 3] else [])
      (if fsIsEf d ∧ d.sfi ≠ fsNoSfi then [⟨0x88, [d.sfi <<< 3]⟩] else []) := by
    split
    · exact .object 0x88 [d.sfi <<< 3] (by decide) (by decide) (by simp) .nil
    · exact .nil
  have lifecycle := Sequence.object 0x8A [d.lifecycle] (by decide) (by decide) (by simp) sfi
  have size : ∀ {bytes items}, Sequence bytes items → Sequence
      ((if fsIsEf d then [0x80, 0x02] ++ bytes16 d.size else []) ++ bytes)
      ((if fsIsEf d then [⟨0x80, bytes16 d.size⟩] else []) ++ items) := by
    intro bytes items rest
    split
    · exact .object 0x80 (bytes16 d.size) (by decide) (by decide) (by simp) rest
    · exact rest
  have fileId := Sequence.object 0x83 (bytes16 d.fileId) (by decide) (by decide) (by simp) (size lifecycle)
  have type := Sequence.object 0x82 [fsIsoDescriptorByte d] (by decide) (by decide) (by simp) fileId
  simpa [fcpObjects, fcpItems] using type

private theorem sfi_shifted {sfi : UInt8} (small : sfi ≤ 30) : (sfi <<< 3) &&& 0x07 = 0 ∧ (sfi <<< 3) >>> 3 = sfi := by
  have bound : sfi.toNat ≤ 30 := UInt8.le_iff_toNat_le.mp small
  have shifted : (sfi <<< 3).toNat = sfi.toNat * 8 := by
    rw [UInt8.toNat_shiftLeft, Nat.shiftLeft_eq]
    exact Nat.mod_eq_of_lt (by simp only [UInt8.reduceToNat, Nat.reduceMod]; omega)
  constructor
  · apply UInt8.toNat_inj.mp
    rw [UInt8.toNat_and, shifted]
    exact (Nat.and_two_pow_sub_one_eq_mod _ 3).trans (by simp)
  · apply UInt8.toNat_inj.mp
    rw [UInt8.toNat_shiftRight, shifted, Nat.shiftRight_eq_div_pow]
    simp

private theorem sizeValue_bytes16 {size : UInt16} (positive : 1 ≤ size) (small : size ≤ fsMaxEfSize) :
    sizeValue (bytes16 size) = some size := by
  have whole : number (bytes16 size) = size.toNat := by
    conv_rhs => rw [← word16_bytes16 size]
    rw [word16_toNat]
    simp [number, bytes16]
  have positive := UInt16.le_iff_toNat_le.mp positive
  have small := UInt16.le_iff_toNat_le.mp small
  rw [sizeValue, whole, if_pos ⟨by simp, positive, small⟩, UInt16.ofNat_toNat]

private theorem fcpItems_tags : ∀ item ∈ fcpItems d, item.tag ∈ fcpTags := by
  intro item member
  simp only [fcpItems, List.mem_append, List.mem_cons, List.not_mem_nil, or_false] at member
  rcases member with (((rfl | rfl) | size) | rfl) | sfi
  · simp [fcpTags]
  · simp [fcpTags]
  · split at size
    · simp [List.mem_singleton.mp size, fcpTags]
    · cases size
  · simp [fcpTags]
  · split at sfi
    · simp [List.mem_singleton.mp sfi, fcpTags]
    · cases sfi

private theorem fcpItems_values (d : FsDescriptor) :
    values 0x82 (fcpItems d) = [[fsIsoDescriptorByte d]] ∧ values 0x83 (fcpItems d) = [bytes16 d.fileId] ∧
      values 0x80 (fcpItems d) = (if fsIsEf d then [bytes16 d.size] else []) ∧
      values 0x8A (fcpItems d) = [[d.lifecycle]] ∧
      values 0x88 (fcpItems d) = (if fsIsEf d ∧ d.sfi ≠ fsNoSfi then [[d.sfi <<< 3]] else []) := by
  by_cases ef : fsIsEf d <;> by_cases named : d.sfi = fsNoSfi <;> simp [fcpItems, ef, named]

/-- A file that could be asked for has a template that asks for it. -/
theorem fcpItems_template (sound : checkRequestType d = none) (creatable : lifecycleCreatable d.lifecycle = true) :
    Template (fcpItems d) (requestFor d) := by
  obtain ⟨kind, small⟩ := request_ok sound
  obtain ⟨types, fileIds, sizes, lifecycles, sfis⟩ := fcpItems_values d
  have fileId : Once fileIdValue (values 0x83 (fcpItems d)) d.fileId :=
    ⟨_, fileIds, congrArg some (word16_bytes16 d.fileId)⟩
  have lifecycle : Once lifecycleValue (values 0x8A (fcpItems d)) d.lifecycle :=
    ⟨_, lifecycles, by simp [lifecycleValue, single, creatable]⟩
  rcases kind with ⟨isDf, noSize, noSfi⟩ | ⟨isEf, positive, fits⟩
  · have notEf : fsIsEf d = false := by simp [fsIsEf, isDf]
    simp only [notEf, Bool.false_eq_true, if_false, false_and] at sizes sfis
    refine ⟨⟨fcpItems_tags, ⟨_, types, ?_⟩, fileId, .inl ⟨sizes, noSize⟩, ?_, fun _ => ⟨noSize, noSfi⟩, rfl⟩,
      .inr lifecycle, .inl ⟨sfis, noSfi⟩⟩
    · rw [fsIsoDescriptorByte, requestFor, isDf]; rfl
    · intro ef
      cases isDf.symm.trans ef
  · have ef : fsIsEf d = true := by simp [fsIsEf, isEf]
    simp only [ef, if_true, true_and] at sizes sfis
    have sfi : AtMostOnce sfiValue (values 0x88 (fcpItems d)) fsNoSfi d.sfi := by
      by_cases none : d.sfi = fsNoSfi
      · exact .inl ⟨by simp [sfis, none], none⟩
      · obtain ⟨whole, back⟩ := sfi_shifted small
        exact .inr ⟨[d.sfi <<< 3], by simp [sfis, none], by simp [sfiValue, single, whole, back, small]⟩
    refine ⟨⟨fcpItems_tags, ⟨_, types, ?_⟩, fileId, .inr ⟨_, sizes, sizeValue_bytes16 positive fits⟩, ?_, ?_, rfl⟩,
      .inr lifecycle, sfi⟩
    · rw [fsIsoDescriptorByte, requestFor, isEf]; rfl
    · rintro - zero
      rw [show d.size = 0 from zero] at positive
      exact absurd positive (by decide)
    · intro df
      cases isEf.symm.trans df

private theorem fsBuildFcp_whole {cap : Nat} (room : 17 ≤ cap) :
    fsBuildFcp d cap = (fcpObjects d).flatten ∧ (fcpObjects d).flatten.length ≤ 17 := by
  have short : (fcpObjects d).flatten.length ≤ 17 := by
    by_cases ef : fsIsEf d <;> by_cases named : d.sfi = fsNoSfi <;> simp [fcpObjects, ef, named]
  exact ⟨if_neg (by omega), short⟩

/-- The template that describes such a file is accepted, bare and wrapped. -/
theorem fcp_parses {cap : Nat} (sound : checkRequestType d = none) (creatable : lifecycleCreatable d.lifecycle = true)
    (room : 17 ≤ cap) :
    parseFcp (fsBuildFcp d cap) (UInt16.ofNat (fsBuildFcp d cap).length) = .ok (requestFor d) ∧
      parseFcp (0x62 :: UInt8.ofNat (fsBuildFcp d cap).length :: fsBuildFcp d cap)
        (UInt16.ofNat ((fsBuildFcp d cap).length + 2)) = .ok (requestFor d) := by
  obtain ⟨whole, short⟩ := fsBuildFcp_whole room
  have sequence := fcpObjects_sequence d
  have lenient := (template_iff.mp (fcpItems_template sound creatable)).1
  rw [whole]
  constructor
  · refine (parseFcp_accepts (by omega)).mpr ⟨fcpItems d, content_bare sequence ?_, lenient⟩
    simp [fcpItems]
  · have outer := Sequence.object 0x62 (fcpObjects d).flatten (by decide) (by decide) (by omega) .nil
    rw [List.append_nil] at outer
    exact (parseFcp_accepts (by simp only [List.length_cons]; omega)).mpr
      ⟨fcpItems d, .wrapped outer sequence, lenient⟩

end Template

/-! Every file of a reachable card could be asked for. -/

/-- The checks of `fs_create_file` that look at the request alone. -/
def Requestable (d : FsDescriptor) : Prop := checkRequestType d = none ∧ lifecycleCreatable d.lifecycle = true

section Files
variable {t : FileTree} {card : Card} {s s' : Store} {sel : FsSelection} {req d : FsDescriptor} {slot i : UInt16}

theorem createChecks_requestable (passed : createChecks sel req s = (.ok slot, s')) : Requestable req := by
  obtain ⟨-, -, -, -, sound, creatable, -⟩ := createChecks_iff.mp passed
  exact ⟨sound, creatable⟩

/-- What an APDU asks CREATE FILE for passes the checks that look at it alone. -/
theorem creation_requestable {cmd : Option (List UInt8)} {cap : UInt16} {c : Apdu.ApduCommand} {data : List UInt8}
    (creation : Creation card cmd cap c data req) : Requestable req := by
  have whole : data.length = c.lc.toNat := parsed_whole creation.parsed data creation.body.1
  have length : UInt16.ofNat data.length = c.lc := by rw [whole, UInt16.ofNat_toNat]
  exact parsed_sound (whole ▸ c.lc.toNat_lt) (length ▸ creation.template)

/-- A file that a command leaves in a slot was there, or it passed the checks. -/
theorem changed_file {cmd : Option (List UInt8)} {cap : UInt16}
    (file : changeFiles t.table (processChange cmd cap card) i = some d) :
    t.table i = some d ∨ ∃ req offset, Requestable req ∧
      d = { newDescriptor card.kernel.sel req with dataOffset := offset } := by
  by_cases old : t.table i = some d
  · exact .inl old
  have arrives : ∀ {slot e}, Function.update t.table slot e i = some d → e = some d := by
    intro slot e updated
    by_cases here : i = slot
    · rwa [here, Function.update_self] at updated
    · rw [Function.update_of_ne here] at updated
      exact absurd updated old
  obtain ⟨c, data, req, -, file⟩ := (processChange_creates cmd cap card
    (P := fun change => changeFiles t.table change i = some d) old (fun _ _ => old)
    (fun slot freed => nomatch arrives freed)).mp file
  rcases createChange_cases card.kernel.sel req card.store with
    nothing | ⟨slot, s', passed, ⟨-, change⟩ | ⟨-, top, -, -, change⟩⟩
  · rw [nothing] at file
    exact absurd file old
  · rw [change] at file
    exact .inr ⟨req, 0, createChecks_requestable passed, (Option.some.inj (arrives file)).symm⟩
  · rw [change] at file
    exact .inr ⟨req, _, createChecks_requestable passed, (Option.some.inj (arrives file)).symm⟩

/-- Apart from the MF, what exists could be asked for. -/
def AllRequestable (s : Store) : Prop := ∀ i d, fileAt s i = some d → d.type ≠ .mf → Requestable d

theorem lifeStep_requestable (serving : Serving t card) (all : AllRequestable card.store) (event : LifeEvent) :
    AllRequestable (lifeStep card event).store := by
  intro i d file notMf
  have before := fileAt_ready serving.live.ready
  rcases lifeStep_files serving.live serving.reliable (fun _ => serving.ef) event with same | ⟨cmd, cap, changed⟩
  · exact all i d (by rw [before, ← same]; exact file) notMf
  · rw [changed] at file
    rcases changed_file file with old | ⟨req, offset, requestable, rfl⟩
    · exact all i d (by rw [before]; exact old) notMf
    · exact requestable

theorem life_requestable (serving : Serving t card) (all : AllRequestable card.store) (events : List LifeEvent) :
    AllRequestable (life card events).store := by
  induction events generalizing t card with
  | nil => exact all
  | cons event rest ih =>
    obtain ⟨t', next⟩ := lifeStep_serving serving event
    exact ih next (lifeStep_requestable serving all event)

theorem booted_requestable {eepromSize flashSize : UInt32}
    (boots : scosInit (blankCard eepromSize flashSize) = (.ok, card))
    (events : List LifeEvent) : AllRequestable (life card events).store := by
  obtain ⟨t, serving⟩ := booted_serving boots []
  refine life_requestable serving (fun i d file notMf => ?_) events
  rw [life, List.foldl_nil, blank_files boots] at file
  have factory : ∀ x ∈ factoryTree, x.2.type ≠ .mf →
      checkRequestType x.2 = none ∧ lifecycleCreatable x.2.lifecycle = true := by
    decide
  exact factory (i, d) (factory_member file) notMf

end Files

/-- The template that describes a file of a reachable card makes the same file again,
bare or wrapped. -/
theorem fcp_round_trips {eepromSize flashSize : UInt32} {booted : Card}
    (boots : scosInit (blankCard eepromSize flashSize) = (.ok, booted)) (events : List LifeEvent) (i : UInt16)
    (d : FsDescriptor) (file : fileAt (life booted events).store i = some d) (notMf : d.type ≠ .mf) (cap : Nat)
    (room : 17 ≤ cap) :
    let fcp := fsBuildFcp d cap
    ∃ req, parseFcp fcp (UInt16.ofNat fcp.length) = .ok req ∧
      parseFcp (0x62 :: UInt8.ofNat fcp.length :: fcp) (UInt16.ofNat (fcp.length + 2)) = .ok req ∧
      req.fileId = d.fileId ∧ req.type = d.type ∧ req.size = d.size ∧ req.lifecycle = d.lifecycle ∧ req.sfi = d.sfi := by
  obtain ⟨sound, creatable⟩ := booted_requestable boots events i d file notMf
  obtain ⟨bare, wrapped⟩ := fcp_parses sound creatable room
  exact ⟨requestFor d, bare, wrapped, rfl, rfl, rfl, rfl, rfl⟩

theorem fcp_round_trips_factory_ef :
    let d : FsDescriptor := ⟨0x2F00, .efTransparent, fsLcActivated, 0, 32, 0, 0, 0, 1, 0⟩
    ∃ req, parseFcp (fsBuildFcp d 17) (UInt16.ofNat (fsBuildFcp d 17).length) = .ok req ∧
      parseFcp (0x62 :: UInt8.ofNat (fsBuildFcp d 17).length :: fsBuildFcp d 17)
        (UInt16.ofNat ((fsBuildFcp d 17).length + 2)) = .ok req ∧
      req.fileId = 0x2F00 ∧ req.type = .efTransparent ∧ req.size = 32 ∧ req.lifecycle = fsLcActivated ∧ req.sfi = 1 := by
  obtain ⟨booted, boots⟩ := small_chip_boots
  refine fcp_round_trips boots [] 1 _ ?_ (by decide) 17 (by decide)
  rw [life, List.foldl_nil, blank_files boots]
  rfl

/-! Creating a file. -/

def FreeSlot (s : Store) (i : UInt16) : Prop := (fsStoreSlotIsFree i s).1 = .ok true

/-- What the current DF, the table and the FLASH must offer for the request. -/
structure Permitted (s : Store) (sel : FsSelection) (req : FsDescriptor) : Prop where
  id : req.fileId ≠ 0x3F00 ∧ req.fileId ≠ 0xFFFF
  newId : ∀ i d, fileAt s i = some d → d.parent = sel.curDf → d.fileId ≠ req.fileId
  newSfi : req.sfi ≠ 0 → ∀ i d, fileAt s i = some d → d.parent = sel.curDf → d.sfi ≠ req.sfi
  slot : ∃ i, FreeSlot s i
  fits : req.type = .efTransparent → s.sb.dataTop.toNat + req.size.toNat ≤ s.hal.nvm.flash.size.toNat

section Creating
variable {t : FileTree} {s s' : Store} {sel : FsSelection} {req d : FsDescriptor} {slot i : UInt16}

theorem freeSlot_iff (ready : Ready s t) : FreeSlot s i ↔ i < fsMaxFiles ∧ t.table i = none := by
  by_cases bound : i < fsMaxFiles
  · simp [FreeSlot, slotIsFree_mapped ready.mapped bound, rawIsFree_slot ready bound, bound]
  · have outside := descRawRead_mapped ready.mapped i
    rw [if_neg bound] at outside
    simp [FreeSlot, fsStoreSlotIsFree, outside, bound]

/-- Only EFs have short identifiers, so the search among EFs is a search among all. -/
theorem permitted_iff (ready : Ready s t) (all : AllRequestable s) : Permitted s sel req ↔
    Fresh t sel req ∧ ¬ Full s (newDescriptor sel req) := by
  have files := fileAt_ready ready
  constructor
  · rintro ⟨⟨notMf, notInvalid⟩, newId, newSfi, ⟨i, free⟩, fits⟩
    rw [files] at newId newSfi
    refine ⟨⟨by simp [fidIsReserved, fsFidMf, notMf, notInvalid], newId,
      fun named i d live child _ => newSfi named i d live child, i, (freeSlot_iff ready).mp free⟩, ?_⟩
    rintro ⟨ef, full⟩
    exact Nat.not_le.mpr full (fits ef)
  · rintro ⟨fresh, roomy⟩
    have unreserved := fresh.unreserved
    simp only [fidIsReserved, Bool.or_eq_false_iff, decide_eq_false_iff_not] at unreserved
    obtain ⟨i, bound, empty⟩ := fresh.slot
    refine ⟨unreserved, by rw [files]; exact fresh.newId, ?_, ⟨i, (freeSlot_iff ready).mpr ⟨bound, empty⟩⟩, ?_⟩
    · intro named i d file child
      have live := file
      rw [files] at live
      rcases df_or_ef live with isDf | isEf
      · have none : d.sfi = fsNoSfi := by
          by_cases mf : d.type = .mf
          · rw [mf_is_root live mf, t.root] at live
            cases live
            rfl
          · rcases (request_ok (all i d file mf).1).1 with ⟨-, -, none⟩ | ⟨isEf, -⟩
            · exact none
            · simp [fsIsDf, isEf] at isDf
        exact fun same => named (same.symm.trans none)
      · exact fresh.newSfi named i d live child isEf
    · intro ef
      exact Nat.not_lt.mp fun full => roomy ⟨ef, full⟩

/-- Without a fault a sound request is carried out or refused whole. -/
theorem fsCreateFile_decides (ready : Ready s t) (df : DfSelected t sel) (reliable : s.hal.writeFaults = [])
    (requestable : Requestable req) :
    ((Fresh t sel req ∧ ¬ Full s (newDescriptor sel req)) ∧ ∃ slot s' top,
        ∃ ok : Insertable t slot (placedAt s (newDescriptor sel req)) top,
          fsCreateFile sel req s = (.ok slot, s') ∧ Ready s' (t.insert ok) ∧
            s'.sb.dataTop.toNat = s.sb.dataTop.toNat + if req.type = .efTransparent then req.size.toNat else 0) ∨
      (¬ (Fresh t sel req ∧ ¬ Full s (newDescriptor sel req)) ∧
        ∃ e, e ≠ .param ∧ fsCreateFile sel req s = (.error e, s)) := by
  rcases createChecks_decides ready df requestable.1 requestable.2 with
    ⟨fresh, slot, passed⟩ | ⟨stale, e, other, refused⟩
  · have may := (createChecks_inspects ready sel req).2 slot (by rw [passed])
    rw [fsCreateFile, bind_ok passed]
    by_cases full : Full s (newDescriptor sel req)
    · exact .inr ⟨fun fine => fine.2 full, .noSpace, by simp, bind_error (placeFile_full ready.mounted full)⟩
    rcases ran : placeFile slot (newDescriptor sel req) s with ⟨outcome, s'⟩
    cases placeFile_placed may ready ran with
    | noSpace ef beyond => exact absurd ⟨ef, beyond⟩ full
    | @done _ top ok placed _ grown => exact .inl ⟨⟨fresh, full⟩, slot, s', top, ok, bind_ok ran, placed, grown⟩
    | torn e faulty => exact absurd reliable faulty
  · exact .inr ⟨fun fine => stale fine.1, e, other, bind_error refused⟩

end Creating

/-- The file in a slot is the one that was asked for: everything the request says of it,
in the current DF, with its data at the data top. -/
structure AsRequested (s : Store) (sel : FsSelection) (req d : FsDescriptor) : Prop where
  fileId : d.fileId = req.fileId
  type : d.type = req.type
  lifecycle : d.lifecycle = req.lifecycle
  size : d.size = req.size
  sfi : d.sfi = req.sfi
  access : d.acRead = req.acRead ∧ d.acUpdate = req.acUpdate
  flags : d.flags = 0
  parent : d.parent = sel.curDf
  data : d.dataOffset = if req.type = .efTransparent then s.sb.dataTop else 0

theorem placedAt_requested (s : Store) (sel : FsSelection) (req : FsDescriptor) :
    AsRequested s sel req (placedAt s (newDescriptor sel req)) := by
  by_cases ef : req.type = .efTransparent
  · rw [placedAt, if_pos (show (newDescriptor sel req).type = .efTransparent from ef)]
    exact ⟨rfl, rfl, rfl, rfl, rfl, ⟨rfl, rfl⟩, rfl, rfl, (if_pos ef).symm⟩
  · rw [placedAt, if_neg (show ¬ (newDescriptor sel req).type = .efTransparent from ef)]
    exact ⟨rfl, rfl, rfl, rfl, rfl, ⟨rfl, rfl⟩, rfl, rfl, (if_neg ef).symm⟩

/-- The command layer leaves `fs_create_file` nothing to object to in the request
itself, and what is left to decide is the state of the card. -/
theorem create_layers_agree {eepromSize flashSize : UInt32} {booted : Card}
    (boots : scosInit (blankCard eepromSize flashSize) = (.ok, booted)) (events : List LifeEvent) (body : List UInt8)
    (short : body.length ≤ 255) (req : FsDescriptor) (parsed : parseFcp body (UInt16.ofNat body.length) = .ok req) :
    let card := life booted events
    let result := fsCreateFile card.kernel.sel req card.store
    result.1 ≠ .error .param ∧
      ((∃ slot, result.1 = .ok slot) ↔ Permitted card.store card.kernel.sel req) ∧
      ∀ slot, result.1 = .ok slot → FreeSlot card.store slot ∧
        (∃ d, fileAt result.2 slot = some d ∧ AsRequested card.store card.kernel.sel req d) ∧
        (result.2.sb.dataTop.toNat =
          card.store.sb.dataTop.toNat + if req.type = .efTransparent then req.size.toNat else 0) ∧
        ∀ i, i ≠ slot → fileAt result.2 i = fileAt card.store i ∧ (FreeSlot result.2 i ↔ FreeSlot card.store i) := by
  obtain ⟨t, live, reliable, -⟩ := booted_serving boots events
  have ready := live.ready
  have requestable := parsed_sound (Nat.lt_of_le_of_lt short (by decide)) parsed
  intro card result
  rw [permitted_iff ready (booted_requestable boots events)]
  rcases fsCreateFile_decides ready live.df reliable requestable with
    ⟨fine, slot, s', top, ok, created, ready', grown⟩ | ⟨unfit, e, other, refused⟩
  · have outcome : result = (.ok slot, s') := created
    rw [outcome]
    refine ⟨by simp, ⟨fun _ => fine, fun _ => ⟨slot, rfl⟩⟩, ?_⟩
    rintro _ ⟨⟩
    have before : fileAt card.store = t.table := fileAt_ready ready
    have free : ∀ i, FreeSlot card.store i ↔ i < fsMaxFiles ∧ t.table i = none := fun i => freeSlot_iff ready
    have table : (t.insert ok).table = Function.update t.table slot _ := rfl
    simp only [free, freeSlot_iff ready', before, fileAt_ready ready', table]
    refine ⟨⟨ok.bound, ok.free⟩, ⟨_, Function.update_self .., placedAt_requested _ _ _⟩, grown, fun i elsewhere => ?_⟩
    rw [Function.update_of_ne elsewhere]
    exact ⟨rfl, Iff.rfl⟩
  · have outcome : result = (.error e, card.store) := refused
    rw [outcome]
    exact ⟨by simp [other], ⟨fun done => (by simp at done), fun fine => absurd fine unfit⟩, by simp⟩

/-- A factory card with 16 bytes of FLASH left makes an EF of that size, with a short
identifier, in the first free slot. -/
theorem create_layers_agree_last_ef : ∃ booted, scosInit (blankCard 656 128) = (.ok, booted) ∧
    let body : List UInt8 := [0x82, 0x01, 0x01, 0x83, 0x02, 0x6F, 0x07, 0x80, 0x02, 0x00, 0x10, 0x88, 0x01, 0x28]
    let req : FsDescriptor := ⟨0x6F07, .efTransparent, fsLcActivated, fsNoParent, 16, 0, 0, 0, 5, 0⟩
    let result := fsCreateFile booted.kernel.sel req booted.store
    parseFcp body 14 = .ok req ∧ result.1 = .ok 5 ∧ Permitted booted.store booted.kernel.sel req ∧
      (∃ d, fileAt result.2 5 = some d ∧ AsRequested booted.store booted.kernel.sel req d) ∧
      result.2.sb.dataTop.toNat = booted.store.sb.dataTop.toNat + 16 := by
  obtain ⟨booted, boots⟩ : ∃ card, scosInit (blankCard 656 128) = (.ok, card) := large_chip_boots (by decide)
  have parsed : parseFcp [0x82, 0x01, 0x01, 0x83, 0x02, 0x6F, 0x07, 0x80, 0x02, 0x00, 0x10, 0x88, 0x01, 0x28] 14 =
    .ok ⟨0x6F07, .efTransparent, fsLcActivated, fsNoParent, 16, 0, 0, 0, 5, 0⟩ := by decide +kernel
  have created : (fsCreateFile (scosInit (blankCard 656 128)).2.kernel.sel
    ⟨0x6F07, .efTransparent, fsLcActivated, fsNoParent, 16, 0, 0, 0, 5, 0⟩
    (scosInit (blankCard 656 128)).2.store).1 = .ok 5 := by decide +kernel
  rw [boots] at created
  obtain ⟨-, permitted, makes⟩ := create_layers_agree boots [] _ (by decide) _ parsed
  obtain ⟨-, file, top, -⟩ := makes 5 created
  exact ⟨booted, boots, parsed, created, permitted.mp ⟨5, created⟩, file, top⟩

end CardOs.CreationProofs
