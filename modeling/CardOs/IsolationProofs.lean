import CardOs.CrashProofs

/-! What a command can write. With the current DF before the command in view, the
memories change in at most one descriptor slot, which holds a child of that DF before
or after, in the superblock when an EF is created, and in the addressed bytes of one EF
of that DF. Everything else on the card stays as it was. -/
namespace CardOs.IsolationProofs
open CardOs.Library CardOs.Library.Action CardOs.Apdu CardOs.FsTypes CardOs.HalNvm CardOs.FsStore CardOs.FsStoreProofs
open CardOs.Fs CardOs.FileTree CardOs.FsProofs CardOs.FsChangeProofs CardOs.FsInitProofs CardOs.FileCommands
open CardOs.Kernel CardOs.CommandProofs CardOs.CardProofs CardOs.CardSafety CardOs.StorageProofs CardOs.StoreChanges
open CardOs.Transactions CardOs.CrashProofs

/-- The command is a CREATE FILE for an EF. -/
def CreatesEf (cmd : Option (List UInt8)) : Prop :=
  ∃ c data req, apduParse cmd = (.ok, c) ∧ c.ins = insCreateFile ∧ c.data = some data ∧
    parseFcp data c.lc = .ok req ∧ req.type = .efTransparent

/-- P1 and P2 address this EF of the current DF, by its short identifier or as the
current EF, at this offset. -/
structure Addressed (sel : FsSelection) (p1 p2 : UInt8) (slot : UInt16) (d : FsDescriptor) (offset : UInt16) : Prop where
  ef : fsIsEf d = true
  child : d.parent = sel.curDf
  named : if p1 &&& 0x80 ≠ 0 then d.sfi = p1 &&& 0x1F else slot = sel.curEf
  place : offset = if p1 &&& 0x80 ≠ 0 then p2.toUInt16 else BigEndian.word16 p1 p2

/-- The command is an UPDATE BINARY of the EF in this slot, and the FLASH cell is one of
the Lc bytes at the addressed offset of the file. -/
def Updates (cmd : Option (List UInt8)) (sel : FsSelection) (slot : UInt16) (d : FsDescriptor) (cell : Nat) : Prop :=
  ∃ c offset, apduParse cmd = (.ok, c) ∧ c.ins = insUpdateBinary ∧ Addressed sel c.p1 c.p2 slot d offset ∧
    offset.toNat + c.lc.toNat ≤ d.size.toNat ∧ d.dataOffset.toNat + offset.toNat ≤ cell ∧
    cell < d.dataOffset.toNat + offset.toNat + c.lc.toNat

/-- The cell is one of the twenty of a descriptor slot. -/
def InSlot (slot : UInt16) (cell : Nat) : Prop :=
  (descOffset slot).toNat ≤ cell ∧ cell < (descOffset slot).toNat + fsDescSize

/-- All that changed belongs to one child of the current DF, or is the superblock in
a CREATE FILE for an EF. -/
structure Confined (cmd : Option (List UInt8)) (sel : FsSelection) (touched : UInt16) (before after : Store) : Prop where
  eeprom : ∀ cell, after.hal.nvm.eeprom.byte cell ≠ before.hal.nvm.eeprom.byte cell →
    (InSlot touched cell ∧ ∃ d, (fileAt before touched = some d ∨ fileAt after touched = some d) ∧
      d.parent = sel.curDf) ∨ (cell < fsSuperblockSize ∧ CreatesEf cmd)
  flash : ∀ cell, after.hal.nvm.flash.byte cell ≠ before.hal.nvm.flash.byte cell →
    ∃ d, fileAt before touched = some d ∧ Updates cmd sel touched d cell
  files : ∀ i, i ≠ touched → fileAt after i = fileAt before i
  contents : ∀ i, i ≠ touched → contentAt after i = contentAt before i

section Frames
variable {cmd : Option (List UInt8)} {sel : FsSelection} {before after : Store} {touched slot : UInt16}
  {d : FsDescriptor} {raw : List UInt8} {top : UInt32}

/-- Contents follow the descriptors while FLASH is left alone. -/
private theorem contents_kept (flash : after.hal.nvm.flash = before.hal.nvm.flash) {i : UInt16}
    (file : fileAt after i = fileAt before i) : contentAt after i = contentAt before i := by
  rw [contentAt, contentAt, file, flash]

private theorem changed_inside {r : Region} {offset cell : Nat}
    (changed : (r.write offset raw).byte cell ≠ r.byte cell) : offset ≤ cell ∧ cell < offset + raw.length := by
  by_contra outside
  exact changed (Region.byte_write_outside (by omega))

theorem confined_same (touched : UInt16) (nvm : after.hal.nvm = before.hal.nvm) (files : fileAt after = fileAt before) :
    Confined cmd sel touched before after where
  eeprom cell changed := absurd (by rw [nvm]) changed
  flash cell changed := absurd (by rw [nvm]) changed
  files i _ := by rw [files]
  contents i _ := contents_kept (by rw [nvm]) (by rw [files])

/-- The superblock of an allocation that came no further. -/
theorem confined_reserved (touched : UInt16) (creates : CreatesEf cmd)
    (nvm : after.hal.nvm = before.hal.nvm.write .eeprom 0 (sbBytes top)) (files : fileAt after = fileAt before) :
    Confined cmd sel touched before after where
  eeprom cell changed := by
    rw [nvm, Nvm.write_eeprom_eeprom] at changed
    obtain ⟨_, below⟩ := changed_inside changed
    rw [sbBytes_length, Nat.zero_add] at below
    exact .inr ⟨below, creates⟩
  flash cell changed := absurd (by rw [nvm, Nvm.write_eeprom_flash]) changed
  files i _ := by rw [files]
  contents i _ := contents_kept (by rw [nvm, Nvm.write_eeprom_flash]) (by rw [files])

/-- One descriptor slot, written over or freed. -/
theorem confined_stored {entry : Option FsDescriptor} (there : fileAt before slot = some d ∨ entry = some d)
    (child : d.parent = sel.curDf)
    (nvm : after.hal.nvm = before.hal.nvm.write .eeprom (descOffset slot).toNat (slotBytes entry))
    (files : fileAt after = Function.update (fileAt before) slot entry) : Confined cmd sel slot before after where
  eeprom cell changed := by
    rw [nvm, Nvm.write_eeprom_eeprom] at changed
    have here := changed_inside changed
    rw [slotBytes_length] at here
    refine .inl ⟨here, d, ?_, child⟩
    rw [files, Function.update_self]
    exact there
  flash cell changed := absurd (by rw [nvm, Nvm.write_eeprom_flash]) changed
  files i other := by rw [files, Function.update_of_ne other]
  contents i other := contents_kept (by rw [nvm, Nvm.write_eeprom_flash]) (by rw [files, Function.update_of_ne other])

/-- A whole allocation: the superblock and then the descriptor. -/
theorem confined_allocated (creates : CreatesEf cmd) (child : d.parent = sel.curDf)
    (nvm : after.hal.nvm = (before.hal.nvm.write .eeprom 0 (sbBytes top)).write .eeprom (descOffset slot).toNat
      (slotBytes (some d)))
    (files : fileAt after = Function.update (fileAt before) slot (some d)) : Confined cmd sel slot before after where
  eeprom cell changed := by
    rw [nvm, Nvm.write_eeprom_eeprom] at changed
    by_cases here : InSlot slot cell
    · refine .inl ⟨here, d, .inr ?_, child⟩
      rw [files, Function.update_self]
    · have outside : cell < (descOffset slot).toNat ∨
          (descOffset slot).toNat + (slotBytes (some d)).length ≤ cell := by
        rw [slotBytes_length]
        unfold InSlot at here
        omega
      rw [Region.byte_write_outside outside, Nvm.write_eeprom_eeprom] at changed
      obtain ⟨_, below⟩ := changed_inside changed
      rw [sbBytes_length, Nat.zero_add] at below
      exact .inr ⟨below, creates⟩
  flash cell changed := absurd (by rw [nvm, Nvm.write_eeprom_flash, Nvm.write_eeprom_flash]) changed
  files i other := by rw [files, Function.update_of_ne other]
  contents i other :=
    contents_kept (by rw [nvm, Nvm.write_eeprom_flash, Nvm.write_eeprom_flash])
      (by rw [files, Function.update_of_ne other])

/-- The bytes of an UPDATE BINARY. No other file has any of the cells. -/
theorem confined_updated {c : ApduCommand} {offset : UInt16} (apart : DataApart before)
    (live : fileAt before slot = some d) (parsed : apduParse cmd = (.ok, c)) (ins : c.ins = insUpdateBinary)
    (addressed : Addressed sel c.p1 c.p2 slot d offset)
    (whole : raw.length = c.lc.toNat) (inside : offset.toNat + raw.length ≤ d.size.toNat)
    (nvm : after.hal.nvm = before.hal.nvm.write .flash (d.dataOffset.toNat + offset.toNat) raw)
    (files : fileAt after = fileAt before) : Confined cmd sel slot before after where
  eeprom cell changed := absurd (by rw [nvm, Nvm.write_flash_eeprom]) changed
  flash cell changed := by
    rw [nvm, Nvm.write_flash_flash] at changed
    obtain ⟨low, high⟩ := changed_inside changed
    exact ⟨d, live, c, offset, parsed, ins, addressed, whole ▸ inside, low, whole ▸ high⟩
  files i _ := by rw [files]
  contents i other := by
    rw [contentAt, contentAt, files]
    cases taken : fileAt before i with
    | none => rfl
    | some e =>
      dsimp only
      split
      · rename_i ef
        have disjoint := apart.disjoint i slot e d taken live other (by simpa [fsIsEf] using ef)
          (by simpa [fsIsEf] using addressed.ef)
        rw [nvm, Nvm.write_flash_flash, Region.read_write_apart (by omega)]
      · rfl

end Frames

/-- What the change of a command is about, on a card that holds the tree. -/
inductive Meant (t : FileTree) (flashSize : UInt32) (cmd : Option (List UInt8)) (sel : FsSelection) : Change → Prop
  | nothing : Meant t flashSize cmd sel .nothing
  | update (c : ApduCommand) (slot : UInt16) (d : FsDescriptor) (offset : UInt16) (position : UInt32) (src : List UInt8)
      (parsed : apduParse cmd = (.ok, c)) (ins : c.ins = insUpdateBinary) (whole : src.length = c.lc.toNat)
      (live : t.table slot = some d) (addressed : Addressed sel c.p1 c.p2 slot d offset)
      (inside : offset.toNat + src.length ≤ d.size.toNat)
      (there : position.toNat = d.dataOffset.toNat + offset.toNat) : Meant t flashSize cmd sel (.update position src)
  | free (slot : UInt16) (d : FsDescriptor) (live : t.table slot = some d) (child : d.parent = sel.curDf) :
      Meant t flashSize cmd sel (.free slot)
  | place (slot : UInt16) (d : FsDescriptor) (bound : slot < fsMaxFiles) (legal : Legal flashSize d)
      (child : d.parent = sel.curDf) : Meant t flashSize cmd sel (.place slot d)
  | allocate (top : UInt32) (slot : UInt16) (d : FsDescriptor) (bound : slot < fsMaxFiles) (legal : Legal flashSize d)
      (child : d.parent = sel.curDf) (creates : CreatesEf cmd) : Meant t flashSize cmd sel (.allocate top slot d)

section Commands
variable {t : FileTree} {card : Card} {cmd : Option (List UInt8)} {cap : UInt16} {c : ApduCommand}

/-- The target of an UPDATE BINARY is an EF of the current DF, however it is named. -/
theorem designated_addressed {sel : FsSelection} {p1 p2 : UInt8} {slot offset : UInt16} {d : FsDescriptor}
    (designates : Designates t sel p1 p2 slot offset) (chosen : EfSelected t sel) (live : t.table slot = some d)
    (ef : fsIsEf d = true) : Addressed sel p1 p2 slot d offset := by
  rcases designates with ⟨short, place, e, found, child, _, sfi, _⟩ | ⟨long, place, named, valid⟩
  · cases live.symm.trans found
    exact ⟨ef, child, by rw [if_pos short]; exact sfi, by rw [if_pos short]; exact place⟩
  · have long : ¬ p1 &&& 0x80 ≠ 0 := not_not.mpr long
    subst named
    rcases chosen with none | ⟨e, found, _, _, child⟩
    · exact absurd none valid
    · cases live.symm.trans found
      exact ⟨ef, child, by rw [if_neg long], by rw [if_neg long]; exact place⟩

theorem parsed_whole (parsed : apduParse cmd = (.ok, c)) : Whole c := by
  cases cmd with
  | none => cases parsed
  | some bytes => exact (apduParse_spec parsed).1

private theorem updateChange_meant {index offset : UInt16} {data : List UInt8} (live : Live t card)
    (parsed : apduParse cmd = (.ok, c)) (ins : c.ins = insUpdateBinary) (given : c.data = some data)
    (designates : Designates t card.kernel.sel c.p1 c.p2 index offset) (chosen : EfSelected t card.kernel.sel) :
    Meant t card.store.hal.nvm.flash.size cmd card.kernel.sel (updateChange index offset data card.store) := by
  unfold updateChange
  rcases inspects_cases (resolve_inspects live.ready index) with ⟨d, target, taken, _⟩ | ⟨e, target⟩
  · rw [target]
    dsimp only
    split
    · rename_i writes
      obtain ⟨_, ef, inside⟩ := writes
      have fits := (live.ready.holds.legal index d taken).inside (by simpa [fsIsEf] using ef)
      exact .update c index d offset _ data parsed ins (parsed_whole parsed data given) taken
        (designated_addressed designates chosen taken ef) inside (data_position fits (by omega))
    · exact .nothing
  · rw [target]
    exact .nothing

private theorem createChange_meant {data : List UInt8} {req : FsDescriptor} (live : Live t card)
    (parsed : apduParse cmd = (.ok, c)) (ins : c.ins = insCreateFile) (given : c.data = some data)
    (fcp : parseFcp data c.lc = .ok req) :
    Meant t card.store.hal.nvm.flash.size cmd card.kernel.sel (createChange card.kernel.sel req card.store) := by
  rcases createChange_cases card.kernel.sel req card.store with
    nothing | ⟨slot, s', checked, ⟨df, place⟩ | ⟨ef, top, grown, room, allocate⟩⟩
  · rw [nothing]
    exact .nothing
  all_goals
    have may := (createChecks_inspects live.ready card.kernel.sel req).2 slot (by rw [checked])
    have file : (newDescriptor card.kernel.sel req).type ≠ .free := by
      rcases may.file.kind with kind | kind <;> rw [kind] <;> decide
  · rw [place]
    exact .place slot _ may.bound ⟨file, fun isEf => absurd isEf df⟩ rfl
  · rw [allocate]
    have room := UInt32.le_iff_toNat_le.mp room
    refine .allocate top slot _ may.bound ⟨file, fun _ => ?_⟩ rfl ⟨c, data, req, parsed, ins, given, fcp, ef⟩
    exact (Nat.le_of_eq grown.symm).trans room

private theorem deleteChange_meant (live : Live t card) (fileId : UInt16) :
    Meant t card.store.hal.nvm.flash.size cmd card.kernel.sel (deleteChange card.kernel.sel fileId card.store) := by
  unfold deleteChange
  rcases inspects_cases (deleteChecks_inspects live.ready card.kernel.sel fileId) with
    ⟨slot, target, d, taken, child, _⟩ | ⟨e, target⟩
  · rw [target]
    exact .free slot d taken child
  · rw [target]
    exact .nothing

theorem processChange_meant (live : Live t card) (chosen : Chosen t card) (cmd : Option (List UInt8)) (cap : UInt16) :
    Meant t card.store.hal.nvm.flash.size cmd card.kernel.sel (processChange cmd cap card) := by
  rcases processChange_cases cmd cap card with nothing | ⟨c, active, parsed,
    ⟨ins, data, index, offset, c', given, found, change⟩ | ⟨data, req, creation, change⟩ | ⟨_, fileId, change⟩⟩
  · rw [nothing]
    exact .nothing
  · obtain ⟨same, designates⟩ :=
      @resolveTarget_inspects t ⟨card.kernel, card.store, apduRspInit cap⟩ live.ready c.p1 c.p2
    rw [found] at same designates
    obtain rfl : c' = _ := same
    rw [change]
    exact updateChange_meant live parsed ins given (designates _ rfl) (chosen active)
  · rw [change]
    exact createChange_meant live parsed creation.ins creation.body.1 creation.template
  · rw [change]
    exact deleteChange_meant live fileId

/-- The RAM of a mounted card whose data ends at `top` at least. -/
structure Mirrored (top : UInt32) (s : Store) : Prop where
  reads : s.hal.readFaults = []
  mounted : s.sb.mounted = true
  maxFiles : s.sb.maxFiles = fsMaxFiles
  kept : top ≤ s.sb.dataTop
  room : s.sb.dataTop ≤ s.hal.nvm.flash.size

theorem Mirrored.files {s : Store} {table : Table} {top end' : UInt32} (mirrored : Mirrored top s)
    (holds : Holds s.hal.nvm table end') (below : end' ≤ s.sb.dataTop)
    (bounded : ∀ i d, table i = some d → i < fsMaxFiles) : fileAt s = table :=
  fileAt_mounted ⟨mirrored.reads, mirrored.mounted, mirrored.maxFiles, holds, below, mirrored.room⟩ bounded

/-- Whatever writes the device refuses, a command has carried out the first of its
operations, and RAM is as if it had carried out all. -/
theorem planned_store (live : Live t card) (reliable : Reliable card) (cmd : Option (List UInt8)) (cap : UInt16)
    (plan : List WriteFault) :
    let after := (scosProcess cmd cap (cardPlan plan card)).2.2.store
    (∃ k, after.hal.nvm = applyAll ((processChange cmd cap card).requests.take k) card.store.hal.nvm) ∧
      after.sb = (processChange cmd cap card).mirror card.store.sb ∧ after.hal.readFaults = [] := by
  intro after
  have fits := live_fits live
  obtain ⟨store, peeked, _, variants⟩ := scosProcess_transacts fits cmd cap
  obtain rfl := (peeked.undone fits).2 ⟨live.ready.reads, reliable⟩
  have performed := @perform_performed
    (withPlan plan { card.store with sb := (processChange cmd cap card).mirror card.store.sb }) after
    (processChange cmd cap card).requests _ (processChange_inside fits cmd cap) (Prod.ext rfl (variants plan).symm)
  obtain ⟨done, first, nvm, _⟩ := performed.nvm
  refine ⟨⟨done.length, ?_⟩, performed.sb, performed.reads.trans live.ready.reads⟩
  rw [← List.prefix_iff_eq_take.mp first]
  exact nvm

theorem planned_mirrored {after : Store} {k : Nat} (live : Live t card)
    (cut : after.hal.nvm = applyAll ((processChange cmd cap card).requests.take k) card.store.hal.nvm)
    (sb : after.sb = (processChange cmd cap card).mirror card.store.sb) (reads : after.hal.readFaults = []) :
    Mirrored t.top after := by
  have mounted := live.ready.mounted
  have maxFiles := live.ready.maxFiles
  have kept := live.ready.mirror
  have room := live.ready.mirrorInside
  have size : after.hal.nvm.flash.size = card.store.hal.nvm.flash.size := by
    rw [cut]
    exact applyAll_size _ _ .flash
  cases change : processChange cmd cap card with
  | allocate top slot d =>
    rw [change] at sb
    obtain ⟨above, inside⟩ := processChange_top change
    exact ⟨reads, by rw [sb]; exact mounted, by rw [sb]; exact maxFiles, by rw [sb]; exact UInt32.le_trans kept above,
      by rw [sb, size]; exact inside⟩
  | _ =>
    rw [change] at sb
    exact ⟨reads, by rw [sb]; exact mounted, by rw [sb]; exact maxFiles, by rw [sb]; exact kept,
      by rw [sb, size]; exact room⟩

private theorem update_bounded (t : FileTree) {slot : UInt16} (bound : slot < fsMaxFiles) (entry : Option FsDescriptor) :
    ∀ i d, Function.update t.table slot entry i = some d → i < fsMaxFiles := by
  intro i d taken
  by_cases here : i = slot
  · rw [here]
    exact bound
  · rw [Function.update_of_ne here] at taken
    exact t.bounded i d taken

/-- The files there are once a change has been carried out. -/
def changeFiles (table : Table) : Change → Table
  | .nothing | .update _ _ => table
  | .free slot => Function.update table slot none
  | .place slot d | .allocate _ slot d => Function.update table slot (some d)

theorem carried_files {after : Store} {change : Change} (live : Live t card) (mirrored : Mirrored t.top after)
    (meant : Meant t card.store.hal.nvm.flash.size cmd card.kernel.sel change)
    (sb : after.sb = change.mirror card.store.sb)
    (all : after.hal.nvm = applyAll change.requests card.store.hal.nvm) : fileAt after = changeFiles t.table change := by
  have holds := live.ready.holds
  have kept := mirrored.kept
  cases meant with
  | nothing => exact mirrored.files (all ▸ holds) kept t.bounded
  | update c slot d offset position src parsed ins whole taken addressed inside there =>
    have all : after.hal.nvm = card.store.hal.nvm.write .flash position.toNat src := all
    exact mirrored.files (all ▸ holds.write_flash) kept t.bounded
  | free slot d taken child =>
    have all : after.hal.nvm = card.store.hal.nvm.write .eeprom (descOffset slot).toNat (slotBytes none) := all
    have bound := t.bounded slot d taken
    exact mirrored.files (all ▸ holds.write_slot bound (by simp)) kept (update_bounded t bound none)
  | place slot d bound legal child =>
    have all : after.hal.nvm = card.store.hal.nvm.write .eeprom (descOffset slot).toNat (slotBytes (some d)) := all
    exact mirrored.files (all ▸ holds.write_slot bound fun _ same => Option.some.inj same ▸ legal) kept
      (update_bounded t bound (some d))
  | allocate top slot d bound legal child creates =>
    have all : after.hal.nvm = (card.store.hal.nvm.write .eeprom 0 (sbBytes top)).write .eeprom (descOffset slot).toNat
      (slotBytes (some d)) := all
    have mirror : after.sb.dataTop = top := by rw [sb]; rfl
    have inside : top ≤ card.store.hal.nvm.flash.size := by
      have room := mirrored.room
      rwa [mirror, all, Nvm.write_eeprom_flash, Nvm.write_eeprom_flash] at room
    have held := (holds.write_top inside).write_slot bound fun _ same => Option.some.inj same ▸ legal
    exact mirrored.files (all ▸ held) (UInt32.le_of_eq mirror.symm) (update_bounded t bound (some d))

/-- A change carried out as a whole. -/
private theorem carried_confined {after : Store} {change : Change} (live : Live t card) (mirrored : Mirrored t.top after)
    (meant : Meant t card.store.hal.nvm.flash.size cmd card.kernel.sel change)
    (sb : after.sb = change.mirror card.store.sb)
    (all : after.hal.nvm = applyAll change.requests card.store.hal.nvm) :
    ∃ touched, Confined cmd card.kernel.sel touched card.store after := by
  have files := carried_files live mirrored meant sb all
  have before := fileAt_ready live.ready
  rw [← before] at files
  cases meant with
  | nothing => exact ⟨0, confined_same 0 all files⟩
  | update c slot d offset position src parsed ins whole taken addressed inside there =>
    have all : after.hal.nvm = card.store.hal.nvm.write .flash (d.dataOffset.toNat + offset.toNat) src := there ▸ all
    exact ⟨slot, confined_updated (ready_dataApart live.ready) (by rw [before]; exact taken) parsed ins addressed whole
      inside all files⟩
  | free slot d taken child =>
    have all : after.hal.nvm = card.store.hal.nvm.write .eeprom (descOffset slot).toNat (slotBytes none) := all
    exact ⟨slot, confined_stored (.inl (by rw [before]; exact taken)) child all files⟩
  | place slot d bound legal child =>
    have all : after.hal.nvm = card.store.hal.nvm.write .eeprom (descOffset slot).toNat (slotBytes (some d)) := all
    exact ⟨slot, confined_stored (.inr rfl) child all files⟩
  | allocate top slot d bound legal child creates =>
    have all : after.hal.nvm = (card.store.hal.nvm.write .eeprom 0 (sbBytes top)).write .eeprom (descOffset slot).toNat
      (slotBytes (some d)) := all
    exact ⟨slot, confined_allocated creates child all files⟩

/-- What a command leaves on a device that does its work. -/
theorem process_files (live : Live t card) (reliable : Reliable card) (chosen : Chosen t card)
    (cmd : Option (List UInt8)) (cap : UInt16) :
    fileAt (scosProcess cmd cap card).2.2.store = changeFiles t.table (processChange cmd cap card) := by
  obtain ⟨sb, nvm, calm, _⟩ := scosProcess_calm (live_fits live) ⟨live.ready.reads, reliable⟩ cmd cap
  have whole :=
    congrArg (applyAll · card.store.hal.nvm) (List.take_length (l := (processChange cmd cap card).requests)).symm
  have mirrored := planned_mirrored live (nvm.trans whole) sb calm.1
  exact carried_files live mirrored (processChange_meant live chosen cmd cap) sb nvm

/-- The files after a step: changed by a command, and else as they were. -/
theorem step_files (live : Live t card) (reliable : Reliable card) (chosen : Chosen t card) (event : CardEvent) :
    fileAt (step card event).store =
      match event with
      | .apdu cmd cap => changeFiles t.table (processChange cmd cap card)
      | _ => t.table := by
  cases event with
  | apdu cmd cap => exact process_files live reliable chosen cmd cap
  | reset => exact fileAt_ready live.ready
  | init =>
    rw [step, scosInit_mounts live.ready.reads live.ready.holds]
    exact fileAt_ready (mounted_mirrorOf live.ready.reads live.ready.holds)
  | powerCycle =>
    rw [step, powerUp_mounts live.ready.reads live.ready.holds]
    exact fileAt_ready (mounted_mirrorOf live.ready.reads live.ready.holds)

/-- A command that is cut off has changed the files as it would have, or not at all. -/
theorem lifeStep_files (live : Live t card) (reliable : Reliable card) (chosen : Chosen t card) (event : LifeEvent) :
    fileAt (lifeStep card event).store = t.table ∨
      ∃ cmd cap, fileAt (lifeStep card event).store = changeFiles t.table (processChange cmd cap card) := by
  cases event with
  | used event =>
    have files := step_files live reliable chosen event
    cases event with
    | apdu cmd cap => exact .inr ⟨cmd, cap, files⟩
    | reset | init | powerCycle => exact .inl files
  | cut cmd cap k later =>
    obtain ⟨_, _, before | after⟩ := cut_atomic live reliable cmd cap k later
    · exact .inl ((funext before.files).trans (fileAt_ready live.ready))
    · exact .inr ⟨cmd, cap, (funext after.files).trans (process_files live reliable chosen cmd cap)⟩

theorem command_confined (live : Live t card) (reliable : Reliable card) (chosen : Chosen t card)
    (cmd : Option (List UInt8)) (cap : UInt16) (plan : List WriteFault) :
    ∃ touched, Confined cmd card.kernel.sel touched card.store (scosProcess cmd cap (cardPlan plan card)).2.2.store := by
  obtain ⟨⟨k, cut⟩, sb, reads⟩ := planned_store live reliable cmd cap plan
  have meant := processChange_meant live chosen cmd cap
  have before := fileAt_ready live.ready
  have holds := live.ready.holds
  generalize (scosProcess cmd cap (cardPlan plan card)).2.2.store = after at cut sb reads ⊢
  have mirrored := planned_mirrored live cut sb reads
  have size : after.hal.nvm.flash.size = card.store.hal.nvm.flash.size := by
    rw [cut]
    exact applyAll_size _ _ .flash
  rcases change_cut (processChange cmd cap card) k card.store.hal.nvm with
    old | all | ⟨top, slot, d, allocates, reserved⟩
  · rw [old] at cut
    exact ⟨0, confined_same 0 cut ((mirrored.files (cut ▸ holds) mirrored.kept t.bounded).trans before.symm)⟩
  · exact carried_confined live mirrored meant sb (cut.trans all)
  · rw [allocates] at meant sb
    rw [reserved] at cut
    have mirror : after.sb.dataTop = top := by rw [sb]; rfl
    have inside : top ≤ card.store.hal.nvm.flash.size := by
      rw [← mirror, ← size]
      exact mirrored.room
    have files := mirrored.files (cut ▸ holds.write_top inside) (UInt32.le_of_eq mirror.symm) t.bounded
    cases meant with
    | allocate _ _ _ _ _ _ creates => exact ⟨0, confined_reserved 0 creates cut (files.trans before.symm)⟩

end Commands

/-- Whatever has happened to a card, with power losses, and whatever writes the device
refuses during the command: a command writes one child of the current DF at most, and
all other files stay as they are. -/
theorem writes_stay_in_current_df (eepromSize flashSize : UInt32) (events : List LifeEvent) (cmd : Option (List UInt8))
    (cap : UInt16) (plan : List WriteFault) :
    let card := life (blankCard eepromSize flashSize) events
    ∃ touched, Confined cmd card.kernel.sel touched card.store (scosProcess cmd cap (cardPlan plan card)).2.2.store := by
  intro card
  have standing : Standing card := life_standing (.blank (blank_unformatted eepromSize flashSize) rfl) events
  cases standing with
  | blank unformatted unmounted =>
    rw [@unmounted_unchanged (cardPlan plan card) unmounted]
    refine ⟨0, confined_same 0 rfl (funext fun i => ?_)⟩
    rw [fileAt_unmounted unmounted, @fileAt_unmounted (cardPlan plan card).store unmounted]
  | live t live reliable chosen => exact command_confined live reliable chosen cmd cap plan

end CardOs.IsolationProofs
