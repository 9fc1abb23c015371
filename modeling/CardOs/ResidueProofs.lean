import CardOs.ContentProofs
import CardOs.IsolationProofs

/-! What a newly personalised card has kept of its past. Personalising a chip writes
EEPROM only, so that the new files lie on FLASH as it was found. The card is clean, for
ever after, exactly if FLASH was erased: the factory files show the first 112 bytes, and
files that are created and deleted again lead to every byte above them. -/
namespace CardOs.ResidueProofs
open CardOs.Library CardOs.Library.Action CardOs.Apdu CardOs.FsTypes CardOs.HalNvm CardOs.FsStore CardOs.FsStoreProofs
open CardOs.Fs CardOs.FileTree CardOs.FsProofs CardOs.FsChangeProofs CardOs.FsInitProofs CardOs.FileCommands
open CardOs.Kernel CardOs.AnswerProofs CardOs.CommandProofs CardOs.CardProofs CardOs.CardSafety CardOs.Archive
open CardOs.ContentProofs CardOs.StorageProofs CardOs.StoreChanges CardOs.Transactions CardOs.FactoryChanges
open CardOs.RetryProofs CardOs.CrashProofs CardOs.IsolationProofs
open CardOs.RemountProofs (createOneByte)

/-- A chip with these memories, before power, on a device that works. -/
def chip (nvm : Nvm) : Card :=
  ⟨ScosKernel.zeroed, ⟨{ nvm, readFaults := [], writeFaults := [], writes := 0, rangeErrors := 0 }, ⟨false, 0, 0, 0⟩⟩⟩

/-- The files of a layout, the data of the EFs one after the other from `top` on. -/
def laidOut : UInt32 → List LayoutEntry → List (UInt16 × FsDescriptor)
  | _, [] => []
  | top, entry :: rest =>
    if entry.type = .efTransparent then
      (entry.index, { entry.descriptor with dataOffset := top }) :: laidOut (top + entry.size.toUInt32) rest
    else (entry.index, entry.descriptor) :: laidOut top rest

def factoryTree : List (UInt16 × FsDescriptor) := (fsRootIndex, factoryMf) :: laidOut 0 factoryLayout

/-- The descriptor table of a card as the factory leaves it. -/
def factoryTable : Table := fun i => factoryTree.lookup i

/-- The template SELECT answers with. -/
def fciOf (d : FsDescriptor) (tag : UInt8) : List UInt8 :=
  [tag] ++ [UInt8.ofNat (fsBuildFcp d 32).length] ++ fsBuildFcp d 32

/-- All the data a card may send: none, what the archive has for the file that READ
BINARY addresses, or the template of a file. -/
def Told (a : Archive) (card : Card) (cmd : Option (List UInt8)) (data : List UInt8) : Prop :=
  data = [] ∨
    (insOf cmd = insReadBinary ∧ ∃ id offset, a.addressed card (byteOf cmd 2) (byteOf cmd 3) = some (id, offset) ∧
      ∀ k, (inside : k < data.length) → data[k] = a.bytes id (offset + k)) ∨
    (insOf cmd = insSelect ∧ ∃ i d tag, fileAt card.store i = some d ∧ data = fciOf d tag)

/-- A boot and whatever comes after it, observed from outside. -/
def past (nvm : Nvm) (events : List CardEvent) : Archive × Card := history (chip nvm) (.init :: events)

/-- The card is as if FLASH had been erased: it has the factory files, and what is read
is what was written since, or `FF`. -/
structure Clean (nvm : Nvm) : Prop where
  tree : fileAt (fsInit (chip nvm).store).2 = factoryTable
  reads : ∀ events i d k, fileAt (past nvm events).2.store i = some d → fsIsEf d = true → fsIsUsable d = true →
    k < d.size → (fsEfRead i k 1 (past nvm events).2.store).1 =
      .ok [(past nvm events).1.bytes ((past nvm events).1.idOf i) k.toNat]
  told : ∀ events cmd cap data sw card', scosProcess cmd cap (past nvm events).2 =
    (.ok, data ++ [sw1 sw, sw2 sw], card') → Told (past nvm events).1 (past nvm events).2 cmd data

theorem factory_member {i : UInt16} {d : FsDescriptor} (held : factoryTable i = some d) : (i, d) ∈ factoryTree := by
  obtain ⟨before, after, split, _⟩ := List.lookup_eq_some_iff.mp held
  simp [split]

section Boot
variable {nvm : Nvm} {requests : List Request}

/-- A block that is stored and then left alone is there in the end. -/
theorem applyAll_stores {n : Nat} {offset : UInt32} {raw : List UInt8} {e : FsError}
    (stored : requests[n]? = some (.write .eeprom offset raw e))
    (later : ∀ request ∈ requests.drop (n + 1), Leaves offset.toNat raw request) (nvm : Nvm) :
    (applyAll requests nvm).eeprom.read offset.toNat raw.length = raw := by
  obtain ⟨inside, here⟩ := List.getElem?_eq_some_iff.mp stored
  rw [← List.take_append_drop n requests, applyAll_append, List.drop_eq_getElem_cons inside, here, applyAll_cons]
  refine applyAll_leaves later ?_
  rw [Request.apply, Nvm.write_eeprom_eeprom]
  exact Region.read_write_same rfl

/-- Each factory descriptor is written, and its slot left alone after that. -/
private theorem factory_written : ∀ x ∈ factoryTree, ∃ n < 50,
    factoryRequests[n]? = some (.write .eeprom (descOffset x.1) (descBytes x.2) .nvm) ∧
      ∀ request ∈ factoryRequests.drop (n + 1), Leaves (descOffset x.1).toNat (descBytes x.2) request := by
  decide +kernel

private theorem factory_legal {flashSize : UInt32} (data : 112 ≤ flashSize.toNat) :
    ∀ x ∈ factoryTree, Legal flashSize x.2 := by
  have small : ∀ x ∈ factoryTree, x.2.type ≠ .free ∧ x.2.dataOffset.toNat + x.2.size.toNat ≤ 112 := by decide
  intro x member
  obtain ⟨file, below⟩ := small x member
  exact ⟨file, fun _ => Nat.le_trans below data⟩

/-- A tree of the factory's files that is stored where the factory stores it. -/
private theorem factory_table {t : FileTree} {stored : Nvm} (holds : Holds stored t.table t.top)
    (shows : Shows t factoryFiles) (data : 112 ≤ stored.flash.size.toNat)
    (written : stored.eeprom = (applyAll factoryRequests nvm).eeprom) : t.table = factoryTable := by
  have placed : ∀ x ∈ factoryTree, t.table x.1 = some x.2 := by
    intro x member
    have slots : ∀ x ∈ factoryTree, x.1 < fsMaxFiles ∧ ∃ y ∈ factoryFiles, y.1 = x.1 := by decide
    obtain ⟨bound, y, listed, same⟩ := slots x member
    obtain ⟨d, live, _⟩ := shows.all y listed
    rw [same] at live
    obtain ⟨n, _, here, later⟩ := factory_written x member
    have raw := applyAll_stores here later nvm
    have slot := holds.slot x.1 bound
    rw [live, written] at slot
    have bytes : descBytes d = descBytes x.2 := slot.symm.trans raw
    have decoded := decodeDesc_descBytes (holds.legal _ d live)
    rw [bytes, decodeDesc_descBytes (factory_legal data x member)] at decoded
    cases decoded
    exact live
  funext i
  cases live : t.table i with
  | some d =>
    have names : ∀ y ∈ factoryFiles, ∃ x ∈ factoryTree, x.1 = y.1 ∧ factoryTable x.1 = some x.2 := by decide
    obtain ⟨x, member, same, there⟩ := names _ (shows.only i d live)
    have same : x.1 = i := same
    rw [← same] at live ⊢
    rw [there, ← live, placed x member]
  | none =>
    cases there : factoryTable i with
    | none => rfl
    | some d =>
      obtain ⟨before, after, split, _⟩ := List.lookup_eq_some_iff.mp there
      have member : (i, d) ∈ factoryTree := by simp [split]
      rw [placed _ member] at live
      cases live

/-- What a boot without an error makes of a chip without the magic. -/
theorem boots (noMagic : nvm.eeprom.read 0 4 ≠ fsMagic) (ok : (fsInit (chip nvm).store).1 = .ok ()) :
    ∃ t s, scosInit (chip nvm) = (.ok, ⟨⟨.operational, 0, fsSelectionReset⟩, s⟩) ∧
      fsInit (chip nvm).store = (.ok (), s) ∧ Ready s t ∧ s.hal.writeFaults = [] ∧ t.table = factoryTable ∧
      s.sb.dataTop = 112 ∧ s.hal.nvm.flash = nvm.flash := by
  have blank : Unformatted (chip nvm).store := ⟨rfl, rfl, noMagic⟩
  rcases fsInit_unformatted blank with ⟨_, e, s, failed, _⟩ |
    ⟨table, result, s, t, ended, ready, left, flash, shows, room⟩
  · rw [failed] at ok
    cases ok
  · rw [ended] at ok
    obtain rfl : result = .ok () := ok
    have data := room.mpr rfl
    have stored := unformatted_nvm blank table data
    rw [ended] at stored
    have personalised : fsPersonalise (unmount (chip nvm).store) = (.ok (), s) := by
      rw [← fsInit_personalises blank.reads (Nat.le_trans (by decide) table) noMagic]
      exact ended
    refine ⟨t, s, by rw [scosInit, ended]; rfl, ended, ready, left, ?_, personalise_mirror personalised, flash⟩
    refine factory_table ready.holds (shows rfl) (by rw [flash]; exact data) (congrArg Nvm.eeprom stored)

/-- What a blank chip holds after its first boot. -/
theorem blank_made {eepromSize flashSize : UInt32} {card : Card}
    (booted : scosInit (blankCard eepromSize flashSize) = (.ok, card)) :
    ∃ t, Ready card.store t ∧ t.table = factoryTable ∧ card.store.sb.dataTop = 112 ∧
      card.store.hal.nvm = applyAll factoryRequests (blankCard eepromSize flashSize).store.hal.nvm := by
  have ok : (fsInit (blankCard eepromSize flashSize).store).1 = .ok () := by
    rcases ran : fsInit (blankCard eepromSize flashSize).store with ⟨e | _, s⟩
    · rw [scosInit, ran] at booted
      cases booted
    · rfl
  have unformatted := blank_unformatted eepromSize flashSize
  obtain ⟨slots, data⟩ := blank_boots_iff.mp (congrArg Prod.fst booted)
  have stored := unformatted_nvm unformatted slots data
  obtain ⟨t, s, started, ended, ready, _, table, top, flash⟩ :=
    @boots (blankCard eepromSize flashSize).store.hal.nvm unformatted.noMagic ok
  cases booted.symm.trans started
  rw [show fsInit (blankCard eepromSize flashSize).store = _ from ended] at stored
  exact ⟨t, ready, table, top, stored⟩

theorem blank_files {eepromSize flashSize : UInt32} {card : Card}
    (booted : scosInit (blankCard eepromSize flashSize) = (.ok, card)) : fileAt card.store = factoryTable := by
  obtain ⟨t, ready, table, _⟩ := blank_made booted
  exact (fileAt_ready ready).trans table

end Boot

section Answers
variable {t : FileTree} {a : Archive} {card card' : Card} {cmd : Option (List UInt8)} {cap : UInt16} {data : List UInt8}
  {sw : Sw}

/-- What SELECT appends to an empty response is the template of a live file. -/
private theorem emitFci_tells {c c' : Session} {command : ApduCommand} {index : UInt16} {retOpt : UInt8}
    (ready : Ready c.store t) (empty : c.rsp.bytes = []) (ran : emitFci command index retOpt c = (.ok (), c')) :
    c'.rsp.bytes = [] ∨ ∃ d tag, t.table index = some d ∧ c'.rsp.bytes = fciOf d tag := by
  unfold emitFci at ran
  split at ran
  · cases ran
    exact .inl empty
  split at ran
  · cases ran
  rcases inspects_cases (liftFs_inspects (readDesc_inspects ready index)) with ⟨d, got, live⟩ | ⟨sw, got⟩
  · rw [bind_ok (show liftFs (fsGet index) c = (.ok d, c) from got)] at ran
    split at ran
    · cases ran
    split at ran
    · cases ran
      exact .inl empty
    split at ran
    · cases ran
    obtain ⟨_, c₁, first, ran⟩ := bind_eq_ok ran
    obtain ⟨_, c₂, second, third⟩ := bind_eq_ok ran
    have appended : ∀ {src : List UInt8} {c c' : Session}, put src c = (.ok (), c') →
        c'.rsp.bytes = c.rsp.bytes ++ src := by
      intro src c c' ran
      rcases put_appends src c with ⟨rsp, done, bytes⟩ | ⟨rsp, failed⟩
      · cases ran.symm.trans done
        exact bytes
      · cases ran.symm.trans failed
    refine .inr ⟨d, if retOpt = selRetFcp then 0x62 else 0x6F, live, ?_⟩
    rw [appended third, appended second, appended first, empty, List.nil_append]
    rfl
  · rw [bind_error (show liftFs (fsGet index) c = (.error sw, c) from got)] at ran
    cases ran

private theorem select_tells {c c' : Session} {command : ApduCommand} (ready : Ready c.store t)
    (df : DfSelected t c.kernel.sel) (empty : c.rsp.bytes = []) (ran : scosCmdSelect command c = (.ok sw, c')) :
    c'.rsp.bytes = [] ∨ ∃ i d tag, t.table i = some d ∧ c'.rsp.bytes = fciOf d tag := by
  unfold scosCmdSelect at ran
  split at ran
  · cases ran
  split at ran
  · cases ran
  rw [state_bind] at ran
  rcases inspects_cases (selectTarget_inspects ready df) with ⟨sel, target, _⟩ | ⟨sw, target⟩
  · rw [bind_ok target] at ran
    obtain ⟨_, c₁, emitted, ran⟩ := bind_eq_ok ran
    rw [update_bind] at ran
    cases ran
    rcases emitFci_tells ready empty emitted with none | ⟨d, tag, live, bytes⟩
    · exact .inl none
    · exact .inr ⟨_, d, tag, live, bytes⟩
  · rw [bind_error target] at ran
    cases ran

/-- Data is sent by READ BINARY and SELECT only, and by SELECT only templates. -/
theorem process_tells (live : Live t card) (answer : scosProcess cmd cap card = (.ok, data ++ [sw1 sw, sw2 sw], card')) :
    data = [] ∨ (insOf cmd = insReadBinary ∧ (sw = swOk ∨ sw = swNvmUnchangedEof)) ∨
      (insOf cmd = insSelect ∧ ∃ i d tag, fileAt card.store i = some d ∧ data = fciOf d tag) := by
  have room : 2 ≤ cap := by
    by_contra small
    rw [scosProcess_small small] at answer
    cases answer
  rcases scosProcess_cases room cmd card with ⟨_, _, refused⟩ | ⟨c, result, c', _, parsed, ran, answered⟩
  · exact .inl (answer_inj _ [] (Prod.mk.inj (Prod.mk.inj (answer.symm.trans refused)).2).1).1
  obtain ⟨rfl, rfl⟩ := answer_inj _ _ (Prod.mk.inj (Prod.mk.inj (answer.symm.trans answered)).2).1
  have ins : c.ins = insOf cmd := by
    cases cmd with
    | none => cases parsed
    | some bytes => exact (apduParse_spec parsed).2.1
  by_cases none : payload c'.rsp = []
  · exact .inl none
  have sent : c'.rsp.overflow = false ∧ payload c'.rsp = c'.rsp.bytes := by
    unfold payload at none ⊢
    split at none
    · exact absurd rfl none
    · rename_i whole
      exact ⟨by simpa using whole, if_neg whole⟩
  rw [sent.2] at none ⊢
  obtain ⟨accepted, _⟩ := (scosDispatch_answered room rfl ran).data sent.1 none
  obtain ⟨update, create, delete⟩ := quietHandlers_keep Session.rsp (fun _ _ => rfl) (fun _ _ => rfl) c
  -- the other handlers leave the empty response they were given
  have silent : ∀ {x : CmdM Sw}, Keeps x Session.rsp → x ⟨card.kernel, card.store, apduRspInit cap⟩ = (result, c') →
      c'.rsp.bytes = [] := by
    intro x keeps ran
    have kept := keeps ⟨card.kernel, card.store, apduRspInit cap⟩
    rw [ran] at kept
    rw [show c'.rsp = apduRspInit cap from kept]
    rfl
  rw [← ins, fileAt_ready live.ready]
  rcases scosDispatch_cases c with
    ⟨select, same⟩ | ⟨read, same⟩ | ⟨_, same⟩ | ⟨_, same⟩ | ⟨_, same⟩ | ⟨_, same⟩ <;> rw [same] at ran
  · cases result with
    | error refusal =>
      have refused := (scosCmdSelect_ends c ⟨card.kernel, card.store, apduRspInit cap⟩).1 refusal c' ran
      rcases accepted with ok | eof
      · exact absurd ok (refusal_ne_ok refused)
      · exact absurd eof (refusal_ne_eof refused)
    | ok sw =>
      rcases select_tells live.ready live.df rfl ran with empty | told
      · exact .inl empty
      · exact .inr (.inr ⟨select, told⟩)
  · exact .inr (.inl ⟨read, accepted⟩)
  · exact .inl (silent update ran)
  · exact .inl (silent create ran)
  · exact .inl (silent delete ran)
  · exact .inl (silent keeps_pure ran)

/-- What any command tells, on a card that agrees with the archive. -/
theorem agreed_told (agrees : Agrees a card)
    (answer : scosProcess cmd cap card = (.ok, data ++ [sw1 sw, sw2 sw], card')) : Told a card cmd data := by
  have agreed := agrees
  cases agrees with
  | blank unformatted unmounted fresh erased idle =>
    by_cases room : 2 ≤ cap
    · obtain ⟨_, _, refused⟩ := scosProcess_blank unmounted room cmd
      exact .inl (answer_inj _ [] (Prod.mk.inj (Prod.mk.inj (answer.symm.trans refused)).2).1).1
    · rw [scosProcess_small room] at answer
      cases answer
  | live t live reliable holding choosing =>
    rcases process_tells live answer with none | ⟨read, done⟩ | select
    · exact .inl none
    · obtain ⟨id, offset, hit, _, _, bytes⟩ := read_agrees agreed read answer done
      exact .inr (.inl ⟨read, id, offset, hit, bytes⟩)
    · exact .inr (.inr select)

/-- A file is read as the archive has it. -/
theorem agreed_reads {i k : UInt16} {d : FsDescriptor} (agrees : Agrees a card) (file : fileAt card.store i = some d)
    (ef : fsIsEf d = true) (usable : fsIsUsable d = true) (inside : k < d.size) :
    (fsEfRead i k 1 card.store).1 = .ok [a.bytes (a.idOf i) k.toNat] := by
  cases agrees with
  | blank unformatted unmounted fresh erased idle =>
    rw [fileAt_unmounted unmounted] at file
    cases file
  | live t live reliable holding choosing =>
    rw [fileAt_ready live.ready] at file
    rw [fsEfRead_byte live.ready file ef usable inside,
      holding.content i d file (of_decide_eq_true ef) k.toNat (UInt16.lt_iff_toNat_lt.mp inside)]

end Answers

/-- On erased FLASH a card stays clean. -/
theorem erased_clean {nvm : Nvm} (noMagic : nvm.eeprom.read 0 4 ≠ fsMagic) (ok : (fsInit (chip nvm).store).1 = .ok ())
    (erased : ∀ p < nvm.flash.size.toNat, nvm.flash.byte p = 0xFF) : Clean nvm := by
  have start : Agrees Archive.empty (chip nvm) := .blank ⟨rfl, rfl, noMagic⟩ rfl (fun _ _ => rfl) erased rfl
  obtain ⟨t, s, _, booted, ready, _, table, _⟩ := boots noMagic ok
  refine ⟨?_, fun events i d k => ?_, fun events cmd cap data sw card' => ?_⟩
  · rw [booted]
    exact (fileAt_ready ready).trans table
  · exact agreed_reads (history_agrees start (.init :: events))
  · exact agreed_told (history_agrees start (.init :: events))

section Spending
variable {t : FileTree} {card : Card} {nvm : Nvm}

/-- A card just after a reset, with nothing selected but the MF. -/
structure Idle (t : FileTree) (card : Card) : Prop where
  live : Live t card
  reliable : Reliable card
  active : card.kernel.lifecycle = .operational
  sel : card.kernel.sel = fsSelectionReset

/-- A command and a reset carry out the change of the command. -/
theorem idle_command (idle : Idle t card) (cmd : Option (List UInt8)) (cap : UInt16) :
    ∃ t', Idle t' (run card [.apdu cmd cap, .reset]) ∧ t'.table = changeFiles t.table (processChange cmd cap card) ∧
      (run card [.apdu cmd cap, .reset]).store.sb = (processChange cmd cap card).mirror card.store.sb ∧
      (run card [.apdu cmd cap, .reset]).store.hal.nvm =
        applyAll (processChange cmd cap card).requests card.store.hal.nvm := by
  obtain ⟨live, reliable, active, sel⟩ := idle
  have chosen : Chosen t card := fun _ => by
    rw [sel]
    exact (reset_selected t).2
  obtain ⟨sb, stored, calm, _⟩ := scosProcess_calm (live_fits live) ⟨live.ready.reads, reliable⟩ cmd cap
  obtain ⟨t', live', _⟩ := step_live live (.apdu cmd cap)
  have files := process_files live reliable chosen cmd cap
  refine ⟨t', ⟨⟨live'.ready, (reset_selected t').1⟩, calm.2, rfl, rfl⟩, ?_, sb, stored⟩
  rw [← fileAt_ready live'.ready]
  exact files

/-- The request in `createOneByte`. -/
def oneByte : FsDescriptor :=
  { FsDescriptor.zeroed .efTransparent with
    fileId := 0x1234, lifecycle := fsLcActivated, parent := fsNoParent, size := 1 }

/-- DELETE FILE for it. -/
def deleteOneByte : Option (List UInt8) := some [0x00, 0xE4, 0x00, 0x00, 0x02, 0x12, 0x34]

private theorem oneByte_parsed :
    parseFcp [0x82, 0x01, 0x01, 0x83, 0x02, 0x12, 0x34, 0x80, 0x02, 0x00, 0x01] 11 = .ok oneByte := by
  decide +kernel

private theorem create_change (idle : Idle t card) :
    processChange createOneByte 258 card = createChange fsSelectionReset oneByte card.store := by
  have creation : Creation card createOneByte 258 _ _ oneByte :=
    ⟨by decide, idle.active, rfl, rfl, rfl, ⟨rfl, rfl⟩, ⟨rfl, by decide⟩, oneByte_parsed⟩
  rw [creation.change, idle.sel]

private theorem delete_change (idle : Idle t card) :
    processChange deleteOneByte 258 card = deleteChange fsSelectionReset 0x1234 card.store := by
  have active : card.kernel.lifecycle ≠ .fsError := by
    rw [idle.active]
    decide
  rw [processChange_served (by decide) idle.active rfl rfl, ← idle.sel]
  exact @commandChange_delete ⟨card.kernel, card.store, apduRspInit 258⟩ (apduParse deleteOneByte).2 [0x12, 0x34] rfl
    active rfl rfl rfl rfl

/-- The card of the factory tree with `n` bytes of FLASH used up above it. -/
structure Spent (nvm : Nvm) (n : Nat) (t : FileTree) (card : Card) : Prop where
  idle : Idle t card
  table : t.table = factoryTable
  top : card.store.sb.dataTop.toNat = 112 + n
  flash : card.store.hal.nvm.flash = nvm.flash

/-- The file of one byte at this place. -/
def byteAt (place : UInt32) : FsDescriptor := { newDescriptor fsSelectionReset oneByte with dataOffset := place }

/-- A new file of one byte, above all that was used. -/
structure Made (nvm : Nvm) (n : Nat) (slot : UInt16) (place : UInt32) (t : FileTree) (card : Card) : Prop where
  idle : Idle t card
  free : factoryTable slot = none
  above : place.toNat = 112 + n
  table : t.table = Function.update factoryTable slot (some (byteAt place))
  top : card.store.sb.dataTop.toNat = 112 + n + 1
  flash : card.store.hal.nvm.flash = nvm.flash

private theorem factory_fresh : ∀ i d, factoryTable i = some d → d.fileId ≠ 0x1234 :=
  fun i d held => (show ∀ x ∈ factoryTree, x.2.fileId ≠ 0x1234 by decide) (i, d) (factory_member held)

theorem spent_made {n : Nat} (spent : Spent nvm n t card) (room : 112 + n < nvm.flash.size.toNat) :
    ∃ slot place t', Made nvm n slot place t' (run card [.apdu createOneByte 258, .reset]) := by
  obtain ⟨idle, table, top, flash⟩ := spent
  have ready := idle.live.ready
  have df : DfSelected t fsSelectionReset := (reset_selected t).1
  have fresh : Fresh t fsSelectionReset oneByte :=
    ⟨rfl, by rw [table]; exact fun i d live _ => factory_fresh i d live, absurd rfl, 5, by decide, by rw [table]; rfl⟩
  obtain ⟨slot, checked⟩ := createChecks_passes ready df rfl rfl fresh
  have may := (createChecks_inspects ready fsSelectionReset oneByte).2 slot (by rw [checked])
  have fits : card.store.sb.dataTop.toNat + 1 ≤ card.store.hal.nvm.flash.size.toNat := by
    rw [flash]
    omega
  have roomy : ¬ Full card.store (newDescriptor fsSelectionReset oneByte) := fun full => Nat.not_lt.mpr fits full.2
  have change : processChange createOneByte 258 card =
      .allocate (UInt32.ofNat (card.store.sb.dataTop.toNat + 1)) slot (byteAt card.store.sb.dataTop) := by
    rw [create_change idle, createChange_eq checked, if_neg roomy, placeChange]
    exact if_neg (not_not.mpr rfl)
  obtain ⟨t', idle', files, sb, stored⟩ := idle_command idle createOneByte 258
  rw [change] at files sb stored
  refine ⟨slot, card.store.sb.dataTop, t', idle', by rw [← table]; exact may.free, top, by rw [files, table]; rfl, ?_,
    ?_⟩
  · have bound := nvm.flash.size.toNat_lt
    rw [sb, ← top]
    exact UInt32.toNat_ofNat_of_lt' (show card.store.sb.dataTop.toNat + 1 < 2 ^ 32 by omega)
  · rw [stored]
    simp only [Change.requests, applyAll_cons, applyAll_nil, Request.apply, Nvm.write_eeprom_flash, flash]

/-- The new file is deleted, and its byte stays used. -/
theorem made_spent {n : Nat} {slot : UInt16} {place : UInt32} (made : Made nvm n slot place t card) :
    ∃ t', Spent nvm (n + 1) t' (run card [.apdu deleteOneByte 258, .reset]) := by
  obtain ⟨idle, free, _, table, top, flash⟩ := made
  have live : t.table slot = some (byteAt place) := by rw [table, Function.update_self]
  have checked : deleteChecks fsSelectionReset 0x1234 card.store = (.ok slot, card.store) :=
    deleteChecks_passes idle.live.ready live rfl (removable_ef live rfl)
  have change : processChange deleteOneByte 258 card = .free slot := by
    rw [delete_change idle, deleteChange, checked]
  obtain ⟨t', idle', files, sb, stored⟩ := idle_command idle deleteOneByte 258
  rw [change] at files sb stored
  refine ⟨t', idle', ?_, by rw [sb]; exact top, ?_⟩
  · rw [files, table, changeFiles, Function.update_idem]
    exact Function.update_eq_self_iff.mpr free.symm
  · rw [stored]
    simp only [Change.requests, applyAll_cons, applyAll_nil, Request.apply, Nvm.write_eeprom_flash, flash]

/-- One byte of FLASH is used up. -/
def round : List CardEvent :=
  [.apdu createOneByte 258, .reset] ++ [.apdu deleteOneByte 258, .reset]

def rounds (n : Nat) : List CardEvent := (List.replicate n round).flatten

theorem run_append (card : Card) (first second : List CardEvent) :
    run card (first ++ second) = run (run card first) second := List.foldl_append

theorem rounds_spent (start : ∃ t, Spent nvm 0 t card) (n : Nat) (room : 112 + n ≤ nvm.flash.size.toNat) :
    ∃ t', Spent nvm n t' (run card (rounds n)) := by
  induction n with
  | zero => exact start
  | succ n ih =>
    obtain ⟨t, spent⟩ := ih (by omega)
    obtain ⟨slot, place, t₁, made⟩ := spent_made spent (by omega)
    have split : rounds (n + 1) = rounds n ++ round := by
      rw [rounds, List.replicate_succ', List.flatten_append]
      simp [rounds]
    rw [split, run_append, round, run_append]
    exact made_spent made

end Spending

section Leaks
variable {nvm : Nvm}

/-- While nothing is written, the archive has `FF` for every file. -/
theorem history_fresh {events : List CardEvent}
    (quiet : ∀ cmd cap, CardEvent.apdu cmd cap ∈ events → insOf cmd ≠ insUpdateBinary) (card : Card) (id : FileId)
    (k : Nat) :
    (history card events).1.bytes id k = 0xFF := by
  have start : ∀ id k, Archive.empty.bytes id k = 0xFF := fun _ _ => rfl
  unfold history
  generalize Archive.empty = a at start
  induction events generalizing a card with
  | nil => exact start id k
  | cons event rest ih =>
    refine ih (fun cmd cap member => quiet cmd cap (List.mem_cons_of_mem _ member)) _ _ fun id k => ?_
    cases event with
    | apdu cmd cap =>
      have other := quiet cmd cap List.mem_cons_self
      simp [observe, written, other, start]
    | _ => exact start id k

/-- A clean card whose files lie on this FLASH has `FF` in each of their bytes. -/
theorem clean_byte {t : FileTree} {events : List CardEvent} {i k : UInt16} {d : FsDescriptor} (clean : Clean nvm)
    (quiet : ∀ cmd cap, CardEvent.apdu cmd cap ∈ events → insOf cmd ≠ insUpdateBinary)
    (ready : Ready (past nvm events).2.store t) (flash : (past nvm events).2.store.hal.nvm.flash = nvm.flash)
    (file : t.table i = some d) (ef : fsIsEf d = true) (usable : fsIsUsable d = true) (inside : k < d.size) :
    nvm.flash.byte (d.dataOffset.toNat + k.toNat) = 0xFF := by
  have read := clean.reads events i d k (by rw [fileAt_ready ready]; exact file) ef usable inside
  have fresh : (past nvm events).1.bytes ((past nvm events).1.idOf i) k.toNat = 0xFF :=
    history_fresh (fun cmd cap member => quiet cmd cap (List.mem_of_ne_of_mem (by simp) member)) _ _ _
  rw [fsEfRead_byte ready file ef usable inside, fresh, flash] at read
  exact (List.cons.inj (Except.ok.inj read)).1

/-- The first 112 bytes are those of the factory files. -/
private theorem factory_covers : ∀ p < 112, ∃ x ∈ factoryTree, factoryTable x.1 = some x.2 ∧ fsIsEf x.2 = true ∧
    fsIsUsable x.2 = true ∧ x.2.dataOffset.toNat ≤ p ∧ p < x.2.dataOffset.toNat + x.2.size.toNat := by
  decide +kernel

/-- A card that is clean for ever was personalised on erased FLASH. -/
theorem clean_erased (noMagic : nvm.eeprom.read 0 4 ≠ fsMagic) (ok : (fsInit (chip nvm).store).1 = .ok ())
    (clean : Clean nvm) (p : Nat) (inside : p < nvm.flash.size.toNat) : nvm.flash.byte p = 0xFF := by
  obtain ⟨t, s, booted, _, ready, left, table, top, flash⟩ := boots noMagic ok
  have first : ∀ events, (past nvm events).2 = run ⟨⟨.operational, 0, fsSelectionReset⟩, s⟩ events := by
    intro events
    rw [past, history_card, run, List.foldl_cons, step, booted]
    rfl
  have idle : Idle t ⟨⟨.operational, 0, fsSelectionReset⟩, s⟩ := ⟨⟨ready, (reset_selected t).1⟩, left, rfl, rfl⟩
  by_cases factory : p < 112
  · obtain ⟨x, _, file, ef, usable, low, high⟩ := factory_covers p factory
    have small := x.2.size.toNat_lt
    have place : (UInt16.ofNat (p - x.2.dataOffset.toNat)).toNat = p - x.2.dataOffset.toNat :=
      UInt16.toNat_ofNat_of_lt' (show _ < 2 ^ 16 by omega)
    have byte := @clean_byte nvm t [] x.1 (UInt16.ofNat (p - x.2.dataOffset.toNat)) x.2 clean (by simp)
      (by rw [first]; exact ready) (by rw [first]; exact flash) (by rw [table]; exact file) ef usable
      (UInt16.lt_iff_toNat_lt.mpr (by rw [place]; omega))
    rwa [place, Nat.add_sub_cancel' low] at byte
  · obtain ⟨t₁, spent⟩ := rounds_spent ⟨t, idle, table, by rw [top]; rfl, flash⟩ (p - 112) (by omega)
    obtain ⟨slot, place, t₂, made⟩ := spent_made spent (by omega)
    rw [← run_append, ← first] at made
    have quiet : ∀ cmd cap, CardEvent.apdu cmd cap ∈ rounds (p - 112) ++ [.apdu createOneByte 258, .reset] →
        insOf cmd ≠ insUpdateBinary := by
      intro cmd cap member
      rcases List.mem_append.mp member with earlier | last
      · obtain ⟨events, listed, here⟩ := List.mem_flatten.mp earlier
        rw [List.eq_of_mem_replicate listed] at here
        simp only [round, List.cons_append, List.nil_append, List.mem_cons, CardEvent.apdu.injEq, List.not_mem_nil,
          or_false, reduceCtorEq, false_or] at here
        rcases here with ⟨rfl, _⟩ | ⟨rfl, _⟩ <;> decide
      · simp only [List.mem_cons, CardEvent.apdu.injEq, List.not_mem_nil, or_false, reduceCtorEq] at last
        rw [last.1]
        decide
    have byte := @clean_byte nvm t₂ _ slot 0 (byteAt place) clean quiet made.idle.live.ready made.flash
      (by rw [made.table, Function.update_self]) rfl rfl (show (0 : UInt16) < 1 by decide)
    have here : (byteAt place).dataOffset.toNat + (0 : UInt16).toNat = p := by
      rw [show (byteAt place).dataOffset.toNat = _ from made.above]
      exact Nat.add_sub_cancel' (Nat.not_lt.mp factory)
    rwa [here] at byte

end Leaks

/-- A chip without the magic that is personalised without an error is clean, now and
after whatever is done with it, exactly if its FLASH was erased before. -/
theorem personalised_clean_iff_erased {nvm : Nvm} (noMagic : nvm.eeprom.read 0 4 ≠ fsMagic)
    (ok : (fsInit (chip nvm).store).1 = .ok ()) :
    Clean nvm ↔ ∀ p < nvm.flash.size.toNat, nvm.flash.byte p = 0xFF :=
  ⟨clean_erased noMagic ok, erased_clean noMagic ok⟩

theorem personalised_clean_iff_erased_blank : Clean ⟨Region.uniform 656 0xFF, Region.uniform 112 0xFF⟩ := by
  have noMagic : (Region.uniform 656 0xFF).read 0 4 ≠ fsMagic := by decide
  have ok : (fsInit (chip ⟨Region.uniform 656 0xFF, Region.uniform 112 0xFF⟩).store).1 = .ok () := by
    decide +kernel
  exact (personalised_clean_iff_erased noMagic ok).mpr fun _ _ => rfl

/-- An erased EEPROM over FLASH that holds old data: the boot succeeds, and READ BINARY
of the new EF 2F00 returns the old bytes. -/
theorem old_flash_is_read_back :
    let old : Nvm := ⟨Region.uniform 656 0xFF, Region.uniform 112 0x5A⟩
    old.eeprom.read 0 4 ≠ fsMagic ∧ (scosInit (chip old)).1 = .ok ∧
      (scosProcess (some [0x00, 0xB0, 0x81, 0x00, 0x04]) 258 (scosInit (chip old)).2).2.1 =
        [0x5A, 0x5A, 0x5A, 0x5A, 0x90, 0x00] := by
  decide +kernel

end CardOs.ResidueProofs
