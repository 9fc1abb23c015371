import CardOs.CreationProofs
import CardOs.LifecycleProofs
import CardOs.SelectionProofs

/-! READ BINARY and UPDATE BINARY from the terminal's side. Both forms of a command
come down to one transfer at a slot and an offset, so an EF addressed by its short
identifier is the EF a SELECT of it makes current, and a file read in steps of any
expected length comes back whole. -/
namespace CardOs.BinaryProofs
open CardOs.Library CardOs.Library.Action CardOs.Library.BigEndian CardOs.Apdu CardOs.FsTypes CardOs.HalNvm
open CardOs.FsStore CardOs.FsStoreProofs CardOs.Fs CardOs.FileTree CardOs.FsProofs CardOs.FsChangeProofs
open CardOs.FileCommands CardOs.Kernel CardOs.ApduProofs CardOs.AnswerProofs CardOs.CommandProofs CardOs.CardProofs
open CardOs.CardSafety CardOs.LifecycleProofs CardOs.CrashProofs CardOs.ResidueProofs CardOs.SelectionProofs
open CardOs.CreationProofs
open CardOs.Library.ShortApdu (Expected DataField Command)

/-- READ BINARY of an expected length, or UPDATE BINARY of a data field. -/
inductive Transfer where
  | read (le : Expected)
  | update (data : DataField)

def Transfer.command : Transfer → UInt8 → UInt8 → Command
  | .read le, p1, p2 => ⟨0x00, 0xB0, p1, p2, .case2 le⟩
  | .update data, p1, p2 => ⟨0x00, 0xD6, p1, p2, .case3 data⟩

/-- SELECT of an EF under the current DF, asking for no response data. -/
def selectEf (fid : UInt16) : Command :=
  ⟨0x00, 0xA4, 0x02, 0x0C, .case3 ⟨bytes16 fid, by simp [bytes16], by simp⟩⟩

/-- What either command does once it knows the slot and the offset. -/
def Transfer.at (x : Transfer) (index offset : UInt16) : CmdM Sw :=
  match x with
  | .read le => do
    let got ← liftFs (fsEfRead index offset (UInt16.ofNat le.amount))
    put got
    pure (if got.length < le.amount then swNvmUnchangedEof else swOk)
  | .update data => do
    liftFs (fsEfWrite index offset data.bytes)
    pure swOk

section Transfers
variable {c : Session} {t : FileTree} {i offset : UInt16} {d : FsDescriptor} {p1 p2 : UInt8} {x : Transfer}

theorem expected_toNat (le : Expected) : (UInt16.ofNat le.amount).toNat = le.amount := by
  have short := le.short
  rw [UInt16.toNat_ofNat']
  omega

theorem transfer_dispatch (x : Transfer) (p1 p2 : UInt8) :
    scosDispatch (fieldsOf (x.command p1 p2)) = resolveTarget p1 p2 >>= fun target => x.at target.1 target.2 := by
  cases x with
  | read le =>
    have short : ¬ UInt16.ofNat le.amount > apduShortLeMax := by
      rw [gt_iff_lt, UInt16.lt_iff_toNat_lt, expected_toNat]
      exact Nat.not_lt.mpr le.short
    have handler : scosDispatch (fieldsOf (Transfer.command (.read le) p1 p2)) =
      scosCmdReadBinary (fieldsOf (Transfer.command (.read le) p1 p2)) := rfl
    rw [handler, scosCmdReadBinary]
    simp only [fieldsOf, ofHeader, ApduCommand.zeroed, Transfer.command, Transfer.at, expected_toNat, ne_eq,
      not_true_eq_false, if_false, Bool.not_true, Bool.false_eq_true, if_neg short]
  | update data =>
    have handler : scosDispatch (fieldsOf (Transfer.command (.update data) p1 p2)) =
      scosCmdUpdateBinary (fieldsOf (Transfer.command (.update data) p1 p2)) := rfl
    have filled : UInt16.ofNat data.bytes.length ≠ 0 := by
      intro zero
      have value := congrArg UInt16.toNat zero
      have short := data.short
      have some := List.length_pos_iff.mpr data.nonempty
      rw [UInt16.toNat_ofNat', UInt16.toNat_zero] at value
      omega
    rw [handler, scosCmdUpdateBinary]
    simp only [fieldsOf, ofHeader, ApduCommand.zeroed, Transfer.command, Transfer.at, if_neg filled, Bool.false_eq_true,
      if_false]

/-- Past the resolution of its target a transfer never looks at the kernel record. -/
theorem transfer_blind (x : Transfer) (i offset : UInt16) (c : Session) (kernel : ScosKernel) :
    x.at i offset { c with kernel } = ((x.at i offset c).1, { (x.at i offset c).2 with kernel }) := by
  cases x with
  | read le =>
    rcases ran : fsEfRead i offset (UInt16.ofNat le.amount) c.store with ⟨e | got, store⟩
    · rw [Transfer.at, bind_error (liftFs_error ran)]
      exact bind_error (liftFs_error ran)
    · have lifted (kernel : ScosKernel) : liftFs (fsEfRead i offset (UInt16.ofNat le.amount)) { c with kernel } =
        (.ok got, { c with kernel, store }) := liftFs_ok ran
      rw [Transfer.at, bind_ok (lifted kernel), bind_ok (lifted c.kernel)]
      rcases appended : apduRspPut c.rsp got with ⟨done, rsp⟩
      cases done with
      | false =>
        have refused (kernel : ScosKernel) : put got { c with kernel, store } =
          (.error swNoPreciseDiagnosis, { c with kernel, store, rsp }) := by simp only [put, appended]
        rw [bind_error (refused kernel), bind_error (refused c.kernel)]
      | true =>
        have accepted (kernel : ScosKernel) : put got { c with kernel, store } =
          (.ok (), { c with kernel, store, rsp }) := by simp only [put, appended]
        rw [bind_ok (accepted kernel), bind_ok (accepted c.kernel)]
        rfl
  | update data =>
    rcases ran : fsEfWrite i offset data.bytes c.store with ⟨e | _, store⟩
    · rw [Transfer.at, bind_error (liftFs_error ran)]
      exact bind_error (liftFs_error ran)
    · rw [Transfer.at, bind_ok (liftFs_ok ran)]
      exact bind_ok (liftFs_ok ran)

private theorem short_id_bits {sfi : UInt8} (low : sfi ≤ 30) :
    (0x80 ||| sfi) &&& 0x80 ≠ 0 ∧ (0x80 ||| sfi) &&& 0x60 = 0 ∧ (0x80 ||| sfi) &&& 0x1F = sfi := by
  have each : ∀ n < 31, (0x80 ||| UInt8.ofNat n) &&& 0x80 ≠ 0 ∧ (0x80 ||| UInt8.ofNat n) &&& 0x60 = 0 ∧
    (0x80 ||| UInt8.ofNat n) &&& 0x1F = UInt8.ofNat n := by decide
  have bits := each sfi.toNat (Nat.lt_succ_of_le (UInt8.le_iff_toNat_le.mp low))
  rwa [UInt8.ofNat_toNat] at bits

/-- An EF found by its short identifier under the current DF. -/
theorem resolveTarget_short (ready : Ready c.store t) (live : t.table i = some d) (under : d.parent = c.kernel.sel.curDf)
    (ef : d.type = .efTransparent) (named : d.sfi ≠ fsNoSfi) (low : d.sfi ≤ 30) (p2 : UInt8) :
    resolveTarget (0x80 ||| d.sfi) p2 c = (.ok (i, p2.toUInt16), c) := by
  obtain ⟨high, plain, sfi⟩ := short_id_bits low
  have found : fsFindBySfi c.kernel.sel.curDf d.sfi c.store = (.ok i, c.store) := by
    rcases fsFindBySfi_cases ready c.kernel.sel.curDf d.sfi with ⟨j, e, found, live', under', ef', same, -⟩ |
      ⟨e, -, none⟩
    · have ef' : e.type = .efTransparent := by simpa [fsIsEf] using ef'
      rw [found, t.sfis j i e d live' live ⟨ef', ef, under'.trans under.symm, same, same ▸ named⟩]
    · exact absurd rfl (none named low i d live under (by simp [fsIsEf, ef]))
  rw [resolveTarget, state_bind, if_pos high, if_neg (not_not.mpr plain), sfi, if_neg (show d.sfi ≠ 0 from named),
    bind_ok (liftFs_ok found)]
  rfl

theorem resolveTarget_current (chosen : c.kernel.sel.curEf ≠ fsInvalidIndex) (plain : p1 &&& 0x80 = 0) (p2 : UInt8) :
    resolveTarget p1 p2 c = (.ok (c.kernel.sel.curEf, word16 p1 p2), c) := by
  rw [resolveTarget, state_bind, if_neg (not_not.mpr plain), if_neg chosen]
  rfl

theorem transfer_unusable (ready : Ready c.store t) (live : t.table i = some d) (unusable : fsIsUsable d = false)
    (x : Transfer) (offset : UInt16) : x.at i offset c = (.error (fsErrorToSw .notUsable), c) := by
  have refused : resolve i c.store = (.error .notUsable, c.store) := by
    rw [resolve_live ready live, unusable]
    rfl
  cases x with
  | read le => exact bind_error (liftFs_error (bind_error refused))
  | update data =>
    have some : data.bytes.length ≠ 0 := Nat.pos_iff_ne_zero.mp (List.length_pos_iff.mpr data.nonempty)
    refine bind_error (liftFs_error (x := fsEfWrite i offset data.bytes) ?_)
    rw [fsEfWrite, if_neg some, bind_error refused]

/-- SELECT of a child EF makes it current, unless it is not in use. -/
theorem selectEf_dispatch (ready : Ready c.store t) (live : t.table i = some d) (under : d.parent = c.kernel.sel.curDf)
    (ef : d.type = .efTransparent) :
    scosDispatch (fieldsOf (selectEf d.fileId)) c =
      if fsIsUsable d then (.ok swOk, { c with kernel := { c.kernel with sel := ⟨c.kernel.sel.curDf, i⟩ } })
      else (.error (fsErrorToSw .notUsable), c) := by
  have found := selectChildTyped_child ready ⟨d, live, under, rfl⟩ live false
  have notDf : fsIsDf d = false := by simp [fsIsDf, ef]
  have target : selectTarget (fieldsOf (selectEf d.fileId)) c.kernel.sel =
      liftFs (selectChildTyped c.kernel.sel d.fileId false) := by
    have fid : fidOf (bytes16 d.fileId) = d.fileId := word16_bytes16 d.fileId
    simp only [selectTarget, selectEf, fieldsOf, ofHeader, fid, fsSelectChildEf]
    simp [bytes16_length]
  have handler : scosDispatch (fieldsOf (selectEf d.fileId)) = scosCmdSelect (fieldsOf (selectEf d.fileId)) := rfl
  have p2 : (fieldsOf (selectEf d.fileId)).p2 = 0x0C := rfl
  rw [handler, scosCmdSelect, p2, if_neg (by decide), if_neg (by decide), state_bind, target]
  rw [notDf, if_pos rfl, commit, notDf, under] at found
  cases usable : fsIsUsable d with
  | false =>
    rw [usable] at found
    exact bind_error (liftFs_error found)
  | true =>
    rw [usable] at found
    exact bind_ok (liftFs_ok found)

end Transfers

section Forms
variable {card : Card} {cap : UInt16} {t : FileTree} {i : UInt16} {d : FsDescriptor}

theorem lifeStep_operational (serving : Serving t card) (active : card.kernel.lifecycle = .operational)
    (event : LifeEvent) : (lifeStep card event).kernel.lifecycle = .operational := by
  have ready := serving.live.ready
  cases event with
  | used event =>
    cases event with
    | apdu cmd cap => exact (scosProcess_lifecycle cmd cap card).trans active
    | reset => rfl
    | init => exact congrArg (·.2.kernel.lifecycle) (scosInit_mounts ready.reads ready.holds)
    | powerCycle => exact congrArg (·.2.kernel.lifecycle) (powerUp_mounts ready.reads ready.holds)
  | cut cmd cap k later => exact scosInit_operational (cut_atomic serving.live serving.reliable cmd cap k later).1

/-- Since its first boot a card has always been in service. -/
theorem booted_operational {eepromSize flashSize : UInt32}
    (boots : scosInit (blankCard eepromSize flashSize) = (.ok, card))
    (events : List LifeEvent) : (life card events).kernel.lifecycle = .operational := by
  obtain ⟨t, serving⟩ := booted_serving boots []
  have active : card.kernel.lifecycle = .operational := by
    have ok := @scosInit_operational (blankCard eepromSize flashSize)
    rw [boots] at ok
    exact ok rfl
  change Serving t card at serving
  clear boots
  induction events generalizing card t with
  | nil => exact active
  | cons event rest ih =>
    obtain ⟨t', next⟩ := lifeStep_serving serving event
    exact ih t' (lifeStep_operational serving active event) next

/-- What a handler starts from. -/
def opened (card : Card) (cap : UInt16) : Session := ⟨card.kernel, card.store, apduRspInit cap⟩

/-- What a handler's end is answered with. -/
def answered : Except Sw Sw × Session → ScosStatus × List UInt8 × Card
  | (r, c) => (.ok, apduRspFinish c.rsp (endedWith r), ⟨c.kernel, c.store⟩)

theorem scosProcess_command {a : Command} (room : 2 ≤ cap) (operational : card.kernel.lifecycle = .operational)
    (cla : a.cla = 0x00) :
    scosProcess (some a.encode) cap card = answered (scosDispatch (fieldsOf a) (opened card cap)) := by
  have header : (fieldsOf a).cla = a.cla := by
    unfold fieldsOf
    split <;> rfl
  exact scosProcess_dispatch room operational (apduParse_encode a) (by rw [header, cla]; decide) rfl

/-- A transfer whose target is known. -/
theorem scosProcess_transfer {p1 p2 : UInt8} {i offset : UInt16} (room : 2 ≤ cap)
    (operational : card.kernel.lifecycle = .operational) (x : Transfer)
    (target : resolveTarget p1 p2 (opened card cap) = (.ok (i, offset), opened card cap)) :
    scosProcess (some (x.command p1 p2).encode) cap card = answered (x.at i offset (opened card cap)) := by
  rw [scosProcess_command room operational (by cases x <;> rfl), transfer_dispatch, bind_ok target]

/-- The card with another EF of the current DF selected. -/
def choosing (card : Card) (i : UInt16) : Card :=
  { card with kernel := { card.kernel with sel := ⟨card.kernel.sel.curDf, i⟩ } }

theorem scosProcess_selectEf (room : 2 ≤ cap) (operational : card.kernel.lifecycle = .operational)
    (ready : Ready card.store t) (live : t.table i = some d) (under : d.parent = card.kernel.sel.curDf)
    (ef : d.type = .efTransparent) :
    scosProcess (some (selectEf d.fileId).encode) cap card =
      if fsIsUsable d then (.ok, [0x90, 0x00], choosing card i)
      else answered (.error (fsErrorToSw .notUsable), opened card cap) := by
  have selects := @selectEf_dispatch (opened card cap) t i d ready live under ef
  rw [scosProcess_command room operational rfl, selects]
  cases fsIsUsable d with
  | false => rfl
  | true =>
    have finish := apduRspFinish_empty room swOk
    exact congrArg (fun bytes => (ScosStatus.ok, bytes, choosing card i)) finish

/-- The short identifier form against a SELECT of the same EF and the offset form. -/
theorem short_form_agrees (operational : card.kernel.lifecycle = .operational) (ready : Ready card.store t)
    (live : t.table i = some d)
    (under : d.parent = card.kernel.sel.curDf) (ef : d.type = .efTransparent) (named : d.sfi ≠ fsNoSfi)
    (low : d.sfi ≤ 30) (x : Transfer) (offset : UInt8) (cap : UInt16) :
    let short := scosProcess (some (x.command (0x80 ||| d.sfi) offset).encode) cap card
    let selected := scosProcess (some (selectEf d.fileId).encode) cap card
    let plain := scosProcess (some (x.command 0x00 offset).encode) cap selected.2.2
    if selected.2.1 = [0x90, 0x00] then
      short.1 = plain.1 ∧ short.2.1 = plain.2.1 ∧ short.2.2.store = plain.2.2.store
    else short = (selected.1, selected.2.1, card) := by
  intro short selected plain
  by_cases room : 2 ≤ cap
  case neg => simp only [short, selected, scosProcess_small room, List.nil_eq, reduceCtorEq, if_false]
  have target := @resolveTarget_short (opened card cap) t i d ready live under ef named low offset
  have shortly : short = _ := scosProcess_transfer room operational x target
  have selecting : selected = _ := scosProcess_selectEf room operational ready live under ef
  cases usable : fsIsUsable d with
  | false =>
    rw [usable, if_neg Bool.false_ne_true] at selecting
    have refused := @transfer_unusable (opened card cap) t i d ready live usable x offset.toUInt16
    rw [shortly, selecting, refused, if_neg]
    · rfl
    · rw [answered, show (opened card cap).rsp = apduRspInit cap from rfl, apduRspFinish_empty room]
      exact show ([0x69, 0x85] : List UInt8) ≠ [0x90, 0x00] by decide
  | true =>
    rw [usable, if_pos rfl] at selecting
    have same : word16 0x00 offset = offset.toUInt16 := by simp [word16]
    have current := @resolveTarget_current (opened (choosing card i) cap) 0x00 (live_ne_invalid live) (by decide) offset
    rw [same] at current
    have plainly : plain = answered (x.at i offset.toUInt16 (opened (choosing card i) cap)) := by
      rw [show plain = scosProcess _ cap selected.2.2 from rfl, selecting]
      exact @scosProcess_transfer (choosing card i) cap 0x00 offset i offset.toUInt16 room operational x current
    have moved := transfer_blind x i offset.toUInt16 (opened card cap) (choosing card i).kernel
    rw [show ({ opened card cap with kernel := (choosing card i).kernel } : Session) = opened (choosing card i) cap
      from rfl] at moved
    rw [selecting, if_pos rfl, shortly, plainly, moved]
    exact ⟨rfl, rfl, rfl⟩

end Forms

/-- At every point of a card's life, reading or updating an EF of the current DF by its
short identifier is selecting it and using the offset form: the same answer and the
same memory, or the refusal that SELECT gives and nothing done. -/
theorem short_id_form_is_select_then_offset {eepromSize flashSize : UInt32} {booted : Card}
    (boots : scosInit (blankCard eepromSize flashSize) = (.ok, booted)) (events : List LifeEvent) {i : UInt16}
    {d : FsDescriptor} (file : fileAt (life booted events).store i = some d)
    (under : d.parent = (life booted events).kernel.sel.curDf) (ef : d.type = .efTransparent) (least : 1 ≤ d.sfi)
    (most : d.sfi ≤ 30) (x : Transfer) (offset : UInt8) (cap : UInt16) :
    let card := life booted events
    let short := scosProcess (some (x.command (0x80 ||| d.sfi) offset).encode) cap card
    let selected := scosProcess (some (selectEf d.fileId).encode) cap card
    let plain := scosProcess (some (x.command 0x00 offset).encode) cap selected.2.2
    if selected.2.1 = [0x90, 0x00] then
      short.1 = plain.1 ∧ short.2.1 = plain.2.1 ∧ short.2.2.store.hal.nvm = plain.2.2.store.hal.nvm
    else short = (selected.1, selected.2.1, card) := by
  intro card short selected plain
  obtain ⟨t, serving⟩ := booted_serving boots events
  have live : t.table i = some d := by rw [← fileAt_ready serving.live.ready, file]
  have named : d.sfi ≠ fsNoSfi := by
    intro none
    rw [none] at least
    exact absurd least (by decide)
  have agrees :=
    short_form_agrees (booted_operational boots events) serving.live.ready live under ef named most x offset cap
  split
  · rename_i accepted
    rw [if_pos accepted] at agrees
    exact ⟨agrees.1, agrees.2.1, by rw [agrees.2.2]⟩
  · rename_i refused
    rw [if_neg refused] at agrees
    exact agrees

/-- The EF 2F00 of the factory tree, which has the short identifier 1. -/
theorem short_id_form_of_factory_ef : ∃ booted, scosInit (blankCard 656 112) = (.ok, booted) ∧
    let read := Transfer.read ⟨1, by decide, by decide⟩
    let short := scosProcess (some (read.command (0x80 ||| 1) 5).encode) 258 booted
    let selected := scosProcess (some (selectEf 0x2F00).encode) 258 booted
    let plain := scosProcess (some (read.command 0x00 5).encode) 258 selected.2.2
    selected.2.1 = [0x90, 0x00] ∧ short.2.1 = plain.2.1 ∧ short.2.2.store.hal.nvm = plain.2.2.store.hal.nvm := by
  obtain ⟨booted, boots⟩ := small_chip_boots
  have accepted :
      (scosProcess (some (selectEf 0x2F00).encode) 258 (scosInit (blankCard 656 112)).2).2.1 = [0x90, 0x00] := by
    decide +kernel
  rw [boots] at accepted
  have file : fileAt (life booted []).store 1 = some (LayoutEntry.descriptor ⟨1, 0x2F00, .efTransparent, 0, 32, 1⟩) := by
    rw [life, List.foldl_nil, blank_files boots]
    decide
  have root : (life booted []).kernel.sel.curDf = 0 := by
    have reset : (scosInit (blankCard 656 112)).2.kernel.sel.curDf = 0 := by decide +kernel
    rwa [boots] at reset
  have agrees := short_id_form_is_select_then_offset boots [] file root.symm rfl (by decide) (by decide)
    (.read ⟨1, by decide, by decide⟩) 5 258
  have agrees := (if_pos accepted).mp agrees
  exact ⟨booted, boots, accepted, agrees.2⟩

/-! Reading a file in steps. -/

/-- A terminal reading on from an offset, one READ BINARY after the other, up to the
first `6282`. There is nothing to show for it when an offset does not fit in fifteen
bits, when another status word comes back, or when the steps run out. -/
def readOn (le : Expected) (cap : UInt16) : Nat → Nat → Card → Option (List UInt8)
  | 0, _, _ => none
  | steps + 1, offset, card =>
    if offset > 0x7FFF then none
    else
      let cmd := Transfer.command (.read le) (UInt8.ofNat (offset / 256)) (UInt8.ofNat offset)
      let (_, answer, after) := scosProcess (some cmd.encode) cap card
      let data := answer.take (answer.length - 2)
      let sw := answer.drop (answer.length - 2)
      if sw = [0x62, 0x82] then some data
      else if sw = [0x90, 0x00] then (readOn le cap steps (offset + le.amount) after).map (data ++ ·)
      else none

section Reading
variable {card : Card} {cap : UInt16} {t : FileTree} {i : UInt16} {d : FsDescriptor} {offset : Nat} {le : Expected}

private theorem offset_bytes (low : offset ≤ 0x7FFF) :
    UInt8.ofNat (offset / 256) &&& 0x80 = 0 ∧
      word16 (UInt8.ofNat (offset / 256)) (UInt8.ofNat offset) = UInt16.ofNat offset := by
  have high : ∀ n < 128, UInt8.ofNat n &&& 0x80 = 0 := by decide
  refine ⟨high _ (by omega), UInt16.toNat_inj.mp ?_⟩
  rw [word16_toNat, UInt8.toNat_ofNat', UInt8.toNat_ofNat', UInt16.toNat_ofNat']
  omega

private theorem put_first {src : List UInt8} (room : src.length + 2 ≤ cap.toNat) :
    put src (opened card cap) = (.ok (), { opened card cap with rsp := ⟨cap, src, false⟩ }) := by
  have appended : apduRspPut (apduRspInit cap) src = (true, ⟨cap, src, false⟩) := by
    rw [apduRspPut_eq (by simp [apduRspInit]; omega), if_pos (by simpa [apduRspInit] using room)]
    rfl
  rw [put, show (opened card cap).rsp = apduRspInit cap from rfl, appended]

/-- One READ BINARY of the current EF, from an offset up to its end. -/
theorem scosProcess_read (operational : card.kernel.lifecycle = .operational) (ready : Ready card.store t)
    (live : t.table card.kernel.sel.curEf = some d) (ef : fsIsEf d = true) (usable : fsIsUsable d = true)
    (room : le.amount + 2 ≤ cap.toNat) (inside : offset ≤ d.size.toNat) (low : offset ≤ 0x7FFF) :
    scosProcess (some (Transfer.command (.read le) (UInt8.ofNat (offset / 256)) (UInt8.ofNat offset)).encode) cap card =
      (.ok, card.store.hal.nvm.flash.read (d.dataOffset.toNat + offset) (min le.amount (d.size.toNat - offset)) ++
        (if d.size.toNat - offset < le.amount then [0x62, 0x82] else [0x90, 0x00]), card) := by
  obtain ⟨plain, position⟩ := offset_bytes low
  have small : 2 ≤ cap := UInt16.le_iff_toNat_le.mpr (by simp only [UInt16.reduceToNat]; omega)
  have value : (UInt16.ofNat offset).toNat = offset := by
    rw [UInt16.toNat_ofNat']
    omega
  have target := @resolveTarget_current (opened card cap) _ (live_ne_invalid live) plain (UInt8.ofNat offset)
  rw [position] at target
  have read := fsEfRead_live ready live ef usable (UInt16.le_iff_toNat_le.mpr (by rw [value]; exact inside))
    (UInt16.ofNat le.amount)
  rw [value, expected_toNat] at read
  have length := @Region.read_length card.store.hal.nvm.flash (d.dataOffset.toNat + offset)
    (min le.amount (d.size.toNat - offset))
  generalize card.store.hal.nvm.flash.read (d.dataOffset.toNat + offset) (min le.amount (d.size.toNat - offset)) = data
    at read length ⊢
  have lifted :
    liftFs (fsEfRead card.kernel.sel.curEf (UInt16.ofNat offset) (UInt16.ofNat le.amount)) (opened card cap) =
    (.ok data, opened card cap) := liftFs_ok read
  have ran : Transfer.at (.read le) card.kernel.sel.curEf (UInt16.ofNat offset) (opened card cap) =
      (.ok (if data.length < le.amount then swNvmUnchangedEof else swOk),
        { opened card cap with rsp := ⟨cap, data, false⟩ }) := by
    rw [Transfer.at, bind_ok lifted, bind_ok (put_first (by omega))]
    rfl
  have ended : data.length < le.amount ↔ d.size.toNat - offset < le.amount := by omega
  rw [scosProcess_transfer small operational _ target]
  refine (congrArg answered ran).trans ?_
  rw [answered, apduRspFinish, if_neg (UInt16.not_lt.mpr small)]
  simp only [ended, Bool.false_eq_true, if_false, endedWith]
  by_cases last : d.size.toNat - offset < le.amount
  · rw [if_pos last, if_pos last]
    rfl
  · rw [if_neg last, if_neg last]
    rfl

theorem readOn_reads (operational : card.kernel.lifecycle = .operational) (ready : Ready card.store t)
    (live : t.table card.kernel.sel.curEf = some d) (ef : fsIsEf d = true) (usable : fsIsUsable d = true)
    (low : d.size ≤ fsMaxEfSize) (room : le.amount + 2 ≤ cap.toNat) (steps : Nat) :
    ∀ offset ≤ d.size.toNat, (d.size.toNat - offset) / le.amount < steps →
      readOn le cap steps offset card =
        some (card.store.hal.nvm.flash.read (d.dataOffset.toNat + offset) (d.size.toNat - offset)) := by
  have limit : d.size.toNat ≤ 0x7FFF := UInt16.le_iff_toNat_le.mp low
  have positive := le.positive
  induction steps with
  | zero => intro offset _ few; exact absurd few (Nat.not_lt_zero _)
  | succ steps ih =>
    intro offset inside enough
    have answer := scosProcess_read operational ready live ef usable room inside (by omega)
    have whole : ∀ tail : List UInt8, tail.length = 2 → ∀ data : List UInt8,
        (data ++ tail).take ((data ++ tail).length - 2) = data ∧
          (data ++ tail).drop ((data ++ tail).length - 2) = tail := by
      intro tail two data
      rw [List.length_append, two, Nat.add_sub_cancel]
      exact ⟨List.take_left, List.drop_left⟩
    rw [readOn, if_neg (by omega)]
    dsimp only
    rw [answer]
    dsimp only
    by_cases last : d.size.toNat - offset < le.amount
    · rw [if_pos last, (whole _ rfl _).1, (whole _ rfl _).2, if_pos rfl, Nat.min_eq_right (by omega)]
    · rw [if_neg last, (whole _ rfl _).1, (whole _ rfl _).2, Nat.min_eq_left (by omega)]
      have fewer : (d.size.toNat - (offset + le.amount)) / le.amount < steps := by
        rw [Nat.div_eq_sub_div positive (Nat.not_lt.mp last), Nat.sub_sub] at enough
        exact Nat.lt_of_succ_lt_succ enough
      rw [if_neg (by decide), if_pos rfl, ih (offset + le.amount) (by omega) fewer, Option.map_some,
        ← Nat.add_assoc, ← Region.read_append]
      congr 2
      omega

end Reading

/-- At every point of a card's life the current EF can be read back in steps of any
expected length: the reading ends, no step fails, and it gives the contents. -/
theorem sequential_reads_return_the_file {eepromSize flashSize : UInt32} {booted : Card}
    (boots : scosInit (blankCard eepromSize flashSize) = (.ok, booted)) (events : List LifeEvent)
    (chosen : (life booted events).kernel.sel.curEf ≠ fsInvalidIndex) (le : Expected) (cap : UInt16)
    (room : le.amount + 2 ≤ cap.toNat) :
    let card := life booted events
    ∃ d content, fileAt card.store card.kernel.sel.curEf = some d ∧ 1 ≤ d.size.toNat ∧ d.size.toNat ≤ 32767 ∧
      contentAt card.store card.kernel.sel.curEf = some content ∧ content.length = d.size.toNat ∧
      ∀ steps, d.size.toNat / le.amount < steps → readOn le cap steps 0 card = some content := by
  intro card
  obtain ⟨t, serving⟩ := booted_serving boots events
  have files := fileAt_ready serving.live.ready
  obtain ⟨d, live, ef, usable, under⟩ := serving.ef.resolve_left chosen
  have file : fileAt card.store card.kernel.sel.curEf = some d := by rw [files]; exact live
  have type : d.type = .efTransparent := by simpa [fsIsEf] using ef
  obtain ⟨sizes, -⟩ := booted_requestable boots events _ d file (by rw [type]; decide)
  simp only [checkRequestType, type] at sizes
  split at sizes
  · cases sizes
  rename_i sized
  obtain ⟨some, low⟩ := not_or.mp sized
  have low := UInt16.not_lt.mp low
  have reads := readOn_reads (booted_operational boots events) serving.live.ready live ef usable low room
  refine ⟨d, card.store.hal.nvm.flash.read d.dataOffset.toNat d.size.toNat, file, ?_, UInt16.le_iff_toNat_le.mp low, ?_,
    Region.read_length, fun steps enough => reads steps 0 (Nat.zero_le _) enough⟩
  · exact Nat.pos_of_ne_zero fun zero => some (UInt16.toNat_inj.mp zero)
  · rw [contentAt, file]
    exact if_pos ef

/-- The EF 6F01 of the factory tree, sixteen bytes at a time. -/
theorem sequential_reads_of_factory_ef : ∃ booted, scosInit (blankCard 656 112) = (.ok, booted) ∧
    let card := life booted [.used (.apdu (some [0x00, 0xA4, 0x08, 0x0C, 0x04, 0x7F, 0x10, 0x6F, 0x01]) 258)]
    ∃ content, contentAt card.store card.kernel.sel.curEf = some content ∧
      readOn ⟨16, by decide, by decide⟩ 258 65536 0 card = some content := by
  obtain ⟨booted, boots⟩ := small_chip_boots
  let events : List LifeEvent := [.used (.apdu (some [0x00, 0xA4, 0x08, 0x0C, 0x04, 0x7F, 0x10, 0x6F, 0x01]) 258)]
  have chosen : (life (scosInit (blankCard 656 112)).2 events).kernel.sel.curEf ≠ fsInvalidIndex := by decide +kernel
  rw [boots] at chosen
  obtain ⟨d, content, -, -, low, held, -, reads⟩ :=
    sequential_reads_return_the_file boots events chosen ⟨16, by decide, by decide⟩ 258 (by decide)
  exact ⟨booted, boots, content, held, reads 65536 (Nat.lt_of_le_of_lt (Nat.div_le_self ..) (by omega))⟩

end CardOs.BinaryProofs
