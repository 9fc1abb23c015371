import CardOs.AnswerProofs
import CardOs.FsInitProofs

/-! What one command can do to a card whose store holds a file tree. `Effect`
lists every way a handler can end, with the tree change each success makes; all
statements about runs are read off from it. A store that is not mounted refuses
every file command. -/
namespace CardOs.CommandProofs
open CardOs.Library CardOs.Library.Action CardOs.Apdu CardOs.FsTypes CardOs.FsStore CardOs.FsStoreProofs CardOs.Fs
open CardOs.FileTree CardOs.FsProofs CardOs.FsChangeProofs CardOs.FileCommands CardOs.Kernel CardOs.AnswerProofs
open CardOs.ApduProofs

/-- The EF and the offset that P1 and P2 designate: a short identifier names an
EF of the current DF, otherwise they are an offset into the current EF. -/
def Designates (t : FileTree) (sel : FsSelection) (p1 p2 : UInt8) (index offset : UInt16) : Prop :=
  (p1 &&& 0x80 ≠ 0 ∧ offset = p2.toUInt16 ∧ ∃ d, t.table index = some d ∧ d.parent = sel.curDf ∧
      fsIsEf d = true ∧ d.sfi = p1 &&& 0x1F ∧ d.sfi ≠ fsNoSfi) ∨
    (p1 &&& 0x80 = 0 ∧ offset = BigEndian.word16 p1 p2 ∧ index = sel.curEf ∧ index ≠ fsInvalidIndex)

/-- What a successful READ BINARY adds to the response: bytes of the designated
EF, as FLASH holds them. -/
def Delivers (t : FileTree) (c : Session) (cmd : ApduCommand) (rsp : ApduResponse) : Prop :=
  ∃ index offset d n, Designates t c.kernel.sel cmd.p1 cmd.p2 index offset ∧ t.table index = some d ∧
    fsIsEf d = true ∧ offset.toNat + n ≤ d.size.toNat ∧
    rsp.bytes = c.rsp.bytes ++ c.store.hal.nvm.flash.read (d.dataOffset.toNat + offset.toNat) n

/-- How a handler can end on a session whose store holds the tree `t`. -/
inductive Effect (t : FileTree) (c : Session) (cmd : ApduCommand) : Sw → Session → Prop
  | refused (sw : Sw) (rsp : ApduResponse) (refusal : Refusal sw) : Effect t c cmd sw { c with rsp }
  | read (sw : Sw) (rsp : ApduResponse) (ins : cmd.ins = insReadBinary) (delivers : Delivers t c cmd rsp) :
      Effect t c cmd sw { c with rsp }
  | selected (sel : FsSelection) (rsp : ApduResponse) (ins : cmd.ins = insSelect) (df : DfSelected t sel)
      (ef : EfSelected t c.kernel.sel → EfSelected t sel) :
      Effect t c cmd swOk { c with kernel := { c.kernel with sel }, rsp }
  | updated (index offset : UInt16) (data : List UInt8) (store : Store) (ins : cmd.ins = insUpdateBinary)
      (field : cmd.data = some data)
      (target : Designates t c.kernel.sel cmd.p1 cmd.p2 index offset)
      (updated : Updated t index offset data c.store (.ok ()) store) :
      Effect t c cmd swOk { c with store }
  | created (slot : UInt16) (d : FsDescriptor) (store : Store) (ins : cmd.ins = insCreateFile)
      (child : d.parent = c.kernel.sel.curDf) (placed : Placed t slot d c.store (.ok ()) store) :
      Effect t c cmd swOk { c with store }
  | deleted (sel : FsSelection) (store : Store) (ins : cmd.ins = insDeleteFile)
      (deleted : Deleted t c.kernel.sel c.store (.ok sel) store) :
      Effect t c cmd swOk { c with kernel := { c.kernel with sel }, store }
  | torn (sw : Sw) (store : Store) (t' : FileTree) (refusal : Refusal sw)
      (faulty : c.store.hal.writeFaults ≠ []) (ready : Ready store t')
      (kept : t'.table c.kernel.sel.curDf = t.table c.kernel.sel.curDf) :
      Effect t c cmd sw { c with store }

section Handlers
variable {t : FileTree} {c c' : Session} {cmd : ApduCommand} {result : Except Sw Sw}

theorem liftFs_inspects {x : FsM α} {P : α → Prop} (inspects : Inspects x c.store P) :
    Inspects (liftFs x) c P := inspects_within inspects rfl

theorem liftFs_error {x : FsM α} {e : FsError} {store : Store} (ran : x c.store = (.error e, store)) :
    liftFs x c = (.error (fsErrorToSw e), { c with store }) := within_error ran

theorem liftFs_ok {x : FsM α} {a : α} {store : Store} (ran : x c.store = (.ok a, store)) :
    liftFs x c = (.ok a, { c with store }) := within_ok ran

theorem selectTarget_inspects (ready : Ready c.store t) (df : DfSelected t c.kernel.sel) :
    Inspects (selectTarget cmd c.kernel.sel) c fun sel =>
      DfSelected t sel ∧ (EfSelected t c.kernel.sel → EfSelected t sel) := by
  have widen : ∀ {x : FsM FsSelection}, Selects t c.store x →
      Inspects (liftFs x) c fun sel =>
        DfSelected t sel ∧ (EfSelected t c.kernel.sel → EfSelected t sel) :=
    fun selects => inspects_mono (liftFs_inspects selects) fun _ good => ⟨good.1, fun _ => good.2⟩
  have selecting := selectTarget_selecting cmd c.kernel.sel
  generalize selectTarget cmd c.kernel.sel = target at selecting
  cases selecting with
  | refused => exact inspects_fail
  | byFid fileId => exact widen (fsSelectByFid_selects ready df fileId)
  | child fileId wantDf => exact widen (selectChildTyped_selects ready df fileId wantDf)
  | parent => exact widen (fsSelectParent_selects ready df)
  | byPath path fromMf => exact liftFs_inspects (fsSelectByPath_inspects ready df path fromMf)

/-- Nothing but the response is touched, on any session over this kernel and store. -/
def Silent (k : ScosKernel) (s : Store) (x : CmdM α) : Prop :=
  ∀ rsp, ∃ r rsp', x ⟨k, s, rsp⟩ = (r, ⟨k, s, rsp'⟩)

theorem silent_pure {k : ScosKernel} {s : Store} {a : α} : Silent k s (pure a : CmdM α) :=
  fun rsp => ⟨.ok a, rsp, rfl⟩

theorem silent_fail {k : ScosKernel} {s : Store} {sw : Sw} : Silent k s (fail sw : CmdM α) :=
  fun rsp => ⟨.error sw, rsp, rfl⟩

/-- Appending changes nothing but the response, and adds the bytes unless it
stops. -/
theorem put_appends (src : List UInt8) (c : Session) :
    (∃ rsp, put src c = (.ok (), { c with rsp }) ∧ rsp.bytes = c.rsp.bytes ++ src) ∨
      ∃ rsp, put src c = (.error swNoPreciseDiagnosis, { c with rsp }) := by
  unfold put apduRspPut osMemcpyChecked
  by_cases empty : src.length = 0
  · rw [if_pos empty]
    left
    exact ⟨c.rsp, rfl, by rw [List.length_eq_zero_iff.mp empty, List.append_nil]⟩
  · simp only [if_neg empty]
    generalize (if c.rsp.cap ≥ 2 then c.rsp.cap.toNat - 2 else 0) = available
    by_cases full : c.rsp.bytes.length + src.length > available
    · rw [if_pos full]
      right
      exact ⟨_, rfl⟩
    · rw [if_neg full]
      by_cases long : src.length > c.rsp.cap.toNat - c.rsp.bytes.length
      · rw [if_pos long]
        right
        exact ⟨_, rfl⟩
      · rw [if_neg long]
        left
        exact ⟨_, rfl, rfl⟩

theorem silent_put {k : ScosKernel} {s : Store} (src : List UInt8) : Silent k s (put src) := by
  intro rsp
  rcases put_appends src ⟨k, s, rsp⟩ with ⟨rsp', done, _⟩ | ⟨rsp', failed⟩
  · exact ⟨_, rsp', done⟩
  · exact ⟨_, rsp', failed⟩

theorem silent_liftFs {k : ScosKernel} {s : Store} {x : FsM α} {P : α → Prop} (inspects : Inspects x s P) :
    Silent k s (liftFs x) := by
  intro rsp
  rcases inspects_cases inspects with ⟨a, ran, _⟩ | ⟨e, ran⟩
  · exact ⟨_, rsp, liftFs_ok ran⟩
  · exact ⟨_, rsp, liftFs_error ran⟩

theorem silent_bind {k : ScosKernel} {s : Store} {x : CmdM α} {f : α → CmdM β} (first : Silent k s x)
    (rest : ∀ a, Silent k s (f a)) : Silent k s (x >>= f) := by
  intro rsp
  obtain ⟨_ | a, rsp', ran⟩ := first rsp
  · exact ⟨_, rsp', bind_error ran⟩
  · rw [bind_ok ran]
    exact rest a rsp'

theorem emitFci_silent (ready : Ready c.store t) (index : UInt16) (retOpt : UInt8) :
    Silent c.kernel c.store (emitFci cmd index retOpt) := by
  unfold emitFci
  split
  · exact silent_pure
  split
  · exact silent_fail
  apply silent_bind (silent_liftFs (readDesc_inspects ready index))
  intro d
  dsimp only
  split
  · exact silent_fail
  split
  · exact silent_pure
  split
  · exact silent_fail
  exact silent_bind (silent_put _) fun _ => silent_bind (silent_put _) fun _ => silent_put _

theorem scosCmdSelect_effect (ready : Ready c.store t) (df : DfSelected t c.kernel.sel)
    (ins : cmd.ins = insSelect) (ran : scosCmdSelect cmd c = (result, c')) :
    Effect t c cmd (endedWith result) c' := by
  unfold scosCmdSelect at ran
  split at ran
  · cases ran; exact .refused _ c.rsp (by decide)
  split at ran
  · cases ran; exact .refused _ c.rsp (by decide)
  rw [state_bind] at ran
  rcases inspects_cases (selectTarget_inspects ready df) with ⟨sel, target, dfNow, efNow⟩ | ⟨sw, target⟩
  · rw [bind_ok target] at ran
    obtain ⟨r, rsp, emitted⟩ := emitFci_silent ready (fsSelectedIndex sel) (cmd.p2 &&& 0x0C) c.rsp
    cases r with
    | error sw =>
      rw [bind_error emitted] at ran
      cases ran
      exact .refused sw rsp ((emitFci_ends cmd _ _ c).1 sw _ emitted)
    | ok u =>
      rw [bind_ok emitted, update_bind] at ran
      cases ran
      exact .selected sel rsp ins dfNow efNow
  · rw [bind_error target] at ran
    cases ran
    exact .refused sw c.rsp ((selectTarget_ends cmd _ c).1 sw c target)

theorem resolveTarget_inspects (ready : Ready c.store t) (p1 p2 : UInt8) :
    Inspects (resolveTarget p1 p2) c fun target =>
      Designates t c.kernel.sel p1 p2 target.1 target.2 := by
  apply inspects_state_bind
  split
  · rename_i short
    split
    · exact inspects_fail
    split
    · exact inspects_fail
    rcases fsFindBySfi_cases ready c.kernel.sel.curDf (p1 &&& 0x1F) with
      ⟨i, d, found, live, under, ef, same, named⟩ | ⟨e, missing, _⟩
    · refine inspects_of_eq (r := .ok (i, p2.toUInt16)) (by rw [bind_ok (liftFs_ok found)]; rfl) ?_
      rintro target ⟨⟩
      exact .inl ⟨short, rfl, d, live, under, ef, same, same ▸ named⟩
    · exact inspects_of_eq (r := .error (fsErrorToSw e)) (by rw [bind_error (liftFs_error missing)])
        (by simp)
  · rename_i long
    split
    · exact inspects_fail
    · rename_i some
      exact inspects_pure (.inr ⟨not_not.mp long, rfl, rfl, some⟩)

theorem scosCmdReadBinary_effect (ready : Ready c.store t) (ins : cmd.ins = insReadBinary)
    (ran : scosCmdReadBinary cmd c = (result, c')) : Effect t c cmd (endedWith result) c' := by
  unfold scosCmdReadBinary at ran
  split at ran
  · cases ran; exact .refused _ c.rsp (by decide)
  split at ran
  · cases ran; exact .refused _ c.rsp (by decide)
  rcases inspects_cases (resolveTarget_inspects ready cmd.p1 cmd.p2) with
    ⟨⟨index, offset⟩, target, designates⟩ | ⟨sw, target⟩
  · rw [bind_ok target] at ran
    dsimp only at ran
    split at ran
    · cases ran; exact .refused _ c.rsp (by decide)
    rcases inspects_cases (fsEfRead_inspects ready index offset cmd.le) with
      ⟨got, read, d, live, ef, _, inside, _, stored⟩ | ⟨e, read⟩
    · rw [bind_ok (liftFs_ok read)] at ran
      rcases put_appends got c with ⟨rsp, done, bytes⟩ | ⟨rsp, failed⟩
      · rw [bind_ok done] at ran
        cases ran
        exact .read _ rsp ins ⟨index, offset, d, got.length, designates, live, ef, inside, stored ▸ bytes⟩
      · rw [bind_error failed] at ran
        cases ran
        exact .refused _ rsp (by decide)
    · rw [bind_error (liftFs_error read)] at ran
      cases ran
      exact .refused _ c.rsp (fsErrorToSw_refusal e)
  · rw [bind_error target] at ran
    cases ran
    exact .refused sw c.rsp ((resolveTarget_ends _ _ c).1 sw c target)

/-- A command as the parser delivers it: its data field has the length Lc says. -/
def Whole (cmd : ApduCommand) : Prop := ∀ data, cmd.data = some data → data.length = cmd.lc.toNat

/-- The instruction byte of a command. -/
def insOf (cmd : Option (List UInt8)) : UInt8 := (cmd.getD []).getD 1 0

/-- A parsed command is whole, and its header bytes are the ones sent. -/
theorem apduParse_spec {bytes : List UInt8} (parsed : apduParse (some bytes) = (.ok, cmd)) :
    Whole cmd ∧ cmd.ins = insOf (some bytes) ∧ cmd.p1 = bytes.getD 2 0 ∧ cmd.p2 = bytes.getD 3 0 := by
  obtain ⟨a, rfl, rfl⟩ := apduParse_inv parsed
  refine ⟨fun data filled => ?_, ?_, ?_, ?_⟩
  · obtain ⟨placed, inside⟩ := fieldsOf_data filled
    rw [placed, List.length_take, List.length_drop]
    omega
  all_goals
    obtain ⟨cla, ins, p1, p2, body⟩ := a
    cases body <;> rfl

private theorem whole_nonempty {data : List UInt8} (whole : Whole cmd) (field : cmd.data = some data)
    (some : ¬ cmd.lc = 0) : data.length ≠ 0 := by
  intro empty
  have zero := whole data field
  rw [empty] at zero
  exact some (UInt16.toNat_inj.mp zero.symm)

theorem scosCmdUpdateBinary_effect (ready : Ready c.store t) (whole : Whole cmd)
    (ins : cmd.ins = insUpdateBinary) (ran : scosCmdUpdateBinary cmd c = (result, c')) :
    Effect t c cmd (endedWith result) c' := by
  unfold scosCmdUpdateBinary at ran
  rcases field : cmd.data with _ | data <;> simp only [field] at ran
  · cases ran; exact .refused _ c.rsp (by decide)
  split at ran
  · cases ran; exact .refused _ c.rsp (by decide)
  rename_i some
  split at ran
  · cases ran; exact .refused _ c.rsp (by decide)
  have nonempty : data ≠ [] := mt List.length_eq_zero_iff.mpr (whole_nonempty whole field some)
  rcases inspects_cases (resolveTarget_inspects ready cmd.p1 cmd.p2) with
    ⟨⟨index, offset⟩, target, designates⟩ | ⟨sw, target⟩
  · rw [bind_ok target] at ran
    dsimp only at ran
    rcases wrote : fsEfWrite index offset data c.store with ⟨r, store⟩
    have outcome := fsEfWrite_updated ready nonempty wrote
    cases r with
    | error e =>
      rw [bind_error (liftFs_error wrote)] at ran
      cases ran
      cases outcome with
      | refused e => exact .refused _ c.rsp (fsErrorToSw_refusal e)
      | torn e faulty ready' => exact .torn _ store t (fsErrorToSw_refusal e) faulty ready' rfl
    | ok u =>
      rw [bind_ok (liftFs_ok wrote)] at ran
      cases ran
      exact .updated index offset data store ins field designates outcome
  · rw [bind_error target] at ran
    cases ran
    exact .refused sw c.rsp ((resolveTarget_ends _ _ c).1 sw c target)

theorem scosCmdCreateFile_effect (ready : Ready c.store t) (df : DfSelected t c.kernel.sel)
    (ins : cmd.ins = insCreateFile) (ran : scosCmdCreateFile cmd c = (result, c')) :
    Effect t c cmd (endedWith result) c' := by
  have refusal : ∀ sw, result = .error sw → Refusal sw := by
    rintro sw rfl
    exact (scosCmdCreateFile_ends cmd c).1 sw c' ran
  unfold scosCmdCreateFile at ran
  rw [state_bind] at ran
  split at ran
  · cases ran; exact .refused _ c.rsp (by decide)
  split at ran
  · cases ran; exact .refused _ c.rsp (by decide)
  rcases field : cmd.data with _ | data <;> simp only [field] at ran
  · cases ran; exact .refused _ c.rsp (by decide)
  split at ran
  · cases ran; exact .refused _ c.rsp (by decide)
  rcases parsed : parseFcp data cmd.lc with sw | req <;> simp only [parsed] at ran
  · cases ran; exact .refused _ c.rsp (refusal _ rfl)
  rcases made : fsCreateFile c.kernel.sel req c.store with ⟨r, store⟩
  cases fsCreateFile_created ready made with
  | refused e =>
    rw [bind_error (liftFs_error made)] at ran
    cases ran
    exact .refused _ c.rsp (fsErrorToSw_refusal e)
  | placed slot outcome may placed =>
    cases placed with
    | noSpace ef full =>
      rw [bind_error (liftFs_error made)] at ran
      cases ran
      exact .refused _ c.rsp (fsErrorToSw_refusal .noSpace)
    | done ok ready' flash grown reliable =>
      rw [bind_ok (liftFs_ok made)] at ran
      cases ran
      exact .created slot _ store ins rfl (.done ok ready' flash grown reliable)
    | torn e faulty ready' kept =>
      rw [bind_error (liftFs_error made)] at ran
      cases ran
      obtain ⟨d, live, _⟩ := df
      exact .torn _ store _ (fsErrorToSw_refusal e) faulty ready' ((kept _ d live).trans live.symm)

theorem scosCmdDeleteFile_effect (ready : Ready c.store t) (ins : cmd.ins = insDeleteFile)
    (ran : scosCmdDeleteFile cmd c = (result, c')) : Effect t c cmd (endedWith result) c' := by
  unfold scosCmdDeleteFile at ran
  rw [state_bind] at ran
  split at ran
  · cases ran; exact .refused _ c.rsp (by decide)
  split at ran
  · cases ran; exact .refused _ c.rsp (by decide)
  rcases field : cmd.data with _ | data <;> simp only [field] at ran
  · cases ran; exact .refused _ c.rsp (by decide)
  split at ran
  · cases ran; exact .refused _ c.rsp (by decide)
  rcases gone : fsDeleteFile c.kernel.sel (fidOf data) c.store with ⟨r, store⟩
  have outcome := fsDeleteFile_deleted ready gone
  cases r with
  | error e =>
    rw [bind_error (liftFs_error gone)] at ran
    cases ran
    cases outcome with
    | refused e => exact .refused _ c.rsp (fsErrorToSw_refusal e)
    | torn e faulty ready' kept => exact .torn _ store _ (fsErrorToSw_refusal e) faulty ready' kept
  | ok sel =>
    rw [bind_ok (liftFs_ok gone), update_bind] at ran
    cases ran
    exact .deleted sel store ins outcome

/-- What any command does to a card that holds a tree. -/
theorem scosDispatch_effect (ready : Ready c.store t) (df : DfSelected t c.kernel.sel) (whole : Whole cmd)
    (ran : scosDispatch cmd c = (result, c')) : Effect t c cmd (endedWith result) c' := by
  rcases scosDispatch_cases cmd with
    ⟨ins, same⟩ | ⟨ins, same⟩ | ⟨ins, same⟩ | ⟨ins, same⟩ | ⟨ins, same⟩ | ⟨_, same⟩ <;> rw [same] at ran
  · exact scosCmdSelect_effect ready df ins ran
  · exact scosCmdReadBinary_effect ready ins ran
  · exact scosCmdUpdateBinary_effect ready whole ins ran
  · exact scosCmdCreateFile_effect ready df ins ran
  · exact scosCmdDeleteFile_effect ready ins ran
  · cases ran
    exact .refused _ c.rsp (by decide)

end Handlers

section Unmounted
variable {s : Store} {c c' : Session} {cmd : ApduCommand} {result : Except Sw Sw}

/-- Run from `s`, the computation changes nothing and never returns. -/
abbrev Stops (x : Action ε σ α) (s : σ) : Prop := Inspects x s fun _ => False

theorem stops_bind {x : Action ε σ α} {f : α → Action ε σ β} {s : σ} {P : β → Prop} (stops : Stops x s) :
    Inspects (x >>= f) s P := inspects_bind stops fun _ impossible => impossible.elim

/-- A caller that goes on after a status sees only failures. -/
theorem stops_attempt_bind {x : Action ε σ α} {g : Except ε α → Action ε' σ β} {s : σ} {P : β → Prop}
    (stops : Stops x s) (stopped : ∀ e, Inspects (g (.error e)) s P) : Inspects (attempt x >>= g) s P :=
  inspects_attempt_bind stops (fun _ => False.elim) stopped

private theorem readDesc_stops (unmounted : s.sb.mounted = false) (i : UInt16) :
    Stops (fsStoreReadDesc i) s := by
  apply stops_bind
  apply inspects_state_bind
  rw [unmounted]
  exact inspects_fail

private theorem resolve_stops (unmounted : s.sb.mounted = false) (i : UInt16) : Stops (resolve i) s :=
  stops_bind (readDesc_stops unmounted i)

private theorem noFiles (unmounted : s.sb.mounted = false) : List.range (fsStoreMaxFiles s).toNat = [] := by
  rw [fsStoreMaxFiles, unmounted]
  rfl

private theorem findChild_stops (unmounted : s.sb.mounted = false) (parent fileId : UInt16) :
    Stops (fsFindChild parent fileId) s := by
  apply inspects_state_bind
  rw [noFiles unmounted]
  exact inspects_fail

private theorem findBySfi_stops (unmounted : s.sb.mounted = false) (df : UInt16) (sfi : UInt8) :
    Stops (fsFindBySfi df sfi) s := by
  apply inspects_state_bind
  rw [noFiles unmounted]
  split
  · exact inspects_fail
  · exact inspects_fail

private theorem selectByFid_stops (unmounted : s.sb.mounted = false) (sel : FsSelection) (fileId : UInt16) :
    Stops (fsSelectByFid sel fileId) s := by
  apply inspects_bind (Q := fun _ => True)
  · unfold orChild
    split
    · exact inspects_pure trivial
    · exact stops_attempt_bind (findChild_stops unmounted _ _) fun _ => inspects_pure trivial
  intro i _
  apply inspects_bind (Q := fun _ => True)
  · unfold orCurrent
    split
    · exact inspects_pure trivial
    · exact stops_attempt_bind (readDesc_stops unmounted _) fun _ => inspects_pure trivial
  intro i _
  apply inspects_bind (Q := fun _ => True)
  · unfold orParent
    split
    · exact inspects_pure trivial
    · exact stops_attempt_bind (readDesc_stops unmounted _) fun _ => inspects_pure trivial
  intro i _
  split
  · exact inspects_fail
  · exact stops_bind (resolve_stops unmounted i)

private theorem walkPath_stops (unmounted : s.sb.mounted = false) (sel : FsSelection) (fid : UInt16)
    (rest : List UInt16) : Stops (walkPath sel true (fid :: rest)) s := by
  have here : Inspects (namesHere sel true fid) s fun answer => answer = false :=
    stops_attempt_bind (readDesc_stops unmounted _) fun _ => inspects_pure rfl
  apply inspects_bind here
  rintro answer rfl
  exact stops_attempt_bind (findChild_stops unmounted _ _) fun _ => inspects_fail

private theorem selectByPath_stops (unmounted : s.sb.mounted = false) (sel : FsSelection)
    (path : List UInt8) (fromMf : Bool) : Stops (fsSelectByPath sel path fromMf) s := by
  unfold fsSelectByPath
  split
  · exact inspects_fail
  rename_i even
  split
  · exact inspects_fail
  match path with
  | [] => exact absurd (.inl rfl) even
  | [_] => exact absurd (.inr (by simp)) even
  | hi :: lo :: rest => exact walkPath_stops unmounted _ _ _

private theorem selectTarget_stops (unmounted : c.store.sb.mounted = false) (sel : FsSelection) :
    Stops (selectTarget cmd sel) c := by
  have selecting := selectTarget_selecting cmd sel
  generalize selectTarget cmd sel = target at selecting
  cases selecting with
  | refused => exact inspects_fail
  | byFid fileId => exact liftFs_inspects (selectByFid_stops unmounted sel fileId)
  | child fileId => exact liftFs_inspects (stops_bind (findChild_stops unmounted sel.curDf fileId))
  | parent => exact liftFs_inspects (stops_bind (readDesc_stops unmounted sel.curDf))
  | byPath path fromMf => exact liftFs_inspects (selectByPath_stops unmounted sel path fromMf)

private theorem resolveTarget_unmounted (unmounted : c.store.sb.mounted = false) (p1 p2 : UInt8) :
    Inspects (resolveTarget p1 p2) c fun _ => True := by
  apply inspects_state_bind
  split
  · split
    · exact inspects_fail
    split
    · exact inspects_fail
    · exact stops_bind (liftFs_inspects (findBySfi_stops unmounted _ _))
  · split
    · exact inspects_fail
    · exact inspects_pure trivial

private theorem handlers_stop (unmounted : c.store.sb.mounted = false) (whole : Whole cmd) :
    Stops (scosCmdSelect cmd) c ∧ Stops (scosCmdReadBinary cmd) c ∧ Stops (scosCmdUpdateBinary cmd) c ∧
      Stops (scosCmdCreateFile cmd) c ∧ Stops (scosCmdDeleteFile cmd) c := by
  refine ⟨?select, ?read, ?update, ?create, ?delete⟩
  case select =>
    unfold scosCmdSelect
    split
    · exact inspects_fail
    split
    · exact inspects_fail
    · exact inspects_state_bind (stops_bind (selectTarget_stops unmounted _))
  case read =>
    unfold scosCmdReadBinary
    split
    · exact inspects_fail
    split
    · exact inspects_fail
    apply inspects_bind (resolveTarget_unmounted unmounted _ _)
    rintro ⟨index, offset⟩ _
    dsimp only
    split
    · exact inspects_fail
    · exact stops_bind (liftFs_inspects (stops_bind (resolve_stops unmounted _)))
  case update =>
    unfold scosCmdUpdateBinary
    split
    · exact inspects_fail
    rename_i data field
    split
    · exact inspects_fail
    rename_i some
    split
    · exact inspects_fail
    apply inspects_bind (resolveTarget_unmounted unmounted _ _)
    rintro ⟨index, offset⟩ _
    refine stops_bind (liftFs_inspects ?_)
    unfold fsEfWrite
    rw [if_neg (whole_nonempty whole field some)]
    exact stops_bind (resolve_stops unmounted _)
  case create =>
    apply inspects_state_bind
    repeat' split
    all_goals first
      | exact inspects_fail
      | exact stops_bind (liftFs_inspects (stops_bind (stops_bind (readDesc_stops unmounted _))))
  case delete =>
    apply inspects_state_bind
    repeat' split
    all_goals first
      | exact inspects_fail
      | skip
    refine stops_bind (liftFs_inspects (stops_bind ?_))
    unfold deleteChecks
    split
    · exact inspects_fail
    · exact stops_bind (findChild_stops unmounted _ _)

/-- Without a mounted store every command is refused and nothing changes. -/
theorem scosDispatch_unmounted (unmounted : c.store.sb.mounted = false) (whole : Whole cmd)
    (ran : scosDispatch cmd c = (result, c')) : c' = c ∧ Refusal (endedWith result) := by
  obtain ⟨select, read, update, create, delete⟩ := handlers_stop unmounted whole
  have stopped : ∀ {x : CmdM Sw} {P : Sw → Prop}, Stops x c → Ends x Refusal P → x c = (result, c') →
      c' = c ∧ Refusal (endedWith result) := by
    intro x P stops ends ran
    rcases inspects_cases stops with ⟨_, _, impossible⟩ | ⟨sw, failed⟩
    · exact impossible.elim
    · obtain ⟨rfl, rfl⟩ := Prod.mk.inj (ran.symm.trans failed)
      exact ⟨rfl, (ends c').1 sw c' failed⟩
  rcases scosDispatch_cases cmd with
    ⟨_, same⟩ | ⟨_, same⟩ | ⟨_, same⟩ | ⟨_, same⟩ | ⟨_, same⟩ | ⟨_, same⟩ <;> rw [same] at ran
  · exact stopped select (scosCmdSelect_ends cmd) ran
  · exact stopped read (scosCmdReadBinary_ends cmd) ran
  · exact stopped update (scosCmdUpdateBinary_ends cmd) ran
  · exact stopped create (scosCmdCreateFile_ends cmd) ran
  · exact stopped delete (scosCmdDeleteFile_ends cmd) ran
  · cases ran
    exact ⟨rfl, by decide⟩

end Unmounted

end CardOs.CommandProofs
