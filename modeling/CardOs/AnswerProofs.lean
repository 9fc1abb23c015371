import CardOs.ApduProofs
import CardOs.Kernel

/-! What a response looks like, from any card state at all. Handlers only ever
refuse with a checking error, data is only ever appended by the two commands
that return some and within what the command asked for, and a response that
outgrew its buffer is withdrawn. -/
namespace CardOs.AnswerProofs
open CardOs.Library CardOs.Library.Action CardOs.Library.BigEndian CardOs.Apdu CardOs.FsTypes CardOs.FsStore
open CardOs.Fs CardOs.FileCommands CardOs.Kernel CardOs.ApduProofs
open CardOs.Library.ShortApdu (Expected Command Body DataField)

/-- The status words that refuse a command: execution and checking errors. -/
def Refusal (sw : Sw) : Prop := 0x6300 ≤ sw ∧ sw < 0x7000

instance (sw : Sw) : Decidable (Refusal sw) := inferInstanceAs (Decidable (_ ∧ _))

theorem fsErrorToSw_refusal (e : FsError) : Refusal (fsErrorToSw e) := by
  cases e <;> decide

private theorem swWrongLe_toNat (n : UInt16) : (swWrongLe n).toNat = 0x6C00 + n.toNat % 256 := by
  have low : n.toNat % 256 < 2 ^ 8 := Nat.mod_lt _ (by decide)
  have value : (swWrongLe n).toNat = 0x6C <<< 8 ||| n.toNat % 256 := by
    simp only [swWrongLe, UInt16.toNat_or, UInt16.toNat_and, UInt16.reduceToNat]
    rw [show (255 : Nat) = 2 ^ 8 - 1 from rfl, Nat.and_two_pow_sub_one_eq_mod]
    rfl
  rw [value, ← Nat.shiftLeft_add_eq_or_of_lt low]
  rfl

theorem swWrongLe_refusal (n : UInt16) : Refusal (swWrongLe n) := by
  have value := swWrongLe_toNat n
  constructor
  · apply UInt16.le_iff_toNat_le.mpr
    rw [value]
    simp only [UInt16.reduceToNat]
    omega
  · apply UInt16.lt_iff_toNat_lt.mpr
    rw [value]
    simp only [UInt16.reduceToNat]
    omega

theorem refusal_ne_ok {sw : Sw} (refusal : Refusal sw) : sw ≠ swOk := by
  rintro rfl
  exact absurd refusal (by decide)

theorem refusal_ne_eof {sw : Sw} (refusal : Refusal sw) : sw ≠ swNvmUnchangedEof := by
  rintro rfl
  exact absurd refusal (by decide)

/-- The status words of a card: a refusal, success, or the short-read warning. -/
def Word (sw : Sw) : Prop := Refusal sw ∨ sw = swOk ∨ sw = swNvmUnchangedEof

section Words

theorem liftFs_returns {x : FsM α} {P : α → Prop} (ends : Ends x (fun _ => True) P) :
    Ends (liftFs x) Refusal P := ends_within ends fun e _ => fsErrorToSw_refusal e

theorem liftFs_ends {x : FsM α} : Ends (liftFs x) Refusal fun _ => True := liftFs_returns ends_any

theorem put_ends (src : List UInt8) : Ends (put src) Refusal fun _ => True := by
  intro c
  refine ⟨?_, fun _ _ _ => trivial⟩
  intro e c' ran
  unfold put at ran
  split at ran
  · cases ran
  · cases ran
    decide

private theorem anything_pure {a : α} : Ends (pure a : CmdM α) Refusal fun _ => True := ends_pure trivial

/-- What SELECT can come to: a refusal, or one of the calls that choose a file. -/
inductive Selecting (sel : FsSelection) : CmdM FsSelection → Prop where
  | refused {sw : Sw} (refusal : Refusal sw) : Selecting sel (fail sw)
  | byFid (fileId : UInt16) : Selecting sel (liftFs (fsSelectByFid sel fileId))
  | child (fileId : UInt16) (wantDf : Bool) : Selecting sel (liftFs (selectChildTyped sel fileId wantDf))
  | parent : Selecting sel (liftFs (fsSelectParent sel))
  | byPath (path : List UInt8) (fromMf : Bool) : Selecting sel (liftFs (fsSelectByPath sel path fromMf))

theorem selectTarget_selecting (cmd : ApduCommand) (sel : FsSelection) : Selecting sel (selectTarget cmd sel) := by
  unfold selectTarget
  split
  · split
    · exact .byFid _
    split
    · split
      · exact .refused (by decide)
      · exact .byFid _
    · exact .refused (by decide)
  split
  · split
    · exact .refused (by decide)
    split
    · exact .refused (by decide)
    split
    · exact .child _ true
    · exact .child _ false
  split
  · split
    · exact .refused (by decide)
    · exact .parent
  split
  · split
    · exact .refused (by decide)
    split
    · exact .refused (by decide)
    split
    · exact .refused (by decide)
    · exact .byPath _ _
  split
  · exact .refused (by decide)
  · exact .refused (by decide)

theorem selectTarget_ends (cmd : ApduCommand) (sel : FsSelection) :
    Ends (selectTarget cmd sel) Refusal fun _ => True := by
  have selecting := selectTarget_selecting cmd sel
  generalize selectTarget cmd sel = target at selecting
  cases selecting with
  | refused refusal => exact ends_fail refusal
  | byFid | child | parent | byPath => exact liftFs_ends

theorem emitFci_ends (cmd : ApduCommand) (index : UInt16) (retOpt : UInt8) :
    Ends (emitFci cmd index retOpt) Refusal fun _ => True := by
  unfold emitFci
  split
  · exact anything_pure
  split
  · exact ends_fail (by decide)
  apply ends_bind liftFs_ends
  intro d _
  dsimp only
  split
  · exact ends_fail (by decide)
  split
  · exact anything_pure
  split
  · exact ends_fail (swWrongLe_refusal _)
  apply ends_bind (put_ends _)
  intro _ _
  apply ends_bind (put_ends _)
  intro _ _
  exact put_ends _

theorem resolveTarget_ends (p1 p2 : UInt8) : Ends (resolveTarget p1 p2) Refusal fun _ => True := by
  apply ends_bind (ends_state fun _ => trivial)
  intro c _
  split
  · split
    · exact ends_fail (by decide)
    split
    · exact ends_fail (by decide)
    apply ends_bind liftFs_ends
    intro _ _
    exact anything_pure
  · split
    · exact ends_fail (by decide)
    · exact anything_pure

theorem scosCmdSelect_ends (cmd : ApduCommand) :
    Ends (scosCmdSelect cmd) Refusal fun sw => sw = swOk := by
  unfold scosCmdSelect
  split
  · exact ends_fail (by decide)
  split
  · exact ends_fail (by decide)
  apply ends_bind (ends_state fun _ => trivial)
  intro c _
  apply ends_bind (selectTarget_ends cmd _)
  intro sel _
  apply ends_bind (emitFci_ends cmd _ _)
  intro _ _
  apply ends_bind (Q := fun _ => True) (ends_update trivial)
  intro _ _
  exact ends_pure rfl

theorem scosCmdReadBinary_ends (cmd : ApduCommand) :
    Ends (scosCmdReadBinary cmd) Refusal fun sw => sw = swOk ∨ sw = swNvmUnchangedEof := by
  unfold scosCmdReadBinary
  split
  · exact ends_fail (by decide)
  split
  · exact ends_fail (by decide)
  apply ends_bind (resolveTarget_ends _ _)
  intro target _
  dsimp only
  split
  · exact ends_fail (by decide)
  apply ends_bind liftFs_ends
  intro got _
  apply ends_bind (put_ends got)
  intro _ _
  apply ends_pure
  split
  · exact .inr rfl
  · exact .inl rfl

theorem scosCmdUpdateBinary_ends (cmd : ApduCommand) :
    Ends (scosCmdUpdateBinary cmd) Refusal fun sw => sw = swOk := by
  unfold scosCmdUpdateBinary
  split
  · exact ends_fail (by decide)
  split
  · exact ends_fail (by decide)
  split
  · exact ends_fail (by decide)
  apply ends_bind (resolveTarget_ends _ _)
  intro target _
  apply ends_bind liftFs_ends
  intro _ _
  exact ends_pure rfl

private theorem decodeFdb_refusal {fdb : UInt8} {sw : Sw} (failed : decodeFdb fdb = .error sw) :
    Refusal sw := by
  unfold decodeFdb at failed
  repeat' split at failed
  all_goals cases failed
  all_goals decide

private theorem fcpObject_refusal {st : FcpState} {obj : Tlv.TlvObject} {sw : Sw}
    (failed : fcpObject st obj = .error sw) : Refusal sw := by
  unfold fcpObject at failed
  dsimp only at failed
  repeat' split at failed
  all_goals cases failed
  all_goals first
    | decide
    | exact decodeFdb_refusal ‹_›

private theorem fcpLoop_refusal {r : Tlv.TlvReader} {st : FcpState} {sw : Sw}
    (failed : fcpLoop r st = .error sw) : Refusal sw := by
  fun_induction fcpLoop r st with
  | case1 => cases failed
  | case2 =>
    cases failed
    decide
  | case3 r st obj next _ sw' refused =>
    cases failed
    exact fcpObject_refusal refused
  | case4 r st obj next _ st' accepted ih => exact ih failed

private theorem parseFcp_refusal {body : List UInt8} {len : UInt16} {sw : Sw}
    (failed : parseFcp body len = .error sw) : Refusal sw := by
  unfold parseFcp at failed
  cases inner : fcpInner body len with
  | error sw' =>
    rw [inner] at failed
    cases failed
    unfold fcpInner at inner
    repeat' split at inner
    all_goals cases inner
    decide
  | ok content =>
    obtain ⟨value, length⟩ := content
    simp only [inner, bind, Except.bind] at failed
    split at failed
    · cases failed
      decide
    cases parsed : fcpLoop (Tlv.tlvReaderInit value length) fcpStart with
    | error sw' =>
      simp only [parsed] at failed
      cases failed
      exact fcpLoop_refusal parsed
    | ok st =>
      simp only [parsed] at failed
      repeat' split at failed
      all_goals cases failed
      all_goals decide

theorem scosCmdCreateFile_ends (cmd : ApduCommand) :
    Ends (scosCmdCreateFile cmd) Refusal fun sw => sw = swOk := by
  apply ends_bind (Q := fun _ => True) (ends_state fun _ => trivial)
  intro c _
  split
  · exact ends_fail (by decide)
  split
  · exact ends_fail (by decide)
  split
  · exact ends_fail (by decide)
  split
  · exact ends_fail (by decide)
  split
  · rename_i refused
    exact ends_fail (parseFcp_refusal refused)
  apply ends_bind liftFs_ends
  intro _ _
  exact ends_pure rfl

theorem scosCmdDeleteFile_ends (cmd : ApduCommand) :
    Ends (scosCmdDeleteFile cmd) Refusal fun sw => sw = swOk := by
  apply ends_bind (Q := fun _ => True) (ends_state fun _ => trivial)
  intro c _
  split
  · exact ends_fail (by decide)
  split
  · exact ends_fail (by decide)
  split
  · exact ends_fail (by decide)
  split
  · exact ends_fail (by decide)
  apply ends_bind liftFs_ends
  intro sel _
  apply ends_bind (Q := fun _ => True) (ends_update trivial)
  intro _ _
  exact ends_pure rfl

end Words

/-- The dispatch table, read as a choice between its five handlers. -/
theorem scosDispatch_cases (cmd : ApduCommand) :
    (cmd.ins = insSelect ∧ scosDispatch cmd = scosCmdSelect cmd) ∨
      (cmd.ins = insReadBinary ∧ scosDispatch cmd = scosCmdReadBinary cmd) ∨
      (cmd.ins = insUpdateBinary ∧ scosDispatch cmd = scosCmdUpdateBinary cmd) ∨
      (cmd.ins = insCreateFile ∧ scosDispatch cmd = scosCmdCreateFile cmd) ∨
      (cmd.ins = insDeleteFile ∧ scosDispatch cmd = scosCmdDeleteFile cmd) ∨
      (cmd.ins ∉ [insSelect, insReadBinary, insUpdateBinary, insCreateFile, insDeleteFile] ∧
        scosDispatch cmd = pure swInsNotSupported) := by
  unfold scosDispatch commands
  by_cases select : cmd.ins = insSelect
  · exact .inl ⟨select, by rw [select]; rfl⟩
  by_cases read : cmd.ins = insReadBinary
  · exact .inr (.inl ⟨read, by rw [read]; rfl⟩)
  by_cases update : cmd.ins = insUpdateBinary
  · exact .inr (.inr (.inl ⟨update, by rw [update]; rfl⟩))
  by_cases create : cmd.ins = insCreateFile
  · exact .inr (.inr (.inr (.inl ⟨create, by rw [create]; rfl⟩)))
  by_cases delete : cmd.ins = insDeleteFile
  · exact .inr (.inr (.inr (.inr (.inl ⟨delete, by rw [delete]; rfl⟩))))
  refine .inr (.inr (.inr (.inr (.inr ⟨by simp [select, read, update, create, delete], ?_⟩))))
  simp [List.find?, Ne.symm select, Ne.symm read, Ne.symm update, Ne.symm create, Ne.symm delete]

theorem scosDispatch_ends (cmd : ApduCommand) :
    Ends (scosDispatch cmd) Refusal Word := by
  have widen : ∀ {x : CmdM Sw}, Ends x Refusal (fun sw => sw = swOk) → Ends x Refusal Word :=
    fun ends c => ⟨(ends c).1, fun sw c' ran => .inr (.inl ((ends c).2 sw c' ran))⟩
  rcases scosDispatch_cases cmd with
    ⟨_, same⟩ | ⟨_, same⟩ | ⟨_, same⟩ | ⟨_, same⟩ | ⟨_, same⟩ | ⟨_, same⟩ <;> rw [same]
  · exact widen (scosCmdSelect_ends cmd)
  · intro c
    exact ⟨(scosCmdReadBinary_ends cmd c).1, fun sw c' ran =>
      .inr ((scosCmdReadBinary_ends cmd c).2 sw c' ran)⟩
  · exact widen (scosCmdUpdateBinary_ends cmd)
  · exact widen (scosCmdCreateFile_ends cmd)
  · exact widen (scosCmdDeleteFile_ends cmd)
  · exact ends_pure (.inl (by decide))

/-- A response under construction whose status word still fits. -/
def Built (cap : UInt16) (rsp : ApduResponse) : Prop :=
  rsp.cap = cap ∧ rsp.bytes.length + 2 ≤ cap.toNat

/-- The response and the status word a handler leaves behind. -/
structure Answered (cmd : ApduCommand) (cap : UInt16) (sw : Sw) (rsp : ApduResponse) : Prop where
  built : Built cap rsp
  full : rsp.overflow = true → sw = swNoPreciseDiagnosis
  data : rsp.overflow = false → rsp.bytes ≠ [] →
    (sw = swOk ∨ sw = swNvmUnchangedEof) ∧ cmd.lePresent = true ∧ rsp.bytes.length ≤ cmd.le.toNat

section Responses
variable {c c' : Session} {cmd : ApduCommand} {cap : UInt16} {sw : Sw} {result : Except Sw Sw}

theorem answered_empty (room : 2 ≤ cap) : Answered cmd cap sw (apduRspInit cap) where
  built := ⟨rfl, UInt16.le_iff_toNat_le.mp room⟩
  full := by
    intro impossible
    cases impossible
  data _ some := absurd rfl some

/-- Appending to a response: the bytes are taken whole, or none of them and the
response is marked as overflowed. -/
theorem put_cases (src : List UInt8) (built : Built cap c.rsp) :
    (∃ c₂, put src c = (.ok (), c₂) ∧ Built cap c₂.rsp ∧ c₂.rsp.bytes = c.rsp.bytes ++ src ∧
        c₂.rsp.overflow = c.rsp.overflow) ∨
      put src c = (.error swNoPreciseDiagnosis, { c with rsp := { c.rsp with overflow := true } }) := by
  obtain ⟨rfl, room⟩ := built
  rw [put, apduRspPut_eq room]
  by_cases fits : c.rsp.bytes.length + src.length + 2 ≤ c.rsp.cap.toNat
  · rw [if_pos fits]
    exact .inl ⟨_, rfl, ⟨rfl, by simpa using fits⟩, rfl, rfl⟩
  · rw [if_neg fits]
    exact .inr rfl

/-- A filesystem call keeps everything but the store. -/
theorem liftFs_keeps {γ : Type} {x : FsM α} {get : Session → γ} (blind : ∀ store c, get { c with store } = get c) :
    Keeps (liftFs x) get := keeps_within blind

/-- An overflowed response is withdrawn in favour of `6F00`. -/
private theorem answered_overflow {rsp : ApduResponse} (built : Built cap rsp) :
    Answered cmd cap swNoPreciseDiagnosis { rsp with overflow := true } where
  built := built
  full _ := rfl
  data impossible := by cases impossible

theorem fsBuildFcp_length (d : FsDescriptor) (n : Nat) : (fsBuildFcp d n).length ≤ n := by
  unfold fsBuildFcp
  split
  · exact Nat.zero_le n
  · rename_i fits
    exact Nat.not_lt.mp fits

/-- What `emit_fci` stops or ends with, next to the response it has built. -/
private theorem emitFci_answered {index : UInt16} {retOpt : UInt8} {r : Except Sw Unit} (room : 2 ≤ cap)
    (start : c.rsp = apduRspInit cap) (ran : emitFci cmd index retOpt c = (r, c')) :
    (∀ sw, r = .error sw → Answered cmd cap sw c'.rsp) ∧ (r = .ok () → Answered cmd cap swOk c'.rsp) := by
  have quiet : ∀ {r' : Except Sw Unit} {c₁ : Session}, (r', c₁) = (r, c') → c₁.rsp = apduRspInit cap →
      (∀ sw, r = .error sw → Answered cmd cap sw c'.rsp) ∧
        (r = .ok () → Answered cmd cap swOk c'.rsp) := by
    rintro r' c₁ ⟨⟩ empty
    rw [empty]
    exact ⟨fun _ _ => answered_empty room, fun _ => answered_empty room⟩
  unfold emitFci at ran
  split at ran
  · exact quiet ran start
  split at ran
  · exact quiet ran start
  have kept : (liftFs (fsGet index) c).2.rsp = c.rsp := liftFs_keeps (fun _ _ => rfl) c
  rcases got : liftFs (fsGet index) c with ⟨_ | d, c₁⟩
  · rw [got] at kept
    rw [bind_error got] at ran
    exact quiet ran (kept.trans start)
  rw [got] at kept
  rw [bind_ok got] at ran
  have empty : c₁.rsp = apduRspInit cap := kept.trans start
  split at ran
  · exact quiet ran empty
  split at ran
  · exact quiet ran empty
  rename_i wanted
  split at ran
  · exact quiet ran empty
  rename_i enough
  have small := fsBuildFcp_length d 32
  have asked : (fsBuildFcp d 32).length + 2 ≤ cmd.le.toNat := by
    have total := UInt16.le_iff_toNat_le.mp (UInt16.not_lt.mp enough)
    rw [UInt16.toNat_ofNat_of_lt' (Nat.lt_of_le_of_lt (Nat.add_le_add_right small 2) (by decide))] at total
    exact total
  have refused : ∀ {c₂ : Session}, Built cap c₂.rsp →
      (.error swNoPreciseDiagnosis, { c₂ with rsp := { c₂.rsp with overflow := true } }) = (r, c') →
      (∀ sw, r = .error sw → Answered cmd cap sw c'.rsp) ∧
        (r = .ok () → Answered cmd cap swOk c'.rsp) := by
    rintro c₂ built ⟨⟩
    refine ⟨?_, by rintro ⟨⟩⟩
    rintro sw ⟨⟩
    exact answered_overflow built
  have built : Built cap c₁.rsp := by
    rw [empty]
    exact ⟨rfl, UInt16.le_iff_toNat_le.mp room⟩
  rcases put_cases [if retOpt = selRetFcp then 0x62 else 0x6F] built with
    ⟨c₂, first, built₂, bytes₂, clean₂⟩ | failed
  · rw [bind_ok first] at ran
    rcases put_cases [UInt8.ofNat (fsBuildFcp d 32).length] built₂ with
      ⟨c₃, second, built₃, bytes₃, clean₃⟩ | failed
    · rw [bind_ok second] at ran
      rcases put_cases (fsBuildFcp d 32) built₃ with ⟨c₄, third, built₄, bytes₄, clean₄⟩ | failed
      · rw [third] at ran
        cases ran
        refine ⟨by rintro sw ⟨⟩, fun _ => ⟨built₄, ?_, ?_⟩⟩
        · intro overflowed
          rw [clean₄, clean₃, clean₂, empty] at overflowed
          cases overflowed
        · intro _ _
          refine ⟨.inl rfl, by simpa using wanted, ?_⟩
          rw [bytes₄, bytes₃, bytes₂, empty]
          simp [apduRspInit]
          omega
      · rw [failed] at ran
        exact refused built₃ ran
    · rw [bind_error failed] at ran
      exact refused built₂ ran
  · rw [bind_error failed] at ran
    exact refused built ran

private theorem answered_quiet (room : 2 ≤ cap) (start : c.rsp = apduRspInit cap) (kept : c'.rsp = c.rsp) :
    Answered cmd cap sw c'.rsp := by
  rw [kept, start]
  exact answered_empty room

theorem selectTarget_keeps {γ : Type} {get : Session → γ} (blind : ∀ store c, get { c with store } = get c)
    (cmd : ApduCommand) (sel : FsSelection) : Keeps (selectTarget cmd sel) get := by
  have selecting := selectTarget_selecting cmd sel
  generalize selectTarget cmd sel = target at selecting
  cases selecting with
  | refused => exact keeps_fail
  | byFid | child | parent | byPath => exact liftFs_keeps blind

theorem resolveTarget_keeps {γ : Type} {get : Session → γ} (blind : ∀ store c, get { c with store } = get c)
    (p1 p2 : UInt8) : Keeps (resolveTarget p1 p2) get := by
  apply keeps_state_bind
  intro c
  repeat' split
  all_goals first
    | exact keeps_fail
    | exact keeps_pure
    | exact keeps_bind (liftFs_keeps blind) fun _ => keeps_pure

theorem scosCmdSelect_answered (room : 2 ≤ cap) (start : c.rsp = apduRspInit cap)
    (ran : scosCmdSelect cmd c = (result, c')) : Answered cmd cap (endedWith result) c'.rsp := by
  unfold scosCmdSelect at ran
  split at ran
  · cases ran; exact answered_quiet room start rfl
  split at ran
  · cases ran; exact answered_quiet room start rfl
  rw [state_bind] at ran
  have kept : (selectTarget cmd c.kernel.sel c).2.rsp = c.rsp := selectTarget_keeps (fun _ _ => rfl) cmd _ c
  rcases target : selectTarget cmd c.kernel.sel c with ⟨_ | sel, c₁⟩
  · rw [target] at kept
    rw [bind_error target] at ran
    cases ran
    exact answered_quiet room start kept
  rw [target] at kept
  rw [bind_ok target] at ran
  rcases emitted : emitFci cmd (fsSelectedIndex sel) (cmd.p2 &&& 0x0C) c₁ with ⟨r, c₂⟩
  obtain ⟨stopped, ended⟩ := emitFci_answered room (kept.trans start) emitted
  cases r with
  | error sw =>
    rw [bind_error emitted] at ran
    cases ran
    exact stopped sw rfl
  | ok u =>
    rw [bind_ok emitted, update_bind] at ran
    cases ran
    exact ended rfl

private theorem readData_ends (offset : UInt32) (len : UInt16) :
    Ends (fsStoreReadData offset len) (fun _ => True) fun bytes => bytes.length ≤ len.toNat := by
  apply ends_bind (Q := fun _ => True) (ends_state fun _ => trivial)
  intro s _
  split
  · exact ends_pure (Nat.zero_le _)
  split
  · exact ends_fail trivial
  apply ends_within (E := fun _ => True) _ fun _ _ => trivial
  intro hal
  refine ⟨fun _ _ _ => trivial, ?_⟩
  intro bytes hal' read
  unfold HalNvm.halNvmRead at read
  split at read
  · cases read
    exact Nat.zero_le _
  split at read
  · cases read
  split at read
  · cases read
  · cases read
    rw [Region.read_length]

/-- Whatever the store holds, reading an EF returns at most what was asked for. -/
theorem fsEfRead_ends (index offset len : UInt16) :
    Ends (fsEfRead index offset len) (fun _ => True) fun bytes => bytes.length ≤ len.toNat := by
  apply ends_bind ends_any
  intro d _
  split
  · exact ends_fail trivial
  split
  · exact ends_fail trivial
  dsimp only
  generalize amount : (if len < d.size - offset then len else d.size - offset) = toRead
  have few : toRead.toNat ≤ len.toNat := by
    rw [← amount]
    split
    · exact Nat.le_refl _
    · rename_i more
      exact UInt16.le_iff_toNat_le.mp (UInt16.not_lt.mp more)
  split
  · exact ends_pure (Nat.zero_le _)
  · intro s
    refine ⟨fun _ _ _ => trivial, fun bytes s' read => ?_⟩
    exact Nat.le_trans ((readData_ends _ toRead s).2 bytes s' read) few

theorem scosCmdReadBinary_answered (room : 2 ≤ cap) (start : c.rsp = apduRspInit cap)
    (ran : scosCmdReadBinary cmd c = (result, c')) : Answered cmd cap (endedWith result) c'.rsp := by
  unfold scosCmdReadBinary at ran
  split at ran
  · cases ran; exact answered_quiet room start rfl
  split at ran
  · cases ran; exact answered_quiet room start rfl
  rename_i wanted
  have kept : (resolveTarget cmd.p1 cmd.p2 c).2.rsp = c.rsp :=
    resolveTarget_keeps (fun _ _ => rfl) cmd.p1 cmd.p2 c
  rcases target : resolveTarget cmd.p1 cmd.p2 c with ⟨_ | ⟨index, offset⟩, c₁⟩
  · rw [target] at kept
    rw [bind_error target] at ran
    cases ran
    exact answered_quiet room start kept
  rw [target] at kept
  rw [bind_ok target] at ran
  dsimp only at ran
  split at ran
  · cases ran; exact answered_quiet room start kept
  have kept' : (liftFs (fsEfRead index offset cmd.le) c₁).2.rsp = c₁.rsp := liftFs_keeps (fun _ _ => rfl) c₁
  have few := liftFs_returns (fsEfRead_ends index offset cmd.le)
  rcases read : liftFs (fsEfRead index offset cmd.le) c₁ with ⟨_ | got, c₂⟩
  · rw [read] at kept'
    rw [bind_error read] at ran
    cases ran
    exact answered_quiet room start (kept'.trans kept)
  rw [read] at kept'
  rw [bind_ok read] at ran
  have asked : got.length ≤ cmd.le.toNat := (few c₁).2 got c₂ read
  have empty : c₂.rsp = apduRspInit cap := (kept'.trans kept).trans start
  have built : Built cap c₂.rsp := by
    rw [empty]
    exact ⟨rfl, UInt16.le_iff_toNat_le.mp room⟩
  rcases put_cases got built with ⟨c₃, done, built₃, bytes₃, clean₃⟩ | failed
  · rw [bind_ok done] at ran
    cases ran
    refine ⟨built₃, ?_, ?_⟩
    · intro overflowed
      rw [clean₃, empty] at overflowed
      cases overflowed
    · intro _ _
      refine ⟨?_, by simpa using wanted, ?_⟩
      · unfold endedWith
        dsimp only
        split
        · exact .inr rfl
        · exact .inl rfl
      · rw [bytes₃, empty]
        simpa [apduRspInit] using asked
  · rw [bind_error failed] at ran
    cases ran
    exact answered_overflow built

/-- The three commands that return no data keep all but the store and the
selection. -/
theorem quietHandlers_keep {γ : Type} (get : Session → γ) (blind : ∀ store c, get { c with store } = get c)
    (free : ∀ sel c, get { c with kernel := { c.kernel with sel } } = get c) (cmd : ApduCommand) :
    Keeps (scosCmdUpdateBinary cmd) get ∧ Keeps (scosCmdCreateFile cmd) get ∧
      Keeps (scosCmdDeleteFile cmd) get := by
  refine ⟨?_, ?_, ?_⟩
  · unfold scosCmdUpdateBinary
    repeat' split
    all_goals first
      | exact keeps_fail
      | exact keeps_bind (resolveTarget_keeps blind _ _) fun _ =>
          keeps_bind (liftFs_keeps blind) fun _ => keeps_pure
  · apply keeps_state_bind
    intro c
    repeat' split
    all_goals first
      | exact keeps_fail
      | exact keeps_bind (liftFs_keeps blind) fun _ => keeps_pure
  · apply keeps_state_bind
    intro c
    repeat' split
    all_goals first
      | exact keeps_fail
      | exact keeps_bind (liftFs_keeps blind) fun _ => keeps_bind (keeps_update (free _)) fun _ => keeps_pure

theorem scosDispatch_answered (room : 2 ≤ cap) (start : c.rsp = apduRspInit cap)
    (ran : scosDispatch cmd c = (result, c')) : Answered cmd cap (endedWith result) c'.rsp := by
  obtain ⟨update, create, delete⟩ :=
    quietHandlers_keep Session.rsp (fun _ _ => rfl) (fun _ _ => rfl) cmd
  have silent : ∀ {x : CmdM Sw}, Keeps x Session.rsp → x c = (result, c') →
      Answered cmd cap (endedWith result) c'.rsp := by
    intro x keeps ran
    have kept := keeps c
    rw [ran] at kept
    exact answered_quiet room start kept
  rcases scosDispatch_cases cmd with
    ⟨_, same⟩ | ⟨_, same⟩ | ⟨_, same⟩ | ⟨_, same⟩ | ⟨_, same⟩ | ⟨_, same⟩ <;> rw [same] at ran
  · exact scosCmdSelect_answered room start ran
  · exact scosCmdReadBinary_answered room start ran
  · exact silent update ran
  · exact silent create ran
  · exact silent delete ran
  · exact silent keeps_pure ran

/-- The data bytes of a finished response. -/
def payload (rsp : ApduResponse) : List UInt8 := if rsp.overflow then [] else rsp.bytes

theorem apduRspFinish_eq {rsp : ApduResponse} (room : 2 ≤ cap) (answered : Answered cmd cap sw rsp) :
    apduRspFinish rsp sw = payload rsp ++ [sw1 sw, sw2 sw] := by
  obtain ⟨⟨capacity, _⟩, full, _⟩ := answered
  unfold apduRspFinish payload
  rw [capacity, if_neg (UInt16.not_lt.mpr room)]
  split
  · rename_i overflowed
    rw [full overflowed]
    rfl
  · rfl

/-- An answer without data is its status word. -/
theorem apduRspFinish_empty (room : 2 ≤ cap) (sw : Sw) :
    apduRspFinish (apduRspInit cap) sw = [sw1 sw, sw2 sw] :=
  @apduRspFinish_eq .zeroed cap sw _ room (answered_empty room)

theorem payload_length {rsp : ApduResponse} (answered : Answered cmd cap sw rsp) :
    (payload rsp).length + 2 ≤ cap.toNat := by
  have room := answered.built.2
  unfold payload
  split
  · simp only [List.length_nil]
    omega
  · exact room

end Responses

section Process
variable {cmd : Option (List UInt8)} {cap : UInt16} {card : Card}

/-- A well-formed command of the supported class is what its handler makes of it. -/
theorem scosProcess_dispatch {c : ApduCommand} (room : 2 ≤ cap) (operational : card.kernel.lifecycle = .operational)
    (parsed : apduParse cmd = (.ok, c)) (cla : apduCheckCla c.cla = .ok) {r : Except Sw Sw} {t : Session}
    (ran : scosDispatch c ⟨card.kernel, card.store, apduRspInit cap⟩ = (r, t)) :
    scosProcess cmd cap card = (.ok, apduRspFinish t.rsp (endedWith r), ⟨t.kernel, t.store⟩) := by
  rw [scosProcess, if_neg (UInt16.not_lt.mpr room), operational]
  dsimp only
  rw [execute, parsed]
  dsimp only
  rw [if_neg (not_not.mpr cla), ran]

/-- One command either never reaches a handler, and is refused with nothing
changed, or is what its handler made of it. -/
theorem scosProcess_cases (room : 2 ≤ cap) (cmd : Option (List UInt8)) (card : Card) :
    (∃ sw, Refusal sw ∧ scosProcess cmd cap card = (.ok, [sw1 sw, sw2 sw], card)) ∨
      ∃ c result t, card.kernel.lifecycle = .operational ∧ apduParse cmd = (.ok, c) ∧
        scosDispatch c ⟨card.kernel, card.store, apduRspInit cap⟩ = (result, t) ∧
        scosProcess cmd cap card =
          (.ok, payload t.rsp ++ [sw1 (endedWith result), sw2 (endedWith result)], ⟨t.kernel, t.store⟩) := by
  have finish := apduRspFinish_empty room
  unfold scosProcess
  rw [if_neg (UInt16.not_lt.mpr room)]
  cases life : card.kernel.lifecycle with
  | terminated => exact .inl ⟨swConditionsNotSatisfied, by decide, by rw [← finish]⟩
  | fsError => exact .inl ⟨swMemoryFailure, by decide, by rw [← finish]⟩
  | noPower => exact .inl ⟨swConditionsNotSatisfied, by decide, by rw [← finish]⟩
  | initialising => exact .inl ⟨swConditionsNotSatisfied, by decide, by rw [← finish]⟩
  | operational =>
    rcases parsed : apduParse cmd with ⟨status, c⟩
    unfold execute
    rw [parsed]
    cases status with
    | tooShort => exact .inl ⟨swWrongLength, by decide, by rw [← finish]; rfl⟩
    | badLength => exact .inl ⟨swWrongLength, by decide, by rw [← finish]; rfl⟩
    | extended => exact .inl ⟨swFuncNotSupported, by decide, by rw [← finish]; rfl⟩
    | ok =>
      dsimp only
      split
      · rename_i refused
        refine .inl ⟨apduClaStatusSw (apduCheckCla c.cla), ?_, by rw [finish]⟩
        cases status : apduCheckCla c.cla with
        | ok => exact absurd status refused
        | invalid => decide
        | channelUnsupported => decide
        | smUnsupported => decide
        | chainingUnsupported => decide
      · right
        rcases ran : scosDispatch c ⟨card.kernel, card.store, apduRspInit cap⟩ with ⟨result, t⟩
        refine ⟨c, result, t, rfl, rfl, ran, ?_⟩
        dsimp only
        rw [apduRspFinish_eq room (scosDispatch_answered room rfl ran)]

/-- The Le byte of a command: the fifth of five bytes, or the byte after a data
field that Lc measures. -/
def leByte (cmd : Option (List UInt8)) : Option UInt8 :=
  match cmd with
  | none => none
  | some bytes =>
    let lc := bytes.getD 4 0
    if bytes.length = 5 then some lc
    else if lc ≠ 0 ∧ bytes.length = 5 + lc.toNat + 1 then some (bytes.getD (5 + lc.toNat) 0)
    else none

/-- How many data bytes a command allows in its response. -/
def leBound (cmd : Option (List UInt8)) : Nat :=
  match leByte cmd with
  | none => 0
  | some b => if b = 0 then 256 else b.toNat

private theorem leBound_byte {le : Expected} (last : leByte cmd = some le.byte) :
    leBound cmd = (UInt16.ofNat le.amount).toNat := by
  have amount : (if le.byte = 0 then 256 else le.byte.toNat) = le.amount := congrArg Expected.amount le.ofByte_byte
  rw [leBound, last, UInt16.toNat_ofNat_of_lt' (Nat.lt_of_le_of_lt le.short (by decide))]
  exact amount

/-- The parser's Le is the one the command bytes carry. -/
theorem apduParse_le {c : ApduCommand} (parsed : apduParse cmd = (.ok, c)) (wanted : c.lePresent = true) :
    c.le.toNat = leBound cmd := by
  cases cmd with
  | none => cases parsed
  | some bytes =>
    obtain ⟨a, rfl, rfl⟩ := apduParse_inv parsed
    obtain ⟨cla, ins, p1, p2, body⟩ := a
    cases body with
    | case1 => cases wanted
    | case3 data => cases wanted
    | case2 le => exact (leBound_byte rfl).symm
    | case4 data le =>
      refine (leBound_byte ?_).symm
      obtain ⟨value, other⟩ := data.length_byte
      have lc : (Command.encode ⟨cla, ins, p1, p2, .case4 data le⟩).getD 4 0 = UInt8.ofNat data.bytes.length := rfl
      have whole : (Command.encode ⟨cla, ins, p1, p2, .case4 data le⟩).length = 5 + data.bytes.length + 1 := by
        simp [Command.encode, Body.encode, DataField.encode]
        omega
      have last : (Command.encode ⟨cla, ins, p1, p2, .case4 data le⟩).getD (5 + data.bytes.length) 0 = le.byte := by
        simp [Command.encode, Body.encode, DataField.encode, Nat.add_comm 5]
      rw [leByte, lc, value, if_neg (by omega), if_pos ⟨other, whole⟩, last]

/-- The first byte of every status word of the card lies in `60..6F` or `90..9F`. -/
theorem sw1_range {sw : Sw} (word : Word sw) :
    (0x60 ≤ sw1 sw ∧ sw1 sw ≤ 0x6F) ∨ (0x90 ≤ sw1 sw ∧ sw1 sw ≤ 0x9F) := by
  rcases word with ⟨low, high⟩ | rfl | rfl
  · left
    have lowNat := UInt16.le_iff_toNat_le.mp low
    have highNat := UInt16.lt_iff_toNat_lt.mp high
    simp only [UInt16.reduceToNat] at lowNat highNat
    have value : (sw1 sw).toNat = sw.toNat / 256 := by
      have bound := sw.toNat_lt
      simp only [sw1, UInt16.toNat_toUInt8, UInt16.toNat_shiftRight, UInt16.reduceToNat, Nat.reduceMod,
        Nat.shiftRight_eq_div_pow]
      omega
    constructor
    · apply UInt8.le_iff_toNat_le.mpr
      rw [value]
      simp only [UInt8.reduceToNat]
      omega
    · apply UInt8.le_iff_toNat_le.mpr
      rw [value]
      simp only [UInt8.reduceToNat]
      omega
  · right; decide
  · left; decide

/-- The card always answers. From any kernel state, memory contents, mount state
and plan of device failures, every command gets a response of at least a status
word and at most the buffer; data comes only with `9000` or `6282` and never
exceeds what the command's Le allows. -/
theorem scosProcess_always_answers (cmd : Option (List UInt8)) (cap : UInt16) (card : Card)
    (room : 2 ≤ cap) :
    ∃ data sw card', scosProcess cmd cap card = (.ok, data ++ [sw1 sw, sw2 sw], card') ∧
      2 ≤ (data ++ [sw1 sw, sw2 sw]).length ∧ (data ++ [sw1 sw, sw2 sw]).length ≤ cap.toNat ∧
      ((0x60 ≤ sw1 sw ∧ sw1 sw ≤ 0x6F) ∨ (0x90 ≤ sw1 sw ∧ sw1 sw ≤ 0x9F)) ∧
      (data ≠ [] → sw = 0x9000 ∨ sw = 0x6282) ∧ data.length ≤ leBound cmd := by
  rcases scosProcess_cases room cmd card with
    ⟨sw, refusal, answer⟩ | ⟨c, result, t, _, parsed, ran, answer⟩
  · refine ⟨[], sw, card, answer, by simp, ?_, sw1_range (.inl refusal), by simp, Nat.zero_le _⟩
    simpa using UInt16.le_iff_toNat_le.mp room
  · have answered := scosDispatch_answered room rfl ran
    have word : Word (endedWith result) := by
      cases result with
      | error sw => exact .inl ((scosDispatch_ends c _).1 sw t ran)
      | ok sw => exact (scosDispatch_ends c _).2 sw t ran
    have within := payload_length answered
    have data : payload t.rsp ≠ [] → (endedWith result = swOk ∨ endedWith result = swNvmUnchangedEof) ∧
        c.lePresent = true ∧ (payload t.rsp).length ≤ c.le.toNat := by
      unfold payload
      split
      · intro some
        exact absurd rfl some
      · rename_i clean
        exact answered.data (Bool.eq_false_iff.mpr clean)
    refine ⟨_, _, _, answer, by simp, by simpa using within, sw1_range word, fun some => (data some).1, ?_⟩
    by_cases empty : payload t.rsp = []
    · rw [empty]
      exact Nat.zero_le _
    · obtain ⟨_, wanted, few⟩ := data empty
      rw [← apduParse_le parsed wanted]
      exact few

/-- SELECT for EF 2F00 of a factory card, with all the data it has, is answered by the
template of the file. -/
theorem scosProcess_always_answers_select :
    let booted := scosInit (blankCard 656 112)
    let select : Option (List UInt8) := some [0x00, 0xA4, 0x00, 0x00, 0x02, 0x2F, 0x00, 0x00]
    booted.1 = .ok ∧ ∃ data sw card', scosProcess select 258 booted.2 = (.ok, data ++ [sw1 sw, sw2 sw], card') ∧
      data.take 5 = [0x6F, 0x11, 0x82, 0x01, 0x01] ∧ (sw = 0x9000 ∨ sw = 0x6282) ∧ data.length ≤ leBound select := by
  obtain ⟨data, sw, card', answer, -, -, -, served, short⟩ := scosProcess_always_answers
    (some [0x00, 0xA4, 0x00, 0x00, 0x02, 0x2F, 0x00, 0x00]) 258 (scosInit (blankCard 656 112)).2 (by decide)
  have bytes : (scosProcess (some [0x00, 0xA4, 0x00, 0x00, 0x02, 0x2F, 0x00, 0x00]) 258
    (scosInit (blankCard 656 112)).2).2.1 =
      [0x6F, 0x11, 0x82, 0x01, 0x01, 0x83, 0x02, 0x2F, 0x00, 0x80, 0x02, 0x00, 0x20, 0x8A, 0x01, 0x05, 0x88, 0x01,
        0x08] ++ [0x90, 0x00] := by decide +kernel
  have ok : (scosInit (blankCard 656 112)).1 = .ok := by decide +kernel
  rw [answer] at bytes
  obtain ⟨rfl, -⟩ := List.append_inj' bytes rfl
  exact ⟨ok, _, sw, card', answer, rfl, served (by simp), short⟩

end Process

end CardOs.AnswerProofs
