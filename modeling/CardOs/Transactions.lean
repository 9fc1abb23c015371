import CardOs.StoreChanges
import CardOs.CommandProofs

/-! Every command is a transaction on the device. Whatever is stored, a command
looks first and then asks for one change (`processChange`), which is fixed by the
card and the APDU; how far the device gets with it decides the rest. -/
namespace CardOs.Transactions
open CardOs.Library CardOs.Library.Action CardOs.Apdu CardOs.FsTypes CardOs.HalNvm CardOs.FsStore CardOs.Fs
open CardOs.FileCommands CardOs.Kernel CardOs.AnswerProofs CardOs.CommandProofs CardOs.StorageProofs
open CardOs.StoreChanges

/-- The session whose device will fail writes as planned. -/
def sessionPlan (plan : List WriteFault) (c : Session) : Session := { c with store := withPlan plan c.store }

/-- A handler that has only looked: the response may have grown. -/
def Inspected (c c' : Session) : Prop := Peeked c.store c'.store ∧ c'.kernel = c.kernel

instance : Std.Refl Inspected := ⟨fun c => ⟨Std.Refl.refl c.store, rfl⟩⟩

instance : Trans Inspected Inspected Inspected where
  trans first second := ⟨Trans.trans first.1 second.1, second.2.trans first.2⟩

/-- Part of a handler that only looks. -/
abbrev Reads (x : CmdM α) (c : Session) : Prop := Looks sessionPlan x c Inspected

section Reading
variable {c c' : Session}

theorem Reads.inspected {x : CmdM α} {r : Except Sw α} (reads : Reads x c) (ran : x c = (r, c')) : Inspected c c' := by
  have inspected := reads.1
  rwa [ran] at inspected

theorem liftFs_reads {x : FsM α} (peeks : Peeks x c.store) : Reads (liftFs x) c :=
  looks_within peeks (fun _ => rfl) (fun _ _ => rfl) fun _ peeked => ⟨peeked, rfl⟩

theorem put_reads (src : List UInt8) (c : Session) : Reads (put src) c := by
  unfold Reads Looks Blind put sessionPlan
  dsimp only
  rcases apduRspPut c.rsp src with ⟨_ | _, rsp⟩ <;> exact ⟨⟨Std.Refl.refl c.store, rfl⟩, fun _ => rfl⟩

theorem emitFci_reads (cmd : ApduCommand) (index : UInt16) (retOpt : UInt8) (c : Session) :
    Reads (emitFci cmd index retOpt) c := by
  unfold emitFci
  split
  · exact looks_pure
  split
  · exact looks_fail
  apply looks_bind (liftFs_reads (readDesc_peeks index c.store))
  intro d c₁ _
  dsimp only
  split
  · exact looks_fail
  split
  · exact looks_pure
  split
  · exact looks_fail
  apply looks_bind (put_reads _ c₁)
  intro _ c₂ _
  apply looks_bind (put_reads _ c₂)
  intro _ c₃ _
  exact put_reads _ c₃

theorem selectTarget_reads (cmd : ApduCommand) (sel : FsSelection) (c : Session) :
    Reads (selectTarget cmd sel) c := by
  have selecting := selectTarget_selecting cmd sel
  generalize selectTarget cmd sel = target at selecting
  cases selecting with
  | refused => exact looks_fail
  | byFid fileId => exact liftFs_reads (selectByFid_peeks sel fileId _)
  | child fileId wantDf => exact liftFs_reads (selectChildTyped_peeks sel fileId wantDf _)
  | parent => exact liftFs_reads (selectParent_peeks sel _)
  | byPath path fromMf => exact liftFs_reads (selectByPath_peeks sel path fromMf _)

theorem resolveTarget_reads (p1 p2 : UInt8) (c : Session) : Reads (resolveTarget p1 p2) c := by
  apply looks_state_bind fun _ => rfl
  split
  · split
    · exact looks_fail
    split
    · exact looks_fail
    · exact looks_bind (liftFs_reads (findBySfi_peeks _ _ _)) fun _ _ _ => looks_pure
  · split
    · exact looks_fail
    · exact looks_pure

theorem scosCmdReadBinary_reads (cmd : ApduCommand) (c : Session) : Reads (scosCmdReadBinary cmd) c := by
  unfold scosCmdReadBinary
  split
  · exact looks_fail
  split
  · exact looks_fail
  apply looks_bind (resolveTarget_reads _ _ c)
  rintro ⟨index, offset⟩ c₁ _
  dsimp only
  split
  · exact looks_fail
  apply looks_bind (liftFs_reads (efRead_peeks _ _ _ _))
  intro got c₂ _
  exact looks_bind (put_reads got c₂) fun _ _ _ => looks_pure

end Reading

/-- The change a command asks for. -/
def commandChange (cmd : ApduCommand) (c : Session) : Change :=
  if cmd.ins = insUpdateBinary then
    match cmd.data with
    | none => .nothing
    | some data =>
      if cmd.lc = 0 ∨ cmd.lePresent then .nothing
      else match resolveTarget cmd.p1 cmd.p2 c with
        | (.error _, _) => .nothing
        | (.ok (index, offset), c') => updateChange index offset data c'.store
  else if cmd.ins = insCreateFile then
    if c.kernel.lifecycle = .fsError ∨ cmd.p1 ≠ 0 ∨ cmd.p2 ≠ 0 then .nothing
    else match cmd.data with
      | none => .nothing
      | some data =>
        if cmd.lc = 0 then .nothing
        else match parseFcp data cmd.lc with
          | .error _ => .nothing
          | .ok req => createChange c.kernel.sel req c.store
  else if cmd.ins = insDeleteFile then
    if c.kernel.lifecycle = .fsError ∨ cmd.p1 ≠ 0 ∨ cmd.p2 ≠ 0 then .nothing
    else match cmd.data with
      | none => .nothing
      | some data => if cmd.lc ≠ 2 then .nothing else deleteChange c.kernel.sel (fidOf data) c.store
  else .nothing

section Changing
variable {c : Session} {cmd : ApduCommand} {data : List UInt8}

theorem commandChange_create {req : FsDescriptor} (ins : cmd.ins = insCreateFile)
    (active : c.kernel.lifecycle ≠ .fsError)
    (p1 : cmd.p1 = 0) (p2 : cmd.p2 = 0) (given : cmd.data = some data) (nonempty : cmd.lc ≠ 0)
    (fcp : parseFcp data cmd.lc = .ok req) : commandChange cmd c = createChange c.kernel.sel req c.store := by
  have other : cmd.ins ≠ insUpdateBinary := by
    rw [ins]
    decide
  rw [commandChange, if_neg other, if_pos ins, if_neg (by simp [active, p1, p2]), given]
  dsimp only
  rw [if_neg nonempty, fcp]

theorem commandChange_delete (ins : cmd.ins = insDeleteFile) (active : c.kernel.lifecycle ≠ .fsError) (p1 : cmd.p1 = 0)
    (p2 : cmd.p2 = 0) (given : cmd.data = some data) (two : cmd.lc = 2) :
    commandChange cmd c = deleteChange c.kernel.sel (fidOf data) c.store := by
  have other : cmd.ins ≠ insUpdateBinary ∧ cmd.ins ≠ insCreateFile := by
    rw [ins]
    decide
  rw [commandChange, if_neg other.1, if_neg other.2, if_pos ins, if_neg (by simp [active, p1, p2]), given]
  dsimp only
  rw [if_neg (by simp [two])]

end Changing

/-- Carry a change out and, unless the device failed, end as decided: with a status
word alone, or also with a new kernel state. -/
def settle (change : Change) (r : Except Sw (Sw × ScosKernel)) : CmdM Sw := fun c =>
  match perform change.requests { c.store with sb := change.mirror c.store.sb }, r with
  | (.error e, store), _ => (.error (fsErrorToSw e), { c with store })
  | (.ok (), store), .error sw => (.error sw, { c with store })
  | (.ok (), store), .ok (sw, kernel) => (.ok sw, { c with store, kernel })

/-- After its lookups, the handler carries the change out. -/
def Transacts (x : CmdM Sw) (c : Session) (change : Change) (Kept : ScosKernel → Prop) : Prop :=
  ∃ c' r, Inspected c c' ∧ ((∃ sw, r = .error sw) → change = .nothing) ∧
    (∀ sw kernel, r = .ok (sw, kernel) → Kept kernel) ∧ Becomes sessionPlan x c (settle change r) c'

section Transacting
variable {c c' : Session} {cmd : ApduCommand} {change : Change} {Kept : ScosKernel → Prop}

theorem transacts_fail (sw : Sw) (c : Session) : Transacts (Action.fail sw) c .nothing Kept :=
  ⟨c, .error sw, Std.Refl.refl c, fun _ => rfl, fun _ _ impossible => (nomatch impossible), rfl, fun _ => rfl⟩

theorem transacts_refused {x : CmdM α} {f : α → CmdM Sw} {sw : Sw} (reads : Reads x c) (ran : x c = (.error sw, c')) :
    Transacts (x >>= f) c .nothing Kept :=
  ⟨c', .error sw, reads.inspected ran, fun _ => rfl, fun _ _ impossible => (nomatch impossible),
    becomes_error reads.2 ran fun _ => rfl⟩

theorem transacts_next {x : CmdM α} {f : α → CmdM Sw} {a : α} (reads : Reads x c) (ran : x c = (.ok a, c'))
    (rest : Transacts (f a) c' change Kept) : Transacts (x >>= f) c change Kept := by
  obtain ⟨c'', r, inspected, whole, kept, becomes⟩ := rest
  exact ⟨c'', r, Trans.trans (reads.inspected ran) inspected, whole, kept, becomes_ok reads.2 ran becomes⟩

theorem transacts_state {g : Session → CmdM Sw} (same : ∀ plan, g (sessionPlan plan c) = g c)
    (rest : Transacts (g c) c change Kept) : Transacts (Action.state >>= g) c change Kept := by
  obtain ⟨c', r, inspected, whole, kept, here, variants⟩ := rest
  refine ⟨c', r, inspected, whole, kept, here, fun plan => ?_⟩
  rw [state_bind, same]
  exact variants plan

/-- A handler that only looks ends with the kernel as it was. -/
theorem transacts_reads {x : CmdM Sw} (reads : Reads x c) : Transacts x c .nothing (· = c.kernel) := by
  rcases ran : x c with ⟨sw | sw, c'⟩
  · refine ⟨c', .error sw, reads.inspected ran, fun _ => rfl, fun _ _ impossible => (nomatch impossible), ran, ?_⟩
    exact blind_error reads.2 ran
  · have inspected := reads.inspected ran
    refine ⟨c', .ok (sw, c.kernel), inspected, fun _ => rfl, ?_, ?_, ?_⟩
    · rintro _ _ ⟨⟩
      rfl
    · rw [ran, ← inspected.2]
      rfl
    · intro plan
      rw [blind_ok reads.2 ran plan, ← inspected.2]
      rfl

/-- A filesystem call that commits, and what the handler does after it. -/
theorem transacts_commits {x : FsM α} {f : α → CmdM Sw} (kernel : α → ScosKernel) (commits : Commits x c.store change)
    (after : ∀ a c', c'.kernel = c.kernel → f a c' = (.ok swOk, { c' with kernel := kernel a }))
    (kept : ∀ a, Kept (kernel a)) :
    Transacts (liftFs x >>= f) c change Kept := by
  obtain ⟨s', r, peeked, whole, here, variants⟩ := commits
  have ending : ∀ s t : Store, x s = conclude change r t →
      (liftFs x >>= f) { c with store := s } = settle change (match r with
        | .error e => .error (fsErrorToSw e)
        | .ok a => .ok (swOk, kernel a)) { c with store := t } := by
    intro s t same
    unfold settle
    rcases ran : perform change.requests { t with sb := change.mirror t.sb } with ⟨e | u, t'⟩
    · rw [conclude_error r ran] at same
      exact bind_error (within_error same)
    · rw [conclude_ok r ran] at same
      cases r with
      | error e => exact bind_error (within_error same)
      | ok a =>
        rw [bind_ok (show liftFs x { c with store := s } = (.ok a, { c with store := t' }) from within_ok same)]
        exact after a _ rfl
  refine ⟨{ c with store := s' }, _, ⟨peeked, rfl⟩, ?_, ?_, ending _ _ here, fun plan => ending _ _ (variants plan)⟩
  · rintro ⟨sw, failed⟩
    cases r with
    | error e => exact whole ⟨e, rfl⟩
    | ok a => cases failed
  · intro sw k ended
    cases r with
    | error e => cases ended
    | ok a =>
      cases ended
      exact kept a

theorem transacts_mono {Kept' : ScosKernel → Prop} {x : CmdM Sw} (transacts : Transacts x c change Kept)
    (weaker : ∀ kernel, Kept kernel → Kept' kernel) : Transacts x c change Kept' := by
  obtain ⟨c', r, inspected, whole, kept, becomes⟩ := transacts
  exact ⟨c', r, inspected, whole, fun sw kernel ended => weaker kernel (kept sw kernel ended), becomes⟩

theorem scosCmdSelect_transacts (cmd : ApduCommand) (c : Session) :
    Transacts (scosCmdSelect cmd) c .nothing fun _ => True := by
  unfold scosCmdSelect
  split
  · exact transacts_fail _ c
  split
  · exact transacts_fail _ c
  refine transacts_state (fun _ => rfl) ?_
  rcases chosen : selectTarget cmd c.kernel.sel c with ⟨sw | sel, c₁⟩
  · exact transacts_refused (selectTarget_reads cmd _ c) chosen
  refine transacts_next (selectTarget_reads cmd _ c) chosen ?_
  rcases emitted : emitFci cmd (fsSelectedIndex sel) (cmd.p2 &&& 0x0C) c₁ with ⟨sw | u, c₂⟩
  · exact transacts_refused (emitFci_reads cmd _ _ c₁) emitted
  refine transacts_next (emitFci_reads cmd _ _ c₁) emitted ?_
  exact ⟨c₂, .ok (swOk, { c₂.kernel with sel }), Std.Refl.refl c₂, fun _ => rfl, fun _ _ _ => trivial, rfl,
    fun _ => rfl⟩

theorem scosCmdUpdateBinary_transacts (fits : Fits c.store) (ins : cmd.ins = insUpdateBinary) :
    Transacts (scosCmdUpdateBinary cmd) c (commandChange cmd c) (· = c.kernel) := by
  unfold scosCmdUpdateBinary commandChange
  rw [if_pos ins]
  cases cmd.data with
  | none => exact transacts_fail _ c
  | some data =>
    dsimp only
    by_cases empty : cmd.lc = 0
    · rw [if_pos empty, if_pos (.inl empty)]
      exact transacts_fail _ c
    by_cases asked : cmd.lePresent = true
    · rw [if_neg empty, if_pos asked, if_pos (.inr asked)]
      exact transacts_fail _ c
    rw [if_neg empty, if_neg asked, if_neg (not_or.mpr ⟨empty, asked⟩)]
    rcases found : resolveTarget cmd.p1 cmd.p2 c with ⟨sw | ⟨index, offset⟩, c'⟩
    · exact transacts_refused (resolveTarget_reads _ _ c) found
    · refine transacts_next (resolveTarget_reads _ _ c) found ?_
      obtain ⟨peeked, kernel⟩ := (resolveTarget_reads _ _ c).inspected found
      exact transacts_commits (fun _ => c'.kernel) (efWrite_commits (peeked.fitting fits) index offset data)
        (fun _ c'' same => by rw [← same]; rfl) fun _ => kernel

theorem scosCmdCreateFile_transacts (fits : Fits c.store) (ins : cmd.ins = insCreateFile) :
    Transacts (scosCmdCreateFile cmd) c (commandChange cmd c) (· = c.kernel) := by
  unfold commandChange
  rw [if_neg (by rw [ins]; decide), if_pos ins]
  refine transacts_state (fun _ => rfl) ?_
  by_cases broken : c.kernel.lifecycle = .fsError
  · rw [if_pos broken, if_pos (.inl broken)]
    exact transacts_fail _ c
  by_cases other : cmd.p1 ≠ 0 ∨ cmd.p2 ≠ 0
  · rw [if_neg broken, if_pos other, if_pos (.inr other)]
    exact transacts_fail _ c
  rw [if_neg broken, if_neg other, if_neg (not_or.mpr ⟨broken, other⟩)]
  cases cmd.data with
  | none => exact transacts_fail _ c
  | some data =>
    dsimp only
    split
    · exact transacts_fail _ c
    cases parseFcp data cmd.lc with
    | error sw => exact transacts_fail _ c
    | ok req =>
      exact transacts_commits (fun _ => c.kernel) (createFile_commits fits c.kernel.sel req)
        (fun _ c' same => by rw [← same]; rfl) fun _ => rfl

theorem scosCmdDeleteFile_transacts (fits : Fits c.store) (ins : cmd.ins = insDeleteFile) :
    Transacts (scosCmdDeleteFile cmd) c (commandChange cmd c) fun _ => True := by
  unfold commandChange
  rw [if_neg (by rw [ins]; decide), if_neg (by rw [ins]; decide), if_pos ins]
  refine transacts_state (fun _ => rfl) ?_
  by_cases broken : c.kernel.lifecycle = .fsError
  · rw [if_pos broken, if_pos (.inl broken)]
    exact transacts_fail _ c
  by_cases other : cmd.p1 ≠ 0 ∨ cmd.p2 ≠ 0
  · rw [if_neg broken, if_pos other, if_pos (.inr other)]
    exact transacts_fail _ c
  rw [if_neg broken, if_neg other, if_neg (not_or.mpr ⟨broken, other⟩)]
  cases cmd.data with
  | none => exact transacts_fail _ c
  | some data =>
    dsimp only
    split
    · exact transacts_fail _ c
    · exact transacts_commits (fun sel => { c.kernel with sel })
        (deleteFile_commits fits c.kernel.sel (fidOf data)) (fun _ c' same => by rw [← same]; rfl) fun _ => trivial

/-- Every command, on any storage: its lookups, then its change. -/
theorem scosDispatch_transacts (fits : Fits c.store) (cmd : ApduCommand) :
    Transacts (scosDispatch cmd) c (commandChange cmd c) fun kernel =>
      cmd.ins = insSelect ∨ cmd.ins = insDeleteFile ∨ kernel = c.kernel := by
  have quiet : cmd.ins ≠ insUpdateBinary → cmd.ins ≠ insCreateFile → cmd.ins ≠ insDeleteFile →
      commandChange cmd c = .nothing := fun update create delete => by
    rw [commandChange, if_neg update, if_neg create, if_neg delete]
  rcases scosDispatch_cases cmd with
    ⟨ins, same⟩ | ⟨ins, same⟩ | ⟨ins, same⟩ | ⟨ins, same⟩ | ⟨ins, same⟩ | ⟨absent, same⟩ <;> rw [same]
  · rw [quiet (by rw [ins]; decide) (by rw [ins]; decide) (by rw [ins]; decide)]
    exact transacts_mono (scosCmdSelect_transacts cmd c) fun _ _ => .inl ins
  · rw [quiet (by rw [ins]; decide) (by rw [ins]; decide) (by rw [ins]; decide)]
    exact transacts_mono (transacts_reads (scosCmdReadBinary_reads cmd c)) fun _ kept => .inr (.inr kept)
  · exact transacts_mono (scosCmdUpdateBinary_transacts fits ins) fun _ kept => .inr (.inr kept)
  · exact transacts_mono (scosCmdCreateFile_transacts fits ins) fun _ kept => .inr (.inr kept)
  · exact transacts_mono (scosCmdDeleteFile_transacts fits ins) fun _ _ => .inr (.inl ins)
  · simp only [List.mem_cons, List.not_mem_nil, or_false, not_or] at absent
    rw [quiet absent.2.2.1 absent.2.2.2.1 absent.2.2.2.2]
    exact transacts_mono (transacts_reads looks_pure) fun _ kept => .inr (.inr kept)

theorem commandChange_inside (fits : Fits c.store) (cmd : ApduCommand) :
    (commandChange cmd c).Inside c.store.hal.nvm := by
  unfold commandChange
  repeat' split
  all_goals first
    | exact nothing_inside _
    | exact createChange_inside _ _ fits
    | exact deleteChange_inside _ _ fits
    | skip
  rename_i data _ _ _ index offset c' found
  obtain ⟨peeked, _⟩ := (resolveTarget_reads _ _ c).inspected found
  have inside := updateChange_inside index offset data (peeked.fitting fits)
  rwa [peeked.nvm fits] at inside

theorem settle_store (change : Change) (r : Except Sw (Sw × ScosKernel)) (c : Session) :
    (settle change r c).2.store = (perform change.requests { c.store with sb := change.mirror c.store.sb }).2 := by
  unfold settle
  rcases perform change.requests { c.store with sb := change.mirror c.store.sb } with ⟨e | u, store⟩
  · rfl
  · rcases r with sw | ⟨sw, kernel⟩ <;> rfl

end Transacting

/-- The card whose device will fail writes as planned. -/
def cardPlan (plan : List WriteFault) (card : Card) : Card := { card with store := withPlan plan card.store }

/-- The change an APDU asks for. -/
def processChange (cmd : Option (List UInt8)) (cap : UInt16) (card : Card) : Change :=
  if cap < 2 ∨ card.kernel.lifecycle ≠ .operational then .nothing
  else match apduParse cmd with
    | (.ok, c) =>
      if apduCheckCla c.cla ≠ .ok then .nothing
      else commandChange c ⟨card.kernel, card.store, apduRspInit cap⟩
    | _ => .nothing

section Processing
variable {card : Card} {cap : UInt16}

/-- An APDU is answered without touching anything, or dispatched. -/
theorem scosProcess_split (cmd : Option (List UInt8)) (cap : UInt16) (kernel : ScosKernel) :
    (∀ store, (scosProcess cmd cap ⟨kernel, store⟩).2.2 = ⟨kernel, store⟩ ∧
        processChange cmd cap ⟨kernel, store⟩ = .nothing) ∨
      ∃ c, 2 ≤ cap ∧ kernel.lifecycle = .operational ∧ apduParse cmd = (.ok, c) ∧ apduCheckCla c.cla = .ok ∧
        ∀ store, (scosProcess cmd cap ⟨kernel, store⟩).2.2 =
            ⟨(scosDispatch c ⟨kernel, store, apduRspInit cap⟩).2.kernel,
              (scosDispatch c ⟨kernel, store, apduRspInit cap⟩).2.store⟩ ∧
          processChange cmd cap ⟨kernel, store⟩ = commandChange c ⟨kernel, store, apduRspInit cap⟩ := by
  unfold scosProcess processChange execute
  by_cases small : cap < 2
  · left
    intro store
    rw [if_pos small, if_pos (.inl small)]
    exact ⟨rfl, rfl⟩
  by_cases operational : kernel.lifecycle = .operational
  · simp only [small, operational, ne_eq, not_true_eq_false, or_self, if_false]
    rcases apduParse cmd with ⟨_ | _ | _ | _, c⟩
    · by_cases class' : apduCheckCla c.cla = .ok
      · exact .inr ⟨c, UInt16.not_lt.mp small, trivial, rfl, class', fun store => by simp [class']⟩
      · exact .inl fun store => by simp [class']
    · exact .inl fun store => ⟨rfl, rfl⟩
    · exact .inl fun store => ⟨rfl, rfl⟩
    · exact .inl fun store => ⟨rfl, rfl⟩
  · left
    intro store
    rw [if_neg small, if_pos (.inr operational)]
    cases life : kernel.lifecycle with
    | operational => exact absurd life operational
    | _ => exact ⟨rfl, rfl⟩

theorem processChange_inside (fits : Fits card.store) (cmd : Option (List UInt8)) (cap : UInt16) :
    (processChange cmd cap card).Inside card.store.hal.nvm := by
  rcases scosProcess_split cmd cap card.kernel with quiet | ⟨c, _, _, _, _, dispatched⟩
  · rw [(quiet card.store).2]
    exact nothing_inside _
  · rw [(dispatched card.store).2]
    exact commandChange_inside fits c

/-- The APDU is a CREATE FILE that asks `fs_create_file` for this file. -/
structure Creation (card : Card) (cmd : Option (List UInt8)) (cap : UInt16) (c : ApduCommand) (data : List UInt8)
    (req : FsDescriptor) : Prop where
  room : 2 ≤ cap
  operational : card.kernel.lifecycle = .operational
  parsed : apduParse cmd = (.ok, c)
  cla : apduCheckCla c.cla = .ok
  ins : c.ins = insCreateFile
  plain : c.p1 = 0 ∧ c.p2 = 0
  body : c.data = some data ∧ c.lc ≠ 0
  template : parseFcp data c.lc = .ok req

/-- A served APDU of a supported class asks for what its command does. -/
theorem processChange_served {cmd : Option (List UInt8)} {c : ApduCommand} (room : 2 ≤ cap)
    (operational : card.kernel.lifecycle = .operational) (parsed : apduParse cmd = (.ok, c))
    (cla : apduCheckCla c.cla = .ok) :
    processChange cmd cap card = commandChange c ⟨card.kernel, card.store, apduRspInit cap⟩ := by
  rw [processChange, if_neg (not_or.mpr ⟨UInt16.not_lt.mpr room, not_not.mpr operational⟩), parsed]
  dsimp only
  rw [if_neg (not_not.mpr cla)]

theorem Creation.change {cmd : Option (List UInt8)} {c : ApduCommand} {data : List UInt8} {req : FsDescriptor}
    (creation : Creation card cmd cap c data req) :
    processChange cmd cap card = createChange card.kernel.sel req card.store := by
  rw [processChange_served creation.room creation.operational creation.parsed creation.cla]
  refine commandChange_create creation.ins ?_ creation.plain.1 creation.plain.2 creation.body.1 creation.body.2
    creation.template
  rw [creation.operational]
  decide

/-- Where the change of an APDU comes from. -/
theorem processChange_cases (cmd : Option (List UInt8)) (cap : UInt16) (card : Card) :
    processChange cmd cap card = .nothing ∨ ∃ c, card.kernel.lifecycle = .operational ∧ apduParse cmd = (.ok, c) ∧
      ((c.ins = insUpdateBinary ∧ ∃ data index offset c', c.data = some data ∧
          resolveTarget c.p1 c.p2 ⟨card.kernel, card.store, apduRspInit cap⟩ = (.ok (index, offset), c') ∧
          processChange cmd cap card = updateChange index offset data c'.store) ∨
        (∃ data req, Creation card cmd cap c data req ∧
          processChange cmd cap card = createChange card.kernel.sel req card.store) ∨
        (c.ins = insDeleteFile ∧
          ∃ fileId, processChange cmd cap card = deleteChange card.kernel.sel fileId card.store)) := by
  -- the branches are split in one equation, with the statement about its right-hand side
  generalize change : processChange cmd cap card = asked
  unfold processChange commandChange at change
  split at change
  · exact .inl change.symm
  rename_i ready
  obtain ⟨room, served⟩ := not_or.mp ready
  have active : card.kernel.lifecycle = .operational := not_not.mp served
  rcases parsed : apduParse cmd with ⟨_ | _ | _ | _, c⟩
  all_goals simp only [parsed] at change
  · split at change
    · exact .inl change.symm
    rename_i cla
    split at change
    · rename_i ins
      split at change
      · exact .inl change.symm
      rename_i data given
      split at change
      · exact .inl change.symm
      rcases found : resolveTarget c.p1 c.p2 ⟨card.kernel, card.store, apduRspInit cap⟩ with ⟨sw | ⟨index, offset⟩, c'⟩
      all_goals simp only [found] at change
      · exact .inl change.symm
      · exact .inr ⟨c, active, rfl, .inl ⟨ins, data, index, offset, c', given, found, change.symm⟩⟩
    split at change
    · rename_i ins
      split at change
      · exact .inl change.symm
      rename_i plain
      obtain ⟨_, p1, p2⟩ := not_or.mp plain |>.imp id not_or.mp
      split at change
      · exact .inl change.symm
      rename_i data given
      split at change
      · exact .inl change.symm
      rename_i nonempty
      split at change
      · exact .inl change.symm
      rename_i req fcp
      exact .inr ⟨c, active, rfl, .inr (.inl ⟨data, req, ⟨UInt16.not_lt.mp room, active, parsed, not_not.mp cla, ins,
        ⟨not_not.mp p1, not_not.mp p2⟩, ⟨given, nonempty⟩, fcp⟩, change.symm⟩)⟩
    split at change
    · rename_i ins
      split at change
      · exact .inl change.symm
      split at change
      · exact .inl change.symm
      rename_i data _
      split at change
      · exact .inl change.symm
      · exact .inr ⟨c, active, rfl, .inr (.inr ⟨ins, fidOf data, change.symm⟩)⟩
    · exact .inl change.symm
  · exact .inl change.symm
  · exact .inl change.symm
  · exact .inl change.symm

/-- A change that an update or a deletion never makes is made by a creation. -/
theorem processChange_creates (cmd : Option (List UInt8)) (cap : UInt16) (card : Card) {P : Change → Prop}
    (nothing : ¬ P .nothing) (update : ∀ position src, ¬ P (.update position src)) (free : ∀ slot, ¬ P (.free slot)) :
    P (processChange cmd cap card) ↔
      ∃ c data req, Creation card cmd cap c data req ∧ P (createChange card.kernel.sel req card.store) := by
  constructor
  · intro made
    rcases processChange_cases cmd cap card with none |
      ⟨c, _, _, ⟨_, _, _, _, _, _, _, change⟩ | ⟨data, req, creation, change⟩ | ⟨_, _, change⟩⟩
    · exact absurd (none ▸ made) nothing
    · rw [change, updateChange] at made
      repeat' split at made
      all_goals first
        | exact absurd made nothing
        | exact absurd made (update _ _)
    · exact ⟨c, data, req, creation, change ▸ made⟩
    · rw [change, deleteChange] at made
      split at made
      · exact absurd made nothing
      · exact absurd made (free _)
  · rintro ⟨c, data, req, creation, made⟩
    rw [creation.change]
    exact made

/-- An allocation starts at the end of the data there is and ends inside FLASH. -/
theorem processChange_top {cmd : Option (List UInt8)} {top : UInt32} {slot : UInt16} {d : FsDescriptor}
    (allocates : processChange cmd cap card = .allocate top slot d) :
    card.store.sb.dataTop ≤ top ∧ top ≤ card.store.hal.nvm.flash.size := by
  rcases processChange_cases cmd cap card with nothing | ⟨c, _, _, ⟨_, _, _, _, _, _, _, update⟩ |
    ⟨_, req, _, create⟩ | ⟨_, fileId, delete⟩⟩
  · rw [nothing] at allocates
    cases allocates
  · rw [update] at allocates
    unfold updateChange at allocates
    repeat' split at allocates
    all_goals cases allocates
  · rw [create] at allocates
    rcases createChange_cases card.kernel.sel req card.store with nothing |
      ⟨_, _, _, ⟨_, place⟩ | ⟨_, t, grown, inside, takes⟩⟩
    · rw [nothing] at allocates
      cases allocates
    · rw [place] at allocates
      cases allocates
    · rw [takes] at allocates
      cases allocates
      exact ⟨UInt32.le_iff_toNat_le.mpr (by omega), inside⟩
  · rw [delete] at allocates
    unfold deleteChange at allocates
    repeat' split at allocates
    all_goals cases allocates

/-- The storage after an APDU, whatever write failures are planned: what the device
operations of its change leave. -/
theorem scosProcess_transacts (fits : Fits card.store) (cmd : Option (List UInt8)) (cap : UInt16) :
    ∃ store, Peeked card.store store ∧
      (scosProcess cmd cap card).2.2.store = (perform (processChange cmd cap card).requests
        { store with sb := (processChange cmd cap card).mirror store.sb }).2 ∧
      ∀ plan, (scosProcess cmd cap (cardPlan plan card)).2.2.store = (perform (processChange cmd cap card).requests
        (withPlan plan { store with sb := (processChange cmd cap card).mirror store.sb })).2 := by
  rcases scosProcess_split cmd cap card.kernel with quiet | ⟨c, _, _, _, _, dispatched⟩
  · refine ⟨card.store, Std.Refl.refl card.store, ?_, fun plan => ?_⟩
    · rw [(quiet card.store).1, (quiet card.store).2]
      rfl
    · rw [cardPlan, (quiet (withPlan plan card.store)).1, (quiet card.store).2]
      rfl
  · obtain ⟨c', r, inspected, _, _, here, variants⟩ :=
      scosDispatch_transacts (c := ⟨card.kernel, card.store, apduRspInit cap⟩) fits c
    refine ⟨c'.store, inspected.1, ?_, fun plan => ?_⟩
    · rw [(dispatched card.store).1, (dispatched card.store).2, here, settle_store]
    · rw [cardPlan, (dispatched (withPlan plan card.store)).1, (dispatched card.store).2]
      have ran := variants plan
      unfold sessionPlan at ran
      rw [ran, settle_store]
      rfl

/-- Without device failures the whole change takes place, and nothing else. -/
theorem scosProcess_calm (fits : Fits card.store) (calm : Calm card.store) (cmd : Option (List UInt8)) (cap : UInt16) :
    let after := (scosProcess cmd cap card).2.2.store
    after.sb = (processChange cmd cap card).mirror card.store.sb ∧
      after.hal.nvm = applyAll (processChange cmd cap card).requests card.store.hal.nvm ∧
      Calm after ∧ Fits after := by
  have inside := processChange_inside fits cmd cap
  obtain ⟨store, peeked, after, _⟩ := scosProcess_transacts fits cmd cap
  obtain rfl := (peeked.undone fits).2 calm
  rw [after]
  have fits' := carried_fits inside fits
  rcases ran : perform (processChange cmd cap card).requests
    { card.store with sb := (processChange cmd cap card).mirror card.store.sb } with ⟨result, s'⟩
  rw [ran] at fits'
  have performed := perform_performed
    (s := { card.store with sb := (processChange cmd cap card).mirror card.store.sb }) inside ran
  obtain ⟨ok, writes⟩ := performed.reliable calm.2
  obtain ⟨done, _, nvm, all⟩ := performed.nvm
  rw [all ok] at nvm
  exact ⟨performed.sb, nvm, ⟨performed.reads.trans calm.1, writes⟩, fits'⟩

end Processing
end CardOs.Transactions
