import CardOs.CommandProofs

/-! Whole runs of a card. One event takes a card that holds a file tree to a card
that holds a file tree, whatever writes the device refuses; the first boot of a
factory-blank chip that fits personalises it. The tree, the data extents and the
selection are read off from these. -/
namespace CardOs.CardProofs
open CardOs.Library CardOs.Library.Action CardOs.Apdu CardOs.FsTypes CardOs.HalNvm CardOs.FsStore
open CardOs.FsStoreProofs CardOs.Fs CardOs.FileTree CardOs.FsProofs CardOs.FsChangeProofs CardOs.FsInitProofs
open CardOs.FileCommands CardOs.Kernel CardOs.AnswerProofs CardOs.CommandProofs

/-- A card whose store holds the tree and whose current DF is usable in it. -/
structure Live (t : FileTree) (card : Card) : Prop where
  ready : Ready card.store t
  df : DfSelected t card.kernel.sel

/-- The device has no failing write ahead. -/
def Reliable (card : Card) : Prop := card.store.hal.writeFaults = []

section Steps
variable {t : FileTree} {card card' : Card} {cmd : Option (List UInt8)} {cap : UInt16}

/-- A new file leaves the selection as good as it was. -/
theorem selected_insert (sel : FsSelection) {slot : UInt16} {d : FsDescriptor} {top : UInt32}
    (ok : Insertable t slot d top) :
    (DfSelected t sel → DfSelected (t.insert ok) sel) ∧ (EfSelected t sel → EfSelected (t.insert ok) sel) := by
  constructor
  · rintro ⟨e, live, isDf⟩
    exact ⟨e, kept_insert ok live, isDf⟩
  · rintro (none | ⟨e, live, isEf⟩)
    · exact .inl none
    · exact .inr ⟨e, kept_insert ok live, isEf⟩

/-- Deleting a file of the current DF can only take the current EF away. -/
theorem deselect_child {sel : FsSelection} {slot : UInt16} (other : sel.curDf ≠ slot) :
    deselect sel slot = if sel.curEf = slot then { sel with curEf := fsInvalidIndex } else sel := by
  unfold deselect
  split
  · exact if_neg other
  · exact if_neg other

theorem selected_remove {sel : FsSelection} {slot : UInt16} (ok : Removable t slot)
    (other : sel.curDf ≠ slot) :
    (DfSelected t sel → DfSelected (t.remove ok) (deselect sel slot)) ∧
      (EfSelected t sel → EfSelected (t.remove ok) (deselect sel slot)) := by
  have kept : ∀ i, i ≠ slot → (t.remove ok).table i = t.table i :=
    fun i different => Function.update_of_ne different _ _
  rw [deselect_child other]
  by_cases gone : sel.curEf = slot
  · rw [if_pos gone]
    constructor
    · rintro ⟨e, live, isDf⟩
      exact ⟨e, (kept _ other).trans live, isDf⟩
    · intro _
      exact .inl rfl
  · rw [if_neg gone]
    constructor
    · rintro ⟨e, live, isDf⟩
      exact ⟨e, (kept _ other).trans live, isDf⟩
    · rintro (none | ⟨e, live, isEf⟩)
      · exact .inl none
      · exact .inr ⟨e, (kept _ gone).trans live, isEf⟩

/-- A command leaves a tree and a usable current DF; without failing writes a
good current EF stays good too. -/
theorem effect_live {c c' : Session} {command : ApduCommand} {sw : Sw} (ready : Ready c.store t)
    (df : DfSelected t c.kernel.sel) (effect : Effect t c command sw c') :
    ∃ t', Live t' ⟨c'.kernel, c'.store⟩ ∧ (c.store.hal.writeFaults = [] →
      c'.store.hal.writeFaults = [] ∧ (EfSelected t c.kernel.sel → EfSelected t' c'.kernel.sel)) := by
  cases effect with
  | refused sw rsp refusal => exact ⟨t, ⟨ready, df⟩, fun faultless => ⟨faultless, id⟩⟩
  | read sw rsp ins delivers => exact ⟨t, ⟨ready, df⟩, fun faultless => ⟨faultless, id⟩⟩
  | selected sel rsp ins df' ef => exact ⟨t, ⟨ready, df'⟩, fun faultless => ⟨faultless, ef⟩⟩
  | updated index offset data store ins field target updated =>
    cases updated with
    | done d live isEf usable inside ready' sb nvm reliable =>
      exact ⟨t, ⟨ready', df⟩, fun faultless => ⟨reliable faultless, id⟩⟩
  | created slot d store ins child placed =>
    cases placed with
    | done ok ready' flash grown reliable =>
      obtain ⟨keepsDf, keepsEf⟩ := selected_insert c.kernel.sel ok
      exact ⟨t.insert ok, ⟨ready', keepsDf df⟩, fun faultless => ⟨reliable faultless, keepsEf⟩⟩
  | deleted sel store ins deleted =>
    cases deleted with
    | done slot d live child ok ready' flash sb reliable =>
      have other : c.kernel.sel.curDf ≠ slot := fun same => parent_ne_self live (child.trans same)
      obtain ⟨keepsDf, keepsEf⟩ := selected_remove ok other
      exact ⟨t.remove ok, ⟨ready', keepsDf df⟩, fun faultless => ⟨reliable faultless, keepsEf⟩⟩
  | torn sw store t' refusal faulty ready' kept =>
    obtain ⟨d, live, isDf⟩ := df
    exact ⟨t', ⟨ready', d, kept.trans live, isDf⟩, fun faultless => absurd faultless faulty⟩

/-- A command that reaches its handler has the handler's effect; any other is
refused and changes nothing. -/
theorem scosProcess_effect (live : Live t card) (room : 2 ≤ cap) (cmd : Option (List UInt8)) :
    (∃ sw, Refusal sw ∧ scosProcess cmd cap card = (.ok, [sw1 sw, sw2 sw], card)) ∨
      ∃ bytes c sw c', card.kernel.lifecycle = .operational ∧ cmd = some bytes ∧ apduParse cmd = (.ok, c) ∧
        Effect t ⟨card.kernel, card.store, apduRspInit cap⟩ c sw c' ∧ Answered c cap sw c'.rsp ∧
        scosProcess cmd cap card =
          (.ok, payload c'.rsp ++ [sw1 sw, sw2 sw], ⟨c'.kernel, c'.store⟩) := by
  rcases scosProcess_cases room cmd card with refused | ⟨c, result, c', active, parsed, ran, answer⟩
  · exact .inl refused
  · cases cmd with
    | none => cases parsed
    | some bytes =>
      have effect := scosDispatch_effect live.ready live.df (apduParse_spec parsed).1 ran
      exact .inr ⟨bytes, c, _, c', active, rfl, parsed, effect, scosDispatch_answered room rfl ran, answer⟩

/-- A response buffer without room for a status word is refused as a parameter. -/
theorem scosProcess_small (small : ¬ 2 ≤ cap) (cmd : Option (List UInt8)) (card : Card) :
    scosProcess cmd cap card = (.param, [], card) := by
  unfold scosProcess
  rw [if_pos (UInt16.not_le.mp small)]

/-- Booting on a store whose image holds a tree mounts that tree. -/
theorem scosInit_mounts (reads : card.store.hal.readFaults = [])
    (holds : Holds card.store.hal.nvm t.table t.top) :
    scosInit card = (.ok, ⟨⟨.operational, 0, fsSelectionReset⟩, { card.store with sb := mirrorOf t.top }⟩) := by
  rw [scosInit, fsInit_mounts reads holds]
  rfl

theorem powerUp_mounts (reads : card.store.hal.readFaults = [])
    (holds : Holds card.store.hal.nvm t.table t.top) :
    powerUp card = (.ok, ⟨⟨.operational, 0, fsSelectionReset⟩, { card.store with sb := mirrorOf t.top }⟩) := by
  unfold powerUp
  exact scosInit_mounts reads holds

/-- What one event does to a card with a tree: nothing, the effect of a command, or a
start over from the stored tree. -/
theorem step_cases (live : Live t card) (event : CardEvent) :
    step card event = card ∨
      (card.kernel.lifecycle = .operational ∧ ∃ c cap sw c',
        Effect t ⟨card.kernel, card.store, apduRspInit cap⟩ c sw c' ∧ step card event = ⟨c'.kernel, c'.store⟩) ∨
      (Ready (step card event).store t ∧ (step card event).kernel.sel = fsSelectionReset ∧
        (step card event).store.hal = card.store.hal) := by
  cases event with
  | apdu cmd cap =>
    by_cases room : 2 ≤ cap
    · rcases scosProcess_effect live room cmd with ⟨sw, _, answer⟩ | ⟨_, c, sw, c', active, _, _, effect, _, answer⟩
      · exact .inl (by rw [step, answer])
      · exact .inr (.inl ⟨active, c, cap, sw, c', effect, by rw [step, answer]⟩)
    · exact .inl (by rw [step, scosProcess_small room])
  | reset => exact .inr (.inr ⟨live.ready, rfl, rfl⟩)
  | init =>
    rw [step, scosInit_mounts live.ready.reads live.ready.holds]
    exact .inr (.inr ⟨mounted_mirrorOf live.ready.reads live.ready.holds, rfl, rfl⟩)
  | powerCycle =>
    rw [step, powerUp_mounts live.ready.reads live.ready.holds]
    exact .inr (.inr ⟨mounted_mirrorOf live.ready.reads live.ready.holds, rfl, rfl⟩)

/-- While commands are served, the current EF is good. -/
def Chosen (t : FileTree) (card : Card) : Prop := card.kernel.lifecycle = .operational → EfSelected t card.kernel.sel

theorem step_live (live : Live t card) (event : CardEvent) :
    ∃ t', Live t' (step card event) ∧ (Reliable card → Reliable (step card event) ∧
      (EfSelected t card.kernel.sel → EfSelected t' (step card event).kernel.sel) ∧
      (Chosen t card → Chosen t' (step card event))) := by
  obtain ⟨df, ef⟩ := reset_selected t
  rcases step_cases live event with same | ⟨active, c, cap, sw, c', effect, after⟩ | ⟨ready, sel, hal⟩
  · rw [same]
    exact ⟨t, live, fun faultless => ⟨faultless, id, id⟩⟩
  · obtain ⟨t', live', kept⟩ := effect_live live.ready live.df effect
    rw [after]
    refine ⟨t', live', fun faultless => ?_⟩
    obtain ⟨faultless', keepsEf⟩ := kept faultless
    exact ⟨faultless', keepsEf, fun chosen _ => keepsEf (chosen active)⟩
  · refine ⟨t, ⟨ready, by rw [sel]; exact df⟩, fun faultless => ⟨by rw [Reliable, hal]; exact faultless, ?_, ?_⟩⟩
    · intro _
      rw [sel]
      exact ef
    · intro _ _
      rw [sel]
      exact ef

/-- Whatever happens to a card that holds a tree, it holds a tree afterwards. -/
theorem run_live (live : Live t card) (events : List CardEvent) :
    ∃ t', Live t' (run card events) ∧ (Reliable card → Reliable (run card events) ∧
      (EfSelected t card.kernel.sel → EfSelected t' (run card events).kernel.sel)) := by
  induction events generalizing card t with
  | nil => exact ⟨t, live, fun faultless => ⟨faultless, id⟩⟩
  | cons event rest ih =>
    obtain ⟨t₁, live₁, kept₁⟩ := step_live live event
    obtain ⟨t₂, live₂, kept₂⟩ := ih live₁
    refine ⟨t₂, live₂, fun faultless => ?_⟩
    obtain ⟨faultless₁, ef₁, _⟩ := kept₁ faultless
    obtain ⟨faultless₂, ef₂⟩ := kept₂ faultless₁
    exact ⟨faultless₂, fun ef => ef₂ (ef₁ ef)⟩

end Steps

section Blank
variable {card : Card} {eepromSize flashSize : UInt32}

theorem blank_unformatted (eepromSize flashSize : UInt32) :
    Unformatted (blankCard eepromSize flashSize).store where
  reads := rfl
  reliable := rfl
  noMagic := by
    show (Region.uniform eepromSize 0xFF).read 0 4 ≠ fsMagic
    rw [Region.uniform_read]
    decide

/-- Booting an unformatted chip: refused for want of EEPROM, or a card that holds
a tree, operational when FLASH has room for the factory layout. -/
theorem scosInit_unformatted (unformatted : Unformatted card.store) :
    (card.store.hal.nvm.eeprom.size.toNat < 656 ∧ ∃ store, Unformatted store ∧ store.sb.mounted = false ∧
        store.hal.nvm = card.store.hal.nvm ∧
        scosInit card = (.state, ⟨⟨.fsError, 0, ⟨0, 0⟩⟩, store⟩)) ∨
      (656 ≤ card.store.hal.nvm.eeprom.size.toNat ∧ ∃ status card' t, scosInit card = (status, card') ∧
        Live t card' ∧ Reliable card' ∧ card'.store.hal.nvm.flash = card.store.hal.nvm.flash ∧
        (112 ≤ card.store.hal.nvm.flash.size.toNat ↔ status = .ok) ∧
        card'.kernel = if status = .ok then ⟨.operational, 0, fsSelectionReset⟩ else ⟨.fsError, 0, ⟨0, 0⟩⟩) := by
  rcases fsInit_unformatted unformatted with
    ⟨small, e, s, failed, unformatted', unmounted, nvm, _⟩ |
    ⟨large, result, s, t, ran, ready, reliable, flash, _, room⟩
  · refine .inl ⟨small, s, unformatted', unmounted, nvm, ?_⟩
    rw [scosInit, failed]
    rfl
  · refine .inr ⟨large, ?_⟩
    cases result with
    | error e =>
      refine ⟨.state, ⟨⟨.fsError, 0, ⟨0, 0⟩⟩, s⟩, t, by rw [scosInit, ran]; rfl,
        ⟨ready, factoryMf, t.root, rfl, rfl⟩, reliable, flash, ?_, rfl⟩
      simpa using room
    | ok u =>
      refine ⟨.ok, ⟨⟨.operational, 0, fsSelectionReset⟩, s⟩, t, by rw [scosInit, ran]; rfl,
        ⟨ready, (reset_selected t).1⟩, reliable, flash, ?_, rfl⟩
      simpa using room

/-- A command to a chip that is not formatted is refused and changes nothing. -/
theorem scosProcess_blank {cap : UInt16} (unmounted : card.store.sb.mounted = false) (room : 2 ≤ cap)
    (cmd : Option (List UInt8)) :
    ∃ sw, Refusal sw ∧ scosProcess cmd cap card = (.ok, [sw1 sw, sw2 sw], card) := by
  rcases scosProcess_cases room cmd card with refused | ⟨c, result, c', _, parsed, ran, answer⟩
  · exact refused
  · cases cmd with
    | none => cases parsed
    | some bytes =>
      obtain ⟨rfl, refusal⟩ := scosDispatch_unmounted unmounted (apduParse_spec parsed).1 ran
      exact ⟨_, refusal, answer⟩

/-- A boot of a blank chip that succeeds leaves an operational card with a tree
and the master file selected. -/
theorem blank_boots {card : Card} (booted : scosInit (blankCard eepromSize flashSize) = (.ok, card)) :
    ∃ t, Live t card ∧ Reliable card ∧ EfSelected t card.kernel.sel := by
  rcases scosInit_unformatted (blank_unformatted eepromSize flashSize) with
    ⟨_, store, _, _, _, failed⟩ | ⟨_, status, card', t, ran, live, reliable, _, _, kernel⟩
  · rw [failed] at booted
    cases booted
  · rw [ran] at booted
    cases booted
    refine ⟨t, live, reliable, ?_⟩
    rw [kernel]
    exact (reset_selected t).2

/-- The table and the factory files need 656 bytes of EEPROM and 112 of FLASH,
and that is enough. -/
theorem blank_boots_iff :
    (scosInit (blankCard eepromSize flashSize)).1 = .ok ↔ 656 ≤ eepromSize.toNat ∧ 112 ≤ flashSize.toNat := by
  rcases scosInit_unformatted (blank_unformatted eepromSize flashSize) with
    ⟨small, store, _, _, _, failed⟩ | ⟨large, status, card', t, ran, _, _, _, room, _⟩
  · rw [failed]
    constructor
    · rintro ⟨⟩
    · rintro ⟨large, _⟩
      exact absurd large (Nat.not_le.mpr small)
  · rw [ran]
    constructor
    · intro ok
      exact ⟨large, room.mpr ok⟩
    · rintro ⟨_, enough⟩
      exact room.mp enough

end Blank

end CardOs.CardProofs
