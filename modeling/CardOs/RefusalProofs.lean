import CardOs.CardProofs
import CardOs.Transactions

/-! What a command leaves behind, on any storage content. A handler that stops on
a device without failures has changed neither the kernel nor the store, and
SELECT and READ BINARY never change the store at all. The mounted table fits in
every state a chip can reach, however many device failures it has lived through,
so the same is true of whole runs. -/
namespace CardOs.RefusalProofs
open CardOs.Library CardOs.Library.Action CardOs.Apdu CardOs.FsTypes CardOs.HalNvm CardOs.FsStore CardOs.Fs
open CardOs.FileCommands CardOs.Kernel CardOs.AnswerProofs CardOs.CommandProofs CardOs.CardProofs
open CardOs.StorageProofs CardOs.StoreChanges CardOs.Transactions

/-- Nothing but the response changed, unless the device failed. -/
def Intact (c c' : Session) : Prop :=
  Fits c.store → Fits c'.store ∧ (Calm c.store → c'.store = c.store ∧ c'.kernel = c.kernel)

/-- The store did not change, unless the device failed. -/
def StoreIntact (c c' : Session) : Prop :=
  Fits c.store → Fits c'.store ∧ (Calm c.store → c'.store = c.store)

/-- Whatever changed, the mounted table still fits. -/
def TableFits (c c' : Session) : Prop := Fits c.store → Fits c'.store

instance : Std.Refl Intact := ⟨fun _ fits => ⟨fits, fun _ => ⟨rfl, rfl⟩⟩⟩

section Handlers
variable {c c' : Session} {cmd : ApduCommand} {x : CmdM Sw} {change : Change} {Kept : ScosKernel → Prop}

theorem inspected_intact (inspected : Inspected c c') : Intact c c' :=
  fun fits => ⟨inspected.1.fitting fits, fun calm => ⟨(inspected.1.undone fits).2 calm, inspected.2⟩⟩

theorem reads_intact (reads : Reads x c) : Moves x c Intact Intact :=
  moves_mono (looks_moves reads) (fun _ => inspected_intact) fun _ => inspected_intact

/-- A transaction that asks for nothing leaves the storage alone. -/
theorem transacts_nothing (transacts : Transacts x c .nothing Kept) : Moves x c Intact StoreIntact := by
  obtain ⟨c', r, inspected, _, _, ran, _⟩ := transacts
  unfold Moves
  rw [ran]
  rcases r with sw | ⟨sw, kernel⟩
  · constructor
    · rintro e c'' ⟨⟩
      exact inspected_intact inspected
    · rintro sw' c'' ⟨⟩
  · constructor
    · rintro e c'' ⟨⟩
    · rintro sw' c'' ⟨⟩ fits
      exact ⟨inspected.1.fitting fits, fun calm => (inspected.1.undone fits).2 calm⟩

/-- A device without failures completes every change, so that a transaction which
stops has asked for nothing. -/
theorem transacts_intact (inside : Fits c.store → change.Inside c.store.hal.nvm)
    (transacts : Fits c.store → Transacts x c change Kept) : Moves x c Intact TableFits := by
  by_cases fits : Fits c.store
  · obtain ⟨c', r, inspected, whole, _, ran, _⟩ := transacts fits
    have within := inside fits
    rw [← inspected.1.nvm fits] at within
    have fits' := carried_fits within (inspected.1.fitting fits)
    have done := carried_out (s := c'.store) within
    unfold Moves settle at *
    rw [ran]
    rcases carried : perform change.requests { c'.store with sb := change.mirror c'.store.sb } with ⟨e | u, store⟩
    · rw [carried] at fits' done
      constructor
      · rintro sw c'' ⟨⟩ _
        refine ⟨fits', fun calm => ?_⟩
        rw [(inspected.1.undone fits).2 calm] at done
        exact nomatch done calm.2
      · rintro sw c'' ⟨⟩
    · rw [carried] at fits'
      rcases r with sw | ⟨sw, kernel⟩
      · obtain rfl := whole ⟨sw, rfl⟩
        cases carried
        constructor
        · rintro e c'' ⟨⟩
          exact inspected_intact inspected
        · rintro sw' c'' ⟨⟩
      · constructor
        · rintro e c'' ⟨⟩
        · rintro sw' c'' ⟨⟩ _
          exact fits'
  · exact ⟨fun _ _ _ impossible => absurd impossible fits, fun _ _ _ impossible => absurd impossible fits⟩

theorem scosDispatch_intact (cmd : ApduCommand) (c : Session) :
    Moves (scosDispatch cmd) c Intact TableFits :=
  transacts_intact (fun fits => commandChange_inside fits cmd) fun fits => scosDispatch_transacts fits cmd

end Handlers

section Runs
variable {card : Card}

private theorem process_fits (fits : Fits card.store) (cmd : Option (List UInt8)) (cap : UInt16) :
    Fits (scosProcess cmd cap card).2.2.store := by
  by_cases room : 2 ≤ cap
  · rcases scosProcess_cases room cmd card with ⟨sw, _, answer⟩ | ⟨c, result, c', _, _, ran, answer⟩
    · rw [answer]
      exact fits
    · rw [answer]
      have moves := scosDispatch_intact c ⟨card.kernel, card.store, apduRspInit cap⟩
      cases result with
      | error sw => exact (moves.1 sw c' ran fits).1
      | ok sw => exact moves.2 sw c' ran fits
  · rw [scosProcess_small room]
    exact fits

private theorem init_fits_card (card : Card) : Fits (scosInit card).2.store := by
  have fits := init_fits card.store
  unfold scosInit
  generalize fsInit card.store = booted at fits ⊢
  obtain ⟨e | u, store⟩ := booted <;> exact fits

theorem step_fits (fits : Fits card.store) (event : CardEvent) : Fits (step card event).store := by
  cases event with
  | apdu cmd cap => exact process_fits fits cmd cap
  | reset => exact fits
  | init => exact init_fits_card card
  | powerCycle => exact init_fits_card _

theorem run_fits (fits : Fits card.store) (events : List CardEvent) : Fits (run card events).store := by
  induction events generalizing card with
  | nil => exact fits
  | cons event rest ih => exact ih (step_fits fits event)

end Runs

section Answers
variable {c c' : Session} {cmd : ApduCommand} {cap : UInt16} {card card' : Card} {ins : UInt8} {data : List UInt8}
  {sw : Sw} {result : Except Sw Sw}

/-- What one answer may go with, given the card before and after it. -/
structure Faithful (ins : UInt8) (data : List UInt8) (sw : Sw) (card card' : Card) : Prop where
  refused : sw ≠ swOk → sw ≠ swNvmUnchangedEof → card' = card ∧ data = []
  short : sw = swNvmUnchangedEof → card'.store.hal.nvm = card.store.hal.nvm
  quiet : sw = swOk → ins = insReadBinary ∨ ins = insSelect → card'.store.hal.nvm = card.store.hal.nvm

private theorem faithful_same (empty : sw ≠ swOk → sw ≠ swNvmUnchangedEof → data = []) :
    Faithful ins data sw card card :=
  ⟨fun notOk notEof => ⟨rfl, empty notOk notEof⟩, fun _ => rfl, fun _ _ => rfl⟩

private theorem faithful_done (other : ins ≠ insReadBinary ∧ ins ≠ insSelect ∨
    card'.store.hal.nvm = card.store.hal.nvm) : Faithful ins data swOk card card' := by
  refine ⟨fun notOk => absurd rfl notOk, ?_, ?_⟩
  · rintro ⟨⟩
  · rintro _ (read | select)
    · exact other.elim (fun differs => absurd read differs.1) id
    · exact other.elim (fun differs => absurd select differs.2) id

private theorem refused_empty {rsp : ApduResponse} (answered : Answered cmd cap sw rsp) (notOk : sw ≠ swOk)
    (notEof : sw ≠ swNvmUnchangedEof) : payload rsp = [] := by
  unfold payload
  split
  · rfl
  · rename_i clean
    by_contra some
    rcases (answered.data (by simpa using clean) some).1 with ok | eof
    · exact notOk ok
    · exact notEof eof

/-- On a device without failures a handler's answer is faithful to what it did. -/
theorem dispatch_faithful (fits : Fits c.store) (calm : Calm c.store)
    (answered : Answered cmd cap (endedWith result) c'.rsp) (ran : scosDispatch cmd c = (result, c')) :
    Faithful cmd.ins (payload c'.rsp) (endedWith result) ⟨c.kernel, c.store⟩ ⟨c'.kernel, c'.store⟩ := by
  have unchanged : Intact c c' → Faithful cmd.ins (payload c'.rsp) (endedWith result) ⟨c.kernel, c.store⟩
      ⟨c'.kernel, c'.store⟩ := by
    intro intact
    obtain ⟨store, kernel⟩ := (intact fits).2 calm
    rw [store, kernel]
    exact faithful_same (refused_empty answered)
  cases result with
  | error sw => exact unchanged ((scosDispatch_intact cmd c).1 sw c' ran)
  | ok sw =>
    rcases scosDispatch_cases cmd with
      ⟨ins, same⟩ | ⟨ins, same⟩ | ⟨ins, same⟩ | ⟨ins, same⟩ | ⟨ins, same⟩ | ⟨_, same⟩ <;> rw [same] at ran
    · obtain rfl := (scosCmdSelect_ends cmd c).2 sw c' ran
      have store := ((transacts_nothing (scosCmdSelect_transacts cmd c)).2 swOk c' ran fits).2 calm
      exact faithful_done (.inr (by rw [store]))
    · exact unchanged ((reads_intact (scosCmdReadBinary_reads cmd c)).2 sw c' ran)
    · obtain rfl := (scosCmdUpdateBinary_ends cmd c).2 sw c' ran
      exact faithful_done (.inl (by rw [ins]; decide))
    · obtain rfl := (scosCmdCreateFile_ends cmd c).2 sw c' ran
      exact faithful_done (.inl (by rw [ins]; decide))
    · obtain rfl := (scosCmdDeleteFile_ends cmd c).2 sw c' ran
      exact faithful_done (.inl (by rw [ins]; decide))
    · cases ran
      exact unchanged (Std.Refl.refl c)

/-- A blank chip whose device will fail as planned. -/
def blankChip (eepromSize flashSize : UInt32) (readFaults : List Bool) (writeFaults : List WriteFault) : Card :=
  let card := blankCard eepromSize flashSize
  { card with store := { card.store with hal := { card.store.hal with readFaults, writeFaults } } }

/-- On every card that a run from a blank chip reaches, whatever device failures
it met on the way, a command during which the device does not fail is answered
faithfully: an answer other than `9000` and `6282` means that nothing changed and
carries no data; `6282`, and `9000` to READ BINARY or SELECT, mean that no memory
changed. -/
theorem refused_command_changes_nothing (eepromSize flashSize : UInt32) (readFaults : List Bool)
    (writeFaults : List WriteFault) (events : List CardEvent)
    (reached : run (blankChip eepromSize flashSize readFaults writeFaults) events = card)
    (calm : Calm card.store) (cmd : Option (List UInt8)) (room : 2 ≤ cap) :
    ∃ data sw card', scosProcess cmd cap card = (.ok, data ++ [sw1 sw, sw2 sw], card') ∧
      Faithful (insOf cmd) data sw card card' := by
  have fits : Fits card.store := by
    rw [← reached]
    apply run_fits
    rintro ⟨⟩
  rcases scosProcess_cases room cmd card with ⟨sw, _, answer⟩ | ⟨c, result, c', _, parsed, ran, answer⟩
  · exact ⟨[], sw, card, answer, faithful_same fun _ _ => rfl⟩
  · refine ⟨_, _, _, answer, ?_⟩
    cases cmd with
    | none => cases parsed
    | some bytes =>
      have faithful := dispatch_faithful fits calm (scosDispatch_answered room rfl ran) ran
      rw [(apduParse_spec parsed).2.1] at faithful
      exact faithful

theorem refused_command_changes_nothing_after_torn_boot :
    ∃ card, run (blankChip 656 112 [] (List.replicate 34 .none ++ [.lost])) [.init, .reset] = card ∧
      Calm card.store ∧ (2 : UInt16) ≤ 258 ∧ ∃ data sw card',
        scosProcess (some [0x00, 0xA4, 0x00, 0x0C, 0x02, 0x3F, 0x00]) 258 card =
          (.ok, data ++ [sw1 sw, sw2 sw], card') ∧ Faithful 0xA4 data sw card card' := by
  have calm : Calm (run (blankChip 656 112 [] (List.replicate 34 .none ++ [.lost])) [.init, .reset]).store :=
    ⟨by decide +kernel, by decide +kernel⟩
  refine ⟨_, rfl, calm, by decide, ?_⟩
  exact refused_command_changes_nothing 656 112 [] _ [.init, .reset] rfl calm
    (some [0x00, 0xA4, 0x00, 0x0C, 0x02, 0x3F, 0x00]) (by decide)

end Answers

end CardOs.RefusalProofs
