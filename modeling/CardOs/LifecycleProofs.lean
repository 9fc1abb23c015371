import CardOs.CardProofs

/-! The lifecycle across warm resets and commands. A card that did not mount, or
that was terminated, gives one answer to every command; commands never change
the lifecycle, and a warm reset always makes it operational. -/
namespace CardOs.LifecycleProofs
open CardOs.Library CardOs.Library.Action CardOs.Apdu CardOs.FsStore CardOs.Fs CardOs.FileCommands CardOs.Kernel
open CardOs.AnswerProofs CardOs.CardProofs

/-- The one answer of a lifecycle in which no command is executed for good. -/
def deadWord : ScosLifecycle → Option Sw
  | .fsError => some swMemoryFailure
  | .terminated => some swConditionsNotSatisfied
  | .noPower | .initialising | .operational => none

/-- What may happen to a powered card: a command with room for an answer, or a
warm reset. -/
def Warm : CardEvent → Prop
  | .apdu _ cap => 2 ≤ cap
  | .reset => True
  | .init | .powerCycle => False

/-- Every response the card gives along a run. -/
def responses (card : Card) : List CardEvent → List (List UInt8)
  | [] => []
  | .apdu cmd cap :: rest =>
    (scosProcess cmd cap card).2.1 :: responses (step card (.apdu cmd cap)) rest
  | event :: rest => responses (step card event) rest

section Commands
variable {card : Card} {sw : Sw} {cap : UInt16}

theorem scosProcess_dead (dead : deadWord card.kernel.lifecycle = some sw) (room : 2 ≤ cap)
    (cmd : Option (List UInt8)) : scosProcess cmd cap card = (.ok, [sw1 sw, sw2 sw], card) := by
  unfold scosProcess
  rw [if_neg (UInt16.not_lt.mpr room)]
  cases life : card.kernel.lifecycle with
  | fsError => rw [life] at dead; cases dead; simp only [apduRspFinish_empty room]
  | terminated => rw [life] at dead; cases dead; simp only [apduRspFinish_empty room]
  | noPower => rw [life] at dead; cases dead
  | initialising => rw [life] at dead; cases dead
  | operational => rw [life] at dead; cases dead

private theorem put_keepsLifecycle (src : List UInt8) : Keeps (put src) fun c => c.kernel.lifecycle := by
  intro c
  unfold put
  split
  · rfl
  · rfl

private theorem emitFci_keepsLifecycle (cmd : ApduCommand) (index : UInt16) (retOpt : UInt8) :
    Keeps (emitFci cmd index retOpt) fun c => c.kernel.lifecycle := by
  unfold emitFci
  split
  · exact keeps_pure
  split
  · exact keeps_fail
  refine keeps_bind (liftFs_keeps fun _ _ => rfl) fun d => ?_
  dsimp only
  repeat' split
  all_goals first
    | exact keeps_fail
    | exact keeps_pure
    | exact keeps_bind (put_keepsLifecycle _) fun _ =>
        keeps_bind (put_keepsLifecycle _) fun _ => put_keepsLifecycle _

theorem scosDispatch_keepsLifecycle (cmd : ApduCommand) :
    Keeps (scosDispatch cmd) fun c => c.kernel.lifecycle := by
  obtain ⟨update, create, delete⟩ :=
    quietHandlers_keep (fun c => c.kernel.lifecycle) (fun _ _ => rfl) (fun _ _ => rfl) cmd
  rcases scosDispatch_cases cmd with
    ⟨_, same⟩ | ⟨_, same⟩ | ⟨_, same⟩ | ⟨_, same⟩ | ⟨_, same⟩ | ⟨_, same⟩ <;> rw [same]
  · unfold scosCmdSelect
    split
    · exact keeps_fail
    split
    · exact keeps_fail
    refine keeps_state_bind fun c => keeps_bind (selectTarget_keeps (fun _ _ => rfl) _ _) fun sel => ?_
    exact keeps_bind (emitFci_keepsLifecycle _ _ _) fun _ => keeps_bind (keeps_update fun _ => rfl) fun _ => keeps_pure
  · unfold scosCmdReadBinary
    split
    · exact keeps_fail
    split
    · exact keeps_fail
    refine keeps_bind (resolveTarget_keeps (fun _ _ => rfl) _ _) fun target => ?_
    dsimp only
    split
    · exact keeps_fail
    · exact keeps_bind (liftFs_keeps fun _ _ => rfl) fun _ => keeps_bind (put_keepsLifecycle _) fun _ => keeps_pure
  · exact update
  · exact create
  · exact delete
  · exact keeps_pure

/-- No command changes the lifecycle, whatever the store holds. -/
theorem scosProcess_lifecycle (cmd : Option (List UInt8)) (cap : UInt16) (card : Card) :
    (scosProcess cmd cap card).2.2.kernel.lifecycle = card.kernel.lifecycle := by
  by_cases room : 2 ≤ cap
  · rcases scosProcess_cases room cmd card with ⟨sw, _, answer⟩ | ⟨c, result, c', _, _, ran, answer⟩
    · rw [answer]
    · have kept := scosDispatch_keepsLifecycle c ⟨card.kernel, card.store, apduRspInit cap⟩
      rw [ran] at kept
      rw [answer]
      exact kept
  · rw [scosProcess_small room]

end Commands

section Runs
variable {card : Card} {sw : Sw} {events : List CardEvent}

theorem responses_append (card : Card) (first second : List CardEvent) :
    responses card (first ++ second) = responses card first ++ responses (run card first) second := by
  induction first generalizing card with
  | nil => rfl
  | cons event rest ih =>
    cases event with
    | apdu cmd cap => simpa [responses, run] using ih _
    | reset => exact ih _
    | init => exact ih _
    | powerCycle => exact ih _

/-- Commands alone leave a dead card as it is, and all get its one answer. -/
theorem run_dead (dead : deadWord card.kernel.lifecycle = some sw) (warm : ∀ event ∈ events, Warm event)
    (noReset : CardEvent.reset ∉ events) :
    run card events = card ∧ ∀ rsp ∈ responses card events, rsp = [sw1 sw, sw2 sw] := by
  induction events with
  | nil => exact ⟨rfl, by simp [responses]⟩
  | cons event rest ih =>
    obtain ⟨here, later⟩ := List.forall_mem_cons.mp warm
    obtain ⟨same, silent⟩ := ih later (List.not_mem_of_not_mem_cons noReset)
    cases event with
    | apdu cmd cap =>
      have answer := scosProcess_dead dead here cmd
      have unchanged : step card (.apdu cmd cap) = card := by rw [step, answer]
      refine ⟨?_, ?_⟩
      · rw [run, List.foldl_cons, unchanged]
        exact same
      · rw [responses, unchanged, answer]
        simpa using silent
    | reset => exact absurd List.mem_cons_self noReset
    | init => exact here.elim
    | powerCycle => exact here.elim

/-- Once reset, a card stays operational. -/
theorem run_operational (warm : ∀ event ∈ events, Warm event)
    (alive : card.kernel.lifecycle = .operational ∨ CardEvent.reset ∈ events) :
    (run card events).kernel.lifecycle = .operational := by
  induction events generalizing card with
  | nil => simpa [run] using alive
  | cons event rest ih =>
    obtain ⟨here, later⟩ := List.forall_mem_cons.mp warm
    refine ih later ?_
    cases event with
    | apdu cmd cap =>
      rcases alive with alive | resets
      · exact .inl ((scosProcess_lifecycle cmd cap card).trans alive)
      · exact .inr (by simpa using resets)
    | reset => exact .inl rfl
    | init => exact here.elim
    | powerCycle => exact here.elim

private theorem operational_answers_empty (alive : card.kernel.lifecycle = .operational) :
    (scosProcess (some []) 2 card).2.1 = [0x67, 0x00] := by
  unfold scosProcess
  rw [alive]
  rfl

/-- A card that did not mount, or was terminated, answers every command with its one
status word and keeps its memories while it is not reset; and it answers a further command
so exactly if it was not. -/
theorem dead_card_stays_dead_iff_never_reset (dead : deadWord card.kernel.lifecycle = some sw)
    (warm : ∀ event ∈ events, Warm event) :
    (CardEvent.reset ∉ events → (∀ rsp ∈ responses card events, rsp = [sw1 sw, sw2 sw]) ∧
      (run card events).store.hal.nvm = card.store.hal.nvm) ∧
    ((∀ cmd cap, 2 ≤ cap →
      (∀ rsp ∈ responses card (events ++ [.apdu cmd cap]), rsp = [sw1 sw, sw2 sw]) ∧
        (run card (events ++ [.apdu cmd cap])).store.hal.nvm = card.store.hal.nvm) ↔
      CardEvent.reset ∉ events) := by
  refine ⟨fun noReset => ?_, ?_, ?_⟩
  · obtain ⟨same, silent⟩ := run_dead dead warm noReset
    exact ⟨silent, by rw [same]⟩
  · intro silent resets
    have answers := (silent (some []) 2 (by decide)).1 [0x67, 0x00]
    rw [responses_append, List.mem_append] at answers
    have word := answers (.inr ?_)
    · unfold deadWord at dead
      split at dead
      all_goals cases dead
      all_goals exact absurd word (by decide)
    · rw [responses, operational_answers_empty (run_operational warm (.inr resets))]
      exact List.mem_cons_self
  · intro noReset cmd cap room
    have warm' : ∀ event ∈ events ++ [.apdu cmd cap], Warm event := by
      intro event member
      rcases List.mem_append.mp member with old | new
      · exact warm event old
      · rw [List.mem_singleton.mp new]
        exact room
    obtain ⟨same, silent⟩ := run_dead dead warm' (by simpa using noReset)
    exact ⟨silent, by rw [same]⟩

/-- A terminated card is silent as long as it is not reset, and not after it was. -/
theorem dead_card_stays_dead_iff_never_reset_terminated :
    let card : Card := ⟨⟨.terminated, 0, ⟨0, 0⟩⟩, (blankCard 656 112).store⟩
    (∀ rsp ∈ responses card [.apdu none 2, .apdu (some [0x00, 0xA4, 0x00, 0x00]) 258], rsp = [0x69, 0x85]) ∧
      ((∀ cmd cap, 2 ≤ cap →
        (∀ rsp ∈ responses card ([.apdu none 2, .reset] ++ [.apdu cmd cap]), rsp = [0x69, 0x85]) ∧
          (run card ([.apdu none 2, .reset] ++ [.apdu cmd cap])).store.hal.nvm = card.store.hal.nvm) ↔
        CardEvent.reset ∉ [CardEvent.apdu none 2, .reset]) := by
  intro card
  have dead : deadWord card.kernel.lifecycle = some swConditionsNotSatisfied := rfl
  have warm : ∀ event ∈ [CardEvent.apdu none 2, .reset], Warm event :=
    List.forall_mem_cons.mpr ⟨(by decide : (2 : UInt16) ≤ 2), List.forall_mem_singleton.mpr trivial⟩
  have warm' : ∀ event ∈ [CardEvent.apdu none 2, .apdu (some [0x00, 0xA4, 0x00, 0x00]) 258], Warm event :=
    List.forall_mem_cons.mpr
      ⟨(by decide : (2 : UInt16) ≤ 2), List.forall_mem_singleton.mpr (by decide : (2 : UInt16) ≤ 258)⟩
  exact ⟨((dead_card_stays_dead_iff_never_reset dead warm').1 (by decide)).1,
    (dead_card_stays_dead_iff_never_reset dead warm).2⟩

/-- A personalised chip whose master file descriptor lost its first byte. -/
def damagedMf : Card :=
  let card := run (blankCard 656 112) [.init]
  { card with store := { card.store with hal := { card.store.hal with
      nvm := card.store.hal.nvm.write .eeprom 16 [0x00] } } }

/-- After one warm reset a card that did not mount accepts UPDATE BINARY. -/
theorem reset_revives_unmounted_card :
    (scosInit damagedMf).1 = .state ∧ (scosInit damagedMf).2.kernel.lifecycle = .fsError ∧
      responses (scosInit damagedMf).2
        [.apdu (some [0x00, 0xD6, 0x81, 0x00, 0x01, 0xAB]) 258, .reset,
          .apdu (some [0x00, 0xD6, 0x81, 0x00, 0x01, 0xAB]) 258] = [[0x65, 0x81], [0x90, 0x00]] ∧
      (scosInit damagedMf).2.store.hal.nvm.flash.byte 0 = 0xFF ∧
      (run (scosInit damagedMf).2
        [.reset, .apdu (some [0x00, 0xD6, 0x81, 0x00, 0x01, 0xAB]) 258]).store.hal.nvm.flash.byte 0 = 0xAB := by
  decide +kernel

end Runs

end CardOs.LifecycleProofs
