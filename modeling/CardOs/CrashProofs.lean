import CardOs.CardSafety
import CardOs.RemountProofs
import CardOs.RetryProofs

/-! Power that fails in the middle of a command. What the device holds between two
operations of a command is the old card, the new card, or the old card with the
superblock of an allocation whose file is not there yet: the next boot finds the
files as they were before the command or as they are after it, and the card goes on
from there. -/
namespace CardOs.CrashProofs
open CardOs.Library CardOs.Library.Action CardOs.FsTypes CardOs.HalNvm CardOs.FsStore CardOs.FsStoreProofs CardOs.Fs
open CardOs.FileTree CardOs.FsProofs CardOs.FsInitProofs CardOs.Kernel CardOs.CardProofs CardOs.CardSafety
open CardOs.StorageProofs CardOs.StoreChanges CardOs.Transactions CardOs.RetryProofs
open CardOs.RemountProofs (createOneByte)

/-- Power comes back after a loss, and the card boots. -/
def restart (card : Card) : ScosStatus × Card := scosInit ⟨ScosKernel.zeroed, recovered card.store⟩

/-- The device carries out `k` operations and then loses power. -/
def cutAfter (k : Nat) (later : List WriteFault) : List WriteFault := List.replicate k .none ++ .lost :: later

/-- The card at the moment power fails, `k` device operations into a command. -/
def torn (cmd : Option (List UInt8)) (cap : UInt16) (k : Nat) (later : List WriteFault) (card : Card) : Card :=
  (scosProcess cmd cap (cardPlan (cutAfter k later) card)).2.2

/-- What happens to a card in the field: ordinary use, and commands that power fails in. -/
inductive LifeEvent where
  | used (event : CardEvent)
  | cut (cmd : Option (List UInt8)) (cap : UInt16) (k : Nat) (later : List WriteFault)

def lifeStep (card : Card) : LifeEvent → Card
  | .used event => step card event
  | .cut cmd cap k later => (restart (torn cmd cap k later card)).2

def life (card : Card) (events : List LifeEvent) : Card := events.foldl lifeStep card

/-- The bytes of the EF in a slot. -/
def contentAt (s : Store) (i : UInt16) : Option (List UInt8) :=
  match fileAt s i with
  | none => none
  | some d => if fsIsEf d then some (s.hal.nvm.flash.read d.dataOffset.toNat d.size.toNat) else none

/-- The same live descriptors and the same contents. The stored end of the allocated
data may be further up. -/
structure SameFiles (before after : Store) : Prop where
  files : ∀ i, fileAt after i = fileAt before i
  contents : ∀ i, contentAt after i = contentAt before i
  top : storedTop before.hal.nvm ≤ storedTop after.hal.nvm

/-- A card that has just booted from memories that hold the tree. -/
structure Remounted (t : FileTree) (nvm : Nvm) (card : Card) : Prop where
  live : Live t card
  reliable : Reliable card
  chosen : Chosen t card
  sb : card.store.sb = mirrorOf t.top
  nvm : card.store.hal.nvm = nvm

section Cuts
variable {t t' : FileTree} {card : Card} {s s' : Store}

/-- What the first operations of a change leave: the old memory, the new one, or the
superblock of an allocation and no more. -/
theorem change_cut (change : Change) (k : Nat) (nvm : Nvm) :
    applyAll (change.requests.take k) nvm = nvm ∨
      applyAll (change.requests.take k) nvm = applyAll change.requests nvm ∨
      ∃ top slot d, change = .allocate top slot d ∧
        applyAll (change.requests.take k) nvm = nvm.write .eeprom 0 (sbBytes top) := by
  cases change with
  | nothing => exact .inl (by simp [Change.requests])
  | allocate top slot d =>
    rcases k with _ | _ | _ | k
    · exact .inl rfl
    · exact .inr (.inr ⟨top, slot, d, rfl, rfl⟩)
    · exact .inr (.inr ⟨top, slot, d, rfl, rfl⟩)
    · cases k <;> exact .inr (.inl (by simp [Change.requests, Request.apply]))
  | _ =>
    -- one write and its barrier: the barrier changes nothing
    rcases k with _ | k
    · exact .inl rfl
    · cases k <;> exact .inr (.inl (by simp [Change.requests, Request.apply]))

theorem ready_sameFiles (before : Ready s t) (after : Ready s' t') (table : t'.table = t.table)
    (flash : s'.hal.nvm.flash = s.hal.nvm.flash) (top : t.top ≤ t'.top) : SameFiles s s' where
  files i := by rw [fileAt_ready after, fileAt_ready before, table]
  contents i := by rw [contentAt, contentAt, fileAt_ready after, fileAt_ready before, table, flash]
  top := by
    rw [storedTop_ready before, storedTop_ready after]
    exact top

/-- Memory that holds a tree boots as that tree. -/
theorem restart_mounts (holds : Holds card.store.hal.nvm t.table t.top) :
    (restart card).1 = .ok ∧ Remounted t card.store.hal.nvm (restart card).2 := by
  rw [restart, @scosInit_mounts t ⟨ScosKernel.zeroed, recovered card.store⟩ rfl holds]
  have ready : Ready { recovered card.store with sb := mirrorOf t.top } t := mounted_mirrorOf rfl holds
  exact ⟨rfl, ⟨ready, (reset_selected t).1⟩, rfl, fun _ => (reset_selected t).2, rfl, rfl⟩

theorem live_fits (live : Live t card) : Fits card.store := mapped_fits live.ready.mapped

/-- At the cut the first `k` operations of the command have been carried out. -/
theorem torn_nvm (live : Live t card) (reliable : Reliable card) (cmd : Option (List UInt8)) (cap : UInt16) (k : Nat)
    (later : List WriteFault) :
    (torn cmd cap k later card).store.hal.nvm =
      applyAll ((processChange cmd cap card).requests.take k) card.store.hal.nvm := by
  have fits := live_fits live
  obtain ⟨store, peeked, _, variants⟩ := scosProcess_transacts fits cmd cap
  obtain rfl := (peeked.undone fits).2 ⟨live.ready.reads, reliable⟩
  rw [torn, variants]
  exact perform_cut
    (s := withPlan (cutAfter k later) { card.store with sb := (processChange cmd cap card).mirror card.store.sb })
    (processChange_inside fits cmd cap) rfl rfl

/-- Whatever the cut left, the next boot finds the files of before or of after. -/
theorem cut_atomic (live : Live t card) (reliable : Reliable card) (cmd : Option (List UInt8)) (cap : UInt16) (k : Nat)
    (later : List WriteFault) :
    let rebooted := restart (torn cmd cap k later card)
    rebooted.1 = .ok ∧ (∃ t', Remounted t' (torn cmd cap k later card).store.hal.nvm rebooted.2) ∧
      (SameFiles card.store rebooted.2.store ∨ SameFiles (scosProcess cmd cap card).2.2.store rebooted.2.store) := by
  intro rebooted
  have cut := torn_nvm live reliable cmd cap k later
  obtain ⟨_, complete, _⟩ := scosProcess_calm (live_fits live) ⟨live.ready.reads, reliable⟩ cmd cap
  obtain ⟨t₁, live₁, _⟩ := step_live live (.apdu cmd cap)
  have ready₁ : Ready (scosProcess cmd cap card).2.2.store t₁ := live₁.ready
  rcases change_cut (processChange cmd cap card) k card.store.hal.nvm with
    old | all | ⟨top, slot, d, allocates, reserved⟩
  · rw [old] at cut
    obtain ⟨ok, booted⟩ := restart_mounts (cut ▸ live.ready.holds)
    exact ⟨ok, ⟨t, booted⟩,
      .inl (ready_sameFiles live.ready booted.live.ready rfl (by rw [booted.nvm, cut]) (UInt32.le_refl _))⟩
  · rw [all, ← complete] at cut
    obtain ⟨ok, booted⟩ := restart_mounts (cut ▸ ready₁.holds)
    exact ⟨ok, ⟨t₁, booted⟩,
      .inr (ready_sameFiles ready₁ booted.live.ready rfl (by rw [booted.nvm, cut]) (UInt32.le_refl _))⟩
  · -- the space of the new file is taken, and no file is in it
    obtain ⟨above, inside⟩ := processChange_top allocates
    have up : t.top ≤ top := UInt32.le_trans live.ready.mirror above
    rw [reserved] at cut
    have holds : Holds (torn cmd cap k later card).store.hal.nvm (t.reserve up).table (t.reserve up).top :=
      cut ▸ live.ready.holds.write_top inside
    obtain ⟨ok, booted⟩ := restart_mounts holds
    exact ⟨ok, ⟨t.reserve up, booted⟩,
      .inl (ready_sameFiles live.ready booted.live.ready rfl (by rw [booted.nvm, cut, Nvm.write_eeprom_flash]) up)⟩

end Cuts

/-- A card of the field: not formatted yet, or with a tree and a working device. -/
inductive Standing (card : Card) : Prop
  | blank (unformatted : Unformatted card.store) (unmounted : card.store.sb.mounted = false)
  | live (t : FileTree) (live : Live t card) (reliable : Reliable card) (chosen : Chosen t card)

section Lives
variable {card : Card}

/-- A boot of an unformatted chip fails and leaves it so, or gives it a tree. -/
theorem scosInit_standing (unformatted : Unformatted card.store) : Standing (scosInit card).2 := by
  rcases scosInit_unformatted unformatted with
    ⟨_, store, unformatted', unmounted, _, failed⟩ | ⟨_, status, card', t, ran, live, reliable, _, _, kernel⟩
  · rw [failed]
    exact .blank unformatted' unmounted
  · rw [ran]
    refine .live t live reliable fun active => ?_
    -- a boot that fails leaves a card that serves no command
    rw [kernel] at active ⊢
    split at active
    · rename_i ok
      rw [if_pos ok]
      exact (reset_selected t).2
    · cases active

/-- A command to an unformatted chip changes nothing, also when power is to fail. -/
theorem unmounted_unchanged (unmounted : card.store.sb.mounted = false) (cmd : Option (List UInt8)) (cap : UInt16) :
    (scosProcess cmd cap card).2.2 = card := by
  by_cases room : 2 ≤ cap
  · obtain ⟨sw, _, answer⟩ := scosProcess_blank unmounted room cmd
    rw [answer]
  · rw [scosProcess_small room]

theorem step_standing (standing : Standing card) (event : CardEvent) : Standing (step card event) := by
  cases standing with
  | live t live reliable chosen =>
    obtain ⟨t', live', kept⟩ := step_live live event
    obtain ⟨reliable', _, keeps⟩ := kept reliable
    exact .live t' live' reliable' (keeps chosen)
  | blank unformatted unmounted =>
    cases event with
    | apdu cmd cap =>
      rw [step, unmounted_unchanged unmounted]
      exact .blank unformatted unmounted
    | reset => exact .blank unformatted unmounted
    | init => exact scosInit_standing unformatted
    | powerCycle => exact scosInit_standing ⟨unformatted.reads, unformatted.reliable, unformatted.noMagic⟩

theorem lifeStep_standing (standing : Standing card) (event : LifeEvent) : Standing (lifeStep card event) := by
  cases event with
  | used event => exact step_standing standing event
  | cut cmd cap k later =>
    cases standing with
    | live t live reliable chosen =>
      obtain ⟨_, ⟨t', booted⟩, _⟩ := cut_atomic live reliable cmd cap k later
      exact .live t' booted.live booted.reliable booted.chosen
    | blank unformatted unmounted =>
      rw [lifeStep, torn, @unmounted_unchanged (cardPlan (cutAfter k later) card) unmounted]
      exact scosInit_standing ⟨rfl, rfl, unformatted.noMagic⟩

theorem life_standing (standing : Standing card) (events : List LifeEvent) : Standing (life card events) := by
  induction events generalizing card with
  | nil => exact standing
  | cons event rest ih => exact ih (lifeStep_standing standing event)

end Lives

/-- A card that booted: it holds the tree, its device works, and its selection is on usable files. -/
structure Serving (t : FileTree) (card : Card) : Prop where
  live : Live t card
  reliable : Reliable card
  ef : EfSelected t card.kernel.sel

section Serving
variable {card : Card} {t : FileTree}

theorem scosInit_operational (ok : (scosInit card).1 = .ok) : (scosInit card).2.kernel.lifecycle = .operational := by
  unfold scosInit at ok ⊢
  split at ok
  · cases ok
  · rfl

theorem lifeStep_serving (serving : Serving t card) (event : LifeEvent) : ∃ t', Serving t' (lifeStep card event) := by
  cases event with
  | used event =>
    obtain ⟨t', live, kept⟩ := step_live serving.live event
    obtain ⟨reliable, ef, _⟩ := kept serving.reliable
    exact ⟨t', live, reliable, ef serving.ef⟩
  | cut cmd cap k later =>
    obtain ⟨ok, ⟨t', booted⟩, _⟩ := cut_atomic serving.live serving.reliable cmd cap k later
    exact ⟨t', booted.live, booted.reliable, booted.chosen (scosInit_operational ok)⟩

theorem life_serving (serving : Serving t card) (events : List LifeEvent) : ∃ t', Serving t' (life card events) := by
  induction events generalizing card t with
  | nil => exact ⟨t, serving⟩
  | cons event rest ih =>
    obtain ⟨t', serving'⟩ := lifeStep_serving serving event
    exact ih serving'

/-- Whatever happened to a card since its first boot, it serves. -/
theorem booted_serving {eepromSize flashSize : UInt32} (booted : scosInit (blankCard eepromSize flashSize) = (.ok, card))
    (events : List LifeEvent) : ∃ t, Serving t (life card events) := by
  obtain ⟨t, live, reliable, ef⟩ := blank_boots booted
  exact life_serving ⟨live, reliable, ef⟩ events

end Serving

/-- Power may fail between any two device operations of any command, again and again:
the next boot succeeds and finds the files of before the command or of after it. Only
a card without a file system does not boot so, and there a command does nothing. -/
theorem power_loss_is_atomic (eepromSize flashSize : UInt32) (events : List LifeEvent) (cmd : Option (List UInt8))
    (cap : UInt16) (k : Nat) (later : List WriteFault) :
    let card := life (blankCard eepromSize flashSize) events
    let done := (scosProcess cmd cap card).2.2
    let rebooted := restart (torn cmd cap k later card)
    (card.store.sb.mounted = false ∧ done = card) ∨
      rebooted.1 = .ok ∧ (SameFiles card.store rebooted.2.store ∨ SameFiles done.store rebooted.2.store) := by
  intro card done rebooted
  have standing : Standing card := life_standing (.blank (blank_unformatted eepromSize flashSize) rfl) events
  cases standing with
  | blank unformatted unmounted => exact .inl ⟨unmounted, unmounted_unchanged unmounted cmd cap⟩
  | live t live reliable chosen =>
    obtain ⟨ok, _, same⟩ := cut_atomic live reliable cmd cap k later
    exact .inr ⟨ok, same⟩

/-- A personalised card with 144 bytes of FLASH left. -/
def personalised : Card := life (blankCard 1024 256) [.used .powerCycle]

/-- A creation cut between the superblock and the descriptor: the card boots with the space of the
file taken and no file in it. -/
theorem power_loss_is_atomic_with_space_taken :
    storedTop personalised.store.hal.nvm = 112 ∧
      storedTop (restart (torn createOneByte 258 1 [] personalised)).2.store.hal.nvm = 113 ∧
      (restart (torn createOneByte 258 1 [] personalised)).1 = .ok ∧
      (SameFiles personalised.store (restart (torn createOneByte 258 1 [] personalised)).2.store ∨
        SameFiles (scosProcess createOneByte 258 personalised).2.2.store
          (restart (torn createOneByte 258 1 [] personalised)).2.store) := by
  have mounted : personalised.store.sb.mounted = true := by decide +kernel
  have atomic := power_loss_is_atomic 1024 256 [.used .powerCycle] createOneByte 258 1 []
  refine ⟨by decide +kernel, by decide +kernel, ?_⟩
  unfold personalised at mounted ⊢
  refine atomic.resolve_left ?_
  rintro ⟨unmounted, _⟩
  exact Bool.noConfusion (mounted.symm.trans unmounted)

end CardOs.CrashProofs
