import CardOs.FileCommands

/-! `src/kernel/kernel.c`: cold boot, warm reset and the execution of one command
APDU, and whole runs of a card made of them. -/
namespace CardOs.Kernel
open CardOs.Library CardOs.Apdu CardOs.FsTypes CardOs.FsStore CardOs.Fs CardOs.HalNvm CardOs.FileCommands

inductive ScosStatus where
  | ok
  | param
  | state
  | hal
  deriving DecidableEq, Repr

/-- The card between two calls: the kernel's RAM and the filesystem with the
device under it. -/
structure Card where
  kernel : ScosKernel
  store : Store

/-- The kernel record after `os_memset(k, 0, sizeof(*k))`. -/
def ScosKernel.zeroed : ScosKernel := ⟨.noPower, 0, ⟨0, 0⟩⟩

def scosInit (card : Card) : ScosStatus × Card :=
  match fsInit card.store with
  | (.error _, store) => (.state, ⟨{ ScosKernel.zeroed with lifecycle := .fsError }, store⟩)
  | (.ok (), store) =>
    (.ok, ⟨{ ScosKernel.zeroed with lifecycle := .operational, sel := fsSelectionReset }, store⟩)

/-- Volatile state is dropped except the reset counter; the lifecycle becomes
operational whatever it was. -/
def scosReset (card : Card) : Card :=
  { card with kernel :=
      { lifecycle := .operational, resetCount := card.kernel.resetCount + 1, sel := fsSelectionReset } }

/-- The status word a handler computation ended with. -/
def endedWith : Except Sw Sw → Sw
  | .ok sw => sw
  | .error sw => sw

/-- Parse, check the class and dispatch, on an operational card. -/
def execute (cmd : Option (List UInt8)) (rspCap : UInt16) (card : Card) : List UInt8 × Card :=
  let r := apduRspInit rspCap
  match apduParse cmd with
  | (.ok, c) =>
    if apduCheckCla c.cla ≠ .ok then (apduRspFinish r (apduClaStatusSw (apduCheckCla c.cla)), card)
    else match scosDispatch c ⟨card.kernel, card.store, r⟩ with
      | (result, t) => (apduRspFinish t.rsp (endedWith result), ⟨t.kernel, t.store⟩)
  | (status, _) => (apduRspFinish r (apduParseStatusSw status), card)

/-- One command APDU: the status, the response bytes and the card after it. -/
def scosProcess (cmd : Option (List UInt8)) (rspCap : UInt16) (card : Card) :
    ScosStatus × List UInt8 × Card :=
  let r := apduRspInit rspCap
  if rspCap < 2 then (.param, [], card)
  else match card.kernel.lifecycle with
  | .terminated => (.ok, apduRspFinish r swConditionsNotSatisfied, card)
  | .fsError => (.ok, apduRspFinish r swMemoryFailure, card)
  | .noPower | .initialising => (.ok, apduRspFinish r swConditionsNotSatisfied, card)
  | .operational => (.ok, execute cmd rspCap card)

/-- What happens to a card from outside. -/
inductive CardEvent where
  | apdu (cmd : Option (List UInt8)) (rspCap : UInt16)
  | reset
  | init
  | powerCycle
  deriving DecidableEq, Repr

/-- A power cycle loses all RAM, the superblock mirror included, and boots. -/
def powerUp (card : Card) : ScosStatus × Card :=
  scosInit ⟨ScosKernel.zeroed, { card.store with sb := ⟨false, 0, 0, 0⟩ }⟩

def step (card : Card) : CardEvent → Card
  | .apdu cmd rspCap => (scosProcess cmd rspCap card).2.2
  | .reset => scosReset card
  | .init => (scosInit card).2
  | .powerCycle => (powerUp card).2

def run (card : Card) (events : List CardEvent) : Card := events.foldl step card

/-- A factory-blank chip before power: erased memories of the given sizes. -/
def blankCard (eepromSize flashSize : UInt32) : Card :=
  { kernel := ScosKernel.zeroed
    store :=
      { hal :=
          { nvm := ⟨Region.uniform eepromSize 0xFF, Region.uniform flashSize 0xFF⟩
            readFaults := [], writeFaults := [], writes := 0, rangeErrors := 0 }
        sb := ⟨false, 0, 0, 0⟩ } }

end CardOs.Kernel
