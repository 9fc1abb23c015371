import CardOs.CardSafety

/-! What the files of a card are for: each one is an array of bytes of its own,
erased when it is created. An `Archive` keeps these arrays by observing a run
from outside: which slots hold a file before and after an event, which commands
the card accepted and which EF they addressed. It never looks at FLASH. -/
namespace CardOs
open CardOs.Apdu CardOs.FsTypes CardOs.FsStore CardOs.Fs CardOs.FileCommands CardOs.Kernel CardOs.CommandProofs
open CardOs.CardSafety

/-- A file over its whole life. Slots are reused, so a file is known by its slot
and by the event that created it. -/
structure FileId where
  slot : UInt16
  born : Nat
  deriving DecidableEq, Repr

structure Archive where
  /-- How many events have been observed. -/
  clock : Nat
  /-- The event that created the file now in a slot. -/
  born : UInt16 → Nat
  /-- The EF the last accepted SELECT chose, while it exists. -/
  current : Option FileId
  bytes : FileId → Nat → UInt8

namespace Archive

def empty : Archive := ⟨0, fun _ => 0, none, fun _ _ => 0xFF⟩

def idOf (a : Archive) (slot : UInt16) : FileId := ⟨slot, a.born slot⟩

/-- The EF of the current DF that has the given short identifier. -/
def shortEf (card : Card) (sfi : UInt8) : Option UInt16 :=
  ((List.range fsMaxFiles.toNat).map UInt16.ofNat).find? fun i =>
    (fileAt card.store i).any fun d => d.parent = card.kernel.sel.curDf && fsIsEf d && d.sfi = sfi

/-- The file and the position in it that P1 and P2 address. -/
def addressed (a : Archive) (card : Card) (p1 p2 : UInt8) : Option (FileId × Nat) :=
  if p1 &&& 0x80 ≠ 0 then (shortEf card (p1 &&& 0x1F)).map fun i => (a.idOf i, p2.toNat)
  else a.current.map fun id => (id, p1.toNat * 256 + p2.toNat)

/-- A block of data laid over an array. -/
def overlay (array : Nat → UInt8) (offset : Nat) (data : List UInt8) : Nat → UInt8 := fun k =>
  if offset ≤ k ∧ k < offset + data.length then data.getD (k - offset) 0 else array k

/-- The response reports `9000`. -/
def accepted (rsp : List UInt8) : Bool := rsp.drop (rsp.length - 2) = [0x90, 0x00]

/-- Byte `k` of a command. -/
def byteOf (cmd : Option (List UInt8)) (k : Nat) : UInt8 := (cmd.getD []).getD k 0

/-- The data field of a command: Lc bytes after the header. -/
def dataOf (cmd : Option (List UInt8)) : List UInt8 := ((cmd.getD []).drop 5).take (byteOf cmd 4).toNat

/-- The EF a card has selected. -/
def selectedFile (a : Archive) (card : Card) : Option FileId :=
  if card.kernel.sel.curEf = fsInvalidIndex then none else some (a.idOf card.kernel.sel.curEf)

/-- A slot that was free and is taken now holds a new file. -/
def births (a : Archive) (before after : Store) : UInt16 → Nat := fun i =>
  if (fileAt before i).isNone ∧ (fileAt after i).isSome then a.clock else a.born i

/-- The chosen EF after an event: SELECT chooses anew, a file that is gone is no
longer chosen, and a reset of any kind forgets the choice. -/
def chosen (a : Archive) (card : Card) : CardEvent → Option FileId
  | .apdu cmd cap =>
    let after := step card (.apdu cmd cap)
    if insOf cmd = insSelect ∧ accepted (scosProcess cmd cap card).2.1 then a.selectedFile after
    else a.current.filter fun id => (fileAt after.store id.slot).isSome
  | .reset | .init | .powerCycle => none

/-- The arrays after an event: only an accepted UPDATE BINARY writes. -/
def written (a : Archive) (card : Card) : CardEvent → FileId → Nat → UInt8
  | .apdu cmd cap =>
    if insOf cmd = insUpdateBinary ∧ accepted (scosProcess cmd cap card).2.1 then
      match a.addressed card (byteOf cmd 2) (byteOf cmd 3) with
      | some (id, offset) => Function.update a.bytes id (overlay (a.bytes id) offset (dataOf cmd))
      | none => a.bytes
    else a.bytes
  | .reset | .init | .powerCycle => a.bytes

def observe (a : Archive) (card : Card) (event : CardEvent) : Archive where
  clock := a.clock + 1
  born := a.births card.store (step card event).store
  current := a.chosen card event
  bytes := a.written card event

/-- A run of a card, observed from the first event on. -/
def history (card : Card) (events : List CardEvent) : Archive × Card :=
  events.foldl (fun x event => (x.1.observe x.2 event, step x.2 event)) (empty, card)

end Archive
end CardOs
