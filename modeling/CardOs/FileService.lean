import CardOs.Kernel

/-! What the card is for. A volume is a collection of files under paths of identifiers:
it has no slots, no parent links and no places in FLASH. A service is a volume with a
cursor on it; it takes requests and answers them. -/
namespace CardOs.FileService
open CardOs.Library.BigEndian CardOs.Apdu CardOs.FsTypes CardOs.Fs CardOs.FileCommands CardOs.Kernel

/-- The identifiers from the master file down; the master file itself is at `[]`. -/
abbrev Path := List UInt16

/-- A file as it shows from outside. A DF has an empty body. -/
structure Node where
  kind : FsFileType
  lifecycle : FsLifecycle
  sfi : UInt8
  body : List UInt8
  deriving DecidableEq, Repr

def Node.isDf (n : Node) : Bool := n.kind = .df || n.kind = .mf

def Node.isEf (n : Node) : Bool := n.kind = .efTransparent

def Node.usable (n : Node) : Bool := n.lifecycle = fsLcActivated

/-- The files, how many more there may be, and the bytes left for their bodies. -/
structure Volume where
  files : Path → Option Node
  slots : Nat
  room : Nat

/-- The current DF, and the current EF in it if there is one. -/
structure Cursor where
  df : Path
  ef : Option UInt16
  deriving DecidableEq, Repr

def Cursor.root : Cursor := ⟨[], none⟩

def Cursor.path (c : Cursor) : Path := c.df ++ c.ef.toList

/-- The cursor that a file becomes current with. -/
def Cursor.onto (p : Path) (n : Node) : Cursor := if n.isDf then ⟨p, none⟩ else ⟨p.dropLast, p.getLast?⟩

def idAt (p : Path) : UInt16 := p.getLast?.getD fsFidMf

/-- What SELECT names a file by. -/
inductive Choice where
  | byId (id : UInt16)
  | child (id : UInt16) (wantDf : Bool)
  | parent
  | byPath (ids : List UInt16) (fromMf : Bool)
  deriving DecidableEq, Repr

/-- The description SELECT is to answer with: none, file management data, or a template
under a tag, of which `expected` bytes are asked for. -/
inductive Form where
  | silent
  | management
  | template (tag : UInt8) (expected : Option Nat)
  deriving DecidableEq, Repr

/-- The EF that a READ or UPDATE BINARY addresses, and the offset in it. -/
inductive Place where
  | short (sfi : UInt8) (offset : Nat)
  | current (offset : Nat)
  deriving DecidableEq, Repr

inductive Request where
  | select (choice : Choice) (form : Form)
  | read (place : Place) (amount : Nat)
  | update (place : Place) (data : List UInt8)
  | create (id : UInt16) (n : Node)
  | delete (id : UInt16)
  | refuse (sw : Sw)
  deriving DecidableEq, Repr

namespace Volume

def find (v : Volume) (p : Path) : Except FsError Node :=
  match v.files p with
  | none => .error .notFound
  | some n => .ok n

/-- A file that is not activated may not be used. -/
def usable (v : Volume) (p : Path) : Except FsError Node := do
  let n ← v.find p
  if n.usable then .ok n else .error .notUsable

def go (v : Volume) (p : Path) : Except FsError Cursor := do
  let n ← v.usable p
  .ok (.onto p n)

/-- The file an identifier means: the master file under its own identifier, else a
child of the DF, else the DF, else its parent. -/
def meant (v : Volume) (df : Path) (id : UInt16) : Option Path :=
  if id = fsFidMf then some []
  else if (v.files (df ++ [id])).isSome then some (df ++ [id])
  else if idAt df = id then some df
  else if df ≠ [] ∧ idAt df.dropLast = id then some df.dropLast
  else none

/-- A path is walked down from child to child. Its first component may also name the DF
the walk starts on, which leaves the cursor where it is. -/
def walk (v : Volume) (c : Cursor) (first : Bool) : List UInt16 → Except FsError Cursor
  | [] => .ok c
  | id :: rest =>
    if first ∧ idAt c.df = id then v.walk c false rest
    else do
      let n ← v.usable (c.df ++ [id])
      if rest ≠ [] ∧ !n.isDf then .error .wrongType
      else v.walk (.onto (c.df ++ [id]) n) false rest

def choose (v : Volume) (c : Cursor) : Choice → Except FsError Cursor
  | .byId id =>
    match v.meant c.df id with
    | none => .error .notFound
    | some p => v.go p
  | .child id wantDf => do
    let n ← v.usable (c.df ++ [id])
    if wantDf ≠ n.isDf then .error .wrongType else .ok (.onto (c.df ++ [id]) n)
  | .parent => if c.df = [] then .error .notFound else v.go c.df.dropLast
  | .byPath ids fromMf => v.walk (if fromMf then .root else c) true ids

/-- The EF of a DF under this short identifier. -/
def HasShort (v : Volume) (df : Path) (sfi : UInt8) (id : UInt16) : Prop :=
  ∃ n, v.files (df ++ [id]) = some n ∧ n.isEf = true ∧ n.sfi = sfi

/-- Something in the DF stands against a new file: its identifier is reserved or in use,
or its short identifier is. -/
def Clashes (v : Volume) (df : Path) (id : UInt16) (n : Node) : Prop :=
  fidIsReserved id = true ∨ v.files (df ++ [id]) ≠ none ∨ n.sfi ≠ fsNoSfi ∧ ∃ e, v.HasShort df n.sfi e

/-- There are files under this one. -/
def Occupied (v : Volume) (p : Path) : Prop := ∃ e, v.files (p ++ [e]) ≠ none

open Classical in
noncomputable def create (v : Volume) (df : Path) (id : UInt16) (n : Node) : Except FsError Volume :=
  if v.Clashes df id n then .error .exists
  else if v.slots = 0 ∨ v.room < n.body.length then .error .noSpace
  else .ok ⟨Function.update v.files (df ++ [id]) (some n), v.slots - 1, v.room - n.body.length⟩

open Classical in
/-- Only an empty DF may be deleted. The bytes of a deleted EF stay taken. -/
noncomputable def delete (v : Volume) (df : Path) (id : UInt16) : Except FsError Volume :=
  if id = fsFidMf then .error .notUsable
  else if (v.files (df ++ [id])).isNone then .error .notFound
  else if v.Occupied (df ++ [id]) then .error .notUsable
  else .ok { v with files := Function.update v.files (df ++ [id]) none, slots := v.slots + 1 }

end Volume

/-- The control parameters of a file: tag, length and value of each in turn. -/
def Node.template (n : Node) (id : UInt16) : List UInt8 :=
  List.flatten
    [[0x82, 0x01, if n.isEf then 0x01 else 0x38],
      [0x83, 0x02] ++ bytes16 id,
      if n.isEf then [0x80, 0x02] ++ bytes16 (UInt16.ofNat n.body.length) else [],
      [0x8A, 0x01, n.lifecycle],
      if n.isEf ∧ n.sfi ≠ fsNoSfi then [0x88, 0x01, n.sfi <<< 3] else []]

def Node.describe (n : Node) (id : UInt16) : Form → Except Sw (List UInt8)
  | .silent => .ok []
  | .management => .error swFuncNotSupported
  | .template _ none => .ok []
  | .template tag (some expected) =>
    let total := (n.template id).length + 2
    if expected < total then .error (swWrongLe (UInt16.ofNat total))
    else .ok ([tag, UInt8.ofNat (n.template id).length] ++ n.template id)

/-- A volume and the cursor on it. -/
structure Service where
  volume : Volume
  cursor : Cursor

structure Reply where
  data : List UInt8
  sw : Sw
  deriving DecidableEq, Repr

namespace Service

/-- The current DF has an EF under this short identifier. -/
def Shortens (s : Service) (sfi : UInt8) : Prop := ∃ id, s.volume.HasShort s.cursor.df sfi id

open Classical in
noncomputable def locate (s : Service) : Place → Except Sw (Path × Nat)
  | .short sfi offset =>
    if found : s.Shortens sfi then .ok (s.cursor.df ++ [found.choose], offset) else .error swFileNotFound
  | .current offset =>
    match s.cursor.ef with
    | none => .error swCommandNotAllowedNoEf
    | some id => .ok (s.cursor.df ++ [id], offset)

/-- The EF that is addressed, if it may be used. -/
noncomputable def target (s : Service) (place : Place) : Except Sw (Path × Nat × Node) := do
  let (p, offset) ← s.locate place
  match s.volume.usable p with
  | .error e => .error (fsErrorToSw e)
  | .ok n => .ok (p, offset, n)

/-- A request that is refused changes nothing. -/
def refused (s : Service) (sw : Sw) : Reply × Service := (⟨[], sw⟩, s)

/-- A file that was found becomes current, if it can be described as asked. -/
def present (s : Service) (c : Cursor) (form : Form) : Reply × Service :=
  match s.volume.files c.path with
  | none => s.refused swFileNotFound
  | some n =>
    match n.describe (idAt c.path) form with
    | .error sw => s.refused sw
    | .ok data => (⟨data, swOk⟩, { s with cursor := c })

def select (s : Service) (choice : Choice) (form : Form) : Reply × Service :=
  match s.volume.choose s.cursor choice with
  | .error e => s.refused (fsErrorToSw e)
  | .ok c => s.present c form

noncomputable def read (s : Service) (place : Place) (amount : Nat) : Reply × Service :=
  match s.target place with
  | .error sw => s.refused sw
  | .ok (_, offset, n) =>
    if offset > n.body.length then s.refused swWrongP1P2
    else
      let data := (n.body.drop offset).take amount
      (⟨data, if data.length < amount then swNvmUnchangedEof else swOk⟩, s)

noncomputable def update (s : Service) (place : Place) (data : List UInt8) : Reply × Service :=
  match s.target place with
  | .error sw => s.refused sw
  | .ok (p, offset, n) =>
    if offset + data.length > n.body.length then s.refused swWrongP1P2
    else
      let body := n.body.take offset ++ data ++ n.body.drop (offset + data.length)
      let files := Function.update s.volume.files p (some { n with body })
      (⟨[], swOk⟩, { s with volume := { s.volume with files } })

noncomputable def create (s : Service) (id : UInt16) (n : Node) : Reply × Service :=
  match s.volume.create s.cursor.df id n with
  | .error e => s.refused (fsErrorToSw e)
  | .ok volume => (⟨[], swOk⟩, { s with volume })

noncomputable def delete (s : Service) (id : UInt16) : Reply × Service :=
  match s.volume.delete s.cursor.df id with
  | .error e => s.refused (fsErrorToSw e)
  | .ok volume =>
    (⟨[], swOk⟩, ⟨volume, { s.cursor with ef := if s.cursor.ef = some id then none else s.cursor.ef }⟩)

noncomputable def serve (s : Service) : Request → Reply × Service
  | .refuse sw => s.refused sw
  | .select choice form => s.select choice form
  | .read place amount => s.read place amount
  | .update place data => s.update place data
  | .create id n => s.create id n
  | .delete id => s.delete id

end Service

/-! The requests that commands spell. -/

def formOf (cmd : ApduCommand) : Form :=
  if cmd.p2 &&& 0x0C = selRetNone then .silent
  else if cmd.p2 &&& 0x0C = selRetFmd then .management
  else .template (if cmd.p2 &&& 0x0C = selRetFcp then 0x62 else 0x6F) (if cmd.lePresent then some cmd.le.toNat else none)

def choiceOf (cmd : ApduCommand) : Except Sw Choice :=
  let data := cmd.data.getD []
  if cmd.p1 = 0x00 then
    if cmd.lc = 0 then .ok (.byId fsFidMf)
    else if cmd.lc = 2 then .ok (.byId (fidOf data))
    else .error swLcInconsistentP1P2
  else if cmd.p1 = 0x01 ∨ cmd.p1 = 0x02 then
    if cmd.lc = 2 then .ok (.child (fidOf data) (cmd.p1 = 0x01)) else .error swLcInconsistentP1P2
  else if cmd.p1 = 0x03 then if cmd.lc = 0 then .ok .parent else .error swLcInconsistentP1P2
  else if cmd.p1 = 0x08 ∨ cmd.p1 = 0x09 then
    if cmd.lc = 0 then .error swLcInconsistentP1P2
    else if cmd.lc % 2 ≠ 0 then .error swWrongData
    else if data.length / 2 > fsMaxDepth then .error swIncorrectP1P2
    else .ok (.byPath (pathIds data) (cmd.p1 = 0x08))
  else if cmd.p1 = 0x04 then .error swFuncNotSupported
  else .error swIncorrectP1P2

def placeOf (cmd : ApduCommand) : Except Sw Place :=
  if cmd.p1 &&& 0x80 ≠ 0 then
    if cmd.p1 &&& 0x60 ≠ 0 ∨ cmd.p1 &&& 0x1F = 0 ∨ cmd.p1 &&& 0x1F > 30 then .error swIncorrectP1P2
    else .ok (.short (cmd.p1 &&& 0x1F) cmd.p2.toNat)
  else .ok (.current (word16 cmd.p1 cmd.p2).toNat)

/-- The file a parsed template asks for; a new EF is erased. -/
def nodeFor (req : FsDescriptor) : Node :=
  ⟨req.type, req.lifecycle, req.sfi, if fsIsEf req then List.replicate req.size.toNat 0xFF else []⟩

def selectRequest (cmd : ApduCommand) : Request :=
  if cmd.p2 &&& 0xF0 ≠ 0 then .refuse swIncorrectP1P2
  else if cmd.p2 &&& 0x03 ≠ 0 then .refuse swFuncNotSupported
  else match choiceOf cmd with
    | .error sw => .refuse sw
    | .ok choice => .select choice (formOf cmd)

def readRequest (cmd : ApduCommand) : Request :=
  if cmd.lc ≠ 0 then .refuse swLcInconsistentP1P2
  else if !cmd.lePresent then .refuse swWrongLength
  else match placeOf cmd with
    | .error sw => .refuse sw
    | .ok place => .read place cmd.le.toNat

def updateRequest (cmd : ApduCommand) : Request :=
  if cmd.lc = 0 ∨ cmd.lePresent then .refuse swWrongLength
  else match placeOf cmd with
    | .error sw => .refuse sw
    | .ok place => .update place (cmd.data.getD [])

def createRequest (cmd : ApduCommand) : Request :=
  if cmd.p1 ≠ 0 ∨ cmd.p2 ≠ 0 then .refuse swIncorrectP1P2
  else if cmd.lc = 0 then .refuse swWrongLength
  else match parseFcp (cmd.data.getD []) cmd.lc with
    | .error sw => .refuse sw
    | .ok req => .create req.fileId (nodeFor req)

def deleteRequest (cmd : ApduCommand) : Request :=
  if cmd.p1 ≠ 0 ∨ cmd.p2 ≠ 0 then .refuse swIncorrectP1P2
  else if cmd.lc ≠ 2 then .refuse swWrongLength
  else .delete (fidOf (cmd.data.getD []))

def requestOf (cmd : ApduCommand) : Request :=
  if cmd.ins = insSelect then selectRequest cmd
  else if cmd.ins = insReadBinary then readRequest cmd
  else if cmd.ins = insUpdateBinary then updateRequest cmd
  else if cmd.ins = insCreateFile then createRequest cmd
  else if cmd.ins = insDeleteFile then deleteRequest cmd
  else .refuse swInsNotSupported

/-- The request of a command APDU: refused unless it is well formed and of a class that
is served. -/
def requestOfBytes (cmd : Option (List UInt8)) : Request :=
  match apduParse cmd with
  | (.ok, c) => if apduCheckCla c.cla ≠ .ok then .refuse (apduClaStatusSw (apduCheckCla c.cla)) else requestOf c
  | (status, _) => .refuse (apduParseStatusSw status)

namespace Service

/-- A reply in a response buffer. When it does not fit, its request has not happened. -/
def fitted (s : Service) (cap : UInt16) (out : Reply × Service) : List UInt8 × Service :=
  if out.1.data.length + 2 ≤ cap.toNat then (out.1.data ++ [sw1 out.1.sw, sw2 out.1.sw], out.2) else ([0x6F, 0x00], s)

/-- One command APDU with a response buffer of `cap` bytes. -/
noncomputable def answer (s : Service) (cmd : Option (List UInt8)) (cap : UInt16) : List UInt8 × Service :=
  if cap < 2 then ([], s) else s.fitted cap (s.serve (requestOfBytes cmd))

/-- Resets of any kind put the cursor back. -/
noncomputable def step (s : Service) : CardEvent → List UInt8 × Service
  | .apdu cmd cap => s.answer cmd cap
  | .reset | .init | .powerCycle => ([], { s with cursor := .root })

/-- Power fails while a command runs. It has happened or not, or the room that it takes is
gone without it. -/
noncomputable def survivors (s : Service) (cmd : Option (List UInt8)) (cap : UInt16) : List Service :=
  let after := (s.answer cmd cap).2.volume
  [⟨s.volume, .root⟩, ⟨after, .root⟩, ⟨{ s.volume with room := after.room }, .root⟩]

/-- What comes back, event by event. -/
noncomputable def transcript (s : Service) : List CardEvent → List (List UInt8)
  | [] => []
  | event :: rest => (s.step event).1 :: (s.step event).2.transcript rest

end Service

/-- The files of a freshly personalised card. -/
def factoryFiles : Path → Option Node
  | [] => some ⟨.mf, fsLcActivated, fsNoSfi, []⟩
  | [0x2F00] => some ⟨.efTransparent, fsLcActivated, 1, List.replicate 32 0xFF⟩
  | [0x7F10] => some ⟨.df, fsLcActivated, fsNoSfi, []⟩
  | [0x7F10, 0x6F01] => some ⟨.efTransparent, fsLcActivated, 1, List.replicate 64 0xFF⟩
  | [0x7F10, 0x6F02] => some ⟨.efTransparent, fsLcActivated, 2, List.replicate 16 0xFF⟩
  | _ => none

/-- The service of a card of that much FLASH as it leaves the factory. -/
def Service.factory (flashSize : UInt32) : Service :=
  ⟨⟨factoryFiles, fsMaxFiles.toNat - 5, flashSize.toNat - 112⟩, .root⟩

end CardOs.FileService

namespace CardOs.Kernel

/-- What a card sends back for an event. -/
def reply (card : Card) : CardEvent → List UInt8
  | .apdu cmd rspCap => (scosProcess cmd rspCap card).2.1
  | .reset | .init | .powerCycle => []

def transcript (card : Card) : List CardEvent → List (List UInt8)
  | [] => []
  | event :: rest => reply card event :: transcript (step card event) rest

end CardOs.Kernel
