import CardOs.Apdu
import CardOs.Fs
import CardOs.Tlv

/-! The five file commands (`src/filesystem/cmd_select.c`, `cmd_binary.c`,
`cmd_create.c`) and their dispatch table (`src/apdu/apdu_dispatch.c`). A handler
returns its status word; a `return` in the middle of the C function stops the
computation with that word. -/
namespace CardOs.FileCommands
open CardOs.Library CardOs.Library.BigEndian CardOs.Apdu CardOs.FsTypes CardOs.FsStore CardOs.Fs CardOs.Tlv

inductive ScosLifecycle where
  | noPower
  | initialising
  | operational
  | fsError
  | terminated
  deriving DecidableEq, Repr

/-- `scos_kernel` without the two APDU buffers, which belong to the card loop. -/
structure ScosKernel where
  lifecycle : ScosLifecycle
  resetCount : UInt32
  sel : FsSelection
  deriving DecidableEq, Repr

/-- What a handler works on: the kernel, the filesystem and the response. -/
structure Session where
  kernel : ScosKernel
  store : Store
  rsp : ApduResponse

abbrev CmdM := Action Sw Session

def fsErrorToSw : FsError → Sw
  | .notFound => swFileNotFound
  | .notUsable => swConditionsNotSatisfied
  | .wrongType => swCmdIncompatibleFile
  | .range => swWrongP1P2
  | .param => swIncorrectP1P2
  | .noSpace => swNotEnoughSpace
  | .exists => swFileAlreadyExists
  | .corrupt | .version | .notFormatted => swMemoryFailure
  | .nvm => swMemoryFailure

/-- A filesystem call whose failure is answered with its status word. -/
def liftFs (x : FsM α) : CmdM α :=
  x.within Session.store (fun store t => { t with store }) fsErrorToSw

/-- Append to the response, stopping with `6F00` when the builder refuses. -/
def put (src : List UInt8) : CmdM Unit := fun t =>
  match apduRspPut t.rsp src with
  | (true, rsp) => (.ok (), { t with rsp })
  | (false, rsp) => (.error swNoPreciseDiagnosis, { t with rsp })

/-- The two identifier bytes of a data field. -/
def fidOf (data : List UInt8) : UInt16 := word16 (data.getD 0 0) (data.getD 1 0)

def selRetNone : UInt8 := 0x0C
def selRetFmd : UInt8 := 0x08
def selRetFcp : UInt8 := 0x04

def emitFci (cmd : ApduCommand) (index : UInt16) (retOpt : UInt8) : CmdM Unit := do
  if retOpt = selRetNone then pure ()
  else if retOpt = selRetFmd then Action.fail swFuncNotSupported
  else do
    let d ← liftFs (fsGet index)
    let body := fsBuildFcp d 32
    let total := UInt16.ofNat (body.length + 2)
    if body.length = 0 then Action.fail swNoPreciseDiagnosis
    else if !cmd.lePresent then pure ()
    else if cmd.le < total then Action.fail (swWrongLe total)
    else do
      put [if retOpt = selRetFcp then 0x62 else 0x6F]
      put [UInt8.ofNat body.length]
      put body

/-- The `switch` of `scos_cmd_select`: the selection the command asks for, made
on a copy. -/
def selectTarget (cmd : ApduCommand) (sel : FsSelection) : CmdM FsSelection :=
  if cmd.p1 = 0x00 then
    if cmd.lc = 0 then liftFs (fsSelectByFid sel fsFidMf)
    else if cmd.lc = 2 then
      match cmd.data with
      | none => Action.fail swNoPreciseDiagnosis
      | some data => liftFs (fsSelectByFid sel (fidOf data))
    else Action.fail swLcInconsistentP1P2
  else if cmd.p1 = 0x01 ∨ cmd.p1 = 0x02 then
    match cmd.data with
    | none => Action.fail swLcInconsistentP1P2
    | some data =>
      if cmd.lc ≠ 2 then Action.fail swLcInconsistentP1P2
      else if cmd.p1 = 0x01 then liftFs (fsSelectChildDf sel (fidOf data))
      else liftFs (fsSelectChildEf sel (fidOf data))
  else if cmd.p1 = 0x03 then
    if cmd.lc ≠ 0 then Action.fail swLcInconsistentP1P2 else liftFs (fsSelectParent sel)
  else if cmd.p1 = 0x08 ∨ cmd.p1 = 0x09 then
    match cmd.data with
    | none => Action.fail swLcInconsistentP1P2
    | some data =>
      if cmd.lc = 0 then Action.fail swLcInconsistentP1P2
      else if cmd.lc % 2 ≠ 0 then Action.fail swWrongData
      else liftFs (fsSelectByPath sel data (cmd.p1 = 0x08))
  else if cmd.p1 = 0x04 then Action.fail swFuncNotSupported
  else Action.fail swIncorrectP1P2

/-- The response is built before the selection is committed. -/
def scosCmdSelect (cmd : ApduCommand) : CmdM Sw := do
  if cmd.p2 &&& 0xF0 ≠ 0 then Action.fail swIncorrectP1P2
  else if cmd.p2 &&& 0x03 ≠ 0 then Action.fail swFuncNotSupported
  else do
    let t ← Action.state
    let sel ← selectTarget cmd t.kernel.sel
    emitFci cmd (fsSelectedIndex sel) (cmd.p2 &&& 0x0C)
    Action.update fun t => { t with kernel := { t.kernel with sel } }
    pure swOk

/-- The addressed EF and the offset in it. -/
def resolveTarget (p1 p2 : UInt8) : CmdM (UInt16 × UInt16) := do
  let t ← Action.state
  if p1 &&& 0x80 ≠ 0 then
    if p1 &&& 0x60 ≠ 0 then Action.fail swIncorrectP1P2
    else if p1 &&& 0x1F = 0 then Action.fail swIncorrectP1P2
    else do
      let index ← liftFs (fsFindBySfi t.kernel.sel.curDf (p1 &&& 0x1F))
      pure (index, p2.toUInt16)
  else if t.kernel.sel.curEf = fsInvalidIndex then Action.fail swCommandNotAllowedNoEf
  else pure (t.kernel.sel.curEf, word16 p1 p2)

def scosCmdReadBinary (cmd : ApduCommand) : CmdM Sw := do
  if cmd.lc ≠ 0 then Action.fail swLcInconsistentP1P2
  else if !cmd.lePresent then Action.fail swWrongLength
  else do
    let (index, offset) ← resolveTarget cmd.p1 cmd.p2
    if cmd.le > apduShortLeMax then Action.fail swNoPreciseDiagnosis
    else do
      let got ← liftFs (fsEfRead index offset cmd.le)
      put got
      pure (if got.length < cmd.le.toNat then swNvmUnchangedEof else swOk)

def scosCmdUpdateBinary (cmd : ApduCommand) : CmdM Sw := do
  match cmd.data with
  | none => Action.fail swWrongLength
  | some data =>
    if cmd.lc = 0 then Action.fail swWrongLength
    else if cmd.lePresent then Action.fail swWrongLength
    else do
      let (index, offset) ← resolveTarget cmd.p1 cmd.p2
      liftFs (fsEfWrite index offset data)
      pure swOk

/-- `decode_fdb`; an `error` is the status word `parse_fcp` answers with. -/
def decodeFdb (fdb : UInt8) : Except Sw FsFileType :=
  if fdb &&& 0x80 ≠ 0 then .error swWrongData
  else if fdb &&& 0x38 = 0x38 then
    if fdb &&& 0x07 ≠ 0x00 then .error swWrongData else .ok .df
  else if fdb &&& 0x38 = 0x00 ∧ fdb &&& 0x07 = 0x01 then .ok .efTransparent
  else .error swFuncNotSupported

/-- The locals of `parse_fcp` that its loop carries. -/
structure FcpState where
  req : FsDescriptor
  haveFdb : Bool
  haveFid : Bool
  haveSize : Bool
  type : FsFileType
  deriving DecidableEq, Repr

def TlvObject.byte (obj : TlvObject) (k : Nat) : UInt8 := (obj.value.getD []).getD k 0

/-- The `switch` over one data object of the template. -/
def fcpObject (st : FcpState) (obj : TlvObject) : Except Sw FcpState :=
  if obj.tag = 0x82 then
    if st.haveFdb ∨ obj.length ≠ 1 then .error swWrongData
    else match decodeFdb (TlvObject.byte obj 0) with
      | .error sw => .error sw
      | .ok type => .ok { st with type, haveFdb := true }
  else if obj.tag = 0x83 then
    if st.haveFid ∨ obj.length ≠ 2 then .error swWrongData
    else
      let fileId := word16 (TlvObject.byte obj 0) (TlvObject.byte obj 1)
      .ok { st with req := { st.req with fileId }, haveFid := true }
  else if obj.tag = 0x80 then
    if st.haveSize then .error swWrongData
    else match tlvGetUint obj with
      | .error _ => .error swWrongData
      | .ok v =>
        if v > fsMaxEfSize.toUInt32 then .error swNotEnoughSpace
        else if v = 0 then .error swWrongData
        else .ok { st with req := { st.req with size := v.toUInt16 }, haveSize := true }
  else if obj.tag = 0x8A then
    if obj.length ≠ 1 then .error swWrongData
    else
      let lc := TlvObject.byte obj 0
      if lifecycleCreatable lc then .ok { st with req := { st.req with lifecycle := lc } }
      else .error swWrongData
  else if obj.tag = 0x88 then
    if obj.length ≠ 1 then .error swWrongData
    else
      let v := TlvObject.byte obj 0
      if v &&& 0x07 ≠ 0 then .error swWrongData
      else if v >>> 3 > 30 then .error swWrongData
      else .ok { st with req := { st.req with sfi := v >>> 3 } }
  else .error swWrongData

/-- The object loop of `parse_fcp`. -/
def fcpLoop (r : TlvReader) (st : FcpState) : Except Sw FcpState :=
  match _ : tlvNext r with
  | (.error .end, _) => .ok st
  | (.error _, _) => .error swWrongData
  | (.ok obj, next) =>
    match fcpObject st obj with
    | .error sw => .error sw
    | .ok st => fcpLoop next st
termination_by r.len.toNat - r.pos.toNat
decreasing_by exact (tlvNext_advances ‹_›).2

/-- The template's content: the value of one outer `62` object with nothing but
padding after it, or the data field itself. -/
def fcpInner (body : List UInt8) (bodyLen : UInt16) : Except Sw (Option (List UInt8) × UInt16) :=
  match tlvNext (tlvReaderInit (some body) bodyLen) with
  | (.ok obj, outer) =>
    if obj.tag = 0x62 then
      if !tlvReaderDone outer then .error swWrongData else .ok (obj.value, obj.length)
    else .ok (some body, bodyLen)
  | (.error _, _) => .ok (some body, bodyLen)

def fcpStart : FcpState :=
  { req := { FsDescriptor.zeroed .free with
      parent := fsNoParent, sfi := fsNoSfi, lifecycle := fsLcActivated }
    haveFdb := false, haveFid := false, haveSize := false, type := .free }

def parseFcp (body : List UInt8) (bodyLen : UInt16) : Except Sw FsDescriptor := do
  let (inner, innerLen) ← fcpInner body bodyLen
  if innerLen = 0 then .error swWrongData
  else do
    let st ← fcpLoop (tlvReaderInit inner innerLen) fcpStart
    if !st.haveFdb ∨ !st.haveFid then .error swWrongData
    else if st.type = .efTransparent ∧ !st.haveSize then .error swWrongData
    else if st.type = .df ∧ st.haveSize then .error swWrongData
    else if st.type = .df ∧ st.req.sfi ≠ fsNoSfi then .error swWrongData
    else .ok { st.req with type := st.type }

def scosCmdCreateFile (cmd : ApduCommand) : CmdM Sw := do
  let t ← Action.state
  if t.kernel.lifecycle = .fsError then Action.fail swMemoryFailure
  else if cmd.p1 ≠ 0 ∨ cmd.p2 ≠ 0 then Action.fail swIncorrectP1P2
  else match cmd.data with
  | none => Action.fail swWrongLength
  | some data =>
    if cmd.lc = 0 then Action.fail swWrongLength
    else match parseFcp data cmd.lc with
    | .error sw => Action.fail sw
    | .ok req => do
      let _ ← liftFs (fsCreateFile t.kernel.sel req)
      pure swOk

def scosCmdDeleteFile (cmd : ApduCommand) : CmdM Sw := do
  let t ← Action.state
  if t.kernel.lifecycle = .fsError then Action.fail swMemoryFailure
  else if cmd.p1 ≠ 0 ∨ cmd.p2 ≠ 0 then Action.fail swIncorrectP1P2
  else match cmd.data with
  | none => Action.fail swWrongLength
  | some data =>
    if cmd.lc ≠ 2 then Action.fail swWrongLength
    else do
      let sel ← liftFs (fsDeleteFile t.kernel.sel (fidOf data))
      Action.update fun t => { t with kernel := { t.kernel with sel } }
      pure swOk

def insSelect : UInt8 := 0xA4
def insReadBinary : UInt8 := 0xB0
def insUpdateBinary : UInt8 := 0xD6
def insCreateFile : UInt8 := 0xE0
def insDeleteFile : UInt8 := 0xE4

def commands : List (UInt8 × (ApduCommand → CmdM Sw)) :=
  [(insSelect, scosCmdSelect), (insReadBinary, scosCmdReadBinary),
    (insUpdateBinary, scosCmdUpdateBinary), (insCreateFile, scosCmdCreateFile),
    (insDeleteFile, scosCmdDeleteFile)]

/-- The first entry of the table for the instruction runs. -/
def scosDispatch (cmd : ApduCommand) : CmdM Sw :=
  match commands.find? fun entry => entry.1 = cmd.ins with
  | some (_, handler) => handler cmd
  | none => pure swInsNotSupported

end CardOs.FileCommands
