import CardOs.FsStore

/-! `src/filesystem/fs.c`: the logical layer. Tree navigation by scanning the
descriptor table, the current selection, file data access, the factory layout
and CREATE / DELETE. A selection passed by pointer is taken and returned; on an
error the caller's copy is the one it had. -/
namespace CardOs.Fs
open CardOs.Library CardOs.Library.BigEndian CardOs.FsTypes CardOs.FsStore

def fsRootIndex : UInt16 := 0

def fsGet (index : UInt16) : FsM FsDescriptor := fsStoreReadDesc index

/-- The table scan of the two lookups: slots are read in order, a read failure is
passed over or ends the search, and the first wanted descriptor is found. -/
def scanFor (wanted : FsDescriptor → Bool) (skips : FsError → Bool) : List Nat → FsM UInt16
  | [] => Action.fail .notFound
  | i :: rest => do
    match ← Action.attempt (fsStoreReadDesc (UInt16.ofNat i)) with
    | .error e => if skips e then scanFor wanted skips rest else Action.fail e
    | .ok d => if wanted d then pure (UInt16.ofNat i) else scanFor wanted skips rest

/-- Free and corrupt slots are skipped; any other failure ends the search. -/
def fsFindChild (parent fileId : UInt16) : FsM UInt16 := do
  let s ← Action.state
  scanFor (fun d => d.parent = parent ∧ d.fileId = fileId) (fun e => e = .notFound ∨ e = .corrupt)
    (List.range (fsStoreMaxFiles s).toNat)

/-- Every unreadable slot is skipped. -/
def fsFindBySfi (df : UInt16) (sfi : UInt8) : FsM UInt16 := do
  let s ← Action.state
  if sfi = fsNoSfi ∨ sfi > 30 then Action.fail .param
  else
    scanFor (fun d => d.parent = df ∧ fsIsEf d ∧ d.sfi = sfi) (fun _ => true)
      (List.range (fsStoreMaxFiles s).toNat)

/-- The scan of `fs_child_count`, which skips every unreadable slot. -/
def childCountIn (parent : UInt16) : List Nat → FsM UInt16
  | [] => pure 0
  | i :: rest => do
    match ← Action.attempt (fsStoreReadDesc (UInt16.ofNat i)) with
    | .error _ => childCountIn parent rest
    | .ok d => do
      let count ← childCountIn parent rest
      pure (if d.parent = parent then count + 1 else count)

def fsChildCount (parent : UInt16) : FsM UInt16 := do
  let s ← Action.state
  childCountIn parent (List.range (fsStoreMaxFiles s).toNat)

def fsSelectionReset : FsSelection := ⟨fsRootIndex, fsInvalidIndex⟩

def fsSelectedIndex (sel : FsSelection) : UInt16 :=
  if sel.curEf ≠ fsInvalidIndex then sel.curEf else sel.curDf

def commit (index : UInt16) (d : FsDescriptor) : FsSelection :=
  if fsIsDf d then ⟨index, fsInvalidIndex⟩ else ⟨d.parent, index⟩

/-- Load a descriptor and refuse anything not ACTIVATED. -/
def resolve (index : UInt16) : FsM FsDescriptor := do
  let d ← fsStoreReadDesc index
  if !fsIsUsable d then Action.fail .notUsable else pure d

/-- Step 2 of the search order: a direct child of the current DF. -/
def orChild (sel : FsSelection) (fileId index : UInt16) : FsM UInt16 := do
  if index ≠ fsInvalidIndex then pure index
  else match ← Action.attempt (fsFindChild sel.curDf fileId) with
    | .ok found => pure found
    | .error _ => pure index

/-- Step 3: the current DF itself. -/
def orCurrent (sel : FsSelection) (fileId index : UInt16) : FsM UInt16 := do
  if index ≠ fsInvalidIndex then pure index
  else match ← Action.attempt (fsStoreReadDesc sel.curDf) with
    | .ok d => pure (if d.fileId = fileId then sel.curDf else index)
    | .error _ => pure index

/-- Step 4: the parent of the current DF. -/
def orParent (sel : FsSelection) (fileId index : UInt16) : FsM UInt16 := do
  if index ≠ fsInvalidIndex then pure index
  else match ← Action.attempt (fsStoreReadDesc sel.curDf) with
    | .error _ => pure index
    | .ok d =>
      if d.parent = fsNoParent then pure index
      else match ← Action.attempt (fsStoreReadDesc d.parent) with
        | .ok p => pure (if p.fileId = fileId then d.parent else index)
        | .error _ => pure index

def fsSelectByFid (sel : FsSelection) (fileId : UInt16) : FsM FsSelection := do
  let index := if fileId = fsFidMf then fsRootIndex else fsInvalidIndex
  let index ← orChild sel fileId index
  let index ← orCurrent sel fileId index
  let index ← orParent sel fileId index
  if index = fsInvalidIndex then Action.fail .notFound
  else do
    let d ← resolve index
    pure (commit index d)

def selectChildTyped (sel : FsSelection) (fileId : UInt16) (wantDf : Bool) : FsM FsSelection := do
  let index ← fsFindChild sel.curDf fileId
  let d ← resolve index
  if wantDf ≠ fsIsDf d then Action.fail .wrongType else pure (commit index d)

def fsSelectChildDf (sel : FsSelection) (fileId : UInt16) : FsM FsSelection :=
  selectChildTyped sel fileId true

def fsSelectChildEf (sel : FsSelection) (fileId : UInt16) : FsM FsSelection :=
  selectChildTyped sel fileId false

def fsSelectParent (sel : FsSelection) : FsM FsSelection := do
  let cur ← fsStoreReadDesc sel.curDf
  if cur.parent = fsNoParent then Action.fail .notFound
  else do
    let parent ← resolve cur.parent
    pure (commit cur.parent parent)

/-- The 2-byte identifiers of a path. -/
def pathIds : List UInt8 → List UInt16
  | hi :: lo :: rest => word16 hi lo :: pathIds rest
  | _ => []

/-- Whether a component names the DF the walk stands on; asked only of the
first component. -/
def namesHere (scratch : FsSelection) (first : Bool) (fid : UInt16) : FsM Bool := do
  if !first then pure false
  else match ← Action.attempt (fsStoreReadDesc scratch.curDf) with
    | .ok here => pure (here.fileId = fid)
    | .error _ => pure false

/-- The loop of `fs_select_by_path` on the scratch selection. -/
def walkPath (scratch : FsSelection) (first : Bool) : List UInt16 → FsM FsSelection
  | [] => pure scratch
  | fid :: rest => do
    if ← namesHere scratch first fid then walkPath scratch false rest
    else match ← Action.attempt (fsFindChild scratch.curDf fid) with
      | .error _ => Action.fail .notFound
      | .ok index => do
        let d ← resolve index
        if rest ≠ [] ∧ !fsIsDf d then Action.fail .wrongType
        else walkPath (commit index d) false rest

def fsSelectByPath (sel : FsSelection) (path : List UInt8) (fromMf : Bool) : FsM FsSelection :=
  if path.length = 0 ∨ path.length % 2 ≠ 0 then Action.fail .param
  else if path.length / 2 > fsMaxDepth then Action.fail .param
  else walkPath (if fromMf then fsSelectionReset else sel) true (pathIds path)

def fsEfRead (index offset len : UInt16) : FsM (List UInt8) := do
  let d ← resolve index
  if !fsIsEf d then Action.fail .wrongType
  else if offset > d.size then Action.fail .range
  else
    let available := d.size - offset
    let toRead := if len < available then len else available
    if toRead = 0 then pure []
    else fsStoreReadData (d.dataOffset + offset.toUInt32) toRead

/-- The bounds check is made in 32 bits, where `offset + len` cannot wrap. -/
def fsEfWrite (index offset : UInt16) (src : List UInt8) : FsM Unit := do
  if src.length = 0 then pure ()
  else do
    let d ← resolve index
    if !fsIsEf d then Action.fail .wrongType
    else if offset.toNat + src.length > d.size.toNat then Action.fail .range
    else fsStoreWriteData (d.dataOffset + offset.toUInt32) src

def fsIsoDescriptorByte (desc : FsDescriptor) : UInt8 :=
  match desc.type with
  | .mf | .df => 0x38
  | .efTransparent => 0x01
  | .free => 0x00

/-- The data objects of the template, in the order `fs_build_fcp` emits them. -/
def fcpObjects (desc : FsDescriptor) : List (List UInt8) :=
  [[0x82, 0x01, fsIsoDescriptorByte desc],
    [0x83, 0x02] ++ bytes16 desc.fileId,
    if fsIsEf desc then [0x80, 0x02] ++ bytes16 desc.size else [],
    [0x8A, 0x01, desc.lifecycle],
    if fsIsEf desc ∧ desc.sfi ≠ fsNoSfi then [0x88, 0x01, desc.sfi <<< 3] else []]

/-- The template, or nothing when it does not fit: it is never truncated. -/
def fsBuildFcp (desc : FsDescriptor) (cap : Nat) : List UInt8 :=
  if (fcpObjects desc).flatten.length > cap then [] else (fcpObjects desc).flatten

/-- The MF descriptor of `fs_personalise`. -/
def factoryMf : FsDescriptor :=
  { FsDescriptor.zeroed .mf with
    fileId := fsFidMf, lifecycle := fsLcActivated, parent := fsNoParent, sfi := fsNoSfi }

structure LayoutEntry where
  index : UInt16
  fileId : UInt16
  type : FsFileType
  parent : UInt16
  size : UInt16
  sfi : UInt8

def factoryLayout : List LayoutEntry :=
  [⟨1, 0x2F00, .efTransparent, 0, 32, 1⟩, ⟨2, 0x7F10, .df, 0, 0, 0⟩,
    ⟨3, 0x6F01, .efTransparent, 2, 64, 1⟩, ⟨4, 0x6F02, .efTransparent, 2, 16, 2⟩]

def LayoutEntry.descriptor (entry : LayoutEntry) : FsDescriptor :=
  { FsDescriptor.zeroed entry.type with
    fileId := entry.fileId, lifecycle := fsLcActivated, parent := entry.parent
    size := entry.size, sfi := entry.sfi }

/-- Give an EF its data space; any other file keeps the zero offset. -/
def allocateFor (d : FsDescriptor) : FsM FsDescriptor := do
  if d.type = .efTransparent then do
    let offset ← fsStoreAllocData d.size
    pure { d with dataOffset := offset }
  else pure d

/-- The two stores that bring a file into being, in the order that leaks space
rather than hand it out twice. -/
def placeFile (slot : UInt16) (d : FsDescriptor) : FsM Unit := do
  let d ← allocateFor d
  fsStoreWriteDesc slot d

def writeLayout : List LayoutEntry → FsM Unit
  | [] => pure ()
  | entry :: rest => do
    placeFile entry.index entry.descriptor
    writeLayout rest

def fsPersonalise : FsM Unit := do
  fsStoreFormat
  fsStoreWriteDesc 0 factoryMf
  writeLayout factoryLayout

def fsInit : FsM Unit := do
  match ← Action.attempt fsStoreMount with
  | .ok () => do
    match ← Action.attempt (fsStoreReadDesc fsRootIndex) with
    | .error .notFound => Action.fail .corrupt
    | .error e => Action.fail e
    | .ok mf =>
      if mf.type ≠ .mf ∨ mf.fileId ≠ fsFidMf then Action.fail .corrupt else pure ()
  | .error .notFormatted => fsPersonalise
  | .error e => Action.fail e

def fidIsReserved (fid : UInt16) : Bool := fid = fsFidMf || fid = 0xFFFF

/-- The type-specific refusals of `fs_create_file`. -/
def checkRequestType (req : FsDescriptor) : Option FsError :=
  match req.type with
  | .df => if req.size ≠ 0 ∨ req.sfi ≠ fsNoSfi then some .param else none
  | .efTransparent =>
    if req.size = 0 ∨ req.size > fsMaxEfSize then some .param
    else if req.sfi ≠ fsNoSfi ∧ (req.sfi < 1 ∨ req.sfi > 30) then some .param
    else none
  | .mf => some .exists
  | .free => some .param

def lifecycleCreatable (lc : FsLifecycle) : Bool :=
  lc = fsLcCreation || lc = fsLcInitialised || lc = fsLcActivated || lc = fsLcDeactivated

/-- Whether the requested short identifier is already in use in the DF. -/
def sfiTaken (df : UInt16) (sfi : UInt8) : FsM Bool := do
  if sfi = fsNoSfi then pure false
  else match ← Action.attempt (fsFindBySfi df sfi) with
    | .ok _ => pure true
    | .error _ => pure false

/-- The descriptor `fs_create_file` builds, before its data is allocated. -/
def newDescriptor (sel : FsSelection) (req : FsDescriptor) : FsDescriptor :=
  { FsDescriptor.zeroed req.type with
    fileId := req.fileId, lifecycle := req.lifecycle, parent := sel.curDf, size := req.size
    sfi := req.sfi, acRead := req.acRead, acUpdate := req.acUpdate, flags := 0 }

/-- Every check of `fs_create_file`, in order; nothing is written before they
have all passed. Returns the free slot the file will take. -/
def createChecks (sel : FsSelection) (req : FsDescriptor) : FsM UInt16 := do
  let parent ← fsStoreReadDesc sel.curDf
  if !fsIsDf parent then Action.fail .wrongType
  else if !fsIsUsable parent then Action.fail .notUsable
  else if fidIsReserved req.fileId then Action.fail .exists
  else match checkRequestType req with
  | some e => Action.fail e
  | none =>
    if !lifecycleCreatable req.lifecycle then Action.fail .param
    else match ← Action.attempt (fsFindChild sel.curDf req.fileId) with
    | .ok _ => Action.fail .exists
    | .error _ => do
      if ← sfiTaken sel.curDf req.sfi then Action.fail .exists
      else do
        let slot ← fsStoreFindFreeSlot
        if slot = fsInvalidIndex then Action.fail .noSpace else pure slot

def fsCreateFile (sel : FsSelection) (req : FsDescriptor) : FsM UInt16 := do
  let slot ← createChecks sel req
  placeFile slot (newDescriptor sel req)
  pure slot

/-- The selection after the file in slot `index` is gone. -/
def deselect (sel : FsSelection) (index : UInt16) : FsSelection :=
  let sel := if sel.curEf = index then { sel with curEf := fsInvalidIndex } else sel
  if sel.curDf = index then ⟨fsRootIndex, fsInvalidIndex⟩ else sel

/-- `fs_is_df(&d) && fs_child_count(index) > 0`. -/
def hasChildren (index : UInt16) (d : FsDescriptor) : FsM Bool := do
  if !fsIsDf d then pure false
  else do
    let count ← fsChildCount index
    pure (count > 0)

/-- Every check of `fs_delete_file`, in order. Returns the slot to free. -/
def deleteChecks (sel : FsSelection) (fileId : UInt16) : FsM UInt16 := do
  if fileId = fsFidMf then Action.fail .notUsable
  else do
    let index ← fsFindChild sel.curDf fileId
    let d ← fsStoreReadDesc index
    if d.type = .mf then Action.fail .notUsable
    else do
      if ← hasChildren index d then Action.fail .notUsable else pure index

/-- The current selection is only fixed up once the slot was freed without an
error. -/
def fsDeleteFile (sel : FsSelection) (fileId : UInt16) : FsM FsSelection := do
  let index ← deleteChecks sel fileId
  fsStoreFreeDesc index
  pure (deselect sel index)

end CardOs.Fs
