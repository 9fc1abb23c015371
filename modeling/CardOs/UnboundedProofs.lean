import CardOs.StorageProofs

/-! The storage functions that compute an offset, a length or a count, once more in
unbounded numbers. The code computes them in 16 and 32 bits and comes to the same
requests and the same answers. -/
namespace CardOs.UnboundedProofs
open CardOs.Library CardOs.Library.Action CardOs.Crc16 CardOs.FsTypes CardOs.HalNvm CardOs.FsStore CardOs.FsStoreProofs
open CardOs.Fs CardOs.StorageProofs

/-! Requests at any position. -/

def halNvmReadNat (region : NvmRegion) (position len : Nat) : HalM (List UInt8) := fun hal =>
  if len = 0 then (.ok [], hal)
  else if (hal.nvm.region region).size.toNat < position + len then
    (.error .range, { hal with rangeErrors := hal.rangeErrors + 1 })
  else
    let (fails, hal) := nextRead hal
    if fails then (.error .io, hal) else (.ok ((hal.nvm.region region).read position len), hal)

def halNvmWriteNat (region : NvmRegion) (position : Nat) (src : List UInt8) : HalM Unit := fun hal =>
  let hal := { hal with writes := hal.writes + 1 }
  if src = [] then (.ok (), hal)
  else if (hal.nvm.region region).size.toNat < position + src.length then
    (.error .range, { hal with rangeErrors := hal.rangeErrors + 1 })
  else
    let (fault, hal) := nextWrite hal
    (if fault = .none then .ok () else .error .io,
      if fault = .lost then hal else { hal with nvm := hal.nvm.write region position src })

def writeDurablyNat (region : NvmRegion) (position : Nat) (raw : List UInt8) (refused : FsError) : FsM Unit := do
  liftHal refused (halNvmWriteNat region position raw)
  liftHal .nvm halNvmSync

/-! The descriptor table: slot `n` starts at `16 + n * 20`, and the table ends where
the slot behind its last one would start. -/

def descOffsetNat (n : Nat) : Nat := 16 + n * 20

def fsStoreMountNat : FsM Unit := do
  Action.update fun s => { s with sb := { s.sb with mounted := false } }
  let raw ← liftHal .nvm (halNvmReadNat .eeprom 0 fsSuperblockSize)
  if raw.take 4 ≠ fsMagic then Action.fail .notFormatted
  else if getU16 raw 14 ≠ crc16 (raw.take 14) then Action.fail .corrupt
  else if getU16 raw 4 ≠ fsLayoutVersion then Action.fail .version
  else if getU16 raw 6 = 0 ∨ getU16 raw 6 > fsMaxFiles then Action.fail .corrupt
  else do
    let s ← Action.state
    if (getU32 raw 8).toNat > s.hal.nvm.flash.size.toNat then Action.fail .corrupt
    else if descOffsetNat (getU16 raw 6).toNat > s.hal.nvm.eeprom.size.toNat then Action.fail .corrupt
    else Action.update fun s => { s with sb := ⟨true, getU16 raw 4, getU16 raw 6, getU32 raw 8⟩ }

def eraseSlotsNat : List Nat → FsM Unit
  | [] => pure ()
  | i :: rest => do
    liftHal .nvm (halNvmWriteNat .eeprom (descOffsetNat i) freeDesc)
    eraseSlotsNat rest

def fsStoreFormatNat : FsM Unit := do
  let s ← Action.state
  if descOffsetNat fsMaxFiles.toNat > s.hal.nvm.eeprom.size.toNat then Action.fail .noSpace
  else do
    eraseSlotsNat (List.range fsMaxFiles.toNat)
    Action.update fun s =>
      { s with sb := { s.sb with dataTop := 0, version := fsLayoutVersion, maxFiles := fsMaxFiles } }
    writeDurablyNat .eeprom 0 (sbBytes 0) .nvm
    Action.update fun s => { s with sb := { s.sb with mounted := true } }

def descRawReadNat (index : Nat) : FsM (List UInt8) := do
  let s ← Action.state
  if !s.sb.mounted then Action.fail .notFormatted
  else if index ≥ s.sb.maxFiles.toNat then Action.fail .param
  else liftHal .nvm (halNvmReadNat .eeprom (descOffsetNat index) fsDescSize)

def fsStoreWriteDescNat (index : Nat) (desc : FsDescriptor) : FsM Unit := do
  let s ← Action.state
  if !s.sb.mounted then Action.fail .notFormatted
  else if index ≥ s.sb.maxFiles.toNat then Action.fail .param
  else if desc.type = .free then Action.fail .param
  else writeDurablyNat .eeprom (descOffsetNat index) (descBytes desc) .nvm

def fsStoreFreeDescNat (index : Nat) : FsM Unit := do
  let s ← Action.state
  if !s.sb.mounted then Action.fail .notFormatted
  else if index ≥ s.sb.maxFiles.toNat then Action.fail .param
  else writeDurablyNat .eeprom (descOffsetNat index) freeDesc .nvm

/-! File data. -/

def fsStoreReadDataNat (position len : Nat) : FsM (List UInt8) := do
  let s ← Action.state
  if len = 0 then pure []
  else if !s.sb.mounted then Action.fail .notFormatted
  else liftHal .range (halNvmReadNat .flash position len)

def fsStoreWriteDataNat (position : Nat) (src : List UInt8) : FsM Unit := do
  let s ← Action.state
  if src = [] then pure ()
  else if !s.sb.mounted then Action.fail .notFormatted
  else writeDurablyNat .flash position src .range

def fsEfReadNat (index : UInt16) (offset len : Nat) : FsM (List UInt8) := do
  let d ← resolve index
  if !fsIsEf d then Action.fail .wrongType
  else if offset > d.size.toNat then Action.fail .range
  else fsStoreReadDataNat (d.dataOffset.toNat + offset) (min len (d.size.toNat - offset))

def fsEfWriteNat (index : UInt16) (offset : Nat) (src : List UInt8) : FsM Unit := do
  if src.length = 0 then pure ()
  else do
    let d ← resolve index
    if !fsIsEf d then Action.fail .wrongType
    else if offset + src.length > d.size.toNat then Action.fail .range
    else fsStoreWriteDataNat (d.dataOffset.toNat + offset) src

/-! The children of a DF, counted. -/

def childCountInNat (parent : UInt16) : List Nat → FsM Nat
  | [] => pure 0
  | i :: rest => do
    match ← Action.attempt (fsStoreReadDesc (UInt16.ofNat i)) with
    | .error _ => childCountInNat parent rest
    | .ok d => do
      let count ← childCountInNat parent rest
      pure (if d.parent = parent then count + 1 else count)

def fsChildCountNat (parent : UInt16) : FsM Nat := do
  let s ← Action.state
  childCountInNat parent (List.range (fsStoreMaxFiles s).toNat)

section Requests
variable (region : NvmRegion) (offset : UInt32)

private theorem outside_iff {size : UInt32} {len : Nat} :
    (!inRange size offset len) = true ↔ size.toNat < offset.toNat + len := by
  rw [Bool.not_eq_true', ← Bool.not_eq_true, inRange_iff, Nat.not_le]

theorem halNvmRead_exact (len : Nat) : halNvmRead region offset len = halNvmReadNat region offset.toNat len := by
  funext hal
  simp only [halNvmRead, halNvmReadNat, halNvmSize, outside_iff]
  rcases nextRead hal with ⟨_ | _, next⟩ <;> rfl

theorem halNvmWrite_exact (src : List UInt8) :
    halNvmWrite region offset src = halNvmWriteNat region offset.toNat src := by
  funext hal
  simp only [halNvmWrite, halNvmWriteNat, halNvmSize, outside_iff]
  rcases nextWrite { hal with writes := hal.writes + 1 } with ⟨_ | _ | _, next⟩ <;> rfl

theorem writeDurably_exact (raw : List UInt8) (refused : FsError) :
    writeDurably region offset raw refused = writeDurablyNat region offset.toNat raw refused := by
  rw [writeDurably, writeDurablyNat, halNvmWrite_exact]

end Requests

section Table
variable (index : UInt16)

private theorem descOffset_exact : (descOffset index).toNat = descOffsetNat index.toNat := descOffset_toNat index

private theorem gt_exact {a b : UInt32} : a > b ↔ a.toNat > b.toNat := UInt32.lt_iff_toNat_lt

private theorem ge_exact {a b : UInt16} : a ≥ b ↔ a.toNat ≥ b.toNat := UInt16.le_iff_toNat_le

theorem fsStoreMount_exact : fsStoreMount = fsStoreMountNat := by
  simp only [fsStoreMount, fsStoreMountNat, halNvmRead_exact, halNvmSize, gt_exact, descOffset_exact, Nvm.region]
  rfl

private theorem eraseSlots_exact {slots : List Nat} (small : ∀ i ∈ slots, i < 65536) :
    eraseSlots slots = eraseSlotsNat slots := by
  induction slots with
  | nil => rfl
  | cons i rest ih =>
    have here : (UInt16.ofNat i).toNat = i := UInt16.toNat_ofNat_of_lt' (small i List.mem_cons_self)
    rw [eraseSlots, eraseSlotsNat, halNvmWrite_exact, descOffset_exact, here,
      ih fun j member => small j (List.mem_cons_of_mem _ member)]

theorem fsStoreFormat_exact : fsStoreFormat = fsStoreFormatNat := by
  funext s
  have slots : eraseSlots (List.range fsMaxFiles.toNat) = eraseSlotsNat (List.range fsMaxFiles.toNat) :=
    eraseSlots_exact fun i member => Nat.lt_trans (List.mem_range.mp member) (by decide)
  have table : descOffset fsMaxFiles > halNvmSize s.hal .eeprom ↔
      descOffsetNat fsMaxFiles.toNat > s.hal.nvm.eeprom.size.toNat := by
    rw [gt_exact, descOffset_exact]
    rfl
  rw [fsStoreFormat, fsStoreFormatNat, state_bind, state_bind, slots]
  simp only [table]
  split
  · rfl
  · rw [run_bind, run_bind]
    rcases eraseSlotsNat (List.range fsMaxFiles.toNat) s with ⟨e | u, s'⟩
    · rfl
    · dsimp only
      rw [update_bind, update_bind, run_bind, run_bind, sbWrite, state_bind, writeDurably_exact]
      rfl

theorem descRawRead_exact : descRawRead index = descRawReadNat index.toNat := by
  simp only [descRawRead, descRawReadNat, halNvmRead_exact, descOffset_exact, ge_exact]

theorem fsStoreWriteDesc_exact (desc : FsDescriptor) :
    fsStoreWriteDesc index desc = fsStoreWriteDescNat index.toNat desc := by
  simp only [fsStoreWriteDesc, fsStoreWriteDescNat, writeDurably_exact, descOffset_exact, ge_exact]

theorem fsStoreFreeDesc_exact : fsStoreFreeDesc index = fsStoreFreeDescNat index.toNat := by
  simp only [fsStoreFreeDesc, fsStoreFreeDescNat, writeDurably_exact, descOffset_exact, ge_exact]

end Table

section Data
variable {s : Store}

private theorem fsStoreReadData_exact {position : UInt32} {len : UInt16} :
    fsStoreReadData position len = fsStoreReadDataNat position.toNat len.toNat := by
  have empty : len = 0 ↔ len.toNat = 0 := UInt16.toNat_inj.symm
  simp only [fsStoreReadData, fsStoreReadDataNat, halNvmRead_exact, empty]

private theorem fsStoreWriteData_exact {position : UInt32} {src : List UInt8} :
    fsStoreWriteData position src = fsStoreWriteDataNat position.toNat src := by
  simp only [fsStoreWriteData, fsStoreWriteDataNat, writeDurably_exact]

/-- The read is the unbounded one at any offset and length, since the file it is in was
checked against the FLASH when its descriptor was read. -/
theorem fsEfRead_exact (index offset len : UInt16) (s : Store) :
    fsEfRead index offset len s = fsEfReadNat index offset.toNat len.toNat s := by
  rw [fsEfRead, fsEfReadNat, run_bind, run_bind]
  rcases found : resolve index s with ⟨e | d, s'⟩
  · rfl
  dsimp only
  by_cases ef : (!fsIsEf d) = true
  · rw [if_pos ef, if_pos ef]
  rw [if_neg ef, if_neg ef]
  by_cases past : offset > d.size
  · rw [if_pos past, if_pos (UInt16.lt_iff_toNat_lt.mp past)]
  have inside : offset ≤ d.size := UInt16.not_lt.mp past
  rw [if_neg past, if_neg (Nat.not_lt.mpr (UInt16.le_iff_toNat_le.mp inside)), ← amount_toNat len inside,
    ← data_position ((resolve_found found).2 (isEf_type ef)) (UInt16.le_iff_toNat_le.mp inside), ← fsStoreReadData_exact]
  generalize (if len < d.size - offset then len else d.size - offset) = amount
  by_cases nothing : amount = 0
  · rw [if_pos nothing, fsStoreReadData, state_bind, if_pos nothing]
  · rw [if_neg nothing]

theorem fsEfWrite_exact (index offset : UInt16) (src : List UInt8) (s : Store) :
    fsEfWrite index offset src s = fsEfWriteNat index offset.toNat src s := by
  rw [fsEfWrite, fsEfWriteNat]
  by_cases empty : src.length = 0
  · rw [if_pos empty, if_pos empty]
  rw [if_neg empty, if_neg empty, run_bind, run_bind]
  rcases found : resolve index s with ⟨e | d, s'⟩
  · rfl
  dsimp only
  by_cases ef : (!fsIsEf d) = true
  · rw [if_pos ef, if_pos ef]
  rw [if_neg ef, if_neg ef]
  by_cases past : offset.toNat + src.length > d.size.toNat
  · rw [if_pos past, if_pos past]
  · rw [if_neg past, if_neg past, fsStoreWriteData_exact,
      data_position ((resolve_found found).2 (isEf_type ef)) (by omega)]

/-- An allocation: the new top is the sum, in the mirror and in the superblock that is
written, and the space handed out starts at the old one. -/
structure AllocatesNat (size : Nat) (s : Store) (outcome : Except FsError UInt32 × Store) (top : UInt32) : Prop where
  sum : top.toNat = s.sb.dataTop.toNat + size
  mirror : outcome.2.sb = { s.sb with dataTop := top }
  writes : outcome = (writeDurablyNat .eeprom 0 (sbBytes top) .nvm >>= fun _ => pure s.sb.dataTop)
    { s with sb := { s.sb with dataTop := top } }

theorem fsStoreAllocData_exact {size : UInt16} (mounted : s.sb.mounted = true)
    (fits : s.sb.dataTop.toNat + size.toNat ≤ s.hal.nvm.flash.size.toNat) :
    ∃ top, AllocatesNat size.toNat s (fsStoreAllocData size s) top := by
  have writes : fsStoreAllocData size s = (sbWrite >>= fun _ => pure s.sb.dataTop)
      { s with sb := { s.sb with dataTop := UInt32.ofNat (s.sb.dataTop.toNat + size.toNat) } } := by
    have room : ¬ s.sb.dataTop.toNat + size.toNat > (halNvmSize s.hal .flash).toNat := Nat.not_lt.mpr fits
    rw [fsStoreAllocData, state_bind, if_neg (by simp [mounted]), if_neg room, update_bind]
  refine ⟨_, UInt32.toNat_ofNat_of_lt' (Nat.lt_of_le_of_lt fits s.hal.nvm.flash.size.toNat_lt), ?_, ?_⟩
  · rw [writes]
    exact keeps_bind (keeps_state_bind fun _ => keeps_bind (liftHal_sb _ _) fun _ => liftHal_sb _ _)
      (fun _ => keeps_pure) _
  · rw [writes, run_bind, run_bind, sbWrite, state_bind, writeDurably_exact]
    rfl

/-- What is refused is refused for a sum that does not fit. -/
theorem fsStoreAllocData_refused {size : UInt16}
    (full : ¬ (s.sb.mounted = true ∧ s.sb.dataTop.toNat + size.toNat ≤ s.hal.nvm.flash.size.toNat)) :
    ∃ e, fsStoreAllocData size s = (.error e, s) := by
  rw [fsStoreAllocData, state_bind]
  by_cases mounted : s.sb.mounted = true
  · have beyond : s.sb.dataTop.toNat + size.toNat > (halNvmSize s.hal .flash).toNat :=
      Nat.not_le.mp fun fits => full ⟨mounted, fits⟩
    rw [if_neg (by simp [mounted]), if_pos beyond]
    exact ⟨_, rfl⟩
  · rw [if_pos (by simpa using mounted)]
    exact ⟨_, rfl⟩

theorem fsStoreDataFree_exact (mounted : s.sb.mounted = true) (inside : s.sb.dataTop ≤ s.hal.nvm.flash.size) :
    s.sb.dataTop.toNat + (fsStoreDataFree s).toNat = s.hal.nvm.flash.size.toNat := by
  have below := UInt32.le_iff_toNat_le.mp inside
  rw [fsStoreDataFree, if_neg (by simp [mounted])]
  split
  · rw [show halNvmSize s.hal .flash = s.hal.nvm.flash.size from rfl, UInt32.toNat_sub_of_le _ _ inside]
    omega
  · rename_i full
    have above : s.hal.nvm.flash.size.toNat ≤ s.sb.dataTop.toNat := UInt32.le_iff_toNat_le.mp (UInt32.not_lt.mp full)
    exact Nat.le_antisymm below above

end Data

section Children

private theorem childCountIn_exact (parent : UInt16) {slots : List Nat} (small : slots.length < 65536) (s : Store) :
    (childCountIn parent slots s).2 = (childCountInNat parent slots s).2 ∧
      (childCountIn parent slots s).1.map UInt16.toNat = (childCountInNat parent slots s).1 ∧
      ∀ count, (childCountInNat parent slots s).1 = .ok count → count ≤ slots.length := by
  induction slots generalizing s with
  | nil => exact ⟨rfl, rfl, fun _ counted => by cases counted; exact Nat.le_refl 0⟩
  | cons i rest ih =>
    rw [childCountIn, childCountInNat, attempt_bind, attempt_bind]
    rcases fsStoreReadDesc (UInt16.ofNat i) s with ⟨e | d, s'⟩
    · obtain ⟨store, same, below⟩ := ih (Nat.lt_of_succ_lt small) s'
      exact ⟨store, same, fun count counted => Nat.le_succ_of_le (below count counted)⟩
    · obtain ⟨store, same, below⟩ := ih (Nat.lt_of_succ_lt small) s'
      dsimp only
      rw [run_bind, run_bind]
      generalize childCountIn parent rest s' = counted at store same
      generalize childCountInNat parent rest s' = countedNat at store same below
      obtain ⟨e | count, s₁⟩ := counted <;> obtain ⟨e' | countNat, s₂⟩ := countedNat
      · exact ⟨store, same, by simp⟩
      · cases same
      · cases same
      · obtain rfl : s₁ = s₂ := store
        obtain rfl : count.toNat = countNat := Except.ok.inj same
        have fewer := below _ rfl
        rw [List.length_cons] at small ⊢
        by_cases child : d.parent = parent
        · have next : (count + 1).toNat = count.toNat + 1 := by
            rw [UInt16.toNat_add]
            exact Nat.mod_eq_of_lt (by simp only [UInt16.reduceToNat]; omega)
          simp only [if_pos child, run_pure, Except.map, next, Except.ok.injEq, true_and]
          rintro _ rfl
          omega
        · simp only [if_neg child, run_pure, Except.map, Except.ok.injEq, true_and]
          rintro _ rfl
          omega

theorem fsChildCount_exact (parent : UInt16) (s : Store) :
    (fsChildCount parent s).2 = (fsChildCountNat parent s).2 ∧
      (fsChildCount parent s).1.map UInt16.toNat = (fsChildCountNat parent s).1 := by
  rw [fsChildCount, fsChildCountNat, state_bind, state_bind]
  have small : (List.range (fsStoreMaxFiles s).toNat).length < 65536 := by
    rw [List.length_range]
    exact UInt16.toNat_lt _
  obtain ⟨store, same, -⟩ := childCountIn_exact parent small s
  exact ⟨store, same⟩

end Children

end CardOs.UnboundedProofs
