import CardOs.SelectionProofs
import CardOs.Transactions

/-! What DELETE FILE does when the device fails under it: where the current EF points
after a deletion whose write or barrier was refused. -/
namespace CardOs.FailureProofs
open CardOs.Library CardOs.Library.Action CardOs.Apdu CardOs.FsTypes CardOs.HalNvm CardOs.FsStore CardOs.FsStoreProofs
open CardOs.Fs CardOs.FileTree CardOs.FsProofs CardOs.FsChangeProofs CardOs.FileCommands CardOs.Kernel
open CardOs.AnswerProofs CardOs.CardProofs CardOs.CardSafety CardOs.StorageProofs CardOs.Transactions
open CardOs.CrashProofs CardOs.SelectionProofs

/-- The next write is carried out, but it or the barrier after it reports a failure. -/
def tears : List WriteFault → Bool
  | .stored :: _ => true
  | .none :: .lost :: _ | .none :: .stored :: _ => true
  | _ => false

section Writing
variable {s s' : Store} {region : NvmRegion} {offset : UInt32} {raw : List UInt8} {refused : FsError}
  {result : Except FsError Unit}

/-- What a write inside its region does, by the next entry of the plan. -/
private theorem halNvmWrite_planned {hal : Hal} (nonempty : raw ≠ [])
    (inside : offset.toNat + raw.length ≤ (hal.nvm.region region).size.toNat) :
    ∃ hal' : Hal, hal'.nvm = hal.nvm ∧ hal'.writeFaults = hal.writeFaults.tail ∧
      halNvmWrite region offset raw hal =
        match hal.writeFaults.head? with
        | some .lost => (.error .io, hal')
        | some .stored => (.error .io, applyWrite region offset raw hal')
        | _ => (.ok (), applyWrite region offset raw hal') := by
  have fits : inRange (halNvmSize hal region) offset raw.length = true := inRange_iff.mpr inside
  refine ⟨{ hal with writes := hal.writes + 1, writeFaults := hal.writeFaults.tail }, rfl, rfl, ?_⟩
  have fits' : inRange (halNvmSize { hal with writes := hal.writes + 1 } region) offset raw.length = true := fits
  simp only [halNvmWrite, nonempty, if_false, fits', Bool.not_true, Bool.false_eq_true, nextWrite]
  rcases plan : hal.writeFaults with _ | ⟨_ | _ | _, rest⟩ <;> rfl

private theorem halNvmSync_planned (hal : Hal) :
    ∃ hal' : Hal, hal'.nvm = hal.nvm ∧ halNvmSync hal =
      (if hal.writeFaults.head? = some .lost ∨ hal.writeFaults.head? = some .stored then .error .io
        else .ok (), hal') := by
  refine ⟨{ hal with writeFaults := hal.writeFaults.tail }, rfl, ?_⟩
  obtain ⟨nvm, reads, faults, writes, errors⟩ := hal
  rcases faults with _ | ⟨_ | _ | _, rest⟩ <;> simp [halNvmSync, nextWrite]

/-- A durable write reports a failure over what it has stored exactly when it is torn. -/
theorem writeDurably_tears (nonempty : raw ≠ [])
    (inside : offset.toNat + raw.length ≤ (s.hal.nvm.region region).size.toNat)
    (ran : writeDurably region offset raw refused s = (result, s')) :
    (tears s.hal.writeFaults = true → s'.hal.nvm = s.hal.nvm.write region offset.toNat raw ∧ result ≠ .ok ()) ∧
      (tears s.hal.writeFaults = false → result = .ok () ∨ s'.hal.nvm = s.hal.nvm) := by
  obtain ⟨hal', nvm, faults, wrote⟩ := halNvmWrite_planned nonempty inside
  obtain ⟨hal'', nvm', synced⟩ := halNvmSync_planned (applyWrite region offset raw hal')
  have stored : hal''.nvm = s.hal.nvm.write region offset.toNat raw := by rw [nvm', applyWrite, nvm]
  have next : (applyWrite region offset raw hal').writeFaults = s.hal.writeFaults.tail := faults
  rw [next] at synced
  rw [writeDurably] at ran
  have kept (saved : halNvmWrite region offset raw s.hal = (.ok (), applyWrite region offset raw hal'))
      (ended : halNvmSync (applyWrite region offset raw hal') = (.ok (), hal'')) : result = .ok () := by
    rw [bind_ok (liftHal_ok saved), liftHal_ok ended] at ran
    cases ran
    rfl
  have torn (saved : halNvmWrite region offset raw s.hal = (.ok (), applyWrite region offset raw hal'))
      (ended : halNvmSync (applyWrite region offset raw hal') = (.error .io, hal'')) :
      s'.hal.nvm = s.hal.nvm.write region offset.toNat raw ∧ result ≠ .ok () := by
    rw [bind_ok (liftHal_ok saved), liftHal_error ended] at ran
    cases ran
    exact ⟨stored, by simp⟩
  rcases plan : s.hal.writeFaults with _ | ⟨first, rest⟩ <;> rw [plan] at synced wrote
  · exact ⟨by simp [tears], fun _ => .inl (kept wrote synced)⟩
  cases first with
  | none =>
    rcases rest with _ | ⟨second, rest⟩
    · exact ⟨by simp [tears], fun _ => .inl (kept wrote synced)⟩
    cases second with
    | none => exact ⟨by simp [tears], fun _ => .inl (kept wrote synced)⟩
    | lost => exact ⟨fun _ => torn wrote synced, by simp [tears]⟩
    | stored => exact ⟨fun _ => torn wrote synced, by simp [tears]⟩
  | lost =>
    rw [bind_error (liftHal_error wrote)] at ran
    cases ran
    exact ⟨by simp [tears], fun _ => .inr nvm⟩
  | stored =>
    rw [bind_error (liftHal_error wrote)] at ran
    cases ran
    exact ⟨fun _ => ⟨by rw [applyWrite, nvm], by simp⟩, by simp [tears]⟩

end Writing

section Deleting
variable {s s' : Store} {t : FileTree} {sel : FsSelection} {fileId slot : UInt16}

theorem ready_withPlan (plan : List WriteFault) (ready : Ready s t) : Ready (withPlan plan s) t :=
  ⟨ready.reads, ready.mounted, ready.maxFiles, ready.holds, ready.mirror, ready.mirrorInside⟩

/-- The slot to free is the one of the named child. -/
theorem deleteChecks_target (ready : Ready s t) (passed : deleteChecks sel fileId s = (.ok slot, s')) :
    ChildNamed t.table sel.curDf fileId slot := by
  unfold deleteChecks at passed
  split at passed
  · cases passed
  · obtain ⟨index, s₁, found, rest⟩ := bind_eq_ok passed
    have child : ChildNamed t.table sel.curDf fileId index := by
      rcases fsFindChild_cases ready sel.curDf fileId with ⟨i, d, found', live, under, named⟩ | ⟨missing, _⟩
      · cases found.symm.trans found'
        exact ⟨d, live, under, named⟩
      · cases found.symm.trans missing
    obtain ⟨d, s₂, _, rest⟩ := bind_eq_ok rest
    split at rest
    · cases rest
    · obtain ⟨occupied, s₃, _, rest⟩ := bind_eq_ok rest
      split at rest
      · cases rest
      · cases rest
        exact child

/-- Freeing a slot of the tree leaves the tree with or without it. -/
private theorem freed_files {d : FsDescriptor} {result : Except FsError Unit} (ready : Ready s t)
    (live : t.table slot = some d)
    (freed : fsStoreFreeDesc slot s = (result, s')) :
    (tears s.hal.writeFaults = true → fileAt s' slot = none ∧ result ≠ .ok ()) ∧
      (tears s.hal.writeFaults = false → result = .ok () ∨ fileAt s' = t.table) ∧
      ∀ i, i ≠ slot → fileAt s' i = t.table i := by
  have bound := t.bounded slot d live
  have small := index_lt bound
  have fits := ready.holds.fits
  have inside : (descOffset slot).toNat + (slotBytes none).length ≤ (s.hal.nvm.region .eeprom).size.toNat := by
    rw [descOffset_toNat, slotBytes_length, fsDescSize]
    simp only [Nvm.region]
    omega
  have wrote := (freeDesc_eq ready bound).symm.trans freed
  have written := writeDurably_written (by decide) inside wrote
  obtain ⟨torn, whole⟩ := writeDurably_tears (by decide) inside wrote
  have removed : s'.hal.nvm = s.hal.nvm.write .eeprom (descOffset slot).toNat (slotBytes none) →
      fileAt s' = Function.update t.table slot none := by
    intro nvm
    refine fileAt_mounted (ready.carry written.sb written.reads (nvm ▸ ready.holds.write_slot bound (by simp))
      ready.mirror (by rw [nvm]; rfl)) fun i e held => ?_
    by_cases here : i = slot
    · exact here ▸ bound
    · exact t.bounded i e (by simpa [here] using held)
  have kept : s'.hal.nvm = s.hal.nvm → fileAt s' = t.table := fun nvm =>
    fileAt_mounted (ready.carry written.sb written.reads (nvm ▸ ready.holds) ready.mirror (by rw [nvm])) t.bounded
  refine ⟨fun tear => ?_, fun calm => (whole calm).imp id kept, fun i other => ?_⟩
  · obtain ⟨nvm, failed⟩ := torn tear
    exact ⟨by simp [removed nvm], failed⟩
  · rcases written.nvm with nvm | ⟨nvm, _⟩
    · simp [removed nvm, other]
    · rw [kept nvm]

/-- The current EF after a deletion is live, unless it is the file to delete and its slot was
freed while the device reported a failure. -/
theorem fsDeleteFile_selection (ready : Ready s t) (ef : EfSelected t sel) (fileId : UInt16) :
    ((selectionAfter sel (fsDeleteFile sel fileId s).1).curEf = fsInvalidIndex ∨
        ∃ d, fileAt (fsDeleteFile sel fileId s).2 (selectionAfter sel (fsDeleteFile sel fileId s).1).curEf = some d) ↔
      ¬ (ChildNamed t.table sel.curDf fileId sel.curEf ∧ tears s.hal.writeFaults = true) := by
  rcases inspects_cases (deleteChecks_inspects ready sel fileId) with ⟨slot, passed, d, live, child, _⟩ | ⟨e, failed⟩
  · have target := deleteChecks_target ready passed
    have other : sel.curDf ≠ slot := fun same => parent_ne_self live (child.trans same)
    rcases freed : fsStoreFreeDesc slot s with ⟨result, s'⟩
    obtain ⟨torn, whole, rest⟩ := freed_files ready live freed
    have outcome : fsDeleteFile sel fileId s = (result.map fun _ => deselect sel slot, s') := by
      rw [fsDeleteFile, bind_ok passed]
      cases result with
      | error e => rw [bind_error freed]; rfl
      | ok u => rw [bind_ok freed]; rfl
    rw [outcome]
    by_cases current : sel.curEf = slot
    · -- the current EF is the file to delete
      cases tear : tears s.hal.writeFaults with
      | true =>
        obtain ⟨gone, failed⟩ := torn tear
        refine iff_of_false ?_ (not_not.mpr ⟨current ▸ target, rfl⟩)
        cases result with
        | ok u => exact absurd rfl failed
        | error e =>
          rintro (none | ⟨d', held⟩)
          · exact live_ne_invalid live (current.symm.trans none)
          · rw [show (selectionAfter sel (Except.map (fun _ => deselect sel slot) (.error e))).curEf = slot from current,
              gone] at held
            cases held
      | false =>
        refine iff_of_true ?_ (by simp)
        cases result with
        | ok u => exact .inl (by simp [Except.map, selectionAfter, deselect_child other, current])
        | error e =>
          have files := (whole tear).resolve_left (by simp)
          exact .inr ⟨d, by rw [files]; exact (congrArg t.table current).trans live⟩
    · have stays : (selectionAfter sel (result.map fun _ => deselect sel slot)).curEf = sel.curEf := by
        cases result with
        | ok u => simp [Except.map, selectionAfter, deselect_child other, current]
        | error e => rfl
      rw [stays, rest _ current]
      refine iff_of_true (ef.imp id fun ⟨d, live, _⟩ => ⟨d, live⟩) ?_
      rintro ⟨named, _⟩
      exact current (child_unique named target)
  · -- nothing was written
    have kept : fsDeleteFile sel fileId s = (.error e, s) := by rw [fsDeleteFile, bind_error failed]
    rw [kept, fileAt_ready ready]
    refine iff_of_true (ef.imp id fun ⟨d, live, _⟩ => ⟨d, live⟩) ?_
    rintro ⟨⟨d, live, child, rfl⟩, _⟩
    rcases ef with none | ⟨d', live', isEf, _⟩
    · exact live_ne_invalid live none
    · cases live.symm.trans live'
      have typed : d.type = .efTransparent := of_decide_eq_true isEf
      rw [deleteChecks_passes ready live child (removable_ef live typed)] at failed
      cases failed

end Deleting

/-- After a deletion, whatever its write and barrier report, the current EF is a live file or none,
except when the current EF itself was to be deleted and the write that freed its slot, or the barrier
after it, reported a failure. -/
theorem deletion_keeps_selection_iff {eepromSize flashSize : UInt32} {booted : Card}
    (boots : scosInit (blankCard eepromSize flashSize) = (.ok, booted)) (events : List LifeEvent) (fileId : UInt16)
    (plan : List WriteFault) :
    let card := life booted events
    let outcome := fsDeleteFile card.kernel.sel fileId (withPlan plan card.store)
    let chosen := selectionAfter card.kernel.sel outcome.1
    (chosen.curEf = fsInvalidIndex ∨ ∃ d, fileAt outcome.2 chosen.curEf = some d) ↔
      ¬ (ChildNamed (fileAt card.store) card.kernel.sel.curDf fileId card.kernel.sel.curEf ∧ tears plan = true) := by
  intro card outcome chosen
  obtain ⟨t, live, _, ef⟩ := booted_serving boots events
  rw [fileAt_ready live.ready]
  exact fsDeleteFile_selection (ready_withPlan plan live.ready) ef fileId

def intoEf : List LifeEvent := [.used (.apdu (some [0x00, 0xA4, 0x00, 0x0C, 0x02, 0x2F, 0x00]) 258)]

/-- EF 2F00 is selected and deleted, and the write that should free its slot fails without
having stored anything. The EF stays selected, and it is still there. -/
theorem deletion_keeps_selection_iff_lost_write : ∃ booted, scosInit (blankCard 656 112) = (.ok, booted) ∧
    let card := life booted intoEf
    let outcome := fsDeleteFile card.kernel.sel 0x2F00 (withPlan [.lost] card.store)
    outcome.1 = .error .nvm ∧ card.kernel.sel.curEf = 1 ∧ ∃ d, fileAt outcome.2 1 = some d := by
  obtain ⟨booted, boots⟩ := small_chip_boots
  have failed : (fsDeleteFile (life (scosInit (blankCard 656 112)).2 intoEf).kernel.sel 0x2F00
    (withPlan [.lost] (life (scosInit (blankCard 656 112)).2 intoEf).store)).1 = .error .nvm := by decide +kernel
  have current : (life (scosInit (blankCard 656 112)).2 intoEf).kernel.sel.curEf = 1 := by decide +kernel
  rw [boots] at failed current
  have kept := (deletion_keeps_selection_iff boots intoEf 0x2F00 [.lost]).mpr (by simp [tears])
  rw [failed, selectionAfter, current] at kept
  exact ⟨booted, boots, failed, current, kept.resolve_left (by decide)⟩

/-- EF 2F00 is selected and deleted; the slot is freed and the barrier fails. The EF stays selected. -/
theorem failed_barrier_keeps_freed_ef_selected :
    let card := life (scosInit (blankCard 656 112)).2 intoEf
    let outcome := fsDeleteFile card.kernel.sel 0x2F00 (withPlan [.none, .lost] card.store)
    (scosInit (blankCard 656 112)).1 = .ok ∧ outcome.1 = .error .nvm ∧ card.kernel.sel.curEf = 1 ∧
      fileAt outcome.2 1 = none := by
  decide +kernel

end CardOs.FailureProofs
