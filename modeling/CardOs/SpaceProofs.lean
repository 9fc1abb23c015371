import CardOs.CreationProofs

/-! The data space over the life of a card: deleting a file that was just created puts
the table and the selection back and keeps its space taken, and the free space never
grows. -/
namespace CardOs.SpaceProofs
open CardOs.Library CardOs.Library.Action CardOs.FsTypes CardOs.HalNvm CardOs.FsStore CardOs.FsStoreProofs CardOs.Fs
open CardOs.FileTree CardOs.FsProofs CardOs.FsChangeProofs CardOs.FsInitProofs CardOs.Kernel CardOs.CardProofs
open CardOs.CardSafety CardOs.StorageProofs CardOs.StoreChanges CardOs.Transactions CardOs.CrashProofs
open CardOs.RetryProofs CardOs.ResidueProofs
open CardOs.RemountProofs (rawSuperblock applied_superblock)

section Undo
variable {s s₁ : Store} {t : FileTree} {sel : FsSelection} {req d : FsDescriptor} {slot : UInt16} {top : UInt32}

/-- A file in a slot that was free has no children yet. -/
theorem inserted_removable (ok : Insertable t slot d top) : Removable (t.insert ok) slot where
  notRoot := by
    rintro rfl
    have free := ok.free
    rw [t.root] at free
    cases free
  leaf := by
    intro i e live child
    change Function.update t.table slot (some d) i = some e at live
    have taken : ∃ p, t.table e.parent = some p := by
      by_cases here : i = slot
      · subst here
        rw [Function.update_self] at live
        cases live
        obtain ⟨p, parentLive, -⟩ := ok.file.parent
        exact ⟨p, parentLive⟩
      · rw [Function.update_of_ne here] at live
        have named : e.parent ≠ fsNoParent := by
          rw [child]
          intro invalid
          exact absurd ok.bound (by rw [invalid]; decide)
        obtain ⟨p, parentLive, -⟩ := parent_df live named
        exact ⟨p, parentLive⟩
    obtain ⟨p, parentLive⟩ := taken
    rw [child, ok.free] at parentLive
    cases parentLive

theorem remove_insert (ok : Insertable t slot d top) (leaf : Removable (t.insert ok) slot) :
    ((t.insert ok).remove leaf).table = t.table := by
  have back : Function.update (Function.update t.table slot (some d)) slot none = t.table := by
    rw [Function.update_idem]
    exact Function.update_eq_self_iff.mpr ok.free.symm
  exact back

/-- A selection does not name a free slot. -/
theorem deselect_free (df : DfSelected t sel) (ef : EfSelected t sel) (bound : slot < fsMaxFiles)
    (free : t.table slot = none) : deselect sel slot = sel := by
  have otherDf : sel.curDf ≠ slot := by
    rintro rfl
    obtain ⟨p, live, -⟩ := df
    cases free.symm.trans live
  have otherEf : sel.curEf ≠ slot := by
    rintro rfl
    rcases ef with none | ⟨d, live, -⟩
    · exact absurd bound (by rw [none]; decide)
    · cases free.symm.trans live
  rw [deselect_child otherDf, if_neg otherEf]

theorem rawSlot_ready {s₂ : Store} {t₂ : FileTree} (ready : Ready s t) (ready₂ : Ready s₂ t₂)
    (table : t₂.table = t.table) {i : UInt16} (inside : i < fsMaxFiles) : rawSlot s₂ i = rawSlot s i := by
  rw [rawSlot, rawSlot, ready.holds.slot i inside, ready₂.holds.slot i inside, table]

/-- A creation is undone by a deletion, but for the data space. -/
theorem fsCreateFile_undone (ready : Ready s t) (df : DfSelected t sel) (ef : EfSelected t sel)
    (reliable : s.hal.writeFaults = []) (created : fsCreateFile sel req s = (.ok slot, s₁)) :
    ∃ s₂, fsDeleteFile sel req.fileId s₁ = (.ok sel, s₂) ∧ (∀ i, i < fsMaxFiles → rawSlot s₂ i = rawSlot s i) ∧
      s₂.sb.dataTop.toNat = s.sb.dataTop.toNat + if req.type = .efTransparent then req.size.toNat else 0 := by
  generalize made : (Except.ok slot : Except FsError UInt16) = result at created
  have outcome := fsCreateFile_created ready created
  cases outcome with
  | refused e => cases made
  | placed taken outcome may placed =>
    cases placed with
    | noSpace => cases made
    | torn => cases made
    | done ok ready₁ flash grown kept =>
      cases made
      have leaf := inserted_removable ok
      have live : (t.insert ok).table taken = some (placedAt s (newDescriptor sel req)) := Function.update_self ..
      have named : (placedAt s (newDescriptor sel req)).fileId = req.fileId := by
        unfold placedAt
        split <;> rfl
      have child : (placedAt s (newDescriptor sel req)).parent = sel.curDf := by
        unfold placedAt
        split <;> rfl
      obtain ⟨s₂, deleted, removed, sb⟩ := fsDeleteFile_leaf ready₁ (kept reliable) live child leaf
      rw [named, deselect_free df ef ok.bound ok.free] at deleted
      refine ⟨s₂, deleted, fun i inside => rawSlot_ready ready removed (remove_insert ok leaf) inside, ?_⟩
      rw [sb, grown]
      rfl

end Undo

/-! The free space. -/

/-- The RAM mirror and the superblock agree on the data top. -/
def Level (s : Store) : Prop := s.sb.dataTop = storedTop s.hal.nvm

/-- The free space has not grown, and the two records of the data top agree again. -/
structure Shrinks (s s' : Store) : Prop where
  level : Level s'
  top : s.sb.dataTop ≤ s'.sb.dataTop
  size : s'.hal.nvm.flash.size = s.hal.nvm.flash.size

section Shrinking
variable {s s' : Store} {t : FileTree} {card : Card}

theorem storedTop_sbBytes {s : Store} {top : UInt32} (written : rawSuperblock s = sbBytes top) :
    storedTop s.hal.nvm = top := by
  rw [storedTop, show s.hal.nvm.eeprom.read 0 fsSuperblockSize = sbBytes top from written]
  exact BigEndian.word32_bytes32 top

theorem Shrinks.refl (level : Level s) : Shrinks s s := ⟨level, UInt32.le_refl _, rfl⟩

theorem Shrinks.trans {s'' : Store} (first : Shrinks s s') (second : Shrinks s' s'') : Shrinks s s'' :=
  ⟨second.level, UInt32.le_trans first.top second.top, second.size.trans first.size⟩

/-- A remount takes the data top from the superblock. -/
theorem remounted_shrinks (level : Level s) (ready : Ready s t) : Shrinks s { s with sb := mirrorOf t.top } := by
  have top : s.sb.dataTop = t.top := level.trans (storedTop_ready ready)
  exact ⟨(storedTop_ready ready).symm, by rw [top]; exact UInt32.le_refl _, rfl⟩

theorem process_shrinks (serving : Serving t card) (level : Level card.store) (cmd : Option (List UInt8))
    (cap : UInt16) : Shrinks card.store (scosProcess cmd cap card).2.2.store := by
  have calm : Calm card.store := ⟨serving.live.ready.reads, serving.reliable⟩
  obtain ⟨sb, nvm, -⟩ := scosProcess_calm (live_fits serving.live) calm cmd cap
  have applied := applied_superblock (processChange cmd cap card) card.store.hal.nvm
  have sizes := applyAll_size (processChange cmd cap card).requests card.store.hal.nvm .flash
  rw [← nvm] at applied sizes
  cases change : processChange cmd cap card with
  | allocate top slot d =>
    rw [change] at applied sb
    have written := storedTop_sbBytes applied
    exact ⟨by rw [Level, sb, written]; rfl, by rw [sb]; exact (processChange_top change).1, sizes⟩
  | nothing | update | free | place =>
    rw [change] at applied sb
    have same : storedTop (scosProcess cmd cap card).2.2.store.hal.nvm = storedTop card.store.hal.nvm :=
      congrArg (getU32 · 8) applied
    refine ⟨?_, ?_, sizes⟩
    · rw [Level, sb, same]
      exact level
    · rw [sb]
      exact UInt32.le_refl _

theorem step_shrinks (serving : Serving t card) (level : Level card.store) (event : CardEvent) :
    Shrinks card.store (step card event).store := by
  have ready := serving.live.ready
  cases event with
  | apdu cmd cap => exact process_shrinks serving level cmd cap
  | reset => exact .refl level
  | init =>
    rw [step, scosInit_mounts ready.reads ready.holds]
    exact remounted_shrinks level ready
  | powerCycle =>
    rw [step, powerUp_mounts ready.reads ready.holds]
    exact remounted_shrinks level ready

theorem lifeStep_shrinks (serving : Serving t card) (level : Level card.store) (event : LifeEvent) :
    Shrinks card.store (lifeStep card event).store := by
  cases event with
  | used event => exact step_shrinks serving level event
  | cut cmd cap k later =>
    have served := process_shrinks serving level cmd cap
    obtain ⟨-, ⟨t', booted⟩, files⟩ := cut_atomic serving.live serving.reliable cmd cap k later
    have stored : (restart (torn cmd cap k later card)).2.store.sb.dataTop =
        storedTop (restart (torn cmd cap k later card)).2.store.hal.nvm := by
      rw [storedTop_ready booted.live.ready, booted.sb]
      rfl
    rw [lifeStep]
    refine ⟨stored, ?_, ?_⟩
    · rw [stored]
      rcases files with before | after
      · rw [level]
        exact before.top
      · exact UInt32.le_trans (UInt32.le_trans served.top (UInt32.le_of_eq served.level)) after.top
    · have nvm := booted.nvm
      rw [torn_nvm serving.live serving.reliable] at nvm
      rw [nvm]
      exact applyAll_size _ _ .flash

theorem life_shrinks (serving : Serving t card) (level : Level card.store) (events : List LifeEvent) :
    Shrinks card.store (life card events).store := by
  induction events generalizing card t with
  | nil => exact .refl level
  | cons event rest ih =>
    have first := lifeStep_shrinks serving level event
    obtain ⟨t', serving'⟩ := lifeStep_serving serving event
    exact first.trans (ih serving' first.level)

theorem dataFree_shrinks (mounted : s.sb.mounted = true) (mounted' : s'.sb.mounted = true) (shrinks : Shrinks s s') :
    fsStoreDataFree s' ≤ fsStoreDataFree s := by
  have top := UInt32.le_iff_toNat_le.mp shrinks.top
  have size : halNvmSize s'.hal .flash = halNvmSize s.hal .flash := shrinks.size
  unfold fsStoreDataFree
  simp only [mounted, mounted', size, Bool.not_true, Bool.false_eq_true, if_false]
  split
  · rename_i room'
    have less' := UInt32.lt_iff_toNat_lt.mp room'
    have room : s.sb.dataTop < halNvmSize s.hal .flash := UInt32.lt_of_le_of_lt shrinks.top room'
    rw [if_pos room, UInt32.le_iff_toNat_le, UInt32.toNat_sub_of_le _ _ (UInt32.le_of_lt room'),
      UInt32.toNat_sub_of_le _ _ (UInt32.le_of_lt room)]
    omega
  · exact UInt32.zero_le

/-- The factory leaves 112 as the data top in the superblock. -/
theorem factory_superblock (nvm : Nvm) :
    (applyAll factoryRequests nvm).eeprom.read 0 (sbBytes 112).length = sbBytes 112 := by
  have split : factoryRequests =
      factoryRequests.take 46 ++ .write .eeprom 0 (sbBytes 112) .nvm :: factoryRequests.drop 47 := by decide +kernel
  rw [split, applyAll_append, applyAll_cons]
  exact applyAll_leaves (by decide +kernel) (Region.read_write_same rfl)

theorem booted_level {eepromSize flashSize : UInt32} (booted : scosInit (blankCard eepromSize flashSize) = (.ok, card)) :
    Level card.store := by
  obtain ⟨t, -, -, top, nvm⟩ := blank_made booted
  have written : rawSuperblock card.store = sbBytes 112 := by
    rw [rawSuperblock, nvm]
    exact factory_superblock _
  rw [Level, top, storedTop_sbBytes written]

end Shrinking

/-- Whatever happened to a card since its first boot, a file that it accepts can be
deleted again at once: the table is byte for byte what it was, the selection is the
same, and the data top has moved by the size of the EF. And whatever happens to it,
its free data space does not grow. -/
theorem create_then_delete_keeps_all_but_space {eepromSize flashSize : UInt32} {booted : Card}
    (boots : scosInit (blankCard eepromSize flashSize) = (.ok, booted)) (events : List LifeEvent) :
    let card := life booted events
    (∀ req slot s₁, fsCreateFile card.kernel.sel req card.store = (.ok slot, s₁) →
      ∃ s₂, fsDeleteFile card.kernel.sel req.fileId s₁ = (.ok card.kernel.sel, s₂) ∧
        (∀ i, i < fsMaxFiles → rawSlot s₂ i = rawSlot card.store i) ∧
        s₂.sb.dataTop.toNat =
          card.store.sb.dataTop.toNat + if req.type = .efTransparent then req.size.toNat else 0) ∧
      ∀ later, fsStoreDataFree (life card later).store ≤ fsStoreDataFree card.store := by
  intro card
  obtain ⟨t, serving⟩ := booted_serving boots events
  obtain ⟨t₀, started⟩ := booted_serving boots []
  have level := (life_shrinks started (booted_level boots) events).level
  refine ⟨fun req slot s₁ created => ?_, fun later => ?_⟩
  · exact fsCreateFile_undone serving.live.ready serving.live.df serving.ef serving.reliable created
  · obtain ⟨t', serving'⟩ := life_serving serving later
    exact dataFree_shrinks serving.live.ready.mounted serving'.live.ready.mounted (life_shrinks serving level later)

/-- An EF 1234 of one byte. -/
def oneByteEf : FsDescriptor :=
  { FsDescriptor.zeroed .efTransparent with fileId := 0x1234, lifecycle := fsLcActivated, size := 1 }

theorem create_then_delete_one_byte : ∃ booted slot s₁ s₂, scosInit (blankCard 656 256) = (.ok, booted) ∧
    fsCreateFile booted.kernel.sel oneByteEf booted.store = (.ok slot, s₁) ∧
    fsDeleteFile booted.kernel.sel 0x1234 s₁ = (.ok booted.kernel.sel, s₂) ∧
    s₂.sb.dataTop.toNat = booted.store.sb.dataTop.toNat + 1 := by
  rcases boots : scosInit (blankCard 656 256) with ⟨status, booted⟩
  have ok : (scosInit (blankCard 656 256)).1 = .ok := by decide +kernel
  have accepts : (fsCreateFile (scosInit (blankCard 656 256)).2.kernel.sel oneByteEf
    (scosInit (blankCard 656 256)).2.store).1 = .ok 5 := by decide +kernel
  rw [boots] at ok accepts
  obtain rfl : status = .ok := ok
  rcases created : fsCreateFile booted.kernel.sel oneByteEf booted.store with ⟨result, s₁⟩
  rw [created] at accepts
  obtain rfl : result = .ok 5 := accepts
  obtain ⟨s₂, deleted, -, grown⟩ := (create_then_delete_keeps_all_but_space boots []).1 oneByteEf 5 s₁ created
  exact ⟨booted, 5, s₁, s₂, rfl, created, deleted, grown⟩

end CardOs.SpaceProofs
