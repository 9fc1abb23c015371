import CardOs.FactoryChanges
import CardOs.DamageProofs

/-! The first boot of a blank chip, cut off by a power loss and tried again. The
superblock is what makes the card look formatted, and it is written before the MF
and the factory files: a cut before it is made good by the next boot, and a cut
after it and before the last file is not. -/
namespace CardOs.RetryProofs
open CardOs.Library CardOs.Library.Action CardOs.FsTypes CardOs.HalNvm CardOs.FsStore CardOs.FsStoreProofs CardOs.Fs
open CardOs.Kernel CardOs.FsProofs CardOs.FsInitProofs CardOs.StorageProofs CardOs.StoreChanges CardOs.FactoryChanges
open CardOs.DamageProofs

/-- Power comes back: RAM is lost, the memories are as they were, and the device works. -/
def recovered (s : Store) : Store :=
  { hal := { s.hal with readFaults := [], writeFaults := [] }, sb := ⟨false, 0, 0, 0⟩ }

/-- The first boot of a blank chip whose power fails after `k` device operations,
writes and barriers counted. -/
def tornBoot (eepromSize flashSize : UInt32) (k : Nat) (later : List WriteFault) : Store :=
  (fsInit (withPlan (List.replicate k .none ++ .lost :: later) (blankCard eepromSize flashSize).store)).2

/-- Everything asked for on a chip that has room for the factory files. -/
def factoryRequests : List Request := personalRequests 112

section Cuts
variable {nvm : Nvm} {requests : List Request} {start : Nat} {bytes : List UInt8}

/-- The operation leaves this block of EEPROM alone, or stores the same block again. -/
def Leaves (start : Nat) (bytes : List UInt8) : Request → Prop
  | .write .eeprom offset raw _ =>
    (offset.toNat + raw.length ≤ start ∨ start + bytes.length ≤ offset.toNat) ∨
      (offset.toNat = start ∧ bytes.length ≤ raw.length ∧ raw.take bytes.length = bytes)
  | _ => True

instance (start : Nat) (bytes : List UInt8) : DecidablePred (Leaves start bytes) := fun request =>
  match request with
  | .write .eeprom _ _ _ => inferInstanceAs (Decidable (_ ∨ _))
  | .write .flash _ _ _ => isTrue trivial
  | .sync => isTrue trivial

private theorem apply_leaves {request : Request} (leaves : Leaves start bytes request)
    (here : nvm.eeprom.read start bytes.length = bytes) :
    (request.apply nvm).eeprom.read start bytes.length = bytes := by
  cases request with
  | sync => exact here
  | write region offset raw refused =>
    cases region with
    | flash => exact here
    | eeprom =>
      rw [Request.apply, Nvm.write_eeprom_eeprom]
      rcases leaves with apart | ⟨at', long, again⟩
      · rw [Region.read_write_apart (by omega)]
        exact here
      · rw [at', ← Region.take_read bytes.length long, Region.read_write_same rfl]
        exact again

theorem applyAll_leaves (leaves : ∀ request ∈ requests, Leaves start bytes request)
    (here : nvm.eeprom.read start bytes.length = bytes) :
    (applyAll requests nvm).eeprom.read start bytes.length = bytes := by
  induction requests generalizing nvm with
  | nil => exact here
  | cons request rest ih =>
    rw [applyAll_cons]
    exact ih (fun other member => leaves other (List.mem_cons_of_mem _ member))
      (apply_leaves (leaves request List.mem_cons_self) here)

/-- The formatting loop keeps off the superblock. -/
private theorem erasing_leaves : ∀ request ∈ factoryRequests.take 32, Leaves 0 [0xFF, 0xFF, 0xFF, 0xFF] request := by
  decide +kernel

/-- The superblock is never without the magic again. -/
private theorem later_leaves : ∀ request ∈ factoryRequests.drop 33, Leaves 0 fsMagic request := by
  decide +kernel

/-- Nothing but the last file is stored in the last factory slot. -/
private theorem early_leaves : ∀ request ∈ factoryRequests.take 48, Leaves 96 freeDesc request := by
  decide +kernel

private theorem mem_take_le {j m : Nat} {request : Request} (le : j ≤ m) (member : request ∈ factoryRequests.take j) :
    request ∈ factoryRequests.take m := by
  rw [← Nat.min_eq_left le, ← List.take_take] at member
  exact List.mem_of_mem_take member

/-- Before the superblock is written the card looks blank. -/
private theorem torn_blank {j : Nat} (early : j ≤ 32) (blank : nvm.eeprom.read 0 4 = [0xFF, 0xFF, 0xFF, 0xFF]) :
    (applyAll (factoryRequests.take j) nvm).eeprom.read 0 4 = [0xFF, 0xFF, 0xFF, 0xFF] :=
  applyAll_leaves (fun request member => erasing_leaves request (mem_take_le early member)) blank

/-- Once the superblock is written the card looks formatted. -/
private theorem torn_magic {j : Nat} (past : 32 < j) :
    (applyAll (factoryRequests.take j) nvm).eeprom.read 0 4 = fsMagic := by
  obtain ⟨m, rfl⟩ := Nat.exists_eq_add_of_lt past
  have split : factoryRequests.take (32 + m + 1) = factoryRequests.take 32 ++
      .write .eeprom 0 (sbBytes 0) .nvm :: (factoryRequests.drop 33).take m := by
    rw [show 32 + m + 1 = 33 + m by omega, List.take_add, show factoryRequests.take 33 = factoryRequests.take 32 ++
      [.write .eeprom 0 (sbBytes 0) .nvm] by decide +kernel, List.append_assoc]
    rfl
  rw [split, applyAll_append, applyAll_cons]
  refine applyAll_leaves (fun request member => later_leaves request (List.mem_of_mem_take member)) ?_
  rw [Request.apply, Nvm.write_eeprom_eeprom]
  rw [show fsMagic.length = 4 from rfl, ← Region.take_read 4 (by decide : 4 ≤ fsSuperblockSize),
    show (0 : UInt32).toNat = 0 from rfl, Region.read_write_same (show fsSuperblockSize = (sbBytes 0).length from rfl)]
  rfl

/-- Until the last file is written its slot is free. -/
private theorem torn_missing {j : Nat} (short : j ≤ 48) (blank : nvm.eeprom.read 96 fsDescSize = freeDesc) :
    (applyAll (factoryRequests.take j) nvm).eeprom.read 96 fsDescSize = freeDesc :=
  applyAll_leaves (fun request member => early_leaves request (mem_take_le short member)) blank

/-- After the last file only a barrier is left to ask for. -/
private theorem torn_finished {j : Nat} (late : 48 < j) :
    applyAll (factoryRequests.take j) nvm = applyAll factoryRequests nvm := by
  obtain ⟨m, rfl⟩ := Nat.exists_eq_add_of_lt late
  have whole : factoryRequests = factoryRequests.take 49 ++ [.sync] := by decide +kernel
  have end' : factoryRequests.take (48 + m + 1) = factoryRequests.take 49 ++ ([.sync] : List Request).take m := by
    rw [show 48 + m + 1 = 49 + m by omega, List.take_add, show factoryRequests.drop 49 = [.sync] by decide +kernel]
  rw [end', applyAll_append]
  conv_rhs => rw [whole, applyAll_append]
  generalize applyAll (factoryRequests.take 49) nvm = stored
  cases m with
  | zero => rfl
  | succ m => rw [List.take_succ_cons, List.take_nil]

private theorem factory_inside (table : 656 ≤ nvm.eeprom.size.toNat) :
    ∀ request ∈ factoryRequests, request.Inside nvm := by
  have within : ∀ request ∈ factoryRequests, request.Inside ⟨.uniform 656 0xFF, .uniform 0 0xFF⟩ := by decide +kernel
  intro request member
  have inside := within request member
  cases request with
  | sync => trivial
  | write region offset raw refused =>
    cases region with
    | eeprom => exact ⟨inside.1, Nat.le_trans inside.2 table⟩
    | flash =>
      have nonempty := List.length_pos_iff.mpr inside.1
      have empty : offset.toNat + raw.length ≤ 0 := inside.2
      omega

private theorem layoutRequests_factory (flashSize : UInt32) :
    ∃ n, layoutRequests flashSize 0 factoryLayout = (layoutRequests 112 0 factoryLayout).take n ∧
      if 112 ≤ flashSize.toNat then 14 ≤ n else n ≤ 10 := by
  by_cases first : 32 ≤ flashSize.toNat
  · by_cases second : 96 ≤ flashSize.toNat
    · by_cases third : 112 ≤ flashSize.toNat
      · refine ⟨14, ?_, by simp [third]⟩
        simp [layoutRequests, factoryLayout, first, second, third, Nat.not_lt.mpr]
        rfl
      · refine ⟨10, ?_, by simp [third]⟩
        simp [layoutRequests, factoryLayout, first, second, Nat.not_le.mp third, Nat.not_lt.mpr]
        rfl
    · refine ⟨6, ?_, by rw [if_neg (by omega)]; omega⟩
      simp [layoutRequests, factoryLayout, first, Nat.not_le.mp second, Nat.not_lt.mpr]
      rfl
  · refine ⟨0, ?_, by rw [if_neg (by omega)]; omega⟩
    simp [layoutRequests, factoryLayout, Nat.not_le.mp first]

end Cuts

section Boots
variable {eepromSize flashSize : UInt32} {k n : Nat} {later : List WriteFault} {s : Store}

private theorem blank_no_magic (eepromSize flashSize : UInt32) :
    (blankCard eepromSize flashSize).store.hal.nvm.eeprom.read 0 4 ≠ fsMagic := by
  rw [show (blankCard eepromSize flashSize).store.hal.nvm.eeprom.read 0 4 = _ from Region.uniform_read]
  decide

/-- A chip without room for the table is left as it was. -/
private theorem tornBoot_small (small : eepromSize.toNat < 656) (flashSize : UInt32) (k : Nat)
    (later : List WriteFault) :
    (tornBoot eepromSize flashSize k later).hal.nvm = (blankCard eepromSize flashSize).store.hal.nvm := by
  unfold tornBoot
  generalize List.replicate k WriteFault.none ++ WriteFault.lost :: later = plan
  by_cases tiny : eepromSize.toNat < fsSuperblockSize
  · rw [fsInit, attempt_bind, @fsStoreMount_tiny (withPlan plan (blankCard eepromSize flashSize).store) tiny]
    rfl
  · rw [@fsInit_personalises (withPlan plan (blankCard eepromSize flashSize).store) rfl (Nat.not_lt.mp tiny)
      (blank_no_magic eepromSize flashSize),
      @fsPersonalise_small (unmount (withPlan plan (blankCard eepromSize flashSize).store)) small]
    rfl

private theorem personalRequests_factory (flashSize : UInt32) :
    ∃ n, personalRequests flashSize = factoryRequests.take n ∧ if 112 ≤ flashSize.toNat then 50 ≤ n else n ≤ 46 := by
  obtain ⟨n, files, count⟩ := layoutRequests_factory flashSize
  have length : (formatRequests ++ (Change.place fsRootIndex factoryMf).requests).length = 36 := by decide
  refine ⟨36 + n, ?_, ?_⟩
  · unfold factoryRequests personalRequests
    have start := List.take_of_length_le (show (formatRequests ++ (Change.place fsRootIndex factoryMf).requests).length ≤
      36 + n by rw [length]; omega)
    rw [files, List.take_append, start, length, Nat.add_sub_cancel_left]
  · split at count <;> simp only [*, if_true, if_false] <;> omega

/-- A boot without the magic asks for its operations, whatever the device makes of them. -/
theorem unformatted_asks (reads : s.hal.readFaults = []) (noMagic : s.hal.nvm.eeprom.read 0 4 ≠ fsMagic)
    (table : 656 ≤ s.hal.nvm.eeprom.size.toNat) : Asks fsInit s (personalRequests s.hal.nvm.flash.size) := by
  have boots := fsInit_personalises reads (Nat.le_trans (by decide) table) noMagic
  have asks := @personalise_asks (unmount s) (UInt32.le_iff_toNat_le.mpr (by rw [descOffset_toNat]; exact table))
  unfold Asks at asks ⊢
  rw [boots, asks]
  exact (perform_hal _ s.hal _ _).2

private theorem firstBoot_asks (table : 656 ≤ eepromSize.toNat) (flashSize : UInt32) (plan : List WriteFault) :
    Asks fsInit (withPlan plan (blankCard eepromSize flashSize).store) (personalRequests flashSize) :=
  @unformatted_asks (withPlan plan (blankCard eepromSize flashSize).store) rfl (blank_no_magic eepromSize flashSize)
    table

/-- With room for the factory files and no failure, all of the operations take place. -/
theorem unformatted_nvm (blank : Unformatted s) (table : 656 ≤ s.hal.nvm.eeprom.size.toNat)
    (data : 112 ≤ s.hal.nvm.flash.size.toNat) : (fsInit s).2.hal.nvm = applyAll factoryRequests s.hal.nvm := by
  obtain ⟨n, whole, count⟩ := personalRequests_factory s.hal.nvm.flash.size
  rw [if_pos data] at count
  rw [List.take_of_length_le (Nat.le_trans (by decide : factoryRequests.length ≤ 50) count)] at whole
  have asks := unformatted_asks blank.reads blank.noMagic table
  unfold Asks at asks
  rw [asks, whole]
  rcases ran : perform factoryRequests s with ⟨outcome, s'⟩
  have performed := perform_performed (factory_inside table) ran
  obtain ⟨done, _, stored, all⟩ := performed.nvm
  rw [all (performed.reliable blank.reliable).1] at stored
  exact stored

/-- What the cut boot leaves: the first part of the factory's operations. -/
private theorem tornBoot_nvm (table : 656 ≤ eepromSize.toNat) (flashSize : UInt32) (k : Nat) (later : List WriteFault) :
    ∃ n, (if 112 ≤ flashSize.toNat then 50 ≤ n else n ≤ 46) ∧
      (tornBoot eepromSize flashSize k later).hal.nvm =
        applyAll (factoryRequests.take (min k n)) (blankCard eepromSize flashSize).store.hal.nvm := by
  obtain ⟨n, whole, count⟩ := personalRequests_factory flashSize
  refine ⟨n, count, ?_⟩
  have asks := firstBoot_asks table flashSize (List.replicate k .none ++ .lost :: later)
  unfold Asks at asks
  rw [tornBoot, asks, whole, ← List.take_take]
  exact perform_cut (s := withPlan (List.replicate k .none ++ .lost :: later) (blankCard eepromSize flashSize).store)
    (fun request member => factory_inside table request (List.mem_of_mem_take member)) rfl rfl

/-- The complete factory tree, served after a boot without an error. -/
def Complete (s : Store) : Prop := ∃ s' t, fsInit s = (.ok (), s') ∧ Ready s' t ∧ Shows t factoryFiles

/-- Without the magic the next boot starts over. -/
private theorem unformatted_complete (blank : Unformatted s) :
    Complete s ↔ 656 ≤ s.hal.nvm.eeprom.size.toNat ∧ 112 ≤ s.hal.nvm.flash.size.toNat := by
  rcases fsInit_unformatted blank with ⟨small, e, s', failed, _⟩ |
    ⟨table, result, s', t, ended, ready, _, _, shows, room⟩
  · refine iff_of_false ?_ fun roomy => absurd roomy.1 (Nat.not_le.mpr small)
    rintro ⟨_, _, went, _⟩
    rw [failed] at went
    cases went
  · constructor
    · rintro ⟨_, _, went, _⟩
      rw [ended] at went
      cases went
      exact ⟨table, room.mpr rfl⟩
    · rintro ⟨_, data⟩
      obtain rfl := room.mp data
      exact ⟨s', t, ended, ready, shows rfl⟩

/-- With the magic and without the last file, no boot completes the tree. -/
private theorem formatted_incomplete (magic : s.hal.nvm.eeprom.read 0 4 = fsMagic)
    (missing : s.hal.nvm.eeprom.read 96 fsDescSize = freeDesc) : ¬ Complete s := by
  rintro ⟨s', t, booted, ready, shows⟩
  have formatted : (fsStoreMount s).1 ≠ .error .notFormatted := by
    rcases mount_cases s with ⟨_, failed⟩ | ⟨_, _, ⟨other, _⟩ | ⟨_, formatted⟩⟩
    · rw [failed]
      decide
    · exact absurd magic other
    · exact formatted
  have untouched := (fsInit_untouched formatted).1
  rw [booted] at untouched
  obtain ⟨d, live, _⟩ := shows.all (4, (⟨4, 0x6F02, .efTransparent, 2, 16, 2⟩ : LayoutEntry).descriptor) (by decide)
  have stored := ready.holds.slot 4 (by decide)
  rw [show s'.hal.nvm = s.hal.nvm from untouched, show t.table 4 = some d from live] at stored
  have legal := ready.holds.legal 4 d live
  have read := decodeDesc_descBytes legal
  rw [show descBytes d = freeDesc from stored.symm.trans missing] at read
  cases read

/-- The whole of the factory's operations leaves a card that boots with its tree. -/
private theorem finished_complete (table : 656 ≤ eepromSize.toNat) (data : 112 ≤ flashSize.toNat)
    (reads : s.hal.readFaults = [])
    (nvm : s.hal.nvm = applyAll factoryRequests (blankCard eepromSize flashSize).store.hal.nvm) : Complete s := by
  have blank : Unformatted (blankCard eepromSize flashSize).store := ⟨rfl, rfl, blank_no_magic eepromSize flashSize⟩
  have stored := unformatted_nvm blank table data
  rcases fsInit_unformatted blank with ⟨small, _⟩ | ⟨_, result, s', t, ended, ready, _, _, shows, room⟩
  · exact absurd table (Nat.not_le.mpr small)
  have same : s'.hal.nvm = s.hal.nvm := by
    rw [ended] at stored
    exact stored.trans nvm.symm
  have holds : Holds s.hal.nvm t.table t.top := same ▸ ready.holds
  exact ⟨_, t, fsInit_mounts reads holds, mounted_mirrorOf reads holds, shows (room.mp data)⟩

/-- A first boot of a blank chip, cut by a power loss after `k` device operations and
tried again, ends without an error on the complete factory tree exactly if the chip
has room for it and the cut came before the superblock was first written or after
the last file was. -/
theorem first_boot_retries_iff (eepromSize flashSize : UInt32) (k : Nat) (later : List WriteFault) :
    Complete (recovered (tornBoot eepromSize flashSize k later)) ↔
      656 ≤ eepromSize.toNat ∧ 112 ≤ flashSize.toNat ∧ (k ≤ 32 ∨ 49 ≤ k) := by
  by_cases table : 656 ≤ eepromSize.toNat
  · obtain ⟨n, count, torn⟩ := tornBoot_nvm table flashSize k later
    generalize tornBoot eepromSize flashSize k later = cut at torn ⊢
    have sizes := applyAll_size (factoryRequests.take (min k n)) (blankCard eepromSize flashSize).store.hal.nvm
    have blank : ∀ start n, (blankCard eepromSize flashSize).store.hal.nvm.eeprom.read start n = List.replicate n 0xFF :=
      fun _ _ => Region.uniform_read
    rcases Nat.lt_or_ge 32 (min k n) with past | early
    · rcases Nat.lt_or_ge 48 (min k n) with late | short
      · have data : 112 ≤ flashSize.toNat := by
          by_contra few
          rw [if_neg few] at count
          omega
        refine iff_of_true (finished_complete table data rfl (torn.trans (torn_finished late))) ⟨table, data, .inr ?_⟩
        omega
      · refine iff_of_false (formatted_incomplete (s := recovered cut) ?_ ?_) ?_
        · rw [show (recovered cut).hal.nvm = _ from torn]
          exact torn_magic past
        · rw [show (recovered cut).hal.nvm = _ from torn]
          exact torn_missing short (blank 96 fsDescSize)
        · rintro ⟨_, data, outside⟩
          rw [if_pos data] at count
          omega
    · have noMagic : (recovered cut).hal.nvm.eeprom.read 0 4 ≠ fsMagic := by
        rw [show (recovered cut).hal.nvm = _ from torn, torn_blank early (blank 0 4)]
        decide
      rw [unformatted_complete ⟨rfl, rfl, noMagic⟩, show (recovered cut).hal.nvm = _ from torn,
        show (applyAll _ _).eeprom.size = _ from sizes .eeprom, show (applyAll _ _).flash.size = _ from sizes .flash]
      refine and_congr_right fun _ => ⟨fun data => ⟨data, .inl ?_⟩, And.left⟩
      rw [if_pos (show 112 ≤ flashSize.toNat from data)] at count
      omega
  · refine iff_of_false (fun complete => table ?_) fun room => table room.1
    have torn := tornBoot_small (Nat.not_le.mp table) flashSize k later
    generalize tornBoot eepromSize flashSize k later = cut at torn complete
    have noMagic : (recovered cut).hal.nvm.eeprom.read 0 4 ≠ fsMagic := by
      rw [show (recovered cut).hal.nvm = _ from torn]
      exact blank_no_magic eepromSize flashSize
    have room := ((unformatted_complete ⟨rfl, rfl, noMagic⟩).mp complete).1
    rw [show (recovered cut).hal.nvm = _ from torn] at room
    exact room

/-- Cut right after the superblock, the next boot finds a formatted card without an
MF and refuses it; so does every boot after that. -/
theorem cut_after_superblock_is_final :
    let cut := recovered (tornBoot 656 112 33 [])
    (fsInit cut).1 = .error .corrupt ∧ (fsInit (recovered (fsInit cut).2)).1 = .error .corrupt := by
  decide +kernel

end Boots
end CardOs.RetryProofs
