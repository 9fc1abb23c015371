import CardOs.FileTree

/-! The logical layer on a store that holds a file tree. Lookups find exactly the
files of the tree, selections stay on usable files, and every change the layer
makes to the store is a change of the tree; with a failing device, that change
or an earlier stage of it. -/
namespace CardOs.FsProofs
open CardOs.Library CardOs.Library.Action CardOs.FsTypes CardOs.HalNvm CardOs.FsStore CardOs.FsStoreProofs
open CardOs.Fs CardOs.FileTree

/-- A mounted store that holds the tree. -/
abbrev Ready (s : Store) (t : FileTree) : Prop := Mounted s t.table t.top

section Lookup
variable {s : Store} {t : FileTree} {i : UInt16} {d : FsDescriptor}

private theorem mem_slots (bound : i < fsMaxFiles) :
    i.toNat ∈ List.range fsMaxFiles.toNat ∧ UInt16.ofNat i.toNat = i :=
  ⟨List.mem_range.mpr (UInt16.lt_iff_toNat_lt.mp bound), UInt16.ofNat_toNat⟩

theorem slot_lt {n : Nat} (member : n ∈ List.range fsMaxFiles.toNat) :
    UInt16.ofNat n < fsMaxFiles := by
  have bound : n < 32 := List.mem_range.mp member
  apply UInt16.lt_iff_toNat_lt.mpr
  rw [UInt16.toNat_ofNat_of_lt' (Nat.lt_trans bound (by decide))]
  exact bound

theorem readDesc_live (ready : Ready s t) (live : t.table i = some d) :
    fsStoreReadDesc i s = (.ok d, s) := by
  rw [readDesc_eq ready, lookup_eq_ok.mpr ⟨t.bounded i d live, live⟩]

theorem readDesc_inspects (ready : Ready s t) (i : UInt16) :
    Inspects (fsStoreReadDesc i) s fun d => t.table i = some d :=
  inspects_of_eq (readDesc_eq ready i) fun _ found => (lookup_eq_ok.mp found).2

private theorem scanFor_cases (wanted : FsDescriptor → Bool) (skips : FsError → Bool) (ready : Ready s t)
    (skipsFree : skips .notFound = true) (slots : List Nat)
    (inside : ∀ n ∈ slots, UInt16.ofNat n < fsMaxFiles) :
    (∃ i d, scanFor wanted skips slots s = (.ok i, s) ∧ t.table i = some d ∧ wanted d = true) ∨
      (scanFor wanted skips slots s = (.error .notFound, s) ∧
        ∀ n ∈ slots, ∀ d, t.table (UInt16.ofNat n) = some d → wanted d = false) := by
  induction slots with
  | nil => exact .inr ⟨rfl, by simp⟩
  | cons n rest ih =>
    have here := inside n (by simp)
    have later := ih fun m member => inside m (List.mem_cons_of_mem n member)
    rw [scanFor, attempt_bind, readDesc_eq ready]
    cases live : t.table (UInt16.ofNat n) with
    | none =>
      have free : lookup t.table (UInt16.ofNat n) = .error .notFound := by
        rw [lookup, if_pos here, live]
      simp only [free, skipsFree, if_true]
      rcases later with found | ⟨missing, none⟩
      · exact .inl found
      · refine .inr ⟨missing, ?_⟩
        intro m member d liveM
        rcases List.mem_cons.mp member with rfl | member
        · rw [live] at liveM; cases liveM
        · exact none m member d liveM
    | some d =>
      have held : lookup t.table (UInt16.ofNat n) = .ok d := lookup_eq_ok.mpr ⟨here, live⟩
      simp only [held]
      cases hit : wanted d with
      | true => exact .inl ⟨_, d, rfl, live, hit⟩
      | false =>
        simp only [Bool.false_eq_true, if_false]
        rcases later with found | ⟨missing, none⟩
        · exact .inl found
        · refine .inr ⟨missing, ?_⟩
          intro m member e liveM
          rcases List.mem_cons.mp member with rfl | member
          · rw [live] at liveM; cases liveM; exact hit
          · exact none m member e liveM

/-- Searching a DF for an identifier finds a file of that identifier in it, or
there is none. -/
theorem fsFindChild_cases (ready : Ready s t) (parent fileId : UInt16) :
    (∃ i d, fsFindChild parent fileId s = (.ok i, s) ∧ t.table i = some d ∧ d.parent = parent ∧
        d.fileId = fileId) ∨
      (fsFindChild parent fileId s = (.error .notFound, s) ∧
        ∀ i d, t.table i = some d → d.parent = parent → d.fileId ≠ fileId) := by
  unfold fsFindChild
  rw [state_bind, maxFiles_eq ready]
  rcases scanFor_cases (fun d => d.parent = parent ∧ d.fileId = fileId)
    (fun e => e = .notFound ∨ e = .corrupt) ready rfl _ (fun _ => slot_lt) with
    ⟨i, d, found, live, hit⟩ | ⟨missing, none⟩
  · obtain ⟨under, named⟩ := of_decide_eq_true hit
    exact .inl ⟨i, d, found, live, under, named⟩
  · refine .inr ⟨missing, ?_⟩
    intro i d live under named
    obtain ⟨member, same⟩ := mem_slots (t.bounded i d live)
    have miss := none _ member d (by rw [same]; exact live)
    exact of_decide_eq_false miss ⟨under, named⟩

/-- Searching a DF for a short identifier finds an EF of it, or there is none. -/
theorem fsFindBySfi_cases (ready : Ready s t) (df : UInt16) (sfi : UInt8) :
    (∃ i d, fsFindBySfi df sfi s = (.ok i, s) ∧ t.table i = some d ∧ d.parent = df ∧
        fsIsEf d = true ∧ d.sfi = sfi ∧ sfi ≠ fsNoSfi) ∨
      (∃ e, fsFindBySfi df sfi s = (.error e, s) ∧
        (sfi ≠ fsNoSfi → sfi ≤ 30 →
          ∀ i d, t.table i = some d → d.parent = df → fsIsEf d = true → d.sfi ≠ sfi)) := by
  unfold fsFindBySfi
  rw [state_bind, maxFiles_eq ready]
  split
  · rename_i outside
    refine .inr ⟨_, rfl, ?_⟩
    intro named small
    rcases outside with none | large
    · exact absurd none named
    · exact absurd small (UInt8.not_le.mpr large)
  · rename_i valid
    obtain ⟨named, _⟩ := not_or.mp valid
    rcases scanFor_cases (fun d => d.parent = df ∧ fsIsEf d ∧ d.sfi = sfi) (fun _ => true) ready rfl _
      (fun _ => slot_lt) with ⟨i, d, found, live, hit⟩ | ⟨missing, none⟩
    · obtain ⟨under, ef, same⟩ := of_decide_eq_true hit
      exact .inl ⟨i, d, found, live, under, ef, same, named⟩
    · refine .inr ⟨_, missing, ?_⟩
      intro _ _ i d live under ef same
      obtain ⟨member, slot⟩ := mem_slots (t.bounded i d live)
      have miss := none _ member d (by rw [slot]; exact live)
      exact of_decide_eq_false miss ⟨under, ef, same⟩

private theorem childCountIn_spec (ready : Ready s t) (parent : UInt16) (slots : List Nat)
    (inside : ∀ n ∈ slots, UInt16.ofNat n < fsMaxFiles) :
    ∃ k, childCountIn parent slots s = (.ok (UInt16.ofNat k), s) ∧ k ≤ slots.length ∧
      (k = 0 ↔ ∀ n ∈ slots, ∀ d, t.table (UInt16.ofNat n) = some d → d.parent ≠ parent) := by
  induction slots with
  | nil => exact ⟨0, rfl, Nat.le_refl 0, by simp⟩
  | cons n rest ih =>
    have here := inside n (by simp)
    obtain ⟨k, counted, small, none⟩ := ih fun m member => inside m (List.mem_cons_of_mem n member)
    rw [childCountIn, attempt_bind, readDesc_eq ready]
    cases live : t.table (UInt16.ofNat n) with
    | none =>
      have free : lookup t.table (UInt16.ofNat n) = .error .notFound := by
        rw [lookup, if_pos here, live]
      refine ⟨k, by simp only [free]; exact counted, by simp; omega, ?_⟩
      rw [none, List.forall_mem_cons, live]
      simp
    | some d =>
      have held : lookup t.table (UInt16.ofNat n) = .ok d := lookup_eq_ok.mpr ⟨here, live⟩
      simp only [held, bind_ok counted]
      by_cases child : d.parent = parent
      · refine ⟨k + 1, ?_, by simp; omega, by simp [live, child]⟩
        rw [if_pos child, UInt16.ofNat_add]
        rfl
      · refine ⟨k, by rw [if_neg child]; rfl, by simp; omega, ?_⟩
        rw [none, List.forall_mem_cons, live]
        simp [child]

/-- The child count is zero when no file names the slot as its parent, and only then. -/
theorem fsChildCount_spec (ready : Ready s t) (parent : UInt16) :
    ∃ count, fsChildCount parent s = (.ok count, s) ∧
      (count = 0 ↔ ∀ i d, t.table i = some d → d.parent ≠ parent) := by
  unfold fsChildCount
  rw [state_bind, maxFiles_eq ready]
  obtain ⟨k, counted, small, none⟩ := childCountIn_spec ready parent _ (fun _ => slot_lt)
  have bound : k ≤ 32 := by simpa [fsMaxFiles] using small
  have value : (UInt16.ofNat k).toNat = k := UInt16.toNat_ofNat_of_lt' (Nat.lt_of_le_of_lt bound (by decide))
  have zero : UInt16.ofNat k = 0 ↔ k = 0 := by rw [← UInt16.toNat_inj, value]; rfl
  refine ⟨_, counted, ?_⟩
  rw [zero, none]
  constructor
  · intro childless i d live
    obtain ⟨member, same⟩ := mem_slots (t.bounded i d live)
    exact childless _ member d (by rw [same]; exact live)
  · exact fun childless n _ d live => childless _ d live

private theorem findFreeSlotIn_spec (mapped : Mapped s) (slots : List Nat)
    (inside : ∀ n ∈ slots, UInt16.ofNat n < fsMaxFiles) :
    ∃ slot, findFreeSlotIn slots s = (.ok slot, s) ∧
      (slot ≠ fsInvalidIndex → slot < fsMaxFiles ∧ rawIsFree (rawSlot s slot) = true) ∧
      (slot = fsInvalidIndex → ∀ n ∈ slots, rawIsFree (rawSlot s (UInt16.ofNat n)) = false) := by
  induction slots with
  | nil => exact ⟨fsInvalidIndex, rfl, fun other => absurd rfl other, fun _ => List.forall_mem_nil _⟩
  | cons n rest ih =>
    have here := inside n (by simp)
    obtain ⟨slot, found, free, full⟩ := ih fun m member => inside m (List.mem_cons_of_mem n member)
    rw [findFreeSlotIn, bind_ok (slotIsFree_mapped mapped here)]
    cases taken : rawIsFree (rawSlot s (UInt16.ofNat n)) with
    | true =>
      refine ⟨_, rfl, fun _ => ⟨here, taken⟩, fun invalid => ?_⟩
      rw [invalid] at here
      exact absurd here (by decide)
    | false => exact ⟨slot, found, free, fun invalid => List.forall_mem_cons.mpr ⟨taken, full invalid⟩⟩

/-- The slot found is one whose type byte says free; if none is found there is none. -/
theorem findFreeSlot_mapped (mapped : Mapped s) :
    ∃ slot, fsStoreFindFreeSlot s = (.ok slot, s) ∧
      (slot ≠ fsInvalidIndex → slot < fsMaxFiles ∧ rawIsFree (rawSlot s slot) = true) ∧
      (slot = fsInvalidIndex → ∀ i, i < fsMaxFiles → rawIsFree (rawSlot s i) = false) := by
  unfold fsStoreFindFreeSlot
  rw [state_bind]
  simp only [mapped.mounted, Bool.not_true, Bool.false_eq_true, if_false, mapped.maxFiles]
  obtain ⟨slot, found, free, full⟩ := findFreeSlotIn_spec mapped _ (fun _ => slot_lt)
  refine ⟨slot, found, free, fun invalid i bound => ?_⟩
  obtain ⟨member, same⟩ := mem_slots bound
  exact same ▸ full invalid i.toNat member

theorem fsStoreFindFreeSlot_spec (ready : Ready s t) :
    ∃ slot, fsStoreFindFreeSlot s = (.ok slot, s) ∧
      (slot ≠ fsInvalidIndex → slot < fsMaxFiles ∧ t.table slot = none) ∧
      (slot = fsInvalidIndex → ∀ i, i < fsMaxFiles → t.table i ≠ none) := by
  obtain ⟨slot, found, free, full⟩ := findFreeSlot_mapped ready.mapped
  refine ⟨slot, found, fun valid => ?_, fun invalid i bound => ?_⟩
  · obtain ⟨bound, raw⟩ := free valid
    rw [rawIsFree_slot ready bound] at raw
    exact ⟨bound, Option.isNone_iff_eq_none.mp raw⟩
  · have raw := full invalid i bound
    rw [rawIsFree_slot ready bound] at raw
    intro empty
    rw [empty] at raw
    cases raw

end Lookup

/-- The current DF is a live, usable DF. -/
def DfSelected (t : FileTree) (sel : FsSelection) : Prop :=
  ∃ d, t.table sel.curDf = some d ∧ fsIsDf d = true ∧ fsIsUsable d = true

/-- There is no current EF, or it is a live, usable EF of the current DF. -/
def EfSelected (t : FileTree) (sel : FsSelection) : Prop :=
  sel.curEf = fsInvalidIndex ∨
    ∃ d, t.table sel.curEf = some d ∧ fsIsEf d = true ∧ fsIsUsable d = true ∧ d.parent = sel.curDf

section Selection
variable {s : Store} {t : FileTree} {sel : FsSelection} {i : UInt16} {d : FsDescriptor}

theorem reset_selected (t : FileTree) :
    DfSelected t fsSelectionReset ∧ EfSelected t fsSelectionReset :=
  ⟨⟨factoryMf, t.root, rfl, rfl⟩, .inl rfl⟩

theorem resolve_inspects (ready : Ready s t) (i : UInt16) :
    Inspects (resolve i) s fun d => t.table i = some d ∧ fsIsUsable d = true := by
  apply inspects_bind (readDesc_inspects ready i)
  intro d live
  split
  · exact inspects_fail
  · rename_i usable
    exact inspects_pure ⟨live, by simpa using usable⟩

/-- Committing to a usable file that is a DF, or lies in the current one. -/
theorem commit_selected (df : DfSelected t sel) (live : t.table i = some d) (usable : fsIsUsable d = true)
    (near : fsIsDf d = true ∨ d.parent = sel.curDf) :
    DfSelected t (commit i d) ∧ EfSelected t (commit i d) := by
  unfold commit
  split
  · rename_i isDf
    exact ⟨⟨d, live, isDf, usable⟩, .inl rfl⟩
  · rename_i notDf
    have under : d.parent = sel.curDf := near.resolve_left notDf
    have ef : fsIsEf d = true := (df_or_ef live).resolve_left notDf
    refine ⟨?_, .inr ⟨d, live, ef, usable, rfl⟩⟩
    unfold DfSelected
    rw [under]
    exact df

/-- A search stage has found nothing yet, or a DF or a file of the current DF. -/
private def Candidate (t : FileTree) (sel : FsSelection) (index : UInt16) : Prop :=
  index = fsInvalidIndex ∨
    ∃ d, t.table index = some d ∧ (fsIsDf d = true ∨ d.parent = sel.curDf)

private theorem orChild_inspects (ready : Ready s t) {index fileId : UInt16}
    (candidate : Candidate t sel index) :
    Inspects (orChild sel fileId index) s (Candidate t sel) := by
  unfold orChild
  split
  · exact inspects_pure candidate
  · rcases fsFindChild_cases ready sel.curDf fileId with ⟨i, d, found, live, under, _⟩ | ⟨missing, _⟩
    · exact inspects_of_eq (r := .ok i) (by rw [attempt_bind, found]; rfl) fun _ returned =>
        Except.ok.inj returned ▸ .inr ⟨d, live, .inr under⟩
    · exact inspects_of_eq (r := .ok index) (by rw [attempt_bind, missing]; rfl) fun _ returned =>
        Except.ok.inj returned ▸ candidate

private theorem orCurrent_inspects (ready : Ready s t) {index fileId : UInt16} (df : DfSelected t sel)
    (candidate : Candidate t sel index) :
    Inspects (orCurrent sel fileId index) s (Candidate t sel) := by
  obtain ⟨d, live, isDf, _⟩ := df
  unfold orCurrent
  split
  · exact inspects_pure candidate
  · apply inspects_attempt_bind (readDesc_inspects ready sel.curDf)
    · intro e _
      apply inspects_pure
      split
      · exact .inr ⟨d, live, .inl isDf⟩
      · exact candidate
    · intro _
      exact inspects_pure candidate

/-- The parent of a live file is a DF, unless the file is the master file. -/
theorem parent_df (live : t.table i = some d) (below : d.parent ≠ fsNoParent) :
    ∃ p, t.table d.parent = some p ∧ fsIsDf p = true := by
  by_cases root : i = fsRootIndex
  · subst root
    rw [t.root] at live
    cases live
    exact absurd rfl below
  · exact (t.file i d live root).parent

private theorem orParent_inspects (ready : Ready s t) {index fileId : UInt16}
    (candidate : Candidate t sel index) :
    Inspects (orParent sel fileId index) s (Candidate t sel) := by
  unfold orParent
  split
  · exact inspects_pure candidate
  · apply inspects_attempt_bind (readDesc_inspects ready sel.curDf)
    · intro d live
      dsimp only
      split
      · exact inspects_pure candidate
      · rename_i below
        obtain ⟨p, parentLive, isDf⟩ := parent_df live below
        apply inspects_attempt_bind (readDesc_inspects ready d.parent)
        · intro e _
          apply inspects_pure
          split
          · exact .inr ⟨p, parentLive, .inl isDf⟩
          · exact candidate
        · intro _
          exact inspects_pure candidate
    · intro _
      exact inspects_pure candidate

/-- What a selection function promises: nothing is changed, and the selection it
returns is on usable files again. -/
def Selects (t : FileTree) (s : Store) (x : FsM FsSelection) : Prop :=
  Inspects x s fun sel => DfSelected t sel ∧ EfSelected t sel

theorem fsSelectByFid_selects (ready : Ready s t) (df : DfSelected t sel) (fileId : UInt16) :
    Selects t s (fsSelectByFid sel fileId) := by
  have start : Candidate t sel (if fileId = fsFidMf then fsRootIndex else fsInvalidIndex) := by
    split
    · exact .inr ⟨factoryMf, t.root, .inl rfl⟩
    · exact .inl rfl
  apply inspects_bind (orChild_inspects ready start)
  intro index candidate
  apply inspects_bind (orCurrent_inspects ready df candidate)
  intro index candidate
  apply inspects_bind (orParent_inspects ready candidate)
  intro index candidate
  split
  · exact inspects_fail
  · rename_i found
    apply inspects_bind (resolve_inspects ready index)
    rintro d ⟨live, usable⟩
    obtain ⟨e, live', near⟩ := candidate.resolve_left found
    rw [live] at live'
    cases live'
    exact inspects_pure (commit_selected df live usable near)

theorem fsFindChild_inspects (ready : Ready s t) (parent fileId : UInt16) :
    Inspects (fsFindChild parent fileId) s fun i => ∃ d, t.table i = some d ∧ d.parent = parent := by
  rcases fsFindChild_cases ready parent fileId with ⟨i, d, found, live, under, _⟩ | ⟨missing, _⟩
  · exact inspects_of_eq found fun _ returned => Except.ok.inj returned ▸ ⟨d, live, under⟩
  · exact inspects_of_eq missing fun _ returned => nomatch returned

theorem selectChildTyped_selects (ready : Ready s t) (df : DfSelected t sel) (fileId : UInt16)
    (wantDf : Bool) : Selects t s (selectChildTyped sel fileId wantDf) := by
  apply inspects_bind (fsFindChild_inspects ready sel.curDf fileId)
  rintro index ⟨e, live', under⟩
  apply inspects_bind (resolve_inspects ready index)
  rintro d ⟨live, usable⟩
  rw [live] at live'
  cases live'
  split
  · exact inspects_fail
  · exact inspects_pure (commit_selected df live usable (.inr under))

theorem fsSelectParent_selects (ready : Ready s t) (df : DfSelected t sel) :
    Selects t s (fsSelectParent sel) := by
  apply inspects_bind (readDesc_inspects ready sel.curDf)
  intro cur live
  split
  · exact inspects_fail
  · rename_i below
    obtain ⟨p, parentLive, isDf⟩ := parent_df live below
    apply inspects_bind (resolve_inspects ready cur.parent)
    rintro d ⟨live', usable⟩
    rw [parentLive] at live'
    cases live'
    exact inspects_pure (commit_selected df parentLive usable (.inl isDf))

private theorem namesHere_inspects (ready : Ready s t) (first : Bool) (fid : UInt16) :
    Inspects (namesHere sel first fid) s fun _ => True := by
  unfold namesHere
  split
  · exact inspects_pure trivial
  · apply inspects_attempt_bind (readDesc_inspects ready sel.curDf)
    · intro d _
      exact inspects_pure trivial
    · intro _
      exact inspects_pure trivial

/-- Walking a path keeps a good selection good. A path that only names the DF it
starts on leaves the current EF as it was. -/
theorem walkPath_inspects (ready : Ready s t) (df : DfSelected t sel) (first : Bool) (fids : List UInt16) :
    Inspects (walkPath sel first fids) s fun sel' =>
      DfSelected t sel' ∧ (EfSelected t sel → EfSelected t sel') := by
  induction fids generalizing sel first with
  | nil => exact inspects_pure ⟨df, id⟩
  | cons fid rest ih =>
    apply inspects_bind (namesHere_inspects ready first fid)
    intro here _
    split
    · exact ih df false
    · apply inspects_attempt_bind (fsFindChild_inspects ready sel.curDf fid)
      · rintro index ⟨e, live', under⟩
        apply inspects_bind (resolve_inspects ready index)
        rintro d ⟨live, usable⟩
        rw [live] at live'
        cases live'
        split
        · exact inspects_fail
        · obtain ⟨dfNow, efNow⟩ := commit_selected df live usable (.inr under)
          exact inspects_mono (ih dfNow false) fun sel' good => ⟨good.1, fun _ => good.2 efNow⟩
      · intro _
        exact inspects_fail

theorem fsSelectByPath_inspects (ready : Ready s t) (df : DfSelected t sel) (path : List UInt8)
    (fromMf : Bool) :
    Inspects (fsSelectByPath sel path fromMf) s fun sel' =>
      DfSelected t sel' ∧ (EfSelected t sel → EfSelected t sel') := by
  unfold fsSelectByPath
  split
  · exact inspects_fail
  · split
    · exact inspects_fail
    · cases fromMf with
      | false => exact walkPath_inspects ready df true _
      | true =>
        obtain ⟨dfRoot, efRoot⟩ := reset_selected t
        exact inspects_mono (walkPath_inspects ready dfRoot true _) fun sel' good =>
          ⟨good.1, fun _ => good.2 efRoot⟩

end Selection
end CardOs.FsProofs
