import CardOs.ResidueProofs
import CardOs.SelectionProofs

/-! How deep the tree can get. A path names eight files at most, and nothing checks that
a new file can still be named: creating a file in a DF eight levels down is what takes
the tree out of reach, and the only thing that does. -/
namespace CardOs.DepthProofs
open CardOs.Library CardOs.Library.Action CardOs.Library.BigEndian CardOs.Library.ParentForest CardOs.Apdu CardOs.FsTypes
open CardOs.FsStore CardOs.FsStoreProofs CardOs.Fs CardOs.FileTree CardOs.FsProofs CardOs.FsChangeProofs
open CardOs.FileCommands CardOs.Kernel CardOs.CardProofs CardOs.CardSafety CardOs.StoreChanges CardOs.Transactions
open CardOs.CrashProofs CardOs.IsolationProofs CardOs.SelectionProofs
open CardOs.ResidueProofs (factoryTable factoryTree factory_member blank_files)

/-- The file lies `n` links below the master file. -/
abbrev Depth (files : Table) (i : UInt16) (n : Nat) : Prop := climb (parentOf files) n i = some fsRootIndex

/-- One selection by path from the master file finds the file: it selects it, or says
that it may not be used. -/
def Nameable (s : Store) (i : UInt16) (d : FsDescriptor) : Prop :=
  ∃ path, ∀ sel, (fsSelectByPath sel path true s).2 = s ∧
    if d.lifecycle = fsLcActivated then ∃ chosen, (fsSelectByPath sel path true s).1 = .ok chosen ∧ Selected i d chosen
    else (fsSelectByPath sel path true s).1 = .error .notUsable

/-- Every file lies at most as deep as a path is long, and can be named if all the DFs
it lies in are activated. -/
structure Navigable (s : Store) : Prop where
  shallow : ∀ i d, fileAt s i = some d → ∃ n ≤ fsMaxDepth, Depth (fileAt s) i n
  nameable : ∀ i d, fileAt s i = some d →
    (∀ n j e, climb (parentOf (fileAt s)) (n + 1) i = some j → fileAt s j = some e → e.lifecycle = fsLcActivated) →
    Nameable s i d

/-- The APDU makes a file: a CREATE FILE that passes every check, with room for the data of an EF. -/
def Creates (card : Card) (cmd : Option (List UInt8)) (cap : UInt16) : Prop :=
  ∃ c data req slot s', Creation card cmd cap c data req ∧ createChecks card.kernel.sel req card.store = (.ok slot, s') ∧
    (req.type = .efTransparent →
      card.store.sb.dataTop.toNat + req.size.toNat ≤ card.store.hal.nvm.flash.size.toNat)

/-- The event makes a file in a current DF that is as deep as a path is long. -/
def Deepens (card : Card) (event : CardEvent) : Prop :=
  ∃ cmd cap, event = .apdu cmd cap ∧ Creates card cmd cap ∧ Depth (fileAt card.store) card.kernel.sel.curDf fsMaxDepth

section Naming
variable {s : Store} {t : FileTree} {i : UInt16} {d : FsDescriptor} {n : Nat}

private theorem parentOf_root (t : FileTree) : parentOf t.table fsRootIndex = none := by
  rw [parentOf, t.root]
  rfl

/-- One link up, as the table has it. -/
private theorem depth_succ (deep : Depth t.table i (n + 1)) :
    ∃ d p e, t.table i = some d ∧ t.table p = some e ∧ d.parent = p ∧ fsIsDf e = true ∧ Depth t.table p n ∧
      i ≠ fsRootIndex := by
  have notRoot : i ≠ fsRootIndex := by
    rintro rfl
    rw [Depth, climb, parentOf_root t] at deep
    cases deep
  rw [Depth, climb] at deep
  obtain ⟨p, up, rest⟩ := Option.bind_eq_some_iff.mp deep
  rw [parentOf] at up
  obtain ⟨d, live, link⟩ := Option.bind_eq_some_iff.mp up
  split at link
  · cases link
  · obtain rfl := Option.some.inj link
    obtain ⟨e, parentLive, isDf⟩ := (t.file i d live notRoot).parent
    exact ⟨d, d.parent, e, live, parentLive, rfl, isDf, rest, notRoot⟩

/-- The ancestors of the file that are in the table are activated. -/
private def Open (files : Table) (i : UInt16) : Prop :=
  ∀ n j e, climb (parentOf files) (n + 1) i = some j → files j = some e → e.lifecycle = fsLcActivated

private theorem open_parent {p : UInt16} {e : FsDescriptor} (free : Open t.table i) (live : t.table i = some d)
    (parentLive : t.table p = some e) (under : d.parent = p) : Open t.table p ∧ fsIsUsable e = true := by
  have link : parentOf t.table i = some p := by
    rw [parentOf, live, Option.bind_some, under,
      if_neg (show p ≠ fsNoParent from live_ne_invalid parentLive)]
  have climbs : ∀ n, climb (parentOf t.table) (n + 1) i = climb (parentOf t.table) n p := by
    intro n
    rw [climb, link]
    rfl
  refine ⟨fun n j f up => free (n + 1) j f (by rw [climbs]; exact up), ?_⟩
  exact decide_eq_true (free 0 p e (by rw [climbs]; rfl) parentLive)

private theorem walk_start (ready : Ready s t) (fid : UInt16) (rest : List UInt16) :
    walkPath fsSelectionReset true (fid :: rest) s =
      if fsFidMf = fid then walkPath fsSelectionReset false rest s
        else walkPath fsSelectionReset false (fid :: rest) s :=
  @walkPath_first s t fsSelectionReset fid factoryMf ready t.root rest

private theorem walk_into {p : UInt16} (ready : Ready s t) (live : t.table i = some d) (under : d.parent = p)
    (rest : List UInt16) :
    walkPath ⟨p, fsInvalidIndex⟩ false (d.fileId :: rest) s =
      if fsIsUsable d then
        if rest ≠ [] ∧ !fsIsDf d then (.error .wrongType, s) else walkPath (commit i d) false rest s
      else (.error .notUsable, s) :=
  @walkPath_child s t ⟨p, fsInvalidIndex⟩ d.fileId i d ready ⟨d, live, under, rfl⟩ live rest

/-- The identifiers on the way down to a DF lead to it, with anything after them. -/
private theorem walk_down (ready : Ready s t) (deep : Depth t.table i n) (live : t.table i = some d)
    (isDf : fsIsDf d = true) (usable : fsIsUsable d = true) (free : Open t.table i) :
    ∃ ids, ids.length = n ∧ (∀ fid ∈ ids, fid ≠ fsFidMf) ∧
      ∀ rest, walkPath fsSelectionReset false (ids ++ rest) s = walkPath ⟨i, fsInvalidIndex⟩ false rest s := by
  induction n generalizing i d with
  | zero =>
    obtain rfl : i = fsRootIndex := Option.some.inj deep
    exact ⟨[], rfl, by simp, fun _ => rfl⟩
  | succ n ih =>
    obtain ⟨d', p, e, live', parentLive, under, parentDf, higher, notRoot⟩ := depth_succ deep
    cases live.symm.trans live'
    obtain ⟨freeP, usableP⟩ := open_parent free live parentLive under
    obtain ⟨ids, count, unreserved, leads⟩ := ih higher parentLive parentDf usableP freeP
    refine ⟨ids ++ [d.fileId], by rw [List.length_append, count]; rfl, ?_, fun rest => ?_⟩
    · intro fid member
      rcases List.mem_append.mp member with old | new
      · exact unreserved fid old
      · rw [List.mem_singleton.mp new]
        exact fileId_ne_mf live notRoot
    · rw [List.append_assoc, leads, List.singleton_append,
        walk_into ready live under, if_pos usable, if_neg (by simp [isDf]), commit, if_pos isDf]

private theorem pathIds_bytes : ∀ ids : List UInt16, pathIds (ids.flatMap bytes16) = ids
  | [] => rfl
  | fid :: rest => by
    rw [List.flatMap_cons, bytes16]
    simp only [List.cons_append, List.nil_append, pathIds, word16_bytes16, pathIds_bytes rest]

private theorem pathBytes_length (ids : List UInt16) : (ids.flatMap bytes16).length = 2 * ids.length := by
  induction ids with
  | nil => rfl
  | cons fid rest ih =>
    rw [List.flatMap_cons, List.length_append, ih, bytes16_length, List.length_cons]
    omega

private theorem nameable_by (live : t.table i = some d) (path : List UInt8)
    (leads : ∀ sel, fsSelectByPath sel path true s =
      (if fsIsUsable d then .ok (commit i d) else .error .notUsable, s)) : Nameable s i d := by
  refine ⟨path, fun sel => ?_⟩
  rw [leads sel]
  refine ⟨rfl, ?_⟩
  by_cases active : d.lifecycle = fsLcActivated
  · rw [if_pos active, if_pos (show fsIsUsable d = true from decide_eq_true active)]
    exact ⟨_, rfl, (selected_iff live).mpr rfl⟩
  · rw [if_neg active, if_neg (show ¬ fsIsUsable d = true from fun usable => active (of_decide_eq_true usable))]

/-- A file that lies no deeper than a path is long can be named. -/
theorem nameable_of_shallow (ready : Ready s t) (live : t.table i = some d) (deep : Depth t.table i n)
    (short : n ≤ fsMaxDepth) (free : Open t.table i) : Nameable s i d := by
  cases n with
  | zero =>
    obtain rfl : i = fsRootIndex := Option.some.inj deep
    rw [t.root] at live
    cases live
    refine nameable_by t.root [0x3F, 0x00] fun sel => ?_
    obtain ⟨fid, rest, named, walks⟩ := fsSelectByPath_walks sel [0x3F, 0x00] true rfl (by decide) (by decide)
    obtain ⟨rfl, rfl⟩ : fsFidMf = fid ∧ [] = rest := List.cons.inj named
    rw [walks, if_pos rfl, walk_start ready, if_pos rfl]
    rfl
  | succ n =>
    obtain ⟨d', p, e, live', parentLive, under, parentDf, higher, notRoot⟩ := depth_succ deep
    cases live.symm.trans live'
    obtain ⟨freeP, usableP⟩ := open_parent free live parentLive under
    obtain ⟨ids, count, unreserved, leads⟩ := walk_down ready higher parentLive parentDf usableP freeP
    refine nameable_by live ((ids ++ [d.fileId]).flatMap bytes16) fun sel => ?_
    have length := pathBytes_length (ids ++ [d.fileId])
    rw [List.length_append, count, List.length_singleton] at length
    obtain ⟨fid, rest, named, walks⟩ := fsSelectByPath_walks sel ((ids ++ [d.fileId]).flatMap bytes16) true
      (by omega) (by omega) (by omega)
    rw [pathIds_bytes] at named
    have other : fsFidMf ≠ fid := by
      have member : fid ∈ ids ++ [d.fileId] := named ▸ List.mem_cons_self
      rcases List.mem_append.mp member with old | new
      · exact (unreserved fid old).symm
      · rw [List.mem_singleton.mp new]
        exact (fileId_ne_mf live notRoot).symm
    rw [walks, if_pos rfl, walk_start ready, if_neg other, ← named, leads, walk_into ready live under]
    cases fsIsUsable d <;> rfl

end Naming

section Growing
variable {t t' : FileTree} {card : Card} {cmd : Option (List UInt8)} {cap : UInt16}

/-- A creation puts a new child of the current DF in a free slot. -/
theorem created_files (live : Live t card) (creates : Creates card cmd cap) :
    ∃ slot d, t.table slot = none ∧ d.parent = card.kernel.sel.curDf ∧
      changeFiles t.table (processChange cmd cap card) = Function.update t.table slot (some d) := by
  obtain ⟨c, data, req, slot, s', creation, checked, fits⟩ := creates
  have free := ((createChecks_inspects live.ready card.kernel.sel req).2 slot (by rw [checked])).free
  have roomy : ¬ Full card.store (newDescriptor card.kernel.sel req) := fun full => Nat.not_lt.mpr (fits full.1) full.2
  rw [creation.change, createChange_eq checked, if_neg roomy, placeChange]
  split
  · exact ⟨slot, _, free, rfl, rfl⟩
  · exact ⟨slot, _, free, rfl, rfl⟩

/-- Any other command takes a file away at most. -/
theorem uncreated_files (files : Table) (creates : ¬ Creates card cmd cap) :
    changeFiles files (processChange cmd cap card) = files ∨
      ∃ slot, changeFiles files (processChange cmd cap card) = Function.update files slot none := by
  rcases processChange_cases cmd cap card with nothing | ⟨c, _, _, ⟨_, data, index, offset, c', _, _, change⟩ |
    ⟨data, req, creation, change⟩ | ⟨_, fileId, change⟩⟩
  · rw [nothing]
    exact .inl rfl
  · rw [change, updateChange]
    repeat' split
    all_goals exact .inl rfl
  · rcases createChange_cases card.kernel.sel req card.store with nothing | ⟨slot, s', checked, made⟩
    · rw [change, nothing]
      exact .inl rfl
    · refine absurd ⟨c, data, req, slot, s', creation, checked, fun ef => ?_⟩ creates
      rcases made with ⟨other, _⟩ | ⟨_, top, grown, inside, _⟩
      · exact absurd ef other
      · exact grown ▸ UInt32.le_iff_toNat_le.mp inside
  · rw [change, deleteChange]
    split
    · exact .inl rfl
    · exact .inr ⟨_, rfl⟩

/-- No file lies deeper than a path is long. -/
def Shallow (files : Table) : Prop := ∀ i d, files i = some d → ∃ n ≤ fsMaxDepth, Depth files i n

private theorem link_of_child {files : Table} {slot df : UInt16} {d : FsDescriptor} (held : files slot = some d)
    (under : d.parent = df) (valid : df ≠ fsNoParent) : parentOf files slot = some df := by
  rw [parentOf, held, Option.bind_some, under, if_neg valid]

/-- A new child lies one level below its DF, and no other file moves. -/
private theorem depth_update {slot : UInt16} {d : FsDescriptor} (free : t.table slot = none) :
    ∀ {i n}, Depth t.table i n → Depth (Function.update t.table slot (some d)) i n := by
  intro i n deep
  rw [Depth, parentOf_update]
  exact climb_insert (by rw [parentOf, free]; rfl) deep

theorem shallow_insert {slot df : UInt16} {d p : FsDescriptor} (shallow : Shallow t.table) (free : t.table slot = none)
    (under : d.parent = df) (parent : t.table df = some p) (higher : ¬ Depth t.table df fsMaxDepth) :
    Shallow (Function.update t.table slot (some d)) := by
  intro i e held
  by_cases new : i = slot
  · obtain ⟨n, short, deep⟩ := shallow df p parent
    have less : n ≠ fsMaxDepth := fun same => higher (same ▸ deep)
    refine ⟨n + 1, by omega, ?_⟩
    have link := link_of_child (Function.update_self slot (some d) t.table) under (live_ne_invalid parent)
    rw [new, Depth, climb, link]
    exact depth_update free deep
  · rw [Function.update_of_ne new] at held
    exact (shallow i e held).imp fun n kept => ⟨kept.1, depth_update free kept.2⟩

/-- Taking a file away changes no other file's place. -/
theorem shallow_remove {slot : UInt16} (shallow : Shallow t.table)
    (table : t'.table = Function.update t.table slot none) : Shallow t'.table := by
  intro i d live
  obtain ⟨n, deep⟩ := t'.rooted i d live
  have old : Depth t.table i n := by
    refine climb_mono (fun j p up => ?_) deep
    rw [table, parentOf_update] at up
    by_cases gone : j = slot
    · rw [gone, Function.update_self] at up
      cases up
    · rwa [Function.update_of_ne gone] at up
  have kept : t.table i = some d := by
    rw [table] at live
    by_cases gone : i = slot
    · rw [gone, Function.update_self] at live
      cases live
    · rwa [Function.update_of_ne gone] at live
  obtain ⟨m, short, before⟩ := shallow i d kept
  exact ⟨n, climb_unique (parentOf_root t) before old ▸ short, deep⟩

/-- One step keeps the tree shallow exactly when it does not deepen it. -/
theorem step_shallow (serving : Serving t card) (shallow : Shallow (fileAt card.store)) (event : CardEvent) :
    Shallow (fileAt (step card event).store) ↔ ¬ Deepens card event := by
  obtain ⟨live, reliable, ef⟩ := serving
  obtain ⟨t', live', _⟩ := step_live live event
  have files := step_files live reliable (fun _ => ef) event
  have before := fileAt_ready live.ready
  have after := fileAt_ready live'.ready
  rw [before] at shallow
  cases event with
  | reset | init | powerCycle =>
    rw [files]
    refine ⟨fun _ => ?_, fun _ => shallow⟩
    rintro ⟨_, _, ⟨⟩, _⟩
  | apdu cmd cap =>
    dsimp only at files
    by_cases creates : Creates card cmd cap
    · obtain ⟨slot, d, free, under, made⟩ := created_files live creates
      rw [made] at files
      obtain ⟨p, parent, _, _⟩ := live.df
      constructor
      · rintro stays ⟨_, _, _, _, deep⟩
        rw [before] at deep
        obtain ⟨n, short, depth⟩ := stays slot d (by rw [files, Function.update_self])
        have link := link_of_child (Function.update_self slot (some d) t.table) under (live_ne_invalid parent)
        have deeper : Depth (Function.update t.table slot (some d)) slot (fsMaxDepth + 1) := by
          rw [Depth, climb, link]
          exact depth_update free deep
        rw [← files, after] at deeper
        rw [after] at depth
        have same := climb_unique (parentOf_root t') depth deeper
        omega
      · intro keeps
        rw [files]
        refine shallow_insert shallow free under parent fun deep => keeps ⟨cmd, cap, rfl, creates, ?_⟩
        rw [before]
        exact deep
    · refine ⟨fun _ => ?_, fun _ => ?_⟩
      · rintro ⟨_, _, ⟨⟩, made, _⟩
        exact creates made
      · rcases uncreated_files t.table creates with same | ⟨slot, removed⟩
        · rw [files, same]
          exact shallow
        · rw [after] at files ⊢
          exact shallow_remove shallow (files.trans removed)

end Growing

theorem navigable_iff_shallow {s : Store} {t : FileTree} (ready : Ready s t) : Navigable s ↔ Shallow (fileAt s) := by
  refine ⟨fun navigable => navigable.shallow, fun shallow => ⟨shallow, fun i d held free => ?_⟩⟩
  obtain ⟨n, short, deep⟩ := shallow i d held
  rw [fileAt_ready ready] at held free deep
  exact nameable_of_shallow ready held deep short free

private theorem factory_shallow : Shallow factoryTable := by
  have placed : ∀ x ∈ factoryTree, ∃ n ≤ fsMaxDepth, Depth factoryTable x.1 n := by decide +kernel
  exact fun i d held => placed (i, d) (factory_member held)

/-- Along every run of a card, the tree can be navigated all the time exactly when no
file is made in a DF that lies as deep as a path is long. -/
theorem tree_stays_navigable_iff {eepromSize flashSize : UInt32} {booted : Card}
    (boots : scosInit (blankCard eepromSize flashSize) = (.ok, booted)) (events : List CardEvent) :
    (∀ k, Navigable (run booted (events.take k)).store) ↔
      ∀ k event, events[k]? = some event → ¬ Deepens (run booted (events.take k)) event := by
  have serving : ∀ k, ∃ t, Serving t (run booted (events.take k)) := by
    intro k
    obtain ⟨t, live, reliable, ef⟩ := blank_boots boots
    obtain ⟨t', live', kept⟩ := run_live live (events.take k)
    exact ⟨t', live', (kept reliable).1, (kept reliable).2 ef⟩
  have next : ∀ k event, events[k]? = some event →
      run booted (events.take (k + 1)) = step (run booted (events.take k)) event := by
    intro k event there
    rw [List.take_add_one, there, Option.toList_some, run, run, List.foldl_append]
    rfl
  have shallow : ∀ k, Navigable (run booted (events.take k)).store ↔
      Shallow (fileAt (run booted (events.take k)).store) := by
    intro k
    obtain ⟨t, serving⟩ := serving k
    exact navigable_iff_shallow serving.live.ready
  simp only [shallow]
  constructor
  · intro all k event there
    obtain ⟨t, serving⟩ := serving k
    have after := all (k + 1)
    rw [next k event there] at after
    exact (step_shallow serving (all k) event).mp after
  · intro keeps k
    induction k with
    | zero =>
      rw [List.take_zero, show run booted [] = booted from rfl, blank_files boots]
      exact factory_shallow
    | succ k ih =>
      cases there : events[k]? with
      | none =>
        rw [List.take_add_one, there, Option.toList_none, List.append_nil]
        exact ih
      | some event =>
        obtain ⟨t, serving⟩ := serving k
        rw [next k event there]
        exact (step_shallow serving ih event).mpr (keeps k event there)

/-- CREATE FILE for the DF 11xx in the current DF, and SELECT for it. -/
def nest (k : UInt8) : List CardEvent :=
  [.apdu (some [0x00, 0xE0, 0x00, 0x00, 0x07, 0x82, 0x01, 0x38, 0x83, 0x02, 0x11, k]) 258,
    .apdu (some [0x00, 0xA4, 0x00, 0x0C, 0x02, 0x11, k]) 258]

theorem tree_stays_navigable_iff_two_levels : ∃ booted, scosInit (blankCard 656 112) = (.ok, booted) ∧
    ((∀ k, Navigable (run booted ([1, 2].flatMap nest |>.take k)).store) ↔
      ∀ k event, ([1, 2].flatMap nest)[k]? = some event →
        ¬ Deepens (run booted ([1, 2].flatMap nest |>.take k)) event) := by
  obtain ⟨booted, boots⟩ := small_chip_boots
  exact ⟨booted, boots, tree_stays_navigable_iff boots _⟩

/-- Eight DFs below DF 7F10, each in the one before. -/
def nested : Card :=
  run (scosInit (blankCard 656 112)).2
    (.apdu (some [0x00, 0xA4, 0x00, 0x0C, 0x02, 0x7F, 0x10]) 258 :: [1, 2, 3, 4, 5, 6, 7, 8].flatMap nest)

private theorem nested_links :
    (scosInit (blankCard 656 112)).1 = .ok ∧ parentOf (fileAt nested.store) fsRootIndex = none ∧
      Depth (fileAt nested.store) 12 9 ∧
      (fileAt nested.store 12).map (fun d => (d.fileId, d.lifecycle)) = some (0x1108, fsLcActivated) := by
  decide +kernel

/-- The last of them is there and activated, and lies more than eight links below the master file. -/
theorem ninth_level_out_of_reach :
    (scosInit (blankCard 656 112)).1 = .ok ∧
      (fileAt nested.store 12).map (fun d => (d.fileId, d.lifecycle)) = some (0x1108, fsLcActivated) ∧
      ∀ n ≤ fsMaxDepth, ¬ Depth (fileAt nested.store) 12 n := by
  obtain ⟨booted, top, deep, held⟩ := nested_links
  refine ⟨booted, held, fun n short shallow => ?_⟩
  have same := climb_unique top shallow deep
  rw [fsMaxDepth] at short
  omega

end CardOs.DepthProofs
