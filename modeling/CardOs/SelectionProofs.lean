import CardOs.CrashProofs

/-! Which file a selection lands on, told from the descriptor table alone: the order
in which an identifier is looked up, the file at the end of a path, and that a path
is walked as if its components were selected one after the other. -/
namespace CardOs.SelectionProofs
open CardOs.Library CardOs.Library.Action CardOs.FsTypes CardOs.FsStore CardOs.FsStoreProofs CardOs.Fs CardOs.FileTree
open CardOs.FsProofs CardOs.Kernel CardOs.CardProofs CardOs.CardSafety CardOs.CrashProofs

/-- The slot holds a file of this identifier. -/
def Named (files : Table) (i fid : UInt16) : Prop := ∃ d, files i = some d ∧ d.fileId = fid

/-- The slot holds a file of this identifier in this DF. -/
def ChildNamed (files : Table) (df fid i : UInt16) : Prop := ∃ d, files i = some d ∧ d.parent = df ∧ d.fileId = fid

/-- The file an identifier means on a card with this current DF: the master file under
its own identifier, else a child of the DF, else the DF, else its parent. -/
inductive Picks (files : Table) (df fid : UInt16) : UInt16 → Prop
  | mf (master : fid = fsFidMf) : Picks files df fid fsRootIndex
  | child {i : UInt16} (other : fid ≠ fsFidMf) (child : ChildNamed files df fid i) : Picks files df fid i
  | current (other : fid ≠ fsFidMf) (childless : ∀ i, ¬ ChildNamed files df fid i) (named : Named files df fid) :
    Picks files df fid df
  | parent {p : UInt16} (other : fid ≠ fsFidMf) (childless : ∀ i, ¬ ChildNamed files df fid i)
    (unnamed : ¬ Named files df fid) (link : parentOf files df = some p) (named : Named files p fid) :
    Picks files df fid p

section ById
variable {s : Store} {t : FileTree} {sel : FsSelection} {df fid i j index : UInt16} {d : FsDescriptor}

theorem child_unique (first : ChildNamed t.table df fid i) (second : ChildNamed t.table df fid j) : i = j := by
  obtain ⟨d, liveD, underD, namedD⟩ := first
  obtain ⟨e, liveE, underE, namedE⟩ := second
  exact t.ids i j d e liveD liveE ⟨underD.trans underE.symm, namedD.trans namedE.symm⟩

/-- The search for a child finds the one there is. -/
theorem fsFindChild_child (ready : Ready s t) (child : ChildNamed t.table df fid i) :
    fsFindChild df fid s = (.ok i, s) := by
  rcases fsFindChild_cases ready df fid with ⟨j, e, found, live, under, named⟩ | ⟨_, none⟩
  · rw [found, child_unique child ⟨e, live, under, named⟩]
  · obtain ⟨d, live, under, named⟩ := child
    exact absurd named (none i d live under)

theorem fsFindChild_childless (ready : Ready s t) (childless : ∀ i, ¬ ChildNamed t.table df fid i) :
    fsFindChild df fid s = (.error .notFound, s) := by
  rcases fsFindChild_cases ready df fid with ⟨j, e, _, live, under, named⟩ | ⟨missing, _⟩
  · exact absurd ⟨e, live, under, named⟩ (childless j)
  · exact missing

theorem resolve_live (ready : Ready s t) (live : t.table i = some d) :
    resolve i s = (if fsIsUsable d then .ok d else .error .notUsable, s) := by
  rw [resolve, bind_ok (readDesc_live ready live)]
  cases fsIsUsable d <;> rfl

theorem picked_unique (first : Picks t.table df fid i) (second : Picks t.table df fid j) : i = j := by
  cases first with
  | mf master =>
    cases second with
    | mf => rfl
    | child other => exact absurd master other
    | current other => exact absurd master other
    | parent other => exact absurd master other
  | child other child =>
    cases second with
    | mf master => exact absurd master other
    | child _ child' => exact child_unique child child'
    | current _ childless => exact absurd child (childless _)
    | parent _ childless => exact absurd child (childless _)
  | current other childless named =>
    cases second with
    | mf master => exact absurd master other
    | child _ child' => exact absurd child' (childless _)
    | current => rfl
    | parent _ _ unnamed => exact absurd named unnamed
  | parent other childless unnamed link named =>
    cases second with
    | mf master => exact absurd master other
    | child _ child' => exact absurd child' (childless _)
    | current _ _ named' => exact absurd named' unnamed
    | parent _ _ _ link' => exact Option.some.inj (link.symm.trans link')

theorem picked_live (picked : Picks t.table df fid i) : ∃ d, t.table i = some d := by
  cases picked with
  | mf => exact ⟨factoryMf, t.root⟩
  | child _ child => exact ⟨child.choose, child.choose_spec.1⟩
  | current _ _ named => exact ⟨named.choose, named.choose_spec.1⟩
  | parent _ _ _ _ named => exact ⟨named.choose, named.choose_spec.1⟩

private theorem orCurrent_found (found : index ≠ fsInvalidIndex) : orCurrent sel fid index s = (.ok index, s) := by
  rw [orCurrent, if_pos found]
  rfl

private theorem orParent_found (found : index ≠ fsInvalidIndex) : orParent sel fid index s = (.ok index, s) := by
  rw [orParent, if_pos found]
  rfl

private theorem orChild_eq (ready : Ready s t) (sel : FsSelection) (fid : UInt16) :
    (∃ i, ChildNamed t.table sel.curDf fid i ∧ orChild sel fid fsInvalidIndex s = (.ok i, s)) ∨
      ((∀ i, ¬ ChildNamed t.table sel.curDf fid i) ∧ orChild sel fid fsInvalidIndex s = (.ok fsInvalidIndex, s)) := by
  rw [orChild, if_neg (by simp), attempt_bind]
  by_cases some : ∃ i, ChildNamed t.table sel.curDf fid i
  · obtain ⟨i, child⟩ := some
    exact .inl ⟨i, child, by rw [fsFindChild_child ready child]; rfl⟩
  · have childless := not_exists.mp some
    exact .inr ⟨childless, by rw [fsFindChild_childless ready childless]; rfl⟩

private theorem orCurrent_eq (ready : Ready s t) (live : t.table sel.curDf = some d) :
    orCurrent sel fid fsInvalidIndex s = (.ok (if d.fileId = fid then sel.curDf else fsInvalidIndex), s) := by
  rw [orCurrent, if_neg (by simp), attempt_bind, readDesc_live ready live]
  rfl

private theorem orParent_eq (ready : Ready s t) (live : t.table sel.curDf = some d) (fid : UInt16) :
    (∃ p, parentOf t.table sel.curDf = some p ∧ Named t.table p fid ∧
        orParent sel fid fsInvalidIndex s = (.ok p, s)) ∨
      ((∀ p, parentOf t.table sel.curDf = some p → ¬ Named t.table p fid) ∧
        orParent sel fid fsInvalidIndex s = (.ok fsInvalidIndex, s)) := by
  rw [orParent, if_neg (by simp), attempt_bind, readDesc_live ready live]
  have link : parentOf t.table sel.curDf = if d.parent = fsNoParent then none else some d.parent := by
    rw [parentOf, live, Option.bind_some]
  rw [link]
  dsimp only
  split
  · exact .inr ⟨by simp, rfl⟩
  · rename_i below
    obtain ⟨p, parentLive, _⟩ := parent_df live below
    rw [attempt_bind, readDesc_live ready parentLive]
    by_cases named : p.fileId = fid
    · exact .inl ⟨d.parent, rfl, ⟨p, parentLive, named⟩, by simp [named]⟩
    · refine .inr ⟨?_, by simp [named]⟩
      rintro _ ⟨⟩ ⟨q, live', named'⟩
      rw [parentLive] at live'
      cases live'
      exact named named'

/-- The three search stages come to the file the identifier means, if there is one. -/
private theorem search_picks (ready : Ready s t) (df : DfSelected t sel) (fid : UInt16) :
    ∃ a b index, orChild sel fid (if fid = fsFidMf then fsRootIndex else fsInvalidIndex) s = (.ok a, s) ∧
      orCurrent sel fid a s = (.ok b, s) ∧ orParent sel fid b s = (.ok index, s) ∧
      if index = fsInvalidIndex then ∀ i, ¬ Picks t.table sel.curDf fid i else Picks t.table sel.curDf fid index := by
  obtain ⟨d, live, _, _⟩ := df
  by_cases master : fid = fsFidMf
  · have found : fsRootIndex ≠ fsInvalidIndex := by decide
    refine ⟨fsRootIndex, fsRootIndex, fsRootIndex, ?_, orCurrent_found found, orParent_found found, ?_⟩
    · rw [if_pos master, orChild, if_pos found]
      rfl
    · rw [if_neg found]
      exact .mf master
  · rw [if_neg master]
    rcases orChild_eq ready sel fid with ⟨i, child, stage⟩ | ⟨childless, stage⟩
    · have found : i ≠ fsInvalidIndex := live_ne_invalid child.choose_spec.1
      refine ⟨i, i, i, stage, orCurrent_found found, orParent_found found, ?_⟩
      rw [if_neg found]
      exact .child master child
    · by_cases named : d.fileId = fid
      · have found : sel.curDf ≠ fsInvalidIndex := live_ne_invalid live
        refine ⟨_, sel.curDf, sel.curDf, stage, ?_, orParent_found found, ?_⟩
        · rw [orCurrent_eq ready live, if_pos named]
        · rw [if_neg found]
          exact .current master childless ⟨d, live, named⟩
      · have unnamed : ¬ Named t.table sel.curDf fid := by
          rintro ⟨e, live', named'⟩
          rw [live] at live'
          cases live'
          exact named named'
        have current : orCurrent sel fid fsInvalidIndex s = (.ok fsInvalidIndex, s) := by
          rw [orCurrent_eq ready live, if_neg named]
        rcases orParent_eq ready live fid with ⟨p, link, called, last⟩ | ⟨uncalled, last⟩
        · have found : p ≠ fsInvalidIndex := live_ne_invalid called.choose_spec.1
          refine ⟨_, _, p, stage, current, last, ?_⟩
          rw [if_neg found]
          exact .parent master childless unnamed link called
        · refine ⟨_, _, _, stage, current, last, ?_⟩
          rw [if_pos rfl]
          intro i picked
          cases picked with
          | mf same => exact master same
          | child _ child => exact childless _ child
          | current _ _ named' => exact unnamed named'
          | parent _ _ _ link called => exact uncalled _ link called

/-- The file the identifier means is selected, unless it may not be used. -/
theorem fsSelectByFid_picked (ready : Ready s t) (df : DfSelected t sel) (picked : Picks t.table sel.curDf fid i)
    (live : t.table i = some d) :
    fsSelectByFid sel fid s = (if fsIsUsable d then .ok (commit i d) else .error .notUsable, s) := by
  obtain ⟨a, b, index, first, second, third, meant⟩ := search_picks ready df fid
  rw [fsSelectByFid, bind_ok first, bind_ok second, bind_ok third]
  split at meant
  · exact absurd picked (meant i)
  · rename_i found
    obtain rfl := picked_unique meant picked
    rw [if_neg found]
    cases usable : fsIsUsable d with
    | true => rw [bind_ok (resolve_live ready live |>.trans (by rw [usable]; rfl))]; rfl
    | false => rw [bind_error (resolve_live ready live |>.trans (by rw [usable]; rfl))]; rfl

theorem fsSelectByFid_unpicked (ready : Ready s t) (df : DfSelected t sel)
    (unpicked : ∀ i, ¬ Picks t.table sel.curDf fid i) : fsSelectByFid sel fid s = (.error .notFound, s) := by
  obtain ⟨a, b, index, first, second, third, meant⟩ := search_picks ready df fid
  rw [fsSelectByFid, bind_ok first, bind_ok second, bind_ok third]
  split at meant
  · rename_i missing
    rw [if_pos missing]
    rfl
  · exact absurd meant (unpicked index)

end ById

/-- The same file in two tables whose slots correspond by `π`. -/
structure SameFile (π : Equiv.Perm UInt16) (d e : FsDescriptor) : Prop where
  fileId : e.fileId = d.fileId
  type : e.type = d.type
  lifecycle : e.lifecycle = d.lifecycle
  parent : e.parent = π d.parent

/-- The second table holds the files of the first in other slots. -/
structure Relabels (π : Equiv.Perm UInt16) (files files' : Table) : Prop where
  root : π fsRootIndex = fsRootIndex
  outside : π fsNoParent = fsNoParent
  file : ∀ i, Option.Rel (SameFile π) (files i) (files' (π i))

/-- A selection in the slots of the second table. -/
def relabel (π : Equiv.Perm UInt16) (sel : FsSelection) : FsSelection := ⟨π sel.curDf, π sel.curEf⟩

section Relabelling
variable {π : Equiv.Perm UInt16} {files files' : Table} {df fid i p : UInt16} {d e : FsDescriptor}

private theorem relabels_some (relabels : Relabels π files files') (held : files i = some d) :
    ∃ e, files' (π i) = some e ∧ SameFile π d e := by
  have rel := relabels.file i
  rw [held] at rel
  cases found : files' (π i) with
  | none => rw [found] at rel; cases rel
  | some e =>
    rw [found] at rel
    cases rel with
    | some same => exact ⟨e, rfl, same⟩

private theorem relabels_back (relabels : Relabels π files files') (held : files' (π i) = some e) :
    ∃ d, files i = some d ∧ SameFile π d e := by
  have rel := relabels.file i
  rw [held] at rel
  cases found : files i with
  | none => rw [found] at rel; cases rel
  | some d =>
    rw [found] at rel
    cases rel with
    | some same => exact ⟨d, rfl, same⟩

private theorem named_relabelled (relabels : Relabels π files files') : Named files' (π i) fid ↔ Named files i fid := by
  constructor
  · rintro ⟨e, held, named⟩
    obtain ⟨d, heldD, same⟩ := relabels_back relabels held
    exact ⟨d, heldD, same.fileId ▸ named⟩
  · rintro ⟨d, held, named⟩
    obtain ⟨e, heldE, same⟩ := relabels_some relabels held
    exact ⟨e, heldE, same.fileId.trans named⟩

private theorem child_relabelled (relabels : Relabels π files files') :
    ChildNamed files' (π df) fid (π i) ↔ ChildNamed files df fid i := by
  constructor
  · rintro ⟨e, held, under, named⟩
    obtain ⟨d, heldD, same⟩ := relabels_back relabels held
    exact ⟨d, heldD, π.injective (same.parent.symm.trans under), same.fileId ▸ named⟩
  · rintro ⟨d, held, under, named⟩
    obtain ⟨e, heldE, same⟩ := relabels_some relabels held
    exact ⟨e, heldE, same.parent.trans (congrArg π under), same.fileId.trans named⟩

private theorem childless_relabelled (relabels : Relabels π files files') :
    (∀ i, ¬ ChildNamed files' (π df) fid i) ↔ ∀ i, ¬ ChildNamed files df fid i := by
  constructor
  · exact fun childless i child => childless (π i) ((child_relabelled relabels).mpr child)
  · intro childless i child
    rw [← π.apply_symm_apply i] at child
    exact childless _ ((child_relabelled relabels).mp child)

private theorem parentOf_relabelled (relabels : Relabels π files files') :
    parentOf files' (π df) = (parentOf files df).map π := by
  unfold parentOf
  cases held : files df with
  | none =>
    have rel := relabels.file df
    rw [held] at rel
    cases found : files' (π df) with
    | none => rfl
    | some e => rw [found] at rel; cases rel
  | some d =>
    obtain ⟨e, found, same⟩ := relabels_some relabels held
    have top : π d.parent = fsNoParent ↔ d.parent = fsNoParent := by
      rw [← relabels.outside, π.injective.eq_iff, relabels.outside]
    rw [found, Option.bind_some, Option.bind_some, same.parent]
    by_cases orphan : d.parent = fsNoParent
    · rw [if_pos orphan, if_pos (top.mpr orphan)]
      rfl
    · rw [if_neg orphan, if_neg (mt top.mp orphan)]
      rfl

/-- Which file an identifier means does not depend on the slots. -/
theorem picks_relabelled (relabels : Relabels π files files') (picked : Picks files df fid i) :
    Picks files' (π df) fid (π i) := by
  cases picked with
  | mf master => exact relabels.root.symm ▸ .mf master
  | child other child => exact .child other ((child_relabelled relabels).mpr child)
  | current other childless named =>
    exact .current other ((childless_relabelled relabels).mpr childless) ((named_relabelled relabels).mpr named)
  | parent other childless unnamed link named =>
    refine .parent other ((childless_relabelled relabels).mpr childless) (mt (named_relabelled relabels).mp unnamed) ?_
      ((named_relabelled relabels).mpr named)
    rw [parentOf_relabelled relabels, link]
    rfl

theorem relabels_symm (relabels : Relabels π files files') : Relabels π.symm files' files where
  root := π.symm_apply_eq.mpr relabels.root.symm
  outside := π.symm_apply_eq.mpr relabels.outside.symm
  file i := by
    cases found : files' i with
    | none =>
      have rel := relabels.file (π.symm i)
      rw [π.apply_symm_apply, found] at rel
      cases held : files (π.symm i) with
      | none => exact .none
      | some d => rw [held] at rel; cases rel
    | some e =>
      rw [← π.apply_symm_apply i] at found
      obtain ⟨d, held, same⟩ := relabels_back relabels found
      rw [held]
      refine .some ⟨same.fileId.symm, same.type.symm, same.lifecycle.symm, ?_⟩
      rw [same.parent, π.symm_apply_apply]

private theorem commit_relabelled (relabels : Relabels π files files') (same : SameFile π d e) :
    commit (π i) e = relabel π (commit i d) := by
  unfold commit fsIsDf
  rw [same.type]
  split
  · rw [relabel, show fsInvalidIndex = fsNoParent from rfl, relabels.outside]
  · rw [relabel, same.parent]

variable {s s' : Store} {t t' : FileTree} {sel sel' : FsSelection}

/-- Selecting by identifier comes to the same file with the same result, wherever the files are. -/
theorem fsSelectByFid_relabelled (ready : Ready s t) (ready' : Ready s' t') (chosen : DfSelected t sel)
    (chosen' : DfSelected t' sel') (relabels : Relabels π t.table t'.table) (here : sel'.curDf = π sel.curDf)
    (fid : UInt16) : (fsSelectByFid sel' fid s').1 = (fsSelectByFid sel fid s).1.map (relabel π) := by
  by_cases some : ∃ i, Picks t.table sel.curDf fid i
  · obtain ⟨i, picked⟩ := some
    obtain ⟨d, live⟩ := picked_live picked
    obtain ⟨e, live', same⟩ := relabels_some relabels live
    have picked' : Picks t'.table sel'.curDf fid (π i) := here ▸ picks_relabelled relabels picked
    have usable : fsIsUsable e = fsIsUsable d := by rw [fsIsUsable, fsIsUsable, same.lifecycle]
    rw [fsSelectByFid_picked ready chosen picked live, fsSelectByFid_picked ready' chosen' picked' live', usable,
      commit_relabelled relabels same]
    cases fsIsUsable d <;> rfl
  · have unpicked' : ∀ j, ¬ Picks t'.table sel'.curDf fid j := by
      intro j picked'
      have back := picks_relabelled (relabels_symm relabels) picked'
      rw [here, π.symm_apply_apply] at back
      exact some ⟨_, back⟩
    rw [fsSelectByFid_unpicked ready chosen (not_exists.mp some), fsSelectByFid_unpicked ready' chosen' unpicked']
    rfl

end Relabelling

/-- The file in a slot is the one selected: a DF as the current DF with no EF in it
selected, an EF as the current EF with the DF it lies in. -/
structure Selected (i : UInt16) (d : FsDescriptor) (chosen : FsSelection) : Prop where
  index : fsSelectedIndex chosen = i
  df : d.type = .mf ∨ d.type = .df → chosen.curDf = i ∧ chosen.curEf = fsInvalidIndex
  ef : d.type = .efTransparent → chosen.curDf = d.parent ∧ chosen.curEf = i

/-- Selecting a live file selects it, and nothing else does. -/
theorem selected_iff {t : FileTree} {i : UInt16} {d : FsDescriptor} {chosen : FsSelection} (live : t.table i = some d) :
    Selected i d chosen ↔ chosen = commit i d := by
  rcases df_or_ef live with isDf | isEf
  · have kind : d.type = .mf ∨ d.type = .df := by simpa [fsIsDf, or_comm] using isDf
    rw [commit, if_pos isDf]
    constructor
    · intro selected
      obtain ⟨df, ef⟩ := selected.df kind
      exact FsSelection.ext df ef
    · rintro rfl
      exact ⟨rfl, fun _ => ⟨rfl, rfl⟩, fun ef => by simp [ef] at kind⟩
  · have kind : d.type = .efTransparent := by simpa [fsIsEf] using isEf
    rw [commit, if_neg (by simp [fsIsDf, kind])]
    constructor
    · intro selected
      obtain ⟨df, ef⟩ := selected.ef kind
      exact FsSelection.ext df ef
    · rintro rfl
      exact ⟨if_pos (live_ne_invalid live), fun df => by simp [kind] at df, fun _ => ⟨rfl, rfl⟩⟩

/-- What selecting by identifier does on a card with these files: it selects the file
the identifier means if that is activated, says that there is none or that it may not
be used otherwise, and a DF has one child of an identifier at most. -/
structure FollowsScope (files : Table) (sel : FsSelection) (fid : UInt16) (outcome : Except FsError FsSelection) :
    Prop where
  unique : ∀ i j, ChildNamed files sel.curDf fid i → ChildNamed files sel.curDf fid j → i = j
  selects : ∀ chosen, outcome = .ok chosen ↔
    ∃ i d, Picks files sel.curDf fid i ∧ files i = some d ∧ d.lifecycle = fsLcActivated ∧ Selected i d chosen
  refuses : ∀ e, outcome = .error e ↔
    (e = .notFound ∧ ∀ i, ¬ Picks files sel.curDf fid i) ∨
      (e = .notUsable ∧ ∃ i d, Picks files sel.curDf fid i ∧ files i = some d ∧ d.lifecycle ≠ fsLcActivated)

theorem fsSelectByFid_scope {s : Store} {t : FileTree} {sel : FsSelection} (ready : Ready s t) (df : DfSelected t sel)
    (fid : UInt16) : FollowsScope t.table sel fid (fsSelectByFid sel fid s).1 where
  unique _ _ := child_unique
  selects chosen := by
    by_cases some : ∃ i, Picks t.table sel.curDf fid i
    · obtain ⟨i, picked⟩ := some
      obtain ⟨d, live⟩ := picked_live picked
      rw [fsSelectByFid_picked ready df picked live]
      constructor
      · intro returned
        split at returned
        · rename_i usable
          exact ⟨i, d, picked, live, of_decide_eq_true usable, (selected_iff live).mpr (Except.ok.inj returned).symm⟩
        · cases returned
      · rintro ⟨j, e, picked', live', active, selected⟩
        obtain rfl := picked_unique picked picked'
        rw [live] at live'
        cases live'
        rw [if_pos (show fsIsUsable d = true from decide_eq_true active), (selected_iff live).mp selected]
    · rw [fsSelectByFid_unpicked ready df (not_exists.mp some)]
      constructor
      · intro returned
        cases returned
      · rintro ⟨i, _, picked, _⟩
        exact absurd ⟨i, picked⟩ some
  refuses e := by
    by_cases some : ∃ i, Picks t.table sel.curDf fid i
    · obtain ⟨i, picked⟩ := some
      obtain ⟨d, live⟩ := picked_live picked
      rw [fsSelectByFid_picked ready df picked live]
      constructor
      · intro refused
        split at refused
        · cases refused
        · rename_i unusable
          exact .inr ⟨(Except.error.inj refused).symm, i, d, picked, live,
            fun active => unusable (decide_eq_true active)⟩
      · rintro (⟨_, unpicked⟩ | ⟨rfl, j, e, picked', live', inactive⟩)
        · exact absurd picked (unpicked i)
        · obtain rfl := picked_unique picked picked'
          rw [live] at live'
          cases live'
          rw [if_neg (show ¬ fsIsUsable d = true from fun usable => inactive (of_decide_eq_true usable))]
    · rw [fsSelectByFid_unpicked ready df (not_exists.mp some)]
      constructor
      · intro refused
        exact .inl ⟨(Except.error.inj refused).symm, not_exists.mp some⟩
      · rintro (⟨rfl, _⟩ | ⟨_, i, _, picked, _⟩)
        · rfl
        · exact absurd ⟨i, picked⟩ some

/-- Selection by identifier follows the scope and its order on every card that booted, and
a second such card whose files and current DF are the same but for the slots answers the same. -/
theorem select_by_id_follows_scope {eepromSize flashSize eepromSize' flashSize' : UInt32} {booted booted' : Card}
    (boots : scosInit (blankCard eepromSize flashSize) = (.ok, booted))
    (boots' : scosInit (blankCard eepromSize' flashSize') = (.ok, booted')) (events events' : List LifeEvent)
    (fid : UInt16) :
    let card := life booted events
    let other := life booted' events'
    let outcome := fsSelectByFid card.kernel.sel fid card.store
    outcome.2 = card.store ∧ FollowsScope (fileAt card.store) card.kernel.sel fid outcome.1 ∧
      ∀ π, Relabels π (fileAt card.store) (fileAt other.store) → other.kernel.sel.curDf = π card.kernel.sel.curDf →
        (fsSelectByFid other.kernel.sel fid other.store).1 = outcome.1.map (relabel π) := by
  intro card other outcome
  obtain ⟨t, live, _, _⟩ := booted_serving boots events
  obtain ⟨t', live', _, _⟩ := booted_serving boots' events'
  refine ⟨(fsSelectByFid_selects live.ready live.df fid).1, ?_, ?_⟩
  · rw [fileAt_ready live.ready]
    exact fsSelectByFid_scope live.ready live.df fid
  · intro π relabels here
    rw [fileAt_ready live.ready, fileAt_ready live'.ready] at relabels
    exact fsSelectByFid_relabelled live.ready live'.ready live.df live'.df relabels here fid

def intoDf : List LifeEvent := [.used (.apdu (some [0x00, 0xA4, 0x00, 0x0C, 0x02, 0x7F, 0x10]) 258)]

/-- In DF 7F10 of the factory tree, in slot 2, identifier 6F01 means the EF in slot 3, and
selecting it leaves that DF current. -/
theorem select_by_id_follows_scope_in_df : ∃ booted, scosInit (blankCard 656 112) = (.ok, booted) ∧
    let card := life booted intoDf
    (fsSelectByFid card.kernel.sel 0x6F01 card.store).1 = .ok ⟨2, 3⟩ ∧ ∃ d, fileAt card.store 3 = some d ∧
      d.lifecycle = fsLcActivated ∧ Picks (fileAt card.store) card.kernel.sel.curDf 0x6F01 3 ∧ Selected 3 d ⟨2, 3⟩ := by
  obtain ⟨booted, boots⟩ := small_chip_boots
  have chosen : (fsSelectByFid (life (scosInit (blankCard 656 112)).2 intoDf).kernel.sel 0x6F01
    (life (scosInit (blankCard 656 112)).2 intoDf).store).1 = .ok ⟨2, 3⟩ := by decide +kernel
  rw [boots] at chosen
  have scope := (select_by_id_follows_scope boots boots intoDf [] 0x6F01).2.1
  obtain ⟨i, d, picked, file, active, selected⟩ := (scope.selects ⟨2, 3⟩).mp chosen
  obtain rfl : 3 = i := selected.index
  exact ⟨booted, boots, chosen, d, file, active, picked, selected⟩

/-- The components of a path selected one after the other, each inside the DF selected
before it; the last may also be an EF. -/
def selectStepwise (sel : FsSelection) : List UInt16 → FsM FsSelection
  | [] => pure sel
  | [fid] => do
    match ← Action.attempt (fsSelectChildDf sel fid) with
    | .ok chosen => pure chosen
    | .error _ => fsSelectChildEf sel fid
  | fid :: next :: rest => do
    let sel ← fsSelectChildDf sel fid
    selectStepwise sel (next :: rest)

/-- The caller's selection after a selection function returned. -/
def selectionAfter (sel : FsSelection) : Except FsError FsSelection → FsSelection
  | .ok chosen => chosen
  | .error _ => sel

section ByPath
variable {s : Store} {t : FileTree} {sel : FsSelection} {fid i : UInt16} {d : FsDescriptor}

theorem selectChildTyped_child (ready : Ready s t) (child : ChildNamed t.table sel.curDf fid i)
    (live : t.table i = some d) (wantDf : Bool) :
    selectChildTyped sel fid wantDf s =
      (if fsIsUsable d then if wantDf = fsIsDf d then .ok (commit i d) else .error .wrongType
        else .error .notUsable, s) := by
  rw [selectChildTyped, bind_ok (fsFindChild_child ready child)]
  cases usable : fsIsUsable d with
  | false => rw [bind_error ((resolve_live ready live).trans (by rw [usable]; rfl))]; rfl
  | true =>
    rw [bind_ok ((resolve_live ready live).trans (by rw [usable]; rfl))]
    by_cases typed : wantDf = fsIsDf d
    · rw [if_neg (not_not.mpr typed), if_pos typed]
      rfl
    · rw [if_pos typed, if_neg typed]
      rfl

theorem selectChildTyped_childless (ready : Ready s t) (childless : ∀ i, ¬ ChildNamed t.table sel.curDf fid i)
    (wantDf : Bool) : selectChildTyped sel fid wantDf s = (.error .notFound, s) := by
  rw [selectChildTyped, bind_error (fsFindChild_childless ready childless)]

private theorem walkPath_later (sel : FsSelection) (fid : UInt16) (rest : List UInt16) :
    walkPath sel false (fid :: rest) = (do
      match ← Action.attempt (fsFindChild sel.curDf fid) with
      | .error _ => Action.fail .notFound
      | .ok index => do
        let d ← resolve index
        if rest ≠ [] ∧ !fsIsDf d then Action.fail .wrongType else walkPath (commit index d) false rest) := rfl

/-- One component of a path past the first: into a child that may be used, and that is
a DF unless the path ends there. -/
theorem walkPath_child (ready : Ready s t) (child : ChildNamed t.table sel.curDf fid i) (live : t.table i = some d)
    (rest : List UInt16) :
    walkPath sel false (fid :: rest) s =
      if fsIsUsable d then
        if rest ≠ [] ∧ !fsIsDf d then (.error .wrongType, s) else walkPath (commit i d) false rest s
      else (.error .notUsable, s) := by
  rw [walkPath_later, attempt_bind, fsFindChild_child ready child]
  dsimp only
  cases usable : fsIsUsable d with
  | false => rw [bind_error ((resolve_live ready live).trans (by rw [usable]; rfl))]; rfl
  | true =>
    rw [bind_ok ((resolve_live ready live).trans (by rw [usable]; rfl)), if_pos rfl]
    split <;> rfl

theorem walkPath_childless (ready : Ready s t) (childless : ∀ i, ¬ ChildNamed t.table sel.curDf fid i)
    (rest : List UInt16) : walkPath sel false (fid :: rest) s = (.error .notFound, s) := by
  rw [walkPath_later, attempt_bind, fsFindChild_childless ready childless]
  rfl

/-- The first component is special only where it names the DF the walk stands on. -/
theorem walkPath_first (ready : Ready s t) (live : t.table sel.curDf = some d) (rest : List UInt16) :
    walkPath sel true (fid :: rest) s =
      if d.fileId = fid then walkPath sel false rest s else walkPath sel false (fid :: rest) s := by
  have asked : namesHere sel true fid s = (.ok (d.fileId = fid), s) := by
    rw [namesHere, if_neg (by decide), attempt_bind, readDesc_live ready live]
    rfl
  rw [walkPath, bind_ok asked]
  by_cases here : d.fileId = fid
  · rw [if_pos (decide_eq_true here), if_pos here]
  · rw [if_neg (by simpa using here), if_neg here]
    rfl

/-- Past its first component a path is walked as its components are selected in turn. -/
theorem walkPath_stepwise (ready : Ready s t) (sel : FsSelection) (fid : UInt16) (rest : List UInt16) :
    (walkPath sel false (fid :: rest) s).1.toOption = (selectStepwise sel (fid :: rest) s).1.toOption ∧
      (selectStepwise sel (fid :: rest) s).2 = s := by
  induction rest generalizing sel fid with
  | nil =>
    rw [selectStepwise, attempt_bind, fsSelectChildDf, fsSelectChildEf]
    by_cases some : ∃ i, ChildNamed t.table sel.curDf fid i
    · obtain ⟨i, child⟩ := some
      obtain ⟨d, live, _⟩ := id child
      rw [walkPath_child ready child live, selectChildTyped_child ready child live]
      cases usable : fsIsUsable d with
      | false => simp [selectChildTyped_child ready child live, usable]
      | true => cases isDf : fsIsDf d <;> simp [selectChildTyped_child ready child live, usable, isDf, walkPath]
    · have childless := not_exists.mp some
      rw [walkPath_childless ready childless, selectChildTyped_childless ready childless]
      simp [selectChildTyped_childless ready childless]
  | cons next rest ih =>
    rw [selectStepwise, fsSelectChildDf]
    by_cases some : ∃ i, ChildNamed t.table sel.curDf fid i
    · obtain ⟨i, child⟩ := some
      obtain ⟨d, live, _⟩ := id child
      rw [walkPath_child ready child live, run_bind, selectChildTyped_child ready child live]
      cases usable : fsIsUsable d with
      | false => exact ⟨rfl, rfl⟩
      | true =>
        cases isDf : fsIsDf d with
        | false => exact ⟨rfl, rfl⟩
        | true => simpa using ih (commit i d) next
    · have childless := not_exists.mp some
      rw [walkPath_childless ready childless, run_bind, selectChildTyped_childless ready childless]
      exact ⟨rfl, rfl⟩

private theorem pathIds_length : ∀ path : List UInt8, (pathIds path).length = path.length / 2
  | [] => rfl
  | [_] => by simp [pathIds]
  | hi :: lo :: rest => by
    rw [pathIds, List.length_cons, pathIds_length rest]
    simp only [List.length_cons]
    omega

private theorem path_of_ok {path : List UInt8} {fromMf : Bool} {chosen : FsSelection}
    (returned : (fsSelectByPath sel path fromMf s).1 = .ok chosen) :
    path.length % 2 = 0 ∧ 1 ≤ path.length / 2 ∧ path.length / 2 ≤ fsMaxDepth := by
  unfold fsSelectByPath at returned
  split at returned
  · cases returned
  · split at returned
    · cases returned
    · omega

theorem fsSelectByPath_walks (sel : FsSelection) (path : List UInt8) (fromMf : Bool) (even : path.length % 2 = 0)
    (nonempty : 1 ≤ path.length / 2) (short : path.length / 2 ≤ fsMaxDepth) :
    ∃ fid rest, pathIds path = fid :: rest ∧
      fsSelectByPath sel path fromMf = walkPath (if fromMf then fsSelectionReset else sel) true (fid :: rest) := by
  have count := pathIds_length path
  cases ids : pathIds path with
  | nil =>
    rw [ids] at count
    simp only [List.length_nil] at count
    omega
  | cons fid rest =>
    refine ⟨fid, rest, rfl, ?_⟩
    rw [fsSelectByPath, if_neg (by omega), if_neg (by omega), ids]

/-- The selection is on an activated file of this identifier, and on no EF beside it. -/
def Lands (files : Table) (chosen : FsSelection) (fid : UInt16) : Prop :=
  ∃ d, files (fsSelectedIndex chosen) = some d ∧ d.lifecycle = fsLcActivated ∧ d.fileId = fid ∧
    (fsIsDf d = true → chosen.curEf = fsInvalidIndex)

theorem commit_lands (live : t.table i = some d) (usable : fsIsUsable d = true) :
    Lands t.table (commit i d) d.fileId := by
  have active : d.lifecycle = fsLcActivated := of_decide_eq_true usable
  cases isDf : fsIsDf d with
  | true =>
    rw [commit, if_pos isDf]
    exact ⟨d, live, active, rfl, fun _ => rfl⟩
  | false =>
    rw [commit, if_neg (by rw [isDf]; decide)]
    refine ⟨d, ?_, active, rfl, fun df => absurd (isDf.symm.trans df) (by decide)⟩
    rw [fsSelectedIndex, if_pos (live_ne_invalid live)]
    exact live

/-- A walk that goes past its first component ends on the file its last one names. -/
theorem walkPath_lands (ready : Ready s t) {chosen : FsSelection} (sel : FsSelection) (fid : UInt16) (rest : List UInt16)
    (walked : (walkPath sel false (fid :: rest) s).1 = .ok chosen) :
    ∃ last, (fid :: rest).getLast? = some last ∧ Lands t.table chosen last := by
  induction rest generalizing sel fid with
  | nil =>
    by_cases some : ∃ i, ChildNamed t.table sel.curDf fid i
    · obtain ⟨i, child⟩ := some
      obtain ⟨d, live, _, named⟩ := id child
      rw [walkPath_child ready child live] at walked
      cases usable : fsIsUsable d with
      | false => rw [usable] at walked; cases walked
      | true =>
        rw [usable] at walked
        obtain rfl : commit i d = chosen := by simpa [walkPath] using walked
        exact ⟨fid, rfl, named ▸ commit_lands live usable⟩
    · rw [walkPath_childless ready (not_exists.mp some)] at walked
      cases walked
  | cons next rest ih =>
    by_cases some : ∃ i, ChildNamed t.table sel.curDf fid i
    · obtain ⟨i, child⟩ := some
      obtain ⟨d, live, _⟩ := id child
      rw [walkPath_child ready child live] at walked
      split at walked
      · split at walked
        · cases walked
        · obtain ⟨last, ends, lands⟩ := ih (commit i d) next walked
          exact ⟨last, by rw [List.getLast?_cons_cons]; exact ends, lands⟩
      · cases walked
    · rw [walkPath_childless ready (not_exists.mp some)] at walked
      cases walked

/-- A selection that is left where it was lands on the DF it stands on unless an EF of
another identifier is selected. -/
theorem lands_in_place (df : t.table sel.curDf = some d) (usable : fsIsUsable d = true) (ef : EfSelected t sel) :
    Lands t.table sel d.fileId ↔ ∀ e, t.table sel.curEf = some e → e.fileId = d.fileId := by
  rcases ef with none | ⟨e, live, isEf, usableE, _⟩
  · refine ⟨fun _ e live => absurd none (live_ne_invalid live), fun _ => ⟨d, ?_, of_decide_eq_true usable, rfl,
      fun _ => none⟩⟩
    rw [fsSelectedIndex, if_neg (not_not.mpr none)]
    exact df
  · have here : fsSelectedIndex sel = sel.curEf := if_pos (live_ne_invalid live)
    rw [Lands, here]
    constructor
    · rintro ⟨e', live', _, named, _⟩ e'' live''
      rw [live'] at live''
      exact Option.some.inj live'' ▸ named
    · intro named
      refine ⟨e, live, of_decide_eq_true usableE, named e live, fun isDf => ?_⟩
      have typed : e.type = .efTransparent := of_decide_eq_true isEf
      simp [fsIsDf, typed] at isDf

end ByPath

/-- Walking a path whose first component is not the identifier of the DF it starts from
comes to what selecting its components in turn comes to, or fails as that does and leaves
the selection; in both cases nothing is stored. -/
theorem path_walk_is_stepwise {eepromSize flashSize : UInt32} {booted : Card}
    (boots : scosInit (blankCard eepromSize flashSize) = (.ok, booted)) (events : List LifeEvent) (path : List UInt8)
    (fromMf : Bool) (even : path.length % 2 = 0) (nonempty : 1 ≤ path.length / 2)
    (short : path.length / 2 ≤ fsMaxDepth) :
    let card := life booted events
    let start := if fromMf then fsSelectionReset else card.kernel.sel
    let walked := fsSelectByPath card.kernel.sel path fromMf card.store
    let stepped := selectStepwise start (pathIds path) card.store
    (∀ d, fileAt card.store start.curDf = some d → (pathIds path).head? ≠ some d.fileId) →
      walked.1.toOption = stepped.1.toOption ∧ walked.2 = card.store ∧ stepped.2 = card.store ∧
        selectionAfter card.kernel.sel walked.1 = stepped.1.toOption.getD card.kernel.sel := by
  intro card start walked stepped
  obtain ⟨t, live, _, _⟩ := booted_serving boots events
  have df : DfSelected t start := by
    cases fromMf with
    | false => exact live.df
    | true => exact (reset_selected t).1
  obtain ⟨d, liveD, _, _⟩ := df
  obtain ⟨fid, rest, ids, walks⟩ := fsSelectByPath_walks card.kernel.sel path fromMf even nonempty short
  intro elsewhere
  have other : d.fileId ≠ fid := by
    have apart := elsewhere d (by rw [fileAt_ready live.ready]; exact liveD)
    rw [ids, List.head?_cons] at apart
    exact fun same => apart (congrArg some same.symm)
  obtain ⟨same, kept⟩ := walkPath_stepwise live.ready start fid rest
  have agree : walked.1.toOption = stepped.1.toOption := by
    rw [show walked = walkPath start true (fid :: rest) card.store from congrFun walks _,
      walkPath_first live.ready liveD, if_neg other, same, ← ids]
  refine ⟨agree, (fsSelectByPath_inspects live.ready live.df path fromMf).1, ?_, ?_⟩
  · rw [show stepped = selectStepwise start (fid :: rest) card.store from by rw [← ids]]
    exact kept
  · rw [← agree]
    cases walked.1 <;> rfl

/-- EF 6F01 in DF 7F10, from the master file. -/
theorem path_walk_is_stepwise_two_levels : ∃ booted, scosInit (blankCard 656 112) = (.ok, booted) ∧
    selectionAfter booted.kernel.sel (fsSelectByPath booted.kernel.sel [0x7F, 0x10, 0x6F, 0x01] true booted.store).1 =
      (selectStepwise fsSelectionReset [0x7F10, 0x6F01] booted.store).1.toOption.getD booted.kernel.sel := by
  obtain ⟨booted, boots⟩ := small_chip_boots
  refine ⟨booted, boots, ?_⟩
  refine (path_walk_is_stepwise boots [] [0x7F, 0x10, 0x6F, 0x01] true rfl (by decide) (by decide) ?_).2.2.2
  obtain ⟨t, live, _⟩ := blank_boots boots
  intro d held
  rw [if_pos rfl, life, List.foldl_nil, fileAt_ready live.ready, show fsSelectionReset.curDf = fsRootIndex from rfl,
    t.root] at held
  cases held
  decide

/-- The path is the identifier of the current DF alone, while an EF of another identifier is selected. -/
def StaysPut (files : Table) (sel : FsSelection) (path : List UInt8) (fromMf : Bool) : Prop :=
  fromMf = false ∧ ∃ d e, files sel.curDf = some d ∧ pathIds path = [d.fileId] ∧ files sel.curEf = some e ∧
    e.fileId ≠ d.fileId

/-- A selection by path that succeeds is on the file the last component names, except
that a path of the current DF's own identifier leaves a selected EF selected. -/
theorem select_by_path_lands_iff {eepromSize flashSize : UInt32} {booted : Card}
    (boots : scosInit (blankCard eepromSize flashSize) = (.ok, booted)) (events : List LifeEvent) (path : List UInt8)
    (fromMf : Bool) {chosen : FsSelection}
    (returned : (fsSelectByPath (life booted events).kernel.sel path fromMf (life booted events).store).1 = .ok chosen) :
    (∃ last, (pathIds path).getLast? = some last ∧ Lands (fileAt (life booted events).store) chosen last) ↔
      ¬ StaysPut (fileAt (life booted events).store) (life booted events).kernel.sel path fromMf := by
  obtain ⟨t, live, _, ef⟩ := booted_serving boots events
  obtain ⟨even, nonempty, short⟩ := path_of_ok returned
  generalize life booted events = card at live ef returned ⊢
  obtain ⟨fid, rest, ids, walks⟩ := fsSelectByPath_walks card.kernel.sel path fromMf even nonempty short
  rw [walks] at returned
  rw [fileAt_ready live.ready, StaysPut, ids]
  have start : ∃ d, t.table (if fromMf then fsSelectionReset else card.kernel.sel).curDf = some d ∧
      fsIsUsable d = true := by
    cases fromMf with
    | false => exact live.df.imp fun d df => ⟨df.1, df.2.2⟩
    | true => exact ⟨factoryMf, t.root, rfl⟩
  obtain ⟨d, liveD, usable⟩ := start
  rw [walkPath_first live.ready liveD] at returned
  by_cases here : d.fileId = fid ∧ rest = []
  · -- the walk ends where it starts
    obtain ⟨rfl, rfl⟩ := here
    rw [if_pos rfl] at returned
    obtain rfl := Except.ok.inj returned
    have single : (∃ last, [d.fileId].getLast? = some last ∧
        Lands t.table (if fromMf then fsSelectionReset else card.kernel.sel) last) ↔
        Lands t.table (if fromMf then fsSelectionReset else card.kernel.sel) d.fileId := by simp
    rw [single]
    cases fromMf with
    | true =>
      refine ⟨fun _ put => Bool.noConfusion put.1, fun _ => ?_⟩
      exact (lands_in_place liveD usable (reset_selected t).2).mpr fun e live' => absurd rfl (live_ne_invalid live')
    | false =>
      rw [show (if false = true then fsSelectionReset else card.kernel.sel) = card.kernel.sel from rfl] at liveD ⊢
      rw [lands_in_place liveD usable ef]
      constructor
      · rintro named ⟨_, d', e, liveD', same, liveE, other⟩
        rw [liveD] at liveD'
        cases liveD'
        exact other (named e liveE)
      · intro free e liveE
        by_contra other
        exact free ⟨rfl, d, e, liveD, rfl, liveE, other⟩
  · -- some component is looked up, and the last of them is where it ends
    have apart : ¬ (fromMf = false ∧ ∃ d e, t.table card.kernel.sel.curDf = some d ∧ fid :: rest = [d.fileId] ∧
        t.table card.kernel.sel.curEf = some e ∧ e.fileId ≠ d.fileId) := by
      rintro ⟨rfl, d', e, liveD', same, _⟩
      rw [show (if false = true then fsSelectionReset else card.kernel.sel) = card.kernel.sel from rfl, liveD'] at liveD
      cases liveD
      injection same with first rest
      exact here ⟨first.symm, rest⟩
    refine ⟨fun _ => apart, fun _ => ?_⟩
    by_cases own : d.fileId = fid
    · rw [if_pos own] at returned
      cases rest with
      | nil => exact absurd ⟨own, rfl⟩ here
      | cons next rest =>
        rw [List.getLast?_cons_cons]
        exact walkPath_lands live.ready _ next rest returned
    · rw [if_neg own] at returned
      exact walkPath_lands live.ready _ fid rest returned

/-- A card with EF 6F01 of DF 7F10 selected. -/
def efChosen : Card :=
  life (scosInit (blankCard 656 112)).2
    [.used (.apdu (some [0x00, 0xA4, 0x00, 0x0C, 0x02, 0x7F, 0x10]) 258),
      .used (.apdu (some [0x00, 0xA4, 0x00, 0x0C, 0x02, 0x6F, 0x01]) 258)]

/-- Selecting DF 7F10 by its path from itself succeeds and leaves EF 6F01 selected. -/
theorem own_path_keeps_ef_selected :
    (scosInit (blankCard 656 112)).1 = .ok ∧
      (fsSelectByPath efChosen.kernel.sel [0x7F, 0x10] false efChosen.store).1 = .ok ⟨2, 3⟩ ∧
      (fileAt efChosen.store (fsSelectedIndex ⟨2, 3⟩)).map (·.fileId) = some 0x6F01 := by
  decide +kernel

/-- EF 6F01 by its path from the master file. -/
theorem select_by_path_lands_iff_two_levels : ∃ booted, scosInit (blankCard 656 112) = (.ok, booted) ∧
    ∃ chosen,
      (fsSelectByPath (life booted []).kernel.sel [0x7F, 0x10, 0x6F, 0x01] true (life booted []).store).1 = .ok chosen ∧
      ((∃ last, (pathIds [0x7F, 0x10, 0x6F, 0x01]).getLast? = some last ∧
          Lands (fileAt (life booted []).store) chosen last) ↔
        ¬ StaysPut (fileAt (life booted []).store) (life booted []).kernel.sel [0x7F, 0x10, 0x6F, 0x01] true) := by
  obtain ⟨booted, boots⟩ := small_chip_boots
  have found : (fsSelectByPath (scosInit (blankCard 656 112)).2.kernel.sel [0x7F, 0x10, 0x6F, 0x01] true
      (scosInit (blankCard 656 112)).2.store).1 = .ok ⟨2, 3⟩ := by decide +kernel
  rw [boots] at found
  exact ⟨booted, boots, _, found, select_by_path_lands_iff boots [] _ true found⟩

end CardOs.SelectionProofs
