import CardOs.BinaryProofs
import CardOs.FileService
import CardOs.Library.Reflection
import CardOs.SpaceProofs
import Mathlib.Data.Finset.Card
import Mathlib.Data.Finset.Range

/-! A store that holds a file tree holds a volume: the file in a slot is the file at the
path that its parent links spell. Lookups and selections on the table are lookups and
selections on the volume, and the changes of the tree are its changes. -/
namespace CardOs.VolumeProofs
open CardOs.Library CardOs.Library.Action CardOs.FsTypes CardOs.HalNvm CardOs.FsStore CardOs.FsStoreProofs CardOs.Fs
open CardOs.FileTree CardOs.FsProofs CardOs.FsChangeProofs CardOs.SelectionProofs CardOs.CardProofs CardOs.FileService

/-- The file of a descriptor, with its body from FLASH. -/
def nodeOf (flash : Region) (d : FsDescriptor) : Node :=
  ⟨d.type, d.lifecycle, d.sfi, if fsIsEf d then flash.read d.dataOffset.toNat d.size.toNat else []⟩

def freeSlots (table : Table) : Nat :=
  ((Finset.range fsMaxFiles.toNat).filter fun n => (table (UInt16.ofNat n)).isNone).card

/-- The store holds the volume, with the files at the places of their slots. -/
structure Represents (t : FileTree) (s : Store) (place : UInt16 → Path) (v : Volume) : Prop where
  root : place fsRootIndex = []
  below : ∀ i d, t.table i = some d → i ≠ fsRootIndex → place i = place d.parent ++ [d.fileId]
  file : ∀ i d, t.table i = some d → v.files (place i) = some (nodeOf s.hal.nvm.flash d)
  only : ∀ p n, v.files p = some n → ∃ i d, t.table i = some d ∧ place i = p
  slots : v.slots = freeSlots t.table
  room : v.room + s.sb.dataTop.toNat = s.hal.nvm.flash.size.toNat
  erased : ∀ k, s.sb.dataTop.toNat ≤ k → k < s.hal.nvm.flash.size.toNat → s.hal.nvm.flash.byte k = 0xFF

/-- The cursor is on the selected files, which may be used. -/
structure Points (t : FileTree) (place : UInt16 → Path) (sel : FsSelection) (c : Cursor) : Prop where
  dfOk : DfSelected t sel
  efOk : EfSelected t sel
  df : c.df = place sel.curDf
  none : sel.curEf = fsInvalidIndex → c.ef = none
  some : ∀ d, t.table sel.curEf = some d → c.ef = some d.fileId

section Places
variable {t : FileTree} {s : Store} {place : UInt16 → Path} {v : Volume} {i j id : UInt16} {d e : FsDescriptor}

/-- The place of a file ends with its identifier, and only the master file is at the root. -/
theorem Represents.placed (represents : Represents t s place v) (live : t.table i = some d) :
    i = fsRootIndex ∧ place i = [] ∧ d = factoryMf ∨ i ≠ fsRootIndex ∧ place i = place d.parent ++ [d.fileId] := by
  by_cases root : i = fsRootIndex
  · subst root
    rw [t.root] at live
    cases live
    exact .inl ⟨rfl, represents.root, rfl⟩
  · exact .inr ⟨root, represents.below i d live root⟩

theorem Represents.idAt (represents : Represents t s place v) (live : t.table i = some d) :
    idAt (place i) = d.fileId := by
  rcases represents.placed live with ⟨-, here, rfl⟩ | ⟨-, here⟩
  · rw [here]
    rfl
  · rw [here, FileService.idAt, List.getLast?_concat]
    rfl

/-- The volume is in the files of the tree and in FLASH; only the room depends on the top. -/
theorem Represents.carry {s' : Store} {t' : FileTree} {room : Nat} (represents : Represents t s place v)
    (table : t'.table = t.table) (flash : s'.hal.nvm.flash = s.hal.nvm.flash) (up : s.sb.dataTop ≤ s'.sb.dataTop)
    (level : room + s'.sb.dataTop.toNat = s'.hal.nvm.flash.size.toNat) : Represents t' s' place { v with room } := by
  refine ⟨represents.root, ?_, ?_, ?_, ?_, level, ?_⟩
  · rw [table]
    exact represents.below
  · rw [table, flash]
    exact represents.file
  · rw [table]
    exact represents.only
  · rw [table]
    exact represents.slots
  · intro k above small
    rw [flash] at small ⊢
    exact represents.erased k (Nat.le_trans (UInt32.le_iff_toNat_le.mp up) above) small

theorem Represents.remount {s' : Store} (represents : Represents t s place v)
    (flash : s'.hal.nvm.flash = s.hal.nvm.flash) (top : s'.sb.dataTop = s.sb.dataTop) : Represents t s' place v :=
  represents.carry rfl flash (UInt32.le_of_eq top.symm) (by rw [flash, top]; exact represents.room)

/-- Different files are at different places. -/
theorem Represents.injective (represents : Represents t s place v) (liveI : t.table i = some d)
    (liveJ : t.table j = some e) (same : place i = place j) : i = j := by
  induction length : (place i).length generalizing i j d e with
  | zero =>
    have empty : place i = [] := List.length_eq_zero_iff.mp length
    rcases represents.placed liveI with ⟨rootI, -⟩ | ⟨-, hereI⟩
    · rcases represents.placed liveJ with ⟨rootJ, -⟩ | ⟨-, hereJ⟩
      · exact rootI.trans rootJ.symm
      · simp [← same, empty] at hereJ
    · simp [empty] at hereI
  | succ n ih =>
    rcases represents.placed liveI with ⟨-, hereI, -⟩ | ⟨belowI, hereI⟩
    · simp [hereI] at length
    rcases represents.placed liveJ with ⟨-, hereJ, -⟩ | ⟨belowJ, hereJ⟩
    · simp [same, hereJ] at length
    rw [hereI, hereJ] at same
    obtain ⟨above, last⟩ := List.append_inj' same rfl
    obtain ⟨p, liveP, -⟩ := (t.file i d liveI belowI).parent
    obtain ⟨q, liveQ, -⟩ := (t.file j e liveJ belowJ).parent
    have parents : d.parent = e.parent := ih liveP liveQ above (by simpa [hereI] using length)
    exact t.ids i j d e liveI liveJ ⟨parents, List.singleton_inj.mp last⟩

theorem Represents.child (represents : Represents t s place v) (liveJ : t.table j = some e)
    (child : ChildNamed t.table j id i) : place i = place j ++ [id] := by
  obtain ⟨d, live, rfl, rfl⟩ := child
  refine represents.below i d live ?_
  rintro rfl
  rw [t.root] at live
  cases live
  exact live_ne_invalid liveJ rfl

/-- The file at a place under a DF is the child of that identifier. -/
theorem Represents.under (represents : Represents t s place v) (liveJ : t.table j = some e) {n : Node}
    (held : v.files (place j ++ [id]) = some n) :
    ∃ i d, t.table i = some d ∧ d.parent = j ∧ d.fileId = id ∧ place i = place j ++ [id] ∧
      n = nodeOf s.hal.nvm.flash d := by
  obtain ⟨i, d, live, here⟩ := represents.only _ n held
  rcases represents.placed live with ⟨-, empty, -⟩ | ⟨below, spelled⟩
  · simp [empty] at here
  rw [here] at spelled
  obtain ⟨above, last⟩ := List.append_inj' spelled rfl
  obtain ⟨p, liveP, -⟩ := (t.file i d live below).parent
  have parent : d.parent = j := represents.injective liveP liveJ above.symm
  have file := represents.file i d live
  rw [here, held] at file
  exact ⟨i, d, live, parent, (List.singleton_inj.mp last).symm, here, Option.some.inj file⟩

/-- The search for a child agrees with the volume. -/
theorem Represents.findChild (represents : Represents t s place v) (ready : Ready s t) (liveJ : t.table j = some e)
    (id : UInt16) :
    (∃ i d, t.table i = some d ∧ d.parent = j ∧ d.fileId = id ∧ place i = place j ++ [id] ∧
        fsFindChild j id s = (.ok i, s) ∧ v.files (place j ++ [id]) = some (nodeOf s.hal.nvm.flash d)) ∨
      (∀ i, ¬ ChildNamed t.table j id i) ∧ fsFindChild j id s = (.error .notFound, s) ∧
        v.files (place j ++ [id]) = none := by
  by_cases child : ∃ i, ChildNamed t.table j id i
  · obtain ⟨i, child⟩ := child
    have here := represents.child liveJ child
    have found := fsFindChild_child ready child
    obtain ⟨d, live, parent, named⟩ := child
    exact .inl ⟨i, d, live, parent, named, here, found, here ▸ represents.file i d live⟩
  · have childless := not_exists.mp child
    refine .inr ⟨childless, fsFindChild_childless ready childless, ?_⟩
    cases held : v.files (place j ++ [id]) with
    | none => rfl
    | some n =>
      obtain ⟨i, d, live, parent, named, -⟩ := represents.under liveJ held
      exact absurd ⟨d, live, parent, named⟩ (childless i)

@[simp] theorem nodeOf_isDf (flash : Region) (d : FsDescriptor) : (nodeOf flash d).isDf = fsIsDf d := rfl

@[simp] theorem nodeOf_isEf (flash : Region) (d : FsDescriptor) : (nodeOf flash d).isEf = fsIsEf d := rfl

@[simp] theorem nodeOf_usable (flash : Region) (d : FsDescriptor) : (nodeOf flash d).usable = fsIsUsable d := rfl

/-- A file that is there may be used or not. -/
theorem usable_some {n : Node} {p : Path} (held : v.files p = some n) :
    v.usable p = if n.usable then .ok n else .error .notUsable := by
  rw [Volume.usable, Volume.find, held]
  rfl

theorem usable_none {p : Path} (missing : v.files p = none) : v.usable p = .error .notFound := by
  rw [Volume.usable, Volume.find, missing]
  rfl

theorem Represents.resolve (represents : Represents t s place v) (ready : Ready s t) (live : t.table i = some d) :
    Reflects (resolve i) s (fun e n => e = d ∧ n = nodeOf s.hal.nvm.flash d ∧ fsIsUsable d = true)
      (v.usable (place i)) := by
  refine ⟨_, resolve_live ready live, ?_⟩
  rw [usable_some (represents.file i d live), nodeOf_usable]
  cases usable : fsIsUsable d with
  | true => exact .ok ⟨rfl, rfl, rfl⟩
  | false => exact .error _

end Places

section Selecting
variable {t : FileTree} {s : Store} {place : UInt16 → Path} {v : Volume} {sel : FsSelection} {c : Cursor} {i : UInt16}
  {d : FsDescriptor}

theorem root_points (represents : Represents t s place v) : Points t place fsSelectionReset .root where
  dfOk := (reset_selected t).1
  efOk := (reset_selected t).2
  df := represents.root.symm
  none _ := rfl
  some _ live := absurd rfl (live_ne_invalid live)

/-- Committing to a file puts the cursor on it. -/
theorem commit_points (represents : Represents t s place v) (points : Points t place sel c) (live : t.table i = some d)
    (usable : fsIsUsable d = true) (near : fsIsDf d = true ∨ d.parent = sel.curDf) :
    Points t place (commit i d) (.onto (place i) (nodeOf s.hal.nvm.flash d)) := by
  obtain ⟨dfOk, efOk⟩ := commit_selected points.dfOk live usable near
  cases isDf : fsIsDf d with
  | true =>
    have chosen : commit i d = ⟨i, fsInvalidIndex⟩ := by rw [commit, if_pos isDf]
    have onto : Cursor.onto (place i) (nodeOf s.hal.nvm.flash d) = ⟨place i, none⟩ := by
      rw [Cursor.onto, nodeOf_isDf, if_pos isDf]
    rw [chosen] at dfOk efOk ⊢
    rw [onto]
    exact ⟨dfOk, efOk, rfl, fun _ => rfl, fun _ live => absurd rfl (live_ne_invalid live)⟩
  | false =>
    have chosen : commit i d = ⟨d.parent, i⟩ := by rw [commit, if_neg (by simp [isDf])]
    have here : place i = place d.parent ++ [d.fileId] := by
      refine represents.below i d live ?_
      rintro rfl
      rw [t.root] at live
      cases live
      cases isDf
    have onto : Cursor.onto (place i) (nodeOf s.hal.nvm.flash d) = ⟨place d.parent, some d.fileId⟩ := by
      rw [Cursor.onto, nodeOf_isDf, if_neg (by simp [isDf]), here, List.dropLast_concat, List.getLast?_concat]
    rw [chosen] at dfOk efOk ⊢
    rw [onto]
    refine ⟨dfOk, efOk, rfl, fun invalid => absurd invalid (live_ne_invalid live), fun e live' => ?_⟩
    cases live.symm.trans live'
    rfl

/-- Going to a file, on the table and on the volume. -/
theorem go_reflects (represents : Represents t s place v) (ready : Ready s t) (points : Points t place sel c)
    (live : t.table i = some d) (near : fsIsDf d = true ∨ d.parent = sel.curDf) :
    Reflects (resolve i >>= fun d => pure (commit i d)) s (Points t place) (v.go (place i)) := by
  refine reflects_bind (represents.resolve ready live) ?_
  rintro _ _ ⟨rfl, rfl, usable⟩
  exact reflects_pure (commit_points represents points live usable near)

/-- The file an identifier means is the same on the table and on the volume. -/
theorem meant_picks (represents : Represents t s place v) (ready : Ready s t) (points : Points t place sel c)
    (id : UInt16) :
    (∃ i d, Picks t.table sel.curDf id i ∧ t.table i = some d ∧ (fsIsDf d = true ∨ d.parent = sel.curDf) ∧
        v.meant c.df id = some (place i)) ∨
      (∀ i, ¬ Picks t.table sel.curDf id i) ∧ v.meant c.df id = none := by
  obtain ⟨cur, curLive, curDf, -⟩ := points.dfOk
  rw [points.df]
  by_cases master : id = fsFidMf
  · refine .inl ⟨fsRootIndex, factoryMf, .mf master, t.root, .inl rfl, ?_⟩
    rw [Volume.meant, if_pos master, represents.root]
  rw [Volume.meant, if_neg master]
  rcases represents.findChild ready curLive id with
    ⟨i, d, live, parent, named, here, -, held⟩ | ⟨childless, -, missing⟩
  · refine .inl ⟨i, d, .child master ⟨d, live, parent, named⟩, live, .inr parent, ?_⟩
    rw [held, here]
    rfl
  rw [missing, if_neg (by simp), represents.idAt curLive]
  by_cases named : cur.fileId = id
  · exact .inl ⟨sel.curDf, cur, .current master childless ⟨cur, curLive, named⟩, curLive, .inl curDf, if_pos named⟩
  have unnamed : ¬ Named t.table sel.curDf id := by
    rintro ⟨e, live', called⟩
    cases curLive.symm.trans live'
    exact named called
  rw [if_neg named]
  rcases represents.placed curLive with ⟨-, here, rfl⟩ | ⟨below, here⟩
  · -- the master file has no parent
    refine .inr ⟨?_, by rw [if_neg (by simp [here])]⟩
    intro i picked
    cases picked with
    | mf same => exact master same
    | child _ child => exact childless _ child
    | current _ _ called => exact unnamed called
    | parent _ _ _ link _ =>
      rw [parentOf, curLive] at link
      cases link
  · obtain ⟨p, parentLive, parentDf⟩ := (t.file _ cur curLive below).parent
    have link : parentOf t.table sel.curDf = some cur.parent := by
      rw [parentOf, curLive, Option.bind_some, if_neg (show cur.parent ≠ fsNoParent from live_ne_invalid parentLive)]
    have up : (place sel.curDf).dropLast = place cur.parent := by rw [here, List.dropLast_concat]
    have some : place sel.curDf ≠ [] := by simp [here]
    rw [up, represents.idAt parentLive]
    by_cases called : p.fileId = id
    · refine .inl ⟨cur.parent, p, .parent master childless unnamed link ⟨p, parentLive, called⟩, parentLive,
        .inl parentDf, ?_⟩
      rw [if_pos ⟨some, called⟩]
    · refine .inr ⟨?_, by rw [if_neg (by simp [called])]⟩
      intro i picked
      cases picked with
      | mf same => exact master same
      | child _ child => exact childless _ child
      | current _ _ called => exact unnamed called
      | parent _ _ _ link' named' =>
        cases link.symm.trans link'
        obtain ⟨q, live', named'⟩ := named'
        cases parentLive.symm.trans live'
        exact called named'

theorem byFid_reflects (represents : Represents t s place v) (ready : Ready s t) (points : Points t place sel c)
    (id : UInt16) : Reflects (fsSelectByFid sel id) s (Points t place) (v.choose c (.byId id)) := by
  rw [Volume.choose]
  rcases meant_picks represents ready points id with ⟨i, d, picked, live, near, meant⟩ | ⟨unpicked, meant⟩
  · obtain ⟨r, ran, matched⟩ := go_reflects represents ready points live near
    rw [meant]
    refine ⟨r, ?_, matched⟩
    rw [fsSelectByFid_picked ready points.dfOk picked live, ← ran]
    cases usable : fsIsUsable d with
    | true => rw [bind_ok ((resolve_live ready live).trans (by rw [usable]; rfl))]; rfl
    | false => rw [bind_error ((resolve_live ready live).trans (by rw [usable]; rfl))]; rfl
  · rw [meant]
    exact reflects_error (fsSelectByFid_unpicked ready points.dfOk unpicked)

/-- The child of an identifier, if it may be used. -/
theorem child_reflects (represents : Represents t s place v) (ready : Ready s t) (points : Points t place sel c)
    (id : UInt16) {f : UInt16 → FsDescriptor → FsM FsSelection} {g : Node → Except FsError Cursor}
    (rest : ∀ i d, t.table i = some d → d.parent = sel.curDf → fsIsUsable d = true → place i = c.df ++ [id] →
      Reflects (f i d) s (Points t place) (g (nodeOf s.hal.nvm.flash d))) :
    Reflects (fsFindChild sel.curDf id >>= fun i => resolve i >>= f i) s (Points t place)
      (v.usable (c.df ++ [id]) >>= g) := by
  obtain ⟨cur, curLive, -⟩ := points.dfOk
  rcases represents.findChild ready curLive id with
    ⟨i, d, live, parent, -, here, found, -⟩ | ⟨-, missing, absent⟩
  · rw [← points.df] at here
    have resolved := represents.resolve ready live
    rw [here] at resolved
    obtain ⟨r, ran, matched⟩ := reflects_bind resolved (f := f i) (g := g) (by
      rintro _ _ ⟨rfl, rfl, usable⟩
      exact rest i _ live parent usable here)
    exact ⟨r, (bind_ok found).trans ran, matched⟩
  · rw [← points.df] at absent
    rw [usable_none absent]
    exact reflects_error (bind_error missing)

theorem childTyped_reflects (represents : Represents t s place v) (ready : Ready s t) (points : Points t place sel c)
    (id : UInt16) (wantDf : Bool) :
    Reflects (selectChildTyped sel id wantDf) s (Points t place) (v.choose c (.child id wantDf)) := by
  refine child_reflects represents ready points id fun i d live parent usable here => ?_
  rw [nodeOf_isDf, ← here]
  split
  · exact reflects_fail
  · exact reflects_pure (commit_points represents points live usable (.inr parent))

theorem parent_reflects (represents : Represents t s place v) (ready : Ready s t) (points : Points t place sel c) :
    Reflects (fsSelectParent sel) s (Points t place) (v.choose c .parent) := by
  obtain ⟨cur, curLive, -⟩ := points.dfOk
  rw [Volume.choose, points.df]
  rcases represents.placed curLive with ⟨-, here, rfl⟩ | ⟨below, here⟩
  · rw [if_pos here]
    exact reflects_error (bind_ok (readDesc_live ready curLive))
  · obtain ⟨p, parentLive, parentDf⟩ := (t.file _ cur curLive below).parent
    rw [if_neg (by simp [here]), here, List.dropLast_concat]
    obtain ⟨r, ran, matched⟩ := go_reflects represents ready points parentLive (.inl parentDf)
    refine ⟨r, ?_, matched⟩
    rw [fsSelectParent, bind_ok (readDesc_live ready curLive),
      if_neg (show cur.parent ≠ fsNoParent from live_ne_invalid parentLive)]
    exact ran

theorem walk_reflects (represents : Represents t s place v) (ready : Ready s t) (points : Points t place sel c)
    (first : Bool) (ids : List UInt16) : Reflects (walkPath sel first ids) s (Points t place) (v.walk c first ids) := by
  induction ids generalizing sel c first with
  | nil => exact reflects_pure points
  | cons id rest ih =>
    obtain ⟨cur, curLive, -⟩ := points.dfOk
    have names : namesHere sel first id s = (.ok (first && decide (cur.fileId = id)), s) := by
      unfold namesHere
      cases first with
      | false => rfl
      | true =>
        rw [if_neg (by simp), attempt_bind, readDesc_live ready curLive]
        rfl
    have called : idAt c.df = cur.fileId := by rw [points.df, represents.idAt curLive]
    unfold walkPath Volume.walk
    rw [called]
    by_cases here : first = true ∧ cur.fileId = id
    · obtain ⟨r, ran, matched⟩ := ih points false
      rw [if_pos here]
      refine ⟨r, ?_, matched⟩
      rw [bind_ok names, if_pos (by simp [here])]
      exact ran
    · rw [if_neg here]
      have notHere : (first && decide (cur.fileId = id)) = false := by
        rw [Bool.and_eq_false_iff, decide_eq_false_iff_not, ← Bool.not_eq_true]
        exact Classical.not_and_iff_not_or_not.mp here
      obtain ⟨r, ran, matched⟩ := child_reflects represents ready points id
        (f := fun i d => if rest ≠ [] ∧ !fsIsDf d then Action.fail .wrongType else walkPath (commit i d) false rest)
        (g := fun n => if rest ≠ [] ∧ !n.isDf then .error .wrongType else v.walk (.onto (c.df ++ [id]) n) false rest) (by
          intro i d live parent usable spelled
          rw [nodeOf_isDf]
          split
          · exact reflects_fail
          · rw [← spelled]
            exact ih (commit_points represents points live usable (.inr parent)) false)
      refine ⟨r, ?_, matched⟩
      rw [bind_ok names, if_neg (by simp [notHere]), attempt_bind]
      rcases represents.findChild ready curLive id with ⟨i, d, -, -, -, -, found, -⟩ | ⟨-, missing, -⟩
      · rw [bind_ok found] at ran
        rw [found]
        exact ran
      · rw [bind_error missing] at ran
        rw [missing]
        exact ran

end Selecting

section Counting
variable {table : Table} {slot : UInt16} {d : FsDescriptor}

private theorem openSlots_fill (table : Table) (slot : UInt16) (d : FsDescriptor) :
    ((Finset.range fsMaxFiles.toNat).filter fun n => (Function.update table slot (some d) (UInt16.ofNat n)).isNone) =
      ((Finset.range fsMaxFiles.toNat).filter fun n => (table (UInt16.ofNat n)).isNone).erase slot.toNat := by
  ext n
  simp only [Finset.mem_filter, Finset.mem_range, Finset.mem_erase]
  constructor
  · rintro ⟨inside, free⟩
    have other : UInt16.ofNat n ≠ slot := by
      intro same
      rw [same, Function.update_self] at free
      cases free
    rw [Function.update_of_ne other] at free
    refine ⟨?_, inside, free⟩
    rintro rfl
    exact other UInt16.ofNat_toNat
  · rintro ⟨other, inside, free⟩
    refine ⟨inside, ?_⟩
    have apart : UInt16.ofNat n ≠ slot := by
      rintro rfl
      exact other (UInt16.toNat_ofNat_of_lt' (Nat.lt_trans inside (by decide))).symm
    rw [Function.update_of_ne apart]
    exact free

/-- A file takes one slot. -/
theorem freeSlots_fill (bound : slot < fsMaxFiles) (free : table slot = none) (d : FsDescriptor) :
    freeSlots (Function.update table slot (some d)) = freeSlots table - 1 := by
  unfold freeSlots
  rw [openSlots_fill, Finset.card_erase_of_mem]
  simp only [Finset.mem_filter, Finset.mem_range]
  exact ⟨UInt16.lt_iff_toNat_lt.mp bound, by rw [UInt16.ofNat_toNat, free]; rfl⟩

theorem freeSlots_pos (bound : slot < fsMaxFiles) (free : table slot = none) : 0 < freeSlots table := by
  refine Finset.card_pos.mpr ⟨slot.toNat, Finset.mem_filter.mpr ⟨?_, ?_⟩⟩
  · exact Finset.mem_range.mpr (UInt16.lt_iff_toNat_lt.mp bound)
  · rw [UInt16.ofNat_toNat, free]
    rfl

theorem freeSlots_full (full : ∀ i, i < fsMaxFiles → table i ≠ none) : freeSlots table = 0 := by
  refine Finset.card_eq_zero.mpr (Finset.filter_eq_empty_iff.mpr ?_)
  intro n inside free
  refine full (UInt16.ofNat n) ?_ (Option.isNone_iff_eq_none.mp free)
  have small := Finset.mem_range.mp inside
  rw [UInt16.lt_iff_toNat_lt, UInt16.toNat_ofNat_of_lt' (Nat.lt_trans small (by decide))]
  exact small

/-- A file that goes gives its slot back. -/
theorem freeSlots_clear (bound : slot < fsMaxFiles) (live : table slot = some d) :
    freeSlots (Function.update table slot none) = freeSlots table + 1 := by
  have free : Function.update table slot none slot = none := Function.update_self ..
  have back : Function.update (Function.update table slot none) slot (some d) = table := by
    rw [Function.update_idem, ← live, Function.update_eq_self]
  have fewer := freeSlots_fill bound free d
  have some := freeSlots_pos bound free
  rw [back] at fewer
  omega

end Counting

section Changing
variable {t : FileTree} {s s' : Store} {place : UInt16 → Path} {v : Volume} {sel : FsSelection} {c : Cursor}
  {i j slot : UInt16} {d e : FsDescriptor} {top : UInt32}

private theorem isEf_type (ef : fsIsEf d = true) : d.type = .efTransparent := by
  simpa [fsIsEf] using ef

private theorem extent_ef (live : t.table i = some d) (ef : fsIsEf d = true) :
    extentOf t.table i = some (d.dataOffset.toNat, d.dataOffset.toNat + d.size.toNat) := by
  rw [extentOf, live, Option.bind_some, if_pos (isEf_type ef)]

/-- Stores into one body show in no other. -/
private theorem body_apart (liveI : t.table i = some d) (efI : fsIsEf d = true) (liveJ : t.table j = some e)
    (other : j ≠ i)
    {offset : Nat} {bytes : List UInt8} (inside : offset + bytes.length ≤ d.size.toNat) (flash : Region) :
    nodeOf (flash.write (d.dataOffset.toNat + offset) bytes) e = nodeOf flash e := by
  unfold nodeOf
  by_cases efJ : fsIsEf e = true
  · have apart : ¬ Extents.Overlap _ _ := fun shared =>
      other (t.packed.apart j i _ _ (extent_ef liveJ efJ) (extent_ef liveI efI) shared)
    simp only [Extents.Overlap, not_and, Nat.not_lt] at apart
    by_cases empty : bytes = []
    · rw [empty, Region.write]
    · by_cases none : e.size.toNat = 0
      · rw [if_pos efJ, if_pos efJ, none]
        rfl
      · have some := List.length_pos_iff.mpr empty
        rw [if_pos efJ, if_pos efJ, Region.read_write_apart]
        by_cases before : d.dataOffset.toNat < e.dataOffset.toNat + e.size.toNat
        · have := apart before
          omega
        · omega
  · rw [if_neg efJ, if_neg efJ]

/-- An UPDATE puts its data into the body of one file. -/
theorem represents_update (represents : Represents t s place v) (ready : Ready s t) (live : t.table i = some d)
    (ef : fsIsEf d = true) {offset : Nat} {bytes : List UInt8} (inside : offset + bytes.length ≤ d.size.toNat)
    (sb : s'.sb = s.sb) (nvm : s'.hal.nvm = s.hal.nvm.write .flash (d.dataOffset.toNat + offset) bytes) :
    let n := nodeOf s.hal.nvm.flash d
    let body := n.body.take offset ++ bytes ++ n.body.drop (offset + bytes.length)
    Represents t s' place { v with files := Function.update v.files (place i) (some { n with body }) } := by
  intro n body
  have flash : s'.hal.nvm.flash = s.hal.nvm.flash.write (d.dataOffset.toNat + offset) bytes := by rw [nvm]; rfl
  have below := t.packed.below i _ (extent_ef live ef)
  have mirror := UInt32.le_iff_toNat_le.mp ready.mirror
  refine ⟨represents.root, represents.below, ?_, ?_, represents.slots, ?_, ?_⟩
  · intro j e liveJ
    by_cases same : j = i
    · subst same
      cases live.symm.trans liveJ
      have held : n.body = s.hal.nvm.flash.read d.dataOffset.toNat d.size.toNat := if_pos ef
      have spliced : (nodeOf s'.hal.nvm.flash d).body = body := by
        refine (if_pos ef).trans ?_
        rw [flash, Region.read_write_inside inside, ← held]
      refine (Function.update_self ..).trans ?_
      rw [← spliced]
      rfl
    · have elsewhere : place j ≠ place i := fun shared => same (represents.injective liveJ live shared)
      refine (Function.update_of_ne elsewhere ..).trans ?_
      rw [represents.file j e liveJ, flash, body_apart live ef liveJ same inside]
  · intro p m held
    by_cases here : p = place i
    · exact ⟨i, d, live, here.symm⟩
    · exact represents.only p m ((Function.update_of_ne here ..).symm.trans held)
  · rw [sb, flash, Region.write_size]
    exact represents.room
  · intro k above small
    rw [sb] at above
    rw [flash, Region.write_size] at small
    rw [flash, Region.byte_write_outside (by simp only at below; omega)]
    exact represents.erased k above small

private theorem inserted_cases (ok : Insertable t slot d top) (live : (t.insert ok).table i = some e) :
    i = slot ∧ e = d ∨ i ≠ slot ∧ t.table i = some e := by
  by_cases same : i = slot
  · have live : Function.update t.table slot (some d) i = some e := live
    rw [same, Function.update_self] at live
    exact .inl ⟨same, (Option.some.inj live).symm⟩
  · exact .inr ⟨same, (Function.update_of_ne same ..).symm.trans live⟩

private theorem removed_cases (ok : Removable t slot) (live : (t.remove ok).table i = some e) :
    i ≠ slot ∧ t.table i = some e := by
  by_cases same : i = slot
  · subst same
    cases (Function.update_self ..).symm.trans live
  · exact ⟨same, (Function.update_of_ne same ..).symm.trans live⟩

/-- A new file is at the end of the path of its DF. -/
theorem represents_insert (represents : Represents t s place v) (ok : Insertable t slot d top) {size : Nat}
    (flash : s'.hal.nvm.flash = s.hal.nvm.flash) (grown : s'.sb.dataTop.toNat = s.sb.dataTop.toNat + size)
    (inside : s'.sb.dataTop ≤ s.hal.nvm.flash.size) :
    let p := place d.parent ++ [d.fileId]
    Represents (t.insert ok) s' (Function.update place slot p)
      ⟨Function.update v.files p (some (nodeOf s.hal.nvm.flash d)), v.slots - 1, v.room - size⟩ := by
  intro p
  obtain ⟨parent, parentLive, -⟩ := ok.file.parent
  have live_ne : ∀ {i e}, t.table i = some e → i ≠ slot := by
    rintro i e live rfl
    rw [ok.free] at live
    cases live
  have fresh : ∀ {i e}, t.table i = some e → place i ≠ p := by
    intro i e live same
    obtain ⟨i', e', live', parent', named, here, -⟩ := represents.under parentLive (same ▸ represents.file i e live)
    exact ok.newId i' e' live' ⟨parent', named⟩
  refine ⟨?_, ?_, ?_, ?_, ?_, ?_, ?_⟩
  · rw [Function.update_of_ne (live_ne t.root)]
    exact represents.root
  · intro i e live below
    rcases inserted_cases ok live with ⟨rfl, rfl⟩ | ⟨same, live⟩
    · rw [Function.update_self, Function.update_of_ne (live_ne parentLive)]
    · obtain ⟨q, parentLive', -⟩ := (t.file i e live below).parent
      rw [Function.update_of_ne same, Function.update_of_ne (live_ne parentLive')]
      exact represents.below i e live below
  · intro i e live
    rcases inserted_cases ok live with ⟨rfl, rfl⟩ | ⟨same, live⟩
    · rw [Function.update_self, flash]
      exact Function.update_self ..
    · rw [Function.update_of_ne same, flash]
      exact (Function.update_of_ne (fresh live) ..).trans (represents.file i e live)
  · intro q n there
    by_cases same : q = p
    · exact ⟨slot, d, Function.update_self .., by rw [Function.update_self, same]⟩
    · obtain ⟨i, e, live, here⟩ := represents.only q n ((Function.update_of_ne same ..).symm.trans there)
      exact ⟨i, e, kept_insert ok live, by rw [Function.update_of_ne (live_ne live), here]⟩
  · rw [represents.slots]
    exact (freeSlots_fill ok.bound ok.free d).symm
  · have room := represents.room
    have inside := UInt32.le_iff_toNat_le.mp inside
    rw [flash]
    simp only
    omega
  · intro k above small
    rw [flash] at small ⊢
    exact represents.erased k (by omega) small

/-- A file without files is gone from the end of the path of its DF. -/
theorem represents_remove (represents : Represents t s place v) (live : t.table slot = some d) (ok : Removable t slot)
    (flash : s'.hal.nvm.flash = s.hal.nvm.flash) (sb : s'.sb = s.sb) :
    Represents (t.remove ok) s' place
      { v with files := Function.update v.files (place slot) none, slots := v.slots + 1 } := by
  refine ⟨represents.root, ?_, ?_, ?_, ?_, ?_, ?_⟩
  · intro i e there
    exact represents.below i e (removed_cases ok there).2
  · intro i e there
    obtain ⟨other, there⟩ := removed_cases ok there
    have elsewhere : place i ≠ place slot := fun same => other (represents.injective there live same)
    rw [flash]
    exact (Function.update_of_ne elsewhere ..).trans (represents.file i e there)
  · intro p n there
    by_cases same : p = place slot
    · subst same
      simp at there
    · obtain ⟨i, e, live', here⟩ := represents.only p n ((Function.update_of_ne same ..).symm.trans there)
      have other : i ≠ slot := by
        rintro rfl
        exact same here.symm
      exact ⟨i, e, (Function.update_of_ne other ..).trans live', here⟩
  · rw [represents.slots]
    exact (freeSlots_clear (t.bounded slot d live) live).symm
  · rw [flash, sb]
    exact represents.room
  · rw [flash, sb]
    exact represents.erased

/-- The cursor stays where it is when a file is made. -/
theorem points_insert (points : Points t place sel c) (ok : Insertable t slot d top) (p : Path) :
    Points (t.insert ok) (Function.update place slot p) sel c := by
  obtain ⟨cur, curLive, -⟩ := points.dfOk
  have other : sel.curDf ≠ slot := by
    intro same
    rw [same, ok.free] at curLive
    cases curLive
  refine ⟨(selected_insert sel ok).1 points.dfOk, (selected_insert sel ok).2 points.efOk, ?_, points.none, ?_⟩
  · rw [Function.update_of_ne other]
    exact points.df
  · intro e live
    rcases inserted_cases ok live with ⟨same, -⟩ | ⟨-, live⟩
    · -- the current EF was there before, so it is not in the slot that was free
      rcases points.efOk with invalid | ⟨f, before, -⟩
      · have bound := ok.bound
        rw [← same, invalid] at bound
        exact absurd bound (by decide)
      · rw [same, ok.free] at before
        cases before
    · exact points.some e live

/-- The cursor is taken off a file of the current DF that goes. -/
theorem points_remove (points : Points t place sel c) (live : t.table slot = some d) (child : d.parent = sel.curDf)
    (ok : Removable t slot) :
    Points (t.remove ok) place (deselect sel slot) { c with ef := if c.ef = some d.fileId then none else c.ef } := by
  have other : sel.curDf ≠ slot := fun same => parent_ne_self live (child.trans same)
  have left := (selected_remove ok other).1 points.dfOk
  have right := (selected_remove ok other).2 points.efOk
  rw [deselect_child other] at left right ⊢
  by_cases same : sel.curEf = slot
  · rw [if_pos same] at left right ⊢
    rw [if_pos (points.some d (same ▸ live))]
    exact ⟨left, right, points.df, fun _ => rfl, fun _ live => absurd rfl (live_ne_invalid live)⟩
  · rw [if_neg same] at left right ⊢
    refine ⟨left, right, points.df, ?_, ?_⟩
    · intro invalid
      rw [points.none invalid]
      rfl
    · intro e live'
      obtain ⟨-, live'⟩ := removed_cases ok live'
      rcases points.efOk with invalid | ⟨f, before, -, -, under⟩
      · exact absurd invalid (live_ne_invalid live')
      cases before.symm.trans live'
      have distinct : e.fileId ≠ d.fileId := fun called =>
        same (t.ids _ _ e d live' live ⟨under.trans child.symm, called⟩)
      rw [points.some e live', if_neg (by simpa using distinct)]

end Changing

section Requests
variable {t : FileTree} {s : Store} {place : UInt16 → Path} {v : Volume} {sel : FsSelection} {c : Cursor} {id : UInt16}
  {req : FsDescriptor}

/-- A short identifier names the same EF on the table and on the volume. -/
theorem hasShort_iff (represents : Represents t s place v) (points : Points t place sel c) {sfi : UInt8} :
    v.HasShort c.df sfi id ↔ ∃ i d, t.table i = some d ∧ d.parent = sel.curDf ∧ fsIsEf d = true ∧ d.sfi = sfi ∧
      d.fileId = id ∧ place i = c.df ++ [id] := by
  obtain ⟨cur, curLive, -⟩ := points.dfOk
  rw [points.df]
  constructor
  · rintro ⟨n, held, ef, short⟩
    obtain ⟨i, d, live, parent, named, here, rfl⟩ := represents.under curLive held
    exact ⟨i, d, live, parent, ef, short, named, here⟩
  · rintro ⟨i, d, live, -, ef, short, -, here⟩
    exact ⟨nodeOf s.hal.nvm.flash d, here ▸ represents.file i d live, ef, short⟩

private theorem child_place (represents : Represents t s place v) (points : Points t place sel c) {i : UInt16}
    {d : FsDescriptor} (live : t.table i = some d) (parent : d.parent = sel.curDf) : place i = c.df ++ [d.fileId] := by
  obtain ⟨cur, curLive, -⟩ := points.dfOk
  rw [points.df]
  exact represents.child curLive ⟨d, live, parent, rfl⟩

/-- The checks of a creation find a clash, no slot, or the slot for the file. -/
private theorem createChecks_answers (represents : Represents t s place v) (ready : Ready s t)
    (points : Points t place sel c)
    (sound : checkRequestType req = none) (creatable : lifecycleCreatable req.lifecycle = true) :
    (v.Clashes c.df req.fileId (nodeFor req) ∧ createChecks sel req s = (.error .exists, s)) ∨
      (¬ v.Clashes c.df req.fileId (nodeFor req) ∧
        ((v.slots = 0 ∧ createChecks sel req s = (.error .noSpace, s)) ∨
          (v.slots ≠ 0 ∧ ∃ slot, createChecks sel req s = (.ok slot, s)))) := by
  obtain ⟨parent, live, isDf, usable⟩ := points.dfOk
  rw [createChecks, bind_ok (readDesc_live ready live)]
  simp only [isDf, usable, Bool.not_true, Bool.false_eq_true, if_false]
  cases reserved : fidIsReserved req.fileId with
  | true => exact .inl ⟨.inl reserved, rfl⟩
  | false =>
    simp only [Bool.false_eq_true, if_false, sound, creatable, Bool.not_true, attempt_bind]
    rcases represents.findChild ready live req.fileId with ⟨i, d, -, -, -, -, found, held⟩ | ⟨-, missing, absent⟩
    · rw [found]
      exact .inl ⟨.inr (.inl (by rw [points.df, held]; simp)), rfl⟩
    rw [missing]
    dsimp only
    rcases sfiTaken_decides ready sel.curDf (request_ok sound).2 with
      ⟨free, newSfi⟩ | ⟨taken, named, i, d, there, child, ef, same⟩
    · have fresh : ¬ v.Clashes c.df req.fileId (nodeFor req) := by
        rintro (clash | clash | ⟨named, e, short⟩)
        · rw [reserved] at clash
          cases clash
        · exact clash (points.df ▸ absent)
        · obtain ⟨i, d, there, child, ef, same, -⟩ := (hasShort_iff represents points).mp short
          exact newSfi named i d there child ef same
      refine .inr ⟨fresh, ?_⟩
      rw [bind_ok free]
      simp only [Bool.false_eq_true, if_false]
      obtain ⟨slot, found, unused, full⟩ := fsStoreFindFreeSlot_spec ready
      rw [bind_ok found, represents.slots]
      by_cases invalid : slot = fsInvalidIndex
      · rw [if_pos invalid]
        exact .inl ⟨freeSlots_full (full invalid), rfl⟩
      · rw [if_neg invalid]
        obtain ⟨bound, empty⟩ := unused invalid
        exact .inr ⟨Nat.ne_of_gt (freeSlots_pos bound empty), slot, rfl⟩
    · rw [bind_ok taken]
      refine .inl ⟨.inr (.inr ⟨named, d.fileId, ?_⟩), rfl⟩
      exact (hasShort_iff represents points).mpr
        ⟨i, d, there, child, ef, same, rfl, child_place represents points there child⟩

/-- The file that is placed is the file that was asked for. -/
private theorem nodeOf_placed (represents : Represents t s place v) (room : (nodeFor req).body.length ≤ v.room) :
    nodeOf s.hal.nvm.flash (placedAt s (newDescriptor sel req)) = nodeFor req := by
  have level := represents.room
  by_cases ef : req.type = .efTransparent
  · have placed : placedAt s (newDescriptor sel req) = { newDescriptor sel req with dataOffset := s.sb.dataTop } :=
      if_pos ef
    have isEf : fsIsEf req = true := by simp [fsIsEf, ef]
    have isEf' : fsIsEf { newDescriptor sel req with dataOffset := s.sb.dataTop } = true := isEf
    rw [nodeFor, if_pos isEf, List.length_replicate] at room
    have blank : s.hal.nvm.flash.read s.sb.dataTop.toNat req.size.toNat = List.replicate req.size.toNat 0xFF := by
      apply List.ext_getElem
      · simp
      · intro k left right
        rw [Region.read_length] at left
        rw [Region.read_getElem, List.getElem_replicate]
        exact represents.erased _ (by omega) (by omega)
    rw [placed, nodeOf, if_pos isEf', nodeFor, if_pos isEf]
    exact congrArg (Node.mk _ _ _) blank
  · have placed : placedAt s (newDescriptor sel req) = newDescriptor sel req := if_neg ef
    have notEf : fsIsEf req = false := by simp [fsIsEf, ef]
    have notEf' : fsIsEf (newDescriptor sel req) = false := notEf
    rw [placed, nodeOf, if_neg (by simp [notEf']), nodeFor, if_neg (by simp [notEf])]
    rfl

/-- A creation on the card is a creation on the volume. -/
theorem create_reflects (represents : Represents t s place v) (ready : Ready s t) (points : Points t place sel c)
    (reliable : s.hal.writeFaults = []) (sound : checkRequestType req = none)
    (creatable : lifecycleCreatable req.lifecycle = true) :
    (∃ e, fsCreateFile sel req s = (.error e, s) ∧ v.create c.df req.fileId (nodeFor req) = .error e) ∨
      ∃ slot s' t' place' v', fsCreateFile sel req s = (.ok slot, s') ∧ v.create c.df req.fileId (nodeFor req) = .ok v' ∧
        Ready s' t' ∧ s'.hal.writeFaults = [] ∧ Represents t' s' place' v' ∧ Points t' place' sel c := by
  unfold Volume.create fsCreateFile
  rcases createChecks_answers represents ready points sound creatable with
    ⟨clash, refused⟩ | ⟨fresh, ⟨full, refused⟩ | ⟨some, slot, passed⟩⟩
  · rw [if_pos clash]
    exact .inl ⟨_, bind_error refused, rfl⟩
  · rw [if_neg fresh, if_pos (.inl full)]
    exact .inl ⟨_, bind_error refused, rfl⟩
  have may := (createChecks_inspects ready sel req).2 slot (congrArg Prod.fst passed)
  have size : (nodeFor req).body.length = if req.type = .efTransparent then req.size.toNat else 0 := by
    unfold nodeFor
    by_cases ef : req.type = .efTransparent <;> simp [fsIsEf, ef]
  have level := represents.room
  rw [if_neg fresh, bind_ok passed]
  rcases placed : placeFile slot (newDescriptor sel req) s with ⟨outcome, s'⟩
  cases placeFile_placed may ready placed with
  | noSpace ef full =>
    have ef : req.type = .efTransparent := ef
    have full : s.hal.nvm.flash.size.toNat < s.sb.dataTop.toNat + req.size.toNat := full
    rw [if_pos (.inr (by rw [size, if_pos ef]; omega))]
    exact .inl ⟨_, bind_error placed, rfl⟩
  | torn e faulty => exact absurd reliable faulty
  | @done _ top ok ready' flash grown reliable' =>
    have grown : s'.sb.dataTop.toNat = s.sb.dataTop.toNat + (nodeFor req).body.length := by rw [size]; exact grown
    have inside := UInt32.le_iff_toNat_le.mp (flash ▸ ready'.mirrorInside)
    have roomy : ¬ (v.slots = 0 ∨ v.room < (nodeFor req).body.length) := by
      rintro (none | small)
      · exact some none
      · omega
    have path : place (placedAt s (newDescriptor sel req)).parent ++ [(placedAt s (newDescriptor sel req)).fileId] =
        c.df ++ [req.fileId] := by
      have same : (placedAt s (newDescriptor sel req)).parent = sel.curDf ∧
          (placedAt s (newDescriptor sel req)).fileId = req.fileId := by
        unfold placedAt
        split
        · exact ⟨rfl, rfl⟩
        · exact ⟨rfl, rfl⟩
      rw [same.1, same.2, points.df]
    have kept := represents_insert represents ok flash grown (flash ▸ ready'.mirrorInside)
    rw [if_neg roomy]
    refine .inr ⟨slot, s', _, _, _, bind_ok placed, rfl, ready', reliable' reliable, ?_,
      points_insert points ok (c.df ++ [req.fileId])⟩
    rw [path, nodeOf_placed represents (by omega)] at kept
    exact kept

/-- A file may leave the tree when the volume has nothing under it. -/
private theorem occupied_iff (represents : Represents t s place v) {slot : UInt16} {d : FsDescriptor}
    (live : t.table slot = some d) : v.Occupied (place slot) ↔ ∃ i e, t.table i = some e ∧ e.parent = slot := by
  constructor
  · rintro ⟨id, there⟩
    obtain ⟨n, held⟩ := Option.ne_none_iff_exists'.mp there
    obtain ⟨i, e, live', parent, -⟩ := represents.under live held
    exact ⟨i, e, live', parent⟩
  · rintro ⟨i, e, live', parent⟩
    refine ⟨e.fileId, ?_⟩
    rw [← represents.child live ⟨e, live', parent, rfl⟩, represents.file i e live']
    simp

private theorem deleteChecks_occupied (ready : Ready s t) {slot i : UInt16} {d e : FsDescriptor}
    (live : t.table slot = some d)
    (child : d.parent = sel.curDf) (under : t.table i = some e) (parent : e.parent = slot) (below : d.fileId ≠ fsFidMf) :
    deleteChecks sel d.fileId s = (.error .notUsable, s) := by
  obtain ⟨p, parentLive, isDf⟩ := parent_df under (parent ▸ live_ne_invalid live)
  rw [parent] at parentLive
  cases live.symm.trans parentLive
  obtain ⟨count, counted, childless⟩ := fsChildCount_spec ready slot
  have some : count > 0 := by
    refine UInt16.pos_iff_ne_zero.mpr fun none => ?_
    exact childless.mp none i e under parent
  have children : hasChildren slot d s = (.ok true, s) := by
    rw [hasChildren, if_neg (by simp [isDf]), bind_ok counted, decide_eq_true some]
    rfl
  rw [deleteChecks, if_neg below, bind_ok (fsFindChild_child ready ⟨d, live, child, rfl⟩),
    bind_ok (readDesc_live ready live)]
  split
  · rfl
  · rw [bind_ok children]
    rfl

private theorem deleted_kept {s' : Store} {sel' : FsSelection} (deleted : Deleted t sel s (.ok sel') s') :
    s'.hal.nvm.flash = s.hal.nvm.flash ∧ (s.hal.writeFaults = [] → s'.hal.writeFaults = []) := by
  cases deleted with
  | done _ _ _ _ _ _ flash _ reliable => exact ⟨flash, reliable⟩

/-- A deletion on the card is a deletion on the volume. -/
theorem delete_reflects (represents : Represents t s place v) (ready : Ready s t) (points : Points t place sel c)
    (reliable : s.hal.writeFaults = []) (id : UInt16) :
    (∃ e, fsDeleteFile sel id s = (.error e, s) ∧ v.delete c.df id = .error e) ∨
      ∃ sel' s' t' v', fsDeleteFile sel id s = (.ok sel', s') ∧ v.delete c.df id = .ok v' ∧ Ready s' t' ∧
        s'.hal.writeFaults = [] ∧ Represents t' s' place v' ∧
        Points t' place sel' { c with ef := if c.ef = some id then none else c.ef } := by
  obtain ⟨cur, curLive, -⟩ := points.dfOk
  unfold Volume.delete
  by_cases master : id = fsFidMf
  · rw [if_pos master]
    refine .inl ⟨_, ?_, rfl⟩
    rw [fsDeleteFile, bind_error (show deleteChecks sel id s = _ by rw [deleteChecks, if_pos master]; rfl)]
  rw [if_neg master]
  have found := represents.findChild ready curLive id
  rw [← points.df] at found
  rcases found with ⟨slot, d, live, child, rfl, here, -, held⟩ | ⟨-, missing, absent⟩
  · rw [held, if_neg (by simp), ← here]
    by_cases occupied : v.Occupied (place slot)
    · obtain ⟨i, e, under, parent⟩ := (occupied_iff represents live).mp occupied
      rw [if_pos occupied]
      exact .inl ⟨_, bind_error (deleteChecks_occupied ready live child under parent master), rfl⟩
    · have ok : Removable t slot := by
        refine ⟨?_, fun i e live' parent => occupied ((occupied_iff represents live).mpr ⟨i, e, live', parent⟩)⟩
        rintro rfl
        rw [t.root] at live
        cases live
        exact master rfl
      obtain ⟨s', ran, ready', sb⟩ := fsDeleteFile_leaf ready reliable live child ok
      obtain ⟨flash, reliable'⟩ := deleted_kept (fsDeleteFile_deleted ready ran)
      rw [if_neg occupied]
      exact .inr ⟨_, s', t.remove ok, _, ran, rfl, ready', reliable' reliable,
        represents_remove represents live ok flash sb, points_remove points live child ok⟩
  · rw [absent, if_pos Option.isNone_none]
    refine .inl ⟨_, ?_, rfl⟩
    rw [fsDeleteFile,
      bind_error (show deleteChecks sel id s = _ by rw [deleteChecks, if_neg master, bind_error missing])]

end Requests

end CardOs.VolumeProofs
