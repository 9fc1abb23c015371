import CardOs.FsStoreProofs
import CardOs.Fs
import CardOs.Library.Extents
import CardOs.Library.ParentForest

/-! What the descriptor table is for: a tree of files under one master file, with
file data packed below an allocation top. A `FileTree` carries its own
well-formedness, so the three changes the card makes to it (a file is inserted,
a leaf is removed, data space is reserved) give trees again. -/
namespace CardOs
open CardOs.Library CardOs.Library.ParentForest CardOs.FsTypes CardOs.FsStoreProofs CardOs.Fs

/-- The parent link of a slot; the master file has none. -/
def FileTree.parentOf (table : Table) (i : UInt16) : Option UInt16 :=
  (table i).bind fun d => if d.parent = fsNoParent then none else some d.parent

/-- The FLASH extent of a slot that holds an EF. -/
def FileTree.extentOf (table : Table) (i : UInt16) : Option (Nat × Nat) :=
  (table i).bind fun d =>
    if d.type = .efTransparent then some (d.dataOffset.toNat, d.dataOffset.toNat + d.size.toNat) else none

/-- What every file other than the master file is: a DF or an EF of a size in
range, in a live DF, under an identifier that is not reserved. -/
structure FileTree.FileOk (table : Table) (d : FsDescriptor) : Prop where
  kind : d.type = .df ∨ d.type = .efTransparent
  parent : ∃ p, table d.parent = some p ∧ fsIsDf p = true
  id : fidIsReserved d.fileId = false
  size : d.type = .efTransparent → 1 ≤ d.size ∧ d.size ≤ fsMaxEfSize

/-- Two files of one DF with the same identifier. -/
def FileTree.SameId (d e : FsDescriptor) : Prop := d.parent = e.parent ∧ d.fileId = e.fileId

/-- Two EFs of one DF with the same short identifier. -/
def FileTree.SameSfi (d e : FsDescriptor) : Prop :=
  d.type = .efTransparent ∧ e.type = .efTransparent ∧ d.parent = e.parent ∧ d.sfi = e.sfi ∧ d.sfi ≠ fsNoSfi

/-- A descriptor table that is a file tree, and the top of its data space. -/
structure FileTree where
  table : Table
  top : UInt32
  bounded : ∀ i d, table i = some d → i < fsMaxFiles
  root : table fsRootIndex = some factoryMf
  file : ∀ i d, table i = some d → i ≠ fsRootIndex → FileTree.FileOk table d
  rooted : ∀ i d, table i = some d → Rooted (FileTree.parentOf table) fsRootIndex i
  ids : Distinct FileTree.SameId table
  sfis : Distinct FileTree.SameSfi table
  packed : Extents.Packed (FileTree.extentOf table) top.toNat

namespace FileTree

variable {t : FileTree} {i slot : UInt16} {d : FsDescriptor} {top : UInt32}

/-- The index that means no file names no file. -/
theorem live_ne_invalid (live : t.table i = some d) : i ≠ fsInvalidIndex := by
  intro same
  have bound := t.bounded i d live
  rw [same] at bound
  exact absurd bound (by decide)

/-- The master file is the only MF. -/
theorem mf_is_root (live : t.table i = some d) (mf : d.type = .mf) : i = fsRootIndex := by
  by_contra other
  rcases (t.file i d live other).kind with kind | kind
  · rw [kind] at mf; cases mf
  · rw [kind] at mf; cases mf

theorem ne_root (live : t.table i = some d) (other : d.type ≠ .mf) : i ≠ fsRootIndex := by
  rintro rfl
  rw [t.root] at live
  cases live
  exact other rfl

/-- No file below the root has the identifier of the master file. -/
theorem fileId_ne_mf (live : t.table i = some d) (notRoot : i ≠ fsRootIndex) : d.fileId ≠ fsFidMf := by
  intro master
  have id := (t.file i d live notRoot).id
  rw [fidIsReserved, master] at id
  cases id

theorem df_or_ef (live : t.table i = some d) : fsIsDf d = true ∨ fsIsEf d = true := by
  by_cases root : i = fsRootIndex
  · subst root
    rw [t.root] at live
    cases live
    exact .inl rfl
  · rcases (t.file i d live root).kind with kind | kind
    · exact .inl (by simp [fsIsDf, kind])
    · exact .inr (by simp [fsIsEf, kind])

/-- A file is never its own parent. -/
theorem parent_ne_self (live : t.table i = some d) : d.parent ≠ i := by
  intro loop
  have top : parentOf t.table fsRootIndex = none := by
    rw [parentOf, t.root]
    rfl
  have link : parentOf t.table i = some i := by
    have valid := live_ne_invalid live
    rw [parentOf, live, Option.bind_some, loop, if_neg (show i ≠ fsNoParent from valid)]
  exact rooted_not_loop (t.rooted i d live) top link

theorem parentOf_update (table : Table) (slot : UInt16) (entry : Option FsDescriptor) :
    parentOf (Function.update table slot entry) =
      Function.update (parentOf table) slot
        (entry.bind fun d => if d.parent = fsNoParent then none else some d.parent) := by
  funext j
  by_cases same : j = slot
  · subst same
    simp [parentOf]
  · simp [parentOf, Function.update_of_ne same]

theorem extentOf_update (table : Table) (slot : UInt16) (entry : Option FsDescriptor) :
    extentOf (Function.update table slot entry) =
      Function.update (extentOf table) slot (entry.bind fun d =>
        if d.type = .efTransparent then some (d.dataOffset.toNat, d.dataOffset.toNat + d.size.toNat)
        else none) := by
  funext j
  by_cases same : j = slot
  · subst same
    simp [extentOf]
  · simp [extentOf, Function.update_of_ne same]

/-- When a file may enter the tree in a free slot, moving the data top. -/
structure Insertable (t : FileTree) (slot : UInt16) (d : FsDescriptor) (top : UInt32) : Prop where
  bound : slot < fsMaxFiles
  free : t.table slot = none
  file : FileOk t.table d
  newId : ∀ i e, t.table i = some e → ¬ SameId e d
  newSfi : ∀ i e, t.table i = some e → ¬ SameSfi e d
  raise : t.top ≤ top
  data : d.type = .efTransparent →
    t.top ≤ d.dataOffset ∧ d.dataOffset.toNat + d.size.toNat ≤ top.toNat

/-- Files already there keep being what they were when a free slot fills up. -/
private theorem fileOk_insert {table : Table} {e : FsDescriptor} (free : table slot = none)
    (file : FileOk table e) : FileOk (Function.update table slot (some d)) e := by
  obtain ⟨p, live, df⟩ := file.parent
  have other : e.parent ≠ slot := by
    intro same
    rw [same, free] at live
    cases live
  refine ⟨file.kind, ⟨p, ?_, df⟩, file.id, file.size⟩
  rw [Function.update_of_ne other]
  exact live

/-- The tree with a new file. -/
def insert (t : FileTree) (ok : Insertable t slot d top) : FileTree where
  table := Function.update t.table slot (some d)
  top := top
  bounded := by
    intro i e live
    by_cases same : i = slot
    · exact same ▸ ok.bound
    · rw [Function.update_of_ne same] at live
      exact t.bounded i e live
  root := by
    have other : fsRootIndex ≠ slot := by
      intro same
      have free := ok.free
      rw [← same, t.root] at free
      cases free
    rw [Function.update_of_ne other, t.root]
  file := by
    intro i e live notRoot
    by_cases same : i = slot
    · subst same
      rw [Function.update_self] at live
      cases live
      exact fileOk_insert ok.free ok.file
    · rw [Function.update_of_ne same] at live
      exact fileOk_insert ok.free (t.file i e live notRoot)
  rooted := by
    have free : parentOf t.table slot = none := by rw [parentOf, ok.free]; rfl
    rw [parentOf_update]
    intro i e live
    by_cases same : i = slot
    · subst same
      obtain ⟨p, parentLive, df⟩ := ok.file.parent
      have named : d.parent ≠ fsNoParent := live_ne_invalid parentLive
      apply rooted_link (p := d.parent)
      · simp [named]
      · exact rooted_insert free (t.rooted _ p parentLive)
    · rw [Function.update_of_ne same] at live
      exact rooted_insert free (t.rooted i e live)
  ids := distinct_insert (fun _ _ same => ⟨same.1.symm, same.2.symm⟩) t.ids ok.newId
  sfis := by
    apply distinct_insert _ t.sfis ok.newSfi
    rintro e f ⟨ef, ef', siblings, same, named⟩
    exact ⟨ef', ef, siblings.symm, same.symm, same ▸ named⟩
  packed := by
    rw [extentOf_update]
    apply t.packed.insert (UInt32.le_iff_toNat_le.mp ok.raise)
    intro extent owned
    rw [Option.bind_some] at owned
    split at owned
    · rename_i ef
      cases owned
      obtain ⟨above, below⟩ := ok.data ef
      exact ⟨UInt32.le_iff_toNat_le.mp above, below⟩
    · cases owned

/-- A file may leave the tree when it is not the master file and has no files. -/
structure Removable (t : FileTree) (slot : UInt16) : Prop where
  notRoot : slot ≠ fsRootIndex
  leaf : ∀ i e, t.table i = some e → e.parent ≠ slot

private theorem live_of_remove {e : FsDescriptor} (live : Function.update t.table slot none i = some e) :
    i ≠ slot ∧ t.table i = some e := by
  by_cases same : i = slot
  · subst same
    simp at live
  · rw [Function.update_of_ne same] at live
    exact ⟨same, live⟩

/-- The tree without a leaf. -/
def remove (t : FileTree) (ok : Removable t slot) : FileTree where
  table := Function.update t.table slot none
  top := t.top
  bounded i e live := t.bounded i e (live_of_remove live).2
  root := by rw [Function.update_of_ne (Ne.symm ok.notRoot), t.root]
  file := by
    intro i e live notRoot
    obtain ⟨_, live⟩ := live_of_remove live
    have file := t.file i e live notRoot
    obtain ⟨p, parentLive, df⟩ := file.parent
    refine ⟨file.kind, ⟨p, ?_, df⟩, file.id, file.size⟩
    rw [Function.update_of_ne (ok.leaf i e live)]
    exact parentLive
  rooted := by
    rw [parentOf_update]
    intro i e live
    obtain ⟨other, live⟩ := live_of_remove live
    apply rooted_remove _ other (t.rooted i e live)
    intro j link
    rw [parentOf] at link
    obtain ⟨f, childLive, link⟩ := Option.bind_eq_some_iff.mp link
    split at link
    · cases link
    · exact ok.leaf j f childLive (Option.some.inj link)
  ids := distinct_remove t.ids
  sfis := distinct_remove t.sfis
  packed := by
    rw [extentOf_update]
    exact t.packed.remove

/-- The tree with more data space handed out than its files use. -/
def reserve (t : FileTree) (up : t.top ≤ top) : FileTree :=
  { t with top, packed := t.packed.raise (UInt32.le_iff_toNat_le.mp up) }

/-- The table of a card that has only its master file. -/
def bareTable : Table := fun i => if i = fsRootIndex then some factoryMf else none

private theorem bare_live (live : bareTable i = some d) : i = fsRootIndex ∧ d = factoryMf := by
  unfold bareTable at live
  split at live
  · cases live
    exact ⟨‹_›, rfl⟩
  · cases live

def bare : FileTree where
  table := bareTable
  top := 0
  bounded := by
    intro i d live
    rw [(bare_live live).1]
    decide
  root := rfl
  file i d live notRoot := absurd (bare_live live).1 notRoot
  rooted := by
    intro i d live
    rw [(bare_live live).1]
    exact rooted_self
  ids i j d e live live' _ := (bare_live live).1.trans (bare_live live').1.symm
  sfis i j d e live live' _ := (bare_live live).1.trans (bare_live live').1.symm
  packed := by
    have none : ∀ i, extentOf bareTable i = none := by
      intro i
      unfold extentOf bareTable
      split <;> rfl
    exact ⟨by simp [none], by simp [Distinct, none]⟩

end FileTree
end CardOs
