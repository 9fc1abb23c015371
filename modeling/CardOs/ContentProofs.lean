import CardOs.FileArchive

/-! FLASH under the bump allocator simulates the archive. A run keeps every live
EF's extent equal to its array and everything above the data top erased, so what
READ BINARY returns is what the archive holds for the addressed file. -/
namespace CardOs.ContentProofs
open CardOs.Library CardOs.Apdu CardOs.FsTypes CardOs.HalNvm CardOs.FsStore CardOs.FsStoreProofs CardOs.Fs
open CardOs.FileTree CardOs.FsProofs CardOs.FsChangeProofs CardOs.FsInitProofs CardOs.FileCommands CardOs.Kernel
open CardOs.AnswerProofs CardOs.CommandProofs CardOs.CardProofs CardOs.CardSafety CardOs.Archive

/-- FLASH holds the arrays of the files of a tree. -/
structure Holding (t : FileTree) (a : Archive) (flash : Region) : Prop where
  content : ∀ i d, t.table i = some d → d.type = .efTransparent → ∀ k, k < d.size.toNat →
    flash.byte (d.dataOffset.toNat + k) = a.bytes (a.idOf i) k
  erased : ∀ k, t.top.toNat ≤ k → k < flash.size.toNat → flash.byte k = 0xFF
  unborn : ∀ id, a.clock ≤ id.born → ∀ k, a.bytes id k = 0xFF
  born : ∀ i d, t.table i = some d → a.born i < a.clock

/-- The archive has chosen the EF that an operational card has selected. -/
structure Choosing (t : FileTree) (a : Archive) (card : Card) : Prop where
  ef : card.kernel.lifecycle = .operational → EfSelected t card.kernel.sel
  current : a.current = if card.kernel.lifecycle = .operational then a.selectedFile card else none

section Holding
variable {t : FileTree} {a a' : Archive} {flash : Region} {slot : UInt16} {d : FsDescriptor} {top : UInt32}

/-- An event that touches neither the files nor their bytes. -/
theorem Holding.idle (holding : Holding t a flash) (clock : a'.clock = a.clock + 1) (born : a'.born = a.born)
    (bytes : a'.bytes = a.bytes) : Holding t a' flash where
  content := by
    intro i d live ef k inside
    simpa only [idOf, born, bytes] using holding.content i d live ef k inside
  erased := holding.erased
  unborn := by
    intro id later k
    rw [bytes]
    exact holding.unborn id (by omega) k
  born := by
    intro i d live
    rw [born, clock]
    exact Nat.lt_succ_of_lt (holding.born i d live)

theorem extent_below (live : t.table slot = some d) (ef : d.type = .efTransparent) :
    d.dataOffset.toNat + d.size.toNat ≤ t.top.toNat := by
  refine t.packed.below slot (d.dataOffset.toNat, d.dataOffset.toNat + d.size.toNat) ?_
  simp [extentOf, live, ef]

/-- A write inside one EF changes that file's array and no other byte of any. -/
theorem Holding.update {offset : Nat} {data : List UInt8} (holding : Holding t a flash)
    (live : t.table slot = some d) (ef : d.type = .efTransparent)
    (inside : offset + data.length ≤ d.size.toNat) (clock : a'.clock = a.clock + 1) (born : a'.born = a.born)
    (bytes : a'.bytes =
      Function.update a.bytes (a.idOf slot) (overlay (a.bytes (a.idOf slot)) offset data)) :
    Holding t a' (flash.write (d.dataOffset.toNat + offset) data) where
  content := by
    intro i e liveE efE k within
    have kept := holding.content i e liveE efE k within
    simp only [idOf, born, bytes] at kept ⊢
    by_cases same : i = slot
    · subst same
      obtain rfl : d = e := Option.some.inj (live.symm.trans liveE)
      simp only [Function.update_self, overlay]
      by_cases covered : offset ≤ k ∧ k < offset + data.length
      · have position : d.dataOffset.toNat + k = d.dataOffset.toNat + offset + (k - offset) := by omega
        have short : k - offset < data.length := by omega
        rw [if_pos covered, position, Region.byte_write_inside short, List.getD_eq_getElem _ _ short]
      · rw [if_neg covered, Region.byte_write_outside (by omega)]
        exact kept
    · have other : (⟨i, a.born i⟩ : FileId) ≠ ⟨slot, a.born slot⟩ := by
        intro equal
        exact same (FileId.mk.inj equal).1
      have apart : ¬ Extents.Overlap (d.dataOffset.toNat, d.dataOffset.toNat + d.size.toNat)
          (e.dataOffset.toNat, e.dataOffset.toNat + e.size.toNat) := by
        intro overlap
        exact same (t.packed.apart slot i _ _ (by simp [extentOf, live, ef]) (by simp [extentOf, liveE, efE])
          overlap).symm
      simp only [Extents.Overlap] at apart
      rw [Function.update_of_ne other, Region.byte_write_outside (by omega)]
      exact kept
  erased := by
    intro k above inside
    have below := extent_below live ef
    rw [Region.byte_write_outside (by omega)]
    rw [Region.write_size] at inside
    exact holding.erased k above inside
  unborn := by
    intro id later k
    have other : id ≠ a.idOf slot := by
      rintro rfl
      have early := holding.born slot d live
      simp only [idOf] at later
      omega
    rw [bytes, Function.update_of_ne other]
    exact holding.unborn id (by omega) k
  born := by
    intro i e liveE
    rw [born, clock]
    exact Nat.lt_succ_of_lt (holding.born i e liveE)

/-- A new file finds its extent erased, and its array never written. -/
theorem Holding.insert (holding : Holding t a flash) (ok : Insertable t slot d top) (room : top ≤ flash.size)
    (clock : a'.clock = a.clock + 1) (born : a'.born = Function.update a.born slot a.clock)
    (bytes : a'.bytes = a.bytes) : Holding (t.insert ok) a' flash where
  content := by
    intro i e live ef k inside
    simp only [idOf, born, bytes]
    by_cases same : i = slot
    · subst same
      obtain rfl : d = e := by simpa [FileTree.insert] using live
      have above := UInt32.le_iff_toNat_le.mp (ok.data ef).1
      have below := (ok.data ef).2
      have room := UInt32.le_iff_toNat_le.mp room
      rw [Function.update_self, holding.erased _ (by omega) (by omega), holding.unborn _ (Nat.le_refl _)]
    · simp only [FileTree.insert, Function.update_of_ne same] at live
      rw [Function.update_of_ne same]
      exact holding.content i e live ef k inside
  erased := by
    intro k above inside
    have raised := UInt32.le_iff_toNat_le.mp ok.raise
    simp only [FileTree.insert] at above
    exact holding.erased k (by omega) inside
  unborn := by
    intro id later k
    rw [bytes]
    exact holding.unborn id (by omega) k
  born := by
    intro i e live
    rw [born, clock]
    by_cases same : i = slot
    · subst same
      simp
    · simp only [FileTree.insert, Function.update_of_ne same] at live
      rw [Function.update_of_ne same]
      exact Nat.lt_succ_of_lt (holding.born i e live)

theorem Holding.remove (holding : Holding t a flash) (ok : Removable t slot) (clock : a'.clock = a.clock + 1)
    (born : a'.born = a.born) (bytes : a'.bytes = a.bytes) : Holding (t.remove ok) a' flash := by
  have kept : ∀ i e, (t.remove ok).table i = some e → t.table i = some e := by
    intro i e live
    by_cases same : i = slot
    · subst same
      simp [FileTree.remove] at live
    · simpa [FileTree.remove, Function.update_of_ne same] using live
  obtain ⟨content, erased, unborn, early⟩ := holding.idle clock born bytes
  exact ⟨fun i e live => content i e (kept i e live), erased, unborn, fun i e live => early i e (kept i e live)⟩

/-- On erased FLASH any tree holds arrays that were never written. -/
theorem Holding.start (erased : ∀ k < flash.size.toNat, flash.byte k = 0xFF) (room : t.top ≤ flash.size)
    (fresh : ∀ id k, a.bytes id k = 0xFF) (born : ∀ i d, t.table i = some d → a.born i < a.clock) :
    Holding t a flash where
  content i d live ef k inside := by
    have below := extent_below live ef
    have room := UInt32.le_iff_toNat_le.mp room
    rw [erased _ (by omega), fresh]
  erased k _ := erased k
  unborn id _ k := fresh id k
  born := born

end Holding

section Observed
variable {t t' : FileTree} {a : Archive} {before after : Store} {slot : UInt16} {d : FsDescriptor}

theorem births_same (same : fileAt after = fileAt before) : a.births before after = a.born := by
  funext i
  unfold births
  rw [same]
  refine if_neg ?_
  rintro ⟨free, taken⟩
  cases live : fileAt before i <;> simp_all

theorem births_insert (first : fileAt before = t.table) (free : t.table slot = none)
    (second : fileAt after = Function.update t.table slot (some d)) :
    a.births before after = Function.update a.born slot a.clock := by
  funext i
  unfold births
  rw [first, second]
  by_cases same : i = slot
  · subst same
    simp [free]
  · rw [Function.update_of_ne same, Function.update_of_ne same]
    refine if_neg ?_
    rintro ⟨free, taken⟩
    cases live : t.table i <;> simp_all

theorem births_remove (first : fileAt before = t.table)
    (second : fileAt after = Function.update t.table slot none) : a.births before after = a.born := by
  funext i
  unfold births
  rw [first, second]
  refine if_neg ?_
  rintro ⟨free, taken⟩
  by_cases same : i = slot
  · subst same
    simp at taken
  · rw [Function.update_of_ne same] at taken
    cases live : t.table i <;> simp_all

theorem accepted_append (data : List UInt8) (sw : Sw) :
    accepted (data ++ [sw1 sw, sw2 sw]) = true ↔ sw = swOk := by
  have dropped : (data ++ [sw1 sw, sw2 sw]).drop ((data ++ [sw1 sw, sw2 sw]).length - 2) = [sw1 sw, sw2 sw] := by
    simp
  rw [accepted, dropped, decide_eq_true_iff]
  constructor
  · intro same
    have high : sw1 sw = 0x90 := (List.cons.inj same).1
    have low : sw2 sw = 0x00 := (List.cons.inj (List.cons.inj same).2).1
    have whole : BigEndian.word16 (sw1 sw) (sw2 sw) = sw := BigEndian.word16_bytes16 sw
    rw [← whole, high, low]
    rfl
  · rintro rfl
    rfl

private theorem shortEf_finds {card : Card} (ready : Ready card.store t) {sfi : UInt8}
    (live : t.table slot = some d) (under : d.parent = card.kernel.sel.curDf) (ef : fsIsEf d = true)
    (same : d.sfi = sfi) (named : d.sfi ≠ fsNoSfi) : shortEf card sfi = some slot := by
  unfold shortEf
  rw [fileAt_ready ready]
  have wanted : ∀ i, ((t.table i).any fun e =>
      e.parent = card.kernel.sel.curDf && fsIsEf e && e.sfi = sfi) = true → i = slot := by
    intro i found
    cases liveE : t.table i with
    | none => simp [liveE] at found
    | some e =>
      simp only [liveE, Option.any_some, Bool.and_eq_true, decide_eq_true_eq] at found
      obtain ⟨⟨sibling, efE⟩, sameE⟩ := found
      exact t.sfis i slot e d liveE live ⟨of_decide_eq_true efE, of_decide_eq_true ef,
        sibling.trans under.symm, sameE.trans same.symm, by rw [sameE, ← same]; exact named⟩
  cases found : List.find? _ _ with
  | none =>
    have bound := t.bounded slot d live
    have absent := List.find?_eq_none.mp found slot (List.mem_map.mpr
      ⟨slot.toNat, List.mem_range.mpr (UInt16.lt_iff_toNat_lt.mp bound), UInt16.ofNat_toNat⟩)
    simp [live, under, ef, same] at absent
  | some i =>
    have hit := List.find?_some found
    rw [wanted i hit]

/-- The archive addresses the file that the card designates. -/
theorem addressed_designated {card : Card} {p1 p2 : UInt8} {index offset : UInt16}
    (ready : Ready card.store t) (choosing : Choosing t a card)
    (operational : card.kernel.lifecycle = .operational)
    (designates : Designates t card.kernel.sel p1 p2 index offset) :
    a.addressed card p1 p2 = some (a.idOf index, offset.toNat) := by
  unfold addressed
  rcases designates with ⟨short, rfl, d, live, under, ef, same, named⟩ | ⟨long, rfl, rfl, some⟩
  · rw [if_pos short, shortEf_finds ready live under ef same named, Option.map_some, UInt8.toNat_toUInt16]
  · rw [if_neg (not_not.mpr long), choosing.current, if_pos operational, selectedFile, if_neg some,
      Option.map_some, BigEndian.word16_toNat]
    rfl

end Observed

section Choosing
variable {t t' : FileTree} {a a' : Archive} {card card' : Card}

/-- The chosen file exists. -/
theorem Choosing.exists (choosing : Choosing t a card) {id : FileId} (chosen : a.current = some id) :
    card.kernel.lifecycle = .operational ∧ id = a.idOf card.kernel.sel.curEf ∧
      card.kernel.sel.curEf ≠ fsInvalidIndex ∧ ∃ d, t.table card.kernel.sel.curEf = some d := by
  rw [choosing.current] at chosen
  split at chosen
  · rename_i operational
    unfold selectedFile at chosen
    split at chosen
    · cases chosen
    · rename_i some
      cases chosen
      rcases choosing.ef operational with none | ⟨d, live, _⟩
      · exact absurd none some
      · exact ⟨operational, rfl, some, d, live⟩
  · cases chosen

/-- An event that keeps the selection and all files keeps the choice. -/
theorem Choosing.carry (choosing : Choosing t a card)
    (kept : ∀ i d, t.table i = some d → t'.table i = some d) (kernel : card'.kernel = card.kernel)
    (current : a'.current = a.current.filter fun id => (t'.table id.slot).isSome)
    (born : ∀ i d, t.table i = some d → a'.born i = a.born i) : Choosing t' a' card' where
  ef := by
    rw [kernel]
    intro operational
    rcases choosing.ef operational with none | ⟨d, live, isEf⟩
    · exact .inl none
    · exact .inr ⟨d, kept _ d live, isEf⟩
  current := by
    have same : a'.current = a.current := by
      cases chosen : a.current with
      | none => rw [current, chosen]; rfl
      | some id =>
        obtain ⟨_, rfl, _, d, live⟩ := choosing.exists chosen
        rw [current, chosen, Option.filter_some, if_pos]
        simp [idOf, kept _ d live]
    rw [same, choosing.current, kernel]
    split
    · rename_i operational
      unfold selectedFile
      rw [kernel]
      rcases choosing.ef operational with none | ⟨d, live, _⟩
      · rw [if_pos none, if_pos none]
      · rw [idOf, idOf, born _ d live]
    · rfl

end Choosing

/-- A card and the archive of its run agree: nothing was ever written, or FLASH
holds the arrays of the card's tree. -/
inductive Agrees (a : Archive) (card : Card) : Prop
  | blank (unformatted : Unformatted card.store) (unmounted : card.store.sb.mounted = false)
      (fresh : ∀ id k, a.bytes id k = 0xFF)
      (erased : ∀ k < card.store.hal.nvm.flash.size.toNat, card.store.hal.nvm.flash.byte k = 0xFF)
      (idle : a.current = none)
  | live (t : FileTree) (live : Live t card) (reliable : Reliable card)
      (holding : Holding t a card.store.hal.nvm.flash) (choosing : Choosing t a card)

section Commands
variable {t : FileTree} {a : Archive} {card : Card} {event : CardEvent} {cmd : Option (List UInt8)}
  {cap : UInt16} {store : Store} {sel : FsSelection}

/-- What the archive makes of an event that wrote and selected nothing. -/
structure Quiet (a : Archive) (card : Card) (event : CardEvent) : Prop where
  bytes : (a.observe card event).bytes = a.bytes
  current : (a.observe card event).current =
    a.current.filter fun id => (fileAt (step card event).store id.slot).isSome

private theorem quiet_of_refusal (refused : accepted (scosProcess cmd cap card).2.1 = false) :
    Quiet a card (.apdu cmd cap) := by
  constructor <;> simp [observe, written, chosen, refused]

private theorem quiet_of_ins (notUpdate : insOf cmd ≠ insUpdateBinary) (notSelect : insOf cmd ≠ insSelect) :
    Quiet a card (.apdu cmd cap) := by
  constructor <;> simp [observe, written, chosen, notUpdate, notSelect]

/-- A quiet event after which the card is what it was. -/
private theorem same_agrees (live : Live t card) (reliable : Reliable card)
    (holding : Holding t a card.store.hal.nvm.flash) (choosing : Choosing t a card)
    (same : step card event = card) (quiet : Quiet a card event) :
    Agrees (a.observe card event) (step card event) := by
  have born : (a.observe card event).born = a.born := births_same (by rw [same])
  have current := quiet.current
  rw [same, fileAt_ready live.ready] at current
  rw [same]
  exact .live t live reliable (holding.idle rfl born quiet.bytes)
    (choosing.carry (fun _ _ live => live) rfl current fun _ _ _ => by rw [born])

private theorem selected_agrees (live : Live t card) (reliable : Reliable card)
    (holding : Holding t a card.store.hal.nvm.flash) (active : card.kernel.lifecycle = .operational)
    (after : step card event = ⟨{ card.kernel with sel }, card.store⟩) (df : DfSelected t sel)
    (ef : EfSelected t sel) (bytes : (a.observe card event).bytes = a.bytes)
    (current : (a.observe card event).current = a.selectedFile (step card event)) :
    Agrees (a.observe card event) (step card event) := by
  have born : (a.observe card event).born = a.born := births_same (by rw [after])
  rw [after] at current ⊢
  refine .live t ⟨live.ready, df⟩ reliable (holding.idle rfl born bytes) ⟨fun _ => ef, ?_⟩
  simp only [current, active, if_true, selectedFile, idOf, born]

private theorem updated_agrees {index offset : UInt16} {data : List UInt8} (live : Live t card)
    (reliable : Reliable card) (holding : Holding t a card.store.hal.nvm.flash) (choosing : Choosing t a card)
    (after : step card event = ⟨card.kernel, store⟩)
    (updated : Updated t index offset data card.store (.ok ()) store)
    (bytes : (a.observe card event).bytes =
      Function.update a.bytes (a.idOf index) (overlay (a.bytes (a.idOf index)) offset.toNat data))
    (current : (a.observe card event).current =
      a.current.filter fun id => (fileAt (step card event).store id.slot).isSome) :
    Agrees (a.observe card event) (step card event) := by
  cases updated with
  | done d liveD isEf usable inside ready sb nvm faultless =>
    have files : fileAt (step card event).store = t.table := by rw [after, fileAt_ready ready]
    have born : (a.observe card event).born = a.born :=
      births_same (files.trans (fileAt_ready live.ready).symm)
    have held := holding.update liveD (of_decide_eq_true isEf) inside rfl born bytes
    have flash : store.hal.nvm.flash =
        card.store.hal.nvm.flash.write (d.dataOffset.toNat + offset.toNat) data := by
      rw [nvm, Nvm.write_flash_flash]
    rw [← flash] at held
    rw [files] at current
    rw [after]
    exact .live t ⟨ready, live.df⟩ (faultless reliable) held
      (choosing.carry (fun _ _ live => live) rfl current fun _ _ _ => by rw [born])

private theorem created_agrees {slot : UInt16} {d : FsDescriptor} (live : Live t card) (reliable : Reliable card)
    (holding : Holding t a card.store.hal.nvm.flash) (choosing : Choosing t a card)
    (after : step card event = ⟨card.kernel, store⟩) (placed : Placed t slot d card.store (.ok ()) store)
    (quiet : Quiet a card event) : Agrees (a.observe card event) (step card event) := by
  cases placed with
  | done ok ready flash grown faultless =>
    have files : fileAt (step card event).store = (t.insert ok).table := by rw [after, fileAt_ready ready]
    have born : (a.observe card event).born = Function.update a.born slot a.clock :=
      births_insert (fileAt_ready live.ready) ok.free files
    have held := holding.insert ok (flash ▸ ready.holds.topInside) rfl born quiet.bytes
    have current := quiet.current
    rw [← flash] at held
    rw [files] at current
    rw [after]
    refine .live (t.insert ok) ⟨ready, (selected_insert _ ok).1 live.df⟩ (faultless reliable) held
      (choosing.carry (fun _ _ live => kept_insert ok live) rfl current ?_)
    intro i e liveE
    have other : i ≠ slot := by
      rintro rfl
      rw [ok.free] at liveE
      cases liveE
    rw [born, Function.update_of_ne other]

private theorem deleted_agrees (live : Live t card) (reliable : Reliable card)
    (holding : Holding t a card.store.hal.nvm.flash) (choosing : Choosing t a card)
    (active : card.kernel.lifecycle = .operational)
    (after : step card event = ⟨{ card.kernel with sel }, store⟩)
    (deleted : Deleted t card.kernel.sel card.store (.ok sel) store)
    (quiet : Quiet a card event) : Agrees (a.observe card event) (step card event) := by
  cases deleted with
  | done slot d liveD child ok ready flash sb faultless =>
    have other : card.kernel.sel.curDf ≠ slot := fun same => parent_ne_self liveD (child.trans same)
    have files : fileAt (step card event).store = Function.update t.table slot none := by
      rw [after, fileAt_ready ready]
      rfl
    have born : (a.observe card event).born = a.born := births_remove (fileAt_ready live.ready) files
    have held := holding.remove ok rfl born quiet.bytes
    have current := quiet.current
    obtain ⟨keepsDf, keepsEf⟩ := selected_remove ok other
    rw [← flash] at held
    rw [files] at current
    rw [after]
    refine .live (t.remove ok) ⟨ready, keepsDf live.df⟩ (faultless reliable) held
      ⟨fun _ => keepsEf (choosing.ef active), ?_⟩
    rw [current, choosing.current, if_pos active, deselect_child other]
    simp only [active, if_true, selectedFile, idOf, born]
    rcases choosing.ef active with none | ⟨e, liveE, _⟩
    · rw [if_pos none]
      by_cases gone : card.kernel.sel.curEf = slot
      · simp only [if_pos gone, if_true, Option.filter_none]
      · simp only [if_neg gone, if_pos none, Option.filter_none]
    · have some := live_ne_invalid liveE
      by_cases gone : card.kernel.sel.curEf = slot
      · simp [gone]
      · simp [some, gone, liveE]

private theorem dataOf_parsed {bytes data : List UInt8} {c : ApduCommand}
    (parsed : apduParse (some bytes) = (.ok, c)) (field : c.data = some data) : dataOf (some bytes) = data := by
  unfold apduParse at parsed
  dsimp only at parsed
  repeat' split at parsed
  all_goals cases parsed
  all_goals cases field
  all_goals rfl

/-- The archive follows every effect a command can have. -/
theorem effect_agrees {bytes : List UInt8} {c : ApduCommand} {sw : Sw} {c' : Session} (live : Live t card)
    (reliable : Reliable card) (holding : Holding t a card.store.hal.nvm.flash) (choosing : Choosing t a card)
    (active : card.kernel.lifecycle = .operational) (parsed : apduParse (some bytes) = (.ok, c))
    (effect : Effect t ⟨card.kernel, card.store, apduRspInit cap⟩ c sw c')
    (answer : scosProcess (some bytes) cap card =
      (.ok, payload c'.rsp ++ [sw1 sw, sw2 sw], ⟨c'.kernel, c'.store⟩)) :
    Agrees (a.observe card (.apdu (some bytes) cap)) (step card (.apdu (some bytes) cap)) := by
  obtain ⟨_, ins, p1, p2⟩ := apduParse_spec parsed
  have ins : insOf (some bytes) = c.ins := ins.symm
  have after : step card (.apdu (some bytes) cap) = ⟨c'.kernel, c'.store⟩ := by rw [step, answer]
  have success := accepted_append (payload c'.rsp) sw
  have response : (scosProcess (some bytes) cap card).2.1 = payload c'.rsp ++ [sw1 sw, sw2 sw] := by
    rw [answer]
  rw [← response] at success
  have quiet : c.ins ≠ insUpdateBinary → c.ins ≠ insSelect → Quiet a card (.apdu (some bytes) cap) := by
    rw [← ins]
    exact quiet_of_ins
  cases effect with
  | refused sw rsp refusal =>
    have refused := success.not.mpr (refusal_ne_ok refusal)
    exact same_agrees live reliable holding choosing after (quiet_of_refusal (by simpa using refused))
  | read sw rsp isRead delivers =>
    exact same_agrees live reliable holding choosing after (quiet (by simp [isRead, insReadBinary, insUpdateBinary])
      (by simp [isRead, insReadBinary, insSelect]))
  | selected sel rsp isSelect df ef =>
    have bytes' : (a.observe card (.apdu (some bytes) cap)).bytes = a.bytes := by
      simp [observe, written, ins, isSelect, insSelect, insUpdateBinary]
    refine selected_agrees live reliable holding active after df (ef (choosing.ef active)) bytes' ?_
    simp [observe, chosen, ins, isSelect, success]
  | updated index offset data store isUpdate field target updated =>
    have hit := addressed_designated live.ready choosing active target
    rw [p1, p2] at hit
    have file : a.addressed card (byteOf (some bytes) 2) (byteOf (some bytes) 3) = _ := hit
    refine updated_agrees live reliable holding choosing after updated ?_ ?_
    · simp [observe, written, ins, isUpdate, success, file, dataOf_parsed parsed field]
    · simp [observe, chosen, ins, isUpdate, insUpdateBinary, insSelect]
  | created slot d store isCreate child placed =>
    exact created_agrees live reliable holding choosing after placed
      (quiet (by simp [isCreate, insCreateFile, insUpdateBinary]) (by simp [isCreate, insCreateFile, insSelect]))
  | deleted sel store isDelete deleted =>
    exact deleted_agrees live reliable holding choosing active after deleted
      (quiet (by simp [isDelete, insDeleteFile, insUpdateBinary]) (by simp [isDelete, insDeleteFile, insSelect]))
  | torn sw store t' refusal faulty ready kept => exact absurd reliable faulty

end Commands

section Runs
variable {t : FileTree} {a : Archive} {card card' : Card}

/-- A boot that mounts the tree forgets the choice and touches no file. -/
private theorem mounted_agrees {event : CardEvent} (live : Live t card) (reliable : Reliable card)
    (holding : Holding t a card.store.hal.nvm.flash)
    (after : step card event = ⟨⟨.operational, 0, fsSelectionReset⟩, { card.store with sb := mirrorOf t.top }⟩)
    (bytes : (a.observe card event).bytes = a.bytes) (current : (a.observe card event).current = none) :
    Agrees (a.observe card event) (step card event) := by
  have ready : Ready { card.store with sb := mirrorOf t.top } t :=
    mounted_mirrorOf live.ready.reads live.ready.holds
  have born : (a.observe card event).born = a.born := by
    refine births_same ?_
    rw [after, fileAt_ready live.ready]
    exact fileAt_ready ready
  rw [after]
  exact .live t ⟨ready, (reset_selected t).1⟩ reliable (holding.idle rfl born bytes)
    ⟨fun _ => (reset_selected t).2, current⟩

/-- The first boots of a chip, up to the one that personalises it. -/
private theorem booted_agrees {event : CardEvent} (unformatted : Unformatted card.store)
    (unmounted : card.store.sb.mounted = false) (fresh : ∀ id k, a.bytes id k = 0xFF)
    (erased : ∀ k < card.store.hal.nvm.flash.size.toNat, card.store.hal.nvm.flash.byte k = 0xFF)
    (after : step card event = (scosInit card').2)
    (hal : card'.store.hal = card.store.hal)
    (bytes : (a.observe card event).bytes = a.bytes) (current : (a.observe card event).current = none) :
    Agrees (a.observe card event) (step card event) := by
  have unformatted' : Unformatted card'.store := by
    obtain ⟨reads, writes, noMagic⟩ := unformatted
    constructor <;> rwa [hal]
  rcases scosInit_unformatted unformatted' with
    ⟨_, store, kept, stays, nvm, ran⟩ | ⟨_, status, booted, t, ran, live, reliable, flash, _, kernel⟩
  · rw [ran] at after
    rw [after]
    refine .blank kept stays (by simpa only [bytes] using fresh) ?_ current
    show ∀ k < store.hal.nvm.flash.size.toNat, store.hal.nvm.flash.byte k = 0xFF
    rw [nvm, hal]
    exact erased
  · rw [ran] at after
    have births : ∀ i d, t.table i = some d → (a.observe card event).born i < (a.observe card event).clock := by
      intro i d liveD
      have taken : fileAt (step card event).store i = some d := by rw [after, fileAt_ready live.ready, liveD]
      simp [observe, Archive.births, fileAt_unmounted unmounted, taken]
    rw [after]
    refine .live t live reliable
      (.start ?_ live.ready.holds.topInside (by simpa only [bytes] using fresh) births) ⟨?_, ?_⟩
    · rw [flash, hal]
      exact erased
    · intro active
      rw [kernel] at active ⊢
      split at active
      · rename_i ok
        rw [if_pos ok]
        exact (reset_selected t).2
      · cases active
    · rw [current]
      split
      · rename_i active
        rw [kernel] at active
        split at active
        · rename_i ok
          rw [selectedFile, kernel, if_pos ok]
          rfl
        · cases active
      · rfl

theorem step_agrees (agrees : Agrees a card) (event : CardEvent) :
    Agrees (a.observe card event) (step card event) := by
  cases agrees with
  | blank unformatted unmounted fresh erased idle =>
    cases event with
    | apdu cmd cap =>
      have refused : step card (.apdu cmd cap) = card ∧
          accepted (scosProcess cmd cap card).2.1 = false := by
        by_cases room : 2 ≤ cap
        · obtain ⟨sw, refusal, answer⟩ := scosProcess_blank unmounted room cmd
          rw [step, answer]
          have notOk := (accepted_append [] sw).not.mpr (refusal_ne_ok refusal)
          exact ⟨rfl, by simpa using notOk⟩
        · rw [step, scosProcess_small room]
          exact ⟨rfl, rfl⟩
      obtain ⟨same, denied⟩ := refused
      have quiet : Quiet a card (.apdu cmd cap) := quiet_of_refusal denied
      rw [same]
      exact .blank unformatted unmounted (by simpa only [quiet.bytes] using fresh) erased
        (by rw [quiet.current, idle]; rfl)
    | reset => exact .blank unformatted unmounted fresh erased rfl
    | init => exact booted_agrees unformatted unmounted fresh erased rfl rfl rfl rfl
    | powerCycle => exact booted_agrees unformatted unmounted fresh erased rfl rfl rfl rfl
  | live t live reliable holding choosing =>
    cases event with
    | apdu cmd cap =>
      by_cases room : 2 ≤ cap
      · rcases scosProcess_effect live room cmd with
          ⟨sw, refusal, answer⟩ | ⟨bytes, c, sw, c', active, rfl, parsed, effect, _, answer⟩
        · have denied := (accepted_append [] sw).not.mpr (refusal_ne_ok refusal)
          refine same_agrees live reliable holding choosing (by rw [step, answer]) (quiet_of_refusal ?_)
          rw [answer]
          simpa using denied
        · exact effect_agrees live reliable holding choosing active parsed effect answer
      · refine same_agrees live reliable holding choosing ?_ (quiet_of_refusal ?_)
        · rw [step, scosProcess_small room]
        · rw [scosProcess_small room]
          rfl
    | reset =>
      have born : (a.observe card .reset).born = a.born := births_same rfl
      exact .live t ⟨live.ready, (reset_selected t).1⟩ reliable (holding.idle rfl born rfl)
        ⟨fun _ => (reset_selected t).2, rfl⟩
    | init =>
      refine mounted_agrees live reliable holding ?_ rfl rfl
      rw [step, scosInit_mounts live.ready.reads live.ready.holds]
    | powerCycle =>
      refine mounted_agrees live reliable holding ?_ rfl rfl
      rw [step, powerUp_mounts live.ready.reads live.ready.holds]

/-- Where a card starts out in agreement with the empty archive, they agree along every run. -/
theorem history_agrees (start : Agrees Archive.empty card) (events : List CardEvent) :
    Agrees (history card events).1 (history card events).2 := by
  unfold history
  generalize Archive.empty = a at start ⊢
  induction events generalizing a card with
  | nil => exact start
  | cons event rest ih => exact ih _ (step_agrees start event)

theorem blank_agrees (eepromSize flashSize : UInt32) : Agrees Archive.empty (blankCard eepromSize flashSize) :=
  .blank (blank_unformatted eepromSize flashSize) rfl (fun _ _ => rfl) (fun _ _ => rfl) rfl

theorem history_card (card : Card) (events : List CardEvent) : (history card events).2 = run card events := by
  unfold history run
  generalize Archive.empty = a
  induction events generalizing a card with
  | nil => rfl
  | cons event rest ih => exact ih _ _

/-- Data in a response that was read from a region. -/
private theorem payload_read {flash : Region} {offset n : Nat} {rsp : ApduResponse}
    (bytes : rsp.bytes = flash.read offset n) (k : Nat) (inside : k < (payload rsp).length) :
    k < n ∧ (payload rsp)[k] = flash.byte (offset + k) := by
  unfold payload at inside ⊢
  split at inside
  · simp at inside
  · simp_all [Region.read_getElem]

/-- Two answers that are the same bytes have the same data and status word. -/
theorem answer_inj (data data' : List UInt8) {sw sw' : Sw}
    (same : data ++ [sw1 sw, sw2 sw] = data' ++ [sw1 sw', sw2 sw']) : data = data' ∧ sw = sw' := by
  obtain ⟨first, last⟩ := List.append_inj' same rfl
  have whole : ∀ sw, BigEndian.word16 (sw1 sw) (sw2 sw) = sw := BigEndian.word16_bytes16
  obtain ⟨high, low⟩ : sw1 sw = sw1 sw' ∧ sw2 sw = sw2 sw' := by simpa using last
  exact ⟨first, by rw [← whole sw, high, low, whole]⟩

section Reading
variable {cmd : Option (List UInt8)} {cap : UInt16} {data : List UInt8} {sw : Sw}

/-- The answer to an accepted READ BINARY is the response of its handler. -/
private theorem read_effect (live : Live t card) (read : insOf cmd = insReadBinary)
    (answer : scosProcess cmd cap card = (.ok, data ++ [sw1 sw, sw2 sw], card'))
    (done : sw = swOk ∨ sw = swNvmUnchangedEof) :
    ∃ c rsp, card.kernel.lifecycle = .operational ∧ c.p1 = byteOf cmd 2 ∧ c.p2 = byteOf cmd 3 ∧
      data = payload rsp ∧ Delivers t ⟨card.kernel, card.store, apduRspInit cap⟩ c rsp := by
  have notRefused : ∀ refusal, Refusal refusal → sw ≠ refusal := by
    rintro refusal refused rfl
    rcases done with ok | eof
    · exact refusal_ne_ok refused ok
    · exact refusal_ne_eof refused eof
  have room : 2 ≤ cap := by
    by_contra small
    rw [scosProcess_small small] at answer
    cases answer
  rcases scosProcess_effect live room cmd with
    ⟨refusal, refused, denied⟩ | ⟨bytes, c, sw', c', active, rfl, parsed, effect, _, answer'⟩
  · have bytes := (Prod.mk.inj (Prod.mk.inj (answer.symm.trans denied)).2).1
    exact absurd (answer_inj _ [] bytes).2 (notRefused refusal refused)
  · obtain ⟨_, ins, p1, p2⟩ := apduParse_spec parsed
    have isRead : c.ins = insReadBinary := ins.trans read
    obtain ⟨rfl, rfl⟩ := answer_inj _ _ (Prod.mk.inj (Prod.mk.inj (answer.symm.trans answer')).2).1
    cases effect with
    | refused sw rsp refused => exact absurd rfl (notRefused sw refused)
    | torn sw store t' refused faulty ready kept => exact absurd rfl (notRefused sw refused)
    | selected sel rsp isSelect df ef => cases isRead.symm.trans isSelect
    | updated index offset data store isUpdate field target updated => cases isRead.symm.trans isUpdate
    | created slot d store isCreate child placed => cases isRead.symm.trans isCreate
    | deleted sel store isDelete deleted => cases isRead.symm.trans isDelete
    | read sw rsp _ delivers => exact ⟨c, rsp, active, p1, p2, rfl, delivers⟩

/-- What an accepted READ BINARY returns on a card that agrees with the archive. -/
theorem read_agrees (agrees : Agrees a card) (read : insOf cmd = insReadBinary)
    (answer : scosProcess cmd cap card = (.ok, data ++ [sw1 sw, sw2 sw], card'))
    (done : sw = swOk ∨ sw = swNvmUnchangedEof) :
    ∃ id offset, a.addressed card (byteOf cmd 2) (byteOf cmd 3) = some (id, offset) ∧
      id = a.idOf id.slot ∧ (fileAt card.store id.slot).isSome ∧
      ∀ k, (inside : k < data.length) → data[k] = a.bytes id (offset + k) := by
  cases agrees with
  | blank unformatted unmounted fresh erased idle =>
    by_cases room : 2 ≤ cap
    · obtain ⟨refusal, refused, denied⟩ := scosProcess_blank unmounted room cmd
      have bytes := (Prod.mk.inj (Prod.mk.inj (answer.symm.trans denied)).2).1
      obtain ⟨_, rfl⟩ := answer_inj _ [] bytes
      rcases done with ok | eof
      · exact absurd ok (refusal_ne_ok refused)
      · exact absurd eof (refusal_ne_eof refused)
    · rw [scosProcess_small room] at answer
      cases answer
  | live t live reliable holding choosing =>
    obtain ⟨c, rsp, active, p1, p2, rfl, delivers⟩ := read_effect live read answer done
    obtain ⟨index, offset, d, n, designates, liveD, ef, inside, bytes⟩ := delivers
    have hit := addressed_designated live.ready choosing active designates
    rw [p1, p2] at hit
    refine ⟨a.idOf index, offset.toNat, hit, rfl, ?_, ?_⟩
    · rw [fileAt_ready live.ready, idOf, liveD]
      rfl
    · intro k within
      obtain ⟨small, stored⟩ := payload_read (bytes.trans (List.nil_append _)) k within
      rw [stored, Nat.add_assoc]
      exact holding.content index d liveD (of_decide_eq_true ef) _ (by omega)

/-- In a run from a blank chip, what an accepted READ BINARY returns is, byte by
byte, what the archive of the run holds for the file it addresses. -/
theorem read_returns_archived_bytes {eepromSize flashSize : UInt32} {events : List CardEvent}
    (past : history (blankCard eepromSize flashSize) events = (a, card)) (read : insOf cmd = insReadBinary)
    (answer : scosProcess cmd cap card = (.ok, data ++ [sw1 sw, sw2 sw], card'))
    (done : sw = swOk ∨ sw = swNvmUnchangedEof) :
    card = run (blankCard eepromSize flashSize) events ∧
      ∃ id offset, a.addressed card (byteOf cmd 2) (byteOf cmd 3) = some (id, offset) ∧
        id = a.idOf id.slot ∧ (fileAt card.store id.slot).isSome ∧
        ∀ k, (inside : k < data.length) → data[k] = a.bytes id (offset + k) := by
  have agrees := history_agrees (blank_agrees eepromSize flashSize) events
  have ran := history_card (blankCard eepromSize flashSize) events
  rw [past] at agrees ran
  exact ⟨ran, read_agrees agrees read answer done⟩

/-- EF 2F00 is written, deleted and created again in the same slot. -/
def recreated : List CardEvent :=
  [.init, .apdu (some [0x00, 0xD6, 0x81, 0x00, 0x02, 0xAB, 0xCD]) 258,
    .apdu (some [0x00, 0xE4, 0x00, 0x00, 0x02, 0x2F, 0x00]) 258,
    .apdu (some [0x00, 0xE0, 0x00, 0x00, 0x0E, 0x82, 0x01, 0x01, 0x83, 0x02, 0x2F, 0x00, 0x80, 0x02, 0x00, 0x20,
      0x88, 0x01, 0x08]) 258]

theorem read_returns_archived_bytes_of_recreated :
    ∃ a card card', history (blankCard 656 144) recreated = (a, card) ∧
      scosProcess (some [0x00, 0xB0, 0x81, 0x00, 0x02]) 258 card =
        (.ok, [0xFF, 0xFF] ++ [sw1 swOk, sw2 swOk], card') ∧
      ∃ id offset, a.addressed card 0x81 0x00 = some (id, offset) ∧
        ∀ k, (inside : k < ([0xFF, 0xFF] : List UInt8).length) →
          ([0xFF, 0xFF] : List UInt8)[k] = a.bytes id (offset + k) := by
  have reply : (scosProcess (some [0x00, 0xB0, 0x81, 0x00, 0x02]) 258
      (history (blankCard 656 144) recreated).2).1 = .ok ∧
      (scosProcess (some [0x00, 0xB0, 0x81, 0x00, 0x02]) 258
        (history (blankCard 656 144) recreated).2).2.1 = [0xFF, 0xFF] ++ [sw1 swOk, sw2 swOk] := by
    decide +kernel
  rcases past : history (blankCard 656 144) recreated with ⟨a, card⟩
  rw [past] at reply
  rcases answer : scosProcess (some [0x00, 0xB0, 0x81, 0x00, 0x02]) 258 card with ⟨status, rsp, card'⟩
  rw [answer] at reply
  obtain ⟨rfl, rfl⟩ : status = .ok ∧ rsp = [0xFF, 0xFF] ++ [sw1 swOk, sw2 swOk] := reply
  obtain ⟨_, id, offset, hit, _, _, same⟩ := read_returns_archived_bytes past rfl answer (.inl rfl)
  exact ⟨a, card, card', rfl, answer, id, offset, hit, same⟩

end Reading

end Runs

end CardOs.ContentProofs
