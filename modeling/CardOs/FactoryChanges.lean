import CardOs.StoreChanges
import CardOs.FsInitProofs

/-! What bringing up a blank chip stores. Formatting and personalising look at
nothing, so that the operations they ask the device for are one fixed list, cut
off where FLASH has no room for the next file. -/
namespace CardOs.FactoryChanges
open CardOs.Library CardOs.Library.Action CardOs.FsTypes CardOs.HalNvm CardOs.FsStore CardOs.FsStoreProofs CardOs.Fs
open CardOs.FsInitProofs CardOs.StorageProofs CardOs.StoreChanges

/-- From `s`, the call asks the device for these operations, until one fails. -/
def Asks (x : FsM α) (s : Store) (requests : List Request) : Prop := (x s).2.hal = (perform requests s).2.hal

/-- The call asks for these operations and stops exactly when one of them fails. -/
def Carries (x : FsM α) (s : Store) (requests : List Request) : Prop :=
  Asks x s requests ∧ ((∃ a, (x s).1 = .ok a) ↔ (perform requests s).1 = .ok ())

/-- Marking all slots free, and the superblock. -/
def formatRequests : List Request :=
  (List.range fsMaxFiles.toNat).map eraseRequest ++ [.write .eeprom 0 (sbBytes 0) .nvm, .sync]

/-- The files of a layout, the allocated data starting at `top`. -/
def layoutRequests (flashSize : UInt32) : UInt32 → List LayoutEntry → List Request
  | _, [] => []
  | top, entry :: rest =>
    if entry.type ≠ .efTransparent then
      (Change.place entry.index entry.descriptor).requests ++ layoutRequests flashSize top rest
    else if top.toNat + entry.size.toNat > flashSize.toNat then []
    else
      (Change.allocate (UInt32.ofNat (top.toNat + entry.size.toNat)) entry.index
        { entry.descriptor with dataOffset := top }).requests ++
      layoutRequests flashSize (UInt32.ofNat (top.toNat + entry.size.toNat)) rest

def personalRequests (flashSize : UInt32) : List Request :=
  formatRequests ++ (Change.place fsRootIndex factoryMf).requests ++ layoutRequests flashSize 0 factoryLayout

section Asking
variable {s s' : Store} {x : FsM α} {f : α → FsM β} {requests more : List Request}

/-- Device operations never look at the superblock mirror. -/
theorem perform_hal (requests : List Request) (hal : Hal) (sb sb' : Superblock) :
    (perform requests ⟨hal, sb⟩).1 = (perform requests ⟨hal, sb'⟩).1 ∧
      (perform requests ⟨hal, sb⟩).2.hal = (perform requests ⟨hal, sb'⟩).2.hal := by
  induction requests generalizing hal sb sb' with
  | nil => exact ⟨rfl, rfl⟩
  | cons request rest ih =>
    have first : ∀ sb, request.run ⟨hal, sb⟩ = ((request.run ⟨hal, sb'⟩).1, ⟨(request.run ⟨hal, sb'⟩).2.hal, sb⟩) := by
      intro sb
      cases request with
      | write region offset raw refused =>
        simp only [Request.run, liftHal, within]
        rcases halNvmWrite region offset raw hal with ⟨_ | _, _⟩ <;> rfl
      | sync =>
        simp only [Request.run, liftHal, within]
        rcases halNvmSync hal with ⟨_ | _, _⟩ <;> rfl
    rcases ran : request.run ⟨hal, sb'⟩ with ⟨e | u, s₁⟩
    · rw [perform_cons, bind_error ran, bind_error (by rw [first sb, ran])]
      exact ⟨rfl, rfl⟩
    · rw [perform_cons, bind_ok ran, bind_ok (show request.run ⟨hal, sb⟩ = (.ok u, ⟨s₁.hal, sb⟩) by rw [first sb, ran])]
      exact ih s₁.hal sb s₁.sb

theorem carries_perform (requests : List Request) (s : Store) : Carries (perform requests) s requests :=
  ⟨rfl, fun ⟨_, returned⟩ => returned, fun returned => ⟨(), returned⟩⟩

theorem carries_conclude (change : Change) (s : Store) : Carries (conclude change (.ok ())) s change.requests := by
  obtain ⟨hal, sb⟩ := s
  obtain ⟨result, same⟩ := perform_hal change.requests hal (change.mirror sb) sb
  unfold Carries Asks
  rw [conclude_store, ← result]
  refine ⟨same, ?_⟩
  rcases ran : perform change.requests ⟨hal, change.mirror sb⟩ with ⟨e | u, s'⟩
  · rw [conclude_error _ ran]
    simp
  · rw [conclude_ok _ ran]
    simp

theorem carries_update {g : Store → Store} (kept : (g s).hal = s.hal) : Carries (Action.update g : FsM Unit) s [] :=
  ⟨kept, fun _ => rfl, fun _ => ⟨(), rfl⟩⟩

/-- A call that carried its operations out is followed by one that starts where
they ended. -/
private theorem carries_cases (first : Carries x s requests) :
    (∃ a s₁ s₂, x s = (.ok a, s₁) ∧ perform requests s = (.ok (), s₂) ∧ s₁.hal = s₂.hal) ∨
      ∃ e e' s₁ s₂, x s = (.error e, s₁) ∧ perform requests s = (.error e', s₂) ∧ s₁.hal = s₂.hal := by
  obtain ⟨hal, ends⟩ := first
  unfold Asks at hal
  rcases ran : x s with ⟨e | a, s₁⟩ <;> rcases performed : perform requests s with ⟨e' | u, s₂⟩ <;>
    rw [ran, performed] at hal ends
  · exact .inr ⟨e, e', s₁, s₂, rfl, rfl, hal⟩
  · simp at ends
  · simp at ends
  · exact .inl ⟨a, s₁, s₂, rfl, rfl, hal⟩

theorem asks_bind (first : Carries x s requests) (rest : ∀ a s', x s = (.ok a, s') → Asks (f a) s' more) :
    Asks (x >>= f) s (requests ++ more) := by
  unfold Asks
  rw [perform_append]
  rcases carries_cases first with ⟨a, ⟨hal, sb⟩, s₂, ran, performed, rfl⟩ | ⟨e, e', s₁, s₂, ran, performed, hal⟩
  · rw [bind_ok ran, bind_ok performed]
    exact (rest a _ ran).trans (perform_hal more s₂.hal sb s₂.sb).2
  · rw [bind_error ran, bind_error performed]
    exact hal

theorem carries_bind (first : Carries x s requests) (rest : ∀ a s', x s = (.ok a, s') → Carries (f a) s' more) :
    Carries (x >>= f) s (requests ++ more) := by
  refine ⟨asks_bind first fun a s' ran => (rest a s' ran).1, ?_⟩
  rw [perform_append]
  rcases carries_cases first with ⟨a, ⟨hal, sb⟩, s₂, ran, performed, rfl⟩ | ⟨e, e', s₁, s₂, ran, performed, _⟩
  · rw [bind_ok ran, bind_ok performed, ← (perform_hal more s₂.hal sb s₂.sb).1]
    exact (rest a _ ran).2
  · rw [bind_error ran, bind_error performed]
    simp

end Asking

section Factory
variable {s s' : Store}

/-- The mirror while the superblock of a fresh table is being written. -/
private def staged (sb : Superblock) : Superblock :=
  { sb with dataTop := 0, version := fsLayoutVersion, maxFiles := fsMaxFiles }

private theorem format_staged (table : descOffset fsMaxFiles ≤ s.hal.nvm.eeprom.size) :
    fsStoreFormat s = (perform ((List.range fsMaxFiles.toNat).map eraseRequest) >>= fun _ =>
      Action.update (fun s => { s with sb := staged s.sb }) >>= fun _ =>
      perform [.write .eeprom 0 (sbBytes 0) .nvm, .sync] >>= fun _ =>
      Action.update fun s => { s with sb := { s.sb with mounted := true } }) s := by
  have room : ¬ descOffset fsMaxFiles > halNvmSize s.hal .eeprom := UInt32.not_lt.mpr table
  rw [fsStoreFormat, state_bind, if_neg room, eraseSlots_eq, run_bind, run_bind]
  rcases perform ((List.range fsMaxFiles.toNat).map eraseRequest) s with ⟨e | u, s₁⟩
  · rfl
  · dsimp only
    rw [update_bind, update_bind, run_bind, run_bind, ← writeDurably_eq]
    rfl

theorem format_carries (table : descOffset fsMaxFiles ≤ s.hal.nvm.eeprom.size) :
    Carries fsStoreFormat s formatRequests := by
  unfold Carries Asks
  rw [format_staged table]
  refine carries_bind (carries_perform _ s) fun _ s₁ _ => carries_bind (carries_update rfl) fun _ s₂ _ => ?_
  exact carries_bind (carries_perform _ s₂) fun _ s₃ _ => carries_update rfl

theorem formatRequests_inside {nvm : Nvm} (table : (descOffset fsMaxFiles).toNat ≤ nvm.eeprom.size.toNat) :
    ∀ request ∈ formatRequests, request.Inside nvm := by
  intro request member
  rcases List.mem_append.mp member with erasing | closing
  · obtain ⟨i, listed, rfl⟩ := List.mem_map.mp erasing
    exact eraseRequest_inside table (List.mem_range.mp listed)
  · simp only [List.mem_cons, List.not_mem_nil, or_false] at closing
    rcases closing with rfl | rfl
    · exact superblock_inside 0 table
    · trivial

/-- Formatting ends mounted on an empty table, or as far mounted as before. -/
theorem format_ends (table : descOffset fsMaxFiles ≤ s.hal.nvm.eeprom.size) {result : Except FsError Unit}
    (ran : fsStoreFormat s = (result, s')) :
    (result = .ok () ∧ s'.sb = mirrorOf 0) ∨ (∃ e, result = .error e) ∧ s'.sb.mounted = s.sb.mounted := by
  rw [format_staged table] at ran
  have erased := perform_sb ((List.range fsMaxFiles.toNat).map eraseRequest) s
  rcases first : perform ((List.range fsMaxFiles.toNat).map eraseRequest) s with ⟨e | u, s₁⟩
  all_goals rw [first] at erased
  · rw [bind_error first] at ran
    cases ran
    exact .inr ⟨⟨e, rfl⟩, congrArg Superblock.mounted erased⟩
  rw [bind_ok first, update_bind] at ran
  have wrote := perform_sb [.write .eeprom 0 (sbBytes 0) .nvm, .sync] { s₁ with sb := staged s₁.sb }
  rcases second : perform [.write .eeprom 0 (sbBytes 0) .nvm, .sync] { s₁ with sb := staged s₁.sb } with ⟨e | u, s₂⟩
  all_goals rw [second] at wrote
  · rw [bind_error second] at ran
    cases ran
    have mounted : s'.sb.mounted = (staged s₁.sb).mounted := congrArg Superblock.mounted wrote
    exact .inr ⟨⟨e, rfl⟩, mounted.trans (show s₁.sb.mounted = _ from congrArg Superblock.mounted erased)⟩
  · rw [bind_ok second] at ran
    cases ran
    refine .inl ⟨rfl, ?_⟩
    exact congrArg (fun sb => { sb with mounted := true }) wrote

theorem format_refused (table : ¬ descOffset fsMaxFiles ≤ s.hal.nvm.eeprom.size) :
    fsStoreFormat s = (.error .noSpace, s) := by
  rw [fsStoreFormat, state_bind, halNvmSize]
  exact congrFun (if_pos (UInt32.not_le.mp table)) s

theorem format_mirror (formatted : fsStoreFormat s = (.ok (), s')) : s'.sb = mirrorOf 0 := by
  by_cases table : descOffset fsMaxFiles ≤ s.hal.nvm.eeprom.size
  · rcases format_ends table formatted with ⟨_, sb⟩ | ⟨⟨e, impossible⟩, _⟩
    · exact sb
    · cases impossible
  · rw [format_refused table] at formatted
    cases formatted

/-- A file that has no room ends the list. -/
private theorem layoutRequests_full {entry : LayoutEntry} (rest : List LayoutEntry) (full : Full s entry.descriptor) :
    layoutRequests s.hal.nvm.flash.size s.sb.dataTop (entry :: rest) = [] := by
  have ef : entry.type = .efTransparent := full.1
  have beyond : s.sb.dataTop.toNat + entry.size.toNat > s.hal.nvm.flash.size.toNat := full.2
  rw [layoutRequests, if_neg (not_not.mpr ef), if_pos beyond]

private theorem layoutRequests_placed {entry : LayoutEntry} (rest : List LayoutEntry)
    (room : ¬ Full s entry.descriptor) :
    layoutRequests s.hal.nvm.flash.size s.sb.dataTop (entry :: rest) =
      (placeChange entry.index entry.descriptor s).requests ++ layoutRequests s.hal.nvm.flash.size
        ((placeChange entry.index entry.descriptor s).mirror s.sb).dataTop rest := by
  rw [layoutRequests]
  by_cases ef : entry.descriptor.type = .efTransparent
  · have inside : ¬ s.sb.dataTop.toNat + entry.size.toNat > s.hal.nvm.flash.size.toNat := fun beyond => room ⟨ef, beyond⟩
    rw [if_neg (not_not.mpr (show entry.type = _ from ef)), if_neg inside, placeChange, if_neg (not_not.mpr ef)]
    rfl
  · rw [if_pos (show entry.type ≠ _ from ef), placeChange, if_pos ef]
    rfl

private theorem layout_asks {layout : List LayoutEntry} (mounted : s.sb.mounted = true)
    (below : ∀ entry ∈ layout, entry.index < s.sb.maxFiles ∧ entry.type ≠ .free) :
    Asks (writeLayout layout) s (layoutRequests s.hal.nvm.flash.size s.sb.dataTop layout) := by
  induction layout generalizing s with
  | nil => rfl
  | cons entry rest ih =>
    obtain ⟨inside, file⟩ := below entry List.mem_cons_self
    rw [writeLayout]
    unfold Asks
    by_cases full : Full s entry.descriptor
    · rw [layoutRequests_full rest full, bind_error (placeFile_full mounted full)]
      rfl
    rw [layoutRequests_placed rest full, run_bind, placeFile_concludes mounted inside file full, ← run_bind]
    refine asks_bind (carries_conclude _ s) fun _ s' ran => ?_
    obtain ⟨sb, sizes⟩ := conclude_kept ran
    rw [← sb, ← show s'.hal.nvm.flash.size = s.hal.nvm.flash.size from sizes .flash]
    have same : s'.sb.mounted = s.sb.mounted ∧ s'.sb.maxFiles = s.sb.maxFiles := by
      rw [sb]
      cases placeChange entry.index entry.descriptor s <;> exact ⟨rfl, rfl⟩
    refine ih (same.1.trans mounted) fun other member => ?_
    rw [same.2]
    exact below other (List.mem_cons_of_mem _ member)

/-- A layout that was written as a whole has taken its data bytes. -/
private theorem layout_mirror {layout : List LayoutEntry} (mounted : s.sb.mounted = true)
    (below : ∀ entry ∈ layout, entry.index < s.sb.maxFiles ∧ entry.type ≠ .free)
    (ran : writeLayout layout s = (.ok (), s')) :
    s'.sb.dataTop.toNat = s.sb.dataTop.toNat + layoutBytes layout := by
  induction layout generalizing s with
  | nil =>
    cases ran
    rfl
  | cons entry rest ih =>
    obtain ⟨inside, file⟩ := below entry List.mem_cons_self
    obtain ⟨_, s₁, placed, written⟩ := bind_eq_ok ran
    have room : ¬ Full s entry.descriptor := by
      intro full
      rw [placeFile_full mounted full] at placed
      cases placed
    rw [placeFile_concludes mounted inside file room] at placed
    obtain ⟨sb, _⟩ := conclude_kept placed
    have kept : s₁.sb.mounted = s.sb.mounted ∧ s₁.sb.maxFiles = s.sb.maxFiles := by
      rw [sb]
      cases placeChange entry.index entry.descriptor s <;> exact ⟨rfl, rfl⟩
    have later := ih (kept.1.trans mounted) (fun other member => by
      rw [kept.2]
      exact below other (List.mem_cons_of_mem _ member)) written
    have bytes : layoutBytes (entry :: rest) =
        (if entry.type = .efTransparent then entry.size.toNat else 0) + layoutBytes rest := by
      simp [layoutBytes]
    rw [later, bytes, ← Nat.add_assoc, sb]
    congr 1
    by_cases ef : entry.type = .efTransparent
    · have allocates : placeChange entry.index entry.descriptor s = .allocate _ entry.index _ :=
        if_neg (not_not.mpr ef)
      rw [allocates, if_pos ef]
      exact (placeChange_top room allocates).1
    · have places : placeChange entry.index entry.descriptor s = .place entry.index entry.descriptor := if_pos ef
      rw [places, if_neg ef]
      rfl

private theorem writeMf_concludes (formatted : s.sb = mirrorOf 0) :
    fsStoreWriteDesc 0 factoryMf s = conclude (.place fsRootIndex factoryMf) (.ok ()) s :=
  @placeFile_concludes s 0 factoryMf (by rw [formatted]; rfl) (by rw [formatted]; decide) (by decide)
    fun full => absurd full.1 (by decide)

/-- A personalised card has its 112 data bytes taken. -/
theorem personalise_mirror (ran : fsPersonalise s = (.ok (), s')) : s'.sb.dataTop = 112 := by
  obtain ⟨_, s₁, formatted, ran⟩ := bind_eq_ok ran
  obtain ⟨_, s₂, wrote, laid⟩ := bind_eq_ok ran
  rw [writeMf_concludes (format_mirror formatted)] at wrote
  have sb : s₂.sb = mirrorOf 0 := (conclude_kept wrote).1.trans (format_mirror formatted)
  have top := layout_mirror (by rw [sb]; rfl) (by rw [sb]; decide) laid
  rw [sb] at top
  exact UInt32.toNat_inj.mp top

/-- Personalising asks for its list of operations, whatever the device makes of it. -/
theorem personalise_asks (table : descOffset fsMaxFiles ≤ s.hal.nvm.eeprom.size) :
    Asks fsPersonalise s (personalRequests s.hal.nvm.flash.size) := by
  unfold fsPersonalise personalRequests
  rw [List.append_assoc]
  refine asks_bind (format_carries table) fun _ s₁ formatted => ?_
  have flash₁ : s₁.hal.nvm.flash.size = s.hal.nvm.flash.size := by
    have hal := (format_carries table).1
    unfold Asks at hal
    rw [formatted] at hal
    rw [show s₁.hal = _ from hal]
    exact perform_size formatRequests .flash s
  have sb₁ : s₁.sb = mirrorOf 0 := format_mirror formatted
  unfold Asks
  rw [run_bind, writeMf_concludes sb₁, ← run_bind]
  refine asks_bind (carries_conclude _ s₁) fun _ s₂ ran => ?_
  obtain ⟨sb₂, sizes⟩ := conclude_kept ran
  have sb₂ : s₂.sb = mirrorOf 0 := sb₂.trans sb₁
  rw [← show s₂.hal.nvm.flash.size = s.hal.nvm.flash.size from (sizes .flash).trans flash₁,
    ← show s₂.sb.dataTop = 0 by rw [sb₂]; rfl]
  refine layout_asks (by rw [sb₂]; rfl) ?_
  rw [sb₂]
  decide

end Factory

end CardOs.FactoryChanges
