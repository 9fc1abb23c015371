import CardOs.StorageProofs

/-! What a filesystem call stores, as a list of device operations. The calls that
change anything make all their lookups first; what they then ask the device for
is fixed by what they saw (`Change`), and planned write failures can only cut the
list short. -/
namespace CardOs.StoreChanges
open CardOs.Library CardOs.Library.Action CardOs.FsTypes CardOs.HalNvm CardOs.FsStore CardOs.FsStoreProofs CardOs.Fs
open CardOs.StorageProofs

/-- One operation asked of the device; a failed write is reported as `refused`. -/
inductive Request where
  | write (region : NvmRegion) (offset : UInt32) (raw : List UInt8) (refused : FsError)
  | sync
  deriving DecidableEq

def Request.run : Request → FsM Unit
  | .write region offset raw refused => liftHal refused (halNvmWrite region offset raw)
  | .sync => liftHal .nvm halNvmSync

def Request.apply : Request → Nvm → Nvm
  | .write region offset raw _, nvm => nvm.write region offset.toNat raw
  | .sync, nvm => nvm

/-- A write of at least one byte inside its region. -/
def Request.Inside (nvm : Nvm) : Request → Prop
  | .write region offset raw _ => raw ≠ [] ∧ offset.toNat + raw.length ≤ (nvm.region region).size.toNat
  | .sync => True

instance (nvm : Nvm) : DecidablePred (Request.Inside nvm) := fun request =>
  match request with
  | .write _ _ _ _ => inferInstanceAs (Decidable (_ ∧ _))
  | .sync => isTrue trivial

/-- Operations one after another, until one fails. -/
def perform : List Request → FsM Unit
  | [] => pure ()
  | request :: rest => do
    request.run
    perform rest

def applyAll (requests : List Request) (nvm : Nvm) : Nvm := requests.foldl (fun nvm request => request.apply nvm) nvm

section Performing
variable {s s' : Store} {request : Request} {requests : List Request} {result : Except FsError Unit} {nvm : Nvm}

theorem perform_cons (request : Request) (rest : List Request) :
    perform (request :: rest) = request.run >>= fun _ => perform rest := rfl

@[simp] theorem applyAll_nil (nvm : Nvm) : applyAll [] nvm = nvm := rfl

@[simp] theorem applyAll_cons (request : Request) (rest : List Request) (nvm : Nvm) :
    applyAll (request :: rest) nvm = applyAll rest (request.apply nvm) := rfl

theorem applyAll_append (first second : List Request) (nvm : Nvm) :
    applyAll (first ++ second) nvm = applyAll second (applyAll first nvm) := List.foldl_append

theorem apply_size (request : Request) (nvm : Nvm) (region : NvmRegion) :
    ((request.apply nvm).region region).size = (nvm.region region).size := by
  cases request with
  | sync => rfl
  | write target offset raw refused =>
    cases target <;> cases region <;> simp [Request.apply, Nvm.region]

theorem applyAll_size (requests : List Request) (nvm : Nvm) (region : NvmRegion) :
    ((applyAll requests nvm).region region).size = (nvm.region region).size := by
  induction requests generalizing nvm with
  | nil => rfl
  | cons request rest ih => rw [applyAll_cons, ih, apply_size]

theorem Request.Inside.carry {other : Request} (inside : request.Inside nvm) : request.Inside (other.apply nvm) := by
  cases request with
  | sync => trivial
  | write region offset raw refused => exact ⟨inside.1, by rw [apply_size]; exact inside.2⟩

/-- A durable write is a write and a barrier. -/
theorem writeDurably_eq (region : NvmRegion) (offset : UInt32) (raw : List UInt8) (refused : FsError) :
    writeDurably region offset raw refused = perform [.write region offset raw refused, .sync] := by
  funext s
  unfold writeDurably
  rw [perform_cons]
  refine congrFun
    (congrArg (Request.run (.write region offset raw refused) >>= ·) (funext fun _ => funext fun s => ?_)) s
  rcases ran : liftHal .nvm halNvmSync s with ⟨e | u, s'⟩
  · exact (bind_error ran).symm
  · exact (bind_ok (f := fun _ => perform []) ran).symm

theorem perform_append (first second : List Request) :
    perform (first ++ second) = perform first >>= fun _ => perform second := by
  induction first with
  | nil => rfl
  | cons request rest ih =>
    funext s
    rw [List.cons_append, perform_cons, perform_cons, ih]
    rcases ran : request.run s with ⟨e | u, s'⟩
    · rw [bind_error ran, bind_error (bind_error ran)]
    · rw [bind_ok ran, run_bind, run_bind, bind_ok ran]

theorem perform_sb (requests : List Request) : Keeps (perform requests) Store.sb := by
  induction requests with
  | nil => exact keeps_pure
  | cons request rest ih =>
    refine keeps_bind ?_ fun _ => ih
    cases request with
    | write region offset raw refused => exact liftHal_sb _ _
    | sync => exact liftHal_sb _ _

private theorem liftHal_size {x : HalM α} {e : FsError} {region : NvmRegion}
    (keeps : Keeps x fun hal => (hal.nvm.region region).size) :
    Keeps (liftHal e x) fun s => (s.hal.nvm.region region).size := by
  intro s
  have same := keeps s.hal
  rcases ran : x s.hal with ⟨failed | a, hal⟩ <;> rw [ran] at same
  · rw [liftHal_error ran]
    exact same
  · rw [liftHal_ok ran]
    exact same

theorem perform_size (requests : List Request) (region : NvmRegion) :
    Keeps (perform requests) fun s => (s.hal.nvm.region region).size := by
  induction requests with
  | nil => exact keeps_pure
  | cons request rest ih =>
    refine keeps_bind ?_ fun _ => ih
    cases request with
    | write target offset raw refused => exact liftHal_size (halNvmWrite_size target offset raw region)
    | sync => exact liftHal_size (halNvmSync_size region)

/-- What one operation did: the operation took place, or it was reported as failed. -/
structure Ran (request : Request) (s : Store) (result : Except FsError Unit) (s' : Store) : Prop where
  sb : s'.sb = s.sb
  reads : s'.hal.readFaults = s.hal.readFaults
  range : s'.hal.rangeErrors = s.hal.rangeErrors
  nvm : s'.hal.nvm = request.apply s.hal.nvm ∨ s'.hal.nvm = s.hal.nvm ∧ result ≠ .ok ()
  plan : match s.hal.writeFaults with
    | [] => result = .ok () ∧ s'.hal.writeFaults = [] ∧ s'.hal.nvm = request.apply s.hal.nvm
    | .none :: rest => result = .ok () ∧ s'.hal.writeFaults = rest ∧ s'.hal.nvm = request.apply s.hal.nvm
    | .lost :: _ => (∃ e, result = .error e) ∧ s'.hal.nvm = s.hal.nvm
    | .stored :: _ => ∃ e, result = .error e

theorem run_ran (inside : request.Inside s.hal.nvm) (ran : request.run s = (result, s')) : Ran request s result s' := by
  obtain ⟨⟨nvm, reads, plan, writes, rangeErrors⟩, sb⟩ := s
  cases request with
  | write region offset raw refused =>
    have fits : inRange (nvm.region region).size offset raw.length = true := inRange_iff.mpr inside.2
    simp only [Request.run, liftHal, within, halNvmWrite, halNvmSize, nextWrite, applyWrite, if_neg inside.1, fits]
      at ran
    rcases plan with _ | ⟨_ | _ | _, rest⟩ <;> cases ran <;> constructor <;> simp [Request.apply]
  | sync =>
    simp only [Request.run, liftHal, within, halNvmSync, nextWrite] at ran
    rcases plan with _ | ⟨_ | _ | _, rest⟩ <;> cases ran <;> constructor <;> simp [Request.apply]

/-- What a list of operations did: some first part of it took place, all of it when
no failure was reported. -/
structure Performed (requests : List Request) (s : Store) (result : Except FsError Unit) (s' : Store) : Prop where
  sb : s'.sb = s.sb
  reads : s'.hal.readFaults = s.hal.readFaults
  range : s'.hal.rangeErrors = s.hal.rangeErrors
  nvm : ∃ done, done <+: requests ∧ s'.hal.nvm = applyAll done s.hal.nvm ∧ (result = .ok () → done = requests)
  reliable : s.hal.writeFaults = [] → result = .ok () ∧ s'.hal.writeFaults = []

theorem perform_performed (inside : ∀ request ∈ requests, request.Inside s.hal.nvm)
    (ran : perform requests s = (result, s')) : Performed requests s result s' := by
  induction requests generalizing s with
  | nil =>
    cases ran
    exact ⟨rfl, rfl, rfl, ⟨[], List.prefix_rfl, rfl, fun _ => rfl⟩, fun calm => ⟨rfl, calm⟩⟩
  | cons request rest ih =>
    rcases first : request.run s with ⟨e | u, s₁⟩
    · have here := run_ran (inside request List.mem_cons_self) first
      rw [perform_cons, bind_error first] at ran
      cases ran
      refine ⟨here.sb, here.reads, here.range, ?_, fun calm => ?_⟩
      · rcases here.nvm with stored | ⟨kept, _⟩
        · exact ⟨[request], ⟨rest, rfl⟩, stored, fun ok => nomatch ok⟩
        · exact ⟨[], ⟨request :: rest, rfl⟩, kept, fun ok => nomatch ok⟩
      · have plan := here.plan
        rw [calm] at plan
        exact nomatch plan.1
    · have here := run_ran (inside request List.mem_cons_self) first
      rw [perform_cons, bind_ok first] at ran
      have stored : s₁.hal.nvm = request.apply s.hal.nvm := here.nvm.resolve_right fun kept => kept.2 rfl
      have later := ih (fun other member => by
        rw [stored]
        exact (inside other (List.mem_cons_of_mem _ member)).carry) ran
      refine ⟨later.sb.trans here.sb, later.reads.trans here.reads, later.range.trans here.range, ?_, fun calm => ?_⟩
      · obtain ⟨done, ⟨left, split⟩, after, all⟩ := later.nvm
        refine ⟨request :: done, ⟨left, by rw [List.cons_append, split]⟩, ?_, fun ok => by rw [all ok]⟩
        rw [after, stored, applyAll_cons]
      · have plan := here.plan
        rw [calm] at plan
        exact later.reliable plan.2.1

/-- Power that fails after `k` operations leaves what those operations stored. -/
theorem perform_cut {k : Nat} {later : List WriteFault} (inside : ∀ request ∈ requests, request.Inside s.hal.nvm)
    (plan : s.hal.writeFaults = List.replicate k .none ++ .lost :: later) (ran : perform requests s = (result, s')) :
    s'.hal.nvm = applyAll (requests.take k) s.hal.nvm := by
  induction requests generalizing s k with
  | nil =>
    cases ran
    rw [List.take_nil, applyAll_nil]
  | cons request rest ih =>
    rcases first : request.run s with ⟨e | u, s₁⟩
    · have here := (run_ran (inside request List.mem_cons_self) first).plan
      rw [perform_cons, bind_error first] at ran
      cases ran
      cases k with
      | zero =>
        rw [plan] at here
        exact here.2
      | succ k =>
        rw [plan, List.replicate_succ, List.cons_append] at here
        exact nomatch here.1
    · have here := (run_ran (inside request List.mem_cons_self) first).plan
      rw [perform_cons, bind_ok first] at ran
      cases k with
      | zero =>
        rw [plan] at here
        obtain ⟨⟨e, failed⟩, _⟩ := here
        cases failed
      | succ k =>
        rw [plan, List.replicate_succ, List.cons_append] at here
        obtain ⟨_, plan₁, stored⟩ := here
        rw [List.take_succ_cons, applyAll_cons, ← stored]
        refine ih (fun other member => ?_) plan₁ ran
        rw [stored]
        exact (inside other (List.mem_cons_of_mem _ member)).carry

end Performing

/-- What a call wants stored, once all its checks have passed. -/
inductive Change where
  | nothing
  | update (position : UInt32) (src : List UInt8)
  | free (slot : UInt16)
  | place (slot : UInt16) (d : FsDescriptor)
  | allocate (top : UInt32) (slot : UInt16) (d : FsDescriptor)
  deriving DecidableEq

/-- The device operations of a change, in order. -/
def Change.requests : Change → List Request
  | .nothing => []
  | .update position src => [.write .flash position src .range, .sync]
  | .free slot => [.write .eeprom (descOffset slot) freeDesc .nvm, .sync]
  | .place slot d => [.write .eeprom (descOffset slot) (descBytes d) .nvm, .sync]
  | .allocate top slot d =>
    [.write .eeprom 0 (sbBytes top) .nvm, .sync, .write .eeprom (descOffset slot) (descBytes d) .nvm, .sync]

/-- The RAM mirror moves before the superblock is written. -/
def Change.mirror : Change → Superblock → Superblock
  | .allocate top _ _, sb => { sb with dataTop := top }
  | _, sb => sb

/-- Carry a change out and, unless the device failed, end as decided. -/
def conclude (change : Change) (r : Except FsError α) : FsM α := fun s =>
  match perform change.requests { s with sb := change.mirror s.sb } with
  | (.ok (), s') => (r, s')
  | (.error e, s') => (.error e, s')

/-- After its lookups, the call carries the change out. -/
def Commits (x : FsM α) (s : Store) (change : Change) : Prop :=
  ∃ s' r, Peeked s s' ∧ ((∃ e, r = .error e) → change = .nothing) ∧ Becomes withPlan x s (conclude change r) s'

/-- The change `fs_ef_write` makes. -/
def updateChange (index offset : UInt16) (src : List UInt8) (s : Store) : Change :=
  match resolve index s with
  | (.error _, _) => .nothing
  | (.ok d, _) =>
    if src ≠ [] ∧ fsIsEf d ∧ offset.toNat + src.length ≤ d.size.toNat then
      .update (d.dataOffset + offset.toUInt32) src
    else .nothing

/-- The change `fs_create_file` makes. -/
def createChange (sel : FsSelection) (req : FsDescriptor) (s : Store) : Change :=
  match createChecks sel req s with
  | (.error _, _) => .nothing
  | (.ok slot, _) =>
    if req.type ≠ .efTransparent then .place slot (newDescriptor sel req)
    else if s.sb.dataTop.toNat + req.size.toNat > (halNvmSize s.hal .flash).toNat then .nothing
    else .allocate (UInt32.ofNat (s.sb.dataTop.toNat + req.size.toNat)) slot
      { newDescriptor sel req with dataOffset := s.sb.dataTop }

/-- The change `fs_delete_file` makes. -/
def deleteChange (sel : FsSelection) (fileId : UInt16) (s : Store) : Change :=
  match deleteChecks sel fileId s with
  | (.error _, _) => .nothing
  | (.ok slot, _) => .free slot

/-- The file wants more data space than FLASH has left. -/
def Full (s : Store) (d : FsDescriptor) : Prop :=
  d.type = .efTransparent ∧ s.sb.dataTop.toNat + d.size.toNat > (halNvmSize s.hal .flash).toNat

instance (s : Store) (d : FsDescriptor) : Decidable (Full s d) := inferInstanceAs (Decidable (_ ∧ _))

/-- The change that gives a file its data space and its slot. -/
def placeChange (slot : UInt16) (d : FsDescriptor) (s : Store) : Change :=
  if d.type ≠ .efTransparent then .place slot d
  else .allocate (UInt32.ofNat (s.sb.dataTop.toNat + d.size.toNat)) slot { d with dataOffset := s.sb.dataTop }

section Committing
variable {s s' s'' : Store} {x : FsM α} {f : α → FsM β} {change : Change}

theorem commits_refused {e : FsError} (peeks : Peeks x s) (ran : x s = (.error e, s')) :
    Commits (x >>= f) s .nothing :=
  ⟨s', .error e, peeks.peeked ran, fun _ => rfl, becomes_error peeks.2 ran fun _ => rfl⟩

theorem commits_next {a : α} (peeks : Peeks x s) (ran : x s = (.ok a, s')) (rest : Commits (f a) s' change) :
    Commits (x >>= f) s change := by
  obtain ⟨s'', r, peeked, whole, becomes⟩ := rest
  exact ⟨s'', r, Trans.trans (peeks.peeked ran) peeked, whole, becomes_ok peeks.2 ran becomes⟩

theorem commits_fail (e : FsError) (s : Store) : Commits (Action.fail e : FsM α) s .nothing :=
  ⟨s, .error e, Std.Refl.refl s, fun _ => rfl, rfl, fun _ => rfl⟩

theorem commits_pure (a : α) (s : Store) : Commits (pure a : FsM α) s .nothing :=
  ⟨s, .ok a, Std.Refl.refl s, fun _ => rfl, rfl, fun _ => rfl⟩

theorem conclude_ok (r : Except FsError α)
    (ran : perform change.requests { s with sb := change.mirror s.sb } = (.ok (), s')) :
    conclude change r s = (r, s') := by
  unfold conclude
  rw [ran]

theorem conclude_error {e : FsError} (r : Except FsError α)
    (ran : perform change.requests { s with sb := change.mirror s.sb } = (.error e, s')) :
    conclude change r s = (.error e, s') := by
  unfold conclude
  rw [ran]

theorem conclude_store (change : Change) (r : Except FsError α) (s : Store) :
    (conclude change r s).2 = (perform change.requests { s with sb := change.mirror s.sb }).2 := by
  rcases ran : perform change.requests { s with sb := change.mirror s.sb } with ⟨e | u, s'⟩
  · rw [conclude_error r ran]
  · rw [conclude_ok r ran]

/-- However far a change gets, the mirror has moved and the sizes stay. -/
theorem conclude_kept {r result : Except FsError α} (ended : conclude change r s = (result, s')) :
    s'.sb = change.mirror s.sb ∧ ∀ region, (s'.hal.nvm.region region).size = (s.hal.nvm.region region).size := by
  obtain rfl : s' = (perform change.requests { s with sb := change.mirror s.sb }).2 := by
    rw [← conclude_store change r s, ended]
  exact ⟨perform_sb change.requests _, fun region => perform_size change.requests region _⟩

/-- Returning something afterwards is part of the conclusion. -/
theorem conclude_bind (change : Change) (a : α) (s : Store) :
    (conclude change (.ok ()) >>= fun _ => (pure a : FsM α)) s = conclude change (.ok a) s := by
  rcases ran : perform change.requests { s with sb := change.mirror s.sb } with ⟨e | u, s'⟩
  · rw [bind_error (conclude_error _ ran), conclude_error _ ran]
  · rw [bind_ok (conclude_ok _ ran), conclude_ok _ ran]
    rfl

/-- A durable write as the conclusion of a change. -/
private theorem conclude_written {region : NvmRegion} {offset : UInt32} {raw : List UInt8} {refused : FsError}
    (mirror : ∀ sb, change.mirror sb = sb)
    (requests : change.requests = [.write region offset raw refused, .sync]) (s : Store) :
    writeDurably region offset raw refused s = conclude change (.ok ()) s := by
  unfold conclude
  rw [mirror, requests, ← writeDurably_eq]
  rcases writeDurably region offset raw refused s with ⟨e | u, s'⟩ <;> rfl

theorem commits_done {x : FsM α} (a : α) (same : ∀ t : Store, t.sb = s.sb → t.hal.nvm = s.hal.nvm →
    x t = conclude change (.ok a) t) : Commits x s change :=
  ⟨s, .ok a, Std.Refl.refl s, fun ⟨_, failed⟩ => (nomatch failed), same s rfl rfl, fun _ => same _ rfl rfl⟩

theorem efWrite_commits (fits : Fits s) (index offset : UInt16) (src : List UInt8) :
    Commits (fsEfWrite index offset src) s (updateChange index offset src s) := by
  unfold fsEfWrite updateChange
  by_cases empty : src = []
  · rw [if_pos (List.length_eq_zero_iff.mpr empty)]
    rcases resolve index s with ⟨e | d, s'⟩
    · exact commits_pure () s
    · simpa [empty] using commits_pure () s
  rw [if_neg fun zero => empty (List.length_eq_zero_iff.mp zero)]
  rcases found : resolve index s with ⟨e | d, s'⟩
  · exact commits_refused (resolve_peeks index s) found
  refine commits_next (resolve_peeks index s) found ?_
  dsimp only
  by_cases ef : fsIsEf d = true
  · by_cases inside : offset.toNat + src.length ≤ d.size.toNat
    · simp only [ef, Bool.not_true, Bool.false_eq_true, if_false, Nat.not_lt.mpr inside, ne_eq, empty,
        not_false_eq_true, inside, and_self, if_true]
      have mounted : s'.sb.mounted = true := by
        rw [((resolve_peeks index s).peeked found).sb fits]
        exact (resolve_found found).1
      refine commits_done () fun t sb _ => ?_
      rw [fsStoreWriteData, state_bind, if_neg empty, sb, mounted]
      exact conclude_written (fun _ => rfl) rfl t
    · simpa [ef, Nat.not_le.mp inside, inside] using commits_fail .range s'
  · simpa [ef] using commits_fail .wrongType s'

theorem deleteFile_commits (fits : Fits s) (sel : FsSelection) (fileId : UInt16) :
    Commits (fsDeleteFile sel fileId) s (deleteChange sel fileId s) := by
  unfold fsDeleteFile deleteChange
  rcases checked : deleteChecks sel fileId s with ⟨e | slot, s'⟩
  · exact commits_refused (deleteChecks_peeks sel fileId s) checked
  refine commits_next (deleteChecks_peeks sel fileId s) checked ?_
  dsimp only
  have found := deleteChecks_found fits checked
  refine commits_done (deselect sel slot) fun t sb _ => ?_
  have frees : fsStoreFreeDesc slot t = conclude (.free slot) (.ok ()) t := by
    rw [fsStoreFreeDesc, state_bind, sb, found.1, if_neg (by simp), if_neg (UInt16.not_le.mpr found.2)]
    exact conclude_written (fun _ => rfl) rfl t
  rw [← conclude_bind, run_bind, frees, ← run_bind]

private theorem writeDesc_performs {slot : UInt16} {d : FsDescriptor} (mounted : s.sb.mounted = true)
    (below : slot < s.sb.maxFiles) (file : d.type ≠ .free) :
    fsStoreWriteDesc slot d s = perform [.write .eeprom (descOffset slot) (descBytes d) .nvm, .sync] s := by
  rw [fsStoreWriteDesc, state_bind, mounted, if_neg (by simp), if_neg (UInt16.not_le.mpr below), if_neg file,
    writeDurably_eq]

/-- An EF takes its data space first and its slot then. -/
private theorem allocate_concludes {slot : UInt16} {d : FsDescriptor} (mounted : s.sb.mounted = true)
    (below : slot < s.sb.maxFiles) (ef : d.type = .efTransparent)
    (room : ¬ s.sb.dataTop.toNat + d.size.toNat > (halNvmSize s.hal .flash).toNat) :
    placeFile slot d s = conclude (.allocate (UInt32.ofNat (s.sb.dataTop.toNat + d.size.toNat)) slot
      { d with dataOffset := s.sb.dataTop }) (.ok ()) s := by
  generalize top : UInt32.ofNat (s.sb.dataTop.toNat + d.size.toNat) = top'
  have staged : fsStoreAllocData d.size s =
      (sbWrite >>= fun _ => pure s.sb.dataTop) { s with sb := { s.sb with dataTop := top' } } := by
    rw [fsStoreAllocData, state_bind, mounted, if_neg (by simp), if_neg room, update_bind, top]
  have wrote : sbWrite { s with sb := { s.sb with dataTop := top' } } =
      perform [.write .eeprom 0 (sbBytes top') .nvm, .sync] { s with sb := { s.sb with dataTop := top' } } := by
    rw [← writeDurably_eq]
    rfl
  have whole : (Change.allocate top' slot { d with dataOffset := s.sb.dataTop }).requests =
      [.write .eeprom 0 (sbBytes top') .nvm, .sync] ++
        [.write .eeprom (descOffset slot) (descBytes { d with dataOffset := s.sb.dataTop }) .nvm, .sync] := rfl
  have kept := perform_sb [.write .eeprom 0 (sbBytes top') .nvm, .sync] { s with sb := { s.sb with dataTop := top' } }
  rcases first : perform [.write .eeprom 0 (sbBytes top') .nvm, .sync]
    { s with sb := { s.sb with dataTop := top' } } with ⟨e | u, s₁⟩
  · have stopped : fsStoreAllocData d.size s = (.error e, s₁) := by
      rw [staged, bind_error (wrote.trans first)]
    rw [placeFile, allocateFor, if_pos ef, bind_error (bind_error stopped)]
    refine (conclude_error _ ?_).symm
    rw [whole, perform_append]
    exact bind_error first
  · have went : fsStoreAllocData d.size s = (.ok s.sb.dataTop, s₁) := by
      rw [staged, bind_ok (wrote.trans first)]
      rfl
    rw [first] at kept
    have mounted₁ : s₁.sb.mounted = true := by rw [kept]; exact mounted
    have below₁ : slot < s₁.sb.maxFiles := by rw [kept]; exact below
    have file : ({ d with dataOffset := s.sb.dataTop } : FsDescriptor).type ≠ .free := by
      rw [show ({ d with dataOffset := s.sb.dataTop } : FsDescriptor).type = d.type from rfl, ef]
      decide
    have allocated : allocateFor d s = (.ok { d with dataOffset := s.sb.dataTop }, s₁) := by
      rw [allocateFor, if_pos ef, bind_ok went]
      rfl
    rw [placeFile, bind_ok allocated, writeDesc_performs mounted₁ below₁ file]
    unfold conclude
    rw [whole, perform_append]
    rw [show Change.mirror (.allocate top' slot { d with dataOffset := s.sb.dataTop }) s.sb =
      { s.sb with dataTop := top' } from rfl, bind_ok first]
    rcases perform [.write .eeprom (descOffset slot) (descBytes { d with dataOffset := s.sb.dataTop }) .nvm, .sync]
      s₁ with ⟨e | u, s₂⟩ <;> rfl

theorem createChange_eq {sel : FsSelection} {req : FsDescriptor} {slot : UInt16}
    (checked : createChecks sel req s = (.ok slot, s')) :
    createChange sel req s =
      if Full s (newDescriptor sel req) then .nothing else placeChange slot (newDescriptor sel req) s := by
  unfold createChange
  rw [checked]
  dsimp only
  by_cases ef : req.type = .efTransparent
  · have ef' : (newDescriptor sel req).type = .efTransparent := ef
    rw [if_neg (not_not.mpr ef), placeChange, if_neg (not_not.mpr ef')]
    exact if_congr ⟨fun beyond => ⟨ef, beyond⟩, fun full => full.2⟩ rfl rfl
  · have ef' : (newDescriptor sel req).type ≠ .efTransparent := ef
    rw [if_pos ef, placeChange, if_pos ef', if_neg fun full => ef full.1]

theorem placeFile_full {slot : UInt16} {d : FsDescriptor} (mounted : s.sb.mounted = true) (full : Full s d) :
    placeFile slot d s = (.error .noSpace, s) := by
  have refused : fsStoreAllocData d.size s = (.error .noSpace, s) := by
    rw [fsStoreAllocData, state_bind, mounted, if_neg (by simp)]
    exact congrFun (if_pos full.2) s
  rw [placeFile, allocateFor, if_pos full.1]
  exact bind_error (bind_error refused)

theorem placeFile_concludes {slot : UInt16} {d : FsDescriptor} (mounted : s.sb.mounted = true)
    (below : slot < s.sb.maxFiles) (file : d.type ≠ .free) (room : ¬ Full s d) :
    placeFile slot d s = conclude (placeChange slot d s) (.ok ()) s := by
  unfold placeChange
  by_cases ef : d.type = .efTransparent
  · rw [if_neg (not_not.mpr ef)]
    exact allocate_concludes mounted below ef fun beyond => room ⟨ef, beyond⟩
  · rw [if_pos ef, placeFile, allocateFor, if_neg ef, pure_bind, writeDesc_performs mounted below file,
      ← writeDurably_eq]
    exact conclude_written (fun _ => rfl) rfl s

theorem createFile_commits (fits : Fits s) (sel : FsSelection) (req : FsDescriptor) :
    Commits (fsCreateFile sel req) s (createChange sel req s) := by
  unfold fsCreateFile
  rcases checked : createChecks sel req s with ⟨e | slot, s'⟩
  · rw [createChange, checked]
    exact commits_refused (createChecks_peeks sel req s) checked
  refine commits_next (createChecks_peeks sel req s) checked ?_
  obtain ⟨⟨mounted, below⟩, file⟩ := createChecks_found fits checked
  have peeked := (createChecks_peeks sel req s).peeked checked
  have sb' := peeked.sb fits
  have nvm' := peeked.nvm fits
  rw [createChange_eq checked]
  split
  · rename_i full
    refine ⟨s', .error .noSpace, Std.Refl.refl s', fun _ => rfl, ?_⟩
    have stops : ∀ t : Store, t.sb = s'.sb → t.hal.nvm = s'.hal.nvm →
        (placeFile slot (newDescriptor sel req) >>= fun _ => (pure slot : FsM UInt16)) t = (.error .noSpace, t) := by
      intro t sb nvm
      refine bind_error (placeFile_full (by rw [sb]; exact mounted) ⟨full.1, ?_⟩)
      rw [halNvmSize, sb, sb', nvm, nvm']
      exact full.2
    exact ⟨stops _ rfl rfl, fun _ => stops _ rfl rfl⟩
  · rename_i room
    refine commits_done slot fun t sb nvm => ?_
    have room' : ¬ Full t (newDescriptor sel req) := by
      unfold Full
      rw [halNvmSize, sb, sb', nvm, nvm']
      exact room
    have placed := placeFile_concludes (s := t) (d := newDescriptor sel req) (by rw [sb]; exact mounted)
      (show slot < t.sb.maxFiles by rw [sb]; exact below) file room'
    rw [← conclude_bind, run_bind, run_bind, placed, placeChange, placeChange, sb, sb']

/-- Everything a change asks for lies inside its region. -/
def Change.Inside (change : Change) (nvm : Nvm) : Prop := ∀ request ∈ change.requests, request.Inside nvm

theorem nothing_inside (nvm : Nvm) : Change.nothing.Inside nvm := fun _ member => absurd member List.not_mem_nil

theorem durable_inside {write : Request} {nvm : Nvm} (requests : change.requests = [write, .sync])
    (inside : write.Inside nvm) : change.Inside nvm := by
  intro request member
  simp only [requests, List.mem_cons, List.not_mem_nil, or_false] at member
  rcases member with rfl | rfl
  · exact inside
  · trivial

theorem slot_inside {slot : UInt16} {raw : List UInt8} (fits : Fits s) (mounted : s.sb.mounted = true)
    (below : slot < s.sb.maxFiles) (whole : raw.length = fsDescSize) :
    (Request.write .eeprom (descOffset slot) raw .nvm).Inside s.hal.nvm := by
  refine ⟨List.ne_nil_of_length_pos (by rw [whole]; decide), ?_⟩
  rw [whole]
  exact fits.slot mounted below

theorem superblock_inside {nvm : Nvm} {files : UInt16} (top : UInt32)
    (table : (descOffset files).toNat ≤ nvm.eeprom.size.toNat) :
    (Request.write .eeprom 0 (sbBytes top) .nvm).Inside nvm := by
  rw [descOffset_toNat] at table
  refine ⟨List.ne_nil_of_length_pos (by rw [sbBytes_length]; decide), ?_⟩
  rw [sbBytes_length]
  simp only [Nvm.region, fsSuperblockSize, UInt32.reduceToNat]
  omega

theorem updateChange_inside (index offset : UInt16) (src : List UInt8) (fits : Fits s) :
    (updateChange index offset src s).Inside s.hal.nvm := by
  unfold updateChange
  rcases found : resolve index s with ⟨e | d, s'⟩
  · exact nothing_inside _
  dsimp only
  split
  · rename_i wanted
    obtain ⟨nonempty, ef, inside⟩ := wanted
    obtain ⟨plan, _, rfl⟩ := (resolve_peeks index s).peeked found fits
    have flash : d.dataOffset.toNat + d.size.toNat ≤ s.hal.nvm.flash.size.toNat :=
      (resolve_found found).2 (by simpa [fsIsEf] using ef)
    refine durable_inside rfl ⟨nonempty, ?_⟩
    rw [data_position flash (by omega)]
    simp only [Nvm.region]
    omega
  · exact nothing_inside _

theorem deleteChange_inside (sel : FsSelection) (fileId : UInt16) (fits : Fits s) :
    (deleteChange sel fileId s).Inside s.hal.nvm := by
  unfold deleteChange
  rcases checked : deleteChecks sel fileId s with ⟨e | slot, s'⟩
  · exact nothing_inside _
  obtain ⟨mounted, below⟩ := deleteChecks_found fits checked
  obtain ⟨plan, _, rfl⟩ := (deleteChecks_peeks sel fileId s).peeked checked fits
  exact durable_inside rfl (slot_inside fits mounted below rfl)

theorem placeChange_inside {slot : UInt16} {d : FsDescriptor} (fits : Fits s) (mounted : s.sb.mounted = true)
    (below : slot < s.sb.maxFiles) : (placeChange slot d s).Inside s.hal.nvm := by
  have slotInside : ∀ d, (Request.write .eeprom (descOffset slot) (descBytes d) .nvm).Inside s.hal.nvm :=
    fun d => slot_inside fits mounted below rfl
  unfold placeChange
  split
  · exact durable_inside rfl (slotInside _)
  · rintro request member
    simp only [Change.requests, List.mem_cons, List.not_mem_nil, or_false] at member
    rcases member with rfl | rfl | rfl | rfl
    · exact superblock_inside _ (UInt32.le_iff_toNat_le.mp (fits mounted))
    · trivial
    · exact slotInside _
    · trivial

/-- An allocation that has room ends inside FLASH, and its end is computed exactly. -/
theorem placeChange_top {slot slot' : UInt16} {d d' : FsDescriptor} {top : UInt32} (room : ¬ Full s d)
    (allocates : placeChange slot d s = .allocate top slot' d') :
    top.toNat = s.sb.dataTop.toNat + d.size.toNat ∧ top ≤ s.hal.nvm.flash.size := by
  unfold placeChange at allocates
  split at allocates
  · cases allocates
  rename_i ef
  cases allocates
  have inside : s.sb.dataTop.toNat + d.size.toNat ≤ s.hal.nvm.flash.size.toNat :=
    Nat.not_lt.mp fun beyond => room ⟨not_not.mp ef, beyond⟩
  have exact' : (UInt32.ofNat (s.sb.dataTop.toNat + d.size.toNat)).toNat = s.sb.dataTop.toNat + d.size.toNat :=
    UInt32.toNat_ofNat_of_lt' (Nat.lt_of_le_of_lt inside s.hal.nvm.flash.size.toNat_lt)
  exact ⟨exact', UInt32.le_iff_toNat_le.mpr (by rw [exact']; exact inside)⟩

/-- What a creation that passes its checks asks for. -/
theorem createChange_cases (sel : FsSelection) (req : FsDescriptor) (s : Store) :
    createChange sel req s = .nothing ∨ ∃ slot s', createChecks sel req s = (.ok slot, s') ∧
      ((req.type ≠ .efTransparent ∧ createChange sel req s = .place slot (newDescriptor sel req)) ∨
        (req.type = .efTransparent ∧ ∃ top : UInt32, top.toNat = s.sb.dataTop.toNat + req.size.toNat ∧
          top ≤ s.hal.nvm.flash.size ∧
          createChange sel req s = .allocate top slot { newDescriptor sel req with dataOffset := s.sb.dataTop })) := by
  rcases checked : createChecks sel req s with ⟨e | slot, s'⟩
  · left
    rw [createChange, checked]
  rw [createChange_eq checked]
  split
  · exact .inl rfl
  rename_i room
  refine .inr ⟨slot, s', rfl, ?_⟩
  by_cases ef : (newDescriptor sel req).type = .efTransparent
  · have takes : placeChange slot (newDescriptor sel req) s = .allocate _ slot _ := if_neg (not_not.mpr ef)
    obtain ⟨top, inside⟩ := placeChange_top room takes
    exact .inr ⟨ef, _, top, inside, takes⟩
  · exact .inl ⟨ef, if_pos ef⟩

theorem createChange_inside (sel : FsSelection) (req : FsDescriptor) (fits : Fits s) :
    (createChange sel req s).Inside s.hal.nvm := by
  rcases checked : createChecks sel req s with ⟨e | slot, s'⟩
  · rw [createChange, checked]
    exact nothing_inside _
  obtain ⟨⟨mounted, below⟩, _⟩ := createChecks_found fits checked
  obtain ⟨plan, _, rfl⟩ := (createChecks_peeks sel req s).peeked checked fits
  rw [createChange_eq checked]
  split
  · exact nothing_inside _
  · exact placeChange_inside fits mounted below

theorem mirror_frame (change : Change) (s : Store) : frame { s with sb := change.mirror s.sb } = frame s := by
  cases change <;> rfl

/-- Carrying a change out, as far as the device lets it, keeps the table inside. -/
theorem carried_fits (inside : change.Inside s.hal.nvm) (fits : Fits s) :
    Fits (perform change.requests { s with sb := change.mirror s.sb }).2 := by
  rcases ran : perform change.requests { s with sb := change.mirror s.sb } with ⟨result, s'⟩
  have performed := perform_performed (s := { s with sb := change.mirror s.sb }) inside ran
  obtain ⟨done, _, nvm, _⟩ := performed.nvm
  have size : s'.hal.nvm.eeprom.size = s.hal.nvm.eeprom.size := by
    rw [nvm]
    exact applyAll_size done s.hal.nvm .eeprom
  refine fits_of_frame ?_ fits
  rw [← mirror_frame change s, frame, frame, performed.sb, size]

/-- A device without failures carries every change out. -/
theorem carried_out (inside : change.Inside s.hal.nvm) (faultless : s.hal.writeFaults = []) :
    (perform change.requests { s with sb := change.mirror s.sb }).1 = .ok () := by
  rcases ran : perform change.requests { s with sb := change.mirror s.sb } with ⟨result, s'⟩
  exact ((perform_performed (s := { s with sb := change.mirror s.sb }) inside ran).reliable faultless).1

end Committing

/-- Marking a slot free in the formatting loop. -/
def eraseRequest (i : Nat) : Request := .write .eeprom (descOffset (UInt16.ofNat i)) freeDesc .nvm

theorem eraseSlots_eq (slots : List Nat) : eraseSlots slots = perform (slots.map eraseRequest) := by
  induction slots with
  | nil => rfl
  | cons i rest ih =>
    rw [eraseSlots, ih]
    rfl

theorem eraseRequest_inside {nvm : Nvm} {i : Nat} (table : (descOffset fsMaxFiles).toNat ≤ nvm.eeprom.size.toNat)
    (inside : i < fsMaxFiles.toNat) : (eraseRequest i).Inside nvm := by
  refine ⟨List.ne_nil_of_length_pos (by rw [freeDesc_length]; decide), ?_⟩
  rw [descOffset_toNat] at table
  rw [descOffset_toNat, UInt16.toNat_ofNat_of_lt' (Nat.lt_trans inside (by decide)), freeDesc_length, fsDescSize]
  simp only [Nvm.region]
  omega

end CardOs.StoreChanges
