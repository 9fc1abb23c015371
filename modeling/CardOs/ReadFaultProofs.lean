import CardOs.CreationProofs
import CardOs.SelectionProofs

/-! CREATE FILE and DELETE FILE on a device whose reads may fail: which of the two
still refuse and change nothing when a read fails while they scan the table. -/
namespace CardOs.ReadFaultProofs
open CardOs.Library CardOs.Library.Action CardOs.Apdu CardOs.FsTypes CardOs.HalNvm CardOs.FsStore CardOs.FsStoreProofs
open CardOs.Fs CardOs.FileTree CardOs.FsProofs CardOs.FsChangeProofs CardOs.FileCommands CardOs.Kernel
open CardOs.AnswerProofs CardOs.CommandProofs CardOs.CardProofs CardOs.CardSafety CardOs.StorageProofs
open CardOs.StoreChanges CardOs.Transactions CardOs.CrashProofs CardOs.IsolationProofs CardOs.ContentProofs
open CardOs.SelectionProofs CardOs.CreationProofs

/-- The same store over a device whose next reads go as planned. -/
def withReads (plan : List Bool) (s : Store) : Store := { s with hal := { s.hal with readFaults := plan } }

def reading (plan : List Bool) (card : Card) : Card := { card with store := withReads plan card.store }

def nextFails (plan : List Bool) : Bool := plan.headD false

/-- One of the reads the action issues reports an error. -/
def MeetsFault (x : FsM α) (s : Store) : Prop :=
  ∃ used, s.hal.readFaults = used ++ (x s).2.hal.readFaults ∧ true ∈ used

/-- The action issues the same reads whatever they give until one fails; it ends with
the error of that one. -/
def Strict (x : FsM α) (s : Store) : Prop :=
  ∃ n, ∀ plan,
    (true ∉ plan.take n → x (withReads plan s) = ((x s).1, withReads (plan.drop n) s)) ∧
      (true ∈ plan.take n → ∃ m, x (withReads plan s) = (.error .nvm, withReads (plan.drop m) s))

section Reading
variable {s : Store} {plan : List Bool} {i : UInt16}

theorem withReads_none (mapped : Mapped s) : withReads [] s = s := by
  rw [withReads, ← mapped.reads]

private theorem halNvmRead_planned {offset : UInt32} {len : Nat} (plan : List Bool) (nonempty : len ≠ 0)
    (inside : offset.toNat + len ≤ s.hal.nvm.eeprom.size.toNat) :
    halNvmRead .eeprom offset len (withReads plan s).hal =
      (if nextFails plan then .error .io else .ok (s.hal.nvm.eeprom.read offset.toNat len),
        (withReads plan.tail s).hal) := by
  have fits : inRange (halNvmSize (withReads plan s).hal .eeprom) offset len = true := inRange_iff.mpr inside
  rw [halNvmRead, if_neg nonempty, fits]
  rcases plan with _ | ⟨_ | _, rest⟩ <;> rfl

/-- A read inside the table takes the next entry of the plan. -/
theorem descRawRead_planned (mapped : Mapped s) (plan : List Bool) (inside : i < fsMaxFiles) :
    descRawRead i (withReads plan s) =
      (if nextFails plan then .error .nvm else .ok (rawSlot s i), withReads plan.tail s) := by
  have below : ¬ i ≥ (withReads plan s).sb.maxFiles := by
    rw [show (withReads plan s).sb = s.sb from rfl, mapped.maxFiles]
    exact UInt16.not_le.mpr inside
  have bound := index_lt inside
  have fits := mapped.fits
  have read := @halNvmRead_planned s (descOffset i) fsDescSize plan (by decide)
    (by rw [descOffset_toNat, fsDescSize]; omega)
  rw [descRawRead, state_bind, show (withReads plan s).sb.mounted = true from mapped.mounted, if_neg (by simp),
    if_neg below]
  cases fault : nextFails plan with
  | false =>
    rw [fault] at read
    exact liftHal_ok read
  | true =>
    rw [fault] at read
    exact liftHal_error read

theorem readDesc_planned (mapped : Mapped s) (plan : List Bool) (inside : i < fsMaxFiles) :
    fsStoreReadDesc i (withReads plan s) =
      (if nextFails plan then .error .nvm else (fsStoreReadDesc i s).1, withReads plan.tail s) := by
  have raw := descRawRead_planned mapped plan inside
  rw [readDesc_mapped mapped, if_pos inside, fsStoreReadDesc]
  cases fault : nextFails plan with
  | false =>
    rw [fault] at raw
    have size : halNvmSize (withReads plan.tail s).hal .flash = s.hal.nvm.flash.size := rfl
    rw [bind_ok raw, state_bind, size]
    cases decodeDesc s.hal.nvm.flash.size (rawSlot s i) <;> rfl
  | true =>
    rw [fault] at raw
    exact bind_error raw

theorem slotIsFree_planned (mapped : Mapped s) (plan : List Bool) (inside : i < fsMaxFiles) :
    fsStoreSlotIsFree i (withReads plan s) =
      (.ok (!nextFails plan && rawIsFree (rawSlot s i)), withReads plan.tail s) := by
  rw [fsStoreSlotIsFree, attempt_bind, descRawRead_planned mapped plan inside]
  cases nextFails plan <;> rfl

end Reading

section Scanning
variable {s : Store} {wanted : FsDescriptor → Bool} {skips : FsError → Bool}

private theorem inside_cons {i : Nat} {slots : List Nat} (inside : ∀ k ∈ i :: slots, UInt16.ofNat k < fsMaxFiles) :
    UInt16.ofNat i < fsMaxFiles ∧ ∀ k ∈ slots, UInt16.ofNat k < fsMaxFiles :=
  List.forall_mem_cons.mp inside

private theorem take_quiet {plan : List Bool} (quiet : nextFails plan = false) (n : Nat) :
    true ∈ plan.take (n + 1) ↔ true ∈ plan.tail.take n := by
  rcases plan with _ | ⟨fault, rest⟩
  · simp
  · cases quiet
    simp

private theorem take_faulty {plan : List Bool} (fault : nextFails plan = true) (n : Nat) : true ∈ plan.take (n + 1) := by
  rcases plan with _ | ⟨_, rest⟩
  · cases fault
  · cases fault
    simp

/-- What a slot holds ends the search, or the search goes on behind it. -/
private theorem scanFor_next (i : Nat) (rest : List Nat) (outcome : Except FsError FsDescriptor) :
    (∃ r, ∀ t, (fsStoreReadDesc (UInt16.ofNat i) t).1 = outcome →
        scanFor wanted skips (i :: rest) t = (r, (fsStoreReadDesc (UInt16.ofNat i) t).2)) ∨
      ∀ t, (fsStoreReadDesc (UInt16.ofNat i) t).1 = outcome →
        scanFor wanted skips (i :: rest) t = scanFor wanted skips rest (fsStoreReadDesc (UInt16.ofNat i) t).2 := by
  cases outcome with
  | error e =>
    cases skip : skips e with
    | true => exact .inr fun t read => by simp [scanFor, read, skip]
    | false => exact .inl ⟨.error e, fun t read => by simp [scanFor, read, skip]⟩
  | ok d =>
    cases hit : wanted d with
    | true => exact .inl ⟨.ok (UInt16.ofNat i), fun t read => by simp [scanFor, read, hit]⟩
    | false => exact .inr fun t read => by simp [scanFor, read, hit]

/-- A search that stops at a failing read ends with its error; without one it finds
what there is to find. -/
theorem scanFor_strict (mapped : Mapped s) (strict : skips .nvm = false) {slots : List Nat}
    (inside : ∀ k ∈ slots, UInt16.ofNat k < fsMaxFiles) : Strict (scanFor wanted skips slots) s := by
  induction slots with
  | nil => exact ⟨0, fun plan => ⟨fun _ => rfl, by simp⟩⟩
  | cons i rest ih =>
    obtain ⟨here, others⟩ := inside_cons inside
    obtain ⟨n, ih⟩ := ih others
    have clear : (fsStoreReadDesc (UInt16.ofNat i) s).2 = s := by rw [readDesc_mapped mapped]
    have planned := fun plan => readDesc_planned mapped plan here
    have faulted : ∀ plan, nextFails plan = true →
        scanFor wanted skips (i :: rest) (withReads plan s) = (.error .nvm, withReads (plan.drop 1) s) :=
      fun plan fault => by simp [scanFor, planned, fault, strict]
    rcases scanFor_next i rest (fsStoreReadDesc (UInt16.ofNat i) s).1 with ⟨r, stops⟩ | goesOn
    · refine ⟨1, fun plan => ?_⟩
      cases fault : nextFails plan with
      | true => exact ⟨fun none => absurd (take_faulty fault 0) none, fun _ => ⟨1, faulted plan fault⟩⟩
      | false =>
        refine ⟨fun _ => ?_, fun met => by simp [take_quiet fault] at met⟩
        rw [stops s rfl, stops _ (by simp [planned, fault]), planned]
        simp
    · refine ⟨n + 1, fun plan => ?_⟩
      cases fault : nextFails plan with
      | true => exact ⟨fun none => absurd (take_faulty fault n) none, fun _ => ⟨1, faulted plan fault⟩⟩
      | false =>
        rw [goesOn s rfl, clear, goesOn _ (by simp [planned, fault]), planned, take_quiet fault]
        have tail : ∀ k, plan.tail.drop k = plan.drop (k + 1) := fun k => by simp
        obtain ⟨found, stopped⟩ := ih plan.tail
        refine ⟨fun none => by rw [found none, tail], fun met => ?_⟩
        obtain ⟨m, failed⟩ := stopped met
        exact ⟨m + 1, by rw [failed, tail]⟩

/-- A search that skips failing reads finds nothing when every read fails. -/
theorem scanFor_blind (mapped : Mapped s) (skip : skips .nvm = true) {slots : List Nat}
    (inside : ∀ k ∈ slots, UInt16.ofNat k < fsMaxFiles) (plan : List Bool) :
    scanFor wanted skips slots (withReads (List.replicate slots.length true ++ plan) s) =
      (.error .notFound, withReads plan s) := by
  induction slots with
  | nil => rfl
  | cons i rest ih =>
    obtain ⟨here, others⟩ := inside_cons inside
    simp [scanFor, List.replicate_succ, readDesc_planned mapped _ here, nextFails, skip, ih others]

theorem childCountIn_blind (mapped : Mapped s) {slots : List Nat} (inside : ∀ k ∈ slots, UInt16.ofNat k < fsMaxFiles)
    (parent : UInt16) (plan : List Bool) :
    childCountIn parent slots (withReads (List.replicate slots.length true ++ plan) s) = (.ok 0, withReads plan s) := by
  induction slots with
  | nil => rfl
  | cons i rest ih =>
    obtain ⟨here, others⟩ := inside_cons inside
    simp [childCountIn, List.replicate_succ, readDesc_planned mapped _ here, nextFails, ih others]

/-- Whatever reads fail, a slot that is found is free. -/
theorem findFreeSlotIn_planned (mapped : Mapped s) {slots : List Nat} (inside : ∀ k ∈ slots, UInt16.ofNat k < fsMaxFiles)
    {plan : List Bool} {slot : UInt16} {s' : Store} (found : findFreeSlotIn slots (withReads plan s) = (.ok slot, s'))
    (valid : slot ≠ fsInvalidIndex) : slot < fsMaxFiles ∧ rawIsFree (rawSlot s slot) = true := by
  induction slots generalizing plan with
  | nil =>
    cases found
    exact absurd rfl valid
  | cons i rest ih =>
    obtain ⟨here, others⟩ := inside_cons inside
    rw [findFreeSlotIn, bind_ok (slotIsFree_planned mapped plan here)] at found
    split at found
    · rename_i free
      cases found
      exact ⟨here, (Bool.and_eq_true_iff.mp free).2⟩
    · exact ih others found

end Scanning

section Lookups
variable {s : Store} {plan : List Bool}

private theorem planned_files (mapped : Mapped s) (plan : List Bool) :
    List.range (fsStoreMaxFiles (withReads plan s)).toNat = List.range fsMaxFiles.toNat := by
  simp [fsStoreMaxFiles, withReads, mapped.mounted, mapped.maxFiles]

theorem fsFindChild_strict (mapped : Mapped s) (parent fileId : UInt16) : Strict (fsFindChild parent fileId) s := by
  have files : List.range (fsStoreMaxFiles s).toNat = List.range fsMaxFiles.toNat :=
    planned_files mapped s.hal.readFaults
  have strict : Strict (scanFor (fun d => d.parent = parent ∧ d.fileId = fileId) (fun e => e = .notFound ∨ e = .corrupt)
    (List.range fsMaxFiles.toNat)) s := scanFor_strict mapped rfl fun _ => slot_lt
  simpa only [Strict, fsFindChild, state_bind, planned_files mapped, files] using strict

theorem fsFindChild_first_fails (mapped : Mapped s) (parent fileId : UInt16) (rest : List Bool) :
    fsFindChild parent fileId (withReads (true :: rest) s) = (.error .nvm, withReads rest s) := by
  obtain ⟨slots, first⟩ : ∃ slots, List.range fsMaxFiles.toNat = 0 :: slots := ⟨_, rfl⟩
  rw [fsFindChild, state_bind, planned_files mapped, first]
  have inside : UInt16.ofNat 0 < fsMaxFiles := by decide
  rw [scanFor, attempt_bind, readDesc_planned mapped _ inside]
  rfl

theorem fsFindBySfi_blind (mapped : Mapped s) {sfi : UInt8} (small : sfi ≤ 30) (named : sfi ≠ fsNoSfi) (df : UInt16)
    (plan : List Bool) :
    fsFindBySfi df sfi (withReads (List.replicate fsMaxFiles.toNat true ++ plan) s) =
      (.error .notFound, withReads plan s) := by
  have legal : ¬ (sfi = fsNoSfi ∨ sfi > 30) := not_or.mpr ⟨named, UInt8.not_lt.mpr small⟩
  rw [fsFindBySfi, state_bind, if_neg legal, planned_files mapped]
  exact scanFor_blind mapped rfl (fun _ => slot_lt) plan

theorem fsChildCount_blind (mapped : Mapped s) (parent : UInt16) (plan : List Bool) :
    fsChildCount parent (withReads (List.replicate fsMaxFiles.toNat true ++ plan) s) = (.ok 0, withReads plan s) := by
  rw [fsChildCount, state_bind, planned_files mapped]
  exact childCountIn_blind mapped (fun _ => slot_lt) parent plan

theorem findFreeSlot_planned (mapped : Mapped s) {plan : List Bool} {slot : UInt16} {s' : Store}
    (found : fsStoreFindFreeSlot (withReads plan s) = (.ok slot, s')) (valid : slot ≠ fsInvalidIndex) :
    slot < fsMaxFiles ∧ rawIsFree (rawSlot s slot) = true := by
  have sb : (withReads plan s).sb = s.sb := rfl
  rw [fsStoreFindFreeSlot, state_bind, sb, mapped.mounted, mapped.maxFiles] at found
  exact findFreeSlotIn_planned mapped (fun _ => slot_lt) found valid

/-- How many entries of the plan were used tells whether one of them was a failure. -/
theorem meetsFault_iff {x : FsM α} {n : Nat} (used : (x (withReads plan s)).2 = withReads (plan.drop n) s) :
    MeetsFault x (withReads plan s) ↔ true ∈ plan.take n := by
  have left : (x (withReads plan s)).2.hal.readFaults = plan.drop n := by rw [used]; rfl
  rw [MeetsFault, left]
  constructor
  · rintro ⟨taken, same, met⟩
    have whole : taken ++ plan.drop n = plan.take n ++ plan.drop n := by
      rw [List.take_append_drop]
      exact same.symm
    rwa [List.append_cancel_right whole] at met
  · exact fun met => ⟨plan.take n, (List.take_append_drop n plan).symm, met⟩

theorem strict_meets {x : FsM α} (strict : Strict x s) (meets : MeetsFault x (withReads plan s)) :
    ∃ rest, x (withReads plan s) = (.error .nvm, withReads rest s) := by
  obtain ⟨n, reads⟩ := strict
  by_cases met : true ∈ plan.take n
  · obtain ⟨m, failed⟩ := (reads plan).2 met
    exact ⟨_, failed⟩
  · exact absurd ((meetsFault_iff (by rw [(reads plan).1 met])).mp meets) met

end Lookups

/-! What the two commands answer. -/

/-- A served DELETE FILE for the two bytes of an identifier. -/
structure Deletion (card : Card) (cmd : Option (List UInt8)) (cap : UInt16) (c : ApduCommand) (data : List UInt8) :
    Prop where
  room : 2 ≤ cap
  operational : card.kernel.lifecycle = .operational
  parsed : apduParse cmd = (.ok, c)
  cla : apduCheckCla c.cla = .ok
  ins : c.ins = insDeleteFile
  plain : c.p1 = 0 ∧ c.p2 = 0
  body : c.data = some data ∧ c.lc = 2

section Answers
variable {card : Card} {cmd : Option (List UInt8)} {cap : UInt16} {c : ApduCommand} {data : List UInt8}
  {req : FsDescriptor}

private theorem process_served (room : 2 ≤ cap) (operational : card.kernel.lifecycle = .operational)
    (parsed : apduParse cmd = (.ok, c)) (cla : apduCheckCla c.cla = .ok) {r : Except Sw Sw} {t : Session}
    (ran : scosDispatch c ⟨card.kernel, card.store, apduRspInit cap⟩ = (r, t)) (quiet : t.rsp = apduRspInit cap) :
    scosProcess cmd cap card = (.ok, [sw1 (endedWith r), sw2 (endedWith r)], ⟨t.kernel, t.store⟩) := by
  rw [scosProcess_dispatch room operational parsed cla ran, quiet, apduRspFinish_empty room]

private theorem creation_dispatch (creation : Creation card cmd cap c data req) :
    scosDispatch c ⟨card.kernel, card.store, apduRspInit cap⟩ =
      (liftFs (fsCreateFile card.kernel.sel req) >>= fun _ => pure swOk) ⟨card.kernel, card.store, apduRspInit cap⟩ := by
  obtain ⟨-, operational, -, -, ins, ⟨p1, p2⟩, ⟨given, filled⟩, template⟩ := creation
  have handler : scosDispatch c = scosCmdCreateFile c := by rw [scosDispatch, commands, ins]; rfl
  rw [handler, scosCmdCreateFile, state_bind]
  simp [operational, p1, p2, given, filled, template]

private theorem deletion_dispatch (deletion : Deletion card cmd cap c data) :
    scosDispatch c ⟨card.kernel, card.store, apduRspInit cap⟩ =
      (liftFs (fsDeleteFile card.kernel.sel (fidOf data)) >>= fun sel =>
        Action.update (fun t => { t with kernel := { t.kernel with sel } }) >>= fun _ => pure swOk)
        ⟨card.kernel, card.store, apduRspInit cap⟩ := by
  obtain ⟨-, operational, -, -, ins, ⟨p1, p2⟩, given, two⟩ := deletion
  have handler : scosDispatch c = scosCmdDeleteFile c := by rw [scosDispatch, commands, ins]; rfl
  rw [handler, scosCmdDeleteFile, state_bind]
  simp [operational, p1, p2, given, two]

theorem creation_refused (creation : Creation card cmd cap c data req) {e : FsError} {s' : Store}
    (failed : fsCreateFile card.kernel.sel req card.store = (.error e, s')) :
    scosProcess cmd cap card = (.ok, [sw1 (fsErrorToSw e), sw2 (fsErrorToSw e)], ⟨card.kernel, s'⟩) := by
  have lifted : liftFs (fsCreateFile card.kernel.sel req) ⟨card.kernel, card.store, apduRspInit cap⟩ =
    (.error (fsErrorToSw e), ⟨card.kernel, s', apduRspInit cap⟩) := liftFs_error failed
  have ran := (creation_dispatch creation).trans (bind_error lifted)
  have answer := process_served creation.room creation.operational creation.parsed creation.cla ran rfl
  exact answer

theorem creation_done (creation : Creation card cmd cap c data req) {slot : UInt16} {s' : Store}
    (created : fsCreateFile card.kernel.sel req card.store = (.ok slot, s')) :
    scosProcess cmd cap card = (.ok, [sw1 swOk, sw2 swOk], ⟨card.kernel, s'⟩) := by
  have lifted : liftFs (fsCreateFile card.kernel.sel req) ⟨card.kernel, card.store, apduRspInit cap⟩ =
    (.ok slot, ⟨card.kernel, s', apduRspInit cap⟩) := liftFs_ok created
  have ran := (creation_dispatch creation).trans (bind_ok lifted)
  have answer := process_served creation.room creation.operational creation.parsed creation.cla ran rfl
  exact answer

theorem deletion_refused (deletion : Deletion card cmd cap c data) {e : FsError} {s' : Store}
    (failed : fsDeleteFile card.kernel.sel (fidOf data) card.store = (.error e, s')) :
    scosProcess cmd cap card = (.ok, [sw1 (fsErrorToSw e), sw2 (fsErrorToSw e)], ⟨card.kernel, s'⟩) := by
  have lifted : liftFs (fsDeleteFile card.kernel.sel (fidOf data)) ⟨card.kernel, card.store, apduRspInit cap⟩ =
    (.error (fsErrorToSw e), ⟨card.kernel, s', apduRspInit cap⟩) := liftFs_error failed
  have ran := (deletion_dispatch deletion).trans (bind_error lifted)
  have answer := process_served deletion.room deletion.operational deletion.parsed deletion.cla ran rfl
  exact answer

theorem deletion_done (deletion : Deletion card cmd cap c data) {sel : FsSelection} {s' : Store}
    (deleted : fsDeleteFile card.kernel.sel (fidOf data) card.store = (.ok sel, s')) :
    scosProcess cmd cap card = (.ok, [sw1 swOk, sw2 swOk], ⟨{ card.kernel with sel }, s'⟩) := by
  have lifted : liftFs (fsDeleteFile card.kernel.sel (fidOf data)) ⟨card.kernel, card.store, apduRspInit cap⟩ =
    (.ok sel, ⟨card.kernel, s', apduRspInit cap⟩) := liftFs_ok deleted
  have ran := (deletion_dispatch deletion).trans (bind_ok lifted)
  have answer := process_served deletion.room deletion.operational deletion.parsed deletion.cla ran rfl
  exact answer

end Answers

/-! Failing closed. -/

/-- The checks of a creation have come to the search for the identifier. -/
structure Searching (sel : FsSelection) (req : FsDescriptor) (s s₁ : Store) : Prop where
  parent : ∃ d, fsStoreReadDesc sel.curDf s = (.ok d, s₁) ∧ fsIsDf d = true ∧ fsIsUsable d = true
  unreserved : fidIsReserved req.fileId = false
  requestable : Requestable req

/-- A read fails in one of the scans that the command makes of the table. -/
inductive ScanFails (card : Card) (cmd : Option (List UInt8)) (cap : UInt16) : Prop
  | id {c : ApduCommand} {data : List UInt8} {req : FsDescriptor} {s₁ : Store}
      (creation : Creation card cmd cap c data req) (searching : Searching card.kernel.sel req card.store s₁)
      (fails : MeetsFault (fsFindChild card.kernel.sel.curDf req.fileId) s₁)
  | sfi {c : ApduCommand} {data : List UInt8} {req : FsDescriptor} {e : FsError} {s₁ s₂ : Store}
      (creation : Creation card cmd cap c data req) (searching : Searching card.kernel.sel req card.store s₁)
      (missing : fsFindChild card.kernel.sel.curDf req.fileId s₁ = (.error e, s₂)) (named : req.sfi ≠ fsNoSfi)
      (fails : MeetsFault (fsFindBySfi card.kernel.sel.curDf req.sfi) s₂)
  | target {c : ApduCommand} {data : List UInt8} (deletion : Deletion card cmd cap c data) (notMf : fidOf data ≠ fsFidMf)
      (fails : MeetsFault (fsFindChild card.kernel.sel.curDf (fidOf data)) card.store)
  | children {c : ApduCommand} {data : List UInt8} {i : UInt16} {d : FsDescriptor} {s₁ s₂ : Store}
      (deletion : Deletion card cmd cap c data) (notMf : fidOf data ≠ fsFidMf)
      (found : fsFindChild card.kernel.sel.curDf (fidOf data) card.store = (.ok i, s₁))
      (read : fsStoreReadDesc i s₁ = (.ok d, s₂)) (isDf : d.type = .df) (fails : MeetsFault (fsChildCount i) s₂)

/-- After a failing read the command refuses and both memories are as they were. -/
def FailsClosed (card : Card) (cmd : Option (List UInt8)) (cap : UInt16) : Prop :=
  ScanFails card cmd cap → ∃ sw card', Refusal sw ∧ scosProcess cmd cap card = (.ok, [sw1 sw, sw2 sw], card') ∧
    card'.store.hal.nvm = card.store.hal.nvm

/-- The command creates a file unless a scan objects, or it deletes a DF of the current one. -/
def Exposed (card : Card) (cmd : Option (List UInt8)) (cap : UInt16) : Prop :=
  (∃ c data req, Creation card cmd cap c data req ∧ fidIsReserved req.fileId = false ∧ (∃ i, FreeSlot card.store i) ∧
      (req.type = .efTransparent →
        card.store.sb.dataTop.toNat + req.size.toNat ≤ card.store.hal.nvm.flash.size.toNat)) ∨
    ∃ c data i d, Deletion card cmd cap c data ∧ fileAt card.store i = some d ∧ d.parent = card.kernel.sel.curDf ∧
      d.fileId = fidOf data ∧ d.type = .df

section Creating
variable {s s' : Store} {t : FileTree} {sel : FsSelection} {req d : FsDescriptor} {plan : List Bool} {slot : UInt16}

theorem peeked_planned (fits : Fits s) (peeked : Peeked (withReads plan s) s') : ∃ rest, s' = withReads rest s := by
  obtain ⟨rest, -, same⟩ := peeked fits
  exact ⟨rest, same⟩

private theorem placeFile_done (mapped : Mapped s) (reliable : s.hal.writeFaults = []) (bound : slot < fsMaxFiles)
    (file : d.type ≠ .free) (roomy : ¬ Full s d) : ∃ s', placeFile slot d s = (.ok (), s') := by
  have below : slot < s.sb.maxFiles := mapped.maxFiles ▸ bound
  have inside := placeChange_inside (d := d) (mapped_fits mapped) mapped.mounted below
  have done := carried_out inside reliable
  rw [placeFile_concludes mapped.mounted below file roomy]
  rcases ran : perform (placeChange slot d s).requests { s with sb := (placeChange slot d s).mirror s.sb } with ⟨r, s'⟩
  rw [ran] at done
  cases done
  exact ⟨s', conclude_ok _ ran⟩

/-- A creation whose reads may fail is refused with nothing changed, or all but the
two scans allowed it. -/
theorem fsCreateFile_planned (ready : Ready s t) (sel : FsSelection) (req : FsDescriptor) (plan : List Bool) :
    (∃ e rest, fsCreateFile sel req (withReads plan s) = (.error e, withReads rest s)) ∨
      (fidIsReserved req.fileId = false ∧ (∃ i, FreeSlot s i) ∧ ¬ Full s (newDescriptor sel req)) := by
  have fits := mapped_fits ready.mapped
  have peeks := createChecks_peeks sel req (withReads plan s)
  rcases checked : createChecks sel req (withReads plan s) with ⟨e | slot, s₁⟩
  · obtain ⟨rest, rfl⟩ := peeked_planned fits (peeks.peeked checked)
    exact .inl ⟨e, rest, bind_error checked⟩
  · obtain ⟨rest, rfl⟩ := peeked_planned fits (peeks.peeked checked)
    by_cases full : Full s (newDescriptor sel req)
    · exact .inl ⟨.noSpace, rest, (bind_ok checked).trans (bind_error (placeFile_full ready.mounted full))⟩
    · obtain ⟨read, -, -, unreserved, -, -, missing, untaken, found, valid⟩ := createChecks_iff.mp checked
      obtain ⟨rest₁, rfl⟩ := peeked_planned fits ((readDesc_peeks _ _).peeked read)
      obtain ⟨rest₂, rfl⟩ := peeked_planned fits ((findChild_peeks _ _ _).peeked missing)
      obtain ⟨rest₃, rfl⟩ := peeked_planned fits ((sfiTaken_peeks _ _ _).peeked untaken)
      obtain ⟨bound, free⟩ := findFreeSlot_planned ready.mapped found valid
      have slotFree : FreeSlot s slot := by rw [FreeSlot, slotIsFree_mapped ready.mapped bound, free]
      exact .inr ⟨unreserved, ⟨slot, slotFree⟩, full⟩

/-- The reads that hide the identifier, and the short identifier if there is one. -/
def hidingPlan (sfi : UInt8) : List Bool :=
  false :: true :: if sfi = fsNoSfi then [] else List.replicate fsMaxFiles.toNat true

private theorem sfiTaken_hidden (mapped : Mapped s) (df : UInt16) {sfi : UInt8} (small : sfi ≤ 30) :
    sfiTaken df sfi (withReads (if sfi = fsNoSfi then [] else List.replicate fsMaxFiles.toNat true) s) =
      (.ok false, s) := by
  unfold sfiTaken
  by_cases none : sfi = fsNoSfi
  · rw [if_pos none, if_pos none, withReads_none mapped]
    rfl
  · have blind := fsFindBySfi_blind mapped small none df []
    rw [List.append_nil, withReads_none mapped] at blind
    rw [if_neg none, if_neg none, attempt_bind, blind]
    rfl

/-- A creation that only the scans could refuse goes through when their reads fail. -/
theorem fsCreateFile_exposed (ready : Ready s t) (df : DfSelected t sel) (reliable : s.hal.writeFaults = [])
    (requestable : Requestable req) (unreserved : fidIsReserved req.fileId = false) (free : ∃ i, FreeSlot s i)
    (roomy : ¬ Full s (newDescriptor sel req)) :
    (∃ s₁, Searching sel req (withReads (hidingPlan req.sfi) s) s₁ ∧
        MeetsFault (fsFindChild sel.curDf req.fileId) s₁) ∧
      ∃ slot s', fsCreateFile sel req (withReads (hidingPlan req.sfi) s) = (.ok slot, s') := by
  obtain ⟨parent, live, isDf, usable⟩ := df
  have mapped := ready.mapped
  have inside := t.bounded _ _ live
  have read : fsStoreReadDesc sel.curDf (withReads (hidingPlan req.sfi) s) =
      (.ok parent, withReads (hidingPlan req.sfi).tail s) := by
    rw [readDesc_planned mapped _ inside, readDesc_live ready live]
    rfl
  have missing := fsFindChild_first_fails mapped sel.curDf req.fileId
    (if req.sfi = fsNoSfi then [] else List.replicate fsMaxFiles.toNat true)
  have untaken := sfiTaken_hidden mapped sel.curDf (request_ok requestable.1).2
  obtain ⟨slot, found, unused, full⟩ := fsStoreFindFreeSlot_spec ready
  have valid : slot ≠ fsInvalidIndex := by
    intro invalid
    obtain ⟨i, free⟩ := free
    obtain ⟨bound, empty⟩ := (freeSlot_iff ready).mp free
    exact full invalid i bound empty
  have passed := createChecks_iff.mpr
    (.intro read isDf usable unreserved requestable.1 requestable.2 missing untaken found valid)
  have file : (newDescriptor sel req).type ≠ .free := by
    rcases (request_ok requestable.1).1 with ⟨isDf, -⟩ | ⟨isEf, -⟩
    · simp [newDescriptor, FsDescriptor.zeroed, isDf]
    · simp [newDescriptor, FsDescriptor.zeroed, isEf]
  obtain ⟨s', placed⟩ := placeFile_done mapped reliable (unused valid).1 file roomy
  refine ⟨⟨_, ⟨⟨parent, read, isDf, usable⟩, unreserved, requestable⟩, ?_⟩, slot, s', ?_⟩
  · exact (meetsFault_iff (n := 1) (congrArg Prod.snd missing)).mpr List.mem_cons_self
  · exact (bind_ok passed).trans (bind_ok placed)

end Creating

section Deleting
variable {s s' : Store} {t : FileTree} {sel : FsSelection} {d : FsDescriptor} {plan : List Bool} {i : UInt16}

/-- What the search finds under failing reads is what the table has. -/
theorem fsFindChild_planned (ready : Ready s t) {parent fileId : UInt16}
    (found : fsFindChild parent fileId (withReads plan s) = (.ok i, s')) :
    (∃ d, t.table i = some d ∧ d.parent = parent ∧ d.fileId = fileId) ∧ ∃ rest, s' = withReads rest s := by
  obtain ⟨n, reads⟩ := fsFindChild_strict ready.mapped parent fileId
  by_cases met : true ∈ plan.take n
  · obtain ⟨m, failed⟩ := (reads plan).2 met
    cases found.symm.trans failed
  · have same := (reads plan).1 met
    rw [found, Prod.mk.injEq] at same
    refine ⟨?_, _, same.2⟩
    rcases fsFindChild_cases ready parent fileId with ⟨j, d, there, live, child, named⟩ | ⟨missing, -⟩
    · rw [there] at same
      cases same.1
      exact ⟨d, live, child, named⟩
    · rw [missing] at same
      cases same.1

theorem fsDeleteFile_unfound {fileId : UInt16} (notMf : fileId ≠ fsFidMf) {e : FsError}
    (failed : fsFindChild sel.curDf fileId s = (.error e, s')) : fsDeleteFile sel fileId s = (.error e, s') := by
  have refused : deleteChecks sel fileId s = (.error e, s') := by
    rw [deleteChecks, if_neg notMf, bind_error failed]
  exact bind_error refused

/-- A DF is deleted when the reads that would count its children fail. -/
theorem fsDeleteFile_exposed (ready : Ready s t) (reliable : s.hal.writeFaults = []) (live : t.table i = some d)
    (child : d.parent = sel.curDf) (isDf : d.type = .df) (notMf : d.fileId ≠ fsFidMf) : ∃ plan s₁ s₂,
      fsFindChild sel.curDf d.fileId (withReads plan s) = (.ok i, s₁) ∧ fsStoreReadDesc i s₁ = (.ok d, s₂) ∧
        MeetsFault (fsChildCount i) s₂ ∧ ∃ sel' s', fsDeleteFile sel d.fileId (withReads plan s) = (.ok sel', s') := by
  have mapped := ready.mapped
  have bound := t.bounded i d live
  obtain ⟨n, reads⟩ := fsFindChild_strict mapped sel.curDf d.fileId
  -- the search and the read of the DF go well; every read of the count fails
  have found := (reads (List.replicate n false ++ false :: List.replicate fsMaxFiles.toNat true)).1 (by simp)
  rw [fsFindChild_child ready ⟨d, live, child, rfl⟩, List.drop_left' (by simp)] at found
  have read : fsStoreReadDesc i (withReads (false :: List.replicate fsMaxFiles.toNat true) s) =
      (.ok d, withReads (List.replicate fsMaxFiles.toNat true) s) := by
    rw [readDesc_planned mapped _ bound, readDesc_live ready live]
    rfl
  have counted := fsChildCount_blind mapped i []
  rw [List.append_nil, withReads_none mapped] at counted
  have childless : hasChildren i d (withReads (List.replicate fsMaxFiles.toNat true) s) = (.ok false, s) := by
    rw [hasChildren, if_neg (by simp [fsIsDf, isDf]), bind_ok counted]
    rfl
  have passed : deleteChecks sel d.fileId
      (withReads (List.replicate n false ++ false :: List.replicate fsMaxFiles.toNat true) s) = (.ok i, s) := by
    rw [deleteChecks, if_neg notMf, bind_ok found, bind_ok read, if_neg (by simp [isDf]), bind_ok childless]
    rfl
  refine ⟨_, _, _, found, read, ?_, deselect sel i, ?_⟩
  · refine (meetsFault_iff (n := fsMaxFiles.toNat) ?_).mpr ?_
    · rw [counted, List.drop_of_length_le (by simp), withReads_none mapped]
    · rw [List.take_of_length_le (by simp)]
      exact List.mem_replicate.mpr ⟨by decide, rfl⟩
  · rcases freed : fsStoreFreeDesc i s with ⟨r, s'⟩
    obtain ⟨-, -, -, done⟩ := writeSlot_mounted ready bound (by simp) ((freeDesc_eq ready bound).symm.trans freed)
    obtain ⟨rfl, -⟩ := done reliable
    exact ⟨s', (bind_ok passed).trans (bind_ok freed)⟩

end Deleting

section Commands
variable {card : Card} {t : FileTree} {cmd : Option (List UInt8)} {cap : UInt16} {c : ApduCommand} {data : List UInt8}
  {req : FsDescriptor} {plan : List Bool}

private theorem creation_reading (plan : List Bool) :
    Creation (reading plan card) cmd cap c data req ↔ Creation card cmd cap c data req :=
  ⟨fun h => ⟨h.1, h.2, h.3, h.4, h.5, h.6, h.7, h.8⟩, fun h => ⟨h.1, h.2, h.3, h.4, h.5, h.6, h.7, h.8⟩⟩

private theorem deletion_reading (plan : List Bool) :
    Deletion (reading plan card) cmd cap c data ↔ Deletion card cmd cap c data :=
  ⟨fun h => ⟨h.1, h.2, h.3, h.4, h.5, h.6, h.7⟩, fun h => ⟨h.1, h.2, h.3, h.4, h.5, h.6, h.7⟩⟩

private theorem creation_closed (live : Live t card) (creation : Creation card cmd cap c data req)
    (unexposed : ¬ Exposed card cmd cap) : ∃ sw card', Refusal sw ∧
      scosProcess cmd cap (reading plan card) = (.ok, [sw1 sw, sw2 sw], card') ∧
        card'.store.hal.nvm = card.store.hal.nvm := by
  rcases fsCreateFile_planned live.ready card.kernel.sel req plan with
    ⟨e, rest, failed⟩ | ⟨unreserved, free, roomy⟩
  · exact ⟨_, _, fsErrorToSw_refusal e, creation_refused ((creation_reading plan).mpr creation) failed, rfl⟩
  · refine absurd (.inl ⟨c, data, req, creation, unreserved, free, fun isEf => ?_⟩) unexposed
    exact Nat.not_lt.mp fun full => roomy ⟨isEf, full⟩

/-- A command that is not exposed fails closed whatever reads fail. -/
theorem unexposed_closed (live : Live t card) (unexposed : ¬ Exposed card cmd cap) (plan : List Bool) :
    FailsClosed (reading plan card) cmd cap := by
  intro fails
  cases fails with
  | id creation => exact creation_closed live ((creation_reading plan).mp creation) unexposed
  | sfi creation => exact creation_closed live ((creation_reading plan).mp creation) unexposed
  | target deletion notMf fails =>
    obtain ⟨rest, failed⟩ := strict_meets (fsFindChild_strict live.ready.mapped _ _) fails
    exact ⟨_, _, fsErrorToSw_refusal .nvm, deletion_refused deletion (fsDeleteFile_unfound notMf failed), rfl⟩
  | @children c data i d _ _ deletion _ found read isDf =>
    obtain ⟨⟨e, there, child, named⟩, rest, rfl⟩ := fsFindChild_planned live.ready found
    rw [readDesc_planned live.ready.mapped rest (t.bounded _ _ there), readDesc_live live.ready there] at read
    have same : e = d := by
      split at read
      · cases read
      · exact Except.ok.inj (congrArg Prod.fst read)
    subst same
    rw [← fileAt_ready live.ready] at there
    exact absurd (.inr ⟨c, data, i, e, (deletion_reading plan).mp deletion, there, child, named, isDf⟩) unexposed

/-- An exposed command goes through when the right reads fail. -/
theorem exposed_open (live : Live t card) (reliable : Reliable card) (exposed : Exposed card cmd cap) :
    ∃ plan, ¬ FailsClosed (reading plan card) cmd cap := by
  have done_open : ∀ {plan card'}, ScanFails (reading plan card) cmd cap →
      scosProcess cmd cap (reading plan card) = (.ok, [sw1 swOk, sw2 swOk], card') →
        ¬ FailsClosed (reading plan card) cmd cap := by
    intro plan card' fails done closed
    obtain ⟨sw, _, refusal, answered, -⟩ := closed fails
    rw [done, Prod.mk.injEq, Prod.mk.injEq] at answered
    exact refusal_ne_ok refusal (answer_inj [] [] answered.2.1).2.symm
  rcases exposed with ⟨c, data, req, creation, unreserved, free, roomy⟩ |
    ⟨c, data, i, d, deletion, there, child, named, isDf⟩
  · have room : ¬ Full card.store (newDescriptor card.kernel.sel req) :=
      fun full => Nat.not_le.mpr full.2 (roomy full.1)
    obtain ⟨⟨s₁, searching, fails⟩, slot, s', created⟩ :=
      fsCreateFile_exposed live.ready live.df reliable (creation_requestable creation) unreserved free room
    have same := (creation_reading (hidingPlan req.sfi)).mpr creation
    exact ⟨_, done_open (.id same searching fails) (creation_done same created)⟩
  · rw [fileAt_ready live.ready] at there
    have notMf : d.fileId ≠ fsFidMf := fileId_ne_mf there (ne_root there (by simp [isDf]))
    obtain ⟨plan, s₁, s₂, found, read, fails, sel', s', deleted⟩ :=
      fsDeleteFile_exposed live.ready reliable there child isDf notMf
    rw [named] at found deleted notMf
    have same := (deletion_reading plan).mpr deletion
    exact ⟨plan, done_open (.children same notMf found read isDf fails) (deletion_done same deleted)⟩

end Commands

/-- CREATE FILE and DELETE FILE refuse and change nothing when a read fails in a scan of
the table, whichever reads fail, exactly for the commands that are not exposed. -/
theorem structural_commands_fail_closed_iff {eepromSize flashSize : UInt32} {booted : Card}
    (boots : scosInit (blankCard eepromSize flashSize) = (.ok, booted)) (events : List LifeEvent)
    (cmd : Option (List UInt8)) (cap : UInt16) :
    let card := life booted events
    (∀ plan, FailsClosed (reading plan card) cmd cap) ↔ ¬ Exposed card cmd cap := by
  intro card
  obtain ⟨t, live, reliable, -⟩ := booted_serving boots events
  refine ⟨fun closed exposed => ?_, fun unexposed plan => unexposed_closed live unexposed plan⟩
  obtain ⟨plan, opened⟩ := exposed_open live reliable exposed
  exact opened (closed plan)

/-- The FLASH of the smallest chip is full: an EF is not created there, and its failing reads do no harm. -/
theorem structural_commands_fail_closed_full_chip : ∃ booted, scosInit (blankCard 656 112) = (.ok, booted) ∧ ∀ plan,
    FailsClosed (reading plan booted)
      (some [0x00, 0xE0, 0x00, 0x00, 0x0B, 0x82, 0x01, 0x01, 0x83, 0x02, 0x2F, 0x00, 0x80, 0x02, 0x00, 0x01]) 258 := by
  obtain ⟨booted, boots⟩ := small_chip_boots
  refine ⟨booted, boots, (structural_commands_fail_closed_iff boots [] _ _).mpr ?_⟩
  have full : (scosInit (blankCard 656 112)).2.store.sb.dataTop = 112 ∧
    (scosInit (blankCard 656 112)).2.store.hal.nvm.flash.size = 112 := by decide +kernel
  rw [boots] at full
  have parses : apduParse
      (some [0x00, 0xE0, 0x00, 0x00, 0x0B, 0x82, 0x01, 0x01, 0x83, 0x02, 0x2F, 0x00, 0x80, 0x02, 0x00, 0x01]) =
    (.ok, ⟨0x00, 0xE0, 0x00, 0x00, some [0x82, 0x01, 0x01, 0x83, 0x02, 0x2F, 0x00, 0x80, 0x02, 0x00, 0x01], 11, 0,
      false, some .case3⟩) := by decide +kernel
  have ef : (parseFcp [0x82, 0x01, 0x01, 0x83, 0x02, 0x2F, 0x00, 0x80, 0x02, 0x00, 0x01] 11).toOption.map
    (fun req => (req.type, req.size)) = some (.efTransparent, 1) := by decide +kernel
  rintro (⟨c, data, req, creation, -, -, roomy⟩ | ⟨c, data, i, d, deletion, -⟩)
  · have parsed := parses.symm.trans creation.parsed
    have body := creation.body.1
    have template := creation.template
    cases parsed
    cases body
    rw [template] at ef
    obtain ⟨isEf, one⟩ : req.type = .efTransparent ∧ req.size = 1 := by simpa [Except.toOption] using ef
    have room := roomy isEf
    have more : (life booted []).store = booted.store := rfl
    rw [more, full.1, full.2, one] at room
    exact absurd room (by decide)
  · have parsed := parses.symm.trans deletion.parsed
    have ins := deletion.ins
    cases parsed
    cases ins

/-- CREATE FILE for an EF 2F00 that exists, and for an EF of a short identifier that is
taken; DELETE FILE for the DF 7F10 with its two EFs. -/
theorem failing_reads_break_the_tree :
    let card := (scosInit (blankCard 656 256)).2
    let sameId := scosProcess (some [0x00, 0xE0, 0x00, 0x00, 0x0B, 0x82, 0x01, 0x01, 0x83, 0x02, 0x2F, 0x00, 0x80, 0x02,
      0x00, 0x01]) 258 (reading [false, true] card)
    let sameSfi := scosProcess (some [0x00, 0xE0, 0x00, 0x00, 0x0E, 0x82, 0x01, 0x01, 0x83, 0x02, 0x2F, 0x01, 0x80, 0x02,
      0x00, 0x01, 0x88, 0x01, 0x08]) 258 (reading (List.replicate 34 false ++ [true]) card)
    let orphans := scosProcess (some [0x00, 0xE4, 0x00, 0x00, 0x02, 0x7F, 0x10]) 258
      (reading (List.replicate 4 false ++ List.replicate 32 true) card)
    let file := fun (card : Card) i => (fileAt card.store i).map fun d => (d.parent, d.fileId, d.sfi)
    let used := fun (card : Card) => card.store.hal.readFaults = []
    (scosInit (blankCard 656 256)).1 = .ok ∧ used sameId.2.2 ∧ used sameSfi.2.2 ∧ used orphans.2.2 ∧
      sameId.2.1 = [0x90, 0x00] ∧ file sameId.2.2 1 = some (0, 0x2F00, 1) ∧ file sameId.2.2 5 = some (0, 0x2F00, 0) ∧
      sameSfi.2.1 = [0x90, 0x00] ∧ file sameSfi.2.2 1 = some (0, 0x2F00, 1) ∧ file sameSfi.2.2 5 = some (0, 0x2F01, 1) ∧
      orphans.2.1 = [0x90, 0x00] ∧ file orphans.2.2 2 = none ∧ file orphans.2.2 3 = some (2, 0x6F01, 1) := by
  decide +kernel

end CardOs.ReadFaultProofs
