import CardOs.FcpProofs
import CardOs.VolumeProofs

/-! The card is the file service. Whatever it is sent, from the factory on and over any
number of resets and power cycles, it answers byte for byte as a volume of files under
paths with a cursor on it does. -/
namespace CardOs.ServiceProofs
open CardOs.Library CardOs.Library.Action CardOs.Library.BigEndian CardOs.Apdu CardOs.FsTypes CardOs.HalNvm
open CardOs.FsStore CardOs.FsStoreProofs CardOs.Fs CardOs.FileTree CardOs.FsProofs CardOs.FsChangeProofs
open CardOs.SelectionProofs CardOs.FileCommands CardOs.Kernel CardOs.AnswerProofs CardOs.CommandProofs
open CardOs.CardProofs CardOs.VolumeProofs CardOs.FileService CardOs.CrashProofs CardOs.SpaceProofs
open CardOs.BinaryProofs CardOs.ResidueProofs CardOs.CardSafety
open CardOs.StorageProofs (data_position)
open CardOs.FsInitProofs (mirrorOf mounted_mirrorOf Unformatted fsInit_unformatted)
open CardOs.RetryProofs (recovered unformatted_nvm)
open CardOs.Transactions CardOs.StoreChanges

/-- A store and a selection on it are where the service is. -/
structure Stands (t : FileTree) (place : UInt16 → Path) (store : Store) (sel : FsSelection) (s : Service) : Prop where
  ready : Ready store t
  reliable : store.hal.writeFaults = []
  represents : Represents t store place s.volume
  points : Points t place sel s.cursor

/-- A handler has answered as the service does, and is where the service is then. -/
def Agrees (cap : UInt16) (s : Service) (ran : Except Sw Sw × Session) (out : Reply × Service) : Prop :=
  apduRspFinish ran.2.rsp (endedWith ran.1) = (s.fitted cap out).1 ∧
    ∃ t place, Stands t place ran.2.store ran.2.kernel.sel (s.fitted cap out).2

section Answers
variable {t : FileTree} {place : UInt16 → Path} {cap : UInt16} {c : Session} {s s' : Service} {sw : Sw}
  {data : List UInt8} {r : Except Sw Sw}

theorem agrees_sent (stands : Stands t place c.store c.kernel.sel s') (rsp : c.rsp = ⟨cap, data, false⟩)
    (ended : endedWith r = sw) (fits : data.length + 2 ≤ cap.toNat) : Agrees cap s (r, c) (⟨data, sw⟩, s') := by
  have enough : ¬ cap < 2 := UInt16.not_lt.mpr (UInt16.le_iff_toNat_le.mpr (Nat.le_trans (Nat.le_add_left 2 _) fits))
  have fitted : s.fitted cap (⟨data, sw⟩, s') = (data ++ [sw1 sw, sw2 sw], s') := if_pos fits
  unfold Agrees
  rw [fitted, ended]
  refine ⟨?_, t, place, stands⟩
  rw [apduRspFinish, rsp, if_neg enough]
  rfl

/-- Nothing that was asked for has happened when its answer does not fit. -/
theorem agrees_full (room : 2 ≤ cap) (stands : Stands t place c.store c.kernel.sel s) {kept : List UInt8}
    (rsp : c.rsp = ⟨cap, kept, true⟩) (full : ¬ data.length + 2 ≤ cap.toNat) : Agrees cap s (r, c) (⟨data, sw⟩, s') := by
  have fitted : s.fitted cap (⟨data, sw⟩, s') = ([0x6F, 0x00], s) := if_neg full
  unfold Agrees
  rw [fitted]
  refine ⟨?_, t, place, stands⟩
  rw [apduRspFinish, rsp, if_neg (UInt16.not_lt.mpr room)]
  rfl

theorem agrees_refused (room : 2 ≤ cap) (stands : Stands t place c.store c.kernel.sel s) (rsp : c.rsp = apduRspInit cap)
    (ended : endedWith r = sw) : Agrees cap s (r, c) (s.refused sw) :=
  agrees_sent stands rsp ended (UInt16.le_iff_toNat_le.mp room)

theorem agrees_done (room : 2 ≤ cap) (stands : Stands t place c.store c.kernel.sel s') (rsp : c.rsp = apduRspInit cap) :
    Agrees cap s (.ok swOk, c) (⟨[], swOk⟩, s') :=
  agrees_sent stands rsp rfl (UInt16.le_iff_toNat_le.mp room)

end Answers

/-- Appends these bytes to a response, or stops when there is no room for all of them. -/
def Sends (x : CmdM Unit) (bytes : List UInt8) : Prop :=
  ∀ c cap sent, c.rsp = ⟨cap, sent, false⟩ → sent.length + 2 ≤ cap.toNat →
    (sent.length + bytes.length + 2 ≤ cap.toNat ∧ x c = (.ok (), { c with rsp := ⟨cap, sent ++ bytes, false⟩ })) ∨
      (¬ sent.length + bytes.length + 2 ≤ cap.toNat ∧
        ∃ kept, x c = (.error swNoPreciseDiagnosis, { c with rsp := ⟨cap, kept, true⟩ }))

section Sending
variable {x y : CmdM Unit} {a b : List UInt8}

theorem sends_put (src : List UInt8) : Sends (put src) src := by
  intro c cap sent rsp room
  have eq := apduRspPut_eq (a := ⟨cap, sent, false⟩) room src
  by_cases fits : sent.length + src.length + 2 ≤ cap.toNat
  · refine .inl ⟨fits, ?_⟩
    rw [put, rsp, eq, if_pos fits]
  · refine .inr ⟨fits, sent, ?_⟩
    rw [put, rsp, eq, if_neg fits]

theorem sends_bind (first : Sends x a) (second : Sends y b) : Sends (x >>= fun _ => y) (a ++ b) := by
  intro c cap sent rsp room
  rw [List.length_append, ← Nat.add_assoc]
  rcases first c cap sent rsp room with ⟨fits, ran⟩ | ⟨full, kept, ran⟩
  · rw [bind_ok ran, ← List.append_assoc]
    have more := second { c with rsp := ⟨cap, sent ++ a, false⟩ } cap (sent ++ a) rfl (by rwa [List.length_append])
    rwa [List.length_append] at more
  · exact .inr ⟨by omega, kept, bind_error ran⟩

end Sending

/-- What the parser says of the two variable parts of a command. -/
structure Fields (cmd : ApduCommand) : Prop where
  data : (cmd.data = none ∧ cmd.lc = 0) ∨ ∃ data, cmd.data = some data ∧ data.length = cmd.lc.toNat ∧ data ≠ []
  le : cmd.le ≤ apduShortLeMax

theorem parsed_fields {cmd : Option (List UInt8)} {c : ApduCommand} (parsed : apduParse cmd = (.ok, c)) : Fields c := by
  cases cmd with
  | none => cases parsed
  | some bytes =>
    obtain ⟨⟨cla, ins, p1, p2, body⟩, -, rfl⟩ := ApduProofs.apduParse_inv parsed
    have length (field : ShortApdu.DataField) : field.bytes.length = (UInt16.ofNat field.bytes.length).toNat :=
      (UInt16.toNat_ofNat_of_lt' (Nat.lt_of_le_of_lt field.short (by decide))).symm
    have small (le : ShortApdu.Expected) : UInt16.ofNat le.amount ≤ apduShortLeMax := by
      rw [UInt16.le_iff_toNat_le, UInt16.toNat_ofNat_of_lt' (Nat.lt_of_le_of_lt le.short (by decide))]
      exact le.short
    cases body with
    | case1 => exact ⟨.inl ⟨rfl, rfl⟩, UInt16.zero_le⟩
    | case2 le => exact ⟨.inl ⟨rfl, rfl⟩, small le⟩
    | case3 field => exact ⟨.inr ⟨field.bytes, rfl, length field, field.nonempty⟩, UInt16.zero_le⟩
    | case4 field le => exact ⟨.inr ⟨field.bytes, rfl, length field, field.nonempty⟩, small le⟩

section Select
variable {t : FileTree} {place : UInt16 → Path} {cap : UInt16} {c : Session} {s : Service} {cmd : ApduCommand}

theorem liftFs_reflects {α β : Type} {x : FsM α} {R : α → β → Prop} {y : Except FsError β}
    (reflects : Reflects x c.store R y) : Reflects (liftFs x) c R (y.mapError fsErrorToSw) := by
  rcases reflects_cases reflects with ⟨e, ran, rfl⟩ | ⟨a, b, ran, rfl, related⟩
  · exact reflects_error (liftFs_error ran)
  · exact reflects_ok (liftFs_ok ran) related

theorem byPath_reflects (stands : Stands t place c.store c.kernel.sel s) {data : List UInt8} (nonempty : data ≠ [])
    (even : data.length % 2 = 0) (fromMf : Bool) :
    Reflects (liftFs (fsSelectByPath c.kernel.sel data fromMf)) c (Points t place)
      ((if data.length / 2 > fsMaxDepth then .error swIncorrectP1P2 else .ok (Choice.byPath (pathIds data) fromMf)) >>=
        fun choice => (s.volume.choose s.cursor choice).mapError fsErrorToSw) := by
  have whole : ¬ (data.length = 0 ∨ data.length % 2 ≠ 0) := by simp [nonempty, even]
  rw [fsSelectByPath, if_neg whole]
  by_cases deep : data.length / 2 > fsMaxDepth
  · rw [if_pos deep, if_pos deep]
    exact reflects_error rfl
  · rw [if_neg deep, if_neg deep]
    refine liftFs_reflects (y := s.volume.walk _ true (pathIds data)) ?_
    cases fromMf with
    | true => exact walk_reflects stands.represents stands.ready (root_points stands.represents) true _
    | false => exact walk_reflects stands.represents stands.ready stands.points true _

/-- SELECT looks for the file that the service looks for. -/
theorem selectTarget_reflects (stands : Stands t place c.store c.kernel.sel s) (fields : Fields cmd) :
    Reflects (selectTarget cmd c.kernel.sel) c (Points t place)
      (choiceOf cmd >>= fun choice => (s.volume.choose s.cursor choice).mapError fsErrorToSw) := by
  have byFid (id : UInt16) := liftFs_reflects (byFid_reflects stands.represents stands.ready stands.points id)
  have child (id : UInt16) (wantDf : Bool) :=
    liftFs_reflects (childTyped_reflects stands.represents stands.ready stands.points id wantDf)
  have parent := liftFs_reflects (parent_reflects stands.represents stands.ready stands.points)
  unfold selectTarget choiceOf
  rcases fields.data with ⟨absent, zero⟩ | ⟨data, field, length, nonempty⟩
  · rw [absent, zero]
    split
    · exact byFid fsFidMf
    split
    · exact reflects_fail
    split
    · exact parent
    split
    · exact reflects_fail
    split
    · exact reflects_fail
    · exact reflects_fail
  · have some : cmd.lc ≠ 0 := by
      intro zero
      rw [zero] at length
      exact nonempty (List.length_eq_zero_iff.mp length)
    rw [field]
    simp only [some, if_false, ne_eq, not_false_eq_true, if_true, Option.getD_some]
    split
    · split
      · exact byFid (fidOf data)
      · exact reflects_fail
    split
    · rename_i first
      by_cases two : cmd.lc = 2
      · rw [if_neg (by simp [two]), if_pos two]
        split
        · rename_i one
          rw [decide_eq_true one]
          exact child (fidOf data) true
        · rename_i other
          rw [decide_eq_false other]
          exact child (fidOf data) false
      · rw [if_pos two, if_neg two]
        exact reflects_fail
    split
    · exact reflects_fail
    split
    · by_cases even : cmd.lc % 2 = 0
      · have even' : data.length % 2 = 0 := by
          rw [length]
          exact congrArg UInt16.toNat even
        rw [if_neg (by simp [even]), if_neg (by simp [even])]
        exact byPath_reflects stands nonempty even' _
      · rw [if_pos even, if_pos even]
        exact reflects_fail
    split
    · exact reflects_fail
    · exact reflects_fail

/-- The selected file is the one under the cursor. -/
theorem selected_path {sel : FsSelection} {cur : Cursor} (represents : Represents t c.store place s.volume)
    (points : Points t place sel cur) :
    ∃ d, t.table (fsSelectedIndex sel) = some d ∧ place (fsSelectedIndex sel) = cur.path := by
  obtain ⟨df, dfLive, -⟩ := points.dfOk
  rcases points.efOk with invalid | ⟨ef, efLive, -, -, parent⟩
  · rw [fsSelectedIndex, if_neg (by simp [invalid]), Cursor.path, points.none invalid]
    exact ⟨df, dfLive, by rw [points.df]; exact (List.append_nil _).symm⟩
  · rw [fsSelectedIndex, if_pos (live_ne_invalid efLive), Cursor.path, points.some ef efLive, points.df]
    exact ⟨ef, efLive, represents.child dfLive ⟨ef, efLive, parent, rfl⟩⟩

theorem nodeOf_template {i : UInt16} {d : FsDescriptor} (live : t.table i = some d) (flash : Region) :
    (nodeOf flash d).template d.fileId = fsBuildFcp d 32 := by
  have small : ¬ (fcpObjects d).flatten.length > 32 := by
    unfold fcpObjects
    split <;> split <;> simp [bytes16]
  have kind : fsIsoDescriptorByte d = if fsIsEf d then 0x01 else 0x38 := by
    rcases df_or_ef live with df | ef
    · rcases mf : d.type <;> simp [fsIsDf, fsIsoDescriptorByte, fsIsEf, mf] at df ⊢
    · have type : d.type = .efTransparent := by simpa [fsIsEf] using ef
      simp [fsIsoDescriptorByte, fsIsEf, type]
  have size : fsIsEf d = true → UInt16.ofNat (nodeOf flash d).body.length = d.size := by
    intro ef
    rw [nodeOf, if_pos ef, Region.read_length, UInt16.ofNat_toNat]
  rw [fsBuildFcp, if_neg small, Node.template, fcpObjects, kind, nodeOf_isEf]
  by_cases ef : fsIsEf d = true
  · rw [if_pos ef, if_pos ef, if_pos ef, size ef]
    rfl
  · rw [if_neg ef, if_neg ef, if_neg ef, if_neg (by simp [ef]), if_neg (by simp [ef])]
    rfl

/-- SELECT describes the file as the service does, or the description does not fit. -/
theorem emitFci_describes (room : 2 ≤ cap) (rsp : c.rsp = apduRspInit cap) (ready : Ready c.store t) {i : UInt16}
    {d : FsDescriptor} (live : t.table i = some d) :
    (∃ sw, (nodeOf c.store.hal.nvm.flash d).describe d.fileId (formOf cmd) = .error sw ∧
        emitFci cmd i (cmd.p2 &&& 0x0C) c = (.error sw, c)) ∨
      ∃ data, (nodeOf c.store.hal.nvm.flash d).describe d.fileId (formOf cmd) = .ok data ∧
        ((data.length + 2 ≤ cap.toNat ∧
          emitFci cmd i (cmd.p2 &&& 0x0C) c = (.ok (), { c with rsp := ⟨cap, data, false⟩ })) ∨
          (¬ data.length + 2 ≤ cap.toNat ∧
            ∃ kept, emitFci cmd i (cmd.p2 &&& 0x0C) c =
              (.error swNoPreciseDiagnosis, { c with rsp := ⟨cap, kept, true⟩ }))) := by
  have enough := UInt16.le_iff_toNat_le.mp room
  have same : { c with rsp := ⟨cap, [], false⟩ } = c := by
    rw [show (⟨cap, [], false⟩ : ApduResponse) = c.rsp from rsp.symm]
  unfold emitFci formOf
  by_cases silent : cmd.p2 &&& 0x0C = selRetNone
  · rw [if_pos silent, if_pos silent]
    exact .inr ⟨[], rfl, .inl ⟨enough, by rw [same]; rfl⟩⟩
  rw [if_neg silent, if_neg silent]
  by_cases management : cmd.p2 &&& 0x0C = selRetFmd
  · rw [if_pos management, if_pos management]
    exact .inl ⟨_, rfl, rfl⟩
  have got : liftFs (fsGet i) c = (.ok d, c) := liftFs_ok (readDesc_live ready live)
  rw [if_neg management, if_neg management, bind_ok got]
  have template := nodeOf_template live c.store.hal.nvm.flash
  have short := fsBuildFcp_length d 32
  have some : (fsBuildFcp d 32).length ≠ 0 := by
    rw [← template]
    simp [Node.template]
  have total : (UInt16.ofNat ((fsBuildFcp d 32).length + 2)).toNat = (fsBuildFcp d 32).length + 2 :=
    UInt16.toNat_ofNat_of_lt' (Nat.lt_of_le_of_lt (Nat.add_le_add_right short 2) (by decide))
  rw [if_neg some]
  cases wanted : cmd.lePresent with
  | false => exact .inr ⟨[], rfl, .inl ⟨enough, by rw [same]; rfl⟩⟩
  | true =>
    rw [if_neg (show ¬ (!true) = true by simp), if_pos rfl, Node.describe, template]
    by_cases less : cmd.le.toNat < (fsBuildFcp d 32).length + 2
    · rw [if_pos less, if_pos (UInt16.lt_iff_toNat_lt.mpr (by rw [total]; exact less))]
      exact .inl ⟨_, rfl, rfl⟩
    · have enough' : ¬ cmd.le < UInt16.ofNat ((fsBuildFcp d 32).length + 2) := by
        rw [UInt16.lt_iff_toNat_lt, total]
        exact less
      rw [if_neg less, if_neg enough']
      refine .inr ⟨_, rfl, ?_⟩
      have sends := sends_bind (sends_put [if cmd.p2 &&& 0x0C = selRetFcp then 0x62 else 0x6F])
        (sends_bind (sends_put [UInt8.ofNat (fsBuildFcp d 32).length]) (sends_put (fsBuildFcp d 32)))
      have sent := sends c cap [] rsp enough
      rw [List.length_nil, Nat.zero_add, List.nil_append] at sent
      exact sent

/-- A file that was found becomes current, described, unless its description does not fit. -/
theorem describe_agrees {sel : FsSelection} {cur : Cursor} (room : 2 ≤ cap) (rsp : c.rsp = apduRspInit cap)
    (stands : Stands t place c.store c.kernel.sel s) (points : Points t place sel cur) :
    Agrees cap s
      ((emitFci cmd (fsSelectedIndex sel) (cmd.p2 &&& 0x0C) >>= fun _ =>
        update (fun t => { t with kernel := { t.kernel with sel } }) >>= fun _ => pure swOk) c)
      (s.present cur (formOf cmd)) := by
  obtain ⟨d, live, here⟩ := selected_path stands.represents points
  rw [Service.present, ← here, stands.represents.file _ d live, stands.represents.idAt live]
  dsimp only
  rcases emitFci_describes room rsp stands.ready live with
    ⟨sw, described, ran⟩ | ⟨data, described, ⟨fits, ran⟩ | ⟨full, kept, ran⟩⟩
  · rw [described, bind_error ran]
    exact agrees_refused room stands rsp rfl
  · rw [described, bind_ok ran]
    exact agrees_sent ⟨stands.ready, stands.reliable, stands.represents, points⟩ rfl rfl fits
  · rw [described, bind_error ran]
    exact agrees_full room stands rfl full

theorem select_agrees (room : 2 ≤ cap) (rsp : c.rsp = apduRspInit cap) (fields : Fields cmd)
    (stands : Stands t place c.store c.kernel.sel s) :
      Agrees cap s (scosCmdSelect cmd c) (s.serve (selectRequest cmd)) := by
  unfold scosCmdSelect selectRequest
  split
  · exact agrees_refused room stands rsp rfl
  split
  · exact agrees_refused room stands rsp rfl
  rw [state_bind]
  have target := selectTarget_reflects stands fields
  cases choice : choiceOf cmd with
  | error sw =>
    rw [choice] at target
    rcases reflects_cases target with ⟨_, ran, stopped⟩ | ⟨_, _, _, returned, _⟩
    · cases stopped
      rw [bind_error ran]
      exact agrees_refused room stands rsp rfl
    · cases returned
  | ok wanted =>
    rw [choice] at target
    have target : Reflects _ c (Points t place) ((s.volume.choose s.cursor wanted).mapError fsErrorToSw) := target
    show Agrees cap s _ (s.select wanted (formOf cmd))
    unfold Service.select
    cases chosen : s.volume.choose s.cursor wanted with
    | error e =>
      rw [chosen] at target
      rcases reflects_cases target with ⟨_, ran, stopped⟩ | ⟨_, _, _, returned, _⟩
      · cases stopped
        rw [bind_error ran]
        exact agrees_refused room stands rsp rfl
      · cases returned
    | ok cur =>
      rw [chosen] at target
      rcases reflects_cases target with ⟨_, _, stopped⟩ | ⟨sel, _, ran, returned, points⟩
      · cases stopped
      · cases returned
        rw [bind_ok ran]
        exact describe_agrees room rsp stands points

end Select

/-- The file a READ or UPDATE goes to is the EF at a path, at the same offset. -/
def Hits (t : FileTree) (place : UInt16 → Path) (target : UInt16 × UInt16) (spot : Path × Nat) : Prop :=
  ∃ d, t.table target.1 = some d ∧ fsIsEf d = true ∧ place target.1 = spot.1 ∧ target.2.toNat = spot.2

section Binary
variable {t : FileTree} {place : UInt16 → Path} {cap : UInt16} {c : Session} {s : Service} {cmd : ApduCommand}
  {i offset : UInt16} {d : FsDescriptor} {spot : Path × Nat}

/-- A scan that passes over every failure only stops for want of a find. -/
private theorem scan_ends (wanted : FsDescriptor → Bool) (slots : List Nat) :
    Ends (scanFor wanted (fun _ => true) slots) (fun e => e = .notFound) fun _ => True := by
  induction slots with
  | nil => exact ends_fail rfl
  | cons n rest ih =>
    have reads : Ends (attempt (fsStoreReadDesc (UInt16.ofNat n)) : FsM _) (fun e => e = .notFound) fun _ => True := by
      refine fun s => ⟨?_, fun _ _ _ => trivial⟩
      rintro e s' ⟨⟩
    refine ends_bind reads ?_
    rintro (e | d) -
    · exact ih
    · dsimp only
      split
      · exact ends_pure trivial
      · exact ih

private theorem findBySfi_stops {df : UInt16} {sfi : UInt8} {store store' : Store} {e : FsError} (valid : sfi ≠ fsNoSfi)
    (small : sfi ≤ 30) (ran : fsFindBySfi df sfi store = (.error e, store')) : e = .notFound := by
  rw [fsFindBySfi, state_bind, if_neg (by simp [valid, UInt8.not_lt.mpr small])] at ran
  exact (scan_ends _ _ store).1 e store' ran

/-- A short identifier is looked up in the current DF. -/
theorem findBySfi_reflects (stands : Stands t place c.store c.kernel.sel s) {sfi : UInt8} (valid : sfi ≠ fsNoSfi)
    (small : sfi ≤ 30) (offset : UInt8) :
    Reflects (liftFs (fsFindBySfi c.kernel.sel.curDf sfi) >>= fun index => pure (index, offset.toUInt16)) c
      (Hits t place) (s.locate (.short sfi offset.toNat)) := by
  have short {id : UInt16} :=
    @hasShort_iff t c.store place s.volume c.kernel.sel s.cursor id stands.represents stands.points sfi
  obtain ⟨cur, curLive, -⟩ := stands.points.dfOk
  rw [Service.locate]
  rcases fsFindBySfi_cases stands.ready c.kernel.sel.curDf sfi with
    ⟨i, d, found, live, parent, ef, same, -⟩ | ⟨e, missing, fresh⟩
  · have here : place i = s.cursor.df ++ [d.fileId] := by
      rw [stands.points.df]
      exact stands.represents.child curLive ⟨d, live, parent, rfl⟩
    have shortens : s.Shortens sfi := ⟨d.fileId, short.mpr ⟨i, d, live, parent, ef, same, rfl, here⟩⟩
    rw [dif_pos shortens]
    refine reflects_ok (bind_ok (liftFs_ok found)) ⟨d, live, ef, ?_, UInt8.toNat_toUInt16 _⟩
    obtain ⟨j, e, live', parent', ef', same', -, there⟩ := short.mp shortens.choose_spec
    have one : j = i := t.sfis j i e d live' live
      ⟨by simpa [fsIsEf] using ef', by simpa [fsIsEf] using ef, parent'.trans parent.symm, same'.trans same.symm,
        same' ▸ valid⟩
    rw [← one]
    exact there
  · obtain rfl := findBySfi_stops valid small missing
    have none : ¬ s.Shortens sfi := by
      rintro ⟨id, held⟩
      obtain ⟨i, d, live, parent, ef, same, -⟩ := short.mp held
      exact fresh valid small i d live parent ef same
    rw [dif_neg none]
    exact reflects_error (bind_error (liftFs_error missing))

theorem resolveTarget_reflects (stands : Stands t place c.store c.kernel.sel s) (cmd : ApduCommand) :
    Reflects (resolveTarget cmd.p1 cmd.p2) c (Hits t place) (placeOf cmd >>= s.locate) := by
  unfold Reflects
  rw [resolveTarget, state_bind, placeOf]
  by_cases short : cmd.p1 &&& 0x80 ≠ 0
  · rw [if_pos short, if_pos short]
    by_cases middle : cmd.p1 &&& 0x60 ≠ 0
    · rw [if_pos middle, if_pos (.inl middle)]
      exact reflects_fail
    rw [if_neg middle]
    by_cases zero : cmd.p1 &&& 0x1F = 0
    · rw [if_pos zero, if_pos (.inr (.inl zero))]
      exact reflects_fail
    rw [if_neg zero]
    by_cases large : cmd.p1 &&& 0x1F > 30
    · have refused : fsFindBySfi c.kernel.sel.curDf (cmd.p1 &&& 0x1F) c.store = (.error .param, c.store) := by
        rw [fsFindBySfi, state_bind, if_pos (.inr large)]
        rfl
      rw [if_pos (.inr (.inr large))]
      exact reflects_error (bind_error (liftFs_error refused))
    · rw [if_neg (by simp [middle, zero, large])]
      exact findBySfi_reflects stands zero (UInt8.not_lt.mp large) cmd.p2
  · rw [if_neg short, if_neg short]
    show Reflects _ c (Hits t place) (s.locate (.current (word16 cmd.p1 cmd.p2).toNat))
    rw [Service.locate]
    rcases stands.points.efOk with invalid | ⟨d, live, ef, -, parent⟩
    · rw [stands.points.none invalid, if_pos invalid]
      exact reflects_fail
    · obtain ⟨cur, curLive, -⟩ := stands.points.dfOk
      rw [stands.points.some d live, if_neg (live_ne_invalid live)]
      refine reflects_pure ⟨d, live, ef, ?_, rfl⟩
      rw [stands.points.df]
      exact stands.represents.child curLive ⟨d, live, parent, rfl⟩

theorem target_refused (stands : Stands t place c.store c.kernel.sel s) {sw : Sw} (refused : placeOf cmd = .error sw) :
    resolveTarget cmd.p1 cmd.p2 c = (.error sw, c) := by
  have target := resolveTarget_reflects stands cmd
  rw [refused] at target
  rcases reflects_cases target with ⟨_, ran, stopped⟩ | ⟨_, _, _, returned, _⟩
  · cases stopped
    exact ran
  · cases returned

private theorem target_locked {spot : Place} {p : Path} {o : Nat} {e : FsError} (located : s.locate spot = .ok (p, o))
    (held : s.volume.usable p = .error e) : s.target spot = .error (fsErrorToSw e) := by
  rw [Service.target, located]
  simp only [bind, Except.bind, held]

private theorem target_held {spot : Place} {p : Path} {o : Nat} {n : Node} (located : s.locate spot = .ok (p, o))
    (held : s.volume.usable p = .ok n) : s.target spot = .ok (p, o, n) := by
  rw [Service.target, located]
  simp only [bind, Except.bind, held]

/-- The addressed EF on the card and on the service: none, one that may not be used, or one
that may. -/
theorem target_cases (stands : Stands t place c.store c.kernel.sel s) {spot : Place} (spelled : placeOf cmd = .ok spot) :
    (∃ sw, resolveTarget cmd.p1 cmd.p2 c = (.error sw, c) ∧ s.target spot = .error sw) ∨
      ∃ i offset d, resolveTarget cmd.p1 cmd.p2 c = (.ok (i, offset), c) ∧ t.table i = some d ∧ fsIsEf d = true ∧
        ((fsIsUsable d = false ∧ s.target spot = .error (fsErrorToSw .notUsable)) ∨
          (fsIsUsable d = true ∧ s.target spot = .ok (place i, offset.toNat, nodeOf c.store.hal.nvm.flash d))) := by
  have target := resolveTarget_reflects stands cmd
  rw [spelled] at target
  rcases reflects_cases (y := s.locate spot) target with ⟨sw, ran, stopped⟩ | ⟨⟨i, offset⟩, ⟨p, o⟩, ran, located, hits⟩
  · refine .inl ⟨sw, ran, ?_⟩
    rw [Service.target, stopped]
    rfl
  · obtain ⟨d, live, ef, rfl, rfl⟩ := hits
    have held := usable_some (stands.represents.file i d live)
    rw [nodeOf_usable] at held
    refine .inr ⟨i, offset, d, ran, live, ef, ?_⟩
    cases usable : fsIsUsable d with
    | false =>
      rw [usable] at held
      exact .inl ⟨rfl, target_locked located held⟩
    | true =>
      rw [usable] at held
      exact .inr ⟨rfl, target_held located held⟩

private theorem resolve_unusable {store : Store} (ready : Ready store t) (live : t.table i = some d)
    (unusable : fsIsUsable d = false) : resolve i store = (.error .notUsable, store) := by
  rw [resolve_live ready live, unusable]
  rfl

private theorem resolve_usable {store : Store} (ready : Ready store t) (live : t.table i = some d)
    (usable : fsIsUsable d = true) : resolve i store = (.ok d, store) := by
  rw [resolve_live ready live, usable]
  rfl

theorem read_agrees (room : 2 ≤ cap) (rsp : c.rsp = apduRspInit cap) (fields : Fields cmd)
    (stands : Stands t place c.store c.kernel.sel s) :
      Agrees cap s (scosCmdReadBinary cmd c) (s.serve (readRequest cmd)) := by
  unfold scosCmdReadBinary readRequest
  split
  · exact agrees_refused room stands rsp rfl
  split
  · exact agrees_refused room stands rsp rfl
  cases spelled : placeOf cmd with
  | error sw =>
    rw [bind_error (target_refused stands spelled)]
    exact agrees_refused room stands rsp rfl
  | ok spot =>
    show Agrees cap s _ (s.read spot cmd.le.toNat)
    unfold Service.read
    rcases target_cases stands spelled with
      ⟨sw, ran, missing⟩ | ⟨i, offset, d, ran, live, ef, ⟨unusable, target⟩ | ⟨usable, target⟩⟩
    · rw [bind_error ran, missing]
      exact agrees_refused room stands rsp rfl
    · have refused : fsEfRead i offset cmd.le c.store = (.error .notUsable, c.store) :=
        bind_error (resolve_unusable stands.ready live unusable)
      rw [bind_ok ran, target]
      dsimp only
      rw [if_neg (UInt16.not_lt.mpr fields.le), bind_error (liftFs_error refused)]
      exact agrees_refused room stands rsp rfl
    have held : (nodeOf c.store.hal.nvm.flash d).body = c.store.hal.nvm.flash.read d.dataOffset.toNat d.size.toNat :=
      if_pos ef
    rw [bind_ok ran, target]
    dsimp only
    rw [if_neg (UInt16.not_lt.mpr fields.le), held, Region.read_length]
    by_cases beyond : offset.toNat > d.size.toNat
    · have refused : fsEfRead i offset cmd.le c.store = (.error .range, c.store) := by
        rw [fsEfRead, bind_ok (resolve_usable stands.ready live usable), if_neg (by simp [ef]),
          if_pos (UInt16.lt_iff_toNat_lt.mpr beyond)]
        rfl
      rw [if_pos beyond, bind_error (liftFs_error refused)]
      exact agrees_refused room stands rsp rfl
    · have inside := UInt16.le_iff_toNat_le.mpr (Nat.not_lt.mp beyond)
      have taken : ((c.store.hal.nvm.flash.read d.dataOffset.toNat d.size.toNat).drop offset.toNat).take cmd.le.toNat =
          c.store.hal.nvm.flash.read (d.dataOffset.toNat + offset.toNat)
            (min cmd.le.toNat (d.size.toNat - offset.toNat)) := by
        rw [Region.drop_read, ← Region.take_read _ (Nat.min_le_right ..), ← List.take_take,
          List.take_of_length_le (i := d.size.toNat - offset.toNat)]
        simp
      rw [if_neg beyond, taken, bind_ok (liftFs_ok (fsEfRead_live stands.ready live ef usable inside cmd.le))]
      rcases sends_put _ c cap [] rsp (UInt16.le_iff_toNat_le.mp room) with ⟨fits, put⟩ | ⟨full, kept, put⟩
      · rw [bind_ok put]
        exact agrees_sent stands rfl rfl (by simpa using fits)
      · rw [bind_error put]
        exact agrees_full room stands rfl (by simpa using full)

/-- An update inside a usable EF is made. -/
private theorem fsEfWrite_live {store : Store} {src : List UInt8} (ready : Ready store t)
    (reliable : store.hal.writeFaults = [])
    (live : t.table i = some d) (ef : fsIsEf d = true) (usable : fsIsUsable d = true) (nonempty : src ≠ [])
    (inside : offset.toNat + src.length ≤ d.size.toNat) :
    ∃ store', fsEfWrite i offset src store = (.ok (), store') := by
  have fits := data_inside ready live ef
  have position := data_position fits (by omega : offset.toNat ≤ d.size.toNat)
  rcases ran : fsEfWrite i offset src store with ⟨result, store'⟩
  rw [fsEfWrite, if_neg (by simpa using nonempty), bind_ok (resolve_usable ready live usable), if_neg (by simp [ef]),
    if_neg (by omega), fsStoreWriteData, state_bind, if_neg nonempty, ready.mounted] at ran
  have written := writeDurably_written nonempty (by rw [position]; simp only [Nvm.region]; omega) ran
  exact ⟨store', by rw [(written.reliable reliable).1]⟩

theorem update_agrees (room : 2 ≤ cap) (rsp : c.rsp = apduRspInit cap) (fields : Fields cmd)
    (stands : Stands t place c.store c.kernel.sel s) :
    Agrees cap s (scosCmdUpdateBinary cmd c) (s.serve (updateRequest cmd)) := by
  unfold scosCmdUpdateBinary updateRequest
  rcases fields.data with ⟨absent, zero⟩ | ⟨data, field, length, nonempty⟩
  · rw [absent, if_pos (.inl zero)]
    exact agrees_refused room stands rsp rfl
  have some : cmd.lc ≠ 0 := by
    intro zero
    rw [zero] at length
    exact nonempty (List.length_eq_zero_iff.mp length)
  rw [field]
  simp only [some, if_false, false_or, Option.getD_some]
  split
  · exact agrees_refused room stands rsp rfl
  cases spelled : placeOf cmd with
  | error sw =>
    rw [bind_error (target_refused stands spelled)]
    exact agrees_refused room stands rsp rfl
  | ok spot =>
    show Agrees cap s _ (s.update spot data)
    unfold Service.update
    have filled : ¬ data.length = 0 := fun empty => nonempty (List.length_eq_zero_iff.mp empty)
    rcases target_cases stands spelled with
      ⟨sw, ran, missing⟩ | ⟨i, offset, d, ran, live, ef, ⟨unusable, target⟩ | ⟨usable, target⟩⟩
    · rw [bind_error ran, missing]
      exact agrees_refused room stands rsp rfl
    · have refused : fsEfWrite i offset data c.store = (.error .notUsable, c.store) := by
        rw [fsEfWrite, if_neg filled, bind_error (resolve_unusable stands.ready live unusable)]
      rw [bind_ok ran, target]
      dsimp only
      rw [bind_error (liftFs_error refused)]
      exact agrees_refused room stands rsp rfl
    have held : (nodeOf c.store.hal.nvm.flash d).body.length = d.size.toNat := by
      rw [nodeOf, if_pos ef, Region.read_length]
    rw [bind_ok ran, target]
    dsimp only
    rw [held]
    by_cases beyond : offset.toNat + data.length > d.size.toNat
    · have refused : fsEfWrite i offset data c.store = (.error .range, c.store) := by
        rw [fsEfWrite, if_neg filled, bind_ok (resolve_usable stands.ready live usable), if_neg (by simp [ef]),
          if_pos beyond]
        rfl
      rw [if_pos beyond, bind_error (liftFs_error refused)]
      exact agrees_refused room stands rsp rfl
    · have inside := Nat.not_lt.mp beyond
      obtain ⟨store', written⟩ := fsEfWrite_live stands.ready stands.reliable live ef usable nonempty inside
      rw [if_neg beyond, bind_ok (liftFs_ok written)]
      cases fsEfWrite_updated stands.ready nonempty written with
      | done e live' _ _ _ ready' sb nvm reliable' =>
        cases live.symm.trans live'
        refine agrees_done room ⟨ready', reliable' stands.reliable, ?_, stands.points⟩ rsp
        exact represents_update stands.represents stands.ready live ef inside sb nvm

end Binary

section Dispatch
variable {t : FileTree} {place : UInt16 → Path} {cap : UInt16} {c : Session} {s : Service} {cmd : ApduCommand}

theorem create_agrees (room : 2 ≤ cap) (rsp : c.rsp = apduRspInit cap) (fields : Fields cmd)
    (active : c.kernel.lifecycle = .operational) (stands : Stands t place c.store c.kernel.sel s) :
    Agrees cap s (scosCmdCreateFile cmd c) (s.serve (createRequest cmd)) := by
  unfold scosCmdCreateFile createRequest
  rw [state_bind, if_neg (by simp [active])]
  split
  · exact agrees_refused room stands rsp rfl
  rcases fields.data with ⟨absent, zero⟩ | ⟨data, field, length, nonempty⟩
  · rw [absent, if_pos zero]
    exact agrees_refused room stands rsp rfl
  have some : cmd.lc ≠ 0 := by
    intro zero
    rw [zero] at length
    exact nonempty (List.length_eq_zero_iff.mp length)
  rw [field, if_neg some, Option.getD_some]
  dsimp only
  rw [if_neg some]
  cases parsed : parseFcp data cmd.lc with
  | error sw => exact agrees_refused room stands rsp rfl
  | ok req =>
    have short : data.length < 2 ^ 16 := length ▸ cmd.lc.toNat_lt
    have whole : UInt16.ofNat data.length = cmd.lc := by rw [length, UInt16.ofNat_toNat]
    obtain ⟨sound, creatable⟩ := FcpProofs.parsed_sound short (whole ▸ parsed)
    show Agrees cap s ((liftFs (fsCreateFile c.kernel.sel req) >>= fun _ => pure swOk) c)
      (s.create req.fileId (nodeFor req))
    unfold Service.create
    rcases create_reflects stands.represents stands.ready stands.points stands.reliable sound creatable with
      ⟨e, ran, refused⟩ | ⟨slot, store', t', place', v', ran, created, ready', reliable', represents', points'⟩
    · rw [refused, bind_error (liftFs_error ran)]
      exact agrees_refused room stands rsp rfl
    · rw [created, bind_ok (liftFs_ok ran)]
      exact agrees_done room ⟨ready', reliable', represents', points'⟩ rsp

theorem delete_agrees (room : 2 ≤ cap) (rsp : c.rsp = apduRspInit cap) (fields : Fields cmd)
    (active : c.kernel.lifecycle = .operational) (stands : Stands t place c.store c.kernel.sel s) :
    Agrees cap s (scosCmdDeleteFile cmd c) (s.serve (deleteRequest cmd)) := by
  unfold scosCmdDeleteFile deleteRequest
  rw [state_bind, if_neg (by simp [active])]
  split
  · exact agrees_refused room stands rsp rfl
  rcases fields.data with ⟨absent, zero⟩ | ⟨data, field, length, nonempty⟩
  · rw [absent, zero]
    exact agrees_refused room stands rsp rfl
  rw [field, Option.getD_some]
  dsimp only
  split
  · exact agrees_refused room stands rsp rfl
  show Agrees cap s _ (s.delete (fidOf data))
  unfold Service.delete
  rcases delete_reflects stands.represents stands.ready stands.points stands.reliable (fidOf data) with
    ⟨e, ran, refused⟩ | ⟨sel', store', t', v', ran, deleted, ready', reliable', represents', points'⟩
  · rw [refused, bind_error (liftFs_error ran)]
    exact agrees_refused room stands rsp rfl
  · rw [deleted, bind_ok (liftFs_ok ran)]
    exact agrees_done room ⟨ready', reliable', represents', points'⟩ rsp

/-- Every command is answered as its request is. -/
theorem dispatch_agrees (room : 2 ≤ cap) (rsp : c.rsp = apduRspInit cap) (fields : Fields cmd)
    (active : c.kernel.lifecycle = .operational) (stands : Stands t place c.store c.kernel.sel s) :
    Agrees cap s (scosDispatch cmd c) (s.serve (requestOf cmd)) := by
  rcases scosDispatch_cases cmd with
    ⟨ins, ran⟩ | ⟨ins, ran⟩ | ⟨ins, ran⟩ | ⟨ins, ran⟩ | ⟨ins, ran⟩ | ⟨others, ran⟩
  · rw [ran, requestOf, if_pos ins]
    exact select_agrees room rsp fields stands
  · rw [ran, requestOf, if_neg (by rw [ins]; decide), if_pos ins]
    exact read_agrees room rsp fields stands
  · rw [ran, requestOf, if_neg (by rw [ins]; decide), if_neg (by rw [ins]; decide), if_pos ins]
    exact update_agrees room rsp fields stands
  · rw [ran, requestOf, if_neg (by rw [ins]; decide), if_neg (by rw [ins]; decide), if_neg (by rw [ins]; decide),
      if_pos ins]
    exact create_agrees room rsp fields active stands
  · rw [ran, requestOf, if_neg (by rw [ins]; decide), if_neg (by rw [ins]; decide), if_neg (by rw [ins]; decide),
      if_neg (by rw [ins]; decide), if_pos ins]
    exact delete_agrees room rsp fields active stands
  · simp only [List.mem_cons, List.not_mem_nil, or_false, not_or] at others
    obtain ⟨first, second, third, fourth, fifth⟩ := others
    rw [ran, requestOf, if_neg first, if_neg second, if_neg third, if_neg fourth, if_neg fifth]
    exact agrees_refused room stands rsp rfl

end Dispatch

/-- The card in use is where the service is. -/
structure Refines (card : Card) (s : Service) : Prop where
  active : card.kernel.lifecycle = .operational
  level : Level card.store
  stands : ∃ t place, Stands t place card.store card.kernel.sel s

section Runs
variable {t : FileTree} {place : UInt16 → Path} {card : Card} {s : Service}

theorem stands_serving (stands : Stands t place card.store card.kernel.sel s) : Serving t card :=
  ⟨⟨stands.ready, stands.points.dfOk⟩, stands.reliable, stands.points.efOk⟩

/-- One command APDU: the same bytes come back and the two stay together. -/
theorem process_refines (refines : Refines card s) (cmd : Option (List UInt8)) (cap : UInt16) :
    (scosProcess cmd cap card).2.1 = (s.answer cmd cap).1 ∧
      ∃ t place, Stands t place (scosProcess cmd cap card).2.2.store (scosProcess cmd cap card).2.2.kernel.sel
        (s.answer cmd cap).2 := by
  obtain ⟨t, place, stands⟩ := refines.stands
  unfold Service.answer
  by_cases small : cap < 2
  · rw [if_pos small, scosProcess_small (UInt16.not_le.mpr small)]
    exact ⟨rfl, t, place, stands⟩
  have room := UInt16.not_lt.mp small
  rw [if_neg small]
  have refused (sw : Sw) :=
    agrees_refused (c := ⟨card.kernel, card.store, apduRspInit cap⟩) (r := .ok sw) room stands rfl rfl
  rcases parsed : apduParse cmd with ⟨status, c⟩
  have run : scosProcess cmd cap card = (.ok, execute cmd cap card) := by
    rw [scosProcess, if_neg small, refines.active]
  cases status with
  | ok =>
    rw [requestOfBytes, parsed]
    dsimp only
    by_cases cla : apduCheckCla c.cla = .ok
    · rcases ran : scosDispatch c ⟨card.kernel, card.store, apduRspInit cap⟩ with ⟨r, u⟩
      have agrees := dispatch_agrees (c := ⟨card.kernel, card.store, apduRspInit cap⟩) room rfl (parsed_fields parsed)
        refines.active stands
      rw [ran] at agrees
      rw [if_neg (by simp [cla]), scosProcess_dispatch room refines.active parsed cla ran]
      exact agrees
    · rw [if_pos cla, run, execute, parsed]
      dsimp only
      rw [if_pos cla]
      exact refused _
  | tooShort =>
    rw [requestOfBytes, parsed, run, execute, parsed]
    exact refused _
  | badLength =>
    rw [requestOfBytes, parsed, run, execute, parsed]
    exact refused _
  | extended =>
    rw [requestOfBytes, parsed, run, execute, parsed]
    exact refused _

/-- A remount finds the volume as it was and puts the cursor back. -/
theorem remount_stands (stands : Stands t place card.store card.kernel.sel s) (level : Level card.store) :
    Stands t place { card.store with sb := mirrorOf t.top } fsSelectionReset { s with cursor := .root } := by
  have top : card.store.sb.dataTop = t.top := level.trans (storedTop_ready stands.ready)
  have kept : Represents t { card.store with sb := mirrorOf t.top } place s.volume :=
    stands.represents.remount rfl top.symm
  exact ⟨mounted_mirrorOf stands.ready.reads stands.ready.holds, stands.reliable, kept, root_points kept⟩

theorem step_refines (refines : Refines card s) (event : CardEvent) :
    reply card event = (s.step event).1 ∧ Refines (step card event) (s.step event).2 := by
  obtain ⟨t, place, stands⟩ := refines.stands
  have active := lifeStep_operational (stands_serving stands) refines.active (.used event)
  have level := (step_shrinks (stands_serving stands) refines.level event).level
  have remounted := remount_stands stands refines.level
  cases event with
  | apdu cmd cap =>
    obtain ⟨same, after⟩ := process_refines refines cmd cap
    exact ⟨same, active, level, after⟩
  | reset =>
    exact ⟨rfl, active, level, t, place, stands.ready, stands.reliable, stands.represents, root_points stands.represents⟩
  | init =>
    refine ⟨rfl, active, level, t, place, ?_⟩
    rw [step, scosInit_mounts stands.ready.reads stands.ready.holds]
    exact remounted
  | powerCycle =>
    refine ⟨rfl, active, level, t, place, ?_⟩
    rw [step, powerUp_mounts stands.ready.reads stands.ready.holds]
    exact remounted

/-- Over a whole run the card sends what the service sends. -/
theorem run_refines (refines : Refines card s) (events : List CardEvent) :
    Kernel.transcript card events = s.transcript events := by
  induction events generalizing card s with
  | nil => rfl
  | cons event rest ih =>
    obtain ⟨same, after⟩ := step_refines refines event
    rw [Kernel.transcript, Service.transcript, same, ih after]

/-- What a card with power back may come up as. -/
theorem restart_refines {v : Volume} (holds : Holds card.store.hal.nvm t.table t.top)
    (represents : Represents t { recovered card.store with sb := mirrorOf t.top } place v) :
    Refines (restart card).2 ⟨v, .root⟩ := by
  have ready : Ready { recovered card.store with sb := mirrorOf t.top } t := mounted_mirrorOf rfl holds
  rw [restart, @scosInit_mounts t ⟨ScosKernel.zeroed, recovered card.store⟩ rfl holds]
  exact ⟨rfl, (storedTop_ready ready).symm, t, place, ready, rfl, represents, root_points represents⟩

/-- Power may fail at any write of a command: the card comes up as one of the survivors. -/
theorem cut_refines (refines : Refines card s) (cmd : Option (List UInt8)) (cap : UInt16) (k : Nat)
    (later : List WriteFault) :
    ∃ s' ∈ s.survivors cmd cap, Refines (restart (torn cmd cap k later card)).2 s' := by
  obtain ⟨t, place, stands⟩ := refines.stands
  have serving := stands_serving stands
  have top : card.store.sb.dataTop = t.top := refines.level.trans (storedTop_ready stands.ready)
  have cut := torn_nvm serving.live serving.reliable cmd cap k later
  obtain ⟨sb, complete, -⟩ := scosProcess_calm (live_fits serving.live) ⟨stands.ready.reads, stands.reliable⟩ cmd cap
  obtain ⟨-, t₁, place₁, stands₁⟩ := process_refines refines cmd cap
  have level₁ := (process_shrinks serving refines.level cmd cap).level
  have top₁ := level₁.trans (storedTop_ready stands₁.ready)
  rcases change_cut (processChange cmd cap card) k card.store.hal.nvm with
    old | all | ⟨newTop, slot, d, allocates, reserved⟩
  · rw [old] at cut
    have kept : Represents t { recovered (torn cmd cap k later card).store with sb := mirrorOf t.top } place s.volume :=
      stands.represents.remount (congrArg Nvm.flash cut) top.symm
    exact ⟨_, .head _, restart_refines (cut ▸ stands.ready.holds) kept⟩
  · rw [all, ← complete] at cut
    have kept : Represents t₁ { recovered (torn cmd cap k later card).store with sb := mirrorOf t₁.top } place₁ _ :=
      stands₁.represents.remount (congrArg Nvm.flash cut) top₁.symm
    exact ⟨_, .tail _ (.head _), restart_refines (cut ▸ stands₁.ready.holds) kept⟩
  · -- the space of the new file is taken, and no file is in it
    obtain ⟨above, inside⟩ := processChange_top allocates
    have up : t.top ≤ newTop := top ▸ above
    rw [reserved] at cut
    rw [allocates] at sb
    have flash : (torn cmd cap k later card).store.hal.nvm.flash = card.store.hal.nvm.flash := by
      rw [cut, Nvm.write_eeprom_flash]
    have room := stands₁.represents.room
    rw [sb, complete, show (applyAll _ card.store.hal.nvm).flash.size = card.store.hal.nvm.flash.size from
      applyAll_size _ card.store.hal.nvm .flash] at room
    have kept : Represents (t.reserve up) { recovered (torn cmd cap k later card).store with sb := mirrorOf newTop }
        place { s.volume with room := (s.answer cmd cap).2.volume.room } :=
      stands.represents.carry rfl flash above (room.trans (congrArg (fun r : Region => r.size.toNat) flash.symm))
    have holds : Holds (torn cmd cap k later card).store.hal.nvm (t.reserve up).table (t.reserve up).top :=
      cut ▸ stands.ready.holds.write_top inside
    exact ⟨_, .tail _ (.tail _ (.head _)), restart_refines holds kept⟩

end Runs

section Factory
variable {eepromSize flashSize : UInt32} {card : Card}

/-- Where the factory puts its files. -/
def factoryPlace (i : UInt16) : Path :=
  if i = 1 then [0x2F00] else if i = 2 then [0x7F10] else if i = 3 then [0x7F10, 0x6F01]
  else if i = 4 then [0x7F10, 0x6F02] else []

private theorem factory_below : ∀ x ∈ factoryTree, x.1 ≠ fsRootIndex →
    factoryPlace x.1 = factoryPlace x.2.parent ++ [x.2.fileId] := by
  decide +kernel

private theorem factory_bodies : ∀ x ∈ factoryTree, FileService.factoryFiles (factoryPlace x.1) =
    some ⟨x.2.type, x.2.lifecycle, x.2.sfi, if fsIsEf x.2 then List.replicate x.2.size.toNat 0xFF else []⟩ := by
  decide +kernel

private theorem factory_only {p : Path} {n : Node} (held : FileService.factoryFiles p = some n) :
    ∃ i d, factoryTable i = some d ∧ factoryPlace i = p := by
  have slots : [0, 1, 2, 3, 4].all (fun i => (factoryTable i).isSome) = true := by decide +kernel
  have at_ (i : UInt16) (member : i ∈ [0, 1, 2, 3, 4]) (here : factoryPlace i = p) :
      ∃ i d, factoryTable i = some d ∧ factoryPlace i = p := by
    obtain ⟨d, live⟩ := Option.isSome_iff_exists.mp (List.all_eq_true.mp slots i member)
    exact ⟨i, d, live, here⟩
  unfold FileService.factoryFiles at held
  split at held
  · exact at_ 0 (by decide) rfl
  · exact at_ 1 (by decide) rfl
  · exact at_ 2 (by decide) rfl
  · exact at_ 3 (by decide) rfl
  · exact at_ 4 (by decide) rfl
  · cases held

/-- A chip without the magic, with erased FLASH, boots into the service of the factory. -/
theorem factory_refines {nvm : Nvm} (noMagic : nvm.eeprom.read 0 4 ≠ fsMagic) (slots : 656 ≤ nvm.eeprom.size.toNat)
    (space : 112 ≤ nvm.flash.size.toNat) (erased : ∀ k < nvm.flash.size.toNat, nvm.flash.byte k = 0xFF) :
    ∃ card, scosInit (chip nvm) = (.ok, card) ∧ card.store.hal.nvm.flash = nvm.flash ∧
      Refines card (Service.factory nvm.flash.size) := by
  have blank : Unformatted (chip nvm).store := ⟨rfl, rfl, noMagic⟩
  have stored := unformatted_nvm blank slots space
  have ok : (fsInit (chip nvm).store).1 = .ok () := by
    rcases fsInit_unformatted blank with ⟨small, -⟩ | ⟨-, result, s, t, ended, -, -, -, -, room⟩
    · exact absurd slots (Nat.not_le.mpr small)
    · rw [ended]
      exact room.mp space
  obtain ⟨t, s, booted, ended, ready, reliable, table, top, flash⟩ := ResidueProofs.boots noMagic ok
  rw [ended] at stored
  have level : Level s := by
    have written : s.hal.nvm.eeprom.read 0 fsSuperblockSize = sbBytes 112 := by
      rw [show s.hal.nvm = _ from stored]
      exact factory_superblock _
    rw [Level, top, storedTop_sbBytes written]
  have represents : Represents t s factoryPlace (Service.factory nvm.flash.size).volume := by
    refine ⟨rfl, ?_, ?_, ?_, ?_, ?_, ?_⟩
    · intro i d live below
      exact factory_below (i, d) (factory_member (table ▸ live)) below
    · intro i d live
      refine (factory_bodies (i, d) (factory_member (table ▸ live))).trans ?_
      rw [nodeOf]
      dsimp only
      by_cases ef : fsIsEf d = true
      · have inside := data_inside ready live ef
        rw [flash] at inside ⊢
        rw [if_pos ef, if_pos ef, Region.read_replicate fun k bound => erased _ (by omega)]
      · rw [if_neg ef, if_neg ef]
    · intro p n held
      rw [table]
      exact factory_only held
    · rw [table]
      show fsMaxFiles.toNat - 5 = freeSlots factoryTable
      decide +kernel
    · rw [top, flash]
      exact Nat.sub_add_cancel space
    · intro k _ inside
      rw [flash] at inside ⊢
      exact erased k inside
  exact ⟨_, booted, flash, rfl, level, t, factoryPlace, ready, reliable, represents, root_points represents⟩

theorem booted_refines (boots : scosInit (blankCard eepromSize flashSize) = (.ok, card)) :
    Refines card (Service.factory flashSize) := by
  obtain ⟨slots, space⟩ := blank_boots_iff.mp (congrArg Prod.fst boots)
  obtain ⟨card', booted, -, refines⟩ := @factory_refines (blankCard eepromSize flashSize).store.hal.nvm
    (blank_unformatted eepromSize flashSize).noMagic slots space fun _ _ => rfl
  cases boots.symm.trans booted
  exact refines

end Factory

/-- Whatever is sent to a card that came up on a blank chip, over any resets and power
cycles, it sends back byte for byte what the file service of the factory does. -/
theorem card_is_the_file_service {eepromSize flashSize : UInt32} {card : Card}
    (boots : scosInit (blankCard eepromSize flashSize) = (.ok, card)) (events : List CardEvent) :
    Kernel.transcript card events = (Service.factory flashSize).transcript events :=
  run_refines (booted_refines boots) events

/-- Select an EF by path, update two bytes of it, and read three after a power cycle. -/
def updateThenRead : List CardEvent :=
  [.apdu (some [0x00, 0xA4, 0x08, 0x0C, 0x04, 0x7F, 0x10, 0x6F, 0x02]) 258,
    .apdu (some [0x00, 0xD6, 0x00, 0x01, 0x02, 0xAA, 0xBB]) 258, .powerCycle,
    .apdu (some [0x00, 0xA4, 0x08, 0x0C, 0x04, 0x7F, 0x10, 0x6F, 0x02]) 258,
      .apdu (some [0x00, 0xB0, 0x00, 0x00, 0x03]) 258]

theorem card_is_the_file_service_for_update :
    (Service.factory 112).transcript updateThenRead =
      [[0x90, 0x00], [0x90, 0x00], [], [0x90, 0x00], [0xFF, 0xAA, 0xBB, 0x90, 0x00]] := by
  obtain ⟨card, boots⟩ := small_chip_boots
  have sent : Kernel.transcript (scosInit (blankCard 656 112)).2 updateThenRead =
      [[0x90, 0x00], [0x90, 0x00], [], [0x90, 0x00], [0xFF, 0xAA, 0xBB, 0x90, 0x00]] := by decide +kernel
  rw [boots] at sent
  exact (card_is_the_file_service boots updateThenRead).symm.trans sent

/-- What comes back over a life; a command that loses power is not answered. -/
def lifeTranscript (card : Card) : List LifeEvent → List (List UInt8)
  | [] => []
  | .used event :: rest => reply card event :: lifeTranscript (step card event) rest
  | .cut cmd cap k later :: rest => [] :: lifeTranscript (lifeStep card (.cut cmd cap k later)) rest

/-- What may come back from a service over a life. -/
inductive Lives : Service → List LifeEvent → List (List UInt8) → Prop
  | nil (s : Service) : Lives s [] []
  | used {s : Service} {event : CardEvent} {rest : List LifeEvent} {replies : List (List UInt8)}
      (lives : Lives (s.step event).2 rest replies) : Lives s (.used event :: rest) ((s.step event).1 :: replies)
  | cut {s s' : Service} {cmd : Option (List UInt8)} {cap : UInt16} {k : Nat} {later : List WriteFault}
      {rest : List LifeEvent} {replies : List (List UInt8)} (survives : s' ∈ s.survivors cmd cap)
      (lives : Lives s' rest replies) : Lives s (.cut cmd cap k later :: rest) ([] :: replies)

theorem life_refines {card : Card} {s : Service} (refines : Refines card s) (events : List LifeEvent) :
    Lives s events (lifeTranscript card events) := by
  induction events generalizing card s with
  | nil => exact .nil s
  | cons event rest ih =>
    cases event with
    | used event =>
      obtain ⟨same, after⟩ := step_refines refines event
      rw [lifeTranscript, same]
      exact .used (ih after)
    | cut cmd cap k later =>
      obtain ⟨s', survives, after⟩ := cut_refines refines cmd cap k later
      exact .cut survives (ih after)

/-- Power may also fail in the middle of commands, again and again, and the card boots when
it is back: what the card sends over its life is what the file service may send when each
such command has happened, has not, or has only taken its room. -/
theorem card_is_the_file_service_over_cuts {eepromSize flashSize : UInt32} {card : Card}
    (boots : scosInit (blankCard eepromSize flashSize) = (.ok, card)) (events : List LifeEvent) :
    Lives (Service.factory flashSize) events (lifeTranscript card events) :=
  life_refines (booted_refines boots) events

/-- The creation of a one byte EF loses power behind its first write; a second attempt
finds no room. -/
def cutThenCreate : List LifeEvent :=
  [.cut RemountProofs.createOneByte 258 1 [], .used (.apdu RemountProofs.createOneByte 258)]

theorem card_is_the_file_service_over_a_cut :
    Lives (Service.factory 113) cutThenCreate [[], [0x6A, 0x84]] := by
  have sent : lifeTranscript (scosInit (blankCard 656 113)).2 cutThenCreate = [[], [0x6A, 0x84]] := by decide +kernel
  have ok : (scosInit (blankCard 656 113)).1 = .ok := blank_boots_iff.mpr (by decide)
  rcases boots : scosInit (blankCard 656 113) with ⟨status, card⟩
  rw [boots] at sent ok
  obtain rfl : status = .ok := ok
  have lives := card_is_the_file_service_over_cuts boots cutThenCreate
  rwa [sent] at lives

end CardOs.ServiceProofs
