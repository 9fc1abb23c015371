import CardOs.FileCommands
import CardOs.TlvProofs

/-! The data field of CREATE FILE: which templates `parse_fcp` accepts, stated over
the items the bytes carry. -/
namespace CardOs.FcpProofs

open CardOs.FsTypes
open CardOs.Fs
open CardOs.Tlv
open CardOs.TlvProofs
open CardOs.FileCommands
open CardOs.Library
open CardOs.Library.BerTlv (Item Sequence values values_perm)
open CardOs.Library.BigEndian

/-! The legal values under each tag. -/

/-- A value of exactly one byte. -/
def single {α : Type} (read : UInt8 → Option α) : List UInt8 → Option α
  | [b] => read b
  | _ => none

def typeValue : List UInt8 → Option FsFileType := single fun fdb => (decodeFdb fdb).toOption

def fileIdValue : List UInt8 → Option UInt16
  | [hi, lo] => some (word16 hi lo)
  | _ => none

/-- The big-endian number of the bytes. -/
def number (value : List UInt8) : Nat := value.foldl (fun n b => n * 256 + b.toNat) 0

def sizeValue (value : List UInt8) : Option UInt16 :=
  if value.length ≤ 4 ∧ 1 ≤ number value ∧ number value ≤ fsMaxEfSize.toNat then some (UInt16.ofNat (number value))
  else none

def lifecycleValue : List UInt8 → Option FsLifecycle :=
  single fun lc => if lifecycleCreatable lc then some lc else none

def sfiValue : List UInt8 → Option UInt8 :=
  single fun v => if v &&& 0x07 = 0 ∧ v >>> 3 ≤ 30 then some (v >>> 3) else none

section Items
variable {α : Type} {f : List UInt8 → Option α} {vs : List (List UInt8)} {default x : α}

/-- The values name `x` once. -/
def Once (f : List UInt8 → Option α) (vs : List (List UInt8)) (x : α) : Prop := ∃ v, vs = [v] ∧ f v = some x

def AtMostOnce (f : List UInt8 → Option α) (vs : List (List UInt8)) (default x : α) : Prop :=
  (vs = [] ∧ x = default) ∨ Once f vs x

/-- Every value is legal and the last one counts. -/
def Latest (f : List UInt8 → Option α) (vs : List (List UInt8)) (default x : α) : Prop :=
  vs.foldlM (fun _ v => f v) default = some x

theorem atMostOnce_iff : AtMostOnce f vs default x ↔ Latest f vs default x ∧ vs.length ≤ 1 := by
  obtain _ | ⟨v, _ | ⟨w, vs⟩⟩ := vs
  · simp [AtMostOnce, Once, Latest, eq_comm]
  · simp [AtMostOnce, Once, Latest]
  · simp [AtMostOnce, Once]

theorem Latest.holds {P : α → Prop} (latest : Latest f vs default x) (start : P default)
    (legal : ∀ v y, f v = some y → P y) : P x := by
  induction vs generalizing default with
  | nil => exact Option.some.inj latest ▸ start
  | cons v rest ih =>
    obtain ⟨y, read, latest⟩ := Option.bind_eq_some_iff.mp latest
    exact ih latest (legal v y read)

theorem Once.perm {others : List (List UInt8)} (once : Once f vs x) (same : vs.Perm others) : Once f others x := by
  obtain ⟨v, rfl, legal⟩ := once
  exact ⟨v, List.perm_singleton.mp same.symm, legal⟩

theorem AtMostOnce.perm {others : List (List UInt8)} (once : AtMostOnce f vs default x) (same : vs.Perm others) :
    AtMostOnce f others default x := by
  obtain ⟨rfl, rfl⟩ | once := once
  · exact .inl ⟨List.nil_perm.mp same, rfl⟩
  · exact .inr (once.perm same)

/-- The flag of the loop with the value it guards, after one value of the tag. -/
def once (f : List UInt8 → Option α) (have_ : Bool × α) (v : List UInt8) : Option (Bool × α) :=
  if have_.1 then none else (f v).map (true, ·)

theorem foldlM_once {default x : α} {seen : Bool} : vs.foldlM (once f) (false, default) = some (seen, x) ↔
    (vs = [] ∧ seen = false ∧ x = default) ∨ (Once f vs x ∧ seen = true) := by
  obtain _ | ⟨v, _ | ⟨w, vs⟩⟩ := vs
  · simp [Once, eq_comm]
  · simp [Once, once, eq_comm, and_comm]
  · cases legal : f v <;> simp [Once, once, legal]

end Items

/-! The object loop, one item at a time. -/

/-- What one item does to the locals of the loop. -/
def fcpItem (st : FcpState) (item : Item) : Option FcpState :=
  if item.tag = 0x82 then
    (once typeValue (st.haveFdb, st.type) item.value).map fun s => { st with haveFdb := s.1, type := s.2 }
  else if item.tag = 0x83 then
    (once fileIdValue (st.haveFid, st.req.fileId) item.value).map fun s =>
      { st with haveFid := s.1, req := { st.req with fileId := s.2 } }
  else if item.tag = 0x80 then
    (once sizeValue (st.haveSize, st.req.size) item.value).map fun s =>
      { st with haveSize := s.1, req := { st.req with size := s.2 } }
  else if item.tag = 0x8A then
    (lifecycleValue item.value).map fun lifecycle => { st with req := { st.req with lifecycle } }
  else if item.tag = 0x88 then
    (sfiValue item.value).map fun sfi => { st with req := { st.req with sfi } }
  else none

section Object
variable {obj : TlvObject} {item : Item}

private theorem single_carried {α : Type} (carries : Carries obj item) (read : UInt8 → Option α) :
    single read item.value = if obj.length = 1 then read (TlvObject.byte obj 0) else none := by
  have counted := carries.length
  obtain ⟨tag, _ | ⟨b, _ | ⟨c, rest⟩⟩⟩ := item
  · rw [if_neg fun one => by simp [one] at counted]; rfl
  · rw [if_pos (UInt16.toNat_inj.mp counted)]
    simp [single, TlvObject.byte, carries.value]
  · rw [if_neg fun one => by simp [one] at counted]; rfl

private theorem fileIdValue_carried (carries : Carries obj item) : fileIdValue item.value =
    if obj.length = 2 then some (word16 (TlvObject.byte obj 0) (TlvObject.byte obj 1)) else none := by
  have counted := carries.length
  obtain ⟨tag, _ | ⟨b, _ | ⟨c, _ | ⟨d, rest⟩⟩⟩⟩ := item
  · rw [if_neg fun two => by simp [two] at counted]; rfl
  · rw [if_neg fun two => by simp [two] at counted]; rfl
  · rw [if_pos (UInt16.toNat_inj.mp counted)]
    simp [fileIdValue, TlvObject.byte, carries.value]
  · rw [if_neg fun two => by simp [two] at counted]; rfl

private theorem uint_number (value : List UInt8) (v : UInt32) (room : (v.toNat + 1) * 256 ^ value.length ≤ 2 ^ 32) :
    (value.foldl (fun (v : UInt32) b => (v <<< 8) ||| b.toUInt32) v).toNat =
      value.foldl (fun n b => n * 256 + b.toNat) v.toNat := by
  induction value generalizing v with
  | nil => rfl
  | cons b rest ih =>
    have byte := b.toNat_lt
    rw [List.length_cons, Nat.pow_succ', ← Nat.mul_assoc] at room
    have low := Nat.le_trans (Nat.le_mul_of_pos_right _ (Nat.pow_pos (by decide))) room
    have step := shift_in_toNat (v := v) (by omega) b
    have fits : (v.toNat * 256 + b.toNat + 1) * 256 ^ rest.length ≤ 2 ^ 32 :=
      Nat.le_trans (Nat.mul_le_mul_right _ (by omega)) room
    rw [List.foldl_cons, List.foldl_cons, ih _ (by rwa [step]), step]

private theorem sizeValue_carried (carries : Carries obj item) : sizeValue item.value =
    (tlvGetUint obj).toOption.bind fun v =>
      if v > fsMaxEfSize.toUInt32 then none else if v = 0 then none else some v.toUInt16 := by
  have counted := carries.length
  by_cases empty : item.value = []
  · simp [tlvGetUint, carries.value, empty, sizeValue, number, Except.toOption]
  · have filled : obj.length ≠ 0 := fun zero => by simp [zero, eq_comm, empty] at counted
    by_cases short : item.value.length ≤ 4
    · have few : ¬ obj.length > 4 := by
        rw [gt_iff_lt, UInt16.lt_iff_toNat_lt, counted]
        exact Nat.not_lt.mpr short
      have read := uint_number item.value 0 (by simpa using Nat.pow_le_pow_right (by decide) short)
      simp only [tlvGetUint, carries.value, empty, if_false, filled, few, Except.toOption, Option.bind_some]
      generalize item.value.foldl (fun (v : UInt32) b => (v <<< 8) ||| b.toUInt32) 0 = v at read ⊢
      have large : v > fsMaxEfSize.toUInt32 ↔ ¬ number item.value ≤ fsMaxEfSize.toNat := by
        rw [gt_iff_lt, UInt32.lt_iff_toNat_lt, read, UInt16.toNat_toUInt32, Nat.not_le]
        rfl
      have zero : v = 0 ↔ ¬ 1 ≤ number item.value := by
        rw [← UInt32.toNat_inj, read]
        exact Nat.not_lt.trans Nat.le_zero |>.symm
      have cut : v.toUInt16 = UInt16.ofNat (number item.value) := by
        rw [← show v.toNat = number item.value from read]
        rfl
      simp only [sizeValue, short, large, zero, cut]
      by_cases fits : number item.value ≤ fsMaxEfSize.toNat <;> by_cases positive : 1 ≤ number item.value <;>
        simp [fits, positive]
    · have many : obj.length > 4 := by
        rw [gt_iff_lt, UInt16.lt_iff_toNat_lt, counted]
        exact Nat.lt_of_not_le short
      simp [tlvGetUint, carries.value, empty, filled, many, sizeValue, short, Except.toOption]

/-- The `switch` reads the item the object carries. -/
theorem fcpObject_item (st : FcpState) (carries : Carries obj item) : (fcpObject st obj).toOption = fcpItem st item := by
  unfold fcpObject fcpItem
  simp only [carries.tag, once, typeValue, lifecycleValue, sfiValue, single_carried carries,
    fileIdValue_carried carries, sizeValue_carried carries]
  split
  · by_cases seen : st.haveFdb <;> by_cases one : obj.length = 1 <;> simp [seen, one, Except.toOption]
    cases decodeFdb (TlvObject.byte obj 0) <;> simp
  · split
    · by_cases seen : st.haveFid <;> by_cases two : obj.length = 2 <;> simp [seen, two, Except.toOption]
    · split
      · by_cases seen : st.haveSize
        · simp [seen, Except.toOption]
        · cases tlvGetUint obj with
          | error e => simp [seen, Except.toOption]
          | ok v => by_cases large : v > fsMaxEfSize.toUInt32 <;> by_cases zero : v = 0 <;>
              simp [seen, large, zero, Except.toOption]
      · split
        · by_cases one : obj.length = 1 <;> by_cases legal : lifecycleCreatable (TlvObject.byte obj 0) <;>
            simp [one, legal, Except.toOption]
        · split
          · by_cases one : obj.length = 1 <;> by_cases whole : TlvObject.byte obj 0 &&& 0x07 = 0 <;>
              by_cases large : TlvObject.byte obj 0 >>> 3 > 30 <;>
              simp [one, whole, large, ← UInt8.not_lt, Except.toOption]
          · rfl

end Object

def fcpTags : List UInt16 := [0x82, 0x83, 0x80, 0x8A, 0x88]

section Loop
variable {st out : FcpState} {items : List Item}

/-- The items of each tag act on their own part of the locals. -/
@[mk_iff]
structure Gathers (st : FcpState) (items : List Item) (out : FcpState) : Prop where
  tags : ∀ item ∈ items, item.tag ∈ fcpTags
  type : (values 0x82 items).foldlM (once typeValue) (st.haveFdb, st.type) = some (out.haveFdb, out.type)
  fileId : (values 0x83 items).foldlM (once fileIdValue) (st.haveFid, st.req.fileId) = some (out.haveFid, out.req.fileId)
  size : (values 0x80 items).foldlM (once sizeValue) (st.haveSize, st.req.size) = some (out.haveSize, out.req.size)
  lifecycle : Latest lifecycleValue (values 0x8A items) st.req.lifecycle out.req.lifecycle
  sfi : Latest sfiValue (values 0x88 items) st.req.sfi out.req.sfi
  rest : out.req = { st.req with
    fileId := out.req.fileId, size := out.req.size, lifecycle := out.req.lifecycle, sfi := out.req.sfi }

theorem foldlM_fcpItem : items.foldlM fcpItem st = some out ↔ Gathers st items out := by
  induction items generalizing st with
  | nil =>
    constructor
    · rintro ⟨⟩
      exact ⟨by simp, rfl, rfl, rfl, rfl, rfl, rfl⟩
    · intro gathers
      obtain ⟨fdb, type⟩ := by simpa using gathers.type
      obtain ⟨fid, fileId⟩ := by simpa using gathers.fileId
      obtain ⟨seen, size⟩ := by simpa using gathers.size
      have lifecycle : st.req.lifecycle = out.req.lifecycle := by simpa [Latest] using gathers.lifecycle
      have sfi : st.req.sfi = out.req.sfi := by simpa [Latest] using gathers.sfi
      have req := gathers.rest
      rw [← fileId, ← size, ← lifecycle, ← sfi] at req
      obtain ⟨outReq, outFdb, outFid, outSize, outType⟩ := out
      cases req
      cases fdb
      cases type
      cases fid
      cases seen
      rfl
  | cons item items ih =>
    rw [List.foldlM_cons]
    by_cases isType : item.tag = 0x82
    · cases read : once typeValue (st.haveFdb, st.type) item.value <;>
        simp [gathers_iff, fcpItem, fcpTags, isType, read, ih]
    by_cases isFileId : item.tag = 0x83
    · cases read : once fileIdValue (st.haveFid, st.req.fileId) item.value <;>
        simp [gathers_iff, fcpItem, fcpTags, isFileId, read, ih]
    by_cases isSize : item.tag = 0x80
    · cases read : once sizeValue (st.haveSize, st.req.size) item.value <;>
        simp [gathers_iff, fcpItem, fcpTags, isSize, read, ih]
    by_cases isLifecycle : item.tag = 0x8A
    · cases read : lifecycleValue item.value <;>
        simp [gathers_iff, fcpItem, fcpTags, isLifecycle, read, ih, Latest]
    by_cases isSfi : item.tag = 0x88
    · cases read : sfiValue item.value <;>
        simp [gathers_iff, fcpItem, fcpTags, isSfi, read, ih, Latest]
    · simp [gathers_iff, fcpItem, fcpTags, isType, isFileId, isSize, isLifecycle, isSfi]

private theorem fcpLoop_end {r next : TlvReader} (read : tlvNext r = (.error .end, next)) :
    fcpLoop r st = .ok st := by
  rw [fcpLoop]
  split <;> simp_all

private theorem fcpLoop_broken {r next : TlvReader} {e : TlvStatus} (notEnd : e ≠ .end)
    (read : tlvNext r = (.error e, next)) : fcpLoop r st = .error Apdu.swWrongData := by
  rw [fcpLoop]
  split <;> simp_all

private theorem fcpLoop_object {r next : TlvReader} {obj : TlvObject} (read : tlvNext r = (.ok obj, next)) :
    fcpLoop r st = (fcpObject st obj).bind (fcpLoop next) := by
  rw [fcpLoop]
  split <;> simp_all
  cases fcpObject st obj <;> rfl

/-- The loop accepts exactly the sequences whose items it accepts. -/
theorem fcpLoop_accepts {r : TlvReader} {st : FcpState} {bytes : List UInt8} (spans : Over r bytes) :
    fcpLoop r st = .ok out ↔
      ∃ items, Sequence (remaining bytes r.pos) items ∧ items.foldlM fcpItem st = some out := by
  have nexts := tlvNext_nexts spans
  generalize read : tlvNext r = result, found : BerTlv.next (remaining bytes r.pos) = step at nexts
  cases nexts with
  | finished next => simp [fcpLoop_end read, BerTlv.sequence_finished found]
  | broken notEnd next => simp [fcpLoop_broken notEnd read, BerTlv.not_sequence_broken found]
  | @item obj item next carries further =>
    have taken := fcpObject_item st carries
    cases outcome : fcpObject st obj with
    | error sw =>
      rw [outcome] at taken
      simp [fcpLoop_object read, outcome, Except.bind, BerTlv.sequence_item found, ← taken, Except.toOption]
    | ok after =>
      have shorter := (tlvNext_advances read).2
      rw [outcome] at taken
      simpa [fcpLoop_object read, outcome, Except.bind, BerTlv.sequence_item found, ← taken, Except.toOption] using
        fcpLoop_accepts further
termination_by r.len.toNat - r.pos.toNat

end Loop

/-! The templates. -/

/-- What `parse_fcp` enforces of the items in full, and the request they make. -/
structure Shape (items : List Item) (req : FsDescriptor) : Prop where
  tags : ∀ item ∈ items, item.tag ∈ fcpTags
  type : Once typeValue (values 0x82 items) req.type
  fileId : Once fileIdValue (values 0x83 items) req.fileId
  size : AtMostOnce sizeValue (values 0x80 items) 0 req.size
  ef : req.type = .efTransparent → req.size ≠ 0
  df : req.type = .df → req.size = 0 ∧ req.sfi = fsNoSfi
  rest : req = { fcpStart.req with
    fileId := req.fileId, type := req.type, lifecycle := req.lifecycle, size := req.size, sfi := req.sfi }

/-- A template that states each property of the file at most once. -/
structure Template (items : List Item) (req : FsDescriptor) : Prop extends Shape items req where
  lifecycle : AtMostOnce lifecycleValue (values 0x8A items) fsLcActivated req.lifecycle
  sfi : AtMostOnce sfiValue (values 0x88 items) fsNoSfi req.sfi

/-- The same with `8A` and `88` as often as one likes, the last of each counting. -/
structure Lenient (items : List Item) (req : FsDescriptor) : Prop extends Shape items req where
  lifecycle : Latest lifecycleValue (values 0x8A items) fsLcActivated req.lifecycle
  sfi : Latest sfiValue (values 0x88 items) fsNoSfi req.sfi

def Repeats (items : List Item) : Prop := 1 < (values 0x8A items).length ∨ 1 < (values 0x88 items).length

section Templates
variable {items others : List Item} {req : FsDescriptor} {out : FcpState}

theorem template_iff : Template items req ↔ Lenient items req ∧ ¬ Repeats items := by
  simp only [Repeats, not_or, Nat.not_lt]
  constructor
  · rintro ⟨shape, lifecycle, sfi⟩
    rw [atMostOnce_iff] at lifecycle sfi
    exact ⟨⟨shape, lifecycle.1, sfi.1⟩, lifecycle.2, sfi.2⟩
  · rintro ⟨⟨shape, lifecycle, sfi⟩, fewLifecycle, fewSfi⟩
    exact ⟨shape, atMostOnce_iff.mpr ⟨lifecycle, fewLifecycle⟩, atMostOnce_iff.mpr ⟨sfi, fewSfi⟩⟩

/-- The order of the items does not matter to a template. -/
theorem Template.perm (template : Template items req) (same : items.Perm others) : Template others req where
  tags := fun item member => template.tags item (same.mem_iff.mpr member)
  type := template.type.perm (values_perm same _)
  fileId := template.fileId.perm (values_perm same _)
  size := template.size.perm (values_perm same _)
  ef := template.ef
  df := template.df
  rest := template.rest
  lifecycle := template.lifecycle.perm (values_perm same _)
  sfi := template.sfi.perm (values_perm same _)

theorem sizeValue_ne_zero {value : List UInt8} {size : UInt16} (legal : sizeValue value = some size) : size ≠ 0 := by
  rintro rfl
  simp only [sizeValue, Option.ite_none_right_eq_some, Option.some.injEq] at legal
  obtain ⟨⟨-, positive, small⟩, zero⟩ := legal
  have nat := congrArg UInt16.toNat zero
  rw [UInt16.toNat_ofNat', Nat.mod_eq_of_lt (Nat.lt_of_le_of_lt small (by decide))] at nat
  exact Nat.ne_of_gt positive nat

/-- The checks behind the loop. -/
@[mk_iff]
structure Closes (out : FcpState) (req : FsDescriptor) : Prop where
  fdb : out.haveFdb = true
  fid : out.haveFid = true
  ef : out.type = .efTransparent → out.haveSize = true
  df : out.type = .df → out.haveSize = false ∧ out.req.sfi = fsNoSfi
  req : req = { out.req with type := out.type }

theorem gathers_closes : (∃ out, Gathers fcpStart items out ∧ Closes out req) ↔ Lenient items req := by
  constructor
  · rintro ⟨out, gathers, fdb, fid, ef, df, rfl⟩
    obtain ⟨-, seen, -⟩ | ⟨type, -⟩ := foldlM_once.mp gathers.type
    · rw [fdb] at seen; cases seen
    obtain ⟨-, seen, -⟩ | ⟨fileId, -⟩ := foldlM_once.mp gathers.fileId
    · rw [fid] at seen; cases seen
    have rest := congrArg (fun req => { req with type := out.type }) gathers.rest
    obtain ⟨none, unseen, zero⟩ | ⟨size, seen⟩ := foldlM_once.mp gathers.size
    · refine ⟨⟨gathers.tags, type, fileId, .inl ⟨none, zero⟩, ?_, ?_, rest⟩, gathers.lifecycle, gathers.sfi⟩
      · intro isEf
        rw [ef isEf] at unseen
        cases unseen
      · exact fun isDf => ⟨zero, (df isDf).2⟩
    · refine ⟨⟨gathers.tags, type, fileId, .inr size, ?_, ?_, rest⟩, gathers.lifecycle, gathers.sfi⟩
      · obtain ⟨_, _, legal⟩ := size
        exact fun _ => sizeValue_ne_zero legal
      · intro isDf
        rw [(df isDf).1] at seen
        cases seen
  · intro lenient
    refine ⟨⟨{ req with type := .free }, true, true, decide (req.size ≠ 0), req.type⟩, ?_, ?_⟩
    · refine ⟨lenient.tags, foldlM_once.mpr (.inr ⟨lenient.type, rfl⟩), foldlM_once.mpr (.inr ⟨lenient.fileId, rfl⟩),
        foldlM_once.mpr ?_, lenient.lifecycle, lenient.sfi, ?_⟩
      · obtain ⟨none, zero⟩ | size := lenient.size
        · exact .inl ⟨none, by simp [zero], zero⟩
        · obtain ⟨_, _, legal⟩ := id size
          exact .inr ⟨size, by simp [sizeValue_ne_zero legal]⟩
      · exact congrArg (fun req => { req with type := .free }) lenient.rest
    · exact ⟨rfl, rfl, fun isEf => by simp [lenient.ef isEf], fun isDf => by simp [lenient.df isDf], rfl⟩

/-- A field that is nothing but one `62` object stands for its value. -/
inductive Content (body : List UInt8) (items : List Item) : Prop where
  | wrapped {inner : List UInt8} (outer : Sequence body [⟨0x62, inner⟩]) (content : Sequence inner items)
  | bare (unwrapped : ∀ inner, ¬ Sequence body [⟨0x62, inner⟩]) (content : Sequence body items)

theorem Content.unique {body : List UInt8} (content : Content body items) (other : Content body others) :
    items = others := by
  cases content with
  | wrapped outer content =>
    cases other with
    | wrapped outer' content' =>
      cases outer.unique outer'
      exact content.unique content'
    | bare unwrapped => exact absurd outer (unwrapped _)
  | bare unwrapped content =>
    cases other with
    | wrapped outer => exact absurd outer (unwrapped _)
    | bare _ content' => exact content.unique content'

theorem content_bare {body : List UInt8} (sequence : Sequence body items) (several : items.length ≠ 1) :
    Content body items := by
  refine .bare (fun inner outer => several ?_) sequence
  rw [sequence.unique outer]
  rfl

end Templates

section Parser
variable {body : List UInt8} {items : List Item} {req : FsDescriptor}

/-- The checks behind the loop, as a step of their own. -/
def close (st : FcpState) : Except Apdu.Sw FsDescriptor :=
  if !st.haveFdb ∨ !st.haveFid then .error Apdu.swWrongData
  else if st.type = .efTransparent ∧ !st.haveSize then .error Apdu.swWrongData
  else if st.type = .df ∧ st.haveSize then .error Apdu.swWrongData
  else if st.type = .df ∧ st.req.sfi ≠ fsNoSfi then .error Apdu.swWrongData
  else .ok { st.req with type := st.type }

def parseContent (content : Option (List UInt8)) (length : UInt16) : Except Apdu.Sw FsDescriptor :=
  if length = 0 then .error Apdu.swWrongData
  else (fcpLoop (tlvReaderInit content length) fcpStart).bind close

theorem parseFcp_eq (body : List UInt8) (length : UInt16) :
    parseFcp body length = (fcpInner body length).bind fun inner => parseContent inner.1 inner.2 := rfl

theorem close_accepts {st : FcpState} : close st = .ok req ↔ Closes st req := by
  obtain ⟨kept, fdb, fid, size, type⟩ := st
  cases fdb <;> cases fid <;> cases size <;> cases type <;> by_cases sfi : kept.sfi = fsNoSfi <;>
    simp [close, closes_iff, sfi, eq_comm]

private theorem bind_ok {ε α β : Type} {x : Except ε α} {f : α → Except ε β} {b : β} :
    x.bind f = .ok b ↔ ∃ a, x = .ok a ∧ f a = .ok b := by
  cases x <;> simp [Except.bind]

theorem not_lenient_nil : ¬ Lenient [] req := by
  rintro ⟨⟨-, ⟨_, none, _⟩, -⟩, -⟩
  cases none

theorem parseContent_accepts {content : Option (List UInt8)} (short : body.length < 2 ^ 16)
    (filled : body ≠ [] → content = some body) : parseContent content (UInt16.ofNat body.length) = .ok req ↔
      ∃ items, Sequence body items ∧ Lenient items req := by
  by_cases empty : body = []
  · subst empty
    have nothing : BerTlv.next [] = .finished := rfl
    simp [parseContent, BerTlv.sequence_finished nothing, not_lenient_nil]
  have nonzero : UInt16.ofNat body.length ≠ 0 := by
    intro zero
    have nat := congrArg UInt16.toNat zero
    rw [UInt16.toNat_ofNat', Nat.mod_eq_of_lt short] at nat
    exact empty (List.length_eq_zero_iff.mp nat)
  simp only [parseContent, filled empty, nonzero, if_false, bind_ok, fcpLoop_accepts (over_init short),
    close_accepts, foldlM_fcpItem]
  constructor
  · rintro ⟨out, ⟨items, sequence, gathers⟩, closes⟩
    exact ⟨items, sequence, gathers_closes.mp ⟨out, gathers, closes⟩⟩
  · rintro ⟨items, sequence, lenient⟩
    obtain ⟨out, gathers, closes⟩ := gathers_closes.mpr lenient
    exact ⟨out, ⟨items, sequence, gathers⟩, closes⟩

theorem fcpInner_wrapped {inner : List UInt8} (short : body.length < 2 ^ 16) (outer : Sequence body [⟨0x62, inner⟩]) :
    fcpInner body (UInt16.ofNat body.length) =
      .ok (if inner = [] then none else some inner, UInt16.ofNat inner.length) := by
  have nexts := tlvNext_nexts (over_init short)
  unfold fcpInner
  generalize tlvNext _ = result, found : BerTlv.next _ = step at nexts ⊢
  cases nexts with
  | finished next => cases (BerTlv.sequence_finished found).mp outer
  | broken notEnd next => exact absurd outer (BerTlv.not_sequence_broken found)
  | item carries further =>
    obtain ⟨more, same, rest⟩ := (BerTlv.sequence_item found).mp outer
    cases same
    have done := (tlvReaderDone_iff further).mpr (BerTlv.sequence_nil_iff.mp rest)
    simp [carries.tag, carries.value, carries.length_eq, done]

theorem fcpInner_unwrapped (short : body.length < 2 ^ 16) (unwrapped : ∀ inner, ¬ Sequence body [⟨0x62, inner⟩]) :
    fcpInner body (UInt16.ofNat body.length) = .ok (some body, UInt16.ofNat body.length) ∨
      (∃ sw, fcpInner body (UInt16.ofNat body.length) = .error sw) ∧
        ∀ items, Sequence body items → ∃ item ∈ items, item.tag = 0x62 := by
  have nexts := tlvNext_nexts (over_init short)
  unfold fcpInner
  generalize tlvNext _ = result, found : BerTlv.next _ = step at nexts ⊢
  cases nexts with
  | finished next => exact .inl rfl
  | broken notEnd next => exact .inl rfl
  | @item obj item next carries further =>
    by_cases outer : item.tag = 0x62
    · have undone : tlvReaderDone next ≠ true := by
        intro done
        refine unwrapped item.value ((BerTlv.sequence_item found).mpr ⟨[], ?_, ?_⟩)
        · rw [← outer]
        · exact BerTlv.sequence_nil_iff.mpr ((tlvReaderDone_iff further).mp done)
      refine .inr ⟨⟨Apdu.swWrongData, by simp [carries.tag, outer, undone]⟩, fun items sequence => ?_⟩
      obtain ⟨more, rfl, -⟩ := (BerTlv.sequence_item found).mp sequence
      exact ⟨item, List.mem_cons_self, outer⟩
    · exact .inl (by simp [carries.tag, outer])

/-- `parse_fcp` accepts a data field exactly when its content is a lenient template. -/
theorem parseFcp_accepts (short : body.length < 2 ^ 16) :
    parseFcp body (UInt16.ofNat body.length) = .ok req ↔ ∃ items, Content body items ∧ Lenient items req := by
  rw [parseFcp_eq]
  by_cases wrapped : ∃ inner, Sequence body [⟨0x62, inner⟩]
  · obtain ⟨inner, outer⟩ := wrapped
    have contents : ∀ items, Content body items ↔ Sequence inner items := by
      refine fun items => ⟨fun content => ?_, .wrapped outer⟩
      cases content with
      | wrapped other content => cases outer.unique other; exact content
      | bare unwrapped => exact absurd outer (unwrapped inner)
    have inside := outer.value_length_le List.mem_cons_self
    simp only [fcpInner_wrapped short outer, Except.bind, contents]
    exact parseContent_accepts (Nat.lt_of_le_of_lt inside short) fun filled => if_neg filled
  · have unwrapped : ∀ inner, ¬ Sequence body [⟨0x62, inner⟩] := fun inner outer => wrapped ⟨inner, outer⟩
    have contents : ∀ items, Content body items ↔ Sequence body items := by
      refine fun items => ⟨fun content => ?_, .bare unwrapped⟩
      cases content with
      | wrapped outer => exact absurd outer (unwrapped _)
      | bare _ content => exact content
    simp only [contents]
    obtain inner | ⟨⟨sw, inner⟩, outer⟩ := fcpInner_unwrapped short unwrapped
    · simp only [inner, Except.bind]
      exact parseContent_accepts short fun _ => rfl
    · simp only [inner, Except.bind, reduceCtorEq, false_iff]
      rintro ⟨items, sequence, lenient⟩
      obtain ⟨item, member, tag⟩ := outer items sequence
      have known := lenient.tags item member
      rw [tag] at known
      exact absurd known (by decide)

end Parser

section Requests
variable {body : List UInt8} {items : List Item} {req : FsDescriptor}

theorem single_eq_some {α : Type} {read : UInt8 → Option α} {value : List UInt8} {x : α} :
    single read value = some x ↔ ∃ b, value = [b] ∧ read b = some x := by
  obtain _ | ⟨b, _ | ⟨c, rest⟩⟩ := value <;> simp [single]

private theorem decodeFdb_file {fdb : UInt8} {type : FsFileType} (decoded : decodeFdb fdb = .ok type) :
    type = .df ∨ type = .efTransparent := by
  unfold decodeFdb at decoded
  split at decoded
  · cases decoded
  split at decoded
  · split at decoded
    · cases decoded
    · exact .inl (Except.ok.inj decoded).symm
  split at decoded
  · exact .inr (Except.ok.inj decoded).symm
  · cases decoded

/-- A request that `parse_fcp` returns passes the checks that `fs_create_file` repeats. -/
theorem Lenient.sound (lenient : Lenient items req) :
    checkRequestType req = none ∧ lifecycleCreatable req.lifecycle = true := by
  have type : req.type = .df ∨ req.type = .efTransparent := by
    obtain ⟨v, -, legal⟩ := lenient.type
    obtain ⟨fdb, -, decoded⟩ := single_eq_some.mp legal
    cases read : decodeFdb fdb with
    | error sw => simp [read, Except.toOption] at decoded
    | ok kind =>
      cases (by simpa [read, Except.toOption] using decoded : kind = req.type)
      exact decodeFdb_file read
  have sfi : req.sfi ≤ 30 := by
    refine lenient.sfi.holds (P := (· ≤ 30)) (by decide) fun v y legal => ?_
    obtain ⟨b, -, read⟩ := single_eq_some.mp legal
    simp only [Option.ite_none_right_eq_some, Option.some.injEq] at read
    obtain ⟨⟨-, small⟩, rfl⟩ := read
    exact small
  have size : req.size ≤ fsMaxEfSize := by
    obtain ⟨-, zero⟩ | ⟨v, -, legal⟩ := lenient.size
    · rw [zero]; decide
    · simp only [sizeValue, Option.ite_none_right_eq_some, Option.some.injEq] at legal
      obtain ⟨⟨-, -, small⟩, same⟩ := legal
      rw [← same]
      exact UInt16.le_iff_toNat_le.mpr (Nat.le_trans (Nat.mod_le _ _) small)
  constructor
  · obtain isDf | isEf := type
    · obtain ⟨noSize, noSfi⟩ := lenient.df isDf
      simp [checkRequestType, isDf, noSize, noSfi]
    · have fits : ¬ (req.size = 0 ∨ req.size > fsMaxEfSize) :=
        not_or.mpr ⟨lenient.ef isEf, UInt16.not_lt.mpr size⟩
      have names : ¬ (req.sfi ≠ fsNoSfi ∧ (req.sfi < 1 ∨ req.sfi > 30)) := by
        rintro ⟨named, low | high⟩
        · exact named (UInt8.toNat_inj.mp (Nat.lt_one_iff.mp (UInt8.lt_iff_toNat_lt.mp low)))
        · exact UInt8.not_lt.mpr sfi high
      simp only [checkRequestType, isEf, fits, names, if_false]
  · refine lenient.lifecycle.holds (P := fun lc => lifecycleCreatable lc = true) (by decide) fun v lc legal => ?_
    obtain ⟨b, -, read⟩ := single_eq_some.mp legal
    simp only [Option.ite_none_right_eq_some, Option.some.injEq] at read
    obtain ⟨creatable, rfl⟩ := read
    exact creatable

theorem parsed_sound (short : body.length < 2 ^ 16) (parsed : parseFcp body (UInt16.ofNat body.length) = .ok req) :
    checkRequestType req = none ∧ lifecycleCreatable req.lifecycle = true := by
  obtain ⟨items, -, lenient⟩ := (parseFcp_accepts short).mp parsed
  exact lenient.sound

end Requests

/-! What CREATE FILE may ask for. -/

/-- A data field is accepted exactly when its content is a template. -/
def AcceptsTemplates (body : List UInt8) : Prop :=
  ∀ req, parseFcp body (UInt16.ofNat body.length) = .ok req ↔ ∃ items, Content body items ∧ Template items req

/-- The request survives any reordering of the objects, in any data field. -/
def IgnoresOrder (body : List UInt8) : Prop :=
  ∀ other items others req, other ≠ [] → other.length ≤ 255 → Content body items → Content other others →
    items.Perm others → parseFcp body (UInt16.ofNat body.length) = .ok req →
      parseFcp other (UInt16.ofNat other.length) = .ok req

/-- The template grammar describes `parse_fcp`, and order does not matter, except
where a template repeats its life cycle or its short identifier. -/
theorem template_accepted_exactly_iff (body : List UInt8) (_filled : body ≠ []) (short : body.length ≤ 255) :
    (AcceptsTemplates body ∧ IgnoresOrder body) ↔
      ¬ ∃ items req, Content body items ∧ Lenient items req ∧ Repeats items := by
  have accepts : ∀ req, _ ↔ ∃ items, Content body items ∧ Lenient items req :=
    fun req => parseFcp_accepts (Nat.lt_of_le_of_lt short (by decide))
  constructor
  · rintro ⟨exact, -⟩ ⟨items, req, content, lenient, repeats⟩
    obtain ⟨others, content', template⟩ := (exact req).mp ((accepts req).mpr ⟨items, content, lenient⟩)
    cases content.unique content'
    exact (template_iff.mp template).2 repeats
  · intro single
    have template : ∀ {items req}, Content body items → Lenient items req → Template items req :=
      fun content lenient => template_iff.mpr ⟨lenient, fun repeats => single ⟨_, _, content, lenient, repeats⟩⟩
    refine ⟨fun req => ?_, fun other items others req _ shortOther content contentOther same parsed => ?_⟩
    · rw [accepts]
      constructor
      · rintro ⟨items, content, lenient⟩
        exact ⟨items, content, template content lenient⟩
      · rintro ⟨items, content, template⟩
        exact ⟨items, content, (template_iff.mp template).1⟩
    · obtain ⟨found, contentFound, lenient⟩ := (accepts req).mp parsed
      cases content.unique contentFound
      have reordered := (template content lenient).perm same
      exact (parseFcp_accepts (Nat.lt_of_le_of_lt shortOther (by decide))).mpr
        ⟨others, contentOther, (template_iff.mp reordered).1⟩

theorem template_accepted_exactly_iff_df :
    AcceptsTemplates [0x82, 0x01, 0x38, 0x83, 0x02, 0x7F, 0x20] ∧
      IgnoresOrder [0x82, 0x01, 0x38, 0x83, 0x02, 0x7F, 0x20] := by
  refine (template_accepted_exactly_iff _ (by decide) (by decide)).mpr ?_
  have sequence : Sequence [0x82, 0x01, 0x38, 0x83, 0x02, 0x7F, 0x20] [⟨0x82, [0x38]⟩, ⟨0x83, [0x7F, 0x20]⟩] :=
    (BerTlv.sequence_item rfl).mpr ⟨_, rfl, (BerTlv.sequence_item rfl).mpr ⟨_, rfl, .nil⟩⟩
  rintro ⟨items, req, content, -, repeats⟩
  cases content.unique (content_bare sequence (by decide))
  simp [Repeats] at repeats

/-- A second `88` is accepted and overrides the first, so the order of the two decides
the short identifier of the file. -/
theorem repeated_sfi_accepted :
    let head : List UInt8 := [0x82, 0x01, 0x01, 0x83, 0x02, 0x12, 0x34, 0x80, 0x02, 0x00, 0x01]
    let items : List Item := [⟨0x82, [0x01]⟩, ⟨0x83, [0x12, 0x34]⟩, ⟨0x80, [0x00, 0x01]⟩]
    (parseFcp (head ++ [0x88, 0x01, 0x08, 0x88, 0x01, 0x10]) 17).toOption.map FsDescriptor.sfi = some 2 ∧
      (parseFcp (head ++ [0x88, 0x01, 0x10, 0x88, 0x01, 0x08]) 17).toOption.map FsDescriptor.sfi = some 1 ∧
      Content (head ++ [0x88, 0x01, 0x08, 0x88, 0x01, 0x10]) (items ++ [⟨0x88, [0x08]⟩, ⟨0x88, [0x10]⟩]) ∧
      Content (head ++ [0x88, 0x01, 0x10, 0x88, 0x01, 0x08]) (items ++ [⟨0x88, [0x10]⟩, ⟨0x88, [0x08]⟩]) := by
  have sequence : ∀ a b : UInt8, Sequence
      [0x82, 0x01, 0x01, 0x83, 0x02, 0x12, 0x34, 0x80, 0x02, 0x00, 0x01, 0x88, 0x01, a, 0x88, 0x01, b]
      [⟨0x82, [0x01]⟩, ⟨0x83, [0x12, 0x34]⟩, ⟨0x80, [0x00, 0x01]⟩, ⟨0x88, [a]⟩, ⟨0x88, [b]⟩] := by
    intro a b
    refine (BerTlv.sequence_item rfl).mpr ⟨_, rfl, (BerTlv.sequence_item rfl).mpr ⟨_, rfl, ?_⟩⟩
    refine (BerTlv.sequence_item rfl).mpr ⟨_, rfl, (BerTlv.sequence_item rfl).mpr ⟨_, rfl, ?_⟩⟩
    exact (BerTlv.sequence_item rfl).mpr ⟨_, rfl, .nil⟩
  exact ⟨by decide +kernel, by decide +kernel, content_bare (sequence 0x08 0x10) (by decide),
    content_bare (sequence 0x10 0x08) (by decide)⟩

end CardOs.FcpProofs
