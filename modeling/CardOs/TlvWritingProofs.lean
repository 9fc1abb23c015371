import CardOs.TlvReadingProofs

/-! The TLV writer against the reader. What a run of `tlv_put` calls leaves in the
buffer is read back as it was put in when every tag is one the reader can return: the
writer itself does not look at the tag. -/
namespace CardOs.TlvWritingProofs
open CardOs.Apdu CardOs.Tlv CardOs.TlvProofs CardOs.TlvReadingProofs CardOs.Library CardOs.Library.BigEndian
open CardOs.Library.BerTlv (Filler TagField LengthField Sequence Item)

/-- The arguments of one `tlv_put`. -/
structure PutCall where
  tag : UInt16
  source : Option (List UInt8)
  length : UInt16
  readable : ∀ bytes, source = some bytes → length.toNat ≤ bytes.length

/-- The value bytes the caller asks for. -/
def PutCall.value (c : PutCall) : List UInt8 := (c.source.getD []).take c.length.toNat

/-- A run of calls on one buffer, all of which return true. -/
def putAll (cap : UInt16) : List PutCall → List UInt8 → UInt16 → Option (List UInt8 × UInt16)
  | [], bytes, pos => some (bytes, pos)
  | c :: rest, bytes, pos =>
    match tlvPut (some bytes) cap pos c.tag c.source c.length with
    | (true, some after, next) => putAll cap rest after next
    | _ => none

/-- A tag that the reader can return. -/
def tagReadable (tag : UInt16) : Bool :=
  let hi := (tag >>> 8).toUInt8
  let lo := (tag &&& 0xFF).toUInt8
  if tag > 0xFF then hi &&& 0x1F = 0x1F && hi != 0xFF && lo &&& 0x80 = 0
  else lo &&& 0x1F != 0x1F && lo != 0x00

/-- The tag and the value a call hands to its caller. -/
def told (result : Except TlvStatus TlvObject) : Except TlvStatus (UInt16 × List UInt8) :=
  result.map fun obj => (obj.tag, obj.value.getD [])

/-- Reading the bytes returns what the calls put there, and then the end. -/
def ReadsBack (bytes : List UInt8) (calls : List PutCall) : Prop :=
  (tlvCalls (calls.length + 1) (tlvReaderInit (some bytes) (UInt16.ofNat bytes.length))).map told =
    calls.map (fun c => .ok (c.tag, c.value)) ++ [.error .end]

instance (bytes : List UInt8) (calls : List PutCall) : Decidable (ReadsBack bytes calls) :=
  inferInstanceAs (Decidable (_ = _))

/-- The tag bytes `tlv_put` emits. -/
def tagField (tag : UInt16) : List UInt8 :=
  if tag > 0xFF then bytes16 tag else [(tag &&& 0xFF).toUInt8]

def PutCall.bytes (c : PutCall) : List UInt8 := tagField c.tag ++ c.length.toUInt8 :: c.value

section Writer
variable {buf buf' : Option (List UInt8)} {bytes bytes' : List UInt8} {cap pos pos' tag length : UInt16}
  {value : Option (List UInt8)}

private theorem take_set {p : Nat} {b : UInt8} (inside : p < bytes.length) :
    (bytes.set p b).take (p + 1) = bytes.take p ++ [b] := by
  rw [List.take_set, List.take_succ_eq_append_getElem inside, List.set_append_right _ _ (List.length_take_le ..),
    List.length_take, Nat.min_eq_left (Nat.le_of_lt inside), Nat.sub_self]
  rfl

private theorem take_overwrite {p : Nat} {src : List UInt8} (inside : p ≤ bytes.length) :
    (overwrite bytes p src).take (p + src.length) = bytes.take p ++ src := by
  rw [overwrite, List.take_append_of_le_length (by simp [inside])]
  exact List.take_of_length_le (by simp [inside])

private theorem overwrite_length {p : Nat} {src : List UInt8} (inside : p + src.length ≤ bytes.length) :
    (overwrite bytes p src).length = bytes.length := by
  simp only [overwrite, List.length_append, List.length_take, List.length_drop]
  omega

private theorem tagField_width (tag : UInt16) :
    (if tag > 0xFF then (2 : UInt16) else 1).toNat = (tagField tag).length := by
  unfold tagField
  split <;> rfl

private theorem tagField_short (tag : UInt16) : (tagField tag).length ≤ 2 := by
  unfold tagField
  split <;> simp

/-- The room check of `tlv_put` is exact. -/
private theorem need_exact (cap pos tag : UInt16) (low : ¬ length > 127) :
    pos.toUInt32 + ((if tag > 0xFF then (2 : UInt16) else 1).toUInt32 + 1 + length.toUInt32) > cap.toUInt32 ↔
      cap.toNat < pos.toNat + ((tagField tag).length + 1) + length.toNat := by
  have short := UInt16.le_iff_toNat_le.mp (UInt16.not_lt.mp low)
  have bound := pos.toNat_lt
  have few := tagField_short tag
  simp only [UInt16.reduceToNat] at short
  rw [gt_iff_lt, UInt32.lt_iff_toNat_lt, UInt32.toNat_add, UInt32.toNat_add, UInt32.toNat_add, UInt16.toNat_toUInt32,
    UInt16.toNat_toUInt32, UInt16.toNat_toUInt32, UInt16.toNat_toUInt32, tagField_width, UInt32.toNat_one]
  omega

private theorem putHeader_position (bytes : List UInt8) (length : UInt16)
    (bound : pos.toNat + ((tagField tag).length + 1) < 2 ^ 16) :
    (putHeader bytes pos (if tag > 0xFF then 2 else 1) tag length).2.toNat =
      pos.toNat + ((tagField tag).length + 1) := by
  unfold putHeader tagField at *
  by_cases two : tag > 0xFF
  · simp only [two, if_true, bytes16_length] at bound ⊢
    have first := @succ_exact pos (by omega)
    have second := @succ_exact (pos + 1) (by omega)
    rw [succ_exact (by omega), second, first]
  · simp only [two, if_false, show ¬ (1 : UInt16) = 2 by decide, List.length_singleton] at bound ⊢
    have first := @succ_exact pos (by omega)
    rw [succ_exact (by omega), first]

/-- The header goes over the bytes from the position on. -/
private theorem putHeader_written (length : UInt16) (room : pos.toNat + ((tagField tag).length + 1) ≤ bytes.length)
    (bound : pos.toNat + ((tagField tag).length + 1) < 2 ^ 16) :
    (putHeader bytes pos (if tag > 0xFF then 2 else 1) tag length).1.length = bytes.length ∧
      (putHeader bytes pos (if tag > 0xFF then 2 else 1) tag length).1.take (pos.toNat + ((tagField tag).length + 1)) =
        bytes.take pos.toNat ++ (tagField tag ++ [length.toUInt8]) := by
  unfold putHeader tagField at *
  by_cases two : tag > 0xFF
  · simp only [two, if_true, bytes16_length] at room bound ⊢
    have first := @succ_exact pos (by omega)
    have second := @succ_exact (pos + 1) (by omega)
    refine ⟨by simp, ?_⟩
    rw [second, first, ← Nat.add_assoc, take_set (by simp; omega), take_set (by simp; omega), take_set (by omega)]
    simp [bytes16]
  · simp only [two, if_false, show ¬ (1 : UInt16) = 2 by decide, List.length_singleton] at room bound ⊢
    have first := @succ_exact pos (by omega)
    refine ⟨by simp, ?_⟩
    rw [first, take_set (by simp; omega), take_set (by omega)]
    simp

/-- The arguments that `tlv_put` accepts. -/
private def Accepted (cap pos tag : UInt16) (value : Option (List UInt8)) (length : UInt16) : Prop :=
  ¬ (length > 0 ∧ value.isNone) ∧ ¬ length > 127 ∧ pos.toNat + ((tagField tag).length + 1) + length.toNat ≤ cap.toNat

private theorem tlvPut_refused (refused : ¬ Accepted cap pos tag value length) :
    tlvPut (some bytes) cap pos tag value length = (false, some bytes, pos) := by
  unfold tlvPut
  dsimp only
  by_cases given : length > 0 ∧ value.isNone
  · rw [if_pos given]
  by_cases low : length > 127
  · rw [if_neg given, if_pos low]
  have full : ¬ pos.toNat + ((tagField tag).length + 1) + length.toNat ≤ cap.toNat :=
    fun room => refused ⟨given, low, room⟩
  rw [if_neg given, if_neg low, if_pos ((need_exact cap pos tag low).mpr (Nat.not_le.mp full))]

/-- With its arguments accepted `tlv_put` cannot fail: the copy has the room it needs. -/
private theorem tlvPut_accepted (bytes : List UInt8) (accepted : Accepted cap pos tag value length) :
    let header := putHeader bytes pos (if tag > 0xFF then 2 else 1) tag length
    tlvPut (some bytes) cap pos tag value length =
      (true, some (if length > 0 then overwrite header.1 header.2.toNat ((value.getD []).take length.toNat)
        else header.1), header.2 + length) := by
  intro header
  obtain ⟨given, low, room⟩ := accepted
  have bound := cap.toNat_lt
  have space := (not_congr (need_exact cap pos tag low)).mpr (Nat.not_lt.mpr room)
  have place : header.2.toNat = pos.toNat + ((tagField tag).length + 1) := putHeader_position bytes length (by omega)
  have left : (cap - header.2).toNat = cap.toNat - header.2.toNat :=
    UInt16.toNat_sub_of_le cap header.2 (UInt16.le_iff_toNat_le.mpr (by omega))
  have few : ((value.getD []).take length.toNat).length ≤ length.toNat := List.length_take_le ..
  have copies : osMemcpyChecked (cap - header.2).toNat ((value.getD []).take length.toNat) =
      some ((value.getD []).take length.toNat) := by
    unfold osMemcpyChecked
    split
    · rename_i empty
      rw [List.length_eq_zero_iff.mp empty]
    · rw [if_neg (by rw [left]; omega)]
  unfold tlvPut
  dsimp only
  rw [if_neg given, if_neg low, if_neg space]
  by_cases some : length > 0
  · rw [if_pos some, if_pos some, copies]
  · have none : length = 0 :=
      UInt16.toNat_inj.mp (Nat.eq_zero_of_not_pos fun pos => some (UInt16.lt_iff_toNat_lt.mpr pos))
    rw [if_neg some, if_neg some, show header.2 + length = header.2 by rw [none, UInt16.add_zero]]

/-- A `tlv_put` that returns false has done nothing. -/
theorem tlvPut_false (put : (tlvPut buf cap pos tag value length).1 = false) :
    tlvPut buf cap pos tag value length = (false, buf, pos) := by
  cases buf with
  | none => rfl
  | some bytes =>
    by_cases accepted : Accepted cap pos tag value length
    · rw [tlvPut_accepted bytes accepted] at put
      cases put
    · exact tlvPut_refused accepted

/-- What is put is a header and a value, and nothing before the position changes. -/
theorem tlvPut_true (whole : cap.toNat ≤ bytes.length) (long : ∀ src, value = some src → length.toNat ≤ src.length)
    (put : tlvPut (some bytes) cap pos tag value length = (true, some bytes', pos')) :
    length ≤ 127 ∧ ((value.getD []).take length.toNat).length = length.toNat ∧ bytes'.length = bytes.length ∧
      pos'.toNat ≤ cap.toNat ∧
      bytes'.take pos'.toNat =
        bytes.take pos.toNat ++ (tagField tag ++ length.toUInt8 :: (value.getD []).take length.toNat) := by
  have accepted : Accepted cap pos tag value length := by
    by_contra refused
    rw [tlvPut_refused refused] at put
    cases put
  have put := (tlvPut_accepted bytes accepted).symm.trans put
  obtain ⟨given, low, room⟩ := accepted
  have bound := cap.toNat_lt
  have place := @putHeader_position pos tag bytes length (by omega)
  obtain ⟨sized, header⟩ := @putHeader_written bytes pos tag length (by omega) (by omega)
  generalize putHeader bytes pos (if tag > 0xFF then 2 else 1) tag length = made at put place sized header
  obtain ⟨headed, p⟩ := made
  simp only [Prod.mk.injEq, Option.some.injEq, true_and] at put place sized header
  obtain ⟨rfl, rfl⟩ := put
  have final : (p + length).toNat = p.toNat + length.toNat := by
    rw [UInt16.toNat_add]
    exact Nat.mod_eq_of_lt (by omega)
  have copied : ((value.getD []).take length.toNat).length = length.toNat := by
    cases value with
    | some src => rw [Option.getD_some, List.length_take, Nat.min_eq_left (long src rfl)]
    | none =>
      have zero : ¬ length > 0 := fun some => given ⟨some, rfl⟩
      have zero := mt UInt16.lt_iff_toNat_lt.mpr zero
      simp only [UInt16.toNat_zero] at zero
      simp
      omega
  refine ⟨UInt16.not_lt.mp low, copied, ?_, by omega, ?_⟩
  · split
    · rw [overwrite_length (by rw [copied]; omega), sized]
    · exact sized
  · split
    · have all := @take_overwrite headed p.toNat ((value.getD []).take length.toNat) (by omega)
      rw [copied, place, header] at all
      rw [final, place, all]
      simp
    · rename_i empty
      have none : length.toNat = 0 := Nat.eq_zero_of_not_pos fun some => empty (UInt16.lt_iff_toNat_lt.mpr some)
      rw [final, none, Nat.add_zero, place, header, List.take_zero]

/-- A run of calls that all succeed leaves their bytes one behind the other. -/
theorem putAll_written {calls : List PutCall} (whole : cap.toNat ≤ bytes.length) (inside : pos.toNat ≤ cap.toNat)
    (put : putAll cap calls bytes pos = some (bytes', pos')) :
    (∀ c ∈ calls, c.length ≤ 127 ∧ c.value.length = c.length.toNat) ∧ pos'.toNat ≤ cap.toNat ∧
      bytes'.length = bytes.length ∧
      bytes'.take pos'.toNat = bytes.take pos.toNat ++ calls.flatMap PutCall.bytes := by
  induction calls generalizing bytes pos with
  | nil =>
    cases put
    exact ⟨by simp, inside, rfl, by simp⟩
  | cons c rest ih =>
    rw [putAll] at put
    split at put
    · rename_i after next first
      obtain ⟨low, value, sized, inside', written⟩ := tlvPut_true whole c.readable first
      obtain ⟨each, last, same, all⟩ := ih (by omega) inside' put
      refine ⟨List.forall_mem_cons.mpr ⟨⟨low, value⟩, each⟩, last, by omega, ?_⟩
      rw [all, written, List.flatMap_cons, List.append_assoc]
      rfl
    · cases put

end Writer

/-! Tags. -/

section Tags
variable {tag : UInt16} {field : List UInt8}

private theorem low_byte_one {t : UInt8} : ¬ t.toUInt16 > 0xFF ∧ (t.toUInt16 &&& 0xFF).toUInt8 = t := by
  have parts := bytes16_word16 0 t
  have word : word16 0 t = t.toUInt16 := by simp [word16]
  simp only [bytes16, word, List.cons.injEq, and_true] at parts
  refine ⟨?_, parts.2⟩
  have bound := t.toNat_lt
  rw [gt_iff_lt, UInt16.lt_iff_toNat_lt, UInt8.toNat_toUInt16]
  simp only [UInt16.reduceToNat]
  omega

private theorem readable_of_field (tagged : TagField field tag) : tagReadable tag = true := by
  cases tagged with
  | one first short =>
    rename_i t
    obtain ⟨small, low⟩ := @low_byte_one t
    have nonzero : t ≠ 0 := fun zero => first (.inl zero)
    simp [tagReadable, small, low, short, nonzero]
  | two first long last =>
    rename_i t u
    have parts := bytes16_word16 t u
    simp only [bytes16, List.cons.injEq, and_true] at parts
    have large : word16 t u > 0xFF := by
      have nonzero : t.toNat ≠ 0 := fun zero => first (.inl (UInt8.toNat_inj.mp zero))
      rw [gt_iff_lt, UInt16.lt_iff_toNat_lt, word16_toNat]
      simp only [UInt16.reduceToNat]
      omega
    have filled : t ≠ 0xFF := fun full => first (.inr full)
    change tagReadable (word16 t u) = true
    simp [tagReadable, large, parts, long, last, filled]

private theorem field_of_readable (readable : tagReadable tag = true) : TagField (tagField tag) tag := by
  have whole := word16_bytes16 tag
  unfold tagReadable at readable
  unfold tagField bytes16
  generalize (tag >>> 8).toUInt8 = hi, (tag &&& 0xFF).toUInt8 = lo at whole readable ⊢
  by_cases two : tag > 0xFF
  · simp only [two, if_true, Bool.and_eq_true, decide_eq_true_eq, bne_iff_ne, ne_eq] at readable ⊢
    obtain ⟨⟨long, filled⟩, last⟩ := readable
    have first : ¬ Filler hi := by
      rintro (rfl | full)
      · exact absurd long (by decide)
      · exact filled full
    exact whole ▸ TagField.two first long last
  · simp only [two, if_false, Bool.and_eq_true, bne_iff_ne, ne_eq] at readable ⊢
    obtain ⟨short, nonzero⟩ := readable
    have first : ¬ Filler lo := by
      rintro (zero | rfl)
      · exact nonzero zero
      · exact absurd rfl short
    have value : tag = lo.toUInt16 := by
      have small := UInt16.le_iff_toNat_le.mp (UInt16.not_lt.mp two)
      have sum := congrArg UInt16.toNat whole
      have bound := lo.toNat_lt
      rw [word16_toNat] at sum
      apply UInt16.toNat_inj.mp
      rw [UInt8.toNat_toUInt16]
      simp only [UInt16.reduceToNat] at small
      omega
    rw [value]
    exact TagField.one first short

theorem tagReadable_iff : tagReadable tag = true ↔ ∃ field, TagField field tag :=
  ⟨fun readable => ⟨_, field_of_readable readable⟩, fun ⟨_, tagged⟩ => readable_of_field tagged⟩

end Tags

section Reader
variable {r : TlvReader} {bytes : List UInt8} {items : List Item} {calls : List PutCall}

/-- Calls on a reader over a sequence return its items. -/
theorem tlvCalls_sequence (spans : Over r bytes) (sequence : Sequence (remaining bytes r.pos) items) :
    (tlvCalls (items.length + 1) r).map told =
      items.map (fun item => .ok (item.tag, item.value)) ++ [.error .end] := by
  induction items generalizing r with
  | nil =>
    have nexts := tlvNext_nexts spans
    rw [BerTlv.sequence_nil_iff.mp sequence] at nexts
    rcases read : tlvNext r with ⟨result, r'⟩
    rw [read] at nexts
    cases nexts
    rw [List.length_nil, tlvCalls, read]
    rfl
  | cons item rest ih =>
    have nexts := tlvNext_nexts spans
    rcases read : tlvNext r with ⟨result, r'⟩
    rw [read] at nexts
    have found := BerTlv.sequence_iff.mp sequence
    generalize BerTlv.next (remaining bytes r.pos) = step at nexts found
    cases nexts with
    | finished => cases found
    | broken => exact found.elim
    | item carries over' =>
      obtain ⟨more, same, sequence'⟩ := found
      obtain ⟨rfl, rfl⟩ := List.cons.inj same
      rw [List.length_cons, tlvCalls, List.map_cons, read, ih over' sequence', List.map_cons, List.cons_append]
      congr 1
      rw [told, Except.map, carries.tag, carries.value]
      split
      · rename_i empty
        rw [empty]
        rfl
      · rfl

/-- The reader returns readable tags only. -/
theorem tlvCalls_readable (spans : Over r bytes) (n : Nat) :
    ∀ obj, .ok obj ∈ tlvCalls n r → tagReadable obj.tag = true := by
  induction n generalizing r with
  | zero => simp [tlvCalls]
  | succ n ih =>
    intro obj member
    rw [tlvCalls] at member
    rcases List.mem_cons.mp member with here | later
    · obtain ⟨x, encodes, -⟩ := @tlvNext_extent r (tlvNext r).2 bytes obj spans (Prod.ext here.symm rfl)
      exact tagReadable_iff.mpr ⟨_, encodes.tag⟩
    · exact ih (tlvNext_over spans) obj later

theorem sequence_put (readable : ∀ c ∈ calls, tagReadable c.tag = true)
    (sized : ∀ c ∈ calls, c.length ≤ 127 ∧ c.value.length = c.length.toNat) :
    Sequence (calls.flatMap PutCall.bytes) (calls.map fun c => ⟨c.tag, c.value⟩) := by
  induction calls with
  | nil => exact .nil
  | cons c rest ih =>
    obtain ⟨first, readable⟩ := List.forall_mem_cons.mp readable
    obtain ⟨⟨low, length⟩, sized⟩ := List.forall_mem_cons.mp sized
    have counted : c.length.toUInt8.toNat = c.value.length := by
      have low := UInt16.le_iff_toNat_le.mp low
      simp only [UInt16.reduceToNat] at low
      rw [UInt16.toNat_toUInt8, length]
      omega
    have measured : LengthField [c.length.toUInt8] c.value.length := by
      rw [← counted]
      apply LengthField.short
      rw [UInt8.lt_iff_toNat_lt, counted, length]
      exact Nat.lt_succ_of_le (UInt16.le_iff_toNat_le.mp low)
    have whole := Sequence.item (field_of_readable first) measured (ih readable sized)
    simpa [PutCall.bytes] using whole

end Reader

/-- Reading back what a run of successful calls has written gives their tags and values
and then the end, exactly when every tag is one the reader knows; and a call that
returns false leaves the position and the buffer alone in any case. -/
theorem tlv_writer_reads_back_iff (bytes : List UInt8) (cap : UInt16) (whole : cap.toNat ≤ bytes.length)
    (calls : List PutCall) {written : List UInt8} {pos : UInt16} (put : putAll cap calls bytes 0 = some (written, pos)) :
    (ReadsBack (written.take pos.toNat) calls ∧
      ∀ buf cap pos tag value length, (tlvPut buf cap pos tag value length).1 = false →
        tlvPut buf cap pos tag value length = (false, buf, pos)) ↔
      ∀ c ∈ calls, tagReadable c.tag = true := by
  obtain ⟨sized, inside, same, content⟩ := putAll_written whole (Nat.zero_le _) put
  rw [UInt16.toNat_zero, List.take_zero, List.nil_append] at content
  have short : (written.take pos.toNat).length < 2 ^ 16 := by
    have bound := pos.toNat_lt
    rw [List.length_take]
    omega
  have spans := over_init short
  constructor
  · rintro ⟨back, -⟩ c member
    have returned : Except.ok (c.tag, c.value) ∈ calls.map (fun c => .ok (c.tag, c.value)) ++ [.error TlvStatus.end] :=
      List.mem_append_left _ (List.mem_map_of_mem member)
    rw [← back] at returned
    obtain ⟨result, member, same⟩ := List.mem_map.mp returned
    cases result with
    | error e => cases same
    | ok obj =>
      have readable := tlvCalls_readable spans _ obj member
      simp only [told, Except.map, Except.ok.injEq, Prod.mk.injEq] at same
      rwa [same.1] at readable
  · intro readable
    refine ⟨?_, fun buf cap pos tag value length => tlvPut_false⟩
    have sequence := sequence_put readable sized
    rw [← content] at sequence
    have read := tlvCalls_sequence spans (show Sequence (remaining (written.take pos.toNat) 0) _ from sequence)
    rwa [List.length_map, List.map_map] at read

/-- One call with an empty value. -/
def emptyPut (tag : UInt16) : PutCall := ⟨tag, none, 0, by simp⟩

/-- The tag 001F is written as the one byte that announces a second. -/
theorem tag_1f_is_not_read_back :
    (putAll 2 [emptyPut 0x001F] [0, 0] 0).isSome ∧ tlvCalls 2 (tlvReaderInit (some [0x1F, 0x00]) 2) =
      [.error .truncated, .error .end] ∧
      ∀ written pos, putAll 2 [emptyPut 0x001F] [0, 0] 0 = some (written, pos) →
        ¬ ReadsBack (written.take pos.toNat) [emptyPut 0x001F] := by
  refine ⟨by decide, by decide +kernel, fun written pos put => ?_⟩
  have made : putAll 2 [emptyPut 0x001F] [0, 0] 0 = some ([0x1F, 0x00], 2) := by decide
  rw [made] at put
  cases put
  decide +kernel

/-- A call that puts one byte. -/
def bytePut (tag : UInt16) (b : UInt8) : PutCall := ⟨tag, some [b], 1, by simp⟩

theorem tlv_writer_reads_back_82 : putAll 3 [bytePut 0x82 0x38] [0, 0, 0] 0 = some ([0x82, 0x01, 0x38], 3) ∧
    ReadsBack [0x82, 0x01, 0x38] [bytePut 0x82 0x38] := by
  have put : putAll 3 [bytePut 0x82 0x38] [0, 0, 0] 0 = some ([0x82, 0x01, 0x38], 3) := by decide
  exact ⟨put, ((tlv_writer_reads_back_iff [0, 0, 0] 3 (by decide) _ put).mpr (by decide)).1⟩

end CardOs.TlvWritingProofs
