import CardOs.TlvProofs

/-! A whole run of the TLV reader. The calls return the objects that stand in the
buffer one behind the other, then an end or one error, and ends from there on. The
positions they compute are those of unbounded arithmetic. -/
namespace CardOs.TlvReadingProofs
open CardOs.Tlv CardOs.TlvProofs CardOs.Library
open CardOs.Library.BerTlv (Filler TagField LengthField)

/-! The reader over unbounded integers. -/

def skipPaddingNat (bytes : List UInt8) (pos : Nat) : Nat :=
  if pos < bytes.length then
    if bytes.getD pos 0 = 0x00 ∨ bytes.getD pos 0 = 0xFF then skipPaddingNat bytes (pos + 1) else pos
  else pos
termination_by bytes.length - pos

def readTagNat (bytes : List UInt8) (pos : Nat) : Except TlvStatus (UInt16 × Nat) :=
  let t0 := bytes.getD pos 0
  if t0 &&& 0x1F = 0x1F then
    if pos + 1 ≥ bytes.length then .error .truncated
    else
      let t1 := bytes.getD (pos + 1) 0
      if t1 &&& 0x80 ≠ 0 then .error .tag
      else .ok ((t0.toUInt16 <<< 8) ||| t1.toUInt16, pos + 2)
  else .ok (t0.toUInt16, pos + 1)

def lengthBytesNat (bytes : List UInt8) : Nat → Nat → Nat → Nat × Nat
  | 0, pos, length => (length, pos)
  | n + 1, pos, length => lengthBytesNat bytes n (pos + 1) (length * 256 + (bytes.getD pos 0).toNat)

def readLengthNat (bytes : List UInt8) (pos : Nat) : Except TlvStatus (Nat × Nat) :=
  if pos ≥ bytes.length then .error .truncated
  else
    let l0 := bytes.getD pos 0
    if l0 < 0x80 then .ok (l0.toNat, pos + 1)
    else if l0 = 0x80 then .error .length
    else if l0 = 0xFF then .error .length
    else
      let nbytes := (l0 &&& 0x7F).toNat
      if nbytes > 2 then .error .length
      else if pos + 1 + nbytes > bytes.length then .error .truncated
      else .ok (lengthBytesNat bytes nbytes (pos + 1) 0)

def readObjectNat (bytes : List UInt8) (pos : Nat) : Except TlvStatus (TlvObject × Nat) := do
  let (tag, afterTag) ← readTagNat bytes pos
  let (length, afterLength) ← readLengthNat bytes afterTag
  if afterLength + length > bytes.length then .error .truncated
  else
    let value := (bytes.drop afterLength).take length
    .ok (⟨tag, if length > 0 then some value else none, UInt16.ofNat length, bytes.getD pos 0 &&& 0x20 ≠ 0⟩,
      afterLength + length)

def tlvNextNat (bytes : List UInt8) (pos : Nat) : Except TlvStatus TlvObject × Nat :=
  let pos := skipPaddingNat bytes pos
  if pos ≥ bytes.length then (.error .end, bytes.length)
  else match readObjectNat bytes pos with
    | .error e => (.error e, bytes.length)
    | .ok (obj, next) => (.ok obj, next)

section Exact
variable {r : TlvReader} {bytes : List UInt8} {pos : UInt16}

private theorem at_getD (spans : Over r bytes) (pos : UInt16) : r.at pos = bytes.getD pos.toNat 0 := by
  rw [TlvReader.at, spans.buf, Option.getD_some]

private theorem len_le_iff (spans : Over r bytes) (pos : UInt16) : r.len ≤ pos ↔ bytes.length ≤ pos.toNat := by
  rw [UInt16.le_iff_toNat_le, spans.len]

theorem skipPadding_exact (spans : Over r bytes) (pos : UInt16) :
    (skipPadding r pos).toNat = skipPaddingNat bytes pos.toNat := by
  induction pos using skipPadding.induct r with
  | case1 pos inside filler ih =>
    have below := UInt16.lt_iff_toNat_lt.mp inside
    rw [spans.len] at below
    rw [skipPadding, dif_pos inside, if_pos filler, ih, succ_toNat inside]
    rw [at_getD spans] at filler
    conv_rhs => rw [skipPaddingNat, if_pos below, if_pos filler]
  | case2 pos inside filler =>
    have below := UInt16.lt_iff_toNat_lt.mp inside
    rw [spans.len] at below
    rw [skipPadding, dif_pos inside, if_neg filler]
    rw [at_getD spans] at filler
    rw [skipPaddingNat, if_pos below, if_neg filler]
  | case3 pos outside =>
    have past := (len_le_iff spans pos).mp (UInt16.not_lt.mp outside)
    rw [skipPadding, dif_neg outside, skipPaddingNat, if_neg (Nat.not_lt.mpr past)]

theorem readTag_exact (spans : Over r bytes) (inside : pos < r.len) :
    readTagNat bytes pos.toNat = (readTag r pos).map fun read => (read.1, read.2.toNat) := by
  have one := succ_toNat inside
  simp only [readTagNat, readTag, ge_iff_le, len_le_iff spans, at_getD spans, one]
  split
  · split
    · rfl
    · rename_i room
      have second : pos + 1 < r.len := UInt16.not_le.mp fun past => room (one ▸ (len_le_iff spans _).mp past)
      split
      · rfl
      · simp only [Except.map, succ_toNat second, one]
  · simp only [Except.map, one]

theorem lengthBytes_exact (spans : Over r bytes) {n : Nat} (pos : UInt16) (length : UInt32)
    (room : pos.toNat + n ≤ r.len.toNat) {k : Nat} (small : length.toNat < 2 ^ (8 * k)) (few : k + n ≤ 3) :
    lengthBytesNat bytes n pos.toNat length.toNat =
      ((lengthBytes r n pos length).1.toNat, (lengthBytes r n pos length).2.toNat) := by
  induction n generalizing pos length k with
  | zero => rfl
  | succ n ih =>
    have inside : pos < r.len := UInt16.lt_iff_toNat_lt.mpr (by omega)
    have power : 2 ^ (8 * k) ≤ 2 ^ 16 := Nat.pow_le_pow_right (by decide) (by omega)
    have shifted := shift_in_toNat (Nat.lt_of_lt_of_le small (Nat.le_trans power (by decide))) (r.at pos)
    have byte := (r.at pos).toNat_lt
    have grown : 2 ^ (8 * (k + 1)) = 2 ^ (8 * k) * 256 := by rw [Nat.mul_succ, Nat.pow_add]
    rw [lengthBytesNat, lengthBytes, ← at_getD spans, ← succ_toNat inside, ← shifted]
    exact ih (pos + 1) _ (by rw [succ_toNat inside]; omega) (k := k + 1) (by rw [shifted, grown]; omega) (by omega)

theorem readLength_exact (spans : Over r bytes) (pos : UInt16) :
    readLengthNat bytes pos.toNat = (readLength r pos).map fun read => (read.1.toNat, read.2.toNat) := by
  simp only [readLengthNat, readLength, ge_iff_le, len_le_iff spans, at_getD spans]
  split
  · rfl
  · rename_i here
    have inside : pos < r.len := UInt16.not_le.mp fun past => here ((len_le_iff spans pos).mp past)
    have one := succ_toNat inside
    generalize bytes.getD pos.toNat 0 = l0
    have few : (l0 &&& 0x7F).toNat > 2 ↔ l0 &&& 0x7F > tlvMaxLenBytes := by
      rw [gt_iff_lt, gt_iff_lt, UInt8.lt_iff_toNat_lt]
      rfl
    simp only [few, spans.len, one]
    repeat' split
    all_goals try rfl
    · simp only [Except.map, UInt8.toNat_toUInt32, one]
    · rename_i count room
      have counted := UInt8.le_iff_toNat_le.mp (UInt8.not_lt.mp count)
      have exact := lengthBytes_exact spans (n := (l0 &&& 0x7F).toNat) (pos + 1) 0 (k := 0)
        (by rw [one, spans.len]; omega) (by decide) (by simp only [tlvMaxLenBytes, UInt8.reduceToNat] at counted; omega)
      rw [one] at exact
      exact congrArg Except.ok exact

theorem readObject_exact (spans : Over r bytes) (inside : pos < r.len) :
    readObjectNat bytes pos.toNat = (readObject r pos).map fun read => (read.1, read.2.toNat) := by
  unfold readObjectNat readObject
  rw [readTag_exact spans inside]
  cases tagged : readTag r pos with
  | error e => rfl
  | ok first =>
    obtain ⟨tag, afterTag⟩ := first
    simp only [Except.map, bind, Except.bind, readLength_exact spans]
    cases measured : readLength r afterTag with
    | error e => rfl
    | ok second =>
      obtain ⟨length, afterLength⟩ := second
      have within := (readLength_advances measured).2
      have small := readLength_lt measured
      have bound := r.len.toNat_lt
      have sum : (afterLength.toUInt32 + length).toNat = afterLength.toNat + length.toNat := by
        rw [UInt32.toNat_add, UInt16.toNat_toUInt32, Nat.mod_eq_of_lt (by omega)]
      have past : afterLength.toUInt32 + length > r.len.toUInt32 ↔ afterLength.toNat + length.toNat > bytes.length := by
        rw [gt_iff_lt, UInt32.lt_iff_toNat_lt, sum, UInt16.toNat_toUInt32, spans.len]
      have some : length > 0 ↔ length.toNat > 0 := UInt32.lt_iff_toNat_lt
      simp only [past, some, at_getD spans, spans.buf, Option.getD_some]
      split
      · rfl
      · rename_i fits
        have narrow : (afterLength.toUInt32 + length).toUInt16.toNat = afterLength.toNat + length.toNat := by
          rw [UInt32.toNat_toUInt16, sum, Nat.mod_eq_of_lt]
          rw [spans.len] at bound
          omega
        have length16 : UInt16.ofNat length.toNat = length.toUInt16 := by
          rw [← UInt16.toNat_inj, UInt16.toNat_ofNat', UInt32.toNat_toUInt16]
        simp only [narrow, length16]

theorem tlvNext_exact (spans : Over r bytes) :
    (tlvNext r).1 = (tlvNextNat bytes r.pos.toNat).1 ∧ (tlvNext r).2.pos.toNat = (tlvNextNat bytes r.pos.toNat).2 := by
  have skipped := skipPadding_exact spans r.pos
  simp only [tlvNext, spans.buf, Option.isNone_some, Bool.false_eq_true, if_false, tlvNextNat, ge_iff_le, ← skipped,
    len_le_iff spans]
  split
  · exact ⟨rfl, spans.len⟩
  · rename_i here
    have inside : skipPadding r r.pos < r.len := UInt16.not_le.mp fun past => here ((len_le_iff spans _).mp past)
    rw [readObject_exact spans inside]
    cases readObject r (skipPadding r r.pos) with
    | error e => exact ⟨rfl, spans.len⟩
    | ok read => exact ⟨rfl, rfl⟩

/-- No position a call computes wraps: each stage of it, and so the whole of it, is what
unbounded arithmetic makes of the same bytes. -/
structure Unwrapped (bytes : List UInt8) (r : TlvReader) : Prop where
  skips : (skipPadding r r.pos).toNat = skipPaddingNat bytes r.pos.toNat
  tags : ∀ pos, pos < r.len → readTagNat bytes pos.toNat = (readTag r pos).map fun read => (read.1, read.2.toNat)
  lengths : ∀ pos, readLengthNat bytes pos.toNat = (readLength r pos).map fun read => (read.1.toNat, read.2.toNat)
  objects : ∀ pos, pos < r.len →
    readObjectNat bytes pos.toNat = (readObject r pos).map fun read => (read.1, read.2.toNat)
  result : (tlvNext r).1 = (tlvNextNat bytes r.pos.toNat).1
  position : (tlvNext r).2.pos.toNat = (tlvNextNat bytes r.pos.toNat).2

theorem unwrapped (spans : Over r bytes) : Unwrapped bytes r :=
  ⟨skipPadding_exact spans r.pos, fun _ => readTag_exact spans, readLength_exact spans, fun _ => readObject_exact spans,
    (tlvNext_exact spans).1, (tlvNext_exact spans).2⟩

end Exact

/-! The run. -/

/-- An object in a buffer: the filler in front of it, its tag, its length and its value. -/
structure Extent where
  filler : List UInt8
  tagField : List UInt8
  lengthField : List UInt8
  value : List UInt8

def Extent.object (x : Extent) : List UInt8 := x.tagField ++ (x.lengthField ++ x.value)

def Extent.bytes (x : Extent) : List UInt8 := x.filler ++ x.object

/-- The object returned is the one encoded there. -/
structure Encodes (x : Extent) (obj : TlvObject) : Prop where
  fillers : ∀ b ∈ x.filler, Filler b
  tag : TagField x.tagField obj.tag
  measured : LengthField x.lengthField x.value.length
  value : obj.value = if x.value = [] then none else some x.value
  length : obj.length.toNat = x.value.length
  constructed : obj.constructed = decide (x.tagField.headD 0 &&& 0x20 ≠ 0)

/-- What the first calls on a reader return. -/
def tlvCalls : Nat → TlvReader → List (Except TlvStatus TlvObject)
  | 0, _ => []
  | n + 1, r => (tlvNext r).1 :: tlvCalls n (tlvNext r).2

/-- The reader after a number of calls. -/
def readerAfter (r : TlvReader) : Nat → TlvReader
  | 0 => r
  | n + 1 => readerAfter (tlvNext r).2 n

section Run
variable {r r' : TlvReader} {bytes : List UInt8} {obj : TlvObject} {e : TlvStatus} {x : Extent}

theorem Encodes.nonempty (encodes : Encodes x obj) : x.object ≠ [] := by
  obtain ⟨b, more, starts, -⟩ := encodes.tag.first_byte
  simp [Extent.object, starts]

private theorem skipPadding_drops (spans : Over r bytes) (pos : UInt16) :
    (remaining bytes pos).dropWhile (fun b => Filler b) = remaining bytes (skipPadding r pos) := by
  induction pos using skipPadding.induct r with
  | case1 pos inside filler ih =>
    have pad : Filler (r.at pos) := filler
    rw [skipPadding, dif_pos inside, if_pos filler, spans.remaining_inside (UInt16.not_le.mpr inside),
      List.dropWhile_cons_of_pos (by simpa using pad), ih]
  | case2 pos inside filler =>
    have content : ¬ Filler (r.at pos) := filler
    rw [skipPadding, dif_pos inside, if_neg filler, spans.remaining_inside (UInt16.not_le.mpr inside),
      List.dropWhile_cons_of_neg (by simpa using content)]
  | case3 pos outside =>
    rw [skipPadding, dif_neg outside, spans.remaining_past (UInt16.not_lt.mp outside), List.dropWhile_nil]

private theorem readObject_first {pos next : UInt16} (parsed : readObject r pos = .ok (obj, next)) :
    obj.constructed = decide (r.at pos &&& 0x20 ≠ 0) := by
  simp only [readObject, bind, Except.bind] at parsed
  split at parsed
  · cases parsed
  · split at parsed
    · cases parsed
    · split at parsed
      · cases parsed
      · cases parsed
        rfl

private theorem tlvNext_first (spans : Over r bytes) (read : tlvNext r = (.ok obj, r')) :
    obj.constructed = decide (((remaining bytes r.pos).dropWhile fun b => Filler b).headD 0 &&& 0x20 ≠ 0) := by
  rw [skipPadding_drops spans]
  simp only [tlvNext, spans.buf, Option.isNone_some, Bool.false_eq_true, if_false] at read
  split at read
  · cases read
  · rename_i inside
    rw [spans.remaining_inside inside, List.headD_cons]
    split at read
    · cases read
    · rename_i parsed
      cases read
      exact readObject_first parsed

/-- Where a returned object stands. -/
theorem tlvNext_extent (spans : Over r bytes) (read : tlvNext r = (.ok obj, r')) : ∃ x : Extent, Encodes x obj ∧
    remaining bytes r.pos = x.bytes ++ remaining bytes r'.pos ∧ r'.pos.toNat = r.pos.toNat + x.bytes.length ∧
      Over r' bytes := by
  have nexts := tlvNext_nexts spans
  have first := tlvNext_first spans read
  obtain ⟨-, moved, inside⟩ := tlvNext_position read
  rw [read] at nexts
  generalize found : BerTlv.next (remaining bytes r.pos) = step at nexts
  cases nexts with
  | item carries over' =>
    rename_i item
    obtain ⟨filler, tagField, lengthField, fillers, tagged, measured, split⟩ := BerTlv.next_split found
    let x : Extent := ⟨filler, tagField, lengthField, item.value⟩
    have split : remaining bytes r.pos = x.bytes ++ remaining bytes r'.pos := by
      rw [split]
      simp [x, Extent.bytes, Extent.object]
    refine ⟨x, ⟨fillers, carries.tag ▸ tagged, measured, carries.value, carries.length, ?_⟩, split, ?_, over'⟩
    · obtain ⟨b, more, starts, content⟩ := tagged.first_byte
      have dropped : (remaining bytes r.pos).dropWhile (fun b => Filler b) =
          b :: (more ++ (lengthField ++ item.value ++ remaining bytes r'.pos)) := by
        simp only [split, x, Extent.bytes, Extent.object, starts, List.append_assoc]
        rw [List.dropWhile_append_of_pos (by simpa using fillers), List.cons_append,
          List.dropWhile_cons_of_neg (by simpa using content)]
      rw [first, dropped, List.headD_cons, show x.tagField = b :: more from starts, List.headD_cons]
    · have lengths := congrArg List.length split
      rw [List.length_append, remaining, remaining, List.length_drop, List.length_drop, ← spans.len] at lengths
      omega

theorem exhausted_next (spans : Over r bytes) : tlvNext (exhaust r) = (.error .end, exhaust r) := by
  have stays : skipPadding (exhaust r) (exhaust r).pos = r.len := by
    rw [skipPadding]
    exact dif_neg (show ¬ r.len < r.len from UInt16.lt_irrefl _)
  simp only [tlvNext, stays]
  simp [exhaust, spans.buf]

theorem exhausted_calls (spans : Over r bytes) (n : Nat) :
    tlvCalls n (exhaust r) = List.replicate n (.error .end) := by
  induction n with
  | zero => rfl
  | succ n ih => rw [tlvCalls, exhausted_next spans, ih, List.replicate_succ]

theorem tlvNext_error (spans : Over r bytes) (failed : tlvNext r = (.error e, r')) : r' = exhaust r ∧
    if e = .end then ∀ b ∈ remaining bytes r.pos, Filler b else BerTlv.next (remaining bytes r.pos) = .broken := by
  have nexts := tlvNext_nexts spans
  rw [failed] at nexts
  generalize found : BerTlv.next (remaining bytes r.pos) = step at nexts
  refine ⟨?_, ?_⟩
  · simp only [tlvNext, spans.buf, Option.isNone_some, Bool.false_eq_true, if_false] at failed
    split at failed
    · cases failed
      rfl
    · split at failed
      · cases failed
        rfl
      · cases failed
  · cases nexts with
    | finished => exact BerTlv.next_finished_iff.mp found
    | broken notEnd => simp only [if_neg notEnd]

/-- Everything the calls on a reader tell: the objects that stand behind each other in
the bytes that remain, how the reading ends, and the bytes where it does. -/
structure Reading (bytes : List UInt8) (r : TlvReader) (objects : List (Extent × TlvObject)) (ending : TlvStatus)
    (tail : List UInt8) : Prop where
  encodes : ∀ x ∈ objects, Encodes x.1 x.2
  split : remaining bytes r.pos = (objects.flatMap fun x => x.1.bytes) ++ tail
  calls : ∀ more, tlvCalls (objects.length + 1 + more) r =
    (objects.map fun x => .ok x.2) ++ .error ending :: List.replicate more (.error .end)
  positions : ∀ k ≤ objects.length,
    (readerAfter r k).pos.toNat = r.pos.toNat + ((objects.take k).flatMap fun x => x.1.bytes).length
  ended : if ending = .end then ∀ b ∈ tail, Filler b else BerTlv.next tail = .broken
  finds : ∀ tag, findFrom tag r =
    match objects.find? fun x => x.2.tag = tag with
    | some x => .ok x.2
    | none => .error ending

theorem reading_stops (spans : Over r bytes) (failed : tlvNext r = (.error e, r')) :
    Reading bytes r [] e (remaining bytes r.pos) := by
  obtain ⟨rfl, ended⟩ := tlvNext_error spans failed
  refine ⟨by simp, rfl, fun more => ?_, ?_, ended, fun tag => ?_⟩
  · rw [List.length_nil, Nat.zero_add, Nat.add_comm, tlvCalls, failed, exhausted_calls spans]
    rfl
  · intro k none
    obtain rfl : k = 0 := Nat.le_zero.mp none
    rfl
  · rw [findFrom, failed]
    rfl

theorem reading_goes_on {objects : List (Extent × TlvObject)} {ending : TlvStatus} {tail : List UInt8}
    (read : tlvNext r = (.ok obj, r')) (encodes : Encodes x obj)
    (split : remaining bytes r.pos = x.bytes ++ remaining bytes r'.pos)
    (moved : r'.pos.toNat = r.pos.toNat + x.bytes.length) (rest : Reading bytes r' objects ending tail) :
    Reading bytes r ((x, obj) :: objects) ending tail where
  encodes := List.forall_mem_cons.mpr ⟨encodes, rest.encodes⟩
  split := by rw [split, rest.split, List.flatMap_cons, List.append_assoc]
  calls more := by
    rw [List.length_cons, Nat.add_right_comm objects.length 1 1, Nat.add_right_comm _ 1 more, tlvCalls, read, rest.calls]
    rfl
  positions := by
    intro k bound
    cases k with
    | zero => rfl
    | succ k =>
      rw [readerAfter, read, rest.positions k (Nat.le_of_succ_le_succ bound), moved, List.take_succ_cons,
        List.flatMap_cons, List.length_append, Nat.add_assoc]
  ended := rest.ended
  finds tag := by
    rw [findFrom, read]
    by_cases same : obj.tag = tag
    · simp [same]
    · simpa [same] using rest.finds tag

theorem reading_exists (spans : Over r bytes) : ∃ objects ending tail, Reading bytes r objects ending tail := by
  induction left : r.len.toNat - r.pos.toNat using Nat.strong_induction_on generalizing r with
  | _ left ih =>
    rcases read : tlvNext r with ⟨e | obj, r'⟩
    · exact ⟨[], e, _, reading_stops spans read⟩
    · obtain ⟨x, encodes, split, moved, over'⟩ := tlvNext_extent spans read
      have advanced := (tlvNext_advances read).2
      obtain ⟨objects, ending, tail, rest⟩ := ih _ (left ▸ advanced) over' rfl
      exact ⟨(x, obj) :: objects, ending, tail, reading_goes_on read encodes split moved rest⟩

/-- Every object takes at least one byte. -/
theorem Reading.few {objects : List (Extent × TlvObject)} {ending : TlvStatus} {tail : List UInt8}
    (reading : Reading bytes r objects ending tail) : objects.length ≤ (remaining bytes r.pos).length := by
  have encodes := reading.encodes
  rw [reading.split, List.length_append]
  apply Nat.le_add_right_of_le
  clear reading
  induction objects with
  | nil => exact Nat.zero_le _
  | cons x rest ih =>
    obtain ⟨first, encodes⟩ := List.forall_mem_cons.mp encodes
    have some := List.length_pos_iff.mpr first.nonempty
    have more := ih encodes
    rw [List.length_cons, List.flatMap_cons, List.length_append, Extent.bytes, List.length_append]
    omega

theorem tlvNext_over (spans : Over r bytes) : Over (tlvNext r).2 bytes := by
  rcases read : tlvNext r with ⟨e | obj, r'⟩
  · obtain ⟨rfl, -⟩ := tlvNext_error spans read
    exact ⟨spans.buf, spans.len⟩
  · obtain ⟨x, -, -, -, over'⟩ := tlvNext_extent spans read
    exact over'

theorem readerAfter_over (spans : Over r bytes) (k : Nat) : Over (readerAfter r k) bytes := by
  induction k generalizing r with
  | zero => exact spans
  | succ k ih => exact ih (tlvNext_over spans)

end Run

/-- Reading any buffer from its start returns the objects encoded in it one behind the
other, at most one for every byte, then the end or one error and the end from there on.
No position computation wraps, and a search finds the first object with the tag before
the reading ends. -/
theorem tlv_reader_is_sound (bytes : List UInt8) (short : bytes.length ≤ 65535) :
    let r := tlvReaderInit (some bytes) (UInt16.ofNat bytes.length)
    ∃ objects ending tail, Reading bytes r objects ending tail ∧ objects.length ≤ bytes.length ∧
      (∀ x ∈ objects, x.1.object ≠ []) ∧ bytes = (objects.flatMap fun x => x.1.bytes) ++ tail ∧
      (∀ k, Unwrapped bytes (readerAfter r k)) ∧
      ∀ tag, tlvFind (some bytes) (UInt16.ofNat bytes.length) tag =
        match objects.find? fun x => x.2.tag = tag with
        | some x => .ok x.2
        | none => .error ending := by
  intro r
  have spans : Over r bytes := over_init (Nat.lt_succ_of_le short)
  obtain ⟨objects, ending, tail, reading⟩ := reading_exists spans
  refine ⟨objects, ending, tail, reading, reading.few, fun x member => (reading.encodes x member).nonempty,
    reading.split, fun k => unwrapped (readerAfter_over spans k), fun tag => ?_⟩
  exact reading.finds tag

/-- A one-byte object behind a filler byte, with another filler byte after it. -/
theorem tlv_reader_is_sound_one_object : ∃ objects ending tail,
    Reading [0x00, 0x82, 0x01, 0x38, 0xFF] (tlvReaderInit (some [0x00, 0x82, 0x01, 0x38, 0xFF]) 5) objects ending tail ∧
      objects.length ≤ 5 := by
  obtain ⟨objects, ending, tail, reading, few, -⟩ := tlv_reader_is_sound [0x00, 0x82, 0x01, 0x38, 0xFF] (by decide)
  exact ⟨objects, ending, tail, reading, few⟩

end CardOs.TlvReadingProofs
