import CardOs.Tlv
import CardOs.Library.BerTlv
import CardOs.Library.BigEndian

/-! The reader of `tlv.c` walks its buffer by position; on the bytes that remain it
is the reader of the BER-TLV grammar. -/
namespace CardOs.TlvProofs

open CardOs.Tlv
open CardOs.Library

/-- The reader stands over the whole of `bytes`. -/
structure Over (r : TlvReader) (bytes : List UInt8) : Prop where
  buf : r.buf = some bytes
  len : r.len.toNat = bytes.length

/-- What is left of the bytes at a position. -/
def remaining (bytes : List UInt8) (pos : UInt16) : List UInt8 := bytes.drop pos.toNat

variable {r : TlvReader} {bytes : List UInt8} {pos : UInt16} {α β α' β' : Type}

theorem over_init (short : bytes.length < 2 ^ 16) :
    Over (tlvReaderInit (some bytes) (UInt16.ofNat bytes.length)) bytes :=
  ⟨rfl, by simpa [tlvReaderInit] using Nat.mod_eq_of_lt short⟩

theorem Over.remaining_past (spans : Over r bytes) (past : r.len ≤ pos) : remaining bytes pos = [] :=
  List.drop_eq_nil_of_le (spans.len ▸ UInt16.le_iff_toNat_le.mp past)

theorem Over.remaining_inside (spans : Over r bytes) (inside : ¬ r.len ≤ pos) :
    remaining bytes pos = r.at pos :: remaining bytes (pos + 1) := by
  have below := UInt16.lt_iff_toNat_lt.mp (UInt16.not_le.mp inside)
  have bound := r.len.toNat_lt
  have advanced : (pos + 1).toNat = pos.toNat + 1 := by
    rw [UInt16.toNat_add]
    simp only [UInt16.reduceToNat]
    omega
  rw [spans.len] at below
  rw [remaining, remaining, advanced, List.drop_eq_getElem_cons below]
  simp [TlvReader.at, spans.buf, below]

/-- A read by position agrees with a read off the front: both refuse, or the results
are related and the new position stands before what the front read leaves. -/
inductive Agrees (bytes : List UInt8) (related : α → β → Prop) :
    Except TlvStatus (α × UInt16) → Option (β × List UInt8) → Prop where
  | refused {e : TlvStatus} (notEnd : e ≠ .end) : Agrees bytes related (.error e) none
  | read {a : α} {b : β} (relates : related a b) (next : UInt16) :
      Agrees bytes related (.ok (a, next)) (some (b, remaining bytes next))

theorem Agrees.bind {related : α → β → Prop} {related' : α' → β' → Prop} {x : Except TlvStatus (α × UInt16)}
    {y : Option (β × List UInt8)} {f : α × UInt16 → Except TlvStatus (α' × UInt16)}
    {g : β × List UInt8 → Option (β' × List UInt8)} (agrees : Agrees bytes related x y)
    (after : ∀ a b next, x = .ok (a, next) → related a b →
      Agrees bytes related' (f (a, next)) (g (b, remaining bytes next))) :
    Agrees bytes related' (x >>= f) (y >>= g) := by
  cases agrees with
  | refused notEnd => exact .refused notEnd
  | read relates next => exact after _ _ next rfl relates

theorem readTag_agrees (spans : Over r bytes) (inside : ¬ r.len ≤ pos) :
    Agrees bytes Eq (readTag r pos) (BerTlv.readTag (remaining bytes pos)) := by
  rw [spans.remaining_inside inside]
  by_cases long : r.at pos &&& 0x1F = 0x1F
  · by_cases past : r.len ≤ pos + 1
    · simpa [BerTlv.readTag, readTag, long, past, spans.remaining_past past] using .refused (by simp)
    · rw [spans.remaining_inside past]
      by_cases last : r.at (pos + 1) &&& 0x80 = 0
      · simpa [BerTlv.readTag, readTag, long, last, past] using .read rfl _
      · simpa [BerTlv.readTag, readTag, long, last, past] using .refused (by simp)
  · simpa [BerTlv.readTag, readTag, long] using .read rfl _

/-- A byte shifted into an accumulator that has room for it. -/
theorem shift_in_toNat {v : UInt32} (room : v.toNat < 2 ^ 24) (b : UInt8) :
    ((v <<< 8) ||| b.toUInt32).toNat = v.toNat * 256 + b.toNat := by
  have byte : b.toNat < 2 ^ 8 := b.toNat_lt
  rw [UInt32.toNat_or, UInt32.toNat_shiftLeft, UInt8.toNat_toUInt32]
  simp only [UInt32.reduceToNat, Nat.reduceMod]
  rw [Nat.mod_eq_of_lt (by rw [Nat.shiftLeft_eq]; omega), ← Nat.shiftLeft_add_eq_or_of_lt byte, Nat.shiftLeft_eq]

/-- The first byte of a longer length field counts the bytes after it. -/
private theorem readLength_counted (inside : ¬ r.len ≤ pos) (high : ¬ r.at pos < 0x80) :
    readLength r pos =
      if r.at pos = 0x81 then
        if r.len ≤ pos + 1 then .error .truncated else .ok ((r.at (pos + 1)).toUInt32, pos + 1 + 1)
      else if r.at pos = 0x82 then
        if r.len ≤ pos + 1 ∨ r.len ≤ pos + 1 + 1 then .error .truncated
        else .ok (((r.at (pos + 1)).toUInt32 <<< 8) ||| (r.at (pos + 1 + 1)).toUInt32, pos + 1 + 1 + 1)
      else .error .length := by
  have bound := r.len.toNat_lt
  have here := UInt16.lt_iff_toNat_lt.mp (UInt16.not_le.mp inside)
  have second : (pos + 1).toNat = pos.toNat + 1 := succ_toNat (UInt16.not_le.mp inside)
  unfold readLength
  rw [if_neg inside, if_neg high]
  by_cases one : r.at pos = 0x81
  · have far : r.len.toNat < (pos + 1).toNat + 1 ↔ r.len ≤ pos + 1 := by
      rw [UInt16.le_iff_toNat_le]
      omega
    simp [-UInt16.toNat_add, one, show (0x81 : UInt8) &&& 0x7F = 1 from rfl, tlvMaxLenBytes, lengthBytes, far]
  · by_cases two : r.at pos = 0x82
    · have far : r.len.toNat < (pos + 1).toNat + 2 ↔ r.len ≤ pos + 1 ∨ r.len ≤ pos + 1 + 1 := by
        by_cases short : r.len ≤ pos + 1
        · simp only [short, true_or, iff_true]
          exact Nat.lt_of_le_of_lt (UInt16.le_iff_toNat_le.mp short) (by omega)
        · have third := succ_toNat (UInt16.not_le.mp short)
          simp only [short, false_or, UInt16.le_iff_toNat_le, third]
          omega
      simp [-UInt16.toNat_add, two, show (0x82 : UInt8) &&& 0x7F = 2 from rfl, tlvMaxLenBytes, lengthBytes, far]
    · have many : r.at pos ≠ 0x80 → r.at pos &&& 0x7F > tlvMaxLenBytes := by
        intro zero
        simp only [ne_eq, ← UInt8.toNat_inj, UInt8.lt_iff_toNat_lt] at one two zero high
        have byte := (r.at pos).toNat_lt
        apply UInt8.lt_iff_toNat_lt.mpr
        rw [UInt8.toNat_and]
        simp only [UInt8.reduceToNat, tlvMaxLenBytes] at *
        rw [show (127 : Nat) = 2 ^ 7 - 1 from rfl, Nat.and_two_pow_sub_one_eq_mod]
        omega
      by_cases zero : r.at pos = 0x80
      · simp [zero]
      · simp [one, two, zero, many zero]

theorem readLength_agrees (spans : Over r bytes) :
    Agrees bytes (fun length n => length.toNat = n) (readLength r pos) (BerTlv.readLength (remaining bytes pos)) := by
  by_cases past : r.len ≤ pos
  · simpa [BerTlv.readLength, readLength, past, spans.remaining_past past] using .refused (by simp)
  · rw [spans.remaining_inside past]
    by_cases low : r.at pos < 0x80
    · simpa [BerTlv.readLength, readLength, low, past] using .read (by simp) _
    · rw [readLength_counted past low]
      by_cases one : r.at pos = 0x81
      · by_cases short : r.len ≤ pos + 1
        · simpa [BerTlv.readLength, low, one, short, spans.remaining_past short] using .refused (by simp)
        · simpa [BerTlv.readLength, low, one, short, spans.remaining_inside short] using .read (by simp) _
      · by_cases two : r.at pos = 0x82
        · by_cases short : r.len ≤ pos + 1
          · simpa [BerTlv.readLength, low, two, short, spans.remaining_past short] using .refused (by simp)
          · rw [spans.remaining_inside short]
            by_cases shorter : r.len ≤ pos + 1 + 1
            · simpa [BerTlv.readLength, low, two, shorter, spans.remaining_past shorter] using .refused (by simp)
            · have high : (r.at (pos + 1)).toUInt32.toNat < 2 ^ 24 :=
                Nat.lt_trans (r.at (pos + 1)).toNat_lt (by decide)
              simpa [BerTlv.readLength, low, two, short, shorter, spans.remaining_inside shorter] using
                .read (by simpa using shift_in_toNat high _) _
        · simpa [BerTlv.readLength, low, one, two] using .refused (by simp)

/-- A returned object is the item; an empty value is a null pointer. -/
structure Carries (obj : TlvObject) (item : BerTlv.Item) : Prop where
  tag : obj.tag = item.tag
  value : obj.value = if item.value = [] then none else some item.value
  length : obj.length.toNat = item.value.length

theorem Carries.length_eq {obj : TlvObject} {item : BerTlv.Item} (carries : Carries obj item) :
    obj.length = UInt16.ofNat item.value.length := by
  rw [← carries.length, UInt16.ofNat_toNat]

theorem readObject_agrees (spans : Over r bytes) (inside : ¬ r.len ≤ pos) :
    Agrees bytes Carries (readObject r pos) (BerTlv.readItem (remaining bytes pos)) := by
  refine (readTag_agrees spans inside).bind ?_
  rintro tag _ afterTag _ rfl
  refine (readLength_agrees spans).bind ?_
  rintro length _ afterLength measured rfl
  have within := (readLength_advances measured).2
  have small := readLength_lt measured
  have bound := r.len.toNat_lt
  have sum : (afterLength.toUInt32 + length).toNat = afterLength.toNat + length.toNat := by
    rw [UInt32.toNat_add, UInt16.toNat_toUInt32, Nat.mod_eq_of_lt (by omega)]
  have left : (remaining bytes afterLength).length = r.len.toNat - afterLength.toNat := by
    rw [remaining, List.length_drop, spans.len]
  have fits : afterLength.toUInt32 + length > r.len.toUInt32 ↔
      ¬ length.toNat ≤ (remaining bytes afterLength).length := by
    rw [gt_iff_lt, UInt32.lt_iff_toNat_lt, sum, left, UInt16.toNat_toUInt32]
    omega
  by_cases room : length.toNat ≤ (remaining bytes afterLength).length
  · have after : remaining bytes (afterLength.toUInt32 + length).toUInt16 =
        (remaining bytes afterLength).drop length.toNat := by
      rw [remaining, remaining, List.drop_drop, UInt32.toNat_toUInt16, sum, Nat.mod_eq_of_lt (by omega)]
    simp only [fits, room, not_true, if_false, BerTlv.readValue, if_true, ← after]
    refine .read ⟨rfl, ?_, ?_⟩ _
    · have value : (bytes.drop afterLength.toNat).take length.toNat =
        (remaining bytes afterLength).take length.toNat := rfl
      have empty : (remaining bytes afterLength).take length.toNat = [] ↔ ¬ length > 0 := by
        rw [← List.length_eq_zero_iff, List.length_take, Nat.min_eq_left room, gt_iff_lt, UInt32.lt_iff_toNat_lt]
        simp
      simp only [spans.buf, Option.getD_some, value, empty, ite_not]
    · rw [UInt32.toNat_toUInt16, Nat.mod_eq_of_lt small, List.length_take, Nat.min_eq_left room]
  · simpa [fits, room, BerTlv.readValue] using .refused (by simp)

/-- Filler does not change what comes next, and no filler is left in front. -/
private theorem skipPadding_next (spans : Over r bytes) (pos : UInt16) :
    BerTlv.next (remaining bytes pos) = BerTlv.next (remaining bytes (skipPadding r pos)) ∧
      (¬ r.len ≤ skipPadding r pos → ¬ BerTlv.Filler (r.at (skipPadding r pos))) := by
  induction pos using skipPadding.induct r with
  | case1 pos inside filler ih =>
    rw [skipPadding, dif_pos inside, if_pos filler, spans.remaining_inside (UInt16.not_le.mpr inside)]
    simpa [BerTlv.next, BerTlv.Filler, filler] using ih
  | case2 pos inside filler =>
    rw [skipPadding, dif_pos inside, if_neg filler]
    exact ⟨rfl, fun _ => filler⟩
  | case3 pos outside =>
    rw [skipPadding, dif_neg outside]
    exact ⟨rfl, fun inside => absurd (UInt16.not_le.mp inside) outside⟩

inductive Nexts (bytes : List UInt8) : Except TlvStatus TlvObject × TlvReader → BerTlv.Step → Prop where
  | finished (r : TlvReader) : Nexts bytes (.error .end, r) .finished
  | broken {e : TlvStatus} (notEnd : e ≠ .end) (r : TlvReader) : Nexts bytes (.error e, r) .broken
  | item {obj : TlvObject} {item : BerTlv.Item} {r : TlvReader} (carries : Carries obj item) (spans : Over r bytes) :
      Nexts bytes (.ok obj, r) (.item item (remaining bytes r.pos))

/-- The reader returns the next item of the bytes that remain. -/
theorem tlvNext_nexts (spans : Over r bytes) : Nexts bytes (tlvNext r) (BerTlv.next (remaining bytes r.pos)) := by
  obtain ⟨skipped, first⟩ := skipPadding_next spans r.pos
  rw [skipped]
  by_cases past : r.len ≤ skipPadding r r.pos
  · simpa [tlvNext, spans.buf, past, spans.remaining_past past, BerTlv.next] using .finished _
  · have agrees := readObject_agrees spans past
    rw [spans.remaining_inside past] at agrees ⊢
    rw [BerTlv.next, if_neg (first past)]
    simp only [tlvNext, spans.buf, Option.isNone_some, Bool.false_eq_true, if_false, past]
    generalize readObject r (skipPadding r r.pos) = x, BerTlv.readItem _ = y at agrees ⊢
    cases agrees with
    | refused notEnd => exact .broken notEnd _
    | read carries next => exact .item (r := ⟨some bytes, r.len, next⟩) carries ⟨rfl, spans.len⟩

theorem tlvReaderDone_iff (spans : Over r bytes) :
    tlvReaderDone r = true ↔ BerTlv.next (remaining bytes r.pos) = .finished := by
  obtain ⟨skipped, first⟩ := skipPadding_next spans r.pos
  rw [skipped]
  by_cases past : r.len ≤ skipPadding r r.pos
  · simp [tlvReaderDone, spans.buf, past, spans.remaining_past past, BerTlv.next]
  · rw [spans.remaining_inside past, BerTlv.next, if_neg (first past)]
    simp only [tlvReaderDone, spans.buf, Option.isNone_some, Bool.false_or, decide_eq_true_eq, ge_iff_le, past,
      false_iff]
    split <;> simp

end CardOs.TlvProofs
