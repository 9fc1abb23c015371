import CardOs.BootProofs
import CardOs.CorruptionProofs
import CardOs.Library.BitPolynomial

/-! What the CRC tells apart. The bit loop divides by a generator polynomial, so two
byte strings of one length that both end in their CRC differ by a multiple of it; no
burst of sixteen bits and no odd number of changed bits is such a multiple. -/
namespace CardOs.CrcProofs
open Polynomial
open CardOs.Library.BigEndian CardOs.Library.BitPolynomial CardOs.Crc16 CardOs.FsTypes CardOs.FsStore
open CardOs.FsStoreProofs CardOs.CorruptionProofs CardOs.BootLoader

/-- The bits of a byte string in the order the CRC takes them in: byte after byte, the
most significant bit of a byte first. -/
def bitsOf (data : List UInt8) : List Bool := data.flatMap fun b => wordBits b.toBitVec

/-- The bits in which two byte strings differ. -/
def difference (w w' : List UInt8) : List Bool := List.zipWith xor (bitsOf w) (bitsOf w')

/-- All set bits lie in one window of `n` consecutive bits. -/
def Burst (n : Nat) (e : List Bool) : Prop := ∃ start, ∀ k, e[k]? = some true → start ≤ k ∧ k < start + n

/-- The second string differs from the first within sixteen consecutive bits, or in an odd
number of bits. -/
def BurstOrOdd (w w' : List UInt8) : Prop :=
  w' ≠ w ∧ Burst 16 (difference w w') ∨ Odd ((difference w w').count true)

/-- A byte string followed by its CRC. -/
def withCrc (data : List UInt8) : List UInt8 := data ++ putU16 (crc16 data)

/-- The check a reader makes: the last two bytes are the CRC of those before them. -/
def CrcHolds (w : List UInt8) : Prop := getU16 w (w.length - 2) = crc16 (w.take (w.length - 2))

instance (w : List UInt8) : Decidable (CrcHolds w) := inferInstanceAs (Decidable (_ = _))

section Division

/-- The generator of the polynomial that the bit loop folds in. -/
noncomputable abbrev crcGenerator : (ZMod 2)[X] := generator (0x1021 : UInt16).toBitVec

theorem crcGenerator_eq : crcGenerator = X ^ 16 + (X ^ 12 + (X ^ 5 + 1)) := by
  have tail : wordBits (0x1021 : UInt16).toBitVec =
      [false, false, false, true, false, false, false, false, false, false, true, false, false, false, false, true] := by
    decide
  rw [crcGenerator, generator, tail]
  simp [bitPoly, coefficient]

theorem crcGenerator_apart : IsCoprime crcGenerator X := by
  refine ⟨1, -(X ^ 15 + X ^ 11 + X ^ 4), ?_⟩
  rw [crcGenerator_eq]
  ring

theorem crcGenerator_root : crcGenerator.eval 1 = 0 := by
  rw [crcGenerator_eq]
  simp only [eval_add, eval_pow, eval_X, eval_one]
  decide

theorem crcBit_toBitVec : Function.Semiconj UInt16.toBitVec crcBit (shifted (0x1021 : UInt16).toBitVec) := by
  intro c
  have top : c &&& 0x8000 ≠ 0 ↔ c.toBitVec.msb = true := by
    rw [top_bit, BitVec.msb_eq_getLsbD_last]
  have moved : (c <<< 1).toBitVec = c.toBitVec <<< 1 := by
    rw [UInt16.toBitVec_shiftLeft]
    rfl
  unfold crcBit shifted
  by_cases set : c.toBitVec.msb = true
  · rw [if_pos (top.mpr set), if_pos set, UInt16.toBitVec_xor, moved]
  · rw [if_neg (top.not.mpr set), if_neg set, moved]

/-- What the generator leaves of a byte string. -/
noncomputable abbrev left (data : List UInt8) : AdjoinRoot crcGenerator := residue crcGenerator (bitsOf data)

/-- What the generator leaves of the register. -/
noncomputable abbrev held (crc : UInt16) : AdjoinRoot crcGenerator := residue crcGenerator (wordBits crc.toBitVec)

variable {w w' data : List UInt8}

@[simp] theorem length_bitsOf (data : List UInt8) : (bitsOf data).length = 8 * data.length := by
  simp [bitsOf, List.length_flatMap, Nat.mul_comm]

theorem word16_toBitVec (hi lo : UInt8) : (word16 hi lo).toBitVec = hi.toBitVec ++ lo.toBitVec := by
  apply BitVec.eq_of_toNat_eq
  have low : lo.toBitVec.toNat < 2 ^ 8 := lo.toBitVec.isLt
  rw [BitVec.toNat_append, ← Nat.shiftLeft_add_eq_or_of_lt low, Nat.shiftLeft_eq]
  exact word16_toNat hi lo

/-- The register takes a word as the string of its two bytes. -/
theorem held_word16 (hi lo : UInt8) : held (word16 hi lo) = left [hi, lo] := by
  rw [held, left, word16_toBitVec, wordBits_append]
  simp [bitsOf]

theorem held_xor (a b : UInt16) : held (a ^^^ b) = held a + held b := by
  rw [held, UInt16.toBitVec_xor, wordBits_xor, residue_xor (by simp)]

theorem left_append (data rest : List UInt8) :
    left (data ++ rest) = left data * AdjoinRoot.root crcGenerator ^ (8 * rest.length) + left rest := by
  rw [left, bitsOf, List.flatMap_append, residue_append, ← bitsOf, ← bitsOf, length_bitsOf]

theorem held_crcByte (crc : UInt16) (b : UInt8) :
    held (crcByte crc b) =
      held crc * AdjoinRoot.root crcGenerator ^ 8 + left [b] * AdjoinRoot.root crcGenerator ^ 16 := by
  have top : b.toUInt16 <<< 8 = word16 b 0 := by simp [word16]
  have low : left [0] = 0 := residue_unset (by decide)
  rw [crcByte, held, crcBit_toBitVec.iterate_right 8, residue_iterate, ← held, held_xor, top, held_word16,
    show [b, 0] = [b] ++ [0] from rfl, left_append, low]
  simp only [List.length_singleton]
  ring

/-- The loop over the bytes is the division with the initial value in front. -/
theorem held_foldl (crc : UInt16) (data : List UInt8) :
    held (data.foldl crcByte crc) =
      held crc * AdjoinRoot.root crcGenerator ^ (8 * data.length) + left data * AdjoinRoot.root crcGenerator ^ 16 := by
  induction data generalizing crc with
  | nil => simp [bitsOf, residue, bitPoly]
  | cons b rest ih =>
    rw [List.foldl_cons, ih, held_crcByte, show b :: rest = [b] ++ rest from rfl, left_append, List.length_append,
      List.length_singleton, Nat.mul_add, pow_add]
    ring

theorem crcHolds_append (data : List UInt8) (hi lo : UInt8) :
    CrcHolds (data ++ [hi, lo]) ↔ word16 hi lo = crc16 data := by
  simp [CrcHolds, getU16]

theorem crcHolds_withCrc (data : List UInt8) : CrcHolds (withCrc data) :=
  (crcHolds_append ..).mpr (word16_bytes16 _)

/-- A string whose CRC holds leaves what its length alone decides. -/
theorem left_of_crcHolds (size : 2 ≤ w.length) (holds : CrcHolds w) :
    left w = held 0xFFFF * AdjoinRoot.root crcGenerator ^ (8 * (w.length - 2)) := by
  obtain ⟨data, hi, lo, rfl⟩ : ∃ data hi lo, w = data ++ [hi, lo] := by
    obtain ⟨hi, lo, last⟩ := List.length_eq_two.mp (show (w.drop (w.length - 2)).length = 2 by simp; omega)
    exact ⟨w.take (w.length - 2), hi, lo, by rw [← last, List.take_append_drop]⟩
  rw [left_append, ← held_word16, (crcHolds_append ..).mp holds, crc16, held_foldl]
  -- the CRC adds the remainder of the data to the data itself, and only the initial value is left
  simp only [List.length_append, List.length_cons, List.length_nil, Nat.add_sub_cancel]
  linear_combination add_self (left data * AdjoinRoot.root crcGenerator ^ 16)

theorem difference_dvd (same : w'.length = w.length) (size : 2 ≤ w.length) (holds : CrcHolds w) (holds' : CrcHolds w') :
    crcGenerator ∣ bitPoly (difference w w') := by
  rw [← residue_eq_zero, difference, residue_xor (by simp [same])]
  change left w + left w' = 0
  rw [left_of_crcHolds size holds, left_of_crcHolds (same ▸ size) holds', same, add_self]

private theorem bitsOf_inj (same : w'.length = w.length) (bits : bitsOf w' = bitsOf w) : w' = w := by
  induction w generalizing w' with
  | nil => exact List.length_eq_zero_iff.mp same
  | cons b rest ih =>
    obtain _ | ⟨b', rest'⟩ := w'
    · cases same
    obtain ⟨first, later⟩ := List.append_inj bits (by simp)
    rw [UInt8.toBitVec_inj.mp (wordBits_injective first), ih (Nat.succ.inj same) later]

/-- Strings of one length that differ in no bit are the same. -/
theorem eq_of_difference (same : w'.length = w.length) (unset : ∀ b ∈ difference w w', b = false) : w' = w :=
  bitsOf_inj same (eq_of_xor_unset (by simp [same]) unset).symm

end Division

section Detection
variable {w w' raw raw' : List UInt8}

/-- Of two strings that differ so, only one has its CRC. -/
theorem crcHolds_changed (same : w'.length = w.length) (size : 2 ≤ w.length) (holds : CrcHolds w)
    (changed : BurstOrOdd w w') : ¬ CrcHolds w' := by
  intro holds'
  have divides := difference_dvd same size holds holds'
  rcases changed with ⟨apart, start, burst⟩ | odd
  · exact apart (eq_of_difference same (burst_unset (degree_generator _) crcGenerator_apart burst divides))
  · exact Nat.not_even_iff_odd.mpr odd (even_of_dvd crcGenerator_root divides)

/-- Whatever is changed in a byte string followed by its CRC, the check fails when the
change is a burst of sixteen bits or touches an odd number of bits. -/
theorem crc_tells_bursts_and_odd_changes (data w' : List UInt8) (same : w'.length = (withCrc data).length)
    (changed : BurstOrOdd (withCrc data) w') : ¬ CrcHolds w' :=
  crcHolds_changed same (by simp [withCrc, putU16]) (crcHolds_withCrc data) changed

/-- The check string with a burst across its end and its CRC, and with three bits changed
far apart. -/
theorem crc_tells_changes_of_check_string :
    ¬ CrcHolds [0x31, 0x32, 0x33, 0x34, 0x35, 0x36, 0x37, 0x38, 0x38, 0xA9, 0xB1] ∧
      ¬ CrcHolds [0x30, 0x32, 0x33, 0x34, 0x15, 0x36, 0x37, 0x38, 0x39, 0x29, 0x31] := by
  have whole : withCrc [0x31, 0x32, 0x33, 0x34, 0x35, 0x36, 0x37, 0x38, 0x39] =
      [0x31, 0x32, 0x33, 0x34, 0x35, 0x36, 0x37, 0x38, 0x39, 0x29, 0xB1] := by
    decide +kernel
  constructor
  · refine crc_tells_bursts_and_odd_changes [0x31, 0x32, 0x33, 0x34, 0x35, 0x36, 0x37, 0x38, 0x39] _
      (by decide +kernel) ?_
    rw [whole]
    refine .inl ⟨by decide, 64, fun k set => ?_⟩
    have placed : ∀ k < 88, (difference [0x31, 0x32, 0x33, 0x34, 0x35, 0x36, 0x37, 0x38, 0x39, 0x29, 0xB1]
        [0x31, 0x32, 0x33, 0x34, 0x35, 0x36, 0x37, 0x38, 0x38, 0xA9, 0xB1])[k]? = some true → 64 ≤ k ∧ k < 64 + 16 := by
      decide +kernel
    exact placed k (by simpa [difference] using (List.getElem?_eq_some_iff.mp set).1) set
  · refine crc_tells_bursts_and_odd_changes [0x31, 0x32, 0x33, 0x34, 0x35, 0x36, 0x37, 0x38, 0x39] _
      (by decide +kernel) ?_
    rw [whole]
    exact .inr (by decide +kernel)

/-- The check of a record whose CRC stands at offset `n`. -/
theorem crcHolds_take {n : Nat} (inside : n + 2 ≤ raw.length) :
    CrcHolds (raw.take (n + 2)) ↔ getU16 raw n = crc16 (raw.take n) := by
  have size : (raw.take (n + 2)).length - 2 = n := by rw [List.length_take_of_le inside, Nat.add_sub_cancel]
  have stored : getU16 (raw.take (n + 2)) n = getU16 raw n := by
    simp only [getU16, List.getD_eq_getElem?_getD, List.getElem?_take_of_lt (show n < n + 2 by omega),
      List.getElem?_take_of_lt (show n + 1 < n + 2 by omega)]
  rw [CrcHolds, size, stored, List.take_take, Nat.min_eq_left (by omega)]

theorem record_changed {n : Nat} (inside : n + 2 ≤ raw.length) (same : raw'.length = raw.length)
    (intact : getU16 raw n = crc16 (raw.take n)) (changed : BurstOrOdd (raw.take (n + 2)) (raw'.take (n + 2))) :
    getU16 raw' n ≠ crc16 (raw'.take n) :=
  mt (crcHolds_take (same ▸ inside)).mpr
    (crcHolds_changed (by simp [same]) (by simp; omega) ((crcHolds_take inside).mpr intact) changed)

/-- A descriptor changed so is reported, unless its type byte now says that the slot is free. -/
theorem decodeDesc_changed {flashSize : UInt32} {d : FsDescriptor} (size : raw.length = fsDescSize)
    (same : raw'.length = raw.length) (decoded : decodeDesc flashSize raw = .ok d) (taken : rawIsFree raw' = false)
    (changed : BurstOrOdd raw raw') : decodeDesc flashSize raw' = .error .corrupt := by
  obtain ⟨-, intact, -⟩ := decodeDesc_decoded decoded
  have whole : raw.take (18 + 2) = raw := List.take_of_length_le size.le
  have whole' : raw'.take (18 + 2) = raw' := List.take_of_length_le (same.trans size).le
  have broken : getU16 raw' 18 ≠ crc16 (raw'.take 18) :=
    record_changed size.ge same intact (by rwa [whole, whole'])
  rw [decodeDesc, if_neg (by simp [taken]), if_pos broken]

/-- A boot header is refused when its first fourteen bytes, all but the state, are changed so. -/
theorem bootHdrParse_changed {h : BootHdr} (size : raw.length = bootHdrSize) (same : raw'.length = raw.length)
    (parsed : bootHdrParse raw = some h) (changed : BurstOrOdd (raw.take 14) (raw'.take 14)) :
    bootHdrParse raw' = none := by
  have intact : getU16 raw 12 = crc16 (raw.take 12) := by
    by_contra broken
    rw [bootHdrParse, if_pos (show rd16 raw 12 ≠ _ from broken)] at parsed
    split_ifs at parsed
  have broken : rd16 raw' 12 ≠ crc16 (raw'.take 12) :=
    record_changed (by rw [size]; decide) same intact changed
  rw [bootHdrParse, if_pos broken]
  split_ifs <;> rfl

end Detection

end CardOs.CrcProofs
