import Mathlib.Algebra.Group.Nat.Defs
import CardOs.Apdu

/-! `src/apdu/tlv.c`: the BER-TLV reader and writer. Positions are the 16-bit
counters of the source; a reader over `NULL` has no buffer. -/
namespace CardOs.Tlv
open CardOs.Apdu (osMemcpyChecked)

/-- `tlv_status` without `TLV_OK`, which is a returned object. -/
inductive TlvStatus where
  | end
  | param
  | truncated
  | tag
  | length
  deriving DecidableEq, Repr

structure TlvReader where
  buf : Option (List UInt8)
  len : UInt16
  pos : UInt16
  deriving DecidableEq, Repr

/-- `value` is `none` for the null pointer of an empty object. -/
structure TlvObject where
  tag : UInt16
  value : Option (List UInt8)
  length : UInt16
  constructed : Bool
  deriving DecidableEq, Repr

def tlvMaxLenBytes : UInt8 := 2

def tlvReaderInit (buf : Option (List UInt8)) (len : UInt16) : TlvReader :=
  ⟨buf, if buf.isNone then 0 else len, 0⟩

def TlvReader.at (r : TlvReader) (pos : UInt16) : UInt8 := (r.buf.getD []).getD pos.toNat 0

/-- Filler bytes `00` and `FF` between objects are passed over. -/
def skipPadding (r : TlvReader) (pos : UInt16) : UInt16 :=
  if inside : pos < r.len then
    if r.at pos = 0x00 ∨ r.at pos = 0xFF then skipPadding r (pos + 1) else pos
  else pos
termination_by r.len.toNat - pos.toNat
decreasing_by
  have below : pos.toNat < r.len.toNat := UInt16.lt_iff_toNat_lt.mp inside
  have bound := r.len.toNat_lt
  rw [UInt16.toNat_add]
  simp only [UInt16.reduceToNat]
  omega

def tlvReaderDone (r : TlvReader) : Bool := r.buf.isNone || skipPadding r r.pos ≥ r.len

def exhaust (r : TlvReader) : TlvReader := { r with pos := r.len }

/-- The tag bytes from `pos`: the tag, and the position after it. -/
def readTag (r : TlvReader) (pos : UInt16) : Except TlvStatus (UInt16 × UInt16) :=
  let t0 := r.at pos
  let pos := pos + 1
  if t0 &&& 0x1F = 0x1F then
    if pos ≥ r.len then .error .truncated
    else
      let t1 := r.at pos
      if t1 &&& 0x80 ≠ 0 then .error .tag
      else .ok ((t0.toUInt16 <<< 8) ||| t1.toUInt16, pos + 1)
  else .ok (t0.toUInt16, pos)

/-- The big-endian accumulation of the length bytes. -/
def lengthBytes (r : TlvReader) : Nat → UInt16 → UInt32 → UInt32 × UInt16
  | 0, pos, length => (length, pos)
  | n + 1, pos, length => lengthBytes r n (pos + 1) ((length <<< 8) ||| (r.at pos).toUInt32)

/-- The length field from `pos`: the length, and the position after it. -/
def readLength (r : TlvReader) (pos : UInt16) : Except TlvStatus (UInt32 × UInt16) :=
  if pos ≥ r.len then .error .truncated
  else
    let l0 := r.at pos
    let pos := pos + 1
    if l0 < 0x80 then .ok (l0.toUInt32, pos)
    else if l0 = 0x80 then .error .length
    else if l0 = 0xFF then .error .length
    else
      let nbytes := l0 &&& 0x7F
      if nbytes > tlvMaxLenBytes then .error .length
      else if pos.toNat + nbytes.toNat > r.len.toNat then .error .truncated
      else .ok (lengthBytes r nbytes.toNat pos 0)

/-- Tag, length and value at `pos`, and the position after the object. -/
def readObject (r : TlvReader) (pos : UInt16) : Except TlvStatus (TlvObject × UInt16) := do
  let (tag, afterTag) ← readTag r pos
  let (length, afterLength) ← readLength r afterTag
  if afterLength.toUInt32 + length > r.len.toUInt32 then .error .truncated
  else
    let value := ((r.buf.getD []).drop afterLength.toNat).take length.toNat
    .ok (⟨tag, if length > 0 then some value else none, length.toUInt16, r.at pos &&& 0x20 ≠ 0⟩,
      (afterLength.toUInt32 + length).toUInt16)

/-- Any error leaves the reader exhausted. -/
def tlvNext (r : TlvReader) : Except TlvStatus TlvObject × TlvReader :=
  if r.buf.isNone then (.error .param, r)
  else
    let pos := skipPadding r r.pos
    if pos ≥ r.len then (.error .end, exhaust r)
    else match readObject r pos with
      | .error e => (.error e, exhaust r)
      | .ok (obj, next) => (.ok obj, { r with pos := next })

/-- `tlv_get_uint`, with the accumulation loop as a fold over the value. -/
def tlvGetUint (obj : TlvObject) : Except TlvStatus UInt32 :=
  match obj.value with
  | none => .error .length
  | some value =>
    if obj.length = 0 then .error .length
    else if obj.length > 4 then .error .length
    else .ok (value.foldl (fun v b => (v <<< 8) ||| b.toUInt32) 0)

/-- A block stored over the bytes from a position on. -/
def overwrite (bytes : List UInt8) (pos : Nat) (src : List UInt8) : List UInt8 :=
  bytes.take pos ++ src ++ bytes.drop (pos + src.length)

/-- The tag and length bytes of `tlv_put`, stored one after the other. -/
def putHeader (bytes : List UInt8) (p tagBytes tag length : UInt16) : List UInt8 × UInt16 :=
  let (bytes, p) := if tagBytes = 2 then (bytes.set p.toNat (tag >>> 8).toUInt8, p + 1) else (bytes, p)
  let bytes := bytes.set p.toNat (tag &&& 0xFF).toUInt8
  let p := p + 1
  (bytes.set p.toNat length.toUInt8, p + 1)

/-- `tlv_put`: whether it succeeded, and the buffer and the position after it. The
buffer has at least `cap` bytes, the value at least `length`. -/
def tlvPut (buf : Option (List UInt8)) (cap pos tag : UInt16) (value : Option (List UInt8)) (length : UInt16) :
    Bool × Option (List UInt8) × UInt16 :=
  match buf with
  | none => (false, none, pos)
  | some bytes =>
    if length > 0 ∧ value.isNone then (false, some bytes, pos)
    else if length > 127 then (false, some bytes, pos)
    else
      let tagBytes : UInt16 := if tag > 0xFF then 2 else 1
      let need := tagBytes.toUInt32 + 1 + length.toUInt32
      if pos.toUInt32 + need > cap.toUInt32 then (false, some bytes, pos)
      else
        let (bytes, p) := putHeader bytes pos tagBytes tag length
        if length > 0 then
          match osMemcpyChecked (cap - p).toNat ((value.getD []).take length.toNat) with
          | none => (false, some bytes, pos)
          | some copied => (true, some (overwrite bytes p.toNat copied), p + length)
        else (true, some bytes, p)

/-! Progress: every returned object moves the position forward, inside the
buffer, so a loop over the reader ends. -/

theorem succ_exact {pos : UInt16} (small : pos.toNat + 1 < 2 ^ 16) : (pos + 1).toNat = pos.toNat + 1 := by
  rw [UInt16.toNat_add]
  exact Nat.mod_eq_of_lt small

theorem succ_toNat {pos len : UInt16} (inside : pos < len) : (pos + 1).toNat = pos.toNat + 1 :=
  succ_exact (Nat.lt_of_le_of_lt (UInt16.lt_iff_toNat_lt.mp inside) len.toNat_lt)

theorem le_skipPadding (r : TlvReader) (pos : UInt16) : pos ≤ skipPadding r pos := by
  induction pos using skipPadding.induct r with
  | case1 pos inside filler ih =>
    rw [skipPadding, dif_pos inside, if_pos filler]
    have step := UInt16.le_iff_toNat_le.mp ih
    rw [succ_toNat inside] at step
    exact UInt16.le_iff_toNat_le.mpr (by omega)
  | case2 pos inside filler =>
    rw [skipPadding, dif_pos inside, if_neg filler]
    exact UInt16.le_refl pos
  | case3 pos outside =>
    rw [skipPadding, dif_neg outside]
    exact UInt16.le_refl pos

theorem readTag_advances {r : TlvReader} {pos next tag : UInt16} (inside : pos < r.len)
    (parsed : readTag r pos = .ok (tag, next)) : pos.toNat < next.toNat ∧ next.toNat ≤ r.len.toNat := by
  have start := UInt16.lt_iff_toNat_lt.mp inside
  have one := succ_toNat inside
  simp only [readTag] at parsed
  split at parsed
  · split at parsed
    · cases parsed
    · rename_i room
      split at parsed
      · cases parsed
      · injection parsed with parsed
        injection parsed with _ parsed
        have second : pos + 1 < r.len := UInt16.not_le.mp room
        have two := succ_toNat second
        have secondNat := UInt16.lt_iff_toNat_lt.mp second
        rw [← parsed]
        omega
  · injection parsed with parsed
    injection parsed with _ parsed
    rw [← parsed]
    omega

theorem lengthBytes_next (r : TlvReader) (length : UInt32) {n : Nat} {pos : UInt16}
    (room : pos.toNat + n ≤ r.len.toNat) : (lengthBytes r n pos length).2.toNat = pos.toNat + n := by
  induction n generalizing pos length with
  | zero => rfl
  | succ n ih =>
    have inside : pos < r.len := UInt16.lt_iff_toNat_lt.mpr (by omega)
    rw [lengthBytes, ih _ (by rw [succ_toNat inside]; omega), succ_toNat inside]
    omega

private theorem shift_in_lt {length : UInt32} {b : UInt8} {k : Nat} (small : length.toNat < 2 ^ (8 * k)) :
    ((length <<< 8) ||| b.toUInt32).toNat < 2 ^ (8 * (k + 1)) := by
  have byte := b.toNat_lt
  have wide : 2 ^ 8 ≤ 2 ^ (8 * (k + 1)) := Nat.pow_le_pow_right (by omega) (by omega)
  have grown : 2 ^ (8 * (k + 1)) = 2 ^ (8 * k) * 256 := by rw [Nat.mul_succ, Nat.pow_add]
  rw [UInt32.toNat_or]
  apply Nat.or_lt_two_pow
  · rw [UInt32.toNat_shiftLeft]
    have cut := Nat.mod_le (length.toNat <<< 8) (2 ^ 32)
    rw [Nat.shiftLeft_eq] at cut
    simp only [UInt32.reduceToNat, Nat.reduceMod, Nat.shiftLeft_eq]
    omega
  · rw [UInt8.toNat_toUInt32]
    omega

theorem lengthBytes_lt (r : TlvReader) (n : Nat) (pos : UInt16) {k : Nat} {length : UInt32}
    (small : length.toNat < 2 ^ (8 * k)) :
    (lengthBytes r n pos length).1.toNat < 2 ^ (8 * (k + n)) := by
  induction n generalizing k pos length with
  | zero => exact small
  | succ n ih =>
    rw [lengthBytes, show k + (n + 1) = k + 1 + n by omega]
    exact ih _ (shift_in_lt small)

/-- A length field holds at most two bytes, so lengths are 16-bit. -/
theorem readLength_lt {r : TlvReader} {pos next : UInt16} {length : UInt32}
    (parsed : readLength r pos = .ok (length, next)) : length.toNat < 2 ^ 16 := by
  unfold readLength at parsed
  dsimp only at parsed
  split at parsed
  · cases parsed
  · split at parsed
    · injection parsed with parsed
      injection parsed with parsed _
      have byte := (r.at pos).toNat_lt
      rw [← parsed, UInt8.toNat_toUInt32]
      omega
    · split at parsed
      · cases parsed
      · split at parsed
        · cases parsed
        · split at parsed
          · cases parsed
          · split at parsed
            · cases parsed
            · rename_i few _
              injection parsed with parsed
              have count := UInt8.le_iff_toNat_le.mp (UInt8.not_lt.mp few)
              have bound := lengthBytes_lt r (r.at pos &&& 0x7F).toNat (pos + 1) (k := 0)
                (show (0 : UInt32).toNat < 2 ^ (8 * 0) by decide)
              rw [parsed] at bound
              exact Nat.lt_of_lt_of_le bound (Nat.pow_le_pow_right (by omega) (by
                simp only [tlvMaxLenBytes, UInt8.reduceToNat] at count
                omega))

theorem readLength_advances {r : TlvReader} {pos next : UInt16} {length : UInt32}
    (parsed : readLength r pos = .ok (length, next)) :
    pos.toNat < next.toNat ∧ next.toNat ≤ r.len.toNat := by
  unfold readLength at parsed
  split at parsed
  · cases parsed
  · rename_i room
    have inside : pos < r.len := UInt16.not_le.mp room
    have start := UInt16.lt_iff_toNat_lt.mp inside
    have one := succ_toNat inside
    dsimp only at parsed
    split at parsed
    · injection parsed with parsed
      injection parsed with _ parsed
      rw [← parsed]
      omega
    · split at parsed
      · cases parsed
      · split at parsed
        · cases parsed
        · split at parsed
          · cases parsed
          · split at parsed
            · cases parsed
            · rename_i fits
              injection parsed with parsed
              have here := lengthBytes_next r 0 (Nat.not_lt.mp fits)
              rw [parsed] at here
              rw [here]
              omega

theorem readObject_advances {r : TlvReader} {pos next : UInt16} {obj : TlvObject} (inside : pos < r.len)
    (parsed : readObject r pos = .ok (obj, next)) :
    pos.toNat < next.toNat ∧ next.toNat ≤ r.len.toNat := by
  unfold readObject at parsed
  cases tagged : readTag r pos with
  | error e => rw [tagged] at parsed; cases parsed
  | ok first =>
    obtain ⟨tag, afterTag⟩ := first
    rw [tagged] at parsed
    cases measured : readLength r afterTag with
    | error e => simp [measured, bind, Except.bind] at parsed
    | ok second =>
      obtain ⟨length, afterLength⟩ := second
      simp only [measured, bind, Except.bind] at parsed
      split at parsed
      · cases parsed
      · rename_i fits
        injection parsed with parsed
        injection parsed with _ parsed
        have tagMoves := readTag_advances inside tagged
        have lengthMoves := readLength_advances measured
        have short := readLength_lt measured
        have bound := r.len.toNat_lt
        have sum := UInt32.le_iff_toNat_le.mp (UInt32.not_lt.mp fits)
        rw [UInt32.toNat_add, UInt16.toNat_toUInt32, UInt16.toNat_toUInt32,
          Nat.mod_eq_of_lt (by omega)] at sum
        rw [← parsed, UInt32.toNat_toUInt16, UInt32.toNat_add, UInt16.toNat_toUInt32,
          Nat.mod_eq_of_lt (by omega), Nat.mod_eq_of_lt (by omega)]
        omega

/-- A returned object leaves the reader strictly further on in the same buffer. -/
theorem tlvNext_position {r next : TlvReader} {obj : TlvObject} (read : tlvNext r = (.ok obj, next)) :
    next.len = r.len ∧ r.pos.toNat < next.pos.toNat ∧ next.pos.toNat ≤ r.len.toNat := by
  unfold tlvNext at read
  dsimp only at read
  split at read
  · cases read
  · split at read
    · cases read
    · rename_i room
      have inside : skipPadding r r.pos < r.len := UInt16.not_le.mp room
      split at read
      · cases read
      · rename_i parsed
        obtain ⟨moved, within⟩ := readObject_advances inside parsed
        have skipped := UInt16.le_iff_toNat_le.mp (le_skipPadding r r.pos)
        injection read with _ read
        subst read
        exact ⟨rfl, Nat.lt_of_le_of_lt skipped moved, within⟩

theorem tlvNext_advances {r next : TlvReader} {obj : TlvObject} (read : tlvNext r = (.ok obj, next)) :
    next.len = r.len ∧ next.len.toNat - next.pos.toNat < r.len.toNat - r.pos.toNat := by
  obtain ⟨len, moved, within⟩ := tlvNext_position read
  rw [len]
  exact ⟨rfl, by omega⟩

/-- The loop of `tlv_find`. -/
def findFrom (tag : UInt16) (r : TlvReader) : Except TlvStatus TlvObject :=
  match _ : tlvNext r with
  | (.error e, _) => .error e
  | (.ok obj, next) => if obj.tag = tag then .ok obj else findFrom tag next
termination_by r.len.toNat - r.pos.toNat
decreasing_by exact (tlvNext_advances ‹_›).2

def tlvFind (buf : Option (List UInt8)) (len tag : UInt16) : Except TlvStatus TlvObject :=
  if buf.isNone then .error .param else findFrom tag (tlvReaderInit buf len)

end CardOs.Tlv
