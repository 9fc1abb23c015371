import CardOs.Apdu
import CardOs.Library.ShortApdu

/-! The command parser against the short form of ISO 7816-4: what it accepts is what
the grammar writes, and the fields it fills are the ones that were written. -/
namespace CardOs.ApduProofs
open CardOs.Apdu CardOs.Library.ShortApdu

def ofHeader (a : Command) : ApduCommand :=
  { ApduCommand.zeroed with cla := a.cla, ins := a.ins, p1 := a.p1, p2 := a.p2 }

/-- The fields of a command as the parser fills them. -/
def fieldsOf (a : Command) : ApduCommand :=
  match a.body with
  | .case1 => { ofHeader a with acase := some .case1 }
  | .case2 le => { ofHeader a with acase := some .case2, lePresent := true, le := UInt16.ofNat le.amount }
  | .case3 data =>
    { ofHeader a with acase := some .case3, lc := UInt16.ofNat data.bytes.length, data := some data.bytes }
  | .case4 data le =>
    { ofHeader a with
      acase := some .case4, lc := UInt16.ofNat data.bytes.length, data := some data.bytes
      lePresent := true, le := UInt16.ofNat le.amount }

/-- The command that the fields describe, as it is sent. -/
def apduEncode (c : ApduCommand) : List UInt8 :=
  [c.cla, c.ins, c.p1, c.p2] ++ (c.data.elim [] fun data => c.lc.toUInt8 :: data) ++
    if c.lePresent then [c.le.toUInt8] else []

section Grammar
variable {bytes body : List UInt8} {cla ins p1 p2 lc : UInt8} {c : ApduCommand}

private theorem wireLe_byte (le : Expected) : wireLe le.byte = UInt16.ofNat le.amount := by
  conv_rhs => rw [← Expected.ofByte_byte le]
  unfold wireLe Expected.ofByte
  dsimp only
  split
  · rfl
  · exact UInt16.toNat_inj.mp (by simp)

private theorem length_word (data : DataField) :
    (UInt8.ofNat data.bytes.length).toUInt16 = UInt16.ofNat data.bytes.length :=
  UInt16.toNat_inj.mp (by simp; have := data.short; omega)

/-- With six bytes or more the fifth is a length byte, and the rest must be as long as it says. -/
theorem apduParse_long (six : body ≠ []) :
    apduParse (some (cla :: ins :: p1 :: p2 :: lc :: body)) =
      if lc = 0 then (.extended, .zeroed)
      else if body.length = lc.toNat then
        (.ok, ⟨cla, ins, p1, p2, some body, lc.toUInt16, 0, false, some .case3⟩)
      else if body.length = lc.toNat + 1 then
        (.ok, ⟨cla, ins, p1, p2, some (body.take lc.toNat), lc.toUInt16, wireLe (body.getD lc.toNat 0), true,
          some .case4⟩)
      else (.badLength, .zeroed) := by
  have more := List.length_pos_of_ne_nil six
  have third : (cla :: ins :: p1 :: p2 :: lc :: body).length = 4 + 1 + lc.toNat ↔ body.length = lc.toNat := by
    simp only [List.length_cons]
    omega
  have fourth : (cla :: ins :: p1 :: p2 :: lc :: body).length = 4 + 1 + lc.toNat + 1 ↔ body.length = lc.toNat + 1 := by
    simp only [List.length_cons]
    omega
  have p3 : (cla :: ins :: p1 :: p2 :: lc :: body).getD 4 0 = lc := rfl
  rw [apduParse, p3, apduHeaderLen, if_neg (by simp), if_neg (by simp), if_neg (by simp [six])]
  simp only [third, fourth]
  split
  · rfl
  split
  · rename_i whole
    simp [headerOf, ApduCommand.zeroed, ← whole]
  split
  · have last : (cla :: ins :: p1 :: p2 :: lc :: body).getD (4 + 1 + lc.toNat + 1 - 1) 0 = body.getD lc.toNat 0 := by
      rw [show 4 + 1 + lc.toNat + 1 - 1 = lc.toNat + 5 by omega]
      rfl
    rw [last]
    rfl
  · rfl

theorem apduParse_encode (a : Command) : apduParse (some a.encode) = (.ok, fieldsOf a) := by
  obtain ⟨cla, ins, p1, p2, body⟩ := a
  cases body with
  | case1 => rfl
  | case2 le => simp [apduParse, fieldsOf, ofHeader, headerOf, Command.encode, Body.encode, apduHeaderLen, wireLe_byte]
  | case3 data =>
    obtain ⟨value, other⟩ := data.length_byte
    rw [Command.encode, Body.encode, DataField.encode, apduParse_long data.nonempty, if_neg other, if_pos value.symm,
      length_word]
    rfl
  | case4 data le =>
    obtain ⟨value, other⟩ := data.length_byte
    rw [Command.encode, Body.encode, DataField.encode, List.cons_append, apduParse_long (by simp), if_neg other,
      if_neg (by simp [value]), if_pos (by simp [value]), value, length_word]
    simp [fieldsOf, ofHeader, ApduCommand.zeroed, wireLe_byte]

theorem apduEncode_fieldsOf (a : Command) : apduEncode (fieldsOf a) = a.encode := by
  obtain ⟨cla, ins, p1, p2, body⟩ := a
  cases body with
  | case1 => rfl
  | case2 le => simp [apduEncode, fieldsOf, ofHeader, ApduCommand.zeroed, Command.encode, Body.encode, Expected.byte]
  | case3 data =>
    simp [apduEncode, fieldsOf, ofHeader, ApduCommand.zeroed, Command.encode, Body.encode, DataField.encode]
  | case4 data le =>
    simp [apduEncode, fieldsOf, ofHeader, ApduCommand.zeroed, Command.encode, Body.encode, DataField.encode,
      Expected.byte]

/-- Only commands of the grammar are accepted. -/
theorem apduParse_accepts (parsed : (apduParse (some bytes)).1 = .ok) : ∃ a : Command, a.encode = bytes := by
  match bytes, parsed with
  | [cla, ins, p1, p2], _ => exact ⟨⟨cla, ins, p1, p2, .case1⟩, rfl⟩
  | [cla, ins, p1, p2, le], _ => exact ⟨⟨cla, ins, p1, p2, .case2 (.ofByte le)⟩, by simp [Command.encode, Body.encode]⟩
  | cla :: ins :: p1 :: p2 :: lc :: b :: rest, parsed =>
    rw [apduParse_long (List.cons_ne_nil b rest)] at parsed
    split at parsed
    · cases parsed
    rename_i other
    split at parsed
    · rename_i whole
      refine ⟨⟨cla, ins, p1, p2, .case3 (.ofLength other whole)⟩, ?_⟩
      rw [Command.encode, Body.encode, DataField.encode_ofLength]
    split at parsed
    · rename_i whole
      obtain ⟨data, le, body⟩ := (List.eq_nil_or_concat' (b :: rest)).resolve_left (List.cons_ne_nil b rest)
      rw [body, List.length_append, List.length_singleton, Nat.add_right_cancel_iff] at whole
      refine ⟨⟨cla, ins, p1, p2, .case4 (.ofLength other whole) (.ofByte le)⟩, ?_⟩
      rw [Command.encode, Body.encode, DataField.encode_ofLength, Expected.byte_ofByte, List.cons_append, body]
    · cases parsed

theorem apduParse_ok_iff : (apduParse (some bytes)).1 = .ok ↔ ∃ a : Command, a.encode = bytes := by
  refine ⟨apduParse_accepts, ?_⟩
  rintro ⟨a, rfl⟩
  rw [apduParse_encode]

/-- What the parser accepts is a short command, and it fills in the fields of that one. -/
theorem apduParse_inv (parsed : apduParse (some bytes) = (.ok, c)) :
    ∃ a : Command, a.encode = bytes ∧ fieldsOf a = c := by
  obtain ⟨a, rfl⟩ := apduParse_accepts (congrArg Prod.fst parsed)
  rw [apduParse_encode] at parsed
  exact ⟨a, rfl, congrArg Prod.snd parsed⟩

/-- The data field is the part of the command behind its length byte. -/
theorem fieldsOf_data {a : Command} {data : List UInt8} (filled : (fieldsOf a).data = some data) :
    data = (a.encode.drop 5).take (fieldsOf a).lc.toNat ∧ 5 + (fieldsOf a).lc.toNat ≤ a.encode.length := by
  obtain ⟨cla, ins, p1, p2, body⟩ := a
  have value : ∀ field : DataField, (UInt16.ofNat field.bytes.length).toNat = field.bytes.length := fun field =>
    UInt16.toNat_ofNat_of_lt' (Nat.lt_of_le_of_lt field.short (by decide))
  cases body with
  | case1 => cases filled
  | case2 le => cases filled
  | case3 field =>
    cases filled
    simp [fieldsOf, Command.encode, Body.encode, DataField.encode, value]
    omega
  | case4 field le =>
    cases filled
    simp [fieldsOf, Command.encode, Body.encode, DataField.encode, value]
    omega

theorem apduParse_refused (refused : (apduParse (some bytes)).1 ≠ .ok) : (apduParse (some bytes)).2 = .zeroed := by
  match bytes, refused with
  | [], _ | [_], _ | [_, _], _ | [_, _, _], _ => rfl
  | [_, _, _, _], refused | [_, _, _, _, _], refused => exact absurd rfl refused
  | cla :: ins :: p1 :: p2 :: lc :: b :: rest, refused =>
    rw [apduParse_long (List.cons_ne_nil b rest)] at refused ⊢
    by_cases zero : lc = 0
    · rw [if_pos zero]
    rw [if_neg zero] at refused ⊢
    by_cases third : (b :: rest).length = lc.toNat
    · rw [if_pos third] at refused
      exact absurd rfl refused
    rw [if_neg third] at refused ⊢
    by_cases fourth : (b :: rest).length = lc.toNat + 1
    · rw [if_pos fourth] at refused
      exact absurd rfl refused
    · rw [if_neg fourth]

theorem apduParse_extended_iff :
    (apduParse (some bytes)).1 = .extended ↔ 5 < bytes.length ∧ bytes[4]? = some 0 := by
  match bytes with
  | [] | [_] | [_, _] | [_, _, _] | [_, _, _, _] | [_, _, _, _, _] => simp [apduParse, apduHeaderLen]
  | cla :: ins :: p1 :: p2 :: lc :: b :: rest =>
    rw [apduParse_long (List.cons_ne_nil b rest)]
    by_cases zero : lc = 0
    · simp [zero]
    · have other : ¬ (5 < (cla :: ins :: p1 :: p2 :: lc :: b :: rest).length ∧ some lc = some 0) := by simp [zero]
      refine iff_of_false ?_ other
      rw [if_neg zero]
      split
      · nofun
      split <;> nofun

end Grammar

/-- The parser accepts exactly the encodings of short commands and fills in what they
encode; the fields determine the bytes, and the data field is the part of them behind
the length byte. A refused string leaves every field zero; it counts as extended when
the length byte of a longer string is zero. -/
theorem apdu_parser_is_short_grammar (bytes : List UInt8) :
    let (status, c) := apduParse (some bytes)
    (status = .ok ↔ ∃ a : Command, a.encode = bytes) ∧
      (∀ a : Command, a.encode = bytes → c = fieldsOf a) ∧
      (status = .ok → apduEncode c = bytes ∧ apduParse (some (apduEncode c)) = (.ok, c) ∧
        ∀ data, c.data = some data → data = (bytes.drop 5).take c.lc.toNat ∧ 5 + c.lc.toNat ≤ bytes.length) ∧
      (status ≠ .ok → c = .zeroed) ∧
      (status = .extended ↔ 5 < bytes.length ∧ bytes[4]? = some 0) := by
  rcases parsed : apduParse (some bytes) with ⟨status, c⟩
  have accepted := @apduParse_ok_iff bytes
  have refused := @apduParse_refused bytes
  have extended := @apduParse_extended_iff bytes
  rw [parsed] at accepted refused extended
  have fields : ∀ a : Command, a.encode = bytes → c = fieldsOf a := by
    rintro a rfl
    exact congrArg Prod.snd (parsed.symm.trans (apduParse_encode a))
  refine ⟨accepted, fields, fun ok => ?_, refused, extended⟩
  obtain ⟨a, rfl⟩ := accepted.mp ok
  obtain rfl := fields a rfl
  exact ⟨apduEncode_fieldsOf a, by rw [apduEncode_fieldsOf, apduParse_encode], fun _ => fieldsOf_data⟩

end CardOs.ApduProofs
