import Mathlib.Data.List.Basic

/-! BER-TLV sequences: tags of one or two bytes, definite lengths of one to three
bytes, filler bytes between the objects. The grammar relates bytes to the items they
carry, and `sequence_iff` reads it one item at a time. -/
namespace CardOs.Library.BerTlv

structure Item where
  tag : UInt16
  value : List UInt8
  deriving DecidableEq, Repr

/-- The bytes that may stand between objects and so begin no tag. -/
def Filler (b : UInt8) : Prop := b = 0x00 ∨ b = 0xFF

instance : DecidablePred Filler := fun b => inferInstanceAs (Decidable (b = 0x00 ∨ b = 0xFF))

/-- A first byte with its low five bits set is followed by a second, last byte. -/
inductive TagField : List UInt8 → UInt16 → Prop where
  | one {t : UInt8} (first : ¬ Filler t) (short : t &&& 0x1F ≠ 0x1F) : TagField [t] t.toUInt16
  | two {t u : UInt8} (first : ¬ Filler t) (long : t &&& 0x1F = 0x1F) (last : u &&& 0x80 = 0) :
      TagField [t, u] ((t.toUInt16 <<< 8) ||| u.toUInt16)

inductive LengthField : List UInt8 → Nat → Prop where
  | short {l : UInt8} (low : l < 0x80) : LengthField [l] l.toNat
  | one (l : UInt8) : LengthField [0x81, l] l.toNat
  | two (h l : UInt8) : LengthField [0x82, h, l] (h.toNat * 256 + l.toNat)

/-- The bytes carry exactly these items, in this order. -/
inductive Sequence : List UInt8 → List Item → Prop where
  | nil : Sequence [] []
  | filler {b : UInt8} {bytes : List UInt8} {items : List Item} (pad : Filler b) (rest : Sequence bytes items) :
      Sequence (b :: bytes) items
  | item {tagBytes lengthBytes value bytes : List UInt8} {tag : UInt16} {items : List Item}
      (tagged : TagField tagBytes tag) (measured : LengthField lengthBytes value.length)
      (rest : Sequence bytes items) :
      Sequence (tagBytes ++ (lengthBytes ++ (value ++ bytes))) (⟨tag, value⟩ :: items)

/-- The tag in front of the bytes, and the bytes after it. -/
def readTag : List UInt8 → Option (UInt16 × List UInt8)
  | [] => none
  | t :: bytes =>
    if t &&& 0x1F = 0x1F then
      match bytes with
      | [] => none
      | u :: bytes => if u &&& 0x80 = 0 then some ((t.toUInt16 <<< 8) ||| u.toUInt16, bytes) else none
    else some (t.toUInt16, bytes)

def readLength : List UInt8 → Option (Nat × List UInt8)
  | [] => none
  | l :: bytes =>
    if l < 0x80 then some (l.toNat, bytes)
    else if l = 0x81 then
      match bytes with
      | l :: bytes => some (l.toNat, bytes)
      | [] => none
    else if l = 0x82 then
      match bytes with
      | h :: l :: bytes => some (h.toNat * 256 + l.toNat, bytes)
      | _ => none
    else none

def readValue (tag : UInt16) (length : Nat) (bytes : List UInt8) : Option (Item × List UInt8) :=
  if length ≤ bytes.length then some (⟨tag, bytes.take length⟩, bytes.drop length) else none

def readItem (bytes : List UInt8) : Option (Item × List UInt8) := do
  let (tag, bytes) ← readTag bytes
  let (length, bytes) ← readLength bytes
  readValue tag length bytes

inductive Step where
  | finished
  | broken
  | item (first : Item) (rest : List UInt8)
  deriving DecidableEq, Repr

/-- The first item behind the filler. -/
def next : List UInt8 → Step
  | [] => .finished
  | b :: bytes =>
    if Filler b then next bytes
    else match readItem (b :: bytes) with
      | some (first, rest) => .item first rest
      | none => .broken

variable {bytes rest field value : List UInt8} {tag : UInt16} {length : Nat} {item : Item} {items : List Item}

theorem TagField.read (tagged : TagField field tag) (rest : List UInt8) :
    readTag (field ++ rest) = some (tag, rest) := by
  cases tagged with
  | one _ short => simp [readTag, short]
  | two _ long last => simp [readTag, long, last]

theorem LengthField.read (measured : LengthField field length) (rest : List UInt8) :
    readLength (field ++ rest) = some (length, rest) := by
  cases measured with
  | short low => simp [readLength, low]
  | one l => simp [readLength]
  | two h l => simp [readLength]

theorem readTag_field {b : UInt8} (first : ¬ Filler b) (read : readTag (b :: bytes) = some (tag, rest)) :
    ∃ field, TagField field tag ∧ b :: bytes = field ++ rest := by
  by_cases long : b &&& 0x1F = 0x1F
  · cases bytes with
    | nil => simp [readTag, long] at read
    | cons u bytes =>
      by_cases last : u &&& 0x80 = 0
      · simp only [readTag, long, last, if_true, Option.some.injEq, Prod.mk.injEq] at read
        obtain ⟨rfl, rfl⟩ := read
        exact ⟨[b, u], .two first long last, rfl⟩
      · simp [readTag, long, last] at read
  · simp only [readTag, long, if_false, Option.some.injEq, Prod.mk.injEq] at read
    obtain ⟨rfl, rfl⟩ := read
    exact ⟨[b], .one first long, rfl⟩

theorem readLength_field (read : readLength bytes = some (length, rest)) :
    ∃ field, LengthField field length ∧ bytes = field ++ rest := by
  cases bytes with
  | nil => cases read
  | cons l bytes =>
    by_cases low : l < 0x80
    · simp only [readLength, low, if_true, Option.some.injEq, Prod.mk.injEq] at read
      obtain ⟨rfl, rfl⟩ := read
      exact ⟨[l], .short low, rfl⟩
    · simp only [readLength, low, if_false] at read
      split at read
      · rename_i one
        cases bytes with
        | nil => cases read
        | cons k bytes =>
          simp only [Option.some.injEq, Prod.mk.injEq] at read
          obtain ⟨rfl, rfl⟩ := read
          exact ⟨[0x81, k], .one k, by simp [one]⟩
      · split at read
        · rename_i two
          obtain _ | ⟨h, _ | ⟨k, bytes⟩⟩ := bytes
          · cases read
          · cases read
          · simp only [Option.some.injEq, Prod.mk.injEq] at read
            obtain ⟨rfl, rfl⟩ := read
            exact ⟨[0x82, h, k], .two h k, by simp [two]⟩
        · cases read

theorem TagField.first_byte (tagged : TagField field tag) : ∃ b more, field = b :: more ∧ ¬ Filler b := by
  cases tagged with
  | one first _ => exact ⟨_, _, rfl, first⟩
  | two first _ _ => exact ⟨_, _, rfl, first⟩

theorem next_item {lengthBytes : List UInt8} (tagged : TagField field tag)
    (measured : LengthField lengthBytes value.length) (rest : List UInt8) :
    next (field ++ (lengthBytes ++ (value ++ rest))) = .item ⟨tag, value⟩ rest := by
  have read : readItem (field ++ (lengthBytes ++ (value ++ rest))) = some (⟨tag, value⟩, rest) := by
    simp [readItem, readValue, tagged.read, measured.read]
  obtain ⟨b, more, starts, first⟩ := tagged.first_byte
  subst starts
  rw [List.cons_append] at read ⊢
  simp [next, first, read]

theorem next_finished_iff : next bytes = .finished ↔ ∀ b ∈ bytes, Filler b := by
  induction bytes with
  | nil => simp [next]
  | cons b bytes ih =>
    by_cases pad : Filler b
    · simpa [next, pad] using ih
    · unfold next
      rw [if_neg pad]
      split <;> simp [pad]

/-- What an item found in front is encoded in. -/
theorem next_split (read : next bytes = .item item rest) : ∃ filler tagField lengthField,
    (∀ b ∈ filler, Filler b) ∧ TagField tagField item.tag ∧ LengthField lengthField item.value.length ∧
      bytes = filler ++ (tagField ++ (lengthField ++ (item.value ++ rest))) := by
  induction bytes with
  | nil => cases read
  | cons b bytes ih =>
    by_cases pad : Filler b
    · simp only [next, pad, if_true] at read
      obtain ⟨filler, tagField, lengthField, fillers, tagged, measured, rfl⟩ := ih read
      exact ⟨b :: filler, tagField, lengthField, List.forall_mem_cons.mpr ⟨pad, fillers⟩, tagged, measured, rfl⟩
    · unfold next at read
      rw [if_neg pad] at read
      cases found : readItem (b :: bytes) with
      | none => simp [found] at read
      | some result =>
        obtain ⟨first, after⟩ := result
        obtain ⟨rfl, rfl⟩ : first = item ∧ after = rest := by simpa [found] using read
        simp only [readItem, Option.bind_eq_bind, Option.bind_eq_some_iff, Prod.exists] at found
        obtain ⟨tag, afterTag, tagRead, length, afterLength, lengthRead, found⟩ := found
        obtain ⟨tagField, tagged, atTag⟩ := readTag_field pad tagRead
        obtain ⟨lengthField, measured, rfl⟩ := readLength_field lengthRead
        simp only [readValue, Option.ite_none_right_eq_some, Option.some.injEq, Prod.mk.injEq] at found
        obtain ⟨fits, rfl, rfl⟩ := found
        refine ⟨[], tagField, lengthField, by simp, tagged, ?_, ?_⟩
        · simpa [Nat.min_eq_left fits] using measured
        · simpa using atTag

theorem Sequence.padded {filler : List UInt8} (fillers : ∀ b ∈ filler, Filler b) (rest : Sequence bytes items) :
    Sequence (filler ++ bytes) items := by
  induction filler with
  | nil => exact rest
  | cons b filler ih =>
    obtain ⟨pad, fillers⟩ := List.forall_mem_cons.mp fillers
    exact .filler pad (ih fillers)

/-- What the reader finds in front is what a sequence begins with. -/
theorem sequence_iff : Sequence bytes items ↔
    match next bytes with
    | .finished => items = []
    | .broken => False
    | .item first rest => ∃ more, items = first :: more ∧ Sequence rest more := by
  constructor
  · intro sequence
    induction sequence with
    | nil => rfl
    | filler pad _ ih => simpa [next, pad] using ih
    | item tagged measured rest _ => simpa [next_item tagged measured] using rest
  · cases found : next bytes with
    | finished =>
      rintro rfl
      simpa using Sequence.padded (next_finished_iff.mp found) .nil
    | broken => exact False.elim
    | item first rest =>
      rintro ⟨more, rfl, sequence⟩
      obtain ⟨filler, tagField, lengthField, fillers, tagged, measured, rfl⟩ := next_split found
      exact Sequence.padded fillers (.item tagged measured sequence)

theorem sequence_finished (ended : next bytes = .finished) : Sequence bytes items ↔ items = [] := by
  rw [sequence_iff, ended]

theorem not_sequence_broken (broken : next bytes = .broken) : ¬ Sequence bytes items := by
  rw [sequence_iff, broken]
  exact id

theorem sequence_item (read : next bytes = .item item rest) :
    Sequence bytes items ↔ ∃ more, items = item :: more ∧ Sequence rest more := by
  rw [sequence_iff, read]

theorem sequence_nil_iff : Sequence bytes [] ↔ next bytes = .finished := by
  rw [sequence_iff]
  cases next bytes <;> simp

/-- Bytes carry at most one sequence. -/
theorem Sequence.unique {others : List Item} (sequence : Sequence bytes items) (other : Sequence bytes others) :
    items = others := by
  induction sequence generalizing others with
  | nil => exact ((sequence_finished rfl).mp other).symm
  | filler pad _ ih => exact ih (sequence_iff.mpr (by simpa [next, pad] using sequence_iff.mp other))
  | item tagged measured _ ih =>
    obtain ⟨more, rfl, rest⟩ := (sequence_item (next_item tagged measured _)).mp other
    rw [ih rest]

/-- The usual case: a one-byte tag and a one-byte length. -/
theorem Sequence.object (t : UInt8) (value : List UInt8) (first : ¬ Filler t) (oneByte : t &&& 0x1F ≠ 0x1F)
    (short : value.length < 0x80) (rest : Sequence bytes items) :
    Sequence (t :: UInt8.ofNat value.length :: (value ++ bytes)) (⟨t.toUInt16, value⟩ :: items) := by
  have counted : (UInt8.ofNat value.length).toNat = value.length := by
    rw [UInt8.toNat_ofNat']
    exact Nat.mod_eq_of_lt (by omega)
  have low : UInt8.ofNat value.length < 0x80 := UInt8.lt_iff_toNat_lt.mpr (by rw [counted]; exact short)
  have measured := LengthField.short low
  rw [counted] at measured
  exact Sequence.item (.one first oneByte) measured rest

theorem Sequence.value_length_le (sequence : Sequence bytes items) (member : item ∈ items) :
    item.value.length ≤ bytes.length := by
  induction sequence with
  | nil => cases member
  | filler _ _ ih => exact Nat.le_succ_of_le (ih member)
  | item _ _ _ ih =>
    simp only [List.length_append]
    obtain rfl | member := List.mem_cons.mp member
    · dsimp only
      omega
    · have := ih member
      omega

/-- The values under a tag, in order. -/
def values (tag : UInt16) (items : List Item) : List (List UInt8) :=
  (items.filter fun item => item.tag = tag).map Item.value

@[simp] theorem values_nil : values tag [] = [] := rfl

@[simp] theorem values_cons : values tag (item :: items) =
    if item.tag = tag then item.value :: values tag items else values tag items := by
  by_cases same : item.tag = tag <;> simp [values, same]

theorem values_perm {others : List Item} (same : items.Perm others) (tag : UInt16) :
    (values tag items).Perm (values tag others) :=
  (same.filter _).map _

end CardOs.Library.BerTlv
