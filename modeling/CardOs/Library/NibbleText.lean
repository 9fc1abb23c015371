import Mathlib.Data.List.Basic

/-! Bytes as text, two digits to a byte, with characters that are passed over in
between. The alphabet is arbitrary: `digit` gives the value of a character, `letter`
the character of a value. -/
namespace CardOs.Library.NibbleText

section Decoding
variable {γ : Type} (skip : γ → Bool) (digit : γ → Option UInt8)

def join (hi lo : UInt8) : UInt8 := (hi <<< 4) ||| lo

/-- The values of the digits, unless a character is none. -/
def nibbles : List γ → Option (List UInt8)
  | [] => some []
  | c :: rest =>
    if skip c then nibbles rest
    else (digit c).bind fun v => (nibbles rest).map (v :: ·)

/-- Nibbles two by two; an odd one out makes no byte. -/
def pairs : List UInt8 → Option (List UInt8)
  | [] => some []
  | [_] => none
  | hi :: lo :: rest => (pairs rest).map (join hi lo :: ·)

def decode (text : List γ) : Option (List UInt8) := (nibbles skip digit text).bind pairs

/-- The decoding of a text that a decoder reads from the middle: it has bytes and maybe a
first nibble already, and no room for more than `cap` bytes. -/
def decodeFrom (cap : Nat) (out : List UInt8) (half : Option UInt8) (text : List γ) : Option (List UInt8) :=
  (nibbles skip digit text).bind fun values => (pairs (half.toList ++ values)).bind fun bytes =>
    if out.length + bytes.length ≤ cap then some (out ++ bytes) else none

variable {skip digit} {cap : Nat} {out : List UInt8} {half : Option UInt8} {text : List γ} {c : γ} {v h : UInt8}

theorem decodeFrom_nil : decodeFrom skip digit cap out half [] =
    if half.isSome then none else if out.length ≤ cap then some out else none := by
  cases half <;> simp [decodeFrom, nibbles, pairs]

theorem decodeFrom_skip (skipped : skip c = true) :
    decodeFrom skip digit cap out half (c :: text) = decodeFrom skip digit cap out half text := by
  simp [decodeFrom, nibbles, skipped]

theorem decodeFrom_bad (kept : skip c = false) (bad : digit c = none) :
    decodeFrom skip digit cap out half (c :: text) = none := by
  simp [decodeFrom, nibbles, kept, bad]

theorem decodeFrom_first (kept : skip c = false) (value : digit c = some v) :
    decodeFrom skip digit cap out none (c :: text) = decodeFrom skip digit cap out (some v) text := by
  cases read : nibbles skip digit text <;> simp [decodeFrom, nibbles, kept, value, read]

theorem decodeFrom_second (kept : skip c = false) (value : digit c = some v) :
    decodeFrom skip digit cap out (some h) (c :: text) =
      if out.length ≥ cap then none else decodeFrom skip digit cap (out ++ [join h v]) none text := by
  cases read : nibbles skip digit text with
  | none => simp [decodeFrom, nibbles, kept, value, read]
  | some values =>
    cases made : pairs values with
    | none => simp [decodeFrom, nibbles, kept, value, read, pairs, made]
    | some bytes =>
      by_cases full : out.length ≥ cap
      · have more : ¬ out.length + (bytes.length + 1) ≤ cap := by omega
        simp [decodeFrom, nibbles, kept, value, read, pairs, made, full, more]
      · have same : out.length + (bytes.length + 1) ≤ cap ↔ out.length + 1 + bytes.length ≤ cap := by omega
        simp [decodeFrom, nibbles, kept, value, read, pairs, made, full, same]

/-- A decoder that starts afresh. -/
theorem decodeFrom_start : decodeFrom skip digit cap [] none text =
    (decode skip digit text).filter fun bytes => bytes.length ≤ cap := by
  unfold decodeFrom decode
  cases read : nibbles skip digit text with
  | none => rfl
  | some values =>
    simp only [Option.bind_some, Option.toList_none, List.nil_append]
    cases pairs values with
    | none => rfl
    | some bytes =>
      by_cases fits : bytes.length ≤ cap <;> simp [Option.filter, fits]

theorem nibbles_congr {skip' : γ → Bool} (same : ∀ c ∈ text, skip c = skip' c) :
    nibbles skip digit text = nibbles skip' digit text := by
  induction text with
  | nil => rfl
  | cons c rest ih =>
    obtain ⟨here, later⟩ := List.forall_mem_cons.mp same
    rw [nibbles, nibbles, here, ih later]

theorem decodeFrom_congr {skip' : γ → Bool} (same : ∀ c ∈ text, skip c = skip' c) :
    decodeFrom skip digit cap out half text = decodeFrom skip' digit cap out half text := by
  rw [decodeFrom, nibbles_congr same, decodeFrom]

/-- Skipped characters at the end make no difference. -/
theorem nibbles_append_skip {tail : List γ} (skipped : ∀ c ∈ tail, skip c = true) :
    nibbles skip digit (text ++ tail) = nibbles skip digit text := by
  induction text with
  | nil =>
    induction tail with
    | nil => rfl
    | cons c rest ih =>
      obtain ⟨here, later⟩ := List.forall_mem_cons.mp skipped
      exact (if_pos here).trans (ih later)
  | cons c rest ih => rw [List.cons_append, nibbles, nibbles, ih]

/-- Only skipped characters make an empty decoding. -/
theorem decode_empty_iff : decode skip digit text = some [] ↔ ∀ c ∈ text, skip c = true := by
  unfold decode
  induction text with
  | nil => simp [nibbles, pairs]
  | cons c rest ih =>
    cases skipped : skip c with
    | true => simpa [nibbles, skipped] using ih
    | false =>
      cases value : digit c with
      | none => simp [nibbles, skipped, value]
      | some v =>
        cases read : nibbles skip digit rest with
        | none => simp [nibbles, skipped, value, read]
        | some values =>
          cases values with
          | nil => simp [nibbles, skipped, value, read, pairs]
          | cons w values => simp [nibbles, skipped, value, read, pairs]

end Decoding

section Encoding
variable {γ : Type} {skip : γ → Bool} {digit : γ → Option UInt8} {letter : UInt8 → γ}

def encode (letter : UInt8 → γ) (bytes : List UInt8) : List γ :=
  bytes.flatMap fun b : UInt8 => [letter (b >>> 4), letter (b &&& 0x0F)]

theorem halves (b : UInt8) : b >>> 4 < 16 ∧ b &&& 0x0F < 16 ∧ join (b >>> 4) (b &&& 0x0F) = b := by
  have each : ∀ n < 256, UInt8.ofNat n >>> 4 < 16 ∧ UInt8.ofNat n &&& 0x0F < 16 ∧
    join (UInt8.ofNat n >>> 4) (UInt8.ofNat n &&& 0x0F) = UInt8.ofNat n := by decide +kernel
  have here := each b.toNat b.toNat_lt
  rwa [UInt8.ofNat_toNat] at here

/-- What is written is read back. -/
theorem decode_encode (known : ∀ v < 16, digit (letter v) = some v) (kept : ∀ v < 16, skip (letter v) = false)
    (bytes : List UInt8) : decode skip digit (encode letter bytes) = some bytes := by
  have values : ∀ bytes, nibbles skip digit (encode letter bytes) =
      some (bytes.flatMap fun b : UInt8 => [b >>> 4, b &&& 0x0F]) := by
    intro bytes
    induction bytes with
    | nil => rfl
    | cons b rest ih =>
      obtain ⟨high, low, -⟩ := halves b
      unfold encode at ih ⊢
      simp [nibbles, known _ high, known _ low, kept _ high, kept _ low, ih]
  rw [decode, values, Option.bind_some]
  induction bytes with
  | nil => rfl
  | cons b rest ih => simp [pairs, ih, (halves b).2.2]

end Encoding

end CardOs.Library.NibbleText
