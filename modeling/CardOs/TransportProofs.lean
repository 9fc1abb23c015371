import CardOs.Library.NibbleText
import CardOs.Transport

/-! The two transports read a line of card traffic alike, one from a buffered and trimmed
line and one character by character: both come down to the same decoding of the line.
Only what they make of an empty decoding differs. -/
namespace CardOs.TransportProofs
open CardOs.Transport CardOs.Library.NibbleText

/-- The characters that stand between digits. -/
def separator (c : UInt8) : Bool := c = 0x20 || c = 0x09 || c = 0x3A

/-- The characters the simulator passes over. -/
def simSkips (c : UInt8) : Bool := c = 0x20 || c = 0x09 || c = 0x0D || c = 0x0A || c = 0x3A

def blank (c : UInt8) : Bool := c = 0x0A || c = 0x0D || c = 0x20 || c = 0x09

/-- The characters of a line of card traffic, which is not a control line. -/
structure Traffic (line : List UInt8) : Prop where
  plain : ∀ c ∈ line, c ≠ 0x0A ∧ c ≠ 0x0D ∧ c ≠ 0x00
  notControl : line.head? ≠ some 0x2E ∧ line.head? ≠ some 0x23

section Simulator
variable {cap : UInt32} {line rest output atr : List UInt8}

theorem hexDecodeFrom_eq (out : List UInt8) (hi : Option UInt8) (room : out.length ≤ cap.toNat) :
    Sim.hexDecodeFrom cap out hi line = decodeFrom simSkips hexNibble cap.toNat out hi line := by
  induction line generalizing out hi with
  | nil => rw [Sim.hexDecodeFrom, decodeFrom_nil, if_pos room]
  | cons c rest ih =>
    rw [Sim.hexDecodeFrom]
    split
    · rename_i skipped
      rw [decodeFrom_skip (by simpa [simSkips, or_assoc] using skipped), ih out hi room]
    · rename_i kept
      have kept : simSkips c = false := by simpa [simSkips, and_assoc] using kept
      cases value : hexNibble c with
      | none => rw [decodeFrom_bad kept value]
      | some v =>
        cases hi with
        | none =>
          rw [decodeFrom_first kept value]
          exact ih out (some v) room
        | some h =>
          rw [decodeFrom_second kept value]
          dsimp only
          split
          · rfl
          · rename_i fits
            exact ih _ none (by rw [List.length_append, List.length_singleton]; omega)

private theorem upToLine_line {n : Nat} (plain : ∀ c ∈ line, c ≠ 0x0A) (short : line.length < n) :
    Sim.upToLine n (line ++ 0x0A :: rest) = (line ++ [0x0A], rest) := by
  induction line generalizing n with
  | nil =>
    cases n with
    | zero => cases short
    | succ n => rfl
  | cons c line ih =>
    obtain ⟨here, later⟩ := List.forall_mem_cons.mp plain
    cases n with
    | zero => cases short
    | succ n =>
      rw [List.cons_append, Sim.upToLine, if_neg here, ih later (Nat.lt_of_succ_lt_succ short), List.cons_append]

theorem fgets_line (plain : ∀ c ∈ line, c ≠ 0x0A) (short : line.length < 2047) :
    Sim.fgets (line ++ 0x0A :: rest) = some (line ++ [0x0A], rest) := by
  rw [Sim.fgets, if_neg (by simp)]
  exact congrArg some (upToLine_line plain short)

private theorem trim_line (traffic : Traffic line) :
    Sim.trim (Sim.cString (line ++ [0x0A])) = line.rdropWhile blank := by
  have whole : Sim.cString (line ++ [0x0A]) = line ++ [0x0A] := by
    apply List.takeWhile_eq_self_iff.mpr
    intro c member
    rcases List.mem_append.mp member with inside | last
    · simpa using (traffic.plain c inside).2.2
    · simp [List.mem_singleton.mp last]
  have same : (fun c : UInt8 => decide (c = 0x0A ∨ c = 0x0D ∨ c = 0x20 ∨ c = 0x09)) = blank := by
    funext c
    simp [blank, Bool.or_assoc]
  rw [whole, Sim.trim, same]
  exact List.rdropWhile_concat_pos _ _ _ rfl

/-- Trimming takes away separators only. -/
private theorem decode_trimmed (traffic : Traffic line) (out : List UInt8) (half : Option UInt8) (room : Nat) :
    decodeFrom simSkips hexNibble room out half (line.rdropWhile blank) =
      decodeFrom separator hexNibble room out half line := by
  have same : ∀ c ∈ line, simSkips c = separator c := by
    intro c member
    obtain ⟨feed, carriage, -⟩ := traffic.plain c member
    simp [simSkips, separator, feed, carriage]
  have tail : ∀ c ∈ line.rtakeWhile blank, simSkips c = true := by
    intro c member
    have blanks := List.mem_rtakeWhile_imp member
    simp only [blank, Bool.or_eq_true, decide_eq_true_eq] at blanks
    obtain ((rfl | rfl) | rfl) | rfl := blanks <;> rfl
  have whole : nibbles simSkips hexNibble (line.rdropWhile blank) = nibbles simSkips hexNibble line := by
    conv_rhs => rw [← List.rdropWhile_append_rtakeWhile (p := blank) (l := line), nibbles_append_skip tail]
  rw [← decodeFrom_congr same, decodeFrom, whole, decodeFrom]

private theorem handleControl_traffic (traffic : Traffic line) (some : line.rdropWhile blank ≠ []) :
    Sim.handleControl atr (line.rdropWhile blank) = (.traffic, []) := by
  have first : (line.rdropWhile blank).head? = line.head? := by
    conv_rhs => rw [← List.rdropWhile_append_rtakeWhile (p := blank) (l := line), List.head?_append_of_ne_nil _ some]
  obtain ⟨dot, hash⟩ := traffic.notControl
  obtain ⟨c, tail, starts⟩ := List.exists_cons_of_ne_nil some
  rw [← first, starts, List.head?_cons, ne_eq, Option.some.injEq] at dot hash
  simp [Sim.handleControl, starts, dot, hash]

/-- One line of traffic at the simulator. -/
theorem sim_receives_line (traffic : Traffic line) (short : line.length < 2047) (some : cap ≠ 0) :
    Sim.halCardReceive atr cap ⟨line ++ 0x0A :: rest, output⟩ =
      if line.rdropWhile blank = [] then Sim.halCardReceive atr cap ⟨rest, output⟩
      else (decodeFrom separator hexNibble cap.toNat [] none line).elim (Sim.halCardReceive atr cap ⟨rest, output⟩)
        fun bytes => (.command bytes, ⟨rest, output⟩) := by
  have read := @fgets_line line rest (fun c member => (traffic.plain c member).1) short
  have decoded : Sim.hexDecode cap (line.rdropWhile blank) = decodeFrom separator hexNibble cap.toNat [] none line := by
    rw [Sim.hexDecode, hexDecodeFrom_eq [] none (Nat.zero_le _), decode_trimmed traffic]
  rw [Sim.halCardReceive, if_neg some]
  split
  · rename_i none
    rw [read] at none
    cases none
  · rename_i raw after line'
    rw [read] at line'
    cases line'
    rw [trim_line traffic]
    dsimp only
    split
    · rfl
    · rename_i content
      rw [handleControl_traffic traffic content]
      cases read : decodeFrom separator hexNibble cap.toNat [] none line with
      | none => simp only [decoded, read, Option.elim_none]
      | some bytes => simp only [decoded, read, Option.elim_some]

end Simulator

section Uart
variable {cap : UInt32} {line rest output atr text : List UInt8} {st : Scv1.LineState} {c : UInt8}

/-- What the UART answers a line that is not hex with. -/
def malformed : String := "transport: not valid hex (or too long)\n"

/-- What the flags of a line that has ended amount to. -/
def outcome (st : Scv1.LineState) : Option (List UInt8) := if st.bad ∨ st.hi.isSome then none else some st.bytes

/-- What a line will amount to, with its first characters taken. -/
def prospect (cap : UInt32) (st : Scv1.LineState) (text : List UInt8) : Option (List UInt8) :=
  if st.bad then none else decodeFrom separator hexNibble cap.toNat st.bytes st.hi text

private theorem takeHex_prospect (cap : UInt32) (st : Scv1.LineState) (c : UInt8) (text : List UInt8) :
    prospect cap (Scv1.takeHex cap st c) text = prospect cap st (c :: text) := by
  unfold Scv1.takeHex prospect
  split
  · rename_i skipped
    rw [decodeFrom_skip (by simpa [separator, or_assoc] using skipped)]
  · rename_i kept
    have kept : separator c = false := by simpa [separator, and_assoc] using kept
    cases value : hexNibble c with
    | none => simp [decodeFrom_bad kept value]
    | some v =>
      cases hi : st.hi with
      | none => simp [decodeFrom_first kept value]
      | some h =>
        rw [decodeFrom_second kept value]
        dsimp only
        split <;> simp [join]

private theorem takeHex_keeps (cap : UInt32) (st : Scv1.LineState) (c : UInt8) :
    (Scv1.takeHex cap st c).isControl = st.isControl ∧ (Scv1.takeHex cap st c).seen = st.seen ∧
      (st.bytes.length ≤ cap.toNat → (Scv1.takeHex cap st c).bytes.length ≤ cap.toNat) := by
  unfold Scv1.takeHex
  split
  · exact ⟨rfl, rfl, id⟩
  · split
    · exact ⟨rfl, rfl, id⟩
    · split
      · exact ⟨rfl, rfl, id⟩
      · split
        · exact ⟨rfl, rfl, id⟩
        · refine ⟨rfl, rfl, fun room => ?_⟩
          rw [List.length_append, List.length_singleton]
          omega

/-- A line of traffic is counted and decoded character by character. -/
private theorem taken_line (traffic : st.isControl = false)
    (first : st.seen = 0 → text.head? ≠ some 0x2E ∧ text.head? ≠ some 0x23)
    (short : st.seen.toNat + text.length < 4294967296) (room : st.bytes.length ≤ cap.toNat) :
    let after := text.foldl (Scv1.takeChar cap) st
    after.isControl = false ∧ after.seen.toNat = st.seen.toNat + text.length ∧ outcome after = prospect cap st text := by
  induction text generalizing st with
  | nil =>
    refine ⟨traffic, rfl, ?_⟩
    simp only [outcome, prospect, List.foldl_nil, decodeFrom_nil, if_pos room]
    by_cases bad : st.bad = true <;> simp [bad]
  | cons c text ih =>
    have plain : Scv1.takeChar cap st c = Scv1.takeHex cap { st with isControl := false, seen := st.seen + 1 } c := by
      have decided : (if st.seen = 0 then c = 0x2E || c = 0x23 else st.isControl) = false := by
        split
        · rename_i start
          obtain ⟨dot, hash⟩ := first start
          rw [List.head?_cons, ne_eq, Option.some.injEq] at dot hash
          simpa using ⟨dot, hash⟩
        · exact traffic
      simp only [Scv1.takeChar, decided, Bool.false_eq_true, if_false]
    obtain ⟨control, seen, keeps⟩ := takeHex_keeps cap { st with isControl := false, seen := st.seen + 1 } c
    have counted : (st.seen + 1).toNat = st.seen.toNat + 1 := by
      rw [List.length_cons] at short
      rw [UInt32.toNat_add]
      exact Nat.mod_eq_of_lt (by simp only [UInt32.reduceToNat]; omega)
    have later : st.seen + 1 ≠ 0 := by
      intro zero
      rw [zero] at counted
      cases counted
    rw [← plain] at control seen keeps
    dsimp only at control seen keeps
    rw [List.length_cons] at short
    obtain ⟨notControl, total, result⟩ := ih control (fun start => absurd (seen ▸ start) later) (by rw [seen]; omega)
      (keeps room)
    refine ⟨notControl, ?_, ?_⟩
    · rw [List.foldl_cons, total, seen, counted, List.length_cons]
      omega
    · rw [List.foldl_cons, result, plain, takeHex_prospect]
      rfl

theorem scanLine_line (plain : ∀ c ∈ line, c ≠ 0x0A ∧ c ≠ 0x0D) :
    Scv1.scanLine cap st (line ++ 0x0A :: rest) = some (line.foldl (Scv1.takeChar cap) st, rest) := by
  induction line generalizing st with
  | nil => rfl
  | cons c line ih =>
    obtain ⟨here, later⟩ := List.forall_mem_cons.mp plain
    rw [List.cons_append, Scv1.scanLine, if_neg (not_or.mpr here), ih later, List.foldl_cons]

/-- One line of traffic at the UART. -/
theorem scv1_receives_line (traffic : Traffic line) (short : line.length < 2047) (some : cap ≠ 0) :
    Scv1.halCardReceive atr cap ⟨line ++ 0x0A :: rest, output⟩ =
      match decodeFrom separator hexNibble cap.toNat [] none line with
        | none => Scv1.halCardReceive atr cap ⟨rest, output ++ chars malformed⟩
        | .some [] => Scv1.halCardReceive atr cap ⟨rest, output⟩
        | .some (b :: bytes) => (.command (b :: bytes), ⟨rest, output⟩) := by
  have scanned := @scanLine_line cap line rest .fresh fun c member =>
    ⟨(traffic.plain c member).1, (traffic.plain c member).2.1⟩
  obtain ⟨control, seen, result⟩ := @taken_line cap line .fresh rfl (fun _ => traffic.notControl)
    (show 0 + line.length < 4294967296 by omega) (Nat.zero_le _)
  rw [show prospect cap .fresh line = decodeFrom separator hexNibble cap.toNat [] none line from rfl] at result
  generalize line.foldl (Scv1.takeChar cap) .fresh = st at scanned control seen result
  rw [Scv1.halCardReceive, if_neg some]
  split
  · rename_i none
    rw [scanned] at none
    cases none
  · rename_i st' after line'
    rw [scanned] at line'
    cases line'
    split
    · rename_i none
      rw [none] at seen
      have empty : line = [] := List.length_eq_zero_iff.mp (seen.trans (Nat.zero_add _)).symm
      rw [empty, decodeFrom_nil]
      rfl
    · rw [control, ← result, outcome, if_neg Bool.false_ne_true]
      by_cases bad : st.bad = true ∨ st.hi.isSome = true
      · have content : ¬ (st.bytes.length = 0 ∧ (!st.bad) = true ∧ st.hi.isNone = true) := by
          rintro ⟨-, good, whole⟩
          rcases bad with bad | half
          · rw [bad] at good
            cases good
          · rw [Option.isNone_iff_eq_none.mp whole] at half
            cases half
        rw [if_neg content, if_pos bad, if_pos bad]
        rfl
      · obtain ⟨good, whole⟩ := not_or.mp bad
        rw [if_neg bad, if_neg bad]
        cases bytes : st.bytes with
        | nil => simp [good, Option.not_isSome_iff_eq_none.mp whole]
        | cons b rest => simp

end Uart

/-! What becomes of a line. -/

/-- The line reaches the OS as these bytes. -/
def Delivers (receive : Link → Received × Link) (line bytes : List UInt8) : Prop :=
  ∀ rest output, receive ⟨line ++ 0x0A :: rest, output⟩ = (.command bytes, ⟨rest, output⟩)

/-- The line is dropped, perhaps with a message to the reader, and the next one awaited. -/
def Discards (receive : Link → Received × Link) (line : List UInt8) : Prop :=
  ∀ rest output, ∃ message, receive ⟨line ++ 0x0A :: rest, output⟩ = receive ⟨rest, output ++ message⟩

/-- Both transports make the same of the line. -/
def Agree (simAtr scv1Atr : List UInt8) (cap : UInt32) (line : List UInt8) : Prop :=
  (∃ bytes, Delivers (Sim.halCardReceive simAtr cap) line bytes ∧
    Delivers (Scv1.halCardReceive scv1Atr cap) line bytes) ∨
    (Discards (Sim.halCardReceive simAtr cap) line ∧ Discards (Scv1.halCardReceive scv1Atr cap) line)

/-- What either transport sends is what both receive. -/
def RoundTrips (simAtr scv1Atr : List UInt8) (cap : UInt32) : Prop :=
  ∀ bytes : List UInt8, 1 ≤ bytes.length → bytes.length ≤ min cap.toNat 1000 → ∀ link : Link,
    ∃ line, (Sim.halCardSend bytes link).output = link.output ++ (line ++ [0x0A]) ∧
      (Scv1.halCardSend bytes link).output = link.output ++ (line ++ [0x0A]) ∧
      Delivers (Sim.halCardReceive simAtr cap) line bytes ∧ Delivers (Scv1.halCardReceive scv1Atr cap) line bytes

section Fates
variable {simAtr scv1Atr line bytes : List UInt8} {cap : UInt32}

private theorem sim_ended (some : cap ≠ 0) (output : List UInt8) :
    Sim.halCardReceive simAtr cap ⟨[], output⟩ = (.linkDown, ⟨[], output⟩) := by
  rw [Sim.halCardReceive, if_neg some]
  rfl

private theorem scv1_ended (some : cap ≠ 0) (output : List UInt8) :
    Scv1.halCardReceive scv1Atr cap ⟨[], output⟩ = (.waiting, ⟨[], output⟩) := by
  rw [Scv1.halCardReceive, if_neg some]
  rfl

/-- Delivery shows as soon as the input ends with the line. -/
private theorem delivers_not_discards {receive : Link → Received × Link}
    (ended : ∀ output, ∀ bytes, (receive ⟨[], output⟩).1 ≠ .command bytes)
    (delivers : Delivers receive line bytes) : ¬ Discards receive line := by
  intro discards
  obtain ⟨message, same⟩ := discards [] []
  rw [delivers] at same
  exact ended _ bytes (congrArg Prod.fst same).symm

private theorem decodes_empty_iff :
    decodeFrom separator hexNibble cap.toNat [] none line = some [] ↔ ∀ c ∈ line, separator c = true := by
  rw [decodeFrom_start, ← @decode_empty_iff _ _ hexNibble]
  simp

/-- A decoding that both transports accept. -/
private theorem delivered (traffic : Traffic line) (short : line.length < 2047) (some : cap ≠ 0)
    (decoded : decodeFrom separator hexNibble cap.toNat [] none line = .some bytes) (content : bytes ≠ []) :
    Delivers (Sim.halCardReceive simAtr cap) line bytes ∧ Delivers (Scv1.halCardReceive scv1Atr cap) line bytes := by
  obtain ⟨b, more, rfl⟩ := List.exists_cons_of_ne_nil content
  have digits : ¬ ∀ c ∈ line, blank c = true := by
    intro blanks
    rw [decodes_empty_iff.mpr fun c member => ?_] at decoded
    · cases decoded
    · obtain ⟨feed, carriage, -⟩ := traffic.plain c member
      have blanks := blanks c member
      simp only [blank, feed, carriage, decide_false, Bool.false_or] at blanks
      simp [separator, blanks]
  refine ⟨fun rest output => ?_, fun rest output => ?_⟩
  · rw [sim_receives_line traffic short some, if_neg (List.rdropWhile_eq_nil_iff.not.mpr digits), decoded,
      Option.elim_some]
  · rw [scv1_receives_line traffic short some, decoded]

/-- On a line without content the simulator asks whether anything is left of it. -/
theorem agree_iff (traffic : Traffic line) (short : line.length < 2047) (some : cap ≠ 0) :
    Agree simAtr scv1Atr cap line ↔ ¬ (0x3A ∈ line ∧ ∀ c ∈ line, separator c = true) := by
  rw [← @decodes_empty_iff line cap]
  cases decoded : decodeFrom separator hexNibble cap.toNat [] none line with
  | none =>
    refine iff_of_true (.inr ⟨fun rest output => ⟨[], ?_⟩, fun rest output => ⟨chars malformed, ?_⟩⟩) (by simp)
    · rw [sim_receives_line traffic short some, decoded, List.append_nil, Option.elim_none, ite_self]
    · rw [scv1_receives_line traffic short some, decoded]
  | some bytes =>
    cases bytes with
    | cons b more =>
      exact iff_of_true (.inl ⟨_, delivered traffic short some decoded (by simp)⟩) (by simp)
    | nil =>
      have drops : Discards (Scv1.halCardReceive scv1Atr cap) line := fun rest output =>
        ⟨[], by rw [scv1_receives_line traffic short some, decoded, List.append_nil]⟩
      by_cases colon : 0x3A ∈ line
      · refine iff_of_false ?_ (by simpa using colon)
        have content : ¬ ∀ c ∈ line, blank c = true := fun blanks => absurd (blanks _ colon) (by decide)
        have delivers : Delivers (Sim.halCardReceive simAtr cap) line [] := fun rest output => by
          rw [sim_receives_line traffic short some, if_neg (List.rdropWhile_eq_nil_iff.not.mpr content), decoded,
            Option.elim_some]
        rintro (⟨bytes, -, delivers'⟩ | ⟨discards, -⟩)
        · exact delivers_not_discards (fun output bytes => by rw [scv1_ended some]; simp) delivers' drops
        · exact delivers_not_discards (fun output bytes => by rw [sim_ended some]; simp) delivers discards
      · refine iff_of_true (.inr ⟨fun rest output => ⟨[], ?_⟩, drops⟩) (by simp [colon])
        have blanks : ∀ c ∈ line, blank c = true := by
          intro c member
          have between := decodes_empty_iff.mp decoded c member
          have other : c ≠ 0x3A := fun same => colon (same ▸ member)
          simp only [separator, other, decide_false, Bool.or_false] at between
          simp only [blank, Bool.or_assoc, between, Bool.or_true]
        rw [sim_receives_line traffic short some, if_pos (List.rdropWhile_eq_nil_iff.mpr blanks), List.append_nil]

/-- The sixteen letters: digits for both readers, and nothing that ends or starts a line. -/
private theorem letter_facts {v : UInt8} (small : v < 16) :
    hexNibble (Sim.hexDigit v) = some v ∧ separator (Sim.hexDigit v) = false ∧
      (Sim.hexDigit v ≠ 0x0A ∧ Sim.hexDigit v ≠ 0x0D ∧ Sim.hexDigit v ≠ 0x00) ∧
      (Sim.hexDigit v ≠ 0x2E ∧ Sim.hexDigit v ≠ 0x23) := by
  have each : ∀ n < 16, hexNibble (Sim.hexDigit (UInt8.ofNat n)) = some (UInt8.ofNat n) ∧
      separator (Sim.hexDigit (UInt8.ofNat n)) = false ∧
      (Sim.hexDigit (UInt8.ofNat n) ≠ 0x0A ∧ Sim.hexDigit (UInt8.ofNat n) ≠ 0x0D ∧ Sim.hexDigit (UInt8.ofNat n) ≠ 0x00) ∧
      (Sim.hexDigit (UInt8.ofNat n) ≠ 0x2E ∧ Sim.hexDigit (UInt8.ofNat n) ≠ 0x23) := by decide
  have here := each v.toNat (UInt8.lt_iff_toNat_lt.mp small)
  rwa [UInt8.ofNat_toNat] at here

/-- Both senders write the two halves of a byte in the same letters. -/
theorem senders_agree :
    Sim.printHex = (fun b : UInt8 => [Sim.hexDigit (b >>> 4), Sim.hexDigit (b &&& 0x0F)]) ∧
      Scv1.putHexByte = fun b : UInt8 => [Sim.hexDigit (b >>> 4), Sim.hexDigit (b &&& 0x0F)] := by
  have each : ∀ n < 256, Sim.printHex (UInt8.ofNat n) =
        [Sim.hexDigit (UInt8.ofNat n >>> 4), Sim.hexDigit (UInt8.ofNat n &&& 0x0F)] ∧
      Scv1.putHexByte (UInt8.ofNat n) =
        [Sim.hexDigit (UInt8.ofNat n >>> 4), Sim.hexDigit (UInt8.ofNat n &&& 0x0F)] := by decide +kernel
  have here (b : UInt8) := each b.toNat b.toNat_lt
  simp only [UInt8.ofNat_toNat] at here
  exact ⟨funext fun b => (here b).1, funext fun b => (here b).2⟩

private theorem encoded_letters {c : UInt8} (member : c ∈ encode Sim.hexDigit bytes) : ∃ v < 16, c = Sim.hexDigit v := by
  obtain ⟨b, -, here⟩ := List.mem_flatMap.mp member
  obtain ⟨high, low, -⟩ := halves b
  rcases List.mem_cons.mp here with rfl | here
  · exact ⟨_, high, rfl⟩
  · exact ⟨_, low, List.mem_singleton.mp here⟩

private theorem encoded_traffic (bytes : List UInt8) : Traffic (encode Sim.hexDigit bytes) := by
  refine ⟨fun c member => ?_, ?_⟩
  · obtain ⟨v, small, rfl⟩ := encoded_letters member
    exact (letter_facts small).2.2.1
  · cases bytes with
    | nil => simp [encode]
    | cons b rest =>
      have first := (letter_facts (halves b).1).2.2.2
      simpa [encode] using first

private theorem encoded_length (bytes : List UInt8) : (encode Sim.hexDigit bytes).length = 2 * bytes.length := by
  simp [encode, List.length_flatMap, Nat.mul_comm]

theorem round_trips (some : cap ≠ 0) : RoundTrips simAtr scv1Atr cap := by
  intro bytes content fits link
  refine ⟨encode Sim.hexDigit bytes, ?_, ?_, ?_⟩
  · rw [Sim.halCardSend, senders_agree.1, encode]
  · rw [Scv1.halCardSend, senders_agree.2, encode]
  · have decoded := @decode_encode _ separator _ _ (fun v small => (letter_facts small).1)
      (fun v small => (letter_facts small).2.1) bytes
    have short : (encode Sim.hexDigit bytes).length < 2047 := by
      rw [encoded_length]
      omega
    apply delivered (encoded_traffic bytes) short some
    · rw [decodeFrom_start, decoded]
      simp [Option.filter, show bytes.length ≤ cap.toNat by omega]
    · exact List.length_pos_iff.mp content

end Fates

/-- The transports agree on a line of card traffic, and each receives what either sends,
unless the line is made of separators with a colon among them. -/
theorem transports_agree_iff (simAtr scv1Atr : List UInt8) (cap : UInt32) (some : 1 ≤ cap) (line : List UInt8)
    (plain : ∀ c ∈ line, c ≠ 0x0A ∧ c ≠ 0x0D ∧ c ≠ 0x00) (short : line.length < 2047)
    (notControl : line.head? ≠ .some 0x2E ∧ line.head? ≠ .some 0x23) :
    (Agree simAtr scv1Atr cap line ∧ RoundTrips simAtr scv1Atr cap) ↔
      ¬ (0x3A ∈ line ∧ ∀ c ∈ line, c = 0x20 ∨ c = 0x09 ∨ c = 0x3A) := by
  have positive : cap ≠ 0 := by
    rintro rfl
    exact absurd some (by decide)
  have separators : (∀ c ∈ line, separator c = true) ↔ ∀ c ∈ line, c = 0x20 ∨ c = 0x09 ∨ c = 0x3A := by
    simp [separator, or_assoc]
  rw [← separators, ← @agree_iff simAtr scv1Atr line cap ⟨plain, notControl⟩ short positive]
  exact and_iff_left (round_trips positive)

/-- The line `:` is an empty command to the OS behind the simulator, and nothing to the
one behind the UART. -/
theorem colon_line_tells_transports_apart :
    Sim.halCardReceive [] 261 ⟨[0x3A, 0x0A], []⟩ = (.command [], ⟨[], []⟩) ∧
      Scv1.halCardReceive [] 261 ⟨[0x3A, 0x0A], []⟩ = (.waiting, ⟨[], []⟩) ∧ ¬ Agree [] [] 261 [0x3A] := by
  refine ⟨by decide +kernel, by decide +kernel, fun agree => ?_⟩
  have traffic : Traffic [0x3A] := ⟨by simp, by simp⟩
  exact (agree_iff traffic (by decide) (by decide)).mp agree ⟨by decide, by decide +kernel⟩

theorem transports_agree_on_one_byte : Agree [] [] 261 (chars "9 0") :=
  ((transports_agree_iff [] [] 261 (by decide) (chars "9 0") (by decide +kernel) (by decide +kernel)
    (by decide)).mpr (by decide)).1

end CardOs.TransportProofs
