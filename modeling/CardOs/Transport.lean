import Mathlib.Data.List.DropRight

/-! `simulator/transport.c` and `src/hal/arm-scv1/hal_arm_io.c`: the line-oriented hex
transport under the card, once over standard input and output and once over a UART.
Characters are bytes. The simulator's messages on standard error are left out; those
of SCV1 go out on the UART like everything else. -/
namespace CardOs.Transport

/-- The characters still to come from the reader, and those sent to it. -/
structure Link where
  input : List UInt8
  output : List UInt8
  deriving DecidableEq, Repr

/-- What `hal_card_receive` ends with; `waiting` is a call that has not returned. -/
inductive Received where
  | command (bytes : List UInt8)
  | reset
  | linkDown
  | param
  | waiting
  deriving DecidableEq, Repr

def chars (text : String) : List UInt8 := text.toList.map fun c => UInt8.ofNat c.toNat

/-- The value of a hex digit. -/
def hexNibble (ch : UInt8) : Option UInt8 :=
  if ch ≥ 0x30 ∧ ch ≤ 0x39 then some (ch - 0x30)
  else if ch ≥ 0x61 ∧ ch ≤ 0x66 then some (ch - 0x61 + 10)
  else if ch ≥ 0x41 ∧ ch ≤ 0x46 then some (ch - 0x41 + 10)
  else none

namespace Sim

def lineMax : Nat := 2048

/-- At most `n` characters, up to and with the first line feed. -/
def upToLine : Nat → List UInt8 → List UInt8 × List UInt8
  | 0, input => ([], input)
  | _ + 1, [] => ([], [])
  | n + 1, c :: rest =>
    if c = 0x0A then ([c], rest)
    else ((c :: (upToLine n rest).1), (upToLine n rest).2)

/-- `fgets` into the line buffer: nothing at the end of the input. -/
def fgets (input : List UInt8) : Option (List UInt8 × List UInt8) :=
  if input = [] then none else some (upToLine (lineMax - 1) input)

/-- The string in a buffer, which ends before its first NUL. -/
def cString (line : List UInt8) : List UInt8 := line.takeWhile (· ≠ 0x00)

def trim (s : List UInt8) : List UInt8 :=
  s.rdropWhile fun ch => ch = 0x0A ∨ ch = 0x0D ∨ ch = 0x20 ∨ ch = 0x09

/-- The loop of `hex_decode`: the bytes so far, the pending high nibble and the rest of
the text. -/
def hexDecodeFrom (cap : UInt32) (out : List UInt8) (hi : Option UInt8) : List UInt8 → Option (List UInt8)
  | [] => if hi.isSome then none else some out
  | ch :: rest =>
    if ch = 0x20 ∨ ch = 0x09 ∨ ch = 0x0D ∨ ch = 0x0A ∨ ch = 0x3A then hexDecodeFrom cap out hi rest
    else match hexNibble ch with
      | none => none
      | some v => match hi with
        | none => hexDecodeFrom cap out (some v) rest
        | some h =>
          if out.length ≥ cap.toNat then none else hexDecodeFrom cap (out ++ [(h <<< 4) ||| v]) none rest

def hexDecode (cap : UInt32) (line : List UInt8) : Option (List UInt8) := hexDecodeFrom cap [] none line

/-- One digit of `printf`'s `%X`. -/
def hexDigit (v : UInt8) : UInt8 := if v < 10 then 0x30 + v else 0x41 + (v - 10)

/-- `printf("%02X", b)`. -/
def printHex (b : UInt8) : List UInt8 := [hexDigit (b / 16), hexDigit (b % 16)]

def printAtr (atr : List UInt8) : List UInt8 := atr.flatMap printHex ++ [0x0A]

inductive Control where
  | traffic
  | handled
  | shutdown
  | reset
  deriving DecidableEq, Repr

/-- What a line asks of the transport itself, and what that prints. -/
def handleControl (atr line : List UInt8) : Control × List UInt8 :=
  if line.getD 0 0 = 0x23 then (.handled, [])
  else if line.getD 0 0 ≠ 0x2E then (.traffic, [])
  else if line = chars ".quit" ∨ line = chars ".exit" then (.shutdown, [])
  else if line = chars ".atr" then (.handled, printAtr atr)
  else if line = chars ".reset" then (.reset, printAtr atr)
  else (.handled, [])

theorem upToLine_rest (n : Nat) (input : List UInt8) : (upToLine n input).2.length ≤ input.length := by
  fun_induction upToLine n input with
  | case1 input => exact Nat.le_refl _
  | case2 n => exact Nat.le_refl _
  | case3 n rest => exact Nat.le_succ _
  | case4 n c rest other ih => exact Nat.le_succ_of_le ih

theorem fgets_rest {input line rest : List UInt8} (read : fgets input = some (line, rest)) :
    rest.length < input.length := by
  unfold fgets at read
  split at read
  · cases read
  · rename_i some
    obtain ⟨c, tail, rfl⟩ := List.exists_cons_of_ne_nil some
    have shorter := upToLine_rest (lineMax - 2) tail
    simp only [Option.some.injEq] at read
    rw [show lineMax - 1 = (lineMax - 2) + 1 from rfl, upToLine] at read
    split at read
    · cases read
      exact Nat.lt_succ_self _
    · cases read
      exact Nat.lt_succ_of_le shorter

def halCardReceive (atr : List UInt8) (cap : UInt32) (link : Link) : Received × Link :=
  if cap = 0 then (.param, link)
  else match _ : fgets link.input with
  | none => (.linkDown, link)
  | some (raw, rest) =>
    let line := trim (cString raw)
    if line = [] then halCardReceive atr cap ⟨rest, link.output⟩
    else match handleControl atr line with
      | (.shutdown, printed) => (.linkDown, ⟨rest, link.output ++ printed⟩)
      | (.reset, printed) => (.reset, ⟨rest, link.output ++ printed⟩)
      | (.handled, printed) => halCardReceive atr cap ⟨rest, link.output ++ printed⟩
      | (.traffic, _) => match hexDecode cap line with
        | none => halCardReceive atr cap ⟨rest, link.output⟩
        | some bytes => (.command bytes, ⟨rest, link.output⟩)
termination_by link.input.length
decreasing_by all_goals exact fgets_rest ‹_›

def halCardSend (bytes : List UInt8) (link : Link) : Link :=
  { link with output := link.output ++ (bytes.flatMap printHex ++ [0x0A]) }

end Sim

namespace Scv1

def digits : List UInt8 := chars "0123456789ABCDEF"

def putHexByte (b : UInt8) : List UInt8 :=
  [digits.getD ((b >>> 4) &&& 0x0F).toNat 0, digits.getD (b &&& 0x0F).toNat 0]

def sendAtr (atr : List UInt8) : List UInt8 := atr.flatMap putHexByte ++ [0x0A]

/-- The locals of `hal_card_receive` for one line: `bytes` are the first `n` of the
buffer, `control` the first `clen` of the control line. -/
structure LineState where
  bytes : List UInt8
  hi : Option UInt8
  bad : Bool
  seen : UInt32
  isControl : Bool
  control : List UInt8
  deriving DecidableEq, Repr

def LineState.fresh : LineState := ⟨[], none, false, 0, false, []⟩

/-- A character that is not part of a control line. -/
def takeHex (cap : UInt32) (st : LineState) (c : UInt8) : LineState :=
  if c = 0x20 ∨ c = 0x09 ∨ c = 0x3A then st
  else match hexNibble c with
    | none => { st with bad := true }
    | some v => match st.hi with
      | none => { st with hi := some v }
      | some h =>
        if st.bytes.length ≥ cap.toNat then { st with bad := true, hi := none }
        else { st with bytes := st.bytes ++ [(h <<< 4) ||| v], hi := none }

/-- The first character decides whether the line is a control line. -/
def takeChar (cap : UInt32) (st : LineState) (c : UInt8) : LineState :=
  let isControl := if st.seen = 0 then c = 0x2E || c = 0x23 else st.isControl
  let st := { st with isControl, seen := st.seen + 1 }
  if st.isControl then if st.control.length < 15 then { st with control := st.control ++ [c] } else st
  else takeHex cap st c

/-- One line from the UART, which blocks until its end has come. -/
def scanLine (cap : UInt32) (st : LineState) : List UInt8 → Option (LineState × List UInt8)
  | [] => none
  | c :: rest => if c = 0x0A ∨ c = 0x0D then some (st, rest) else scanLine cap (takeChar cap st c) rest

theorem scanLine_rest {cap : UInt32} {st st' : LineState} {input rest : List UInt8}
    (scanned : scanLine cap st input = some (st', rest)) : rest.length < input.length := by
  induction input generalizing st with
  | nil => cases scanned
  | cons c input ih =>
    rw [scanLine] at scanned
    split at scanned
    · cases scanned
      exact Nat.lt_succ_self _
    · exact Nat.lt_succ_of_lt (ih scanned)

def halCardReceive (atr : List UInt8) (cap : UInt32) (link : Link) : Received × Link :=
  if cap = 0 then (.param, link)
  else match _ : scanLine cap .fresh link.input with
  | none => (.waiting, ⟨[], link.output⟩)
  | some (st, rest) =>
    if st.seen = 0 then halCardReceive atr cap ⟨rest, link.output⟩
    else if st.isControl then
      if st.control.getD 0 0 = 0x23 then halCardReceive atr cap ⟨rest, link.output⟩
      else if st.control.getD 1 0 = 0x71 then (.linkDown, ⟨rest, link.output⟩)
      else if st.control.getD 1 0 = 0x61 then halCardReceive atr cap ⟨rest, link.output ++ sendAtr atr⟩
      else if st.control.getD 1 0 = 0x72 then (.reset, ⟨rest, link.output ++ sendAtr atr⟩)
      else halCardReceive atr cap ⟨rest, link.output ++ chars "transport: unknown control\n"⟩
    else if st.bytes.length = 0 ∧ !st.bad ∧ st.hi.isNone then halCardReceive atr cap ⟨rest, link.output⟩
    else if st.bad ∨ st.hi.isSome then
      halCardReceive atr cap ⟨rest, link.output ++ chars "transport: not valid hex (or too long)\n"⟩
    else (.command st.bytes, ⟨rest, link.output⟩)
termination_by link.input.length
decreasing_by all_goals exact scanLine_rest ‹_›

def halCardSend (bytes : List UInt8) (link : Link) : Link :=
  { link with output := link.output ++ (bytes.flatMap putHexByte ++ [0x0A]) }

end Scv1

end CardOs.Transport
