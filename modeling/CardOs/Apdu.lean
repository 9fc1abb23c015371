import CardOs.Library.BigEndian

/-! `include/apdu/sw.h`, `src/apdu/apdu_parse.c` and `src/apdu/apdu_resp.c`: the
status words, the command parser, the class byte rules and the response builder.
A `NULL` buffer is `none`; a buffer pointer with its length is a list. -/
namespace CardOs.Apdu
open CardOs.Library.BigEndian

abbrev Sw := UInt16

def swOk : Sw := 0x9000
def swNvmUnchangedEof : Sw := 0x6282
def swMemoryFailure : Sw := 0x6581
def swWrongLength : Sw := 0x6700
def swLogicalChannelNotSupported : Sw := 0x6881
def swSecureMessagingNotSupported : Sw := 0x6882
def swChainingNotSupported : Sw := 0x6884
def swCmdIncompatibleFile : Sw := 0x6981
def swConditionsNotSatisfied : Sw := 0x6985
def swCommandNotAllowedNoEf : Sw := 0x6986
def swWrongData : Sw := 0x6A80
def swFuncNotSupported : Sw := 0x6A81
def swFileNotFound : Sw := 0x6A82
def swNotEnoughSpace : Sw := 0x6A84
def swIncorrectP1P2 : Sw := 0x6A86
def swLcInconsistentP1P2 : Sw := 0x6A87
def swFileAlreadyExists : Sw := 0x6A89
def swWrongP1P2 : Sw := 0x6B00
def swWrongLe (n : UInt16) : Sw := 0x6C00 ||| (n &&& 0xFF)
def swInsNotSupported : Sw := 0x6D00
def swClaNotSupported : Sw := 0x6E00
def swNoPreciseDiagnosis : Sw := 0x6F00

def sw1 (sw : Sw) : UInt8 := (sw >>> 8).toUInt8
def sw2 (sw : Sw) : UInt8 := (sw &&& 0xFF).toUInt8

def apduHeaderLen : Nat := 4
def apduShortLeMax : UInt16 := 256

inductive ApduCase where
  | case1
  | case2
  | case3
  | case4
  deriving DecidableEq, Repr

/-- `acase` is `none` while the field still holds the zero of `os_memset`. -/
structure ApduCommand where
  cla : UInt8
  ins : UInt8
  p1 : UInt8
  p2 : UInt8
  data : Option (List UInt8)
  lc : UInt16
  le : UInt16
  lePresent : Bool
  acase : Option ApduCase
  deriving DecidableEq, Repr

def ApduCommand.zeroed : ApduCommand := ⟨0, 0, 0, 0, none, 0, 0, false, none⟩

inductive ApduParseStatus where
  | ok
  | tooShort
  | badLength
  | extended
  deriving DecidableEq, Repr

/-- `Le` on the wire: a zero byte asks for 256. -/
def wireLe (b : UInt8) : UInt16 := if b = 0 then apduShortLeMax else b.toUInt16

/-- The header fields, before the body is looked at. -/
def headerOf (buf : List UInt8) : ApduCommand :=
  { ApduCommand.zeroed with
    cla := buf.getD 0 0, ins := buf.getD 1 0, p1 := buf.getD 2 0, p2 := buf.getD 3 0 }

def apduParse (buf : Option (List UInt8)) : ApduParseStatus × ApduCommand :=
  match buf with
  | none => (.tooShort, .zeroed)
  | some buf =>
    let out := headerOf buf
    let p3 := buf.getD 4 0
    let case3Len := apduHeaderLen + 1 + p3.toNat
    let case4Len := apduHeaderLen + 1 + p3.toNat + 1
    if buf.length < apduHeaderLen then (.tooShort, .zeroed)
    else if buf.length = apduHeaderLen then (.ok, { out with acase := some .case1 })
    else if buf.length = apduHeaderLen + 1 then
      (.ok, { out with acase := some .case2, lePresent := true, le := wireLe p3 })
    else if p3 = 0 then (.extended, .zeroed)
    else if buf.length = case3Len then
      (.ok, { out with
        acase := some .case3, lc := p3.toUInt16
        data := some ((buf.drop (apduHeaderLen + 1)).take p3.toNat) })
    else if buf.length = case4Len then
      (.ok, { out with
        acase := some .case4, lc := p3.toUInt16
        data := some ((buf.drop (apduHeaderLen + 1)).take p3.toNat)
        lePresent := true, le := wireLe (buf.getD (case4Len - 1) 0) })
    else (.badLength, .zeroed)

def apduParseStatusSw : ApduParseStatus → Sw
  | .ok => swOk
  | .tooShort | .badLength => swWrongLength
  | .extended => swFuncNotSupported

inductive ApduClaStatus where
  | ok
  | invalid
  | channelUnsupported
  | smUnsupported
  | chainingUnsupported
  deriving DecidableEq, Repr

def apduCheckCla (cla : UInt8) : ApduClaStatus :=
  if cla = 0xFF then .invalid
  else if cla &&& 0xE0 ≠ 0 then .invalid
  else if cla &&& 0x10 ≠ 0 then .chainingUnsupported
  else if cla &&& 0x0C ≠ 0 then .smUnsupported
  else if cla &&& 0x03 ≠ 0 then .channelUnsupported
  else .ok

def apduClaStatusSw : ApduClaStatus → Sw
  | .ok => swOk
  | .channelUnsupported => swLogicalChannelNotSupported
  | .smUnsupported => swSecureMessagingNotSupported
  | .chainingUnsupported => swChainingNotSupported
  | .invalid => swClaNotSupported

/-- The response under construction; `bytes` are the first `len` bytes of the
caller's buffer. -/
structure ApduResponse where
  cap : UInt16
  bytes : List UInt8
  overflow : Bool
  deriving DecidableEq, Repr

def apduRspInit (cap : UInt16) : ApduResponse := ⟨cap, [], false⟩

/-- `os_memcpy_checked` from a non-null source: what lands in the destination. -/
def osMemcpyChecked (dstCap : Nat) (src : List UInt8) : Option (List UInt8) :=
  if src.length = 0 then some []
  else if src.length > dstCap then none
  else some src

/-- Two bytes always stay in reserve for the status word. -/
def apduRspPut (r : ApduResponse) (src : List UInt8) : Bool × ApduResponse :=
  if src.length = 0 then (true, r)
  else
    let available := if r.cap ≥ 2 then r.cap.toNat - 2 else 0
    if r.bytes.length + src.length > available then (false, { r with overflow := true })
    else match osMemcpyChecked (r.cap.toNat - r.bytes.length) src with
      | none => (false, { r with overflow := true })
      | some copied => (true, { r with bytes := r.bytes ++ copied })

/-- A put appends all of the source, or nothing and notes the overflow. -/
theorem apduRspPut_eq {a : ApduResponse} (room : a.bytes.length + 2 ≤ a.cap.toNat) (src : List UInt8) :
    apduRspPut a src =
      if a.bytes.length + src.length + 2 ≤ a.cap.toNat then (true, { a with bytes := a.bytes ++ src })
      else (false, { a with overflow := true }) := by
  have two : a.cap ≥ 2 := UInt16.le_iff_toNat_le.mpr (Nat.le_trans (Nat.le_add_left 2 _) room)
  unfold apduRspPut
  by_cases empty : src.length = 0
  · rw [if_pos empty, List.length_eq_zero_iff.mp empty, List.append_nil, List.length_nil, Nat.add_zero, if_pos room]
  · rw [if_neg empty, if_pos two]
    dsimp only
    by_cases fits : a.bytes.length + src.length + 2 ≤ a.cap.toNat
    · rw [if_neg (by omega), if_pos fits, osMemcpyChecked, if_neg empty, if_neg (by omega)]
    · rw [if_pos (by omega), if_neg fits]

def apduRspPutU8 (r : ApduResponse) (b : UInt8) : Bool × ApduResponse := apduRspPut r [b]

def apduRspPutU16 (r : ApduResponse) (v : UInt16) : Bool × ApduResponse := apduRspPut r (bytes16 v)

/-- The response bytes handed back; none when not even a status word fits. -/
def apduRspFinish (r : ApduResponse) (sw : Sw) : List UInt8 :=
  if r.cap < 2 then []
  else if r.overflow then [sw1 swNoPreciseDiagnosis, sw2 swNoPreciseDiagnosis]
  else r.bytes ++ [sw1 sw, sw2 sw]

end CardOs.Apdu
