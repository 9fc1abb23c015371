import CardOs.ResponseBuffer
import Mathlib.Data.List.Induction

/-! The response builder is exact or answers 6F00. The builder on its buffer refines the
one that keeps its bytes in a list, on which the commands are modelled, and stores only
below the two bytes it reserves; on the list, overflow tells whether all that was pushed
fits. -/
namespace CardOs.ResponseProofs
open CardOs.Library CardOs.Library.BigEndian CardOs.Apdu CardOs.ResponseBuffer

/-! Every call is a put. -/

/-- The source a call copies from. -/
def source : PushCall → Option (List UInt8)
  | .put src _ _ => src
  | .putU8 b => some [b]
  | .putU16 v => some (bytes16 v)

/-- How many bytes a call announces. -/
def count : PushCall → UInt16
  | .put _ n _ => n
  | .putU8 _ => 1
  | .putU16 _ => 2

/-- The bytes a call pushes; a `NULL` source has none. -/
def bytesOf (c : PushCall) : List UInt8 := ((source c).getD []).take (count c).toNat

/-- The bytes that the call announces exist. -/
def Given (c : PushCall) : Prop := source c = none → count c = 0

instance (c : PushCall) : Decidable (Given c) := inferInstanceAs (Decidable (_ → _))

/-- All that a sequence of calls pushes, in order. -/
def pushed (calls : List PushCall) : List UInt8 := calls.flatMap bytesOf

section Calls
variable {c : PushCall}

theorem push_eq (r : Response) (c : PushCall) : c.push r = ResponseBuffer.apduRspPut r (source c) (count c) := by
  cases c with
  | put src n readable => rfl
  | putU8 b => rfl
  | putU16 v => rfl

theorem count_readable (c : PushCall) {bytes : List UInt8} (given : source c = some bytes) :
    (count c).toNat ≤ bytes.length := by
  cases c with
  | put src n readable => exact readable bytes given
  | putU8 b =>
    cases given
    exact Nat.le_refl 1
  | putU16 v =>
    cases given
    exact Nat.le_refl 2

theorem bytesOf_length (given : Given c) : (bytesOf c).length = (count c).toNat := by
  cases src : source c with
  | none => simp [bytesOf, given src]
  | some bytes => rw [bytesOf, src, Option.getD_some, List.length_take_of_le (count_readable c src)]

end Calls

/-! The response on its buffer and the response as a list. -/

/-- The same call on the response that keeps its bytes in a list. -/
def pushList (a : ApduResponse) : PushCall → Bool × ApduResponse
  | .put none n _ => if n = 0 then (true, a) else (false, { a with overflow := true })
  | .put (some bytes) n _ => Apdu.apduRspPut a (bytes.take n.toNat)
  | .putU8 b => Apdu.apduRspPutU8 a b
  | .putU16 v => Apdu.apduRspPutU16 a v

/-- The first `len` bytes of the buffer, as a list. -/
def listed (memory : Region) (r : Response) : ApduResponse :=
  ⟨r.cap, (buffer memory r).read 0 r.len.toNat, r.overflow⟩

/-- Two bytes are free for the status word, and nothing was stored there or behind. -/
structure Reserved (r : Response) : Prop where
  given : r.buf = true
  room : r.len.toNat + 2 ≤ r.cap.toNat
  stored : ∀ s ∈ r.stores, s.offset < r.cap.toNat - 2

section Refinement
variable {a : ApduResponse} {r : Response}

theorem pushList_given (a : ApduResponse) (c : PushCall) :
    pushList a c = if Given c then Apdu.apduRspPut a (bytesOf c) else (false, { a with overflow := true }) := by
  cases c with
  | put src n readable =>
    cases src with
    | none => simp [pushList, Given, source, count, bytesOf, Apdu.apduRspPut]
    | some bytes => exact (if_pos nofun).symm
  | putU8 b => exact (if_pos nofun).symm
  | putU16 v => exact (if_pos nofun).symm

theorem pushList_eq (room : a.bytes.length + 2 ≤ a.cap.toNat) (c : PushCall) :
    pushList a c =
      if Given c ∧ a.bytes.length + (bytesOf c).length + 2 ≤ a.cap.toNat then
        (true, { a with bytes := a.bytes ++ bytesOf c })
      else (false, { a with overflow := true }) := by
  rw [pushList_given, apduRspPut_eq room]
  by_cases given : Given c
  · rw [if_pos given]
    simp only [given, true_and]
  · rw [if_neg given, if_neg fun both => given both.1]

theorem buffer_append (memory : Region) (r : Response) (len : UInt16) (offset : Nat) (bytes : List UInt8) :
    buffer memory { r with len, stores := r.stores ++ ByteStore.ofBlock () () offset bytes } =
      (buffer memory r).write offset bytes := by
  rw [buffer, ByteStore.replay_append, ByteStore.replay_ofBlock, Function.update_self]
  rfl

theorem Reserved.two (reserved : Reserved r) : 2 ≤ r.cap :=
  UInt16.le_iff_toNat_le.mpr (Nat.le_trans (Nat.le_add_left 2 _) reserved.room)

/-- Lengths below a capacity are added without wrapping. -/
private theorem add_exact {len n cap : UInt16} (fits : len.toNat + n.toNat ≤ cap.toNat) :
    (len + n).toNat = len.toNat + n.toNat := by
  rw [UInt16.toNat_add]
  exact Nat.mod_eq_of_lt (Nat.lt_of_le_of_lt fits cap.toNat_lt)

/-- A block inside a bound keeps the stores inside it. -/
private theorem stores_below {stores : List BufStore} {offset bound : Nat} {bytes : List UInt8}
    (earlier : ∀ s ∈ stores, s.offset < bound) (inside : offset + bytes.length ≤ bound) :
    ∀ s ∈ stores ++ ByteStore.ofBlock () () offset bytes, s.offset < bound := by
  intro s member
  rcases List.mem_append.mp member with old | new
  · exact earlier s old
  · obtain ⟨k, below, rfl⟩ := ByteStore.mem_ofBlock.mp new
    exact Nat.lt_of_lt_of_le (Nat.add_lt_add_left below offset) inside

/-- The 32-bit comparison decides whether two bytes stay free. -/
private theorem exceeds_iff (reserved : Reserved r) (n : UInt16) :
    r.len.toUInt32 + n.toUInt32 > (if r.cap.toUInt32 ≥ 2 then r.cap.toUInt32 - 2 else 0) ↔
      ¬ r.len.toNat + n.toNat + 2 ≤ r.cap.toNat := by
  have room := reserved.room
  have bound := r.cap.toNat_lt
  have bound' := n.toNat_lt
  have two : (2 : UInt32) ≤ r.cap.toUInt32 := by
    rw [UInt32.le_iff_toNat_le, UInt16.toNat_toUInt32]
    exact UInt16.le_iff_toNat_le.mp reserved.two
  rw [if_pos two, gt_iff_lt, UInt32.lt_iff_toNat_lt, UInt32.toNat_sub_of_le _ _ two, UInt32.toNat_add]
  simp only [UInt16.toNat_toUInt32, UInt32.reduceToNat]
  omega

/-- A call on the buffer stores all of its bytes behind those stored before, or nothing
and notes the overflow. -/
theorem push_spec (reserved : Reserved r) (c : PushCall) :
    c.push r =
      if Given c ∧ r.len.toNat + (bytesOf c).length + 2 ≤ r.cap.toNat then
        (true, { r with len := r.len + count c
                        stores := r.stores ++ ByteStore.ofBlock () () r.len.toNat (bytesOf c) })
      else (false, { r with overflow := true }) := by
  have room := reserved.room
  rw [push_eq]
  unfold ResponseBuffer.apduRspPut
  by_cases none : count c = 0
  · have given : Given c := fun _ => none
    have empty : bytesOf c = [] := List.length_eq_zero_iff.mp (by rw [bytesOf_length given, none]; rfl)
    rw [if_pos none, empty, none, if_pos ⟨given, room⟩]
    simp [ByteStore.ofBlock]
  rw [if_neg none]
  cases src : source c with
  | none => rw [if_neg fun both => none (both.1 src)]
  | some bytes =>
    have given : Given c := fun missing => absurd (src.symm.trans missing) (Option.some_ne_none _)
    have copied : bytes.take (count c).toNat = bytesOf c := by rw [bytesOf, src, Option.getD_some]
    have length := bytesOf_length given
    have positive : (count c).toNat ≠ 0 := fun zero => none (UInt16.toNat_inj.mp zero)
    dsimp only
    rw [copied]
    by_cases fits : r.len.toNat + (bytesOf c).length + 2 ≤ r.cap.toNat
    · have free : (bytesOf c).length ≤ (r.cap.toUInt32 - r.len.toUInt32).toNat := by
        have below : r.len.toUInt32 ≤ r.cap.toUInt32 := by
          rw [UInt32.le_iff_toNat_le, UInt16.toNat_toUInt32, UInt16.toNat_toUInt32]
          omega
        rw [UInt32.toNat_sub_of_le _ _ below, UInt16.toNat_toUInt32, UInt16.toNat_toUInt32]
        omega
      rw [if_neg fun exceeds => (exceeds_iff reserved _).mp exceeds (length ▸ fits), if_pos ⟨given, fits⟩,
        osMemcpyChecked, if_neg (by omega), if_neg (by omega)]
    · rw [if_pos ((exceeds_iff reserved _).mpr (length ▸ fits)), if_neg fun both => fits both.2]

/-- The builder keeps to its buffer, and every call does there what it does on the list. -/
theorem push_refines (memory : Region) (reserved : Reserved r) (c : PushCall) :
    Reserved (c.push r).2 ∧ ((c.push r).1, listed memory (c.push r).2) = pushList (listed memory r) c := by
  have bytes : (listed memory r).bytes.length = r.len.toNat := Region.read_length
  rw [push_spec reserved, pushList_eq (by rw [bytes]; exact reserved.room), bytes]
  by_cases fits : Given c ∧ r.len.toNat + (bytesOf c).length + 2 ≤ r.cap.toNat
  · rw [if_pos fits, if_pos (show Given c ∧ _ ≤ (listed memory r).cap.toNat from fits)]
    obtain ⟨given, inside⟩ := fits
    have length := bytesOf_length given
    have added : (r.len + count c).toNat = r.len.toNat + (bytesOf c).length := by
      rw [length] at inside ⊢
      exact add_exact (Nat.le_trans (Nat.le_add_right _ 2) inside)
    refine ⟨⟨reserved.given, ?_, stores_below reserved.stored (Nat.le_sub_of_add_le inside)⟩, ?_⟩
    · rw [added]
      exact inside
    · rw [listed, buffer_append, added, Region.read_write_end]
      rfl
  · rw [if_neg fits, if_neg (show ¬ (Given c ∧ _ ≤ (listed memory r).cap.toNat) from fits)]
    exact ⟨⟨reserved.given, reserved.room, reserved.stored⟩, rfl⟩

theorem pushAll_refines (memory : Region) (reserved : Reserved r) (calls : List PushCall) :
    Reserved (pushAll r calls) ∧
      listed memory (pushAll r calls) = calls.foldl (fun a c => (pushList a c).2) (listed memory r) := by
  induction calls generalizing r with
  | nil => exact ⟨reserved, rfl⟩
  | cons c rest ih =>
    obtain ⟨kept, step⟩ := push_refines memory reserved c
    rw [List.foldl_cons, ← step]
    exact ih kept

/-- The response with a status word behind its first `len` bytes. -/
def closed (r : Response) (len : UInt16) (status : Sw) : Response :=
  { r with len := len + 2, stores := r.stores ++ ByteStore.ofBlock () () len.toNat [sw1 status, sw2 status] }

/-- A status word inside the reserve ends what is handed back. -/
theorem closed_reads (memory : Region) (reserved : Reserved r) {len : UInt16} (inside : len.toNat + 2 ≤ r.cap.toNat)
    (status : Sw) :
    (buffer memory (closed r len status)).read 0 (len + 2).toNat =
        (buffer memory r).read 0 len.toNat ++ [sw1 status, sw2 status] ∧
      ∀ s ∈ (closed r len status).stores, s.offset < r.cap.toNat := by
  have added : (len + 2).toNat = len.toNat + 2 := add_exact inside
  have earlier : ∀ s ∈ r.stores, s.offset < r.cap.toNat :=
    fun s member => Nat.lt_of_lt_of_le (reserved.stored s member) (Nat.sub_le _ _)
  refine ⟨?_, stores_below earlier inside⟩
  rw [closed, buffer_append, added]
  exact Region.read_write_end

theorem finish_eq (reserved : Reserved r) (sw : Sw) :
    ResponseBuffer.apduRspFinish r sw =
      if r.overflow then (2, closed r 0 swNoPreciseDiagnosis) else (r.len + 2, closed r r.len sw) := by
  have two : ¬ r.cap < 2 := UInt16.not_lt.mpr reserved.two
  rw [ResponseBuffer.apduRspFinish, if_neg (by simp [reserved.given, two])]
  cases flag : r.overflow with
  | true => simp [closed, ByteStore.ofBlock, flag]
  | false => simp [closed, ByteStore.ofBlock, flag]

/-- What is handed back is the response of the list, and all of it was stored below `cap`. -/
theorem finish_refines (memory : Region) (reserved : Reserved r) (sw : Sw) :
    let done := ResponseBuffer.apduRspFinish r sw
    (buffer memory done.2).read 0 done.1.toNat = Apdu.apduRspFinish (listed memory r) sw ∧
      ∀ s ∈ done.2.stores, s.offset < r.cap.toNat := by
  intro done
  have two : ¬ (listed memory r).cap < 2 := UInt16.not_lt.mpr reserved.two
  have ended : done = _ := finish_eq reserved sw
  rw [ended, Apdu.apduRspFinish, if_neg two, show (listed memory r).overflow = r.overflow from rfl]
  cases r.overflow with
  | true => exact closed_reads memory reserved (Nat.le_trans (Nat.le_add_left 2 _) reserved.room) swNoPreciseDiagnosis
  | false => exact closed_reads memory reserved reserved.room sw

end Refinement

/-! What overflow means on the list. -/

/-- All the bytes announced exist, and they leave room for the status word. -/
def Fits (cap : UInt16) (calls : List PushCall) : Prop :=
  (∀ c ∈ calls, Given c) ∧ (pushed calls).length + 2 ≤ cap.toNat

/-- The response holds all that was pushed, or has noted that it does not fit. -/
structure Accounts (cap : UInt16) (calls : List PushCall) (a : ApduResponse) : Prop where
  capacity : a.cap = cap
  room : a.bytes.length + 2 ≤ cap.toNat
  whole : a.overflow = false → (∀ c ∈ calls, Given c) ∧ a.bytes = pushed calls
  lost : a.overflow = true → ¬ Fits cap calls

section Exactness
variable {cap : UInt16} {calls : List PushCall} {a : ApduResponse} {c : PushCall}

theorem pushed_append (calls : List PushCall) (c : PushCall) : pushed (calls ++ [c]) = pushed calls ++ bytesOf c := by
  simp [pushed]

/-- What does not fit does not fit with more behind it. -/
theorem Fits.of_append (fits : Fits cap (calls ++ [c])) : Fits cap calls := by
  obtain ⟨given, room⟩ := fits
  rw [pushed_append, List.length_append] at room
  exact ⟨fun c' member => given c' (List.mem_append_left _ member), by omega⟩

theorem Accounts.push (accounts : Accounts cap calls a) (c : PushCall) :
    Accounts cap (calls ++ [c]) (pushList a c).2 := by
  obtain ⟨rfl, room, whole, lost⟩ := accounts
  rw [pushList_eq room]
  split
  · rename_i fits
    refine ⟨rfl, by rw [List.length_append]; omega, fun clean => ?_, fun flag fits => lost flag fits.of_append⟩
    obtain ⟨given, bytes⟩ := whole clean
    refine ⟨fun c' member => ?_, ?_⟩
    · rcases List.mem_append.mp member with earlier | last
      · exact given c' earlier
      · rw [List.mem_singleton.mp last]
        exact fits.1
    · rw [pushed_append, ← bytes]
  · rename_i refused
    refine ⟨rfl, room, nofun, fun _ fits => ?_⟩
    -- an earlier overflow stays; without one the list is all that was pushed, and this call exceeds it
    cases flag : a.overflow with
    | true => exact lost flag fits.of_append
    | false =>
      obtain ⟨given, total⟩ := fits
      rw [pushed_append, ← (whole flag).2, List.length_append] at total
      exact refused ⟨given c (by simp), total⟩

theorem accounts_foldl (accounts : Accounts cap [] a) (calls : List PushCall) :
    Accounts cap calls (calls.foldl (fun a c => (pushList a c).2) a) := by
  induction calls using List.reverseRecOn with
  | nil => exact accounts
  | append_singleton calls c ih =>
    rw [List.foldl_append]
    exact ih.push c

/-- The list at the end of the calls. -/
theorem Accounts.finish (accounts : Accounts cap calls a) (room : 2 ≤ cap) (sw : Sw) :
    Apdu.apduRspFinish a sw =
      if (∀ c ∈ calls, Given c) ∧ (pushed calls).length ≤ cap.toNat - 2 then pushed calls ++ [sw1 sw, sw2 sw]
      else [0x6F, 0x00] := by
  obtain ⟨rfl, inside, whole, lost⟩ := accounts
  have two := UInt16.le_iff_toNat_le.mp room
  rw [Apdu.apduRspFinish, if_neg (UInt16.not_lt.mpr room)]
  cases flag : a.overflow with
  | true =>
    have refused : ¬ ((∀ c ∈ calls, Given c) ∧ (pushed calls).length ≤ a.cap.toNat - 2) := by
      rintro ⟨given, short⟩
      exact lost flag ⟨given, Nat.add_le_of_le_sub two short⟩
    rw [if_pos rfl, if_neg refused]
    rfl
  | false =>
    obtain ⟨given, bytes⟩ := whole flag
    have short : (pushed calls).length ≤ a.cap.toNat - 2 := by
      rw [← bytes]
      exact Nat.le_sub_of_add_le inside
    rw [if_neg Bool.false_ne_true, if_pos ⟨given, short⟩, bytes]

end Exactness

/-- Whatever is pushed in whatever pieces, the response is all of it and the status word
when that fits the buffer, and 6F00 otherwise, and no byte is stored at or behind `cap`. -/
theorem response_is_exact_or_6f00 (memory : Region) (cap : UInt16) (room : 2 ≤ cap) (calls : List PushCall) (sw : Sw) :
    let done := ResponseBuffer.apduRspFinish (pushAll (ResponseBuffer.apduRspInit true cap) calls) sw
    (buffer memory done.2).read 0 done.1.toNat =
        (if (∀ c ∈ calls, Given c) ∧ (pushed calls).length ≤ cap.toNat - 2 then pushed calls ++ [sw1 sw, sw2 sw]
        else [0x6F, 0x00]) ∧
      ∀ s ∈ done.2.stores, s.offset < cap.toNat := by
  have two : 2 ≤ cap.toNat := UInt16.le_iff_toNat_le.mp room
  have start : Reserved (ResponseBuffer.apduRspInit true cap) :=
    ⟨rfl, by simpa [ResponseBuffer.apduRspInit] using two, nofun⟩
  have empty : Accounts cap [] (listed memory (ResponseBuffer.apduRspInit true cap)) :=
    ⟨rfl, by simpa [listed, ResponseBuffer.apduRspInit] using two, fun _ => ⟨nofun, rfl⟩, nofun⟩
  obtain ⟨reserved, lists⟩ := pushAll_refines memory start calls
  obtain ⟨handed, inside⟩ := finish_refines memory reserved sw
  have accounts := accounts_foldl empty calls
  rw [← lists] at accounts
  have capacity : (pushAll (ResponseBuffer.apduRspInit true cap) calls).cap = cap := accounts.capacity
  rw [capacity] at inside
  exact ⟨handed.trans (accounts.finish room sw), inside⟩

/-- Three bytes fit a buffer of five. They do not fit one of four, and a byte behind them
that would is lost with them. -/
theorem three_bytes_in_five_or_in_four :
    let three : PushCall := .put (some [0x01, 0x02, 0x03]) 3 fun _ same => Option.some.inj same ▸ Nat.le_refl 3
    let whole := ResponseBuffer.apduRspFinish (pushAll (ResponseBuffer.apduRspInit true 5) [three]) 0x9000
    let lost := ResponseBuffer.apduRspFinish (pushAll (ResponseBuffer.apduRspInit true 4) [three, .putU8 0x04]) 0x9000
    (buffer (.uniform 8 0xFF) whole.2).read 0 whole.1.toNat = [0x01, 0x02, 0x03, 0x90, 0x00] ∧
      (buffer (.uniform 8 0xFF) lost.2).read 0 lost.1.toNat = [0x6F, 0x00] := by
  intro three whole lost
  have fits := (response_is_exact_or_6f00 (.uniform 8 0xFF) 5 (by decide) [three] 0x9000).1
  have exceeds := (response_is_exact_or_6f00 (.uniform 8 0xFF) 4 (by decide) [three, .putU8 0x04] 0x9000).1
  exact ⟨fits.trans (by decide +kernel), exceeds.trans (by decide +kernel)⟩

end CardOs.ResponseProofs
