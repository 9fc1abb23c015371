import CardOs.BootLoader
import Mathlib.Data.List.Induction

/-! What the boot loader promises about the slot. `Vouched` is the invariant the
loader relies on: a header whose image CRC holds describes a plausible image.
VERIFY establishes it, ERASE and ACTIVATE keep it, and LOAD BLOCK is the one
command that can break it, because ACTIVATE and RESTART ask for the CRC only. -/
namespace CardOs.BootProofs
open CardOs.Library CardOs.Library.BigEndian CardOs.Crc16 CardOs.CodeFlash CardOs.BootLoader

section Flash
variable {base : Region} {pageSize off : UInt32} {src : List UInt8}

private theorem erasePage_ok {page : Nat} (some : pageSize ≠ 0)
    (here : page < base.size.toNat / pageSize.toNat) :
    cfErasePage base pageSize (UInt32.ofNat (page * pageSize.toNat)) =
      (.ok, base.fill (page * pageSize.toNat) pageSize.toNat 0xFF) := by
  have positive : 0 < pageSize.toNat := Nat.pos_of_ne_zero fun zero => some (UInt32.toNat_inj.mp zero)
  have ends : (page + 1) * pageSize.toNat ≤ base.size.toNat := by
    calc (page + 1) * pageSize.toNat ≤ base.size.toNat / pageSize.toNat * pageSize.toNat :=
          Nat.mul_le_mul_right _ here
      _ ≤ base.size.toNat := Nat.div_mul_le_self _ _
  have start : page * pageSize.toNat + pageSize.toNat ≤ base.size.toNat := by
    rwa [Nat.succ_mul] at ends
  have bound := base.size.toNat_lt
  have offset : (UInt32.ofNat (page * pageSize.toNat)).toNat = page * pageSize.toNat :=
    UInt32.toNat_ofNat_of_lt' (show _ < 2 ^ 32 by omega)
  have nonempty : base.size ≠ 0 := by
    rintro zero
    rw [zero, UInt32.toNat_zero] at start
    omega
  have onPage : UInt32.ofNat (page * pageSize.toNat) % pageSize = 0 := by
    apply UInt32.toNat_inj.mp
    rw [UInt32.toNat_mod, offset, Nat.mul_mod_left]
    rfl
  have inside : inRange base.size (UInt32.ofNat (page * pageSize.toNat)) pageSize.toNat = true := by
    rw [inRange, offset, decide_eq_true_iff]
    exact start
  simp only [cfErasePage, nonempty, some, or_self, if_false, onPage, ne_eq, not_true_eq_false, inside,
    Bool.not_true, Bool.false_eq_true, offset]

private theorem erasePages_ok (pages : List Nat) (some : pageSize ≠ 0)
    (here : ∀ page ∈ pages, page < base.size.toNat / pageSize.toNat) :
    ∃ erased, erasePages base pageSize pages = (.ok, erased) ∧ erased.size = base.size ∧
      ∀ i, erased.byte i = if i / pageSize.toNat ∈ pages then 0xFF else base.byte i := by
  have positive : 0 < pageSize.toNat := Nat.pos_of_ne_zero fun zero => some (UInt32.toNat_inj.mp zero)
  induction pages generalizing base with
  | nil => exact ⟨base, rfl, rfl, by simp⟩
  | cons page rest ih =>
    obtain ⟨first, later⟩ := List.forall_mem_cons.mp here
    obtain ⟨erased, ran, size, bytes⟩ :=
      @ih (base.fill (page * pageSize.toNat) pageSize.toNat 0xFF) later
    refine ⟨erased, ?_, size, ?_⟩
    · rw [erasePages, erasePage_ok some first]
      exact ran
    · intro i
      have onPage : page * pageSize.toNat ≤ i ∧ i < page * pageSize.toNat + pageSize.toNat ↔
          i / pageSize.toNat = page := by
        rw [Nat.div_eq_iff positive]
        omega
      simp only [bytes, Region.fill, onPage, List.mem_cons]
      by_cases member : i / pageSize.toNat ∈ rest
      · simp [member]
      · simp [member]

/-- Erasing a region of whole pages wipes all of it. -/
theorem cfEraseAll_ok (sized : base.size ≠ 0) (paged : pageSize ≠ 0) (aligned : base.size % pageSize = 0) :
    cfEraseAll base pageSize = (.ok, base.fill 0 base.size.toNat 0xFF) := by
  obtain ⟨erased, ran, size, bytes⟩ := erasePages_ok (List.range (base.size.toNat / pageSize.toNat))
    paged fun page member => List.mem_range.mp member
  have positive : 0 < pageSize.toNat := Nat.pos_of_ne_zero fun zero => paged (UInt32.toNat_inj.mp zero)
  have whole : base.size.toNat % pageSize.toNat = 0 := by
    rw [← UInt32.toNat_mod, aligned]
    rfl
  have covered : ∀ i, i / pageSize.toNat < base.size.toNat / pageSize.toNat ↔ i < base.size.toNat := by
    intro i
    rw [Nat.div_lt_iff_lt_mul positive, Nat.div_mul_cancel (Nat.dvd_of_mod_eq_zero whole)]
  rw [cfEraseAll, if_neg (not_or.mpr ⟨sized, paged⟩), if_neg (not_not.mpr aligned), ran]
  refine congrArg _ (Region.ext size ?_)
  funext i
  simp only [bytes, Region.fill, List.mem_range, covered, Nat.zero_le, Nat.zero_add, true_and]

/-- Erasing a region changes nothing or leaves every cell erased. -/
theorem cfEraseAll_cases (base : Region) (pageSize : UInt32) :
    (∃ status, status ≠ .ok ∧ cfEraseAll base pageSize = (status, base)) ∨
      cfEraseAll base pageSize = (.ok, base.fill 0 base.size.toNat 0xFF) := by
  by_cases empty : base.size = 0 ∨ pageSize = 0
  · exact .inl ⟨.param, by decide, by rw [cfEraseAll, if_pos empty]⟩
  by_cases aligned : base.size % pageSize = 0
  · obtain ⟨sized, paged⟩ := not_or.mp empty
    exact .inr (cfEraseAll_ok sized paged aligned)
  · exact .inl ⟨.range, by decide, by rw [cfEraseAll, if_neg empty, if_pos aligned]⟩

/-- Programming a block stores it inside the region, where it only clears bits,
or changes nothing. -/
theorem cfProgram_cases (base : Region) (off : UInt32) (src : List UInt8) :
    (∃ status ≠ .ok, cfProgram base off src = (status, base)) ∨
      cfProgram base off src = (.ok, base.write off.toNat src) ∧ off.toNat + src.length ≤ base.size.toNat ∧
        clearsOnly (base.read off.toNat src.length) src = true := by
  unfold cfProgram
  split
  · exact .inl ⟨.param, by decide, rfl⟩
  split
  · exact .inl ⟨.range, by decide, rfl⟩
  rename_i inside
  split
  · exact .inl ⟨.notErased, by decide, rfl⟩
  · rename_i clears
    exact .inr ⟨rfl, by simpa [inRange] using inside, by simpa using clears⟩

/-- Programming the header stores the block, or changes nothing. -/
theorem programHdr_cases (off : UInt32) (src : List UInt8) (ctx : BootCtx) :
    programHdr off src ctx = (swMemoryFailure, ctx) ∨
      programHdr off src ctx = (swOk, { ctx with oshdr := ctx.oshdr.write off.toNat src }) ∧
        off.toNat + src.length ≤ ctx.oshdr.size.toNat := by
  unfold programHdr
  rcases cfProgram_cases ctx.oshdr off src with ⟨status, failed, ran⟩ | ⟨ran, inside, _⟩
  · rw [ran]
    cases status with
    | ok => exact absurd rfl failed
    | param => exact .inl rfl
    | range => exact .inl rfl
    | align => exact .inl rfl
    | notErased => exact .inl rfl
  · rw [ran]
    exact .inr ⟨rfl, inside⟩

end Flash

section Header
variable {oshdr osflash : Region} {h : BootHdr} {st : BootSlotState}

/-- A header that was just written is read back, in the state LOADED. -/
theorem bootHdrParse_serialise (h : BootHdr) :
    bootHdrParse (bootHdrSerialise h) =
      some { h with state := bootStateLoaded, version := bootHdrVersion } := by
  have version : rd16 (bootHdrSerialise h) 4 = bootHdrVersion := word16_bytes16 bootHdrVersion
  have intact : rd16 (bootHdrSerialise h) 12 = crc16 ((bootHdrSerialise h).take 12) := word16_bytes16 _
  have length : rd32 (bootHdrSerialise h) 6 = h.length := word32_bytes32 _
  have imageCrc : rd16 (bootHdrSerialise h) 10 = h.imageCrc := word16_bytes16 _
  have magic : (bootHdrSerialise h).take 4 = bootHdrMagic := rfl
  have state : rd16 (bootHdrSerialise h) 14 = bootStateLoaded := word16_bytes16 bootStateLoaded
  simp only [bootHdrParse, magic, version, intact, length, imageCrc, state, ne_eq, not_true_eq_false, if_false]

/-- The state word is the only part of the header that its last two bytes hold. -/
theorem bootHdrParse_state (front : List UInt8) (width : front.length = 14) (a b c d : UInt8) :
    bootHdrParse (front ++ [a, b]) =
      (bootHdrParse (front ++ [c, d])).map fun h => { h with state := word16 a b } := by
  have field16 : ∀ (tail : List UInt8) (k : Nat), k + 1 < 14 → rd16 (front ++ tail) k = rd16 front k := by
    intro tail k inside
    simp only [rd16, List.getD_append _ _ _ _ (show k < front.length by omega),
      List.getD_append _ _ _ _ (show k + 1 < front.length by omega)]
  have field32 : ∀ tail : List UInt8, rd32 (front ++ tail) 6 = rd32 front 6 := by
    intro tail
    simp only [rd32, List.getD_append _ _ _ _ (show 6 < front.length by omega),
      List.getD_append _ _ _ _ (show 7 < front.length by omega),
      List.getD_append _ _ _ _ (show 8 < front.length by omega),
      List.getD_append _ _ _ _ (show 9 < front.length by omega)]
  have start : ∀ (tail : List UInt8) (n : Nat), n ≤ 14 → (front ++ tail).take n = front.take n := by
    intro tail n inside
    exact List.take_append_of_le_length (by omega)
  have state : ∀ a b : UInt8, rd16 (front ++ [a, b]) 14 = word16 a b := by
    intro a b
    simp [rd16, width]
  simp only [bootHdrParse, start _ 4 (by decide), start _ 12 (by decide), field16 _ 4 (by decide),
    field16 _ 10 (by decide), field16 _ 12 (by decide), field32, state]
  repeat' split
  all_goals rfl

/-- What a passed check of the slot says. -/
theorem slotCheck_passed (checked : bootSlotCheck oshdr osflash = (st, h)) (passed : st = .loaded ∨ st = .active) :
    bootHdrSize ≤ oshdr.size.toNat ∧ bootHdrParse (oshdr.read 0 bootHdrSize) = some h ∧ 1 ≤ h.length ∧
      h.length ≤ osflash.size ∧ crc16 (osflash.read 0 h.length.toNat) = h.imageCrc ∧
      st = if h.state = bootStateActive then .active else .loaded := by
  unfold bootSlotCheck at checked
  split at checked
  · cases checked
    simp at passed
  rename_i large
  rcases parsed : bootHdrParse (oshdr.read 0 bootHdrSize) with _ | header <;> simp only [parsed] at checked
  · cases checked
    simp at passed
  split at checked
  · cases checked
    simp at passed
  rename_i length
  split at checked
  · cases checked
    simp at passed
  rename_i crc
  cases checked
  obtain ⟨positive, fits⟩ := not_or.mp length
  refine ⟨Nat.not_lt.mp large, rfl, ?_, UInt32.not_lt.mp fits, not_not.mp crc, rfl⟩
  rw [UInt32.le_iff_toNat_le]
  exact Nat.pos_of_ne_zero fun zero => positive (UInt32.toNat_inj.mp zero)

end Header

/-- A slot that may be booted. -/
def Bootable (oshdr osflash : Region) (loadAddr sramBase sramSize : UInt32) : Prop :=
  ∃ h, bootSlotCheck oshdr osflash = (.active, h) ∧ 1 ≤ h.length ∧ h.length ≤ osflash.size ∧
    crc16 (osflash.read 0 h.length.toNat) = h.imageCrc ∧
    bootImagePlausible osflash h.length loadAddr sramBase sramSize = true

def BootCtx.Bootable (ctx : BootCtx) : Prop :=
  BootProofs.Bootable ctx.oshdr ctx.osflash ctx.loadAddr ctx.sramBase ctx.sramSize

/-- A header whose image CRC holds describes a plausible image. -/
def Vouched (ctx : BootCtx) : Prop :=
  ∀ st h, bootSlotCheck ctx.oshdr ctx.osflash = (st, h) → st = .loaded ∨ st = .active →
    bootImagePlausible ctx.osflash h.length ctx.loadAddr ctx.sramBase ctx.sramSize = true

/-- What the loader promises in one state: an ACTIVE slot may be booted, and
RESTART is granted only for such a slot. -/
structure KeepsPromise (ctx : BootCtx) : Prop where
  active : (bootSlotCheck ctx.oshdr ctx.osflash).1 = .active → BootCtx.Bootable ctx
  restart : ∀ cmd rspCap, (bootHandle cmd rspCap ctx).1.action = .restart → BootCtx.Bootable ctx

/-- Where the block starts that P1 and P2 of a LOAD BLOCK number. -/
def blockOffset (cmd : List UInt8) : Nat := (word16 (cmd.getD 2 0) (cmd.getD 3 0)).toNat * bootBlockSize

/-- The command is a LOAD BLOCK of `data` that passes every check: after ERASE,
one block inside OSFLASH, and only bits to clear. -/
structure Loads (ctx : BootCtx) (cmd data : List UInt8) : Prop where
  cla : cmd.getD 0 0 = bootCla
  ins : cmd.getD 1 0 = bootInsLoad
  body : bodyOf cmd = some data
  erased : ctx.erased = true
  nonempty : data.length ≠ 0
  block : data.length ≤ bootBlockSize
  inside : blockOffset cmd + data.length ≤ ctx.osflash.size.toNat
  clears : clearsOnly (ctx.osflash.read (blockOffset cmd) data.length) data = true

/-- The image with a block programmed into it. -/
def reloadedImage (ctx : BootCtx) (cmd data : List UInt8) : Region := ctx.osflash.write (blockOffset cmd) data

/-- The command is a LOAD BLOCK under a header that the reloaded image still
satisfies by its CRC, though that image is not plausible. -/
def Collides (ctx : BootCtx) (cmd : List UInt8) : Prop :=
  ∃ data st h, Loads ctx cmd data ∧ bootSlotCheck ctx.oshdr (reloadedImage ctx cmd data) = (st, h) ∧
    (st = .loaded ∨ st = .active) ∧
    bootImagePlausible (reloadedImage ctx cmd data) h.length ctx.loadAddr ctx.sramBase ctx.sramSize = false

section Commands
variable {ctx : BootCtx} {cmd : List UInt8} {rspCap : UInt32}

theorem vouched_bootable (vouched : Vouched ctx) (active : (bootSlotCheck ctx.oshdr ctx.osflash).1 = .active) :
    BootCtx.Bootable ctx := by
  rcases checked : bootSlotCheck ctx.oshdr ctx.osflash with ⟨st, h⟩
  rw [checked] at active
  obtain rfl : st = .active := active
  obtain ⟨_, _, positive, fits, crc, _⟩ := slotCheck_passed checked (.inr rfl)
  exact ⟨h, checked, positive, fits, crc, vouched _ h checked (.inr rfl)⟩

/-- Every way a command can end: nothing changed, or one of the four commands
that write has run. -/
inductive Handled (ctx : BootCtx) (cmd : List UInt8) : BootReply × BootCtx → Prop
  | kept (reply : BootReply)
      (granted : reply.action = .restart → (bootSlotCheck ctx.oshdr ctx.osflash).1 = .active) :
      Handled ctx cmd (reply, ctx)
  | erase : Handled ctx cmd (replyWord (doErase ctx))
  | load (data : List UInt8) (highWater : UInt32) (loads : Loads ctx cmd data) :
      Handled ctx cmd (.word swOk, { ctx with osflash := reloadedImage ctx cmd data, highWater })
  | verify (data : List UInt8) : Handled ctx cmd (replyWord (doVerify data ctx))
  | activate : Handled ctx cmd (replyWord (doActivate ctx))

private theorem handled_word (sw : UInt16) : Handled ctx cmd (.word sw, ctx) := by
  refine .kept _ ?_
  rintro ⟨⟩

private theorem handled_plainly {p1 p2 : UInt8} {data : List UInt8} {act : BootReply × BootCtx}
    (handled : Handled ctx cmd act) : Handled ctx cmd (plainly p1 p2 data ctx act) := by
  unfold plainly
  split
  · exact handled_word _
  split
  · exact handled_word _
  · exact handled

private theorem handled_status : Handled ctx cmd (buildStatus rspCap ctx, ctx) := by
  refine .kept _ ?_
  unfold buildStatus
  split
  · rintro ⟨⟩
  · rintro ⟨⟩

private theorem handled_restart : Handled ctx cmd (doRestart ctx, ctx) := by
  refine .kept _ ?_
  unfold doRestart
  split
  · rintro ⟨⟩
  · rename_i active
    intro _
    exact not_not.mp active

private theorem blockOffset_toNat (cmd : List UInt8) :
    (UInt32.ofNat (blockOffset cmd)).toNat = blockOffset cmd := by
  have bound := (word16 (cmd.getD 2 0) (cmd.getD 3 0)).toNat_lt
  refine UInt32.toNat_ofNat_of_lt' ?_
  unfold blockOffset bootBlockSize UInt32.size
  omega

private theorem cfProgram_block {data : List UInt8} (nonempty : data.length ≠ 0)
    (inside : blockOffset cmd + data.length ≤ ctx.osflash.size.toNat) :
    cfProgram ctx.osflash (UInt32.ofNat (blockOffset cmd)) data =
      if clearsOnly (ctx.osflash.read (blockOffset cmd) data.length) data = true then
        (.ok, reloadedImage ctx cmd data) else (.notErased, ctx.osflash) := by
  have sized : ctx.osflash.size ≠ 0 := by
    intro zero
    rw [zero] at inside
    exact nonempty (Nat.le_zero.mp (Nat.le_trans (Nat.le_add_left _ _) inside))
  have within : inRange ctx.osflash.size (UInt32.ofNat (blockOffset cmd)) data.length = true := by
    rw [inRange, blockOffset_toNat]
    exact decide_eq_true inside
  rw [cfProgram, if_neg sized, within, blockOffset_toNat]
  cases clearsOnly (ctx.osflash.read (blockOffset cmd) data.length) data <;> rfl

/-- The end of everything loaded so far, with one more block. -/
def raisedWater (ctx : BootCtx) (cmd data : List UInt8) : UInt32 :=
  if blockOffset cmd + data.length > ctx.highWater.toNat then UInt32.ofNat (blockOffset cmd + data.length)
  else ctx.highWater

/-- LOAD BLOCK programs its block when it passes every check, and otherwise is
refused and changes nothing. -/
theorem doLoad_cases {data : List UInt8} (cla : cmd.getD 0 0 = bootCla) (ins : cmd.getD 1 0 = bootInsLoad)
    (body : bodyOf cmd = some data) :
    (¬ Loads ctx cmd data ∧ ∃ sw ≠ swOk, doLoad (cmd.getD 2 0) (cmd.getD 3 0) data ctx = (sw, ctx)) ∨
      (Loads ctx cmd data ∧ doLoad (cmd.getD 2 0) (cmd.getD 3 0) data ctx =
        (swOk, { ctx with osflash := reloadedImage ctx cmd data, highWater := raisedWater ctx cmd data })) := by
  unfold doLoad
  split
  · rename_i fresh
    exact .inl ⟨fun loads => by simp [loads.erased] at fresh, _, by decide, rfl⟩
  rename_i erased
  split
  · rename_i size
    exact .inl ⟨fun loads => size.elim loads.nonempty (Nat.not_lt.mpr loads.block), _, by decide, rfl⟩
  rename_i size
  obtain ⟨nonempty, block⟩ := not_or.mp size
  rw [show (word16 (cmd.getD 2 0) (cmd.getD 3 0)).toNat * bootBlockSize = blockOffset cmd from rfl]
  dsimp only
  split
  · rename_i beyond
    exact .inl ⟨fun loads => Nat.not_lt.mpr loads.inside beyond, _, by decide, rfl⟩
  rename_i inside
  have inside := Nat.not_lt.mp inside
  rw [cfProgram_block nonempty inside]
  by_cases clears : clearsOnly (ctx.osflash.read (blockOffset cmd) data.length) data = true
  · rw [if_pos clears]
    exact .inr ⟨⟨cla, ins, body, by simpa using erased, nonempty, Nat.not_lt.mp block, inside, clears⟩, rfl⟩
  · rw [if_neg clears]
    exact .inl ⟨fun loads => clears loads.clears, _, by decide, rfl⟩

theorem bootHandle_handled (ctx : BootCtx) (cmd : List UInt8) (rspCap : UInt32) :
    Handled ctx cmd (bootHandle cmd rspCap ctx) := by
  unfold bootHandle
  split
  · exact handled_word _
  split
  · exact handled_word _
  rename_i cla
  cases body : bodyOf cmd with
  | none => exact handled_word _
  | some data =>
    dsimp only
    unfold bootDispatch
    split
    · exact handled_plainly handled_status
    split
    · exact handled_plainly .erase
    split
    · rename_i load
      split
      · exact handled_word _
      rcases doLoad_cases (not_not.mp cla) load body with ⟨_, sw, _, kept⟩ | ⟨loads, programmed⟩
      · rw [kept]
        exact handled_word sw
      · rw [programmed]
        exact .load data _ loads
    split
    · split
      · exact handled_word _
      split
      · exact handled_word _
      · exact .verify data
    split
    · exact handled_plainly .activate
    split
    · exact handled_plainly handled_restart
    · exact handled_word _

/-- A LOAD BLOCK is its five header bytes and its data. -/
theorem Loads.length {data : List UInt8} (loads : Loads ctx cmd data) : cmd.length = 5 + data.length := by
  have body := loads.body
  have nonempty := loads.nonempty
  unfold bodyOf at body
  split at body
  · split at body
    · cases body
    · cases body
      rw [List.length_drop]
      omega
  · split at body
    · split at body
      · cases body
      · cases body
        exact absurd rfl nonempty
    · cases body
      exact absurd rfl nonempty

/-- The loader programs every block that passes the checks. -/
theorem bootHandle_loads {data : List UInt8} (rspCap : UInt32) (loads : Loads ctx cmd data) :
    bootHandle cmd rspCap ctx =
      (.word swOk, { ctx with osflash := reloadedImage ctx cmd data, highWater := raisedWater ctx cmd data }) := by
  have long : ¬ cmd.length < 4 := by
    rw [loads.length]
    omega
  obtain ⟨_, programmed⟩ :=
    (doLoad_cases loads.cla loads.ins loads.body).resolve_left fun refused => refused.1 loads
  rw [bootHandle, if_neg long, if_neg (not_not.mpr loads.cla), loads.body]
  dsimp only
  rw [bootDispatch, loads.ins, if_neg (by decide), if_neg (by decide), if_pos rfl, if_neg loads.nonempty,
    programmed]
  rfl

/-- No header can be parsed whose first byte is erased. -/
theorem bootHdrParse_erased {oshdr : Region} (erased : oshdr.byte 0 = 0xFF) :
    bootHdrParse (oshdr.read 0 bootHdrSize) = none := by
  have start : (oshdr.read 0 bootHdrSize).take 4 ≠ bootHdrMagic := by
    rw [Region.take_read 4 (by decide)]
    intro magic
    have first := congrArg (List.getD · 0 0) magic
    simp only [Region.read_getD (show 0 < 4 by decide), Nat.zero_add, erased] at first
    exact absurd first (by decide)
  rw [bootHdrParse, if_pos start]

private theorem vouched_of_erased {oshdr : Region} (osflash : Region) (erased : oshdr.byte 0 = 0xFF) :
    ∀ st h, bootSlotCheck oshdr osflash = (st, h) → ¬ (st = .loaded ∨ st = .active) := by
  intro st h checked passed
  obtain ⟨_, parsed, _⟩ := slotCheck_passed checked passed
  rw [bootHdrParse_erased erased] at parsed
  cases parsed

/-- ERASE wipes both regions, or fails with the header region as it was or
already wiped. -/
theorem doErase_cases (ctx : BootCtx) :
    doErase ctx = (swMemoryFailure, ctx) ∨
      (doErase ctx = (swMemoryFailure, { ctx with oshdr := ctx.oshdr.fill 0 ctx.oshdr.size.toNat 0xFF }) ∧
        cfEraseAll ctx.oshdr ctx.pageSize = (.ok, ctx.oshdr.fill 0 ctx.oshdr.size.toNat 0xFF)) ∨
      (doErase ctx = (swOk, { ctx with
          oshdr := ctx.oshdr.fill 0 ctx.oshdr.size.toNat 0xFF
          osflash := ctx.osflash.fill 0 ctx.osflash.size.toNat 0xFF, erased := true, highWater := 0 }) ∧
        cfEraseAll ctx.oshdr ctx.pageSize = (.ok, ctx.oshdr.fill 0 ctx.oshdr.size.toNat 0xFF) ∧
        cfEraseAll ctx.osflash ctx.pageSize = (.ok, ctx.osflash.fill 0 ctx.osflash.size.toNat 0xFF)) := by
  unfold doErase
  rcases cfEraseAll_cases ctx.oshdr ctx.pageSize with ⟨status, failed, ran⟩ | ran
  · rw [ran]
    cases status with
    | ok => exact absurd rfl failed
    | param => exact .inl rfl
    | range => exact .inl rfl
    | align => exact .inl rfl
    | notErased => exact .inl rfl
  rw [ran]
  rcases cfEraseAll_cases ctx.osflash ctx.pageSize with ⟨status, failed, ran'⟩ | ran'
  · rw [ran']
    refine .inr (.inl ⟨?_, rfl⟩)
    cases status with
    | ok => exact absurd rfl failed
    | param => rfl
    | range => rfl
    | align => rfl
    | notErased => rfl
  · rw [ran']
    exact .inr (.inr ⟨rfl, rfl, rfl⟩)

/-- A region that could be erased has a first cell. -/
theorem cfEraseAll_sized {base erased : Region} {pageSize : UInt32} (ran : cfEraseAll base pageSize = (.ok, erased)) :
    0 < base.size.toNat := by
  refine Nat.pos_of_ne_zero fun zero => ?_
  rw [cfEraseAll, if_pos (.inl (UInt32.toNat_inj.mp zero))] at ran
  cases ran

theorem doErase_vouched (vouched : Vouched ctx) : Vouched (doErase ctx).2 := by
  have wiped : ∀ {erased : Region}, cfEraseAll ctx.oshdr ctx.pageSize = (.ok, erased) →
      (ctx.oshdr.fill 0 ctx.oshdr.size.toNat 0xFF).byte 0 = 0xFF :=
    fun ran => if_pos ⟨Nat.le_refl 0, by rw [Nat.zero_add]; exact cfEraseAll_sized ran⟩
  rcases doErase_cases ctx with ran | ⟨ran, header⟩ | ⟨ran, header, _⟩
  · rwa [ran]
  · rw [ran]
    exact fun st h checked passed => absurd passed (vouched_of_erased _ (wiped header) st h checked)
  · rw [ran]
    exact fun st h checked passed => absurd passed (vouched_of_erased _ (wiped header) st h checked)

/-- The header that VERIFY writes for what it was told. -/
def declaredHdr (data : List UInt8) : BootHdr := ⟨rd32 data 0, rd16 data 4, bootStateLoaded, bootHdrVersion⟩

/-- VERIFY found what it was told: a plausible image of that length and CRC, and a header
that can be programmed over what OSHDR holds. -/
structure Verifies (data : List UInt8) (ctx : BootCtx) : Prop where
  some : (declaredHdr data).length ≠ 0
  fits : (declaredHdr data).length ≤ ctx.osflash.size
  crc : crc16 (ctx.osflash.read 0 (declaredHdr data).length.toNat) = (declaredHdr data).imageCrc
  sane : bootImagePlausible ctx.osflash (declaredHdr data).length ctx.loadAddr ctx.sramBase ctx.sramSize = true
  room : bootHdrSize ≤ ctx.oshdr.size.toNat

theorem doVerify_cases (data : List UInt8) (ctx : BootCtx) :
    (∃ sw ≠ swOk, doVerify data ctx = (sw, ctx)) ∨
      Verifies data ctx ∧
        doVerify data ctx = (swOk, { ctx with oshdr := ctx.oshdr.write 0 (bootHdrSerialise (declaredHdr data)) }) := by
  unfold doVerify
  split
  · exact .inl ⟨_, by decide, rfl⟩
  split
  · exact .inl ⟨_, by decide, rfl⟩
  dsimp only
  split
  · exact .inl ⟨_, by decide, rfl⟩
  rename_i sized
  split
  · exact .inl ⟨_, by decide, rfl⟩
  split
  · exact .inl ⟨_, by decide, rfl⟩
  rename_i crc
  split
  · exact .inl ⟨_, by decide, rfl⟩
  rename_i sane
  obtain ⟨some, fits⟩ := not_or.mp sized
  rcases programHdr_cases 0 (bootHdrSerialise (declaredHdr data)) ctx with failed | ⟨stored, room⟩
  · exact .inl ⟨_, by decide, failed⟩
  · have room : bootHdrSize ≤ ctx.oshdr.size.toNat := room
    have sane : bootImagePlausible ctx.osflash (rd32 data 0) ctx.loadAddr ctx.sramBase ctx.sramSize = true := by
      simpa using sane
    exact .inr ⟨⟨some, UInt32.not_lt.mp fits, not_not.mp crc, sane, room⟩, stored⟩

theorem read_header (oshdr : Region) (h : BootHdr) :
    (oshdr.write 0 (bootHdrSerialise h)).read 0 bootHdrSize = bootHdrSerialise h := Region.read_write_same rfl

/-- A header that was just written loads the image that it describes. -/
theorem header_slot {oshdr osflash : Region} {h : BootHdr} (room : bootHdrSize ≤ oshdr.size.toNat) (some : h.length ≠ 0)
    (fits : h.length ≤ osflash.size) (crc : crc16 (osflash.read 0 h.length.toNat) = h.imageCrc) :
    bootSlotCheck (oshdr.write 0 (bootHdrSerialise h)) osflash =
      (.loaded, { h with state := bootStateLoaded, version := bootHdrVersion }) := by
  have sized : ¬ (oshdr.write 0 (bootHdrSerialise h)).size.toNat < bootHdrSize := by
    rw [Region.write_size]
    exact Nat.not_lt.mpr room
  have held : ¬ (h.length = 0 ∨ h.length > osflash.size) := not_or.mpr ⟨some, UInt32.not_lt.mpr fits⟩
  rw [bootSlotCheck, if_neg sized, read_header, bootHdrParse_serialise]
  exact (if_neg held).trans (if_neg (not_not.mpr crc))

theorem doVerify_vouched (vouched : Vouched ctx) (data : List UInt8) : Vouched (doVerify data ctx).2 := by
  rcases doVerify_cases data ctx with ⟨sw, _, refused⟩ | ⟨verifies, stored⟩
  · rw [refused]
    exact vouched
  · rw [stored]
    intro st h checked passed
    obtain ⟨_, parsed, _⟩ := slotCheck_passed checked passed
    rw [read_header, bootHdrParse_serialise] at parsed
    cases parsed
    exact verifies.sane

/-- Clearing the state word turns a loaded slot into an active one with the same
length, image and CRC. -/
theorem doActivate_loaded {h : BootHdr} (checked : bootSlotCheck ctx.oshdr ctx.osflash = (.loaded, h)) :
    doActivate ctx = (swOk, { ctx with oshdr := ctx.oshdr.write 14 [0x00, 0x00] }) ∧
      bootSlotCheck (ctx.oshdr.write 14 [0x00, 0x00]) ctx.osflash =
        (.active, { h with state := bootStateActive }) := by
  obtain ⟨large, parsed, positive, fits, crc, _⟩ := slotCheck_passed checked (.inl rfl)
  have room : bootHdrSize ≤ ctx.oshdr.size.toNat := large
  have programmed : cfProgram ctx.oshdr 14 [0x00, 0x00] = (.ok, ctx.oshdr.write 14 [0x00, 0x00]) := by
    have nonempty : ctx.oshdr.size ≠ 0 := by
      intro zero
      rw [zero] at room
      exact absurd room (by decide)
    have inside : inRange ctx.oshdr.size 14 2 = true := decide_eq_true room
    have clears : clearsOnly (ctx.oshdr.read 14 2) [0x00, 0x00] = true := by
      simp [clearsOnly, Region.read, List.range_succ]
    simp [cfProgram, nonempty, inside, clears]
  constructor
  · simp only [doActivate, checked, programHdr, programmed]
  · have front : (ctx.oshdr.write 14 [0x00, 0x00]).read 0 14 = ctx.oshdr.read 0 14 :=
      Region.read_congr fun i inside => Region.byte_write_outside (by omega)
    have tail : (ctx.oshdr.write 14 [0x00, 0x00]).read 14 2 = [0x00, 0x00] := Region.read_write_same rfl
    have old : ctx.oshdr.read 0 bootHdrSize =
        ctx.oshdr.read 0 14 ++ [ctx.oshdr.byte 14, ctx.oshdr.byte 15] := Region.read_append (n := 14) 2
    have new : (ctx.oshdr.write 14 [0x00, 0x00]).read 0 bootHdrSize = ctx.oshdr.read 0 14 ++ [0x00, 0x00] := by
      rw [← front, ← tail]
      exact Region.read_append (n := 14) 2
    have header := bootHdrParse_state (ctx.oshdr.read 0 14) (by simp) 0x00 0x00
      (ctx.oshdr.byte 14) (ctx.oshdr.byte 15)
    rw [← old, ← new, parsed] at header
    unfold bootSlotCheck
    rw [Region.write_size, if_neg (Nat.not_lt.mpr large), header]
    have length : ¬ (h.length = 0 ∨ h.length > ctx.osflash.size) := by
      rintro (zero | beyond)
      · rw [zero] at positive
        exact absurd positive (by decide)
      · exact absurd fits (UInt32.not_le.mpr beyond)
    simp only [Option.map_some, if_neg length, crc, ne_eq, not_true_eq_false, if_false]
    rfl

theorem doActivate_vouched (vouched : Vouched ctx) : Vouched (doActivate ctx).2 := by
  rcases checked : bootSlotCheck ctx.oshdr ctx.osflash with ⟨st, h⟩
  cases st with
  | loaded =>
    obtain ⟨ran, active⟩ := doActivate_loaded checked
    rw [ran]
    intro st' h' checked' passed
    obtain ⟨rfl, rfl⟩ := Prod.mk.inj (active.symm.trans checked')
    exact vouched _ h checked (.inl rfl)
  | blank => rwa [doActivate, checked]
  | damaged => rwa [doActivate, checked]
  | active => rwa [doActivate, checked]

/-- Every command but a colliding LOAD BLOCK keeps the slot vouched for. -/
theorem step_vouched (vouched : Vouched ctx) (apart : ¬ Collides ctx cmd) :
    Vouched (bootHandle cmd rspCap ctx).2 := by
  have handled := bootHandle_handled ctx cmd rspCap
  generalize bootHandle cmd rspCap ctx = result at handled ⊢
  cases handled with
  | kept reply granted => exact vouched
  | erase => exact doErase_vouched vouched
  | load data highWater loads =>
    intro st h checked passed
    by_contra unfit
    exact apart ⟨data, st, h, loads, checked, passed, Bool.eq_false_iff.mpr unfit⟩
  | verify data => exact doVerify_vouched vouched data
  | activate => exact doActivate_vouched vouched

/-- After a colliding LOAD BLOCK nothing vouches for the slot. -/
theorem collides_unvouched (rspCap : UInt32) (collides : Collides ctx cmd) :
    ¬ Vouched (bootHandle cmd rspCap ctx).2 := by
  obtain ⟨data, st, h, loads, checked, passed, unfit⟩ := collides
  rw [bootHandle_loads rspCap loads]
  intro vouched
  have sane := vouched st h checked passed
  rw [unfit] at sane
  cases sane

theorem vouched_keepsPromise (vouched : Vouched ctx) : KeepsPromise ctx where
  active := vouched_bootable vouched
  restart := by
    intro cmd rspCap restarts
    refine vouched_bootable vouched ?_
    have handled := bootHandle_handled ctx cmd rspCap
    generalize bootHandle cmd rspCap ctx = result at handled restarts
    cases handled with
    | kept reply granted => exact granted restarts
    | erase => cases restarts
    | load data highWater loads => cases restarts
    | verify data => cases restarts
    | activate => cases restarts

end Commands

/-- ACTIVATE as a reader sends it. -/
def activate : List UInt8 := [0x80, 0x44, 0x00, 0x00, 0x00]

section Runs
variable {ctx : BootCtx} {cmds : List (List UInt8)} {rspCap : UInt32}

theorem bootRun_append (ctx : BootCtx) (first second : List (List UInt8)) (rspCap : UInt32) :
    bootRun ctx (first ++ second) rspCap = bootRun (bootRun ctx first rspCap) second rspCap :=
  List.foldl_append

private theorem activate_runs (ctx : BootCtx) : bootRun ctx [activate] rspCap = (doActivate ctx).2 := rfl

/-- Activating a slot whose check passes makes it active, with the same length
and the same image. -/
theorem activate_passed {st : BootSlotState} {h : BootHdr} (rspCap : UInt32)
    (checked : bootSlotCheck ctx.oshdr ctx.osflash = (st, h)) (passed : st = .loaded ∨ st = .active) :
    ∃ oshdr h', bootRun ctx [activate] rspCap = { ctx with oshdr } ∧
      bootSlotCheck oshdr ctx.osflash = (.active, h') ∧ h'.length = h.length := by
  rw [activate_runs]
  rcases passed with rfl | rfl
  · obtain ⟨ran, active⟩ := doActivate_loaded checked
    exact ⟨_, _, congrArg Prod.snd ran, active, rfl⟩
  · refine ⟨ctx.oshdr, h, ?_, checked, rfl⟩
    rw [doActivate, checked]

/-- Commands none of which collides leave the slot vouched for. -/
theorem run_vouched (start : Vouched ctx)
    (apart : ∀ before cmd after, cmds = before ++ cmd :: after → ¬ Collides (bootRun ctx before rspCap) cmd) :
    Vouched (bootRun ctx cmds rspCap) := by
  induction cmds using List.reverseRecOn with
  | nil => exact start
  | append_singleton cmds cmd ih =>
    rw [bootRun_append]
    refine step_vouched (ih ?_) (apart cmds cmd [] rfl)
    rintro before cmd' after rfl
    exact apart before cmd' (after ++ [cmd]) (by simp)

/-- A part with an erased slot, as `boot_ctx_init` sets it up. -/
def blankSlot (osflashSize oshdrSize pageSize loadAddr sramBase sramSize : UInt32) : BootCtx :=
  bootCtxInit (.uniform osflashSize 0xFF) (.uniform oshdrSize 0xFF) pageSize loadAddr sramBase sramSize

theorem blank_vouched (osflashSize oshdrSize pageSize loadAddr sramBase sramSize : UInt32) :
    Vouched (blankSlot osflashSize oshdrSize pageSize loadAddr sramBase sramSize) := by
  intro st h checked passed
  exact absurd passed (vouched_of_erased _ rfl st h checked)

private theorem parts_vouched (start : Vouched ctx)
    (apart : ∀ before cmd after, cmds = before ++ cmd :: after → ¬ Collides (bootRun ctx before rspCap) cmd)
    {before after : List (List UInt8)} (split : cmds = before ++ after) : Vouched (bootRun ctx before rspCap) := by
  subst split
  refine run_vouched start ?_
  rintro first cmd rest rfl
  exact apart first cmd (rest ++ after) (by simp)

/-- From a blank slot, the promise holds after every part of a run in which no command is
a LOAD BLOCK that keeps the CRC of a header already stored and leaves an image that is not
plausible. It holds then, and when the slot is activated after any part of the run, in such
runs only. -/
theorem promise_kept_iff_no_load_collides (osflashSize oshdrSize pageSize loadAddr sramBase sramSize : UInt32)
    (cmds : List (List UInt8)) (rspCap : UInt32) :
    ((∀ before cmd after, cmds = before ++ cmd :: after →
        ¬ Collides (bootRun (blankSlot osflashSize oshdrSize pageSize loadAddr sramBase sramSize) before rspCap) cmd) →
      ∀ before after, cmds = before ++ after →
        KeepsPromise (bootRun (blankSlot osflashSize oshdrSize pageSize loadAddr sramBase sramSize) before rspCap)) ∧
    ((∀ before after, cmds = before ++ after →
      KeepsPromise (bootRun (blankSlot osflashSize oshdrSize pageSize loadAddr sramBase sramSize) before rspCap) ∧
        KeepsPromise (bootRun (blankSlot osflashSize oshdrSize pageSize loadAddr sramBase sramSize)
          (before ++ [activate]) rspCap)) ↔
      ∀ before cmd after, cmds = before ++ cmd :: after →
        ¬ Collides (bootRun (blankSlot osflashSize oshdrSize pageSize loadAddr sramBase sramSize) before rspCap)
          cmd) := by
  have blank := blank_vouched osflashSize oshdrSize pageSize loadAddr sramBase sramSize
  generalize blankSlot osflashSize oshdrSize pageSize loadAddr sramBase sramSize = ctx at blank ⊢
  refine ⟨fun apart before after split => vouched_keepsPromise (parts_vouched blank apart split), ?_, ?_⟩
  · rintro kept before cmd after rfl collides
    refine collides_unvouched rspCap collides ?_
    intro st h checked passed
    have promise := (kept (before ++ [cmd]) after (by simp)).2
    rw [bootRun_append, bootRun_append] at promise
    obtain ⟨oshdr, h', ran, active, length⟩ := activate_passed rspCap checked passed
    rw [show bootRun (bootRun ctx before rspCap) [cmd] rspCap =
      (bootHandle cmd rspCap (bootRun ctx before rspCap)).2 from rfl, ran] at promise
    obtain ⟨h'', checked', _, _, _, sane⟩ := promise.active (by rw [active])
    obtain rfl : h' = h'' := (Prod.mk.inj (active.symm.trans checked')).2
    rw [length] at sane
    exact sane
  · intro apart before after split
    have vouched := parts_vouched blank apart split
    refine ⟨vouched_keepsPromise vouched, vouched_keepsPromise ?_⟩
    rw [bootRun_append, activate_runs]
    exact doActivate_vouched vouched

/-- A plausible image is loaded and verified, a second LOAD BLOCK clears bits of
it that leave its CRC alone, and the slot is activated. -/
def reloaded : List (List UInt8) :=
  [[0x80, 0x0E, 0x00, 0x00, 0x00],
    [0x80, 0x54, 0x00, 0x00, 0x10, 0x00, 0x40, 0x00, 0x20, 0x09, 0x20, 0x00, 0x00, 0xFF, 0xFF, 0xFF, 0xFF, 0xFF,
      0xFF, 0xFF, 0xFF],
    [0x80, 0xA0, 0x00, 0x00, 0x06, 0x00, 0x00, 0x00, 0x10, 0x79, 0x2D],
    [0x80, 0x54, 0x00, 0x00, 0x10, 0x00, 0x40, 0x00, 0x00, 0x09, 0x20, 0x00, 0x00, 0xFF, 0xFF, 0xFF, 0xFF, 0xFF,
      0xFF, 0x55, 0x85], activate]

/-- On the SCV1 geometry this run ends with an ACTIVE slot, and a granted
RESTART, over an image whose stack pointer is not in SRAM. -/
theorem reload_after_verify_breaks_promise :
    bootSlotCheck (bootRun (blankSlot 56320 1024 1024 0x2000 0x20000000 16384) reloaded 16).oshdr
        (bootRun (blankSlot 56320 1024 1024 0x2000 0x20000000 16384) reloaded 16).osflash =
        (.active, ⟨16, 0x792D, 0, 1⟩) ∧
      bootImagePlausible (bootRun (blankSlot 56320 1024 1024 0x2000 0x20000000 16384) reloaded 16).osflash 16
        0x2000 0x20000000 16384 = false ∧
      (bootHandle [0x80, 0xF0, 0x00, 0x00, 0x00] 16
        (bootRun (blankSlot 56320 1024 1024 0x2000 0x20000000 16384) reloaded 16)).1 = ⟨0x9000, [], .restart⟩ := by
  decide +kernel

end Runs

/-! Refused commands. -/

/-- A geometry that ERASE can erase. -/
structure Paged (ctx : BootCtx) : Prop where
  page : ctx.pageSize ≠ 0
  osflash : ctx.osflash.size ≠ 0
  osflashPages : ctx.osflash.size % ctx.pageSize = 0
  oshdr : ctx.oshdr.size ≠ 0
  oshdrPages : ctx.oshdr.size % ctx.pageSize = 0

/-- A command that does not end with `9000` hands back its status word and nothing else. -/
def AllOrNothing (ctx : BootCtx) (result : BootReply × BootCtx) : Prop :=
  result.1.sw ≠ swOk → result = (.word result.1.sw, ctx)

section Refusals
variable {ctx : BootCtx} {cmd data : List UInt8} {rspCap : UInt32} {p1 p2 : UInt8}

private theorem word_nothing (sw : UInt16) : AllOrNothing ctx (.word sw, ctx) := fun _ => rfl

private theorem plainly_nothing {act : BootReply × BootCtx} (nothing : AllOrNothing ctx act) :
    AllOrNothing ctx (plainly p1 p2 data ctx act) := by
  unfold plainly
  split
  · exact word_nothing _
  split
  · exact word_nothing _
  · exact nothing

theorem doErase_paged (paged : Paged ctx) : (doErase ctx).1 = swOk := by
  rw [doErase, cfEraseAll_ok paged.oshdr paged.page paged.oshdrPages]
  dsimp only
  rw [cfEraseAll_ok paged.osflash paged.page paged.osflashPages]

private theorem status_nothing : AllOrNothing ctx (buildStatus rspCap ctx, ctx) := by
  unfold buildStatus
  split
  · exact word_nothing _
  · exact fun refused => absurd rfl refused

private theorem restart_nothing : AllOrNothing ctx (doRestart ctx, ctx) := by
  unfold doRestart
  split
  · exact word_nothing _
  · exact fun refused => absurd rfl refused

private theorem verify_nothing : AllOrNothing ctx (replyWord (doVerify data ctx)) := by
  rcases doVerify_cases data ctx with ⟨sw, _, refused⟩ | ⟨_, stored⟩
  · rw [refused]
    exact word_nothing sw
  · rw [stored]
    exact fun refused => absurd rfl refused

private theorem activate_nothing : AllOrNothing ctx (replyWord (doActivate ctx)) := by
  unfold doActivate
  split
  · exact word_nothing _
  · exact word_nothing _
  · exact word_nothing _
  · rcases programHdr_cases 14 [0x00, 0x00] ctx with failed | ⟨stored, _⟩
    · rw [failed]
      exact word_nothing _
    · rw [stored]
      exact fun refused => absurd rfl refused

theorem bootHandle_nothing (paged : Paged ctx) (cmd : List UInt8) (rspCap : UInt32) :
    AllOrNothing ctx (bootHandle cmd rspCap ctx) := by
  unfold bootHandle
  split
  · exact word_nothing _
  split
  · exact word_nothing _
  rename_i cla
  cases body : bodyOf cmd with
  | none => exact word_nothing _
  | some data =>
    dsimp only
    unfold bootDispatch
    split
    · exact plainly_nothing status_nothing
    split
    · exact plainly_nothing fun refused => absurd (doErase_paged paged) refused
    split
    · rename_i load
      split
      · exact word_nothing _
      rcases doLoad_cases (not_not.mp cla) load body with ⟨_, sw, _, kept⟩ | ⟨_, programmed⟩
      · rw [kept]
        exact word_nothing sw
      · rw [programmed]
        exact fun refused => absurd rfl refused
    split
    · split
      · exact word_nothing _
      split
      · exact word_nothing _
      · exact verify_nothing
    split
    · exact plainly_nothing activate_nothing
    split
    · exact plainly_nothing restart_nothing
    · exact word_nothing _

private theorem bodyOf_data (body : bodyOf cmd = some data) (filled : data.length ≠ 0) : data = cmd.drop 5 := by
  unfold bodyOf at body
  split at body
  · split at body
    · cases body
    · exact (Option.some.inj body).symm
  · split at body
    · split at body
      · cases body
      · cases body
        exact absurd rfl filled
    · cases body
      exact absurd rfl filled

/-- An accepted VERIFY is the one that `doVerify` carries out on the command's data. -/
theorem bootHandle_verify (ins : cmd.getD 1 0 = bootInsVerify) (ok : (bootHandle cmd rspCap ctx).1.sw = swOk) :
    bootHandle cmd rspCap ctx = replyWord (doVerify (cmd.drop 5) ctx) := by
  unfold bootHandle at ok ⊢
  split at ok
  · cases ok
  rename_i long
  split at ok
  · cases ok
  rename_i cla
  rw [if_neg long, if_neg cla]
  cases body : bodyOf cmd with
  | none =>
    rw [body] at ok
    cases ok
  | some data =>
    rw [body] at ok
    dsimp only at ok ⊢
    rw [bootDispatch, ins, if_neg (by decide), if_neg (by decide), if_neg (by decide), if_pos rfl] at ok ⊢
    split at ok
    · cases ok
    rename_i filled
    split at ok
    · cases ok
    rename_i plain
    rw [if_neg filled, if_neg plain, bodyOf_data body filled]

/-- The slot as VERIFY leaves it. -/
theorem verified_slot (verifies : Verifies data ctx) :
    bootSlotCheck (ctx.oshdr.write 0 (bootHdrSerialise (declaredHdr data))) ctx.osflash = (.loaded, declaredHdr data) :=
  header_slot verifies.room verifies.some verifies.fits verifies.crc

end Refusals

/-- On a geometry of whole pages a command that is not answered with `9000` has changed
nothing and carries neither data nor an action, and a VERIFY that is answered so has
left the header of what was declared, and a loaded slot. -/
theorem loader_commands_are_all_or_nothing {ctx : BootCtx} (paged : Paged ctx) (cmd : List UInt8) (rspCap : UInt32) :
    let reply := (bootHandle cmd rspCap ctx).1
    let after := (bootHandle cmd rspCap ctx).2
    (reply.sw ≠ swOk → after.osflash = ctx.osflash ∧ after.oshdr = ctx.oshdr ∧ after.erased = ctx.erased ∧
      after.highWater = ctx.highWater ∧ reply.rsp.length = 0 ∧ reply.action = .none) ∧
    (cmd.getD 1 0 = bootInsVerify → reply.sw = swOk →
      after.oshdr.read 0 bootHdrSize = bootHdrSerialise (declaredHdr (cmd.drop 5)) ∧
        (bootSlotCheck after.oshdr after.osflash).1 = .loaded) := by
  intro reply after
  refine ⟨fun refused => ?_, fun ins ok => ?_⟩
  · have nothing := bootHandle_nothing paged cmd rspCap refused
    have unchanged : after = ctx := congrArg Prod.snd nothing
    have bare : reply = .word reply.sw := congrArg Prod.fst nothing
    rw [unchanged, bare]
    exact ⟨rfl, rfl, rfl, rfl, rfl, rfl⟩
  · have ran := bootHandle_verify ins ok
    rcases doVerify_cases (cmd.drop 5) ctx with ⟨sw, failed, refused⟩ | ⟨verifies, stored⟩
    · rw [show reply = (bootHandle cmd rspCap ctx).1 from rfl, ran, refused] at ok
      exact absurd ok failed
    · have final : after = { ctx with oshdr := ctx.oshdr.write 0 (bootHdrSerialise (declaredHdr (cmd.drop 5))) } := by
        rw [show after = (bootHandle cmd rspCap ctx).2 from rfl, ran, stored]
        rfl
      rw [final]
      exact ⟨read_header _ _, congrArg Prod.fst (verified_slot verifies)⟩

/-- A LOAD BLOCK before any ERASE, on the SCV1 geometry. -/
theorem loader_refuses_early_load :
    let ctx := blankSlot 56320 1024 1024 0x2000 0x20000000 16384
    (bootHandle [0x80, 0x54, 0x00, 0x00, 0x01, 0x42] 16 ctx).1.sw = swCondNotMet ∧
      (bootHandle [0x80, 0x54, 0x00, 0x00, 0x01, 0x42] 16 ctx).2.osflash = ctx.osflash := by
  have paged : Paged (blankSlot 56320 1024 1024 0x2000 0x20000000 16384) :=
    ⟨by decide, by decide, by decide, by decide, by decide⟩
  have refused : (bootHandle [0x80, 0x54, 0x00, 0x00, 0x01, 0x42] 16
    (blankSlot 56320 1024 1024 0x2000 0x20000000 16384)).1.sw = swCondNotMet := by decide +kernel
  have kept := (loader_commands_are_all_or_nothing paged [0x80, 0x54, 0x00, 0x00, 0x01, 0x42] 16).1
    (by rw [refused]; decide)
  exact ⟨refused, kept.1⟩

end CardOs.BootProofs
