import CardOs.BootProofs
import CardOs.LoaderStores

/-! Power loss while an image is being loaded. The header's first byte is the first
thing ERASE destroys and the state word the last thing ACTIVATE writes, so every
cut of the stores of a run leaves either a slot that is not bootable or one whose
activation was complete. -/
namespace CardOs.PowerLossProofs
open CardOs.Library CardOs.CodeFlash CardOs.BootLoader CardOs.BootProofs CardOs.LoaderStores

section Stores
variable {ctx : BootCtx} {region : FlashRegion} {base : Region} {pageSize off : UInt32} {src : List UInt8}
  {op : LoaderOp} {memory : FlashRegion → Region}

private theorem eraseAll_ok (ok : (cfEraseAll base pageSize).1 = .ok) :
    0 < base.size.toNat ∧ 0 < pageSize.toNat ∧ base.size.toNat / pageSize.toNat * pageSize.toNat = base.size.toNat ∧
      (cfEraseAll base pageSize).2 = base.fill 0 base.size.toNat 0xFF := by
  have sized : ¬ (base.size = 0 ∨ pageSize = 0) := by
    intro empty
    rw [cfEraseAll, if_pos empty] at ok
    cases ok
  have aligned : base.size % pageSize = 0 := by
    by_contra odd
    rw [cfEraseAll, if_neg sized, if_pos odd] at ok
    cases ok
  obtain ⟨nonempty, paged⟩ := not_or.mp sized
  refine ⟨Nat.pos_of_ne_zero fun zero => nonempty (UInt32.toNat_inj.mp zero),
    Nat.pos_of_ne_zero fun zero => paged (UInt32.toNat_inj.mp zero), ?_, ?_⟩
  · refine Nat.div_mul_cancel (Nat.dvd_of_mod_eq_zero ?_)
    rw [← UInt32.toNat_mod, aligned]
    rfl
  · rcases cfEraseAll_cases base pageSize with ⟨status, failed, ran⟩ | ran
    · rw [ran] at ok
      exact absurd ok failed
    · rw [ran]

/-- An erased region is stored once per cell. -/
private theorem mem_eraseAllStores (ok : (cfEraseAll base pageSize).1 = .ok) {s : FlashStore} :
    s ∈ cfEraseAllStores region base pageSize ↔ ∃ i < base.size.toNat, s = ⟨.erase, region, i, 0xFF⟩ := by
  obtain ⟨_, paged, whole, _⟩ := eraseAll_ok ok
  simp only [cfEraseAllStores, ok, ne_eq, not_true_eq_false, if_false, List.mem_flatMap, List.mem_range,
    ByteStore.mem_ofBlock, List.length_replicate, List.getElem_replicate]
  constructor
  · rintro ⟨page, before, k, inside, rfl⟩
    refine ⟨_, ?_, rfl⟩
    have upTo : (page + 1) * pageSize.toNat ≤ base.size.toNat :=
      whole ▸ Nat.mul_le_mul_right _ before
    rw [Nat.succ_mul] at upTo
    omega
  · rintro ⟨i, inside, rfl⟩
    refine ⟨i / pageSize.toNat, ?_, i % pageSize.toNat, Nat.mod_lt _ paged, ?_⟩
    · rw [Nat.div_lt_iff_lt_mul paged, whole]
      exact inside
    · rw [Nat.div_add_mod' i pageSize.toNat]

private theorem replay_eraseAll (here : memory region = base) :
    ByteStore.replay memory (cfEraseAllStores region base pageSize) =
      Function.update memory region (cfEraseAll base pageSize).2 := by
  by_cases ok : (cfEraseAll base pageSize).1 = .ok
  · obtain ⟨_, _, _, wiped⟩ := eraseAll_ok ok
    funext r
    by_cases other : r = region
    · subst other
      rw [Function.update_self, wiped]
      refine Region.ext ?_ ?_
      · rw [ByteStore.replay_size, here, Region.fill_size]
      · funext i
        by_cases inside : i < base.size.toNat
        · rw [Region.fill_byte, if_pos ⟨Nat.zero_le i, by omega⟩]
          refine ByteStore.replay_settled ?_ (.inr ⟨_, (mem_eraseAllStores ok).mpr ⟨i, inside, rfl⟩, rfl, rfl⟩)
          intro s member _ _
          obtain ⟨_, _, rfl⟩ := (mem_eraseAllStores ok).mp member
          rfl
        · rw [Region.fill_byte, if_neg (by omega), ByteStore.replay_untouched, here]
          intro s member _
          obtain ⟨j, below, rfl⟩ := (mem_eraseAllStores ok).mp member
          exact fun same => inside (same ▸ below)
    · rw [Function.update_of_ne other]
      refine Region.ext ByteStore.replay_size (funext fun i => ByteStore.replay_untouched ?_)
      intro s member same
      obtain ⟨_, _, rfl⟩ := (mem_eraseAllStores ok).mp member
      exact absurd same.symm other
  · have kept : (cfEraseAll base pageSize).2 = base := by
      rcases cfEraseAll_cases base pageSize with ⟨status, failed, ran⟩ | ran
      · rw [ran]
      · rw [ran] at ok
        exact absurd rfl ok
    rw [cfEraseAllStores, if_pos ok, kept, ← here, Function.update_eq_self]
    rfl

private theorem replay_program (here : memory region = base) :
    ByteStore.replay memory (cfProgramStores op region base off src) =
      Function.update memory region (cfProgram base off src).2 := by
  rcases cfProgram_cases base off src with ⟨status, failed, ran⟩ | ⟨ran, _⟩
  · rw [cfProgramStores, ran, if_pos failed, ← here, Function.update_eq_self]
    rfl
  · rw [cfProgramStores, ran, if_neg (not_not.mpr rfl), ByteStore.replay_ofBlock, here]

private theorem flashOf_oshdr (ctx : BootCtx) (oshdr : Region) :
    Function.update (flashOf ctx) .oshdr oshdr = flashOf { ctx with oshdr } := by
  funext r
  cases r <;> rfl

private theorem flashOf_osflash (ctx : BootCtx) (osflash : Region) (highWater : UInt32) :
    Function.update (flashOf ctx) .osflash osflash = flashOf { ctx with osflash, highWater } := by
  funext r
  cases r <;> rfl

private theorem replay_doErase (ctx : BootCtx) :
    ByteStore.replay (flashOf ctx) (doEraseStores ctx) = flashOf (doErase ctx).2 := by
  rw [doEraseStores, ByteStore.replay_append, replay_eraseAll (show flashOf ctx .oshdr = ctx.oshdr from rfl),
    flashOf_oshdr, doErase]
  rcases cfEraseAll ctx.oshdr ctx.pageSize with ⟨status, oshdr⟩
  cases status with
  | ok =>
    rw [if_neg (not_not.mpr rfl), replay_eraseAll (show flashOf { ctx with oshdr } .osflash = ctx.osflash from rfl)]
    rcases cfEraseAll ctx.osflash ctx.pageSize with ⟨status, osflash⟩
    funext r
    cases r <;> cases status <;> rfl
  | param => rfl
  | range => rfl
  | align => rfl
  | notErased => rfl

private theorem replay_doLoad (p1 p2 : UInt8) (data : List UInt8) (ctx : BootCtx) :
    ByteStore.replay (flashOf ctx) (doLoadStores p1 p2 data ctx) = flashOf (doLoad p1 p2 data ctx).2 := by
  unfold doLoadStores doLoad
  split
  · rfl
  split
  · rfl
  dsimp only
  split
  · rfl
  rw [replay_program (show flashOf ctx .osflash = ctx.osflash from rfl)]
  rcases cfProgram_cases ctx.osflash (UInt32.ofNat ((BigEndian.word16 p1 p2).toNat * bootBlockSize)) data with
    ⟨status, failed, ran⟩ | ⟨ran, _⟩
  · rw [ran, flashOf_osflash ctx ctx.osflash ctx.highWater]
    cases status with
    | ok => exact absurd rfl failed
    | param => rfl
    | range => rfl
    | align => rfl
    | notErased => rfl
  · rw [ran]
    exact flashOf_osflash _ _ _

private theorem replay_programHdr (op : LoaderOp) (off : UInt32) (src : List UInt8) (ctx : BootCtx) :
    ByteStore.replay (flashOf ctx) (cfProgramStores op .oshdr ctx.oshdr off src) =
      flashOf (programHdr off src ctx).2 := by
  rw [replay_program (show flashOf ctx .oshdr = ctx.oshdr from rfl), flashOf_oshdr, programHdr]
  rcases cfProgram_cases ctx.oshdr off src with ⟨status, failed, ran⟩ | ⟨ran, _⟩
  · rw [ran]
    cases status with
    | ok => exact absurd rfl failed
    | param => rfl
    | range => rfl
    | align => rfl
    | notErased => rfl
  · rw [ran]

private theorem replay_doVerify (data : List UInt8) (ctx : BootCtx) :
    ByteStore.replay (flashOf ctx) (doVerifyStores data ctx) = flashOf (doVerify data ctx).2 := by
  unfold doVerifyStores doVerify
  split
  · rfl
  split
  · rfl
  dsimp only
  split
  · rfl
  split
  · rfl
  split
  · rfl
  split
  · rfl
  · exact replay_programHdr _ _ _ _

private theorem replay_doActivate (ctx : BootCtx) :
    ByteStore.replay (flashOf ctx) (doActivateStores ctx) = flashOf (doActivate ctx).2 := by
  unfold doActivateStores doActivate
  cases (bootSlotCheck ctx.oshdr ctx.osflash).1 with
  | blank => rfl
  | damaged => rfl
  | active => rfl
  | loaded => exact replay_programHdr _ _ _ _

private theorem replay_plainly {p1 p2 : UInt8} {data : List UInt8} {stores : List FlashStore}
    {act : BootReply × BootCtx} (whole : ByteStore.replay (flashOf ctx) stores = flashOf act.2) :
    ByteStore.replay (flashOf ctx) (if data.length ≠ 0 ∨ p1 ≠ 0 ∨ p2 ≠ 0 then [] else stores) =
      flashOf (plainly p1 p2 data ctx act).2 := by
  unfold plainly
  by_cases extra : data.length ≠ 0
  · rw [if_pos (.inl extra), if_pos extra]
    rfl
  by_cases params : p1 ≠ 0 ∨ p2 ≠ 0
  · rw [if_pos (.inr params), if_neg extra, if_pos params]
    rfl
  · rw [if_neg (not_or.mpr ⟨extra, params⟩), if_neg extra, if_neg params]
    exact whole

/-- The stores of a command, all made, are what the command does to the flash. -/
theorem replay_bootStores (cmd : List UInt8) (rspCap : UInt32) (ctx : BootCtx) :
    ByteStore.replay (flashOf ctx) (bootStores cmd ctx) = flashOf (bootHandle cmd rspCap ctx).2 := by
  have silent : ∀ {p1 p2 data reply}, flashOf ctx = flashOf (plainly p1 p2 data ctx (reply, ctx)).2 := by
    intro p1 p2 data reply
    unfold plainly
    repeat' split
    all_goals rfl
  unfold bootStores bootHandle
  split
  · rfl
  split
  · rfl
  cases bodyOf cmd with
  | none => rfl
  | some data =>
    dsimp only
    unfold bootDispatchStores bootDispatch
    by_cases status : cmd.getD 1 0 = bootInsGetStatus
    · rw [status]
      exact silent
    rw [if_neg status]
    split
    · exact replay_plainly (replay_doErase ctx)
    split
    · split
      · rfl
      · exact replay_doLoad _ _ _ _
    split
    · by_cases empty : data.length = 0
      · rw [if_pos (.inl empty), if_pos empty]
        rfl
      by_cases params : cmd.getD 2 0 ≠ 0 ∨ cmd.getD 3 0 ≠ 0
      · rw [if_pos (.inr params), if_neg empty, if_pos params]
        rfl
      · rw [if_neg (not_or.mpr ⟨empty, params⟩), if_neg empty, if_neg params]
        exact replay_doVerify _ _
    split
    · exact replay_plainly (replay_doActivate ctx)
    split
    · exact silent
    · rfl

end Stores

/-- The two stores of ACTIVATE. -/
def activateStores : List FlashStore := [⟨.activate, .oshdr, 14, 0x00⟩, ⟨.activate, .oshdr, 15, 0x00⟩]

/-- Every shape the stores of one command can have. -/
inductive Group (ctx : BootCtx) : List FlashStore → Prop
  | none : Group ctx []
  | erase (rest : List FlashStore) (erases : ∀ s ∈ rest, s.origin = .erase ∧ s.byte = 0xFF) :
      Group ctx (⟨.erase, .oshdr, 0, 0xFF⟩ :: rest)
  | load (stores : List FlashStore) (loads : ∀ s ∈ stores, s.origin = .load ∧ s.region = .osflash) :
      Group ctx stores
  | verify (stores : List FlashStore) (erased : ctx.oshdr.byte 15 = 0xFF)
      (verifies : ∀ s ∈ stores, s.origin = .verify ∧ (s.offset = 15 → s.byte = 0xFF)) : Group ctx stores
  | activate : Group ctx activateStores

section Groups
variable {ctx : BootCtx}

private theorem doErase_group (ctx : BootCtx) : Group ctx (doEraseStores ctx) := by
  by_cases ok : (cfEraseAll ctx.oshdr ctx.pageSize).1 = .ok
  · obtain ⟨sized, paged, whole, _⟩ := eraseAll_ok ok
    have erases : ∀ s ∈ doEraseStores ctx, s.origin = .erase ∧ s.byte = 0xFF := by
      intro s member
      rw [doEraseStores, if_neg (not_not.mpr ok)] at member
      rcases List.mem_append.mp member with member | member
      · obtain ⟨_, _, rfl⟩ := (mem_eraseAllStores ok).mp member
        exact ⟨rfl, rfl⟩
      · by_cases also : (cfEraseAll ctx.osflash ctx.pageSize).1 = .ok
        · obtain ⟨_, _, rfl⟩ := (mem_eraseAllStores also).mp member
          exact ⟨rfl, rfl⟩
        · rw [cfEraseAllStores, if_pos also] at member
          cases member
    have first : ∃ rest, doEraseStores ctx = ⟨.erase, .oshdr, 0, 0xFF⟩ :: rest := by
      obtain ⟨pages, count⟩ : ∃ pages, ctx.oshdr.size.toNat / ctx.pageSize.toNat = pages + 1 := by
        refine Nat.exists_eq_succ_of_ne_zero fun none => ?_
        rw [none, Nat.zero_mul] at whole
        omega
      obtain ⟨cells, width⟩ := Nat.exists_eq_succ_of_ne_zero (Nat.ne_of_gt paged)
      rw [doEraseStores, cfEraseAllStores, if_neg (not_not.mpr ok), count, List.range_succ_eq_map, List.flatMap_cons,
        Nat.zero_mul, width, List.replicate_succ, ByteStore.ofBlock]
      exact ⟨_, rfl⟩
    obtain ⟨rest, shape⟩ := first
    rw [shape] at erases ⊢
    exact .erase rest fun s member => erases s (List.mem_cons_of_mem _ member)
  · rw [doEraseStores, cfEraseAllStores, if_pos ok, if_pos ok]
    exact .none

private theorem doLoad_group (p1 p2 : UInt8) (data : List UInt8) (ctx : BootCtx) :
    Group ctx (doLoadStores p1 p2 data ctx) := by
  refine .load _ ?_
  unfold doLoadStores cfProgramStores
  dsimp only
  repeat' split
  all_goals intro s member
  all_goals first
    | cases member
    | obtain ⟨_, _, rfl⟩ := ByteStore.mem_ofBlock.mp member
      exact ⟨rfl, rfl⟩

/-- The header is programmed only over an erased state word. -/
private theorem verify_group (h : BootHdr) (ctx : BootCtx) :
    Group ctx (cfProgramStores .verify .oshdr ctx.oshdr 0 (bootHdrSerialise h)) := by
  rcases cfProgram_cases ctx.oshdr 0 (bootHdrSerialise h) with ⟨status, failed, ran⟩ | ⟨ran, _, clears⟩
  · rw [cfProgramStores, ran, if_pos failed]
    exact .none
  have split : bootHdrSerialise h = (bootHdrSerialise h).take 15 ++ [0xFF] := rfl
  rw [cfProgramStores, ran, if_neg (not_not.mpr rfl)]
  refine .verify _ ?_ ?_
  · have last : ctx.oshdr.read (0 : UInt32).toNat (bootHdrSerialise h).length =
        ctx.oshdr.read 0 15 ++ [ctx.oshdr.byte 15] := Region.read_append (n := 15) 1
    have width : (ctx.oshdr.read 0 15).length = ((bootHdrSerialise h).take 15).length := Region.read_length
    rw [last, split, clearsOnly, List.zip_append width, List.all_append, Bool.and_eq_true] at clears
    have state : ctx.oshdr.byte 15 &&& 0xFF = 0xFF := by simpa using clears.2
    rwa [show (0xFF : UInt8) = -1 from rfl, UInt8.and_neg_one] at state
  · intro s member
    obtain ⟨k, inside, rfl⟩ := ByteStore.mem_ofBlock.mp member
    refine ⟨rfl, ?_⟩
    rintro here
    obtain rfl : k = 15 := by simpa using here
    rfl

private theorem doVerify_group (data : List UInt8) (ctx : BootCtx) : Group ctx (doVerifyStores data ctx) := by
  unfold doVerifyStores
  dsimp only
  repeat' split
  all_goals first
    | exact .none
    | exact verify_group _ ctx

private theorem doActivate_group (ctx : BootCtx) : Group ctx (doActivateStores ctx) := by
  unfold doActivateStores
  cases (bootSlotCheck ctx.oshdr ctx.osflash).1 with
  | blank => exact .none
  | damaged => exact .none
  | active => exact .none
  | loaded =>
    unfold cfProgramStores
    dsimp only
    split
    · exact .none
    · exact .activate

theorem bootStores_group (cmd : List UInt8) (ctx : BootCtx) : Group ctx (bootStores cmd ctx) := by
  unfold bootStores
  split
  · exact .none
  split
  · exact .none
  cases bodyOf cmd with
  | none => exact .none
  | some data =>
    dsimp only
    unfold bootDispatchStores
    repeat' split
    all_goals first
      | exact .none
      | exact doErase_group ctx
      | exact doLoad_group _ _ _ ctx
      | exact doVerify_group _ ctx
      | exact doActivate_group ctx

end Groups

/-- Some ACTIVATE made both of its stores and no ERASE has stored since. -/
def Activated (log : List FlashStore) : Prop :=
  ∃ before after, log = before ++ activateStores ++ after ∧ ∀ s ∈ after, s.origin ≠ .erase

/-- Whether an ERASE has stored and no VERIFY since. -/
def erasePending (log : List FlashStore) : Bool :=
  log.foldl (fun pending s => match s.origin with
    | .erase => true
    | .verify => false
    | .load | .activate => pending) false

/-- What every cut of a run leaves: a cleared state word was cleared by ACTIVATE
or stands behind a destroyed magic, and an ERASE has destroyed the magic. -/
structure Safe (log : List FlashStore) (flash : FlashRegion → Region) : Prop where
  active : (flash .oshdr).byte 15 = 0x00 → Activated log ∨ (flash .oshdr).byte 0 = 0xFF
  blank : erasePending log = true → (flash .oshdr).byte 0 = 0xFF

section Cuts
variable {ctx : BootCtx} {log more stores : List FlashStore} {flash : FlashRegion → Region}

theorem Activated.append (activated : Activated log) (kept : ∀ s ∈ more, s.origin ≠ .erase) :
    Activated (log ++ more) := by
  obtain ⟨before, after, rfl, clean⟩ := activated
  refine ⟨before, after ++ more, by simp, ?_⟩
  intro s member
  exact (List.mem_append.mp member).elim (clean s) (kept s)

theorem erasePending_append (neither : ∀ s ∈ more, s.origin = .load ∨ s.origin = .activate) :
    erasePending (log ++ more) = erasePending log := by
  induction more generalizing log with
  | nil => rw [List.append_nil]
  | cons s rest ih =>
    obtain ⟨here, later⟩ := List.forall_mem_cons.mp neither
    rw [List.append_cons, ih later, erasePending, List.foldl_append]
    rcases here with load | activate
    · simp [erasePending, load]
    · simp [erasePending, activate]

theorem erasePending_verify (verifies : ∀ s ∈ more, s.origin = .verify) (nonempty : more ≠ []) :
    erasePending (log ++ more) = false := by
  obtain ⟨init, last, rfl⟩ := List.eq_nil_or_concat more |>.resolve_left nonempty
  have verify : last.origin = .verify := verifies last (by simp)
  rw [List.concat_eq_append, ← List.append_assoc, erasePending, List.foldl_append]
  simp [verify]

/-- Stores beside the two decisive header bytes, by LOAD or ACTIVATE. -/
theorem Safe.beside (safe : Safe log flash) (neither : ∀ s ∈ more, s.origin = .load ∨ s.origin = .activate)
    (apart : ∀ s ∈ more, s.region = .oshdr → s.offset ≠ 0 ∧ s.offset ≠ 15) :
    Safe (log ++ more) (ByteStore.replay flash more) := by
  have first : (ByteStore.replay flash more .oshdr).byte 0 = (flash .oshdr).byte 0 :=
    ByteStore.replay_untouched fun s member here => (apart s member here).1
  have last : (ByteStore.replay flash more .oshdr).byte 15 = (flash .oshdr).byte 15 :=
    ByteStore.replay_untouched fun s member here => (apart s member here).2
  constructor
  · intro cleared
    rw [last] at cleared
    rw [first]
    refine (safe.active cleared).imp_left fun activated => activated.append fun s member => ?_
    rcases neither s member with load | activate
    · simp [load]
    · simp [activate]
  · rw [erasePending_append neither, first]
    exact safe.blank

private theorem erase_safe {rest : List FlashStore} (erases : ∀ s ∈ rest, s.origin = .erase ∧ s.byte = 0xFF) :
    Safe (log ++ ⟨.erase, .oshdr, 0, 0xFF⟩ :: rest)
      (ByteStore.replay flash (⟨.erase, .oshdr, 0, 0xFF⟩ :: rest)) := by
  have wiped : (ByteStore.replay flash (⟨.erase, .oshdr, 0, 0xFF⟩ :: rest) .oshdr).byte 0 = 0xFF := by
    refine ByteStore.replay_settled ?_ (.inr ⟨_, List.mem_cons_self, rfl, rfl⟩)
    intro s member _ _
    rcases List.mem_cons.mp member with rfl | member
    · rfl
    · exact (erases s member).2
  exact ⟨fun _ => .inr wiped, fun _ => wiped⟩

private theorem verify_safe (erased : (flash .oshdr).byte 15 = 0xFF) (nonempty : more ≠ [])
    (verifies : ∀ s ∈ more, s.origin = .verify ∧ (s.offset = 15 → s.byte = 0xFF)) :
    Safe (log ++ more) (ByteStore.replay flash more) := by
  have state : (ByteStore.replay flash more .oshdr).byte 15 = 0xFF :=
    ByteStore.replay_settled (fun s member _ there => (verifies s member).2 there) (.inl erased)
  constructor
  · intro cleared
    rw [state] at cleared
    exact absurd cleared (by decide)
  · rw [erasePending_verify (fun s member => (verifies s member).1) nonempty]
    intro impossible
    cases impossible

/-- However far a command got, the cut is safe. -/
theorem group_safe (safe : Safe log (flashOf ctx)) (group : Group ctx stores) (k : Nat) :
    Safe (log ++ stores.take k) (ByteStore.replay (flashOf ctx) (stores.take k)) := by
  have start : Safe (log ++ []) (ByteStore.replay (flashOf ctx) ([] : List FlashStore)) := by
    rw [List.append_nil]
    exact safe
  rcases Nat.eq_zero_or_pos k with rfl | some
  · rwa [List.take_zero]
  obtain ⟨k, rfl⟩ := Nat.exists_eq_succ_of_ne_zero (Nat.ne_of_gt some)
  cases group with
  | none => exact start
  | erase rest erases => exact erase_safe fun s member => erases s (List.mem_of_mem_take member)
  | load stores loads =>
    refine safe.beside (fun s member => .inl (loads s (List.mem_of_mem_take member)).1) fun s member here => ?_
    rw [(loads s (List.mem_of_mem_take member)).2] at here
    cases here
  | verify stores erased verifies =>
    by_cases empty : stores.take (k + 1) = []
    · rwa [empty]
    · exact verify_safe erased empty fun s member => verifies s (List.mem_of_mem_take member)
  | activate =>
    cases k with
    | zero =>
      refine safe.beside (fun s member => .inr ?_) fun s member here => ?_
      · rw [List.mem_singleton.mp member]
      · rw [List.mem_singleton.mp member]
        decide
    | succ k =>
      have whole : activateStores.take (k + 1 + 1) = activateStores := by simp [activateStores]
      have first : (ByteStore.replay (flashOf ctx) activateStores .oshdr).byte 0 = (flashOf ctx .oshdr).byte 0 := by
        have apart : ∀ s ∈ activateStores, s.offset ≠ 0 := by simp [activateStores]
        exact ByteStore.replay_untouched fun s member _ => apart s member
      rw [whole]
      refine ⟨fun _ => .inl ⟨log, [], by rw [List.append_nil], by simp⟩, ?_⟩
      rw [erasePending_append (by simp [activateStores]), first]
      exact safe.blank

/-- Every cut of a run is safe. -/
theorem run_safe (safe : Safe log (flashOf ctx)) (cmds : List (List UInt8)) (rspCap : UInt32) (n : Nat) :
    Safe (log ++ (bootLog ctx rspCap cmds).take n) (survivingFlash ctx cmds rspCap n) := by
  unfold survivingFlash
  induction cmds generalizing ctx log n with
  | nil =>
    rw [bootLog, List.take_nil, List.append_nil]
    exact safe
  | cons cmd rest ih =>
    rw [bootLog, List.take_append, ByteStore.replay_append, ← List.append_assoc]
    by_cases during : n ≤ (bootStores cmd ctx).length
    · rw [Nat.sub_eq_zero_of_le during, List.take_zero, List.append_nil]
      exact group_safe safe (bootStores_group cmd ctx) n
    · rw [List.take_of_length_le (Nat.le_of_not_le during), replay_bootStores cmd rspCap ctx]
      refine ih ?_ _
      rw [← replay_bootStores cmd rspCap ctx]
      simpa using group_safe safe (bootStores_group cmd ctx) (bootStores cmd ctx).length

/-- An ACTIVE slot has its magic and a cleared state word. -/
theorem active_header {oshdr osflash : Region} (active : (bootSlotCheck oshdr osflash).1 = .active) :
    oshdr.byte 15 = 0x00 ∧ oshdr.byte 0 ≠ 0xFF := by
  rcases checked : bootSlotCheck oshdr osflash with ⟨st, h⟩
  obtain rfl : st = .active := by rwa [checked] at active
  obtain ⟨_, parsed, _, _, _, state⟩ := slotCheck_passed checked (.inr rfl)
  refine ⟨?_, fun erased => ?_⟩
  · have word : rd16 (oshdr.read 0 bootHdrSize) 14 = bootStateActive := by
      have cleared : h.state = bootStateActive := by
        by_contra other
        rw [if_neg other] at state
        cases state
      unfold bootHdrParse at parsed
      split at parsed
      · cases parsed
      split at parsed
      · cases parsed
      split at parsed
      · cases parsed
      · cases parsed
        exact cleared
    have value := congrArg UInt16.toNat word
    rw [rd16, BigEndian.word16_toNat, Region.read_getD (by decide), Region.read_getD (by decide)] at value
    refine UInt8.toNat_inj.mp ?_
    simp only [bootStateActive, Nat.zero_add, Nat.reduceAdd, UInt16.reduceToNat] at value
    simp only [UInt8.reduceToNat]
    omega
  · rw [bootHdrParse_erased erased] at parsed
    cases parsed

private theorem erasePending_split {before after : List FlashStore} {e : FlashStore} (erase : e.origin = .erase)
    (noVerify : ∀ s ∈ after, s.origin ≠ .verify) : erasePending (before ++ e :: after) = true := by
  have stays : ∀ rest : List FlashStore, (∀ s ∈ rest, s.origin ≠ .verify) →
      rest.foldl (fun pending s => match s.origin with
        | .erase => true
        | .verify => false
        | .load | .activate => pending) true = true := by
    intro rest clean
    induction rest with
    | nil => rfl
    | cons s rest ih =>
      obtain ⟨here, later⟩ := List.forall_mem_cons.mp clean
      rw [List.foldl_cons]
      cases origin : s.origin with
      | verify => exact absurd origin here
      | erase => exact ih later
      | load => exact ih later
      | activate => exact ih later
  rw [erasePending, List.foldl_append, List.foldl_cons, erase]
  exact stays after noVerify

/-- From a blank slot, whatever the commands and after however many byte stores
power is lost: the slot is ACTIVE only if some ACTIVATE made both of its stores
and no ERASE has stored since, and it is BLANK from the first store of an ERASE
until a VERIFY stores to the header. -/
theorem power_loss_is_safe (osflashSize oshdrSize pageSize loadAddr sramBase sramSize : UInt32)
    (cmds : List (List UInt8)) (rspCap : UInt32) (n : Nat) (large : bootHdrSize ≤ oshdrSize.toNat) :
    let blank := blankSlot osflashSize oshdrSize pageSize loadAddr sramBase sramSize
    let log := (bootLog blank rspCap cmds).take n
    let flash := survivingFlash blank cmds rspCap n
    ((bootSlotCheck (flash .oshdr) (flash .osflash)).1 = .active → Activated log) ∧
      ∀ before e after, log = before ++ e :: after → e.origin = .erase → (∀ s ∈ after, s.origin ≠ .verify) →
        (bootSlotCheck (flash .oshdr) (flash .osflash)).1 = .blank := by
  intro blank log flash
  have start : Safe [] (flashOf blank) := by
    refine ⟨fun cleared => ?_, fun pending => ?_⟩
    · exact absurd (show (0xFF : UInt8) = 0x00 from cleared) (by decide)
    · cases pending
  have safe : Safe log flash := run_safe start cmds rspCap n
  constructor
  · intro active
    obtain ⟨cleared, magic⟩ := active_header active
    exact (safe.active cleared).resolve_right magic
  · intro before e after split erase noVerify
    have wiped := safe.blank (split ▸ erasePending_split erase noVerify)
    have size : (flash .oshdr).size = oshdrSize := ByteStore.replay_size
    rw [bootSlotCheck, size, if_neg (Nat.not_lt.mpr large), bootHdrParse_erased wiped]

/-- A 16-byte image, loaded, verified and activated. -/
def shortLoad : List (List UInt8) :=
  [[0x80, 0x0E, 0x00, 0x00, 0x00],
    [0x80, 0x54, 0x00, 0x00, 0x10, 0x00, 0x40, 0x00, 0x20, 0x09, 0x20, 0x00, 0x00, 0xFF, 0xFF, 0xFF, 0xFF, 0xFF,
      0xFF, 0xFF, 0xFF],
    [0x80, 0xA0, 0x00, 0x00, 0x06, 0x00, 0x00, 0x00, 0x10, 0x79, 0x2D], activate]

theorem power_loss_is_safe_after_last_store :
    let blank := blankSlot 16 16 16 0x2000 0x20000000 16384
    let flash := survivingFlash blank shortLoad 16 66
    bootHdrSize ≤ (16 : UInt32).toNat ∧ (bootSlotCheck (flash .oshdr) (flash .osflash)).1 = .active ∧
      Activated ((bootLog blank 16 shortLoad).take 66) := by
  intro blank flash
  have active : (bootSlotCheck (flash .oshdr) (flash .osflash)).1 = .active := by decide +kernel
  exact ⟨by decide, active, (power_loss_is_safe 16 16 16 0x2000 0x20000000 16384 shortLoad 16 66 (by decide)).1 active⟩

example : (bootSlotCheck (survivingFlash (blankSlot 16 16 16 0x2000 0x20000000 16384) shortLoad 16 65 .oshdr)
    (survivingFlash (blankSlot 16 16 16 0x2000 0x20000000 16384) shortLoad 16 65 .osflash)).1 = .loaded := by
  decide +kernel

end Cuts
end CardOs.PowerLossProofs
