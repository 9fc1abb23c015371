import CardOs.BootProofs
import CardOs.Library.BlockImage

/-! What OSFLASH holds while an image is being loaded. Since the last ERASE it is
the image of the blocks the loader accepted, over erased flash, and the high
water mark is where they end; no command reaches past the end of a region. -/
namespace CardOs.ImageProofs
open CardOs.Library CardOs.CodeFlash CardOs.BootLoader CardOs.BootProofs

/-- Whether a command is answered 9000. -/
def answersOk (rspCap : UInt32) (ctx : BootCtx) (cmd : List UInt8) : Bool := (bootHandle cmd rspCap ctx).1.sw = swOk

/-- The block a LOAD BLOCK command carries. -/
def blockOf (cmd : List UInt8) : Block UInt8 := ⟨blockOffset cmd, cmd.drop 5⟩

/-- The blocks accepted since the last successful ERASE, after one more command. -/
def recordBlock (rspCap : UInt32) (ctx : BootCtx) (blocks : List (Block UInt8)) (cmd : List UInt8) :
    List (Block UInt8) :=
  if !answersOk rspCap ctx cmd then blocks
  else if cmd.getD 1 0 = bootInsErase then []
  else if cmd.getD 1 0 = bootInsLoad then blocks ++ [blockOf cmd]
  else blocks

/-- The blocks accepted since the last successful ERASE of a run. -/
def acceptedBlocks (rspCap : UInt32) (ctx : BootCtx) (blocks : List (Block UInt8)) :
    List (List UInt8) → List (Block UInt8)
  | [] => blocks
  | cmd :: rest =>
    acceptedBlocks rspCap (bootHandle cmd rspCap ctx).2 (recordBlock rspCap ctx blocks cmd) rest

/-- OSFLASH is the image of the blocks, which end at the high water mark. -/
structure Assembled (ctx : BootCtx) (blocks : List (Block UInt8)) : Prop where
  bytes : ∀ i < ctx.osflash.size.toNat, ctx.osflash.byte i = Block.imageAt 0xFF blocks i
  highWater : ctx.highWater.toNat = Block.reach blocks

/-- A region of the same size with the same cells past its end. -/
structure Confined (before after : Region) : Prop where
  size : after.size = before.size
  beyond : ∀ i, before.size.toNat ≤ i → after.byte i = before.byte i

section Regions
variable {r r' r'' : Region}

theorem Confined.refl (r : Region) : Confined r r := ⟨rfl, fun _ _ => rfl⟩

theorem Confined.trans (first : Confined r r') (second : Confined r' r'') : Confined r r'' where
  size := second.size.trans first.size
  beyond i outside := by rw [second.beyond i (first.size ▸ outside), first.beyond i outside]

theorem confined_fill (r : Region) (b : UInt8) : Confined r (r.fill 0 r.size.toNat b) where
  size := rfl
  beyond i outside := if_neg fun inside => by omega

theorem confined_write {offset : Nat} {bytes : List UInt8} (inside : offset + bytes.length ≤ r.size.toNat) :
    Confined r (r.write offset bytes) where
  size := Region.write_size
  beyond i outside := Region.byte_write_outside (by omega)

end Regions

section Commands
variable {ctx : BootCtx} {cmd : List UInt8} {rspCap : UInt32} {blocks : List (Block UInt8)}

/-- VERIFY and ACTIVATE touch the header alone, and only inside it. -/
theorem programHdr_confined (off : UInt32) (src : List UInt8) (ctx : BootCtx) :
    ∃ oshdr, (programHdr off src ctx).2 = { ctx with oshdr } ∧ Confined ctx.oshdr oshdr := by
  unfold programHdr
  rcases cfProgram_cases ctx.oshdr off src with ⟨status, failed, ran⟩ | ⟨ran, inside, _⟩
  · rw [ran]
    cases status with
    | ok => exact absurd rfl failed
    | param => exact ⟨_, rfl, .refl _⟩
    | range => exact ⟨_, rfl, .refl _⟩
    | align => exact ⟨_, rfl, .refl _⟩
    | notErased => exact ⟨_, rfl, .refl _⟩
  · rw [ran]
    exact ⟨_, rfl, confined_write inside⟩

theorem doVerify_header (data : List UInt8) (ctx : BootCtx) :
    ∃ oshdr, (doVerify data ctx).2 = { ctx with oshdr } ∧ Confined ctx.oshdr oshdr := by
  have kept : ∃ oshdr, ctx = { ctx with oshdr } ∧ Confined ctx.oshdr oshdr := ⟨_, rfl, .refl _⟩
  unfold doVerify
  repeat' split
  all_goals first
    | exact kept
    | skip
  dsimp only
  repeat' split
  all_goals first
    | exact kept
    | exact programHdr_confined _ _ _

theorem doActivate_header (ctx : BootCtx) :
    ∃ oshdr, (doActivate ctx).2 = { ctx with oshdr } ∧ Confined ctx.oshdr oshdr := by
  unfold doActivate
  split
  · exact ⟨_, rfl, .refl _⟩
  · exact ⟨_, rfl, .refl _⟩
  · exact ⟨_, rfl, .refl _⟩
  · exact programHdr_confined _ _ _

/-- No command stores outside the two regions. -/
theorem bootHandle_confined (ctx : BootCtx) (cmd : List UInt8) (rspCap : UInt32) :
    Confined ctx.osflash (bootHandle cmd rspCap ctx).2.osflash ∧
      Confined ctx.oshdr (bootHandle cmd rspCap ctx).2.oshdr := by
  have handled := bootHandle_handled ctx cmd rspCap
  generalize bootHandle cmd rspCap ctx = result at handled ⊢
  cases handled with
  | kept reply granted => exact ⟨.refl _, .refl _⟩
  | erase =>
    unfold replyWord
    rcases doErase_cases ctx with ran | ⟨ran, _⟩ | ⟨ran, _⟩
    · rw [ran]
      exact ⟨.refl _, .refl _⟩
    · rw [ran]
      exact ⟨.refl _, confined_fill _ _⟩
    · rw [ran]
      exact ⟨confined_fill _ _, confined_fill _ _⟩
  | load data highWater loads => exact ⟨confined_write loads.inside, .refl _⟩
  | verify data =>
    obtain ⟨oshdr, ran, confined⟩ := doVerify_header data ctx
    unfold replyWord
    rw [ran]
    exact ⟨.refl _, confined⟩
  | activate =>
    obtain ⟨oshdr, ran, confined⟩ := doActivate_header ctx
    unfold replyWord
    rw [ran]
    exact ⟨.refl _, confined⟩

/-- A command that is answered 9000 was dispatched. -/
theorem answersOk_dispatched (ok : answersOk rspCap ctx cmd = true) :
    cmd.getD 0 0 = bootCla ∧ ∃ data, bodyOf cmd = some data ∧ bootHandle cmd rspCap ctx =
      bootDispatch (cmd.getD 1 0) (cmd.getD 2 0) (cmd.getD 3 0) data rspCap ctx := by
  rw [answersOk, decide_eq_true_eq] at ok
  by_cases short : cmd.length < 4
  · rw [bootHandle, if_pos short] at ok
    exact absurd (show swWrongLength = swOk from ok) (by decide)
  by_cases cla : cmd.getD 0 0 = bootCla
  · cases body : bodyOf cmd with
    | none =>
      rw [bootHandle, if_neg short, if_neg (not_not.mpr cla), body] at ok
      exact absurd (show swWrongLength = swOk from ok) (by decide)
    | some data => exact ⟨cla, data, rfl, by rw [bootHandle, if_neg short, if_neg (not_not.mpr cla), body]⟩
  · rw [bootHandle, if_neg short, if_pos cla] at ok
    exact absurd (show swClaNotSup = swOk from ok) (by decide)

private theorem plainly_ok {p1 p2 : UInt8} {data : List UInt8} {act : BootReply × BootCtx}
    (ok : (plainly p1 p2 data ctx act).1.sw = swOk) : plainly p1 p2 data ctx act = act := by
  unfold plainly at ok ⊢
  split at ok
  · exact absurd (show swWrongLength = swOk from ok) (by decide)
  split at ok
  · exact absurd (show swWrongP1P2 = swOk from ok) (by decide)
  · rename_i empty plain
    rw [if_neg empty, if_neg plain]

/-- An ERASE that is answered 9000 has wiped both regions. -/
theorem erase_done (ins : cmd.getD 1 0 = bootInsErase) (ok : answersOk rspCap ctx cmd = true) :
    (bootHandle cmd rspCap ctx).2 = { ctx with
      oshdr := ctx.oshdr.fill 0 ctx.oshdr.size.toNat 0xFF
      osflash := ctx.osflash.fill 0 ctx.osflash.size.toNat 0xFF, erased := true, highWater := 0 } := by
  obtain ⟨_, data, _, dispatched⟩ := answersOk_dispatched ok
  rw [answersOk, decide_eq_true_eq, dispatched, ins] at ok
  have erases : bootDispatch bootInsErase (cmd.getD 2 0) (cmd.getD 3 0) data rspCap ctx =
      plainly (cmd.getD 2 0) (cmd.getD 3 0) data ctx (replyWord (doErase ctx)) := rfl
  rw [erases] at ok
  have ran := plainly_ok ok
  rw [ran] at ok
  rw [dispatched, ins, erases, ran]
  rcases doErase_cases ctx with failed | ⟨failed, _⟩ | ⟨done, _⟩
  · rw [failed] at ok
    exact absurd (show swMemoryFailure = swOk from ok) (by decide)
  · rw [failed] at ok
    exact absurd (show swMemoryFailure = swOk from ok) (by decide)
  · rw [done]
    rfl

/-- A LOAD BLOCK that is answered 9000 passed every check. -/
theorem load_done (ins : cmd.getD 1 0 = bootInsLoad) (ok : answersOk rspCap ctx cmd = true) :
    Loads ctx cmd (cmd.drop 5) := by
  obtain ⟨cla, data, body, dispatched⟩ := answersOk_dispatched ok
  rw [answersOk, decide_eq_true_eq, dispatched, ins] at ok
  have loads : bootDispatch bootInsLoad (cmd.getD 2 0) (cmd.getD 3 0) data rspCap ctx =
      if data.length = 0 then (.word swWrongLength, ctx)
      else replyWord (doLoad (cmd.getD 2 0) (cmd.getD 3 0) data ctx) := rfl
  rw [loads] at ok
  split at ok
  · exact absurd (show swWrongLength = swOk from ok) (by decide)
  rcases doLoad_cases cla ins body with ⟨_, sw, refused, ran⟩ | ⟨loads, _⟩
  · rw [ran] at ok
    exact absurd ok refused
  · have long := loads.length
    have body := loads.body
    rw [bodyOf, if_pos (by omega)] at body
    split at body
    · cases body
    · cases body
      exact loads

/-- Every other command leaves OSFLASH and the high water mark alone. -/
theorem other_kept (ctx : BootCtx) (rspCap : UInt32) (notErase : cmd.getD 1 0 ≠ bootInsErase)
    (notLoad : cmd.getD 1 0 ≠ bootInsLoad) : ∃ oshdr, (bootHandle cmd rspCap ctx).2 = { ctx with oshdr } := by
  have kept : ∃ oshdr, ctx = { ctx with oshdr } := ⟨_, rfl⟩
  have plain : ∀ {p1 p2 data} {act : BootReply × BootCtx}, (∃ oshdr, act.2 = { ctx with oshdr }) →
      ∃ oshdr, (plainly p1 p2 data ctx act).2 = { ctx with oshdr } := by
    intro p1 p2 data act acts
    unfold plainly
    split
    · exact kept
    split
    · exact kept
    · exact acts
  unfold bootHandle
  split
  · exact kept
  split
  · exact kept
  cases bodyOf cmd with
  | none => exact kept
  | some data =>
    dsimp only
    unfold bootDispatch
    rw [if_neg notErase, if_neg notLoad]
    split
    · exact plain kept
    split
    · split
      · exact kept
      split
      · exact kept
      · exact (doVerify_header data ctx).imp fun _ ran => ran.1
    split
    · exact plain ((doActivate_header ctx).imp fun _ ran => ran.1)
    split
    · exact plain kept
    · exact kept

/-- A refused command leaves OSFLASH and the high water mark alone. -/
theorem refused_kept (refused : answersOk rspCap ctx cmd = false) :
    ∃ oshdr, (bootHandle cmd rspCap ctx).2 = { ctx with oshdr } := by
  rw [answersOk, decide_eq_false_iff_not] at refused
  have handled := bootHandle_handled ctx cmd rspCap
  generalize bootHandle cmd rspCap ctx = result at handled refused ⊢
  cases handled with
  | kept reply granted => exact ⟨_, rfl⟩
  | erase =>
    rcases doErase_cases ctx with ran | ⟨ran, _⟩ | ⟨ran, _⟩
    · exact ⟨_, congrArg Prod.snd ran⟩
    · exact ⟨_, congrArg Prod.snd ran⟩
    · exact absurd (congrArg Prod.fst ran) refused
  | load data highWater loads => exact absurd rfl refused
  | verify data => exact (doVerify_header data ctx).imp fun _ ran => ran.1
  | activate => exact (doActivate_header ctx).imp fun _ ran => ran.1

private theorem wiped_assembled {ctx' : BootCtx}
    (osflash : ctx'.osflash = ctx.osflash.fill 0 ctx.osflash.size.toNat 0xFF)
    (highWater : ctx'.highWater = 0) : Assembled ctx' [] where
  bytes i inside := by
    rw [osflash] at inside ⊢
    exact if_pos ⟨Nat.zero_le i, by rwa [Nat.zero_add]⟩
  highWater := by rw [highWater]; rfl

private theorem kept_assembled {oshdr : Region} (assembled : Assembled ctx blocks) :
    Assembled { ctx with oshdr } blocks := ⟨assembled.bytes, assembled.highWater⟩

private theorem loaded_assembled {data : List UInt8} (assembled : Assembled ctx blocks) (loads : Loads ctx cmd data) :
    Assembled { ctx with osflash := reloadedImage ctx cmd data, highWater := raisedWater ctx cmd data }
      (blocks ++ [⟨blockOffset cmd, data⟩]) where
  bytes i inside := by
    have bound : i < ctx.osflash.size.toNat := by simpa [reloadedImage] using inside
    rw [Block.imageAt_concat]
    by_cases covered : (Block.mk (blockOffset cmd) data).covers i = true
    · obtain ⟨above, below⟩ := Block.covers_iff.mp covered
      obtain ⟨k, rfl⟩ := Nat.exists_eq_add_of_le above
      have within : k < data.length := by simpa using below
      rw [if_pos covered, reloadedImage, Region.byte_write_inside within]
      simp [within]
    · have outside : i < blockOffset cmd ∨ blockOffset cmd + data.length ≤ i := by
        rw [Block.covers_iff] at covered
        dsimp only at covered
        omega
      rw [if_neg covered, reloadedImage, Region.byte_write_outside outside]
      exact assembled.bytes i bound
  highWater := by
    have inside := loads.inside
    have bound := ctx.osflash.size.toNat_lt
    have stop : (UInt32.ofNat (blockOffset cmd + data.length)).toNat = blockOffset cmd + data.length :=
      UInt32.toNat_ofNat_of_lt' (show _ < 2 ^ 32 by omega)
    rw [Block.reach_concat, ← assembled.highWater, Block.stop, raisedWater]
    dsimp only
    split
    · rw [stop]
      omega
    · omega

/-- One command carries the image on. -/
theorem step_assembled (assembled : Assembled ctx blocks) (cmd : List UInt8) :
    Assembled (bootHandle cmd rspCap ctx).2 (recordBlock rspCap ctx blocks cmd) := by
  unfold recordBlock
  split
  · rename_i refused
    obtain ⟨oshdr, ran⟩ := refused_kept (Bool.not_eq_true' _ ▸ refused)
    rw [ran]
    exact kept_assembled assembled
  rename_i ok
  have ok : answersOk rspCap ctx cmd = true := by simpa using ok
  split
  · rename_i erase
    rw [erase_done erase ok]
    exact wiped_assembled rfl rfl
  split
  · rename_i load
    have loads := load_done load ok
    rw [bootHandle_loads rspCap loads]
    exact loaded_assembled assembled loads
  · rename_i notErase notLoad
    obtain ⟨oshdr, ran⟩ := other_kept ctx rspCap notErase notLoad
    rw [ran]
    exact kept_assembled assembled

end Commands

section Runs
variable {ctx : BootCtx} {blocks : List (Block UInt8)}

theorem run_assembled (assembled : Assembled ctx blocks) (cmds : List (List UInt8)) (rspCap : UInt32) :
    Assembled (bootRun ctx cmds rspCap) (acceptedBlocks rspCap ctx blocks cmds) := by
  induction cmds generalizing ctx blocks with
  | nil => exact assembled
  | cons cmd rest ih => exact ih (step_assembled assembled cmd)

theorem run_confined (ctx : BootCtx) (cmds : List (List UInt8)) (rspCap : UInt32) :
    Confined ctx.osflash (bootRun ctx cmds rspCap).osflash ∧ Confined ctx.oshdr (bootRun ctx cmds rspCap).oshdr := by
  induction cmds generalizing ctx with
  | nil => exact ⟨.refl _, .refl _⟩
  | cons cmd rest ih =>
    obtain ⟨osflash, oshdr⟩ := bootHandle_confined ctx cmd rspCap
    obtain ⟨osflash', oshdr'⟩ := ih (bootHandle cmd rspCap ctx).2
    exact ⟨osflash.trans osflash', oshdr.trans oshdr'⟩

/-- From any state, after an ERASE that was answered 9000 and any further
commands: every byte of OSFLASH is the one the latest accepted block brought
there, or erased, the high water mark is where the accepted blocks end, and no
command has stored outside the two regions. -/
theorem image_is_accepted_blocks (ctx : BootCtx) (erase : List UInt8) (cmds : List (List UInt8)) (rspCap : UInt32)
    (ins : erase.getD 1 0 = bootInsErase) (ok : (bootHandle erase rspCap ctx).1.sw = swOk) :
    let blocks := acceptedBlocks rspCap (bootHandle erase rspCap ctx).2 [] cmds
    let after := bootRun ctx (erase :: cmds) rspCap
    (∀ i < after.osflash.size.toNat, after.osflash.byte i = Block.imageAt 0xFF blocks i) ∧
      after.highWater.toNat = Block.reach blocks ∧ Confined ctx.osflash after.osflash ∧
      Confined ctx.oshdr after.oshdr := by
  have start : Assembled (bootHandle erase rspCap ctx).2 [] := by
    rw [erase_done ins (decide_eq_true ok)]
    exact wiped_assembled rfl rfl
  have assembled := run_assembled start cmds rspCap
  exact ⟨assembled.bytes, assembled.highWater, run_confined ctx (erase :: cmds) rspCap⟩

/-- A block loaded twice, the second time clearing bits of the first. -/
def loadedTwice : List (List UInt8) :=
  [[0x80, 0x54, 0x00, 0x00, 0x02, 0x3C, 0xF0], [0x80, 0x54, 0x00, 0x00, 0x01, 0x0C],
    [0x80, 0x54, 0x00, 0x00, 0x01, 0xFF]]

theorem image_is_accepted_blocks_loaded_twice :
    let ctx := blankSlot 16 16 16 0x2000 0x20000000 16384
    let after := bootRun ctx ([0x80, 0x0E, 0x00, 0x00, 0x00] :: loadedTwice) 16
    (bootHandle [0x80, 0x0E, 0x00, 0x00, 0x00] 16 ctx).1.sw = swOk ∧ after.osflash.byte 0 = 0x0C ∧
      after.osflash.byte 1 = 0xF0 ∧ after.highWater.toNat = 2 := by
  intro ctx after
  have ok : (bootHandle [0x80, 0x0E, 0x00, 0x00, 0x00] 16 ctx).1.sw = swOk := by decide +kernel
  obtain ⟨bytes, highWater, _⟩ :=
    image_is_accepted_blocks ctx [0x80, 0x0E, 0x00, 0x00, 0x00] loadedTwice 16 (by decide) ok
  have blocks : acceptedBlocks 16 (bootHandle [0x80, 0x0E, 0x00, 0x00, 0x00] 16 ctx).2 [] loadedTwice =
      [⟨0, [0x3C, 0xF0]⟩, ⟨0, [0x0C]⟩] := by decide +kernel
  rw [blocks] at bytes highWater
  exact ⟨ok, bytes 0 (by decide +kernel), bytes 1 (by decide +kernel), highWater⟩

end Runs
end CardOs.ImageProofs
