import CardOs.BootSession
import CardOs.ProgrammingProofs
import CardOs.SessionProofs

/-! A board over its life. It comes with nothing in its slot, is programmed over its UART
with the script that the host tool writes, is used, and is recycled. As often as its strap
and its slot let it, it shows the lines of the loader and then those of the file service,
and the files of the card outlast the program that serves them. -/
namespace CardOs.BoardProofs
open CardOs.Library CardOs.Library.BigEndian CardOs.BootLoader CardOs.BootRom CardOs.LoaderScript CardOs.BootProofs
open CardOs.ProgrammingProofs CardOs.Transport CardOs.CardLoop CardOs.LoopProofs CardOs.FileService CardOs.PowerSession
open CardOs.SessionProofs CardOs.BootSession

section Loop
variable {ctx : BootCtx} {dirty : Bool} {host : Option BoardFiles} {link link' : Link} {r : Received}

theorem rom_speaks : Speaks (scv1 romAtr) 133 romAtr := scv1_speaks romAtr (by decide) (by decide)

/-- How the loader goes on with what it got. -/
def looped (ctx : BootCtx) (dirty : Bool) (host : Option BoardFiles) (link : Link) : Received → RomExit
  | .linkDown => .closed (slotFlush ctx dirty host).2 link
  | .reset =>
    let flushed := slotFlush ctx dirty host
    if !bootselAsserted flushed.2 ∧ (bootSlotCheck ctx.oshdr ctx.osflash).1 = .active then
      .jumped ctx.oshdr ctx.osflash flushed.2 link
    else BootSession.loaderLoop { ctx with erased := false, highWater := 0 } flushed.1 flushed.2 link
  | .waiting => .waiting host link
  | .param => .spinning host link
  | .command cmd =>
    let ran := bootHandle cmd bootStatusRspLen ctx
    let dirty := dirty || ran.1.sw = swOk
    let link := (scv1 romAtr).send (replyBytes ran.1) link
    if ran.1.action = .restart then .jumped ran.2.oshdr ran.2.osflash (slotFlush ran.2 dirty host).2 link
    else BootSession.loaderLoop ran.2 dirty host link

theorem rom_got (got : (scv1 romAtr).receive 133 link = (r, link')) :
    BootSession.loaderLoop ctx dirty host link = looped ctx dirty host link' r := by
  rw [BootSession.loaderLoop]
  split <;> rename_i got' <;> cases got'.symm.trans got <;> rfl

theorem rom_congr (same : (scv1 romAtr).receive 133 link = (scv1 romAtr).receive 133 link') :
    BootSession.loaderLoop ctx dirty host link = BootSession.loaderLoop ctx dirty host link' := by
  rcases got : (scv1 romAtr).receive 133 link' with ⟨r, rest⟩
  rw [rom_got got, rom_got (same.trans got)]

/-- One command: it is handled and answered. -/
theorem rom_command {cmd : List UInt8} (content : 1 ≤ cmd.length) (fits : cmd.length ≤ 133) (rest out : List UInt8) :
    BootSession.loaderLoop ctx dirty host ⟨apduLine cmd ++ 0x0A :: rest, out⟩ =
      looped ctx dirty host ⟨rest, out⟩ (.command cmd) := by
  have got := rom_speaks.command cmd rest out content fits
  rw [hexLine, List.append_assoc] at got
  exact rom_got got

end Loop

/-! The loop and `main` of `boot_main.c` were modelled without files and text before; with
them they do the same on the events that come over the UART. -/

/-- The events that `loader_loop` sees on the UART, whatever it answers, and the link behind them. -/
inductive Sees (strap : Bool) : Link → List LinkEvent → Link → Prop
  | nothing (link : Link) : Sees strap link [] link
  | reset {link next rest : Link} {events : List LinkEvent} (got : (scv1 romAtr).receive 133 link = (.reset, next))
      (later : Sees strap next events rest) : Sees strap link (.reset strap :: events) rest
  | apdu {link next rest : Link} {events : List LinkEvent} {cmd : List UInt8} (answer : List UInt8)
      (got : (scv1 romAtr).receive 133 link = (.command cmd, next))
      (later : Sees strap ((scv1 romAtr).send answer next) events rest) : Sees strap link (.apdu cmd :: events) rest
  | down {link next : Link} (got : (scv1 romAtr).receive 133 link = (.linkDown, next)) :
      Sees strap link [.linkDown] next

/-- The boot ROM with its files and its UART ended as the boot ROM on its events did. -/
def EndsAs (rest : Link) : Rom → RomExit → Prop
  | .jumped oshdr osflash, .jumped oshdr' osflash' _ link => oshdr' = oshdr ∧ osflash' = osflash ∧ link = rest
  | .stopped, .closed _ link => link = rest
  | .loader _, .waiting _ link => (scv1 romAtr).receive 133 rest = (.waiting, link)
  | .loader _, .spinning _ link => (scv1 romAtr).receive 133 rest = (.param, link)
  | _, _ => False

section Rom

private theorem takeHex_short {cap : UInt32} {st : Scv1.LineState} (c : UInt8) (short : st.bytes.length ≤ cap.toNat) :
    (Scv1.takeHex cap st c).bytes.length ≤ cap.toNat := by
  unfold Scv1.takeHex
  split
  · exact short
  split
  · exact short
  split
  · exact short
  split
  · exact short
  · rename_i room
    simp only [List.length_append, List.length_singleton]
    omega

private theorem scanLine_short {cap : UInt32} {st st' : Scv1.LineState} {input rest : List UInt8}
    (short : st.bytes.length ≤ cap.toNat) (scanned : Scv1.scanLine cap st input = some (st', rest)) :
    st'.bytes.length ≤ cap.toNat := by
  induction input generalizing st with
  | nil => cases scanned
  | cons c input ih =>
    rw [Scv1.scanLine] at scanned
    split at scanned
    · cases scanned
      exact short
    · refine ih ?_ scanned
      unfold Scv1.takeChar
      dsimp only
      generalize (if st.seen = 0 then c = 0x2E || c = 0x23 else st.isControl) = isControl
      split
      · split <;> exact short
      · exact takeHex_short c short

/-- A command never outgrows the buffer it is received in. -/
theorem scv1_command_short (atr : List UInt8) (cap : UInt32) (link : Link) :
    ∀ cmd, (Scv1.halCardReceive atr cap link).1 = .command cmd → cmd.length ≤ cap.toNat := by
  fun_induction Scv1.halCardReceive atr cap link with
  | case11 =>
    rintro _ ⟨⟩
    exact scanLine_short (Nat.zero_le _) ‹_›
  | case1 | case2 | case5 | case7 =>
    intro _ got
    cases got
  | case3 | case4 | case6 | case8 | case9 | case10 =>
    rename_i ih
    exact ih

private theorem bootsel_flushed (ctx : BootCtx) (dirty : Bool) (host : Option BoardFiles) :
    bootselAsserted (slotFlush ctx dirty host).2 = bootselAsserted host := by
  cases host with
  | none => rfl
  | some files => cases dirty <;> rfl

/-- The loop over its events. -/
theorem loaderLoop_sees (ctx : BootCtx) (dirty : Bool) (host : Option BoardFiles) (link : Link) :
    ∃ events rest, Sees (bootselAsserted host) link events rest ∧
      EndsAs rest (events.foldl romStep (.loader ctx)) (BootSession.loaderLoop ctx dirty host link) := by
  induction size : link.input.length using Nat.strongRecOn generalizing ctx dirty host link with
  | ind n ih =>
    subst size
    rcases got : (scv1 romAtr).receive 133 link with ⟨r, next⟩
    rw [rom_got got]
    cases r with
    | linkDown => exact ⟨_, _, .down got, rfl⟩
    | waiting => exact ⟨[], link, .nothing link, got⟩
    | param => exact ⟨[], link, .nothing link, got⟩
    | reset =>
      have strap := bootsel_flushed ctx dirty host
      unfold looped
      dsimp only
      rw [strap]
      by_cases jumps : (!bootselAsserted host) = true ∧ (bootSlotCheck ctx.oshdr ctx.osflash).1 = .active
      · rw [if_pos jumps]
        refine ⟨[.reset (bootselAsserted host)], next, .reset got (.nothing next), ?_⟩
        simp [romStep, BootRom.loaderLoop, jumps, EndsAs]
      · rw [if_neg jumps]
        obtain ⟨events, rest, sees, ends⟩ := ih _ (CardHal.shorter got rfl) { ctx with erased := false, highWater := 0 }
          (slotFlush ctx dirty host).1 (slotFlush ctx dirty host).2 next rfl
        rw [strap] at sees
        refine ⟨_, rest, .reset got sees, ?_⟩
        rw [List.foldl_cons, romStep, BootRom.loaderLoop, if_neg jumps]
        exact ends
    | command cmd =>
      have fits : ¬ cmd.length > cmdCapacity :=
        Nat.not_lt.mpr (scv1_command_short romAtr 133 link cmd (congrArg Prod.fst got))
      unfold looped
      dsimp only
      by_cases restarts : (bootHandle cmd bootStatusRspLen ctx).1.action = .restart
      · rw [if_pos restarts]
        refine ⟨[.apdu cmd], _, .apdu (replyBytes (bootHandle cmd bootStatusRspLen ctx).1) got (.nothing _), ?_⟩
        simp [romStep, BootRom.loaderLoop, fits, restarts, EndsAs]
      · rw [if_neg restarts]
        obtain ⟨events, rest, sees, ends⟩ := ih _ (by rw [CardHal.sends]; exact CardHal.shorter got rfl)
          (bootHandle cmd bootStatusRspLen ctx).2 (dirty || (bootHandle cmd bootStatusRspLen ctx).1.sw = swOk) host
          ((scv1 romAtr).send (replyBytes (bootHandle cmd bootStatusRspLen ctx).1) next) rfl
        refine ⟨_, rest, .apdu _ got sees, ?_⟩
        rw [List.foldl_cons, romStep, BootRom.loaderLoop, if_neg fits]
        dsimp only
        rw [if_neg restarts]
        exact ends

/-- The boot ROM with its files and its UART is the boot ROM on the slot that the files
give it and on the events that come over the UART. -/
theorem romMain_runs (host : Option BoardFiles) (memory : Scv1.Memory) (link : Link) :
    ∃ out events rest, Sees (bootselAsserted host) ⟨link.input, link.output ++ out⟩ events rest ∧
      EndsAs rest (romRun (slotPowerOn host memory) (bootselAsserted host) events) (romMain host memory link) := by
  rcases checked : bootSlotCheck (slotPowerOn host memory).header (slotPowerOn host memory).image with ⟨st, h⟩
  rw [romMain, checked]
  dsimp only
  split
  · rename_i jumps
    refine ⟨starting, [], _, .nothing _, ?_⟩
    rw [romRun, List.foldl_nil, main, checked]
    dsimp only
    rw [if_pos jumps]
    exact ⟨rfl, rfl, rfl⟩
  · rename_i stays
    obtain ⟨events, rest, sees, ends⟩ := loaderLoop_sees (bootCtxInit (slotPowerOn host memory).image
      (slotPowerOn host memory).header scv1CflashPage scv1OsflashBase scv1SramBase scv1SramSize) false host
      ⟨link.input, link.output ++ BootSession.romBanner st h (bootselAsserted host) host.isSome⟩
    refine ⟨_, events, rest, sees, ?_⟩
    rw [romRun, main, checked]
    dsimp only
    rw [if_neg stays]
    exact ends

private theorem EndsAs.jump {rest link : Link} {rom : Rom} {oshdr osflash : Region} {host : Option BoardFiles}
    (ends : EndsAs rest rom (.jumped oshdr osflash host link)) : rom = .jumped oshdr osflash := by
  cases rom with
  | jumped oshdr' osflash' =>
    obtain ⟨rfl, rfl, -⟩ := ends
    rfl
  | loader ctx => exact ends.elim
  | stopped => exact ends.elim

/-- So a board hands over to a plausible image if the slot it finds is vouched for and no
LOAD BLOCK that comes over its UART collides. -/
theorem romMain_hands_over_safely {host host' : Option BoardFiles} {memory : Scv1.Memory} {link link' : Link}
    {oshdr osflash : Region} (start : Vouched (BootRomProofs.slotCtx (slotPowerOn host memory)))
    (apart : ∀ out events rest, Sees (bootselAsserted host) ⟨link.input, link.output ++ out⟩ events rest →
      ∀ before event after, events = before ++ event :: after →
        ¬ BootRomProofs.CollidesAt (romRun (slotPowerOn host memory) (bootselAsserted host) before) event)
    (jumps : romMain host memory link = .jumped oshdr osflash host' link') :
    BootRomProofs.HandsOverSafely (.jumped oshdr osflash) := by
  obtain ⟨out, events, rest, sees, ends⟩ := romMain_runs host memory link
  have sound := BootRomProofs.run_sound start (apart out events rest sees)
  rw [jumps] at ends
  rw [ends.jump] at sound
  exact BootRomProofs.sound_safe sound

end Rom

/-- A line that the loader skips. -/
def Note (line : List UInt8) : Prop :=
  line.head? = some 0x23 ∧ (∀ c ∈ line, c ≠ 0x0A ∧ c ≠ 0x0D ∧ c ≠ 0x00) ∧ line.length < 2047

instance (line : List UInt8) : Decidable (Note line) :=
  haveI : Decidable (∀ c ∈ line, c ≠ 0x0A ∧ c ≠ 0x0D ∧ c ≠ 0x00) := List.decidableBAll _ line
  inferInstanceAs (Decidable (_ ∧ _ ∧ _))

/-- The lines of a script spell these commands, with notes and blank lines among them. -/
inductive Spells : List (List UInt8) → List (List UInt8) → Prop where
  | nil : Spells [] []
  | blank {lines cmds : List (List UInt8)} (rest : Spells lines cmds) : Spells ([] :: lines) cmds
  | note {line : List UInt8} {lines cmds : List (List UInt8)} (note : Note line) (rest : Spells lines cmds) :
      Spells (line :: lines) cmds
  | apdu {cmd : List UInt8} {lines cmds : List (List UInt8)} (content : 1 ≤ cmd.length) (fits : cmd.length ≤ 133)
      (rest : Spells lines cmds) : Spells (apduLine cmd :: lines) (cmd :: cmds)

section Scripts
variable {lines lines' cmds cmds' : List (List UInt8)} {ctx : BootCtx} {host : Option BoardFiles}

theorem Spells.append (spells : Spells lines cmds) (more : Spells lines' cmds') :
    Spells (lines ++ lines') (cmds ++ cmds') := by
  induction spells with
  | nil => exact more
  | blank _ ih => exact .blank ih
  | note line _ ih => exact .note line ih
  | apdu content fits _ ih => exact .apdu content fits ih

/-- What the loader sends for a list of commands. -/
def replyLines (replies : List BootReply) : List UInt8 := replies.flatMap fun reply => hexLine (replyBytes reply)

/-- A script whose commands do not restart the chip leaves the loader behind it, with the
commands done and answered. -/
theorem rom_script (spells : Spells lines cmds) (dirty : Bool) (rest out : List UInt8)
    (stays : ∀ reply ∈ bootReplies ctx bootStatusRspLen cmds, reply.action = .none) :
    BootSession.loaderLoop ctx dirty host ⟨ldrFile lines ++ rest, out⟩ =
      BootSession.loaderLoop (bootRun ctx cmds bootStatusRspLen)
        (dirty || (bootReplies ctx bootStatusRspLen cmds).any fun reply => reply.sw = swOk) host
        ⟨rest, out ++ replyLines (bootReplies ctx bootStatusRspLen cmds)⟩ := by
  induction spells generalizing ctx dirty out with
  | nil => simp [ldrFile, bootRun, bootReplies, replyLines]
  | blank _ ih =>
    rw [← ih dirty out stays, ldrFile, List.flatMap_cons, List.append_assoc]
    exact rom_congr (rom_speaks.blank _ out)
  | @note line lines cmds note _ ih =>
    obtain ⟨first, plain, short⟩ := note
    obtain ⟨text, rfl⟩ : ∃ text, line = 0x23 :: text := by
      cases line with
      | nil => cases first
      | cons c text => exact ⟨text, by cases first; rfl⟩
    rw [← ih dirty out stays, ldrFile, List.flatMap_cons, List.append_assoc, List.append_assoc]
    exact rom_congr
      (rom_speaks.comment text _ out (fun c member => plain c (.tail _ member)) (Nat.lt_of_succ_lt_succ short))
  | @apdu cmd lines cmds content fits _ ih =>
    obtain ⟨here, later⟩ := List.forall_mem_cons.mp stays
    rw [ldrFile, List.flatMap_cons, List.append_assoc, List.append_assoc, List.singleton_append,
      rom_command content fits, looped, if_neg (by rw [here]; decide), rom_speaks.send, ← ldrFile, ih _ _ later,
      Bool.or_assoc, List.append_assoc]
    rfl

end Scripts

section Texts
variable {image : List UInt8}

/-- A character that does not end a line. -/
private abbrev Plain (c : UInt8) : Prop := c ≠ 0x0A ∧ c ≠ 0x0D ∧ c ≠ 0x00

private theorem pyDecimal_plain (n : Nat) : ∀ c ∈ pyDecimal n, Plain c := by
  have digit : ∀ d < 10, Plain (0x30 + UInt8.ofNat d) := by decide
  induction n using pyDecimal.induct with
  | case1 n small =>
    rw [pyDecimal, if_pos small, List.forall_mem_singleton]
    exact digit n small
  | case2 n large ih =>
    rw [pyDecimal, if_neg large, List.forall_mem_append, List.forall_mem_singleton]
    exact ⟨ih, digit _ (Nat.mod_lt _ (by decide))⟩

private theorem pyDecimal_length {k n : Nat} (small : n < 10 ^ (k + 1)) : (pyDecimal n).length ≤ k + 1 := by
  induction k generalizing n with
  | zero =>
    rw [pyDecimal, if_pos (show n < 10 from small)]
    exact Nat.le_refl 1
  | succ k ih =>
    rw [pyDecimal]
    split
    · exact Nat.le_add_left ..
    · rw [List.length_append, List.length_singleton]
      exact Nat.succ_le_succ (ih (Nat.div_lt_of_lt_mul (by rwa [← Nat.pow_succ'])))

private theorem apduLine_plain (bytes : List UInt8) : ∀ c ∈ apduLine bytes, Plain c := by
  have digits : ∀ n < 256, (Transport.Sim.printHex (UInt8.ofNat n)).all (fun c => Plain c) = true := by decide +kernel
  intro c member
  obtain ⟨b, -, there⟩ := List.mem_flatMap.mp member
  refine of_decide_eq_true (List.all_eq_true.mp (digits b.toNat b.toNat_lt) c ?_)
  rwa [UInt8.ofNat_toNat]

private theorem apduLine_length (bytes : List UInt8) : (apduLine bytes).length = 2 * bytes.length := by
  simp [apduLine, Transport.Sim.printHex, List.length_flatMap, Nat.mul_comm]

/-- A note with something plain put into it. -/
private theorem note_around {before middle after : List UInt8} (note : Note (before ++ after)) (first : before ≠ [])
    (plain : ∀ c ∈ middle, Plain c) (short : (before ++ after).length + middle.length < 2047) :
    Note (before ++ middle ++ after) := by
  obtain ⟨head, others, -⟩ := note
  obtain ⟨c, rest, rfl⟩ := List.exists_cons_of_ne_nil first
  refine ⟨head, ?_, by simp only [List.length_append] at *; omega⟩
  simp only [List.forall_mem_append] at others ⊢
  exact ⟨⟨others.1, plain⟩, others.2⟩

/-- A line of printable text behind a hash. The text is looked at as characters, without
going through its bytes. -/
private theorem note_text (text : List Char) (hash : text.head? = some '#')
    (printable : (text.all fun c => 32 ≤ c.toNat && c.toNat < 127) = true) (short : text.length < 2047) :
    Note (chars (String.ofList text)) := by
  have bytes : chars (String.ofList text) = text.map fun c => UInt8.ofNat c.toNat := by
    rw [chars, String.toList_ofList]
  rw [bytes]
  refine ⟨?_, ?_, by rwa [List.length_map]⟩
  · rw [List.head?_map, hash]
    rfl
  · intro b member
    obtain ⟨c, there, rfl⟩ := List.mem_map.mp member
    have range := List.all_eq_true.mp printable c there
    simp only [Bool.and_eq_true, decide_eq_true_eq] at range
    have value : (UInt8.ofNat c.toNat).toNat = c.toNat := UInt8.toNat_ofNat_of_lt' (show _ < 2 ^ 8 by omega)
    refine ⟨?_, ?_, ?_⟩
    all_goals
      intro same
      rw [same] at value
      simp only [UInt8.reduceToNat] at value
      omega

theorem recycle_spells : Spells genRecycleLines [apdu 0x80 0xF2 0 0 [], cmdErase, apdu 0x80 0xF2 0 0 []] := by
  refine .note ?_ <| .note ?_ <| .note ?_ <| .note ?_ <| .note ?_ <| .note ?_ <| .note ?_ <| .note ?_ <| .note ?_ <|
    .blank <| .note ?_ <| .apdu ?_ ?_ <| .blank <| .note ?_ <| .apdu ?_ ?_ <| .blank <| .note ?_ <| .apdu ?_ ?_ .nil
  all_goals first | exact note_text _ rfl rfl (by decide) | decide

private theorem blocks_spell (image : List UInt8) {n : Nat} (within : n ≤ blockCount image) :
    Spells ((List.range n).map fun i => apduLine (loadBlock image i)) ((List.range n).map (loadBlock image)) := by
  induction n with
  | zero => exact .nil
  | succ n ih =>
    rw [List.range_succ, List.map_append, List.map_append]
    have length := chunk_length image n
    refine (ih (Nat.le_of_succ_le within)).append (.apdu ?_ ?_ .nil)
    · rw [loadBlock_eq within]
      exact Nat.succ_pos _
    · rw [loadBlock_eq within, List.length_append, length]
      simp only [List.length_cons, List.length_nil]
      omega

private theorem head_spells (fits : image.length ≤ 56320) (crc : UInt16) :
    Spells (osHeadLines image (bytes16 crc)) [cmdErase] := by
  have length : (pyDecimal image.length).length ≤ 5 := pyDecimal_length (show _ < 10 ^ 5 by omega)
  have count : (pyDecimal (blockCount image)).length ≤ 5 := by
    refine pyDecimal_length (show _ < 10 ^ 5 from ?_)
    rw [blockCount, block]
    omega
  have checksum : (apduLine (bytes16 crc)).length = 4 := apduLine_length _
  refine .note ?_ <| .note ?_ <| .note ?size <| .note ?crc <| .note ?blocks <| .note ?_ <| .note ?_ <| .note ?_ <|
    .blank <| .note ?_ <| .apdu ?_ ?_ <| .blank <| .note ?_ <| .note ?_ .nil
  case size =>
    refine note_around ?_ ?_ (pyDecimal_plain _) (Nat.lt_of_le_of_lt (Nat.add_le_add_left length _) ?_)
    all_goals decide +kernel
  case crc =>
    refine note_around ?_ ?_ (apduLine_plain _) (Nat.lt_of_le_of_lt (Nat.add_le_add_left (Nat.le_of_eq checksum) _) ?_)
    all_goals decide +kernel
  case blocks =>
    refine note_around ?_ ?_ (pyDecimal_plain _) (Nat.lt_of_le_of_lt (Nat.add_le_add_left count _) ?_)
    all_goals decide +kernel
  all_goals first | exact note_text _ rfl rfl (by decide) | decide

private theorem tail_spells (body : List UInt8) (short : body.length ≤ 128) :
    Spells (osTailLines body) [apdu 0x80 0xA0 0 0 body, apdu 0x80 0x44 0 0 [], apdu 0x80 0xF2 0 0 []] := by
  have verify : 1 ≤ (apdu 0x80 0xA0 0 0 body).length ∧ (apdu 0x80 0xA0 0 0 body).length ≤ 133 := by
    rw [apdu]
    split
    · simp only [List.cons_append, List.nil_append, List.length_cons]
      omega
    · decide
  refine .blank <| .note ?_ <| .note ?_ <| .note ?_ <| .note ?_ <| .note ?_ <| .apdu verify.1 verify.2 <| .blank <|
    .note ?_ <| .note ?_ <| .note ?_ <| .apdu ?_ ?_ <| .blank <| .note ?_ <| .note ?_ <| .note ?_ <| .apdu ?_ ?_ .nil
  all_goals first | exact note_text _ rfl rfl (by decide) | decide

private theorem restart_notes : Spells osRestartLines.dropLast [] := by
  refine .blank <| .note ?_ <| .note ?_ <| .note ?_ .nil
  all_goals exact note_text _ rfl rfl (by decide)

/-- The commands that get a program into the slot. -/
def loading (image : List UInt8) : List (List UInt8) :=
  cmdErase :: (List.range (blockCount image)).map (loadBlock image) ++
    [verifyOf image, apdu 0x80 0x44 0 0 [], apdu 0x80 0xF2 0 0 []]

/-- The file that the host tool writes for an image spells them, and ends with RESTART. -/
theorem os_spells (fits : image.length ≤ 56320) :
    ∃ lines, genOsLines image true = some (lines ++ [apduLine (apdu 0x80 0xF0 0 0 [])]) ∧
      Spells lines (loading image) := by
  have length : toBytes 4 image.length = some (bytes32 (UInt32.ofNat image.length)) := by
    rw [← toBytes_bytes32, UInt32.toNat_ofNat_of_lt' (show _ < 2 ^ 32 by omega)]
  have spells := (((head_spells fits (Crc16.crc16 image)).append (blocks_spell image (Nat.le_refl _))).append
    (tail_spells (bytes32 (UInt32.ofNat image.length) ++ bytes16 (Crc16.crc16 image))
      (by simp [bytes32, bytes16]))).append
    restart_notes
  rw [List.append_nil] at spells
  refine ⟨_, ?_, spells⟩
  rw [genOsLines, length, crc16_toNat, toBytes_bytes16, List.append_assoc _ osRestartLines.dropLast]
  rfl

end Texts

/-- The two files of a slot that has a program in it. -/
def slotImage (os : List UInt8) : List UInt8 := os ++ List.replicate (56320 - os.length) 0xFF

def slotHeader (os : List UInt8) : List UInt8 :=
  (bootHdrSerialise (headerOf os)).take 14 ++ [0x00, 0x00] ++ List.replicate 1008 0xFF

theorem slotImage_length {os : List UInt8} (fits : os.length ≤ 56320) : (slotImage os).length = 56320 := by
  rw [slotImage, List.length_append, List.length_replicate]
  omega

theorem slotHeader_length (os : List UInt8) : (slotHeader os).length = 1024 := by
  rw [slotHeader, List.length_append, List.length_append, List.length_take, List.length_replicate]
  rfl

def activeHeader (os : List UInt8) : BootHdr := { headerOf os with state := bootStateActive }

/-- The slot has the program in it, and the boot ROM starts it. -/
structure Carries (os : List UInt8) (oshdr osflash : Region) : Prop where
  flashSize : osflash.size = scv1OsflashSize
  headerSize : oshdr.size = scv1OshdrSize
  checked : bootSlotCheck oshdr osflash = (.active, activeHeader os)
  image : osflash.read 0 os.length = os
  sane : bootImagePlausible osflash (UInt32.ofNat os.length) scv1OsflashBase scv1SramBase scv1SramSize = true

section Slot
variable {os : List UInt8} {ctx : BootCtx} {oshdr oshdr' osflash osflash' : Region}

theorem read_of_image {r r' : Region} (size : r.size = r'.size) (same : imageOf r = imageOf r') {n : Nat}
    (inside : n ≤ r.size.toNat) : r.read 0 n = r'.read 0 n := by
  rw [← Region.take_read n inside, ← Region.take_read n (size ▸ inside)]
  exact congrArg (List.take n) same

/-- The boot decision is about the bytes of the two regions. -/
theorem slotCheck_congr (headerSize : oshdr.size = oshdr'.size) (flashSize : osflash.size = osflash'.size)
    (header : imageOf oshdr = imageOf oshdr') (flash : imageOf osflash = imageOf osflash') :
    bootSlotCheck oshdr osflash = bootSlotCheck oshdr' osflash' := by
  unfold bootSlotCheck
  rw [headerSize, flashSize]
  split
  · rfl
  · rename_i large
    rw [read_of_image headerSize header (by rw [headerSize]; omega)]
    split
    · rfl
    · rename_i h _
      split
      · rfl
      · rename_i sound
        have inside : h.length.toNat ≤ osflash.size.toNat := by
          rw [flashSize]
          exact UInt32.le_iff_toNat_le.mp (UInt32.not_lt.mp fun large => sound (.inr large))
        rw [read_of_image flashSize flash inside]

/-- The image over erased flash, with an activated header. -/
theorem staged_carries (staged : Staged os os.length ctx) (fits : os.length ≤ 56320) (sane : plausibleOnScv1 os = true) :
    let oshdr := (ctx.oshdr.write 0 (bootHdrSerialise (headerOf os))).write 14 [0x00, 0x00]
    Carries os oshdr ctx.osflash ∧ imageOf oshdr = slotHeader os ∧ imageOf ctx.osflash = slotImage os := by
  intro oshdr
  have long := plausible_long fits sane
  have headerSize : oshdr.size = scv1OshdrSize :=
    (Region.write_size.trans Region.write_size).trans staged.chip.oshdr
  have size : ctx.oshdr.size.toNat = 1024 := by rw [staged.chip.oshdr]; rfl
  refine ⟨⟨staged.chip.osflash, headerSize, ?_, staged.read_image fits, ?_⟩, ?_, ?_⟩
  · exact (@doActivate_loaded { ctx with oshdr := ctx.oshdr.write 0 (bootHdrSerialise (headerOf os)) } _
      (verified_loaded staged fits long)).2
  · have judged := staged.sane fits long
    rw [staged.chip.loadAddr, staged.chip.sramBase, staged.chip.sramSize] at judged
    exact judged.trans sane
  · rw [imageOf, headerSize]
    exact read_activated (fun k inside => staged.header k (by omega)) rfl
  · rw [imageOf, staged.chip.osflash]
    exact staged.read_slot fits

/-- Whatever has the bytes of such a slot is one. -/
theorem carries_of_images (fits : os.length ≤ 56320) (sane : plausibleOnScv1 os = true)
    (flashSize : osflash.size = scv1OsflashSize) (headerSize : oshdr.size = scv1OshdrSize)
    (header : imageOf oshdr = slotHeader os) (flash : imageOf osflash = slotImage os) : Carries os oshdr osflash := by
  obtain ⟨ctx, staged⟩ : ∃ ctx, Staged os os.length ctx := ⟨_, (image_staged (uniformChip_scv1 0xFF) fits 16).2⟩
  obtain ⟨carries, header', flash'⟩ := staged_carries staged fits sane
  have size : osflash.size.toNat = 56320 := by rw [flashSize]; rfl
  have same {n : Nat} (inside : n ≤ 56320) : osflash.read 0 n = ctx.osflash.read 0 n :=
    read_of_image (flashSize.trans carries.flashSize.symm) (flash.trans flash'.symm) (by omega)
  refine ⟨flashSize, headerSize, ?_, (same fits).trans carries.image, ?_⟩
  · rw [← carries.checked]
    exact slotCheck_congr (headerSize.trans carries.headerSize.symm) (flashSize.trans carries.flashSize.symm)
      (header.trans header'.symm) (flash.trans flash'.symm)
  · rw [← carries.sane]
    refine plausible_congr (fun k low => ?_) _ _ _ _
    have eight : (osflash.read 0 8).getD k 0 = (ctx.osflash.read 0 8).getD k 0 := by rw [same (by decide)]
    rwa [Region.read_getD low, Region.read_getD low, Nat.zero_add] at eight

end Slot

/-- The answer to GET STATUS, by the state of the slot and the program in it. -/
def statusReply (state : BootSlotState) (h : BootHdr) (erased : Bool) (highWater : Nat) : BootReply :=
  ⟨swOk, [1, state.code] ++ bytes32 scv1OsflashSize ++ bytes32 h.length ++ bytes16 h.imageCrc ++
    [0x80, if erased then 1 else 0] ++ bytes16 (UInt16.ofNat highWater), .none⟩

section Replies
variable {os : List UInt8} {ctx : BootCtx} {cmd : List UInt8} {cmds : List (List UInt8)} {rspCap : UInt32}

/-- All commands but two answer with a status word alone. -/
theorem bootHandle_word (status : cmd.getD 1 0 ≠ bootInsGetStatus) (restart : cmd.getD 1 0 ≠ bootInsRestart) :
    (bootHandle cmd rspCap ctx).1 = .word (bootHandle cmd rspCap ctx).1.sw := by
  have plain {p1 p2 : UInt8} {data : List UInt8} {act : BootReply × BootCtx} (word : act.1 = .word act.1.sw) :
      (plainly p1 p2 data ctx act).1 = .word (plainly p1 p2 data ctx act).1.sw := by
    unfold plainly
    split
    · rfl
    · split
      · rfl
      · exact word
  unfold bootHandle
  split
  · rfl
  split
  · rfl
  split
  · rfl
  rw [bootDispatch, if_neg status]
  split
  · exact plain rfl
  split
  · split
    · rfl
    · rfl
  split
  · split
    · rfl
    · split
      · rfl
      · rfl
  split
  · exact plain rfl
  · rfl

theorem bootReplies_append (ctx : BootCtx) (first second : List (List UInt8)) :
    bootReplies ctx rspCap (first ++ second) =
      bootReplies ctx rspCap first ++ bootReplies (bootRun ctx first rspCap) rspCap second := by
  induction first generalizing ctx with
  | nil => rfl
  | cons cmd rest ih =>
    rw [List.cons_append, bootReplies, ih, bootReplies, List.cons_append, bootRun, bootRun, List.foldl_cons]

/-- Commands of that kind that are all done. -/
theorem words_replied (quiet : ∀ cmd ∈ cmds, cmd.getD 1 0 ≠ bootInsGetStatus ∧ cmd.getD 1 0 ≠ bootInsRestart)
    (ok : AllOk ctx rspCap cmds) : bootReplies ctx rspCap cmds = List.replicate cmds.length (.word swOk) := by
  induction cmds generalizing ctx with
  | nil => rfl
  | cons cmd rest ih =>
    obtain ⟨here, later⟩ := List.forall_mem_cons.mp quiet
    obtain ⟨done, others⟩ := allOk_cons.mp ok
    rw [bootReplies, ih later others, List.length_cons, List.replicate_succ, bootHandle_word here.1 here.2, done]

/-- GET STATUS reports what the check of the slot finds. -/
theorem status_reply {st : BootSlotState} {h : BootHdr} (sized : ctx.osflash.size = scv1OsflashSize)
    (checked : bootSlotCheck ctx.oshdr ctx.osflash = (st, h)) :
    bootHandle (apdu 0x80 0xF2 0 0 []) bootStatusRspLen ctx =
      (statusReply st (if st = .loaded ∨ st = .active then h else .zeroed) ctx.erased ctx.highWater.toNat, ctx) := by
  have water : ctx.highWater.toUInt16 = UInt16.ofNat ctx.highWater.toNat := by
    rw [← UInt16.toNat_inj]
    simp
  have handled : bootHandle (apdu 0x80 0xF2 0 0 []) bootStatusRspLen ctx = (buildStatus bootStatusRspLen ctx, ctx) := rfl
  rw [handled, buildStatus, if_neg (by decide), checked, statusReply, sized, water]
  rfl

/-- What the loader answers while a program is loaded. -/
def loadingReplies (os : List UInt8) : List BootReply :=
  List.replicate (blockCount os + 1) (.word swOk) ++
    [.word swOk, .word swOk, statusReply .active (activeHeader os) true os.length]

/-- Loading a program on any chip puts it into the slot, and every command is answered as
it should be. -/
theorem loading_done (chip : ProgrammingProofs.Scv1 ctx) (fits : os.length ≤ 56320) (sane : plausibleOnScv1 os = true) :
    bootReplies ctx bootStatusRspLen (loading os) = loadingReplies os ∧
      let ended := bootRun ctx (loading os) bootStatusRspLen
      Carries os ended.oshdr ended.osflash ∧ imageOf ended.oshdr = slotHeader os ∧
        imageOf ended.osflash = slotImage os := by
  obtain ⟨ok, staged⟩ := image_staged chip fits bootStatusRspLen
  have quiet : ∀ cmd ∈ cmdErase :: (List.range (blockCount os)).map (loadBlock os),
      cmd.getD 1 0 ≠ bootInsGetStatus ∧ cmd.getD 1 0 ≠ bootInsRestart := by
    refine List.forall_mem_cons.mpr ⟨by decide, ?_⟩
    intro cmd member
    obtain ⟨i, inside, rfl⟩ := List.mem_map.mp member
    rw [loadBlock_eq (List.mem_range.mp inside)]
    show (0x54 : UInt8) ≠ bootInsGetStatus ∧ (0x54 : UInt8) ≠ bootInsRestart
    decide
  have first := words_replied quiet ok
  rw [loading, bootReplies_append, bootRun_append, first, List.length_cons, List.length_map, List.length_range]
  generalize bootRun ctx (cmdErase :: (List.range (blockCount os)).map (loadBlock os)) bootStatusRspLen =
    after at staged ⊢
  have verified := verify_staged staged fits (plausible_long fits sane) bootStatusRspLen
  have loaded := verified_loaded staged fits (plausible_long fits sane)
  obtain ⟨carries, images⟩ := staged_carries staged fits sane
  rw [if_pos sane] at verified
  obtain ⟨first, eq⟩ :
    ∃ first, first = { after with oshdr := after.oshdr.write 0 (bootHdrSerialise (headerOf os)) } := ⟨_, rfl⟩
  obtain ⟨second, eq'⟩ : ∃ second, second = { first with oshdr := first.oshdr.write 14 [0x00, 0x00] } := ⟨_, rfl⟩
  have erased : second.erased = true := by rw [eq', eq, ← staged.erased]
  have water : second.highWater.toNat = os.length := by rw [eq', eq, ← staged.highWater]
  have carries : Carries os second.oshdr second.osflash := by rw [eq', eq]; exact carries
  have images : imageOf second.oshdr = slotHeader os ∧ imageOf second.osflash = slotImage os := by
    rw [eq', eq]
    exact images
  have activated : bootHandle (apdu 0x80 0x44 0 0 []) bootStatusRspLen first = (.word swOk, second) := by
    rw [eq']
    exact congrArg replyWord (doActivate_loaded (by rw [eq]; exact loaded)).1
  have reported := status_reply carries.flashSize carries.checked
  rw [if_pos (.inr rfl), erased, water] at reported
  rw [← eq] at verified
  rw [bootReplies, verified, bootReplies, activated, bootReplies, reported, bootRun, List.foldl_cons, verified,
    List.foldl_cons, activated]
  exact ⟨rfl, carries, images⟩

/-- Erased flash has no header. -/
theorem erased_blank {oshdr : Region} (osflash : Region) (sized : oshdr.size = scv1OshdrSize)
    (erased : ∀ i < oshdr.size.toNat, oshdr.byte i = 0xFF) : bootSlotCheck oshdr osflash = (.blank, .zeroed) := by
  have size : oshdr.size.toNat = 1024 := by rw [sized]; rfl
  have read : oshdr.read 0 bootHdrSize = List.replicate 16 0xFF :=
    Region.read_replicate fun k inside => erased _ (by rw [bootHdrSize] at inside; omega)
  have parsed : bootHdrParse (List.replicate 16 0xFF) = none := by decide
  rw [bootSlotCheck, if_neg (by rw [size]; decide), read, parsed]

/-- The files of an erased slot. -/
def erasedImage : List UInt8 := List.replicate 56320 0xFF

def erasedHeader : List UInt8 := List.replicate 1024 0xFF

theorem imageOf_erased {r : Region} (erased : ∀ i < r.size.toNat, r.byte i = 0xFF) :
    imageOf r = List.replicate r.size.toNat 0xFF :=
  Region.read_replicate fun k inside => erased _ (by omega)

/-- What the loader answers while its slot is recycled. -/
def recycleReplies (st : BootSlotState) (h : BootHdr) : List BootReply :=
  [statusReply st h false 0, .word swOk, statusReply .blank .zeroed true 0]

/-- Recycling reports what was there, and leaves the slot erased. -/
theorem recycle_done {st : BootSlotState} {h : BootHdr} (chip : ProgrammingProofs.Scv1 ctx) (fresh : ctx.erased = false)
    (low : ctx.highWater = 0) (checked : bootSlotCheck ctx.oshdr ctx.osflash = (st, h)) :
    let cmds := [apdu 0x80 0xF2 0 0 [], cmdErase, apdu 0x80 0xF2 0 0 []]
    bootReplies ctx bootStatusRspLen cmds =
        recycleReplies st (if st = .loaded ∨ st = .active then h else .zeroed) ∧
      imageOf (bootRun ctx cmds bootStatusRspLen).oshdr = erasedHeader ∧
      imageOf (bootRun ctx cmds bootStatusRspLen).osflash = erasedImage := by
  intro cmds
  have before := status_reply chip.osflash checked
  rw [fresh, low] at before
  obtain ⟨ok, staged⟩ := erase_stages chip [] bootStatusRspLen
  have word := @bootHandle_word ctx cmdErase bootStatusRspLen (by decide) (by decide)
  rw [ok] at word
  rcases ran : bootHandle cmdErase bootStatusRspLen ctx with ⟨reply, after⟩
  rw [ran] at word staged
  obtain rfl : reply = .word swOk := word
  have blank := erased_blank after.osflash staged.chip.oshdr staged.header
  have reported := status_reply staged.chip.osflash blank
  rw [if_neg (by decide), staged.erased, staged.highWater] at reported
  have ended : bootRun ctx cmds bootStatusRspLen = after := by
    rw [bootRun, List.foldl_cons, before, List.foldl_cons, ran, List.foldl_cons, reported]
    rfl
  refine ⟨?_, ?_, ?_⟩
  · rw [bootReplies, before, bootReplies, ran, bootReplies, reported]
    rfl
  · rw [ended, imageOf_erased staged.header, staged.chip.oshdr]
    rfl
  · rw [ended, imageOf_erased fun i inside => (staged.bytes i inside).trans (if_neg (Nat.not_lt_zero i)),
      staged.chip.osflash]
    rfl

end Replies

/-- The files have the program in the slot, as the tool for the direct path writes it, or
nothing. -/
def SlotHeld (os : List UInt8) (files : BoardFiles) : Bool → Prop
  | true => files.osflash = some (slotImage os) ∧ files.oshdr = some (slotHeader os)
  | false => files.osflash = none ∧ files.oshdr = none ∨
      files.osflash = some erasedImage ∧ files.oshdr = some erasedHeader

/-- What the check of the slot finds then. -/
def slotState (os : List UInt8) (loaded : Bool) : BootSlotState × BootHdr :=
  if loaded then (.active, activeHeader os) else (.blank, .zeroed)

section PowerOn
variable {os : List UInt8} {files : BoardFiles} {loaded : Bool}

theorem imageOf_write {r : Region} {bytes : List UInt8} (whole : bytes.length = r.size.toNat) :
    imageOf (r.write 0 bytes) = bytes := by
  rw [imageOf, Region.write_size]
  exact Region.read_write_same whole.symm

/-- With whole files on both sides the slot has their bytes. -/
theorem slotPowerOn_loaded {image header : List UInt8} (osflash : files.osflash = some image)
    (oshdr : files.oshdr = some header)
    (imageSize : image.length = 56320) (headerSize : header.length = 1024) (memory : PowerSession.Scv1.Memory) :
    imageOf (slotPowerOn (some files) memory).image = image ∧
      imageOf (slotPowerOn (some files) memory).header = header := by
  have loads {bytes : List UInt8} {dst : Region} (whole : bytes.length = dst.size.toNat) :
      PowerSession.Scv1.semihostLoad (some bytes) dst = (some bytes.length, dst.write 0 bytes) := by
    rw [PowerSession.Scv1.semihostLoad, List.take_of_length_le (Nat.le_of_eq whole)]
  have first : image.length = (slotOf memory).image.size.toNat := imageSize
  have second : header.length = (slotOf memory).header.size.toNat := headerSize
  have slot : slotPowerOn (some files) memory =
      ⟨((slotOf memory).image.write 0 image).byte, ((slotOf memory).header.write 0 header).byte⟩ := by
    rw [slotPowerOn, osflash, oshdr, loads first, loads second, if_pos]
    exact ⟨by rw [Option.getD_some]; omega, by rw [Option.getD_some]; omega⟩
  have body : (slotPowerOn (some files) memory).image = (slotOf memory).image.write 0 image := by
    rw [slot]
    exact Region.ext (by rw [Region.write_size]; rfl) rfl
  have top : (slotPowerOn (some files) memory).header = (slotOf memory).header.write 0 header := by
    rw [slot]
    exact Region.ext (by rw [Region.write_size]; rfl) rfl
  rw [body, top]
  exact ⟨imageOf_write first, imageOf_write second⟩

/-- One of the two files of the slot is missing or empty, or both are. -/
def Unfiled (host : Option BoardFiles) : Prop :=
  ∀ files, host = some files → files.osflash.getD [] = [] ∨ files.oshdr.getD [] = []

/-- Without both files the slot is erased, whatever is in the memory. -/
theorem slotPowerOn_unfiled {host : Option BoardFiles} (unfiled : Unfiled host) (memory : PowerSession.Scv1.Memory) :
    bootSlotCheck (slotPowerOn host memory).header (slotPowerOn host memory).image = (.blank, .zeroed) := by
  have none {file : Option (List UInt8)} {dst : Region} (empty : file.getD [] = []) :
      ¬ (PowerSession.Scv1.semihostLoad file dst).1.getD 0 > 0 := by
    rcases file with _ | bytes
    · exact Nat.lt_irrefl 0
    · rw [Option.getD_some] at empty
      rw [empty, PowerSession.Scv1.semihostLoad, List.take_nil]
      exact Nat.lt_irrefl 0
  refine erased_blank _ rfl fun i inside => ?_
  have cell (r : Region) (size : r.size = scv1OshdrSize) : (PowerSession.Scv1.erased r).byte i = 0xFF := by
    refine if_pos ⟨Nat.zero_le i, ?_⟩
    rw [Nat.zero_add, size]
    exact inside
  show (slotPowerOn host memory).oshdr i = 0xFF
  rcases host with _ | files
  · exact cell _ rfl
  · have sized : (PowerSession.Scv1.semihostLoad files.oshdr (slotOf memory).header).2.size = scv1OshdrSize := by
      rcases files.oshdr with _ | bytes
      · rfl
      · exact Region.write_size
    rw [slotPowerOn, if_neg]
    · exact cell _ sized
    · rintro ⟨program, header⟩
      rcases unfiled files rfl with missing | missing
      · exact none missing program
      · exact none missing header

/-- Power on a board finds in its slot what its files have. -/
theorem slotPowerOn_held (held : SlotHeld os files loaded) (fits : os.length ≤ 56320) (sane : plausibleOnScv1 os = true)
    (memory : PowerSession.Scv1.Memory) :
    let slot := slotPowerOn (some files) memory
    bootSlotCheck slot.header slot.image = slotState os loaded ∧
      (loaded = true → Carries os slot.header slot.image) := by
  intro slot
  cases loaded with
  | true =>
    obtain ⟨flash, header⟩ := slotPowerOn_loaded held.1 held.2 (slotImage_length fits) (slotHeader_length os) memory
    have carries := carries_of_images fits sane rfl rfl header flash
    exact ⟨carries.checked, fun _ => carries⟩
  | false =>
    refine ⟨?_, fun loaded => by cases loaded⟩
    rcases held with ⟨flash, -⟩ | ⟨flash, header⟩
    · refine slotPowerOn_unfiled (fun files' same => .inl ?_) memory
      rw [← Option.some.inj same, flash]
      rfl
    · refine erased_blank slot.image rfl fun i inside => ?_
      have same := congrArg (fun bytes => bytes.getD i 0xFF)
        (slotPowerOn_loaded flash header List.length_replicate List.length_replicate memory).2
      have within : i < erasedHeader.length := by
        rw [erasedHeader, List.length_replicate]
        exact inside
      rw [imageOf_getD, if_pos inside, List.getD_eq_getElem _ _ within] at same
      exact same.trans (List.getElem_replicate ..)

/-- Without the strap, a board with a program starts it. -/
theorem rom_starts (held : SlotHeld os files true) (fits : os.length ≤ 56320) (sane : plausibleOnScv1 os = true)
    (strap : files.bootsel = false) (memory : PowerSession.Scv1.Memory) (link : Link) :
    ∃ oshdr osflash, Carries os oshdr osflash ∧
      romMain (some files) memory link =
        .jumped oshdr osflash (some files) { link with output := link.output ++ starting } := by
  obtain ⟨checked, carries⟩ := slotPowerOn_held held fits sane memory
  have carries := carries rfl
  refine ⟨_, _, carries, ?_⟩
  rw [romMain, carries.checked]
  exact if_pos ⟨by rw [bootselAsserted, Option.any_some, strap]; rfl, rfl, carries.sane⟩

/-- With the strap held or without a program, it waits for one. -/
theorem rom_stays (held : SlotHeld os files loaded) (fits : os.length ≤ 56320) (sane : plausibleOnScv1 os = true)
    (stays : files.bootsel = true ∨ loaded = false) (memory : PowerSession.Scv1.Memory) (link : Link) :
    ∃ ctx, ProgrammingProofs.Scv1 ctx ∧ ctx.erased = false ∧ ctx.highWater = 0 ∧
      bootSlotCheck ctx.oshdr ctx.osflash = slotState os loaded ∧
      romMain (some files) memory link = BootSession.loaderLoop ctx false (some files)
        ⟨link.input, link.output ++ romBanner (slotState os loaded).1 (slotState os loaded).2 files.bootsel true⟩ := by
  obtain ⟨checked, -⟩ := slotPowerOn_held held fits sane memory
  refine ⟨BootRomProofs.slotCtx (slotPowerOn (some files) memory), ⟨⟨rfl, rfl, rfl⟩, rfl, rfl, rfl⟩, rfl, rfl,
    checked, ?_⟩
  rw [romMain, checked]
  refine if_neg ?_
  rintro ⟨free, active, -⟩
  rcases stays with strap | rfl
  · rw [bootselAsserted, Option.any_some, strap] at free
    cases free
  · cases active

/-- A board without the files of a slot waits as well, even with a program in its memory. -/
theorem rom_unfiled {host : Option BoardFiles} (unfiled : Unfiled host) (memory : PowerSession.Scv1.Memory)
    (link : Link) :
    ∃ ctx, ProgrammingProofs.Scv1 ctx ∧ bootSlotCheck ctx.oshdr ctx.osflash = (.blank, .zeroed) ∧
      romMain host memory link = BootSession.loaderLoop ctx false host
        ⟨link.input, link.output ++ romBanner .blank .zeroed (bootselAsserted host) host.isSome⟩ := by
  have checked := slotPowerOn_unfiled unfiled memory
  refine ⟨BootRomProofs.slotCtx (slotPowerOn host memory), ⟨⟨rfl, rfl, rfl⟩, rfl, rfl, rfl⟩, checked, ?_⟩
  rw [romMain, checked]
  refine if_neg ?_
  rintro ⟨-, active, -⟩
  cases active

end PowerOn

/-- What a board is given power for: to be programmed and then used, to be used, or to be
recycled. -/
inductive Job where
  | program (orders : List Order) (quits : Bool)
  | use (orders : List Order) (quits : Bool)
  | recycle

/-- One time with power, from what is in the memory then and with the strap held or not. -/
structure Turn where
  memory : PowerSession.Scv1.Memory
  strap : Bool
  job : Job

/-- What a board is between two turns: whether its slot has the program, and its card. -/
structure Life where
  loaded : Bool
  kept : Option Kept

namespace Turn

def session (turn : Turn) (orders : List Order) (quits : Bool) : Session := ⟨.scv1 turn.memory, true, orders, quits⟩

/-- What the reader sends. -/
def input (os : List UInt8) (turn : Turn) : List UInt8 :=
  match turn.job with
  | .program orders quits => ldrFile ((genOsLines os true).getD []) ++ (turn.session orders quits).input
  | .use orders quits => (turn.session orders quits).input
  | .recycle => ldrFile genRecycleLines ++ chars ".quit\n"

def run (os : List UInt8) (files : BoardFiles) (turn : Turn) : Option BoardOutcome :=
  boardMain os (some { files with bootsel := turn.strap }) turn.memory (turn.input os)

def romBanner (os : List UInt8) (life : Life) (turn : Turn) : List UInt8 :=
  BootSession.romBanner (slotState os life.loaded).1 (slotState os life.loaded).2 turn.strap true

/-- What the turn shows. -/
noncomputable def shown (os : List UInt8) (life : Life) (turn : Turn) : Option Nat × List UInt8 :=
  match turn.job with
  | .program orders quits => ((turn.session orders quits).code,
      turn.romBanner os life ++ replyLines (loadingReplies os ++ [⟨swOk, [], .restart⟩]) ++
        ((turn.session orders quits).shown life.kept).2)
  | .use orders quits => ((turn.session orders quits).code, starting ++ ((turn.session orders quits).shown life.kept).2)
  | .recycle => (some 0, turn.romBanner os life ++
      replyLines (recycleReplies (slotState os life.loaded).1 (slotState os life.loaded).2) ++
        chars "boot loader: link closed\r\n")

/-- What the board is after it. -/
noncomputable def after (life : Life) (turn : Turn) : Life :=
  match turn.job with
  | .program orders quits => ⟨true, (turn.session orders quits).after life.kept⟩
  | .use orders quits => ⟨life.loaded, (turn.session orders quits).after life.kept⟩
  | .recycle => ⟨false, life.kept⟩

/-- The loader is only reached with the strap or without a program, and a board whose card
has no files yet has nothing in its memory that looks like a filesystem. -/
def Fits (life : Life) (turn : Turn) : Prop :=
  match turn.job with
  | .program orders quits => (turn.strap = true ∨ life.loaded = false) ∧ (turn.session orders quits).Fits life.kept
  | .use orders quits => (turn.strap = false ∧ life.loaded = true) ∧ (turn.session orders quits).Fits life.kept
  | .recycle => turn.strap = true ∨ life.loaded = false

end Turn

/-- The files are those of such a board. -/
structure Boards (os : List UInt8) (files : BoardFiles) (life : Life) : Prop where
  slot : SlotHeld os files life.loaded
  card : Shelves files.card life.kept

section Turns
variable {os : List UInt8} {files : BoardFiles} {life : Life} {turn : Turn}

/-- After a jump to the program the card comes up and goes on, on the same UART. -/
theorem jump_serves {oshdr osflash : Region} {host : Option BoardFiles} {memory : PowerSession.Scv1.Memory}
    {card : Kernel.Card}
    {s : Service} {x : Session} {input out : List UInt8} (carries : Carries os oshdr osflash) (fits : os.length ≤ 56320)
    (jumps : romMain host memory ⟨input, []⟩ = .jumped oshdr osflash (some files) ⟨x.input, out⟩)
    (board : x.build = .scv1 memory) (hosted : x.hosted = true)
    (boots : Kernel.scosInit (powered (x.build.powerOn (x.host files.card))) = (.ok, card))
    (refines : ServiceProofs.Refines card s) (valid : ∀ order ∈ x.orders, order.Valid scosApduCmdMax) :
    boardMain os host memory input = some ⟨x.code, out ++ (x.opening ++ printed s x.orders ++ x.closing),
      some { files with card :=
        if x.hosted ∧ x.ends then imagesOf (x.orders.foldl obey card).store.hal.nvm else files.card }⟩ := by
  have length : (activeHeader os).length.toNat = os.length := UInt32.toNat_ofNat_of_lt' (show _ < 2 ^ 32 by omega)
  have opens : x.host files.card = some files.card := if_pos hosted
  obtain ⟨code, printed, left⟩ := scv1_ends board boots refines valid out
  rw [opens] at code printed left
  rw [boardMain, jumps]
  dsimp only
  rw [carries.checked, length, if_pos carries.image, ← code, ← printed, ← left]
  rfl

/-- The same, for a board with a card on its shelf. -/
theorem jump_keeps {oshdr osflash : Region} {host : Option BoardFiles} {memory : PowerSession.Scv1.Memory}
    {kept : Option Kept}
    {x : Session} {input out : List UInt8} (carries : Carries os oshdr osflash) (fits : os.length ≤ 56320)
    (jumps : romMain host memory ⟨input, []⟩ = .jumped oshdr osflash (some files) ⟨x.input, out⟩)
    (held : SlotHeld os files true) (shelves : Shelves files.card kept) (board : x.build = .scv1 memory)
    (hosted : x.hosted = true) (fit : x.Fits kept) :
    ∃ left, boardMain os host memory input = some ⟨x.code, out ++ (x.shown kept).2, some left⟩ ∧
      Boards os left ⟨true, x.after kept⟩ := by
  obtain ⟨card, boots, size, refines⟩ := session_boots shelves fit
  exact ⟨_, jump_serves carries fits jumps board hosted boots refines fit.valid, held,
    session_leaves shelves refines size⟩

theorem Boards.strapped (boards : Boards os files life) (strap : Bool) :
    SlotHeld os { files with bootsel := strap } life.loaded := by
  have slot := boards.slot
  cases loaded : life.loaded with
  | true =>
    rw [loaded] at slot
    exact slot
  | false =>
    rw [loaded] at slot
    exact slot

/-- The script that the host tool writes for a program, sent to the loader, ends in a jump
to the program. -/
theorem loading_jumps {ctx : BootCtx} (chip : ProgrammingProofs.Scv1 ctx) (fits : os.length ≤ 56320)
    (sane : plausibleOnScv1 os = true) (host : Option BoardFiles) (rest out : List UInt8) :
    ∃ oshdr osflash, Carries os oshdr osflash ∧
      BootSession.loaderLoop ctx false host ⟨ldrFile ((genOsLines os true).getD []) ++ rest, out⟩ =
        .jumped oshdr osflash
          (host.map fun files => { files with osflash := some (slotImage os), oshdr := some (slotHeader os) })
          ⟨rest, out ++ replyLines (loadingReplies os ++ [⟨swOk, [], .restart⟩])⟩ := by
  obtain ⟨lines, file, spells⟩ := os_spells fits
  obtain ⟨replied, carries, header, flash⟩ := loading_done chip fits sane
  have quiet : ∀ reply ∈ loadingReplies os, reply.action = .none := by
    intro reply member
    rw [loadingReplies, List.mem_append] at member
    rcases member with word | last
    · rw [List.eq_of_mem_replicate word]
      rfl
    · simp only [List.mem_cons, List.not_mem_nil, or_false] at last
      rcases last with rfl | rfl | rfl <;> rfl
  have wrote : ((loadingReplies os).any fun reply => reply.sw = swOk) = true := by
    simp [loadingReplies, BootReply.word]
  have scripted := @rom_script lines (loading os) ctx host spells false
    (apduLine (apdu 0x80 0xF0 0 0 []) ++ 0x0A :: rest) out (by rw [replied]; exact quiet)
  rw [replied, wrote, rom_command (by decide) (by decide)] at scripted
  generalize bootRun ctx (loading os) bootStatusRspLen = ended at carries header flash scripted
  have restarts : bootHandle (apdu 0x80 0xF0 0 0 []) bootStatusRspLen ended = (⟨swOk, [], .restart⟩, ended) := by
    have handled : bootHandle (apdu 0x80 0xF0 0 0 []) bootStatusRspLen ended = (doRestart ended, ended) := rfl
    rw [handled, doRestart, carries.checked]
    rfl
  have flushes : (slotFlush ended true host).2 =
      host.map fun files => { files with osflash := some (slotImage os), oshdr := some (slotHeader os) } := by
    rcases host with _ | files
    · rfl
    · rw [← flash, ← header]
      rfl
  rw [looped, restarts, if_pos rfl, rom_speaks.send] at scripted
  refine ⟨_, _, carries, ?_⟩
  rw [file, Option.getD_some, ldrFile, List.flatMap_append, List.flatMap_singleton, List.append_assoc, List.append_assoc,
    ← ldrFile, ← flushes]
  refine scripted.trans ?_
  rw [replyLines, replyLines, List.flatMap_append, List.flatMap_singleton, List.append_assoc]
  rfl

/-- A board that is sent the script of a program comes to the jump. -/
theorem program_jumps (held : SlotHeld os { files with bootsel := turn.strap } life.loaded) (fits : os.length ≤ 56320)
    (sane : plausibleOnScv1 os = true) (stays : turn.strap = true ∨ life.loaded = false) (rest : List UInt8) :
    ∃ oshdr osflash, Carries os oshdr osflash ∧
      romMain (some { files with bootsel := turn.strap }) turn.memory
          ⟨ldrFile ((genOsLines os true).getD []) ++ rest, []⟩ =
        .jumped oshdr osflash
          (some { files with osflash := some (slotImage os), oshdr := some (slotHeader os), bootsel := turn.strap })
          ⟨rest, turn.romBanner os life ++ replyLines (loadingReplies os ++ [⟨swOk, [], .restart⟩])⟩ := by
  obtain ⟨ctx, chip, -, -, -, stayed⟩ := rom_stays held fits sane stays turn.memory
    ⟨ldrFile ((genOsLines os true).getD []) ++ rest, []⟩
  obtain ⟨oshdr, osflash, carries, jumps⟩ :=
    loading_jumps chip fits sane (some { files with bootsel := turn.strap }) rest (turn.romBanner os life)
  exact ⟨oshdr, osflash, carries, stayed.trans jumps⟩

/-- The script of a program, and then the program. -/
theorem program_turn (boards : Boards os files life) (fits : os.length ≤ 56320) (sane : plausibleOnScv1 os = true)
    {orders : List Order} {quits : Bool} (stays : turn.strap = true ∨ life.loaded = false)
    (fit : (turn.session orders quits).Fits life.kept) :
    ∃ left, boardMain os (some { files with bootsel := turn.strap }) turn.memory
        (ldrFile ((genOsLines os true).getD []) ++ (turn.session orders quits).input) =
      some ⟨(turn.session orders quits).code,
        turn.romBanner os life ++ replyLines (loadingReplies os ++ [⟨swOk, [], .restart⟩]) ++
          ((turn.session orders quits).shown life.kept).2, some left⟩ ∧
      Boards os left ⟨true, (turn.session orders quits).after life.kept⟩ := by
  obtain ⟨oshdr, osflash, carries, jumps⟩ := program_jumps (boards.strapped turn.strap) fits sane stays
    (turn.session orders quits).input
  exact jump_keeps carries fits jumps ⟨rfl, rfl⟩ boards.card rfl rfl fit

theorem recycle_turn (boards : Boards os files life) (fits : os.length ≤ 56320) (sane : plausibleOnScv1 os = true)
    (stays : turn.strap = true ∨ life.loaded = false) :
    ∃ left, boardMain os (some { files with bootsel := turn.strap }) turn.memory
        (ldrFile genRecycleLines ++ chars ".quit\n") =
      some ⟨some 0, turn.romBanner os life ++
        replyLines (recycleReplies (slotState os life.loaded).1 (slotState os life.loaded).2) ++
          chars "boot loader: link closed\r\n", some left⟩ ∧ Boards os left ⟨false, life.kept⟩ := by
  obtain ⟨ctx, chip, fresh, low, checked, stayed⟩ := rom_stays (boards.strapped turn.strap) fits sane stays turn.memory
    ⟨ldrFile genRecycleLines ++ chars ".quit\n", []⟩
  obtain ⟨replied, header, flash⟩ :=
    @recycle_done ctx (slotState os life.loaded).1 (slotState os life.loaded).2 chip fresh low checked
  have same : (if (slotState os life.loaded).1 = .loaded ∨ (slotState os life.loaded).1 = .active then
      (slotState os life.loaded).2 else .zeroed) = (slotState os life.loaded).2 := by
    cases life.loaded <;> rfl
  rw [same] at replied
  have scripted := @rom_script genRecycleLines _ ctx (some { files with bootsel := turn.strap }) recycle_spells false
    (chars ".quit\n") (turn.romBanner os life) (by
      rw [replied, recycleReplies]
      simp [statusReply, BootReply.word])
  have wrote : ((recycleReplies (slotState os life.loaded).1 (slotState os life.loaded).2).any fun reply =>
    reply.sw = swOk) = true := by simp [recycleReplies, statusReply]
  rw [replied, wrote] at scripted
  generalize bootRun ctx _ bootStatusRspLen = ended at header flash scripted
  have quit := rom_speaks.quit [] (turn.romBanner os life ++
    replyLines (recycleReplies (slotState os life.loaded).1 (slotState os life.loaded).2))
  rw [List.append_nil] at quit
  rw [rom_got quit] at scripted
  refine ⟨{ files with
      bootsel := turn.strap, osflash := some (imageOf ended.osflash), oshdr := some (imageOf ended.oshdr) },
    ?_, .inr ⟨congrArg some flash, congrArg some header⟩, boards.card⟩
  rw [boardMain, stayed.trans scripted]
  rfl

theorem use_turn (boards : Boards os files life) (fits : os.length ≤ 56320) (sane : plausibleOnScv1 os = true)
    {orders : List Order} {quits : Bool} (free : turn.strap = false) (loaded : life.loaded = true)
    (fit : (turn.session orders quits).Fits life.kept) :
    ∃ left, boardMain os (some { files with bootsel := turn.strap }) turn.memory (turn.session orders quits).input =
      some ⟨(turn.session orders quits).code, starting ++ ((turn.session orders quits).shown life.kept).2, some left⟩ ∧
      Boards os left ⟨true, (turn.session orders quits).after life.kept⟩ := by
  have held := boards.strapped turn.strap
  rw [loaded] at held
  obtain ⟨oshdr, osflash, carries, jumps⟩ :=
    rom_starts held fits sane free turn.memory ⟨(turn.session orders quits).input, []⟩
  exact jump_keeps carries fits jumps held boards.card rfl rfl fit

/-- One turn: the board shows what it should, and its files are those it should have. -/
theorem turn_kept (boards : Boards os files life) (fits : os.length ≤ 56320) (sane : plausibleOnScv1 os = true)
    (fit : turn.Fits life) :
    ∃ left, turn.run os files = some ⟨(turn.shown os life).1, (turn.shown os life).2, some left⟩ ∧
      Boards os left (turn.after life) := by
  obtain ⟨memory, strap, job⟩ := turn
  cases job with
  | program orders quits => exact program_turn boards fits sane fit.1 fit.2
  | use orders quits =>
    obtain ⟨left, ran, boards⟩ := use_turn boards fits sane fit.1.1 fit.1.2 fit.2
    exact ⟨left, ran, by rw [Turn.after, fit.1.2]; exact boards⟩
  | recycle => exact recycle_turn boards fits sane fit

/-- What a board shows turn by turn. -/
def turnShowings (os : List UInt8) (files : BoardFiles) : List Turn → List (Option (Option Nat × List UInt8))
  | [] => []
  | turn :: rest =>
    (turn.run os files).map (fun out => (out.code, out.printed)) ::
      turnShowings os (((turn.run os files).bind BoardOutcome.host).getD files) rest

noncomputable def lifeShowings (os : List UInt8) (life : Life) : List Turn → List (Option (Option Nat × List UInt8))
  | [] => []
  | turn :: rest => some (turn.shown os life) :: lifeShowings os (turn.after life) rest

def Turns (life : Life) : List Turn → Prop
  | [] => True
  | turn :: rest => turn.Fits life ∧ Turns (turn.after life) rest

theorem showings_of_life (boards : Boards os files life) (fits : os.length ≤ 56320) (sane : plausibleOnScv1 os = true)
    (turns : List Turn) (fit : Turns life turns) : turnShowings os files turns = lifeShowings os life turns := by
  induction turns generalizing files life with
  | nil => rfl
  | cons turn rest ih =>
    obtain ⟨left, ran, boards⟩ := turn_kept boards fits sane fit.1
    rw [turnShowings, lifeShowings, ran, ← ih boards fit.2]
    rfl

end Turns

/-- A board without files. -/
def newBoard : BoardFiles := ⟨none, none, false, .empty⟩

/-- Take any program that the card finds plausible and that fits its slot, and any turns in
which a new board is programmed with it over the UART, used and recycled where its strap and
its slot allow that. It shows the answers of the loader to each command of the host's script,
then those of the one card that keeps its files over all of this. -/
theorem board_life (os : List UInt8) (fits : os.length ≤ 56320) (sane : plausibleOnScv1 os = true) (turns : List Turn)
    (fit : Turns ⟨false, none⟩ turns) : turnShowings os newBoard turns = lifeShowings os ⟨false, none⟩ turns := by
  have boards : Boards os newBoard ⟨false, none⟩ := ⟨.inl ⟨rfl, rfl⟩, rfl⟩
  exact showings_of_life boards fits sane turns fit

/-- A new board is programmed and a byte is written. It is recycled, programmed again, and
the byte is read. -/
def renewed : List Turn :=
  [⟨fun _ => 0x00, false, .program [.apdu [0x00, 0xD6, 0x81, 0x00, 0x01, 0xAA]] true⟩, ⟨fun _ => 0x00, true, .recycle⟩,
    ⟨fun _ => 0x00, false, .program [.apdu [0x00, 0xB0, 0x81, 0x00, 0x01]] true⟩]

theorem board_life_renewed : (turnShowings tableOnly newBoard renewed)[1]? =
    some (some (some 0, chars "SCV1 BOOT ROM v1  (mask ROM, 8 KB at 0x00000000)\r\nOS slot: 0x00002000  55 KB\r\n" ++
      chars "State:   ACTIVE\r\nImage:   8 bytes, CRC 1414\r\nBOOTSEL: held -- staying in the loader\r\n" ++
      chars "ATR:     3B 94 11 00 42 4F 4F 54\r\nSlot:    persistent (semihosting)\r\n" ++
      chars "Waiting for loader APDUs (CLA 80)...\r\n01020000DC00000000081414800000009000\n9000\n" ++
      chars "01000000DC00000000000000800100009000\nboot loader: link closed\r\n")) := by
  have valid (cmd : List UInt8) (size : 1 ≤ cmd.length ∧ cmd.length ≤ scosApduCmdMax) :
      ∀ order ∈ [Order.apdu cmd], order.Valid scosApduCmdMax := List.forall_mem_singleton.mpr size
  have fit : Turns ⟨false, none⟩ renewed := by
    refine ⟨⟨.inr rfl, valid _ (by decide), by decide, by decide, ?_⟩, .inl rfl,
      ⟨.inr rfl, valid _ (by decide), by decide, Nat.sub_le .., fun none => by cases none⟩, trivial⟩
    intro _ memory board
    cases board
    decide
  rw [board_life tableOnly (by decide) (by decide +kernel) renewed fit]
  show some (some (some 0, BootSession.romBanner .active (activeHeader tableOnly) true true ++
    replyLines (recycleReplies .active (activeHeader tableOnly)) ++ chars "boot loader: link closed\r\n")) = _
  decide +kernel

end CardOs.BoardProofs
