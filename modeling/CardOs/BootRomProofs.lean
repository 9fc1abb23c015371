import CardOs.BootProofs
import CardOs.BootRom

/-! When the boot ROM hands over. The power-on path checks the vectors itself;
the warm-reset and RESTART paths trust the slot check, so what they hand over to
is plausible only as long as the slot is vouched for. -/
namespace CardOs.BootRomProofs
open CardOs.Library CardOs.BootLoader CardOs.BootProofs CardOs.BootRom

/-- A handover, if there was one, found an active slot with a plausible image. -/
def HandsOverSafely : Rom → Prop
  | .jumped oshdr osflash => Bootable oshdr osflash scv1OsflashBase scv1SramBase scv1SramSize
  | .loader _ | .stopped => True

/-- The context has the chip's addresses. -/
structure OnChip (ctx : BootCtx) : Prop where
  loadAddr : ctx.loadAddr = scv1OsflashBase
  sramBase : ctx.sramBase = scv1SramBase
  sramSize : ctx.sramSize = scv1SramSize

/-- The loader works on the chip's addresses with a slot it can vouch for. -/
def Sound : Rom → Prop
  | .loader ctx => OnChip ctx ∧ Vouched ctx
  | .jumped oshdr osflash => Bootable oshdr osflash scv1OsflashBase scv1SramBase scv1SramSize
  | .stopped => True

section Steps
variable {ctx : BootCtx} {rom : Rom}

theorem sound_safe (sound : Sound rom) : HandsOverSafely rom := by
  cases rom with
  | loader ctx => trivial
  | jumped oshdr osflash => exact sound
  | stopped => trivial

/-- No command changes the addresses of a context. -/
theorem bootHandle_onChip (chip : OnChip ctx) (cmd : List UInt8) (rspCap : UInt32) :
    OnChip (bootHandle cmd rspCap ctx).2 := by
  obtain ⟨load, base, size⟩ := chip
  have handled := bootHandle_handled ctx cmd rspCap
  generalize bootHandle cmd rspCap ctx = result at handled ⊢
  cases handled with
  | kept reply granted => exact ⟨load, base, size⟩
  | erase =>
    unfold doErase
    repeat' split
    all_goals exact ⟨load, base, size⟩
  | load data highWater loads => exact ⟨load, base, size⟩
  | verify data =>
    unfold doVerify programHdr
    dsimp only
    repeat' split
    all_goals exact ⟨load, base, size⟩
  | activate =>
    unfold doActivate programHdr
    repeat' split
    all_goals exact ⟨load, base, size⟩

private theorem bootable_onChip (chip : OnChip ctx) (bootable : BootCtx.Bootable ctx) :
    Bootable ctx.oshdr ctx.osflash scv1OsflashBase scv1SramBase scv1SramSize := by
  rw [← chip.loadAddr, ← chip.sramBase, ← chip.sramSize]
  exact bootable

/-- A granted RESTART leaves the context as it was. -/
private theorem restart_kept {cmd : List UInt8} {rspCap : UInt32}
    (restarts : (bootHandle cmd rspCap ctx).1.action = .restart) : (bootHandle cmd rspCap ctx).2 = ctx := by
  have handled := bootHandle_handled ctx cmd rspCap
  generalize bootHandle cmd rspCap ctx = result at handled restarts ⊢
  cases handled with
  | kept reply granted => rfl
  | erase => cases restarts
  | load data highWater loads => cases restarts
  | verify data => cases restarts
  | activate => cases restarts

/-- The event is a LOAD BLOCK that collides with the slot the loader has. -/
def CollidesAt (rom : Rom) (event : LinkEvent) : Prop :=
  ∃ ctx cmd, rom = .loader ctx ∧ event = .apdu cmd ∧ Collides ctx cmd

/-- An event keeps the ROM sound unless it collides. -/
theorem step_sound (sound : Sound rom) (event : LinkEvent) (apart : ¬ CollidesAt rom event) :
    Sound (romStep rom event) := by
  cases rom with
  | jumped oshdr osflash => exact sound
  | stopped => exact sound
  | loader ctx =>
    obtain ⟨chip, vouched⟩ := sound
    cases event with
    | linkDown => trivial
    | linkError => exact ⟨chip, vouched⟩
    | reset bootsel =>
      simp only [romStep, loaderLoop]
      split
      · rename_i hands
        exact bootable_onChip chip (vouched_bootable vouched hands.2)
      · exact ⟨⟨chip.loadAddr, chip.sramBase, chip.sramSize⟩, vouched⟩
    | apdu cmd =>
      simp only [romStep, loaderLoop]
      split
      · exact ⟨chip, vouched⟩
      split
      · rename_i restarts
        have bootable := (vouched_keepsPromise vouched).restart cmd _ restarts
        rw [restart_kept restarts]
        exact bootable_onChip chip bootable
      · refine ⟨bootHandle_onChip chip cmd _, step_vouched vouched ?_⟩
        exact fun collides => apart ⟨ctx, cmd, rfl, rfl, collides⟩

/-- A block fits the receive buffer, so the loader sees every LOAD BLOCK that
collides, and afterwards nothing vouches for the slot. -/
theorem collides_step {event : LinkEvent} (collides : CollidesAt rom event) :
    ∃ ctx, romStep rom event = .loader ctx ∧ ¬ Vouched ctx := by
  obtain ⟨ctx, cmd, rfl, rfl, collides⟩ := collides
  refine ⟨(bootHandle cmd bootStatusRspLen ctx).2, ?_, collides_unvouched _ collides⟩
  obtain ⟨data, st, h, loads, _⟩ := collides
  have fits : ¬ cmd.length > cmdCapacity := by
    rw [loads.length]
    exact Nat.not_lt.mpr (Nat.add_le_add_left loads.block 5)
  have programmed := bootHandle_loads bootStatusRspLen loads
  simp only [romStep, loaderLoop, if_neg fits, programmed]
  rfl

/-- A reader that activates the slot and resets the card without the strap makes
the ROM hand over to whatever passes the slot check. -/
theorem activate_reset_jumps {st : BootSlotState} {h : BootHdr}
    (checked : bootSlotCheck ctx.oshdr ctx.osflash = (st, h)) (passed : st = .loaded ∨ st = .active) :
    ∃ oshdr h', romStep (romStep (.loader ctx) (.apdu activate)) (.reset false) = .jumped oshdr ctx.osflash ∧
      bootSlotCheck oshdr ctx.osflash = (.active, h') ∧ h'.length = h.length := by
  obtain ⟨oshdr, h', ran, active, length⟩ := activate_passed bootStatusRspLen checked passed
  refine ⟨oshdr, h', ?_, active, length⟩
  have first : romStep (.loader ctx) (.apdu activate) = .loader (bootRun ctx [activate] bootStatusRspLen) := rfl
  rw [first, ran]
  simp [romStep, loaderLoop, active]

/-- If that handover is safe, the slot could be vouched for. -/
private theorem vouched_of_safe (chip : OnChip ctx)
    (safe : HandsOverSafely (romStep (romStep (.loader ctx) (.apdu activate)) (.reset false))) : Vouched ctx := by
  intro st h checked passed
  obtain ⟨oshdr, h', jumps, active, length⟩ := activate_reset_jumps checked passed
  rw [jumps] at safe
  obtain ⟨h'', checked', _, _, _, sane⟩ := safe
  obtain rfl : h' = h'' := (Prod.mk.inj (active.symm.trans checked')).2
  rw [length, ← chip.loadAddr, ← chip.sramBase, ← chip.sramSize] at sane
  exact sane

end Steps

section Runs
variable {slot : Slot} {strap : Bool} {events : List LinkEvent}

theorem romRun_append (slot : Slot) (strap : Bool) (first second : List LinkEvent) :
    romRun slot strap (first ++ second) = second.foldl romStep (romRun slot strap first) := List.foldl_append

/-- The power-on path hands over only to a plausible image. -/
theorem main_cases (slot : Slot) (strap : Bool) :
    HandsOverSafely (main slot strap) ∧ ∀ ctx, main slot strap = .loader ctx → OnChip ctx := by
  unfold main
  rcases checked : bootSlotCheck slot.header slot.image with ⟨st, h⟩
  dsimp only
  split
  · rename_i hands
    obtain ⟨_, rfl, sane⟩ := hands
    obtain ⟨_, _, positive, fits, crc, _⟩ := slotCheck_passed checked (.inr rfl)
    refine ⟨⟨h, checked, positive, fits, crc, sane⟩, ?_⟩
    rintro ctx ⟨⟩
  · refine ⟨trivial, ?_⟩
    rintro ctx ⟨⟩
    exact ⟨rfl, rfl, rfl⟩

/-- No event changes the addresses of the loader's context. -/
theorem run_onChip {ctx : BootCtx} (ran : romRun slot strap events = .loader ctx) : OnChip ctx := by
  induction events using List.reverseRecOn generalizing ctx with
  | nil => exact (main_cases slot strap).2 ctx ran
  | append_singleton events event ih =>
    rw [romRun_append] at ran
    cases reached : romRun slot strap events with
    | jumped oshdr osflash => rw [reached] at ran; cases ran
    | stopped => rw [reached] at ran; cases ran
    | loader before =>
      have chip := ih reached
      rw [reached] at ran
      simp only [List.foldl_cons, List.foldl_nil, romStep] at ran
      cases event with
      | linkDown => cases ran
      | linkError => cases ran; exact chip
      | reset bootsel =>
        simp only [loaderLoop] at ran
        split at ran
        · cases ran
        · cases ran
          exact ⟨chip.loadAddr, chip.sramBase, chip.sramSize⟩
      | apdu cmd =>
        simp only [loaderLoop] at ran
        split at ran
        · cases ran
          exact chip
        split at ran
        · cases ran
        · cases ran
          exact bootHandle_onChip chip cmd _

/-- What the slot holds at power-on, seen as the loader sees it. -/
def slotCtx (slot : Slot) : BootCtx :=
  bootCtxInit slot.image slot.header scv1CflashPage scv1OsflashBase scv1SramBase scv1SramSize

/-- At power-on the ROM starts the loader on the slot, unless it hands over to a
slot that is vouched for. -/
theorem main_vouched (slot : Slot) (strap : Bool) :
    main slot strap = .loader (slotCtx slot) ∨
      main slot strap = .jumped slot.header slot.image ∧ Vouched (slotCtx slot) := by
  unfold main
  rcases checked : bootSlotCheck slot.header slot.image with ⟨st, h⟩
  dsimp only
  split
  · rename_i hands
    refine .inr ⟨rfl, ?_⟩
    intro st' h' checked' _
    obtain ⟨rfl, rfl⟩ := Prod.mk.inj (checked.symm.trans checked')
    exact hands.2.2
  · exact .inl rfl

/-- Along a run without a colliding LOAD BLOCK the ROM stays sound. -/
theorem run_sound (start : Vouched (slotCtx slot))
    (apart : ∀ before event after, events = before ++ event :: after →
      ¬ CollidesAt (romRun slot strap before) event) : Sound (romRun slot strap events) := by
  induction events using List.reverseRecOn with
  | nil =>
    obtain ⟨safe, chip⟩ := main_cases slot strap
    show Sound (main slot strap)
    rcases main_vouched slot strap with stays | ⟨hands, _⟩
    · rw [stays]
      exact ⟨chip _ stays, start⟩
    · rw [hands] at safe ⊢
      exact safe
  | append_singleton events event ih =>
    rw [romRun_append]
    refine step_sound (ih ?_) event (apart events event [] rfl)
    rintro before event' after rfl
    exact apart before event' (after ++ [event]) (by simp)

private theorem parts_sound (start : Vouched (slotCtx slot))
    (apart : ∀ before event after, events = before ++ event :: after → ¬ CollidesAt (romRun slot strap before) event)
    {before after : List LinkEvent} (split : events = before ++ after) : Sound (romRun slot strap before) := by
  subst split
  refine run_sound start ?_
  rintro first event rest rfl
  exact apart first event (rest ++ after) (by simp)

/-- Every handover along a run is to an active slot with a plausible image if the slot is
vouched for at power-on and no event of the run is a colliding LOAD BLOCK. So is then every
one a reader can provoke after any part of the run, and only then. -/
theorem handovers_safe_iff_slot_vouched (slot : Slot) (strap : Bool) (events : List LinkEvent) :
    (Vouched (slotCtx slot) → (∀ before event after, events = before ++ event :: after →
        ¬ CollidesAt (romRun slot strap before) event) →
      ∀ before after, events = before ++ after → HandsOverSafely (romRun slot strap before)) ∧
    ((∀ before after, events = before ++ after → HandsOverSafely (romRun slot strap before) ∧
        HandsOverSafely (romRun slot strap (before ++ [.apdu activate, .reset false]))) ↔
      Vouched (slotCtx slot) ∧ ∀ before event after, events = before ++ event :: after →
        ¬ CollidesAt (romRun slot strap before) event) := by
  refine ⟨fun start apart before after split => sound_safe (parts_sound start apart split), ?_, ?_⟩
  · intro safe
    have vouched : ∀ before after ctx, events = before ++ after → romRun slot strap before = .loader ctx →
        Vouched ctx := by
      intro before after ctx split reached
      have provoked := (safe before after split).2
      rw [romRun_append, reached] at provoked
      exact vouched_of_safe (run_onChip reached) provoked
    refine ⟨?_, ?_⟩
    · rcases main_vouched slot strap with stays | ⟨_, vouchedFor⟩
      · exact vouched [] events _ rfl stays
      · exact vouchedFor
    · rintro before event after rfl collides
      obtain ⟨ctx, reached, unvouched⟩ := collides_step collides
      refine unvouched (vouched (before ++ [event]) after ctx (by simp) ?_)
      rw [romRun_append]
      exact reached
  · rintro ⟨start, apart⟩ before after split
    have sound := parts_sound start apart split
    refine ⟨sound_safe sound, ?_⟩
    rw [romRun_append]
    refine sound_safe (step_sound (step_sound sound _ ?_) _ ?_)
    · rintro ⟨ctx, cmd, _, ⟨⟩, data, st, h, loads, _⟩
      cases loads.ins
    · rintro ⟨ctx, cmd, _, ⟨⟩, _⟩

/-- A slot programmed in the factory with an image of one byte, and activated. -/
def oneByteSlot : Slot where
  osflash _ := 0xFF
  oshdr := ((Region.uniform scv1OshdrSize 0xFF).write 0
    ((bootHdrSerialise ⟨1, 0xFF00, bootStateLoaded, bootHdrVersion⟩).take 14 ++ [0x00, 0x00])).byte

/-- The power-on path refuses that slot, and a warm reset hands over to it. -/
theorem warm_reset_jumps_to_implausible_image :
    (∃ ctx, romRun oneByteSlot false [] = .loader ctx) ∧
      romRun oneByteSlot false [.reset false] = .jumped oneByteSlot.header oneByteSlot.image ∧
      bootSlotCheck oneByteSlot.header oneByteSlot.image = (.active, ⟨1, 0xFF00, 0, 1⟩) ∧
      bootImagePlausible oneByteSlot.image 1 scv1OsflashBase scv1SramBase scv1SramSize = false := by
  have checked : bootSlotCheck oneByteSlot.header oneByteSlot.image = (.active, ⟨1, 0xFF00, 0, 1⟩) := by
    decide +kernel
  have unfit : bootImagePlausible oneByteSlot.image 1 scv1OsflashBase scv1SramBase scv1SramSize = false := by
    decide +kernel
  have stays : main oneByteSlot false = .loader (bootCtxInit oneByteSlot.image oneByteSlot.header scv1CflashPage
      scv1OsflashBase scv1SramBase scv1SramSize) := by
    simp [main, checked, unfit]
  refine ⟨?_, ?_, checked, unfit⟩
  · simp [romRun, stays]
  · simp [romRun, stays, romStep, loaderLoop, bootCtxInit, checked]

end Runs

end CardOs.BootRomProofs
