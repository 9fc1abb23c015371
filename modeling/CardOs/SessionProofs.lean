import CardOs.LoopProofs
import CardOs.PowerSession

/-! One card over many sessions. A card lives in a directory: whichever build is started
on it, on whatever size of chip, it goes on with the files of the last session that was
ended in order, and a session that was not leaves no trace. -/
namespace CardOs.SessionProofs
open CardOs.Library CardOs.FsTypes CardOs.HalNvm CardOs.FsStore CardOs.FsStoreProofs CardOs.Fs CardOs.FileTree
open CardOs.FsProofs CardOs.Kernel CardOs.CardProofs CardOs.CardSafety CardOs.SpaceProofs CardOs.Transport
open CardOs.CardLoop CardOs.LoopProofs CardOs.FileService CardOs.VolumeProofs CardOs.ServiceProofs CardOs.PowerSession
open CardOs.FsInitProofs (mirrorOf mounted_mirrorOf)
open CardOs.ContentProofs (extent_below)

section Files
variable {r buf : Region} {file : Option (List UInt8)} {image : List UInt8} {i : Nat}

@[simp] theorem regionLoad_size : (Sim.regionLoad file buf).size = buf.size := by
  unfold Sim.regionLoad
  split
  · rfl
  · dsimp only
    split
    · rw [Region.fill_size, Region.write_size]
    · rw [Region.write_size]

/-- A region loaded from a file has the bytes of the file, and is erased behind them. -/
theorem regionLoad_byte (inside : i < buf.size.toNat) :
    (Sim.regionLoad (some image) buf).byte i = image.getD i 0xFF := by
  rw [Sim.regionLoad, List.length_take, Region.write_size]
  have got : i < image.length → (buf.write 0 (image.take buf.size.toNat)).byte i = image.getD i 0xFF := by
    intro there
    have short : i < (image.take buf.size.toNat).length := by rw [List.length_take]; omega
    have written := @Region.byte_write_inside buf 0 i (image.take buf.size.toNat) short
    rw [Nat.zero_add] at written
    rw [written, List.getElem_take, List.getD_eq_getElem _ _ there]
  by_cases there : i < image.length
  · split
    · rw [Region.fill_byte, if_neg (by omega)]
      exact got there
    · exact got there
  · rw [if_pos (by omega), Region.fill_byte, if_pos (by omega), List.getD_eq_default _ _ (Nat.not_lt.mp there)]

theorem imageOf_getD : (imageOf r).getD i 0xFF = if i < r.size.toNat then r.byte i else 0xFF := by
  unfold imageOf
  split
  · rename_i inside
    rw [List.getD_eq_getElem _ _ (by rwa [Region.read_length]), Region.read_getElem, Nat.zero_add]
  · rename_i outside
    exact List.getD_eq_default _ _ (by rw [Region.read_length]; omega)

/-- With something in the file, SCV1 loads it as the simulator does. -/
theorem loadRegion_some (content : image ≠ []) (room : buf.size.toNat ≠ 0) :
    Scv1.loadRegion (some image) buf = (true, Sim.regionLoad (some image) buf) := by
  have length := List.length_pos_iff.mpr content
  rw [Scv1.loadRegion, Scv1.semihostLoad]
  dsimp only
  rw [if_pos (by rw [List.length_take]; omega)]
  rfl

end Files

/-- The memories were written to files and read back, by a chip of whatever size. -/
structure Reloads (old new : Nvm) : Prop where
  eeprom : ∀ i < new.eeprom.size.toNat, new.eeprom.byte i = (imageOf old.eeprom).getD i 0xFF
  flash : ∀ i < new.flash.size.toNat, new.flash.byte i = (imageOf old.flash).getD i 0xFF

section Reload
variable {t : FileTree} {place : UInt16 → Path} {old new : Nvm} {s s' : Store} {v : Volume}

theorem Reloads.eeprom_byte (reloads : Reloads old new) {i : Nat} (before : i < old.eeprom.size.toNat)
    (now : i < new.eeprom.size.toNat) : new.eeprom.byte i = old.eeprom.byte i := by
  rw [reloads.eeprom i now, imageOf_getD, if_pos before]

theorem Reloads.flash_byte (reloads : Reloads old new) {i : Nat} (before : i < old.flash.size.toNat)
    (now : i < new.flash.size.toNat) : new.flash.byte i = old.flash.byte i := by
  rw [reloads.flash i now, imageOf_getD, if_pos before]

/-- The tables are in the first 656 bytes, so that a chip that has these and the space
in use holds the same files. -/
theorem reload_holds (holds : Holds old t.table t.top) (reloads : Reloads old new) (slots : 656 ≤ new.eeprom.size.toNat)
    (space : t.top ≤ new.flash.size) : Holds new t.table t.top := by
  have fits := holds.fits
  have same (offset n : Nat) (low : offset + n ≤ 656) : new.eeprom.read offset n = old.eeprom.read offset n :=
    Region.read_congr fun i inside => reloads.eeprom_byte (by omega) (by omega)
  refine ⟨slots, ?_, ?_, ?_, space⟩
  · rw [same 0 fsSuperblockSize (by decide)]
    exact holds.superblock
  · intro i bound
    have low := UInt16.lt_iff_toNat_lt.mp bound
    rw [same _ _ (by rw [descOffset_toNat]; simp only [fsMaxFiles, UInt16.reduceToNat, fsDescSize] at *; omega)]
    exact holds.slot i bound
  · intro i d live
    refine ⟨(holds.legal i d live).file, fun ef => ?_⟩
    exact Nat.le_trans (extent_below live ef) (UInt32.le_iff_toNat_le.mp space)

/-- The files are the same, and the rest of the new FLASH is the room for more. -/
theorem reload_represents (represents : Represents t s place v) (top : s.sb.dataTop = t.top)
    (top' : s'.sb.dataTop = t.top) (reloads : Reloads s.hal.nvm s'.hal.nvm) (space : t.top ≤ s'.hal.nvm.flash.size) :
    Represents t s' place { v with room := s'.hal.nvm.flash.size.toNat - t.top.toNat } := by
  have room := represents.room
  have low := UInt32.le_iff_toNat_le.mp space
  rw [top] at room
  refine ⟨represents.root, represents.below, ?_, represents.only, represents.slots, ?_, ?_⟩
  · intro i d live
    rw [represents.file i d live]
    unfold nodeOf
    split
    · rename_i ef
      have below := extent_below live (by simpa [fsIsEf] using ef)
      rw [Region.read_congr fun k inside => (reloads.flash_byte (by omega) (by omega)).symm]
    · rfl
  · rw [top']
    exact Nat.sub_add_cancel low
  · intro k above inside
    rw [top'] at above
    rw [reloads.flash k inside, imageOf_getD]
    split
    · rename_i before
      exact represents.erased k (by rw [top]; exact above) before
    · rfl

end Reload

/-- A card at rest: its files, and how much FLASH the chip had that they were on. -/
structure Kept where
  volume : Volume
  flash : Nat

/-- The FLASH that is taken for good. -/
def Kept.used (kept : Kept) : Nat := kept.flash - kept.volume.room

/-- What a chip with so much FLASH starts with: the files that were kept, or else those
of the factory. -/
def started (kept : Option Kept) (flashSize : UInt32) : Service :=
  match kept with
  | none => Service.factory flashSize
  | some kept => ⟨{ kept.volume with room := flashSize.toNat - kept.used }, .root⟩

/-- The FLASH it takes to start. -/
def needed : Option Kept → Nat
  | none => 112
  | some kept => kept.used

/-- The directory has what was kept. -/
def Shelves (dir : StateDir) : Option Kept → Prop
  | none => dir = .empty
  | some kept => ∃ card cursor, Refines card ⟨kept.volume, cursor⟩ ∧ card.store.hal.nvm.flash.size.toNat = kept.flash ∧
      0 < kept.flash ∧ dir = imagesOf card.store.hal.nvm

section Start
variable {card : Card} {v : Volume} {cursor : Cursor} {new : Nvm} {kept : Kept}

/-- The top of the data in terms of the volume. -/
theorem refines_top {s : Service} {t : FileTree} {place : UInt16 → Path} (refines : Refines card s)
    (stands : Stands t place card.store card.kernel.sel s) :
    card.store.sb.dataTop = t.top ∧ card.store.hal.nvm.flash.size.toNat - s.volume.room = t.top.toNat := by
  have top : card.store.sb.dataTop = t.top := refines.level.trans (storedTop_ready stands.ready)
  have room := stands.represents.room
  rw [top] at room
  exact ⟨top, by omega⟩

/-- A card comes up from its files as it was, on a chip with room for them. -/
theorem reload_refines (refines : Refines card ⟨kept.volume, cursor⟩)
    (flash : card.store.hal.nvm.flash.size.toNat = kept.flash) (reloads : Reloads card.store.hal.nvm new)
    (slots : 656 ≤ new.eeprom.size.toNat) (space : kept.used ≤ new.flash.size.toNat) :
    ∃ card', scosInit (powered new) = (.ok, card') ∧ card'.store.hal.nvm.flash.size = new.flash.size ∧
      Refines card' (started (some kept) new.flash.size) := by
  obtain ⟨t, place, stands⟩ := refines.stands
  obtain ⟨top, used⟩ := refines_top refines stands
  rw [flash] at used
  have space : t.top ≤ new.flash.size := UInt32.le_iff_toNat_le.mpr (used ▸ space)
  have holds : Holds (powered new).store.hal.nvm t.table t.top := reload_holds stands.ready.holds reloads slots space
  have ready : Ready { (powered new).store with sb := mirrorOf t.top } t := mounted_mirrorOf rfl holds
  have represents : Represents t { (powered new).store with sb := mirrorOf t.top } place
      { kept.volume with room := new.flash.size.toNat - kept.used } := by
    rw [Kept.used, used]
    exact reload_represents stands.represents top rfl reloads space
  refine ⟨_, @scosInit_mounts t (powered new) rfl holds, rfl, ?_⟩
  exact ⟨rfl, (storedTop_ready ready).symm, t, place, ready, rfl, represents, root_points represents⟩

/-- A chip that is erased comes up with the files of the factory. -/
theorem erased_refines (eeprom : ∀ i < new.eeprom.size.toNat, new.eeprom.byte i = 0xFF)
    (flash : ∀ i < new.flash.size.toNat, new.flash.byte i = 0xFF) (slots : 656 ≤ new.eeprom.size.toNat)
    (space : 112 ≤ new.flash.size.toNat) :
    ∃ card', scosInit (powered new) = (.ok, card') ∧ card'.store.hal.nvm.flash.size = new.flash.size ∧
      Refines card' (started none new.flash.size) := by
  have noMagic : new.eeprom.read 0 4 ≠ fsMagic := by
    intro magic
    have first : (new.eeprom.read 0 4).getD 0 0 = 0xFF := by
      rw [Region.read_getD (by decide)]
      exact eeprom _ (by omega)
    rw [magic] at first
    exact absurd first (by decide)
  obtain ⟨card', booted, kept, refines⟩ := factory_refines noMagic slots space flash
  exact ⟨card', booted, congrArg Region.size kept, refines⟩

end Start

/-- The lines of a service for a script, with the ATR of the programs. -/
noncomputable def printed (s : Service) (orders : List Order) : List UInt8 := (repliesAll atr s orders).flatMap hexLine

/-- The program on a card: the simulator, or the firmware on a board with this in its
memory. -/
inductive Build where
  | sim (cfg : Sim.VcardConfig)
  | scv1 (memory : Scv1.Memory)

def Build.eepromSize : Build → UInt32
  | .sim cfg => (Sim.vcardConfigure cfg).eepromSize
  | .scv1 _ => Scv1.scv1EepromSize

def Build.flashSize : Build → UInt32
  | .sim cfg => (Sim.vcardConfigure cfg).flashSize
  | .scv1 _ => Scv1.scv1DflashSize

def Build.powerOn : Build → Option StateDir → Nvm
  | .sim cfg, host => Sim.vcardPowerOn (Sim.vcardConfigure cfg) host
  | .scv1 memory, host => Scv1.scv1NvmPowerOn host memory

/-- One session: whether the program has the directory, what the reader asks it, and
whether the reader quits or just stops. -/
structure Session where
  build : Build
  hosted : Bool
  orders : List Order
  quits : Bool

namespace Session

def input (x : Session) : List UInt8 := script x.orders ++ if x.quits then chars ".quit\n" else []

def host (x : Session) (dir : StateDir) : Option StateDir := if x.hosted then some dir else none

def run (x : Session) (dir : StateDir) : Outcome :=
  match x.build with
  | .sim cfg => Sim.main cfg (x.host dir) x.input
  | .scv1 memory => Scv1.cardMain (x.host dir) memory ⟨x.input, []⟩

/-- The simulator takes the end of its input for a quit. The firmware waits. -/
def ends (x : Session) : Bool :=
  match x.build with
  | .sim _ => true
  | .scv1 _ => x.quits

def code (x : Session) : Option Nat :=
  match x.build with
  | .sim _ => some 0
  | .scv1 _ => if x.quits ∧ x.hosted then some 0 else none

def opening (x : Session) : List UInt8 :=
  match x.build with
  | .sim _ => []
  | .scv1 _ => Scv1.banner x.hosted

def closing (x : Session) : List UInt8 :=
  match x.build with
  | .sim _ => []
  | .scv1 _ => if x.quits then Scv1.closing else []

/-- What the program can see of what was kept. -/
def seen (x : Session) (kept : Option Kept) : Option Kept := if x.hosted then kept else none

def service (x : Session) (kept : Option Kept) : Service := started (x.seen kept) x.build.flashSize

/-- What the session shows. -/
noncomputable def shown (x : Session) (kept : Option Kept) : Option Nat × List UInt8 :=
  (x.code, x.opening ++ printed (x.service kept) x.orders ++ x.closing)

/-- What is kept after it. -/
noncomputable def after (x : Session) (kept : Option Kept) : Option Kept :=
  if x.hosted ∧ x.ends then some ⟨(x.orders.foldl serves (x.service kept)).volume, x.build.flashSize.toNat⟩ else kept

/-- The chip is large enough, and a board without files has nothing in its memory that
looks like a filesystem. -/
structure Fits (x : Session) (kept : Option Kept) : Prop where
  valid : ∀ order ∈ x.orders, order.Valid scosApduCmdMax
  slots : 656 ≤ x.build.eepromSize.toNat
  space : needed (x.seen kept) ≤ x.build.flashSize.toNat
  blank : x.seen kept = none → ∀ memory, x.build = .scv1 memory → Scv1.hasFs (Scv1.eepromOf memory) = false

end Session

section Boot
variable {dir : StateDir} {kept : Option Kept} {x : Session}

theorem clamped_pos {size capacity : UInt32} (some : 0 < capacity.toNat) : 0 < (Sim.clamped size capacity).toNat := by
  unfold Sim.clamped
  split
  · exact some
  · rename_i usable
    exact UInt32.lt_iff_toNat_lt.mp (UInt32.pos_iff_ne_zero.mpr fun none => usable (.inl none))

theorem flashSize_pos (build : Build) : 0 < build.flashSize.toNat := by
  cases build with
  | sim cfg => exact clamped_pos (by decide)
  | scv1 memory =>
    rw [Build.flashSize]
    decide

theorem loadFrom_size (host : Option StateDir) (image : StateDir → Option (List UInt8)) (dst : Region) :
    (Scv1.loadFrom host image dst).2.size = dst.size := by
  rcases host with _ | dir
  · rfl
  rw [Scv1.loadFrom, Scv1.loadRegion]
  rcases image dir with _ | bytes
  · rfl
  · simp only [Scv1.semihostLoad]
    split
    · split
      · rw [Region.fill_size, Region.write_size]
      · rw [Region.write_size]
    · rw [Region.write_size]

theorem loadFrom_empty {host : Option StateDir} (empty : ∀ dir, host = some dir → dir = .empty)
    {image : StateDir → Option (List UInt8)} (absent : image .empty = none) (dst : Region) :
    Scv1.loadFrom host image dst = (false, dst) := by
  rcases host with _ | dir
  · rfl
  · rw [empty dir rfl, Scv1.loadFrom, absent]
    rfl

theorem powerOn_size (build : Build) (host : Option StateDir) :
    (build.powerOn host).eeprom.size = build.eepromSize ∧ (build.powerOn host).flash.size = build.flashSize := by
  cases build with
  | sim cfg =>
    rcases host with _ | dir
    · exact ⟨rfl, rfl⟩
    · exact ⟨regionLoad_size, regionLoad_size⟩
  | scv1 memory =>
    have eeprom := loadFrom_size host StateDir.eeprom (Scv1.eepromOf memory)
    have dflash := loadFrom_size host StateDir.flash (Scv1.dflashOf memory)
    rw [Build.powerOn, Scv1.scv1NvmPowerOn]
    split
    · refine ⟨eeprom, ?_⟩
      dsimp only
      split
      · exact dflash
      · exact dflash
    · exact ⟨eeprom, dflash⟩

/-- Power on a chip without files makes it erased. -/
theorem powerOn_blank (build : Build) {host : Option StateDir} (empty : ∀ dir, host = some dir → dir = .empty)
    (blank : ∀ memory, build = .scv1 memory → Scv1.hasFs (Scv1.eepromOf memory) = false) :
    (∀ i < (build.powerOn host).eeprom.size.toNat, (build.powerOn host).eeprom.byte i = 0xFF) ∧
      ∀ i < (build.powerOn host).flash.size.toNat, (build.powerOn host).flash.byte i = 0xFF := by
  have filled (r : Region) : ∀ i < r.size.toNat, (r.fill 0 r.size.toNat 0xFF).byte i = 0xFF := by
    intro i inside
    rw [Region.fill_byte, if_pos (by omega)]
  cases build with
  | sim cfg =>
    rcases host with _ | dir
    · exact ⟨filled (Region.uniform _ _), filled (Region.uniform _ _)⟩
    · rw [empty dir rfl]
      exact ⟨filled (Region.uniform _ _), filled (Region.uniform _ _)⟩
  | scv1 memory =>
    have erased : Scv1.scv1NvmPowerOn host memory =
        ⟨Scv1.erased (Scv1.eepromOf memory), Scv1.erased (Scv1.dflashOf memory)⟩ := by
      rw [Scv1.scv1NvmPowerOn, loadFrom_empty empty rfl, loadFrom_empty empty rfl, blank memory rfl]
      rfl
    rw [Build.powerOn, erased]
    exact ⟨filled (Scv1.eepromOf memory), filled (Scv1.dflashOf memory)⟩

/-- Power on a chip with files loads them. -/
theorem powerOn_reloads (build : Build) {nvm : Nvm} (eeprom : 0 < nvm.eeprom.size.toNat)
    (flash : 0 < nvm.flash.size.toNat) : Reloads nvm (build.powerOn (some (imagesOf nvm))) := by
  have loads (e f : Region) : Reloads nvm
      ⟨Sim.regionLoad (some (imageOf nvm.eeprom)) e, Sim.regionLoad (some (imageOf nvm.flash)) f⟩ := by
    constructor
    · intro i inside
      exact regionLoad_byte (by simpa using inside)
    · intro i inside
      exact regionLoad_byte (by simpa using inside)
  cases build with
  | sim cfg => exact loads _ _
  | scv1 memory =>
    have content {r : Region} (some : 0 < r.size.toNat) : imageOf r ≠ [] :=
      List.length_pos_iff.mp (by rw [imageOf, Region.read_length]; exact some)
    have both : Scv1.scv1NvmPowerOn (some (imagesOf nvm)) memory =
        ⟨Sim.regionLoad (some (imageOf nvm.eeprom)) (Scv1.eepromOf memory),
          Sim.regionLoad (some (imageOf nvm.flash)) (Scv1.dflashOf memory)⟩ := by
      rw [Scv1.scv1NvmPowerOn, Scv1.loadFrom, Scv1.loadFrom, imagesOf]
      dsimp only
      have rooms : (Scv1.eepromOf memory).size.toNat ≠ 0 ∧ (Scv1.dflashOf memory).size.toNat ≠ 0 := by
        show Scv1.scv1EepromSize.toNat ≠ 0 ∧ Scv1.scv1DflashSize.toNat ≠ 0
        decide
      rw [loadRegion_some (content eeprom) rooms.1, loadRegion_some (content flash) rooms.2]
      rfl
    rw [Build.powerOn, both]
    exact loads _ _

/-- The program comes up with the service of the session. -/
theorem session_boots (shelves : Shelves dir kept) (fits : x.Fits kept) :
    ∃ card, scosInit (powered (x.build.powerOn (x.host dir))) = (.ok, card) ∧
      card.store.hal.nvm.flash.size = x.build.flashSize ∧ Refines card (x.service kept) := by
  obtain ⟨eeprom, flash⟩ := powerOn_size x.build (x.host dir)
  have slots := fits.slots
  have space := fits.space
  rw [← eeprom] at slots
  rw [← flash] at space
  rw [Session.service, ← flash]
  by_cases fresh : x.seen kept = none
  · rw [fresh] at space ⊢
    have empty : ∀ seen, x.host dir = some seen → seen = .empty := by
      intro seen there
      unfold Session.host at there
      unfold Session.seen at fresh
      split at there
      · rename_i hosted
        rw [if_pos hosted] at fresh
        cases there
        rw [fresh] at shelves
        exact shelves
      · cases there
    obtain ⟨erasedEeprom, erasedFlash⟩ := powerOn_blank x.build empty (fits.blank fresh)
    exact erased_refines erasedEeprom erasedFlash slots space
  · obtain ⟨hosted, k, rfl⟩ : x.hosted ∧ ∃ k, kept = some k := by
      unfold Session.seen at fresh
      split at fresh
      · exact ⟨‹_›, Option.ne_none_iff_exists'.mp fresh⟩
      · exact absurd rfl fresh
    have sees : x.seen (some k) = some k := if_pos hosted
    have opens : x.host dir = some dir := if_pos hosted
    obtain ⟨card, cursor, refines, size, content, rfl⟩ := shelves
    rw [sees] at space ⊢
    rw [opens] at slots space ⊢
    obtain ⟨t, place, stands⟩ := refines.stands
    have table := stands.ready.holds.fits
    exact reload_refines refines size (powerOn_reloads x.build (by omega) (by omega)) slots space

end Boot

section Run
variable {card : Card} {s : Service} {host : Option StateDir} {orders : List Order}

theorem obey_size (refines : Refines card s) (order : Order) :
    (obey card order).store.hal.nvm.flash.size = card.store.hal.nvm.flash.size := by
  obtain ⟨t, place, stands⟩ := refines.stands
  unfold obey
  rcases order.event with _ | event
  · rfl
  · exact (step_shrinks (stands_serving stands) refines.level event).size

theorem script_size (refines : Refines card s) (orders : List Order) :
    (orders.foldl obey card).store.hal.nvm.flash.size = card.store.hal.nvm.flash.size := by
  induction orders generalizing card s with
  | nil => rfl
  | cons order rest ih => exact (ih (order_refines refines atr order).2).trans (obey_size refines order)

/-- The pump has served a script and is at what follows it. -/
theorem loop_serves {hal : CardHal} (speaks : Speaks hal 261 atr) (refines : Refines card s)
    (valid : ∀ order ∈ orders, order.Valid scosApduCmdMax) (rest out : List UInt8) :
    scosCardLoop hal card ⟨script orders ++ rest, out⟩ =
      scosCardLoop hal (orders.foldl obey card) ⟨rest, out ++ printed s orders⟩ := by
  rw [loop_script speaks orders valid, (script_refines refines atr orders).1, printed]

theorem sim_runs {cfg : Sim.VcardConfig}
    (boots : scosInit (powered (Sim.vcardPowerOn (Sim.vcardConfigure cfg) host)) = (.ok, card))
    (refines : Refines card s) (valid : ∀ order ∈ orders, order.Valid scosApduCmdMax) (quits : Bool) :
    Sim.main cfg host (script orders ++ if quits then chars ".quit\n" else []) =
      ⟨some 0, printed s orders, host.map fun _ => imagesOf (orders.foldl obey card).store.hal.nvm⟩ := by
  have down (out : List UInt8) : scosCardLoop (sim atr) (orders.foldl obey card)
      ⟨if quits then chars ".quit\n" else [], out⟩ = (.linkDown, orders.foldl obey card, ⟨[], out⟩) := by
    cases quits with
    | true =>
      have quit := @loop_quit (sim atr) (orders.foldl obey card) atr (sim_speaks atr (by decide) (by decide)) [] out
      rw [List.append_nil] at quit
      exact quit
    | false =>
      have gone : (sim atr).receive 261 ⟨[], out⟩ = (.linkDown, ⟨[], out⟩) := by
        show Sim.halCardReceive atr 261 ⟨[], out⟩ = _
        rw [Sim.halCardReceive]
        rfl
      exact loop_got gone
  have serves :=
    loop_serves (sim_speaks atr (by decide) (by decide)) refines valid (if quits then chars ".quit\n" else []) []
  rw [List.nil_append, down] at serves
  rw [Sim.main, boots]
  dsimp only
  rw [if_neg (by simp [fatal]), serves]
  rfl

theorem scv1_runs {memory : Scv1.Memory} (boots : scosInit (powered (Scv1.scv1NvmPowerOn host memory)) = (.ok, card))
    (refines : Refines card s) (valid : ∀ order ∈ orders, order.Valid scosApduCmdMax) (quits : Bool) (out : List UInt8) :
    Scv1.cardMain host memory ⟨script orders ++ if quits then chars ".quit\n" else [], out⟩ =
      if quits then ⟨Scv1.semihostExit host, out ++ Scv1.banner host.isSome ++ printed s orders ++ Scv1.closing,
        host.map fun _ => imagesOf (orders.foldl obey card).store.hal.nvm⟩
      else ⟨none, out ++ Scv1.banner host.isSome ++ printed s orders, host⟩ := by
  have opens : Scv1.opening host card = Scv1.banner host.isSome := by
    rw [Scv1.opening, refines.active]
    rfl
  have serves :=
    loop_serves (scv1_speaks atr (by decide) (by decide)) refines valid (if quits then chars ".quit\n" else [])
    (out ++ Scv1.banner host.isSome)
  rw [Scv1.cardMain, boots]
  dsimp only
  rw [if_neg (by simp [fatal]), opens, serves]
  cases quits with
  | true =>
    have quit := @loop_quit (scv1 atr) (orders.foldl obey card) atr (scv1_speaks atr (by decide) (by decide)) []
      (out ++ Scv1.banner host.isSome ++ printed s orders)
    rw [List.append_nil] at quit
    rw [if_pos rfl, if_pos rfl, quit]
    rfl
  | false =>
    have blocks (out : List UInt8) : (scv1 atr).receive 261 ⟨[], out⟩ = (.waiting, ⟨[], out⟩) := by
      show Scv1.halCardReceive atr 261 ⟨[], out⟩ = _
      rw [Scv1.halCardReceive]
      rfl
    rw [if_neg Bool.false_ne_true, if_neg Bool.false_ne_true, loop_got (blocks _)]
    rfl

end Run

section Sessions
variable {dir : StateDir} {kept : Option Kept} {x : Session}

/-- What a program leaves behind when it powers its card down. -/
theorem shelves_after {card : Card} {s : Service} (refines : Refines card s)
    (size : card.store.hal.nvm.flash.size = x.build.flashSize) (orders : List Order) :
    Shelves (imagesOf (orders.foldl obey card).store.hal.nvm)
      (some ⟨(orders.foldl serves s).volume, x.build.flashSize.toNat⟩) := by
  refine ⟨orders.foldl obey card, (orders.foldl serves s).cursor, (script_refines refines atr orders).2, ?_,
    flashSize_pos x.build, rfl⟩
  rw [script_size refines, size]

/-- The directory after a session, if it is one that writes it, or as it was. -/
theorem session_leaves {card : Card} (shelves : Shelves dir kept) (refines : Refines card (x.service kept))
    (size : card.store.hal.nvm.flash.size = x.build.flashSize) :
    Shelves (if x.hosted ∧ x.ends then imagesOf (x.orders.foldl obey card).store.hal.nvm else dir) (x.after kept) := by
  rw [Session.after]
  split
  · exact shelves_after refines size x.orders
  · exact shelves

/-- The firmware on a card that comes up, on a UART that has been used before. -/
theorem scv1_ends {memory : Scv1.Memory} {card : Card} {s : Service} (board : x.build = .scv1 memory)
    (boots : scosInit (powered (x.build.powerOn (x.host dir))) = (.ok, card)) (refines : Refines card s)
    (valid : ∀ order ∈ x.orders, order.Valid scosApduCmdMax) (out : List UInt8) :
    let ran := Scv1.cardMain (x.host dir) memory ⟨x.input, out⟩
    ran.code = x.code ∧ ran.printed = out ++ (x.opening ++ printed s x.orders ++ x.closing) ∧
      ran.host.getD dir = if x.hosted ∧ x.ends then imagesOf (x.orders.foldl obey card).store.hal.nvm else dir := by
  obtain ⟨build, hosted, orders, quits⟩ := x
  cases board
  intro ran
  have ended : ran = _ := scv1_runs boots refines valid quits out
  have shows : ran.printed = out ++ (Scv1.banner hosted ++ printed s orders ++ if quits then Scv1.closing else []) := by
    rw [ended]
    cases hosted <;> cases quits <;> simp [Session.host]
  refine ⟨?_, shows, ?_⟩
  · rw [ended]
    cases hosted <;> cases quits <;> rfl
  · rw [ended]
    cases hosted <;> cases quits <;> rfl

/-- One session shows the lines of the service it started with, and leaves the directory
with the files of the service it ended with, or as it was. -/
theorem session_keeps (shelves : Shelves dir kept) (fits : x.Fits kept) :
    ((x.run dir).code, (x.run dir).printed) = x.shown kept ∧ Shelves ((x.run dir).host.getD dir) (x.after kept) := by
  obtain ⟨card, boots, size, refines⟩ := session_boots shelves fits
  have left := session_leaves shelves refines size
  rcases board : x.build with cfg | memory
  · obtain ⟨build, hosted, orders, quits⟩ := x
    cases board
    have ran : Session.run ⟨.sim cfg, hosted, orders, quits⟩ dir = _ := sim_runs boots refines fits.valid quits
    rw [ran]
    refine ⟨Prod.ext rfl (by simp [Session.shown, Session.opening, Session.closing]), ?_⟩
    cases hosted with
    | true => exact left
    | false => exact left
  · obtain ⟨code, printed, host⟩ := scv1_ends board boots refines fits.valid []
    rw [Session.run, board]
    dsimp only
    rw [host]
    exact ⟨Prod.ext code printed, left⟩

/-- What a list of sessions on one directory shows. -/
def showings (dir : StateDir) : List Session → List (Option Nat × List UInt8)
  | [] => []
  | x :: rest => ((x.run dir).code, (x.run dir).printed) :: showings ((x.run dir).host.getD dir) rest

/-- The same for the service that is kept. -/
noncomputable def keptShowings (kept : Option Kept) : List Session → List (Option Nat × List UInt8)
  | [] => []
  | x :: rest => x.shown kept :: keptShowings (x.after kept) rest

/-- Each session fits what it finds. -/
def AllFit (kept : Option Kept) : List Session → Prop
  | [] => True
  | x :: rest => x.Fits kept ∧ AllFit (x.after kept) rest

theorem showings_kept (shelves : Shelves dir kept) (sessions : List Session) (fit : AllFit kept sessions) :
    showings dir sessions = keptShowings kept sessions := by
  induction sessions generalizing dir kept with
  | nil => rfl
  | cons x rest ih =>
    obtain ⟨same, after⟩ := session_keeps shelves fit.1
    rw [showings, keptShowings, same, ih after fit.2]

end Sessions

/-- Any sessions that fit, of either build and on chips of any size that has room, are run
one after the other, with a directory that is empty at first or without it. Those that have
the directory show one card that keeps its files: each goes on from the last of them that
came to its end. Those without it each show a card as the factory makes it. -/
theorem one_card_over_all_sessions (sessions : List Session) (fit : AllFit none sessions) :
    showings .empty sessions = keptShowings none sessions :=
  @showings_kept .empty none rfl sessions fit

/-- The simulator writes a byte into the EF with the short identifier 1. -/
def written : Session := ⟨.sim ⟨656, 128⟩, true, [.apdu [0x00, 0xD6, 0x81, 0x00, 0x01, 0xAA]], true⟩

/-- The firmware writes another one and is switched off. -/
def lost : Session := ⟨.scv1 fun _ => 0x00, true, [.apdu [0x00, 0xD6, 0x81, 0x00, 0x01, 0xBB]], false⟩

/-- A simulator with more EEPROM reads it. -/
def readBack : Session := ⟨.sim ⟨700, 128⟩, true, [.apdu [0x00, 0xB0, 0x81, 0x00, 0x01]], false⟩

theorem one_card_over_a_lost_session : ∃ shown, showings .empty [written, lost, readBack] =
    [(some 0, chars "9000\n"), shown, (some 0, chars "AA9000\n")] := by
  have valid (cmd : List UInt8) (size : 1 ≤ cmd.length ∧ cmd.length ≤ scosApduCmdMax) :
      ∀ order ∈ [Order.apdu cmd], order.Valid scosApduCmdMax := List.forall_mem_singleton.mpr size
  obtain ⟨kept, left, flash⟩ : ∃ kept, written.after none = some kept ∧ kept.flash = 128 := ⟨_, rfl, rfl⟩
  have used : kept.used ≤ 128 := flash ▸ Nat.sub_le ..
  have first : written.Fits none := ⟨valid _ (by decide), by decide, by decide, fun _ _ board => by cases board⟩
  have second : lost.Fits (some kept) :=
    ⟨valid _ (by decide), by decide, Nat.le_trans used (by decide), fun none => by cases none⟩
  have third : readBack.Fits (some kept) := ⟨valid _ (by decide), by decide, used, fun none => by cases none⟩
  have two : AllFit none [written, readBack] := ⟨first, by rw [left]; exact ⟨third, trivial⟩⟩
  have three : AllFit none [written, lost, readBack] := ⟨first, by rw [left]; exact ⟨second, third, trivial⟩⟩
  have both : showings .empty [written, readBack] = [(some 0, chars "9000\n"), (some 0, chars "AA9000\n")] := by
    decide +kernel
  rw [@showings_kept .empty none rfl _ two, keptShowings, keptShowings, keptShowings, left] at both
  obtain ⟨here, there⟩ := List.cons.inj both
  have same : lost.after (some kept) = some kept := if_neg (by decide)
  refine ⟨lost.shown (some kept), ?_⟩
  rw [one_card_over_all_sessions _ three, keptShowings, keptShowings, keptShowings, keptShowings, left, same, here,
    (List.cons.inj there).1]

end CardOs.SessionProofs
