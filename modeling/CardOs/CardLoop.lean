import CardOs.Kernel
import CardOs.Transport

/-! `src/kernel/card_loop.c`: the pump that takes commands from the link and sends the
answers, over the card half of either HAL. -/
namespace CardOs.CardLoop
open CardOs.Kernel CardOs.Transport

/-- `SCOS_APDU_CMD_MAX` and `SCOS_APDU_RSP_MAX`, the sizes of the two buffers in the kernel. -/
def scosApduCmdMax : Nat := 261
def scosApduRspMax : UInt16 := 258

/-- What the pump acts on before it asks for more. -/
def Received.isTraffic : Received → Bool
  | .command _ | .reset => true
  | .linkDown | .param | .waiting => false

/-- `hal_card_receive` and `hal_card_send` of a build. To deliver anything takes input, and
sending takes none. -/
structure CardHal where
  receive : UInt32 → Link → Received × Link
  send : List UInt8 → Link → Link
  advances : ∀ cap link, Received.isTraffic (receive cap link).1 → (receive cap link).2.input.length < link.input.length
  sends : ∀ bytes link, (send bytes link).input = link.input

theorem CardHal.shorter {hal : CardHal} {cap : UInt32} {link rest : Link} {r : Received}
    (got : hal.receive cap link = (r, rest)) (traffic : Received.isTraffic r) :
      rest.input.length < link.input.length := by
  have advanced := hal.advances cap link
  rw [got] at advanced
  exact advanced traffic

/-- The pump returned, waits in the link for more, or spins on a link that refuses its buffer. -/
inductive Ended where
  | linkDown
  | waiting
  | spinning
  deriving DecidableEq, Repr

def scosCardLoop (hal : CardHal) (card : Card) (link : Link) : Ended × Card × Link :=
  match _ : hal.receive (UInt32.ofNat scosApduCmdMax) link with
  | (.linkDown, link) => (.linkDown, card, link)
  | (.waiting, link) => (.waiting, card, link)
  | (.param, link) => (.spinning, card, link)
  | (.reset, link) => scosCardLoop hal (scosReset card) link
  | (.command bytes, link) =>
    if bytes.length > scosApduCmdMax then scosCardLoop hal card link
    else match scosProcess (some bytes) scosApduRspMax card with
      | (.ok, rsp, card) => scosCardLoop hal card (hal.send rsp link)
      | (_, _, card) => scosCardLoop hal card link
termination_by link.input.length
decreasing_by
  · exact CardHal.shorter ‹_› rfl
  · exact CardHal.shorter ‹_› rfl
  · rw [hal.sends]
    exact CardHal.shorter ‹_› rfl
  · exact CardHal.shorter ‹_› rfl

section Links
variable (atr : List UInt8) (cap : UInt32) (link : Link)

private theorem sim_advances : Received.isTraffic (Sim.halCardReceive atr cap link).1 →
    (Sim.halCardReceive atr cap link).2.input.length < link.input.length := by
  fun_induction Sim.halCardReceive atr cap link with
  | case1 | case2 | case4 =>
    intro traffic
    cases traffic
  | case5 | case8 => exact fun _ => Sim.fgets_rest ‹_›
  | case3 | case6 | case7 =>
    rename_i ih
    exact fun traffic => Nat.lt_trans (ih traffic) (Sim.fgets_rest ‹_›)

private theorem scv1_advances : Received.isTraffic (Scv1.halCardReceive atr cap link).1 →
    (Scv1.halCardReceive atr cap link).2.input.length < link.input.length := by
  fun_induction Scv1.halCardReceive atr cap link with
  | case1 | case2 | case5 =>
    intro traffic
    cases traffic
  | case7 | case11 => exact fun _ => Scv1.scanLine_rest ‹_›
  | case3 | case4 | case6 | case8 | case9 | case10 =>
    rename_i ih
    exact fun traffic => Nat.lt_trans (ih traffic) (Scv1.scanLine_rest ‹_›)

end Links

/-- The simulator's link, with the ATR of the virtual chip. -/
def sim (atr : List UInt8) : CardHal where
  receive := Sim.halCardReceive atr
  send := Sim.halCardSend
  advances := sim_advances atr
  sends _ _ := rfl

/-- The UART of SCV1, with the ATR of the program that is linked to it. -/
def scv1 (atr : List UInt8) : CardHal where
  receive := Scv1.halCardReceive atr
  send := Scv1.halCardSend
  advances := scv1_advances atr
  sends _ _ := rfl

end CardOs.CardLoop
