import CardOs.CardLoop
import CardOs.ServiceProofs
import CardOs.TransportProofs

/-! The card at the end of its link. A reader sends lines of text and gets lines of text
back; over either link the pump answers each order with one line, in order, and the lines
are those of the file service. -/
namespace CardOs.LoopProofs
open CardOs.Kernel CardOs.Transport CardOs.TransportProofs CardOs.CardLoop CardOs.FileService CardOs.ServiceProofs

/-- A line of hex, as both links print it. -/
def hexLine (bytes : List UInt8) : List UInt8 := bytes.flatMap Sim.printHex ++ [0x0A]

/-- What a reader asks for. -/
inductive Order where
  | apdu (cmd : List UInt8)
  | reset
  | atr
  | comment (text : List UInt8)
  | blank
  deriving DecidableEq, Repr

def Order.line : Order → List UInt8
  | .apdu cmd => hexLine cmd
  | .reset => chars ".reset\n"
  | .atr => chars ".atr\n"
  | .comment text => 0x23 :: text ++ [0x0A]
  | .blank => [0x0A]

/-- A command that fits the buffer it is for, and a comment that is one line. -/
def Order.Valid (cap : Nat) : Order → Prop
  | .apdu cmd => 1 ≤ cmd.length ∧ cmd.length ≤ cap
  | .reset | .atr | .blank => True
  | .comment text => (∀ c ∈ text, c ≠ 0x0A ∧ c ≠ 0x0D ∧ c ≠ 0x00) ∧ text.length < 2046

def script (orders : List Order) : List UInt8 := orders.flatMap Order.line

/-- How a link treats the lines of a reader; the two links are alike in that. -/
structure Speaks (hal : CardHal) (cap : UInt32) (atr : List UInt8) : Prop where
  command : ∀ cmd rest out, 1 ≤ cmd.length → cmd.length ≤ cap.toNat →
    hal.receive cap ⟨hexLine cmd ++ rest, out⟩ = (.command cmd, ⟨rest, out⟩)
  reset : ∀ rest out, hal.receive cap ⟨chars ".reset\n" ++ rest, out⟩ = (.reset, ⟨rest, out ++ hexLine atr⟩)
  atr : ∀ rest out, hal.receive cap ⟨chars ".atr\n" ++ rest, out⟩ = hal.receive cap ⟨rest, out ++ hexLine atr⟩
  quit : ∀ rest out, hal.receive cap ⟨chars ".quit\n" ++ rest, out⟩ = (.linkDown, ⟨rest, out⟩)
  comment : ∀ text rest out, (∀ c ∈ text, c ≠ 0x0A ∧ c ≠ 0x0D ∧ c ≠ 0x00) → text.length < 2046 →
    hal.receive cap ⟨0x23 :: text ++ 0x0A :: rest, out⟩ = hal.receive cap ⟨rest, out⟩
  blank : ∀ rest out, hal.receive cap ⟨0x0A :: rest, out⟩ = hal.receive cap ⟨rest, out⟩
  send : ∀ bytes link, hal.send bytes link = { link with output := link.output ++ hexLine bytes }

section Simulator
variable {atr rest out line : List UInt8} {cap : UInt32}

/-- How the simulator goes on behind a control line. -/
private def afterControl (atr : List UInt8) (cap : UInt32) (link : Link) : Sim.Control → Received × Link
  | .shutdown => (.linkDown, link)
  | .reset => (.reset, link)
  | .handled | .traffic => Sim.halCardReceive atr cap link

private theorem sim_reads (room : cap ≠ 0) (plain : ∀ c ∈ line, c ≠ 0x0A) (short : line.length < 2047)
    {seen : List UInt8}
    (trimmed : Sim.trim (Sim.cString (line ++ [0x0A])) = seen) (content : seen ≠ []) {control : Sim.Control}
    {printed : List UInt8} (handled : Sim.handleControl atr seen = (control, printed)) (own : control ≠ .traffic) :
    Sim.halCardReceive atr cap ⟨line ++ 0x0A :: rest, out⟩ = afterControl atr cap ⟨rest, out ++ printed⟩ control := by
  have read := @fgets_line line rest plain short
  rw [Sim.halCardReceive, if_neg room]
  split
  · rename_i none
    rw [read] at none
    cases none
  · rename_i raw after line'
    rw [read] at line'
    cases line'
    rw [trimmed]
    dsimp only
    rw [if_neg content, handled]
    cases control with
    | traffic => exact absurd rfl own
    | shutdown | reset | handled => rfl

private theorem sim_quit : Sim.handleControl atr (chars ".quit") = (.shutdown, []) := by
  rw [Sim.handleControl, if_neg (by decide +kernel), if_neg (by decide +kernel), if_pos (.inl rfl)]

private theorem sim_atr : Sim.handleControl atr (chars ".atr") = (.handled, hexLine atr) := by
  rw [Sim.handleControl, if_neg (by decide +kernel), if_neg (by decide +kernel), if_neg (by decide +kernel), if_pos rfl]
  rfl

private theorem sim_reset : Sim.handleControl atr (chars ".reset") = (.reset, hexLine atr) := by
  rw [Sim.handleControl, if_neg (by decide +kernel), if_neg (by decide +kernel), if_neg (by decide +kernel),
    if_neg (by decide +kernel), if_pos rfl]
  rfl

/-- A comment is still one when its end is trimmed. -/
private theorem comment_trimmed {text : List UInt8} (plain : ∀ c ∈ text, c ≠ 0x0A ∧ c ≠ 0x0D ∧ c ≠ 0x00) :
    ∃ kept, Sim.trim (Sim.cString (0x23 :: text ++ [0x0A])) = 0x23 :: kept := by
  have whole : Sim.cString (0x23 :: text ++ [0x0A]) = 0x23 :: text ++ [0x0A] := by
    apply List.takeWhile_eq_self_iff.mpr
    intro c member
    rw [List.cons_append, List.mem_cons, List.mem_append, List.mem_singleton] at member
    rcases member with rfl | inside | rfl
    · decide
    · simpa using (plain c inside).2.2
    · decide
  rw [whole]
  have kept : Sim.trim (0x23 :: text ++ [0x0A]) <+: 0x23 :: text ++ [0x0A] := List.rdropWhile_prefix ..
  obtain ⟨cut, split⟩ := kept
  cases trimmed : Sim.trim (0x23 :: text ++ [0x0A]) with
  | nil =>
    have all := List.rdropWhile_eq_nil_iff.mp trimmed 0x23 (by simp)
    exact absurd all (by decide)
  | cons c kept =>
    rw [trimmed] at split
    exact ⟨kept, by rw [(List.cons.inj split).1]⟩

theorem sim_speaks (atr : List UInt8) (room : cap ≠ 0) (small : cap.toNat ≤ 261) : Speaks (sim atr) cap atr where
  command cmd rest out content fits := by
    obtain ⟨line, sent, -, delivers, -⟩ := @round_trips atr atr cap room cmd content
      (Nat.le_min.mpr ⟨fits, Nat.le_trans fits (Nat.le_trans small (by decide))⟩) ⟨[], []⟩
    have same : hexLine cmd = line ++ [0x0A] := sent
    rw [same, List.append_assoc]
    exact delivers rest out
  reset rest out :=
    @sim_reads atr rest out (chars ".reset") cap room (by decide +kernel) (by decide) _ (by decide +kernel)
      (by decide +kernel) _ _ sim_reset (by decide)
  atr rest out :=
    @sim_reads atr rest out (chars ".atr") cap room (by decide +kernel) (by decide) _ (by decide +kernel)
      (by decide +kernel) _ _ sim_atr (by decide)
  quit rest out := by
    have quit := @sim_reads atr rest out (chars ".quit") cap room (by decide +kernel) (by decide) _ (by decide +kernel)
      (by decide +kernel) _ _ sim_quit (by decide)
    rwa [List.append_nil] at quit
  comment text rest out plain short := by
    obtain ⟨kept, trimmed⟩ := comment_trimmed plain
    have handled : Sim.handleControl atr (0x23 :: kept) = (.handled, []) := if_pos rfl
    have skipped := @sim_reads atr rest out (0x23 :: text) cap room
      (List.forall_mem_cons.mpr ⟨by decide, fun c member => (plain c member).1⟩)
      (by simpa using Nat.succ_lt_succ short) _ trimmed (by simp) _ _ handled (by decide)
    rwa [List.append_nil] at skipped
  blank rest out := by
    have read := @fgets_line [] rest (by simp) (by decide)
    show Sim.halCardReceive atr cap ⟨0x0A :: rest, out⟩ = _
    rw [Sim.halCardReceive, if_neg room]
    split
    · rename_i none
      cases none.symm.trans read
    · rename_i raw after line
      cases line.symm.trans read
      exact if_pos rfl
  send bytes link := rfl

end Simulator

section Uart
variable {atr rest out line : List UInt8} {cap : UInt32} {st : Scv1.LineState}

/-- One control line at the UART. -/
private theorem scv1_reads (room : cap ≠ 0) (plain : ∀ c ∈ line, c ≠ 0x0A ∧ c ≠ 0x0D)
    (taken : line.foldl (Scv1.takeChar cap) .fresh = st) (content : st.seen ≠ 0) (control : st.isControl = true) :
    Scv1.halCardReceive atr cap ⟨line ++ 0x0A :: rest, out⟩ =
      if st.control.getD 0 0 = 0x23 then Scv1.halCardReceive atr cap ⟨rest, out⟩
      else if st.control.getD 1 0 = 0x71 then (.linkDown, ⟨rest, out⟩)
      else if st.control.getD 1 0 = 0x61 then Scv1.halCardReceive atr cap ⟨rest, out ++ Scv1.sendAtr atr⟩
      else if st.control.getD 1 0 = 0x72 then (.reset, ⟨rest, out ++ Scv1.sendAtr atr⟩)
      else Scv1.halCardReceive atr cap ⟨rest, out ++ chars "transport: unknown control\n"⟩ := by
  have scanned := @scanLine_line cap line rest .fresh plain
  rw [taken] at scanned
  rw [Scv1.halCardReceive, if_neg room]
  split
  · rename_i none
    rw [scanned] at none
    cases none
  · rename_i st' after line'
    rw [scanned] at line'
    cases line'
    rw [if_neg content, if_pos control]

/-- A comment stays one to its end. -/
private theorem comment_taken {text : List UInt8} (control : st.isControl = true) (hash : st.control.getD 0 0 = 0x23)
    (started : st.control ≠ []) (some : 1 ≤ st.seen.toNat) (short : st.seen.toNat + text.length < 4294967296) :
    let after := text.foldl (Scv1.takeChar cap) st
    after.isControl = true ∧ after.control.getD 0 0 = 0x23 ∧ after.seen ≠ 0 := by
  induction text generalizing st with
  | nil =>
    refine ⟨control, hash, ?_⟩
    rintro zero
    have zero : st.seen = 0 := zero
    rw [zero] at some
    cases some
  | cons c text ih =>
    rw [List.length_cons] at short
    have seen : (st.seen + 1).toNat = st.seen.toNat + 1 := by
      rw [UInt32.toNat_add]
      exact Nat.mod_eq_of_lt (by simp only [UInt32.reduceToNat]; omega)
    have nonzero : st.seen ≠ 0 := by
      intro zero
      rw [zero] at some
      cases some
    have kept : (Scv1.takeChar cap st c).isControl = true ∧ (Scv1.takeChar cap st c).control.getD 0 0 = 0x23 ∧
        (Scv1.takeChar cap st c).control ≠ [] ∧ (Scv1.takeChar cap st c).seen = st.seen + 1 := by
      obtain ⟨first, others, chars⟩ := List.exists_cons_of_ne_nil started
      unfold Scv1.takeChar
      simp only [if_neg nonzero, control, if_true]
      split
      · rw [chars] at hash ⊢
        exact ⟨rfl, hash, by simp, rfl⟩
      · exact ⟨rfl, hash, started, rfl⟩
    obtain ⟨control', hash', started', seen'⟩ := kept
    refine ih control' hash' started' ?_ ?_
    · rw [seen', seen]
      exact Nat.le_add_left ..
    · rw [seen', seen]
      omega

/-- The name of a control line is kept while there is room for it. -/
private theorem name_taken {done text : List UInt8} (started : done ≠ []) (short : done.length + text.length ≤ 15) :
    text.foldl (Scv1.takeChar cap) ⟨[], none, false, UInt32.ofNat done.length, true, done⟩ =
      ⟨[], none, false, UInt32.ofNat (done ++ text).length, true, done ++ text⟩ := by
  induction text generalizing done with
  | nil => rw [List.foldl_nil, List.append_nil]
  | cons c text ih =>
    rw [List.length_cons] at short
    have nonzero : UInt32.ofNat done.length ≠ 0 := by
      intro zero
      have length := congrArg UInt32.toNat zero
      rw [UInt32.toNat_ofNat_of_lt' (show _ < 2 ^ 32 by omega)] at length
      exact started (List.length_eq_zero_iff.mp length)
    have step : Scv1.takeChar cap ⟨[], none, false, UInt32.ofNat done.length, true, done⟩ c =
        ⟨[], none, false, UInt32.ofNat (done ++ [c]).length, true, done ++ [c]⟩ := by
      simp only [Scv1.takeChar, if_neg nonzero, if_true, if_pos (show done.length < 15 by omega), List.length_append,
        List.length_singleton, UInt32.ofNat_add]
      rfl
    rw [List.foldl_cons, step, ih (by simp) (by rw [List.length_append, List.length_singleton]; omega),
      List.append_assoc, List.singleton_append]

/-- A line with a name behind a dot. -/
private theorem scv1_named {name : List UInt8} (room : cap ≠ 0) (plain : ∀ c ∈ name, c ≠ 0x0A ∧ c ≠ 0x0D)
    (short : name.length ≤ 14) :
    Scv1.halCardReceive atr cap ⟨0x2E :: name ++ 0x0A :: rest, out⟩ =
      if name.getD 0 0 = 0x71 then (.linkDown, ⟨rest, out⟩)
      else if name.getD 0 0 = 0x61 then Scv1.halCardReceive atr cap ⟨rest, out ++ Scv1.sendAtr atr⟩
      else if name.getD 0 0 = 0x72 then (.reset, ⟨rest, out ++ Scv1.sendAtr atr⟩)
      else Scv1.halCardReceive atr cap ⟨rest, out ++ chars "transport: unknown control\n"⟩ := by
  have first : Scv1.takeChar cap .fresh 0x2E =
    ⟨[], none, false, UInt32.ofNat [(0x2E : UInt8)].length, true, [0x2E]⟩ := rfl
  have taken : (0x2E :: name).foldl (Scv1.takeChar cap) .fresh =
      ⟨[], none, false, UInt32.ofNat ([0x2E] ++ name).length, true, [0x2E] ++ name⟩ := by
    rw [List.foldl_cons, first]
    exact name_taken (List.cons_ne_nil _ _) (by rw [List.length_singleton]; omega)
  refine (scv1_reads room (List.forall_mem_cons.mpr ⟨by decide, plain⟩) taken ?_ rfl).trans
    (if_neg (show (0x2E : UInt8) ≠ 0x23 by decide))
  intro zero
  have length := congrArg UInt32.toNat zero
  rw [UInt32.toNat_ofNat_of_lt'
    (show List.length _ < 2 ^ 32 by simp only [List.length_append, List.length_singleton]; omega)] at length
  cases length

theorem scv1_speaks (atr : List UInt8) (room : cap ≠ 0) (small : cap.toNat ≤ 261) : Speaks (scv1 atr) cap atr := by
  have printed : Scv1.sendAtr atr = hexLine atr := by
    rw [Scv1.sendAtr, hexLine, senders_agree.1, senders_agree.2]
  have named (name : String) (rest out : List UInt8) (plain : ∀ c ∈ chars name, c ≠ 0x0A ∧ c ≠ 0x0D)
      (short : (chars name).length ≤ 14) := @scv1_named atr rest out cap (chars name) room plain short
  refine ⟨?_, ?_, ?_, ?_, ?_, ?_, ?_⟩
  · intro cmd rest out content fits
    obtain ⟨line, sent, -, -, delivers⟩ := @round_trips atr atr cap room cmd content
      (Nat.le_min.mpr ⟨fits, Nat.le_trans fits (Nat.le_trans small (by decide))⟩) ⟨[], []⟩
    have same : hexLine cmd = line ++ [0x0A] := sent
    rw [same, List.append_assoc]
    exact delivers rest out
  · intro rest out
    refine (named "reset" rest out (by decide +kernel) (by decide)).trans ?_
    rw [if_neg (by decide +kernel), if_neg (by decide +kernel), if_pos (by decide +kernel), printed]
  · intro rest out
    refine (named "atr" rest out (by decide +kernel) (by decide)).trans ?_
    rw [if_neg (by decide +kernel), if_pos (by decide +kernel), printed]
    rfl
  · intro rest out
    exact (named "quit" rest out (by decide +kernel) (by decide)).trans (if_pos (by decide +kernel))
  · intro text rest out plain short
    have first : Scv1.takeChar cap .fresh 0x23 = ⟨[], none, false, 1, true, [0x23]⟩ := rfl
    obtain ⟨control, hash, content⟩ :=
      @comment_taken cap (Scv1.takeChar cap .fresh 0x23) text (by rw [first]) (by rw [first]; rfl)
      (by rw [first]; simp) (by rw [first]; decide) (by rw [first]; simp only [UInt32.reduceToNat]; omega)
    refine (@scv1_reads atr rest out (0x23 :: text) cap _ room ?_ rfl content control).trans (if_pos hash)
    exact List.forall_mem_cons.mpr ⟨by decide, fun c member => ⟨(plain c member).1, (plain c member).2.1⟩⟩
  · intro rest out
    show Scv1.halCardReceive atr cap ⟨0x0A :: rest, out⟩ = _
    rw [Scv1.halCardReceive, if_neg room]
    split
    · rename_i none
      cases none
    · rename_i st after line
      cases line
      exact if_pos rfl
  · intro bytes link
    show Scv1.halCardSend bytes link = _
    rw [Scv1.halCardSend, hexLine, senders_agree.1, senders_agree.2]

end Uart

section Pump
variable {hal : CardHal} {card card' : Card} {link link' : Link} {r : Received} {cmd rsp atr : List UInt8}

/-- How the pump goes on with what it got. -/
def pumped (hal : CardHal) (card : Card) (link : Link) : Received → Ended × Card × Link
  | .linkDown => (.linkDown, card, link)
  | .waiting => (.waiting, card, link)
  | .param => (.spinning, card, link)
  | .reset => scosCardLoop hal (scosReset card) link
  | .command bytes =>
    if bytes.length > scosApduCmdMax then scosCardLoop hal card link
    else match scosProcess (some bytes) scosApduRspMax card with
      | (.ok, rsp, card) => scosCardLoop hal card (hal.send rsp link)
      | (_, _, card) => scosCardLoop hal card link

theorem loop_got (got : hal.receive 261 link = (r, link')) :
    scosCardLoop hal card link = pumped hal card link' r := by
  rw [scosCardLoop]
  split <;> rename_i got' <;> cases got'.symm.trans got <;> rfl

/-- The pump sees of the link only what it receives. -/
private theorem loop_congr (same : hal.receive 261 link = hal.receive 261 link') :
    scosCardLoop hal card link = scosCardLoop hal card link' := by
  rcases got : hal.receive 261 link' with ⟨r, rest⟩
  rw [loop_got got, loop_got (same.trans got)]

theorem loop_quit (speaks : Speaks hal 261 atr) (rest out : List UInt8) :
    scosCardLoop hal card ⟨chars ".quit\n" ++ rest, out⟩ = (.linkDown, card, ⟨rest, out⟩) :=
  loop_got (speaks.quit rest out)

end Pump

/-- What an order is to the card; the link deals with some alone. -/
def Order.event : Order → Option CardEvent
  | .apdu cmd => some (.apdu (some cmd) scosApduRspMax)
  | .reset => some .reset
  | .atr | .comment _ | .blank => none

/-- The card after an order. -/
def obey (card : Card) (order : Order) : Card := order.event.elim card (step card)

/-- The lines that answer an order, of which a command has its own. -/
def Order.answers (atr : List UInt8) (own : List UInt8 → List UInt8) : Order → List (List UInt8)
  | .apdu cmd => [own cmd]
  | .reset | .atr => [atr]
  | .comment _ | .blank => []

def answers (atr : List UInt8) (card : Card) : Order → List (List UInt8) :=
  Order.answers atr fun cmd => reply card (.apdu (some cmd) scosApduRspMax)

/-- All it answers a script with. -/
def answersAll (atr : List UInt8) (card : Card) : List Order → List (List UInt8)
  | [] => []
  | order :: rest => answers atr card order ++ answersAll atr (obey card order) rest

section Scripts
variable {hal : CardHal} {atr : List UInt8}

/-- One order: the pump has read its line, the card has obeyed and its answer is out. -/
theorem loop_order (speaks : Speaks hal 261 atr) {order : Order} (valid : order.Valid scosApduCmdMax) (card : Card)
    (rest out : List UInt8) :
    scosCardLoop hal card ⟨order.line ++ rest, out⟩ =
      scosCardLoop hal (obey card order) ⟨rest, out ++ (answers atr card order).flatMap hexLine⟩ := by
  cases order with
  | apdu cmd =>
    obtain ⟨content, fits⟩ := valid
    rcases ran : scosProcess (some cmd) scosApduRspMax card with ⟨status, rsp, card'⟩
    obtain ⟨data, sw, after, answered, -⟩ :=
      AnswerProofs.scosProcess_always_answers (some cmd) scosApduRspMax card (by decide)
    cases ran.symm.trans answered
    rw [Order.line, loop_got (speaks.command cmd rest out content fits), pumped, if_neg (Nat.not_lt.mpr fits), ran]
    dsimp only
    rw [speaks.send, answers, Order.answers, reply, obey, Order.event, Option.elim_some, step, ran,
      List.flatMap_singleton]
  | reset =>
    rw [Order.line, loop_got (speaks.reset rest out), answers, Order.answers, List.flatMap_singleton]
    rfl
  | atr =>
    rw [Order.line, loop_congr (speaks.atr rest out), answers, Order.answers, List.flatMap_singleton]
    rfl
  | comment text =>
    rw [Order.line, List.append_assoc, answers, Order.answers, List.flatMap_nil, List.append_nil]
    exact loop_congr (speaks.comment text rest out valid.1 valid.2)
  | blank =>
    rw [Order.line, answers, Order.answers, List.flatMap_nil, List.append_nil]
    exact loop_congr (speaks.blank rest out)

/-- A whole script. -/
theorem loop_script (speaks : Speaks hal 261 atr) (orders : List Order)
    (valid : ∀ order ∈ orders, order.Valid scosApduCmdMax) (card : Card) (rest out : List UInt8) :
    scosCardLoop hal card ⟨script orders ++ rest, out⟩ =
      scosCardLoop hal (orders.foldl obey card) ⟨rest, out ++ (answersAll atr card orders).flatMap hexLine⟩ := by
  induction orders generalizing card out with
  | nil => simp [script, answersAll]
  | cons order orders ih =>
    obtain ⟨here, later⟩ := List.forall_mem_cons.mp valid
    rw [script, List.flatMap_cons, List.append_assoc, loop_order speaks here, ← script, ih later, answersAll,
      List.flatMap_append, List.append_assoc, List.foldl_cons]

end Scripts

/-! The same for the file service. -/

noncomputable def serves (s : Service) (order : Order) : Service := order.event.elim s fun event => (s.step event).2

noncomputable def replies (atr : List UInt8) (s : Service) : Order → List (List UInt8) :=
  Order.answers atr fun cmd => (s.step (.apdu (some cmd) scosApduRspMax)).1

/-- The lines of a service for a script. -/
noncomputable def repliesAll (atr : List UInt8) (s : Service) : List Order → List (List UInt8)
  | [] => []
  | order :: rest => replies atr s order ++ repliesAll atr (serves s order) rest

section Service
variable {card : Card} {s : Service}

theorem order_refines (refines : Refines card s) (atr : List UInt8) (order : Order) :
    answers atr card order = replies atr s order ∧ Refines (obey card order) (serves s order) := by
  cases order with
  | apdu cmd =>
    obtain ⟨same, after⟩ := step_refines refines (.apdu (some cmd) scosApduRspMax)
    exact ⟨by rw [answers, replies, Order.answers, Order.answers, same], after⟩
  | reset => exact ⟨rfl, (step_refines refines .reset).2⟩
  | atr => exact ⟨rfl, refines⟩
  | comment text => exact ⟨rfl, refines⟩
  | blank => exact ⟨rfl, refines⟩

theorem script_refines (refines : Refines card s) (atr : List UInt8) (orders : List Order) :
    answersAll atr card orders = repliesAll atr s orders ∧ Refines (orders.foldl obey card) (orders.foldl serves s) := by
  induction orders generalizing card s with
  | nil => exact ⟨rfl, refines⟩
  | cons order rest ih =>
    obtain ⟨same, after⟩ := order_refines refines atr order
    obtain ⟨others, last⟩ := ih after
    exact ⟨by rw [answersAll, repliesAll, same, others], last⟩

end Service

/-- A reader that sends a script to a booted card and then quits gets, over either link, the
lines of the file service and nothing else. -/
theorem both_links_carry_the_file_service {eepromSize flashSize : UInt32} {card : Card}
    (boots : scosInit (blankCard eepromSize flashSize) = (.ok, card)) (atr : List UInt8) (orders : List Order)
    (valid : ∀ order ∈ orders, order.Valid scosApduCmdMax) :
    let input := script orders ++ chars ".quit\n"
    let output := (repliesAll atr (Service.factory flashSize) orders).flatMap hexLine
    scosCardLoop (sim atr) card ⟨input, []⟩ = (.linkDown, orders.foldl obey card, ⟨[], output⟩) ∧
      scosCardLoop (scv1 atr) card ⟨input, []⟩ = (.linkDown, orders.foldl obey card, ⟨[], output⟩) := by
  intro input output
  have same := (script_refines (booted_refines boots) atr orders).1
  have carried {hal : CardHal} (speaks : Speaks hal 261 atr) :
      scosCardLoop hal card ⟨input, []⟩ = (.linkDown, orders.foldl obey card, ⟨[], output⟩) := by
    have quit := @loop_quit hal (orders.foldl obey card) atr speaks [] (output)
    rw [List.append_nil] at quit
    rw [loop_script speaks orders valid, same, List.nil_append]
    exact quit
  exact ⟨carried (sim_speaks atr (by decide) (by decide)), carried (scv1_speaks atr (by decide) (by decide))⟩

/-- A comment, a SELECT of a DF with its template, and a reset. -/
def selectThenReset : List Order :=
  [.comment (chars " a DF"), .apdu [0x00, 0xA4, 0x00, 0x00, 0x02, 0x7F, 0x10, 0x00], .reset]

theorem both_links_carry_a_select :
    ∃ card, scosCardLoop (scv1 [0x3B, 0x00]) card ⟨script selectThenReset ++ chars ".quit\n", []⟩ =
      (.linkDown, selectThenReset.foldl obey card, ⟨[], chars "6F0A82013883027F108A01059000\n3B00\n"⟩) := by
  obtain ⟨card, boots⟩ := CardSafety.small_chip_boots
  have valid : ∀ order ∈ selectThenReset, order.Valid scosApduCmdMax := by
    simp only [selectThenReset, List.forall_mem_cons, List.not_mem_nil, false_implies, implies_true, and_true]
    exact ⟨⟨by decide +kernel, by decide +kernel⟩, ⟨by decide, by decide⟩, trivial⟩
  have sent : (answersAll [0x3B, 0x00] (scosInit (blankCard 656 112)).2 selectThenReset).flatMap hexLine =
      chars "6F0A82013883027F108A01059000\n3B00\n" := by decide +kernel
  rw [boots, (script_refines (booted_refines boots) [0x3B, 0x00] selectThenReset).1] at sent
  have carried := (both_links_carry_the_file_service boots [0x3B, 0x00] selectThenReset valid).2
  rw [sent] at carried
  exact ⟨card, carried⟩

end CardOs.LoopProofs
