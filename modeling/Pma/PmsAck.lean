import Mathlib.Data.List.TakeDrop
import Pma.ModuleLengths
import Pma.NeighborList

namespace Pma.PmsAck

open RouterList (PmaElement Addrs Router readPmas processNeighborList processNeighborList_some
  mem_devid_foldl_insertRouterList)

/-!
# Acknowledgements to PMS

Four handlers of BM take a packet from PMS, pass what is behind its header on to
a module or read it as the list of the neighbours, and answer with `OPS_ACK`.
None of them looks at what the passing on or the reading returns.
-/

/-! ## The handlers -/

/-- `POLICY_LIST`. -/
def policyList : UInt8 := 51

/-- `BGP_MRAI`. -/
def bgpMrai : UInt8 := 60

/-- `TC_TUNNEL_COMMAND`. -/
def tcTunnelCommand : UInt8 := 61

/-- A packet from PMS without its header, by the handler that takes it. -/
inductive PmsPacket where
  | policySend (data : List UInt8)
  | mariSend (data : List UInt8)
  | tunCommand (data : List UInt8)
  /-- The elements, if the text is XML, and what the addresses on the stack held. -/
  | neighborList (xml : Option (List PmaElement)) (stack : Addrs)

/-- What a handler finds. -/
structure Surroundings where
  state : RouterList.State
  /-- How many bytes `send` takes on each socket, if it does not fail. -/
  sockets : Int → Option Nat
  /-- What `malloc` left in the buffer of the packet. -/
  heap : Nat → UInt8
  /-- Whether `OPS_ACK` can be sent to PMS. -/
  ackSent : Bool

/-- What a handler returns and does. -/
structure Handled where
  ret : Int
  /-- The bytes that it handed to the socket of the module. -/
  handed : List UInt8
  state : RouterList.State
  /-- Whether PMS was sent `OPS_ACK`. -/
  acked : Bool

/-- `send_message_to_module`, with the entry of the module from the register table. -/
def sendToModule (around : Surroundings) (module : Int) (pkgType : UInt8)
    (data : List UInt8) : SendReturn :=
  let sock := (around.state.bm.findRegisterTableById module).map ModuleRegister.mSockfd
  callSendMessageToModule sock (sock.bind around.sockets) around.heap pkgType data

/-- `send_ack_to_pms`: what it returns, and whether `OPS_ACK` was sent. -/
def sendAckToPms (around : Surroundings) : Int × Bool :=
  if around.ackSent then (0, true) else (-1, false)

/-- The end of each handler; an acknowledgement that was sent is returned as `-1`. -/
def finish (around : Surroundings) (handed : List UInt8) (state : RouterList.State) : Handled :=
  let ack := sendAckToPms around
  ⟨if ack.1 ≠ 0 then 0 else -1, handed, state, ack.2⟩

/-- The handlers for the packets of a module. -/
def passOn (module : Int) (pkgType : UInt8) (around : Surroundings) (data : List UInt8) :
    Handled :=
  finish around (sendToModule around module pkgType data).handed around.state

def handleOpsPmsPolicySend : Surroundings → List UInt8 → Handled :=
  passOn Bm.dbm policyList

def handleOpsPmsMariSend : Surroundings → List UInt8 → Handled :=
  passOn Bm.pem bgpMrai

def handleOpsPmsTunCommand : Surroundings → List UInt8 → Handled :=
  passOn Bm.pem tcTunnelCommand

def handleOpsPmsNeighborList
    (around : Surroundings)
    (xml : Option (List PmaElement))
    (stack : Addrs) : Except RouterList.Fault Handled := do
  let state ← processNeighborList around.state xml stack
  return finish around [] state

/-- A packet goes to its handler. -/
def handle (around : Surroundings) : PmsPacket → Except RouterList.Fault Handled
  | .policySend data => .ok (handleOpsPmsPolicySend around data)
  | .mariSend data => .ok (handleOpsPmsMariSend around data)
  | .tunCommand data => .ok (handleOpsPmsTunCommand around data)
  | .neighborList xml stack => handleOpsPmsNeighborList around xml stack

/-! ## What an acknowledgement means -/

/--
All bytes of the message were handed to the socket of the module, or the list is
XML and each of its elements has an entry.
-/
def Delivered (around : Surroundings) (handled : Handled) : PmsPacket → Prop
  | .policySend data => handled.handed = sendMessageToModule around.heap policyList data
  | .mariSend data => handled.handed = sendMessageToModule around.heap bgpMrai data
  | .tunCommand data => handled.handed = sendMessageToModule around.heap tcTunnelCommand data
  | .neighborList xml _ =>
      ∃ elements, xml = some elements ∧
        ∀ pma ∈ elements, ∃ router ∈ handled.state.routers, pma.id = some router.devid

/-- If the handler of a packet sends `OPS_ACK`, it has delivered the packet. -/
def AckMeansDelivered (around : Surroundings) (packet : PmsPacket) : Prop :=
  ∀ handled, handle around packet = .ok handled →
    handled.acked = true → Delivered around handled packet

/-- The module is registered on a socket that takes all bytes of a packet with this payload. -/
def Reachable (around : Surroundings) (module : Int) (data : List UInt8) : Prop :=
  ∃ entry count,
    around.state.bm.findRegisterTableById module = some entry ∧
      entry.mSockfd ≠ 0 ∧
      around.sockets entry.mSockfd = some count ∧
      localHeaderSize + data.length ≤ count

/-- The packet can be delivered. -/
def Deliverable (around : Surroundings) : PmsPacket → Prop
  | .policySend data => Reachable around Bm.dbm data
  | .mariSend data => Reachable around Bm.pem data
  | .tunCommand data => Reachable around Bm.pem data
  | .neighborList xml _ => xml ≠ none

section

variable {around : Surroundings}

/-! ## Packets for a module -/

theorem length_sendMessageToModule
    (heap : Nat → UInt8)
    (pkgType : UInt8)
    (data : List UInt8) :
    (sendMessageToModule heap pkgType data).length = localHeaderSize + data.length := by
  rw [sendMessageToModule, Bytes.length_window, Nat.add_comm]

/-- A socket takes a packet whole if and only if it takes as many bytes as the packet has. -/
theorem handed_sendPkt_iff
    {sock : Int}
    {accepted : Option Nat}
    {bytes : List UInt8}
    (nonempty : bytes ≠ []) :
    (sendPkt sock accepted bytes).handed = bytes ↔
      sock ≠ 0 ∧ ∃ count, accepted = some count ∧ bytes.length ≤ count := by
  by_cases closed : sock = 0
  · simp [sendPkt, closed, nonempty.symm]
  · cases accepted with
    | none =>
        simp [sendPkt, sendBytes, closed, nonempty.symm]
    | some count =>
        have handed : (sendPkt sock (some count) bytes).handed = bytes.take count := by
          have result :
              sendPkt sock (some count) bytes =
                if ((bytes.take count).length : Int) = 0 then
                  ⟨-2, bytes.take count⟩
                else
                  ⟨(bytes.take count).length, bytes.take count⟩ :=
            if_neg closed
          rw [result]
          split
          · rfl
          · rfl
        rw [handed, List.take_eq_self_iff]
        simp [closed]

/-- The bytes that are handed to a module are the whole packet if and only if it is reachable. -/
theorem handed_sendToModule_iff
    (module : Int)
    (pkgType : UInt8)
    (data : List UInt8) :
    (sendToModule around module pkgType data).handed =
        sendMessageToModule around.heap pkgType data ↔
      Reachable around module data := by
  have length := length_sendMessageToModule around.heap pkgType data
  have nonempty : sendMessageToModule around.heap pkgType data ≠ [] := by
    intro empty
    rw [empty, List.length_nil] at length
    unfold localHeaderSize at length
    omega
  unfold sendToModule Reachable
  cases found : around.state.bm.findRegisterTableById module with
  | none =>
      simp [callSendMessageToModule, nonempty.symm]
  | some entry =>
      have whole := @handed_sendPkt_iff entry.mSockfd (around.sockets entry.mSockfd) _ nonempty
      rw [length] at whole
      simpa [callSendMessageToModule] using whole

/-- Whatever happens to the packet, the acknowledgement is sent if it can be sent. -/
theorem passOn_iff
    {packet : PmsPacket}
    {module : Int}
    {pkgType : UInt8}
    {data : List UInt8}
    (handles : handle around packet = .ok (passOn module pkgType around data)) :
    (∀ handled, handle around packet = .ok handled →
        handled.acked = true →
          handled.handed = sendMessageToModule around.heap pkgType data) ↔
      around.ackSent = false ∨ Reachable around module data := by
  rw [← handed_sendToModule_iff module pkgType data, handles]
  cases sent : around.ackSent with
  | false =>
      simp [passOn, finish, sendAckToPms, sent]
  | true =>
      simp [passOn, finish, sendAckToPms, sent]

/-! ## The list of the neighbours -/

/-- Each element that was read is among those that are inserted. -/
theorem mem_devid_of_readPmas
    {addrs : Addrs}
    {elements : List PmaElement}
    {pushed : List Router}
    (read : readPmas addrs elements = .ok pushed)
    {pma : PmaElement}
    (member : pma ∈ elements) :
    ∃ id ∈ pushed.map Router.devid, pma.id = some id := by
  induction elements generalizing addrs pushed with
  | nil =>
      cases member
  | cons first rest inductionHypothesis =>
      rw [readPmas] at read
      cases isId : first.id with
      | none =>
          rw [isId] at read
          cases read
      | some id =>
          simp only [isId] at read
          obtain ⟨addrsAfter, _, readRest⟩ := Loops.bind_eq_ok.mp read
          obtain ⟨later, readLater, isPushed⟩ := Loops.bind_eq_ok.mp readRest
          cases isPushed
          rcases List.mem_cons.mp member with rfl | inRest
          · exact ⟨id, by simp, isId⟩
          · obtain ⟨other, listed, isOther⟩ := inductionHypothesis readLater inRest
            exact ⟨other, List.mem_cons_of_mem _ listed, isOther⟩

/-- A list that is XML is stored, if its handler returns. -/
theorem processNeighborList_stores
    {state after : RouterList.State}
    {elements : List PmaElement}
    {stack : Addrs}
    (processed : processNeighborList state (some elements) stack = .ok after)
    {pma : PmaElement}
    (member : pma ∈ elements) :
    ∃ router ∈ after.routers, pma.id = some router.devid := by
  obtain ⟨pushed, read, rfl⟩ := processNeighborList_some.mp processed
  obtain ⟨id, listed, isId⟩ := mem_devid_of_readPmas read member
  have entered :
      id ∈ (pushed.foldl RouterList.insertRouterList state.routers).map Router.devid :=
    mem_devid_foldl_insertRouterList.mpr (.inr listed)
  obtain ⟨router, inList, same⟩ := List.mem_map.mp entered
  exact ⟨router, inList, by rw [isId, same]⟩

theorem neighborList_iff
    (xml : Option (List PmaElement))
    (stack : Addrs) :
    AckMeansDelivered around (.neighborList xml stack) ↔
      around.ackSent = false ∨ xml ≠ none := by
  cases xml with
  | none =>
      constructor
      · intro delivered
        left
        by_contra sent
        rw [Bool.not_eq_false] at sent
        obtain ⟨elements, none, -⟩ := delivered _ rfl (by simp [finish, sendAckToPms, sent])
        cases none
      · rintro (unsent | absent)
        · rintro handled ⟨⟩ acked
          simp [finish, sendAckToPms, unsent] at acked
        · exact absurd rfl absent
  | some elements =>
      refine iff_of_true ?_ (.inr (Option.some_ne_none _))
      intro handled handles acked
      obtain ⟨state, processed, isHandled⟩ := Loops.bind_eq_ok.mp handles
      cases isHandled
      exact ⟨elements, rfl, fun pma => processNeighborList_stores processed⟩

end

/--
For every packet from PMS, whatever the register table, the sockets and the
memory hold: an acknowledgement means that the packet was delivered if and only
if no acknowledgement can be sent or the packet can be delivered.
-/
theorem ackMeansDelivered_iff
    (around : Surroundings)
    (packet : PmsPacket) :
    AckMeansDelivered around packet ↔ around.ackSent = false ∨ Deliverable around packet := by
  cases packet with
  | policySend data =>
      exact passOn_iff rfl
  | mariSend data =>
      exact passOn_iff rfl
  | tunCommand data =>
      exact passOn_iff rfl
  | neighborList xml stack =>
      exact neighborList_iff xml stack

/-- No module is registered, and PMS sends a policy of one byte. -/
theorem unregistered_acked :
    ¬AckMeansDelivered ⟨RouterList.startState, fun _ => none, fun _ => 0, true⟩
      (.policySend [7]) := by
  intro delivered
  have handed := delivered _ rfl rfl
  exact absurd (congrArg List.length handed) (by decide)

end Pma.PmsAck
