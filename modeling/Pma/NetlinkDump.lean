import Pma.Netlink
import Pma.Records

namespace Pma.Netlink

open Bytes StructLayout Records Transition

/-!
# Dumps of the routing table

What the kernel answers to a request is a sequence of messages in one or more
datagrams, the last of which is `NLMSG_DONE`.  Whatever the messages and however
they are divided, `get_route_table` collects their routes in their order.
-/

/-! ## What the kernel writes -/

/-- An attribute. -/
structure Attribute where
  type : UInt16
  payload : List UInt8
  deriving Repr, DecidableEq

/-- `struct rtattr` with its payload. -/
def Attribute.bytes (attr : Attribute) : List UInt8 :=
  padded 4 (leBytes 2 (4 + attr.payload.length) ++
    (leBytes 2 attr.type.toNat ++ attr.payload))

/-- The number in an attribute. -/
def Attribute.value (attr : Attribute) : UInt32 :=
  UInt32.ofNat (leValue (attr.payload.take 4))

/-- A message. -/
structure Message where
  type : UInt16
  flags : UInt16
  seq : UInt32
  pid : UInt32
  payload : List UInt8
  deriving Repr, DecidableEq

/-- `nlmsg_len`. -/
def Message.len (message : Message) : Nat :=
  nlmsgHdrlen + message.payload.length

/-- `struct nlmsghdr` with its payload. -/
def Message.bytes (message : Message) : List UInt8 :=
  padded 4 (leBytes 4 message.len ++ (leBytes 2 message.type.toNat ++
    (leBytes 2 message.flags.toNat ++ (leBytes 4 message.seq.toNat ++
      (leBytes 4 message.pid.toNat ++ message.payload)))))

/-- `struct rtmsg`. -/
structure Rtmsg where
  family : UInt8
  dstLen : UInt8
  srcLen : UInt8
  tos : UInt8
  table : UInt8
  protocol : UInt8
  scope : UInt8
  type : UInt8
  flags : UInt32
  deriving Repr, DecidableEq

def Rtmsg.bytes (rtm : Rtmsg) : List UInt8 :=
  leBytes 1 rtm.family.toNat ++ (leBytes 1 rtm.dstLen.toNat ++ (leBytes 1 rtm.srcLen.toNat ++
    (leBytes 1 rtm.tos.toNat ++ (leBytes 1 rtm.table.toNat ++ (leBytes 1 rtm.protocol.toNat ++
      (leBytes 1 rtm.scope.toNat ++ (leBytes 1 rtm.type.toNat ++
        leBytes 4 rtm.flags.toNat)))))))

/-- What the kernel answers: routes, and whatever else. -/
inductive Answer where
  | route (flags : UInt16) (seq pid : UInt32) (rtm : Rtmsg) (attributes : List Attribute)
  | other (message : Message)
  deriving Repr, DecidableEq

/-- The message of an answer. -/
def Answer.message : Answer → Message
  | .route flags seq pid rtm attributes =>
      { type := 24
        flags := flags
        seq := seq
        pid := pid
        payload := rtm.bytes ++ attributes.flatMap Attribute.bytes }
  | .other message => message

/-- The last attribute of a type. -/
def last (attributes : List Attribute) (type : Nat) : Option Attribute :=
  attributes.reverse.find? fun attr => attr.type.toNat = type

/-- The value of the last attribute of a type. -/
def valueOf (attributes : List Attribute) (type : Nat) : Option UInt32 :=
  (last attributes type).map Attribute.value

/-- The route that is taken from an answer. -/
def Answer.observed : Answer → Option ObservedRoute
  | .route _ _ _ rtm attributes =>
      if rtm.type.toNat = RTN_UNICAST ∧ rtm.flags.toNat &&& RTM_F_CLONED = 0 ∧
          rtm.protocol.toNat ≠ RTPROT_REDIRECT ∧ rtm.srcLen.toNat = 0 ∧
          rtm.family.toNat = AF_INET ∧ last attributes RTA_MULTIPATH = none then
        some (.netlink (UInt32.ofNat rtm.protocol.toNat)
          ((valueOf attributes RTA_DST).getD 0) rtm.dstLen
          (valueOf attributes RTA_GATEWAY) (valueOf attributes RTA_PREFSRC)
          ((valueOf attributes RTA_OIF).getD 0) ((valueOf attributes RTA_PRIORITY).getD 0))
      else
        none
  | .other _ => none

/-- The attributes whose payload is a number. -/
def IsNumber (type : Nat) : Prop :=
  type = RTA_DST ∨ type = RTA_OIF ∨ type = RTA_GATEWAY ∨ type = RTA_PRIORITY ∨
    type = RTA_PREFSRC

theorem IsNumber.le
    {type : Nat}
    (isNumber : IsNumber type) :
    type ≤ RTA_MULTIPATH := by
  rcases isNumber with rfl | rfl | rfl | rfl | rfl
  all_goals decide

/-- Numbers have four bytes, and an answer that is no route is neither the end nor an error. -/
def Answer.WellFormed : Answer → Prop
  | .route _ _ _ _ attributes =>
      ∀ attr ∈ attributes, IsNumber attr.type.toNat → 4 ≤ attr.payload.length
  | .other message =>
      message.type.toNat ≠ RTM_NEWROUTE ∧ message.type.toNat ≠ NLMSG_ERROR ∧
        message.type.toNat ≠ NLMSG_DONE

/-! ## Reading -/

section

variable
  {buf : Nat → UInt8}
  {h rta width value : Nat}

theorem ok_bind
    {First Second : Type}
    (first : First)
    (next : First → Except Fault Second) :
    (Except.ok first >>= next) = next first :=
  rfl

/-- A number that lies in the buffer is read. -/
theorem read_lies
    (lies : Lies buf h (leBytes width value))
    (fits : value < 256 ^ width)
    (inside : h + width ≤ nlPktBufSize) :
    read buf h width = .ok value := by
  unfold read
  rw [if_pos inside, lies.number fits]

/-- What is read of the header of a message. -/
structure Message.Read (message : Message) (buf : Nat → UInt8) (h : Nat) : Prop where
  len : nlmsgLen buf h = .ok message.len
  type : nlmsgType buf h = .ok message.type.toNat
  flags : nlmsgFlags buf h = .ok message.flags.toNat
  pid : nlmsgPid buf h = .ok message.pid.toNat
  payload : Lies buf (nlmsgData h) message.payload

theorem Message.length_bytes
    (message : Message) :
    message.bytes.length = alignUp 4 message.len := by
  rw [Message.bytes, length_padded (by decide)]
  congr 1
  simp only [List.length_append, length_leBytes, Message.len, nlmsgHdrlen]
  omega

theorem Message.len_le
    (message : Message) :
    message.len ≤ message.bytes.length := by
  rw [length_bytes]
  exact le_alignUp (by decide) _

theorem Message.read
    {message : Message}
    (lies : Lies buf h message.bytes)
    (inside : h + message.bytes.length ≤ nlPktBufSize) :
    message.Read buf h := by
  have within := message.len_le
  have size : nlPktBufSize = 4096 := rfl
  have header : message.len = 16 + message.payload.length := rfl
  have atLen := lies.left
  have atType := atLen.right
  have atFlags := atType.right
  have atSeq := atFlags.right
  have atPid := atSeq.right
  have atPayload := atPid.right
  simp only [length_leBytes, Nat.add_assoc, Nat.reduceAdd] at atType atFlags atPid atPayload
  refine ⟨?_, ?_, ?_, ?_, atPayload⟩
  · exact read_lies atLen.left (by omega) (by omega)
  · exact read_lies atType.left message.type.toNat_lt (by omega)
  · exact read_lies atFlags.left message.flags.toNat_lt (by omega)
  · exact read_lies atPid.left message.pid.toNat_lt (by omega)

/-- What is read of an attribute. -/
structure Attribute.Read (attr : Attribute) (buf : Nat → UInt8) (rta : Nat) : Prop where
  len : Netlink.read buf rta 2 = .ok (4 + attr.payload.length)
  type : Netlink.read buf (rta + 2) 2 = .ok attr.type.toNat
  payload : Lies buf (rta + 4) attr.payload

theorem Attribute.length_bytes
    (attr : Attribute) :
    attr.bytes.length = alignUp 4 (4 + attr.payload.length) := by
  rw [Attribute.bytes, length_padded (by decide)]
  congr 1
  simp only [List.length_append, length_leBytes]
  omega

theorem Attribute.read
    {attr : Attribute}
    (lies : Lies buf rta attr.bytes)
    (inside : rta + attr.bytes.length ≤ nlPktBufSize) :
    attr.Read buf rta := by
  have within : 4 + attr.payload.length ≤ attr.bytes.length := by
    rw [length_bytes]
    exact le_alignUp (by decide) _
  have size : nlPktBufSize = 4096 := rfl
  have atLen := lies.left
  have atType := atLen.right
  have atPayload := atType.right
  simp only [length_leBytes, Nat.add_assoc, Nat.reduceAdd] at atType atPayload
  refine ⟨?_, ?_, atPayload⟩
  · exact read_lies atLen.left (by omega) (by omega)
  · exact read_lies atType.left attr.type.toNat_lt (by omega)

/-- The attribute lies in the buffer. -/
def Attribute.At (buf : Nat → UInt8) (rta : Nat) (attr : Attribute) : Prop :=
  Lies buf rta attr.bytes ∧ rta + attr.bytes.length ≤ nlPktBufSize

/-- The number in an attribute is read. -/
theorem Attribute.At.rtaValue
    {attr : Attribute}
    (lies : attr.At buf rta)
    (large : 4 ≤ attr.payload.length) :
    Netlink.rtaValue buf (some rta) = .ok (some attr.value) ∧
      UInt32.ofNat (leValue (window buf (rta + 4) 4)) = attr.value := by
  have isRead := Attribute.read lies.1 lies.2
  have atLeast : 4 + attr.payload.length ≤ attr.bytes.length := by
    rw [Attribute.length_bytes]
    exact le_alignUp (by decide) _
  have inside := lies.2
  have front : window buf (rta + 4) 4 = attr.payload.take 4 := by
    have taken := isRead.payload.take 4
    unfold Lies at taken
    rwa [List.length_take, Nat.min_eq_left large] at taken
  refine ⟨?_, ?_⟩
  · have isNumber : Netlink.read buf (rta + 4) 4 = .ok (leValue (attr.payload.take 4)) := by
      unfold Netlink.read
      rw [if_pos (by omega), front]
    unfold Netlink.rtaValue
    simp only [isNumber, ok_bind]
    rfl
  · rw [front]
    rfl

/-- What is read of the fields of a route. -/
structure Rtmsg.Read (rtm : Rtmsg) (buf : Nat → UInt8) (place : Nat) : Prop where
  family : Netlink.read buf place 1 = .ok rtm.family.toNat
  dstLen : Netlink.read buf (place + 1) 1 = .ok rtm.dstLen.toNat
  srcLen : Netlink.read buf (place + 2) 1 = .ok rtm.srcLen.toNat
  protocol : Netlink.read buf (place + 5) 1 = .ok rtm.protocol.toNat
  type : Netlink.read buf (place + 7) 1 = .ok rtm.type.toNat
  flags : Netlink.read buf (place + 8) 4 = .ok rtm.flags.toNat

theorem Rtmsg.length_bytes
    (rtm : Rtmsg) :
    rtm.bytes.length = 12 := by
  simp [Rtmsg.bytes]

theorem Rtmsg.read
    {rtm : Rtmsg}
    {place : Nat}
    (lies : Lies buf place rtm.bytes)
    (inside : place + 12 ≤ nlPktBufSize) :
    rtm.Read buf place := by
  have atDstLen := lies.right
  have atSrcLen := atDstLen.right
  have atTos := atSrcLen.right
  have atTable := atTos.right
  have atProtocol := atTable.right
  have atScope := atProtocol.right
  have atType := atScope.right
  have atFlags := atType.right
  simp only [length_leBytes, Nat.add_assoc, Nat.reduceAdd]
    at atDstLen atSrcLen atProtocol atType atFlags
  refine ⟨?_, ?_, ?_, ?_, ?_, ?_⟩
  · exact read_lies lies.left rtm.family.toNat_lt (by omega)
  · exact read_lies atDstLen.left rtm.dstLen.toNat_lt (by omega)
  · exact read_lies atSrcLen.left rtm.srcLen.toNat_lt (by omega)
  · exact read_lies atProtocol.left rtm.protocol.toNat_lt (by omega)
  · exact read_lies atType.left rtm.type.toNat_lt (by omega)
  · exact read_lies atFlags rtm.flags.toNat_lt (by omega)

end

/-! ## The loop over the messages -/

section

variable
  {State : Type}
  {nl : Nlsock}
  {filter : Filter State}
  {effect : State → Answer → State}
  {buf : Nat → UInt8}
  {h : Nat}
  {ret : Int32}
  {state : State}

/-- The bytes of some answers. -/
def bytesOf (answers : List Answer) : List UInt8 :=
  answers.flatMap fun answer => answer.message.bytes

theorem Answer.WellFormed.type
    {answer : Answer}
    (wellFormed : answer.WellFormed) :
    answer.message.type.toNat ≠ NLMSG_DONE ∧ answer.message.type.toNat ≠ NLMSG_ERROR := by
  cases answer with
  | route flags seq pid rtm attributes =>
      have isType : (Answer.route flags seq pid rtm attributes).message.type.toNat = 24 := rfl
      rw [isType]
      exact ⟨by decide, by decide⟩
  | other message =>
      exact ⟨wellFormed.2.2, wellFormed.2.1⟩

/-- `NLMSG_ALIGN` of a length that fits. -/
theorem toNat_nlmsgAlign
    {len : Nat}
    (small : len ≤ nlPktBufSize) :
    nlmsgAlign len = UInt32.ofNat (alignUp 4 len) := by
  have size : nlPktBufSize = 4096 := rfl
  apply UInt32.toNat_inj.mp
  unfold nlmsgAlign alignUp
  simp only [UInt32.toNat_mul, UInt32.toNat_div, UInt32.toNat_add, UInt32.toNat_ofNat',
    UInt32.reduceToNat, Nat.reducePow]
  omega

/-- What `recvmsg` returns while the kernel sends these answers, and `NLMSG_DONE` behind them. -/
inductive Carries : List Received → List Answer → Prop where
  | retry
      {received : Received}
      {rest : List Received}
      {answers : List Answer}
      (isRetry : received = .interrupted ∨ received = .failed)
      (behind : Carries rest answers) :
      Carries (received :: rest) answers
  | more
      {buf : Nat → UInt8}
      {rest : List Received}
      {first answers : List Answer}
      (lies : Lies buf 0 (bytesOf first))
      (inside : (bytesOf first).length ≤ nlPktBufSize)
      (behind : Carries rest answers) :
      Carries (.datagram buf (bytesOf first).length true false :: rest) (first ++ answers)
  | done
      {buf : Nat → UInt8}
      {rest : List Received}
      {answers : List Answer}
      {message : Message}
      (isDone : message.type.toNat = NLMSG_DONE)
      (lies : Lies buf 0 (bytesOf answers ++ message.bytes))
      (inside : (bytesOf answers).length + message.bytes.length ≤ nlPktBufSize) :
      Carries
        (.datagram buf ((bytesOf answers).length + message.bytes.length) true false :: rest)
        answers

end

/-! ## The routes of a dump -/

/-- The routes of some answers. -/
def routes (answers : List Answer) : List ObservedRoute :=
  answers.filterMap Answer.observed

/-- The kernel answers the request of a socket that is not `netlink_cmd`. -/
structure Answered (cmdPid : Nat) (received : List Received) (answers : List Answer) : Prop where
  carries : Carries received answers
  wellFormed : ∀ answer ∈ answers, answer.WellFormed
  pid : ∀ answer ∈ answers, answer.message.pid.toNat ≠ cmdPid

/-- `route_table_detect` for a table that comes from the kernel. -/
def routeTableDetect (rtaMax cmdPid : Nat) (received : List Received) (routeList : List Route) :
    Except Fault (Bool × List Route) := do
  let (_, routeList) ← getRouteTable rtaMax cmdPid received routeList
  let (ret, watched) := watchRouteChange routeList
  return (ret, refreshRouteStatus watched)

/-- What `recvmsg` returns in a cycle, and the answers that it carries. -/
abbrev Dump := List Received × List Answer

/-- A cycle that sees the last route of the list again. -/
structure Detects (rtaMax cmdPid : Nat) (before : List Route) (dump : Dump)
    (after : List Route) : Prop where
  answered : Answered cmdPid dump.1 dump.2
  observable : RouteTable.Observable (routes dump.2)
  lastSeen : LastSeen before (RouteTable.seenKeys (routes dump.2))
  returned : ∃ ret, routeTableDetect rtaMax cmdPid dump.1 before = .ok (ret, after)

end Pma.Netlink
