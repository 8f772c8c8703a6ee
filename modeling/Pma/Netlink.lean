import Pma.Bytes
import Pma.RouteTable
import Pma.StructLayout

namespace Pma

open Bytes StructLayout

/-!
# Messages from the kernel

`netlink/netlink.c` reads datagrams of the kernel and hands their messages to a
filter, and `netlink/route.c` takes the routes out of them.  A message starts
with its length, and so do the attributes in it.  A read behind the end of the
buffer of a datagram is a fault.
-/

namespace Netlink

/-- A read outside the buffer; a loop that was not given enough is `unfinished`. -/
inductive Fault where
  | outside
  | unfinished
  deriving Repr, DecidableEq

/-- `NL_PKT_BUF_SIZE`. -/
def nlPktBufSize : Nat := 4096

/-- A number in the buffer. -/
def read (buf : Nat → UInt8) (offset width : Nat) : Except Fault Nat :=
  if offset + width ≤ nlPktBufSize then
    .ok (leValue (window buf offset width))
  else
    .error .outside

/-! ## The structures of the kernel -/

/-- `sizeof(struct nlmsghdr)`. -/
def nlmsgHdrlen : Nat := 16

/-- `nlmsg_len`. -/
def nlmsgLen (buf : Nat → UInt8) (h : Nat) : Except Fault Nat := read buf h 4

/-- `nlmsg_type`. -/
def nlmsgType (buf : Nat → UInt8) (h : Nat) : Except Fault Nat := read buf (h + 4) 2

/-- `nlmsg_flags`. -/
def nlmsgFlags (buf : Nat → UInt8) (h : Nat) : Except Fault Nat := read buf (h + 6) 2

/-- `nlmsg_pid`. -/
def nlmsgPid (buf : Nat → UInt8) (h : Nat) : Except Fault Nat := read buf (h + 12) 4

/-- `NLMSG_DATA`. -/
def nlmsgData (h : Nat) : Nat := h + nlmsgHdrlen

/-- `NLMSG_ERROR`. -/
def NLMSG_ERROR : Nat := 2

/-- `NLMSG_DONE`. -/
def NLMSG_DONE : Nat := 3

/-- `RTM_NEWROUTE`. -/
def RTM_NEWROUTE : Nat := 24

/-- `RTM_DELROUTE`. -/
def RTM_DELROUTE : Nat := 25

/-- `NLM_F_MULTI`. -/
def NLM_F_MULTI : Nat := 2

/-- `RTN_UNICAST`. -/
def RTN_UNICAST : Nat := 1

/-- `RTPROT_REDIRECT`. -/
def RTPROT_REDIRECT : Nat := 1

/-- `RTM_F_CLONED`. -/
def RTM_F_CLONED : Nat := 0x200

/-- `AF_INET`. -/
def AF_INET : Nat := 2

/-- `RTA_DST`. -/
def RTA_DST : Nat := 1

/-- `RTA_OIF`. -/
def RTA_OIF : Nat := 4

/-- `RTA_GATEWAY`. -/
def RTA_GATEWAY : Nat := 5

/-- `RTA_PRIORITY`. -/
def RTA_PRIORITY : Nat := 6

/-- `RTA_PREFSRC`. -/
def RTA_PREFSRC : Nat := 7

/-- `RTA_MULTIPATH`. -/
def RTA_MULTIPATH : Nat := 9

/-! ## Attributes -/

/-- `RTA_OK`; `len` is an `int`. -/
def rtaOk (buf : Nat → UInt8) (rta : Nat) (len : Int) : Except Fault Bool := do
  if len ≥ 4 then
    let rtaLen ← read buf rta 2
    return decide (rtaLen ≥ 4 ∧ (rtaLen : Int) ≤ len)
  else
    return false

/-- `netlink_parse_rtattr`: where the last attribute of each type is. -/
def netlinkParseRtattr (buf : Nat → UInt8) (max : Nat) :
    Nat → Nat → Int → (Nat → Option Nat) → Except Fault (Nat → Option Nat)
  | 0, _, _, _ => .error .unfinished
  | fuel + 1, rta, len, tb => do
      if ← rtaOk buf rta len then
        let rtaLen ← read buf rta 2
        let rtaType ← read buf (rta + 2) 2
        let tb := if rtaType ≤ max then Function.update tb rtaType (some rta) else tb
        netlinkParseRtattr buf max fuel (rta + alignUp 4 rtaLen) (len - alignUp 4 rtaLen) tb
      else
        return tb

/-- `RTA_DATA` of an attribute that is there, as a number of 32 bits. -/
def rtaValue (buf : Nat → UInt8) (rta : Option Nat) : Except Fault (Option UInt32) :=
  match rta with
  | some rta => do
      let value ← read buf (rta + 4) 4
      return some (UInt32.ofNat value)
  | none => return none

/-! ## Routes -/

/-- `netlink_routing_table` on the message at `h`; `rtaMax` is `RTA_MAX`. -/
def netlinkRoutingTable (rtaMax : Nat) (buf : Nat → UInt8) (h : Nat) (routeList : List Route) :
    Except Fault (Int32 × List Route) := do
  let rtm := nlmsgData h
  if (← nlmsgType buf h) ≠ RTM_NEWROUTE then
    return (0, routeList)
  if (← read buf (rtm + 7) 1) ≠ RTN_UNICAST then
    return (0, routeList)
  -- `nlmsg_len` is unsigned, and the difference is assigned to an `int`.
  let nlmsgLen ← nlmsgLen buf h
  let len := Int32.ofInt ((nlmsgLen : Int) - 28)
  if len < 0 then
    return (-1, routeList)
  let tb ← netlinkParseRtattr buf rtaMax (nlPktBufSize + 1) (rtm + 12) len.toInt fun _ => none
  if (← read buf (rtm + 8) 4) &&& RTM_F_CLONED ≠ 0 then
    return (0, routeList)
  let protocol ← read buf (rtm + 5) 1
  if protocol = RTPROT_REDIRECT then
    return (0, routeList)
  if (← read buf (rtm + 2) 1) ≠ 0 then
    return (0, routeList)
  let index ← rtaValue buf (tb RTA_OIF)
  let metric ← rtaValue buf (tb RTA_PRIORITY)
  if (← read buf rtm 1) = AF_INET then
    let dest ← rtaValue buf (tb RTA_DST)
    let dstLen ← read buf (rtm + 1) 1
    if (tb RTA_MULTIPATH).isNone then
      let gate ← rtaValue buf (tb RTA_GATEWAY)
      -- Only whether `src` is null matters to `route_add_ipv4`.
      let src := (tb RTA_PREFSRC).map fun rta => UInt32.ofNat (leValue (window buf (rta + 4) 4))
      let observed : ObservedRoute :=
        .netlink (UInt32.ofNat protocol) (dest.getD 0) (UInt8.ofNat dstLen) gate src
          (index.getD 0) (metric.getD 0)
      return (0, collectRoute routeList observed.newRoute)
  return (0, routeList)

/-! ## Messages -/

/-- `NLMSG_OK`; `len` is unsigned. -/
def nlmsgOk (buf : Nat → UInt8) (h : Nat) (len : UInt32) : Except Fault Bool := do
  if len.toNat ≥ nlmsgHdrlen then
    let nlmsgLen ← nlmsgLen buf h
    return decide (nlmsgLen ≥ nlmsgHdrlen ∧ nlmsgLen ≤ len.toNat)
  else
    return false

/-- `NLMSG_ALIGN`, in 32 bits. -/
def nlmsgAlign (len : Nat) : UInt32 := (UInt32.ofNat len + 3) / 4 * 4

/-- What the body of the loop over the messages does next. -/
inductive Next (State : Type) where
  | returned (ret : Int32) (state : State)
  | onward (ret : Int32) (state : State)

/-- A socket: whether it is `netlink_cmd`, and the `nl_pid` of `netlink_cmd`. -/
structure Nlsock where
  isCmd : Bool
  cmdPid : Nat
  deriving Repr, DecidableEq

/-- What `netlink_parse_info` calls for a message. -/
abbrev Filter (State : Type) := (Nat → UInt8) → Nat → State → Except Fault (Int32 × State)

section

variable {State : Type}

/-- The error handling of `netlink_parse_info`. -/
def handleError (nl : Nlsock) (buf : Nat → UInt8) (h : Nat) (ret : Int32) (state : State) :
    Except Fault (Next State) := do
  let errnum := Int32.ofNat (← read buf (nlmsgData h) 4)
  let msgType ← read buf (nlmsgData h + 8) 2
  if errnum = 0 then
    if (← nlmsgFlags buf h) &&& NLM_F_MULTI = 0 then
      return .returned 0 state
    else
      return .onward ret state
  if (← nlmsgLen buf h) < 36 then
    return .returned (-1) state
  -- `ENODEV`, `ESRCH` and `EEXIST`
  if nl.isCmd ∧ (msgType = RTM_DELROUTE ∧ (-errnum = 19 ∨ -errnum = 3) ∨
      msgType = RTM_NEWROUTE ∧ -errnum = 17) then
    return .returned 0 state
  return .returned (-1) state

/-- The body of the loop of `netlink_parse_info` over the messages. -/
def handleMessage (nl : Nlsock) (filter : Filter State) (buf : Nat → UInt8) (h : Nat)
    (ret : Int32) (state : State) : Except Fault (Next State) := do
  let nlmsgType ← nlmsgType buf h
  if nlmsgType = NLMSG_DONE then
    return .returned ret state
  if nlmsgType = NLMSG_ERROR then
    handleError nl buf h ret state
  else if ¬ nl.isCmd ∧ (← nlmsgPid buf h) = nl.cmdPid then
    return .onward ret state
  else
    let (error, state) ← filter buf h state
    return .onward (if error < 0 then error else ret) state

/-- The loop of `netlink_parse_info` over the messages, and the `status` it leaves. -/
def messages (nl : Nlsock) (filter : Filter State) (buf : Nat → UInt8) :
    Nat → Nat → UInt32 → Int32 → State → Except Fault (Next State × UInt32)
  | 0, _, _, _, _ => .error .unfinished
  | fuel + 1, h, status, ret, state => do
      if ← nlmsgOk buf h status then
        match ← handleMessage nl filter buf h ret state with
        | .returned ret state => return (.returned ret state, status)
        | .onward ret state =>
            let len ← nlmsgLen buf h
            messages nl filter buf fuel (h + (nlmsgAlign len).toNat) (status - nlmsgAlign len)
              ret state
      else
        return (.onward ret state, status)

/-- What `recvmsg` does: a datagram is in the buffer, of this size. -/
inductive Received where
  | interrupted
  | wouldBlock
  | failed
  | eof
  | datagram (buf : Nat → UInt8) (status : Nat) (sameNamelen truncated : Bool)

/-- `netlink_parse_info`; it returns nothing while it waits in `recvmsg`. -/
def netlinkParseInfo (nl : Nlsock) (filter : Filter State) :
    List Received → Int32 → State → Except Fault (Option Int32 × State)
  | [], _, state => .ok (none, state)
  | .interrupted :: rest, ret, state => netlinkParseInfo nl filter rest ret state
  | .wouldBlock :: _, ret, state => .ok (some ret, state)
  | .failed :: rest, ret, state => netlinkParseInfo nl filter rest ret state
  | .eof :: _, _, state => .ok (some (-1), state)
  | .datagram buf status sameNamelen truncated :: rest, ret, state => do
      if ¬ sameNamelen then
        return (some (-1), state)
      match ← messages nl filter buf (nlPktBufSize + 1) 0 (UInt32.ofNat status) ret state with
      | (.returned ret state, _) => return (some ret, state)
      | (.onward ret state, left) =>
          if truncated then
            netlinkParseInfo nl filter rest ret state
          else if left ≠ 0 then
            return (some (-1), state)
          else
            netlinkParseInfo nl filter rest ret state

end

/-- `get_route_table`, after the request; `nl` is a copy and not `netlink_cmd`. -/
def getRouteTable (rtaMax cmdPid : Nat) (received : List Received) (routeList : List Route) :
    Except Fault (Option Int32 × List Route) :=
  netlinkParseInfo ⟨false, cmdPid⟩ (netlinkRoutingTable rtaMax) received 0 routeList

end Netlink

end Pma
