import Mathlib.Logic.Function.Basic
import Pma.Lsdb
import Pma.ThreadMaster

namespace Pma

/-!
# The state of the link state daemon

`Icm` is the memory of the information collection module that its link state
daemon works on: the areas with their interfaces (`lsd/lsd_if.h`), the three
protocol masters of every backbone interface, one link state database for each
area, and the scheduler.  Pointers to allocated objects are addresses into
total maps; a protocol master that was not allocated yet is `none`.

`trace` is not part of the program.  It records, in call order, the calls the
properties of the development speak about, and the datagrams handed to the
socket.
-/

/-- The address of a `struct backbone_eth`. -/
abbrev EthId := Nat

/-- The address of a `struct access_eth`. -/
abbrev AccessId := Nat

/-- The address of a `struct autonomous_zone`. -/
abbrev ZoneId := Nat

/-- The address of a `struct rinterface`. -/
abbrev IfaceId := Nat

/-- `enum eth_state`. -/
inductive EthState where
  | down
  | up
  deriving Repr, DecidableEq

/-- `enum if_type`. -/
inductive IfType where
  | access
  | backbone
  | unknown
  deriving Repr, DecidableEq

/-- `enum lsd_status`. -/
inductive LsdStatus where
  | disconnected
  | connected
  deriving Repr, DecidableEq

/-- `enum priority_type`. -/
inductive PriorityType where
  | high
  | low
  deriving Repr, DecidableEq

/-- `enum exchange_send_state`. -/
inductive ExchangeSendState where
  | terminated
  | waiting
  | ended
  deriving Repr, DecidableEq

/-- `enum exchange_rcv_state`. -/
inductive ExchangeRcvState where
  | terminated
  | waiting
  | ended
  deriving Repr, DecidableEq

/-- `enum flood_state`. -/
inductive FloodState where
  | ready
  | busy
  | ackWaiting
  | terminated
  deriving Repr, DecidableEq

/-- The values of the `type` field of `struct exchange`. -/
inductive ExchangePkgType where
  | linksState
  | noData
  | ack
  | other
  deriving Repr, DecidableEq

/-- The values of the `type` field of `struct flood`. -/
inductive FloodPkgType where
  | lsa
  | ack
  | other
  deriving Repr, DecidableEq

/-- `struct exchange` and the records behind it. -/
structure Exchange where
  type : ExchangePkgType
  more : Bool
  length : UInt16
  seq : UInt32
  lsas : List LinkStateAdv
  deriving Repr, DecidableEq

/-- `struct flood` and the records behind it. -/
structure Flood where
  type : FloodPkgType
  seq : UInt32
  size : UInt32
  lsas : List LinkStateAdv
  deriving Repr, DecidableEq

/-- What stands behind the common head of a datagram, by packet type. -/
inductive Body where
  | helloHigh (helloInterval deadInterval : UInt32)
  | helloLow (helloInterval deadInterval : UInt32)
  | exchange (packet : Exchange)
  | flood (packet : Flood)
  | other
  deriving Repr, DecidableEq

/-- `struct lsd_head`, without the packet type that `Body` carries. -/
structure LsdHead where
  version : UInt8
  pklen : UInt16
  rId : UInt32
  areaId : UInt32
  ifId : UInt32
  icsum : UInt32
  deriving Repr, DecidableEq

/-- One datagram of the link state protocol. -/
structure Datagram where
  head : LsdHead
  body : Body
  deriving Repr, DecidableEq

/-- `sizeof(struct link_state_adv)`. -/
def sizeofAdv : Nat := 32

/-- The `pklen` the sending functions compute for a packet. -/
def Body.pklen : Body → UInt16
  | .helloHigh _ _ => 28
  | .helloLow _ _ => 28
  | .exchange packet => UInt16.ofNat (28 + packet.lsas.length * sizeofAdv)
  | .flood packet => UInt16.ofNat (32 + packet.lsas.length * sizeofAdv)
  | .other => 0

/-- `LSD_VERSION`. -/
def lsdVersion : UInt8 := 2

/-- `LSD_CHECKSUM`. -/
def lsdChecksum : UInt32 := 0x12345

/-- How many records fit in `recvbuf` behind the head of a packet. -/
def recvbufRecords : Nat := 63

/--
The record at an index of the receive buffer.  The buffer is cleared before
every datagram, so records past the received ones read as zero.
-/
def recordAt (lsas : List LinkStateAdv) (index : Nat) :
    Except Fault LinkStateAdv :=
  if index < recvbufRecords then
    .ok (lsas.getD index zeroAdv)
  else
    .error .wildPointer

/-- `struct lsd_neighbor_info`. -/
structure LsdNeighborInfo where
  rtId : UInt32
  ifId : UInt32
  deriving Repr, DecidableEq

/-- `struct hello_master`. -/
structure HelloMaster where
  deadTimerHigh : Option ThreadId
  deadTimerLow : Option ThreadId
  helloTimerHigh : Option ThreadId
  helloTimerLow : Option ThreadId
  highStatus : LsdStatus
  lowStatus : LsdStatus
  neighbor : LsdNeighborInfo
  hHelloVal : UInt32
  hDeadVal : UInt32
  lHelloVal : UInt32
  lDeadVal : UInt32
  deriving Repr, DecidableEq

/-- `struct exchange_master`; `none` in `sendbuf` is the cleared buffer. -/
structure ExchangeMaster where
  sendState : ExchangeSendState
  rcvState : ExchangeRcvState
  linksState : List CrLsdbLinkState
  pkgNo : UInt32
  sendbuf : Option Exchange
  ackCtrl : Option ThreadId
  rcvCtrl : Option ThreadId
  retryTimes : Int
  deriving Repr, DecidableEq

/-- `struct flood_master`; `none` in `sendbuf` is the cleared buffer. -/
structure FloodMaster where
  queue : List LinkStateAdv
  sendbuf : Option Flood
  pkgNo : UInt32
  state : FloodState
  ackCtrl : Option ThreadId
  sndCtrl : Option ThreadId
  deriving Repr, DecidableEq

/-- `struct neighbor_pma`. -/
structure NeighborPma where
  rid : UInt32
  deviceId : UInt32
  pmaCtlAddr : UInt32
  routerAddr : UInt32
  deriving Repr, DecidableEq

/-- `struct backbone_eth`, without its three protocol masters. -/
structure BackboneEth where
  ifid : UInt32
  state : EthState
  neighborPma : NeighborPma
  az : ZoneId
  interface : IfaceId
  deriving Repr, DecidableEq

/-- `struct access_eth`. -/
structure AccessEth where
  ifid : UInt32
  state : EthState
  interface : IfaceId
  deriving Repr, DecidableEq

/-- `struct autonomous_zone`, without its database. -/
structure AutonomousZone where
  deviceId : UInt32
  rId : UInt32
  azId : UInt32
  backbones : List EthId
  deriving Repr, DecidableEq

/-- `struct lsd_router` and the objects it points to. -/
structure LsdRouter where
  azs : List ZoneId
  zone : ZoneId → AutonomousZone
  accesses : List AccessId
  access : AccessId → AccessEth
  eth : EthId → BackboneEth

/-- `struct neighbor`. -/
structure Neighbor where
  devid : UInt32
  rid : UInt32
  routerAddr : UInt32
  agentAddr : UInt32
  deriving Repr, DecidableEq

/-- The object the untyped `vinterface` pointer of an interface points to. -/
inductive VInterface where
  | backbone (eth : EthId)
  | access (eth : AccessId)
  deriving Repr, DecidableEq

/-- The part of `struct proto_info` the link state daemon reads. -/
structure ProtoInfo where
  protoType : UInt32
  areaid : UInt32
  cost : UInt32
  deriving Repr, DecidableEq

/-- The part of `struct rinterface` the link state daemon reads. -/
structure Rinterface where
  type : IfType
  opState : EthState
  ctlId : UInt32
  protoInfo : ProtoInfo
  neighbor : Option Neighbor
  vinterface : Option VInterface
  addresses : List UInt32
  deriving Repr, DecidableEq

/-- `struct router` and the interfaces on its list. -/
structure LocalRouter where
  routerid : UInt32
  agentid : UInt32
  inited : Bool
  iflist : List IfaceId
  iface : IfaceId → Rinterface

/-- The two packet types the database module is sent. -/
inductive LsdbAction where
  | addLsa
  | updateLsa
  deriving Repr, DecidableEq

/-- `lsdb_Msg`. -/
structure LsdbMsg where
  areaid : UInt32
  rid : UInt32
  nrid : UInt32
  ifid : UInt32
  nifid : UInt32
  metric : UInt32
  seq : UInt32
  status : UInt8
  age : Timeval
  deriving Repr, DecidableEq

/-- `lsdb_msg_create`. -/
def lsdbMsgCreate (area : UInt32) (ls : CrLsdbLinkState) : LsdbMsg where
  areaid := area
  rid := ls.key.rtId
  nrid := ls.key.nRtId
  ifid := ls.key.ifId
  nifid := ls.key.nIfId
  metric := ls.metric
  seq := ls.seq
  status := ls.state
  age := ls.age

/-- The calls and outputs a run is judged by. -/
inductive Call where
  /-- `lsd_send` handed a datagram to the socket. -/
  | lsdSend (eth : EthId) (datagram : Datagram)
  /-- `flood_lsa_spread`. -/
  | floodLsaSpread (zone : ZoneId) (lsa : LinkStateAdv)
  /-- `flood_lsa_forward`. -/
  | floodLsaForward (eth : EthId) (lsa : LinkStateAdv)
  /-- `flood_add_flood_lsa` put an advertisement on the queue of an interface. -/
  | floodQueued (eth : EthId) (lsa : LinkStateAdv)
  /-- `accept_lsa_into_lsdb`. -/
  | acceptLsaIntoLsdb (eth : EthId) (lsa : LinkStateAdv)
  /-- `send_packet` sent a link state to the database module. -/
  | sendPacket (action : LsdbAction) (msg : LsdbMsg)
  deriving Repr, DecidableEq

/--
The memory of the daemon.

`clock n` is the `n`-th reading of `gettimeofday` and `readings` counts the
readings made.  `stack` is what an uninitialised local
`struct cr_lsdb_link_state` holds.
-/
structure Icm where
  router : LsdRouter
  localrouter : LocalRouter
  zoneBrk : Nat
  ethBrk : Nat
  accessBrk : Nat
  lsdb : ZoneId → Lsdb
  helloMaster : EthId → Option HelloMaster
  exchangeMaster : EthId → Option ExchangeMaster
  floodMaster : EthId → Option FloodMaster
  master : ThreadMaster
  periodctrl : Option ThreadId
  floodCalled : Bool
  clock : Nat → Timeval
  readings : Nat
  stack : CrLsdbLinkState
  trace : List Call

namespace Icm

/-- Record one call. -/
def log (icm : Icm) (call : Call) : Icm :=
  { icm with trace := icm.trace ++ [call] }

/-- The next reading of `gettimeofday`. -/
def now (icm : Icm) : Timeval :=
  icm.clock icm.readings

/-- `gettimeofday` was called once. -/
def readClock (icm : Icm) : Icm :=
  { icm with readings := icm.readings + 1 }

/-- `thread_add_timer_high_resolution`; the new handle is `icm.master.threadGet`. -/
def addTimer (icm : Icm) (func : ThreadFunc) (arg : ThreadArg) : Icm :=
  { icm with master := icm.master.threadAddTimer func arg }

/-- `thread_add_event`; the new handle is `icm.master.threadGet`. -/
def addEvent (icm : Icm) (func : ThreadFunc) (arg : ThreadArg) : Icm :=
  { icm with master := icm.master.threadAddEvent func arg }

/-- `THREAD_OFF`, without the write to the handle. -/
def threadOff (icm : Icm) (handle : Option ThreadId) : Icm :=
  { icm with master := icm.master.threadOff handle }

/-- Write the hello master of an interface. -/
def setHello (icm : Icm) (eth : EthId) (hello : HelloMaster) : Icm :=
  { icm with
    helloMaster := Function.update icm.helloMaster eth (some hello) }

/-- Write the exchange master of an interface. -/
def setExchange (icm : Icm) (eth : EthId) (exchange : ExchangeMaster) : Icm :=
  { icm with
    exchangeMaster := Function.update icm.exchangeMaster eth (some exchange) }

/-- Write the flood master of an interface. -/
def setFlood (icm : Icm) (eth : EthId) (flood : FloodMaster) : Icm :=
  { icm with
    floodMaster := Function.update icm.floodMaster eth (some flood) }

/-- Write the database of an area. -/
def setLsdb (icm : Icm) (zone : ZoneId) (db : Lsdb) : Icm :=
  { icm with lsdb := Function.update icm.lsdb zone db }

/-- `get_backbone_eth_area`: the address of the area of an interface. -/
def zoneOf (icm : Icm) (eth : EthId) : ZoneId :=
  (icm.router.eth eth).az

/-- `lsdb_get_eth_handle`: the database of the area of an interface. -/
def lsdbOf (icm : Icm) (eth : EthId) : Lsdb :=
  icm.lsdb (icm.zoneOf eth)

/-- The datagram `lsd_send` builds for a packet of an interface. -/
def datagramOf (icm : Icm) (eth : EthId) (body : Body) : Datagram :=
  let link := icm.router.eth eth
  { head :=
      { version := lsdVersion
        pklen := body.pklen
        rId := (icm.router.zone link.az).deviceId
        areaId := (icm.router.zone link.az).azId
        ifId := link.ifid
        icsum := lsdChecksum }
    body := body }

/--
`lsd_send`: fill in the head and hand the datagram to the socket, unless the
interface has no neighbour or the packet type is unknown.
-/
def lsdSend (icm : Icm) (eth : EthId) (body : Body) : Icm :=
  let link := icm.router.eth eth
  if link.neighborPma.deviceId = 0 ∨ link.neighborPma.pmaCtlAddr = 0 ∨
      body = .other then
    icm
  else
    icm.log (.lsdSend eth (icm.datagramOf eth body))

/-- `lsd_send` of a send buffer; a cleared buffer has no known packet type. -/
def lsdSendBuf (icm : Icm) (eth : EthId) : Option Body → Icm
  | some body => icm.lsdSend eth body
  | none => icm

/-- What `lsd_send` records of a packet of an interface. -/
def sentCalls (icm : Icm) (eth : EthId) (body : Option Body) : List Call :=
  let link := icm.router.eth eth
  if link.neighborPma.deviceId = 0 ∨ link.neighborPma.pmaCtlAddr = 0 then
    []
  else
    match body with
    | none => []
    | some .other => []
    | some body => [.lsdSend eth (icm.datagramOf eth body)]

/-- Sending a buffer only records what is handed to the socket. -/
theorem lsdSendBuf_eq
    (icm : Icm)
    (eth : EthId)
    (body : Option Body) :
    icm.lsdSendBuf eth body =
      { icm with trace := icm.trace ++ icm.sentCalls eth body } := by
  unfold sentCalls
  cases body with
  | none =>
      simp [lsdSendBuf]
  | some body =>
      unfold lsdSendBuf lsdSend
      dsimp only
      by_cases unaddressed :
          (icm.router.eth eth).neighborPma.deviceId = 0 ∨
            (icm.router.eth eth).neighborPma.pmaCtlAddr = 0
      · rw [if_pos unaddressed,
          if_pos (unaddressed.elim .inl fun noAddr => .inr (.inl noAddr))]
        simp
      · rw [if_neg unaddressed]
        cases body <;> simp_all [log]

/-- `lsd_send` only records what it hands to the socket. -/
theorem lsdSend_eq
    (icm : Icm)
    (eth : EthId)
    (body : Body) :
    icm.lsdSend eth body =
      { icm with trace := icm.trace ++ icm.sentCalls eth (some body) } :=
  lsdSendBuf_eq icm eth (some body)

/-- `NOT_FOUND_ERR` as the `u32` that `get_area_id_by_lsdb_handle` returns. -/
def notFoundErr : UInt32 := 0 - 2

/-- `get_area_id_by_lsdb_handle`. -/
def getAreaIdByLsdbHandle (icm : Icm) (zone : ZoneId) : UInt32 :=
  if zone ∈ icm.router.azs then
    (icm.router.zone zone).azId
  else
    notFoundErr

/-- `cr_lsdb_link_state_add` on the database of an area. -/
def crLsdbLinkStateAdd (icm : Icm) (zone : ZoneId) (link : CrLsdbLinkState) :
    Except Fault Icm := do
  let db ← (icm.lsdb zone).crLsdbLinkStateAdd link
  let area := icm.getAreaIdByLsdbHandle zone
  return (icm.log (.sendPacket .addLsa (lsdbMsgCreate area link))).setLsdb
    zone db

/-- `cr_lsdb_link_state_update` on the database of an area. -/
def crLsdbLinkStateUpdate (icm : Icm) (zone : ZoneId)
    (link : CrLsdbLinkState) : Except Fault Icm := do
  let db ← (icm.lsdb zone).crLsdbLinkStateUpdate link
  let area := icm.getAreaIdByLsdbHandle zone
  return (icm.log (.sendPacket .updateLsa (lsdbMsgCreate area link))).setLsdb
    zone db

/-- `get_metric_of_backbone`. -/
def getMetricOfBackbone (icm : Icm) (eth : EthId) : UInt32 :=
  (icm.localrouter.iface (icm.router.eth eth).interface).protoInfo.cost

/-- `get_metric_of_access`. -/
def getMetricOfAccess (icm : Icm) (eth : AccessId) : UInt32 :=
  (icm.localrouter.iface (icm.router.access eth).interface).protoInfo.cost

/--
`get_address_of_backbone`: the first address of the interface.  Without one
the caller's variable keeps what the stack held.
-/
def getAddressOfBackbone (icm : Icm) (eth : EthId) : UInt32 :=
  (icm.localrouter.iface
    (icm.router.eth eth).interface).addresses.headD icm.stack.addr

/-- `get_address_of_access`. -/
def getAddressOfAccess (icm : Icm) (eth : AccessId) : UInt32 :=
  (icm.localrouter.iface
    (icm.router.access eth).interface).addresses.headD icm.stack.addr

end Icm

end Pma
