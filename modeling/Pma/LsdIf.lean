import Pma.LsdHello

namespace Pma.Icm

/-!
# Interfaces, sockets and scheduling

`lsd/lsd_if.c` mirrors the interface table of the router into areas and
interfaces, `lsd/lsd_socket.c` finds the interface a datagram belongs to, and
`lsd/lsdsrv.c` runs the scheduler.  Handlers of one queue run in the reverse of
the order `lsd_init` registers them in.
-/

/-- The handlers of `backbone_queue`. -/
def backboneStateChanged (icm : Icm) (eth : EthId) : Icm :=
  ((icm.floodOnEthStateChanged eth).exchangeOnEthStateChanged
    eth).helloOnEthStateChanged eth

/-- `interface_up` and `interface_down`, which run the same handlers. -/
def interfaceChanged (icm : Icm) : ThreadArg → Except Fault Icm
  | .access eth => icm.aceUpHandler eth
  | .backbone eth => .ok (icm.backboneStateChanged eth)
  | .none => .error .nullPointer

/-- The handlers of `pkt_rcv_queue`; each of them serves one packet type. -/
def dispatch (icm : Icm) (eth : EthId) (datagram : Datagram) :
    Except Fault Icm :=
  match datagram.body with
  | .helloHigh _ _ => icm.helloOnHighPacketReceived eth datagram.head
  | .helloLow _ _ => icm.helloOnLowPacketReceived eth datagram.head
  | .exchange packet => icm.exchangePktReceived eth packet
  | .flood packet => icm.floodPktReceived eth packet
  | .other => .ok icm

/-- `thread_call` of a fetched thread. -/
def threadCall (icm : Icm) (thread : Thread) : Except Fault Icm :=
  match thread.func, thread.arg with
  | .helloHighSend, .backbone eth => icm.helloHighSend eth
  | .helloLowSend, .backbone eth => icm.helloLowSend eth
  | .deadTimerHigh, .backbone eth => icm.deadTimerHigh eth
  | .deadTimerLow, .backbone eth => icm.deadTimerLow eth
  | .ackTimeExcceed, .backbone eth => icm.ackTimeExcceed eth
  | .floodAckTimeout, .backbone eth => icm.floodAckTimeout eth
  | .floodSendLsa, .backbone eth => icm.floodSendLsa eth
  | .spreadLocalLinkState, _ => icm.spreadLocalLinkState
  | .interfaceUp, arg => icm.interfaceChanged arg
  | .interfaceDown, arg => icm.interfaceChanged arg
  | _, _ => .error .wildPointer

/-- `thread_run`: the fetched thread leaves its list before it is called. -/
def fetch (icm : Icm) (id : ThreadId) : Icm :=
  { icm with master := icm.master.threadCancel id }

/--
`thread_fetch` of the pending thread at an address, and its call.  An address
that is not pending is never fetched.
-/
def expire (icm : Icm) (id : ThreadId) : Except Fault Icm :=
  match icm.master.find id with
  | none => .ok icm
  | some thread => (icm.fetch id).threadCall thread

/-- `get_autonomous_zone_by_id` and `find_autonomous_zone`. -/
def getAutonomousZoneById (icm : Icm) (areaId : UInt32) : Option ZoneId :=
  icm.router.azs.find? fun zone => (icm.router.zone zone).azId = areaId

/-- `get_backbone_by_neighbor_id`. -/
def getBackboneByNeighborId (icm : Icm) (zone : ZoneId) (id : UInt32) :
    Option EthId :=
  (icm.router.zone zone).backbones.find? fun eth =>
    (icm.router.eth eth).neighborPma.deviceId = id

/-- `lsd_receive`. -/
def lsdReceive (icm : Icm) (datagram : Datagram) : Except Fault Icm :=
  match icm.getAutonomousZoneById datagram.head.areaId with
  | none => .ok icm
  | some zone =>
      match icm.getBackboneByNeighborId zone datagram.head.rId with
      | none => .ok icm
      | some eth =>
          if (icm.router.eth eth).state = .down ∨
              datagram.head.version ≠ lsdVersion ∨
              datagram.head.icsum ≠ lsdChecksum then
            .ok icm
          else
            icm.dispatch eth datagram

/-- `eth_state_update`. -/
def ethStateUpdate (icm : Icm) (arg : ThreadArg) (state : EthState) : Icm :=
  match state with
  | .up => icm.addEvent .interfaceUp arg
  | .down => icm.addEvent .interfaceDown arg

/-- `ROUTER_OSPF`. -/
def routerOspf : UInt32 := 1

/-- The area `lsd_iflist_init` puts an interface in. -/
def areaOf (proto : ProtoInfo) : UInt32 :=
  if proto.protoType = routerOspf then proto.areaid else 0

/-- The area with an id, allocated with the ids of the router when it is missing. -/
def ensureZone (icm : Icm) (areaId : UInt32) : ZoneId × Icm :=
  match icm.getAutonomousZoneById areaId with
  | some zone => (zone, icm)
  | none =>
      let zone := icm.zoneBrk
      (zone,
        { icm with
          zoneBrk := zone + 1
          lsdb := Function.update icm.lsdb zone .init
          router :=
            { icm.router with
              azs := zone :: icm.router.azs
              zone := Function.update icm.router.zone zone
                { deviceId := icm.localrouter.agentid
                  rId := icm.localrouter.routerid
                  azId := areaId
                  backbones := [] } } })

/-- Write the description of a backbone interface. -/
def setEth (icm : Icm) (eth : EthId) (link : BackboneEth) : Icm :=
  { icm with
    router :=
      { icm.router with
        eth := Function.update icm.router.eth eth link } }

/-- `backbone_eth_add`. -/
def backboneEthAdd (icm : Icm) (zone : ZoneId) (eth : EthId) : Icm :=
  let added := icm.setEth eth { icm.router.eth eth with az := zone }
  { added with
    router :=
      { added.router with
        zone := Function.update added.router.zone zone
          { added.router.zone zone with
            backbones := eth :: (added.router.zone zone).backbones } } }

/-- Remember the object that mirrors an interface. -/
def setVinterface (icm : Icm) (id : IfaceId) (object : VInterface) : Icm :=
  { icm with
    localrouter :=
      { icm.localrouter with
        iface := Function.update icm.localrouter.iface id
          { icm.localrouter.iface id with vinterface := some object } } }

/-- The description `lsd_iflist_init` writes for a backbone interface. -/
def describeBackbone
    (face : Rinterface) (id : IfaceId) (old : BackboneEth) : BackboneEth :=
  { old with
    interface := id
    ifid := face.ctlId
    state := face.opState
    neighborPma :=
      match face.neighbor with
      | some neighbor =>
          { rid := neighbor.rid
            deviceId := neighbor.devid
            pmaCtlAddr := neighbor.agentAddr
            routerAddr := neighbor.routerAddr }
      | none => old.neighborPma }

/-- A cleared `struct backbone_eth`. -/
def zeroEth : BackboneEth where
  ifid := 0
  state := .down
  neighborPma := ⟨0, 0, 0, 0⟩
  az := 0
  interface := 0

/--
One backbone interface of `lsd_iflist_init`.  The untyped pointer of an
interface that used to be an access interface points to an object of the wrong
type.
-/
def initBackbone (icm : Icm) (id : IfaceId) : Except Fault Icm :=
  let face := icm.localrouter.iface id
  match face.vinterface with
  | some (.access _) => .error .wildPointer
  | some (.backbone eth) =>
      let described :=
        icm.setEth eth (describeBackbone face id (icm.router.eth eth))
      let ensured := described.ensureZone (areaOf face.protoInfo)
      let mirrored := ensured.2.setVinterface id (.backbone eth)
      .ok (mirrored.ethStateUpdate (.backbone eth) face.opState)
  | none =>
      let eth := icm.ethBrk
      let allocated := { icm with ethBrk := eth + 1 }
      let described :=
        allocated.setEth eth (describeBackbone face id zeroEth)
      let ensured := described.ensureZone (areaOf face.protoInfo)
      let mirrored := ensured.2.setVinterface id (.backbone eth)
      .ok ((mirrored.backboneEthAdd ensured.1 eth).ethStateUpdate
        (.backbone eth) face.opState)

/-- Write the description of an access interface. -/
def setAccess (icm : Icm) (eth : AccessId) (link : AccessEth) : Icm :=
  { icm with
    router :=
      { icm.router with
        access := Function.update icm.router.access eth link } }

/-- One access interface of `lsd_iflist_init`. -/
def initAccess (icm : Icm) (id : IfaceId) : Except Fault Icm :=
  let face := icm.localrouter.iface id
  let link : AccessEth :=
    { ifid := face.ctlId, state := face.opState, interface := id }
  match face.vinterface with
  | some (.backbone _) => .error .wildPointer
  | some (.access eth) =>
      let mirrored := (icm.setAccess eth link).setVinterface id (.access eth)
      .ok (mirrored.ethStateUpdate (.access eth) face.opState)
  | none =>
      let eth := icm.accessBrk
      let added :=
        { icm with
          accessBrk := eth + 1
          router :=
            { icm.router with accesses := eth :: icm.router.accesses } }
      let mirrored := (added.setAccess eth link).setVinterface id (.access eth)
      .ok (mirrored.ethStateUpdate (.access eth) face.opState)

/-- One interface of `lsd_iflist_init`. -/
def initInterface (icm : Icm) (id : IfaceId) : Except Fault Icm :=
  match (icm.localrouter.iface id).type with
  | .backbone => icm.initBackbone id
  | .access => icm.initAccess id
  | .unknown => .ok icm

/-- `lsd_iflist_init`. -/
def lsdIflistInit (icm : Icm) : Except Fault Icm :=
  if icm.localrouter.inited then
    icm.localrouter.iflist.foldlM
      (fun (current : Icm) id => current.initInterface id)
      icm
  else
    .ok icm

/-- A refresh of the interface table, which keeps the mirrored objects. -/
def refreshInterfaces (icm : Icm) (table : LocalRouter) : Icm :=
  { icm with
    localrouter :=
      { table with
        iface := fun id =>
          { table.iface id with
            vinterface := (icm.localrouter.iface id).vinterface } } }

/-- What can happen to the daemon. -/
inductive Event where
  /-- A datagram arrives at one of the sockets. -/
  | datagram (datagram : Datagram)
  /-- A pending timer or event is fetched. -/
  | expire (id : ThreadId)
  /-- The interface table is read again and mirrored. -/
  | interfaces (table : LocalRouter)

/-- One event of the daemon. -/
def step (icm : Icm) : Event → Except Fault Icm
  | .datagram datagram => icm.lsdReceive datagram
  | .expire id => icm.expire id
  | .interfaces table => (icm.refreshInterfaces table).lsdIflistInit

/-- The daemon as `lsd_init` leaves it, with the clock and stack it will meet. -/
def boot
    (clock : Nat → Timeval)
    (stack : CrLsdbLinkState)
    (localrouter : LocalRouter) : Icm where
  router :=
    { azs := []
      zone := fun _ => ⟨0, 0, 0, []⟩
      accesses := []
      access := fun _ => ⟨0, .down, 0⟩
      eth := fun _ => zeroEth }
  localrouter := localrouter
  zoneBrk := 0
  ethBrk := 0
  accessBrk := 0
  lsdb := fun _ => .init
  helloMaster := fun _ => none
  exchangeMaster := fun _ => none
  floodMaster := fun _ => none
  master := .create
  periodctrl := none
  floodCalled := false
  clock := clock
  readings := 0
  stack := stack
  trace := []

/-- An interface table with one backbone interface that is up. -/
def oneLinkTable (routerid agentid neighbor : UInt32) : LocalRouter where
  routerid := routerid
  agentid := agentid
  inited := true
  iflist := [0]
  iface := fun _ =>
    { type := .backbone
      opState := .up
      ctlId := 7
      protoInfo := { protoType := routerOspf, areaid := 0, cost := 10 }
      neighbor := some ⟨neighbor, 0, 1, 1⟩
      vinterface := none
      addresses := [167772161] }

/-- A high hello packet of a router. -/
def helloFrom (rId ifId : UInt32) : Datagram where
  head := ⟨lsdVersion, 28, rId, 0, ifId, lsdChecksum⟩
  body := .helloHigh 100000 400000

end Pma.Icm
