import Pma.Icm

namespace Pma.Icm

/-!
# Flooding

The functions of `lsd/lsd_flood.c`.  Every backbone interface has a flood
master that queues advertisements, sends them in numbered batches and waits for
the acknowledgement of one batch before it sends the next.
-/

/-- `LSA_CT_PER_PAK`. -/
def lsaCtPerPak : Nat := 5

/-- `flood_periodically_flood_terminate`. -/
def floodPeriodicallyFloodTerminate (icm : Icm) : Icm :=
  { icm.threadOff icm.periodctrl with periodctrl := none }

/-- Arm the timer of `spread_local_link_state`. -/
def armPeriodctrl (icm : Icm) : Icm :=
  { icm.addTimer .spreadLocalLinkState .none with
    periodctrl := some icm.master.threadGet }

/-- `flood_periodically_flood_start`. -/
def floodPeriodicallyFloodStart (icm : Icm) : Icm :=
  icm.floodPeriodicallyFloodTerminate.armPeriodctrl

/-- A flood master as `flood_on_eth_state_changed` allocates it. -/
def newFloodMaster : FloodMaster where
  queue := []
  sendbuf := none
  pkgNo := 0
  state := .terminated
  ackCtrl := none
  sndCtrl := none

/-- The allocation in `flood_on_eth_state_changed`. -/
def floodAllocate (icm : Icm) (eth : EthId) : Icm :=
  match icm.floodMaster eth with
  | none => icm.setFlood eth newFloodMaster
  | some _ => icm

/-- The part of `flood_on_eth_state_changed` that `flood_called` guards. -/
def floodCallOnce (icm : Icm) : Icm :=
  if icm.floodCalled then
    icm
  else
    { icm.floodPeriodicallyFloodStart with floodCalled := true }

/-- `flood_on_eth_state_changed`. -/
def floodOnEthStateChanged (icm : Icm) (eth : EthId) : Icm :=
  (icm.floodAllocate eth).floodCallOnce

/-- `flood_send_ack`. -/
def floodSendAck (icm : Icm) (eth : EthId) (header : Flood) : Icm :=
  icm.lsdSend eth
    (.flood { type := .ack, seq := header.seq, size := 0, lsas := [] })

/-- `flood_ack_timeout`. -/
def floodAckTimeout (icm : Icm) (eth : EthId) : Except Fault Icm := do
  let flood ← deref (icm.floodMaster eth)
  let sent := icm.lsdSendBuf eth (flood.sendbuf.map .flood)
  let handle := sent.master.threadGet
  return (sent.addTimer .floodAckTimeout (.backbone eth)).setFlood eth
    { flood with ackCtrl := some handle }

/-- The packet `flood_send_lsa` builds from the head of the queue. -/
def floodBatch (flood : FloodMaster) : Flood :=
  let batch := flood.queue.take lsaCtPerPak
  { type := .lsa
    seq := flood.pkgNo + 1
    size := UInt32.ofNat batch.length
    lsas := batch }

/-- `flood_send_lsa`. -/
def floodSendLsa (icm : Icm) (eth : EthId) : Except Fault Icm := do
  let flood ← deref (icm.floodMaster eth)
  let packet := floodBatch flood
  let handle := icm.master.threadGet
  let armed := icm.addTimer .floodAckTimeout (.backbone eth)
  let written := armed.setFlood eth
    { flood with
      sndCtrl := none
      pkgNo := flood.pkgNo + 1
      queue := flood.queue.drop lsaCtPerPak
      sendbuf := some packet
      state := .ackWaiting
      ackCtrl := some handle }
  return written.lsdSend eth (.flood packet)

/-- `flood_add_flood_lsa`. -/
def floodAddFloodLsa (icm : Icm) (lsa : LinkStateAdv) (eth : EthId) : Icm :=
  match icm.floodMaster eth with
  | none => icm
  | some flood =>
      if flood.state = .terminated then
        icm
      else
        let queued := icm.log (.floodQueued eth lsa)
        if flood.state = .ready then
          (queued.addTimer .floodSendLsa (.backbone eth)).setFlood eth
            { flood with
              queue := flood.queue ++ [lsa]
              state := .busy
              sndCtrl := some queued.master.threadGet }
        else
          queued.setFlood eth { flood with queue := flood.queue ++ [lsa] }

/-- `flood_terminate`. -/
def floodTerminate (icm : Icm) (eth : EthId) : Except Fault Icm := do
  let flood ← deref (icm.floodMaster eth)
  return ((icm.threadOff flood.ackCtrl).threadOff flood.sndCtrl).setFlood eth
    { flood with
      ackCtrl := none
      sndCtrl := none
      state := .terminated
      queue := [] }

/-- `flood_start`. -/
def floodStart (icm : Icm) (eth : EthId) : Except Fault Icm := do
  let stopped ← icm.floodTerminate eth
  let flood ← deref (stopped.floodMaster eth)
  assertAt .floodStart (flood.state = .terminated)
  return stopped.setFlood eth { flood with state := .ready }

/-- `flood_lsa_spread`. -/
def floodLsaSpread (icm : Icm) (lsa : LinkStateAdv) (zone : ZoneId) : Icm :=
  (icm.router.zone zone).backbones.foldl
    (fun current eth => current.floodAddFloodLsa lsa eth)
    (icm.log (.floodLsaSpread zone lsa))

/-- `flood_lsa_forward`. -/
def floodLsaForward (icm : Icm) (lsa : LinkStateAdv) (eth : EthId) : Icm :=
  (icm.router.zone (icm.zoneOf eth)).backbones.foldl
    (fun current other =>
      if other ≠ eth then current.floodAddFloodLsa lsa other else current)
    (icm.log (.floodLsaForward eth lsa))

/--
The common body of the two `flood_spread_*` functions: raise the stored
sequence number of `key`, or store `fresh` under number 1, and spread the
result in the area.
-/
def floodSpreadLinkState
    (icm : Icm)
    (zone : ZoneId)
    (key : LinkStateKey)
    (addr metric : UInt32)
    (state : UInt8) : Except Fault Icm :=
  match (icm.lsdb zone).crLsdbLinkStateFind key with
  | some found => do
      let link := { found with state := state, seq := found.seq + 1 }
      let updated ← icm.crLsdbLinkStateUpdate zone link
      return updated.floodLsaSpread (lsdbToLsaInfo link) zone
  | none => do
      let link : CrLsdbLinkState :=
        { key := key
          addr := addr
          metric := metric
          state := state
          seq := 1
          age := icm.stack.age }
      let added ← icm.crLsdbLinkStateAdd zone link
      return added.floodLsaSpread (lsdbToLsaInfo link) zone

/-- The key of an access interface in an area. -/
def accessKey (icm : Icm) (eth : AccessId) (zone : ZoneId) : LinkStateKey where
  rtId := (icm.router.zone zone).deviceId
  ifId := (icm.router.access eth).ifid
  nRtId := 0
  nIfId := 0

/-- The key of a backbone interface towards a neighbour. -/
def backboneKey (icm : Icm) (eth : EthId) (neighbor : LsdNeighborInfo) :
    LinkStateKey where
  rtId := (icm.router.zone (icm.zoneOf eth)).deviceId
  ifId := (icm.router.eth eth).ifid
  nRtId := neighbor.rtId
  nIfId := neighbor.ifId

/--
`flood_spread_access_link_state`.  It hands the access interface to the
functions that read the metric and address of a backbone interface, so a new
entry gets whatever lies there.
-/
def floodSpreadAccessLinkState
    (icm : Icm) (eth : AccessId) (state : UInt8) : Except Fault Icm :=
  icm.router.azs.foldlM
    (fun (current : Icm) zone =>
      current.floodSpreadLinkState zone (current.accessKey eth zone)
        current.stack.addr current.stack.metric state)
    icm

/-- `flood_spread_backbone_link_state`. -/
def floodSpreadBackboneLinkState
    (icm : Icm) (eth : EthId) (state : UInt8) : Except Fault Icm := do
  let hello ← deref (icm.helloMaster eth)
  assertAt .floodSpreadNeighbor (hello.neighbor.rtId ≠ 0)
  icm.floodSpreadLinkState (icm.zoneOf eth)
    (icm.backboneKey eth hello.neighbor)
    (icm.getAddressOfBackbone eth) (icm.getMetricOfBackbone eth) state

/-- One key of the periodic spread: flood the raised number, then store it. -/
def spreadStoredLinkState
    (icm : Icm) (zone : ZoneId) (key : LinkStateKey) : Except Fault Icm :=
  match (icm.lsdb zone).crLsdbLinkStateFind key with
  | some found =>
      let link := { found with seq := found.seq + 1 }
      (icm.floodLsaSpread (lsdbToLsaInfo link) zone).crLsdbLinkStateUpdate
        zone link
  | none => .ok icm

/-- The access part of `spread_local_link_state`. -/
def spreadLocalAccesses (icm : Icm) : Except Fault Icm :=
  icm.router.accesses.foldlM
    (fun (current : Icm) eth =>
      current.router.azs.foldlM
        (fun (inner : Icm) zone =>
          inner.spreadStoredLinkState zone (inner.accessKey eth zone))
        current)
    icm

/-- The key `spread_local_link_state` looks up for a backbone interface of an area. -/
def localBackboneKey
    (icm : Icm) (zone : ZoneId) (eth : EthId) (neighbor : LsdNeighborInfo) :
    LinkStateKey where
  rtId := (icm.router.zone zone).deviceId
  ifId := (icm.router.eth eth).ifid
  nRtId := neighbor.rtId
  nIfId := neighbor.ifId

/-- One backbone interface of `spread_local_link_state`. -/
def spreadLocalBackbone
    (icm : Icm) (zone : ZoneId) (eth : EthId) : Except Fault Icm := do
  let hello ← deref (icm.helloMaster eth)
  if hello.neighbor.rtId ≠ 0 then
    icm.spreadStoredLinkState zone (icm.localBackboneKey zone eth hello.neighbor)
  else
    return icm

/-- The backbone part of `spread_local_link_state`. -/
def spreadLocalBackbones (icm : Icm) : Except Fault Icm :=
  icm.router.azs.foldlM
    (fun (current : Icm) zone =>
      (current.router.zone zone).backbones.foldlM
        (fun (inner : Icm) eth => inner.spreadLocalBackbone zone eth)
        current)
    icm

/-- `spread_local_link_state`. -/
def spreadLocalLinkState (icm : Icm) : Except Fault Icm := do
  let accesses ← icm.spreadLocalAccesses
  let backbones ← accesses.spreadLocalBackbones
  return backbones.armPeriodctrl

end Pma.Icm
