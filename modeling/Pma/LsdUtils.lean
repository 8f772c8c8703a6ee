import Pma.LsdFlood

namespace Pma.Icm

/-!
# Accepting advertisements

`lsd/lsd_utils.c` decides what happens to an advertisement a neighbour sent:
`check_local_lsdb` keeps it out of the entries the router takes for its own,
and `accept_lsa_into_lsdb` stores, forwards, answers or drops it.  Both packet
formats that carry advertisements end here; the reception of a flood packet
stands in this module because it is a caller.
-/

/-- `link_state_compare`: the sign of the comparison of two sequence numbers. -/
def linkStateCompare (first second : CrLsdbLinkState) :
    Except Fault Ordering := do
  assertAt .linkStateCompare (first.key = second.key)
  return compare first.seq second.seq

/--
`check_local_lsdb`.  The key counts as local when it starts at the router id of
the area.
-/
def checkLocalLsdb (icm : Icm) (eth : EthId) (state : CrLsdbLinkState) :
    Except Fault (Bool × Icm) :=
  if state.key.rtId ≠ (icm.router.zone (icm.zoneOf eth)).rId then
    .ok (false, icm)
  else
    match (icm.lsdbOf eth).crLsdbLinkStateFind state.key with
    | none => .ok (true, icm)
    | some localState => do
        let order ← linkStateCompare localState state
        if order ≠ .eq then
          return (true, icm.floodAddFloodLsa (lsdbToLsaInfo localState) eth)
        else
          return (true, icm)

/-- The part of `accept_lsa_into_lsdb` behind `check_local_lsdb`. -/
def acceptForeign
    (icm : Icm) (eth : EthId) (icLsa : LinkStateAdv) (lsa : CrLsdbLinkState) :
    Except Fault Icm :=
  match (icm.lsdbOf eth).crLsdbLinkStateFind lsa.key with
  | none => do
      let added ← icm.crLsdbLinkStateAdd (icm.zoneOf eth) lsa
      return added.floodLsaForward icLsa eth
  | some link =>
      if isOutOfDate icm.now link then do
        let updated ←
          icm.readClock.crLsdbLinkStateUpdate (icm.zoneOf eth) lsa
        return updated.floodLsaForward icLsa eth
      else do
        let order ← linkStateCompare link lsa
        match order with
        | .lt => do
            let updated ←
              icm.readClock.crLsdbLinkStateUpdate (icm.zoneOf eth) lsa
            return updated.floodLsaForward icLsa eth
        | .gt =>
            return icm.readClock.floodAddFloodLsa (lsdbToLsaInfo link) eth
        | .eq =>
            return icm.readClock

/-- `accept_lsa_into_lsdb`. -/
def acceptLsaIntoLsdb (icm : Icm) (eth : EthId) (icLsa : LinkStateAdv) :
    Except Fault Icm := do
  let called := icm.log (.acceptLsaIntoLsdb eth icLsa)
  let lsa := lsaToLsdbInfo icLsa called.now
  let (isLocal, checked) ← called.readClock.checkLocalLsdb eth lsa
  if isLocal then
    return checked
  else
    checked.acceptForeign eth icLsa lsa

/-- Pass the first `count` records of a receive buffer to `accept_lsa_into_lsdb`. -/
def acceptRecords
    (icm : Icm) (eth : EthId) (lsas : List LinkStateAdv) (count : Nat) :
    Except Fault Icm :=
  (List.range count).foldlM
    (fun (current : Icm) index => do
      let lsa ← recordAt lsas index
      current.acceptLsaIntoLsdb eth lsa)
    icm

/-- The `u32` record count of a flood packet, converted to `int` and counted down. -/
def floodCount (size : UInt32) : Nat :=
  if size.toNat < 2 ^ 31 then size.toNat else 0

/--
`flood_pkt_received` for a packet of the flood type.  Between the two branches
the source also looks two keys up and compares an uninitialised degree, which
changes nothing.
-/
def floodPktReceived (icm : Icm) (eth : EthId) (packet : Flood) :
    Except Fault Icm :=
  match packet.type with
  | .ack => do
      let flood ← deref (icm.floodMaster eth)
      if flood.state = .ackWaiting ∧ packet.seq = flood.pkgNo then
        let stopped := icm.threadOff flood.ackCtrl
        if flood.queue = [] then
          return stopped.setFlood eth
            { flood with ackCtrl := none, state := .ready }
        else
          return (stopped.addTimer .floodSendLsa (.backbone eth)).setFlood eth
            { flood with
              ackCtrl := none
              state := .busy
              sndCtrl := some stopped.master.threadGet }
      else
        return icm
  | .lsa =>
      (icm.floodSendAck eth packet).acceptRecords eth packet.lsas
        (floodCount packet.size)
  | .other => .ok icm

end Pma.Icm
