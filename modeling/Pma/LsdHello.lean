import Pma.LsdExchange

namespace Pma.Icm

/-!
# Hello detection and its handler

`lsd/lsd_hello.c` detects a neighbour on two priorities, each with a dead timer
that every hello packet restarts, and `lsd/lsd_handler.c` turns a change into
link states, exchange sessions and flood sessions.
-/

/-- `TMP_VAR`. -/
def tmpVar : UInt32 := 100000

/-- A hello master as `hello_on_eth_state_changed` allocates it. -/
def newHelloMaster : HelloMaster where
  deadTimerHigh := none
  deadTimerLow := none
  helloTimerHigh := none
  helloTimerLow := none
  highStatus := .disconnected
  lowStatus := .disconnected
  neighbor := ⟨0, 0⟩
  hHelloVal := 0
  hDeadVal := 0
  lHelloVal := 0
  lDeadVal := 0

/-- The `ETH_DOWN` branch of `hello_on_eth_state_changed`. -/
def helloOnEthDown (icm : Icm) (eth : EthId) (hello : HelloMaster) : Icm :=
  ((icm.threadOff hello.helloTimerHigh).threadOff hello.helloTimerLow).setHello
    eth { hello with helloTimerHigh := none, helloTimerLow := none }

/-- The `ETH_UP` branch of `hello_on_eth_state_changed`. -/
def helloOnEthUp (icm : Icm) (eth : EthId) (hello : HelloMaster) : Icm :=
  let highHandle := icm.master.threadGet
  let highAdded := icm.addEvent .helloHighSend (.backbone eth)
  let lowHandle := highAdded.master.threadGet
  let lowAdded := highAdded.addEvent .helloLowSend (.backbone eth)
  lowAdded.setHello eth
    { hello with
      hHelloVal := 1
      lHelloVal := 20
      hDeadVal := 4
      lDeadVal := 80
      helloTimerHigh := some highHandle
      helloTimerLow := some lowHandle }

/-- `hello_on_eth_state_changed`. -/
def helloOnEthStateChanged (icm : Icm) (eth : EthId) : Icm :=
  let hello := (icm.helloMaster eth).getD newHelloMaster
  match (icm.router.eth eth).state with
  | .down => icm.helloOnEthDown eth hello
  | .up => icm.helloOnEthUp eth hello

/-- `hello_high_send`. -/
def helloHighSend (icm : Icm) (eth : EthId) : Except Fault Icm := do
  let hello ← deref (icm.helloMaster eth)
  let handle := icm.master.threadGet
  let armed := icm.addTimer .helloHighSend (.backbone eth)
  let written := armed.setHello eth
    { hello with helloTimerHigh := some handle }
  return written.lsdSend eth
    (.helloHigh (tmpVar * hello.hHelloVal) (tmpVar * hello.hDeadVal))

/-- `hello_low_send`. -/
def helloLowSend (icm : Icm) (eth : EthId) : Except Fault Icm := do
  let hello ← deref (icm.helloMaster eth)
  let handle := icm.master.threadGet
  let armed := icm.addTimer .helloLowSend (.backbone eth)
  let written := armed.setHello eth
    { hello with helloTimerLow := some handle }
  return written.lsdSend eth
    (.helloLow (tmpVar * hello.lHelloVal) (tmpVar * hello.lDeadVal))

/-- The bit `hello_high` of `state_changer`. -/
def setHelloHigh (status : LsdStatus) (data : UInt8) : UInt8 :=
  match status with
  | .connected => data ||| 2
  | .disconnected => data &&& 253

/-- The bit `hello_low` of `state_changer`. -/
def setHelloLow (status : LsdStatus) (data : UInt8) : UInt8 :=
  match status with
  | .connected => data ||| 1
  | .disconnected => data &&& 254

/--
What `hello_changed_handler` does after it stored a change of the high
priority: sessions start before the link state is spread and end after it.
-/
def highChanged
    (icm : Icm) (eth : EthId) (status : LsdStatus) (state : UInt8) :
    Except Fault Icm :=
  match status with
  | .connected => do
      let exchanging ← icm.exchangeSendStart eth
      let flooding ← exchanging.floodStart eth
      flooding.floodSpreadBackboneLinkState eth state
  | .disconnected => do
      let stopped ← icm.exchangeTerminate eth
      let spread ← stopped.floodSpreadBackboneLinkState eth state
      spread.floodTerminate eth

/-- The high priority branch of `hello_changed_handler`. -/
def helloHighChanged
    (icm : Icm) (eth : EthId) (status : LsdStatus) (base : CrLsdbLinkState) :
    Except Fault Icm :=
  match (icm.lsdbOf eth).crLsdbLinkStateFind base.key with
  | none => do
      let state := setHelloHigh status 0
      let added ← icm.crLsdbLinkStateAdd (icm.zoneOf eth)
        { base with seq := 0, state := state }
      added.highChanged eth status state
  | some result => do
      let state := setHelloHigh status result.state
      let updated ← icm.crLsdbLinkStateUpdate (icm.zoneOf eth)
        { base with seq := result.seq, state := state }
      updated.highChanged eth status state

/--
The low priority branch of `hello_changed_handler`.  For a stored key it
spreads the link state first and then writes the sequence number it read
before the spread.
-/
def helloLowChanged
    (icm : Icm) (eth : EthId) (status : LsdStatus) (base : CrLsdbLinkState) :
    Except Fault Icm :=
  match (icm.lsdbOf eth).crLsdbLinkStateFind base.key with
  | none => do
      let state := setHelloLow status 0
      let added ← icm.crLsdbLinkStateAdd (icm.zoneOf eth)
        { base with seq := 0, state := state }
      added.floodSpreadBackboneLinkState eth state
  | some result => do
      let state := setHelloLow status result.state
      let spread ← icm.floodSpreadBackboneLinkState eth state
      spread.crLsdbLinkStateUpdate (icm.zoneOf eth)
        { base with seq := result.seq, state := state }

/-- The fields `hello_changed_handler` fills in before it looks the key up. -/
def helloBase (icm : Icm) (eth : EthId) (neighbor : LsdNeighborInfo) :
    CrLsdbLinkState where
  key := icm.backboneKey eth neighbor
  addr := icm.getAddressOfBackbone eth
  metric := icm.getMetricOfBackbone eth
  state := 0
  seq := 0
  age := icm.now

/-- `hello_changed_handler`. -/
def helloChangedHandler
    (icm : Icm) (eth : EthId) (type : PriorityType) (status : LsdStatus) :
    Except Fault Icm := do
  let hello ← deref (icm.helloMaster eth)
  let base := icm.helloBase eth hello.neighbor
  match type with
  | .high => icm.readClock.helloHighChanged eth status base
  | .low => icm.readClock.helloLowChanged eth status base

/-- One area of `ace_up_handler`. -/
def aceUpInZone (icm : Icm) (eth : AccessId) (zone : ZoneId) :
    Except Fault Icm :=
  let state : CrLsdbLinkState :=
    { key := icm.accessKey eth zone
      addr := icm.getAddressOfAccess eth
      metric := icm.getMetricOfAccess eth
      state := 0
      seq := 0
      age := icm.now }
  match (icm.lsdb zone).crLsdbLinkStateFind state.key with
  | none => icm.readClock.crLsdbLinkStateAdd zone state
  | some _ => icm.readClock.crLsdbLinkStateUpdate zone state

/-- `ace_up_handler`. -/
def aceUpHandler (icm : Icm) (eth : AccessId) : Except Fault Icm :=
  icm.router.azs.foldlM
    (fun (current : Icm) zone => current.aceUpInZone eth zone)
    icm

/-- `hello_on_high_packet_received` for a high hello packet. -/
def helloOnHighPacketReceived (icm : Icm) (eth : EthId) (head : LsdHead) :
    Except Fault Icm := do
  let hello ← deref (icm.helloMaster eth)
  let stopped := icm.threadOff hello.deadTimerHigh
  let handle := stopped.master.threadGet
  let armed := stopped.addTimer .deadTimerHigh (.backbone eth)
  match hello.highStatus with
  | .connected =>
      return armed.setHello eth { hello with deadTimerHigh := some handle }
  | .disconnected =>
      (armed.setHello eth
        { hello with
          deadTimerHigh := some handle
          highStatus := .connected
          neighbor := ⟨head.rId, head.ifId⟩ }).helloChangedHandler
        eth .high .connected

/-- `hello_on_low_packet_received` for a low hello packet. -/
def helloOnLowPacketReceived (icm : Icm) (eth : EthId) (head : LsdHead) :
    Except Fault Icm := do
  let hello ← deref (icm.helloMaster eth)
  let stopped := icm.threadOff hello.deadTimerLow
  let handle := stopped.master.threadGet
  let armed := stopped.addTimer .deadTimerLow (.backbone eth)
  match hello.lowStatus with
  | .connected =>
      return armed.setHello eth { hello with deadTimerLow := some handle }
  | .disconnected =>
      (armed.setHello eth
        { hello with
          deadTimerLow := some handle
          lowStatus := .connected
          neighbor := ⟨head.rId, head.ifId⟩ }).helloChangedHandler
        eth .low .connected

/-- `dead_timer_high`. -/
def deadTimerHigh (icm : Icm) (eth : EthId) : Except Fault Icm := do
  let hello ← deref (icm.helloMaster eth)
  assertAt .deadTimerHigh (hello.highStatus = .connected)
  (icm.setHello eth
    { hello with
      deadTimerHigh := none
      highStatus := .disconnected }).helloChangedHandler
    eth .high .disconnected

/-- `dead_timer_low`. -/
def deadTimerLow (icm : Icm) (eth : EthId) : Except Fault Icm := do
  let hello ← deref (icm.helloMaster eth)
  assertAt .deadTimerLow (hello.lowStatus = .connected)
  (icm.setHello eth
    { hello with
      deadTimerLow := none
      lowStatus := .disconnected }).helloChangedHandler
    eth .low .disconnected

end Pma.Icm
