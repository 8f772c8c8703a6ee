import Pma.LsdUtils

namespace Pma.Icm

/-!
# Database exchange

The functions of `lsd/lsd_exchange.c`.  When a neighbour comes up, the daemon
copies the database of the area and sends the copy to the neighbour one link
state at a time, each one acknowledged before the next.
-/

/-- `LINK_LSA_CT_PER_PAK`. -/
def linkLsaCtPerPak : Nat := 1

/-- An exchange master as `exchange_on_eth_state_changed` allocates it. -/
def newExchangeMaster : ExchangeMaster where
  sendState := .terminated
  rcvState := .waiting
  linksState := []
  pkgNo := 0
  sendbuf := none
  ackCtrl := none
  rcvCtrl := none
  retryTimes := 0

/-- `exchange_on_eth_state_changed`. -/
def exchangeOnEthStateChanged (icm : Icm) (eth : EthId) : Icm :=
  match icm.exchangeMaster eth with
  | none => icm.setExchange eth newExchangeMaster
  | some _ => icm

/-- The packet `exchange_send` builds from the head of the snapshot. -/
def exchangeBatch (exchange : ExchangeMaster) : Exchange :=
  let batch := exchange.linksState.take linkLsaCtPerPak
  { type := if batch = [] then .noData else .linksState
    more := exchange.linksState.drop linkLsaCtPerPak ≠ []
    length := UInt16.ofNat batch.length
    seq := exchange.pkgNo
    lsas := batch.map lsdbToLsaInfo }

/-- `exchange_send`. -/
def exchangeSend (icm : Icm) (eth : EthId) : Except Fault Icm := do
  let exchange ← deref (icm.exchangeMaster eth)
  let packet := exchangeBatch exchange
  let handle := icm.master.threadGet
  let armed := icm.addTimer .ackTimeExcceed (.backbone eth)
  let written := armed.setExchange eth
    { exchange with
      linksState := exchange.linksState.drop linkLsaCtPerPak
      sendbuf := some packet
      sendState := .waiting
      ackCtrl := some handle }
  return written.lsdSend eth (.exchange packet)

/-- `exchange_send_start`. -/
def exchangeSendStart (icm : Icm) (eth : EthId) : Except Fault Icm := do
  assertAt .exchangeSendStartMaster (icm.exchangeMaster eth).isSome
  let exchange ← deref (icm.exchangeMaster eth)
  assertAt .exchangeSendStartState (exchange.sendState = .terminated)
  (icm.setExchange eth
    { exchange with
      sendState := .waiting
      linksState := (icm.lsdbOf eth).crLsdbGetLinksState }).exchangeSend eth

/-- `exchange_terminate`. -/
def exchangeTerminate (icm : Icm) (eth : EthId) : Except Fault Icm := do
  assertAt .exchangeTerminateMaster (icm.exchangeMaster eth).isSome
  let exchange ← deref (icm.exchangeMaster eth)
  return ((icm.threadOff exchange.ackCtrl).threadOff
      exchange.rcvCtrl).setExchange eth
    { exchange with
      linksState := []
      ackCtrl := none
      rcvCtrl := none
      retryTimes := 0
      pkgNo := 0
      sendState := .terminated
      rcvState := .terminated }

/-- `ack_time_excceed`. -/
def ackTimeExcceed (icm : Icm) (eth : EthId) : Except Fault Icm := do
  let exchange ← deref (icm.exchangeMaster eth)
  assertAt .ackTimeExcceed (exchange.sendState = .waiting)
  let handle := icm.master.threadGet
  let armed := icm.addTimer .ackTimeExcceed (.backbone eth)
  let written := armed.setExchange eth
    { exchange with ackCtrl := some handle }
  return written.lsdSendBuf eth (exchange.sendbuf.map .exchange)

/-- `exchange_send_ack`. -/
def exchangeSendAck (icm : Icm) (eth : EthId) (exHeader : Exchange) : Icm :=
  icm.lsdSend eth (.exchange
    { type := .ack
      more := false
      length := 0
      seq := exHeader.seq
      lsas := [] })

/-- `link_lsa_received`. -/
def linkLsaReceived (icm : Icm) (eth : EthId) (exHeader : Exchange) :
    Except Fault Icm :=
  icm.acceptRecords eth exHeader.lsas exHeader.length.toNat

/--
`ex_ack_received`.  The daemon registers no handler for the end of an
exchange, so reaching it has no further effect.
-/
def exAckReceived (icm : Icm) (eth : EthId) (exHeader : Exchange) :
    Except Fault Icm := do
  let exchange ← deref (icm.exchangeMaster eth)
  if exHeader.seq = exchange.pkgNo then
    let stopped := icm.threadOff exchange.ackCtrl
    if exchange.linksState ≠ [] then
      (stopped.setExchange eth
        { exchange with
          ackCtrl := none
          retryTimes := 0
          pkgNo := exchange.pkgNo + 1 }).exchangeSend eth
    else
      return stopped.setExchange eth
        { exchange with
          ackCtrl := none
          retryTimes := 0
          sendState := .ended }
  else
    return icm

/-- What `exchange_pkt_received` does to `rcv_state` before it looks at a packet. -/
def rcvWakeUp : ExchangeRcvState → ExchangeRcvState
  | .terminated => .waiting
  | .waiting => .waiting
  | .ended => .ended

/-- `exchange_pkt_received` for a packet of the exchange type. -/
def exchangePktReceived (icm : Icm) (eth : EthId) (exHeader : Exchange) :
    Except Fault Icm := do
  assertAt .exchangePktReceivedMaster (icm.exchangeMaster eth).isSome
  let exchange ← deref (icm.exchangeMaster eth)
  if exHeader.type = .ack then
    if exchange.sendState = .waiting then
      icm.exAckReceived eth exHeader
    else
      return icm
  else
    let rcvState := rcvWakeUp exchange.rcvState
    let awake := icm.setExchange eth { exchange with rcvState := rcvState }
    if rcvState = .waiting ∧ exHeader.type = .linksState then
      let received ← awake.linkLsaReceived eth exHeader
      let answered := received.exchangeSendAck eth exHeader
      let current ← deref (answered.exchangeMaster eth)
      return (answered.threadOff current.rcvCtrl).setExchange eth
        { current with
          rcvCtrl := none
          rcvState := if exHeader.more then current.rcvState else .ended }
    else
      return awake

end Pma.Icm
