import Pma.LsdAdjacency
import Pma.LsdWire

namespace Pma

open Transition

/-!
# Exchange over one link

Two adjacent exchange masters over a socket that loses, duplicates and delays
datagrams.  A packet in flight carries the session it belongs to, which the
daemons do not see: the packets of a sender belong to the session it is in, and
an acknowledgement belongs to the session of the packet it answers.
-/

namespace Icm

/-- The exchange packet of a datagram body. -/
def exchangeOf : Body → Option Exchange
  | .exchange packet => some packet
  | _ => none

/-- Every exchange packet that was ever sent through an interface. -/
def exchangesOn (icm : Icm) (eth : EthId) : List Exchange :=
  (icm.sentOn eth).filterMap exchangeOf

/-- Whether `lsd_send` knows where the neighbour of an interface is. -/
def addressed (icm : Icm) (eth : EthId) : Bool :=
  (icm.router.eth eth).neighborPma.deviceId ≠ 0 ∧
    (icm.router.eth eth).neighborPma.pmaCtlAddr ≠ 0

/--
`after` handed `sent` to the socket, as far as the neighbour is known, and
passed `accepted` to `accept_lsa_into_lsdb`.
-/
structure Exchanges
    (eth : EthId)
    (before after : Icm)
    (sent : List Exchange)
    (accepted : List LinkStateAdv) : Prop where
  links : after.links = before.links
  sent :
    after.exchangesOn eth =
      before.exchangesOn eth ++ if before.addressed eth then sent else []
  accepted : after.acceptedFrom eth = before.acceptedFrom eth ++ accepted

namespace Exchanges

variable {eth : EthId} {before after : Icm}

/-- A step that records nothing. -/
theorem silent
    (links : after.links = before.links)
    (trace : after.trace = before.trace) :
    Exchanges eth before after [] [] where
  links := links
  sent := by
    unfold exchangesOn sentOn
    rw [trace]
    simp
  accepted := by
    unfold acceptedFrom
    rw [trace]
    simp

/-- A step that sends one buffer. -/
theorem send
    (buffer : Option Exchange)
    (links : after.links = before.links)
    (trace :
      after.trace =
        before.trace ++ before.sentCalls eth (buffer.map .exchange)) :
    Exchanges eth before after buffer.toList [] where
  links := links
  sent := by
    unfold exchangesOn sentOn
    rw [trace, List.filterMap_append, List.filterMap_append]
    congr 1
    unfold sentCalls addressed
    dsimp only
    by_cases known :
        (before.router.eth eth).neighborPma.deviceId = 0 ∨
          (before.router.eth eth).neighborPma.pmaCtlAddr = 0
    · rw [if_pos known, if_neg (by simpa [← or_iff_not_imp_left] using known)]
      rfl
    · rw [if_neg known, if_pos (by simpa [not_or] using known)]
      cases buffer <;> simp [sentBy, datagramOf, exchangeOf]
  accepted := by
    unfold acceptedFrom
    rw [trace, List.filterMap_append,
      filterMap_sentCalls (acceptedBy eth) fun _ _ => rfl]

/-- A step after one that only received, from a state with the same trace. -/
theorem afterReceived
    {awake middle : Icm}
    {lsas accepted : List LinkStateAdv}
    {sent : List Exchange}
    (received : Received awake middle eth lsas)
    (exchanges : Exchanges eth middle after sent accepted)
    (links : awake.links = before.links)
    (trace : awake.trace = before.trace) :
    Exchanges eth before after sent (lsas ++ accepted) where
  links := exchanges.links.trans (received.links.trans links)
  sent := by
    have sameRouter : middle.router = before.router :=
      received.router.trans (congrArg Prod.fst links)
    rw [exchanges.sent]
    unfold exchangesOn addressed
    rw [received.sent, sameRouter]
    unfold sentOn
    rw [trace]
  accepted := by
    rw [exchanges.accepted, received.accepted, List.append_assoc]
    unfold acceptedFrom
    rw [trace]

end Exchanges

/-- The acknowledgement of an exchange packet. -/
def exchangeAck (exHeader : Exchange) : Exchange where
  type := .ack
  more := false
  length := 0
  seq := exHeader.seq
  lsas := []

/-- The exchange master as `exchange_send_start` hands it to `exchange_send`. -/
def exchangeOpened (icm : Icm) (eth : EthId) (exchange : ExchangeMaster) :
    ExchangeMaster :=
  { exchange with
    sendState := .waiting
    linksState := (icm.lsdbOf eth).crLsdbGetLinksState }

/-- The exchange master as `ex_ack_received` hands it to `exchange_send`. -/
def exchangeNext (exchange : ExchangeMaster) : ExchangeMaster :=
  { exchange with
    ackCtrl := none
    retryTimes := 0
    pkgNo := exchange.pkgNo + 1 }

/-- `exchange_send` never builds an acknowledgement. -/
theorem exchangeBatch_ne_ack
    (exchange : ExchangeMaster) :
    (exchangeBatch exchange).type ≠ .ack := by
  unfold exchangeBatch
  dsimp only
  split <;> simp

section Specs

variable {icm after : Icm} {eth : EthId}

/-- `exchange_send_start` copies the database and sends its first link state. -/
theorem exchangeSendStart_spec
    (returned : icm.exchangeSendStart eth = .ok after) :
    ∃ exchange handle,
      icm.exchangeMaster eth = some exchange ∧
        exchange.sendState = .terminated ∧
        after.exchangeMaster eth =
          some (exchangeSent (icm.exchangeOpened eth exchange) handle) ∧
        Exchanges eth icm after
          [exchangeBatch (icm.exchangeOpened eth exchange)] [] := by
  unfold exchangeSendStart at returned
  obtain ⟨-, -, started⟩ := bind_eq_ok.mp returned
  obtain ⟨exchange, allocated, checked⟩ := bind_eq_ok.mp started
  have found := deref_eq_ok.mp allocated
  obtain ⟨_, idle, sends⟩ := bind_eq_ok.mp checked
  have terminated : exchange.sendState = .terminated := by
    simpa using assertAt_eq_ok.mp idle
  change (icm.withExchange eth (icm.exchangeOpened eth exchange) icm.master
    icm.trace).exchangeSend eth = .ok after at sends
  rw [exchangeSend_eq] at sends
  cases sends
  refine ⟨exchange, _, found, terminated, Function.update_self .., ?_⟩
  exact Exchanges.send (some _) rfl rfl

/-- `exchange_terminate` forgets the session, also its packet number. -/
theorem exchangeTerminate_spec
    (returned : icm.exchangeTerminate eth = .ok after) :
    ∃ exchange,
      icm.exchangeMaster eth = some exchange ∧
        after.exchangeMaster eth =
          some
            { exchange with
              linksState := []
              ackCtrl := none
              rcvCtrl := none
              retryTimes := 0
              pkgNo := 0
              sendState := .terminated
              rcvState := .terminated } ∧
        Exchanges eth icm after [] [] := by
  unfold exchangeTerminate at returned
  obtain ⟨-, -, rest⟩ := bind_eq_ok.mp returned
  obtain ⟨exchange, allocated, finished⟩ := bind_eq_ok.mp rest
  have found := deref_eq_ok.mp allocated
  cases finished
  exact ⟨exchange, found, Function.update_self .., Exchanges.silent rfl rfl⟩

/-- `ack_time_excceed` sends the packet again. -/
theorem ackTimeExcceed_spec
    {id : ThreadId}
    (returned : (icm.fetch id).ackTimeExcceed eth = .ok after) :
    ∃ exchange handle,
      icm.exchangeMaster eth = some exchange ∧
        exchange.sendState = .waiting ∧
        after.exchangeMaster eth =
          some { exchange with ackCtrl := some handle } ∧
        Exchanges eth icm after exchange.sendbuf.toList [] := by
  unfold ackTimeExcceed at returned
  obtain ⟨exchange, allocated, rest⟩ := bind_eq_ok.mp returned
  have found := deref_eq_ok.mp allocated
  obtain ⟨_, checked, finished⟩ := bind_eq_ok.mp rest
  have waiting : exchange.sendState = .waiting := by
    simpa using assertAt_eq_ok.mp checked
  cases finished
  rw [lsdSendBuf_eq]
  exact ⟨exchange, _, found, waiting, Function.update_self ..,
    Exchanges.send _ rfl rfl⟩

/-- An acknowledgement that is not waited for changes nothing. -/
theorem exchangePktReceived_ack_ignored
    {exchange : ExchangeMaster}
    {packet : Exchange}
    (found : icm.exchangeMaster eth = some exchange)
    (isAck : packet.type = .ack)
    (ignored :
      ¬ (exchange.sendState = .waiting ∧ packet.seq = exchange.pkgNo)) :
    icm.exchangePktReceived eth packet = .ok icm := by
  unfold exchangePktReceived exAckReceived
  simp only [found, Option.isSome_some, assertAt, if_true, deref, bind,
    Except.bind, isAck, pure, Except.pure]
  split
  · next waiting =>
      rw [if_neg fun current => ignored ⟨waiting, current⟩]
  · rfl

/-- The acknowledgement of a packet that has a successor. -/
theorem exchangePktReceived_ack_next
    {exchange : ExchangeMaster}
    {packet : Exchange}
    (found : icm.exchangeMaster eth = some exchange)
    (isAck : packet.type = .ack)
    (waiting : exchange.sendState = .waiting)
    (current : packet.seq = exchange.pkgNo)
    (more : exchange.linksState ≠ []) :
    ∃ after handle,
      icm.exchangePktReceived eth packet = .ok after ∧
        after.exchangeMaster eth =
          some (exchangeSent (exchangeNext exchange) handle) ∧
        Exchanges eth icm after [exchangeBatch (exchangeNext exchange)] [] := by
  have sends :
      icm.exchangePktReceived eth packet =
        (icm.withExchange eth (exchangeNext exchange)
          (icm.master.threadOff exchange.ackCtrl) icm.trace).exchangeSend eth := by
    unfold exchangePktReceived exAckReceived
    simp only [found, Option.isSome_some, assertAt, if_true, deref, bind,
      Except.bind, isAck]
    rw [if_pos waiting, if_pos current, if_pos more]
    rfl
  rw [sends, exchangeSend_eq]
  refine ⟨_, _, rfl, Function.update_self .., ?_⟩
  exact Exchanges.send (some _) rfl rfl

/-- The acknowledgement of the last packet ends the session. -/
theorem exchangePktReceived_ack_last
    {exchange : ExchangeMaster}
    {packet : Exchange}
    (found : icm.exchangeMaster eth = some exchange)
    (isAck : packet.type = .ack)
    (waiting : exchange.sendState = .waiting)
    (current : packet.seq = exchange.pkgNo)
    (last : exchange.linksState = []) :
    ∃ after,
      icm.exchangePktReceived eth packet = .ok after ∧
        after.exchangeMaster eth =
          some
            { exchange with
              ackCtrl := none
              retryTimes := 0
              sendState := .ended } ∧
        Exchanges eth icm after [] [] := by
  unfold exchangePktReceived exAckReceived
  simp only [found, Option.isSome_some, assertAt, if_true, deref, bind,
    Except.bind, isAck]
  rw [if_pos waiting, if_pos current, if_neg (not_not.mpr last)]
  exact ⟨_, rfl, Function.update_self .., Exchanges.silent rfl rfl⟩

/-- A packet a receiver does not take only wakes it up. -/
theorem exchangePktReceived_data_ignored
    {exchange : ExchangeMaster}
    {packet : Exchange}
    (found : icm.exchangeMaster eth = some exchange)
    (notAck : packet.type ≠ .ack)
    (deaf :
      ¬ (rcvWakeUp exchange.rcvState = .waiting ∧ packet.type = .linksState)) :
    ∃ after,
      icm.exchangePktReceived eth packet = .ok after ∧
        after.exchangeMaster eth =
          some { exchange with rcvState := rcvWakeUp exchange.rcvState } ∧
        Exchanges eth icm after [] [] := by
  unfold exchangePktReceived
  simp only [found, Option.isSome_some, assertAt, if_true, deref, bind,
    Except.bind]
  rw [if_neg notAck, if_neg deaf]
  exact ⟨_, rfl, Function.update_self .., Exchanges.silent rfl rfl⟩

/-- A link state is accepted and acknowledged by a receiver that still waits. -/
theorem exchangePktReceived_link_spec
    {exchange : ExchangeMaster}
    {packet : Exchange}
    (found : icm.exchangeMaster eth = some exchange)
    (isLink : packet.type = .linksState)
    (listening : rcvWakeUp exchange.rcvState = .waiting)
    (returned : icm.exchangePktReceived eth packet = .ok after) :
    after.exchangeMaster eth =
        some
          { exchange with
            rcvCtrl := none
            rcvState := if packet.more then .waiting else .ended } ∧
      Exchanges eth icm after [exchangeAck packet]
        ((List.range packet.length.toNat).map
          fun index => packet.lsas.getD index zeroAdv) := by
  unfold exchangePktReceived at returned
  simp only [found, Option.isSome_some, assertAt, if_true, deref, bind,
    Except.bind] at returned
  rw [if_neg (by simp [isLink]), if_pos ⟨listening, isLink⟩] at returned
  obtain ⟨received, accepted, answered⟩ := bind_eq_ok.mp returned
  have effect := Received.acceptRecords accepted
  have current :
      received.exchangeMaster eth =
        some { exchange with rcvState := rcvWakeUp exchange.rcvState } := by
    rw [effect.exchange]
    exact Function.update_self ..
  unfold exchangeSendAck at answered
  rw [lsdSend_eq] at answered
  simp only [current] at answered
  cases answered
  refine ⟨?_, ?_⟩
  · rw [listening]
    exact Function.update_self ..
  · rw [← List.append_nil (List.map _ _)]
    refine Exchanges.afterReceived effect ?_ rfl rfl
    exact Exchanges.send (some (exchangeAck packet)) rfl rfl

/-- What `exchange_pkt_received` does with a packet. -/
inductive Reception
    (eth : EthId)
    (icm : Icm)
    (packet : Exchange)
    (exchange : ExchangeMaster)
    (after : Icm) : Prop where
  /-- An acknowledgement that is not waited for. -/
  | ackIgnored
      (isAck : packet.type = .ack)
      (ignored :
        ¬ (exchange.sendState = .waiting ∧ packet.seq = exchange.pkgNo))
      (same : after = icm)
  /-- The acknowledgement of a packet that has a successor. -/
  | ackNext
      (isAck : packet.type = .ack)
      (waiting : exchange.sendState = .waiting)
      (current : packet.seq = exchange.pkgNo)
      (more : exchange.linksState ≠ [])
      (handle : ThreadId)
      (written :
        after.exchangeMaster eth =
          some (exchangeSent (exchangeNext exchange) handle))
      (exchanges :
        Exchanges eth icm after [exchangeBatch (exchangeNext exchange)] [])
  /-- The acknowledgement of the last packet. -/
  | ackLast
      (isAck : packet.type = .ack)
      (waiting : exchange.sendState = .waiting)
      (current : packet.seq = exchange.pkgNo)
      (last : exchange.linksState = [])
      (written :
        after.exchangeMaster eth =
          some
            { exchange with
              ackCtrl := none
              retryTimes := 0
              sendState := .ended })
      (exchanges : Exchanges eth icm after [] [])
  /-- A link state that is accepted and acknowledged. -/
  | linkAccepted
      (isLink : packet.type = .linksState)
      (listening : rcvWakeUp exchange.rcvState = .waiting)
      (written :
        after.exchangeMaster eth =
          some
            { exchange with
              rcvCtrl := none
              rcvState := if packet.more then .waiting else .ended })
      (exchanges :
        Exchanges eth icm after [exchangeAck packet]
          ((List.range packet.length.toNat).map
            fun index => packet.lsas.getD index zeroAdv))
  /-- Any other packet. -/
  | dataIgnored
      (notAck : packet.type ≠ .ack)
      (deaf :
        ¬ (rcvWakeUp exchange.rcvState = .waiting ∧
          packet.type = .linksState))
      (written :
        after.exchangeMaster eth =
          some { exchange with rcvState := rcvWakeUp exchange.rcvState })
      (exchanges : Exchanges eth icm after [] [])

/-- Every returned call of `exchange_pkt_received` is one of the five cases. -/
theorem reception
    {packet : Exchange}
    (returned : icm.exchangePktReceived eth packet = .ok after) :
    ∃ exchange,
      icm.exchangeMaster eth = some exchange ∧
        Reception eth icm packet exchange after := by
  have allocated : ∃ exchange, icm.exchangeMaster eth = some exchange := by
    unfold exchangePktReceived at returned
    obtain ⟨_, _, rest⟩ := bind_eq_ok.mp returned
    obtain ⟨exchange, isSome, _⟩ := bind_eq_ok.mp rest
    exact ⟨exchange, deref_eq_ok.mp isSome⟩
  obtain ⟨exchange, found⟩ := allocated
  refine ⟨exchange, found, ?_⟩
  by_cases isAck : packet.type = .ack
  · by_cases taken : exchange.sendState = .waiting ∧ packet.seq = exchange.pkgNo
    · by_cases last : exchange.linksState = []
      · obtain ⟨result, result_eq, written, exchanges⟩ :=
          exchangePktReceived_ack_last found isAck taken.1 taken.2 last
        cases returned.symm.trans result_eq
        exact .ackLast isAck taken.1 taken.2 last written exchanges
      · obtain ⟨result, handle, result_eq, written, exchanges⟩ :=
          exchangePktReceived_ack_next found isAck taken.1 taken.2 last
        cases returned.symm.trans result_eq
        exact .ackNext isAck taken.1 taken.2 last handle written exchanges
    · have result_eq := exchangePktReceived_ack_ignored found isAck taken
      cases returned.symm.trans result_eq
      exact .ackIgnored isAck taken rfl
  · by_cases taken :
        rcvWakeUp exchange.rcvState = .waiting ∧ packet.type = .linksState
    · obtain ⟨written, exchanges⟩ :=
        exchangePktReceived_link_spec found taken.2 taken.1 returned
      exact .linkAccepted taken.2 taken.1 written exchanges
    · obtain ⟨result, result_eq, written, exchanges⟩ :=
        exchangePktReceived_data_ignored found isAck taken
      cases returned.symm.trans result_eq
      exact .dataIgnored isAck taken written exchanges

end Specs

end Icm

/--
Two adjacent exchange masters.  `wire side` is what `side` sent and is still in
flight, with the session it belongs to; `session` counts the sessions a side
opened, `snapshot` is the copy of the database its session started with, and
`mark` is how much its neighbour had accepted by then.
-/
structure ExchangePair where
  daemon : Side → Icm
  wire : Side → List (Nat × Exchange)
  session : Side → Nat
  snapshot : Side → List CrLsdbLinkState
  mark : Side → Nat

namespace ExchangePair

open Icm

/-- What can happen on the link. -/
inductive Op where
  /-- `exchange_send_start`. -/
  | start (side : Side)
  /-- `exchange_terminate`. -/
  | terminate (side : Side)
  /-- The timer of `ack_time_excceed` fires. -/
  | timeout (side : Side) (id : ThreadId)
  /-- A side receives a packet of its neighbour. -/
  | deliver (side : Side) (message : Nat × Exchange)
  /-- A packet of a side is lost. -/
  | lose (side : Side) (message : Nat × Exchange)
  /-- A packet of a side is duplicated. -/
  | duplicate (side : Side) (message : Nat × Exchange)
  /-- A side does something that is no exchange. -/
  | background (side : Side) (icm : Icm)

/-- A step of a daemon that leaves the exchange over an interface alone. -/
structure Background (eth : EthId) (before after : Icm) : Prop where
  exchange : after.exchangeMaster eth = before.exchangeMaster eth
  sent : after.exchangesOn eth = before.exchangesOn eth
  accepted :
    ∃ more, after.acceptedFrom eth = before.acceptedFrom eth ++ more
  addressed : after.addressed eth = before.addressed eth
  sessions : before.SessionInv → after.SessionInv

section Model

variable (eth : Side → EthId)

/-- A side moved on; what it sent is in flight, under the session it belongs to. -/
def moved
    (pair : ExchangePair)
    (side : Side)
    (icm : Icm)
    (session : Exchange → Nat) :
    ExchangePair :=
  { pair with
    daemon := Function.update pair.daemon side icm
    wire :=
      Function.update pair.wire side
        (pair.wire side ++
          ((icm.exchangesOn (eth side)).drop
            ((pair.daemon side).exchangesOn (eth side)).length).map
              fun packet => (session packet, packet)) }

/-- A side opens a session. -/
def opened (pair : ExchangePair) (side : Side) : ExchangePair :=
  { pair with
    session := Function.update pair.session side (pair.session side + 1)
    snapshot :=
      Function.update pair.snapshot side
        ((pair.daemon side).lsdbOf (eth side)).crLsdbGetLinksState
    mark :=
      Function.update pair.mark side
        ((pair.daemon side.other).acceptedFrom (eth side.other)).length }

/-- A packet of a side left the wire. -/
def taken (pair : ExchangePair) (side : Side) (message : Nat × Exchange) :
    ExchangePair :=
  { pair with
    wire := Function.update pair.wire side ((pair.wire side).erase message) }

/--
The steps of two exchange masters on a link.  A session is only opened for a
database with an entry: `hello_changed_handler` stores the link itself before it
calls `exchange_send_start`.
-/
def Step (before : ExchangePair) : Op → ExchangePair → Prop
  | .start side, after =>
      ((before.daemon side).lsdbOf (eth side)).crLsdbGetLinksState ≠ [] ∧
        ∃ icm,
          (before.daemon side).exchangeSendStart (eth side) = .ok icm ∧
            after =
              (before.opened eth side).moved eth side icm
                fun _ => before.session side + 1
  | .terminate side, after =>
      ∃ icm,
        (before.daemon side).exchangeTerminate (eth side) = .ok icm ∧
          after = before.moved eth side icm fun _ => before.session side
  | .timeout side id, after =>
      id ∈ (before.daemon side).master.pendingOf .ackTimeExcceed
          (.backbone (eth side)) ∧
        ∃ icm,
          ((before.daemon side).fetch id).ackTimeExcceed (eth side) = .ok icm ∧
            after = before.moved eth side icm fun _ => before.session side
  | .deliver side message, after =>
      message ∈ before.wire side.other ∧
        ∃ icm,
          (before.daemon side).exchangePktReceived (eth side) message.2 =
              .ok icm ∧
            after =
              (before.taken side.other message).moved eth side icm fun packet =>
                if packet.type = .ack then message.1 else before.session side
  | .lose side message, after =>
      message ∈ before.wire side ∧ after = before.taken side message
  | .duplicate side message, after =>
      message ∈ before.wire side ∧
        after =
          { before with
            wire :=
              Function.update before.wire side
                (before.wire side ++ [message]) }
  | .background side icm, after =>
      Background (eth side) (before.daemon side) icm ∧
        after =
          { before with daemon := Function.update before.daemon side icm }

/-- Two exchange masters that were just allocated. -/
structure Fresh (pair : ExchangePair) : Prop where
  allocated :
    ∀ side,
      (pair.daemon side).exchangeMaster (eth side) = some newExchangeMaster
  wire : ∀ side, pair.wire side = []
  snapshot : ∀ side, pair.snapshot side = []
  mark : ∀ side, pair.mark side = 0

end Model

section Moved

variable {eth : Side → EthId}
  {pair : ExchangePair}
  {side : Side}
  {icm : Icm}

/-- The exchange master of a side. -/
def view (eth : Side → EthId) (pair : ExchangePair) (side : Side) :
    ExchangeMaster :=
  (pair.daemon side).exchangeView (eth side)

@[simp] theorem moved_daemon_self
    (session : Exchange → Nat) :
    (pair.moved eth side icm session).daemon side = icm :=
  Function.update_self ..

theorem moved_daemon_of_ne
    {query : Side}
    (different : query ≠ side)
    (session : Exchange → Nat) :
    (pair.moved eth side icm session).daemon query = pair.daemon query :=
  Function.update_of_ne different _ _

@[simp] theorem moved_daemon_other
    (session : Exchange → Nat) :
    (pair.moved eth side icm session).daemon side.other =
      pair.daemon side.other :=
  moved_daemon_of_ne side.other_ne session

@[simp] theorem moved_wire_other
    (session : Exchange → Nat) :
    (pair.moved eth side icm session).wire side.other = pair.wire side.other :=
  Function.update_of_ne side.other_ne _ _

/-- What a side sent is in flight. -/
theorem moved_wire_self
    {sent : List Exchange}
    {accepted : List LinkStateAdv}
    (exchanges : Exchanges (eth side) (pair.daemon side) icm sent accepted)
    (session : Exchange → Nat) :
    (pair.moved eth side icm session).wire side =
      pair.wire side ++
        (if (pair.daemon side).addressed (eth side) then sent else []).map
          fun packet => (session packet, packet) := by
  unfold moved
  dsimp only
  rw [Function.update_self, exchanges.sent, List.drop_left]

/-- A packet in flight after a move was so before, or was just sent. -/
theorem mem_moved_wire
    {query : Side}
    {message : Nat × Exchange}
    {sent : List Exchange}
    {accepted : List LinkStateAdv}
    {session : Exchange → Nat}
    (exchanges : Exchanges (eth side) (pair.daemon side) icm sent accepted)
    (flies : message ∈ (pair.moved eth side icm session).wire query) :
    message ∈ pair.wire query ∨
      query = side ∧ ∃ packet ∈ sent, message = (session packet, packet) := by
  by_cases same : query = side
  · subst same
    rw [moved_wire_self exchanges, List.mem_append] at flies
    refine flies.imp_right fun isNew => ⟨rfl, ?_⟩
    obtain ⟨packet, member, rfl⟩ := List.mem_map.mp isNew
    split at member
    · exact ⟨packet, member, rfl⟩
    · cases member
  · left
    unfold moved at flies
    dsimp only at flies
    rwa [Function.update_of_ne same] at flies

/-- A packet that left the wire was on it. -/
theorem mem_taken_wire
    {query : Side}
    {message other : Nat × Exchange}
    (flies : other ∈ (pair.taken side message).wire query) :
    other ∈ pair.wire query := by
  unfold taken at flies
  dsimp only at flies
  by_cases same : query = side
  · subst same
    rw [Function.update_self] at flies
    exact List.mem_of_mem_erase flies
  · rwa [Function.update_of_ne same] at flies

end Moved

/-! ## A small pair -/

/-- The link state of a third router. -/
def thirdAdv : LinkStateAdv :=
  { zeroAdv with key := ⟨3, 7, 4, 7⟩, seq := 1 }

/-- Two daemons on a link; the left one knows the link state of a third router. -/
def quietPair : ExchangePair where
  daemon
    | .left =>
        ((idleDaemon 1 1 2).acceptLsaIntoLsdb 0 thirdAdv).toOption.getD
          (idleDaemon 1 1 2)
    | .right => idleDaemon 2 2 1
  wire := fun _ => []
  session := fun _ => 0
  snapshot := fun _ => []
  mark := fun _ => 0

theorem quietPair_fresh :
    quietPair.Fresh fun _ => 0 where
  allocated := by
    intro side
    cases side <;> rfl
  wire := fun _ => rfl
  snapshot := fun _ => rfl
  mark := fun _ => rfl

/-- The only packet of a session of the left daemon. -/
def thirdPacket : Exchange where
  type := .linksState
  more := false
  length := 1
  seq := 0
  lsas := [thirdAdv]

end ExchangePair

end Pma
