import Mathlib.Data.List.Perm.Subperm
import Pma.LsdExchangeLink

namespace Pma

open Transition

/-!
# Whether a session can still end

A waiting sender repeats its packet until it is acknowledged.  A receiver that
took the last packet of a session is in `EXCHANGE_STATE_RCV_END` and ignores
every packet after that, so a sender whose last acknowledgement was lost, or
whose session is not the one its neighbour finished, is never answered again.
What is left to it are the acknowledgements that are in flight already.
-/

namespace Icm

/-- A packet is the one a waiting sender repeats. -/
structure Announces (exchange : ExchangeMaster) (packet : Exchange) : Prop where
  type : packet.type = .linksState
  seq : packet.seq = exchange.pkgNo
  more : packet.more = decide (exchange.linksState ≠ [])
  record :
    ∃ lsa,
      packet.lsas = [lsa] ∧ packet.length.toNat = 1 ∧ lsa.key.rtId ≠ 0

/-- What holds of a daemon that exchanges databases over an interface. -/
structure Ready (eth : EthId) (icm : Icm) : Prop where
  sessions : icm.SessionInv
  addressed : icm.addressed eth = true
  allocated : (icm.exchangeMaster eth).isSome
  links :
    ∀ link ∈ (icm.exchangeView eth).linksState, link.key.rtId ≠ 0
  buffer :
    (icm.exchangeView eth).sendState = .waiting →
      ∃ packet,
        (icm.exchangeView eth).sendbuf = some packet ∧
          Announces (icm.exchangeView eth) packet

section Daemon

variable {eth : EthId} {icm after : Icm}

/-- Only the number and what is left to send decide which packet is repeated. -/
theorem Announces.congr
    {before after : ExchangeMaster}
    {packet : Exchange}
    (announces : Announces before packet)
    (pkgNo : after.pkgNo = before.pkgNo)
    (linksState : after.linksState = before.linksState) :
    Announces after packet where
  type := announces.type
  seq := announces.seq.trans pkgNo.symm
  more := by
    rw [linksState]
    exact announces.more
  record := announces.record

/-- `exchange_send` fills the buffer with a packet that can be acknowledged. -/
theorem announces_exchangeBatch
    (exchange : ExchangeMaster)
    (filled : exchange.linksState ≠ [])
    (links : ∀ link ∈ exchange.linksState, link.key.rtId ≠ 0)
    (handle : ThreadId) :
    Announces (exchangeSent exchange handle) (exchangeBatch exchange) := by
  obtain ⟨link, rest, isLinks⟩ := List.exists_cons_of_ne_nil filled
  have head : exchange.linksState.take linkLsaCtPerPak = [link] := by
    rw [isLinks]
    rfl
  refine
    { type := ?_
      seq := rfl
      more := rfl
      record := ⟨lsdbToLsaInfo link, ?_, ?_, ?_⟩ }
  · unfold exchangeBatch
    dsimp only
    rw [head]
    rfl
  · unfold exchangeBatch
    dsimp only
    rw [head]
    rfl
  · unfold exchangeBatch
    dsimp only
    rw [head]
    rfl
  · exact links link (by simp [isLinks])

/-- Sending leaves fewer link states to send. -/
theorem exchangeSent_links
    {exchange : ExchangeMaster}
    (links : ∀ link ∈ exchange.linksState, link.key.rtId ≠ 0)
    (handle : ThreadId) :
    ∀ link ∈ (exchangeSent exchange handle).linksState,
      link.key.rtId ≠ 0 :=
  fun link member => links link (List.mem_of_mem_drop member)

namespace Ready

/-- A step that writes the exchange master. -/
theorem written
    {exchange : ExchangeMaster}
    {sent : List Exchange}
    {accepted : List LinkStateAdv}
    (ready : icm.Ready eth)
    (exchanges : Exchanges eth icm after sent accepted)
    (sessions : after.SessionInv)
    (found : after.exchangeMaster eth = some exchange)
    (links : ∀ link ∈ exchange.linksState, link.key.rtId ≠ 0)
    (buffer :
      exchange.sendState = .waiting →
        ∃ packet,
          exchange.sendbuf = some packet ∧ Announces exchange packet) :
    after.Ready eth := by
  have sameRouter : after.router = icm.router :=
    congrArg Prod.fst exchanges.links
  refine
    { sessions := sessions
      addressed := ?_
      allocated := ?_
      links := ?_
      buffer := ?_ }
  · unfold Icm.addressed
    rw [sameRouter]
    exact ready.addressed
  · rw [found]
    rfl
  · rw [exchangeView_of_some found]
    exact links
  · rw [exchangeView_of_some found]
    exact buffer

/-- `exchange_send_start` of a database that is not empty. -/
theorem start
    (ready : icm.Ready eth)
    (filled : (icm.lsdbOf eth).crLsdbGetLinksState ≠ [])
    (returned : icm.exchangeSendStart eth = .ok after) :
    after.Ready eth := by
  obtain ⟨exchange, handle, found, terminated, written, exchanges⟩ :=
    exchangeSendStart_spec returned
  have isView := exchangeView_of_some found
  have sessions :=
    ((yields_exchangeSendStart ready.sessions ready.allocated
      (isView ▸ terminated)).of_ok returned).2.1
  have links :
      ∀ link ∈ (icm.exchangeOpened eth exchange).linksState,
        link.key.rtId ≠ 0 :=
    fun link member =>
      Lsdb.rtId_ne_zero_of_find (Lsdb.mem_crLsdbGetLinksState.mp member)
  refine ready.written exchanges sessions written
    (exchangeSent_links links handle) fun _ => ?_
  exact ⟨_, rfl, announces_exchangeBatch _ filled links handle⟩

/-- `exchange_terminate`. -/
theorem terminate
    (ready : icm.Ready eth)
    (returned : icm.exchangeTerminate eth = .ok after) :
    after.Ready eth := by
  obtain ⟨exchange, -, written, exchanges⟩ := exchangeTerminate_spec returned
  have sessions :=
    ((yields_exchangeTerminate ready.sessions eth).of_ok returned).2.1
  refine ready.written exchanges sessions written (by simp) ?_
  intro waiting
  cases waiting

/-- `ack_time_excceed`. -/
theorem timeout
    {id : ThreadId}
    (ready : icm.Ready eth)
    (isPending : id ∈ icm.master.pendingOf .ackTimeExcceed (.backbone eth))
    (returned : (icm.fetch id).ackTimeExcceed eth = .ok after) :
    after.Ready eth := by
  obtain ⟨exchange, handle, found, waiting, written, exchanges⟩ :=
    ackTimeExcceed_spec returned
  have sessions :=
    ((yields_ackTimeExcceed ready.sessions isPending).of_ok returned).2.1
  have links := ready.links
  have buffer := ready.buffer
  rw [exchangeView_of_some found] at links buffer
  refine ready.written exchanges sessions written links fun _ => ?_
  obtain ⟨packet, isBuffer, announces⟩ := buffer waiting
  exact ⟨packet, isBuffer, announces.congr rfl rfl⟩

/-- `exchange_pkt_received`. -/
theorem receive
    {packet : Exchange}
    (ready : icm.Ready eth)
    (returned : icm.exchangePktReceived eth packet = .ok after) :
    after.Ready eth := by
  obtain ⟨exchange, found, received⟩ := reception returned
  have sessions :=
    ((yields_exchangePktReceived ready.sessions eth packet).of_ok
      returned).2.1
  have links := ready.links
  have buffer := ready.buffer
  rw [exchangeView_of_some found] at links buffer
  cases received with
  | ackIgnored isAck ignored same =>
      subst same
      exact ready
  | ackNext isAck waiting current more handle written exchanges =>
      refine ready.written exchanges sessions written
        (exchangeSent_links links handle) fun _ => ?_
      exact ⟨_, rfl,
        announces_exchangeBatch (exchangeNext exchange) more links handle⟩
  | ackLast isAck waiting current last written exchanges =>
      refine ready.written exchanges sessions written links ?_
      intro waiting
      cases waiting
  | linkAccepted isLink listening written exchanges =>
      refine ready.written exchanges sessions written links fun waiting => ?_
      obtain ⟨packet, isBuffer, announces⟩ := buffer waiting
      exact ⟨packet, isBuffer, announces.congr rfl rfl⟩
  | dataIgnored notAck deaf written exchanges =>
      refine ready.written exchanges sessions written links fun waiting => ?_
      obtain ⟨packet, isBuffer, announces⟩ := buffer waiting
      exact ⟨packet, isBuffer, announces.congr rfl rfl⟩

/-- A step that is no exchange. -/
theorem background
    (ready : icm.Ready eth)
    (background : ExchangePair.Background eth icm after) :
    after.Ready eth := by
  have sameView : after.exchangeView eth = icm.exchangeView eth := by
    unfold exchangeView
    rw [background.exchange]
  refine
    { sessions := background.sessions ready.sessions
      addressed := background.addressed.trans ready.addressed
      allocated := ?_
      links := ?_
      buffer := ?_ }
  · rw [background.exchange]
    exact ready.allocated
  · rw [sameView]
    exact ready.links
  · rw [sameView]
    exact ready.buffer

end Ready

/-- The timer of a waiting sender is pending, and sends its packet again. -/
theorem retransmits
    {exchange : ExchangeMaster}
    (ready : icm.Ready eth)
    (found : icm.exchangeMaster eth = some exchange)
    (waiting : exchange.sendState = .waiting) :
    ∃ id handle packet after,
      id ∈ icm.master.pendingOf .ackTimeExcceed (.backbone eth) ∧
        (icm.fetch id).ackTimeExcceed eth = .ok after ∧
        Announces exchange packet ∧
        after.exchangeMaster eth =
          some { exchange with ackCtrl := some handle } ∧
        Exchanges eth icm after [packet] [] := by
  have sound := ready.sessions.exchange eth
  have buffer := ready.buffer
  rw [exchangeView_of_some found] at sound buffer
  obtain ⟨packet, isBuffer, announces⟩ := buffer waiting
  obtain ⟨id, armed⟩ := Option.isSome_iff_exists.mp (sound.ackPending.mpr waiting)
  have isPending :
      id ∈ icm.master.pendingOf .ackTimeExcceed (.backbone eth) := by
    rw [sound.ackTracks, armed]
    exact List.mem_singleton.mpr rfl
  have returns : ∃ after, (icm.fetch id).ackTimeExcceed eth = .ok after := by
    have stillThere : (icm.fetch id).exchangeMaster eth = some exchange := found
    unfold ackTimeExcceed
    simp [stillThere, deref, assertAt, waiting, bind, Except.bind, pure,
      Except.pure]
  obtain ⟨after, returned⟩ := returns
  obtain ⟨same, handle, isSame, -, written, exchanges⟩ :=
    ackTimeExcceed_spec returned
  cases found.symm.trans isSame
  rw [isBuffer] at exchanges
  exact ⟨id, handle, packet, after, isPending, returned, announces, written,
    exchanges⟩

/-- The record of an announced packet is accepted. -/
theorem Announces.received
    {sender : ExchangeMaster}
    {packet : Exchange}
    (announces : Announces sender packet)
    (icm : Icm)
    (eth : EthId) :
    ∃ after, icm.linkLsaReceived eth packet = .ok after := by
  obtain ⟨lsa, records, single, startNonzero⟩ := announces.record
  obtain ⟨after, accepted⟩ := acceptLsaIntoLsdb_returns startNonzero icm eth
  refine ⟨after, ?_⟩
  unfold linkLsaReceived acceptRecords
  rw [single, records]
  change icm.acceptLsaIntoLsdb eth lsa >>= pure = _
  rw [accepted]
  rfl

/-- A receiver that has not ended answers the packet of a waiting sender. -/
theorem answers
    {sender exchange : ExchangeMaster}
    {packet : Exchange}
    (announces : Announces sender packet)
    (found : icm.exchangeMaster eth = some exchange)
    (listening : exchange.rcvState ≠ .ended) :
    ∃ after,
      icm.exchangePktReceived eth packet = .ok after ∧
        (after.exchangeView eth).rcvState =
          (if packet.more then .waiting else .ended) ∧
        ∃ accepted, Exchanges eth icm after [exchangeAck packet] accepted := by
  have awake : rcvWakeUp exchange.rcvState = .waiting := by
    cases state : exchange.rcvState with
    | terminated => rfl
    | waiting => rfl
    | ended => exact absurd state listening
  have returns : ∃ after, icm.exchangePktReceived eth packet = .ok after := by
    obtain ⟨received, accepted⟩ :=
      announces.received
        (icm.setExchange eth
          { exchange with rcvState := rcvWakeUp exchange.rcvState }) eth
    have current :
        received.exchangeMaster eth =
          some { exchange with rcvState := rcvWakeUp exchange.rcvState } := by
      rw [(Received.acceptRecords accepted).exchange]
      exact Function.update_self ..
    unfold exchangePktReceived
    simp only [found, Option.isSome_some, assertAt, if_true, deref, bind,
      Except.bind]
    rw [if_neg (by simp [announces.type]), if_pos ⟨awake, announces.type⟩,
      accepted]
    unfold exchangeSendAck
    dsimp only
    rw [lsdSend_eq]
    simp only [current]
    exact ⟨_, rfl⟩
  obtain ⟨after, returned⟩ := returns
  obtain ⟨written, exchanges⟩ :=
    exchangePktReceived_link_spec found announces.type awake returned
  refine ⟨after, returned, ?_, _, exchanges⟩
  rw [exchangeView_of_some written]

end Daemon

end Icm

namespace ExchangePair

open Icm

/-- Both daemons of a pair are ready. -/
def Ready (eth : Side → EthId) (pair : ExchangePair) : Prop :=
  ∀ side, (pair.daemon side).Ready (eth side)

/-- Two newly allocated exchange masters that know where their neighbour is. -/
structure Adjacent (eth : Side → EthId) (pair : ExchangePair) : Prop
    extends Fresh eth pair where
  sessions : ∀ side, (pair.daemon side).SessionInv
  addressed : ∀ side, (pair.daemon side).addressed (eth side) = true

/-- The steps of a continuation: a timer fires, or a packet is delivered. -/
def Lossless : ExchangePair → Op → Prop
  | _, .timeout _ _ => True
  | _, .deliver _ _ => True
  | _, _ => False

/-- Timers and deliveries bring a side to the end of its session. -/
def CanEnd (eth : Side → EthId) (pair : ExchangePair) (side : Side) : Prop :=
  ∃ ops final,
    Run (guarded Lossless (Step eth)) pair ops final ∧
      (final.view eth side).sendState = .ended

/-- The number an acknowledgement has. -/
def ackNumber (message : Nat × Exchange) : Option UInt32 :=
  if message.2.type = .ack then some message.2.seq else none

/-- The numbers of the acknowledgements in flight to a side. -/
def acksInFlight (pair : ExchangePair) (side : Side) : List UInt32 :=
  (pair.wire side.other).filterMap ackNumber

/-- Consecutive packet numbers. -/
def numbersFrom (first : UInt32) : Nat → List UInt32
  | 0 => []
  | count + 1 => first :: numbersFrom (first + 1) count

/-- The numbers of the packets of a session that are not acknowledged yet. -/
def outstanding (eth : Side → EthId) (pair : ExchangePair) (side : Side) :
    List UInt32 :=
  numbersFrom (pair.view eth side).pkgNo
    ((pair.view eth side).linksState.length + 1)

section Steps

variable {eth : Side → EthId}
  {pair : ExchangePair}
  {side : Side}

/-! ## Every reachable pair is ready -/

/-- One daemon of a pair moves on. -/
theorem Ready.update
    {after : ExchangePair}
    {icm : Icm}
    (ready : pair.Ready eth)
    (moved : icm.Ready (eth side))
    (daemon : after.daemon = Function.update pair.daemon side icm) :
    after.Ready eth := by
  intro query
  rw [daemon]
  by_cases same : query = side
  · subst same
    rw [Function.update_self]
    exact moved
  · rw [Function.update_of_ne same]
    exact ready query

/-- Every step keeps both daemons ready. -/
theorem Ready.step
    {before after : ExchangePair}
    {op : Op}
    (ready : before.Ready eth)
    (step : Step eth before op after) :
    after.Ready eth := by
  cases op with
  | start actor =>
      obtain ⟨filled, icm, returned, rfl⟩ := step
      exact ready.update ((ready actor).start filled returned) rfl
  | terminate actor =>
      obtain ⟨icm, returned, rfl⟩ := step
      exact ready.update ((ready actor).terminate returned) rfl
  | timeout actor id =>
      obtain ⟨isPending, icm, returned, rfl⟩ := step
      exact ready.update ((ready actor).timeout isPending returned) rfl
  | deliver actor message =>
      obtain ⟨-, icm, returned, rfl⟩ := step
      exact ready.update ((ready actor).receive returned) rfl
  | lose actor message =>
      obtain ⟨-, rfl⟩ := step
      exact ready
  | duplicate actor message =>
      obtain ⟨-, rfl⟩ := step
      exact ready
  | background actor icm =>
      obtain ⟨background, rfl⟩ := step
      exact ready.update ((ready actor).background background) rfl

/-- Adjacent exchange masters are ready. -/
theorem Adjacent.ready
    (adjacent : pair.Adjacent eth) :
    pair.Ready eth := by
  intro side
  have isView :
      (pair.daemon side).exchangeView (eth side) = newExchangeMaster :=
    exchangeView_of_some (adjacent.allocated side)
  refine
    { sessions := adjacent.sessions side
      addressed := adjacent.addressed side
      allocated := ?_
      links := ?_
      buffer := ?_ }
  · rw [adjacent.allocated side]
    rfl
  · rw [isView]
    intro link member
    cases member
  · rw [isView]
    intro waiting
    cases waiting

/-! ## The steps a waiting sender needs -/

/-- One more step in front of a continuation. -/
theorem CanEnd.before
    {after : ExchangePair}
    {op : Op}
    (canEnd : after.CanEnd eth side)
    (step : Step eth pair op after)
    (lossless : Lossless pair op) :
    pair.CanEnd eth side := by
  obtain ⟨ops, final, run, ended⟩ := canEnd
  exact ⟨op :: ops, final, .cons ⟨lossless, step⟩ run, ended⟩

/-- The exchange master of a ready daemon is allocated. -/
theorem Ready.found
    (ready : pair.Ready eth)
    (side : Side) :
    (pair.daemon side).exchangeMaster (eth side) =
      some (pair.view eth side) := by
  obtain ⟨exchange, found⟩ := Option.isSome_iff_exists.mp (ready side).allocated
  rw [found]
  exact congrArg some (exchangeView_of_some found).symm

/-- A waiting sender can repeat its packet. -/
theorem Ready.retransmission
    (ready : pair.Ready eth)
    (waiting : (pair.view eth side).sendState = .waiting) :
    ∃ id tag handle packet after,
      Step eth pair (.timeout side id) after ∧
        Announces (pair.view eth side) packet ∧
        (tag, packet) ∈ after.wire side ∧
        after.view eth side =
          { pair.view eth side with ackCtrl := some handle } ∧
        after.daemon side.other = pair.daemon side.other := by
  obtain ⟨id, handle, packet, icm, isPending, returned, announces, written,
      exchanges⟩ :=
    retransmits (ready side) (ready.found side) waiting
  refine ⟨id, pair.session side, handle, packet, _,
    ⟨isPending, icm, returned, rfl⟩, announces, ?_, ?_,
    moved_daemon_other _⟩
  · rw [moved_wire_self exchanges, (ready side).addressed]
    simp
  · unfold view
    rw [moved_daemon_self]
    exact exchangeView_of_some written

/-- A neighbour that has not ended answers the packet of a waiting sender. -/
theorem Ready.answer
    {sender : ExchangeMaster}
    {tag : Nat}
    {packet : Exchange}
    (ready : pair.Ready eth)
    (announces : Announces sender packet)
    (flies : (tag, packet) ∈ pair.wire side)
    (listening : (pair.view eth side.other).rcvState ≠ .ended) :
    ∃ after,
      Step eth pair (.deliver side.other (tag, packet)) after ∧
        after.daemon side = pair.daemon side ∧
        (after.view eth side.other).rcvState =
          (if packet.more then .waiting else .ended) ∧
        (tag, exchangeAck packet) ∈ after.wire side.other := by
  obtain ⟨icm, returned, rcvState, accepted, exchanges⟩ :=
    answers announces (ready.found side.other) listening
  refine ⟨_, ⟨?_, icm, returned, rfl⟩, ?_, ?_, ?_⟩
  · rw [Side.other_other]
    exact flies
  · exact moved_daemon_of_ne side.other_ne.symm _
  · unfold view
    rw [moved_daemon_self]
    exact rcvState
  · have sends :
        Exchanges (eth side.other)
          ((pair.taken side.other.other (tag, packet)).daemon side.other) icm
          [exchangeAck packet] accepted :=
      exchanges
    rw [moved_wire_self sends, List.mem_append]
    right
    change (tag, exchangeAck packet) ∈
      List.map _ (if (pair.daemon side.other).addressed _ then _ else _)
    rw [(ready side.other).addressed]
    exact List.mem_singleton.mpr rfl

/-- A waiting sender takes the acknowledgement of its packet. -/
theorem Ready.acknowledgement
    {message : Nat × Exchange}
    (ready : pair.Ready eth)
    (waiting : (pair.view eth side).sendState = .waiting)
    (flies : message ∈ pair.wire side.other)
    (isAck : message.2.type = .ack)
    (current : message.2.seq = (pair.view eth side).pkgNo) :
    ∃ after,
      Step eth pair (.deliver side message) after ∧
        after.daemon side.other = pair.daemon side.other ∧
        after.wire side.other = (pair.wire side.other).erase message ∧
        ((pair.view eth side).linksState = [] →
          (after.view eth side).sendState = .ended) ∧
        ((pair.view eth side).linksState ≠ [] →
          (after.view eth side).sendState = .waiting ∧
            (after.view eth side).pkgNo = (pair.view eth side).pkgNo + 1 ∧
            (after.view eth side).linksState =
              (pair.view eth side).linksState.drop 1) := by
  have found := ready.found side
  have effect :
      ∃ icm,
        (pair.daemon side).exchangePktReceived (eth side) message.2 =
            .ok icm ∧
          ((pair.view eth side).linksState = [] →
            (icm.exchangeView (eth side)).sendState = .ended) ∧
          ((pair.view eth side).linksState ≠ [] →
            (icm.exchangeView (eth side)).sendState = .waiting ∧
              (icm.exchangeView (eth side)).pkgNo =
                (pair.view eth side).pkgNo + 1 ∧
              (icm.exchangeView (eth side)).linksState =
                (pair.view eth side).linksState.drop 1) := by
    by_cases last : (pair.view eth side).linksState = []
    · obtain ⟨icm, returned, written, -⟩ :=
        exchangePktReceived_ack_last found isAck waiting current last
      refine ⟨icm, returned, fun _ => ?_, fun more => absurd last more⟩
      rw [exchangeView_of_some written]
    · obtain ⟨icm, handle, returned, written, -⟩ :=
        exchangePktReceived_ack_next found isAck waiting current last
      refine ⟨icm, returned, fun isLast => absurd isLast last, fun _ => ?_⟩
      rw [exchangeView_of_some written]
      exact ⟨rfl, rfl, rfl⟩
  obtain ⟨icm, returned, whenLast, whenMore⟩ := effect
  refine ⟨_, ⟨flies, icm, returned, rfl⟩, moved_daemon_other _, ?_, ?_, ?_⟩
  · rw [moved_wire_other]
    exact Function.update_self ..
  · unfold view at whenLast ⊢
    rw [moved_daemon_self]
    exact whenLast
  · unfold view at whenMore ⊢
    rw [moved_daemon_self]
    exact whenMore

/-- An ended session has nothing more to do. -/
theorem CanEnd.of_ended
    (ended : (pair.view eth side).sendState = .ended) :
    pair.CanEnd eth side :=
  ⟨[], pair, .nil pair, ended⟩

/-! ## A neighbour that listens -/

/--
While the neighbour has not ended, three steps have the packet of a waiting
sender acknowledged: its timer fires, the packet is delivered, and so is the
answer.
-/
theorem Ready.round
    (ready : pair.Ready eth)
    (waiting : (pair.view eth side).sendState = .waiting)
    (listening : (pair.view eth side.other).rcvState ≠ .ended) :
    ∃ after : ExchangePair,
      after.Ready eth ∧
        (after.CanEnd eth side → pair.CanEnd eth side) ∧
        ((pair.view eth side).linksState = [] →
          (after.view eth side).sendState = .ended) ∧
        ((pair.view eth side).linksState ≠ [] →
          (after.view eth side).sendState = .waiting ∧
            (after.view eth side).linksState =
              (pair.view eth side).linksState.drop 1 ∧
            (after.view eth side.other).rcvState ≠ .ended) := by
  obtain ⟨id, tag, handle, packet, repeated, timerFires, announces, flies,
      sender, otherKept⟩ :=
    ready.retransmission waiting
  have repeatedReady := ready.step timerFires
  have stillListening : (repeated.view eth side.other).rcvState ≠ .ended := by
    unfold view
    rw [otherKept]
    exact listening
  obtain ⟨answered, delivered, sideKept, rcvState, answerFlies⟩ :=
    repeatedReady.answer announces flies stillListening
  have answeredReady := repeatedReady.step delivered
  have sameView :
      answered.view eth side =
        { pair.view eth side with ackCtrl := some handle } := by
    rw [← sender]
    unfold view
    rw [sideKept]
  obtain ⟨after, acknowledged, otherStays, -, whenLast, whenMore⟩ :=
    answeredReady.acknowledgement
      (by rw [sameView]; exact waiting) answerFlies rfl
      (by rw [sameView]; exact announces.seq)
  rw [sameView] at whenLast whenMore
  refine ⟨after, answeredReady.step acknowledged, ?_, whenLast, ?_⟩
  · intro canEnd
    exact ((canEnd.before acknowledged trivial).before delivered
      trivial).before timerFires trivial
  · intro more
    obtain ⟨isWaiting, -, rest⟩ := whenMore more
    refine ⟨isWaiting, rest, ?_⟩
    have sameOther :
        (after.view eth side.other).rcvState =
          (answered.view eth side.other).rcvState := by
      unfold view
      rw [otherStays]
    rw [sameOther, rcvState, announces.more, decide_eq_true more]
    simp

/-- A sender whose neighbour has not ended can end its session. -/
theorem canEnd_of_listening
    (ready : pair.Ready eth)
    (waiting : (pair.view eth side).sendState = .waiting)
    (listening : (pair.view eth side.other).rcvState ≠ .ended) :
    pair.CanEnd eth side := by
  induction remaining : (pair.view eth side).linksState.length
    generalizing pair with
  | zero =>
      obtain ⟨after, -, continues, whenLast, -⟩ := ready.round waiting listening
      exact continues (.of_ended (whenLast (List.length_eq_zero_iff.mp remaining)))
  | succ count inductionHypothesis =>
      obtain ⟨after, afterReady, continues, -, whenMore⟩ :=
        ready.round waiting listening
      have more : (pair.view eth side).linksState ≠ [] := by
        intro isNil
        simp [isNil] at remaining
      obtain ⟨isWaiting, rest, stillListening⟩ := whenMore more
      refine continues
        (inductionHypothesis afterReady isWaiting stillListening ?_)
      rw [rest, List.length_drop, remaining, Nat.add_sub_cancel]

/-! ## A neighbour that has ended -/

/-- The acknowledgements in flight are one less after one was taken. -/
theorem acksInFlight_taken
    {message : Nat × Exchange}
    (flies : message ∈ pair.wire side.other)
    (isAck : message.2.type = .ack) :
    (pair.acksInFlight side).Perm
      (message.2.seq :: (pair.taken side.other message).acksInFlight side) := by
  have number : ackNumber message = some message.2.seq := by
    unfold ackNumber
    rw [if_pos isAck]
  have split := (List.perm_cons_erase flies).filterMap ackNumber
  rw [List.filterMap_cons_some number] at split
  have left :
      (pair.taken side.other message).wire side.other =
        (pair.wire side.other).erase message :=
    Function.update_self ..
  unfold acksInFlight
  rw [left]
  exact split

/-- A waiting sender can take an acknowledgement of its packet that is in flight. -/
theorem Ready.takesAck
    (ready : pair.Ready eth)
    (waiting : (pair.view eth side).sendState = .waiting)
    (inFlight : (pair.view eth side).pkgNo ∈ pair.acksInFlight side) :
    ∃ message after,
      Step eth pair (.deliver side message) after ∧
        (pair.acksInFlight side).Perm
          ((pair.view eth side).pkgNo :: after.acksInFlight side) ∧
        ((pair.view eth side).linksState = [] →
          (after.view eth side).sendState = .ended) ∧
        ((pair.view eth side).linksState ≠ [] →
          (after.view eth side).sendState = .waiting ∧
            (after.view eth side).pkgNo = (pair.view eth side).pkgNo + 1 ∧
            (after.view eth side).linksState =
              (pair.view eth side).linksState.drop 1) := by
  obtain ⟨message, flies, number⟩ := List.mem_filterMap.mp inFlight
  unfold ackNumber at number
  split at number
  · next isAck =>
      have current : message.2.seq = (pair.view eth side).pkgNo := by
        simpa using number
      obtain ⟨after, delivered, -, left, whenLast, whenMore⟩ :=
        ready.acknowledgement waiting flies isAck current
      refine ⟨message, after, delivered, ?_, whenLast, whenMore⟩
      have split := acksInFlight_taken flies isAck
      rw [current] at split
      unfold acksInFlight at split ⊢
      rw [left]
      rwa [show (pair.taken side.other message).wire side.other =
        (pair.wire side.other).erase message from Function.update_self ..]
        at split
  · cases number

/-- The outstanding acknowledgements are in flight, and are taken in their order. -/
theorem canEnd_of_acks
    (ready : pair.Ready eth)
    (waiting : (pair.view eth side).sendState = .waiting)
    (inFlight :
      (pair.outstanding eth side).Subperm (pair.acksInFlight side)) :
    pair.CanEnd eth side := by
  have first : (pair.view eth side).pkgNo ∈ pair.acksInFlight side :=
    inFlight.subset List.mem_cons_self
  induction remaining : (pair.view eth side).linksState.length
    generalizing pair with
  | zero =>
      obtain ⟨message, after, delivered, -, whenLast, -⟩ :=
        ready.takesAck waiting first
      have ended := whenLast (List.length_eq_zero_iff.mp remaining)
      exact (CanEnd.of_ended ended).before delivered trivial
  | succ count inductionHypothesis =>
      obtain ⟨message, after, delivered, split, -, whenMore⟩ :=
        ready.takesAck waiting first
      have more : (pair.view eth side).linksState ≠ [] := by
        intro isNil
        simp [isNil] at remaining
      obtain ⟨isWaiting, next, rest⟩ := whenMore more
      have shorter : (after.view eth side).linksState.length = count := by
        rw [rest, List.length_drop, remaining, Nat.add_sub_cancel]
      have still :
          (after.outstanding eth side).Subperm (after.acksInFlight side) := by
        have both := split.subperm_left.mp inFlight
        unfold outstanding at both ⊢
        rw [remaining] at both
        rw [next, shorter]
        exact (List.subperm_cons _).mp both
      exact (inductionHypothesis (ready.step delivered) isWaiting still
        (still.subset List.mem_cons_self) shorter).before delivered trivial

/-- What a neighbour that is no receiver any more puts on the wire. -/
theorem acksInFlight_moved
    {icm : Icm}
    {sent : List Exchange}
    {accepted : List LinkStateAdv}
    (exchanges :
      Exchanges (eth side.other) (pair.daemon side.other) icm sent accepted)
    (noAcks : ∀ packet ∈ sent, packet.type ≠ .ack)
    (tag : Exchange → Nat) :
    (pair.moved eth side.other icm tag).acksInFlight side =
      pair.acksInFlight side := by
  unfold acksInFlight
  rw [moved_wire_self exchanges, List.filterMap_append]
  conv_rhs => rw [← List.append_nil (List.filterMap _ _)]
  congr 1
  apply List.filterMap_eq_nil_iff.mpr
  intro message member
  obtain ⟨packet, isSent, rfl⟩ := List.mem_map.mp member
  unfold ackNumber
  rw [if_neg]
  split at isSent
  · exact noAcks packet isSent
  · cases isSent

/-- What a side puts on its own wire is no acknowledgement for it. -/
theorem acksInFlight_moved_self
    (icm : Icm)
    (tag : Exchange → Nat) :
    (pair.moved eth side icm tag).acksInFlight side =
      pair.acksInFlight side := by
  unfold acksInFlight
  rw [moved_wire_other]

/-- Fewer packets in flight, fewer acknowledgements in flight. -/
theorem acksInFlight_taken_subperm
    (query : Side)
    (message : Nat × Exchange) :
    ((pair.taken query message).acksInFlight side).Subperm
      (pair.acksInFlight side) := by
  unfold acksInFlight taken
  dsimp only
  by_cases same : side.other = query
  · subst same
    rw [Function.update_self]
    exact (List.erase_sublist.filterMap _).subperm
  · rw [Function.update_of_ne same]

/--
What a step does for a waiting sender whose neighbour has ended: the sender
keeps waiting, and if its acknowledgements are in flight afterwards they were so
before, or the step acknowledges the last packet.
-/
def DeafStep (eth : Side → EthId) (side : Side) (before after : ExchangePair) :
    Prop :=
  ((after.view eth side).sendState = .waiting ∧
    (after.view eth side.other).rcvState = .ended ∧
    ((after.outstanding eth side).Subperm (after.acksInFlight side) →
      (before.outstanding eth side).Subperm (before.acksInFlight side))) ∨
  (before.outstanding eth side).Subperm (before.acksInFlight side)

/-- A step that leaves the session of the sender alone. -/
theorem deafStep_of_same
    {after : ExchangePair}
    (waiting : (pair.view eth side).sendState = .waiting)
    (sendState :
      (after.view eth side).sendState = (pair.view eth side).sendState)
    (linksState :
      (after.view eth side).linksState = (pair.view eth side).linksState)
    (pkgNo : (after.view eth side).pkgNo = (pair.view eth side).pkgNo)
    (deaf : (after.view eth side.other).rcvState = .ended)
    (acks : (after.acksInFlight side).Subperm (pair.acksInFlight side)) :
    DeafStep eth side pair after := by
  refine .inl ⟨sendState.trans waiting, deaf, fun inFlight => ?_⟩
  unfold outstanding at inFlight ⊢
  rw [linksState, pkgNo] at inFlight
  exact inFlight.trans acks

/-- The timer of the sender. -/
theorem deafStep_timeout
    {id : ThreadId}
    {icm : Icm}
    {tag : Exchange → Nat}
    (waiting : (pair.view eth side).sendState = .waiting)
    (deaf : (pair.view eth side.other).rcvState = .ended)
    (returned :
      ((pair.daemon side).fetch id).ackTimeExcceed (eth side) = .ok icm) :
    DeafStep eth side pair (pair.moved eth side icm tag) := by
  obtain ⟨exchange, handle, found, -, written, -⟩ :=
    ackTimeExcceed_spec returned
  have isView : pair.view eth side = exchange := exchangeView_of_some found
  have nextView :
      (pair.moved eth side icm tag).view eth side =
        { exchange with ackCtrl := some handle } := by
    unfold view
    rw [moved_daemon_self]
    exact exchangeView_of_some written
  refine deafStep_of_same waiting ?_ ?_ ?_ ?_ ?_
  · rw [nextView, isView]
  · rw [nextView, isView]
  · rw [nextView, isView]
  · unfold view
    rw [moved_daemon_other]
    exact deaf
  · rw [acksInFlight_moved_self]

/-- The timer of the neighbour, which repeats a packet of its own session. -/
theorem deafStep_otherTimeout
    {id : ThreadId}
    {icm : Icm}
    {tag : Exchange → Nat}
    (ready : pair.Ready eth)
    (waiting : (pair.view eth side).sendState = .waiting)
    (deaf : (pair.view eth side.other).rcvState = .ended)
    (returned :
      ((pair.daemon side.other).fetch id).ackTimeExcceed (eth side.other) =
        .ok icm) :
    DeafStep eth side pair (pair.moved eth side.other icm tag) := by
  obtain ⟨exchange, handle, found, sends, written, exchanges⟩ :=
    ackTimeExcceed_spec returned
  have isView : pair.view eth side.other = exchange :=
    exchangeView_of_some found
  have sameView :
      (pair.moved eth side.other icm tag).view eth side =
        pair.view eth side := by
    unfold view
    rw [moved_daemon_of_ne side.other_ne.symm]
  refine deafStep_of_same waiting (by rw [sameView]) (by rw [sameView])
    (by rw [sameView]) ?_ ?_
  · unfold view
    rw [moved_daemon_self, exchangeView_of_some written]
    rw [isView] at deaf
    exact deaf
  · rw [acksInFlight_moved exchanges]
    intro packet member
    have buffer := (ready side.other).buffer
    rw [exchangeView_of_some found] at buffer
    obtain ⟨announced, isBuffer, announces⟩ := buffer sends
    rw [isBuffer, Option.toList_some, List.mem_singleton] at member
    subst member
    simp [announces.type]

/-- A packet for the sender. -/
theorem deafStep_receive
    {message : Nat × Exchange}
    {icm : Icm}
    {tag : Exchange → Nat}
    (waiting : (pair.view eth side).sendState = .waiting)
    (deaf : (pair.view eth side.other).rcvState = .ended)
    (flies : message ∈ pair.wire side.other)
    (returned :
      (pair.daemon side).exchangePktReceived (eth side) message.2 = .ok icm) :
    DeafStep eth side pair
      ((pair.taken side.other message).moved eth side icm tag) := by
  obtain ⟨exchange, found, received⟩ := reception returned
  have isView : pair.view eth side = exchange := exchangeView_of_some found
  have nextView :
      ((pair.taken side.other message).moved eth side icm tag).view eth side =
        icm.exchangeView (eth side) := by
    unfold view
    rw [moved_daemon_self]
  have stillDeaf :
      (((pair.taken side.other message).moved eth side icm tag).view eth
        side.other).rcvState = .ended := by
    unfold view
    rw [moved_daemon_other]
    exact deaf
  have fewer :
      (((pair.taken side.other message).moved eth side icm tag).acksInFlight
        side).Subperm (pair.acksInFlight side) := by
    rw [acksInFlight_moved_self]
    exact acksInFlight_taken_subperm side.other message
  cases received with
  | ackIgnored isAck ignored same =>
      subst same
      exact deafStep_of_same waiting (by rw [nextView]; rfl)
        (by rw [nextView]; rfl) (by rw [nextView]; rfl) stillDeaf fewer
  | ackNext isAck sends current more handle written exchanges =>
      rw [exchangeView_of_some written] at nextView
      refine .inl ⟨by rw [nextView]; rfl, stillDeaf, fun inFlight => ?_⟩
      have split := acksInFlight_taken flies isAck
      rw [acksInFlight_moved_self] at inFlight
      unfold outstanding at inFlight ⊢
      rw [nextView] at inFlight
      rw [isView]
      rw [current] at split
      obtain ⟨link, rest, isLinks⟩ := List.exists_cons_of_ne_nil more
      change (numbersFrom (exchange.pkgNo + 1)
        ((exchange.linksState.drop 1).length + 1)).Subperm _ at inFlight
      rw [isLinks] at inFlight ⊢
      exact split.subperm_left.mpr ((List.subperm_cons _).mpr inFlight)
  | ackLast isAck sends current last written exchanges =>
      right
      unfold outstanding
      rw [isView, last, ← current]
      apply List.singleton_subperm_iff.mpr
      exact (acksInFlight_taken flies isAck).mem_iff.mpr List.mem_cons_self
  | linkAccepted isLink listening written exchanges =>
      rw [exchangeView_of_some written] at nextView
      exact deafStep_of_same waiting (by rw [nextView, isView])
        (by rw [nextView, isView]) (by rw [nextView, isView]) stillDeaf fewer
  | dataIgnored notAck ignored written exchanges =>
      rw [exchangeView_of_some written] at nextView
      exact deafStep_of_same waiting (by rw [nextView, isView])
        (by rw [nextView, isView]) (by rw [nextView, isView]) stillDeaf fewer

/-- A packet for the neighbour, which does not answer it. -/
theorem deafStep_otherReceive
    {message : Nat × Exchange}
    {icm : Icm}
    {tag : Exchange → Nat}
    (waiting : (pair.view eth side).sendState = .waiting)
    (deaf : (pair.view eth side.other).rcvState = .ended)
    (returned :
      (pair.daemon side.other).exchangePktReceived (eth side.other) message.2 =
        .ok icm) :
    DeafStep eth side pair
      ((pair.taken side message).moved eth side.other icm tag) := by
  obtain ⟨exchange, found, received⟩ := reception returned
  have isView : pair.view eth side.other = exchange :=
    exchangeView_of_some found
  rw [isView] at deaf
  have sameView :
      ((pair.taken side message).moved eth side.other icm tag).view eth side =
        pair.view eth side := by
    unfold view
    rw [moved_daemon_of_ne side.other_ne.symm]
    rfl
  have unanswered :
      ∃ sent accepted,
        Exchanges (eth side.other) (pair.daemon side.other) icm sent accepted ∧
          (∀ packet ∈ sent, packet.type ≠ .ack) ∧
          (icm.exchangeView (eth side.other)).rcvState = .ended := by
    cases received with
    | ackIgnored isAck ignored same =>
        subst same
        refine ⟨[], [], Exchanges.silent rfl rfl, by simp, ?_⟩
        rw [exchangeView_of_some found]
        exact deaf
    | ackNext isAck sends current more handle written exchanges =>
        refine ⟨_, _, exchanges, ?_, ?_⟩
        · intro packet member
          rw [List.mem_singleton] at member
          subst member
          exact exchangeBatch_ne_ack _
        · rw [exchangeView_of_some written]
          exact deaf
    | ackLast isAck sends current last written exchanges =>
        refine ⟨_, _, exchanges, by simp, ?_⟩
        rw [exchangeView_of_some written]
        exact deaf
    | linkAccepted isLink listening written exchanges =>
        rw [deaf] at listening
        cases listening
    | dataIgnored notAck ignored written exchanges =>
        refine ⟨_, _, exchanges, by simp, ?_⟩
        rw [exchangeView_of_some written, deaf]
        rfl
  obtain ⟨sent, accepted, exchanges, noAcks, stillDeaf⟩ := unanswered
  have sends :
      Exchanges (eth side.other) ((pair.taken side message).daemon side.other)
        icm sent accepted :=
    exchanges
  refine deafStep_of_same waiting (by rw [sameView]) (by rw [sameView])
    (by rw [sameView]) ?_ ?_
  · unfold view
    rw [moved_daemon_self]
    exact stillDeaf
  · rw [acksInFlight_moved sends noAcks]
    exact acksInFlight_taken_subperm side message

/-- Every step of a continuation. -/
theorem deafStep
    {after : ExchangePair}
    {op : Op}
    (ready : pair.Ready eth)
    (waiting : (pair.view eth side).sendState = .waiting)
    (deaf : (pair.view eth side.other).rcvState = .ended)
    (step : guarded Lossless (Step eth) pair op after) :
    DeafStep eth side pair after := by
  obtain ⟨lossless, step⟩ := step
  cases op with
  | timeout actor id =>
      obtain ⟨-, icm, returned, rfl⟩ := step
      rcases side.eq_or_eq_other actor with rfl | rfl
      · exact deafStep_timeout waiting deaf returned
      · exact deafStep_otherTimeout ready waiting deaf returned
  | deliver actor message =>
      obtain ⟨flies, icm, returned, rfl⟩ := step
      rcases side.eq_or_eq_other actor with rfl | rfl
      · exact deafStep_receive waiting deaf flies returned
      · rw [Side.other_other]
        exact deafStep_otherReceive waiting deaf returned
  | start => cases lossless
  | terminate => cases lossless
  | lose => cases lossless
  | duplicate => cases lossless
  | background => cases lossless

/-- A sender whose neighbour has ended only ends on what is in flight already. -/
theorem acks_of_canEnd
    (ready : pair.Ready eth)
    (waiting : (pair.view eth side).sendState = .waiting)
    (deaf : (pair.view eth side.other).rcvState = .ended)
    (canEnd : pair.CanEnd eth side) :
    (pair.outstanding eth side).Subperm (pair.acksInFlight side) := by
  obtain ⟨ops, final, run, ended⟩ := canEnd
  induction run with
  | nil state =>
      rw [waiting] at ended
      cases ended
  | cons first rest inductionHypothesis =>
      rcases deafStep ready waiting deaf first with
        ⟨stillWaiting, stillDeaf, before⟩ | inFlight
      · exact before (inductionHypothesis (ready.step first.2) stillWaiting
          stillDeaf ended)
      · exact inFlight

/-- A link state is answered if and only if its receiver has not ended. -/
theorem answered_iff
    {after : ExchangePair}
    {message : Nat × Exchange}
    (ready : pair.Ready eth)
    (step : Step eth pair (.deliver side message) after)
    (isLink : message.2.type = .linksState) :
    after.wire side =
        pair.wire side ++ [(message.1, exchangeAck message.2)] ↔
      (pair.view eth side).rcvState ≠ .ended := by
  obtain ⟨-, icm, returned, rfl⟩ := step
  obtain ⟨exchange, found, received⟩ := reception returned
  have isView : pair.view eth side = exchange := exchangeView_of_some found
  have sameWire :
      (pair.taken side.other message).wire side = pair.wire side :=
    Function.update_of_ne side.other_ne.symm _ _
  have sends :
      ∀ {sent accepted},
        Exchanges (eth side) (pair.daemon side) icm sent accepted →
        ∀ tag,
          ((pair.taken side.other message).moved eth side icm tag).wire side =
            pair.wire side ++ sent.map fun packet => (tag packet, packet) := by
    intro sent accepted exchanges tag
    have same :
        Exchanges (eth side) ((pair.taken side.other message).daemon side) icm
          sent accepted :=
      exchanges
    rw [moved_wire_self same, sameWire]
    change _ ++ List.map _ (if (pair.daemon side).addressed _ then _ else _) = _
    rw [(ready side).addressed]
    rfl
  rw [isView]
  cases received with
  | ackIgnored isAck ignored same =>
      simp [isLink] at isAck
  | ackNext isAck waiting current more handle written exchanges =>
      simp [isLink] at isAck
  | ackLast isAck waiting current last written exchanges =>
      simp [isLink] at isAck
  | linkAccepted _ listening written exchanges =>
      rw [sends exchanges]
      refine iff_of_true rfl fun ended => ?_
      rw [ended] at listening
      cases listening
  | dataIgnored notAck ignored written exchanges =>
      rw [sends exchanges]
      refine iff_of_false (by simp) fun listening => ?_
      cases state : exchange.rcvState with
      | terminated => exact ignored ⟨by rw [state]; rfl, isLink⟩
      | waiting => exact ignored ⟨by rw [state]; rfl, isLink⟩
      | ended => exact listening state

end Steps

/--
When the exchange is stuck.  From a reachable state, timers and deliveries bring
a waiting sender to the end of its session if and only if its neighbour has not
reached the end of a session it received, or every acknowledgement the sender
still needs is in flight; and a receiver answers a link state if and only if it
has not reached the end of a session.
-/
theorem canEnd_iff
    {eth : Side → EthId}
    {initial state : ExchangePair}
    {ops : List Op}
    (adjacent : initial.Adjacent eth)
    (run : Run (Step eth) initial ops state)
    (side : Side) :
    ((state.view eth side).sendState = .waiting →
      (state.CanEnd eth side ↔
        (state.view eth side.other).rcvState ≠ .ended ∨
          (state.outstanding eth side).Subperm (state.acksInFlight side))) ∧
    ∀ message after,
      Step eth state (.deliver side message) after →
      message.2.type = .linksState →
      (after.wire side =
          state.wire side ++ [(message.1, exchangeAck message.2)] ↔
        (state.view eth side).rcvState ≠ .ended) := by
  have ready : state.Ready eth :=
    run.invariant (Ready eth) Ready.step adjacent.ready
  refine ⟨fun waiting => ⟨fun canEnd => ?_, fun possible => ?_⟩, ?_⟩
  · by_cases deaf : (state.view eth side.other).rcvState = .ended
    · exact .inr (acks_of_canEnd ready waiting deaf canEnd)
    · exact .inl deaf
  · rcases possible with listening | inFlight
    · exact canEnd_of_listening ready waiting listening
    · exact canEnd_of_acks ready waiting inFlight
  · intro message after step isLink
    exact answered_iff ready step isLink

/-! ## A lost acknowledgement -/

theorem quietPair_adjacent :
    quietPair.Adjacent fun _ => 0 := by
  have accepted :
      (((idleDaemon 1 1 2).acceptLsaIntoLsdb 0 thirdAdv).toOption.getD
        (idleDaemon 1 1 2)).SessionInv := by
    have idle := (idleDaemon_adjacencyInv 1 1 2).toSessionInv
    cases returned : (idleDaemon 1 1 2).acceptLsaIntoLsdb 0 thirdAdv with
    | ok after =>
        exact ((((yields_acceptLsaIntoLsdb _ 0 thirdAdv).frame
          idle.flood).session idle 0).of_ok returned).2.1
    | error fault =>
        exact idle
  refine
    { quietPair_fresh with
      sessions := ?_
      addressed := ?_ }
  · intro side
    cases side with
    | left => exact accepted
    | right => exact (idleDaemon_adjacencyInv 2 2 1).toSessionInv
  · intro side
    cases side <;> rfl

/-- A session whose packet is still on its way. -/
theorem canEnd_iff_start :
    ∃ state,
      Run (Step fun _ => 0) quietPair [.start .left] state ∧
        (state.view (fun _ => 0) .left).sendState = .waiting ∧
        state.CanEnd (fun _ => 0) .left := by
  have runs :
      ∃ state,
        Run (Step fun _ => 0) quietPair [.start .left] state ∧
          (state.view (fun _ => 0) .left).sendState = .waiting ∧
          (state.view (fun _ => 0) .right).rcvState = .waiting :=
    ⟨_, .cons ⟨List.cons_ne_nil _ _, _, rfl, rfl⟩ (.nil _), rfl, rfl⟩
  obtain ⟨state, run, waiting, listening⟩ := runs
  refine ⟨state, run, waiting, ?_⟩
  refine ((canEnd_iff quietPair_adjacent run .left).1 waiting).mpr (.inl ?_)
  change (state.view (fun _ => 0) .right).rcvState ≠ .ended
  rw [listening]
  simp

/-- The last acknowledgement is lost, and the sender repeats its packet for ever. -/
theorem lost_ack_stuck :
    quietPair.Adjacent (fun _ => 0) ∧
      ∃ state,
        Run (Step fun _ => 0) quietPair
          [ .start .left,
            .deliver .right (1, thirdPacket),
            .lose .right (1, exchangeAck thirdPacket) ] state ∧
        (state.view (fun _ => 0) .left).sendState = .waiting ∧
        ¬ state.CanEnd (fun _ => 0) .left := by
  have runs :
      ∃ state,
        Run (Step fun _ => 0) quietPair
          [ .start .left,
            .deliver .right (1, thirdPacket),
            .lose .right (1, exchangeAck thirdPacket) ] state ∧
          (state.view (fun _ => 0) .left).sendState = .waiting ∧
          (state.view (fun _ => 0) .right).rcvState = .ended ∧
          state.acksInFlight .left = [] := by
    refine ⟨_,
      .cons ⟨?_, _, rfl, rfl⟩
        (.cons ⟨?_, _, rfl, rfl⟩ (.cons ⟨?_, rfl⟩ (.nil _))), rfl, rfl, rfl⟩
    · exact List.cons_ne_nil _ _
    · exact List.mem_singleton.mpr rfl
    · exact List.mem_singleton.mpr rfl
  obtain ⟨state, run, waiting, deaf, noAcks⟩ := runs
  refine ⟨quietPair_adjacent, state, run, waiting, fun canEnd => ?_⟩
  have ready : state.Ready fun _ => 0 :=
    run.invariant (Ready fun _ => 0) Ready.step quietPair_adjacent.ready
  have inFlight := acks_of_canEnd ready waiting deaf canEnd
  rw [noAcks] at inFlight
  cases List.subperm_nil.mp inFlight

end ExchangePair

end Pma
