import Pma.LsdAdjacency
import Pma.LsdWire
import Pma.StopAndWait

namespace Pma

open Transition StopAndWait

/-!
# Flooding over one link

The flood master of one end and `flood_pkt_received` of the other, over a socket
that loses, duplicates, delays and reorders datagrams: whatever was ever sent may
arrive, any number of times and in any order.  Next to the two daemons the model
keeps the ledger of `Pma.StopAndWait`, which names every advertisement by its
place on the queue.
-/

/-- The two ends of a link, and the ledger of what the sender queued. -/
structure FloodLink where
  sender : Icm
  peer : Icm
  ledger : Ledger

namespace FloodLink

open Icm

/-- What can happen on the link. -/
inductive Op where
  /-- `flood_add_flood_lsa`. -/
  | add (lsa : LinkStateAdv)
  /-- The timer of `flood_send_lsa` fires. -/
  | send (id : ThreadId)
  /-- The timer of `flood_ack_timeout` fires. -/
  | timeout (id : ThreadId)
  /-- `flood_start`. -/
  | start
  /-- `flood_terminate`. -/
  | terminate
  /-- The peer receives a packet. -/
  | toPeer (packet : Flood)
  /-- The sender receives a packet. -/
  | toSender (packet : Flood)

/-- The steps of the link between the interfaces `eth` and `peerEth`. -/
def Step (eth peerEth : EthId) (before : FloodLink) : Op → FloodLink → Prop
  | .add lsa, after =>
      after =
        { before with
          sender := before.sender.floodAddFloodLsa lsa eth
          ledger :=
            if before.sender.live eth then before.ledger.accept
            else before.ledger }
  | .send id, after =>
      id ∈ before.sender.master.pendingOf .floodSendLsa (.backbone eth) ∧
        ∃ sender,
          (before.sender.fetch id).floodSendLsa eth = .ok sender ∧
            after =
              { before with
                sender := sender
                ledger := before.ledger.send lsaCtPerPak }
  | .timeout id, after =>
      id ∈ before.sender.master.pendingOf .floodAckTimeout (.backbone eth) ∧
        ∃ sender,
          (before.sender.fetch id).floodAckTimeout eth = .ok sender ∧
            after = { before with sender := sender }
  | .start, after =>
      ∃ sender,
        before.sender.floodStart eth = .ok sender ∧
          after =
            { before with sender := sender, ledger := before.ledger.giveUp }
  | .terminate, after =>
      ∃ sender,
        before.sender.floodTerminate eth = .ok sender ∧
          after =
            { before with sender := sender, ledger := before.ledger.giveUp }
  | .toPeer packet, after =>
      .flood packet ∈ before.sender.sentOn eth ∧
        ∃ peer,
          before.peer.floodPktReceived peerEth packet = .ok peer ∧
            after =
              { before with
                peer := peer
                ledger := before.ledger.deliver (packet.seq.toNat - 1) }
  | .toSender packet, after =>
      .flood packet ∈ before.peer.sentOn peerEth ∧
        ∃ sender,
          before.sender.floodPktReceived eth packet = .ok sender ∧
            after =
              { before with
                sender := sender
                ledger :=
                  if (sender.floodView eth).state = .ackWaiting then
                    before.ledger
                  else
                    before.ledger.acknowledge }

/-- No packet number is used twice. -/
def Few (link : FloodLink) : Op → Prop
  | .send _ => link.ledger.batches.length + 1 < 2 ^ 32
  | _ => True

/-- The flood master is just allocated, and nothing was sent or accepted yet. -/
structure Fresh (eth peerEth : EthId) (link : FloodLink) : Prop where
  flooding : link.sender.FloodInv
  allocated : link.sender.floodMaster eth = some newFloodMaster
  queued : link.sender.queuedOn eth = []
  sent : ∀ packet, .flood packet ∉ link.sender.sentOn eth
  answered : ∀ packet, .flood packet ∉ link.peer.sentOn peerEth
  accepted : link.peer.acceptedFrom peerEth = []
  ledger : link.ledger = .empty

/-- The advertisement with a ticket. -/
def item (eth : EthId) (link : FloodLink) (ticket : Nat) : Option LinkStateAdv :=
  (link.sender.queuedOn eth)[ticket]?

/-- A packet carries the batch its number names. -/
structure Carries (eth : EthId) (link : FloodLink) (packet : Flood) : Prop where
  type : packet.type = .lsa
  counted : packet.size.toNat = packet.lsas.length
  short : packet.lsas.length ≤ lsaCtPerPak
  batch :
    ∃ number < link.ledger.batches.length,
      packet.seq.toNat = number + 1 ∧
        packet.lsas.map some = (link.ledger.batch number).map (link.item eth)

/--
The invariant of the link: the ledger is about the advertisements the sender
queued and the peer accepted, and about the packets on the wire.
-/
structure Inv (eth peerEth : EthId) (link : FloodLink) : Prop where
  flooding : link.sender.FloodInv
  allocated : (link.sender.floodMaster eth).isSome
  number :
    (link.sender.floodView eth).pkgNo.toNat = link.ledger.batches.length
  awaiting :
    link.ledger.awaiting = true ↔
      (link.sender.floodView eth).state = .ackWaiting
  queue :
    (link.sender.floodView eth).queue.map some =
      link.ledger.queue.map (link.item eth)
  next : link.ledger.next = (link.sender.queuedOn eth).length
  buffer :
    ∀ packet, (link.sender.floodView eth).sendbuf = some packet →
      link.Carries eth packet
  wire :
    ∀ packet, .flood packet ∈ link.sender.sentOn eth → link.Carries eth packet
  answers :
    ∀ packet, .flood packet ∈ link.peer.sentOn peerEth →
      packet.type = .ack ∧
        ∃ number ∈ link.ledger.acked, packet.seq.toNat = number + 1
  accepted :
    (link.peer.acceptedFrom peerEth).map some =
      link.ledger.processed.map (link.item eth)
  sound : link.ledger.Sound

/-- A fresh link satisfies the invariant. -/
theorem Fresh.inv
    {eth peerEth : EthId}
    {link : FloodLink}
    (fresh : link.Fresh eth peerEth) :
    link.Inv eth peerEth := by
  have view : link.sender.floodView eth = newFloodMaster :=
    floodView_of_some fresh.allocated
  refine
    { flooding := fresh.flooding
      allocated := by simp [fresh.allocated]
      number := ?_
      awaiting := ?_
      queue := ?_
      next := ?_
      buffer := ?_
      wire := fun packet member => absurd member (fresh.sent packet)
      answers := fun packet member => absurd member (fresh.answered packet)
      accepted := ?_
      sound := ?_ }
  · rw [view, fresh.ledger]
    rfl
  · rw [view, fresh.ledger]
    simp [Ledger.empty, newFloodMaster]
  · rw [view, fresh.ledger]
    rfl
  · rw [fresh.queued, fresh.ledger]
    rfl
  · rw [view]
    simp [newFloodMaster]
  · rw [fresh.accepted, fresh.ledger]
    rfl
  · rw [fresh.ledger]
    exact Ledger.empty_sound

/-- Tickets and batches keep their meaning. -/
structure Grows (eth : EthId) (before after : FloodLink) : Prop where
  items : ∀ ticket < before.ledger.next, after.item eth ticket = before.item eth ticket
  batches :
    ∀ number < before.ledger.batches.length,
      number < after.ledger.batches.length ∧
        after.ledger.batch number = before.ledger.batch number

namespace Grows

variable {eth peerEth : EthId} {before after : FloodLink}

/-- A list of issued tickets keeps its advertisements. -/
theorem map_item
    {tickets : List Nat}
    (grows : Grows eth before after)
    (issued : ∀ ticket ∈ tickets, ticket < before.ledger.next) :
    tickets.map (after.item eth) = tickets.map (before.item eth) :=
  List.map_congr_left fun ticket member => grows.items ticket (issued ticket member)

/-- A packet goes on carrying its batch. -/
theorem carries
    {packet : Flood}
    (grows : Grows eth before after)
    (sound : before.ledger.Sound)
    (carries : before.Carries eth packet) :
    after.Carries eth packet := by
  obtain ⟨number, sent, isNumber, lsas⟩ := carries.batch
  obtain ⟨stillSent, same⟩ := grows.batches number sent
  refine { carries with batch := ⟨number, stillSent, isNumber, ?_⟩ }
  rw [same, grows.map_item, lsas]
  intro ticket member
  exact sound.issued ticket
    (List.mem_append_left _ (Ledger.mem_flatten_of_batch sent member))

/-- The accepted advertisements stay those of the processed tickets. -/
theorem processed
    (grows : Grows eth before after)
    (invariant : before.Inv eth peerEth) :
    before.ledger.processed.map (after.item eth) =
      (before.peer.acceptedFrom peerEth).map some := by
  rw [grows.map_item, invariant.accepted]
  intro ticket member
  exact invariant.sound.issued ticket
    (List.mem_append_left _ (invariant.sound.delivered ticket member))

/-- The queue keeps its advertisements. -/
theorem queued
    (grows : Grows eth before after)
    (invariant : before.Inv eth peerEth) :
    before.ledger.queue.map (after.item eth) =
      (before.sender.floodView eth).queue.map some := by
  rw [grows.map_item, invariant.queue]
  intro ticket member
  exact invariant.sound.issued ticket (List.mem_append_right _ member)

/-- Nothing is queued and nothing is sent. -/
theorem of_same
    (queued : after.sender.queuedOn eth = before.sender.queuedOn eth)
    (batches : after.ledger.batches = before.ledger.batches) :
    Grows eth before after where
  items := by
    intro ticket _
    unfold item
    rw [queued]
  batches := by
    intro number sent
    unfold Ledger.batch
    rw [batches]
    exact ⟨sent, rfl⟩

end Grows

/-! ## The sender -/

/-- A master that takes no advertisements ignores them. -/
theorem floodAddFloodLsa_of_not_live
    {icm : Icm}
    {eth : EthId}
    (lsa : LinkStateAdv)
    (notLive : icm.live eth = false) :
    icm.floodAddFloodLsa lsa eth = icm := by
  unfold Icm.live at notLive
  unfold Icm.floodAddFloodLsa
  cases found : icm.floodMaster eth with
  | none =>
      rfl
  | some flood =>
      rw [found] at notLive
      dsimp only at notLive ⊢
      rw [if_pos (by simpa using notLive)]

/-- A live master puts an advertisement at the end of its queue. -/
theorem floodAddFloodLsa_view
    {icm : Icm}
    {eth : EthId}
    (lsa : LinkStateAdv)
    (live : icm.live eth = true) :
    (icm.floodAddFloodLsa lsa eth).floodView eth =
      { icm.floodView eth with
        queue := (icm.floodView eth).queue ++ [lsa]
        state := ((icm.floodAddFloodLsa lsa eth).floodView eth).state
        sndCtrl := ((icm.floodAddFloodLsa lsa eth).floodView eth).sndCtrl } ∧
      (((icm.floodAddFloodLsa lsa eth).floodView eth).state = .ackWaiting ↔
        (icm.floodView eth).state = .ackWaiting) := by
  unfold Icm.live at live
  unfold Icm.floodAddFloodLsa
  cases found : icm.floodMaster eth with
  | none =>
      rw [found] at live
      cases live
  | some flood =>
      rw [found] at live
      have running : flood.state ≠ .terminated := by simpa using live
      rw [floodView_of_some found]
      dsimp only
      rw [if_neg running]
      by_cases idle : flood.state = .ready
      · simp [idle]
      · simp [idle]

/-- `flood_send_lsa` sends the next batch and waits for its acknowledgement. -/
theorem floodSendLsa_spec
    {icm after : Icm}
    {eth : EthId}
    {id : ThreadId}
    (returned : (icm.fetch id).floodSendLsa eth = .ok after) :
    after.floodView eth =
        { icm.floodView eth with
          pkgNo := (icm.floodView eth).pkgNo + 1
          queue := (icm.floodView eth).queue.drop lsaCtPerPak
          sendbuf := some (floodBatch (icm.floodView eth))
          state := .ackWaiting
          ackCtrl := (after.floodView eth).ackCtrl
          sndCtrl := none } ∧
      (after.floodMaster eth).isSome ∧
      after.trace =
        icm.trace ++
          icm.sentCalls eth (some (.flood (floodBatch (icm.floodView eth)))) := by
  unfold Icm.floodSendLsa at returned
  obtain ⟨flood, allocated, rest⟩ := bind_eq_ok.mp returned
  have found := deref_eq_ok.mp allocated
  change icm.floodMaster eth = some flood at found
  cases rest
  rw [lsdSend_eq, floodView_of_some found]
  refine ⟨?_, ?_, rfl⟩
  · simp [floodView, setFlood]
  · simp [setFlood]

/-- `flood_ack_timeout` sends the batch again. -/
theorem floodAckTimeout_spec
    {icm after : Icm}
    {eth : EthId}
    {id : ThreadId}
    (returned : (icm.fetch id).floodAckTimeout eth = .ok after) :
    after.floodView eth =
        { icm.floodView eth with
          ackCtrl := (after.floodView eth).ackCtrl } ∧
      (after.floodMaster eth).isSome ∧
      after.trace =
        icm.trace ++
          icm.sentCalls eth ((icm.floodView eth).sendbuf.map .flood) := by
  unfold Icm.floodAckTimeout at returned
  obtain ⟨flood, allocated, rest⟩ := bind_eq_ok.mp returned
  have found := deref_eq_ok.mp allocated
  change icm.floodMaster eth = some flood at found
  cases rest
  rw [lsdSendBuf_eq, floodView_of_some found]
  refine ⟨?_, ?_, rfl⟩
  · simp [floodView, setFlood]
  · simp [setFlood]

/-- `flood_terminate` empties the queue and keeps the packet number. -/
theorem floodTerminate_spec
    {icm after : Icm}
    {eth : EthId}
    (returned : icm.floodTerminate eth = .ok after) :
    after.floodView eth =
        { icm.floodView eth with
          ackCtrl := none
          sndCtrl := none
          state := .terminated
          queue := [] } ∧
      (after.floodMaster eth).isSome ∧
      after.trace = icm.trace := by
  unfold Icm.floodTerminate at returned
  obtain ⟨flood, allocated, rest⟩ := bind_eq_ok.mp returned
  have found := deref_eq_ok.mp allocated
  cases rest
  rw [floodView_of_some found]
  refine ⟨?_, ?_, rfl⟩
  · simp
  · simp [setFlood]

/-- `flood_start` empties the queue and keeps the packet number. -/
theorem floodStart_spec
    {icm after : Icm}
    {eth : EthId}
    (returned : icm.floodStart eth = .ok after) :
    after.floodView eth =
        { icm.floodView eth with
          ackCtrl := none
          sndCtrl := none
          state := .ready
          queue := [] } ∧
      (after.floodMaster eth).isSome ∧
      after.trace = icm.trace := by
  unfold Icm.floodStart at returned
  obtain ⟨stopped, terminated, rest⟩ := bind_eq_ok.mp returned
  obtain ⟨view, -, trace⟩ := floodTerminate_spec terminated
  obtain ⟨flood, allocated, started⟩ := bind_eq_ok.mp rest
  have found := deref_eq_ok.mp allocated
  rw [floodView_of_some found] at view
  obtain ⟨-, -, finished⟩ := bind_eq_ok.mp started
  cases finished
  refine ⟨?_, ?_, trace⟩
  · rw [floodView_setFlood_self, view]
  · simp [setFlood]

/-- An acknowledgement changes at most the state and the timers. -/
theorem floodPktReceived_ack_spec
    {icm after : Icm}
    {eth : EthId}
    {packet : Flood}
    (isAck : packet.type = .ack)
    (returned : icm.floodPktReceived eth packet = .ok after) :
    after.floodView eth =
        { icm.floodView eth with
          state := (after.floodView eth).state
          ackCtrl := (after.floodView eth).ackCtrl
          sndCtrl := (after.floodView eth).sndCtrl } ∧
      (after.floodMaster eth).isSome ∧
      after.trace = icm.trace ∧
      ((after.floodView eth).state = .ackWaiting →
        (icm.floodView eth).state = .ackWaiting) ∧
      ((icm.floodView eth).state = .ackWaiting →
        (after.floodView eth).state ≠ .ackWaiting →
        packet.seq = (icm.floodView eth).pkgNo) := by
  unfold Icm.floodPktReceived at returned
  rw [isAck] at returned
  obtain ⟨flood, allocated, rest⟩ := bind_eq_ok.mp returned
  have found := deref_eq_ok.mp allocated
  rw [floodView_of_some found]
  dsimp only at rest
  split at rest
  · next matched =>
      split at rest
      · cases rest
        simp [setFlood, threadOff, floodView, matched]
      · cases rest
        simp [setFlood, threadOff, addTimer, floodView, matched]
  · cases rest
    rw [floodView_of_some found]
    refine ⟨rfl, by simp [found], rfl, id, ?_⟩
    intro waiting left
    exact absurd waiting left

/-- A batch is acknowledged, and its advertisements are accepted. -/
theorem floodPktReceived_lsa_spec
    {icm after : Icm}
    {eth : EthId}
    {packet : Flood}
    (isLsa : packet.type = .lsa)
    (counted : packet.size.toNat = packet.lsas.length)
    (short : packet.lsas.length ≤ lsaCtPerPak)
    (returned : icm.floodPktReceived eth packet = .ok after) :
    after.acceptedFrom eth = icm.acceptedFrom eth ++ packet.lsas ∧
      after.sentOn eth =
        icm.sentOn eth ++
          (icm.sentCalls eth (some (.flood
            { type := .ack, seq := packet.seq, size := 0, lsas := [] }))).filterMap
              (sentBy eth) := by
  unfold Icm.floodPktReceived at returned
  rw [isLsa] at returned
  dsimp only at returned
  have received := Received.acceptRecords returned
  have all : floodCount packet.size = packet.lsas.length := by
    unfold floodCount
    unfold lsaCtPerPak at short
    rw [if_pos (by omega), counted]
  rw [range_map_getD all] at received
  unfold Icm.floodSendAck at received
  rw [lsdSend_eq] at received
  refine ⟨?_, ?_⟩
  · rw [received.accepted]
    unfold acceptedFrom
    dsimp only
    rw [List.filterMap_append,
      filterMap_sentCalls (acceptedBy eth) fun _ _ => rfl, List.append_nil]
  · rw [received.sent]
    unfold sentOn
    dsimp only
    rw [List.filterMap_append]

/-- Sending queues nothing. -/
theorem queuedOn_of_sent
    {before after : Icm}
    {eth : EthId}
    {buffer : Option Body}
    (trace : after.trace = before.trace ++ before.sentCalls eth buffer) :
    after.queuedOn eth = before.queuedOn eth := by
  unfold queuedOn
  rw [trace, List.filterMap_append,
    filterMap_sentCalls (queuedBy eth) fun _ _ => rfl, List.append_nil]

/-- What a step queued that recorded nothing. -/
theorem queuedOn_of_trace
    {before after : Icm}
    {eth : EthId}
    (trace : after.trace = before.trace) :
    after.queuedOn eth = before.queuedOn eth := by
  unfold queuedOn
  rw [trace]

/-- What a step sent that recorded nothing. -/
theorem sentOn_of_trace
    {before after : Icm}
    {eth : EthId}
    (trace : after.trace = before.trace) :
    after.sentOn eth = before.sentOn eth := by
  unfold sentOn
  rw [trace]

/-- What is sent after a send was sent before or is the buffer. -/
theorem mem_sentOn_of_sent
    {before after : Icm}
    {eth other : EthId}
    {buffer : Option Body}
    {body : Body}
    (trace : after.trace = before.trace ++ before.sentCalls eth buffer)
    (member : body ∈ after.sentOn other) :
    body ∈ before.sentOn other ∨ buffer = some body := by
  unfold sentOn at member ⊢
  rw [trace, List.filterMap_append, List.mem_append] at member
  exact member.imp_right mem_sentOn_of_sentCalls

/-! ## The invariant, step by step -/

section Steps

variable {eth peerEth : EthId} {link : FloodLink}

/-- `flood_add_flood_lsa`. -/
theorem Inv.add
    (invariant : link.Inv eth peerEth)
    (lsa : LinkStateAdv) :
    Inv eth peerEth
      { link with
        sender := link.sender.floodAddFloodLsa lsa eth
        ledger :=
          if link.sender.live eth then link.ledger.accept else link.ledger } := by
  cases live : link.sender.live eth with
  | false =>
      rw [floodAddFloodLsa_of_not_live lsa live]
      exact invariant
  | true =>
      have effect := Effect.floodAddFloodLsa link.sender lsa eth
      obtain ⟨view, waits⟩ := floodAddFloodLsa_view lsa live
      have queued :
          (link.sender.floodAddFloodLsa lsa eth).queuedOn eth =
            link.sender.queuedOn eth ++ [lsa] := by
        unfold queuedOn
        rw [effect.trace, List.filterMap_append, queuedBy_queuedCalls]
        simp [live]
      have sent :
          (link.sender.floodAddFloodLsa lsa eth).sentOn eth =
            link.sender.sentOn eth := by
        unfold sentOn
        rw [effect.trace, List.filterMap_append,
          filterMap_queuedCalls (sentBy eth) fun _ _ => rfl, List.append_nil]
      rw [if_pos rfl]
      have grows :
          Grows eth link
            { link with
              sender := link.sender.floodAddFloodLsa lsa eth
              ledger := link.ledger.accept } := by
        refine
          { items := ?_
            batches := fun number inside => ⟨inside, rfl⟩ }
        intro ticket issued
        unfold item
        dsimp only
        rw [queued]
        apply List.getElem?_append_left
        rw [← invariant.next]
        exact issued
      refine
        { flooding := effect.flooding invariant.flooding
          allocated := (effect.allocated eth).trans invariant.allocated
          number := ?_
          awaiting := ?_
          queue := ?_
          next := ?_
          buffer := ?_
          wire := ?_
          answers := invariant.answers
          accepted := (grows.processed invariant).symm
          sound := invariant.sound.accept }
      · dsimp only
        rw [view]
        exact invariant.number
      · dsimp only
        rw [waits]
        exact invariant.awaiting
      · have old := grows.queued invariant
        dsimp only at old ⊢
        have longer :
            link.ledger.accept.queue = link.ledger.queue ++ [link.ledger.next] :=
          rfl
        rw [view, longer, List.map_append, List.map_append, old]
        congr 1
        simp [item, queued, invariant.next]
      · dsimp only
        rw [queued, List.length_append, ← invariant.next]
        rfl
      · intro packet isBuffer
        dsimp only at isBuffer
        rw [view] at isBuffer
        exact grows.carries invariant.sound (invariant.buffer packet isBuffer)
      · intro packet member
        dsimp only at member
        rw [sent] at member
        exact grows.carries invariant.sound (invariant.wire packet member)

/-- The batch `flood_send_lsa` sends. -/
theorem Inv.carries_floodBatch
    (invariant : link.Inv eth peerEth)
    (few : link.ledger.batches.length + 1 < 2 ^ 32)
    {sender : Icm}
    (queued : sender.queuedOn eth = link.sender.queuedOn eth) :
    Carries eth
      { link with sender := sender, ledger := link.ledger.send lsaCtPerPak }
      (floodBatch (link.sender.floodView eth)) := by
  have short :
      ((link.sender.floodView eth).queue.take lsaCtPerPak).length ≤
        lsaCtPerPak :=
    List.length_take_le _ _
  refine
    { type := rfl
      counted := ?_
      short := short
      batch := ⟨link.ledger.batches.length, ?_, ?_, ?_⟩ }
  · unfold floodBatch lsaCtPerPak at *
    dsimp only
    rw [UInt32.toNat_ofNat']
    exact Nat.mod_eq_of_lt (by omega)
  · simp [Ledger.send]
  · unfold floodBatch
    dsimp only
    rw [UInt32.toNat_add, invariant.number]
    exact Nat.mod_eq_of_lt few
  · have same :
        item eth
            { link with
              sender := sender
              ledger := link.ledger.send lsaCtPerPak } =
          item eth link := by
      funext ticket
      unfold item
      rw [queued]
    rw [same]
    unfold floodBatch
    simp [Ledger.send, Ledger.batch, List.map_take, invariant.queue]

/-- `flood_send_lsa`. -/
theorem Inv.send
    (invariant : link.Inv eth peerEth)
    (few : link.ledger.batches.length + 1 < 2 ^ 32)
    {id : ThreadId}
    {sender : Icm}
    (isPending :
      id ∈ link.sender.master.pendingOf .floodSendLsa (.backbone eth))
    (returned : (link.sender.fetch id).floodSendLsa eth = .ok sender) :
    Inv eth peerEth
      { link with
        sender := sender
        ledger := link.ledger.send lsaCtPerPak } := by
  obtain ⟨view, allocated, trace⟩ := floodSendLsa_spec returned
  have busy := invariant.flooding.busy isPending
  have idle : link.ledger.awaiting = false := by
    rw [Bool.eq_false_iff]
    intro awaiting
    have waiting := invariant.awaiting.mp awaiting
    rw [busy] at waiting
    cases waiting
  have queued := queuedOn_of_sent trace
  have grows :
      Grows eth link
        { link with
          sender := sender
          ledger := link.ledger.send lsaCtPerPak } := by
    refine
      { items := ?_
        batches := ?_ }
    · intro ticket _
      unfold item
      rw [queued]
    · intro number sent
      refine ⟨?_, Ledger.batch_send lsaCtPerPak sent⟩
      simp only [Ledger.send, List.length_append, List.length_singleton]
      omega
  have carries := invariant.carries_floodBatch few queued
  refine
    { flooding :=
        ((yields_floodSendLsa invariant.flooding isPending).of_ok returned).2
      allocated := allocated
      number := ?_
      awaiting := ?_
      queue := ?_
      next := ?_
      buffer := ?_
      wire := ?_
      answers := invariant.answers
      accepted := (grows.processed invariant).symm
      sound := invariant.sound.send lsaCtPerPak idle }
  · dsimp only
    rw [view]
    dsimp only
    rw [UInt32.toNat_add, invariant.number]
    simp only [Ledger.send, List.length_append, List.length_singleton]
    exact Nat.mod_eq_of_lt few
  · dsimp only
    rw [view]
    simp [Ledger.send]
  · have old := grows.queued invariant
    dsimp only at old ⊢
    rw [view]
    simp only [Ledger.send, List.map_drop]
    rw [← old]
    rfl
  · dsimp only
    rw [queued]
    exact invariant.next
  · intro packet isBuffer
    dsimp only at isBuffer
    rw [view] at isBuffer
    cases isBuffer
    exact carries
  · intro packet member
    rcases mem_sentOn_of_sent trace member with old | isBatch
    · exact grows.carries invariant.sound (invariant.wire packet old)
    · cases isBatch
      exact carries

/--
The sender goes on with the tickets and the batches it has: it repeats at most
what is in its buffer, and only its queue and its waiting change.
-/
theorem Inv.resumed
    (invariant : link.Inv eth peerEth)
    {sender : Icm}
    (ledger : Ledger)
    (flooding : sender.FloodInv)
    (allocated : (sender.floodMaster eth).isSome)
    (pkgNo :
      (sender.floodView eth).pkgNo = (link.sender.floodView eth).pkgNo)
    (sendbuf :
      (sender.floodView eth).sendbuf = (link.sender.floodView eth).sendbuf)
    (queued : sender.queuedOn eth = link.sender.queuedOn eth)
    (sent :
      ∀ body ∈ sender.sentOn eth,
        body ∈ link.sender.sentOn eth ∨
          (link.sender.floodView eth).sendbuf.map .flood = some body)
    (next : ledger.next = link.ledger.next)
    (batches : ledger.batches = link.ledger.batches)
    (acked : ledger.acked = link.ledger.acked)
    (processed : ledger.processed = link.ledger.processed)
    (queue :
      (sender.floodView eth).queue.map some =
        ledger.queue.map (link.item eth))
    (awaiting :
      ledger.awaiting = true ↔ (sender.floodView eth).state = .ackWaiting)
    (sound : ledger.Sound) :
    Inv eth peerEth { link with sender := sender, ledger := ledger } := by
  have sameItem :
      item eth { link with sender := sender, ledger := ledger } =
        link.item eth := by
    funext ticket
    unfold item
    rw [queued]
  have grows :
      Grows eth link { link with sender := sender, ledger := ledger } :=
    Grows.of_same queued batches
  refine
    { flooding := flooding
      allocated := allocated
      number := ?_
      awaiting := awaiting
      queue := ?_
      next := ?_
      buffer := ?_
      wire := ?_
      answers := ?_
      accepted := ?_
      sound := sound }
  · dsimp only
    rw [pkgNo, batches]
    exact invariant.number
  · rw [sameItem]
    exact queue
  · dsimp only
    rw [queued, next]
    exact invariant.next
  · intro packet isBuffer
    dsimp only at isBuffer
    rw [sendbuf] at isBuffer
    exact grows.carries invariant.sound (invariant.buffer packet isBuffer)
  · intro packet member
    rcases sent _ member with old | isBuffer
    · exact grows.carries invariant.sound (invariant.wire packet old)
    · obtain ⟨buffered, held, isPacket⟩ := Option.map_eq_some_iff.mp isBuffer
      cases isPacket
      exact grows.carries invariant.sound (invariant.buffer _ held)
  · dsimp only
    rw [acked]
    exact invariant.answers
  · rw [sameItem]
    dsimp only
    rw [processed]
    exact invariant.accepted

/-- `flood_ack_timeout`. -/
theorem Inv.timeout
    (invariant : link.Inv eth peerEth)
    {id : ThreadId}
    {sender : Icm}
    (isPending :
      id ∈ link.sender.master.pendingOf .floodAckTimeout (.backbone eth))
    (returned : (link.sender.fetch id).floodAckTimeout eth = .ok sender) :
    Inv eth peerEth { link with sender := sender } := by
  obtain ⟨view, allocated, trace⟩ := floodAckTimeout_spec returned
  have flooding :=
    ((yields_floodAckTimeout invariant.flooding isPending).of_ok returned).2
  refine invariant.resumed _ flooding allocated (by rw [view]) (by rw [view])
    (queuedOn_of_sent trace) (fun _ => mem_sentOn_of_sent trace) rfl rfl rfl rfl
    ?_ ?_ invariant.sound
  · rw [view]
    exact invariant.queue
  · rw [view]
    exact invariant.awaiting

/-- `flood_terminate` and `flood_start`, by what both leave behind. -/
theorem Inv.giveUp
    (invariant : link.Inv eth peerEth)
    {sender : Icm}
    (flooding : sender.FloodInv)
    (allocated : (sender.floodMaster eth).isSome)
    (number :
      (sender.floodView eth).pkgNo = (link.sender.floodView eth).pkgNo)
    (buffer :
      (sender.floodView eth).sendbuf = (link.sender.floodView eth).sendbuf)
    (emptied : (sender.floodView eth).queue = [])
    (stopped : (sender.floodView eth).state ≠ .ackWaiting)
    (trace : sender.trace = link.sender.trace) :
    Inv eth peerEth
      { link with sender := sender, ledger := link.ledger.giveUp } := by
  refine invariant.resumed _ flooding allocated number buffer
    (queuedOn_of_trace trace)
    (fun _ member => .inl (sentOn_of_trace trace ▸ member))
    rfl rfl rfl rfl ?_ ?_ invariant.sound.giveUp
  · rw [emptied]
    rfl
  · simp [Ledger.giveUp, stopped]

/-- The peer receives a batch. -/
theorem Inv.toPeer
    (invariant : link.Inv eth peerEth)
    {packet : Flood}
    {peer : Icm}
    (sent : .flood packet ∈ link.sender.sentOn eth)
    (returned : link.peer.floodPktReceived peerEth packet = .ok peer) :
    Inv eth peerEth
      { link with
        peer := peer
        ledger := link.ledger.deliver (packet.seq.toNat - 1) } := by
  have carries := invariant.wire packet sent
  obtain ⟨number, numbered, isNumber, lsas⟩ := carries.batch
  obtain ⟨accepted, answered⟩ :=
    floodPktReceived_lsa_spec carries.type carries.counted carries.short returned
  have isBatch : packet.seq.toNat - 1 = number := by omega
  rw [isBatch]
  have grows :
      Grows eth link
        { link with peer := peer, ledger := link.ledger.deliver number } :=
    Grows.of_same rfl rfl
  refine
    { flooding := invariant.flooding
      allocated := invariant.allocated
      number := invariant.number
      awaiting := invariant.awaiting
      queue := (grows.queued invariant).symm
      next := invariant.next
      buffer := fun buffered held =>
        grows.carries invariant.sound (invariant.buffer buffered held)
      wire := fun other member =>
        grows.carries invariant.sound (invariant.wire other member)
      answers := ?_
      accepted := ?_
      sound := invariant.sound.deliver numbered }
  · intro answer member
    dsimp only at member
    rw [answered, List.mem_append] at member
    rcases member with old | isNew
    · obtain ⟨isAck, acked, held, named⟩ := invariant.answers answer old
      exact ⟨isAck, acked, List.mem_append_left _ held, named⟩
    · cases mem_sentOn_of_sentCalls isNew
      exact ⟨rfl, number, List.mem_append_right _ List.mem_cons_self, isNumber⟩
  · dsimp only
    rw [accepted, List.map_append, lsas, invariant.accepted, ← List.map_append]
    rfl

/-- The acknowledged batch is the last one, and the peer processed it. -/
theorem Inv.acknowledged
    (invariant : link.Inv eth peerEth)
    {packet : Flood}
    (answered : .flood packet ∈ link.peer.sentOn peerEth)
    (current : packet.seq = (link.sender.floodView eth).pkgNo) :
    link.ledger.batches.length - 1 ∈ link.ledger.acked := by
  obtain ⟨-, number, acked, isNumber⟩ := invariant.answers packet answered
  have isLast : link.ledger.batches.length = number + 1 := by
    rw [← isNumber, current]
    exact invariant.number.symm
  rw [isLast]
  exact acked

/-- The sender receives a packet of the peer. -/
theorem Inv.toSender
    (invariant : link.Inv eth peerEth)
    {packet : Flood}
    {sender : Icm}
    (answered : .flood packet ∈ link.peer.sentOn peerEth)
    (returned : link.sender.floodPktReceived eth packet = .ok sender) :
    Inv eth peerEth
      { link with
        sender := sender
        ledger :=
          if (sender.floodView eth).state = .ackWaiting then link.ledger
          else link.ledger.acknowledge } := by
  obtain ⟨isAck, -⟩ := invariant.answers packet answered
  obtain ⟨view, allocated, trace, stays, leaves⟩ :=
    floodPktReceived_ack_spec isAck returned
  have flooding :=
    ((yields_floodPktReceived invariant.flooding eth packet).of_ok returned).2
  have queue :
      (sender.floodView eth).queue.map some =
        link.ledger.queue.map (link.item eth) := by
    rw [view]
    exact invariant.queue
  have resumed :=
    fun ledger =>
      invariant.resumed ledger flooding allocated (by rw [view])
        (by rw [view]) (queuedOn_of_trace trace)
        (fun _ member => .inl (sentOn_of_trace trace ▸ member))
  by_cases waiting : (sender.floodView eth).state = .ackWaiting
  · rw [if_pos waiting]
    exact resumed _ rfl rfl rfl rfl queue
      ⟨fun _ => waiting, fun _ => invariant.awaiting.mpr (stays waiting)⟩
      invariant.sound
  · rw [if_neg waiting]
    refine resumed _ rfl rfl rfl rfl queue ?_ ?_
    · simp [Ledger.acknowledge, waiting]
    · by_cases before : (link.sender.floodView eth).state = .ackWaiting
      · exact invariant.sound.acknowledge
          (invariant.acknowledged answered (leaves before waiting))
      · have idle : link.ledger.awaiting = false := by
          rw [Bool.eq_false_iff]
          exact fun awaiting => before (invariant.awaiting.mp awaiting)
        have same : link.ledger.acknowledge = link.ledger := by
          unfold Ledger.acknowledge
          rw [← idle]
        rw [same]
        exact invariant.sound

/-- One step of the link keeps the invariant. -/
theorem Inv.step
    {op : Op}
    {after : FloodLink}
    (invariant : link.Inv eth peerEth)
    (stepped : guarded Few (Step eth peerEth) link op after) :
    after.Inv eth peerEth := by
  obtain ⟨few, step⟩ := stepped
  cases op with
  | add lsa =>
      cases step
      exact invariant.add lsa
  | send id =>
      obtain ⟨isPending, sender, returned, rfl⟩ := step
      exact invariant.send few isPending returned
  | timeout id =>
      obtain ⟨isPending, sender, returned, rfl⟩ := step
      exact invariant.timeout isPending returned
  | start =>
      obtain ⟨sender, returned, rfl⟩ := step
      obtain ⟨view, allocated, trace⟩ := floodStart_spec returned
      have flooding :=
        ((yields_floodStart invariant.flooding eth).of_ok returned).2
      exact invariant.giveUp flooding allocated (by rw [view]) (by rw [view])
        (by rw [view]) (by rw [view]; simp) trace
  | terminate =>
      obtain ⟨sender, returned, rfl⟩ := step
      obtain ⟨view, allocated, trace⟩ := floodTerminate_spec returned
      have flooding :=
        ((yields_floodTerminate invariant.flooding eth).of_ok returned).2.1
      exact invariant.giveUp flooding allocated (by rw [view]) (by rw [view])
        (by rw [view]) (by rw [view]; simp) trace
  | toPeer packet =>
      obtain ⟨sent, peer, returned, rfl⟩ := step
      exact invariant.toPeer sent returned
  | toSender packet =>
      obtain ⟨answered, sender, returned, rfl⟩ := step
      exact invariant.toSender answered returned

end Steps

end FloodLink

end Pma
