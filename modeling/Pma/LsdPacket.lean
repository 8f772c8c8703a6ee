import Pma.LsdHarmless

namespace Pma

open Transition

/-!
# The bytes of a datagram

`lsd_receive` clears its buffer, lets `recvmsg` write the datagram to the front
of it and casts the buffer to the packet structures.  How many bytes arrived is
not passed on: `flood_pkt_received` and `link_lsa_received` take the number of
records from the packet.  The module reads the structures off the bytes and
says when a receiver stays inside what arrived.
-/

/-- The records behind the head of a packet. -/
def Body.lsas : Body → List LinkStateAdv
  | .flood packet => packet.lsas
  | .exchange packet => packet.lsas
  | _ => []

/-- `MAX_MESSAGE_LEN`. -/
def maxMessageLen : Nat := 2048

/-- `recvbuf` after `recvmsg` wrote a datagram into it. -/
structure Recvbuf where
  received : List UInt8
  fits : received.length ≤ maxMessageLen

namespace Recvbuf

/-- The byte at an offset; what `recvmsg` did not write is still cleared. -/
def u8At (buf : Recvbuf) (offset : Nat) : UInt8 :=
  buf.received.getD offset 0

/-- A `u16` in the byte order of the host, which is little-endian. -/
def u16At (buf : Recvbuf) (offset : Nat) : UInt16 :=
  UInt16.ofNat
    ((buf.u8At offset).toNat + (buf.u8At (offset + 1)).toNat * 2 ^ 8)

/-- A `u32` in the byte order of the host. -/
def u32At (buf : Recvbuf) (offset : Nat) : UInt32 :=
  UInt32.ofNat
    ((buf.u16At offset).toNat + (buf.u16At (offset + 2)).toNat * 2 ^ 16)

/-- `struct link_state_key`. -/
def keyAt (buf : Recvbuf) (offset : Nat) : LinkStateKey where
  rtId := buf.u32At offset
  ifId := buf.u32At (offset + 4)
  nRtId := buf.u32At (offset + 8)
  nIfId := buf.u32At (offset + 12)

/-- `struct link_state_adv`, with three bytes of padding behind its state. -/
def advAt (buf : Recvbuf) (offset : Nat) : LinkStateAdv where
  key := buf.keyAt offset
  addr := buf.u32At (offset + 16)
  metric := buf.u32At (offset + 20)
  state := buf.u8At (offset + 24)
  seq := buf.u32At (offset + 28)

/-- The records behind a packet head, as far as the buffer reaches. -/
def lsasAt (buf : Recvbuf) (offset : Nat) : List LinkStateAdv :=
  (List.range recvbufRecords).map fun index =>
    buf.advAt (offset + index * sizeofAdv)

/-- `sizeof(struct exchange)`. -/
def sizeofExchange : Nat := 28

/-- `sizeof(struct flood)`, with three bytes of padding behind its type. -/
def sizeofFlood : Nat := 32

/-- The type of an exchange packet. -/
def exchangeType : UInt8 → ExchangePkgType
  | 0 => .linksState
  | 2 => .noData
  | 3 => .ack
  | _ => .other

/-- The type of a flood packet. -/
def floodType : UInt8 → FloodPkgType
  | 0 => .lsa
  | 1 => .ack
  | _ => .other

/-- `struct lsd_head`. -/
def head (buf : Recvbuf) : LsdHead where
  version := buf.u8At 1
  pklen := buf.u16At 2
  rId := buf.u32At 4
  areaId := buf.u32At 8
  ifId := buf.u32At 12
  icsum := buf.u32At 16

/-- The structure the handler of the packet type casts the buffer to. -/
def body (buf : Recvbuf) : Body :=
  match buf.u8At 0 with
  | 1 => .helloHigh (buf.u32At 20) (buf.u32At 24)
  | 2 => .helloLow (buf.u32At 20) (buf.u32At 24)
  | 3 => .exchange
      { type := exchangeType (buf.u8At 20)
        more := buf.u8At 21 ≠ 0
        length := buf.u16At 22
        seq := buf.u32At 24
        lsas := buf.lsasAt sizeofExchange }
  | 4 => .flood
      { type := floodType (buf.u8At 20)
        seq := buf.u32At 24
        size := buf.u32At 28
        lsas := buf.lsasAt sizeofFlood }
  | _ => .other

/-- The datagram in the buffer. -/
def datagram (buf : Recvbuf) : Datagram where
  head := buf.head
  body := buf.body

/-- The size of the structure in front of the records. -/
def headSize (buf : Recvbuf) : Nat :=
  match buf.body with
  | .exchange _ => sizeofExchange
  | _ => sizeofFlood

/-- How many whole records arrived behind the head. -/
def wholeRecords (buf : Recvbuf) : Nat :=
  (buf.received.length - buf.headSize) / sizeofAdv

/-- What arrived fits in the buffer, and so do its records. -/
theorem wholeRecords_le
    (buf : Recvbuf) :
    buf.wholeRecords ≤ recvbufRecords := by
  have fits := buf.fits
  have headed : sizeofExchange ≤ buf.headSize := by
    unfold headSize
    split <;> simp [sizeofExchange, sizeofFlood]
  unfold maxMessageLen at fits
  unfold sizeofExchange at headed
  unfold wholeRecords sizeofAdv recvbufRecords
  omega

end Recvbuf

namespace Icm

/-! ## Records read -/

/-- One record of a packet: it is read, then passed to `accept_lsa_into_lsdb`. -/
def acceptRecord (eth : EthId) (lsas : List LinkStateAdv) (icm : Icm) (index : Nat) :
    Except Fault Icm := do
  let lsa ← recordAt lsas index
  icm.acceptLsaIntoLsdb eth lsa

/-- How many of `count` records are read before the loop ends or stops the daemon. -/
def readsOf
    (icm : Icm) (eth : EthId) (lsas : List LinkStateAdv) (count : Nat) : Nat :=
  iterations (acceptRecord eth lsas) icm (List.range count)

/-- A loop that returns accepted every record it read. -/
theorem readsOf_accepted
    {icm after : Icm}
    {eth : EthId}
    {lsas : List LinkStateAdv}
    {count : Nat}
    (returned : icm.acceptRecords eth lsas count = .ok after) :
    (after.acceptedFrom eth).length =
      (icm.acceptedFrom eth).length + icm.readsOf eth lsas count := by
  have counted : icm.readsOf eth lsas count = (List.range count).length :=
    iterations_of_ok returned
  rw [(Received.acceptRecords returned).accepted, counted]
  simp

/-- The records `flood_pkt_received` reads. -/
def floodReads (icm : Icm) (eth : EthId) (packet : Flood) : Nat :=
  match packet.type with
  | .lsa =>
      (icm.floodSendAck eth packet).readsOf eth packet.lsas
        (floodCount packet.size)
  | _ => 0

/-- The records `link_lsa_received` reads when `exchange_pkt_received` calls it. -/
def exchangeReads (icm : Icm) (eth : EthId) (packet : Exchange) : Nat :=
  match icm.exchangeMaster eth with
  | none => 0
  | some exchange =>
      if rcvWakeUp exchange.rcvState = .waiting ∧ packet.type = .linksState then
        (icm.setExchange eth
          { exchange with rcvState := rcvWakeUp exchange.rcvState }).readsOf
          eth packet.lsas packet.length.toNat
      else
        0

/-- The records the receivers read from a datagram. -/
def recordsRead (icm : Icm) (eth : EthId) (datagram : Datagram) : Nat :=
  match datagram.body with
  | .flood packet => icm.floodReads eth packet
  | .exchange packet => icm.exchangeReads eth packet
  | _ => 0

/-- The number of records a datagram announces to the receiver that takes it. -/
def announced (icm : Icm) (eth : EthId) (datagram : Datagram) : Nat :=
  match datagram.body with
  | .flood packet =>
      if packet.type = .lsa then floodCount packet.size else 0
  | .exchange packet =>
      match icm.exchangeMaster eth with
      | none => 0
      | some exchange =>
          if exchange.rcvState ≠ .ended ∧ packet.type = .linksState then
            packet.length.toNat
          else
            0
  | _ => 0

/-- The records the receivers read from the datagram in the buffer of `lsd_receive`. -/
def lsdReceiveReads (icm : Icm) (buf : Recvbuf) : Nat :=
  match icm.receivingEth buf.datagram with
  | none => 0
  | some eth => icm.recordsRead eth buf.datagram

/-- What `flood_pkt_received` reads is what it accepts. -/
theorem floodReads_accepted
    {icm after : Icm}
    {eth : EthId}
    {packet : Flood}
    (isLsa : packet.type = .lsa)
    (returned : icm.floodPktReceived eth packet = .ok after) :
    (after.acceptedFrom eth).length =
      (icm.acceptedFrom eth).length + icm.floodReads eth packet := by
  have answered :
      (icm.floodSendAck eth packet).acceptedFrom eth = icm.acceptedFrom eth := by
    unfold floodSendAck
    rw [lsdSend_eq]
    unfold acceptedFrom
    dsimp only
    rw [List.filterMap_append,
      filterMap_sentCalls (acceptedBy eth) fun _ _ => rfl, List.append_nil]
  unfold floodPktReceived at returned
  unfold floodReads
  rw [isLsa] at returned ⊢
  rw [readsOf_accepted returned, answered]

/-- What `exchange_pkt_received` reads is what it accepts. -/
theorem exchangeReads_accepted
    {icm after : Icm}
    {eth : EthId}
    {packet : Exchange}
    (isLinks : packet.type = .linksState)
    (returned : icm.exchangePktReceived eth packet = .ok after) :
    (after.acceptedFrom eth).length =
      (icm.acceptedFrom eth).length + icm.exchangeReads eth packet := by
  unfold exchangePktReceived at returned
  obtain ⟨-, -, returned⟩ := bind_eq_ok.mp returned
  obtain ⟨exchange, found, returned⟩ := bind_eq_ok.mp returned
  rw [if_neg (by rw [isLinks]; simp)] at returned
  unfold exchangeReads
  rw [deref_eq_ok.mp found]
  dsimp only at returned ⊢
  split at returned
  · next taken =>
      rw [if_pos taken]
      obtain ⟨received, accepted, returned⟩ := bind_eq_ok.mp returned
      obtain ⟨current, -, returned⟩ := bind_eq_ok.mp returned
      cases returned
      have answered :
          (received.exchangeSendAck eth packet).acceptedFrom eth =
            received.acceptedFrom eth := by
        unfold exchangeSendAck
        rw [lsdSend_eq]
        unfold acceptedFrom
        dsimp only
        rw [List.filterMap_append,
          filterMap_sentCalls (acceptedBy eth) fun _ _ => rfl, List.append_nil]
      change ((received.exchangeSendAck eth packet).acceptedFrom eth).length = _
      rw [answered, readsOf_accepted accepted]
      rfl
  · next dropped =>
      rw [if_neg dropped]
      cases returned
      rfl

/-! ## Staying inside the datagram -/

/--
A receiver reads at most as many records as arrived when there are no more, or
when one of those that arrived stops the daemon.
-/
theorem readsOf_le_iff
    {icm : Icm}
    {eth : EthId}
    {lsas : List LinkStateAdv}
    {count whole : Nat}
    (inside : whole ≤ recvbufRecords) :
    icm.readsOf eth lsas count ≤ whole ↔
      count ≤ whole ∨ ¬icm.RecordsNamed eth lsas whole := by
  unfold readsOf
  rw [iterations_le_iff, List.length_range, List.take_range]
  by_cases short : count ≤ whole
  · exact iff_of_true (.inl short) (.inl short)
  · rw [or_iff_right short, or_iff_right short,
      Nat.min_eq_left (Nat.le_of_not_le short)]
    change (∃ fault, icm.acceptRecords eth lsas whole = .error fault) ↔ _
    constructor
    · rintro ⟨fault, stopped⟩ named
      obtain ⟨-, past⟩ := (yields_namedRecords named).of_error stopped
      exact absurd past (Nat.not_lt_of_le inside)
    · intro unnamed
      obtain ⟨site, stopped⟩ := acceptRecords_aborts unnamed
      exact ⟨_, stopped⟩

/--
The receivers stay inside the datagram exactly when it announces no more
records than arrived whole, or when one of those stops the daemon.
-/
theorem records_inside_datagram_iff
    {icm : Icm}
    {eth : EthId}
    {buf : Recvbuf}
    (dispatched : icm.receivingEth buf.datagram = some eth) :
    icm.lsdReceiveReads buf ≤ buf.wholeRecords ↔
      icm.announced eth buf.datagram ≤ buf.wholeRecords ∨
        ¬icm.RecordsNamed eth buf.body.lsas buf.wholeRecords := by
  have inside := buf.wholeRecords_le
  generalize buf.wholeRecords = whole at inside ⊢
  unfold lsdReceiveReads
  rw [dispatched]
  unfold recordsRead announced
  change (match buf.body with | .flood _ => _ | .exchange _ => _ | _ => _) ≤ whole ↔
    (match buf.body with | .flood _ => _ | .exchange _ => _ | _ => _) ≤ whole ∨ _
  have nothing : (0 : Nat) ≤ whole := Nat.zero_le whole
  cases buf.body with
  | helloHigh hello dead =>
      exact iff_of_true nothing (.inl nothing)
  | helloLow hello dead =>
      exact iff_of_true nothing (.inl nothing)
  | other =>
      exact iff_of_true nothing (.inl nothing)
  | flood packet =>
      have router : (icm.floodSendAck eth packet).router = icm.router := by
        unfold floodSendAck
        rw [lsdSend_eq]
      dsimp only
      unfold floodReads
      cases packet.type with
      | lsa =>
          dsimp only
          rw [readsOf_le_iff inside, RecordsNamed.congr router, if_pos rfl]
          rfl
      | ack =>
          exact iff_of_true nothing (.inl nothing)
      | other =>
          exact iff_of_true nothing (.inl nothing)
  | exchange packet =>
      dsimp only
      unfold exchangeReads
      cases icm.exchangeMaster eth with
      | none =>
          exact iff_of_true nothing (.inl nothing)
      | some exchange =>
          dsimp only
          have awake :
              rcvWakeUp exchange.rcvState = .waiting ↔
                exchange.rcvState ≠ .ended := by
            cases exchange.rcvState <;> simp [rcvWakeUp]
          by_cases taken :
              exchange.rcvState ≠ .ended ∧ packet.type = .linksState
          · rw [if_pos taken, if_pos ⟨awake.mpr taken.1, taken.2⟩,
              readsOf_le_iff inside]
            rfl
          · rw [if_neg taken, if_neg fun both => taken ⟨awake.mp both.1, both.2⟩]
            exact iff_of_true nothing (.inl nothing)

/-- A flood packet of router 1 up to the first field of its only record. -/
def floodBytes : List UInt8 :=
  [4, 2, 36, 0, 1, 0, 0, 0, 0, 0, 0, 0, 7, 0, 0, 0, 0x45, 0x23, 1, 0] ++
    [0, 0, 0, 0, 1, 0, 0, 0, 1, 0, 0, 0] ++
    [30, 0, 0, 0]

/-- The packet with a number of further bytes, all of them zero. -/
def floodBuf (more : Fin 2000) : Recvbuf where
  received := floodBytes ++ List.replicate more 0
  fits := by
    have bounded := more.isLt
    simp only [floodBytes, List.length_append, List.length_cons,
      List.length_nil, List.length_replicate, maxMessageLen]
    omega

/-- The packet with its whole record. -/
theorem floodBuf_whole :
    (mirroring (oneLinkTable 20 2 1)).lsdReceiveReads
        (floodBuf 28) ≤
      (floodBuf 28).wholeRecords := by
  have dispatched :
      (mirroring (oneLinkTable 20 2 1)).receivingEth
        (floodBuf 28).datagram = some 0 := by
    decide
  exact (records_inside_datagram_iff dispatched).mpr (.inl (by decide))

/--
The packet with the first four bytes of its record: the record is read and
accepted, and the fields that did not arrive are taken to be zero.
-/
theorem floodBuf_cut_off :
    ∃ icm after,
      Run (ofPartial step) (unmirrored (oneLinkTable 20 2 1))
          [.interfaces (oneLinkTable 20 2 1)] icm ∧
        icm.receivingEth (floodBuf 0).datagram = some 0 ∧
        (floodBuf 0).wholeRecords = 0 ∧
        icm.lsdReceiveReads (floodBuf 0) = 1 ∧
        icm.lsdReceive (floodBuf 0).datagram = .ok after ∧
        after.acceptedFrom 0 = [{ zeroAdv with key := ⟨30, 0, 0, 0⟩ }] := by
  have received :
      ∃ after,
        (mirroring (oneLinkTable 20 2 1)).lsdReceive
            (floodBuf 0).datagram = .ok after ∧
          after.acceptedFrom 0 = [{ zeroAdv with key := ⟨30, 0, 0, 0⟩ }] :=
    ⟨_, rfl, by decide⟩
  obtain ⟨after, returned, accepted⟩ := received
  exact ⟨mirroring (oneLinkTable 20 2 1), after, .cons rfl (.nil _),
    by decide, by decide, by decide, returned, accepted⟩

end Icm

end Pma
