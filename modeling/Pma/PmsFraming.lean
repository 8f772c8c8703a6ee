import Pma.Bytes

namespace Pma

open Bytes

/-!
# Packets between agents and the management server

A packet is built backwards, from the end of a buffer, and is read in two
stages: whatever the first `recv` returns is taken for the start of the packet,
and the length in it says how much is still to come.  A connection is the list
of the results that `recv` has to offer; it is closed behind the last one.
-/

/-- `sizeof(struct common_header)`. -/
def commonHeaderSize : Nat := 8

/-- `sizeof(struct pma_pms_header)`. -/
def pmaPmsHeaderSize : Nat := 20

/-- `MAX_PACKET_HEADER_SIZE`. -/
def maxPacketHeaderSize : Nat := pmaPmsHeaderSize + 10

/-- `MAXBUF` of the exterior daemon. -/
def exteriorMaxBuf : Nat := 1024 * 50

/-- `DEVICETYPE_APP_BM`. -/
def devicetypeAppBm : Nat := 100

/-- The largest `u32`. -/
def u32Max : Nat := 2 ^ 32 - 1

/-- `struct common_header` in network order. -/
def commonHeader
    (pkgType version : UInt8)
    (deviceType pkgLen : Nat) : List UInt8 :=
  pkgType :: version :: (beBytes 2 deviceType ++ beBytes 4 pkgLen)

/-! ## The senders -/

/-- What `encapsulate_normal_packet` asks the configuration for. -/
structure PmaIdentity where
  version : UInt8
  pmaId : Nat
  srcAddr : Nat
  dstAddr : Nat
  deriving Repr, DecidableEq

/-- The fields of `struct packet` that a sender uses; `data` counts from `head`. -/
structure SendBuffer where
  mem : Nat → UInt8
  data : Nat
  len : Nat

/-- `encapsulate_normal_packet`: put the header before the data. -/
def encapsulateNormalPacket
    (identity : PmaIdentity)
    (opsType : UInt8)
    (pkt : SendBuffer) : SendBuffer :=
  let len := pkt.len + pmaPmsHeaderSize
  let header :=
    commonHeader opsType identity.version devicetypeAppBm len ++
      beBytes 4 identity.pmaId ++
      beBytes 4 identity.srcAddr ++
      beBytes 4 identity.dstAddr
  { mem := overwrite pkt.mem (pkt.data - pmaPmsHeaderSize) header
    data := pkt.data - pmaPmsHeaderSize
    len := len }

/-- `encapsulate_packet` with what `malloc` returns; a null `buf` has no data. -/
def encapsulatePacket
    (heap : Nat → UInt8)
    (identity : PmaIdentity)
    (opsType : UInt8) : Option (List UInt8) → SendBuffer
  | some buf =>
      let tail := maxPacketHeaderSize + buf.length - 1
      let data := tail - buf.length
      let mem := overwrite (overwrite heap data buf) tail [0]
      encapsulateNormalPacket identity opsType ⟨mem, data, buf.length⟩
  | none =>
      encapsulateNormalPacket identity opsType ⟨heap, maxPacketHeaderSize - 1, 0⟩

/-- The bytes that `send_packet` sends. -/
def SendBuffer.sent (pkt : SendBuffer) : List UInt8 :=
  window pkt.mem pkt.data pkt.len

/-- The bytes that `send_message_to_agent` sends. -/
def sendMessageToAgent
    (heap : Nat → UInt8)
    (opsType : UInt8)
    (buff : List UInt8) : List UInt8 :=
  let pktLen := commonHeaderSize + buff.length
  let header := commonHeader opsType 0 0 pktLen
  window (overwrite (overwrite heap 0 header) commonHeaderSize buff) 0 pktLen

/-- A packet that one of the two senders wrote. -/
structure PmsPacket where
  opsType : UInt8
  payload : List UInt8
  bounded : payload.length + 64 ≤ 2 ^ 31
  headerSize : Nat
  bytes : List UInt8
  written :
    (headerSize = pmaPmsHeaderSize ∧
        ∃ heap identity buf,
          buf.getD [] = payload ∧
            bytes = (encapsulatePacket heap identity opsType buf).sent) ∨
      (headerSize = commonHeaderSize ∧
        ∃ heap, bytes = sendMessageToAgent heap opsType payload)

/-! ## The receivers -/

/-- The type in the `struct common_header` at the start of a buffer. -/
def pkgType (buf : List UInt8) : UInt8 :=
  buf.headD 0

/-- The length in the `struct common_header` at the start of a buffer. -/
def pkgLen (buf : List UInt8) : Nat :=
  beValue ((buf.drop 4).take 4)

/-- A buffer that was set to zero before bytes were copied to its start. -/
def zeroFilled (size : Nat) (bytes : List UInt8) : List UInt8 :=
  bytes ++ List.replicate (size - bytes.length) 0

/-- One `recv` for at most `cap` bytes; what does not fit is there for the next one. -/
def recv
    (cap : Nat) : List (List UInt8) → Option (List UInt8 × List (List UInt8))
  | [] => none
  | chunk :: rest =>
      some (chunk.take cap,
        if chunk.length ≤ cap then rest else chunk.drop cap :: rest)

/-- The loop that receives `len` more bytes. -/
def recvRest : Nat → List (List UInt8) → Option (List UInt8)
  | 0, _ => some []
  | _ + 1, [] => none
  | len + 1, chunk :: rest =>
      if len + 1 < chunk.length then
        some (chunk.take (len + 1))
      else
        (recvRest (len + 1 - chunk.length) rest).map (chunk ++ ·)

/-- Why no packet is handed over. -/
inductive ReceiveFault where
  /-- The peer closed the connection, or sent nothing. -/
  | closed
  /-- `len + 1` is zero, so `malloc` returns less than is copied. -/
  | overrun
  deriving Repr, DecidableEq

/-- The buffers of a receiver, and how many bytes came from the peer. -/
structure Reading where
  /-- The buffer of the first `recv`. -/
  buf : List UInt8
  /-- The buffer with the packet, which is another one if more had to be received. -/
  newbuf : List UInt8
  received : Nat
  deriving Repr, DecidableEq

/-- The two stages, with a zeroed buffer of `cap` bytes for the first one. -/
def receive
    (cap : Nat)
    (chunks : List (List UInt8)) : Except ReceiveFault Reading :=
  match recv cap chunks with
  | none => .error .closed
  | some (first, rest) =>
      let buf := zeroFilled cap first
      let len := pkgLen buf
      if first.length < len then
        if len = u32Max then
          .error .overrun
        else
          match recvRest (len - first.length) rest with
          | none => .error .closed
          | some more =>
              .ok ⟨buf, first ++ more ++ [0], (first ++ more).length⟩
      else
        .ok ⟨buf, buf, first.length⟩

/-- The fields of `struct packet` that a handler uses; `data` starts at the packet. -/
structure Packet where
  opsType : UInt8
  len : Nat
  data : List UInt8
  received : Nat
  deriving Repr, DecidableEq

/-- The packet by the header in the buffer with the packet. -/
def Reading.reparsed (reading : Reading) : Packet where
  opsType := pkgType reading.newbuf
  len := pkgLen reading.newbuf
  data := reading.newbuf
  received := reading.received

/-- The packet by the header in the buffer of the first `recv`. -/
def Reading.parsed (reading : Reading) : Packet where
  opsType := pkgType reading.buf
  len := pkgLen reading.buf
  data := reading.newbuf
  received := reading.received

/-- `packet_handle`, which looks at the header again once the packet is complete. -/
def packetHandle
    (chunks : List (List UInt8)) : Except ReceiveFault Packet :=
  (receive exteriorMaxBuf chunks).map Reading.reparsed

/--
`recv_packet`, which keeps what it saw in the first header.  The buffer is the
one that `encapsulate_packet` made for a request with `sent` bytes of data.
-/
def recvPacket
    (sent : Nat)
    (chunks : List (List UInt8)) : Except ReceiveFault Packet :=
  (receive (maxPacketHeaderSize + sent - 1) chunks).map Reading.parsed

/-- What `handle_trans_message` passes to `send_message_to_pms`. -/
structure TransMessage where
  opsType : UInt8
  len : Nat
  /-- The part of the buffer that `buff` and `len` describe. -/
  buff : List UInt8
  deriving Repr, DecidableEq

/-- `handle_trans_message`; lengths are unsigned, and an empty message is refused. -/
def handleTransMessage (pkt : Packet) : Option TransMessage :=
  let len := (pkt.len + (u32Max + 1) - commonHeaderSize) % (u32Max + 1)
  if len = 0 then
    none
  else
    some ⟨pkt.opsType, len, (pkt.data.drop commonHeaderSize).take len⟩

/-! ## What is received -/

/-- The loop gives the next bytes, however they are split. -/
theorem recvRest_eq
    (len : Nat)
    (chunks : List (List UInt8)) :
    recvRest len chunks =
      if len ≤ chunks.flatten.length then
        some (chunks.flatten.take len)
      else
        none := by
  induction chunks generalizing len with
  | nil =>
      cases len with
      | zero => rfl
      | succ len => rfl
  | cons chunk rest inductionHypothesis =>
      cases len with
      | zero =>
          rw [if_pos (Nat.zero_le _), List.take_zero]
          rfl
      | succ len =>
          rw [recvRest, List.flatten_cons, List.length_append]
          by_cases within : len + 1 < chunk.length
          · rw [if_pos within, if_pos (by omega),
              List.take_append_of_le_length (by omega)]
          · rw [if_neg within, inductionHypothesis]
            by_cases enough : len + 1 - chunk.length ≤ rest.flatten.length
            · rw [if_pos enough, if_pos (by omega), List.take_append,
                List.take_of_length_le (Nat.not_lt.mp within)]
              rfl
            · rw [if_neg enough, if_neg (by omega)]
              rfl

/-- The first result, and what is left of the connection. -/
theorem recv_cons
    (cap : Nat)
    (chunk : List UInt8)
    (rest : List (List UInt8)) :
    ∃ later,
      recv cap (chunk :: rest) = some (chunk.take cap, later) ∧
        chunk.take cap ++ later.flatten = (chunk :: rest).flatten := by
  refine ⟨_, rfl, ?_⟩
  split
  · rename_i within
    rw [List.take_of_length_le within]
    rfl
  · rw [List.flatten_cons, List.flatten_cons, ← List.append_assoc,
      List.take_append_drop]

/-- What a receiver has in its buffers depends on the stream and on the first result. -/
theorem receive_cons
    (cap : Nat)
    (chunk : List UInt8)
    (rest : List (List UInt8)) :
    receive cap (chunk :: rest) =
      let first := chunk.take cap
      let bytes := (chunk :: rest).flatten
      let buf := zeroFilled cap first
      if first.length < pkgLen buf then
        if pkgLen buf = u32Max then
          .error .overrun
        else if pkgLen buf ≤ bytes.length then
          .ok ⟨buf, bytes.take (pkgLen buf) ++ [0], pkgLen buf⟩
        else
          .error .closed
      else
        .ok ⟨buf, buf, first.length⟩ := by
  obtain ⟨later, received, split⟩ := recv_cons cap chunk rest
  rw [receive, received, ← split]
  dsimp only
  by_cases short : (chunk.take cap).length < pkgLen (zeroFilled cap (chunk.take cap))
  · rw [if_pos short, if_pos short, recvRest_eq, List.length_append,
      List.take_append, List.take_of_length_le (Nat.le_of_lt short)]
    by_cases overrun : pkgLen (zeroFilled cap (chunk.take cap)) = u32Max
    · rw [if_pos overrun, if_pos overrun]
    · rw [if_neg overrun, if_neg overrun]
      by_cases enough :
          pkgLen (zeroFilled cap (chunk.take cap)) - (chunk.take cap).length ≤
            later.flatten.length
      · rw [if_pos enough, if_pos (by omega)]
        have length :
            (chunk.take cap ++
                later.flatten.take
                  (pkgLen (zeroFilled cap (chunk.take cap)) -
                    (chunk.take cap).length)).length =
              pkgLen (zeroFilled cap (chunk.take cap)) := by
          rw [List.length_append, List.length_take_of_le enough]
          omega
        dsimp only
        rw [length]
      · rw [if_neg enough, if_neg (by omega)]
  · rw [if_neg short, if_neg short]

/-- The length as a receiver sees it before all of its bytes have come. -/
theorem lengthField_zeroFilled
    {before field behind : List UInt8}
    (beforeLength : before.length = 4)
    (fieldLength : field.length = 4)
    {cap n : Nat}
    (room : commonHeaderSize ≤ cap)
    (within : n ≤ (before ++ field ++ behind).length) :
    ((zeroFilled cap ((before ++ field ++ behind).take n)).drop 4).take 4 =
      field.take (n - 4) ++ List.replicate (4 - (n - 4)) 0 := by
  have drop : (before ++ field ++ behind).drop 4 = field ++ behind := by
    rw [List.append_assoc, List.drop_left' beforeLength]
  rw [zeroFilled, List.length_take_of_le within, List.drop_append,
    List.length_take_of_le within, List.drop_take, drop, List.drop_replicate,
    List.take_append, List.take_take, List.take_replicate, List.length_take]
  simp only [List.length_append, beforeLength, fieldLength, commonHeaderSize] at within room ⊢
  congr 1
  · rw [List.take_append_of_le_length (by omega)]
    by_cases four : n - 4 ≤ 4
    · rw [Nat.min_eq_right four]
    · rw [Nat.min_eq_left (by omega), List.take_of_length_le (by omega),
        List.take_of_length_le (by omega)]
  · congr 1
    omega

/-- A buffer that starts with a complete header gives the length in it. -/
theorem pkgLen_append
    {before field behind : List UInt8}
    (beforeLength : before.length = 4)
    (fieldLength : field.length = 4) :
    pkgLen (before ++ field ++ behind) = beValue field := by
  rw [pkgLen, List.append_assoc, List.drop_left' beforeLength,
    List.take_left' fieldLength]

/-- Most of a list and one more element are the list again. -/
theorem take_append_singleton
    {bytes : List UInt8}
    {kept : Nat}
    {last : UInt8} :
    bytes.take kept ++ [last] = bytes ↔
      kept + 1 = bytes.length ∧ bytes.getLast? = some last := by
  constructor
  · intro same
    constructor
    · have length := congrArg List.length same
      rw [List.length_append, List.length_take, List.length_singleton] at length
      omega
    · rw [← same, List.getLast?_concat]
  · rintro ⟨length, lastIs⟩
    rw [show kept = bytes.length - 1 by omega, ← List.dropLast_eq_take]
    exact List.dropLast_append_getLast? _ lastIs

/-! ## What is sent -/

/-- The header lands directly before the data. -/
theorem sent_encapsulateNormalPacket
    (identity : PmaIdentity)
    (opsType : UInt8)
    (pkt : SendBuffer)
    (room : pmaPmsHeaderSize ≤ pkt.data) :
    ∃ address : List UInt8,
      address.length = pmaPmsHeaderSize - commonHeaderSize ∧
        (encapsulateNormalPacket identity opsType pkt).sent =
          commonHeader opsType identity.version devicetypeAppBm
              (pmaPmsHeaderSize + pkt.len) ++
            address ++ pkt.sent := by
  refine ⟨beBytes 4 identity.pmaId ++ beBytes 4 identity.srcAddr ++
    beBytes 4 identity.dstAddr, by simp [pmaPmsHeaderSize, commonHeaderSize], ?_⟩
  unfold encapsulateNormalPacket SendBuffer.sent
  dsimp only
  simp only [List.append_assoc]
  rw [Nat.add_comm pkt.len]
  generalize written :
    commonHeader opsType identity.version devicetypeAppBm
        (pmaPmsHeaderSize + pkt.len) ++
      (beBytes 4 identity.pmaId ++
        (beBytes 4 identity.srcAddr ++ beBytes 4 identity.dstAddr)) = header
  have length : header.length = pmaPmsHeaderSize := by
    rw [← written]
    simp [commonHeader, pmaPmsHeaderSize]
  rw [window_add, ← length, window_overwrite, length,
    Nat.sub_add_cancel room,
    window_overwrite_of_disjoint (.inr (by omega)), ← written]
  simp only [List.append_assoc]

/-- The data that `encapsulate_packet` leaves room before. -/
theorem sent_encapsulatePacket
    (heap : Nat → UInt8)
    (identity : PmaIdentity)
    (opsType : UInt8)
    (buf : Option (List UInt8)) :
    ∃ address : List UInt8,
      address.length = pmaPmsHeaderSize - commonHeaderSize ∧
        (encapsulatePacket heap identity opsType buf).sent =
          commonHeader opsType identity.version devicetypeAppBm
              (pmaPmsHeaderSize + (buf.getD []).length) ++
            address ++ buf.getD [] := by
  cases buf with
  | none =>
      exact sent_encapsulateNormalPacket identity opsType
        ⟨heap, maxPacketHeaderSize - 1, 0⟩
        (by decide : pmaPmsHeaderSize ≤ maxPacketHeaderSize - 1)
  | some buf =>
      let tail := maxPacketHeaderSize + buf.length - 1
      let mem := overwrite (overwrite heap (tail - buf.length) buf) tail [0]
      have room : pmaPmsHeaderSize ≤ tail - buf.length := by
        simp only [tail, maxPacketHeaderSize]
        omega
      have copied : window mem (tail - buf.length) buf.length = buf := by
        rw [window_overwrite_of_disjoint (.inl ?_), window_overwrite]
        simp only [tail, maxPacketHeaderSize]
        omega
      obtain ⟨address, length, sent⟩ :=
        sent_encapsulateNormalPacket identity opsType
          ⟨mem, tail - buf.length, buf.length⟩ room
      refine ⟨address, length, ?_⟩
      rw [show SendBuffer.sent ⟨mem, tail - buf.length, buf.length⟩ = buf from
        copied] at sent
      exact sent

namespace PmsPacket

/-- The length of a packet with its header. -/
def total (packet : PmsPacket) : Nat :=
  packet.headerSize + packet.payload.length

/-- A packet starts with its common header and ends with its payload. -/
theorem bytes_split
    (packet : PmsPacket) :
    ∃ version deviceType address,
      (commonHeader packet.opsType version deviceType packet.total ++
          address).length = packet.headerSize ∧
        packet.bytes =
          commonHeader packet.opsType version deviceType packet.total ++ address ++
            packet.payload := by
  rcases packet.written with
    ⟨size, heap, identity, buf, payload, bytes⟩ | ⟨size, heap, bytes⟩
  · obtain ⟨address, length, sent⟩ :=
      sent_encapsulatePacket heap identity packet.opsType buf
    refine ⟨identity.version, devicetypeAppBm, address, ?_, ?_⟩
    · rw [size, List.length_append, length]
      simp [commonHeader, pmaPmsHeaderSize, commonHeaderSize]
    · rw [bytes, sent, payload, total, size]
  · refine ⟨0, 0, [], ?_, ?_⟩
    · rw [size, List.append_nil]
      simp [commonHeader, commonHeaderSize]
    · rw [bytes, sendMessageToAgent, total, size, List.append_nil]
      generalize written :
        commonHeader packet.opsType 0 0
          (commonHeaderSize + packet.payload.length) = header
      have length : header.length = commonHeaderSize := by
        rw [← written]
        simp [commonHeader, commonHeaderSize]
      rw [window_add, Nat.zero_add, window_overwrite,
        window_overwrite_of_disjoint (.inl (by omega)), ← length,
        window_overwrite]

/-- There is always a header, and the length is far from the largest one. -/
theorem total_bounds
    (packet : PmsPacket) :
    commonHeaderSize ≤ packet.headerSize ∧
      packet.headerSize ≤ pmaPmsHeaderSize ∧
      packet.total < u32Max := by
  have bounded := packet.bounded
  unfold total u32Max
  rcases packet.written with ⟨size, -⟩ | ⟨size, -⟩ <;>
    · rw [size]
      unfold commonHeaderSize pmaPmsHeaderSize
      omega

/-- The common header of a packet: the length is in the second half of it. -/
theorem bytes_header
    (packet : PmsPacket) :
    ∃ version deviceType behind,
      packet.bytes =
        (packet.opsType :: version :: beBytes 2 deviceType) ++
            beBytes 4 packet.total ++ behind := by
  obtain ⟨version, deviceType, address, -, split⟩ := packet.bytes_split
  refine ⟨version, deviceType, address ++ packet.payload, ?_⟩
  rw [split]
  simp [commonHeader]

theorem length_bytes
    (packet : PmsPacket) :
    packet.bytes.length = packet.total := by
  obtain ⟨version, deviceType, address, length, split⟩ := packet.bytes_split
  rw [split, List.length_append, length, total]

/-- Behind the header is the payload. -/
theorem drop_bytes
    (packet : PmsPacket) :
    packet.bytes.drop packet.headerSize = packet.payload := by
  obtain ⟨version, deviceType, address, length, split⟩ := packet.bytes_split
  rw [split, List.drop_left' length]

/--
How much the length falls short while the bytes of it that the first result of
`recv` does not have are zero.
-/
def shortfall (packet : PmsPacket) (chunks : List (List UInt8)) : Nat :=
  packet.total % 256 ^ (commonHeaderSize - (chunks.headD []).length)

/-- The length that a receiver sees after the first `recv`. -/
theorem pkgLen_first
    (packet : PmsPacket)
    {cap n : Nat}
    (room : commonHeaderSize ≤ cap)
    (within : n ≤ packet.bytes.length) :
    pkgLen (zeroFilled cap (packet.bytes.take n)) =
      packet.total - packet.total % 256 ^ (commonHeaderSize - n) := by
  have fits : packet.total < 256 ^ 4 := by
    have bound := packet.total_bounds.2.2
    unfold u32Max at bound
    omega
  obtain ⟨version, deviceType, behind, split⟩ := packet.bytes_header
  rw [split] at within ⊢
  rw [pkgLen, lengthField_zeroFilled (by simp) (by simp) room within]
  unfold commonHeaderSize
  by_cases whole : 8 ≤ n
  · rw [List.take_of_length_le (by rw [length_beBytes]; omega),
      show 4 - (n - 4) = 0 by omega, show 8 - n = 0 by omega,
      List.replicate_zero, List.append_nil, beValue_beBytes fits, Nat.pow_zero,
      Nat.mod_one, Nat.sub_zero]
  · rw [beValue_take_zeros (by omega) fits]
    by_cases four : 4 ≤ n
    · rw [show 4 - (n - 4) = 8 - n by omega]
    · have more : 256 ^ 4 ≤ 256 ^ (8 - n) :=
        Nat.pow_le_pow_right (by decide) (by omega)
      rw [show 4 - (n - 4) = 4 by omega, Nat.mod_eq_of_lt fits,
        Nat.mod_eq_of_lt (Nat.lt_of_lt_of_le fits more)]

/-- The type is there as soon as anything is. -/
theorem pkgType_append
    (packet : PmsPacket)
    {n : Nat}
    (some : 0 < n)
    (behind : List UInt8) :
    pkgType (packet.bytes.take n ++ behind) = packet.opsType := by
  obtain ⟨version, deviceType, rest, split⟩ := packet.bytes_header
  obtain ⟨n, rfl⟩ : ∃ rest, n = rest + 1 := ⟨n - 1, by omega⟩
  rw [split]
  rfl

/-- The length that the receivers see first. -/
def firstLen (packet : PmsPacket) (chunks : List (List UInt8)) : Nat :=
  packet.total - packet.shortfall chunks

/--
What a receiver has in its buffers when a packet arrives: only the number of
bytes that the first `recv` returned counts.
-/
theorem receive_packet
    (packet : PmsPacket)
    {cap : Nat}
    {chunk : List UInt8}
    {rest : List (List UInt8)}
    (room : commonHeaderSize ≤ cap)
    (some : chunk ≠ [])
    (arrives : (chunk :: rest).flatten = packet.bytes) :
    ∃ n,
      0 < n ∧
        packet.shortfall (chunk :: rest) =
          packet.total % 256 ^ (commonHeaderSize - n) ∧
        pkgLen (zeroFilled cap (packet.bytes.take n)) =
          packet.firstLen (chunk :: rest) ∧
        receive cap (chunk :: rest) =
          .ok (if n < packet.firstLen (chunk :: rest) then
            { buf := zeroFilled cap (packet.bytes.take n)
              newbuf :=
                packet.bytes.take (packet.firstLen (chunk :: rest)) ++ [0]
              received := packet.firstLen (chunk :: rest) }
          else
            { buf := zeroFilled cap (packet.bytes.take n)
              newbuf := zeroFilled cap (packet.bytes.take n)
              received := n }) := by
  have whole : chunk ++ rest.flatten = packet.bytes := arrives
  have first : chunk.take cap = packet.bytes.take (chunk.take cap).length := by
    rw [← whole, List.length_take]
    rw [List.take_append_of_le_length (Nat.min_le_right _ _), ← List.take_take,
      List.take_length]
  have size : 0 < chunk.length := List.length_pos_iff.mpr some
  have within : (chunk.take cap).length ≤ packet.bytes.length := by
    rw [← whole, List.length_append, List.length_take]
    omega
  have cut :
      commonHeaderSize - (chunk.take cap).length =
        commonHeaderSize - chunk.length := by
    rw [List.length_take]
    omega
  have lenIs :
      pkgLen (zeroFilled cap (chunk.take cap)) =
        packet.firstLen (chunk :: rest) := by
    rw [first, packet.pkgLen_first room within, cut]
    rfl
  have bound : packet.firstLen (chunk :: rest) < u32Max :=
    Nat.lt_of_le_of_lt (Nat.sub_le _ _) packet.total_bounds.2.2
  have enough : packet.firstLen (chunk :: rest) ≤ packet.bytes.length := by
    rw [packet.length_bytes]
    exact Nat.sub_le _ _
  refine ⟨(chunk.take cap).length, ?_, ?_, ?_, ?_⟩
  · rw [List.length_take]
    unfold commonHeaderSize at room
    omega
  · rw [cut]
    rfl
  · rw [← first]
    exact lenIs
  · rw [receive_cons, arrives, ← first]
    dsimp only
    rw [lenIs, if_neg (Nat.ne_of_lt bound), if_pos enough]
    split <;> rfl

/-- What the claimed receivers should end with. -/
structure Delivered (packet : PmsPacket) (pkt : Packet) : Prop where
  opsType : pkt.opsType = packet.opsType
  len : pkt.len = packet.total
  payload :
    (pkt.data.drop packet.headerSize).take packet.payload.length = packet.payload

/-- What `handle_trans_message` should forward; an empty payload is nothing to forward. -/
def message (packet : PmsPacket) : Option TransMessage :=
  if packet.payload = [] then
    none
  else
    some ⟨packet.opsType, packet.payload.length, packet.payload⟩

/--
The bytes of the length that are missing from the first result are zero, or the
zero that is written behind the packet stands in for its last byte.
-/
def Recoverable (packet : PmsPacket) (chunks : List (List UInt8)) : Prop :=
  packet.shortfall chunks = 0 ∨
    (packet.shortfall chunks = 1 ∧ packet.payload.getLast? = some 0)

/-- A buffer that starts with the whole packet delivers it. -/
theorem delivered_of_prefix
    (packet : PmsPacket)
    (behind : List UInt8)
    (received : Nat) :
    packet.Delivered
      { opsType := pkgType (packet.bytes ++ behind)
        len := pkgLen (packet.bytes ++ behind)
        data := packet.bytes ++ behind
        received := received } := by
  have fits : packet.total < 256 ^ 4 := by
    have bound := packet.total_bounds.2.2
    unfold u32Max at bound
    omega
  obtain ⟨version, deviceType, rest, split⟩ := packet.bytes_header
  constructor
  · rw [split]
    rfl
  · change pkgLen (packet.bytes ++ behind) = packet.total
    rw [split, List.append_assoc, pkgLen_append (by simp) (by simp),
      beValue_beBytes fits]
  · change ((packet.bytes ++ behind).drop packet.headerSize).take
      packet.payload.length = packet.payload
    have size : packet.headerSize ≤ packet.bytes.length := by
      rw [packet.length_bytes, total]
      exact Nat.le_add_right _ _
    rw [List.drop_append_of_le_length size, packet.drop_bytes, List.take_left]

/-- A length that falls short is zero or has its lowest byte zeroed. -/
theorem firstLen_of_shortfall
    (packet : PmsPacket)
    {chunks : List (List UInt8)}
    {n : Nat}
    (shortfall :
      packet.shortfall chunks = packet.total % 256 ^ (commonHeaderSize - n))
    (short : packet.shortfall chunks ≠ 0) :
    n < commonHeaderSize ∧
      packet.firstLen chunks < packet.total ∧
      (packet.firstLen chunks = 0 ∨ 256 ≤ packet.firstLen chunks) := by
  have early : n < commonHeaderSize := by
    by_contra late
    rw [shortfall, Nat.sub_eq_zero_of_le (by omega), Nat.pow_zero,
      Nat.mod_one] at short
    exact short rfl
  have less : packet.shortfall chunks ≤ packet.total := Nat.mod_le _ _
  refine ⟨early, by unfold firstLen; omega, ?_⟩
  obtain ⟨missing, size⟩ : ∃ missing, commonHeaderSize - n = missing + 1 :=
    ⟨commonHeaderSize - n - 1, by omega⟩
  have multiple :
      packet.firstLen chunks =
        256 * (256 ^ missing * (packet.total / 256 ^ (missing + 1))) := by
    rw [firstLen, shortfall, size, ← Nat.mul_assoc, ← Nat.pow_succ']
    exact Nat.sub_eq_of_eq_add (Nat.div_add_mod _ _).symm
  omega

/-- What the buffer of the packet holds, by what the first result lacked. -/
theorem receive_cases
    (packet : PmsPacket)
    {cap : Nat}
    {chunks : List (List UInt8)}
    (room : commonHeaderSize ≤ cap)
    (nonempty : ∀ chunk ∈ chunks, chunk ≠ [])
    (arrives : chunks.flatten = packet.bytes) :
    ∃ reading,
      receive cap chunks = .ok reading ∧
        pkgType reading.buf = packet.opsType ∧
        pkgLen reading.buf = packet.firstLen chunks ∧
        ((packet.shortfall chunks = 0 ∧
            ∃ behind, reading.newbuf = packet.bytes ++ behind) ∨
          (packet.shortfall chunks ≠ 0 ∧
            packet.firstLen chunks = 0 ∧
            reading.newbuf = reading.buf) ∨
          (packet.shortfall chunks ≠ 0 ∧
            packet.firstLen chunks < packet.total ∧
            256 ≤ packet.firstLen chunks ∧
            reading.newbuf =
              packet.bytes.take (packet.firstLen chunks) ++ [0])) := by
  cases chunks with
  | nil =>
      have size := congrArg List.length arrives
      rw [packet.length_bytes, total] at size
      have header := packet.total_bounds.1
      unfold commonHeaderSize at header
      simp at size
      omega
  | cons chunk rest =>
      obtain ⟨n, positive, shortfall, lenIs, received⟩ :=
        packet.receive_packet room (nonempty chunk (List.mem_cons_self ..)) arrives
      refine ⟨_, received, ?_, ?_, ?_⟩
      · rw [apply_ite Reading.buf, ite_self]
        exact packet.pkgType_append positive _
      · rw [apply_ite Reading.buf, ite_self, lenIs]
      · by_cases short : packet.shortfall (chunk :: rest) = 0
        · refine .inl ⟨short, ?_⟩
          have whole : packet.firstLen (chunk :: rest) = packet.bytes.length := by
            rw [firstLen, short, Nat.sub_zero, packet.length_bytes]
          rw [whole]
          split
          · exact ⟨[0], by rw [List.take_length]⟩
          · rename_i complete
            refine ⟨List.replicate (cap - (packet.bytes.take n).length) 0, ?_⟩
            change zeroFilled cap (packet.bytes.take n) = _
            rw [zeroFilled, List.take_of_length_le (Nat.not_lt.mp complete)]
        · obtain ⟨early, less, zero | large⟩ :=
            packet.firstLen_of_shortfall shortfall short
          · refine .inr (.inl ⟨short, zero, ?_⟩)
            rw [zero, if_neg (Nat.not_lt_zero n)]
          · refine .inr (.inr ⟨short, less, large, ?_⟩)
            unfold commonHeaderSize at early
            rw [if_pos (by omega)]

/-- A packet that was cut off before its last bytes. -/
theorem delivered_take
    (packet : PmsPacket)
    {len : Nat}
    (less : len < packet.total)
    (large : 256 ≤ len) :
    let newbuf := packet.bytes.take len ++ [0]
    pkgType newbuf = packet.opsType ∧
      pkgLen newbuf = packet.total ∧
      (newbuf.drop packet.headerSize).take packet.payload.length =
        packet.payload.take (len - packet.headerSize) ++ [0] := by
  have fits : packet.total < 256 ^ 4 := by
    have bound := packet.total_bounds.2.2
    unfold u32Max at bound
    omega
  have header := packet.total_bounds.2.1
  unfold pmaPmsHeaderSize at header
  refine ⟨packet.pkgType_append (by omega) _, ?_, ?_⟩
  · obtain ⟨version, deviceType, rest, split⟩ := packet.bytes_header
    rw [split, List.take_append,
      List.take_of_length_le (by simp; omega), List.append_assoc,
      pkgLen_append (by simp) (by simp), beValue_beBytes fits]
  · have size : (packet.bytes.take len).length = len := by
      rw [List.length_take, packet.length_bytes]
      omega
    have rest : packet.payload.length + packet.headerSize = packet.total := by
      rw [total, Nat.add_comm]
    rw [List.drop_append_of_le_length (by omega), List.drop_take,
      packet.drop_bytes, List.take_of_length_le]
    rw [List.length_append, List.length_take, List.length_singleton]
    omega

/-- The payload of a packet that was cut off is complete if its last byte is the zero. -/
theorem take_payload
    (packet : PmsPacket)
    {chunks : List (List UInt8)}
    (large : 256 ≤ packet.firstLen chunks) :
    packet.payload.take (packet.firstLen chunks - packet.headerSize) ++ [0] =
        packet.payload ↔
      packet.shortfall chunks = 1 ∧ packet.payload.getLast? = some 0 := by
  have header := packet.total_bounds.2.1
  have size : packet.total = packet.headerSize + packet.payload.length := rfl
  have split : packet.firstLen chunks + packet.shortfall chunks = packet.total :=
    Nat.sub_add_cancel (Nat.mod_le _ _)
  unfold pmaPmsHeaderSize at header
  rw [take_append_singleton]
  exact and_congr_left fun _ => by omega

theorem packetHandle_of_received
    {chunks : List (List UInt8)}
    {reading : Reading}
    (received : receive exteriorMaxBuf chunks = .ok reading) :
    packetHandle chunks = .ok reading.reparsed := by
  rw [packetHandle, received]
  rfl

/-- A packet whose first bytes show no length is lost. -/
theorem not_recoverable
    (packet : PmsPacket)
    {chunks : List (List UInt8)}
    (short : packet.shortfall chunks ≠ 0)
    (zero : packet.firstLen chunks = 0) :
    ¬packet.Recoverable chunks := by
  have header := packet.total_bounds.1
  rintro (none | ⟨one, -⟩)
  · exact short none
  · rw [firstLen, one] at zero
    unfold total commonHeaderSize at *
    omega

/-- `packet_handle` ends with the packet exactly when it can be recovered. -/
theorem packetHandle_delivered
    (packet : PmsPacket)
    {chunks : List (List UInt8)}
    (nonempty : ∀ chunk ∈ chunks, chunk ≠ [])
    (arrives : chunks.flatten = packet.bytes) :
    (∃ pkt, packetHandle chunks = .ok pkt ∧ packet.Delivered pkt) ↔
      packet.Recoverable chunks := by
  obtain ⟨reading, received, -, lenIs, cases⟩ :=
    packet.receive_cases (by decide : commonHeaderSize ≤ exteriorMaxBuf)
      nonempty arrives
  simp only [packetHandle_of_received received, Except.ok.injEq, exists_eq_left']
  have positive : packet.total ≠ 0 := by
    have header := packet.total_bounds.1
    unfold total commonHeaderSize at *
    omega
  rcases cases with
    ⟨none, behind, newbuf⟩ | ⟨short, zero, newbuf⟩ | ⟨short, less, large, newbuf⟩
  · refine iff_of_true ?_ (.inl none)
    rw [Reading.reparsed, newbuf]
    exact packet.delivered_of_prefix behind reading.received
  · refine iff_of_false ?_ (packet.not_recoverable short zero)
    intro delivered
    have same : pkgLen reading.newbuf = packet.total := delivered.len
    rw [newbuf, lenIs, zero] at same
    exact positive same.symm
  · obtain ⟨typeIs, lenIs, payload⟩ := packet.delivered_take less large
    rw [← newbuf] at typeIs lenIs payload
    rw [Recoverable, or_iff_right short, ← packet.take_payload large, ← payload]
    constructor
    · intro delivered
      exact delivered.payload
    · intro complete
      exact ⟨typeIs, lenIs, complete⟩

/-- `recv_packet` does exactly when the first length is the right one. -/
theorem recvPacket_delivered
    (packet : PmsPacket)
    (sent : Nat)
    {chunks : List (List UInt8)}
    (nonempty : ∀ chunk ∈ chunks, chunk ≠ [])
    (arrives : chunks.flatten = packet.bytes) :
    (∃ pkt, recvPacket sent chunks = .ok pkt ∧ packet.Delivered pkt) ↔
      packet.shortfall chunks = 0 := by
  have room : commonHeaderSize ≤ maxPacketHeaderSize + sent - 1 := by
    unfold commonHeaderSize maxPacketHeaderSize
    omega
  obtain ⟨reading, received, typeIs, lenIs, cases⟩ :=
    packet.receive_cases room nonempty arrives
  have handled : recvPacket sent chunks = .ok reading.parsed := by
    rw [recvPacket, received]
    rfl
  simp only [handled, Except.ok.injEq, exists_eq_left']
  constructor
  · intro delivered
    have same : pkgLen reading.buf = packet.total := delivered.len
    rw [lenIs, firstLen] at same
    have less : packet.shortfall chunks ≤ packet.total := Nat.mod_le _ _
    have header := packet.total_bounds.1
    unfold total commonHeaderSize at *
    omega
  · intro none
    rcases cases with ⟨-, behind, newbuf⟩ | ⟨short, -⟩ | ⟨short, -⟩
    · have whole := packet.delivered_of_prefix behind reading.received
      refine ⟨typeIs, ?_, ?_⟩
      · rw [Reading.parsed, lenIs, firstLen, none, Nat.sub_zero]
      · rw [Reading.parsed, newbuf]
        exact whole.payload
    · exact absurd none short
    · exact absurd none short

/-- The message that a delivered packet of an agent carries. -/
theorem message_of_payload
    (packet : PmsPacket)
    (agent : packet.headerSize = commonHeaderSize)
    {pkt : Packet}
    (typeIs : pkt.opsType = packet.opsType)
    (lenIs : pkt.len = packet.total) :
    handleTransMessage pkt = packet.message ↔
      packet.payload = [] ∨
        (pkt.data.drop packet.headerSize).take packet.payload.length =
          packet.payload := by
  have bounded := packet.bounded
  have len :
      (pkt.len + (u32Max + 1) - commonHeaderSize) % (u32Max + 1) =
        packet.payload.length := by
    rw [lenIs, total, agent]
    unfold u32Max
    rw [Nat.add_assoc, Nat.add_sub_cancel_left, Nat.add_mod_right,
      Nat.mod_eq_of_lt (by omega)]
  unfold handleTransMessage message
  dsimp only
  rw [len, typeIs, agent]
  by_cases empty : packet.payload = []
  · rw [if_pos (by rw [empty]; rfl), if_pos empty]
    exact iff_of_true rfl (.inl empty)
  · have some : packet.payload.length ≠ 0 :=
      fun zero => empty (List.length_eq_zero_iff.mp zero)
    rw [if_neg some, if_neg empty, or_iff_right empty]
    simp

/-- `handle_trans_message` forwards the payload under the same condition. -/
theorem packetHandle_message
    (packet : PmsPacket)
    (agent : packet.headerSize = commonHeaderSize)
    {chunks : List (List UInt8)}
    (nonempty : ∀ chunk ∈ chunks, chunk ≠ [])
    (arrives : chunks.flatten = packet.bytes) :
    (∃ pkt,
        packetHandle chunks = .ok pkt ∧
          handleTransMessage pkt = packet.message) ↔
      packet.Recoverable chunks := by
  have bounded := packet.bounded
  obtain ⟨reading, received, -, lenIs, cases⟩ :=
    packet.receive_cases (by decide : commonHeaderSize ≤ exteriorMaxBuf)
      nonempty arrives
  simp only [packetHandle_of_received received, Except.ok.injEq, exists_eq_left']
  rcases cases with
    ⟨none, behind, newbuf⟩ | ⟨short, zero, newbuf⟩ | ⟨short, less, large, newbuf⟩
  · refine iff_of_true ?_ (.inl none)
    rw [Reading.reparsed, newbuf]
    have whole := packet.delivered_of_prefix behind reading.received
    exact (packet.message_of_payload agent whole.opsType whole.len).mpr
      (.inr whole.payload)
  · refine iff_of_false ?_ (packet.not_recoverable short zero)
    intro forwarded
    -- The length of a header without a payload wraps around.
    rw [handleTransMessage, Reading.reparsed, newbuf, lenIs, zero] at forwarded
    unfold message u32Max commonHeaderSize at forwarded
    dsimp only at forwarded
    rw [if_neg (by decide)] at forwarded
    split at forwarded
    · cases forwarded
    · injection forwarded with same
      injection same with _ length
      omega
  · obtain ⟨typeIs, lenIs, payload⟩ := packet.delivered_take less large
    rw [← newbuf] at typeIs lenIs payload
    have some : packet.payload ≠ [] := by
      intro empty
      have size : packet.total = packet.headerSize + packet.payload.length := rfl
      rw [empty, agent, List.length_nil] at size
      unfold commonHeaderSize at size
      omega
    rw [Recoverable, or_iff_right short, ← packet.take_payload large, ← payload]
    constructor
    · intro forwarded
      exact ((packet.message_of_payload agent typeIs lenIs).mp forwarded).resolve_left
        some
    · intro complete
      exact (packet.message_of_payload agent typeIs lenIs).mpr (.inr complete)

/--
However a packet is split, `packet_handle` and `recv_packet` end with it, and
`handle_trans_message` forwards its payload, exactly when the bytes of the
length that the first `recv` does not return are zero; the zero that
`packet_handle` writes behind a packet can stand in for its last byte.
-/
theorem pmsFraming
    (packet : PmsPacket)
    {chunks : List (List UInt8)}
    (nonempty : ∀ chunk ∈ chunks, chunk ≠ [])
    (arrives : chunks.flatten = packet.bytes) :
    ((∃ pkt, packetHandle chunks = .ok pkt ∧ packet.Delivered pkt) ↔
        packet.Recoverable chunks) ∧
      (∀ sent,
        (∃ pkt, recvPacket sent chunks = .ok pkt ∧ packet.Delivered pkt) ↔
          packet.shortfall chunks = 0) ∧
      (packet.headerSize = commonHeaderSize →
        ((∃ pkt,
            packetHandle chunks = .ok pkt ∧
              handleTransMessage pkt = packet.message) ↔
          packet.Recoverable chunks)) :=
  ⟨packet.packetHandle_delivered nonempty arrives,
    fun sent => packet.recvPacket_delivered sent nonempty arrives,
    fun agent => packet.packetHandle_message agent nonempty arrives⟩

/-- A message of an agent with three bytes of payload. -/
def agentPacket : PmsPacket where
  opsType := 71
  payload := [1, 2, 3]
  bounded := by decide
  headerSize := commonHeaderSize
  bytes := [71, 0, 0, 0, 0, 0, 0, 11, 1, 2, 3]
  written := .inr ⟨rfl, fun _ => 0, rfl⟩

/-- A reply with the longer header and one byte of payload. -/
def pmsPacket : PmsPacket where
  opsType := 4
  payload := [9]
  bounded := by decide
  headerSize := pmaPmsHeaderSize
  bytes := [4, 2, 0, 100, 0, 0, 0, 21, 0, 0, 0, 5, 10, 0, 0, 1, 10, 0, 0, 2, 9]
  written :=
    .inl ⟨rfl, fun _ => 0, ⟨2, 5, 0x0A000001, 0x0A000002⟩, some [9], rfl, rfl⟩

theorem pmsFraming_split :
    (∃ pkt,
      packetHandle [[71, 0, 0, 0, 0, 0, 0, 11, 1], [2, 3]] = .ok pkt ∧
        handleTransMessage pkt = some ⟨71, 3, [1, 2, 3]⟩) ∧
      ∃ pkt,
        recvPacket 0
            [[4, 2, 0, 100, 0, 0, 0, 21, 0, 0], [0, 5, 10, 0, 0, 1, 10, 0, 0, 2, 9]] =
            .ok pkt ∧
          pmsPacket.Delivered pkt :=
  ⟨((agentPacket.pmsFraming (by decide) rfl).2.2 rfl).mpr (.inl rfl),
    ((pmsPacket.pmsFraming (by decide) rfl).2.1 0).mpr rfl⟩

/-- The first `recv` returns four bytes, so the length is taken to be zero. -/
theorem split_header_not_delivered :
    let chunks := [[71, 0, 0, 0], [0, 0, 0, 11, 1, 2, 3]]
    chunks.flatten = agentPacket.bytes ∧
      (¬∃ pkt, packetHandle chunks = .ok pkt ∧ agentPacket.Delivered pkt) ∧
      (¬∃ pkt, recvPacket 0 chunks = .ok pkt ∧ agentPacket.Delivered pkt) ∧
      ¬∃ pkt,
        packetHandle chunks = .ok pkt ∧
          handleTransMessage pkt = agentPacket.message := by
  have lost : ¬agentPacket.Recoverable [[71, 0, 0, 0], [0, 0, 0, 11, 1, 2, 3]] := by
    unfold Recoverable
    decide
  exact ⟨rfl,
    fun delivered =>
      lost ((agentPacket.packetHandle_delivered (by decide) rfl).mp delivered),
    fun delivered =>
      absurd ((agentPacket.recvPacket_delivered 0 (by decide) rfl).mp delivered)
        (by decide),
    fun forwarded =>
      lost ((agentPacket.packetHandle_message rfl (by decide) rfl).mp forwarded)⟩

end PmsPacket

end Pma
