import Pma.Bytes
import Pma.ModuleLifeCycle

namespace Pma

open Transition
open Bytes

/-!
# Packets between the base module and the modules

Both sides write a packet in one piece and read it in pieces.  One `read` or
`recv` is one step of a reader; between two of them it is either at the start of
a packet or in the middle of a body.  Memory that the code does not initialise
comes with the result of the call, so nothing is assumed about it.
-/

/-- `sizeof(local_module_header)`, which modules call `Packet_header`. -/
def localHeaderSize : Nat := 8

/-- `MAXBUF` of the interior daemon. -/
def maxBuf : Nat := 50000

/-- The fields that both senders set: `pkt_type`, `pkt_version`, `pkt_len`. -/
def headerFields (pktType : UInt8) (pktLen : Nat) : List UInt8 :=
  pktType :: UInt8.ofNat pmaVersion :: leBytes 2 pktLen

/-- The field `pkt_len` of a packet in memory. -/
def pktLen (pkt : Nat → UInt8) : Nat :=
  leValue (window pkt 2 2)

/-! ## The senders -/

/-- The bytes that `module_send_data` sends; the checksum is what `malloc` left there. -/
def moduleSendData
    (heap : Nat → UInt8)
    (data : List UInt8)
    (pktType : UInt8) : Option (List UInt8) :=
  if data.length = 0 then
    none
  else
    let header := headerFields pktType (localHeaderSize + data.length)
    let packet := overwrite (overwrite heap 0 header) localHeaderSize data
    some (window packet 0 (pktLen packet))

/-- The bytes that `send_message_to_module` sends. -/
def sendMessageToModule
    (heap : Nat → UInt8)
    (pktType : UInt8)
    (data : List UInt8) : List UInt8 :=
  let len := data.length + localHeaderSize
  let header := headerFields pktType len ++ leBytes 4 0x123456
  window (overwrite (overwrite heap 0 header) localHeaderSize data) 0 len

/-- A packet that one of the senders wrote. -/
structure ModulePacket where
  pktType : UInt8
  payload : List UInt8
  bytes : List UInt8
  fits : localHeaderSize + payload.length ≤ maxBuf
  written :
    (∃ heap, moduleSendData heap payload pktType = some bytes) ∨
      ∃ heap, bytes = sendMessageToModule heap pktType payload

/-! ## The readers -/

/-- What `read` or `recv` returns, and the memory that the call finds uninitialised. -/
inductive ReadResult where
  | bytes (data : List UInt8) (stack heap : Nat → UInt8)
  | wouldBlock

/-- Where a reader stands between two calls. -/
inductive ReaderPhase where
  | header
  /-- The body is copied to `pkt` from `position` on, and `missing` bytes are wanted. -/
  | body (pkt : Nat → UInt8) (position missing : Nat)

/-- A reader, and the packets it has handed over with their types. -/
structure PacketReader where
  phase : ReaderPhase
  dispatched : List (UInt8 × List UInt8)

namespace PacketReader

/-- A new connection. -/
def init : PacketReader := ⟨.header, []⟩

/-- Hand a packet over; the handlers compute the length from the one in the packet. -/
def dispatch (reader : PacketReader) (pkt : Nat → UInt8) : PacketReader where
  phase := .header
  dispatched :=
    reader.dispatched ++
      [(pkt 0, window pkt localHeaderSize (pktLen pkt - localHeaderSize))]

/-- One `read` of `child_process`, which starts again at the next wake-up. -/
def childProcess
    (reader : PacketReader) : ReadResult → Except Unit PacketReader
  | .wouldBlock => .ok { reader with phase := .header }
  | .bytes data stack heap =>
      match reader.phase with
      | .header =>
          if 0 < data.length ∧ data.length ≤ localHeaderSize then
            let header := overwrite stack 0 data
            let pkt := overwrite heap 0 (window header 0 4)
            if localHeaderSize + maxBuf < pktLen header then
              .ok reader
            else if pktLen header ≤ localHeaderSize then
              .ok (reader.dispatch pkt)
            else
              .ok { reader with
                phase := .body pkt data.length (pktLen header - localHeaderSize) }
          else
            .error ()
      | .body pkt position missing =>
          if 0 < data.length ∧ data.length ≤ missing then
            let pkt := overwrite pkt position data
            if data.length = missing then
              .ok (reader.dispatch pkt)
            else
              .ok { reader with
                phase := .body pkt (position + data.length) (missing - data.length) }
          else
            .error ()

/-- Take a packet that `recv_packet` returned, unless its version is wrong. -/
def accept (reader : PacketReader) (pkt : Nat → UInt8) : PacketReader :=
  if pkt 1 = UInt8.ofNat pmaVersion then
    reader.dispatch pkt
  else
    { reader with phase := .header }

/-- One `recv` of `recv_packet`, called from `module_get_data`. -/
def moduleGetData
    (reader : PacketReader) : ReadResult → Except Unit PacketReader
  | .wouldBlock => .ok { reader with phase := .header }
  | .bytes data stack heap =>
      match reader.phase with
      | .header =>
          if 0 < data.length ∧ data.length ≤ localHeaderSize then
            let header := overwrite stack 0 data
            let pkt := overwrite heap 0 (window header 0 4)
            if pktLen pkt < localHeaderSize then
              .ok reader
            else if pktLen pkt = localHeaderSize then
              .ok (reader.accept pkt)
            else
              .ok { reader with
                phase := .body pkt localHeaderSize (pktLen header - localHeaderSize) }
          else
            .error ()
      | .body pkt position missing =>
          -- The body is taken to be complete, whatever the call returned.
          if 0 < data.length ∧ data.length ≤ missing then
            .ok (reader.accept (overwrite pkt position data))
          else
            .error ()

/-- A header is read whole, and no body is given up. -/
def HeaderWhole (reader : PacketReader) : ReadResult → Prop
  | .bytes data _ _ => reader.phase = .header → data.length = localHeaderSize
  | .wouldBlock => reader.phase = .header

/-- A body is read whole as well. -/
def PacketWhole (reader : PacketReader) (result : ReadResult) : Prop :=
  reader.HeaderWhole result ∧
    ∀ pkt position missing data stack heap,
      reader.phase = .body pkt position missing →
      result = .bytes data stack heap →
      data.length = missing

end PacketReader

/-! ## What is sent -/

@[simp] theorem length_headerFields
    (pktType : UInt8)
    (pktLen : Nat) :
    (headerFields pktType pktLen).length = 4 := by
  rw [headerFields, List.length_cons, List.length_cons, length_leBytes]

/-- The fields are where a reader looks for them. -/
theorem read_headerFields
    {pkt : Nat → UInt8}
    {pktType : UInt8}
    {len : Nat}
    (held : window pkt 0 4 = headerFields pktType len)
    (fits : len < 2 ^ 16) :
    pkt 0 = pktType ∧ pkt 1 = UInt8.ofNat pmaVersion ∧ pktLen pkt = len := by
  have split : window pkt 0 4 = [pkt 0, pkt 1] ++ window pkt 2 2 :=
    window_add pkt 0 2 2
  rw [split, headerFields] at held
  injection held with typeHeld held
  injection held with versionHeld lenHeld
  refine ⟨typeHeld, versionHeld, ?_⟩
  rw [pktLen, show window pkt 2 2 = leBytes 2 len from lenHeld]
  exact leValue_leBytes fits

/-- What a buffer holds after a header and a body were copied to it. -/
theorem window_packet
    (heap : Nat → UInt8)
    (header data : List UInt8) :
    window (overwrite (overwrite heap 0 header) localHeaderSize data) 0
        (localHeaderSize + data.length) =
      window (overwrite heap 0 header) 0 localHeaderSize ++ data := by
  rw [window_add, Nat.zero_add, window_overwrite,
    window_overwrite_of_disjoint (.inl (by omega))]

/-- A payload whose length fits the header is sent behind eight bytes with the fields. -/
theorem moduleSendData_split
    {heap : Nat → UInt8}
    {data : List UInt8}
    {pktType : UInt8}
    (nonempty : data.length ≠ 0)
    (fits : localHeaderSize + data.length < 2 ^ 16) :
    ∃ header : List UInt8,
      header.length = localHeaderSize ∧
        header.take 4 = headerFields pktType (localHeaderSize + data.length) ∧
        moduleSendData heap data pktType = some (header ++ data) := by
  let fields := headerFields pktType (localHeaderSize + data.length)
  let header := overwrite heap 0 fields
  have held : window header 0 4 = fields := by
    have copied := window_overwrite heap 0 fields
    rwa [length_headerFields] at copied
  have fieldsHeld : window (overwrite header localHeaderSize data) 0 4 = fields := by
    rw [window_overwrite_of_disjoint (.inl (by decide)), held]
  have lenHeld := (read_headerFields fieldsHeld fits).2.2
  refine ⟨window header 0 localHeaderSize, length_window _ _ _, ?_, ?_⟩
  · rw [take_window (by decide), held]
  · rw [moduleSendData, if_neg nonempty]
    dsimp only
    rw [lenHeld]
    exact congrArg some (window_packet heap fields data)

/-- A message is sent whole, whatever the header has for its length. -/
theorem sendMessageToModule_split
    (heap : Nat → UInt8)
    (pktType : UInt8)
    (data : List UInt8) :
    ∃ header : List UInt8,
      header.length = localHeaderSize ∧
        header.take 4 = headerFields pktType (localHeaderSize + data.length) ∧
        sendMessageToModule heap pktType data = header ++ data := by
  let fields := headerFields pktType (localHeaderSize + data.length)
  let header := fields ++ leBytes 4 0x123456
  have length : header.length = localHeaderSize := by
    rw [List.length_append, length_headerFields, length_leBytes]
    rfl
  refine ⟨header, length, ?_, ?_⟩
  · exact List.take_left' (length_headerFields _ _)
  · have copied := window_packet heap header data
    have held : window (overwrite heap 0 header) 0 localHeaderSize = header := by
      rw [← length]
      exact window_overwrite heap 0 header
    rw [held] at copied
    rw [sendMessageToModule, Nat.add_comm data.length]
    exact copied

namespace ModulePacket

/-- The fields that a reader looks at. -/
def fields (packet : ModulePacket) : List UInt8 :=
  headerFields packet.pktType (localHeaderSize + packet.payload.length)

/-- What a handler should see of a packet. -/
def content (packet : ModulePacket) : UInt8 × List UInt8 :=
  (packet.pktType, packet.payload)

/-- The length of a packet fits its header. -/
theorem length_lt
    (packet : ModulePacket) :
    localHeaderSize + packet.payload.length < 2 ^ 16 :=
  Nat.lt_of_le_of_lt packet.fits (by decide)

/-- Whoever wrote a packet, it is a header and then the payload. -/
theorem bytes_split
    (packet : ModulePacket) :
    ∃ header : List UInt8,
      header.length = localHeaderSize ∧
        header.take 4 = packet.fields ∧
        packet.bytes = header ++ packet.payload := by
  rcases packet.written with ⟨heap, written⟩ | ⟨heap, written⟩
  · have nonempty : packet.payload.length ≠ 0 := by
      intro empty
      rw [moduleSendData, if_pos empty] at written
      cases written
    obtain ⟨header, length, fields, sent⟩ :=
      @moduleSendData_split heap _ packet.pktType nonempty packet.length_lt
    rw [sent] at written
    exact ⟨header, length, fields, (Option.some_inj.mp written).symm⟩
  · rw [written]
    exact sendMessageToModule_split heap packet.pktType packet.payload

end ModulePacket

/-- The bytes of a connection on which packets were written. -/
def stream (packets : List ModulePacket) : List UInt8 :=
  (packets.map ModulePacket.bytes).flatten

/-- The bytes that one call returned. -/
def ReadResult.data : ReadResult → List UInt8
  | .bytes data _ _ => data
  | .wouldBlock => []

/-- The bytes that the calls of a reader returned. -/
def received (results : List ReadResult) : List UInt8 :=
  results.flatMap ReadResult.data

namespace PacketReader

/-! ## What is read -/

/-- A buffer holds the fields of a packet and the first bytes of its payload. -/
structure Holds
    (pkt : Nat → UInt8)
    (packet : ModulePacket)
    (got : List UInt8) : Prop where
  fields : window pkt 0 4 = packet.fields
  payload : window pkt localHeaderSize got.length = got

/-- A reader is in step: it is where a packet starts, or the buffer holds what came of one. -/
inductive InStep : ReaderPhase → List UInt8 → List ModulePacket → Prop where
  | header
      (packets : List ModulePacket) :
      InStep .header (stream packets) packets
  | body
      {pkt : Nat → UInt8}
      {packet : ModulePacket}
      {got rest : List UInt8}
      {packets : List ModulePacket}
      (holds : Holds pkt packet got)
      (split : packet.payload = got ++ rest)
      (wanted : rest ≠ []) :
      InStep (.body pkt (localHeaderSize + got.length) rest.length)
        (rest ++ stream packets) (packet :: packets)

namespace Holds

variable {pkt : Nat → UInt8} {packet : ModulePacket} {got data : List UInt8}

/-- More of the payload is copied behind what came before. -/
theorem more
    (holds : Holds pkt packet got) :
    Holds (overwrite pkt (localHeaderSize + got.length) data) packet (got ++ data) := by
  constructor
  · rw [window_overwrite_of_disjoint
      (.inl (by unfold localHeaderSize; omega))]
    exact holds.fields
  · rw [List.length_append, window_add, window_overwrite,
      window_overwrite_of_disjoint (.inl (Nat.le_refl _)), holds.payload]

/-- The version is the one that `module_get_data` wants. -/
theorem version
    (holds : Holds pkt packet got) :
    pkt 1 = UInt8.ofNat pmaVersion :=
  (read_headerFields holds.fields packet.length_lt).2.1

/-- A complete packet is handed over as it was sent. -/
theorem dispatch
    (holds : Holds pkt packet packet.payload)
    (reader : PacketReader) :
    reader.dispatch pkt = ⟨.header, reader.dispatched ++ [packet.content]⟩ := by
  obtain ⟨typeHeld, -, lenHeld⟩ := read_headerFields holds.fields packet.length_lt
  rw [PacketReader.dispatch, typeHeld, lenHeld, Nat.add_sub_cancel_left,
    holds.payload]
  rfl

/-- `module_get_data` accepts it. -/
theorem accept
    (holds : Holds pkt packet packet.payload)
    (reader : PacketReader) :
    reader.accept pkt = ⟨.header, reader.dispatched ++ [packet.content]⟩ := by
  rw [PacketReader.accept, if_pos holds.version, holds.dispatch]

end Holds

/-- A reader is in step, and has handed over the packets before the one it is at. -/
def Synchronised
    (reader : PacketReader)
    (unread : List UInt8)
    (packets : List ModulePacket) : Prop :=
  ∃ done left : List ModulePacket,
    packets = done ++ left ∧
      reader.dispatched = done.map ModulePacket.content ∧
      InStep reader.phase unread left

/-- What was handed over is where the packets start, and is all of them in the end. -/
def Agrees
    (reader : PacketReader)
    (unread : List UInt8)
    (packets : List ModulePacket) : Prop :=
  reader.dispatched <+: packets.map ModulePacket.content ∧
    (unread = [] → reader.dispatched = packets.map ModulePacket.content)

/-- Nothing to read is nothing sent. -/
theorem stream_eq_nil
    {packets : List ModulePacket}
    (empty : stream packets = []) :
    packets = [] := by
  cases packets with
  | nil =>
      rfl
  | cons packet rest =>
      obtain ⟨header, length, -, split⟩ := packet.bytes_split
      have size := congrArg List.length empty
      rw [stream, List.map_cons, List.flatten_cons, List.length_append, split,
        List.length_append, length] at size
      exact absurd size (by unfold localHeaderSize; simp)

/-- A reader in step agrees with the senders. -/
theorem Synchronised.agrees
    {reader : PacketReader}
    {unread : List UInt8}
    {packets : List ModulePacket}
    (synchronised : reader.Synchronised unread packets) :
    reader.Agrees unread packets := by
  obtain ⟨done, left, split, dispatched, inStep⟩ := synchronised
  constructor
  · rw [dispatched, split, List.map_append]
    exact List.prefix_append _ _
  · intro empty
    have none : left = [] := by
      generalize reader.phase = phase at inStep
      cases inStep with
      | header =>
          exact stream_eq_nil empty
      | body _ _ wanted =>
          exact absurd (List.append_eq_nil_iff.mp empty).1 wanted
    rw [dispatched, split, none, List.append_nil]

/--
A header that is read whole is the header of the next packet: both the copy on
the stack and the buffer have its fields, and its payload is read next.
-/
theorem header_read
    {data unread : List UInt8}
    {left : List ModulePacket}
    (whole : data.length = localHeaderSize)
    (front : data ++ unread = stream left)
    (stack heap : Nat → UInt8) :
    ∃ packet rest,
      left = packet :: rest ∧
        unread = packet.payload ++ stream rest ∧
        pktLen (overwrite stack 0 data) = localHeaderSize + packet.payload.length ∧
        Holds (overwrite heap 0 (window (overwrite stack 0 data) 0 4)) packet [] := by
  cases left with
  | nil =>
      have empty : data = [] := (List.append_eq_nil_iff.mp front).1
      rw [empty] at whole
      cases whole
  | cons packet rest =>
      obtain ⟨header, length, fields, split⟩ := packet.bytes_split
      rw [stream, List.map_cons, List.flatten_cons, split,
        List.append_assoc] at front
      obtain ⟨same, unreadIs⟩ := List.append_inj front (whole.trans length.symm)
      subst same
      have read : window (overwrite stack 0 data) 0 4 = packet.fields := by
        rw [← fields, ← take_window (by decide : 4 ≤ localHeaderSize), ← length,
          window_overwrite]
      refine ⟨packet, rest, rfl, unreadIs,
        (read_headerFields read packet.length_lt).2.2, ⟨?_, rfl⟩⟩
      have copied := window_overwrite heap 0 packet.fields
      rw [ModulePacket.fields, length_headerFields] at copied
      rw [read]
      exact copied

/-- A call that returns no more than the rest of a body returns the start of it. -/
theorem rest_of_body
    {data unread rest behind : List UInt8}
    (within : data.length ≤ rest.length)
    (front : data ++ unread = rest ++ behind) :
    ∃ missing,
      rest = data ++ missing ∧
        unread = missing ++ behind := by
  have start : data <+: rest :=
    List.prefix_of_prefix_length_le (front ▸ List.prefix_append data unread)
      (List.prefix_append rest behind) within
  obtain ⟨missing, split⟩ := start
  refine ⟨missing, split.symm, ?_⟩
  rw [← split, List.append_assoc] at front
  exact List.append_cancel_left front

/-- Once a packet is handed over, the reader is where the next one starts. -/
theorem synchronised_dispatch
    {reader : PacketReader}
    {done left packets : List ModulePacket}
    {packet : ModulePacket}
    (split : packets = done ++ packet :: left)
    (dispatched : reader.dispatched = done.map ModulePacket.content) :
    Synchronised ⟨.header, reader.dispatched ++ [packet.content]⟩
      (stream left) packets := by
  refine ⟨done ++ [packet], left, ?_, ?_, .header left⟩
  · rw [split, List.append_assoc]
    rfl
  · rw [dispatched, List.map_append]
    rfl

/-- Every call of `child_process` under the condition keeps the base module in step. -/
theorem childProcess_synchronised
    {reader next : PacketReader}
    {result : ReadResult}
    {unread : List UInt8}
    {packets : List ModulePacket}
    (synchronised : reader.Synchronised (result.data ++ unread) packets)
    (whole : reader.HeaderWhole result)
    (stepped : reader.childProcess result = .ok next) :
    next.Synchronised unread packets := by
  obtain ⟨done, left, split, dispatched, inStep⟩ := synchronised
  obtain ⟨phase, handed⟩ := reader
  generalize front : result.data ++ unread = bytes at inStep
  cases result with
  | wouldBlock =>
      have atHeader : phase = .header := whole
      subst atHeader
      cases stepped
      rw [show unread = bytes from front]
      exact ⟨done, left, split, dispatched, inStep⟩
  | bytes data stack heap =>
      cases inStep with
      | header =>
          unfold childProcess at stepped
          dsimp only at stepped
          split at stepped
          case isFalse => cases stepped
          rename_i bounds
          obtain ⟨packet, rest, rfl, unreadIs, lenIs, holds⟩ :=
            header_read (whole rfl) front stack heap
          have fits := packet.fits
          rw [lenIs, if_neg (by omega)] at stepped
          split at stepped
          · have empty : packet.payload = [] :=
              List.length_eq_zero_iff.mp (by omega)
            rw [← empty] at holds
            rw [holds.dispatch] at stepped
            cases stepped
            rw [unreadIs, empty]
            exact synchronised_dispatch split dispatched
          · rename_i someBody
            have length : data.length = localHeaderSize := whole rfl
            rw [length, Nat.add_sub_cancel_left] at stepped
            cases stepped
            refine ⟨done, packet :: rest, split, dispatched, ?_⟩
            rw [unreadIs]
            exact .body holds rfl (by
              intro empty
              rw [empty] at someBody
              exact someBody (Nat.le_refl _))
      | @body pkt packet got rest packets holds payload wanted =>
          unfold childProcess at stepped
          dsimp only at stepped
          split at stepped
          case isFalse => cases stepped
          rename_i bounds
          obtain ⟨missing, restIs, unreadIs⟩ := rest_of_body bounds.2 front
          have more : Holds _ packet (got ++ data) := holds.more
          rw [restIs, ← List.append_assoc] at payload
          split at stepped
          · rename_i complete
            have none : missing = [] := by
              rw [restIs, List.length_append] at complete
              exact List.length_eq_zero_iff.mp (by omega)
            rw [none, List.append_nil] at payload
            rw [← payload] at more
            rw [more.dispatch] at stepped
            cases stepped
            rw [unreadIs, none]
            exact synchronised_dispatch split dispatched
          · rename_i incomplete
            cases stepped
            refine ⟨done, packet :: packets, split, dispatched, ?_⟩
            have position :
                localHeaderSize + got.length + data.length =
                  localHeaderSize + (got ++ data).length := by
              rw [List.length_append, Nat.add_assoc]
            have length : rest.length - data.length = missing.length := by
              rw [restIs, List.length_append, Nat.add_sub_cancel_left]
            rw [position, length, unreadIs]
            exact .body more payload (by
              intro empty
              rw [restIs, empty, List.append_nil] at incomplete
              exact incomplete rfl)

/-- Every call of `recv_packet` under its condition keeps a module in step. -/
theorem moduleGetData_synchronised
    {reader next : PacketReader}
    {result : ReadResult}
    {unread : List UInt8}
    {packets : List ModulePacket}
    (synchronised : reader.Synchronised (result.data ++ unread) packets)
    (whole : reader.PacketWhole result)
    (stepped : reader.moduleGetData result = .ok next) :
    next.Synchronised unread packets := by
  obtain ⟨done, left, split, dispatched, inStep⟩ := synchronised
  obtain ⟨headerWhole, bodyWhole⟩ := whole
  obtain ⟨phase, handed⟩ := reader
  generalize front : result.data ++ unread = bytes at inStep
  cases result with
  | wouldBlock =>
      have atHeader : phase = .header := headerWhole
      subst atHeader
      cases stepped
      rw [show unread = bytes from front]
      exact ⟨done, left, split, dispatched, inStep⟩
  | bytes data stack heap =>
      cases inStep with
      | header =>
          unfold moduleGetData at stepped
          dsimp only at stepped
          split at stepped
          case isFalse => cases stepped
          obtain ⟨packet, rest, rfl, unreadIs, lenIs, holds⟩ :=
            header_read (headerWhole rfl) front stack heap
          have copied := (read_headerFields holds.fields packet.length_lt).2.2
          rw [copied, lenIs, if_neg (by omega)] at stepped
          split at stepped
          · have empty : packet.payload = [] :=
              List.length_eq_zero_iff.mp (by omega)
            rw [← empty] at holds
            rw [holds.accept] at stepped
            cases stepped
            rw [unreadIs, empty]
            exact synchronised_dispatch split dispatched
          · rename_i someBody
            rw [Nat.add_sub_cancel_left] at stepped
            cases stepped
            refine ⟨done, packet :: rest, split, dispatched, ?_⟩
            rw [unreadIs]
            exact .body holds rfl (by
              intro empty
              rw [empty] at someBody
              exact someBody rfl)
      | @body pkt packet got rest packets holds payload wanted =>
          unfold moduleGetData at stepped
          dsimp only at stepped
          split at stepped
          case isFalse => cases stepped
          have complete : data.length = rest.length :=
            bodyWhole _ _ _ _ _ _ rfl rfl
          obtain ⟨bodyRead, unreadIs⟩ := List.append_inj front complete
          subst bodyRead
          have more : Holds _ packet (got ++ data) := holds.more
          rw [show got ++ data = packet.payload from payload.symm] at more
          rw [more.accept] at stepped
          cases stepped
          rw [unreadIs]
          exact synchronised_dispatch split dispatched

/-! ## Runs -/

/-- A new connection is in step. -/
theorem synchronised_init
    (packets : List ModulePacket) :
    init.Synchronised (stream packets) packets :=
  ⟨[], packets, rfl, rfl, .header packets⟩

/-- What every call keeps, every run keeps. -/
theorem Synchronised.run
    {condition : PacketReader → ReadResult → Prop}
    {call : PacketReader → ReadResult → Except Unit PacketReader}
    {reader after : PacketReader}
    {results : List ReadResult}
    {unread : List UInt8}
    {packets : List ModulePacket}
    (keeps :
      ∀ {reader next result unread},
        reader.Synchronised (result.data ++ unread) packets →
        condition reader result →
        call reader result = .ok next →
        next.Synchronised unread packets)
    (run : Run (guarded condition (ofPartial call)) reader results after)
    (synchronised : reader.Synchronised (received results ++ unread) packets) :
    after.Synchronised unread packets := by
  induction run with
  | nil reader =>
      exact synchronised
  | cons first rest inductionHypothesis =>
      rw [received, List.flatMap_cons, List.append_assoc] at synchronised
      exact inductionHypothesis (keeps synchronised first.1 first.2)

/--
However the bytes of a connection arrive, `child_process` hands over the packets
that were written as long as every header is read whole and no body is given up,
and `module_get_data` does when every body is read whole as well.
-/
theorem moduleFraming_run
    {packets : List ModulePacket}
    {results : List ReadResult}
    (unread : List UInt8)
    (sent : received results ++ unread = stream packets) :
    (∀ after,
      Run (guarded HeaderWhole (ofPartial childProcess)) init results after →
        after.Agrees unread packets) ∧
      ∀ after,
        Run (guarded PacketWhole (ofPartial moduleGetData)) init results after →
          after.Agrees unread packets := by
  have start : init.Synchronised (received results ++ unread) packets := by
    rw [sent]
    exact synchronised_init packets
  constructor
  · intro after run
    exact (start.run childProcess_synchronised run).agrees
  · intro after run
    exact (start.run moduleGetData_synchronised run).agrees

/-- A policy that a module sent, and a message without a body from the base module. -/
def twoPackets : List ModulePacket :=
  [{ pktType := 54
     payload := [7, 8, 9]
     bytes := [54, 3, 11, 0, 0, 0, 0, 0, 7, 8, 9]
     fits := by decide
     written := .inl ⟨fun _ => 0, rfl⟩ },
   { pktType := 55
     payload := []
     bytes := [55, 3, 8, 0, 0x56, 0x34, 0x12, 0]
     fits := by decide
     written := .inr ⟨fun _ => 0, rfl⟩ }]

/-- Bytes that a call returns while the memory it finds is zero. -/
def arrived (data : List UInt8) : ReadResult :=
  .bytes data (fun _ => 0) (fun _ => 0)

theorem moduleFraming_run_two :
    (∃ after,
      Run (guarded HeaderWhole (ofPartial childProcess)) init
          [arrived [54, 3, 11, 0, 0, 0, 0, 0], arrived [7], arrived [8, 9],
            .wouldBlock, arrived [55, 3, 8, 0, 0x56, 0x34, 0x12, 0]] after ∧
        after.Agrees [] twoPackets) ∧
      ∃ after,
        Run (guarded PacketWhole (ofPartial moduleGetData)) init
            [arrived [54, 3, 11, 0, 0, 0, 0, 0], arrived [7, 8, 9],
              arrived [55, 3, 8, 0, 0x56, 0x34, 0x12, 0]] after ∧
          after.Agrees [] twoPackets := by
  constructor
  · obtain ⟨after, run⟩ :
        ∃ after,
          Run (guarded HeaderWhole (ofPartial childProcess)) init
            [arrived [54, 3, 11, 0, 0, 0, 0, 0], arrived [7], arrived [8, 9],
              .wouldBlock, arrived [55, 3, 8, 0, 0x56, 0x34, 0x12, 0]] after :=
      ⟨_, .cons ⟨fun _ => rfl, rfl⟩ <| .cons ⟨nofun, rfl⟩ <|
        .cons ⟨nofun, rfl⟩ <| .cons ⟨rfl, rfl⟩ <|
        .cons ⟨fun _ => rfl, rfl⟩ <| .nil _⟩
    exact ⟨after, run, (moduleFraming_run [] rfl).1 after run⟩
  · obtain ⟨after, run⟩ :
        ∃ after,
          Run (guarded PacketWhole (ofPartial moduleGetData)) init
            [arrived [54, 3, 11, 0, 0, 0, 0, 0], arrived [7, 8, 9],
              arrived [55, 3, 8, 0, 0x56, 0x34, 0x12, 0]] after :=
      ⟨_, .cons ⟨⟨fun _ => rfl, nofun⟩, rfl⟩ <|
        .cons ⟨⟨nofun, by rintro _ _ _ _ _ _ ⟨⟩ ⟨⟩; rfl⟩, rfl⟩ <|
        .cons ⟨⟨fun _ => rfl, nofun⟩, rfl⟩ <| .nil _⟩
    exact ⟨after, run, (moduleFraming_run [] rfl).2 after run⟩

/-- One packet with four bytes of payload. -/
def onePacket : List ModulePacket :=
  [{ pktType := 54
     payload := [1, 2, 3, 4]
     bytes := [54, 3, 12, 0, 0x56, 0x34, 0x12, 0, 1, 2, 3, 4]
     fits := by decide
     written := .inr ⟨fun _ => 0, rfl⟩ }]

/-- Reading the packet in these pieces garbles it. -/
def Garbles
    (call : PacketReader → ReadResult → Except Unit PacketReader)
    (results : List ReadResult) : Prop :=
  received results = stream onePacket ∧
    ∃ after,
      Run (ofPartial call) init results after ∧ ¬after.Agrees [] onePacket

/--
A header that comes in two halves, a body that is not all there at a wake-up, and
a body that a module receives in two halves.
-/
theorem split_packet_garbled :
    Garbles childProcess
        [arrived [54, 3, 12, 0], arrived [0x56, 0x34, 0x12, 0],
          arrived [1, 2, 3, 4]] ∧
      Garbles childProcess
        [arrived [54, 3, 12, 0, 0x56, 0x34, 0x12, 0], .wouldBlock,
          arrived [1, 2, 3, 4]] ∧
      Garbles moduleGetData
        [arrived [54, 3, 12, 0, 0x56, 0x34, 0x12, 0], arrived [1, 2],
          arrived [3, 4]] := by
  refine ⟨⟨rfl, _, .cons rfl (.cons rfl (.cons rfl (.nil _))), ?_⟩,
    ⟨rfl, _, .cons rfl (.cons rfl (.cons rfl (.nil _))), ?_⟩,
    ⟨rfl, _, .cons rfl (.cons rfl (.cons rfl (.nil _))), ?_⟩⟩ <;>
    exact fun agrees => absurd (agrees.2 rfl) (by decide)

end PacketReader

end Pma
