import Pma.ModuleFraming
import Pma.PmsFraming

namespace Pma

open Transition
open Bytes

/-!
# Lengths that a peer makes up

The receivers trust the length in the header, and the handlers take the size of
a header off it.  What a handler passes on is a slice of the buffer of the
packet; it is harmless if all of it came from the peer.
-/

/-- A pointer into the buffer of a packet, and a length that may have gone wrong. -/
structure Slice where
  start : Nat
  len : Int
  deriving Repr, DecidableEq

/-- Every byte of the slice is among those received. -/
def Slice.Inside (slice : Slice) (received : Nat) : Prop :=
  0 ≤ slice.len ∧ slice.start + slice.len ≤ received

/-- Where a handler passes a slice on to. -/
inductive Recipient where
  /-- `send_message_to_module`. -/
  | module (id : ModuleId) (pktType : UInt8)
  /-- `send_message_to_pms`. -/
  | pms (opsType : UInt8)
  /-- `process_neighbor_list`. -/
  | neighborList
  /-- The copy in `xml_policy_buff`. -/
  | xmlPolicyBuff
  /-- The copy for `save_router_table_to_xml`. -/
  | routerTable
  deriving Repr, DecidableEq

/-- What a handler passes on. -/
abbrev Forward := Recipient × Slice

/-- `add_ctl`: the handlers by type, the last one added first. -/
abbrev Ctl (Arg : Type) := List (UInt8 × (Arg → List Forward))

/-- `run_ctl`: call the handler for a type, if there is one. -/
def Ctl.run {Arg : Type} (ctl : Ctl Arg) (pktType : UInt8) (arg : Arg) : List Forward :=
  match ctl.lookup pktType with
  | none => []
  | some handler => handler arg

/-! ## Packets from outside -/

/-- `pkt->data += headerSize` and `pkt->len -= headerSize`, which is unsigned. -/
def Packet.strip (pkt : Packet) (headerSize : Nat) : Slice :=
  ⟨headerSize, ((pkt.len + (u32Max + 1) - headerSize) % (u32Max + 1) : Nat)⟩

/-- The handlers that take off `struct pma_pms_header`. -/
def Packet.stripPmsHeader (recipient : Recipient) (pkt : Packet) : List Forward :=
  [(recipient, pkt.strip pmaPmsHeaderSize)]

def handleOpsPmsPolicySend : Packet → List Forward :=
  Packet.stripPmsHeader (.module .DBM 51)

def handleOpsPmsMariSend : Packet → List Forward :=
  Packet.stripPmsHeader (.module .PEM 60)

def handleOpsPmsTunCommand : Packet → List Forward :=
  Packet.stripPmsHeader (.module .PEM 61)

def handleOpsPmsNeighborList : Packet → List Forward :=
  Packet.stripPmsHeader .neighborList

/-- What `child_process` gives to `module_data_handle`. -/
structure ChildPacket where
  pkt : Nat → UInt8
  received : Nat

/-- The body, as `pkt_len` describes it. -/
def ChildPacket.payload (packet : ChildPacket) : Slice :=
  ⟨localHeaderSize, (pktLen packet.pkt : Int) - localHeaderSize⟩

/--
One packet read by `child_process`; nothing is passed on if it is too long or the
body does not come.
-/
def childProcessPacket
    (stack heap : Nat → UInt8)
    (chunks : List (List UInt8)) : Option ChildPacket :=
  match recv localHeaderSize chunks with
  | none => none
  | some (data, rest) =>
      let header := overwrite stack 0 data
      let pkt := overwrite heap 0 (window header 0 4)
      if localHeaderSize + maxBuf < pktLen header then
        none
      else
        match recvRest (pktLen header - localHeaderSize) rest with
        | none => none
        | some body =>
            some ⟨overwrite pkt data.length body, data.length + body.length⟩

/-- The handlers that pass the body on. -/
def ChildPacket.passOn
    (recipient : UInt8 → Recipient)
    (packet : ChildPacket) : List Forward :=
  [(recipient (packet.pkt 0), packet.payload)]

section Handlers

variable {pkt : Packet} {received : Nat}

end Handlers

/-! ## What is in a header -/

/-- The first bytes of a stream, with zeros for those that have not come. -/
def headerOf (bytes : List UInt8) : List UInt8 :=
  zeroFilled commonHeaderSize (bytes.take commonHeaderSize)

/-- The length in the header, as the first result of `recv` shows it. -/
def claimedLen (chunks : List (List UInt8)) : Nat :=
  pkgLen (headerOf (chunks.headD []))

/-- The length in the header of the whole stream. -/
def statedLen (chunks : List (List UInt8)) : Nat :=
  pkgLen (headerOf chunks.flatten)

/-- The type in the header. -/
def statedType (chunks : List (List UInt8)) : UInt8 :=
  (chunks.headD []).headD 0

section Streams

variable {chunks : List (List UInt8)}

/-- How a receiver can end with a stream. -/
inductive Ends
    (chunks : List (List UInt8))
    (first : Nat) : Except ReceiveFault Reading → Prop where
  | overrun
      (largest : claimedLen chunks = u32Max) :
      Ends chunks first (.error .overrun)
  | closed
      (other : claimedLen chunks ≠ u32Max)
      (short : chunks.flatten.length < claimedLen chunks) :
      Ends chunks first (.error .closed)
  /-- The first result has all that is claimed. -/
  | atOnce
      {buf : List UInt8}
      (typeIs : pkgType buf = statedType chunks)
      (lenIs : pkgLen buf = claimedLen chunks)
      (within : claimedLen chunks ≤ first) :
      Ends chunks first (.ok ⟨buf, buf, first⟩)
  /-- The rest was received to another buffer. -/
  | assembled
      {buf newbuf : List UInt8}
      (typeIs : pkgType buf = statedType chunks)
      (lenIs : pkgLen buf = claimedLen chunks)
      (typeAgain : pkgType newbuf = statedType chunks)
      (lenAgain : pkgLen newbuf = statedLen chunks)
      (other : claimedLen chunks ≠ u32Max)
      (more : first < claimedLen chunks)
      (enough : claimedLen chunks ≤ chunks.flatten.length) :
      Ends chunks first (.ok ⟨buf, newbuf, claimedLen chunks⟩)

end Streams

/-! ## When a stream of a module is harmless -/

section LocalStreams

variable {chunks : List (List UInt8)}

/-- The length in the header by what the first `read` returned, and zeros. -/
def claimedPktLen (chunks : List (List UInt8)) : Nat :=
  pktLen (overwrite (fun _ => 0) 0 ((chunks.headD []).take localHeaderSize))

/-- The number of bytes behind those. -/
def bodyLen (chunks : List (List UInt8)) : Nat :=
  chunks.flatten.length - min localHeaderSize (chunks.headD []).length

/-- What `child_process` does with any stream at all. -/
theorem childProcessPacket_cons
    (stack heap : Nat → UInt8)
    {chunk data body : List UInt8}
    {rest : List (List UInt8)}
    (dataIs : data = chunk.take localHeaderSize)
    (bodyIs : body = (chunk :: rest).flatten.drop data.length) :
    childProcessPacket stack heap (chunk :: rest) =
      if localHeaderSize + maxBuf < pktLen (overwrite stack 0 data) then
        none
      else if pktLen (overwrite stack 0 data) - localHeaderSize ≤ body.length then
        some
          { pkt :=
              overwrite (overwrite heap 0 (window (overwrite stack 0 data) 0 4))
                data.length
                (body.take (pktLen (overwrite stack 0 data) - localHeaderSize))
            received :=
              data.length + (pktLen (overwrite stack 0 data) - localHeaderSize) }
      else
        none := by
  obtain ⟨later, received, split⟩ := recv_cons localHeaderSize chunk rest
  rw [← dataIs] at received split
  have behind : later.flatten = body := by
    rw [bodyIs, ← split, List.drop_left]
  rw [childProcessPacket, received]
  dsimp only
  rw [recvRest_eq, behind]
  by_cases refused : localHeaderSize + maxBuf < pktLen (overwrite stack 0 data)
  · rw [if_pos refused, if_pos refused]
  · rw [if_neg refused, if_neg refused]
    by_cases enough :
        pktLen (overwrite stack 0 data) - localHeaderSize ≤ body.length
    · rw [if_pos enough, if_pos enough]
      dsimp only
      rw [List.length_take_of_le enough]
    · rw [if_neg enough, if_neg enough]

/-- The bytes of the first `read`, and those behind them. -/
theorem split_stream
    (chunk : List UInt8)
    (rest : List (List UInt8)) :
    ∃ data body : List UInt8,
      data = chunk.take localHeaderSize ∧
        body = (chunk :: rest).flatten.drop data.length ∧
        data.length = min localHeaderSize chunk.length ∧
        body.length = bodyLen (chunk :: rest) ∧
        pktLen (overwrite (fun _ => 0) 0 data) = claimedPktLen (chunk :: rest) := by
  refine ⟨_, _, rfl, rfl, List.length_take, ?_, rfl⟩
  rw [List.length_drop, List.length_take]
  rfl

/--
The packet is the one that the steps of `child_process` hand over; how its body
is split does not matter.
-/
theorem childProcessPacket_run
    {reader : PacketReader}
    (atHeader : reader.phase = .header)
    {stack heap : Nat → UInt8}
    {chunk : List UInt8}
    {rest : List (List UInt8)}
    {packet : ChildPacket}
    (nonempty : chunk ≠ [])
    (read : childProcessPacket stack heap (chunk :: rest) = some packet) :
    ∃ results,
      Run (ofPartial PacketReader.childProcess) reader results
        (reader.dispatch packet.pkt) := by
  obtain ⟨data, body, dataIs, bodyIs, dataLength, -⟩ := split_stream chunk rest
  have bounds : 0 < data.length ∧ data.length ≤ localHeaderSize := by
    have size : 0 < chunk.length := List.length_pos_iff.mpr nonempty
    unfold localHeaderSize at *
    omega
  rw [childProcessPacket_cons stack heap dataIs bodyIs] at read
  split at read
  case isTrue => cases read
  rename_i accepted
  split at read
  case isFalse => cases read
  rename_i complete
  cases read
  have headerRead :
      reader.childProcess (.bytes data stack heap) =
        if pktLen (overwrite stack 0 data) ≤ localHeaderSize then
          .ok (reader.dispatch
            (overwrite heap 0 (window (overwrite stack 0 data) 0 4)))
        else
          .ok { reader with
            phase := .body
              (overwrite heap 0 (window (overwrite stack 0 data) 0 4)) data.length
              (pktLen (overwrite stack 0 data) - localHeaderSize) } := by
    rw [PacketReader.childProcess, atHeader]
    dsimp only
    rw [if_pos bounds, if_neg accepted]
  by_cases short : pktLen (overwrite stack 0 data) ≤ localHeaderSize
  · rw [if_pos short] at headerRead
    refine ⟨[.bytes data stack heap], .cons ?_ (.nil _)⟩
    rw [Nat.sub_eq_zero_of_le short, List.take_zero, overwrite_nil]
    exact headerRead
  · rw [if_neg short] at headerRead
    refine ⟨[.bytes data stack heap,
        .bytes (body.take (pktLen (overwrite stack 0 data) - localHeaderSize))
          stack heap],
      .cons headerRead (.cons ?_ (.nil _))⟩
    have length := List.length_take_of_le complete
    change PacketReader.childProcess _ _ = _
    rw [PacketReader.childProcess]
    dsimp only
    rw [if_pos ⟨by omega, Nat.le_of_eq length⟩, if_pos length]
    rfl

end LocalStreams

end Pma
