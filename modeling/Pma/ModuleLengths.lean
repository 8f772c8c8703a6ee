import Pma.ModuleFraming

namespace Pma

open Bytes

/-!
# The lengths of module packets

A payload passes three limits on its way: the length in the header has 16 bits,
`child_process` refuses a body above `MAXBUF`, and the senders take any `int`.
One packet is followed through a call of a sender and the reads of its receiver,
each of which gets what it asks for as long as there is something to read.
-/

/-- What a sender returns and the bytes that it hands to its socket. -/
structure SendReturn where
  ret : Int
  handed : List UInt8
  deriving Repr, DecidableEq

/-- `send` on a socket that takes so many bytes, or none at all and reports an error. -/
def sendBytes (accepted : Option Nat) (bytes : List UInt8) : SendReturn :=
  match accepted with
  | none => ⟨-1, []⟩
  | some count => ⟨(bytes.take count).length, bytes.take count⟩

/-- `send_packet` of a module. -/
def sendPacket (bmSock : Int) (accepted : Option Nat) (bytes : List UInt8) : SendReturn :=
  if bmSock = 0 then ⟨-1, []⟩ else sendBytes accepted bytes

/-- A call of `module_send_data`. -/
def callModuleSendData (bmSock : Int) (accepted : Option Nat) (heap : Nat → UInt8)
    (data : List UInt8) (type : UInt8) : SendReturn :=
  match moduleSendData heap data type with
  | none => ⟨-1, []⟩
  | some bytes => sendPacket bmSock accepted bytes

/-- `send_pkt` of the base module. -/
def sendPkt (sock : Int) (accepted : Option Nat) (bytes : List UInt8) : SendReturn :=
  if sock = 0 then
    ⟨-1, []⟩
  else
    let sent := sendBytes accepted bytes
    if sent.ret = 0 then ⟨-2, sent.handed⟩ else sent

/-- A call of `send_message_to_module`; the socket is the one of the module, if it is registered. -/
def callSendMessageToModule (mod : Option Int) (accepted : Option Nat) (heap : Nat → UInt8)
    (pkgType : UInt8) (data : List UInt8) : SendReturn :=
  match mod with
  | none => ⟨-1, []⟩
  | some sock => sendPkt sock accepted (sendMessageToModule heap pkgType data)

/-- The memory that the reads of a receiver find uninitialised, on the stack and on the heap. -/
abbrev Uninitialised := Nat → (Nat → UInt8) × (Nat → UInt8)

namespace PacketReader

/-- How many bytes the next read asks for. -/
def wanted (reader : PacketReader) : Nat :=
  match reader.phase with
  | .header => localHeaderSize
  | .body _ _ missing => missing

/-- The reader and the bytes it has left after some reads of a connection. -/
def reads
    (call : PacketReader → ReadResult → Except Unit PacketReader)
    (memory : Uninitialised)
    (available : List UInt8) : Nat → Except Unit (PacketReader × List UInt8)
  | 0 => .ok (init, available)
  | count + 1 =>
      match reads call memory available count with
      | .error fault => .error fault
      | .ok (reader, left) =>
          match call reader
            (.bytes (left.take reader.wanted) (memory count).1 (memory count).2) with
          | .error fault => .error fault
          | .ok next => .ok (next, left.drop reader.wanted)

/-- After some reads exactly this packet is handed above, and what is behind it comes next. -/
def Delivers
    (call : PacketReader → ReadResult → Except Unit PacketReader)
    (memory : Uninitialised)
    (sent behind : List UInt8)
    (pktType : UInt8)
    (payload : List UInt8) : Prop :=
  ∃ count,
    reads call memory (sent ++ behind) count = .ok (⟨.header, [(pktType, payload)]⟩, behind)

end PacketReader

/-- A call reports an error and sends nothing, or its packet arrives. -/
def SendReturn.Right
    (result : SendReturn)
    (call : PacketReader → ReadResult → Except Unit PacketReader)
    (memory : Uninitialised)
    (behind : List UInt8)
    (pktType : UInt8)
    (payload : List UInt8) : Prop :=
  (result.ret < 0 ∧ result.handed = []) ∨
    PacketReader.Delivers call memory result.handed behind pktType payload

namespace PacketReader

section

variable {memory : Uninitialised} {header payload behind : List UInt8} {pktType : UInt8}

/-- The step lemma: a read gets what it asks for. -/
theorem reads_succ
    {call : PacketReader → ReadResult → Except Unit PacketReader}
    {available data left : List UInt8}
    {count : Nat}
    {reader next : PacketReader}
    (before : reads call memory available count = .ok (reader, data ++ left))
    (whole : data.length = reader.wanted)
    (read : call reader (.bytes data (memory count).1 (memory count).2) = .ok next) :
    reads call memory available (count + 1) = .ok (next, left) := by
  rw [reads, before]
  simp only [← whole, List.take_left', List.drop_left', read]

/-- A header and a body that are read one after the other are a packet that arrives. -/
theorem delivers_of_reads
    {call : PacketReader → ReadResult → Except Unit PacketReader}
    {middle : PacketReader}
    (length : header.length = localHeaderSize)
    (headerRead : call init (.bytes header (memory 0).1 (memory 0).2) = .ok middle)
    (wanted : payload.length = middle.wanted)
    (bodyRead :
      call middle (.bytes payload (memory 1).1 (memory 1).2) =
        .ok ⟨.header, [(pktType, payload)]⟩) :
    Delivers call memory (header ++ payload) behind pktType payload := by
  have first :
      reads call memory ((header ++ payload) ++ behind) 1 = .ok (middle, payload ++ behind) := by
    refine reads_succ ?_ length headerRead
    rw [List.append_assoc]
    rfl
  exact ⟨2, reads_succ first wanted bodyRead⟩

/-! ## Packets that arrive -/

/-- A buffer with the fields of a packet is handed over with the payload that is behind them. -/
theorem dispatch_overwrite
    {pkt : Nat → UInt8}
    (held : window pkt 0 4 = headerFields pktType (localHeaderSize + payload.length))
    (fits : localHeaderSize + payload.length < 2 ^ 16)
    (reader : PacketReader) :
    reader.dispatch (overwrite pkt localHeaderSize payload) =
      ⟨.header, reader.dispatched ++ [(pktType, payload)]⟩ := by
  have kept :
      window (overwrite pkt localHeaderSize payload) 0 4 =
        headerFields pktType (localHeaderSize + payload.length) := by
    rw [window_overwrite_of_disjoint (.inl (by decide)), held]
  obtain ⟨typeHeld, -, lenHeld⟩ := read_headerFields kept fits
  rw [dispatch, typeHeld, lenHeld, Nat.add_sub_cancel_left, window_overwrite]

/-- The copy of a header on the stack and the one in the buffer have its fields. -/
theorem read_header
    (length : header.length = localHeaderSize)
    (fields : header.take 4 = headerFields pktType (localHeaderSize + payload.length))
    (stack heap : Nat → UInt8) :
    window (overwrite stack 0 header) 0 4 =
        headerFields pktType (localHeaderSize + payload.length) ∧
      window (overwrite heap 0 (window (overwrite stack 0 header) 0 4)) 0 4 =
        headerFields pktType (localHeaderSize + payload.length) := by
  have read : window (overwrite stack 0 header) 0 4 = header.take 4 := by
    rw [← take_window (by decide : 4 ≤ localHeaderSize), ← length, window_overwrite]
  rw [read, fields]
  refine ⟨rfl, ?_⟩
  have copied :=
    window_overwrite heap 0 (headerFields pktType (localHeaderSize + payload.length))
  rwa [length_headerFields] at copied

/-- `child_process` hands over a body of up to `MAXBUF` bytes. -/
theorem childProcess_delivers
    (length : header.length = localHeaderSize)
    (fields : header.take 4 = headerFields pktType (localHeaderSize + payload.length))
    (nonempty : payload.length ≠ 0)
    (fits : payload.length ≤ maxBuf) :
    Delivers childProcess memory (header ++ payload) behind pktType payload := by
  have inHeader : localHeaderSize + payload.length < 2 ^ 16 := by
    unfold localHeaderSize
    unfold maxBuf at fits
    omega
  obtain ⟨onStack, inBuffer⟩ := read_header length fields (memory 0).1 (memory 0).2
  have lenHeld := (read_headerFields onStack inHeader).2.2
  let pkt := overwrite (memory 0).2 0 (window (overwrite (memory 0).1 0 header) 0 4)
  have headerRead :
      init.childProcess (.bytes header (memory 0).1 (memory 0).2) =
        .ok ⟨.body pkt localHeaderSize payload.length, []⟩ := by
    simp only [childProcess, init, length, lenHeld]
    rw [if_pos (by decide), if_neg (by omega), if_neg (by omega), Nat.add_sub_cancel_left]
  have bodyRead :
      childProcess ⟨.body pkt localHeaderSize payload.length, []⟩
          (.bytes payload (memory 1).1 (memory 1).2) =
        .ok ⟨.header, [(pktType, payload)]⟩ := by
    simp only [childProcess]
    rw [if_pos ⟨by omega, Nat.le_refl _⟩, dispatch_overwrite inBuffer inHeader]
    simp
  exact delivers_of_reads length headerRead rfl bodyRead

/-- `module_get_data` hands over every body whose length fits the header. -/
theorem moduleGetData_delivers
    (length : header.length = localHeaderSize)
    (fields : header.take 4 = headerFields pktType (localHeaderSize + payload.length))
    (nonempty : payload.length ≠ 0)
    (fits : localHeaderSize + payload.length < 2 ^ 16) :
    Delivers moduleGetData memory (header ++ payload) behind pktType payload := by
  obtain ⟨onStack, inBuffer⟩ := read_header length fields (memory 0).1 (memory 0).2
  have lenHeld := (read_headerFields onStack fits).2.2
  let pkt := overwrite (memory 0).2 0 (window (overwrite (memory 0).1 0 header) 0 4)
  have copied := (read_headerFields inBuffer fits).2.2
  have headerRead :
      init.moduleGetData (.bytes header (memory 0).1 (memory 0).2) =
        .ok ⟨.body pkt localHeaderSize payload.length, []⟩ := by
    simp only [moduleGetData, init, length, lenHeld, copied]
    rw [if_pos (by decide), if_neg (by omega), if_neg (by omega), Nat.add_sub_cancel_left]
  have version : overwrite pkt localHeaderSize payload 1 = UInt8.ofNat pmaVersion := by
    have kept :
        window (overwrite pkt localHeaderSize payload) 0 4 =
          headerFields pktType (localHeaderSize + payload.length) := by
      rw [window_overwrite_of_disjoint (.inl (by decide))]
      exact inBuffer
    exact (read_headerFields kept fits).2.1
  have bodyRead :
      moduleGetData ⟨.body pkt localHeaderSize payload.length, []⟩
          (.bytes payload (memory 1).1 (memory 1).2) =
        .ok ⟨.header, [(pktType, payload)]⟩ := by
    simp only [moduleGetData]
    rw [if_pos ⟨by omega, Nat.le_refl _⟩, accept, if_pos version,
      dispatch_overwrite inBuffer fits]
    simp
  exact delivers_of_reads length headerRead rfl bodyRead

/-- A packet without a body is handed over when its header is read. -/
theorem moduleGetData_delivers_empty
    (length : header.length = localHeaderSize)
    (fields : header.take 4 = headerFields pktType localHeaderSize) :
    Delivers moduleGetData memory header behind pktType [] := by
  obtain ⟨-, inBuffer⟩ :=
    @read_header header [] pktType length fields (memory 0).1 (memory 0).2
  obtain ⟨typeHeld, version, lenHeld⟩ := read_headerFields inBuffer (by decide)
  rw [List.length_nil, Nat.add_zero] at lenHeld
  have headerRead :
      init.moduleGetData (.bytes header (memory 0).1 (memory 0).2) =
        .ok ⟨.header, [(pktType, [])]⟩ := by
    simp only [moduleGetData, init, length]
    rw [if_pos (by decide), lenHeld, if_neg (by decide), if_pos rfl, accept, if_pos version,
      dispatch, typeHeld, lenHeld]
    rfl
  exact ⟨1, reads_succ rfl length headerRead⟩

/-! ## Packets that do not -/

/-- What every read keeps, all reads keep. -/
theorem reads_invariant
    {call : PacketReader → ReadResult → Except Unit PacketReader}
    {holds : PacketReader → List UInt8 → Prop}
    {available : List UInt8}
    (start : holds init available)
    (keeps :
      ∀ {reader next data left stack heap},
        holds reader (data ++ left) →
        data.length = reader.wanted ∨ left = [] →
        call reader (.bytes data stack heap) = .ok next →
        holds next left)
    {count : Nat}
    {reader : PacketReader}
    {left : List UInt8}
    (run : reads call memory available count = .ok (reader, left)) :
    holds reader left := by
  induction count generalizing reader left with
  | zero =>
      cases run
      exact start
  | succ count inductionHypothesis =>
      rw [reads] at run
      split at run
      · cases run
      · next earlier before ran =>
          split at run
          · cases run
          · next after read =>
              cases run
              refine keeps ?_ ?_ read
              · rw [List.take_append_drop]
                exact inductionHypothesis ran
              · rw [List.length_take, List.drop_eq_nil_iff]
                omega

/-- The length in a buffer is the one of the header that was copied to it. -/
theorem pktLen_copied
    (heap header : Nat → UInt8) :
    pktLen (overwrite heap 0 (window header 0 4)) = pktLen header := by
  have copied : window (overwrite heap 0 (window header 0 4)) 0 4 = window header 0 4 := by
    have whole := window_overwrite heap 0 (window header 0 4)
    rwa [length_window] at whole
  have lengths := congrArg (List.drop 2) copied
  rw [window_add _ 0 2 2, window_add _ 0 2 2, List.drop_left' (length_window _ _ _),
    List.drop_left' (length_window _ _ _)] at lengths
  exact congrArg leValue lengths

theorem pktLen_lt
    (pkt : Nat → UInt8) :
    pktLen pkt < 2 ^ 16 := by
  have bound := leValue_lt (window pkt 2 2)
  rw [length_window] at bound
  exact bound

theorem length_dispatched
    {reader : PacketReader}
    {pkt : Nat → UInt8}
    {limit : Nat}
    (earlier : ∀ packet ∈ reader.dispatched, packet.2.length ≤ limit)
    (within : pktLen pkt ≤ localHeaderSize + limit) :
    ∀ packet ∈ (reader.dispatch pkt).dispatched, packet.2.length ≤ limit := by
  intro packet member
  rcases List.mem_append.mp member with old | new
  · exact earlier packet old
  · rw [List.mem_singleton.mp new, length_window]
    omega

/-- No body above `MAXBUF` is read, unless nothing is left of it. -/
structure Bounded (reader : PacketReader) (left : List UInt8) : Prop where
  dispatched : ∀ packet ∈ reader.dispatched, packet.2.length ≤ maxBuf
  body :
    ∀ pkt position missing, reader.phase = .body pkt position missing →
      left ≠ [] → localHeaderSize ≤ position ∧ pktLen pkt ≤ localHeaderSize + maxBuf

/-- The step lemma for `child_process`. -/
theorem Bounded.childProcess
    {reader next : PacketReader}
    {data left : List UInt8}
    {stack heap : Nat → UInt8}
    (bounded : reader.Bounded (data ++ left))
    (whole : data.length = reader.wanted ∨ left = [])
    (read : reader.childProcess (.bytes data stack heap) = .ok next) :
    next.Bounded left := by
  obtain ⟨phase, handed⟩ := reader
  cases phase with
  | header =>
      unfold PacketReader.childProcess at read
      dsimp only at read
      split at read
      · split at read
        · cases read
          exact ⟨bounded.dispatched, nofun⟩
        · next small =>
            split at read
            · next empty =>
                cases read
                refine ⟨length_dispatched bounded.dispatched ?_, nofun⟩
                rw [pktLen_copied]
                omega
            · cases read
              refine ⟨bounded.dispatched, ?_⟩
              rintro _ _ _ ⟨⟩ more
              have length : data.length = localHeaderSize := whole.resolve_right more
              rw [pktLen_copied, length]
              exact ⟨Nat.le_refl _, by omega⟩
      · cases read
  | body pkt position missing =>
      unfold PacketReader.childProcess at read
      dsimp only at read
      split at read
      · next bounds =>
          have more : data ++ left ≠ [] := by
            intro none
            rw [(List.append_eq_nil_iff.mp none).1] at bounds
            exact absurd bounds.1 (by decide)
          obtain ⟨behind, within⟩ := bounded.body _ _ _ rfl more
          have kept : pktLen (overwrite pkt position data) = pktLen pkt := by
            unfold pktLen
            rw [window_overwrite_of_disjoint (.inl (by unfold localHeaderSize at behind; omega))]
          split at read
          · cases read
            refine ⟨length_dispatched bounded.dispatched ?_, nofun⟩
            rw [kept]
            exact within
          · cases read
            refine ⟨bounded.dispatched, ?_⟩
            rintro _ _ _ ⟨⟩ _
            rw [kept]
            exact ⟨by omega, within⟩
      · cases read

/-- A body above `MAXBUF` never arrives at the base module. -/
theorem childProcess_not_delivers
    {sent : List UInt8}
    (above : maxBuf < payload.length) :
    ¬Delivers childProcess memory sent behind pktType payload := by
  rintro ⟨count, run⟩
  have start : init.Bounded (sent ++ behind) := ⟨by simp [init], nofun⟩
  have bounded := reads_invariant start Bounded.childProcess run
  have handed := bounded.dispatched _ (List.mem_singleton_self _)
  simp only at handed
  omega

/-- The step lemma for `module_get_data`: a length has 16 bits. -/
theorem dispatched_moduleGetData
    {reader next : PacketReader}
    {result : ReadResult}
    (handed : ∀ packet ∈ reader.dispatched, packet.2.length ≤ 2 ^ 16 - 1 - localHeaderSize)
    (read : reader.moduleGetData result = .ok next) :
    ∀ packet ∈ next.dispatched, packet.2.length ≤ 2 ^ 16 - 1 - localHeaderSize := by
  have accepted
      (pkt : Nat → UInt8) :
      ∀ packet ∈ (reader.accept pkt).dispatched,
        packet.2.length ≤ 2 ^ 16 - 1 - localHeaderSize := by
    unfold accept
    split
    · apply length_dispatched handed
      have bound := pktLen_lt pkt
      unfold localHeaderSize
      omega
    · exact handed
  cases result with
  | wouldBlock =>
      cases read
      exact handed
  | bytes data stack heap =>
      unfold moduleGetData at read
      dsimp only at read
      split at read
      · split at read
        · split at read
          · cases read
            exact handed
          · split at read
            · cases read
              exact accepted _
            · cases read
              exact handed
        · cases read
      · split at read
        · cases read
          exact accepted _
        · cases read

/-- A body whose length does not fit the header never arrives at a module. -/
theorem moduleGetData_not_delivers
    {sent : List UInt8}
    (above : 2 ^ 16 ≤ localHeaderSize + payload.length) :
    ¬Delivers moduleGetData memory sent behind pktType payload := by
  rintro ⟨count, run⟩
  have kept :
      ∀ packet ∈ PacketReader.dispatched ⟨.header, [(pktType, payload)]⟩,
        packet.2.length ≤ 2 ^ 16 - 1 - localHeaderSize :=
    @reads_invariant memory moduleGetData
      (fun reader _ =>
        ∀ packet ∈ reader.dispatched, packet.2.length ≤ 2 ^ 16 - 1 - localHeaderSize)
      (sent ++ behind) (by simp [init]) (fun handed _ => dispatched_moduleGetData handed) _ _ _ run
  have handed := kept _ (List.mem_singleton_self _)
  simp only at handed
  unfold localHeaderSize at above handed
  omega

end

end PacketReader

open PacketReader

section

variable {memory : Uninitialised} {heap : Nat → UInt8} {data behind : List UInt8}
  {pktType : UInt8} {bmSock : Int} {mod : Option Int} {accepted : Option Nat} {count : Nat}

/-! ## The two ways -/

/-- A body above `MAXBUF` is sent without an error, and does not arrive. -/
theorem callModuleSendData_wrong
    (nonempty : data.length ≠ 0)
    (connected : bmSock ≠ 0)
    (above : maxBuf < data.length) :
    ¬(callModuleSendData bmSock (some count) heap data pktType).Right childProcess memory behind
      pktType data := by
  have sent : 0 ≤ (callModuleSendData bmSock (some count) heap data pktType).ret := by
    simp [callModuleSendData, moduleSendData, nonempty, sendPacket, connected, sendBytes]
  rintro (⟨failed, -⟩ | delivers)
  · omega
  · exact childProcess_not_delivers above delivers

/-- From a module to the base module. -/
theorem callModuleSendData_right_iff
    (nonempty : data.length ≠ 0)
    (whole : ∀ count, accepted = some count → localHeaderSize + data.length ≤ count) :
    (callModuleSendData bmSock accepted heap data pktType).Right childProcess memory behind
        pktType data ↔
      bmSock = 0 ∨ accepted = none ∨ data.length ≤ maxBuf := by
  by_cases closed : bmSock = 0
  · simp [SendReturn.Right, callModuleSendData, moduleSendData, nonempty, sendPacket, closed]
  · cases accepted with
    | none =>
        simp [SendReturn.Right, callModuleSendData, moduleSendData, nonempty, sendPacket,
          sendBytes]
    | some count =>
        simp only [closed, reduceCtorEq, false_or]
        constructor
        · intro right
          by_contra above
          exact callModuleSendData_wrong nonempty closed (Nat.lt_of_not_le above) right
        · intro fits
          have inHeader : localHeaderSize + data.length < 2 ^ 16 := by
            unfold localHeaderSize
            unfold maxBuf at fits
            omega
          obtain ⟨header, length, fields, sent⟩ :=
            @moduleSendData_split heap data pktType nonempty inHeader
          have all : (header ++ data).take count = header ++ data := by
            apply List.take_of_length_le
            rw [List.length_append, length]
            exact whole count rfl
          have handed :
              (callModuleSendData bmSock (some count) heap data pktType).handed =
                header ++ data := by
            simp only [callModuleSendData, sent, sendPacket, closed, if_false, sendBytes, all]
          right
          rw [handed]
          exact childProcess_delivers length fields nonempty fits

/-- From the base module to a module. -/
theorem callSendMessageToModule_right_iff
    (nonempty : data.length ≠ 0)
    (whole : ∀ count, accepted = some count → localHeaderSize + data.length ≤ count) :
    (callSendMessageToModule mod accepted heap pktType data).Right moduleGetData memory behind
        pktType data ↔
      mod = none ∨ mod = some 0 ∨ accepted = none ∨
        localHeaderSize + data.length < 2 ^ 16 := by
  obtain ⟨header, length, fields, sent⟩ := sendMessageToModule_split heap pktType data
  cases mod with
  | none =>
      simp [callSendMessageToModule, SendReturn.Right]
  | some sock =>
      by_cases closed : sock = 0
      · simp [callSendMessageToModule, SendReturn.Right, sendPkt, closed]
      · cases accepted with
        | none =>
            simp [callSendMessageToModule, SendReturn.Right, sendPkt, sendBytes]
        | some count =>
            have all : (header ++ data).take count = header ++ data := by
              apply List.take_of_length_le
              rw [List.length_append, length]
              exact whole count rfl
            have sentSome : ¬((header ++ data).length : Int) = 0 := by
              rw [List.length_append, length]
              unfold localHeaderSize
              omega
            have result :
                callSendMessageToModule (some sock) (some count) heap pktType data =
                  ⟨(header ++ data).length, header ++ data⟩ := by
              simp only [callSendMessageToModule, sendPkt, closed, sendBytes, sent, all, sentSome,
                if_false]
            rw [result]
            simp only [reduceCtorEq, Option.some.injEq, closed, false_or]
            constructor
            · rintro (⟨failed, -⟩ | delivers)
              · simp only at failed
                omega
              · by_contra above
                exact moduleGetData_not_delivers (Nat.le_of_not_lt above) delivers
            · intro fits
              exact .inr (moduleGetData_delivers length fields nonempty fits)

end

/--
A call of `module_send_data` reports an error or its packet arrives if and only if
the call is refused or the payload has at most 50000 bytes; a call of
`send_message_to_module`, if it is refused or the payload has at most 65527 bytes.
A `send` that does not fail takes the whole packet.
-/
theorem moduleLengths_right_iff
    (data : List UInt8)
    (nonempty : data.length ≠ 0)
    (pktType : UInt8)
    (heap : Nat → UInt8)
    (memory : Uninitialised)
    (behind : List UInt8)
    (bmSock : Int)
    (mod : Option Int)
    (accepted : Option Nat)
    (whole : ∀ count, accepted = some count → localHeaderSize + data.length ≤ count) :
    ((callModuleSendData bmSock accepted heap data pktType).Right childProcess memory behind
        pktType data ↔
      bmSock = 0 ∨ accepted = none ∨ data.length ≤ 50000) ∧
    ((callSendMessageToModule mod accepted heap pktType data).Right moduleGetData memory behind
        pktType data ↔
      mod = none ∨ mod = some 0 ∨ accepted = none ∨ data.length ≤ 65527) := by
  refine ⟨callModuleSendData_right_iff nonempty whole, ?_⟩
  rw [callSendMessageToModule_right_iff nonempty whole]
  have limit : localHeaderSize + data.length < 2 ^ 16 ↔ data.length ≤ 65527 := by
    unfold localHeaderSize
    omega
  rw [limit]

/-- Three bytes, both ways. -/
theorem moduleLengths_right_three :
    (callModuleSendData 4 (some 11) (fun _ => 0) [1, 2, 3] 20).Right childProcess
        (fun _ => (fun _ => 0, fun _ => 0)) [9] 20 [1, 2, 3] ∧
      (callSendMessageToModule (some 5) (some 11) (fun _ => 0) 20 [1, 2, 3]).Right moduleGetData
        (fun _ => (fun _ => 0, fun _ => 0)) [9] 20 [1, 2, 3] := by
  have both :=
    moduleLengths_right_iff [1, 2, 3] (by decide) 20 (fun _ => 0)
      (fun _ => (fun _ => 0, fun _ => 0)) [9] 4 (some 5) (some 11)
      (fun _ same => by cases same; decide)
  exact ⟨both.1.mpr (.inr (.inr (by decide))), both.2.mpr (.inr (.inr (.inr (by decide))))⟩

/-- A document of 50001 bytes. -/
theorem callModuleSendData_long_wrong :
    ¬(callModuleSendData 4 (some 50009) (fun _ => 0) (List.replicate 50001 32) 20).Right
      childProcess (fun _ => (fun _ => 0, fun _ => 0)) [] 20 (List.replicate 50001 32) :=
  callModuleSendData_wrong (by rw [List.length_replicate]; decide) (by decide)
    (by rw [List.length_replicate]; decide)

end Pma
