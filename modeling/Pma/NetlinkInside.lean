import Pma.NetlinkDump

namespace Pma.Netlink

open Bytes StructLayout Records

/-!
# Datagrams with any bytes

The loops of `netlink/netlink.c` and `netlink/route.c` trust some lengths and
check others.  For datagrams whose size is a multiple of four this is enough,
whatever their bytes, as long as twelve bytes of the buffer are left.
-/

section

variable
  {buf : Nat → UInt8}
  {h rta width : Nat}

/-- A read inside the buffer succeeds. -/
theorem read_inside
    (inside : rta + width ≤ nlPktBufSize) :
    read buf rta width = .ok (leValue (window buf rta width)) :=
  if_pos inside

/-- The computation ends without a fault. -/
def Ends {Result : Type} (computation : Except Fault Result) : Prop :=
  ∃ result, computation = .ok result

theorem ends_ok
    {Result : Type}
    (result : Result) :
    Ends (.ok result) :=
  ⟨result, rfl⟩

theorem Ends.bind
    {First Second : Type}
    {first : Except Fault First}
    {next : First → Except Fault Second}
    (firstEnds : Ends first)
    (nextEnds : ∀ result, first = .ok result → Ends (next result)) :
    Ends (first >>= next) := by
  obtain ⟨result, isFirst⟩ := firstEnds
  rw [isFirst]
  exact nextEnds result isFirst

theorem ends_read
    (inside : rta + width ≤ nlPktBufSize) :
    Ends (read buf rta width) :=
  ⟨_, read_inside inside⟩

theorem ends_ite
    {Result : Type}
    {condition : Prop}
    [Decidable condition]
    {first second : Except Fault Result}
    (firstEnds : condition → Ends first)
    (secondEnds : ¬ condition → Ends second) :
    Ends (if condition then first else second) := by
  by_cases holds : condition
  · rw [if_pos holds]
    exact firstEnds holds
  · rw [if_neg holds]
    exact secondEnds holds

/-- All attributes found have their first four bytes behind the header in the buffer. -/
def Bounded (tb : Nat → Option Nat) : Prop :=
  ∀ type, ∀ place ∈ tb type, place + 8 ≤ nlPktBufSize

/-- `RTA_OK`, with what it says of the length. -/
theorem rtaOk_inside
    {len : Int}
    (inside : rta + len + 12 ≤ nlPktBufSize) :
    (rtaOk buf rta len = .ok true ∧ read buf rta 2 = .ok (leValue (window buf rta 2)) ∧
        4 ≤ leValue (window buf rta 2) ∧ (leValue (window buf rta 2) : Int) ≤ len) ∨
      rtaOk buf rta len = .ok false := by
  unfold rtaOk
  by_cases large : len ≥ 4
  · have isRead : read buf rta 2 = .ok (leValue (window buf rta 2)) :=
      read_inside (by omega)
    rw [if_pos large, isRead, ok_bind]
    by_cases ok : 4 ≤ leValue (window buf rta 2) ∧ (leValue (window buf rta 2) : Int) ≤ len
    · exact .inl ⟨congrArg Except.ok (decide_eq_true ok), rfl, ok⟩
    · exact .inr (congrArg Except.ok (decide_eq_false ok))
  · rw [if_neg large]
    exact .inr rfl

/-- An attribute that starts twelve bytes before the end may be found. -/
theorem Bounded.update
    {tb : Nat → Option Nat}
    (bounded : Bounded tb)
    (inside : rta + 8 ≤ nlPktBufSize)
    (type : Nat) :
    Bounded (Function.update tb type (some rta)) := by
  intro other place found
  by_cases same : other = type
  · rw [same, Function.update_self, Option.mem_some_iff] at found
    exact found ▸ inside
  · rw [Function.update_of_ne same] at found
    exact bounded other place found

/-- The loop over the attributes stays inside, whatever the bytes. -/
theorem netlinkParseRtattr_inside
    {max fuel : Nat}
    {tb : Nat → Option Nat}
    {len : Int}
    (bounded : Bounded tb)
    (inside : rta + len + 12 ≤ nlPktBufSize)
    (enough : len < fuel)
    (positive : 0 < fuel) :
    ∃ after, netlinkParseRtattr buf max fuel rta len tb = .ok after ∧ Bounded after := by
  have size : nlPktBufSize = 4096 := rfl
  induction fuel generalizing rta len tb with
  | zero =>
      exact absurd positive (lt_irrefl 0)
  | succ fuel inductionHypothesis =>
      rcases rtaOk_inside inside with ⟨isOk, isLen, large, within⟩ | notOk
      · have isType : read buf (rta + 2) 2 = .ok (leValue (window buf (rta + 2) 2)) :=
          read_inside (by omega)
        -- The padding of the last attribute may make `len` negative.
        have atLeast := le_alignUp (show 0 < 4 by decide) (leValue (window buf rta 2))
        rw [netlinkParseRtattr, isOk, ok_bind, if_pos rfl, isLen, ok_bind, isType, ok_bind]
        apply inductionHypothesis
        · by_cases low : leValue (window buf (rta + 2) 2) ≤ max
          · rw [if_pos low]
            exact bounded.update (by omega) _
          · rw [if_neg low]
            exact bounded
        · omega
        · omega
        · omega
      · refine ⟨tb, ?_, bounded⟩
        rw [netlinkParseRtattr, notOk]
        rfl

/-- The number in an attribute that was found lies inside. -/
theorem ends_rtaValue
    {tb : Nat → Option Nat}
    (bounded : Bounded tb)
    (type : Nat) :
    Ends (rtaValue buf (tb type)) := by
  cases found : tb type with
  | none =>
      exact ends_ok _
  | some place =>
      have inside := bounded type place found
      exact (ends_read (by omega)).bind fun _ _ => ends_ok _

/-- `netlink_routing_table` stays inside, whatever the message. -/
theorem ends_netlinkRoutingTable
    {rtaMax len : Nat}
    (isLen : nlmsgLen buf h = .ok len)
    (inside : h + len + 12 ≤ nlPktBufSize)
    (large : 16 ≤ len)
    (routeList : List Route) :
    Ends (netlinkRoutingTable rtaMax buf h routeList) := by
  have size : nlPktBufSize = 4096 := rfl
  have isData : nlmsgData h = h + 16 := rfl
  have byte {place : Nat} (low : place ≤ h + 27) : Ends (read buf place 1) :=
    ends_read (by omega)
  unfold netlinkRoutingTable
  refine (ends_read (by omega)).bind fun type _ => ends_ite (fun _ => ends_ok _) fun _ => ?_
  refine (byte (by omega)).bind fun unicast _ => ends_ite (fun _ => ends_ok _) fun _ => ?_
  rw [isLen, ok_bind]
  refine ends_ite (fun _ => ends_ok _) fun _ => ?_
  have isInt : (Int32.ofInt ((len : Int) - 28)).toInt = (len : Int) - 28 :=
    Int32.toInt_ofInt_of_le (by omega) (by omega)
  have nothing : Bounded fun _ => none := by
    intro type place found
    cases found
  have parsed :
      ∃ tb,
        netlinkParseRtattr buf rtaMax (nlPktBufSize + 1) (nlmsgData h + 12) ((len : Int) - 28)
            (fun _ => none) = .ok tb ∧
          Bounded tb :=
    netlinkParseRtattr_inside nothing (by omega) (by omega) (by omega)
  obtain ⟨tb, isFound, bounded⟩ := parsed
  rw [isInt, isFound, ok_bind]
  refine (ends_read (by omega)).bind fun flags _ => ends_ite (fun _ => ends_ok _) fun _ => ?_
  refine (byte (by omega)).bind fun protocol _ => ends_ite (fun _ => ends_ok _) fun _ => ?_
  refine (byte (by omega)).bind fun srcLen _ => ends_ite (fun _ => ends_ok _) fun _ => ?_
  refine (ends_rtaValue bounded _).bind fun index _ => ?_
  refine (ends_rtaValue bounded _).bind fun metric _ => ?_
  refine (byte (by omega)).bind fun family _ => ends_ite (fun _ => ?_) fun _ => ends_ok _
  refine (ends_rtaValue bounded _).bind fun dest _ => ?_
  refine (byte (by omega)).bind fun dstLen _ => ends_ite (fun _ => ?_) fun _ => ends_ok _
  exact (ends_rtaValue bounded _).bind fun gate _ => ends_ok _

end

/-! ## Messages -/

section

variable
  {State : Type}
  {nl : Nlsock}
  {filter : Filter State}
  {buf : Nat → UInt8}
  {h : Nat}

/-- A message of this length starts here, with twelve bytes of the buffer behind it. -/
structure Guarded (buf : Nat → UInt8) (h len : Nat) : Prop where
  isLen : nlmsgLen buf h = .ok len
  header : nlmsgHdrlen ≤ len
  inside : h + len + 12 ≤ nlPktBufSize

/-- The filter stays inside for every message. -/
def Safe (filter : Filter State) : Prop :=
  ∀ buf h len state, Guarded buf h len → Ends (filter buf h state)

/-- The handling of errors stays inside. -/
theorem ends_handleError
    {len : Nat}
    (guarded : Guarded buf h len)
    (ret : Int32)
    (state : State) :
    Ends (handleError nl buf h ret state) := by
  have size : nlPktBufSize = 4096 := rfl
  have isData : nlmsgData h = h + 16 := rfl
  have inside : h + 28 ≤ nlPktBufSize :=
    (Nat.add_le_add_right (Nat.add_le_add_left guarded.header h) 12).trans guarded.inside
  unfold handleError
  refine (ends_read (by omega)).bind fun errnum _ => ?_
  refine (ends_read (by omega)).bind fun msgType _ => ?_
  refine ends_ite (fun _ => ?_) fun _ => ?_
  · refine (ends_read (by omega)).bind fun flags _ => ?_
    exact ends_ite (fun _ => ends_ok _) fun _ => ends_ok _
  · rw [guarded.isLen, ok_bind]
    refine ends_ite (fun _ => ends_ok _) fun _ => ?_
    exact ends_ite (fun _ => ends_ok _) fun _ => ends_ok _

/-- The body of the loop over the messages stays inside. -/
theorem ends_handleMessage
    {len : Nat}
    (safe : Safe filter)
    (guarded : Guarded buf h len)
    (ret : Int32)
    (state : State) :
    Ends (handleMessage nl filter buf h ret state) := by
  have size : nlPktBufSize = 4096 := rfl
  have inside : h + 28 ≤ nlPktBufSize :=
    (Nat.add_le_add_right (Nat.add_le_add_left guarded.header h) 12).trans guarded.inside
  unfold handleMessage
  refine (ends_read (by omega)).bind fun type _ => ends_ite (fun _ => ends_ok _) fun _ => ?_
  refine ends_ite (fun _ => ends_handleError guarded ret state) fun _ => ?_
  refine (ends_read (by omega)).bind fun pid _ => ends_ite (fun _ => ends_ok _) fun _ => ?_
  exact (safe buf h len state guarded).bind fun handled _ => ends_ok _

/-- `NLMSG_OK`, with what it says of the message. -/
theorem nlmsgOk_inside
    {status : Nat}
    (inside : h + status + 12 ≤ nlPktBufSize) :
    (nlmsgOk buf h (UInt32.ofNat status) = .ok true ∧
        ∃ len, Guarded buf h len ∧ len ≤ status) ∨
      nlmsgOk buf h (UInt32.ofNat status) = .ok false := by
  have size : nlPktBufSize = 4096 := rfl
  have isStatus : (UInt32.ofNat status).toNat = status :=
    UInt32.toNat_ofNat_of_lt' (by change status < 4294967296; omega)
  unfold nlmsgOk
  rw [isStatus]
  by_cases large : status ≥ nlmsgHdrlen
  · have isLen : nlmsgLen buf h = .ok (leValue (window buf h 4)) :=
      read_inside (by omega)
    rw [if_pos large, isLen, ok_bind]
    by_cases ok : nlmsgHdrlen ≤ leValue (window buf h 4) ∧ leValue (window buf h 4) ≤ status
    · exact .inl ⟨congrArg Except.ok (decide_eq_true ok), _, ⟨isLen, ok.1, by omega⟩, ok.2⟩
    · exact .inr (congrArg Except.ok (decide_eq_false ok))
  · rw [if_neg large]
    exact .inr rfl

/-- The loop over the messages stays inside. -/
theorem ends_messages
    {fuel status : Nat}
    (safe : Safe filter)
    (aligned : 4 ∣ status)
    (inside : h + status + 12 ≤ nlPktBufSize)
    (enough : status < fuel)
    (ret : Int32)
    (state : State) :
    Ends (messages nl filter buf fuel h (UInt32.ofNat status) ret state) := by
  induction fuel generalizing h status ret state with
  | zero =>
      exact absurd enough (Nat.not_lt_zero status)
  | succ fuel inductionHypothesis =>
      rw [messages]
      rcases nlmsgOk_inside inside with ⟨isOk, len, guarded, within⟩ | notOk
      · rw [isOk, ok_bind, if_pos rfl]
        refine (ends_handleMessage safe guarded ret state).bind fun next _ => ?_
        cases next with
        | returned ret state =>
            exact ends_ok _
        | onward ret state =>
            have size : nlPktBufSize = 4096 := rfl
            have header := guarded.header
            -- Nothing is left over: rounding up stays within an aligned size.
            have rounded := alignUp_le (show 0 < 4 by decide) within aligned
            have atLeast := le_alignUp (show 0 < 4 by decide) len
            have isAlign := toNat_nlmsgAlign (show len ≤ nlPktBufSize by omega)
            have advance : (UInt32.ofNat (alignUp 4 len)).toNat = alignUp 4 len :=
              UInt32.toNat_ofNat_of_lt' (by change alignUp 4 len < 4294967296; omega)
            have left :
                UInt32.ofNat status - UInt32.ofNat (alignUp 4 len) =
                  UInt32.ofNat (status - alignUp 4 len) :=
              (UInt32.ofNat_sub rounded).symm
            change Ends (nlmsgLen buf h >>= fun len => _)
            rw [guarded.isLen, ok_bind, isAlign, advance, left]
            apply inductionHypothesis
            · exact Nat.dvd_sub aligned (dvd_alignUp 4 len)
            · omega
            · change 16 ≤ len at header
              omega
      · rw [notOk]
        exact ends_ok _

/-- A datagram as the kernel sends it: its messages are padded, and it does not fill the buffer. -/
def Padded (received : Received) : Prop :=
  ∀ buf status sameNamelen truncated,
    received = .datagram buf status sameNamelen truncated →
      4 ∣ status ∧ status + 12 ≤ nlPktBufSize

/-- `netlink_parse_info` stays inside, whatever it receives. -/
theorem ends_netlinkParseInfo
    {received : List Received}
    (safe : Safe filter)
    (padded : ∀ message ∈ received, Padded message)
    (ret : Int32)
    (state : State) :
    Ends (netlinkParseInfo nl filter received ret state) := by
  induction received generalizing ret state with
  | nil =>
      exact ends_ok _
  | cons first rest inductionHypothesis =>
      have onward (ret : Int32) (state : State) :
          Ends (netlinkParseInfo nl filter rest ret state) :=
        inductionHypothesis (fun message member => padded message (List.mem_cons_of_mem _ member))
          ret state
      cases first with
      | interrupted => exact onward ret state
      | wouldBlock => exact ends_ok _
      | failed => exact onward ret state
      | eof => exact ends_ok _
      | datagram buf status sameNamelen truncated =>
          obtain ⟨aligned, small⟩ :=
            padded _ List.mem_cons_self buf status sameNamelen truncated rfl
          rw [netlinkParseInfo]
          refine ends_ite (fun _ => ends_ok _) fun _ => ?_
          have passed :
              Ends (messages nl filter buf (nlPktBufSize + 1) 0 (UInt32.ofNat status) ret state) :=
            ends_messages safe aligned (by omega) (by omega) ret state
          refine passed.bind fun next _ => ?_
          rcases next with ⟨⟨ret, state⟩ | ⟨ret, state⟩, left⟩
          · exact ends_ok _
          · refine ends_ite (fun _ => onward ret state) fun _ => ?_
            exact ends_ite (fun _ => ends_ok _) fun _ => onward ret state

end

/--
`get_route_table` reads nothing outside the buffer and comes to an end, whatever
the bytes of the datagrams are.
-/
theorem datagrams_read_inside
    {received : List Received}
    (rtaMax cmdPid : Nat)
    (padded : ∀ message ∈ received, Padded message)
    (routeList : List Route) :
    ∃ ret after, getRouteTable rtaMax cmdPid received routeList = .ok (ret, after) := by
  have safe : Safe (netlinkRoutingTable rtaMax) := by
    intro buf h len routeList guarded
    exact ends_netlinkRoutingTable guarded.isLen guarded.inside guarded.header routeList
  obtain ⟨result, returned⟩ := ends_netlinkParseInfo safe padded 0 routeList
  exact ⟨result.1, result.2, returned⟩

theorem datagrams_read_inside_sample :
    ∃ ret after,
      getRouteTable 30 0
          [.interrupted, .datagram (fun place => UInt8.ofNat (5 * place)) 4084 true true] [] =
        .ok (ret, after) := by
  apply datagrams_read_inside 30 0
  intro message member buf status sameNamelen truncated isDatagram
  have isOne := List.mem_pair.mp member
  rw [isDatagram] at isOne
  rcases isOne with isOne | isOne
  · cases isOne
  · injection isOne with _ isStatus
    rw [isStatus]
    decide

end Pma.Netlink
