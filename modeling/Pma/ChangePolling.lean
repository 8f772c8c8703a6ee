import Pma.Answers
import Pma.InterfaceRefresh
import Pma.TextBuffer

namespace Pma

/-!
# Polls that report changes

`router/interface.c` polls the OSPF interfaces and the BGP paths of the device and
uploads what has changed.  The intervals of an interface are compared with those
in the list of interfaces, and a path table by the length of its text with the one
that was uploaded last.
-/

namespace Interface.Polling

open Answers FirstMatch

/-! ## The OSPF interfaces -/

/-- `struct ospfIfTable`: the columns that are read. -/
structure OspfIfTable where
  ipaddress : String
  hello : String
  dead : String
  deriving Repr, DecidableEq

/-- The list of interfaces and `ospf_interface_run_first`. -/
structure OspfPolling where
  iflist : List Rinterface
  runFirst : Bool
  deriving Repr, DecidableEq

/-- What `proto_info->info` of an interface points to. -/
def intervals (face : Rinterface) : Option OspfProtoInfo :=
  face.protoInfo.bind ProtoInfo.info

/-- Both intervals are written through that pointer. -/
def setIntervals (hello dead : Int32) (face : Rinterface) : Rinterface :=
  { face with
    protoInfo := face.protoInfo.map fun proto =>
      { proto with info := proto.info.map fun _ => ⟨hello.toUInt32, dead.toUInt32⟩ } }

/-- `ipdata`; `stale` is what it holds when `inet_pton` does not write it. -/
def ipdata (stale : OspfIfTable → UInt32) (node : OspfIfTable) : UInt32 :=
  (inetPton node.ipaddress).getD (stale node)

/-- A pass of the loop, with `is_changed`; nothing where it reads through a null pointer. -/
def pollRow (stale : OspfIfTable → UInt32) (state : List Rinterface × Bool)
    (node : OspfIfTable) : Option (List Rinterface × Bool) :=
  let (iflist, isChanged) := state
  let query := qIpaddr (ipdata stale node)
  match getInterface query iflist with
  | none => some (iflist, isChanged)
  | some iface =>
      match intervals iface with
      | none => none
      | some p =>
          let helloT := atoi node.hello
          let deadT := atoi node.dead
          let helloO := p.helloInterval.toInt32
          let deadO := p.deadInterval.toInt32
          if helloT ≠ helloO ∨ deadO ≠ deadO then
            some (updateFirst query (setIntervals helloT deadT) iflist, true)
          else
            some (iflist, isChanged)

/-- `ospfifinfo_diff_and_send`, with whether it uploads. -/
def ospfifinfoDiffAndSend (stale : OspfIfTable → UInt32) (state : OspfPolling)
    (table : List OspfIfTable) : Option (OspfPolling × Bool) := do
  let (iflist, isChanged) ← table.foldlM (pollRow stale) (state.iflist, false)
  if isChanged then
    return (⟨iflist, state.runFirst⟩, true)
  else if state.runFirst then
    return (⟨iflist, true⟩, false)
  else
    return (⟨iflist, true⟩, true)

/-! ## The BGP paths -/

/-- `struct bgpPathAttrTable`. -/
structure BgpPathAttrTable where
  peer : String
  addrPrefixLen : String
  addrPrefix : String
  origin : String
  asPathSegment : String
  nexthop : String
  multiExitDisc : String
  localPref : String
  atomicAggregate : String
  aggregatorAs : String
  aggregatorAddr : String
  calcLocalpref : String
  best : String
  deriving Repr, DecidableEq

/-- What is printed first. -/
def pathHeader : String :=
  "bgp4PathAttrPeer bgp4PathAttrIpAddrPrefixLen bgp4PathAttrIpAddrPrefix bgp4PathAttrOrigin" ++
  "bgp4PathAttrASPathSegment bgp4PathAttrNextHop bgp4PathAttrMultiExitDisc bgp4PathAttrLocalPref" ++
  "bgp4PathAttrAtomicAggregate bgp4PathAttrAggregatorAS bgp4PathAttrAggregatorAddr " ++
  "bgp4PathAttrCalcLocalPrefbgp4PathAttrBest bgp4PathAttrUnknown\n"

/-- The line of a path. -/
def pathLine (attrnode : BgpPathAttrTable) : String :=
  attrnode.peer ++ " " ++ attrnode.addrPrefixLen ++ " " ++ attrnode.addrPrefix ++ " " ++
    attrnode.origin ++ " " ++ attrnode.asPathSegment ++ " " ++ attrnode.nexthop ++ " " ++
    attrnode.multiExitDisc ++ " " ++ attrnode.localPref ++ " " ++ attrnode.atomicAggregate ++ " " ++
    attrnode.aggregatorAs ++ " " ++ attrnode.aggregatorAddr ++ " " ++ attrnode.calcLocalpref ++
    " " ++ attrnode.best ++ " ?\n"

/-- The text in `buff`; nothing where it does not fit. -/
def printPaths (table : List BgpPathAttrTable) : Option String := do
  let buff : TextBuffer 40240 := TextBuffer.cleared (by decide)
  let buff ← buff.sprintf pathHeader
  let buff ← table.foldlM (fun buff attrnode => buff.sprintf (pathLine attrnode)) buff
  return buff.text

/--
`bgppath_diff_and_send`: `bgp_path_attr_table_last_len`, and the text that is
uploaded.
-/
def bgppathDiffAndSend (lastLen : Nat) (table : List BgpPathAttrTable) :
    Option (Nat × Option String) := do
  let buff ← printPaths table
  if lastLen ≠ buff.utf8ByteSize then
    return (buff.utf8ByteSize, some buff)
  else
    return (lastLen, none)

/-! ## What the polls are to report -/

/-- The intervals of a row. -/
def rowIntervals (node : OspfIfTable) : OspfProtoInfo :=
  ⟨(atoi node.hello).toUInt32, (atoi node.dead).toUInt32⟩

/-- The interface of a row has other intervals. -/
def differs (stale : OspfIfTable → UInt32) (iflist : List Rinterface) (node : OspfIfTable) : Bool :=
  (getInterface (qIpaddr (ipdata stale node)) iflist).any fun face =>
    intervals face ≠ some (rowIntervals node)

/-- The intervals of a row are stored. -/
def store (stale : OspfIfTable → UInt32) (iflist : List Rinterface) (node : OspfIfTable) :
    List Rinterface :=
  updateFirst (qIpaddr (ipdata stale node)) (setIntervals (atoi node.hello) (atoi node.dead)) iflist

/-- The interfaces with the intervals of the polls so far, and whether there was one. -/
structure OspfReport where
  iflist : List Rinterface
  polled : Bool
  deriving Repr, DecidableEq

/-- The first poll is uploaded, and each one with an interface that has other intervals. -/
def reportOspf (stale : OspfIfTable → UInt32) (report : OspfReport) (table : List OspfIfTable) :
    OspfReport × Bool :=
  (⟨table.foldl (store stale) report.iflist, true⟩,
    !report.polled || table.any (differs stale report.iflist))

/-- The text of a path table. -/
def pathText (table : List BgpPathAttrTable) : String :=
  pathHeader ++ String.join (table.map pathLine)

/-- A path table is uploaded when it has another text than the last one that was. -/
def reportPaths (last : Option String) (table : List BgpPathAttrTable) :
    Option String × Option String :=
  if last = some (pathText table) then
    (last, none)
  else
    (some (pathText table), some (pathText table))

/-! ## The polls that are reported as they are to be -/

/-- No row has the hello interval and not the dead interval of its interface when it is read. -/
def HelloTells (stale : OspfIfTable → UInt32) : List Rinterface → List OspfIfTable → Prop
  | _, [] => True
  | iflist, node :: rest =>
      (∀ face ∈ getInterface (qIpaddr (ipdata stale node)) iflist, ∀ p ∈ intervals face,
        (rowIntervals node).helloInterval = p.helloInterval →
          (rowIntervals node).deadInterval = p.deadInterval) ∧
        HelloTells stale (store stale iflist node) rest

instance decidableHelloTells
    (stale : OspfIfTable → UInt32) :
    ∀ iflist table, Decidable (HelloTells stale iflist table)
  | _, [] => isTrue trivial
  | iflist, node :: rest =>
      have := decidableHelloTells stale (store stale iflist node) rest
      inferInstanceAs (Decidable (_ ∧ HelloTells stale (store stale iflist node) rest))

/--
No dead interval changes alone, and a later poll without a change finds
`ospf_interface_run_first` set.
-/
def OspfTells (stale : OspfIfTable → UInt32) (state : OspfPolling) (report : OspfReport)
    (table : List OspfIfTable) : Prop :=
  HelloTells stale state.iflist table ∧
    (report.polled = true → state.runFirst = false →
      table.any (differs stale state.iflist) = true)

instance
    (stale : OspfIfTable → UInt32)
    (state : OspfPolling)
    (report : OspfReport)
    (table : List OspfIfTable) :
    Decidable (OspfTells stale state report table) :=
  inferInstanceAs (Decidable (_ ∧ (_ → _ → _)))

/-- The text fits, and has another length than the last one that was uploaded if it is another. -/
def PathsTell (_ : Nat) (last : Option String) (table : List BgpPathAttrTable) : Prop :=
  (pathText table).utf8ByteSize < 40240 ∧
    ∀ text ∈ last, text ≠ pathText table → text.utf8ByteSize ≠ (pathText table).utf8ByteSize

instance
    (lastLen : Nat)
    (last : Option String)
    (table : List BgpPathAttrTable) :
    Decidable (PathsTell lastLen last table) :=
  inferInstanceAs (Decidable (_ ∧ ∀ text ∈ last, _ → _))

/-! ## The OSPF polls -/

section

variable {stale : OspfIfTable → UInt32} {iflist : List Rinterface}

/-- Every interface has its intervals, as on an OSPF router. -/
def Known (iflist : List Rinterface) : Prop :=
  ∀ face ∈ iflist, (intervals face).isSome

theorem intervals_setIntervals
    {face : Rinterface}
    {p : OspfProtoInfo}
    (hello dead : Int32)
    (isP : intervals face = some p) :
    intervals (setIntervals hello dead face) = some ⟨hello.toUInt32, dead.toUInt32⟩ := by
  obtain ⟨proto, isProto, isInfo⟩ := Option.bind_eq_some_iff.mp isP
  simp [intervals, setIntervals, isProto, isInfo]

/-- Writing the intervals that an interface has changes nothing. -/
theorem setIntervals_same
    {face : Rinterface}
    {node : OspfIfTable}
    (same : intervals face = some (rowIntervals node)) :
    setIntervals (atoi node.hello) (atoi node.dead) face = face := by
  obtain ⟨proto, isProto, isInfo⟩ := Option.bind_eq_some_iff.mp same
  have written : proto = { proto with info := proto.info.map fun _ => rowIntervals node } := by
    rw [isInfo, Option.map_some, ← isInfo]
  change { face with
    protoInfo := face.protoInfo.map fun proto =>
      { proto with info := proto.info.map fun _ => rowIntervals node } } = face
  rw [isProto, Option.map_some, ← written, ← isProto]

theorem known_store
    (known : Known iflist)
    (node : OspfIfTable) :
    Known (store stale iflist node) := by
  apply forall_updateFirst _ known
  intro face hasIntervals
  obtain ⟨p, isP⟩ := Option.isSome_iff_exists.mp hasIntervals
  rw [intervals_setIntervals _ _ isP]
  rfl

/-- A row that differs in nothing is stored already. -/
theorem store_same
    {node : OspfIfTable}
    (same : differs stale iflist node = false) :
    store stale iflist node = iflist := by
  apply updateFirst_eq_self_of_find?
  intro face found
  apply setIntervals_same
  unfold differs getInterface at same
  rw [found] at same
  simpa using same

/-- A pass finds the change and stores it, unless the dead interval changes alone. -/
theorem pollRow_eq
    (known : Known iflist)
    {node : OspfIfTable}
    (tells : ∀ face ∈ getInterface (qIpaddr (ipdata stale node)) iflist, ∀ p ∈ intervals face,
      (rowIntervals node).helloInterval = p.helloInterval →
        (rowIntervals node).deadInterval = p.deadInterval)
    (isChanged : Bool) :
    pollRow stale (iflist, isChanged) node =
      some (store stale iflist node, isChanged || differs stale iflist node) := by
  cases found : getInterface (qIpaddr (ipdata stale node)) iflist with
  | none =>
      have same : differs stale iflist node = false := by simp [differs, found]
      rw [store_same same, same, Bool.or_false]
      simp only [pollRow, found]
  | some face =>
      obtain ⟨p, isP⟩ := Option.isSome_iff_exists.mp (known face (List.mem_of_find?_eq_some found))
      have hello : atoi node.hello = p.helloInterval.toInt32 ↔
          (rowIntervals node).helloInterval = p.helloInterval := by
        constructor
        · intro same
          change (atoi node.hello).toUInt32 = _
          rw [same, UInt32.toUInt32_toInt32]
        · intro same
          rw [← same]
          exact (Int32.toInt32_toUInt32 _).symm
      have isSame : differs stale iflist node = decide (p ≠ rowIntervals node) := by
        simp [differs, found, isP]
      simp only [pollRow, found, isP, ne_eq, not_true_eq_false, or_false]
      by_cases same : atoi node.hello = p.helloInterval.toInt32
      · have sameHello := hello.mp same
        have sameDead := tells face found p isP sameHello
        have whole : p = rowIntervals node := by
          cases p
          cases sameHello
          cases sameDead
          rfl
        have noChange : differs stale iflist node = false := by
          rw [isSame, decide_eq_false (not_not.mpr whole)]
        rw [if_neg (not_not.mpr same), store_same noChange, noChange, Bool.or_false]
      · have change : differs stale iflist node = true := by
          rw [isSame]
          apply decide_eq_true
          intro whole
          exact same (hello.mpr (congrArg OspfProtoInfo.helloInterval whole).symm)
        rw [if_pos same, change, Bool.or_true]
        rfl

/-- What a table changes can be seen before its first row is stored. -/
theorem pollRows_eq
    {table : List OspfIfTable}
    (known : Known iflist)
    (tells : HelloTells stale iflist table)
    (isChanged : Bool) :
    table.foldlM (pollRow stale) (iflist, isChanged) =
      some (table.foldl (store stale) iflist, isChanged || table.any (differs stale iflist)) := by
  induction table generalizing iflist isChanged with
  | nil =>
      simp
  | cons node rest inductionHypothesis =>
      obtain ⟨first, later⟩ := tells
      rw [List.foldlM_cons, pollRow_eq known first, Option.bind_eq_bind, Option.bind_some,
        inductionHypothesis (known_store known node) later, List.foldl_cons, List.any_cons]
      cases change : differs stale iflist node with
      | true =>
          simp
      | false =>
          rw [store_same change, Bool.or_false, Bool.false_or]

theorem known_stores
    (known : Known iflist)
    (table : List OspfIfTable) :
    Known (table.foldl (store stale) iflist) := by
  induction table generalizing iflist with
  | nil =>
      exact known
  | cons node rest inductionHypothesis =>
      exact inductionHypothesis (known_store known node)

/-- The state of the code beside what is to be reported. -/
structure OspfAgrees (state : OspfPolling) (report : OspfReport) : Prop where
  iflist : state.iflist = report.iflist
  known : Known state.iflist
  polled : state.runFirst = true → report.polled = true

theorem ospfifinfoDiffAndSend_reports
    {state : OspfPolling}
    {report : OspfReport}
    {table : List OspfIfTable}
    (agrees : OspfAgrees state report)
    (tells : OspfTells stale state report table) :
    ∃ next,
      ospfifinfoDiffAndSend stale state table = some (next, (reportOspf stale report table).2) ∧
        OspfAgrees next (reportOspf stale report table).1 := by
  have rows := pollRows_eq agrees.known tells.1 false
  have still : Known (table.foldl (store stale) state.iflist) :=
    known_stores agrees.known table
  rw [Bool.false_or] at rows
  unfold ospfifinfoDiffAndSend reportOspf
  rw [rows, Option.bind_eq_bind, Option.bind_some, ← agrees.iflist]
  cases changed : table.any (differs stale state.iflist) with
  | true =>
      refine ⟨⟨table.foldl (store stale) state.iflist, state.runFirst⟩, ?_, ?_⟩
      · rw [Bool.or_true]
        rfl
      · exact ⟨rfl, still, fun _ => rfl⟩
  | false =>
      refine ⟨⟨table.foldl (store stale) state.iflist, true⟩, ?_, ?_⟩
      · rw [Bool.or_false]
        cases flag : state.runFirst with
        | true =>
            rw [agrees.polled flag]
            rfl
        | false =>
            have first : report.polled = false := by
              apply Bool.eq_false_of_not_eq_true
              intro polled
              rw [tells.2 polled flag] at changed
              cases changed
            rw [first]
            rfl
      · exact ⟨rfl, still, fun _ => rfl⟩

/-- The interfaces of an OSPF router have their intervals from the first refresh on. -/
theorem known_refreshAll
    {polls : List Refresh.Poll}
    (refreshed : Refresh.refreshAll .OSPF_ROUTER polls = some iflist) :
    Known iflist := by
  have loaded {file : Option (List Char)} {before after : List Rinterface}
      (load : Config.loadInterfaceTypeFromConfig file before = some after)
      (known : Known before) : Known after := by
    have same := Refresh.untyped_load load
    intro face member
    have inBefore : Refresh.untyped face ∈ before.map Refresh.untyped := by
      rw [← same]
      exact List.mem_map.mpr ⟨face, member, rfl⟩
    obtain ⟨other, memberOther, isOther⟩ := List.mem_map.mp inBefore
    have hasIntervals := known other memberOther
    have both : intervals (Refresh.untyped other) = intervals (Refresh.untyped face) :=
      congrArg intervals isOther
    change intervals other = intervals face at both
    rwa [both] at hasIntervals
  have rows (poll : Refresh.Poll) (nodes : List Refresh.IfTable) {before : List Rinterface}
      (known : Known before) :
      Known (nodes.foldl (Refresh.updateRow .OSPF_ROUTER poll) before) := by
    induction nodes generalizing before with
    | nil =>
        exact known
    | cons node rest inductionHypothesis =>
        exact inductionHypothesis (forall_upsert (fun _ => rfl) known)
  have run {before : List Rinterface} (known : Known before)
      (all : polls.foldlM (Refresh.updateInterfaceFromSnmp .OSPF_ROUTER) before = some iflist) :
      Known iflist := by
    clear refreshed
    induction polls generalizing before with
    | nil =>
        cases all
        exact known
    | cons poll rest inductionHypothesis =>
        rw [List.foldlM_cons] at all
        obtain ⟨next, first, later⟩ := Option.bind_eq_some_iff.mp all
        exact inductionHypothesis (loaded first (rows poll poll.table known)) later
  have start : Known [] := by
    intro face member
    cases member
  exact run start refreshed

end

/-! ## The path tables -/

/-- The text in `buff` is that of the table. -/
theorem printPaths_eq
    {table : List BgpPathAttrTable}
    (fits : (pathText table).utf8ByteSize < 40240) :
    printPaths table = some (pathText table) := by
  have each :
      ∀ attrnode ∈ table,
        TextBuffer.Prints
          (fun buff : TextBuffer 40240 => buff.sprintf (pathLine attrnode)) (pathLine attrnode) :=
    fun _ _ => TextBuffer.Prints.sprintf _
  have whole :
      TextBuffer.Prints
        (fun buff : TextBuffer 40240 => (buff.sprintf pathHeader).bind fun buff =>
          table.foldlM (fun buff attrnode => buff.sprintf (pathLine attrnode)) buff)
        (pathText table) :=
    (TextBuffer.Prints.sprintf pathHeader).bind (TextBuffer.Prints.foldlM each)
  have printed := TextBuffer.sprintf_cleared (show 0 < 40240 by decide) (pathText table)
  rw [← whole, if_pos (Nat.succ_le_of_lt fits), Option.map_eq_bind, Option.bind_assoc] at printed
  exact printed

/-- The length of the last text that was uploaded, zero before the first one. -/
def LastLen (lastLen : Nat) (last : Option String) : Prop :=
  lastLen = (last.map String.utf8ByteSize).getD 0

theorem bgppathDiffAndSend_reports
    {lastLen : Nat}
    {last : Option String}
    {table : List BgpPathAttrTable}
    (isLast : LastLen lastLen last)
    (tells : PathsTell lastLen last table) :
    ∃ next,
      bgppathDiffAndSend lastLen table = some (next, (reportPaths last table).2) ∧
        LastLen next (reportPaths last table).1 := by
  have positive : 0 < (pathText table).utf8ByteSize := by
    have title : 0 < pathHeader.utf8ByteSize := by decide +kernel
    rw [pathText, String.utf8ByteSize_append]
    omega
  unfold bgppathDiffAndSend reportPaths
  rw [printPaths_eq tells.1, Option.bind_eq_bind, Option.bind_some]
  by_cases same : last = some (pathText table)
  · have sameLength : lastLen = (pathText table).utf8ByteSize := by
      rw [isLast, same]
      rfl
    rw [if_pos same, if_neg (not_not.mpr sameLength)]
    exact ⟨lastLen, rfl, isLast⟩
  · have otherLength : lastLen ≠ (pathText table).utf8ByteSize := by
      rw [isLast]
      cases last with
      | none =>
          exact Nat.ne_of_lt positive
      | some text =>
          exact tells.2 text rfl fun isText => same (congrArg some isText)
    rw [if_neg same, if_pos otherLength]
    exact ⟨_, rfl, rfl⟩

/-! ## Runs of polls -/

/--
In every run of polls that all tell their changes, the interfaces are uploaded at
the first poll and at each change of an interval, with the new values in the list,
and the path tables whenever their text is another one.
-/
theorem polls_report
    (stale : OspfIfTable → UInt32)
    {iflist : List Rinterface}
    (known : Known iflist)
    {tables : List (List OspfIfTable)}
    (ospfTells :
      Along (OspfTells stale) (ospfifinfoDiffAndSend stale) (reportOspf stale)
        ⟨iflist, false⟩ ⟨iflist, false⟩ tables)
    {paths : List (List BgpPathAttrTable)}
    (pathsTell : Along PathsTell bgppathDiffAndSend reportPaths 0 none paths) :
    (∃ last,
      answers (ospfifinfoDiffAndSend stale) ⟨iflist, false⟩ tables =
          some (last, (expected (reportOspf stale) ⟨iflist, false⟩ tables).2) ∧
        last.iflist = (expected (reportOspf stale) ⟨iflist, false⟩ tables).1.iflist) ∧
      ∃ last,
        answers bgppathDiffAndSend 0 paths = some (last, (expected reportPaths none paths).2) := by
  constructor
  · have start : OspfAgrees ⟨iflist, false⟩ ⟨iflist, false⟩ :=
      ⟨rfl, known, fun never => nomatch never⟩
    obtain ⟨last, outputs, agrees⟩ :=
      answers_eq_expected OspfAgrees start ospfTells
        fun _ _ _ agrees tells => ospfifinfoDiffAndSend_reports agrees tells
    exact ⟨last, outputs, agrees.iflist⟩
  · have start : LastLen 0 none := rfl
    obtain ⟨last, outputs, -⟩ :=
      answers_eq_expected LastLen start pathsTell
        fun _ _ _ isLast tells => bgppathDiffAndSend_reports isLast tells
    exact ⟨last, outputs⟩

/-- An OSPF interface with its address and its intervals. -/
def oneFace : Rinterface :=
  { created with
    name := "eth0"
    ctlId := 2
    protoInfo := some ⟨1, 1, 0, 5, some ⟨10, 40⟩⟩
    details := { created.details with connected := [(inetPton "10.0.0.1").getD 0] } }

/-- A table of the interface with these intervals. -/
def oneTable (hello dead : String) : List OspfIfTable :=
  [⟨"10.0.0.1", hello, dead⟩]

/-- A table of one path, learned from this peer. -/
def onePath (peer : String) : List BgpPathAttrTable :=
  [⟨peer, "24", "10.1.0.0", "igp", "65001", "10.0.0.9", "0", "100", "1", "0", "0.0.0.0", "100",
    "true"⟩]

/-- Polls that change nothing, a hello interval, and a path table that gets longer. -/
theorem polls_report_some :
    Known [oneFace] ∧
      (∃ last,
        answers (ospfifinfoDiffAndSend fun _ => 0) ⟨[oneFace], false⟩
            [oneTable "10" "40", oneTable "10" "40", oneTable "20" "80"] =
            some (last, (expected (reportOspf fun _ => 0) ⟨[oneFace], false⟩
              [oneTable "10" "40", oneTable "10" "40", oneTable "20" "80"]).2) ∧
          last.iflist = (expected (reportOspf fun _ => 0) ⟨[oneFace], false⟩
            [oneTable "10" "40", oneTable "10" "40", oneTable "20" "80"]).1.iflist) ∧
        ∃ last,
          answers bgppathDiffAndSend 0 [[], onePath "10.0.0.9", onePath "10.0.0.9"] =
            some (last,
              (expected reportPaths none [[], onePath "10.0.0.9", onePath "10.0.0.9"]).2) := by
  have known : Known [oneFace] := by
    intro face member
    rw [List.mem_singleton.mp member]
    rfl
  exact ⟨known, polls_report (fun _ => 0) known (by decide +kernel) (by decide +kernel)⟩

/-- A dead interval that changes alone is not uploaded, nor is a path table of the same length. -/
theorem polls_miss_changes :
    ((answers (ospfifinfoDiffAndSend fun _ => 0) ⟨[oneFace], false⟩
        [oneTable "10" "40", oneTable "10" "20"]).map Prod.snd = some [true, false] ∧
      (expected (reportOspf fun _ => 0) ⟨[oneFace], false⟩
        [oneTable "10" "40", oneTable "10" "20"]).2 = [true, true]) ∧
      (answers bgppathDiffAndSend 0 [onePath "10.0.0.8", onePath "10.0.0.9"]).map Prod.snd =
          some [some (pathText (onePath "10.0.0.8")), none] ∧
        (expected reportPaths none [onePath "10.0.0.8", onePath "10.0.0.9"]).2 =
          [some (pathText (onePath "10.0.0.8")), some (pathText (onePath "10.0.0.9"))] := by
  decide +kernel

end Interface.Polling

end Pma
