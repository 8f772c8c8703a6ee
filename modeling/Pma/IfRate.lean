import Pma.Answers
import Pma.Interface

namespace Pma

/-!
# The rates of the interfaces

`ifrate_diff_and_send` of `router/interface.c` takes the octet counters of the
device at each poll and divides what they have grown by the time between polls.
The counters have 32 bits and start again from zero; the difference is taken in
64 bits.
-/

namespace Interface.Rate

open Answers FirstMatch

/-- `struct InterfaceTable`: the columns that are read. -/
structure InterfaceTable where
  ifindex : String
  ifinoctets : String
  ifoutoctets : String
  deriving Repr, DecidableEq

/-- `rate_refresh_timeval`. -/
def rateRefreshTimeval : UInt64 :=
  2

/-- The number of the interface in a row. -/
def rowId (ifnode : InterfaceTable) : UInt32 :=
  (atoi ifnode.ifindex).toUInt32

/-- The rates of an interface from the counters of a row. -/
def setRates (ifnode : InterfaceTable) (iface : Rinterface) : Rinterface :=
  let sendSecond := (atoll ifnode.ifoutoctets).toUInt64
  let recvSecond := (atoll ifnode.ifinoctets).toUInt64
  { iface with
    sendRate := (sendSecond - iface.sendPacket) / rateRefreshTimeval
    recvRate := (recvSecond - iface.recvPacket) / rateRefreshTimeval
    sendPacket := sendSecond
    recvPacket := recvSecond }

/-- A pass of the loop. -/
def rateRow (iflist : List Rinterface) (ifnode : InterfaceTable) : List Rinterface :=
  updateFirst (qCtid (rowId ifnode)) (setRates ifnode) iflist

/-- An interface in the document of `ifrate_info_to_xml`. -/
structure RateInfo where
  id : UInt32
  outRate : UInt64
  inRate : UInt64
  deriving Repr, DecidableEq

/-- `ifrate_info_to_xml`; `ifList` are the interfaces of the last refresh, all to be found. -/
def ifrateInfoToXml (ifList : List UInt32) (iflist : List Rinterface) : Option (List RateInfo) :=
  ifList.mapM fun id =>
    (getInterface (qCtid id) iflist).map fun iface => ⟨id, iface.sendRate, iface.recvRate⟩

/-- The list of interfaces and `ifrate_first_run`. -/
structure RatePolling where
  iflist : List Rinterface
  firstRun : Bool
  deriving Repr, DecidableEq

/-- `ifrate_diff_and_send`, with what it sends. -/
def ifrateDiffAndSend (ifList : List UInt32) (state : RatePolling) (table : List InterfaceTable) :
    Option (RatePolling × Option (List RateInfo)) :=
  let iflist := table.foldl rateRow state.iflist
  if state.firstRun = false then
    some (⟨iflist, true⟩, none)
  else
    (ifrateInfoToXml ifList iflist).map fun buff => (⟨iflist, true⟩, some buff)

/-- `ifrate_detect`: the table is read for `type` one only. -/
def ifrateDetect (ifList : List UInt32) (type : Int32) (state : RatePolling)
    (table : List InterfaceTable) : Option (RatePolling × Option (List RateInfo)) :=
  if type = 1 then
    ifrateDiffAndSend ifList state table
  else
    some (state, none)

/-! ## The rates that are to be sent -/

/-- The number in a text. -/
def octets (text : String) : Nat :=
  (strtol text).toNat

/-- The counters of a row have 32 bits. -/
def IsCounter (ifnode : InterfaceTable) : Prop :=
  (0 ≤ strtol ifnode.ifoutoctets ∧ strtol ifnode.ifoutoctets < 2 ^ 32) ∧
    0 ≤ strtol ifnode.ifinoctets ∧ strtol ifnode.ifinoctets < 2 ^ 32

/-- How much a counter of 32 bits has grown, for the time between two polls. -/
def trueRate (before after : Nat) : UInt64 :=
  UInt64.ofNat ((after + 2 ^ 32 - before) % 2 ^ 32 / 2)

/-- The row of an interface. -/
def rowOf (table : List InterfaceTable) (id : UInt32) : Option InterfaceTable :=
  table.find? fun ifnode => rowId ifnode = id

/-- All rates are those of the octets since the previous poll. -/
def RatesTrue (previous last : List InterfaceTable) (report : List RateInfo) : Prop :=
  ∀ info ∈ report, ∀ before ∈ rowOf previous info.id, ∀ after ∈ rowOf last info.id,
    info.outRate = trueRate (octets before.ifoutoctets) (octets after.ifoutoctets) ∧
      info.inRate = trueRate (octets before.ifinoctets) (octets after.ifinoctets)

/-- No counter of these interfaces starts again from zero between two polls. -/
def NoWrap (ifList : List UInt32) (previous last : List InterfaceTable) : Prop :=
  ∀ id ∈ ifList, ∀ before ∈ rowOf previous id, ∀ after ∈ rowOf last id,
    octets before.ifoutoctets ≤ octets after.ifoutoctets ∧
      octets before.ifinoctets ≤ octets after.ifinoctets

/-! ## Counters of 32 bits in 64 bits -/

/-- The difference in 64 bits is that of the counter unless the counter has started again. -/
theorem difference_eq_iff
    {before after : UInt64}
    (smallBefore : before.toNat < 2 ^ 32)
    (smallAfter : after.toNat < 2 ^ 32) :
    (after - before) / rateRefreshTimeval = trueRate before.toNat after.toNat ↔
      before.toNat ≤ after.toNat := by
  have refresh : rateRefreshTimeval.toNat = 2 := by decide
  have half : (after.toNat + 2 ^ 32 - before.toNat) % 2 ^ 32 / 2 < 2 ^ 64 := by omega
  rw [← UInt64.toNat_inj, UInt64.toNat_div, refresh, UInt64.toNat_sub, trueRate,
    UInt64.toNat_ofNat_of_lt' half]
  constructor
  · intro same
    by_contra wraps
    -- the difference in 64 bits is then at least 2 ^ 62, that of the counter below 2 ^ 31
    have large :
        (2 ^ 64 - before.toNat + after.toNat) % 2 ^ 64 = 2 ^ 64 - before.toNat + after.toNat := by
      apply Nat.mod_eq_of_lt
      omega
    rw [large] at same
    omega
  · intro grows
    have wide : (2 ^ 64 - before.toNat + after.toNat) % 2 ^ 64 = after.toNat - before.toNat := by
      omega
    have narrow : (after.toNat + 2 ^ 32 - before.toNat) % 2 ^ 32 = after.toNat - before.toNat := by
      omega
    rw [wide, narrow]

theorem toNat_atoll
    {text : String}
    (isCounter : 0 ≤ strtol text ∧ strtol text < 2 ^ 32) :
    (atoll text).toUInt64.toNat = octets text := by
  have small : octets text < 2 ^ 32 := by
    unfold octets
    omega
  have asNat : strtol text = (octets text : Int) := (Int.toNat_of_nonneg isCounter.1).symm
  unfold atoll
  rw [asNat]
  change (UInt64.ofNat (octets text)).toNat = octets text
  exact UInt64.toNat_ofNat_of_lt' (Nat.lt_trans small (by decide))

/-! ## A table -/

section

variable {iflist : List Rinterface}

theorem getInterface_rateRow
    (iflist : List Rinterface)
    (ifnode : InterfaceTable) :
    getInterface (qCtid (rowId ifnode)) (rateRow iflist ifnode) =
      (getInterface (qCtid (rowId ifnode)) iflist).map (setRates ifnode) := by
  apply find?_updateFirst
  intro face found
  exact found

theorem getInterface_rateRow_other
    (iflist : List Rinterface)
    {ifnode : InterfaceTable}
    {id : UInt32}
    (other : rowId ifnode ≠ id) :
    getInterface (qCtid id) (rateRow iflist ifnode) = getInterface (qCtid id) iflist := by
  have apart (face : Rinterface) (found : qCtid (rowId ifnode) face = true) :
      qCtid id face = false := by
    have same : face.ctlId = rowId ifnode := of_decide_eq_true found
    exact decide_eq_false (same ▸ other)
  apply find?_updateFirst_other
  · exact apart
  · exact apart

theorem getInterface_rateRows_other
    {table : List InterfaceTable}
    {id : UInt32}
    (other : ∀ ifnode ∈ table, rowId ifnode ≠ id)
    (iflist : List Rinterface) :
    getInterface (qCtid id) (table.foldl rateRow iflist) = getInterface (qCtid id) iflist := by
  induction table generalizing iflist with
  | nil =>
      rfl
  | cons ifnode rest inductionHypothesis =>
      rw [List.forall_mem_cons] at other
      rw [List.foldl_cons, inductionHypothesis other.2, getInterface_rateRow_other iflist other.1]

/-- An interface after a table: its row is set, if it has one. -/
theorem getInterface_rateRows
    {table : List InterfaceTable}
    (distinct : (table.map rowId).Nodup)
    (id : UInt32)
    (iflist : List Rinterface) :
    getInterface (qCtid id) (table.foldl rateRow iflist) =
      match rowOf table id with
      | none => getInterface (qCtid id) iflist
      | some ifnode => (getInterface (qCtid id) iflist).map (setRates ifnode) := by
  induction table generalizing iflist with
  | nil =>
      rfl
  | cons ifnode rest inductionHypothesis =>
      obtain ⟨fresh, distinctRest⟩ := List.nodup_cons.mp distinct
      by_cases same : rowId ifnode = id
      · subst same
        have others : ∀ other ∈ rest, rowId other ≠ rowId ifnode := by
          intro other member isSame
          exact fresh (List.mem_map.mpr ⟨other, member, isSame⟩)
        have found : rowOf (ifnode :: rest) (rowId ifnode) = some ifnode := by
          simp [rowOf]
        rw [found, List.foldl_cons, getInterface_rateRows_other others, getInterface_rateRow]
      · have skipped : rowOf (ifnode :: rest) id = rowOf rest id := by
          simp [rowOf, same]
        rw [skipped, List.foldl_cons, inductionHypothesis distinctRest,
          getInterface_rateRow_other iflist same]

theorem isSome_getInterface_rateRows
    (table : List InterfaceTable)
    (id : UInt32)
    (iflist : List Rinterface) :
    (getInterface (qCtid id) (table.foldl rateRow iflist)).isSome =
      (getInterface (qCtid id) iflist).isSome := by
  induction table generalizing iflist with
  | nil =>
      rfl
  | cons ifnode rest inductionHypothesis =>
      rw [List.foldl_cons, inductionHypothesis]
      by_cases same : rowId ifnode = id
      · subst same
        rw [getInterface_rateRow, Option.isSome_map]
      · rw [getInterface_rateRow_other iflist same]

/-! ## A report -/

/-- The document has an entry for each interface of `ifList`. -/
theorem ifrateInfoToXml_some
    {ifList : List UInt32}
    (known : ∀ id ∈ ifList, (getInterface (qCtid id) iflist).isSome) :
    ∃ report,
      ifrateInfoToXml ifList iflist = some report ∧
        report.map RateInfo.id = ifList ∧
          ∀ info ∈ report, ∃ face,
            getInterface (qCtid info.id) iflist = some face ∧
              info.outRate = face.sendRate ∧ info.inRate = face.recvRate := by
  induction ifList with
  | nil =>
      exact ⟨[], rfl, rfl, fun _ member => nomatch member⟩
  | cons id rest inductionHypothesis =>
      rw [List.forall_mem_cons] at known
      obtain ⟨report, printed, ids, entries⟩ := inductionHypothesis known.2
      obtain ⟨face, found⟩ := Option.isSome_iff_exists.mp known.1
      refine ⟨⟨id, face.sendRate, face.recvRate⟩ :: report, ?_, ?_, ?_⟩
      · unfold ifrateInfoToXml at printed ⊢
        rw [List.mapM_cons, printed, found]
        rfl
      · rw [List.map_cons, ids]
      · rw [List.forall_mem_cons]
        exact ⟨⟨face, found, rfl, rfl⟩, entries⟩

/-! ## Runs of polls -/

/-- All interfaces of the last refresh are in the list. -/
def Listed (ifList : List UInt32) (iflist : List Rinterface) : Prop :=
  ∀ id ∈ ifList, (getInterface (qCtid id) iflist).isSome

theorem listed_rateRows
    {ifList : List UInt32}
    (listed : Listed ifList iflist)
    (table : List InterfaceTable) :
    Listed ifList (table.foldl rateRow iflist) := by
  intro id member
  rw [isSome_getInterface_rateRows]
  exact listed id member

/-- A poll sets the rates and ends, with a report when it is not the first. -/
theorem ifrateDiffAndSend_some
    {ifList : List UInt32}
    {state : RatePolling}
    (listed : Listed ifList state.iflist)
    (table : List InterfaceTable) :
    ∃ sent,
      ifrateDiffAndSend ifList state table =
          some (⟨table.foldl rateRow state.iflist, true⟩, sent) ∧
        (state.firstRun = true →
          ∃ report,
            sent = some report ∧
              ifrateInfoToXml ifList (table.foldl rateRow state.iflist) = some report) := by
  unfold ifrateDiffAndSend
  cases first : state.firstRun with
  | false =>
      exact ⟨none, rfl, fun never => nomatch never⟩
  | true =>
      obtain ⟨report, printed, -⟩ := ifrateInfoToXml_some (listed_rateRows listed table)
      refine ⟨some report, ?_, fun _ => ⟨report, rfl, printed⟩⟩
      rw [if_neg (by decide), printed]
      rfl

/-- Any polls end, and the interfaces are still in the list. -/
theorem answers_some
    {ifList : List UInt32}
    {state : RatePolling}
    (listed : Listed ifList state.iflist)
    (tables : List (List InterfaceTable)) :
    ∃ last sent,
      answers (ifrateDiffAndSend ifList) state tables = some (last, sent) ∧
        Listed ifList last.iflist := by
  induction tables generalizing state with
  | nil =>
      exact ⟨state, [], rfl, listed⟩
  | cons table rest inductionHypothesis =>
      obtain ⟨sent, step, -⟩ := ifrateDiffAndSend_some listed table
      have still : Listed ifList (table.foldl rateRow state.iflist) :=
        listed_rateRows listed table
      obtain ⟨last, others, later, atEnd⟩ :=
        @inductionHypothesis ⟨table.foldl rateRow state.iflist, true⟩ still
      refine ⟨last, sent :: others, ?_, atEnd⟩
      rw [answers_cons, step, Option.bind_some, later, Option.map_some]

/-- The rates of an interface with a row in both of two tables. -/
theorem rates_of_rows
    {previous last : List InterfaceTable}
    (distinctPrevious : (previous.map rowId).Nodup)
    (distinctLast : (last.map rowId).Nodup)
    {id : UInt32}
    {before after : InterfaceTable}
    (rowBefore : rowOf previous id = some before)
    (rowAfter : rowOf last id = some after)
    {face : Rinterface}
    (found :
      getInterface (qCtid id) (last.foldl rateRow (previous.foldl rateRow iflist)) = some face) :
    face.sendRate =
        ((atoll after.ifoutoctets).toUInt64 - (atoll before.ifoutoctets).toUInt64) /
          rateRefreshTimeval ∧
      face.recvRate =
        ((atoll after.ifinoctets).toUInt64 - (atoll before.ifinoctets).toUInt64) /
          rateRefreshTimeval := by
  rw [getInterface_rateRows distinctLast, rowAfter, getInterface_rateRows distinctPrevious,
    rowBefore] at found
  obtain ⟨middle, foundMiddle, isFace⟩ := Option.map_eq_some_iff.mp found
  obtain ⟨start, -, isMiddle⟩ := Option.map_eq_some_iff.mp foundMiddle
  subst isMiddle isFace
  exact ⟨rfl, rfl⟩

/-- The rate from two texts of a counter is right unless the counter has started again. -/
theorem rate_eq_iff
    {before after : String}
    (isBefore : 0 ≤ strtol before ∧ strtol before < 2 ^ 32)
    (isAfter : 0 ≤ strtol after ∧ strtol after < 2 ^ 32) :
    ((atoll after).toUInt64 - (atoll before).toUInt64) / rateRefreshTimeval =
        trueRate (octets before) (octets after) ↔
      octets before ≤ octets after := by
  have small {text : String} (isCounter : 0 ≤ strtol text ∧ strtol text < 2 ^ 32) :
      (atoll text).toUInt64.toNat < 2 ^ 32 := by
    rw [toNat_atoll isCounter]
    unfold octets
    omega
  rw [← toNat_atoll isBefore, ← toNat_atoll isAfter]
  exact difference_eq_iff (small isBefore) (small isAfter)

/--
After any polls, the rates that are sent are those of the octets since the previous
poll if and only if no counter has started again from zero since.
-/
theorem rates_true_iff
    {ifList : List UInt32}
    (listed : Listed ifList iflist)
    (earlier : List (List InterfaceTable))
    {previous last : List InterfaceTable}
    (distinctPrevious : (previous.map rowId).Nodup)
    (distinctLast : (last.map rowId).Nodup)
    (counters : ∀ ifnode ∈ previous ++ last, IsCounter ifnode) :
    ∃ state sent report,
      answers (ifrateDiffAndSend ifList) ⟨iflist, false⟩ (earlier ++ [previous, last]) =
          some (state, sent ++ [some report]) ∧
        report.map RateInfo.id = ifList ∧
          (RatesTrue previous last report ↔ NoWrap ifList previous last) := by
  obtain ⟨start, sent, run, listedStart⟩ := @answers_some ifList ⟨iflist, false⟩ listed earlier
  obtain ⟨sentPrevious, stepPrevious, -⟩ := ifrateDiffAndSend_some listedStart previous
  have listedPrevious := listed_rateRows listedStart previous
  obtain ⟨sentLast, stepLast, sends⟩ :=
    @ifrateDiffAndSend_some ifList ⟨previous.foldl rateRow start.iflist, true⟩ listedPrevious last
  obtain ⟨report, isReport, printed⟩ := sends rfl
  obtain ⟨printedReport, isPrinted, ids, entries⟩ :=
    ifrateInfoToXml_some (listed_rateRows listedPrevious last)
  rw [printed] at isPrinted
  cases isPrinted
  refine ⟨⟨last.foldl rateRow (previous.foldl rateRow start.iflist), true⟩,
    sent ++ [sentPrevious], report, ?_, ids, ?_⟩
  · rw [answers_append, run, Option.bind_some, answers_cons, stepPrevious, Option.bind_some,
      answers_cons, stepLast, Option.bind_some, isReport]
    simp only [answers, Option.map_some, List.append_assoc, List.cons_append, List.nil_append]
  · -- an entry has the rates of its rows, and they are right where the counter has grown
    have entry {info : RateInfo} (member : info ∈ report) {before after : InterfaceTable}
        (rowBefore : rowOf previous info.id = some before)
        (rowAfter : rowOf last info.id = some after) :
        (info.outRate = trueRate (octets before.ifoutoctets) (octets after.ifoutoctets) ↔
            octets before.ifoutoctets ≤ octets after.ifoutoctets) ∧
          (info.inRate = trueRate (octets before.ifinoctets) (octets after.ifinoctets) ↔
            octets before.ifinoctets ≤ octets after.ifinoctets) := by
      obtain ⟨face, found, outRate, inRate⟩ := entries info member
      obtain ⟨sendRate, recvRate⟩ :=
        rates_of_rows distinctPrevious distinctLast rowBefore rowAfter found
      have counterBefore :=
        counters before (List.mem_append_left _ (List.mem_of_find?_eq_some rowBefore))
      have counterAfter :=
        counters after (List.mem_append_right _ (List.mem_of_find?_eq_some rowAfter))
      rw [outRate, inRate, sendRate, recvRate]
      exact ⟨rate_eq_iff counterBefore.1 counterAfter.1, rate_eq_iff counterBefore.2 counterAfter.2⟩
    constructor
    · intro rates id member before rowBefore after rowAfter
      rw [← ids] at member
      obtain ⟨info, inReport, isId⟩ := List.mem_map.mp member
      subst isId
      obtain ⟨out, inward⟩ := entry inReport rowBefore rowAfter
      obtain ⟨outTrue, inTrue⟩ := rates info inReport before rowBefore after rowAfter
      exact ⟨out.mp outTrue, inward.mp inTrue⟩
    · intro grows info inReport before rowBefore after rowAfter
      have member : info.id ∈ ifList := by
        rw [← ids]
        exact List.mem_map.mpr ⟨info, inReport, rfl⟩
      obtain ⟨out, inward⟩ := entry inReport rowBefore rowAfter
      obtain ⟨outGrows, inGrows⟩ := grows info.id member before rowBefore after rowAfter
      exact ⟨out.mpr outGrows, inward.mpr inGrows⟩

end

/-- An interface of this number. -/
def numberedFace (id : UInt32) : Rinterface :=
  { created with ctlId := id }

/-- The counters of interface 2. -/
def oneRow (octets : String) : List InterfaceTable :=
  [⟨"2", octets, octets⟩]

/-- Two polls of a counter that grows. -/
theorem rates_true_growing :
    Listed [2] [numberedFace 2] ∧
      ∃ state sent report,
        answers (ifrateDiffAndSend [2]) ⟨[numberedFace 2], false⟩
            ([] ++ [oneRow "4294967280", oneRow "4294967290"]) =
            some (state, sent ++ [some report]) ∧
          report.map RateInfo.id = [2] ∧
            RatesTrue (oneRow "4294967280") (oneRow "4294967290") report := by
  have listed : Listed [2] [numberedFace 2] := by
    intro id member
    rw [List.mem_singleton.mp member]
    rfl
  have counters :
      ∀ ifnode ∈ oneRow "4294967280" ++ oneRow "4294967290", IsCounter ifnode := by
    refine List.forall_mem_cons.mpr ⟨?_, List.forall_mem_singleton.mpr ?_⟩
    · unfold IsCounter
      decide
    · unfold IsCounter
      decide
  have grows : NoWrap [2] (oneRow "4294967280") (oneRow "4294967290") := by
    refine List.forall_mem_singleton.mpr ?_
    decide
  have distinct (text : String) : ((oneRow text).map rowId).Nodup := List.nodup_singleton _
  obtain ⟨state, sent, report, run, ids, isTrue⟩ :=
    rates_true_iff listed [] (distinct _) (distinct _) counters
  exact ⟨listed, state, sent, report, run, ids, isTrue.mpr grows⟩

/-- Ten octets over the end of the counter are sent as a rate above 2 ^ 62. -/
theorem rates_wrap :
    (answers (ifrateDiffAndSend [2]) ⟨[numberedFace 2], false⟩
        [oneRow "4294967290", oneRow "4"]).map Prod.snd =
        some [none, some [⟨2, 9223372034707292165, 9223372034707292165⟩]] ∧
      trueRate (octets "4294967290") (octets "4") = 5 ∧
        ¬RatesTrue (oneRow "4294967290") (oneRow "4")
          [⟨2, 9223372034707292165, 9223372034707292165⟩] := by
  unfold RatesTrue
  decide

end Interface.Rate

end Pma
