import Pma.Dbm
import Pma.LsdReceive

namespace Pma

open Transition

/-!
# The copy of the link state databases

ICM and DBM are two processes.  Every call that changes a database of ICM sends
one packet, packets arrive in order, and DBM handles them one at a time while
ICM goes on.  The table of DBM is a copy of the databases when no packet is on
its way, provided every update is noticed: `link_state_handler` compares
statuses only, and it compares them for the pair of routers and not for the
link.
-/

namespace PmaLsdb

/-- The area and the link a row is about. -/
def keyOf (row : LinkInfo) : UInt32 × LinkStateKey :=
  (row.areaid, ⟨row.rid, row.ifid, row.nrid, row.nifid⟩)

/-- The rows of a link in an area. -/
def rowsOf (table : PmaLsdb) (area : UInt32) (key : LinkStateKey) : PmaLsdb :=
  table.filter fun row => keyOf row = (area, key)

theorem mem_rowsOf
    {table : PmaLsdb}
    {area : UInt32}
    {key : LinkStateKey}
    {row : LinkInfo} :
    row ∈ table.rowsOf area key ↔ row ∈ table ∧ keyOf row = (area, key) := by
  unfold rowsOf
  rw [List.mem_filter, decide_eq_true_eq]

theorem isRowOf_iff
    {link row : LinkInfo} :
    isRowOf link row = true ↔ keyOf row = keyOf link := by
  simp only [isRowOf, keyOf, decide_eq_true_eq, Prod.mk.injEq,
    LinkStateKey.mk.injEq]
  tauto

/-- An insertion adds a row of its link. -/
theorem rowsOf_insertLinkState
    (table : PmaLsdb)
    (link : LinkInfo)
    (area : UInt32)
    (key : LinkStateKey) :
    (table.insertLinkState link).rowsOf area key =
      table.rowsOf area key ++ if keyOf link = (area, key) then [link] else [] := by
  unfold rowsOf insertLinkState
  rw [List.filter_append, List.filter_singleton]
  by_cases isLink : keyOf link = (area, key)
  · simp [isLink]
  · simp [isLink]

/-- An update keeps the key of every row. -/
theorem rowsOf_updateLinkState
    (table : PmaLsdb)
    (link : LinkInfo)
    (area : UInt32)
    (key : LinkStateKey) :
    (table.updateLinkState link).rowsOf area key =
      (table.rowsOf area key).map fun row =>
        if isRowOf link row then setRow link row else row := by
  unfold rowsOf updateLinkState
  rw [List.filter_map]
  congr 1
  apply List.filter_congr
  intro row _
  have sameKey :
      keyOf (if isRowOf link row then setRow link row else row) = keyOf row := by
    split
    · rfl
    · rfl
  rw [Function.comp_apply, sameKey]

/-- An update sets the rows of its link. -/
theorem rowsOf_updateLinkState_self
    {table : PmaLsdb}
    {link row : LinkInfo}
    {area : UInt32}
    {key : LinkStateKey}
    (sameKey : keyOf link = (area, key))
    (rows : table.rowsOf area key = [row]) :
    (table.updateLinkState link).rowsOf area key = [setRow link row] := by
  have member : row ∈ table.rowsOf area key := by
    rw [rows]
    exact List.mem_singleton_self row
  have isRow := (mem_rowsOf.mp member).2
  rw [rowsOf_updateLinkState, rows]
  simp [isRowOf_iff.mpr (isRow.trans sameKey.symm)]

/-- An update leaves the rows of every other link alone. -/
theorem rowsOf_updateLinkState_of_ne
    {link : LinkInfo}
    {area : UInt32}
    {key : LinkStateKey}
    (table : PmaLsdb)
    (different : keyOf link ≠ (area, key)) :
    (table.updateLinkState link).rowsOf area key = table.rowsOf area key := by
  rw [rowsOf_updateLinkState]
  refine (List.map_congr_left ?_).trans (List.map_id _)
  intro row member
  have isRow := (mem_rowsOf.mp member).2
  have notRow : ¬isRowOf link row = true := by
    rw [isRowOf_iff]
    intro same
    exact different (same.symm.trans isRow)
  rw [if_neg notRow]
  rfl

end PmaLsdb

/-- A row has the metric, the status and the sequence number of an entry. -/
def Agrees (row : LinkInfo) (link : CrLsdbLinkState) : Prop :=
  row.metric = link.metric ∧ row.status = link.state ∧ row.seq = link.seq

/-- The rows of a link are a copy of its entry. -/
def Copies (rows : PmaLsdb) : Option CrLsdbLinkState → Prop
  | none => rows = []
  | some link => ∃ row, rows = [row] ∧ Agrees row link

/-- The table is a copy of the databases of all areas. -/
def Mirrored (icm : Icm) (table : PmaLsdb) : Prop :=
  ∀ zone ∈ icm.router.azs, ∀ key,
    Copies (table.rowsOf (icm.router.zone zone).azId key) (icm.stored zone key)

/-- No other link of the database connects the same two routers. -/
def Alone (icm : Icm) (zone : ZoneId) (key : LinkStateKey) : Prop :=
  ∀ other entry,
    icm.stored zone other = some entry →
    other.rtId = key.rtId →
    other.nRtId = key.nRtId →
    other = key

namespace Mirrored

variable
  {icm : Icm} {table : PmaLsdb} {zone : ZoneId} {key : LinkStateKey}
  {old : CrLsdbLinkState}

/-- The row of a stored link. -/
theorem row
    (mirrored : Mirrored icm table)
    (listed : zone ∈ icm.router.azs)
    (found : icm.stored zone key = some old) :
    ∃ row,
      table.rowsOf (icm.router.zone zone).azId key = [row] ∧
        Agrees row old := by
  have copies := mirrored zone listed key
  rw [found] at copies
  exact copies

/-- The status of the only link between two routers is found. -/
theorem query_of_alone
    (mirrored : Mirrored icm table)
    (listed : zone ∈ icm.router.azs)
    (found : icm.stored zone key = some old)
    (alone : Alone icm zone key) :
    table.queryLinkStateStatus (icm.router.zone zone).azId key.rtId key.nRtId =
      some old.state := by
  obtain ⟨row, rows, agrees⟩ := mirrored.row listed found
  have pair :
      (table.filter fun row =>
        row.areaid = (icm.router.zone zone).azId ∧ row.rid = key.rtId ∧
          row.nrid = key.nRtId) = [row] := by
    rw [← rows]
    apply List.filter_congr
    intro other member
    rw [decide_eq_decide]
    constructor
    · rintro ⟨area, start, finish⟩
      -- a row of another link of the pair would have an entry
      have copies := mirrored zone listed
        ⟨other.rid, other.ifid, other.nrid, other.nifid⟩
      cases stored : icm.stored zone
          ⟨other.rid, other.ifid, other.nrid, other.nifid⟩ with
      | some entry =>
          have sameKey := alone _ _ stored start finish
          rw [PmaLsdb.keyOf, area, sameKey]
      | none =>
          rw [stored] at copies
          have isRow : other ∈
              table.rowsOf (icm.router.zone zone).azId
                ⟨other.rid, other.ifid, other.nrid, other.nifid⟩ :=
            PmaLsdb.mem_rowsOf.mpr ⟨member, by rw [PmaLsdb.keyOf, area]⟩
          rw [show table.rowsOf _ _ = [] from copies] at isRow
          cases isRow
    · intro sameKey
      simp only [PmaLsdb.keyOf, Prod.mk.injEq] at sameKey
      obtain ⟨area, sameKey⟩ := sameKey
      rw [← sameKey]
      exact ⟨area, rfl, rfl⟩
  unfold PmaLsdb.queryLinkStateStatus
  rw [pair, ← agrees.2.1]

/-- Of two links between two routers no status is found. -/
theorem query_of_not_alone
    (mirrored : Mirrored icm table)
    (listed : zone ∈ icm.router.azs)
    (found : icm.stored zone key = some old)
    (parallel : ¬Alone icm zone key) :
    table.queryLinkStateStatus (icm.router.zone zone).azId key.rtId key.nRtId =
      none := by
  unfold Alone at parallel
  push Not at parallel
  obtain ⟨other, entry, stored, start, finish, different⟩ := parallel
  have isPairRow :
      ∀ {query row},
        table.rowsOf (icm.router.zone zone).azId query = [row] →
        query.rtId = key.rtId →
        query.nRtId = key.nRtId →
        PmaLsdb.keyOf row = ((icm.router.zone zone).azId, query) ∧
          row ∈ table.filter fun row =>
            row.areaid = (icm.router.zone zone).azId ∧ row.rid = key.rtId ∧
              row.nrid = key.nRtId := by
    intro query row rows sameStart sameFinish
    have member : row ∈ table.rowsOf (icm.router.zone zone).azId query := by
      rw [rows]
      exact List.mem_singleton_self row
    obtain ⟨inTable, isRow⟩ := PmaLsdb.mem_rowsOf.mp member
    refine ⟨isRow, List.mem_filter.mpr ⟨inTable, decide_eq_true ?_⟩⟩
    simp only [PmaLsdb.keyOf, Prod.mk.injEq] at isRow
    rw [← sameStart, ← sameFinish, ← isRow.2]
    exact ⟨isRow.1, rfl, rfl⟩
  obtain ⟨row, rows, -⟩ := mirrored.row listed found
  obtain ⟨otherRow, otherRows, -⟩ := mirrored.row listed stored
  obtain ⟨rowKey, rowMember⟩ := isPairRow rows rfl rfl
  obtain ⟨otherKey, otherMember⟩ := isPairRow otherRows start finish
  unfold PmaLsdb.queryLinkStateStatus
  split
  · next only single =>
      rw [single] at rowMember otherMember
      rw [List.mem_singleton.mp rowMember] at rowKey
      rw [List.mem_singleton.mp otherMember, rowKey] at otherKey
      exact absurd (congrArg Prod.snd otherKey).symm different
  · rfl

section Write

variable
  {after : Icm} {link : CrLsdbLinkState} {written : PmaLsdb}

/--
A call that stores one link is mirrored when the rows of the link are a copy of
it and the rows of the other links are left alone.
-/
theorem of_write
    (mirrored : Mirrored icm table)
    (distinct : icm.AreasDistinct)
    (listed : zone ∈ icm.router.azs)
    (router : after.router = icm.router)
    (stored : after.stored = icm.stored.write zone link)
    (own :
      Copies (written.rowsOf (icm.router.zone zone).azId link.key) (some link))
    (others :
      ∀ area key,
        ((icm.router.zone zone).azId, link.key) ≠ (area, key) →
        written.rowsOf area key = table.rowsOf area key) :
    Mirrored after written := by
  intro query queryListed key
  rw [router] at queryListed ⊢
  rw [stored]
  by_cases isLink : query = zone ∧ key = link.key
  · rw [isLink.1, isLink.2, Entries.write_self]
    exact own
  · rw [Entries.write_of_ne _ isLink, others]
    · exact mirrored query queryListed key
    · intro sameRow
      simp only [Prod.mk.injEq] at sameRow
      have sameZone :=
        distinct.areasUnique zone listed query queryListed sameRow.1
      exact isLink ⟨sameZone.symm, sameRow.2.symm⟩

end Write

end Mirrored

/-- The message about a link names it. -/
theorem keyOf_lsdbMsgCreate
    (area : UInt32)
    (link : CrLsdbLinkState) :
    PmaLsdb.keyOf (lsdbMsgCreate area link) = (area, link.key) :=
  rfl

/-! ## Two processes -/

/-- A packet from ICM to DBM. -/
abbrev LsdbPacket := LsdbAction × LsdbMsg

/-- The packet a call sent, if it sent one. -/
def packetOf : Call → Option LsdbPacket
  | .sendPacket action msg => some (action, msg)
  | _ => none

/-- ICM, the packets on their way and DBM. -/
structure Replica where
  icm : Icm
  channel : List LsdbPacket
  dbm : Dbm

namespace Replica

/-- What happens next: a call in ICM, or DBM takes the next packet. -/
inductive Op where
  /-- `cr_lsdb_link_state_add`. -/
  | add (zone : ZoneId) (link : CrLsdbLinkState)
  /-- `cr_lsdb_link_state_update`. -/
  | update (zone : ZoneId) (link : CrLsdbLinkState)
  /-- `link_state_handler` on the next packet. -/
  | deliver

/-- ICM moved on, and the packets it sent are on their way. -/
def send (replica : Replica) (icm : Icm) : Replica :=
  { replica with
    icm := icm
    channel := replica.channel ++
      (icm.trace.drop replica.icm.trace.length).filterMap packetOf }

/-- DBM takes the next packet. -/
def deliver (replica : Replica) : Replica :=
  match replica.channel with
  | [] => replica
  | packet :: rest =>
      { replica with
        channel := rest
        dbm := replica.dbm.linkStateHandler packet.1 packet.2 }

/-- One step of the two processes. -/
def step (replica : Replica) : Op → Except Fault Replica
  | .add zone link => do
      let icm ← replica.icm.crLsdbLinkStateAdd zone link
      return replica.send icm
  | .update zone link => do
      let icm ← replica.icm.crLsdbLinkStateUpdate zone link
      return replica.send icm
  | .deliver => .ok replica.deliver

/-- DBM once all packets on their way are processed. -/
def settled (replica : Replica) : Dbm :=
  replica.channel.foldl
    (fun dbm packet => dbm.linkStateHandler packet.1 packet.2) replica.dbm

/-- The table once all packets are processed is a copy of the databases. -/
def InStep (replica : Replica) : Prop :=
  Mirrored replica.icm replica.settled.pmaLsdb

/-- A call is on the database of an area. -/
def Listed (replica : Replica) : Op → Prop
  | .add zone _ => zone ∈ replica.icm.router.azs
  | .update zone _ => zone ∈ replica.icm.router.azs
  | .deliver => True

/--
DBM notices an update: it changes the status, or the link is not the only one
between its two routers, or there is nothing to notice.
-/
def Noticed (replica : Replica) : Op → Prop
  | .add _ _ => True
  | .update zone link =>
      ∀ old,
        replica.icm.stored zone link.key = some old →
        old.state = link.state →
        Alone replica.icm zone link.key →
        old.metric = link.metric ∧ old.seq = link.seq
  | .deliver => True

/-- Both processes before the first call. -/
structure Fresh (replica : Replica) : Prop where
  areas : replica.icm.AreasDistinct
  entries : ∀ zone key, replica.icm.stored zone key = none
  channel : replica.channel = []
  table : replica.dbm.pmaLsdb = []

/-- What every step keeps. -/
structure Inv (replica : Replica) : Prop where
  areas : replica.icm.AreasDistinct
  inStep : replica.InStep

/-- Empty databases have an empty copy. -/
theorem Fresh.inv
    {replica : Replica}
    (fresh : replica.Fresh) :
    replica.Inv where
  areas := fresh.areas
  inStep := by
    intro zone _ key
    have empty : replica.settled.pmaLsdb = [] := by
      unfold settled
      rw [fresh.channel]
      exact fresh.table
    rw [fresh.entries zone key, empty]
    rfl

/-- A delivery changes nothing once all packets are processed. -/
theorem deliver_settled
    (replica : Replica) :
    replica.deliver.settled = replica.settled := by
  unfold deliver
  cases onWay : replica.channel with
  | nil =>
      rfl
  | cons packet rest =>
      simp [settled, onWay]

theorem deliver_icm
    (replica : Replica) :
    replica.deliver.icm = replica.icm := by
  unfold deliver
  split
  · rfl
  · rfl

/-- A packet that was sent is processed after the others. -/
theorem send_settled
    {replica : Replica}
    {icm : Icm}
    {entries : Entries}
    {action : LsdbAction}
    {msg : LsdbMsg}
    (effect :
      Icm.Effect replica.icm icm entries [.sendPacket action msg]) :
    (replica.send icm).settled.pmaLsdb =
      replica.settled.pmaLsdb.write action msg := by
  have sent :
      (icm.trace.drop replica.icm.trace.length).filterMap packetOf =
        [(action, msg)] := by
    rw [effect.trace, List.drop_left]
    rfl
  unfold settled send
  dsimp only
  rw [sent, List.foldl_append]
  exact Dbm.linkStateHandler_pmaLsdb _ _ _

section Calls

variable
  {replica : Replica} {zone : ZoneId} {link : CrLsdbLinkState} {icm : Icm}

/-- The databases and the areas after a call that stores a link. -/
theorem areas_of_effect
    {entries : Entries}
    {calls : List Call}
    (distinct : replica.icm.AreasDistinct)
    (effect : Icm.Effect replica.icm icm entries calls) :
    icm.router = replica.icm.router ∧ icm.AreasDistinct := by
  have router : icm.router = replica.icm.router :=
    congrArg Prod.fst effect.links
  refine ⟨router, distinct.congr ?_ ?_ ?_⟩
  · rw [router]
  · intro zone
    rw [router]
  · exact congrArg (fun links => links.2.1) effect.links

/-- A listed area is sent with its id. -/
theorem areaId_of_listed
    (listed : zone ∈ replica.icm.router.azs) :
    replica.icm.getAreaIdByLsdbHandle zone =
      (replica.icm.router.zone zone).azId :=
  if_pos listed

/-- An added link gets the only row of its key. -/
theorem inStep_add
    (invariant : replica.Inv)
    (listed : zone ∈ replica.icm.router.azs)
    (returned : replica.icm.crLsdbLinkStateAdd zone link = .ok icm) :
    (replica.send icm).InStep := by
  have effect := Icm.Effect.crLsdbLinkStateAdd returned
  have absent : replica.icm.stored zone link.key = none := by
    unfold Icm.crLsdbLinkStateAdd at returned
    obtain ⟨db, added, -⟩ := bind_eq_ok.mp returned
    exact Lsdb.absent_of_add added
  unfold InStep
  rw [send_settled effect, areaId_of_listed listed]
  refine invariant.inStep.of_write invariant.areas listed
    (areas_of_effect invariant.areas effect).1 effect.stored ?_ ?_
  · have noRow := invariant.inStep zone listed link.key
    rw [absent] at noRow
    refine ⟨lsdbMsgCreate (replica.icm.router.zone zone).azId link, ?_,
      rfl, rfl, rfl⟩
    change (PmaLsdb.insertLinkState _ _).rowsOf _ _ = _
    rw [PmaLsdb.rowsOf_insertLinkState, keyOf_lsdbMsgCreate, if_pos rfl,
      show PmaLsdb.rowsOf _ _ _ = [] from noRow]
    rfl
  · intro area key different
    change (PmaLsdb.insertLinkState _ _).rowsOf _ _ = _
    rw [PmaLsdb.rowsOf_insertLinkState, keyOf_lsdbMsgCreate, if_neg different,
      List.append_nil]

/-- What `update_link_state` writes is a copy of the link. -/
theorem mirrored_updateLinkState
    {old : CrLsdbLinkState}
    (invariant : replica.Inv)
    (listed : zone ∈ replica.icm.router.azs)
    (found : replica.icm.stored zone link.key = some old)
    (router : icm.router = replica.icm.router)
    (stored : icm.stored = replica.icm.stored.write zone link) :
    Mirrored icm
      (replica.settled.pmaLsdb.updateLinkState
        (lsdbMsgCreate (replica.icm.router.zone zone).azId link)) := by
  refine invariant.inStep.of_write invariant.areas listed router stored ?_ ?_
  · obtain ⟨row, rows, -⟩ := invariant.inStep.row listed found
    exact ⟨_, PmaLsdb.rowsOf_updateLinkState_self (keyOf_lsdbMsgCreate _ _) rows,
      rfl, rfl, rfl⟩
  · intro area key different
    exact PmaLsdb.rowsOf_updateLinkState_of_ne _ different

/-- A table that is not written is a copy when the link did not change. -/
theorem mirrored_unwritten_iff
    {old : CrLsdbLinkState}
    (invariant : replica.Inv)
    (listed : zone ∈ replica.icm.router.azs)
    (found : replica.icm.stored zone link.key = some old)
    (sameState : old.state = link.state)
    (router : icm.router = replica.icm.router)
    (stored : icm.stored = replica.icm.stored.write zone link) :
    Mirrored icm replica.settled.pmaLsdb ↔
      old.metric = link.metric ∧ old.seq = link.seq := by
  obtain ⟨row, rows, metric, status, seq⟩ :=
    invariant.inStep.row listed found
  constructor
  · intro mirrored
    have listedAfter : zone ∈ icm.router.azs := by
      rw [router]
      exact listed
    have storedLink : icm.stored zone link.key = some link := by
      rw [stored]
      exact Entries.write_self _ _ _
    obtain ⟨other, otherRows, otherMetric, -, otherSeq⟩ :=
      mirrored.row listedAfter storedLink
    rw [router, rows] at otherRows
    cases otherRows
    exact ⟨metric.symm.trans otherMetric, seq.symm.trans otherSeq⟩
  · rintro ⟨sameMetric, sameSeq⟩
    refine invariant.inStep.of_write invariant.areas listed router stored ?_ ?_
    · exact ⟨row, rows, metric.trans sameMetric, status.trans sameState,
        seq.trans sameSeq⟩
    · intro area key _
      rfl

/-- An update is mirrored exactly when DBM notices it. -/
theorem inStep_update_iff
    (invariant : replica.Inv)
    (listed : zone ∈ replica.icm.router.azs)
    (returned : replica.icm.crLsdbLinkStateUpdate zone link = .ok icm) :
    (replica.send icm).InStep ↔ replica.Noticed (.update zone link) := by
  have effect := Icm.Effect.crLsdbLinkStateUpdate returned
  have router := (areas_of_effect invariant.areas effect).1
  obtain ⟨old, found⟩ : ∃ old, replica.icm.stored zone link.key = some old := by
    unfold Icm.crLsdbLinkStateUpdate at returned
    obtain ⟨db, updated, -⟩ := bind_eq_ok.mp returned
    exact Lsdb.present_of_update updated
  have update := mirrored_updateLinkState invariant listed found router
    effect.stored
  unfold InStep
  rw [send_settled effect, areaId_of_listed listed]
  change
    Mirrored icm
      (if PmaLsdb.queryLinkStateStatus _ (replica.icm.router.zone zone).azId
          link.key.rtId link.key.nRtId ≠ some link.state then _ else _) ↔ _
  by_cases alone : Alone replica.icm zone link.key
  · rw [invariant.inStep.query_of_alone listed found alone]
    by_cases sameState : old.state = link.state
    · rw [if_neg (by simp [sameState]),
        mirrored_unwritten_iff invariant listed found sameState router
          effect.stored]
      constructor
      · intro same other otherFound _ _
        rw [found] at otherFound
        cases otherFound
        exact same
      · intro noticed
        exact noticed old found sameState alone
    · rw [if_pos (by simp [sameState])]
      refine iff_of_true update ?_
      intro other otherFound otherState
      rw [found] at otherFound
      cases otherFound
      exact absurd otherState sameState
  · rw [invariant.inStep.query_of_not_alone listed found alone,
      if_pos (by simp)]
    refine iff_of_true update ?_
    intro _ _ _ isAlone
    exact absurd isAlone alone

/-- A step keeps the copy in step exactly when it is noticed. -/
theorem inStep_step_iff
    {after : Replica}
    {op : Op}
    (invariant : replica.Inv)
    (listed : replica.Listed op)
    (stepped : replica.step op = .ok after) :
    after.InStep ↔ replica.Noticed op := by
  cases op with
  | add zone link =>
      obtain ⟨icm, returned, rest⟩ := bind_eq_ok.mp stepped
      cases rest
      exact iff_of_true (inStep_add invariant listed returned) trivial
  | update zone link =>
      obtain ⟨icm, returned, rest⟩ := bind_eq_ok.mp stepped
      cases rest
      exact inStep_update_iff invariant listed returned
  | deliver =>
      cases stepped
      refine iff_of_true ?_ trivial
      unfold InStep
      rw [deliver_settled, deliver_icm]
      exact invariant.inStep

/-- A step leaves the areas alone. -/
theorem areas_step
    {after : Replica}
    {op : Op}
    (distinct : replica.icm.AreasDistinct)
    (stepped : replica.step op = .ok after) :
    after.icm.router = replica.icm.router ∧ after.icm.AreasDistinct := by
  cases op with
  | add zone link =>
      obtain ⟨icm, returned, rest⟩ := bind_eq_ok.mp stepped
      cases rest
      exact areas_of_effect distinct (Icm.Effect.crLsdbLinkStateAdd returned)
  | update zone link =>
      obtain ⟨icm, returned, rest⟩ := bind_eq_ok.mp stepped
      cases rest
      exact areas_of_effect distinct (Icm.Effect.crLsdbLinkStateUpdate returned)
  | deliver =>
      cases stepped
      rw [deliver_icm]
      exact ⟨rfl, distinct⟩

end Calls

/-- The copy is in step in every state of a run. -/
def AlwaysInStep : Replica → List Op → Prop
  | replica, [] => replica.InStep
  | replica, op :: rest =>
      replica.InStep ∧
        ∀ after, replica.step op = .ok after → AlwaysInStep after rest

/-- Every update of a run is noticed. -/
def AlwaysNoticed : Replica → List Op → Prop
  | _, [] => True
  | replica, op :: rest =>
      ∀ after,
        replica.step op = .ok after →
        replica.Noticed op ∧ AlwaysNoticed after rest

/-- From a copy in step, it stays in step exactly as long as updates are noticed. -/
theorem Inv.alwaysInStep_iff
    {replica : Replica}
    {ops : List Op}
    (invariant : replica.Inv)
    (listed : ∀ op ∈ ops, replica.Listed op) :
    replica.AlwaysInStep ops ↔ replica.AlwaysNoticed ops := by
  induction ops generalizing replica with
  | nil =>
      exact iff_of_true invariant.inStep trivial
  | cons op rest inductionHypothesis =>
      have listedAfter :
          ∀ {after},
            replica.step op = .ok after →
            ∀ later ∈ rest, after.Listed later := by
        intro after stepped later member
        have router := (areas_step invariant.areas stepped).1
        have listedLater := listed later (List.mem_cons_of_mem _ member)
        cases later with
        | add zone link =>
            unfold Listed
            rw [router]
            exact listedLater
        | update zone link =>
            unfold Listed
            rw [router]
            exact listedLater
        | deliver =>
            trivial
      have stepIff :
          ∀ {after},
            replica.step op = .ok after →
            (after.InStep ↔ replica.Noticed op) :=
        inStep_step_iff invariant (listed op List.mem_cons_self)
      constructor
      · rintro ⟨-, later⟩ after stepped
        have laterInStep := later after stepped
        have inStep : after.InStep := by
          cases rest with
          | nil =>
              exact laterInStep
          | cons next others =>
              exact laterInStep.1
        refine ⟨(stepIff stepped).mp inStep, ?_⟩
        exact (inductionHypothesis
          ⟨(areas_step invariant.areas stepped).2, inStep⟩
          (listedAfter stepped)).mp laterInStep
      · intro noticed
        refine ⟨invariant.inStep, ?_⟩
        intro after stepped
        obtain ⟨noticedHere, noticedLater⟩ := noticed after stepped
        exact (inductionHypothesis
          ⟨(areas_step invariant.areas stepped).2,
            (stepIff stepped).mpr noticedHere⟩
          (listedAfter stepped)).mpr noticedLater

/--
In every state of a run of calls on the databases of areas, the table once all
packets are processed is a copy of the databases, exactly when every update
that keeps the status of the only link between its routers keeps its metric and
its sequence number as well.
-/
theorem dbm_mirrors_icm_iff
    {replica : Replica}
    {ops : List Op}
    (fresh : replica.Fresh)
    (listed : ∀ op ∈ ops, replica.Listed op) :
    replica.AlwaysInStep ops ↔ replica.AlwaysNoticed ops :=
  fresh.inv.alwaysInStep_iff listed

/-- A router with one area, which stored nothing yet. -/
def oneArea : Replica where
  icm := Icm.mirroring (Icm.oneLinkTable 20 2 1)
  channel := []
  dbm := .init

/-- A link of the router, with a sequence number and a status. -/
def ownLink (seq : UInt32) (state : UInt8) : CrLsdbLinkState where
  key := ⟨2, 7, 1, 1⟩
  addr := 0
  metric := 10
  seq := seq
  state := state
  age := ⟨0, 0⟩

theorem oneArea_fresh : oneArea.Fresh where
  areas :=
    Icm.areasDistinct_of_run
      (.cons
        (show ofPartial Icm.step
            (Icm.unmirrored (Icm.oneLinkTable 20 2 1))
            (.interfaces (Icm.oneLinkTable 20 2 1))
            (Icm.mirroring (Icm.oneLinkTable 20 2 1)) from rfl)
        (.nil _))
  entries := by
    intro zone key
    have empty :
        oneArea.icm.lsdb = Function.update (fun _ => Lsdb.init) 0 Lsdb.init :=
      rfl
    unfold Icm.stored
    rw [empty, Function.update_eq_self]
    exact Lsdb.init_find key
  channel := rfl
  table := rfl

/-- A link that goes down is noticed. -/
theorem dbm_mirrors_icm_down :
    ∃ ops final,
      Run (ofPartial step) oneArea ops final ∧
        final.channel = [] ∧
        final.icm.stored 0 ⟨2, 7, 1, 1⟩ = some (ownLink 2 0) ∧
        oneArea.AlwaysInStep ops := by
  refine
    ⟨[.add 0 (ownLink 1 3), .update 0 (ownLink 2 0), .deliver, .deliver], _,
      .cons rfl (.cons rfl (.cons rfl (.cons rfl (.nil _)))), rfl, rfl, ?_⟩
  refine (dbm_mirrors_icm_iff oneArea_fresh ?_).mpr ?_
  · have listed : (0 : ZoneId) ∈ oneArea.icm.router.azs := by decide
    simpa [Listed] using listed
  · intro added adds
    refine ⟨trivial, ?_⟩
    cases adds
    intro updated updates
    refine ⟨?_, fun _ _ => ⟨trivial, fun _ _ => ⟨trivial, trivial⟩⟩⟩
    intro old found sameState _
    cases found
    exact absurd sameState (by decide)

/-- A refresh that raises the sequence number only is not noticed. -/
theorem refresh_not_mirrored :
    ¬oneArea.AlwaysInStep
      [.add 0 (ownLink 1 3), .deliver, .update 0 (ownLink 2 3), .deliver] := by
  rintro ⟨-, added⟩
  obtain ⟨-, delivered⟩ := added _ rfl
  obtain ⟨-, updated⟩ := delivered _ rfl
  obtain ⟨inStep, -⟩ := updated _ rfl
  obtain ⟨row, rows, -, -, seq⟩ :=
    inStep 0 (by decide) ⟨2, 7, 1, 1⟩
  cases rows
  exact absurd seq (by decide)

end Replica

end Pma
