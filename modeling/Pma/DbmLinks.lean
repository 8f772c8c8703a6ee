import Mathlib.Data.List.Nodup
import Pma.DbmCompute

namespace Pma

/-!
# Broken and recovered links

`link_state_handler` of `server/dbm.c` looks up the status that a link had, writes
the table and calls `ddc/fah.c` if the link broke or recovered.  The table has a
primary key of five columns, which tells parallel links apart; the status is
looked up by three of them.
-/

/-- `struct link_info`. -/
structure DbmLink where
  areaid : UInt32
  rid : UInt32
  nrid : UInt32
  ifid : UInt32
  nifid : UInt32
  metric : UInt32
  status : UInt32
  seq : UInt32
  age : Timeval
  deriving Repr, DecidableEq

namespace DbmLink

/-- The primary key of `pma_lsdb`. -/
def key (row : DbmLink) : UInt32 × UInt32 × UInt32 × UInt32 × UInt32 :=
  (row.areaid, row.rid, row.nrid, row.ifid, row.nifid)

/-- The columns `update_link_state` sets in a row. -/
def setRow (link row : DbmLink) : DbmLink :=
  { row with
    metric := link.metric
    status := link.status
    seq := link.seq
    age := link.age }

/-- The message that ICM sends has this layout, too. -/
def ofMsg (msg : LsdbMsg) : DbmLink where
  areaid := msg.areaid
  rid := msg.rid
  nrid := msg.nrid
  ifid := msg.ifid
  nifid := msg.nifid
  metric := msg.metric
  status := msg.status.toUInt32
  seq := msg.seq
  age := msg.age

@[simp] theorem setRow_key
    (link row : DbmLink) :
    (setRow link row).key = row.key := rfl

end DbmLink

/-- The table `pma_lsdb` with its primary key. -/
structure LinkTable where
  rows : List DbmLink
  keyed : (rows.map DbmLink.key).Nodup

/-- What `link_state_handler` calls after it has written an `UPDATELSA`. -/
inductive FahCall where
  | fahProtectLink
  | fahSetDefaultTimer
  deriving Repr, DecidableEq

namespace LinkTable

/-- The table as `init_empty_lsdb` leaves it. -/
def empty : LinkTable where
  rows := []
  keyed := List.nodup_nil

/-- `insert_link_state`; the database refuses a second row of a key. -/
def insertLinkState (table : LinkTable) (link : DbmLink) : LinkTable :=
  if fresh : link.key ∈ table.rows.map DbmLink.key then
    table
  else
    { rows := table.rows ++ [link]
      keyed := by
        rw [List.map_append, List.nodup_append]
        refine ⟨table.keyed, List.nodup_singleton _, ?_⟩
        intro key member other isNew same
        rw [List.map_singleton, List.mem_singleton] at isNew
        exact fresh (isNew ▸ same ▸ member) }

/-- What an update makes of a row. -/
def updated (link row : DbmLink) : DbmLink :=
  if row.key = link.key then DbmLink.setRow link row else row

theorem updated_key
    (link row : DbmLink) :
    (updated link row).key = row.key := by
  unfold updated
  split
  · rfl
  · rfl

/-- `update_link_state`. -/
def updateLinkState (table : LinkTable) (link : DbmLink) : LinkTable where
  rows := table.rows.map (updated link)
  keyed := by
    have sameKeys : DbmLink.key ∘ updated link = DbmLink.key := funext (updated_key link)
    rw [List.map_map, sameKeys]
    exact table.keyed

/-- The rows that the query of `query_link_state_status` finds. -/
def pairRows (table : LinkTable) (lsa : DbmLink) : List DbmLink :=
  table.rows.filter fun row =>
    row.areaid = lsa.areaid ∧ row.rid = lsa.rid ∧ row.nrid = lsa.nrid

/-- `query_link_state_status`, -1 unless there is one row. -/
def queryLinkStateStatus (table : LinkTable) (lsa : DbmLink) : Int32 :=
  match table.pairRows lsa with
  | [row] => row.status.toInt32
  | _ => -1

/-- The call for a status that was found and the one that is reported. -/
def fahCall (originStatus : Int32) (status : UInt32) : Option FahCall :=
  if originStatus = 3 ∧ status ≠ 3 then
    some .fahProtectLink
  else if originStatus = 0 ∧ status ≠ 0 then
    some .fahSetDefaultTimer
  else
    none

/-- The `UPDATELSA` branch of `link_state_handler`, with its call. -/
def updateLsa (table : LinkTable) (lsa : DbmLink) : LinkTable × Option FahCall :=
  let originStatus := table.queryLinkStateStatus lsa
  (if originStatus.toUInt32 = lsa.status then table else table.updateLinkState lsa,
    fahCall originStatus lsa.status)

/-- The link of a message breaks: its row was up, and now it is not. -/
def Breaks (table : LinkTable) (lsa : DbmLink) : Prop :=
  ∃ row ∈ table.rows, row.key = lsa.key ∧ row.status = 3 ∧ lsa.status ≠ 3

/-! ## What the query finds -/

section

variable {table : LinkTable} {lsa row : DbmLink}

theorem mem_pairRows :
    row ∈ table.pairRows lsa ↔
      row ∈ table.rows ∧
        row.areaid = lsa.areaid ∧ row.rid = lsa.rid ∧ row.nrid = lsa.nrid := by
  unfold pairRows
  rw [List.mem_filter, decide_eq_true_eq]

/-- The row of a link is one of its routers. -/
theorem mem_pairRows_of_key
    (member : row ∈ table.rows)
    (isRow : row.key = lsa.key) :
    row ∈ table.pairRows lsa := by
  unfold DbmLink.key at isRow
  simp only [Prod.mk.injEq] at isRow
  obtain ⟨area, start, finish, -, -⟩ := isRow
  exact mem_pairRows.mpr ⟨member, area, start, finish⟩

/-- The status 3 is found if it is that of the only row. -/
theorem queryLinkStateStatus_eq_three :
    table.queryLinkStateStatus lsa = 3 ↔
      ∃ row, table.pairRows lsa = [row] ∧ row.status = 3 := by
  have same (status : UInt32) : status.toInt32 = 3 ↔ status = 3 := by
    constructor
    · intro isThree
      have bits := congrArg Int32.toUInt32 isThree
      rwa [UInt32.toUInt32_toInt32] at bits
    · rintro rfl
      rfl
  unfold queryLinkStateStatus
  split
  · next row single =>
      rw [single, same]
      simp
  · next several =>
      refine iff_of_false (by decide) ?_
      rintro ⟨row, single, -⟩
      exact several row single

/-- `fah_protect_link` is called if the only row was up. -/
theorem updateLsa_protects :
    (table.updateLsa lsa).2 = some .fahProtectLink ↔
      (∃ row, table.pairRows lsa = [row] ∧ row.status = 3) ∧ lsa.status ≠ 3 := by
  rw [← queryLinkStateStatus_eq_three]
  unfold updateLsa fahCall
  dsimp only
  split
  · next breaks =>
      exact iff_of_true rfl breaks
  · next breaks =>
      refine iff_of_false ?_ breaks
      split
      · exact fun same => nomatch same
      · exact fun same => nomatch same

end

/--
The handler protects a link exactly when it breaks, if and only if every row of
its two routers that is up is their only row exactly if it is the row of the
link.  (Nothing is asked if the link is reported as up.)
-/
theorem breakFound_iff
    (table : LinkTable)
    (lsa : DbmLink) :
    ((table.updateLsa lsa).2 = some .fahProtectLink ↔ table.Breaks lsa) ↔
      (lsa.status ≠ 3 →
        ∀ row ∈ table.pairRows lsa,
          row.status = 3 →
          (row.key = lsa.key ↔ table.pairRows lsa = [row])) := by
  rw [updateLsa_protects]
  unfold Breaks
  constructor
  · rintro same broken row member up
    constructor
    · intro isRow
      obtain ⟨⟨only, single, -⟩, -⟩ :=
        same.mpr ⟨row, (mem_pairRows.mp member).1, isRow, up, broken⟩
      rw [single, List.mem_singleton] at member
      rw [single, member]
    · intro single
      obtain ⟨other, isOther, isRow, -⟩ := same.mp ⟨⟨row, single, up⟩, broken⟩
      have isMember := mem_pairRows_of_key isOther isRow
      rw [single, List.mem_singleton] at isMember
      rw [← isMember]
      exact isRow
  · intro right
    constructor
    · rintro ⟨⟨row, single, up⟩, broken⟩
      have member : row ∈ table.pairRows lsa := by
        rw [single]
        exact List.mem_singleton_self row
      exact ⟨row, (mem_pairRows.mp member).1, (right broken row member up).mpr single, up, broken⟩
    · rintro ⟨row, member, isRow, up, broken⟩
      have isMember := mem_pairRows_of_key member isRow
      exact ⟨⟨row, (right broken row isMember up).mp isRow, up⟩, broken⟩

/-! ## The messages of ICM -/

section Messages

variable {table : PmaLsdb} {msg : LsdbMsg}

/-- The same rows are found for a message. -/
theorem pairRows_ofMsg
    (keyed : ((table.map DbmLink.ofMsg).map DbmLink.key).Nodup) :
    pairRows ⟨table.map DbmLink.ofMsg, keyed⟩ (.ofMsg msg) =
      (table.filter fun row =>
        row.areaid = msg.areaid ∧ row.rid = msg.rid ∧ row.nrid = msg.nrid).map
          DbmLink.ofMsg := by
  unfold pairRows
  rw [List.filter_map]
  rfl

/-- And the status is compared in the same way. -/
theorem queryLinkStateStatus_ofMsg
    (keyed : ((table.map DbmLink.ofMsg).map DbmLink.key).Nodup) :
    (queryLinkStateStatus ⟨table.map DbmLink.ofMsg, keyed⟩ (.ofMsg msg)).toUInt32 =
        (DbmLink.ofMsg msg).status ↔
      table.queryLinkStateStatus msg.areaid msg.rid msg.nrid = some msg.status := by
  have noStatus (status : UInt8) : (-1 : Int32).toUInt32 ≠ status.toUInt32 := by
    intro same
    have small := status.toNat_lt
    have number := congrArg UInt32.toNat same
    rw [UInt8.toNat_toUInt32] at number
    have large : (-1 : Int32).toUInt32.toNat = 2 ^ 32 - 1 := rfl
    omega
  unfold queryLinkStateStatus PmaLsdb.queryLinkStateStatus
  rw [pairRows_ofMsg]
  split
  · next rows =>
      obtain ⟨row, isRow, same⟩ := List.map_eq_singleton_iff.mp rows
      rw [isRow, ← same]
      constructor
      · intro equal
        have status : row.status.toUInt32 = msg.status.toUInt32 := equal
        exact congrArg some (UInt8.toUInt32_inj.mp status)
      · intro equal
        have status : row.status = msg.status := Option.some.inj equal
        exact congrArg UInt8.toUInt32 status
  · next several =>
      refine iff_of_false (noStatus msg.status) ?_
      split
      · next row isRow =>
          refine absurd ?_ (several (.ofMsg row))
          rw [isRow]
          rfl
      · exact fun same => nomatch same

/-- An update of ICM is written in the same way. -/
theorem updateLsa_ofMsg
    (keyed : ((table.map DbmLink.ofMsg).map DbmLink.key).Nodup) :
    (updateLsa ⟨table.map DbmLink.ofMsg, keyed⟩ (.ofMsg msg)).1.rows =
      (table.write .updateLsa msg).map DbmLink.ofMsg := by
  have sameKey (row : LsdbMsg) :
      (DbmLink.ofMsg row).key = (DbmLink.ofMsg msg).key ↔
        PmaLsdb.isRowOf msg row = true := by
    simp only [DbmLink.key, DbmLink.ofMsg, PmaLsdb.isRowOf, Prod.mk.injEq, decide_eq_true_eq]
  unfold updateLsa PmaLsdb.write
  dsimp only
  by_cases same : table.queryLinkStateStatus msg.areaid msg.rid msg.nrid = some msg.status
  · rw [if_pos ((queryLinkStateStatus_ofMsg keyed).mpr same), if_neg (not_not.mpr same)]
  · rw [if_neg (mt (queryLinkStateStatus_ofMsg keyed).mp same), if_pos same]
    unfold updateLinkState PmaLsdb.updateLinkState
    dsimp only
    rw [List.map_map, List.map_map]
    refine List.map_congr_left fun row _ => ?_
    rw [Function.comp_apply, Function.comp_apply, updated]
    by_cases isRow : PmaLsdb.isRowOf msg row = true
    · rw [if_pos ((sameKey row).mpr isRow), if_pos isRow]
      rfl
    · rw [if_neg (mt (sameKey row).mp isRow), if_neg isRow]

end Messages

/-- Two links between two routers, which are both up. -/
def parallelLinks : LinkTable where
  rows := [⟨0, 1, 2, 7, 7, 10, 3, 1, ⟨0, 0⟩⟩, ⟨0, 1, 2, 8, 8, 10, 3, 1, ⟨0, 0⟩⟩]
  keyed := by decide

/-- One of them breaks, and the handler does not protect it. -/
theorem parallelLinks_not_found :
    ¬((parallelLinks.updateLsa ⟨0, 1, 2, 7, 7, 10, 0, 2, ⟨0, 0⟩⟩).2 =
        some .fahProtectLink ↔
      parallelLinks.Breaks ⟨0, 1, 2, 7, 7, 10, 0, 2, ⟨0, 0⟩⟩) := by
  intro found
  have breaks : parallelLinks.Breaks ⟨0, 1, 2, 7, 7, 10, 0, 2, ⟨0, 0⟩⟩ :=
    ⟨_, List.mem_cons_self, rfl, rfl, by decide⟩
  exact absurd (found.mpr breaks) (by decide)

end LinkTable

end Pma
