import Pma.Icm
import Pma.Timer

namespace Pma

/-!
# The database module

DBM keeps a copy of the link state databases in the table `pma_lsdb`.  ICM
sends it one packet for every link state it adds or updates, and
`link_state_handler` of `server/dbm.c` writes the table; an added link state
also schedules a computation of the routes.  The columns are integers and the
table keeps its rows in the order of their insertion.  What the handler sends
to other modules is left out: it does not touch the table or the timers.
-/

/-- `struct link_info`, which has the layout of the message ICM sends. -/
abbrev LinkInfo := LsdbMsg

/-- The rows of `pma_lsdb`. -/
abbrev PmaLsdb := List LinkInfo

namespace PmaLsdb

/-- Whether a row is the one of a link. -/
def isRowOf (link row : LinkInfo) : Bool :=
  row.areaid = link.areaid ∧ row.rid = link.rid ∧ row.nrid = link.nrid ∧
    row.ifid = link.ifid ∧ row.nifid = link.nifid

/-- `insert_link_state`. -/
def insertLinkState (table : PmaLsdb) (link : LinkInfo) : PmaLsdb :=
  table ++ [link]

/-- The columns `update_link_state` sets in a row. -/
def setRow (link row : LinkInfo) : LinkInfo :=
  { row with
    metric := link.metric
    status := link.status
    seq := link.seq
    age := link.age }

/-- `update_link_state`. -/
def updateLinkState (table : PmaLsdb) (link : LinkInfo) : PmaLsdb :=
  table.map fun row => if isRowOf link row then setRow link row else row

/--
`query_link_state_status`.  The query leaves the interfaces out, and it gives
no status unless it finds exactly one row.
-/
def queryLinkStateStatus
    (table : PmaLsdb) (areaid routerid neighborRouterid : UInt32) :
    Option UInt8 :=
  match table.filter fun row =>
      row.areaid = areaid ∧ row.rid = routerid ∧ row.nrid = neighborRouterid with
  | [row] => some row.status
  | _ => none

/-- What `link_state_handler` writes. -/
def write (table : PmaLsdb) (action : LsdbAction) (lsa : LinkInfo) : PmaLsdb :=
  match action with
  | .addLsa => table.insertLinkState lsa
  | .updateLsa =>
      if table.queryLinkStateStatus lsa.areaid lsa.rid lsa.nrid ≠
          some lsa.status then
        table.updateLinkState lsa
      else
        table

end PmaLsdb

/-- The callbacks of the timers of DBM. -/
inductive DbmCallback where
  | pathComputeStart
  | sendAllSnapshoot
  deriving Repr, DecidableEq

/-- The table, the timers and their handles. -/
structure Dbm where
  pmaLsdb : PmaLsdb
  timers : TimerArr DbmCallback
  spfCptTimer : UInt32
  snapshootTimer : UInt32
  snapshootTimeval : UInt32

/-- `SPF_HOLD_TIME`, in seconds. -/
def spfHoldTime : UInt32 := 2

namespace Dbm

/-- DBM as `dbm_init` leaves it. -/
def init : Dbm where
  pmaLsdb := []
  timers := .init
  spfCptTimer := noTimer
  snapshootTimer := noTimer
  snapshootTimeval := 0

/-- `spf_signal_handler`. -/
def spfSignalHandler (dbm : Dbm) : Dbm :=
  if dbm.spfCptTimer = noTimer then
    let set := dbm.timers.setTimer spfHoldTime .pathComputeStart
    { dbm with spfCptTimer := set.1, timers := set.2 }
  else
    { dbm with timers := dbm.timers.updateTimer dbm.spfCptTimer }

/-- `snapshoot_sender`. -/
def snapshootSender (dbm : Dbm) : Dbm :=
  if dbm.snapshootTimer = noTimer then
    let set := dbm.timers.setTimer dbm.snapshootTimeval .sendAllSnapshoot
    { dbm with snapshootTimer := set.1, timers := set.2 }
  else
    dbm

/-- `link_state_handler`. -/
def linkStateHandler (dbm : Dbm) (action : LsdbAction) (lsa : LinkInfo) : Dbm :=
  let written := { dbm with pmaLsdb := dbm.pmaLsdb.write action lsa }
  match action with
  | .addLsa => written.spfSignalHandler.snapshootSender
  | .updateLsa => written

/-- `conf_handle`, as far as the timers depend on it. -/
def confHandle (dbm : Dbm) (snapshootTimeval : UInt32) : Dbm :=
  { dbm with snapshootTimeval := snapshootTimeval }

@[simp] theorem spfSignalHandler_pmaLsdb
    (dbm : Dbm) :
    dbm.spfSignalHandler.pmaLsdb = dbm.pmaLsdb := by
  unfold spfSignalHandler
  split
  · rfl
  · rfl

@[simp] theorem snapshootSender_pmaLsdb
    (dbm : Dbm) :
    dbm.snapshootSender.pmaLsdb = dbm.pmaLsdb := by
  unfold snapshootSender
  split
  · rfl
  · rfl

/-- The handler writes the table and nothing else of it. -/
@[simp] theorem linkStateHandler_pmaLsdb
    (dbm : Dbm)
    (action : LsdbAction)
    (lsa : LinkInfo) :
    (dbm.linkStateHandler action lsa).pmaLsdb = dbm.pmaLsdb.write action lsa := by
  unfold linkStateHandler
  cases action with
  | addLsa =>
      simp
  | updateLsa =>
      rfl

end Dbm

end Pma
