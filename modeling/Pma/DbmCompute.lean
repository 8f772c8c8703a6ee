import Pma.Dbm
import Pma.Transition

namespace Pma

open Transition

/-!
# Scheduling the computation of the routes

`path_compute_start` of `ddc/ddc.c` runs in a thread that the expiring SPF
timer starts, while the packet handlers go on writing the table and arming the
timer.  It reads the table, computes the routes, sets `already_computed` and
cancels the timer, whoever armed it last.  The routes are those of the current
table as long as the table does not change between the reading and the
cancellation, and as long as no update changes a metric when nobody is going to
read the table.

What is computed does not matter here.  It is a function of the rows that were
read and of the rows `min_cost` finds when it breaks ties.
-/

/-- The columns of a row the computation depends on. -/
structure TopoLink where
  areaid : UInt32
  rid : UInt32
  nrid : UInt32
  ifid : UInt32
  nifid : UInt32
  metric : UInt32
  deriving Repr, DecidableEq

namespace PmaLsdb

/-- The part of a row the computation depends on. -/
def topoLink (row : LinkInfo) : TopoLink where
  areaid := row.areaid
  rid := row.rid
  nrid := row.nrid
  ifid := row.ifid
  nifid := row.nifid
  metric := row.metric

/-- The areas, routers, links and metrics of the table. -/
def topology (table : PmaLsdb) : List TopoLink :=
  table.map topoLink

/-- An update is written and changes the metric of its link. -/
def ChangesMetric (table : PmaLsdb) (lsa : LinkInfo) : Prop :=
  table.queryLinkStateStatus lsa.areaid lsa.rid lsa.nrid ≠ some lsa.status ∧
    ∃ row ∈ table, isRowOf lsa row = true ∧ row.metric ≠ lsa.metric

/-- Only the metric of an update counts. -/
theorem topology_write_updateLsa
    {table : PmaLsdb}
    {lsa : LinkInfo}
    (sameMetric : ¬table.ChangesMetric lsa) :
    (table.write .updateLsa lsa).topology = table.topology := by
  unfold write
  dsimp only
  split
  · next written =>
      unfold topology updateLinkState
      rw [List.map_map]
      apply List.map_congr_left
      intro row member
      rw [Function.comp_apply]
      split
      · next isRow =>
          have metric : row.metric = lsa.metric := by
            by_contra different
            exact sameMetric ⟨written, row, member, isRow, different⟩
          simp [topoLink, setRow, metric]
      · rfl
  · rfl

end PmaLsdb

namespace Dbm

/-- The SPF timer would not be numbered `-1`. -/
def SpfNumbered (dbm : Dbm) : Prop :=
  dbm.spfCptTimer = noTimer → dbm.timers.maxTimerId ≠ noTimer

/-- The snapshot timer would not be numbered `-1`. -/
def SnapshootNumbered (dbm : Dbm) : Prop :=
  dbm.snapshootTimer = noTimer → dbm.timers.maxTimerId ≠ noTimer

/-- How many timers a handle stands for. -/
def held (timer : UInt32) : Nat :=
  if timer = noTimer then 0 else 1

/-- The SPF timer is in the array, and no timer was lost in it. -/
structure Armed (dbm : Dbm) : Prop where
  spf : dbm.spfCptTimer ≠ noTimer → dbm.spfCptTimer ∈ dbm.timers.ids
  count :
    dbm.timers.ids.length ≤ held dbm.spfCptTimer + held dbm.snapshootTimer

/-- `spf_signal_handler` does not look at the table. -/
theorem spfSignalHandler_write
    (dbm : Dbm)
    (table : PmaLsdb) :
    ({ dbm with pmaLsdb := table } : Dbm).spfSignalHandler =
      { dbm.spfSignalHandler with pmaLsdb := table } := by
  unfold spfSignalHandler
  dsimp only
  split
  · rfl
  · rfl

namespace Armed

variable {dbm : Dbm}

/-- Two handles leave room in the array. -/
theorem room
    (armed : dbm.Armed) :
    dbm.timers.ids.length < timerMaxCount := by
  have few : ∀ timer, held timer ≤ 1 := by
    intro timer
    unfold held
    split
    · exact Nat.zero_le 1
    · exact Nat.le_refl 1
  calc
    dbm.timers.ids.length
      ≤ held dbm.spfCptTimer + held dbm.snapshootTimer := armed.count
    _ ≤ 1 + 1 := Nat.add_le_add (few _) (few _)
    _ < timerMaxCount := by decide

/-- A timer that is not numbered `-1` is set and found by its handle. -/
theorem setTimer
    (armed : dbm.Armed)
    (numbered : dbm.timers.maxTimerId ≠ noTimer)
    (timeVal : UInt32)
    (callback : DbmCallback) :
    (dbm.timers.setTimer timeVal callback).1 ≠ noTimer ∧
      (dbm.timers.setTimer timeVal callback).2.ids =
        dbm.timers.ids ++ [(dbm.timers.setTimer timeVal callback).1] ∧
      (dbm.timers.setTimer timeVal callback).2.ids.length =
        dbm.timers.ids.length + held (dbm.timers.setTimer timeVal callback).1 := by
  obtain ⟨handle, ids⟩ := TimerArr.ids_setTimer armed.room timeVal callback
  have set : held dbm.timers.maxTimerId = 1 := if_neg numbered
  rw [handle, ids, set, List.length_append]
  exact ⟨numbered, rfl, rfl⟩

/-- `spf_signal_handler` leaves the SPF timer armed. -/
theorem spfSignalHandler
    (armed : dbm.Armed)
    (numbered : dbm.SpfNumbered) :
    dbm.spfSignalHandler.Armed ∧
      dbm.spfSignalHandler.spfCptTimer ≠ noTimer := by
  unfold Dbm.spfSignalHandler
  split
  · next unset =>
      obtain ⟨pending, ids, length⟩ :=
        armed.setTimer (numbered unset) spfHoldTime .pathComputeStart
      have free : held dbm.spfCptTimer = 0 := if_pos unset
      have count := armed.count
      rw [free] at count
      refine ⟨⟨?_, ?_⟩, pending⟩
      · intro _
        dsimp only
        rw [ids]
        exact List.mem_append_right _ (List.mem_singleton_self _)
      · dsimp only
        rw [length]
        omega
  · next pending =>
      refine ⟨⟨?_, ?_⟩, pending⟩
      · simpa using armed.spf
      · simpa using armed.count

/-- `snapshoot_sender` leaves the SPF timer alone. -/
theorem snapshootSender
    (armed : dbm.Armed)
    (numbered : dbm.SnapshootNumbered) :
    dbm.snapshootSender.Armed ∧
      dbm.snapshootSender.spfCptTimer = dbm.spfCptTimer := by
  unfold Dbm.snapshootSender
  split
  · next unset =>
      obtain ⟨-, ids, length⟩ :=
        armed.setTimer (numbered unset) dbm.snapshootTimeval .sendAllSnapshoot
      have free : held dbm.snapshootTimer = 0 := if_pos unset
      have count := armed.count
      rw [free] at count
      refine ⟨⟨?_, ?_⟩, rfl⟩
      · intro pending
        dsimp only at pending ⊢
        rw [ids]
        exact List.mem_append_left _ (armed.spf pending)
      · dsimp only
        rw [length]
        omega
  · exact ⟨armed, rfl⟩

/-- Only the ids of the timers and the handles count. -/
theorem congr
    {after : Dbm}
    (armed : dbm.Armed)
    (ids : after.timers.ids = dbm.timers.ids)
    (spf : after.spfCptTimer = dbm.spfCptTimer)
    (snapshoot : after.snapshootTimer = dbm.snapshootTimer) :
    after.Armed where
  spf := by
    rw [ids, spf]
    exact armed.spf
  count := by
    rw [ids, spf, snapshoot]
    exact armed.count

/-- Unsetting the SPF timer takes it out of the array. -/
theorem unset
    (armed : dbm.Armed)
    (pending : dbm.spfCptTimer ≠ noTimer) :
    Armed
      { dbm with
        timers := dbm.timers.unsetTimer dbm.spfCptTimer
        spfCptTimer := noTimer } where
  spf := fun absurdity => absurd rfl absurdity
  count := by
    have held : held dbm.spfCptTimer = 1 := if_neg pending
    have count := armed.count
    rw [held] at count
    dsimp only
    rw [TimerArr.ids_unsetTimer, List.length_erase_of_mem (armed.spf pending)]
    have none : Dbm.held noTimer = 0 := if_pos rfl
    rw [none]
    omega

end Armed

end Dbm

/-- Where the thread that holds `info_mutex` is in `path_compute_start`. -/
inductive ComputePhase where
  /-- No thread holds the mutex. -/
  | idle
  /-- The mutex is held and the table is not read yet. -/
  | locked
  /-- `init_lsdb_info` read the table. -/
  | read (links : List TopoLink)
  /-- The shortest paths are recorded. -/
  | computed
  /-- `already_computed` is set. -/
  | finished
  deriving Repr, DecidableEq

/--
DBM with the thread that computes.  `waiting` counts the threads that entered
`path_compute_start` and wait for the mutex; `infoHandle` is the matrix and the
short paths, when they are complete.
-/
structure DbmProcess (Info : Type) where
  dbm : Dbm
  alreadyComputed : Bool
  infoHandle : Option Info
  phase : ComputePhase
  waiting : Nat

namespace DbmProcess

/-- What happens next. -/
inductive Action where
  /-- `link_state_handler` handles a packet. -/
  | linkState (action : LsdbAction) (lsa : LinkInfo)
  /-- `spf_signal_handler` handles a packet. -/
  | spfSignal
  /-- `conf_handle` handles a packet. -/
  | conf (snapshootTimeval : UInt32)
  /-- `exe_timer_callback`, once a second. -/
  | tick
  /-- A thread takes the mutex. -/
  | lock
  /-- `free_info_handle`, `init_lsdb_info` and `init_lidb_info`. -/
  | read
  /-- `dijkstra` and `record_short_path`. -/
  | compute
  /-- `already_computed` is set. -/
  | finish
  /-- `spf_cpt_timer_cancel`, and the mutex is released. -/
  | cancel
  deriving Repr, DecidableEq

variable {Info : Type}

/-- DBM as `dbm_init` leaves it. -/
def start : DbmProcess Info where
  dbm := .init
  alreadyComputed := false
  infoHandle := none
  phase := .idle
  waiting := 0

/-- The links of the table as it is now. -/
def topology (process : DbmProcess Info) : List TopoLink :=
  process.dbm.pmaLsdb.topology

/-- `exe_timer_callback`; each expired SPF timer starts a thread. -/
def tick (process : DbmProcess Info) : DbmProcess Info :=
  let ticked := process.dbm.timers.exeTimerCallback
  { process with
    dbm := { process.dbm with timers := ticked.2 }
    waiting := process.waiting + ticked.1.count .pathComputeStart }

/-- `spf_cpt_timer_cancel`. -/
def spfCptTimerCancel (process : DbmProcess Info) : DbmProcess Info :=
  if process.alreadyComputed ∧ process.dbm.spfCptTimer ≠ noTimer then
    { process with
      dbm :=
        { process.dbm with
          timers := process.dbm.timers.unsetTimer process.dbm.spfCptTimer
          spfCptTimer := noTimer } }
  else
    process

section Step

variable (compute : List TopoLink → List TopoLink → Info)

/-- One step; a thread moves only from the place it is at. -/
def step (process : DbmProcess Info) : Action → Except Unit (DbmProcess Info)
  | .linkState action lsa =>
      .ok { process with dbm := process.dbm.linkStateHandler action lsa }
  | .spfSignal => .ok { process with dbm := process.dbm.spfSignalHandler }
  | .conf snapshootTimeval =>
      .ok { process with dbm := process.dbm.confHandle snapshootTimeval }
  | .tick => .ok process.tick
  | .lock =>
      match process.phase, process.waiting with
      | .idle, waiting + 1 =>
          .ok { process with phase := .locked, waiting := waiting }
      | _, _ => .error ()
  | .read =>
      match process.phase with
      | .locked =>
          .ok { process with
            infoHandle := none
            phase := .read process.topology }
      | _ => .error ()
  | .compute =>
      match process.phase with
      | .read links =>
          .ok { process with
            infoHandle := some (compute links process.topology)
            phase := .computed }
      | _ => .error ()
  | .finish =>
      match process.phase with
      | .computed => .ok { process with alreadyComputed := true, phase := .finished }
      | _ => .error ()
  | .cancel =>
      match process.phase with
      | .finished => .ok { process.spfCptTimerCancel with phase := .idle }
      | _ => .error ()

end Step

/-! ## Which steps disturb a computation -/

/-- The table is not read yet: a computation that is running will read it. -/
def Unread (process : DbmProcess Info) : Prop :=
  process.phase = .idle ∨ process.phase = .locked

/-- A computation is going to read the table, or none was completed yet. -/
def Due (process : DbmProcess Info) : Prop :=
  process.phase = .locked ∨
    process.phase = .idle ∧
      (process.dbm.spfCptTimer ≠ noTimer ∨ process.alreadyComputed = false)

/-- A step does not disturb the computation of the routes. -/
def Undisturbed (process : DbmProcess Info) : Action → Prop
  | .linkState .addLsa _ =>
      process.Unread ∧ process.dbm.SpfNumbered ∧
        process.dbm.spfSignalHandler.SnapshootNumbered
  | .linkState .updateLsa lsa =>
      process.Due ∨ ¬process.dbm.pmaLsdb.ChangesMetric lsa
  | .spfSignal => process.dbm.SpfNumbered
  | _ => True

/-! ## The invariant -/

variable (compute : List TopoLink → List TopoLink → Info)

/-- The routes are those of the current table. -/
def Current (process : DbmProcess Info) : Prop :=
  process.infoHandle = some (compute process.topology process.topology)

/-- What the routes are at every place of the computation. -/
def Fresh (process : DbmProcess Info) : Prop :=
  match process.phase with
  | .idle =>
      process.dbm.spfCptTimer = noTimer →
      process.alreadyComputed = true →
      process.Current compute
  | .locked => True
  | .read links => links = process.topology
  | .computed => process.Current compute
  | .finished => process.Current compute

section Step

variable {compute} {process after : DbmProcess Info}

/-- Only the links, the routes and where the computation is count. -/
theorem Fresh.congr
    (fresh : process.Fresh compute)
    (topology : after.topology = process.topology)
    (infoHandle : after.infoHandle = process.infoHandle)
    (phase : after.phase = process.phase)
    (spf :
      after.dbm.spfCptTimer = noTimer →
      process.dbm.spfCptTimer = noTimer)
    (alreadyComputed : after.alreadyComputed = process.alreadyComputed) :
    after.Fresh compute := by
  have current : after.Current compute ↔ process.Current compute := by
    unfold Current
    rw [topology, infoHandle]
  unfold Fresh at fresh ⊢
  rw [phase]
  cases place : process.phase with
  | idle =>
      rw [place] at fresh
      intro unset computed
      rw [alreadyComputed] at computed
      exact current.mpr (fresh (spf unset) computed)
  | locked =>
      trivial
  | read links =>
      rw [place] at fresh
      exact Eq.trans fresh topology.symm
  | computed =>
      rw [place] at fresh
      exact current.mpr fresh
  | finished =>
      rw [place] at fresh
      exact current.mpr fresh

/-- A table that a computation is going to read may change. -/
theorem fresh_of_due
    (due : process.Due) :
    process.Fresh compute := by
  unfold Fresh
  rcases due with locked | ⟨idle, expected⟩
  · rw [locked]
    trivial
  · rw [idle]
    intro unset computed
    rcases expected with pending | never
    · exact absurd unset pending
    · rw [never] at computed
      cases computed

end Step

/-- The timers are accounted for, and the routes are as the phase tells. -/
structure Inv (process : DbmProcess Info) : Prop where
  armed : process.dbm.Armed
  fresh : process.Fresh compute

namespace Inv

variable {compute} {process : DbmProcess Info}

/-- An added link state arms the timer before the table is read. -/
theorem addLsa
    (invariant : process.Inv compute)
    (lsa : LinkInfo)
    (undisturbed : process.Undisturbed (.linkState .addLsa lsa)) :
    Inv compute
      { process with dbm := process.dbm.linkStateHandler .addLsa lsa } := by
  obtain ⟨unread, spfNumbered, snapshootNumbered⟩ := undisturbed
  have written :
      Dbm.Armed
        { process.dbm with pmaLsdb := process.dbm.pmaLsdb.write .addLsa lsa } :=
    invariant.armed.congr rfl rfl rfl
  obtain ⟨signalled, pending⟩ := written.spfSignalHandler spfNumbered
  have numbered :
      Dbm.SnapshootNumbered
        (Dbm.spfSignalHandler
          { process.dbm with
            pmaLsdb := process.dbm.pmaLsdb.write .addLsa lsa }) := by
    rw [Dbm.spfSignalHandler_write]
    exact snapshootNumbered
  obtain ⟨armed, sameTimer⟩ := signalled.snapshootSender numbered
  refine ⟨armed, fresh_of_due ?_⟩
  rcases unread with idle | locked
  · refine .inr ⟨idle, .inl ?_⟩
    change Dbm.spfCptTimer (Dbm.snapshootSender _) ≠ noTimer
    rw [sameTimer]
    exact pending
  · exact .inl locked

/-- An update arms nothing, so the metrics may change only when a reading is due. -/
theorem updateLsa
    (invariant : process.Inv compute)
    (lsa : LinkInfo)
    (undisturbed : process.Undisturbed (.linkState .updateLsa lsa)) :
    Inv compute
      { process with dbm := process.dbm.linkStateHandler .updateLsa lsa } := by
  refine ⟨invariant.armed.congr rfl rfl rfl, ?_⟩
  rcases undisturbed with due | sameMetric
  · exact fresh_of_due due
  · exact invariant.fresh.congr (PmaLsdb.topology_write_updateLsa sameMetric)
      rfl rfl id rfl

/-- A signal arms the timer and leaves the table alone. -/
theorem spfSignal
    (invariant : process.Inv compute)
    (numbered : process.dbm.SpfNumbered) :
    Inv compute { process with dbm := process.dbm.spfSignalHandler } := by
  obtain ⟨armed, pending⟩ := invariant.armed.spfSignalHandler numbered
  refine ⟨armed, invariant.fresh.congr ?_ rfl rfl ?_ rfl⟩
  · exact congrArg PmaLsdb.topology (Dbm.spfSignalHandler_pmaLsdb process.dbm)
  · intro unset
    exact absurd unset pending

/-- The cancellation leaves the routes of the current table. -/
theorem cancel
    (invariant : process.Inv compute)
    (finished : process.phase = .finished) :
    Inv compute { process.spfCptTimerCancel with phase := .idle } := by
  have current : process.Current compute := by
    have fresh := invariant.fresh
    unfold Fresh at fresh
    rw [finished] at fresh
    exact fresh
  unfold spfCptTimerCancel
  split
  · next pending =>
      exact ⟨invariant.armed.unset pending.2, fun _ _ => current⟩
  · exact ⟨invariant.armed, fun _ _ => current⟩

/-- Every undisturbed step keeps the invariant. -/
theorem step
    {after : DbmProcess Info}
    {action : Action}
    (invariant : process.Inv compute)
    (undisturbed : process.Undisturbed action)
    (stepped : process.step compute action = .ok after) :
    after.Inv compute := by
  have fresh := invariant.fresh
  cases action with
  | linkState kind lsa =>
      cases stepped
      cases kind with
      | addLsa =>
          exact invariant.addLsa lsa undisturbed
      | updateLsa =>
          exact invariant.updateLsa lsa undisturbed
  | spfSignal =>
      cases stepped
      exact invariant.spfSignal undisturbed
  | conf snapshootTimeval =>
      cases stepped
      exact ⟨invariant.armed.congr rfl rfl rfl,
        fresh.congr rfl rfl rfl id rfl⟩
  | tick =>
      cases stepped
      exact ⟨invariant.armed.congr (TimerArr.ids_exeTimerCallback _) rfl rfl,
        fresh.congr rfl rfl rfl id rfl⟩
  | lock =>
      dsimp only [DbmProcess.step] at stepped
      split at stepped
      · cases stepped
        exact ⟨invariant.armed, trivial⟩
      · cases stepped
  | read =>
      dsimp only [DbmProcess.step] at stepped
      split at stepped
      · cases stepped
        exact ⟨invariant.armed, rfl⟩
      · cases stepped
  | compute =>
      dsimp only [DbmProcess.step] at stepped
      split at stepped
      · next links place =>
          cases stepped
          unfold Fresh at fresh
          rw [place] at fresh
          refine ⟨invariant.armed, ?_⟩
          change some (compute links process.topology) = _
          rw [show links = process.topology from fresh]
          rfl
      · cases stepped
  | finish =>
      dsimp only [DbmProcess.step] at stepped
      split at stepped
      · next place =>
          cases stepped
          unfold Fresh at fresh
          rw [place] at fresh
          exact ⟨invariant.armed, fresh⟩
      · cases stepped
  | cancel =>
      dsimp only [DbmProcess.step] at stepped
      split at stepped
      · next place =>
          cases stepped
          exact invariant.cancel place
      · cases stepped

end Inv

/-- `MAX_METRIC`. -/
def maxMetric : UInt32 := 2000

end DbmProcess

end Pma
