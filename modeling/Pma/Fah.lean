import Pma.DbmLinks
import Pma.LidbPolicyKey
import Pma.PolicyTable

namespace Pma

/-!
# Fast adjustment of hello timers

`ddc/fah.c` shortens the hello timers of the local interfaces when a link breaks
and puts them back when it recovers.  It works on the areas of the last
computation, with the rows that were copied then, and keeps a flag, a time for
each interface and the policy table.  An index outside of `dead_timer` is a
fault, as is a destroy degree that cannot be converted.
-/

/-- `MAX_INTERFACE_NUM`. -/
def maxInterfaceNum : Nat := 100

/-- `DEFAULT_HELLO`. -/
def defaultHello : UInt32 := 10000000

/-- `DEFAULT_DEAD`. -/
def defaultDead : UInt32 := 40000000

/-- The columns of a row that a computation reads. -/
def DbmLink.topoLink (row : DbmLink) : TopoLink where
  areaid := row.areaid
  rid := row.rid
  nrid := row.nrid
  ifid := row.ifid
  nifid := row.nifid
  metric := row.metric

/-! ## Areas -/

/-- `struct area_info`, with all columns of `lslist`. -/
structure FahArea where
  area : Lidb.Area
  lslist : List DbmLink
  sameLinks : area.info.lslist = lslist.map DbmLink.topoLink

namespace FahArea

/-- An area that was computed from the rows of a table. -/
def copy (rows : List DbmLink) (area : Lidb.Area) : Option FahArea :=
  let lslist := rows.filter (·.areaid = area.info.azid)
  if sameLinks : area.info.lslist = lslist.map DbmLink.topoLink then
    some ⟨area, lslist, sameLinks⟩
  else
    none

/-- The paths of the area that go over a link are broken. -/
def markDown (az : FahArea) (link : DbmLink) : FahArea where
  area := az.area.mark (·.address ∈ az.area.pathsOfLink link.topoLink)
  lslist := az.lslist
  sameLinks := az.sameLinks

/-- `get_area_by_areaid`. -/
def getAreaByAreaid (areas : List FahArea) (areaid : UInt32) : Option FahArea :=
  areas.find? (·.area.info.azid = areaid)

/-- `record_broken_path_down`. -/
def recordBrokenPathDown (areas : List FahArea) (link : DbmLink) : List FahArea :=
  match Lidb.getAreaByAreaid (areas.map FahArea.area) link.areaid with
  | some k => areas.modify k (·.markDown link)
  | none => areas

end FahArea

/-- `path_compute_start`, with the rows of the table. -/
def LinkTable.pathComputeStart
    (fuel : Nat)
    (ifid : UInt32 → Nat → Nat → Nat → Int)
    (memory : UInt32 → Lidb.Memory)
    (table : LinkTable) : Except Lidb.Fault (List FahArea) :=
  (Lidb.pathComputeStart fuel ifid memory (table.rows.map DbmLink.topoLink)).map fun areas =>
    areas.filterMap (FahArea.copy table.rows)

/-! ## The state -/

/-- What a call of `send_policy` has as its arguments. -/
structure PolicySend where
  ifid : Int32
  helloTimer : UInt32
  deadTimer : UInt32
  deriving Repr, DecidableEq

/-- An index outside of `dead_timer`, or no destroy degree that fits into an `int`. -/
inductive FahFault where
  | deadTimerOverrun
  | destroyDegree
  deriving Repr, DecidableEq

/-- The array `dead_timer`. -/
abbrev DeadTimer := Vector Timeval maxInterfaceNum

/--
The variables of `ddc/fah.c`.  There are no areas before the first computation;
`dbm_init` has made the policy table.
-/
structure FahState where
  areas : Option (List FahArea)
  isRouterNeedProtect : Bool
  deadTimer : DeadTimer
  policyTable : PolicyTable

/-! ## The dead timers -/

/-- The element of `dead_timer` that an index reaches. -/
def deadTimerPlace (ifid : Int32) : Option (Fin maxInterfaceNum) :=
  if inside : 0 ≤ ifid.toInt ∧ ifid.toInt < maxInterfaceNum then
    some ⟨ifid.toInt.toNat, by omega⟩
  else
    none

/-- `usec_passed`. -/
def usecPassed (timenow lastAdjustTime : Timeval) : UInt32 :=
  UInt32.ofInt
    (1000000 * (timenow.tvSec - lastAdjustTime.tvSec) + timenow.tvUsec - lastAdjustTime.tvUsec)

/-- `recompute_dead_timer`; the clock shows `timenow`. -/
def recomputeDeadTimer
    (deadTimer : DeadTimer)
    (ifid : Int32)
    (deadValue : UInt32)
    (timenow : Timeval) : Except FahFault (UInt32 × DeadTimer) :=
  if ifid.toInt > maxInterfaceNum then
    .ok (deadValue, deadTimer)
  else
    match deadTimerPlace ifid with
    | none => .error .deadTimerOverrun
    | some place =>
        let lastAdjustTime := deadTimer.get place
        if lastAdjustTime.tvSec = 0 ∧ lastAdjustTime.tvUsec = 0 then
          .ok (deadValue, deadTimer.set place timenow place.isLt)
        else
          let diffTime := deadValue - usecPassed timenow lastAdjustTime
          .ok (if diffTime > 0 then diffTime else 0, deadTimer)

/-! ## Protection -/

/-- `key` in `protect_local_link`. -/
def keyOfDegree (destorydegree : Option ℚ) : Except FahFault Int32 :=
  match Lidb.policyKey destorydegree with
  | .ok key =>
      if -2 ^ 31 ≤ key ∧ key < 2 ^ 31 then .ok (Int32.ofInt key) else .error .destroyDegree
  | .error _ => .error .destroyDegree

/-- The values that `protect_local_link` takes for a key; it returns -1 if there are none. -/
def chooseTimers (policyTable : Option PolicyTable) (key : Int32) : Option (UInt32 × UInt32) :=
  let ret := PolicyTable.findPolicyTable policyTable key
  if ret = -1 then
    none
  else if ret = 0 then
    some (defaultHello, defaultDead)
  else
    (policyTable.bind (·.elements[ret.toNat]?)).map fun elem =>
      (elem.value0.toUInt32, elem.value1.toUInt32)

namespace FahState

/-- `protect_local_link`, for the key of the destroy degree. -/
def protectLocalLink
    (fah : FahState)
    (link : DbmLink)
    (key : Int32)
    (timenow : Timeval) : Except FahFault (FahState × List PolicySend) :=
  match chooseTimers (some fah.policyTable) key with
  | none => .ok (fah, [])
  | some (helloValue, deadValue) =>
      let ifid := link.ifid.toInt32
      (recomputeDeadTimer fah.deadTimer ifid deadValue timenow).map fun (deadValue, deadTimer) =>
        ({ fah with deadTimer := deadTimer }, [⟨ifid, helloValue, deadValue⟩])

/-- The links of the loop of `reprotect_local_link`. -/
def isReprotected (routerid : UInt32) (info : DbmLink) : Bool :=
  info.status ≠ 3 ∧ info.rid = routerid ∧ info.nrid ≠ 0 ∧ info.nifid ≠ 0

/-- One of them is protected; `clock` shows the time for each of them. -/
def reprotectOne
    (destorydegree : Option ℚ)
    (clock : Nat → Timeval)
    (reached : FahState × List PolicySend)
    (entry : DbmLink × Nat) : Except FahFault (FahState × List PolicySend) :=
  let (fah, sends) := reached
  let (info, i) := entry
  (keyOfDegree destorydegree).bind fun key =>
    (fah.protectLocalLink info key (clock i)).map fun (fah, more) => (fah, sends ++ more)

/-- `reprotect_local_link`. -/
def reprotectLocalLink
    (fah : FahState)
    (az : FahArea)
    (routerid : UInt32)
    (destorydegree : Option ℚ)
    (clock : Nat → Timeval) : Except FahFault (FahState × List PolicySend) :=
  ((az.lslist.filter (isReprotected routerid)).zipIdx).foldlM
    (reprotectOne destorydegree clock) (fah, [])

/-- The calls of `send_policy` for the link itself, and those for other local links. -/
structure Sends where
  direct : List PolicySend
  again : List PolicySend
  deriving Repr, DecidableEq

/-- `get_net_destory_degree`. -/
def destroyDegree (az : FahArea) : Except FahFault (Option ℚ) :=
  match Lidb.getNetDestoryDegree az.area.paths with
  | .ok destorydegree => .ok destorydegree
  | .error _ => .error .destroyDegree

/-- `fah_protect_link`. -/
def fahProtectLink
    (fah : FahState)
    (routerid : UInt32)
    (link : DbmLink)
    (clock : Nat → Timeval) : Except FahFault (FahState × Sends) :=
  match fah.areas with
  | none => .ok (fah, ⟨[], []⟩)
  | some areas =>
      match FahArea.getAreaByAreaid areas link.areaid with
      | none => .ok (fah, ⟨[], []⟩)
      | some az =>
          let down := { fah with areas := some (FahArea.recordBrokenPathDown areas link) }
          (destroyDegree (az.markDown link)).bind fun destorydegree =>
            if link.rid = routerid ∨ link.nrid = routerid then
              (keyOfDegree destorydegree).bind fun key =>
                ({ down with isRouterNeedProtect := true }.protectLocalLink link key
                    (clock 0)).map fun (fah, sends) =>
                  (fah, ⟨sends, []⟩)
            else if fah.isRouterNeedProtect = true then
              (down.reprotectLocalLink (az.markDown link) routerid destorydegree clock).map
                fun (fah, sends) => (fah, ⟨[], sends⟩)
            else
              .ok (down, ⟨[], []⟩)

/-- `fah_set_default_timer`. -/
def fahSetDefaultTimer
    (fah : FahState)
    (link : DbmLink) : Except FahFault (FahState × List PolicySend) :=
  match fah.areas.bind (FahArea.getAreaByAreaid · link.areaid) with
  | none => .ok (fah, [])
  | some _ =>
      let ifid := link.ifid.toInt32
      match deadTimerPlace ifid with
      | none => .error .deadTimerOverrun
      | some place =>
          .ok ({ fah with deadTimer := fah.deadTimer.set place ⟨0, 0⟩ place.isLt },
            [⟨ifid, defaultHello, defaultDead⟩])

end FahState

/-! ## Areas and their rows -/

/-- The paths are marked as in the link database. -/
theorem recordBrokenPathDown_area
    (areas : List FahArea)
    (link : DbmLink) :
    (FahArea.recordBrokenPathDown areas link).map FahArea.area =
      Lidb.recordBrokenPathDown (areas.map FahArea.area) link.topoLink := by
  unfold FahArea.recordBrokenPathDown Lidb.recordBrokenPathDown
  change _ = match Lidb.getAreaByAreaid (areas.map FahArea.area) link.areaid with
    | some k => _
    | none => _
  cases Lidb.getAreaByAreaid (areas.map FahArea.area) link.areaid with
  | none => rfl
  | some k =>
      refine Lidb.map_modify (fun _ => ?_) areas k
      rfl

/-! ## Interfaces of the array -/

section

variable {ifid : Int32} {deadTimer : DeadTimer} {deadValue : UInt32} {timenow : Timeval}

theorem deadTimerPlace_eq_none :
    deadTimerPlace ifid = none ↔ ifid.toInt < 0 ∨ 100 ≤ ifid.toInt := by
  unfold deadTimerPlace maxInterfaceNum
  split
  · next inside =>
      exact iff_of_false (fun none => nomatch none) (by omega)
  · next outside =>
      exact iff_of_true rfl (by omega)

theorem deadTimerPlace_inside
    {place : Fin maxInterfaceNum}
    (isPlace : deadTimerPlace ifid = some place) :
    0 ≤ ifid.toInt ∧ ifid.toInt < 100 := by
  by_contra outside
  rw [deadTimerPlace_eq_none.mpr (by omega)] at isPlace
  cases isPlace

/-- The identifiers for which `recompute_dead_timer` stays inside of its array. -/
def TimerEnds (ifid : Int32) : Prop :=
  0 ≤ ifid.toInt ∧ ifid.toInt ≠ 100

theorem recomputeDeadTimer_ok
    (inside : TimerEnds ifid) :
    ∃ value after, recomputeDeadTimer deadTimer ifid deadValue timenow = .ok (value, after) := by
  unfold TimerEnds at inside
  unfold recomputeDeadTimer maxInterfaceNum
  split
  · exact ⟨_, _, rfl⟩
  · next small =>
      cases isPlace : deadTimerPlace ifid with
      | none =>
          have outside := deadTimerPlace_eq_none.mp isPlace
          omega
      | some place =>
          dsimp only
          split
          · exact ⟨_, _, rfl⟩
          · exact ⟨_, _, rfl⟩

/-- For all others it does not. -/
theorem recomputeDeadTimer_error
    (outside : ¬TimerEnds ifid) :
    recomputeDeadTimer deadTimer ifid deadValue timenow = .error .deadTimerOverrun := by
  unfold TimerEnds at outside
  unfold recomputeDeadTimer maxInterfaceNum
  rw [if_neg (by omega), deadTimerPlace_eq_none.mpr (by omega)]

end

end Pma
