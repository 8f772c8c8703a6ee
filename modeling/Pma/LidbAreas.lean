import Pma.LidbRecording

namespace Pma.Lidb

open Ddc (maxMetric)

/-!
# The paths of a whole computation

`path_compute_start` records the paths of one area after the other.  Its test
`metric == 0` is there to pass over the diagonal of the matrix, where
`init_lidb_info` however leaves `MAX_METRIC`.  So every router gets a path to
itself, of cost 0.
-/

/-- What `path_compute_start` does with one area. -/
structure AreaComputed
    (fuel : Nat)
    (ifid : UInt32 → Nat → Nat → Nat → Int)
    (memory : UInt32 → Memory)
    (table : List TopoLink)
    (areaid : UInt32)
    (area : Area) : Prop where
  computed :
    ∃ initial,
      initLidbInfo table areaid = .ok initial ∧
        dijkstraUpTo (ifid areaid) initial initial.routerCount = .ok area.info
  recorded :
    recordShortPath fuel area.info (startPaths (memory areaid) area.info.lslist) =
      .ok area.paths

section Areas

variable
  {fuel : Nat}
  {ifid : UInt32 → Nat → Nat → Nat → Int}
  {memory : UInt32 → Memory}
  {table : List TopoLink}

/-- The areas that a computation leaves. -/
theorem pathComputeStart_ok
    {areas : List Area}
    (ends : pathComputeStart fuel ifid memory table = .ok areas) :
    List.Forall₂ (AreaComputed fuel ifid memory table) (getAreaes table) areas := by
  obtain ⟨azinfo, initialised, later⟩ := Loops.bind_eq_ok.mp ends
  have initial := Loops.mapM_eq_ok.mp initialised
  have computed := Loops.mapM_eq_ok.mp later
  clear ends initialised later
  generalize getAreaes table = areaids at initial ⊢
  induction initial generalizing areas with
  | nil =>
      cases computed
      exact .nil
  | @cons areaid az _ _ first _ inductionHypothesis =>
      cases computed with
      | cons area rest =>
          refine .cons ?_ (inductionHypothesis rest)
          obtain ⟨result, reached, area⟩ := Loops.bind_eq_ok.mp area
          obtain ⟨paths, recorded, rfl⟩ := Loops.map_eq_ok.mp area
          have azid : az.azid = areaid := by
            obtain ⟨matrix, -, rfl⟩ := Loops.map_eq_ok.mp first
            rfl
          have rows := dijkstraUpTo_rowsComputed (initLidbInfo_bounded first) reached
          rw [azid] at reached recorded
          refine ⟨⟨az, first, reached⟩, ?_⟩
          change recordShortPath fuel result (startPaths (memory areaid) result.lslist) = _
          rw [rows.lslist]
          exact recorded

variable {areaid : UInt32} {area : Area}

/-- The area has the routers and the links of the table. -/
theorem AreaComputed.fields
    (computed : AreaComputed fuel ifid memory table areaid area) :
    area.info.azid = areaid ∧
      area.info.routers = getRouters table areaid ∧
      area.info.lslist = getLinkStates table areaid := by
  obtain ⟨⟨initial, initialised, reached⟩, -⟩ := computed
  have rows := dijkstraUpTo_rowsComputed (initLidbInfo_bounded initialised) reached
  obtain ⟨matrix, -, rfl⟩ := Loops.map_eq_ok.mp initialised
  exact ⟨rows.azid, rows.routers, rows.lslist⟩

theorem AreaComputed.nodup
    (computed : AreaComputed fuel ifid memory table areaid area) :
    area.info.routers.Nodup := by
  rw [computed.fields.2.1]
  exact nodup_getRouters table areaid

/-- What was recorded of the pairs of routers. -/
theorem AreaComputed.paths
    (computed : AreaComputed fuel ifid memory table areaid area) :
    Recorded fuel area.info (startPaths (memory areaid) area.info.lslist)
      (cells area.info.routerCount) area.paths :=
  recordShortPath_recorded (startPaths_clean _ _) computed.recorded

/-- On the diagonal the cost is 0, and the metric is that of a link that leads back. -/
theorem AreaComputed.diagonal
    (computed : AreaComputed fuel ifid memory table areaid area)
    {i : Nat}
    (inside : i < area.info.routerCount) :
    (area.info.matrix i i).pathCost = 0 ∧
      ((area.info.matrix i i).metric = 0 →
        ∃ link ∈ getLinkStates table areaid,
          Joins area.info.routers i i link ∧ link.metric = 0) := by
  obtain ⟨azid, routers, lslist⟩ := computed.fields
  obtain ⟨⟨initial, initialised, reached⟩, -⟩ := computed
  have rows := dijkstraUpTo_rowsComputed (initLidbInfo_bounded initialised) reached
  obtain ⟨routersInitial, lslistInitial, described⟩ := initLidbInfo_describes initialised
  have insideInitial : i < initial.routerCount := by
    rw [← rows.routerCount]
    exact inside
  refine ⟨rows.diagonal i insideInitial insideInitial, fun zero => ?_⟩
  rw [rows.metric] at zero
  have entry := described i i insideInitial
  cases found : lastWrite initial.routers initial.lslist.zipIdx i i with
  | none =>
      rw [found] at entry
      rw [show initial.matrix i i = noLink from entry] at zero
      cases zero
  | some written =>
      obtain ⟨link, j⟩ := written
      rw [found] at entry
      obtain ⟨-, -, metric, -⟩ := entry
      obtain ⟨listed, writes, -⟩ := lastWrite_zipIdx.mp found
      have member := List.mem_of_getElem? listed
      rw [lslistInitial] at member
      have source : link.rid ∈ initial.routers := by
        rw [routersInitial]
        exact mem_getRouters.mpr ⟨link, member, rfl⟩
      -- An unknown neighbour would have led to the last column of an earlier row.
      have target : link.nrid ∈ initial.routers := by
        have place := writes.2
        have nonnegative : 0 ≤ position initial.routers link := by
          rw [place]
          exact_mod_cast Nat.zero_le (i * initial.routers.length + i)
        have within : i < initial.routers.length := insideInitial
        obtain ⟨row, column⟩ := (place_iff nonnegative within).mpr place
        obtain ⟨-, -, found | ⟨-, last, earlier⟩⟩ := place_cases nonnegative
        · rcases getIndexByRid_cases initial.routers link.nrid with
            ⟨y, -, isRouter⟩ | ⟨missing, -⟩
          · exact List.mem_of_getElem? isRouter
          · rw [missing] at found
            omega
        · rw [← column] at last
          rw [← row] at earlier
          omega
      refine ⟨link, member, ?_, metric.symm.trans zero⟩
      rw [rows.routers]
      exact writes.joins insideInitial source target

end Areas

/-! ## One path for each pair -/

/-- A pair of routers with the cost of a shortest path between them. -/
def LeastCost (info : AreaInfo) (i j cost : Nat) : Prop :=
  IsLeast {cost | ∃ links, LinkPath info.routers info.lslist i j links cost} cost

/-- The list has one path for each pair of distinct routers that are near. -/
structure OnePathPerPair (area : Area) : Prop where
  ends : area.paths.tail = 0
  pairs :
    ∀ i j cost,
      i ≠ j →
      LeastCost area.info i j cost →
      cost < maxMetric →
      ∃ path,
        (area.paths.shortpaths.filter fun path =>
            area.info.routers[i]? = some path.rid ∧
              area.info.routers[j]? = some path.nrid) = [path] ∧
          path.distanceMetric.toNat = cost ∧
          path.importanceValue =
            importanceValueOfRouter area.info.lslist path.rid *
              importanceValueOfRouter area.info.lslist path.nrid
  others :
    ∀ path ∈ area.paths.shortpaths,
      ∃ i j cost,
        i ≠ j ∧
          area.info.routers[i]? = some path.rid ∧
          area.info.routers[j]? = some path.nrid ∧
          LeastCost area.info i j cost ∧
          cost < maxMetric

/-- Whatever the queries answer and the memory held, every area has the right list. -/
def PathPerPair (table : List TopoLink) : Prop :=
  ∀ ifid memory, ∃ fuel areas,
    pathComputeStart fuel ifid memory table = .ok areas ∧
      ∀ area ∈ areas, OnePathPerPair area

/-- Every router has a link to itself, of metric 0. -/
def Looped (table : List TopoLink) : Prop :=
  ∀ link ∈ table,
    ∃ loop ∈ table,
      loop.areaid = link.areaid ∧ loop.rid = link.rid ∧ loop.nrid = link.rid ∧
        ¬IsAccess loop ∧ loop.metric = 0

instance (table : List TopoLink) : Decidable (Looped table) :=
  inferInstanceAs (Decidable (∀ _ ∈ _, ∃ _ ∈ _, _))

/-- Where there is no path from a router to itself, the router has such a link. -/
theorem PathPerPair.looped
    {table : List TopoLink}
    (right : PathPerPair table) :
    Looped table := by
  intro link member
  obtain ⟨fuel, areas, ends, pairs⟩ :=
    right (fun _ _ _ _ => 0) fun _ => ⟨0, fun _ => ⟨[], 0⟩⟩
  have listed : link.areaid ∈ getAreaes table :=
    List.mem_dedup.mpr (List.mem_map_of_mem member)
  obtain ⟨area, areaInside, computed⟩ :=
    (Loops.exists_of_forall₂ (pathComputeStart_ok ends)).1 _ listed
  obtain ⟨-, routers, -⟩ := computed.fields
  have isState : link ∈ getLinkStates table link.areaid :=
    List.mem_filter.mpr ⟨member, decide_eq_true rfl⟩
  have isRouter : link.rid ∈ area.info.routers := by
    rw [routers]
    exact mem_getRouters.mpr ⟨link, isState, rfl⟩
  obtain ⟨i, atPlace⟩ := List.getElem?_of_mem isRouter
  have inside : i < area.info.routerCount := (List.getElem?_eq_some_iff.mp atPlace).1
  obtain ⟨cost, loops⟩ := computed.diagonal inside
  by_cases zero : (area.info.matrix i i).metric = 0
  · obtain ⟨loop, loopMember, joins, metric⟩ := loops zero
    obtain ⟨inTable, areaid⟩ := List.mem_filter.mp loopMember
    refine ⟨loop, inTable, of_decide_eq_true areaid, ?_, ?_, joins.1, metric⟩
    · exact Option.some.inj (joins.2.1.symm.trans atPlace)
    · exact Option.some.inj (joins.2.2.symm.trans atPlace)
  · have recorded : (i, i) ∈ recordedCells area.info (cells area.info.routerCount) := by
      refine mem_recordedCells.mpr ⟨inside, inside, ?_, zero⟩
      dsimp only
      rw [cost]
      decide
    obtain ⟨address, at_⟩ := List.getElem?_of_mem recorded
    have isPath : area.info.netpath address (i, i) ∈ area.paths.shortpaths := by
      rw [computed.paths.shortpaths, List.mem_reverse]
      exact mem_netpaths.mpr ⟨address, _, at_, rfl⟩
    obtain ⟨x, y, -, other, isSource, isTarget, -⟩ := (pairs area areaInside).others _ isPath
    have same : (i, i) = (x, y) :=
      (netpath_ends computed.nodup inside inside).mp ⟨isSource, isTarget⟩
    exact absurd ((congrArg Prod.fst same).symm.trans (congrArg Prod.snd same)) other

end Pma.Lidb
