import Pma.LidbAreas
import Pma.LidbSelfLinks

namespace Pma.Lidb

open Ddc (maxMetric maxEcmpLimit)
open ShortestPaths (Distance)

/-!
# One path for each pair of routers

Where every router has a link to itself of metric 0, the diagonal is passed over,
and the list of an area has the path of each pair of distinct routers once.
What else has to be right for this is what has to be right for the matrix and
for the next hops.
-/

/-! ## What the table is like -/

/-- Every neighbour is known, and the last of the links between two routers is the least. -/
structure WellRead (table : List TopoLink) : Prop where
  known :
    ∀ link ∈ table,
      ¬IsAccess link →
      ∃ row ∈ table, row.areaid = link.areaid ∧ row.rid = link.nrid
  least :
    ∀ areaid ∈ getAreaes table,
      LastIsLeast (getRouters table areaid) (getLinkStates table areaid)
  metric : ∀ link ∈ table, ¬IsAccess link → link.metric.toNat ≤ 65535

/-- The links to the routers themselves have metric 0, and no others have. -/
structure OnlyLoopsFree (table : List TopoLink) : Prop where
  looped : Looped table
  positive :
    ∀ link ∈ table, ¬IsAccess link → link.rid ≠ link.nrid → link.metric ≠ 0

/-- An area of such a table, and the same area without its self-links. -/
structure LoopedArea
    (table : List TopoLink)
    (areaid : UInt32)
    (az plain : AreaInfo) : Prop where
  initialised : initLidbInfo table areaid = .ok az
  plainInitialised : initLidbInfo (table.map withoutSelf) areaid = .ok plain
  last : LastIsLeast (getRouters table areaid) (getLinkStates table areaid)
  unlooped : Unlooped az plain
  linked : plain.view.Linked
  rows : ∀ i, plain.view.RowInitialised i
  backbone : ∃ link ∈ az.lslist, ¬IsAccess link

/-! ## The list of an area -/


/-! ## The areas of such a table -/

section Areas

variable {table : List TopoLink} {areaid : UInt32} {az plain : AreaInfo}

namespace LoopedArea

variable (area : LoopedArea table areaid az plain)
include area

/-- A link between two routers is an edge that is no longer. -/
theorem edge
    {a b : Nat}
    {link : TopoLink}
    (member : link ∈ az.lslist)
    (joins : Joins az.routers a b link)
    (other : a ≠ b) :
    ShortestPaths.Walk (plain.view.network area.linked) a b (plain.matrix a b).metric.toNat ∧
      (plain.matrix a b).metric.toNat ≤ link.metric.toNat := by
  have aInside : a < az.routerCount := (List.getElem?_eq_some_iff.mp joins.2.1).1
  have bInside : b < az.routerCount := (List.getElem?_eq_some_iff.mp joins.2.2).1
  obtain ⟨isLink, -, least⟩ :=
    area.last.entry area.initialised aInside bInside ⟨link, member, joins⟩
  have least := least link member joins
  rw [area.unlooped.others a b other] at isLink least
  have vertex {i : Nat} (inside : i < az.routerCount) :
      i ∈ (plain.view.network area.linked).vertices := by
    refine Finset.mem_range.mpr ?_
    change i < plain.routerCount
    rw [area.unlooped.routerCount]
    exact inside
  exact ⟨.single (vertex aInside) (vertex bInside) isLink, UInt32.le_iff_toNat_le.mp least⟩

/-- Along the links of a path there is a walk that is no longer. -/
theorem exists_walk
    {i j cost : Nat}
    {links : List Nat}
    (path : LinkPath az.routers az.lslist i j links cost) :
    ∃ less ≤ cost,
      ShortestPaths.Walk (plain.view.network area.linked) i j less := by
  induction path with
  | nil =>
      exact ⟨0, Nat.le_refl 0, .nil⟩
  | @cons i b j x rest links link listed joins _ inductionHypothesis =>
      obtain ⟨less, le, walk⟩ := inductionHypothesis
      by_cases own : i = b
      · subst own
        exact ⟨less, le.trans (Nat.le_add_left _ _), walk⟩
      · obtain ⟨first, shorter⟩ := area.edge (List.mem_of_getElem? listed) joins own
        exact ⟨_, Nat.add_le_add shorter le, first.append walk⟩

/-- For a pair of distinct routers that are near, the least cost is the distance. -/
theorem leastCost_iff
    {result plainResult : AreaInfo}
    (beside : RowsBeside az plain area.linked az.routerCount result plainResult)
    {i j cost : Nat}
    (iInside : i < az.routerCount)
    (jInside : j < az.routerCount)
    (other : i ≠ j)
    (below : cost < maxMetric) :
    LeastCost result i j cost ↔ Distance (plain.view.network area.linked) i j cost := by
  have plainCount := area.unlooped.routerCount
  unfold LeastCost
  rw [beside.computed.routers, beside.computed.lslist]
  have found : RowsFound plain area.linked plain.routerCount plainResult := by
    rw [plainCount]
    exact beside.found
  have path {distance : Nat}
      (least : Distance (plain.view.network area.linked) i j distance)
      (near : distance < maxMetric) :
      ∃ links, LinkPath az.routers az.lslist i j links distance := by
    obtain ⟨linkIndices, links, -, walked⟩ :=
      found.walk_ok area.plainInitialised (fun i _ => area.rows i)
        (by rw [plainCount]; exact iInside) (by rw [plainCount]; exact jInside) other.symm
        least near (Nat.lt_succ_self _)
    have links := walked.path
    rw [area.unlooped.routers, area.unlooped.lslist] at links
    exact ⟨_, links.withSelf⟩
  constructor
  · rintro ⟨⟨links, isPath⟩, least⟩
    obtain ⟨less, le, walk⟩ := area.exists_walk isPath
    obtain ⟨distance, shorter, isDistance⟩ := walk.exists_distance
    have same : cost ≤ distance := least (path isDistance (by omega))
    have equal : cost = distance := by omega
    rw [equal]
    exact isDistance
  · intro distance
    refine ⟨path distance below, fun length => ?_⟩
    rintro ⟨links, isPath⟩
    obtain ⟨less, le, walk⟩ := area.exists_walk isPath
    exact (distance.2 walk).trans le

section Recording

variable {result plainResult : AreaInfo}

/-- The pairs that are recorded are the distinct ones that are near. -/
theorem mem_recordedCells_iff
    (beside : RowsBeside az plain area.linked az.routerCount result plainResult)
    {i j : Nat} :
    (i, j) ∈ recordedCells result (cells result.routerCount) ↔
      i < az.routerCount ∧ j < az.routerCount ∧ i ≠ j ∧
        (result.matrix i j).pathCost.toNat < maxMetric := by
  rw [mem_recordedCells, beside.computed.routerCount]
  dsimp only
  rw [beside.computed.metric]
  constructor
  · rintro ⟨iInside, jInside, near, positive⟩
    refine ⟨iInside, jInside, ?_, near⟩
    rintro rfl
    exact positive (area.unlooped.diagonal i iInside)
  · rintro ⟨iInside, jInside, other, near⟩
    refine ⟨iInside, jInside, near, fun zero => ?_⟩
    have plainCount := area.unlooped.routerCount
    have positive : 0 < (plain.matrix i j).metric.toNat :=
      (plain.view.network area.linked).positive
        (Finset.mem_range.mpr (by
          change i < plain.routerCount
          rw [plainCount]
          exact iInside))
        (Finset.mem_range.mpr (by
          change j < plain.routerCount
          rw [plainCount]
          exact jInside))
    rw [← area.unlooped.others i j other, zero] at positive
    exact absurd positive (Nat.lt_irrefl 0)

/-- A pair of distinct routers is near exactly if its path cost is below `MAX_METRIC`. -/
theorem near_iff
    (beside : RowsBeside az plain area.linked az.routerCount result plainResult)
    {i j : Nat}
    (iInside : i < az.routerCount)
    (jInside : j < az.routerCount)
    (other : i ≠ j) :
    ((result.matrix i j).pathCost.toNat < maxMetric →
      LeastCost result i j (result.matrix i j).pathCost.toNat) ∧
    ∀ cost,
      LeastCost result i j cost →
      cost < maxMetric →
      (result.matrix i j).pathCost.toNat = cost := by
  have plainCount := area.unlooped.routerCount
  have iPlain : i < plain.routerCount := by
    rw [plainCount]
    exact iInside
  have jPlain : j < plain.routerCount := by
    rw [plainCount]
    exact jInside
  have found := beside.found.found i iInside iPlain
  obtain ⟨same, -⟩ := beside.same i iInside iInside j jInside other.symm
  rw [same]
  refine ⟨fun near => ?_, fun cost least below => ?_⟩
  · exact (area.leastCost_iff beside iInside jInside other near).mpr
      (found.distance j jPlain other.symm near)
  · exact found.near j jPlain other.symm cost
      ((area.leastCost_iff beside iInside jInside other below).mp least) below

/-- The recording ends. -/
theorem recordShortPath_ends
    (beside : RowsBeside az plain area.linked az.routerCount result plainResult)
    (memory : Memory) :
    ∃ paths,
      recordShortPath (2 * maxMetric) result (startPaths memory az.lslist) = .ok paths := by
  refine Lidb.recordShortPath_ends fun cell inside isRecorded => ?_
  obtain ⟨i, j⟩ := cell
  obtain ⟨iInside, jInside, other, near⟩ :=
    (area.mem_recordedCells_iff beside).mp (List.mem_filter.mpr ⟨inside, isRecorded⟩)
  obtain ⟨least, -⟩ := area.near_iff beside iInside jInside other
  have distance :=
    (area.leastCost_iff beside iInside jInside other near).mp (least near)
  obtain ⟨linkIndices, walked, within⟩ :=
    beside.walk_ok area.unlooped area.initialised area.plainInitialised
      (fun i _ => area.rows i) iInside jInside other.symm distance near
      (by omega : 2 * (result.matrix i j).pathCost.toNat < 2 * maxMetric)
  exact ⟨linkIndices, walked, by rw [startPaths_length]; exact within⟩

/-- What the recording leaves is right. -/
theorem onePathPerPair
    (beside : RowsBeside az plain area.linked az.routerCount result plainResult)
    {memory : Memory}
    {fuel : Nat}
    {paths : Paths}
    (ends : recordShortPath fuel result (startPaths memory az.lslist) = .ok paths) :
    OnePathPerPair ⟨result, paths⟩ := by
  have recorded := recordShortPath_recorded (startPaths_clean memory az.lslist) ends
  have routers := beside.computed.routers
  have lslist := beside.computed.lslist
  have nodup : result.routers.Nodup := by
    rw [routers]
    exact initLidbInfo_nodup area.initialised
  constructor
  case ends =>
    dsimp only
    rw [recorded.tail, startPaths_eq]
    exact if_pos area.backbone
  case pairs =>
    intro i j cost other least below
    dsimp only at least ⊢
    obtain ⟨iInside, jInside⟩ : i < az.routerCount ∧ j < az.routerCount := by
      obtain ⟨⟨links, path⟩, -⟩ := least
      rw [routers] at path
      exact path.inside other
    have cost := (area.near_iff beside iInside jInside other).2 _ least below
    have member : (i, j) ∈ recordedCells result (cells result.routerCount) :=
      (area.mem_recordedCells_iff beside).mpr ⟨iInside, jInside, other, by omega⟩
    obtain ⟨address, only⟩ := filter_netpaths nodup member
    refine ⟨result.netpath address (i, j), ?_, cost, rfl⟩
    rw [recorded.shortpaths]
    exact only
  case others =>
    intro path member
    dsimp only at member ⊢
    rw [recorded.shortpaths, List.mem_reverse] at member
    obtain ⟨address, ⟨i, j⟩, listed, rfl⟩ := mem_netpaths.mp member
    have isRecorded := List.mem_of_getElem? listed
    obtain ⟨iInside, jInside, other, near⟩ := (area.mem_recordedCells_iff beside).mp isRecorded
    obtain ⟨rowInside, columnInside, -⟩ := mem_recordedCells.mp isRecorded
    have ends :
        result.routers[i]? = some (result.netpath address (i, j)).rid ∧
          result.routers[j]? = some (result.netpath address (i, j)).nrid :=
      (netpath_ends nodup rowInside columnInside).mpr rfl
    obtain ⟨isRow, isColumn⟩ := ends
    exact ⟨i, j, _, other, isRow, isColumn,
      (area.near_iff beside iInside jInside other).1 near, near⟩

end Recording

/-- The computations from all sources, beside those without the self-links. -/
theorem beside
    {answers : Nat → Nat → Nat → Int}
    {result : AreaInfo}
    (computed : dijkstraUpTo answers az az.routerCount = .ok result) :
    ∃ plainResult, RowsBeside az plain area.linked az.routerCount result plainResult := by
  obtain ⟨plainResult, -, beside⟩ := dijkstraUpTo_beside area.unlooped area.linked
    (fun i _ => area.rows i)
    (initLidbInfo_sized area.plainInitialised area.linked fun i _ => area.rows i)
    (Nat.le_refl _) computed
  exact ⟨plainResult, beside⟩

/-- What `path_compute_start` leaves for such an area is right. -/
theorem right
    {fuel : Nat}
    {ifid : UInt32 → Nat → Nat → Nat → Int}
    {memory : UInt32 → Memory}
    {entry : Area}
    (computed : AreaComputed fuel ifid memory table areaid entry) :
    OnePathPerPair entry := by
  obtain ⟨⟨initial, again, reached⟩, recorded⟩ := computed
  rw [area.initialised] at again
  cases again
  obtain ⟨plainResult, beside⟩ := area.beside reached
  rw [beside.computed.lslist] at recorded
  exact area.onePathPerPair beside recorded

end LoopedArea

/-- Without the self-links, the computation may start. -/
theorem WellRead.exists_plain
    (wellRead : WellRead table)
    (positive :
      ∀ link ∈ table, ¬IsAccess link → link.rid ≠ link.nrid → link.metric ≠ 0)
    (areaid : UInt32) :
    ∃ plain,
      initLidbInfo (table.map withoutSelf) areaid = .ok plain ∧
        plain.view.Linked ∧ ∀ i, plain.view.RowInitialised i := by
  refine initLidbInfo_starts ?_ ?_
  · rw [getLinkStates_withoutSelf, getRouters_withoutSelf]
    intro link member backbone
    obtain ⟨original, isState, rfl⟩ := List.mem_map.mp member
    obtain ⟨access, other⟩ := not_or.mp fun both => backbone (isAccess_withoutSelf.mpr both)
    obtain ⟨inTable, same⟩ := mem_getLinkStates.mp isState
    obtain ⟨row, rowInTable, rowArea, rowRid⟩ := wellRead.known original inTable access
    rw [withoutSelf, if_neg other]
    exact mem_getRouters.mpr
      ⟨row, mem_getLinkStates.mpr ⟨rowInTable, rowArea.trans same⟩, rowRid⟩
  · rw [getLinkStates_withoutSelf]
    intro link member
    obtain ⟨original, isState, rfl⟩ := List.mem_map.mp member
    by_cases passed : IsAccess original ∨ original.rid = original.nrid
    · exact .inl (isAccess_withoutSelf.mpr passed)
    · obtain ⟨access, other⟩ := not_or.mp passed
      obtain ⟨inTable, -⟩ := mem_getLinkStates.mp isState
      rw [withoutSelf, if_neg other]
      refine .inr ⟨other, ?_, wellRead.metric original inTable access⟩
      refine Nat.one_le_iff_ne_zero.mpr fun zero => ?_
      exact positive original inTable access other (UInt32.toNat_inj.mp zero)

/-- Every router of an area has its self-link there. -/
theorem Looped.exists_loop
    (looped : Looped table)
    {rid : UInt32}
    (isRouter : rid ∈ getRouters table areaid) :
    ∃ link ∈ getLinkStates table areaid,
      link.rid = rid ∧ link.nrid = rid ∧ ¬IsAccess link ∧ link.metric = 0 := by
  obtain ⟨link, isState, rfl⟩ := mem_getRouters.mp isRouter
  obtain ⟨inTable, same⟩ := mem_getLinkStates.mp isState
  obtain ⟨loop, loopInTable, loopArea, loopRid, loopNrid, backbone, metric⟩ :=
    looped link inTable
  exact ⟨loop, mem_getLinkStates.mpr ⟨loopInTable, loopArea.trans same⟩, loopRid, loopNrid,
    backbone, metric⟩

/-- The self-links are what the diagonal has. -/
theorem LastIsLeast.diagonal
    (last : LastIsLeast (getRouters table areaid) (getLinkStates table areaid))
    (looped : Looped table)
    (initialised : initLidbInfo table areaid = .ok az)
    {i : Nat}
    (inside : i < az.routerCount) :
    (az.matrix i i).metric = 0 := by
  obtain ⟨-, routers, lslist, -⟩ := initLidbInfo_fields initialised
  have isRouter : az.routers[i] ∈ getRouters table areaid := routers ▸ List.getElem_mem inside
  obtain ⟨link, isState, source, target, backbone, metric⟩ := looped.exists_loop isRouter
  rw [← lslist] at isState
  have atPlace := List.getElem?_eq_getElem inside
  have joins : Joins az.routers i i link :=
    ⟨backbone, atPlace.trans (congrArg _ source.symm), atPlace.trans (congrArg _ target.symm)⟩
  obtain ⟨-, -, least⟩ := last.entry initialised inside inside ⟨link, isState, joins⟩
  have bound := least link isState joins
  rw [metric] at bound
  exact UInt32.le_zero_iff.mp bound

/-- Where all else is right, an area may start with the table as it is. -/
theorem WellRead.loopedArea
    (wellRead : WellRead table)
    (free : OnlyLoopsFree table)
    (listed : areaid ∈ getAreaes table) :
    ∃ az plain, LoopedArea table areaid az plain := by
  have last := wellRead.least areaid listed
  have sources (link : TopoLink) (isState : link ∈ getLinkStates table areaid) :
      link.rid ∈ getRouters table areaid :=
    mem_getRouters.mpr ⟨link, isState, rfl⟩
  obtain ⟨matrix, made, -⟩ := last.matrixRight (nodup_getRouters table areaid) sources
  have initialised :
      initLidbInfo table areaid =
        .ok ⟨areaid, getRouters table areaid, getLinkStates table areaid, matrix⟩ :=
    Loops.map_eq_ok.mpr ⟨matrix, made, rfl⟩
  obtain ⟨plain, plainInitialised, linked, rows⟩ := wellRead.exists_plain free.positive areaid
  obtain ⟨-, plainRouters, plainLslist, plainMade⟩ := initLidbInfo_fields plainInitialised
  rw [getRouters_withoutSelf] at plainRouters
  rw [getLinkStates_withoutSelf] at plainLslist
  have others : ∀ i j, i ≠ j → matrix i j = plain.matrix i j := by
    obtain ⟨plainMatrix, sameMade, others⟩ := initMatrix_withoutSelf sources made
    rw [plainRouters, plainLslist, sameMade] at plainMade
    cases plainMade
    exact others
  have diagonal : ∀ i < (getRouters table areaid).length, (matrix i i).metric = 0 :=
    fun i inside => last.diagonal free.looped initialised inside
  have sized := initLidbInfo_sized plainInitialised linked fun i _ => rows i
  refine ⟨_, plain, initialised, plainInitialised, last, ?_, linked, rows, ?_⟩
  · exact ⟨plainRouters, plainLslist, others, diagonal, sized_of_others initialised sized
      (congrArg List.length plainRouters) others diagonal⟩
  · obtain ⟨some, inTable, same⟩ := List.mem_map.mp (List.mem_dedup.mp listed)
    obtain ⟨link, isState, -, -, backbone, -⟩ := free.looped.exists_loop
      (sources some (mem_getLinkStates.mpr ⟨inTable, same⟩))
    exact ⟨link, isState, backbone⟩

end Areas

/-! ## When the list is right -/

section Whole

variable {table : List TopoLink}

/-- A pair with a path is one that was not passed over. -/
theorem OnePathPerPair.metric_ne_zero
    {fuel : Nat}
    {ifid : UInt32 → Nat → Nat → Nat → Int}
    {memory : UInt32 → Memory}
    {areaid : UInt32}
    {area : Area}
    (right : OnePathPerPair area)
    (computed : AreaComputed fuel ifid memory table areaid area)
    {i j cost : Nat}
    (other : i ≠ j)
    (least : LeastCost area.info i j cost)
    (below : cost < maxMetric) :
    (area.info.matrix i j).metric ≠ 0 := by
  obtain ⟨path, only, -⟩ := right.pairs i j cost other least below
  obtain ⟨isPath, isBetween⟩ := List.mem_filter.mp (by
    rw [only]
    exact List.mem_cons_self)
  rw [computed.paths.shortpaths, List.mem_reverse] at isPath
  obtain ⟨address, cell, atAddress, rfl⟩ := mem_netpaths.mp isPath
  obtain ⟨rowInside, columnInside, -, metric⟩ :=
    mem_recordedCells.mp (List.mem_of_getElem? atAddress)
  have isPair :=
    (netpath_ends computed.nodup rowInside columnInside).mp (of_decide_eq_true isBetween)
  subst isPair
  exact metric

/-- Routers at no cost from each other would be passed over like the diagonal. -/
theorem PathPerPair.positive
    (right : PathPerPair table)
    (wellRead : WellRead table) :
    ∀ link ∈ table, ¬IsAccess link → link.rid ≠ link.nrid → link.metric ≠ 0 := by
  intro link member backbone other zero
  obtain ⟨fuel, areas, ends, pairs⟩ :=
    right (fun _ _ _ _ => 0) fun _ => ⟨0, fun _ => ⟨[], 0⟩⟩
  have listed : link.areaid ∈ getAreaes table :=
    List.mem_dedup.mpr (List.mem_map_of_mem member)
  obtain ⟨area, areaInside, computed⟩ :=
    (Loops.exists_of_forall₂ (pathComputeStart_ok ends)).1 _ listed
  obtain ⟨-, routers, lslist⟩ := computed.fields
  obtain ⟨row, rowMember, rowArea, rowRid⟩ := wellRead.known link member backbone
  have isState : link ∈ area.info.lslist := by
    rw [lslist]
    exact mem_getLinkStates.mpr ⟨member, rfl⟩
  have source : link.rid ∈ area.info.routers := by
    rw [routers]
    exact mem_getRouters.mpr ⟨link, lslist ▸ isState, rfl⟩
  have target : link.nrid ∈ area.info.routers := by
    rw [routers]
    exact mem_getRouters.mpr ⟨row, mem_getLinkStates.mpr ⟨rowMember, rowArea⟩, rowRid⟩
  obtain ⟨x, atX⟩ := List.getElem?_of_mem source
  obtain ⟨y, atY⟩ := List.getElem?_of_mem target
  obtain ⟨place, atPlace⟩ := List.getElem?_of_mem isState
  have joins : Joins area.info.routers x y link := ⟨backbone, atX, atY⟩
  have distinct : x ≠ y := by
    rintro rfl
    exact other (Option.some.inj (atX.symm.trans atY))
  have least : LeastCost area.info x y 0 := by
    have path : LinkPath area.info.routers area.info.lslist x y [place]
        (link.metric.toNat + 0) := .cons atPlace joins .nil
    rw [zero] at path
    exact ⟨⟨_, path⟩, fun cost _ => Nat.zero_le cost⟩
  refine (pairs area areaInside).metric_ne_zero computed distinct least (by decide) ?_
  obtain ⟨initial, initialised, reached⟩ := computed.computed
  have rows := dijkstraUpTo_rowsComputed (initLidbInfo_bounded initialised) reached
  rw [rows.routers] at joins
  rw [rows.lslist] at isState
  obtain ⟨-, -, bound⟩ := (wellRead.least _ listed).entry initialised
    (List.getElem?_eq_some_iff.mp joins.2.1).1 (List.getElem?_eq_some_iff.mp joins.2.2).1
    ⟨link, isState, joins⟩
  have none := bound link isState joins
  rw [zero] at none
  rw [rows.metric]
  exact UInt32.le_zero_iff.mp none

end Whole

end Pma.Lidb
