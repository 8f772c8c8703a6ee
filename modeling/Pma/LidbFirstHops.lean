import Pma.DdcFirstHops
import Pma.LidbRefinement

namespace Pma.Lidb

open Ddc (maxMetric maxEcmpLimit)
open ShortestPaths (FirstHop)

/-!
# The next hops in memory

What `dijkstra` leaves in `nexthop` and `nextHop` of a row, for a matrix that
`init_lidb_info` has made of an area.
-/

variable {az result : AreaInfo} {s : Nat} {ifid : Nat → Nat → Int}

/-- No destination has more first hops than its array has entries. -/
def FewFirstHops (az : AreaInfo) (linked : az.view.Linked) (s : Nat) : Prop :=
  ∀ j < az.routerCount,
    j ≠ s →
    {hop | FirstHop (az.view.network linked) s j hop}.encard ≤ maxEcmpLimit

/-- The next hops of a row are the first hops of the shortest paths, each once. -/
def FirstHopsFound
    (az : AreaInfo)
    (linked : az.view.Linked)
    (s : Nat)
    (result : AreaInfo) : Prop :=
  ∀ j < az.routerCount,
    j ≠ s →
    (result.matrix s j).pathCost.toNat < maxMetric →
    (result.matrix s j).hops.Nodup ∧
      (∀ hop : Int,
        hop ∈ (result.matrix s j).hops ↔
          ∃ first : Nat, hop = first ∧ FirstHop (az.view.network linked) s j first) ∧
      (result.matrix s j).nextHop ∈ (result.matrix s j).hops

theorem Netnode.hops_cons
    {node : Netnode}
    {head : Int}
    {rest : List Int}
    (listed : node.hops = head :: rest) :
    node.nexthopCount ≠ 0 ∧ node.hopAt 0 = head := by
  unfold hops at listed
  cases count : node.nexthopCount with
  | zero =>
      rw [count] at listed
      cases listed
  | succ _ =>
      refine ⟨Nat.succ_ne_zero _, ?_⟩
      have first : node.nexthop.toList[0]? = some (node.hopAt 0) := hopAt_eq (by decide)
      rw [count] at listed
      cases entries : node.nexthop.toList with
      | nil =>
          rw [entries] at listed
          cases listed
      | cons entry others =>
          rw [entries] at listed first
          cases listed
          exact (Option.some.inj first).symm

/-- Where a destination has next hops, `nextHop` is the first of them. -/
theorem dijkstra_nextHop
    (computed : dijkstra ifid s az = .ok result)
    {j : Nat}
    (inside : j < az.routerCount)
    {head : Int}
    {rest : List Int}
    (listed : (result.matrix s j).hops = head :: rest) :
    (result.matrix s j).nextHop = head := by
  obtain ⟨state, -, rfl⟩ := Loops.map_eq_ok.mp computed
  change (state.finish az.routerCount s s j).hops = _ at listed
  change (state.finish az.routerCount s s j).nextHop = head
  unfold DijkstraState.finish at listed ⊢
  rw [if_pos ⟨rfl, inside⟩] at listed ⊢
  obtain ⟨nonempty, first⟩ :
      (state.matrix s j).nexthopCount ≠ 0 ∧ (state.matrix s j).hopAt 0 = head :=
    Netnode.hops_cons listed
  dsimp only
  rw [if_pos nonempty, first]

/-- What the computation over lists finds is what the array has. -/
theorem Computed.firstHopsFound
    {abstract : Ddc.AreaInfo}
    (found : Computed az result abstract)
    (linked : az.view.Linked)
    (inside : s < az.routerCount)
    (computed : dijkstra ifid s az = .ok result)
    (right : az.view.NextHopsRight linked s abstract) :
    FirstHopsFound az linked s result := by
  intro j jInside notSource near
  have view : abstract.matrix s j = (result.matrix s j).view := by
    rw [← found.view]
    rfl
  obtain ⟨nodup, hops, nextHop⟩ := right j jInside notSource (by rw [view]; exact near)
  rw [view] at nodup hops nextHop
  change ((result.matrix s j).hops.map Int.toNat).Nodup at nodup
  change ∀ hop, hop ∈ (result.matrix s j).hops.map Int.toNat ↔ _ at hops
  change _ ∈ (result.matrix s j).hops.map Int.toNat at nextHop
  have nonnegative {hop : Int} (member : hop ∈ (result.matrix s j).hops) : 0 ≤ hop :=
    (found.sized.hops s inside j jInside hop (Netnode.mem_of_mem_hops member)).1
  refine ⟨nodup.of_map _, fun hop => ⟨fun member => ?_, ?_⟩, ?_⟩
  · exact ⟨hop.toNat, (Int.toNat_of_nonneg (nonnegative member)).symm,
      (hops _).mp (List.mem_map_of_mem member)⟩
  · rintro ⟨first, rfl, isFirst⟩
    obtain ⟨other, member, same⟩ := List.mem_map.mp ((hops first).mpr isFirst)
    have otherNonnegative := nonnegative member
    have equal : other = first := by omega
    exact equal ▸ member
  · cases listed : (result.matrix s j).hops with
    | nil =>
        rw [listed] at nextHop
        cases nextHop
    | cons head rest =>
        rw [dijkstra_nextHop computed jInside listed]
        exact List.mem_cons_self

/-- The computation in memory ends exactly where the one over lists does. -/
theorem dijkstra_ends_iff
    (sized : Sized az.routerCount az.matrix)
    (linked : az.view.Linked)
    (row : az.view.RowInitialised s)
    (inside : s < az.routerCount) :
    (∀ ifid, ∃ result, dijkstra ifid s az = .ok result) ↔ az.view.FirstHopsFit linked s := by
  rw [← Ddc.afterPasses_ok_iff row linked inside]
  constructor
  · intro ends ifid
    obtain ⟨result, computed⟩ := ends ifid
    obtain ⟨abstract, reached, -⟩ := (dijkstra_agrees ifid sized inside).to_ok computed
    obtain ⟨state, passes, -⟩ := Ddc.dijkstra_eq_ok.mp reached
    exact ⟨state, passes⟩
  · intro ends ifid
    obtain ⟨state, passes⟩ := ends ifid
    obtain ⟨result, computed, -⟩ :=
      (dijkstra_agrees ifid sized inside).of_ok (Ddc.dijkstra_eq_ok.mpr ⟨state, passes, rfl⟩)
    exact ⟨result, computed⟩

/-- A computation that ends has the distances and the first hops of its row. -/
theorem dijkstra_found
    (sized : Sized az.routerCount az.matrix)
    (linked : az.view.Linked)
    (row : az.view.RowInitialised s)
    (inside : s < az.routerCount)
    (computed : dijkstra ifid s az = .ok result) :
    Computed az result result.view ∧
      az.view.Shortest linked s result.view ∧
      FirstHopsFound az linked s result := by
  obtain ⟨abstract, reached, found⟩ := (dijkstra_agrees ifid sized inside).to_ok computed
  obtain ⟨shortest, right⟩ := Ddc.nextHopsRight_of_dijkstra row linked inside reached
  have same := found.view
  subst same
  exact ⟨found, shortest, found.firstHopsFound linked inside computed right⟩

/--
If no destination has too many first hops, `dijkstra` finds them all whatever the
queries answer, exactly when there are not too many at any time before either.
-/
theorem firstHopsFound_iff
    {table : List TopoLink}
    {areaid : UInt32}
    (initialised : initLidbInfo table areaid = .ok az)
    (linked : az.view.Linked)
    (rows : ∀ i < az.routerCount, az.view.RowInitialised i)
    (inside : s < az.routerCount) :
    (FewFirstHops az linked s →
        ∀ ifid, ∃ result,
          dijkstra ifid s az = .ok result ∧ FirstHopsFound az linked s result) ↔
      (FewFirstHops az linked s → az.view.FirstHopsFit linked s) := by
  have sized := initLidbInfo_sized initialised linked rows
  refine imp_congr_right fun _ => ?_
  rw [← dijkstra_ends_iff sized linked (rows s inside) inside]
  constructor
  · intro finds ifid
    obtain ⟨result, computed, -⟩ := finds ifid
    exact ⟨result, computed⟩
  · intro ends ifid
    obtain ⟨result, computed⟩ := ends ifid
    obtain ⟨-, -, found⟩ := dijkstra_found sized linked (rows s inside) inside computed
    exact ⟨result, computed, found⟩

/-! ## Two areas -/

/-- From the first of three routers. -/
theorem firstHopsFound_triangle :
    ∃ (az : AreaInfo) (linked : az.view.Linked),
      initLidbInfo Ddc.triangleLinks 1 = .ok az ∧
        (FewFirstHops az linked 0 →
          ∀ ifid, ∃ result,
            dijkstra ifid 0 az = .ok result ∧ FirstHopsFound az linked 0 result) := by
  obtain ⟨az, initialised, view⟩ :=
    @initLidbInfo_view Ddc.triangleLinks 1 (by decide)
  have isTriangle : az.view = Ddc.triangle := Option.some.inj (view.symm.trans rfl)
  have starts : az.view.Linked ∧ ∀ s, az.view.RowInitialised s := by
    rw [isTriangle]
    exact Ddc.triangle_initialised
  have inside : 0 < az.routerCount := by
    change 0 < az.view.routerCount
    rw [isTriangle]
    decide
  have few : [1, 2].length ≤ maxEcmpLimit := by decide
  have neighbours :
      ∀ j < az.view.routerCount, ∀ hop ∈ (az.view.matrix 0 j).nexthop, hop ∈ [1, 2] := by
    rw [isTriangle]
    decide
  exact ⟨az, starts.1, initialised,
    (firstHopsFound_iff initialised starts.1 (fun i _ => starts.2 i) inside).mpr fun _ =>
      Ddc.AreaInfo.firstHopsFit_of_few _ few neighbours⟩

/--
Router 1 with thirteen neighbours, and router 13 behind seven of them: at cost 10
by way of six, and at cost 9 by way of the seventh, which is farther away itself.
-/
def detourLinks : List TopoLink :=
  [(2, 1), (3, 1), (4, 1), (5, 1), (6, 2), (7, 3), (8, 3), (9, 3), (10, 3), (11, 3),
      (12, 1), (14, 1), (15, 1)].flatMap (fun (rid, metric) =>
    [Ddc.linkBetween 1 rid metric, Ddc.linkBetween rid 1 metric]) ++
  [(2, 9), (3, 9), (4, 9), (5, 9), (6, 7), (12, 9), (15, 9)].flatMap fun (rid, metric) =>
    [Ddc.linkBetween rid 13 metric, Ddc.linkBetween 13 rid metric]

def detour : Ddc.AreaInfo :=
  (Ddc.initLidbInfo [1, 2, 3, 4, 5, 6, 7, 8, 9, 10, 11, 12, 13, 14, 15] detourLinks).getD
    ⟨0, fun _ _ => Ddc.noLink⟩

/-- The metric of the link between router 1 and another, by its place. -/
def hubMetric (j : Nat) : Nat :=
  [0, 1, 1, 1, 1, 2, 3, 3, 3, 3, 3, 1, 9, 1, 1].getD j 0

/-- The metric of the link between router 13 and another, by its place. -/
def spokeMetric (j : Nat) : Nat :=
  [9, 9, 9, 9, 9, 7, 2000, 2000, 2000, 2000, 2000, 9, 0, 2000, 9].getD j 0

/-- What is left to a destination at least; router 13 is in place 12. -/
def detourHeight (j i : Nat) : Nat :=
  if i = j then
    0
  else if j = 12 then
    min (spokeMetric i) 10
  else if i = 0 then
    hubMetric j
  else
    1 + hubMetric j

/-- The least cost from router 1. -/
theorem detour_walk
    (linked : detour.Linked)
    {j : Nat}
    (inside : j < 15)
    (notSource : j ≠ 0) :
    ShortestPaths.Walk (detour.network linked) 0 j (hubMetric j) := by
  have vertex {i : Nat} (within : i < 15) : i ∈ (detour.network linked).vertices :=
    Finset.mem_range.mpr within
  have edges :
      ∀ j < 15, j ≠ 0 → j ≠ 12 →
        (detour.matrix 0 j).link ≠ none ∧ (detour.matrix 0 j).metric = hubMetric j := by
    decide
  by_cases behind : j = 12
  · subst behind
    have second :
        (detour.matrix 5 12).link ≠ none ∧ (detour.matrix 5 12).metric = 7 := by
      decide +kernel
    obtain ⟨firstEdge, firstMetric⟩ := edges 5 (by decide) (by decide) (by decide)
    have first :=
      ShortestPaths.Walk.single (vertex (by decide)) (vertex (by decide))
        (show (detour.network linked).edge 0 5 from firstEdge)
    have walk := first.snoc (vertex (by decide)) (vertex (by decide))
      (show (detour.network linked).edge 5 12 from second.1)
    have cost :
        (detour.network linked).weight 0 5 + (detour.network linked).weight 5 12 =
          hubMetric 12 := by
      change (detour.matrix 0 5).metric + (detour.matrix 5 12).metric = _
      rw [firstMetric, second.2]
      rfl
    rwa [cost] at walk
  · obtain ⟨edge, metric⟩ := edges j inside notSource behind
    have walk := ShortestPaths.Walk.single (vertex (by decide)) (vertex inside)
      (show (detour.network linked).edge 0 j from edge)
    have cost : (detour.network linked).weight 0 j = hubMetric j := metric
    rwa [cost] at walk

/-- From router 1, every destination has one first hop. -/
theorem detour_firstHop
    (linked : detour.Linked)
    {j hop : Nat}
    (inside : j < 15)
    (notSource : j ≠ 0)
    (first : FirstHop (detour.network linked) 0 j hop) :
    hop = if j = 12 then 5 else j := by
  have heights :
      ∀ j < 15, ∀ first < 15, ∀ second < 15,
        (detour.matrix first second).link ≠ none →
        detourHeight j first ≤ (detour.matrix first second).metric + detourHeight j second := by
    decide +kernel
  have only :
      ∀ j < 15, j ≠ 0 → ∀ hop < 15,
        (detour.matrix 0 hop).link ≠ none →
        (detour.matrix 0 hop).metric + detourHeight j hop ≤ hubMetric j →
        hop = if j = 12 then 5 else j := by
    decide
  obtain ⟨-, hopInside, edge, rest, walk, least⟩ := first
  have shortest := least.2 (detour_walk linked inside notSource)
  have down : detourHeight j hop ≤ rest + detourHeight j j :=
    walk.height_le fun first firstInside second secondInside isEdge =>
      heights j inside first (Finset.mem_range.mp firstInside) second
        (Finset.mem_range.mp secondInside) isEdge
  have atTarget : detourHeight j j = 0 := if_pos rfl
  refine only j inside notSource hop (Finset.mem_range.mp hopInside) edge ?_
  change (detour.matrix 0 hop).metric + rest ≤ hubMetric j at shortest
  omega

/-- The area of these links, as `init_lidb_info` leaves it. -/
theorem detour_starts :
    ∃ az : AreaInfo,
      initLidbInfo detourLinks 1 = .ok az ∧
        az.view.Linked ∧
        (∀ i, az.view.RowInitialised i) ∧
        az.view = detour := by
  have known :
      ∀ link ∈ getLinkStates detourLinks 1,
        ¬IsAccess link → link.nrid ∈ getRouters detourLinks 1 := by
    decide
  have advertised :
      ∀ link ∈ getLinkStates detourLinks 1, IsAccess link ∨ Ddc.Advertised link := by
    unfold Ddc.Advertised
    decide
  obtain ⟨az, initialised, view⟩ := initLidbInfo_view known
  obtain ⟨linked, rows⟩ := Ddc.initLidbInfo_initialised view advertised
  have routers :
      getRouters detourLinks 1 = [1, 2, 3, 4, 5, 6, 7, 8, 9, 10, 11, 12, 13, 14, 15] := by
    decide
  have lslist : getLinkStates detourLinks 1 = detourLinks := by
    decide
  refine ⟨az, initialised, linked, rows, ?_⟩
  rw [routers, lslist] at view
  unfold detour
  rw [view]
  rfl

/-- From router 1 there is a write past the end of an array. -/
theorem detour_overruns
    {az : AreaInfo}
    (initialised : initLidbInfo detourLinks 1 = .ok az) :
    dijkstra (fun _ i => i + 1) 0 az = .error .nexthopOverrun := by
  have fault :
      (initLidbInfo detourLinks 1).bind (dijkstra (fun _ i => i + 1) 0) =
        .error .nexthopOverrun := rfl
  rw [initialised] at fault
  exact fault

/--
Six routers tie for router 13 before the seventh is settled.  The fifth next hop
is written over the count, and the sixth where the count then says, which is in
the entry of router 14.
-/
theorem detour_not_found :
    ∃ (az : AreaInfo) (linked : az.view.Linked),
      initLidbInfo detourLinks 1 = .ok az ∧
        (∀ i, az.view.RowInitialised i) ∧
        0 < az.routerCount ∧
        FewFirstHops az linked 0 ∧
        ¬∀ ifid, ∃ result,
          dijkstra ifid 0 az = .ok result ∧ FirstHopsFound az linked 0 result := by
  obtain ⟨az, initialised, linked, rows, isDetour⟩ := detour_starts
  have count : az.routerCount = 15 := by
    change az.view.routerCount = 15
    rw [isDetour]
    rfl
  have few : FewFirstHops az linked 0 := by
    unfold FewFirstHops
    rw [count]
    intro j inside notSource
    generalize az.view = area at linked isDetour
    subst isDetour
    refine (@Ddc.encard_le_length [if j = 12 then 5 else j] _ ?_).trans
      (Nat.cast_le.mpr (by decide : 1 ≤ maxEcmpLimit))
    exact fun hop first => List.mem_singleton.mpr (detour_firstHop linked inside notSource first)
  refine ⟨az, linked, initialised, rows, by omega, few, fun finds => ?_⟩
  obtain ⟨result, computed, -⟩ := finds fun _ i => i + 1
  rw [detour_overruns initialised] at computed
  cases computed

end Pma.Lidb
