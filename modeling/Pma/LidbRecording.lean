import Pma.LidbFirstHops
import Pma.LidbPaths
import Pma.LidbRows

namespace Pma.Lidb

open Ddc (maxMetric)
open ShortestPaths (Distance FirstHop)

/-!
# The links of the recorded paths

`record_short_path` follows the next hops that the computations from different
sources have left.  Its loop needs two passes for a link: behind every hop it
comes to an entry of the diagonal, where there is no link.  The distance to the
destination goes down all the same, as what is behind a first hop is a shortest
path again.
-/

/-! ## All sources -/

/-- What `dijkstra` finds from one source. -/
structure RowFound
    (az : AreaInfo)
    (linked : az.view.Linked)
    (s : Nat)
    (result : AreaInfo) : Prop where
  near :
    ∀ j < az.routerCount,
      j ≠ s →
      ∀ cost,
        Distance (az.view.network linked) s j cost →
        cost < maxMetric →
        (result.matrix s j).pathCost.toNat = cost
  distance :
    ∀ j < az.routerCount,
      j ≠ s →
      (result.matrix s j).pathCost.toNat < maxMetric →
      Distance (az.view.network linked) s j (result.matrix s j).pathCost.toNat
  hops : FirstHopsFound az linked s result

/-- `dijkstra` has found the rows of the first `k` sources. -/
structure RowsFound
    (az : AreaInfo)
    (linked : az.view.Linked)
    (k : Nat)
    (result : AreaInfo) : Prop where
  computed : RowsComputed k az result
  sized : Sized az.routerCount result.matrix
  found : ∀ s < k, s < az.routerCount → RowFound az linked s result

section Sources

variable {az result next : AreaInfo} {linked : az.view.Linked} {s k : Nat}

/-- A row stays found when another one is written. -/
theorem RowFound.kept
    (found : RowFound az linked s result)
    (same : ∀ j, next.matrix s j = result.matrix s j) :
    RowFound az linked s next where
  near j := by
    rw [same j]
    exact found.near j
  distance j := by
    rw [same j]
    exact found.distance j
  hops j := by
    rw [same j]
    exact found.hops j

/-- The links are as they were before the first source. -/
theorem RowsComputed.network
    (computed : RowsComputed k az result)
    (linked : az.view.Linked) :
    ∃ still : result.view.Linked, result.view.network still = az.view.network linked := by
  have count : result.view.routerCount = az.view.routerCount := computed.routerCount
  have link (i j : Nat) : (result.view.matrix i j).link = (az.view.matrix i j).link :=
    computed.link i j
  have metric (i j : Nat) : (result.view.matrix i j).metric = (az.view.matrix i j).metric :=
    congrArg UInt32.toNat (computed.metric i j)
  have still : result.view.Linked := by
    constructor
    · intro i inside
      rw [link, metric]
      exact linked.diagonal i (count ▸ inside)
    · intro i iInside j jInside other
      rw [link, metric]
      exact linked.others i (count ▸ iInside) j (count ▸ jInside) other
  refine ⟨still, ?_⟩
  have edges :
      (fun i j => (result.view.matrix i j).link ≠ none) =
        fun i j => (az.view.matrix i j).link ≠ none := by
    funext i j
    rw [link]
  have weights :
      (fun i j => (result.view.matrix i j).metric) = fun i j => (az.view.matrix i j).metric := by
    funext i j
    exact metric i j
  unfold Ddc.AreaInfo.network
  congr 1
  rw [count]

/-- The row of the next source is as `init_lidb_info` has left it. -/
theorem RowsComputed.row
    (computed : RowsComputed s az result)
    (row : az.view.RowInitialised s) :
    result.view.RowInitialised s := by
  have count : result.view.routerCount = az.view.routerCount := computed.routerCount
  have same (j : Nat) : result.view.matrix s j = az.view.matrix s j :=
    congrArg Netnode.view (computed.later s (Nat.le_refl s) j)
  constructor
  · intro j inside
    rw [same]
    exact row.noLink j (count ▸ inside)
  · intro j inside
    rw [same]
    exact row.near j (count ▸ inside)
  · intro j inside
    rw [same]
    exact row.far j (count ▸ inside)

/-- The next source, with its answers. -/
theorem RowsFound.step
    (rows : RowsFound az linked s result)
    (row : az.view.RowInitialised s)
    (inside : s < az.routerCount)
    {ifid : Nat → Nat → Int}
    (step : dijkstra ifid s result = .ok next) :
    RowsFound az linked (s + 1) next := by
  have count := rows.computed.routerCount
  obtain ⟨still, same⟩ := rows.computed.network linked
  have insideResult {j : Nat} (jInside : j < az.routerCount) : j < result.routerCount := by
    rw [count]
    exact jInside
  have sized : Sized result.routerCount result.matrix := by
    rw [count]
    exact rows.sized
  obtain ⟨computed, shortest, hops⟩ :=
    dijkstra_found sized still (rows.computed.row row) (insideResult inside) step
  refine ⟨rows.computed.step step, count ▸ computed.sized, fun i within iInside => ?_⟩
  rcases Nat.lt_succ_iff_lt_or_eq.mp within with earlier | rfl
  · have kept := dijkstra_rowComputed rows.computed.bounded step
    exact (rows.found i earlier iInside).kept
      fun j => kept.links.others i j (Nat.ne_of_lt earlier)
  · constructor
    case near =>
      intro j jInside notSource cost distance below
      have least := shortest.least j (insideResult jInside) notSource
      rw [same] at least
      exact (least ⟨cost, distance.1, below⟩).unique distance
    case distance =>
      intro j jInside notSource near
      have distance := shortest.distance (insideResult jInside) notSource near
      rw [same] at distance
      exact distance
    case hops =>
      unfold FirstHopsFound at hops ⊢
      rw [same, count] at hops
      exact hops

/-- Before the first source. -/
theorem RowsFound.start
    (sized : Sized az.routerCount az.matrix)
    (linked : az.view.Linked) :
    RowsFound az linked 0 az where
  computed := dijkstraUpTo_rowsComputed sized.bounded (rfl : dijkstraUpTo (fun _ _ _ => 0) az 0 = _)
  sized := sized
  found s none := absurd none (Nat.not_lt_zero s)

theorem dijkstraUpTo_rowsFound
    (sized : Sized az.routerCount az.matrix)
    (linked : az.view.Linked)
    (rows : ∀ i < az.routerCount, az.view.RowInitialised i)
    {ifid : Nat → Nat → Nat → Int}
    (within : k ≤ az.routerCount)
    (computed : dijkstraUpTo ifid az k = .ok result) :
    RowsFound az linked k result := by
  induction k generalizing result with
  | zero =>
      cases computed
      exact .start sized linked
  | succ k inductionHypothesis =>
      rw [dijkstraUpTo_succ] at computed
      obtain ⟨before, earlier, step⟩ := Loops.bind_eq_ok.mp computed
      exact (inductionHypothesis (Nat.le_of_succ_le within) earlier).step
        (rows k within) within step

/-- The first hops to count are those of a row that no source before has written. -/
theorem RowsFound.firstHopsFit_iff
    (rows : RowsFound az linked s result)
    (row : az.view.RowInitialised s)
    (inside : s < az.routerCount) :
    (∀ ifid, ∃ next, dijkstra ifid s result = .ok next) ↔ az.view.FirstHopsFit linked s := by
  have count := rows.computed.routerCount
  obtain ⟨still, same⟩ := rows.computed.network linked
  have sized : Sized result.routerCount result.matrix := by
    rw [count]
    exact rows.sized
  have hops : result.view.rowHops s = az.view.rowHops s := by
    funext j
    unfold Ddc.AreaInfo.rowHops
    have entry : result.view.matrix s j = az.view.matrix s j :=
      congrArg Netnode.view (rows.computed.later s (Nat.le_refl s) j)
    rw [entry]
  rw [dijkstra_ends_iff sized still (rows.computed.row row) (by rw [count]; exact inside)]
  unfold Ddc.AreaInfo.FirstHopsFit
  rw [same, hops]

/-- The answers for later sources do not matter. -/
theorem dijkstraUpTo_congr
    {first second : Nat → Nat → Nat → Int}
    (same : ∀ r < k, first r = second r) :
    dijkstraUpTo first az k = dijkstraUpTo second az k := by
  induction k with
  | zero =>
      rfl
  | succ k inductionHypothesis =>
      rw [dijkstraUpTo_succ, dijkstraUpTo_succ,
        inductionHypothesis fun r within => same r (Nat.lt_succ_of_lt within),
        same k (Nat.lt_succ_self k)]

/-- The computations from all sources end exactly if no array overflows from any. -/
theorem dijkstraUpTo_ends_iff
    (sized : Sized az.routerCount az.matrix)
    (linked : az.view.Linked)
    (rows : ∀ i < az.routerCount, az.view.RowInitialised i)
    (within : k ≤ az.routerCount) :
    (∀ ifid, ∃ result, dijkstraUpTo ifid az k = .ok result) ↔
      ∀ s < k, az.view.FirstHopsFit linked s := by
  induction k with
  | zero =>
      exact iff_of_true (fun _ => ⟨az, rfl⟩) fun s none => absurd none (Nat.not_lt_zero s)
  | succ k inductionHypothesis =>
      have earlierIff := inductionHypothesis (Nat.le_of_succ_le within)
      constructor
      · intro ends
        have earlier (ifid : Nat → Nat → Nat → Int) :
            ∃ result, dijkstraUpTo ifid az k = .ok result := by
          obtain ⟨result, computed⟩ := ends ifid
          rw [dijkstraUpTo_succ] at computed
          obtain ⟨before, reached, -⟩ := Loops.bind_eq_ok.mp computed
          exact ⟨before, reached⟩
        have fits := earlierIff.mp earlier
        intro s inside
        rcases Nat.lt_succ_iff_lt_or_eq.mp inside with before | rfl
        · exact fits s before
        · obtain ⟨result, reached⟩ := earlier fun _ _ _ => 0
          have found := dijkstraUpTo_rowsFound sized linked rows
            (Nat.le_of_succ_le within) reached
          refine (found.firstHopsFit_iff (rows s within) within).mp fun ifid => ?_
          -- The answers of the last source are free, those of the others are fixed.
          obtain ⟨last, computed⟩ := ends fun r => if r = s then ifid else fun _ _ => 0
          rw [dijkstraUpTo_succ, if_pos rfl,
            @dijkstraUpTo_congr az s _ (fun _ _ _ => 0)
              fun r earlier => if_neg (Nat.ne_of_lt earlier),
            reached] at computed
          exact ⟨last, computed⟩
      · intro fits ifid
        obtain ⟨result, reached⟩ :=
          earlierIff.mpr (fun s inside => fits s (Nat.lt_succ_of_lt inside)) ifid
        have found := dijkstraUpTo_rowsFound sized linked rows
          (Nat.le_of_succ_le within) reached
        obtain ⟨last, step⟩ := (found.firstHopsFit_iff (rows k within) within).mpr
          (fits k (Nat.lt_succ_self k)) (ifid k)
        refine ⟨last, ?_⟩
        rw [dijkstraUpTo_succ, reached]
        exact step

end Sources

/-! ## The links of a path -/

/-- The links, by their places, that lead from one router to another, and their metrics. -/
inductive LinkPath (routers : List UInt32) (lslist : List TopoLink) :
    Nat → Nat → List Nat → Nat → Prop where
  | nil {i : Nat} :
      LinkPath routers lslist i i [] 0
  | cons
      {i b j x rest : Nat}
      {links : List Nat}
      {link : TopoLink}
      (listed : lslist[x]? = some link)
      (joins : Joins routers i b link)
      (later : LinkPath routers lslist b j links rest) :
      LinkPath routers lslist i j (x :: links) (link.metric.toNat + rest)

/-- A path between distinct routers is one between routers of the area. -/
theorem LinkPath.inside
    {routers : List UInt32}
    {lslist : List TopoLink}
    {i j cost : Nat}
    {links : List Nat}
    (path : LinkPath routers lslist i j links cost)
    (other : i ≠ j) :
    i < routers.length ∧ j < routers.length := by
  induction path with
  | nil =>
      exact absurd rfl other
  | @cons i b j x rest links link _ joins _ inductionHypothesis =>
      refine ⟨(List.getElem?_eq_some_iff.mp joins.2.1).1, ?_⟩
      by_cases arrived : b = j
      · rw [← arrived]
        exact (List.getElem?_eq_some_iff.mp joins.2.2).1
      · exact (inductionHypothesis arrived).2

section Entries

variable {table : List TopoLink} {areaid : UInt32} {az : AreaInfo}

/-- Where there is no link, the place of the link is -1. -/
theorem initLidbInfo_unlinked
    (initialised : initLidbInfo table areaid = .ok az)
    {a b : Nat}
    (inside : b < az.routerCount)
    (unlinked : (az.matrix a b).link = none) :
    (az.matrix a b).linkIndex = -1 := by
  obtain ⟨-, -, described⟩ := initLidbInfo_describes initialised
  have entry := described a b inside
  cases found : lastWrite az.routers az.lslist.zipIdx a b with
  | none =>
      rw [found] at entry
      rw [show az.matrix a b = noLink from entry]
      rfl
  | some written =>
      rw [found] at entry
      rw [entry.1] at unlinked
      cases unlinked

/-- A near entry has the place and the metric of a link between its routers. -/
theorem initLidbInfo_linked
    (initialised : initLidbInfo table areaid = .ok az)
    (sized : Sized az.routerCount az.matrix)
    {a b : Nat}
    (row : az.view.RowInitialised a)
    (aInside : a < az.routerCount)
    (bInside : b < az.routerCount)
    (linked : (az.matrix a b).link ≠ none)
    (near : (az.matrix a b).metric.toNat < maxMetric) :
    ∃ (x : Nat) (link : TopoLink),
      az.lslist[x]? = some link ∧
        Joins az.routers a b link ∧
        (az.matrix a b).linkIndex = x ∧
        (az.matrix a b).metric = link.metric := by
  obtain ⟨routers, lslist, described⟩ := initLidbInfo_describes initialised
  have entry := described a b bInside
  cases found : lastWrite az.routers az.lslist.zipIdx a b with
  | none =>
      rw [found] at entry
      rw [show az.matrix a b = noLink from entry] at linked
      exact absurd rfl linked
  | some written =>
      obtain ⟨link, x⟩ := written
      rw [found] at entry
      obtain ⟨-, linkIndex, metric, -, hop⟩ := entry
      obtain ⟨listed, writes, -⟩ := lastWrite_zipIdx.mp found
      refine ⟨x, link, listed, ?_, linkIndex, metric⟩
      -- The next hop of a near entry tells that the neighbour was found.
      have hops : (az.matrix a b).hops.map Int.toNat = [b] := row.near b bInside near
      cases listedHops : (az.matrix a b).hops with
      | nil =>
          rw [listedHops] at hops
          cases hops
      | cons head others =>
          rw [listedHops, List.map_cons] at hops
          have isHop : head.toNat = b := (List.cons.inj hops).1
          have nonnegative :=
            (sized.hops a aInside b bInside head (Netnode.mem_of_mem_hops (by
              rw [listedHops]
              exact List.mem_cons_self))).1
          rw [metric] at near
          have target := hop near
          rw [(Netnode.hops_cons listedHops).2] at target
          have isIndex : getIndexByRid az.routers link.nrid = b := by omega
          have nodup := initLidbInfo_nodup initialised
          have source : link.rid ∈ az.routers := by
            rw [routers]
            rw [lslist] at listed
            exact mem_getRouters.mpr ⟨link, List.mem_of_getElem? listed, rfl⟩
          exact writes.joins bInside source
            (List.mem_of_getElem? ((getIndexByRid_eq_iff nodup).mp isIndex))

end Entries

/-- What a walk hands on stands for the links of a shortest path. -/
structure Walked
    (az : AreaInfo)
    (linked : az.view.Linked)
    (a j cost : Nat)
    (linkIndices : List Int)
    (links : List Nat) : Prop where
  path : LinkPath az.routers az.lslist a j links cost
  nodup : links.Nodup
  count : ∀ x : Nat, linkIndices.count (x : Int) = links.count x
  inside : ∀ linkIndex ∈ linkIndices, linkIndex < az.lslist.length
  /-- Every link leaves a router that is no farther from the destination. -/
  nearer :
    ∀ x ∈ links,
      ∃ link v distance,
        az.lslist[x]? = some link ∧
          az.routers[v]? = some link.rid ∧
          Distance (az.view.network linked) v j distance ∧
          distance ≤ cost

section Walks

variable
  {az result : AreaInfo}
  {linked : az.view.Linked}
  {a b j cost rest : Nat}
  {linkIndices : List Int}
  {links : List Nat}

theorem Walked.nil
    (az : AreaInfo)
    (linked : az.view.Linked)
    (j : Nat) :
    Walked az linked j j 0 [] [] where
  path := .nil
  nodup := List.nodup_nil
  count _ := rfl
  inside _ member := absurd member List.not_mem_nil
  nearer _ member := absurd member List.not_mem_nil

/-- An entry of the diagonal. -/
theorem Walked.skip
    (walked : Walked az linked a j cost linkIndices links) :
    Walked az linked a j cost (-1 :: linkIndices) links where
  path := walked.path
  nodup := walked.nodup
  count x := by
    rw [List.count_cons_of_ne (by omega)]
    exact walked.count x
  inside linkIndex member := by
    rcases List.mem_cons.mp member with rfl | later
    · omega
    · exact walked.inside linkIndex later
  nearer := walked.nearer

/-- A link in front of a walk from nearer by. -/
theorem Walked.cons
    (walked : Walked az linked b j rest linkIndices links)
    (nodup : az.routers.Nodup)
    {x : Nat}
    {link : TopoLink}
    (listed : az.lslist[x]? = some link)
    (joins : Joins az.routers a b link)
    (distance : Distance (az.view.network linked) a j (link.metric.toNat + rest))
    (positive : 0 < link.metric.toNat) :
    Walked az linked a j (link.metric.toNat + rest) (x :: linkIndices) (x :: links) where
  path := .cons listed joins walked.path
  nodup := by
    refine List.nodup_cons.mpr ⟨fun again => ?_, walked.nodup⟩
    obtain ⟨other, v, far, listedOther, leaves, distanceOther, near⟩ := walked.nearer x again
    rw [listed] at listedOther
    cases listedOther
    have inside := (List.getElem?_eq_some_iff.mp joins.2.1).1
    have same : a = v := (List.getElem?_inj inside nodup).mp (joins.2.1.trans leaves.symm)
    subst same
    have equal : link.metric.toNat + rest = far := distance.unique distanceOther
    omega
  count y := by
    rw [List.count_cons, List.count_cons, walked.count y]
    congr 1
    by_cases same : x = y
    · rw [same, if_pos (beq_self_eq_true _), if_pos (beq_self_eq_true _)]
    · rw [if_neg fun equal => same (Int.ofNat_inj.mp (eq_of_beq equal)),
        if_neg fun equal => same (eq_of_beq equal)]
  inside linkIndex member := by
    rcases List.mem_cons.mp member with rfl | later
    · exact_mod_cast (List.getElem?_eq_some_iff.mp listed).1
    · exact walked.inside linkIndex later
  nearer y member := by
    rcases List.mem_cons.mp member with rfl | later
    · exact ⟨link, a, _, listed, joins.2.1, distance, Nat.le_refl _⟩
    · obtain ⟨other, v, far, listedOther, leaves, distanceOther, near⟩ := walked.nearer y later
      exact ⟨other, v, far, listedOther, leaves, distanceOther, by omega⟩

/-- From a router the loop goes to the next hop, which it has still to look up there. -/
theorem walk_hop
    (passes : Nat)
    {c : Nat}
    (notThere : c ≠ j)
    (inside : b < az.routerCount) :
    walk az j (passes + 1) c b =
      (walk az j passes b (az.matrix c j).nextHop).map ((az.matrix c b).linkIndex :: ·) := by
  rw [walk, if_pos ⟨notThere, by omega⟩, if_pos (by omega), Int.toNat_natCast]

section Area

variable {table : List TopoLink} {areaid : UInt32}

/-- The next hop on the way to a router that is near, and the link to it. -/
theorem RowsFound.hop
    (found : RowsFound az linked az.routerCount result)
    (initialised : initLidbInfo table areaid = .ok az)
    (rows : ∀ i < az.routerCount, az.view.RowInitialised i)
    (aInside : a < az.routerCount)
    (jInside : j < az.routerCount)
    (other : j ≠ a)
    (distance : Distance (az.view.network linked) a j cost)
    (below : cost < maxMetric) :
    ∃ (b x rest : Nat) (link : TopoLink),
      (result.matrix a j).nextHop = b ∧
        b < az.routerCount ∧
        (result.matrix a b).linkIndex = x ∧
        az.lslist[x]? = some link ∧
        Joins az.routers a b link ∧
        Distance (az.view.network linked) b j rest ∧
        0 < link.metric.toNat ∧
        cost = link.metric.toNat + rest := by
  have row := found.found a aInside aInside
  have near := row.near j jInside other cost distance below
  obtain ⟨-, hops, isHop⟩ := row.hops j jInside other (by omega)
  obtain ⟨b, nextHop, first⟩ := (hops _).mp isHop
  obtain ⟨rest, later, split⟩ := first.rest distance
  obtain ⟨aVertex, bVertex, edge, -⟩ := first
  have bInside : b < az.routerCount := Finset.mem_range.mp bVertex
  have positive : 0 < (az.matrix a b).metric.toNat :=
    (az.view.network linked).positive aVertex bVertex
  change cost = (az.matrix a b).metric.toNat + rest at split
  obtain ⟨x, link, listed, joins, linkIndex, metric⟩ :=
    initLidbInfo_linked initialised (initLidbInfo_sized initialised linked rows)
      (rows a aInside) aInside bInside edge (by omega)
  rw [metric] at positive split
  refine ⟨b, x, rest, link, nextHop, bInside, ?_, listed, joins, later, positive, split⟩
  rw [found.computed.linkIndex, linkIndex]

/--
The walk to a router that is near ends, with the links of one shortest path.  The
induction is on the distance, and each link takes two passes.
-/
theorem RowsFound.walk_ok
    (found : RowsFound az linked az.routerCount result)
    (initialised : initLidbInfo table areaid = .ok az)
    (rows : ∀ i < az.routerCount, az.view.RowInitialised i)
    (aInside : a < az.routerCount)
    (jInside : j < az.routerCount)
    (other : j ≠ a)
    (distance : Distance (az.view.network linked) a j cost)
    (below : cost < maxMetric)
    {fuel : Nat}
    (enough : 2 * cost < fuel) :
    ∃ linkIndices links,
      walk result j fuel a (result.matrix a j).nextHop = .ok linkIndices ∧
        Walked az linked a j cost linkIndices links := by
  induction cost using Nat.strong_induction_on generalizing a fuel with
  | _ cost inductionHypothesis =>
      obtain ⟨b, x, rest, link, nextHop, bInside, linkIndex, listed, joins, later, positive,
        rfl⟩ := found.hop initialised rows aInside jInside other distance below
      have nodup := initLidbInfo_nodup initialised
      have count := found.computed.routerCount
      obtain ⟨fuel, rfl⟩ : ∃ less, fuel = less + 2 := ⟨fuel - 2, by omega⟩
      have bResult : b < result.routerCount := by
        rw [count]
        exact bInside
      rw [nextHop, walk_hop (fuel + 1) other.symm bResult, linkIndex, nextHop]
      by_cases arrived : b = j
      · subst arrived
        have nothing : rest = 0 := Nat.le_zero.mp (later.2 .nil)
        subst nothing
        refine ⟨[(x : Int)], [x], ?_, (Walked.nil az linked b).cons nodup listed joins
          distance positive⟩
        rw [walk, if_neg fun both => both.1 rfl]
        rfl
      · obtain ⟨linkIndices, links, walked, stands⟩ :=
          inductionHypothesis rest (by omega) bInside (fun same => arrived same.symm) later
            (by omega) (by omega : 2 * rest < fuel)
        have unlinked : (result.matrix b b).linkIndex = -1 := by
          rw [found.computed.linkIndex]
          exact initLidbInfo_unlinked initialised bInside (linked.diagonal b bInside).1
        refine ⟨_, _, ?_, stands.skip.cons nodup listed joins distance positive⟩
        rw [walk_hop fuel arrived bResult, walked, unlinked]
        rfl

end Area

end Walks

/-! ## All pairs -/

/-- The path of every pair of distinct routers is on the links of a shortest path. -/
structure PathsRight
    (az : AreaInfo)
    (linked : az.view.Linked)
    (result : AreaInfo)
    (paths : Paths) : Prop where
  counted : paths.Counted
  distinct : (paths.shortpaths.map Netpath.address).Nodup
  recorded :
    ∀ i < az.routerCount,
      ∀ j < az.routerCount,
        i ≠ j →
        (result.matrix i j).pathCost.toNat < maxMetric →
        ∃ path ∈ paths.shortpaths,
          az.routers[i]? = some path.rid ∧ az.routers[j]? = some path.nrid
  links :
    ∀ path ∈ paths.shortpaths,
      ∀ i j,
        az.routers[i]? = some path.rid →
        az.routers[j]? = some path.nrid →
        i ≠ j →
        ∃ links cost,
          LinkPath az.routers az.lslist i j links cost ∧
            IsLeast {cost | ShortestPaths.Walk (az.view.network linked) i j cost} cost ∧
            ∀ x < az.lslist.length,
              paths.timesOn x path.address = if x ∈ links then 1 else 0

section Pairs

variable
  {table : List TopoLink}
  {areaid : UInt32}
  {az result : AreaInfo}
  {linked : az.view.Linked}

/-- The walks of `record_short_path` when all sources are done. -/
theorem RowsFound.walks
    (found : RowsFound az linked az.routerCount result)
    (initialised : initLidbInfo table areaid = .ok az)
    (rows : ∀ i < az.routerCount, az.view.RowInitialised i)
    {cell : Nat × Nat}
    (recorded : cell ∈ recordedCells result (cells result.routerCount)) :
    ∃ linkIndices,
      walk result cell.2 (2 * maxMetric) cell.1 (result.matrix cell.1 cell.2).nextHop =
          .ok linkIndices ∧
        (∀ linkIndex ∈ linkIndices, linkIndex < az.lslist.length) ∧
        (cell.1 ≠ cell.2 →
          ∃ links cost,
            Walked az linked cell.1 cell.2 cost linkIndices links ∧
              Distance (az.view.network linked) cell.1 cell.2 cost) := by
  obtain ⟨i, j⟩ := cell
  obtain ⟨iInside, jInside, near, -⟩ := mem_recordedCells.mp recorded
  have count := found.computed.routerCount
  rw [count] at iInside jInside
  dsimp only at iInside jInside near ⊢
  by_cases same : i = j
  · refine ⟨[], ?_, fun _ member => absurd member List.not_mem_nil, fun other =>
      absurd same other⟩
    unfold maxMetric walk
    rw [if_neg fun both => both.1 same]
  · have distance :=
      (found.found i iInside iInside).distance j jInside (fun equal => same equal.symm) near
    obtain ⟨linkIndices, links, walked, stands⟩ :=
      found.walk_ok initialised rows iInside jInside (fun equal => same equal.symm) distance near
        (by omega : 2 * (result.matrix i j).pathCost.toNat < 2 * maxMetric)
    exact ⟨linkIndices, walked, stands.inside, fun _ => ⟨links, _, stands, distance⟩⟩

/-- The walks of all pairs end. -/
theorem RowsFound.recordShortPath_ends
    (found : RowsFound az linked az.routerCount result)
    (initialised : initLidbInfo table areaid = .ok az)
    (rows : ∀ i < az.routerCount, az.view.RowInitialised i)
    (memory : Memory) :
    ∃ paths,
      recordShortPath (2 * maxMetric) result (startPaths memory az.lslist) = .ok paths := by
  refine Lidb.recordShortPath_ends fun cell inside isRecorded => ?_
  obtain ⟨linkIndices, walked, within, -⟩ := found.walks initialised rows
    (List.mem_filter.mpr ⟨inside, isRecorded⟩)
  exact ⟨linkIndices, walked, by rw [startPaths_length]; exact within⟩

/-- A pair with a path is not passed over, as links have positive metrics. -/
theorem RowsFound.metric_ne_zero
    (found : RowsFound az linked az.routerCount result)
    (iInside : i < az.routerCount)
    (jInside : j < az.routerCount) :
    (result.matrix i j).metric ≠ 0 := by
  intro zero
  rw [found.computed.metric] at zero
  have positive : 0 < (az.matrix i j).metric.toNat :=
    (az.view.network linked).positive (Finset.mem_range.mpr iInside)
      (Finset.mem_range.mpr jInside)
  rw [zero] at positive
  exact absurd positive (Nat.lt_irrefl 0)

/-- What is recorded when all sources are done. -/
theorem RowsFound.pathsRight
    (found : RowsFound az linked az.routerCount result)
    (initialised : initLidbInfo table areaid = .ok az)
    (rows : ∀ i < az.routerCount, az.view.RowInitialised i)
    (memory : Memory) :
    ∃ paths,
      recordShortPath (2 * maxMetric) result (startPaths memory az.lslist) = .ok paths ∧
        PathsRight az linked result paths := by
  have length := startPaths_length memory az.lslist
  obtain ⟨paths, ends⟩ := found.recordShortPath_ends initialised rows memory
  have recorded := recordShortPath_recorded (startPaths_clean memory az.lslist) ends
  have count := found.computed.routerCount
  have routers := found.computed.routers
  have nodupResult : result.routers.Nodup := by
    rw [routers]
    exact initLidbInfo_nodup initialised
  have entries {i : Nat} (inside : i < az.routerCount) :
      az.routers[i]? = some (result.routers.getD i 0) := by
    rw [routers]
    exact routers_getD inside
  refine ⟨paths, ends, ?_⟩
  constructor
  case counted => exact recorded.counted
  case distinct =>
    rw [recorded.shortpaths, List.map_reverse, List.nodup_reverse, netpaths_addresses]
    exact List.nodup_range
  case recorded =>
    intro i iInside j jInside other near
    have member : (i, j) ∈ recordedCells result (cells result.routerCount) :=
      mem_recordedCells.mpr ⟨by rw [count]; exact iInside, by rw [count]; exact jInside, near,
        found.metric_ne_zero iInside jInside⟩
    obtain ⟨address, listed⟩ := List.getElem?_of_mem member
    refine ⟨result.netpath address (i, j), ?_, entries iInside, entries jInside⟩
    rw [recorded.shortpaths, List.mem_reverse]
    exact mem_netpaths.mpr ⟨address, _, listed, rfl⟩
  case links =>
    intro path member i j isSource isTarget other
    rw [recorded.shortpaths, List.mem_reverse] at member
    obtain ⟨address, cell, listed, rfl⟩ := mem_netpaths.mp member
    have isRecorded := List.mem_of_getElem? listed
    obtain ⟨rowInside, columnInside, -⟩ := mem_recordedCells.mp isRecorded
    rw [← routers] at isSource isTarget
    have isPair : cell = (i, j) :=
      (netpath_ends nodupResult rowInside columnInside).mp ⟨isSource, isTarget⟩
    subst isPair
    obtain ⟨linkIndices, walked, -, stands⟩ := found.walks initialised rows isRecorded
    obtain ⟨again, walkedAgain, times⟩ := recorded.walks address (i, j) listed
    rw [walked] at walkedAgain
    cases walkedAgain
    obtain ⟨links, cost, way, distance⟩ := stands other
    refine ⟨links, cost, way.path, distance, fun x xInside => ?_⟩
    change paths.timesOn x address = _
    rw [times x (by rw [length]; exact xInside), way.count, List.Nodup.count way.nodup]

end Pairs

/--
Under the hypotheses of the shortest paths, whatever the queries answer, every
path ends up on the links of one shortest path, exactly if no array of next hops
overflows from any source.
-/
theorem pathsRight_iff
    {table : List TopoLink}
    {areaid : UInt32}
    {az : AreaInfo}
    (initialised : initLidbInfo table areaid = .ok az)
    (linked : az.view.Linked)
    (rows : ∀ i < az.routerCount, az.view.RowInitialised i)
    (memory : Memory) :
    (∀ ifid, ∃ result,
        dijkstraUpTo ifid az az.routerCount = .ok result ∧
          ∃ fuel paths,
            recordShortPath fuel result (startPaths memory az.lslist) = .ok paths ∧
              PathsRight az linked result paths) ↔
      ∀ s < az.routerCount, az.view.FirstHopsFit linked s := by
  have sized := initLidbInfo_sized initialised linked rows
  rw [← dijkstraUpTo_ends_iff sized linked rows (Nat.le_refl _)]
  constructor
  · intro right ifid
    obtain ⟨result, computed, -⟩ := right ifid
    exact ⟨result, computed⟩
  · intro ends ifid
    obtain ⟨result, computed⟩ := ends ifid
    have found := dijkstraUpTo_rowsFound sized linked rows (Nat.le_refl _) computed
    obtain ⟨paths, recorded, right⟩ := found.pathsRight initialised rows memory
    exact ⟨result, computed, _, paths, recorded, right⟩

theorem pathsRight_triangle :
    ∃ (az : AreaInfo) (linked : az.view.Linked),
      initLidbInfo Ddc.triangleLinks 1 = .ok az ∧
        ∀ ifid, ∃ result,
          dijkstraUpTo ifid az az.routerCount = .ok result ∧
            ∃ fuel paths,
              recordShortPath fuel result (startPaths ⟨0, fun _ => ⟨[], 0⟩⟩ az.lslist) = .ok paths ∧
                PathsRight az linked result paths := by
  obtain ⟨az, initialised, view⟩ :=
    initLidbInfo_view (by decide :
      ∀ link ∈ getLinkStates Ddc.triangleLinks 1,
        ¬IsAccess link → link.nrid ∈ getRouters Ddc.triangleLinks 1)
  have isTriangle : az.view = Ddc.triangle := Option.some.inj (view.symm.trans rfl)
  have starts : az.view.Linked ∧ ∀ s, az.view.RowInitialised s := by
    rw [isTriangle]
    exact Ddc.triangle_initialised
  have few : [0, 1, 2].length ≤ Ddc.maxEcmpLimit := by decide
  have neighbours :
      ∀ s < az.view.routerCount,
        ∀ j < az.view.routerCount,
          ∀ hop ∈ (az.view.matrix s j).nexthop, hop ∈ [0, 1, 2] := by
    rw [isTriangle]
    decide
  exact ⟨az, starts.1, initialised,
    (pathsRight_iff initialised starts.1 (fun i _ => starts.2 i) _).mpr fun s inside =>
      Ddc.AreaInfo.firstHopsFit_of_few _ few (neighbours s inside)⟩

/--
The write past the end of an array on the way to router 13 changes the first hop
to router 14 to router 15, from which the way leads back.
-/
theorem detour_not_recorded :
    ∃ (az : AreaInfo) (linked : az.view.Linked),
      initLidbInfo detourLinks 1 = .ok az ∧
        (∀ i, az.view.RowInitialised i) ∧
        ¬∀ ifid, ∃ result,
          dijkstraUpTo ifid az az.routerCount = .ok result ∧
            ∃ fuel paths,
              recordShortPath fuel result (startPaths ⟨0, fun _ => ⟨[], 0⟩⟩ az.lslist) = .ok paths ∧
                PathsRight az linked result paths := by
  obtain ⟨az, initialised, linked, rows, isDetour⟩ := detour_starts
  refine ⟨az, linked, initialised, rows, fun right => ?_⟩
  obtain ⟨result, computed, -⟩ := right fun _ _ i => i + 1
  have inside : 1 ≤ az.routerCount := by
    change 1 ≤ az.view.routerCount
    rw [isDetour]
    decide
  obtain ⟨first, reached⟩ := Loops.foldlM_range_of_le inside computed
  have fails : dijkstraUpTo (fun _ _ i => i + 1) az 1 = .error .nexthopOverrun := by
    rw [dijkstraUpTo_succ]
    exact detour_overruns initialised
  have contradiction := fails.symm.trans reached
  cases contradiction

end Pma.Lidb
