import Pma.DbmCompute
import Pma.ShortestPaths

namespace Pma.Ddc

open Transition

/-!
# The shortest paths of an area

`dijkstra` works on one row of the matrix of an area: the distances, and for
each destination the next hops that tie.  The array for these has
`MAX_ECMP_LIMIT` entries, and the fields of the entry lie behind it, so a write
past it is a fault here.
-/

/-- `MAX_METRIC`, which also says that there is no link. -/
def maxMetric : Nat := 2000

/-- `MAX_INTERFACE`. -/
def maxInterface : Int := 999

/-- `MAX_ECMP_LIMIT`. -/
def maxEcmpLimit : Nat := 4

/-- An entry of the matrix; `nexthop` has the first `nexthop_count` of its array. -/
structure Netnode where
  nextHop : Nat
  nexthop : List Nat
  metric : Nat
  pathCost : Nat
  /-- The place in `lslist`, or -1. -/
  linkIndex : Int
  /-- The pointer into `lslist`, by its place. -/
  link : Option Nat
  deriving Repr, DecidableEq

abbrev Matrix := Nat → Nat → Netnode

/-- The part of `struct area_info` that the computation uses. -/
structure AreaInfo where
  routerCount : Nat
  matrix : Matrix

/-- Write one entry. -/
def Matrix.setNode (matrix : Matrix) (x y : Nat) (node : Netnode) : Matrix :=
  fun row column => if row = x ∧ column = y then node else matrix row column

/-- A write past the end of `nexthop`. -/
inductive DdcFault where
  | nexthopOverrun
  deriving Repr, DecidableEq

/-! ## The matrix -/

/-- An entry before its link is seen. -/
def noLink : Netnode where
  nextHop := 0
  nexthop := []
  metric := maxMetric
  pathCost := 0
  linkIndex := -1
  link := none

/-- `get_index_by_rid`. -/
def getIndexByRid (routers : List UInt32) (rid : UInt32) : Option Nat :=
  routers.findIdx? (· = rid)

/-- What `init_lidb_info` does with a link; the loop skips access links. -/
def addLink
    (routers : List UInt32)
    (matrix : Matrix)
    (entry : TopoLink × Nat) : Option Matrix :=
  let (link, j) := entry
  if link.nrid = 0 ∧ link.nifid = 0 then
    some matrix
  else
    match getIndexByRid routers link.rid, getIndexByRid routers link.nrid with
    | some x, some y =>
        let node := matrix x y
        some (matrix.setNode x y
          { node with
            link := some j
            linkIndex := j
            metric := link.metric.toNat
            pathCost := link.metric.toNat
            nexthop :=
              if link.metric.toNat < maxMetric then [y] else node.nexthop })
    | _, _ => none

/-- `init_lidb_info` for one area, if every link is between routers of the area. -/
def initLidbInfo (routers : List UInt32) (lslist : List TopoLink) : Option AreaInfo :=
  (lslist.zipIdx.foldlM (addLink routers) fun _ _ => noLink).map fun matrix =>
    { routerCount := routers.length, matrix := matrix }

/-! ## Next hops -/

/-- Write the next entry of `nexthop` and count it. -/
def Netnode.push (dst : Netnode) (hop : Nat) : Except DdcFault Netnode :=
  if dst.nexthop.length < maxEcmpLimit then
    .ok { dst with nexthop := dst.nexthop ++ [hop] }
  else
    .error .nexthopOverrun

/--
`nexthop_copy`; that it stops when the count is above the limit is too late to
matter.
-/
def nexthopCopy (w dst : Netnode) : Except DdcFault Netnode :=
  w.nexthop.foldlM Netnode.push { dst with nexthop := [] }

/-- `equal_path_copy`: what is there already is not added again. -/
def equalPathCopy (w dst : Netnode) : Except DdcFault Netnode :=
  w.nexthop.foldlM
    (fun node hop => if hop ∈ dst.nexthop then .ok node else node.push hop) dst

/-! ## The computation -/

/-- The variables of `dijkstra`. -/
structure DijkstraState where
  visite : Nat → Bool
  distance : Nat → Nat
  matrix : Matrix

/-- The variables of `min_cost`. -/
structure MinCost where
  temp : Nat
  minIfindex : Int
  value : Nat
  deriving Repr, DecidableEq

/-- One pass of the loop of `min_cost`; `curIfindex` is what the query answers. -/
def minCostStep
    (state : DijkstraState)
    (curIfindex : Nat → Int)
    (best : MinCost)
    (i : Nat) : MinCost :=
  if state.visite i = false ∧ state.distance i ≤ best.temp ∧ state.distance i ≠ 0 then
    if state.distance i = best.temp then
      if curIfindex i < best.minIfindex then
        ⟨state.distance i, curIfindex i, i⟩
      else
        best
    else
      ⟨state.distance i, curIfindex i, i⟩
  else
    best

/-- `min_cost`. -/
def minCost (total : Nat) (state : DijkstraState) (curIfindex : Nat → Int) : Nat :=
  ((List.range total).foldl (minCostStep state curIfindex)
    ⟨maxMetric - 1, maxInterface, 0⟩).value

/-- One pass of the inner loop of `dijkstra`. -/
def relax
    (s w : Nat)
    (state : DijkstraState)
    (j : Nat) : Except DdcFault DijkstraState :=
  if j = s then
    .ok { state with distance := fun i => if i = j then 0 else state.distance i }
  else if state.visite j = true then
    .ok state
  else
    let sum := state.distance w + (state.matrix w j).metric
    if sum < state.distance j then
      (nexthopCopy (state.matrix s w) (state.matrix s j)).map fun node =>
        { state with
          distance := fun i => if i = j then sum else state.distance i
          matrix := state.matrix.setNode s j node }
    else if sum = state.distance j then
      (equalPathCopy (state.matrix s w) (state.matrix s j)).map fun node =>
        { state with matrix := state.matrix.setNode s j node }
    else
      .ok state

/-- Mark a node. -/
def DijkstraState.visit (state : DijkstraState) (w : Nat) : DijkstraState :=
  { state with visite := fun i => if i = w then true else state.visite i }

/-- One pass of the outer loop, with the answers that its queries get. -/
def iteration
    (total s : Nat)
    (state : DijkstraState)
    (curIfindex : Nat → Int) : Except DdcFault DijkstraState :=
  let w := minCost total state curIfindex
  (List.range total).foldlM (relax s w) (state.visit w)

/-- Before the outer loop. -/
def AreaInfo.start (az : AreaInfo) (s : Nat) : DijkstraState where
  visite := fun _ => false
  distance := fun i => (az.matrix s i).metric
  matrix := az.matrix

/-- The last loop: the distances and a next hop for each destination. -/
def DijkstraState.finish (state : DijkstraState) (total s : Nat) : Matrix :=
  fun row column =>
    let node := state.matrix row column
    if row = s ∧ column < total then
      { node with
        pathCost := state.distance column
        nextHop := node.nexthop.headD s }
    else
      node

/--
The outer loop up to pass `k`; `ifid` has the answers of the queries, by pass and
by node.
-/
def afterPasses
    (ifid : Nat → Nat → Int)
    (s : Nat)
    (az : AreaInfo)
    (k : Nat) : Except DdcFault DijkstraState :=
  ((List.range k).map ifid).foldlM (iteration az.routerCount s) (az.start s)

/-- `dijkstra`. -/
def dijkstra
    (ifid : Nat → Nat → Int)
    (s : Nat)
    (az : AreaInfo) : Except DdcFault AreaInfo :=
  (afterPasses ifid s az az.routerCount).map fun state =>
    { az with matrix := state.finish az.routerCount s }

/-! ## What the next hop functions do -/

namespace Netnode

/-- Both functions change nothing else. -/
def withNexthop (node : Netnode) (nexthop : List Nat) : Netnode :=
  { node with nexthop := nexthop }

/-- Entries are written one after the other as long as there is room. -/
theorem foldlM_push
    {node : Netnode}
    (room : node.nexthop.length ≤ maxEcmpLimit)
    (hops : List Nat) :
    hops.foldlM push node =
      if (node.nexthop ++ hops).length ≤ maxEcmpLimit then
        .ok (node.withNexthop (node.nexthop ++ hops))
      else
        .error .nexthopOverrun := by
  induction hops generalizing node with
  | nil =>
      rw [List.append_nil, if_pos room]
      rfl
  | cons hop rest inductionHypothesis =>
      rw [List.foldlM_cons, push]
      by_cases free : node.nexthop.length < maxEcmpLimit
      · rw [if_pos free]
        change rest.foldlM push (node.withNexthop (node.nexthop ++ [hop])) = _
        rw [inductionHypothesis (by
          change (node.nexthop ++ [hop]).length ≤ maxEcmpLimit
          rw [List.length_append]
          exact free)]
        simp only [withNexthop, List.append_assoc, List.singleton_append]
      · rw [if_neg free, if_neg]
        · rfl
        · rw [List.length_append, List.length_cons]
          omega

end Netnode

/-- The next hops of `dst` and then those of `w` that it does not have. -/
def merged (w dst : Netnode) : List Nat :=
  dst.nexthop ++ w.nexthop.filter (· ∉ dst.nexthop)

theorem nexthopCopy_eq
    {w : Netnode}
    (room : w.nexthop.length ≤ maxEcmpLimit)
    (dst : Netnode) :
    nexthopCopy w dst = .ok (dst.withNexthop w.nexthop) := by
  have empty : (dst.withNexthop []).nexthop.length ≤ maxEcmpLimit := Nat.zero_le _
  change w.nexthop.foldlM Netnode.push (dst.withNexthop []) = _
  rw [Netnode.foldlM_push empty]
  exact if_pos room

theorem equalPathCopy_eq
    (w : Netnode)
    {dst : Netnode}
    (room : dst.nexthop.length ≤ maxEcmpLimit) :
    equalPathCopy w dst =
      if (merged w dst).length ≤ maxEcmpLimit then
        .ok (dst.withNexthop (merged w dst))
      else
        .error .nexthopOverrun := by
  have filtered (hops : List Nat) (node : Netnode) :
      hops.foldlM
          (fun node hop => if hop ∈ dst.nexthop then .ok node else node.push hop)
          node =
        (hops.filter (· ∉ dst.nexthop)).foldlM Netnode.push node := by
    induction hops generalizing node with
    | nil =>
        rfl
    | cons hop rest inductionHypothesis =>
        rw [List.foldlM_cons, List.filter_cons]
        by_cases known : hop ∈ dst.nexthop
        · rw [if_pos known, if_neg (by simpa using known)]
          exact inductionHypothesis node
        · rw [if_neg known, if_pos (by simpa using known), List.foldlM_cons]
          exact bind_congr fun next => inductionHypothesis next
  rw [equalPathCopy, filtered, Netnode.foldlM_push room]
  rfl

/-! ## What `min_cost` selects -/

/-- A node that `min_cost` looks at. -/
def Candidate (state : DijkstraState) (i : Nat) : Prop :=
  state.visite i = false ∧ state.distance i ≠ 0

/-- What the loop has found: the nearest candidate so far, or none that is near. -/
inductive Found
    (state : DijkstraState)
    (seen : Nat) : MinCost → Prop where
  | node
      {best : MinCost}
      (inside : best.value < seen)
      (candidate : Candidate state best.value)
      (temp : best.temp = state.distance best.value)
      (near : best.temp < maxMetric)
      (least : ∀ i < seen, Candidate state i → best.temp ≤ state.distance i) :
      Found state seen best
  | none
      (far : ∀ i < seen, Candidate state i → maxMetric ≤ state.distance i + 1) :
      Found state seen ⟨maxMetric - 1, maxInterface, 0⟩

/-- One pass of the loop. -/
theorem Found.step
    {state : DijkstraState}
    {seen : Nat}
    {best : MinCost}
    (found : Found state seen best)
    (curIfindex : Nat → Int) :
    Found state (seen + 1) (minCostStep state curIfindex best seen) := by
  unfold minCostStep
  by_cases better :
      state.visite seen = false ∧ state.distance seen ≤ best.temp ∧
        state.distance seen ≠ 0
  · obtain ⟨fresh, le, nonzero⟩ := better
    have candidate : Candidate state seen := ⟨fresh, nonzero⟩
    rw [if_pos ⟨fresh, le, nonzero⟩]
    have near : state.distance seen < maxMetric := by
      cases found with
      | node _ _ _ near _ => exact Nat.lt_of_le_of_lt le near
      | none _ => exact Nat.lt_of_le_of_lt le (by decide)
    have least :
        ∀ i < seen + 1, Candidate state i → state.distance seen ≤ state.distance i := by
      intro i inside other
      rcases Nat.lt_succ_iff_lt_or_eq.mp inside with earlier | same
      · cases found with
        | node _ _ _ _ least => exact Nat.le_trans le (least i earlier other)
        | none far =>
            have iFar := far i earlier other
            dsimp only at le
            omega
      · rw [same]
    have taken :
        Found state (seen + 1) ⟨state.distance seen, curIfindex seen, seen⟩ :=
      .node (Nat.lt_succ_self seen) candidate rfl near least
    split
    · rename_i tie
      split
      · exact taken
      · cases found with
        | node inside other temp bestNear _ =>
            exact .node (Nat.lt_succ_of_lt inside) other temp bestNear
              (fun i within candidate => tie ▸ least i within candidate)
        | none far =>
            refine .none fun i within candidate => ?_
            have bound := least i within candidate
            dsimp only at tie
            omega
    · exact taken
  · rw [if_neg better]
    cases found with
    | node inside candidate temp near least =>
        refine .node (Nat.lt_succ_of_lt inside) candidate temp near ?_
        intro i within other
        rcases Nat.lt_succ_iff_lt_or_eq.mp within with earlier | same
        · exact least i earlier other
        · subst same
          by_contra nearer
          exact better ⟨other.1, by omega, other.2⟩
    | none far =>
        refine .none fun i within other => ?_
        rcases Nat.lt_succ_iff_lt_or_eq.mp within with earlier | same
        · exact far i earlier other
        · subst same
          by_contra nearer
          refine better ⟨other.1, ?_, other.2⟩
          dsimp only
          omega

/-- `min_cost` gives a nearest candidate, or node 0 when none is near. -/
theorem minCost_found
    (total : Nat)
    (state : DijkstraState)
    (curIfindex : Nat → Int) :
    Found state total
      ((List.range total).foldl (minCostStep state curIfindex)
        ⟨maxMetric - 1, maxInterface, 0⟩) := by
  induction total with
  | zero =>
      exact .none nofun
  | succ total inductionHypothesis =>
      rw [List.range_succ, List.foldl_append, List.foldl_cons, List.foldl_nil]
      exact inductionHypothesis.step curIfindex

/-- Answers that make `min_cost` take `w` where there is a tie. -/
def favour (w : Nat) : Nat → Int :=
  fun i => if i = w then 0 else maxInterface

/-- With these answers the loop takes `w` if that is a nearest candidate. -/
theorem minCost_favour
    {total w : Nat}
    {state : DijkstraState}
    (inside : w < total)
    (candidate : Candidate state w)
    (near : state.distance w < maxMetric)
    (least : ∀ i < total, Candidate state i → state.distance w ≤ state.distance i) :
    minCost total state (favour w) = w := by
  -- Up to `w` the loop has found nothing that is nearer, and from `w` on it has `w`.
  have loop (seen : Nat) (within : seen ≤ total) :
      let best :=
        (List.range seen).foldl (minCostStep state (favour w))
          ⟨maxMetric - 1, maxInterface, 0⟩
      if w < seen then
        best = ⟨state.distance w, 0, w⟩
      else
        state.distance w ≤ best.temp ∧ best.minIfindex = maxInterface := by
    induction seen with
    | zero =>
        rw [if_neg (Nat.not_lt_zero w)]
        exact ⟨Nat.le_sub_one_of_lt near, rfl⟩
    | succ seen inductionHypothesis =>
        have before := inductionHypothesis (Nat.le_of_succ_le within)
        rw [List.range_succ, List.foldl_append, List.foldl_cons, List.foldl_nil]
        generalize
          (List.range seen).foldl (minCostStep state (favour w))
            ⟨maxMetric - 1, maxInterface, 0⟩ = best at before
        dsimp only at before ⊢
        unfold minCostStep
        rcases Nat.lt_trichotomy w seen with after | now | earlier
        · rw [if_pos after] at before
          rw [if_pos (Nat.lt_succ_of_lt after), before]
          have other : favour w seen = maxInterface := if_neg (Nat.ne_of_gt after)
          split
          · rename_i better
            have tie : state.distance seen = state.distance w :=
              Nat.le_antisymm better.2.1
                (least seen within ⟨better.1, better.2.2⟩)
            have notLess : ¬maxInterface < 0 := by decide
            rw [if_pos tie, other, if_neg notLess]
          · rfl
        · rw [if_neg (by omega)] at before
          rw [if_pos (by omega), ← now, if_pos ⟨candidate.1, before.1, candidate.2⟩]
          have own : favour w w = 0 := if_pos rfl
          split
          · rw [own, before.2, if_pos (by decide)]
          · rw [own]
        · rw [if_neg (by omega)] at before
          rw [if_neg (by omega)]
          have other : favour w seen = maxInterface := if_neg (Nat.ne_of_lt earlier)
          rw [other]
          split
          · rename_i better
            have farther := least seen within ⟨better.1, better.2.2⟩
            split
            · split
              · exact ⟨farther, rfl⟩
              · exact before
            · exact ⟨farther, rfl⟩
          · exact before
  have found := loop total (Nat.le_refl total)
  dsimp only at found
  rw [if_pos inside] at found
  unfold minCost
  rw [found]

/-- With the answers for node 0 the loop takes it also if no candidate is near. -/
theorem minCost_favour_zero
    {total : Nat}
    {state : DijkstraState}
    (far : ∀ i < total, Candidate state i → maxMetric ≤ state.distance i + 1) :
    minCost total state (favour 0) = 0 := by
  have loop (seen : Nat) (within : seen ≤ total) :
      let best :=
        (List.range seen).foldl (minCostStep state (favour 0))
          ⟨maxMetric - 1, maxInterface, 0⟩
      best.value = 0 ∧ best.temp = maxMetric - 1 ∧ best.minIfindex ≤ maxInterface := by
    induction seen with
    | zero =>
        exact ⟨rfl, rfl, Int.le_refl _⟩
    | succ seen inductionHypothesis =>
        have before := inductionHypothesis (Nat.le_of_succ_le within)
        rw [List.range_succ, List.foldl_append, List.foldl_cons, List.foldl_nil]
        generalize
          (List.range seen).foldl (minCostStep state (favour 0))
            ⟨maxMetric - 1, maxInterface, 0⟩ = best at before
        dsimp only at before ⊢
        obtain ⟨value, temp, minIfindex⟩ := before
        unfold minCostStep
        split
        · rename_i better
          have seenFar := far seen within ⟨better.1, better.2.2⟩
          have tie : state.distance seen = best.temp := by omega
          rw [if_pos tie]
          split
          · rename_i smaller
            by_cases zero : seen = 0
            · have least : favour 0 0 ≤ maxInterface := by decide
              exact ⟨zero, tie.trans temp, zero ▸ least⟩
            · have other : favour 0 seen = maxInterface := if_neg zero
              omega
          · exact ⟨value, temp, minIfindex⟩
        · exact ⟨value, temp, minIfindex⟩
  exact (loop total (Nat.le_refl total)).1

/-! ## What a pass of the outer loop does -/

theorem Matrix.setNode_row
    (matrix : Matrix)
    (x y : Nat)
    (node : Netnode)
    (column : Nat) :
    matrix.setNode x y node x column = if column = y then node else matrix x column := by
  simp [setNode]

theorem Matrix.setNode_other
    (matrix : Matrix)
    (x y : Nat)
    (node : Netnode)
    (row column : Nat)
    (other : row ≠ x) :
    matrix.setNode x y node row column = matrix row column :=
  if_neg fun both => other both.1

/-- The labels of the abstract algorithm. -/
def DijkstraState.labels (state : DijkstraState) : ShortestPaths.Labels Nat where
  settled := state.visite
  dist := state.distance

section Relaxing

variable {total s w : Nat} {state mid : DijkstraState}

/-- The distance by way of `w`. -/
def through (s w : Nat) (state : DijkstraState) (j : Nat) : Nat :=
  ShortestPaths.reach s state.labels w + (state.matrix w j).metric

/-- If `j` is as near by way of `w`, its array has room for the next hops of `w`. -/
def HasRoomFor (s w : Nat) (state : DijkstraState) (j : Nat) : Prop :=
  j ≠ s →
  state.visite j = false →
  through s w state j = state.distance j →
  (merged (state.matrix s w) (state.matrix s j)).length ≤ maxEcmpLimit

/-- The distance of `j` behind the pass. -/
def relaxedDistance (s w : Nat) (state : DijkstraState) (j : Nat) : Nat :=
  if j = s then
    0
  else if state.visite j = true then
    state.distance j
  else
    min (state.distance j) (through s w state j)

/-- The next hops of `j` behind the pass. -/
def relaxedNexthop (s w : Nat) (state : DijkstraState) (j : Nat) : List Nat :=
  if j = s ∨ state.visite j = true ∨ state.distance j < through s w state j then
    (state.matrix s j).nexthop
  else if through s w state j < state.distance j then
    (state.matrix s w).nexthop
  else
    merged (state.matrix s w) (state.matrix s j)

/-- A destination whose next hops the pass may change. -/
theorem not_skipped
    {j : Nat}
    (notSource : j ≠ s)
    (isOpen : state.visite j = false)
    (near : through s w state j ≤ state.distance j) :
    ¬(j = s ∨ state.visite j = true ∨ state.distance j < through s w state j) := by
  rintro (same | settled | far)
  · exact notSource same
  · rw [isOpen] at settled
    cases settled
  · omega

/-- The inner loop has come to `k`. -/
structure Relaxed (s w k : Nat) (before after : DijkstraState) : Prop where
  visite : after.visite = before.visite
  distance :
    ∀ j,
      after.distance j =
        if j < k then relaxedDistance s w before j else before.distance j
  row :
    ∀ j,
      after.matrix s j =
        if j < k then
          (before.matrix s j).withNexthop (relaxedNexthop s w before j)
        else
          before.matrix s j
  others : ∀ i j, i ≠ s → after.matrix i j = before.matrix i j

/-- Where a pass may start: `w` is marked, and no array is full beyond its end. -/
structure Marked (total s w : Nat) (state : DijkstraState) : Prop where
  inside : w < total
  visited : state.visite w = true
  source : w = s → s = 0
  room : ∀ j < total, (state.matrix s j).nexthop.length ≤ maxEcmpLimit

theorem Relaxed.zero
    (s w : Nat)
    (state : DijkstraState) :
    Relaxed s w 0 state state where
  visite := rfl
  distance j := (if_neg (Nat.not_lt_zero j)).symm
  row j := (if_neg (Nat.not_lt_zero j)).symm
  others _ _ _ := rfl

/-- The loop reads what was there before the pass. -/
theorem Relaxed.reads
    {k : Nat}
    (marked : Marked total s w state)
    (relaxed : Relaxed s w k state mid)
    (notSource : k ≠ s)
    (open_ : state.visite k = false) :
    mid.distance w + (mid.matrix w k).metric = through s w state k ∧
      (mid.matrix s w).nexthop = (state.matrix s w).nexthop ∧
      mid.distance k = state.distance k ∧
      mid.matrix s k = state.matrix s k := by
  have kOther : k ≠ w := by
    rintro rfl
    rw [marked.visited] at open_
    cases open_
  have rowK : mid.matrix s k = state.matrix s k := by
    rw [relaxed.row k, if_neg (Nat.lt_irrefl k)]
  refine ⟨?_, ?_, ?_, rowK⟩
  · unfold through ShortestPaths.reach
    have metric : (mid.matrix w k).metric = (state.matrix w k).metric := by
      by_cases isSource : w = s
      · rw [isSource, rowK]
      · rw [relaxed.others w k isSource]
    rw [metric, relaxed.distance w]
    by_cases isSource : w = s
    · have earlier : w < k := by
        rw [isSource, marked.source isSource]
        exact Nat.pos_of_ne_zero fun zero => notSource (zero.trans (marked.source isSource).symm)
      rw [if_pos isSource, if_pos earlier, relaxedDistance, if_pos isSource]
    · rw [if_neg isSource, relaxedDistance, if_neg isSource, if_pos marked.visited,
        ite_self]
      rfl
  · rw [relaxed.row w]
    split
    · change relaxedNexthop s w state w = _
      rw [relaxedNexthop, if_pos (.inr (.inl marked.visited))]
    · rfl
  · rw [relaxed.distance k, if_neg (Nat.lt_irrefl k)]

/-- A loop that has written everything before `k` writes the entry at `k`. -/
theorem ite_lt_succ
    {Value : Type}
    (written kept : Nat → Value)
    (j k : Nat) :
    (if j = k then written k else if j < k then written j else kept j) =
      if j < k + 1 then written j else kept j := by
  by_cases same : j = k
  · rw [if_pos same, if_pos (by omega), same]
  · rw [if_neg same]
    by_cases earlier : j < k
    · rw [if_pos earlier, if_pos (by omega)]
    · rw [if_neg earlier, if_neg (by omega)]

/-- The loop comes to the next `j` when its entry was written. -/
theorem Relaxed.next
    {k : Nat}
    {after : DijkstraState}
    (relaxed : Relaxed s w k state mid)
    (visite : after.visite = mid.visite)
    (distance :
      ∀ j,
        after.distance j =
          if j = k then relaxedDistance s w state k else mid.distance j)
    (row :
      ∀ j,
        after.matrix s j =
          if j = k then
            (state.matrix s k).withNexthop (relaxedNexthop s w state k)
          else
            mid.matrix s j)
    (others : ∀ i j, i ≠ s → after.matrix i j = mid.matrix i j) :
    Relaxed s w (k + 1) state after where
  visite := visite.trans relaxed.visite
  distance j := by
    rw [distance j, relaxed.distance j]
    exact ite_lt_succ (relaxedDistance s w state) state.distance j k
  row j := by
    rw [row j, relaxed.row j]
    exact ite_lt_succ
      (fun j => (state.matrix s j).withNexthop (relaxedNexthop s w state j))
      (state.matrix s) j k
  others i j other := (others i j other).trans (relaxed.others i j other)

/-- An entry that the pass leaves alone is as it was. -/
theorem Relaxed.row_kept
    {k : Nat}
    (relaxed : Relaxed s w k state mid)
    (kept : relaxedNexthop s w state k = (state.matrix s k).nexthop)
    (j : Nat) :
    mid.matrix s j =
      if j = k then
        (state.matrix s k).withNexthop (relaxedNexthop s w state k)
      else
        mid.matrix s j := by
  split
  · rename_i same
    rw [same, relaxed.row k, if_neg (Nat.lt_irrefl k), kept]
    rfl
  · rfl

/-- So is a distance. -/
theorem Relaxed.distance_kept
    {k : Nat}
    (relaxed : Relaxed s w k state mid)
    (kept : relaxedDistance s w state k = state.distance k)
    (j : Nat) :
    mid.distance j =
      if j = k then relaxedDistance s w state k else mid.distance j := by
  split
  · rename_i same
    rw [same, relaxed.distance k, if_neg (Nat.lt_irrefl k), kept]
  · rfl

/-- The source and what is marked are passed over. -/
theorem Relaxed.relax_skipped
    {k : Nat}
    (relaxed : Relaxed s w k state mid)
    (skipped : k = s ∨ state.visite k = true) :
    ∃ after, Ddc.relax s w mid k = .ok after ∧ Relaxed s w (k + 1) state after := by
  have hops : relaxedNexthop s w state k = (state.matrix s k).nexthop := by
    rw [relaxedNexthop, if_pos (skipped.imp_right .inl)]
  unfold Ddc.relax
  by_cases isSource : k = s
  · rw [if_pos isSource]
    refine ⟨_, rfl, relaxed.next rfl (fun j => ?_) (relaxed.row_kept hops) fun _ _ _ => rfl⟩
    rw [relaxedDistance, if_pos isSource]
  · have visited : state.visite k = true := skipped.resolve_left isSource
    rw [if_neg isSource, relaxed.visite, if_pos visited]
    have distance : relaxedDistance s w state k = state.distance k := by
      rw [relaxedDistance, if_neg isSource, if_pos visited]
    exact ⟨mid, rfl, relaxed.next rfl (relaxed.distance_kept distance)
      (relaxed.row_kept hops) fun _ _ _ => rfl⟩

section OpenDestination

variable
  {k : Nat}
  (marked : Marked total s w state)
  (relaxed : Relaxed s w k state mid)
  (notSource : k ≠ s)
  (isOpen : state.visite k = false)

include marked relaxed notSource isOpen

/-- For any other destination, the pass compares what was there before it. -/
theorem Relaxed.relax_open :
    Ddc.relax s w mid k =
      if through s w state k < state.distance k then
        (nexthopCopy (mid.matrix s w) (state.matrix s k)).map fun node =>
          { mid with
            distance := fun i => if i = k then through s w state k else mid.distance i
            matrix := mid.matrix.setNode s k node }
      else if through s w state k = state.distance k then
        (equalPathCopy (mid.matrix s w) (state.matrix s k)).map fun node =>
          { mid with matrix := mid.matrix.setNode s k node }
      else
        .ok mid := by
  obtain ⟨sum, -, distance, node⟩ := relaxed.reads marked notSource isOpen
  unfold Ddc.relax
  rw [if_neg notSource, relaxed.visite, isOpen, if_neg Bool.false_ne_true]
  dsimp only
  rw [sum, distance, node]

omit marked relaxed in
theorem relaxedDistance_open :
    relaxedDistance s w state k = min (state.distance k) (through s w state k) := by
  rw [relaxedDistance, if_neg notSource, isOpen, if_neg Bool.false_ne_true]

theorem Relaxed.relax_nearer
    (nearer : through s w state k < state.distance k) :
    ∃ after, Ddc.relax s w mid k = .ok after ∧ Relaxed s w (k + 1) state after := by
  obtain ⟨-, hops, -, -⟩ := relaxed.reads marked notSource isOpen
  have room : (mid.matrix s w).nexthop.length ≤ maxEcmpLimit := by
    rw [hops]
    exact marked.room w marked.inside
  have taken : relaxedNexthop s w state k = (state.matrix s w).nexthop := by
    rw [relaxedNexthop, if_neg (not_skipped notSource isOpen (Nat.le_of_lt nearer)),
      if_pos nearer]
  rw [relaxed.relax_open marked notSource isOpen, if_pos nearer, nexthopCopy_eq room]
  refine ⟨_, rfl, relaxed.next rfl ?_ ?_ ?_⟩
  · intro j
    rw [relaxedDistance_open notSource isOpen, Nat.min_eq_right (Nat.le_of_lt nearer)]
  · rw [taken, ← hops]
    exact Matrix.setNode_row _ _ _ _
  · exact Matrix.setNode_other _ _ _ _

theorem Relaxed.relax_tie
    (within : k < total)
    (tie : through s w state k = state.distance k) :
    ((merged (state.matrix s w) (state.matrix s k)).length ≤ maxEcmpLimit →
      ∃ after, Ddc.relax s w mid k = .ok after ∧ Relaxed s w (k + 1) state after) ∧
    (¬(merged (state.matrix s w) (state.matrix s k)).length ≤ maxEcmpLimit →
      Ddc.relax s w mid k = .error .nexthopOverrun) := by
  obtain ⟨-, hops, -, -⟩ := relaxed.reads marked notSource isOpen
  have mergedIs :
      merged (mid.matrix s w) (state.matrix s k) =
        merged (state.matrix s w) (state.matrix s k) := by
    unfold merged
    rw [hops]
  have distance : relaxedDistance s w state k = state.distance k := by
    rw [relaxedDistance_open notSource isOpen, tie, Nat.min_self]
  have taken :
      relaxedNexthop s w state k = merged (state.matrix s w) (state.matrix s k) := by
    rw [relaxedNexthop, if_neg (not_skipped notSource isOpen (Nat.le_of_eq tie)),
      if_neg (by omega)]
  rw [relaxed.relax_open marked notSource isOpen, if_neg (by omega), if_pos tie,
    equalPathCopy_eq _ (marked.room k within), mergedIs]
  constructor
  · intro room
    rw [if_pos room]
    refine ⟨_, rfl, relaxed.next rfl (relaxed.distance_kept distance) ?_ ?_⟩
    · rw [taken]
      exact Matrix.setNode_row _ _ _ _
    · exact Matrix.setNode_other _ _ _ _
  · intro full
    rw [if_neg full]
    rfl

theorem Relaxed.relax_farther
    (farther : state.distance k < through s w state k) :
    ∃ after, Ddc.relax s w mid k = .ok after ∧ Relaxed s w (k + 1) state after := by
  have distance : relaxedDistance s w state k = state.distance k := by
    rw [relaxedDistance_open notSource isOpen, Nat.min_eq_left (Nat.le_of_lt farther)]
  have hops : relaxedNexthop s w state k = (state.matrix s k).nexthop := by
    rw [relaxedNexthop, if_pos (.inr (.inr farther))]
  rw [relaxed.relax_open marked notSource isOpen, if_neg (by omega), if_neg (by omega)]
  exact ⟨mid, rfl, relaxed.next rfl (relaxed.distance_kept distance)
    (relaxed.row_kept hops) fun _ _ _ => rfl⟩

end OpenDestination

/-- One pass of the inner loop goes on exactly when there is room. -/
theorem Relaxed.relax
    {k : Nat}
    (marked : Marked total s w state)
    (relaxed : Relaxed s w k state mid)
    (within : k < total) :
    (HasRoomFor s w state k →
      ∃ after, relax s w mid k = .ok after ∧ Relaxed s w (k + 1) state after) ∧
    (¬HasRoomFor s w state k → relax s w mid k = .error .nexthopOverrun) := by
  by_cases skipped : k = s ∨ state.visite k = true
  · refine ⟨fun _ => relaxed.relax_skipped skipped, fun full => absurd ?_ full⟩
    intro notSource isOpen
    rcases skipped with isSource | visited
    · exact absurd isSource notSource
    · rw [isOpen] at visited
      cases visited
  · rw [not_or] at skipped
    obtain ⟨notSource, notVisited⟩ := skipped
    have isOpen : state.visite k = false := Bool.eq_false_of_not_eq_true notVisited
    rcases Nat.lt_trichotomy (through s w state k) (state.distance k) with
      nearer | tie | farther
    · refine ⟨fun _ => relaxed.relax_nearer marked notSource isOpen nearer,
        fun full => absurd (fun _ _ tie => ?_) full⟩
      omega
    · obtain ⟨goesOn, stops⟩ := relaxed.relax_tie marked notSource isOpen within tie
      exact ⟨fun room => goesOn (room notSource isOpen tie),
        fun full => stops fun room => full fun _ _ _ => room⟩
    · refine ⟨fun _ => relaxed.relax_farther marked notSource isOpen farther,
        fun full => absurd (fun _ _ tie => ?_) full⟩
      omega

/-- The inner loop comes to its end exactly when there is room all the time. -/
theorem Marked.relaxed
    (marked : Marked total s w state)
    {k : Nat}
    (within : k ≤ total) :
    ((∀ j < k, HasRoomFor s w state j) →
      ∃ after,
        (List.range k).foldlM (Ddc.relax s w) state = .ok after ∧
          Relaxed s w k state after) ∧
    ((¬∀ j < k, HasRoomFor s w state j) →
      (List.range k).foldlM (Ddc.relax s w) state = .error .nexthopOverrun) := by
  induction k with
  | zero =>
      exact ⟨fun _ => ⟨state, rfl, .zero s w state⟩, fun full => absurd nofun full⟩
  | succ k inductionHypothesis =>
      obtain ⟨goesOn, stops⟩ := inductionHypothesis (Nat.le_of_succ_le within)
      rw [List.range_succ, List.foldlM_append]
      by_cases room : ∀ j < k, HasRoomFor s w state j
      · obtain ⟨mid, reached, relaxed⟩ := goesOn room
        obtain ⟨next, full⟩ := relaxed.relax marked within
        rw [reached]
        change (_ → ∃ after, [k].foldlM (Ddc.relax s w) mid = .ok after ∧ _) ∧
          (_ → [k].foldlM (Ddc.relax s w) mid = _)
        rw [List.foldlM_cons]
        constructor
        · intro roomForAll
          obtain ⟨after, step, relaxedNext⟩ := next (roomForAll k (Nat.lt_succ_self k))
          rw [step]
          exact ⟨after, rfl, relaxedNext⟩
        · intro notAll
          rw [full]
          · rfl
          · intro roomForK
            refine notAll fun j within => ?_
            rcases Nat.lt_succ_iff_lt_or_eq.mp within with earlier | same
            · exact room j earlier
            · exact same ▸ roomForK
      · rw [stops room]
        exact ⟨fun all => absurd (fun j earlier => all j (Nat.lt_succ_of_lt earlier)) room,
          fun _ => rfl⟩

end Relaxing

/-! ## What the outer loop keeps -/

/-- The metrics and links of a matrix, wherever they come from. -/
structure AreaInfo.Linked (az : AreaInfo) : Prop where
  diagonal :
    ∀ i < az.routerCount,
      (az.matrix i i).link = none ∧ (az.matrix i i).metric = maxMetric
  others :
    ∀ i < az.routerCount,
      ∀ j < az.routerCount,
        i ≠ j →
        ((az.matrix i j).link = none ∧ (az.matrix i j).metric = maxMetric) ∨
          ((az.matrix i j).link ≠ none ∧
            1 ≤ (az.matrix i j).metric ∧
            (az.matrix i j).metric ≤ 65535)

/-- The next hops of a row as `init_lidb_info` leaves them. -/
structure AreaInfo.RowInitialised (az : AreaInfo) (s : Nat) : Prop where
  noLink :
    ∀ j < az.routerCount, (az.matrix s j).link = none → (az.matrix s j).nexthop = []
  near :
    ∀ j < az.routerCount,
      (az.matrix s j).metric < maxMetric →
      (az.matrix s j).nexthop = [j]
  -- Of two links between the same routers the first may have been near.
  far :
    ∀ j < az.routerCount,
      (az.matrix s j).nexthop = [] ∨ (az.matrix s j).nexthop = [j]

/-- What `init_lidb_info` makes of the entry from `i` to `j`. -/
inductive EntryInitialised (i j : Nat) (node : Netnode) : Prop where
  | absent
      (link : node.link = none)
      (metric : node.metric = maxMetric)
      (nexthop : node.nexthop = [])
  | linked
      (other : i ≠ j)
      (link : node.link ≠ none)
      (least : 1 ≤ node.metric)
      (most : node.metric ≤ 65535)
      (near : node.metric < maxMetric → node.nexthop = [j])
      (nexthop : node.nexthop = [] ∨ node.nexthop = [j])

theorem EntryInitialised.nexthop_cases
    {i j : Nat}
    {node : Netnode}
    (entry : EntryInitialised i j node) :
    node.nexthop = [] ∨ node.nexthop = [j] := by
  cases entry with
  | absent _ _ nexthop => exact .inl nexthop
  | linked _ _ _ _ _ nexthop => exact nexthop

/-- A link of the topology as the routers advertise it. -/
def Advertised (link : TopoLink) : Prop :=
  link.rid ≠ link.nrid ∧ 1 ≤ link.metric.toNat ∧ link.metric.toNat ≤ 65535

/-- The index that is found is that of the router. -/
theorem getIndexByRid_eq
    {routers : List UInt32}
    {rid : UInt32}
    {x : Nat}
    (found : getIndexByRid routers rid = some x) :
    routers[x]? = some rid := by
  obtain ⟨inside, same, -⟩ := List.findIdx?_eq_some_iff_getElem.mp found
  rw [List.getElem?_eq_getElem inside, of_decide_eq_true same]

theorem addLink_entries
    {routers : List UInt32}
    {matrix next : Matrix}
    {entry : TopoLink × Nat}
    (added : addLink routers matrix entry = some next)
    (advertised : entry.1.nrid = 0 ∧ entry.1.nifid = 0 ∨ Advertised entry.1)
    (entries : ∀ i j, EntryInitialised i j (matrix i j)) :
    ∀ i j, EntryInitialised i j (next i j) := by
  obtain ⟨link, index⟩ := entry
  unfold addLink at added
  dsimp only at added advertised
  split at added
  · cases added
    exact entries
  · rename_i backbone
    obtain ⟨different, least, most⟩ := advertised.resolve_left backbone
    split at added
    · rename_i x y foundX foundY
      cases added
      intro i j
      unfold Matrix.setNode
      split
      · rename_i same
        obtain ⟨rfl, rfl⟩ := same
        have other : i ≠ j := by
          rintro rfl
          have sameRid :=
            (getIndexByRid_eq foundX).symm.trans (getIndexByRid_eq foundY)
          exact different (Option.some.inj sameRid)
        refine .linked other (Option.some_ne_none _) least most (fun near => if_pos near) ?_
        dsimp only
        split
        · exact .inr rfl
        · exact (entries i j).nexthop_cases
      · exact entries i j
    · cases added

theorem foldlM_addLink_entries
    {routers : List UInt32}
    {matrix last : Matrix}
    {entries : List (TopoLink × Nat)}
    (added : entries.foldlM (addLink routers) matrix = some last)
    (advertised :
      ∀ entry ∈ entries,
        entry.1.nrid = 0 ∧ entry.1.nifid = 0 ∨ Advertised entry.1)
    (before : ∀ i j, EntryInitialised i j (matrix i j)) :
    ∀ i j, EntryInitialised i j (last i j) := by
  induction entries generalizing matrix with
  | nil =>
      cases added
      exact before
  | cons entry rest inductionHypothesis =>
      rw [List.foldlM_cons] at added
      obtain ⟨next, first, later⟩ := Option.bind_eq_some_iff.mp added
      rw [List.forall_mem_cons] at advertised
      exact inductionHypothesis later advertised.2
        (addLink_entries first advertised.1 before)

/-- The matrix of `init_lidb_info` is one that the computation may start with. -/
theorem initLidbInfo_initialised
    {routers : List UInt32}
    {lslist : List TopoLink}
    {az : AreaInfo}
    (initialised : initLidbInfo routers lslist = some az)
    (advertised :
      ∀ link ∈ lslist, link.nrid = 0 ∧ link.nifid = 0 ∨ Advertised link) :
    az.Linked ∧ ∀ s, az.RowInitialised s := by
  obtain ⟨matrix, added, rfl⟩ := Option.map_eq_some_iff.mp initialised
  have entries : ∀ i j, EntryInitialised i j (matrix i j) := by
    refine foldlM_addLink_entries added ?_ fun _ _ => .absent rfl rfl rfl
    rintro ⟨link, index⟩ member
    exact advertised link (List.fst_mem_of_mem_zipIdx member)
  refine ⟨⟨?_, ?_⟩, fun s => ⟨?_, ?_, ?_⟩⟩
  · intro i _
    cases entries i i with
    | absent link metric _ => exact ⟨link, metric⟩
    | linked other => exact absurd rfl other
  · intro i _ j _ _
    cases entries i j with
    | absent link metric _ => exact .inl ⟨link, metric⟩
    | linked _ link least most _ _ => exact .inr ⟨link, least, most⟩
  · intro j _ none
    cases entries s j with
    | absent _ _ nexthop => exact nexthop
    | linked _ link => exact absurd none link
  · intro j _ near
    cases entries s j with
    | absent _ metric _ => exact absurd near (Nat.not_lt_of_le (Nat.le_of_eq metric.symm))
    | linked _ _ _ _ nexthop _ => exact nexthop near
  · exact fun j _ => (entries s j).nexthop_cases

/-- The links of an area, with `MAX_METRIC` where there is none. -/
def AreaInfo.network
    (az : AreaInfo)
    (linked : az.Linked) : ShortestPaths.Network Nat where
  vertices := Finset.range az.routerCount
  edge i j := (az.matrix i j).link ≠ none
  weight i j := (az.matrix i j).metric
  limit := maxMetric
  positive := by
    intro i j iInside jInside
    rw [Finset.mem_range] at iInside jInside
    have least : 0 < maxMetric := by decide
    by_cases same : i = j
    · rw [← same, (linked.diagonal i iInside).2]
      exact least
    · rcases linked.others i iInside j jInside same with ⟨-, metric⟩ | ⟨-, metric, -⟩
      · rw [metric]
        exact least
      · exact metric
  absent := by
    intro i j iInside jInside none
    rw [Finset.mem_range] at iInside jInside
    by_cases same : i = j
    · rw [← same, (linked.diagonal i iInside).2]
    · rcases linked.others i iInside j jInside same with ⟨-, metric⟩ | ⟨link, -⟩
      · rw [metric]
      · exact absurd link none

section Outer

variable {az : AreaInfo} {s : Nat} {state after : DijkstraState}

/-- What the outer loop keeps. -/
structure Kept (az : AreaInfo) (s : Nat) (state : DijkstraState) : Prop where
  fields :
    ∀ i j,
      state.matrix i j = (az.matrix i j).withNexthop (state.matrix i j).nexthop
  others : ∀ i j, i ≠ s → state.matrix i j = az.matrix i j
  room : ∀ j < az.routerCount, (state.matrix s j).nexthop.length ≤ maxEcmpLimit
  positive : ∀ j < az.routerCount, j ≠ s → state.distance j ≠ 0
  source : state.distance s = 0 ∨ maxMetric ≤ state.distance s

/-- The metrics do not change. -/
theorem Kept.metric
    (kept : Kept az s state)
    (i j : Nat) :
    (state.matrix i j).metric = (az.matrix i j).metric := by
  rw [kept.fields i j]
  rfl

/-- The distance by way of a node does not depend on its mark. -/
theorem Kept.through_visit
    (kept : Kept az s state)
    (w j : Nat) :
    through s w (state.visit w) j =
      ShortestPaths.reach s state.labels w + (az.matrix w j).metric := by
  rw [← kept.metric w j]
  rfl

/-- In a pass of the outer loop, every array has room for the next hops that tie. -/
def HasRoom
    (total s : Nat)
    (state : DijkstraState)
    (curIfindex : Nat → Int) : Prop :=
  let w := minCost total state curIfindex
  ∀ j < total, HasRoomFor s w (state.visit w) j

/-- `min_cost` selects a node of the area that the abstract algorithm may settle. -/
theorem Kept.minCost
    (kept : Kept az s state)
    (linked : az.Linked)
    (inside : s < az.routerCount)
    (curIfindex : Nat → Int) :
    let w := Ddc.minCost az.routerCount state curIfindex
    w < az.routerCount ∧
      (w = s → s = 0) ∧
      (ShortestPaths.Nearest (az.network linked) s state.labels w ∨
        ShortestPaths.Exhausted (az.network linked) s state.labels ∧ w = 0) := by
  have found := minCost_found az.routerCount state curIfindex
  have candidate {j : Nat} (isOpen : ShortestPaths.Open (az.network linked) s state.labels j) :
      j < az.routerCount ∧ Candidate state j := by
    have jInside := Finset.mem_range.mp isOpen.1
    exact ⟨jInside, isOpen.2.2, kept.positive j jInside isOpen.2.1⟩
  unfold Ddc.minCost
  generalize
    (List.range az.routerCount).foldl (minCostStep state curIfindex)
      ⟨maxMetric - 1, maxInterface, 0⟩ = best at found
  cases found with
  | node within chosen temp near least =>
      have notSource : best.value ≠ s := by
        intro same
        rcases kept.source with zero | far
        · exact chosen.2 (same ▸ zero)
        · rw [temp, same] at near
          omega
      refine ⟨within, fun same => absurd same notSource, .inl ⟨?_, ?_, ?_⟩⟩
      · exact ⟨Finset.mem_range.mpr within, notSource, chosen.1⟩
      · change state.distance best.value < maxMetric
        rwa [← temp]
      · intro other isOpen
        have otherCandidate := candidate isOpen
        change state.distance best.value ≤ state.distance other
        rw [← temp]
        exact least other otherCandidate.1 otherCandidate.2
  | none far =>
      refine ⟨Nat.zero_lt_of_lt inside, Eq.symm, .inr ⟨fun other isOpen => ?_, rfl⟩⟩
      have otherCandidate := candidate isOpen
      exact far other otherCandidate.1 otherCandidate.2

/-- What the inner loop leaves as the distance of a node. -/
theorem Relaxed.distance_eq
    {total w j : Nat}
    (relaxed : Relaxed s w total state after)
    (inside : j < total) :
    after.distance j = relaxedDistance s w state j := by
  rw [relaxed.distance j, if_pos inside]

/-- The inner loop keeps what the outer loop keeps, if it had room. -/
theorem Kept.relaxed
    (kept : Kept az s state)
    (linked : az.Linked)
    (inside : s < az.routerCount)
    {w : Nat}
    (wInside : w < az.routerCount)
    (room : ∀ j < az.routerCount, HasRoomFor s w (state.visit w) j)
    (relaxed : Relaxed s w az.routerCount (state.visit w) after) :
    Kept az s after where
  fields i j := by
    by_cases isSource : i = s
    · subst isSource
      rw [relaxed.row j]
      split
      · change (state.matrix i j).withNexthop _ = _
        rw [kept.fields i j]
        rfl
      · exact kept.fields i j
    · rw [relaxed.others i j isSource]
      exact kept.fields i j
  others i j other := by
    rw [relaxed.others i j other]
    exact kept.others i j other
  room j jInside := by
    rw [relaxed.row j, if_pos jInside]
    change (relaxedNexthop s w (state.visit w) j).length ≤ maxEcmpLimit
    unfold relaxedNexthop
    split
    · exact kept.room j jInside
    · rename_i open_
      rw [not_or, not_or] at open_
      split
      · exact kept.room w wInside
      · exact room j jInside open_.1 (Bool.eq_false_of_not_eq_true open_.2.1)
          (by omega)
  positive j jInside notSource := by
    have before := kept.positive j jInside notSource
    have metric : 0 < (az.matrix w j).metric :=
      (az.network linked).positive (Finset.mem_range.mpr wInside)
        (Finset.mem_range.mpr jInside)
    rw [relaxed.distance_eq jInside, relaxedDistance, if_neg notSource]
    split
    · exact before
    · rw [kept.through_visit w j]
      change min (state.distance j) _ ≠ 0
      omega
  source := by
    rw [relaxed.distance_eq inside, relaxedDistance, if_pos rfl]
    exact .inl rfl

/-- The inner loop does to the labels what the abstract algorithm does. -/
theorem Kept.settles
    (kept : Kept az s state)
    (linked : az.Linked)
    {w : Nat}
    (wInside : w < az.routerCount)
    (selected :
      ShortestPaths.Nearest (az.network linked) s state.labels w ∨
        ShortestPaths.Exhausted (az.network linked) s state.labels)
    (relaxed : Relaxed s w az.routerCount (state.visit w) after) :
    ShortestPaths.Settles (az.network linked) s state.labels w after.labels where
  inside := Finset.mem_range.mpr wInside
  selected := selected
  settled j := by
    change after.visite j = true ↔ state.visite j = true ∨ j = w
    rw [relaxed.visite]
    change (if j = w then true else state.visite j) = true ↔ _
    by_cases same : j = w
    · rw [if_pos same]
      exact iff_of_true rfl (.inr same)
    · rw [if_neg same, or_iff_left same]
  dist j jInside notSource := by
    change after.distance j = if after.visite j = true then _ else _
    rw [relaxed.distance_eq (Finset.mem_range.mp jInside), relaxedDistance,
      if_neg notSource, relaxed.visite, kept.through_visit w j]
    rfl

/-- One pass of the outer loop goes on exactly when there is room, and settles a node. -/
theorem Kept.iteration
    (kept : Kept az s state)
    (linked : az.Linked)
    (inside : s < az.routerCount)
    (curIfindex : Nat → Int) :
    (HasRoom az.routerCount s state curIfindex →
      ∃ after,
        iteration az.routerCount s state curIfindex = .ok after ∧
          Kept az s after ∧
          after.distance s = 0 ∧
          ShortestPaths.Settles (az.network linked) s state.labels
            (Ddc.minCost az.routerCount state curIfindex) after.labels ∧
          Relaxed s (Ddc.minCost az.routerCount state curIfindex) az.routerCount
            (state.visit (Ddc.minCost az.routerCount state curIfindex)) after) ∧
    (¬HasRoom az.routerCount s state curIfindex →
      iteration az.routerCount s state curIfindex = .error .nexthopOverrun) := by
  obtain ⟨wInside, source, selected⟩ := kept.minCost linked inside curIfindex
  unfold Ddc.iteration HasRoom
  dsimp only
  generalize Ddc.minCost az.routerCount state curIfindex = w at wInside source selected
  have marked : Marked az.routerCount s w (state.visit w) := {
    inside := wInside
    visited := if_pos rfl
    source := source
    room := kept.room }
  obtain ⟨goesOn, stops⟩ := marked.relaxed (Nat.le_refl az.routerCount)
  refine ⟨fun room => ?_, stops⟩
  obtain ⟨after, reached, relaxed⟩ := goesOn room
  have sourceZero : after.distance s = 0 := by
    rw [relaxed.distance_eq inside, relaxedDistance, if_pos rfl]
  exact ⟨after, reached, kept.relaxed linked inside wInside room relaxed, sourceZero,
    kept.settles linked wInside (selected.imp_right And.left) relaxed, relaxed⟩

end Outer

end Pma.Ddc
