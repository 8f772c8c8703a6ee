import Pma.LidbEcmp
import Pma.LidbMatrix
import Pma.Truncation

namespace Pma.Lidb

open Ddc (maxMetric maxEcmpLimit DdcFault)

/-!
# The computation with small metrics

Where no metric is above 65535 and every next hop is a router of the area, the
computation in memory is the one over natural numbers and lists.  No sum wraps,
and the two stop at the same write.
-/

/-! ## What the memory stands for -/

/-- An entry, with the next hops that count. -/
def Netnode.view (node : Netnode) : Ddc.Netnode where
  nextHop := node.nextHop.toNat
  nexthop := node.hops.map Int.toNat
  metric := node.metric.toNat
  pathCost := node.pathCost.toNat
  linkIndex := node.linkIndex
  link := node.link

/-- A matrix. -/
def Matrix.view (matrix : Matrix) : Ddc.Matrix :=
  fun i j => (matrix i j).view

/-- An area. -/
def AreaInfo.view (az : AreaInfo) : Ddc.AreaInfo where
  routerCount := az.routerCount
  matrix := az.matrix.view

/-- The variables of `dijkstra`. -/
def DijkstraState.view (state : DijkstraState) : Ddc.DijkstraState where
  visite := state.visite
  distance := fun i => (state.distance i).toNatClampNeg
  matrix := state.matrix.view

/-- A matrix whose metrics are small and whose next hops are routers of the area. -/
structure Sized (total : Nat) (matrix : Matrix) : Prop where
  bounded : Bounded matrix
  hops :
    ∀ i < total,
      ∀ j < total,
        ∀ hop ∈ (matrix i j).nexthop.toList,
          0 ≤ hop ∧ hop < total
  metric : ∀ i j, (matrix i j).metric.toNat ≤ 65535

/-- The variables of `dijkstra` are as small. -/
structure Small (total : Nat) (state : DijkstraState) : Prop where
  sized : Sized total state.matrix
  distance :
    ∀ j < total, 0 ≤ (state.distance j).toInt ∧ (state.distance j).toInt ≤ 65535

/-- A small state and what it stands for. -/
def Stands (total : Nat) (state : DijkstraState) (abstract : Ddc.DijkstraState) : Prop :=
  Small total state ∧ state.view = abstract

/-- The write past the end of `nexthop` is the fault that both have. -/
def SameFault (fault : Fault) (_ : DdcFault) : Prop :=
  fault = .nexthopOverrun

/-! ## Next hops -/

section NextHops

variable {total : Nat} {w dst node : Netnode}

theorem Netnode.mem_of_mem_hops
    {hop : Int}
    (member : hop ∈ node.hops) :
    hop ∈ node.nexthop.toList :=
  List.mem_of_mem_take member

/-- What the next hop functions write is seen in the next hops alone. -/
theorem Rewritten.view
    (rewritten : Rewritten w dst node) :
    node.view = dst.view.withNexthop (node.hops.map Int.toNat) := by
  unfold Netnode.view Ddc.Netnode.withNexthop
  rw [rewritten.fields]

/-- As long as the next hops are routers, the lists tell them apart. -/
theorem merged_view
    (wHops : ∀ hop ∈ w.hops, 0 ≤ hop)
    (dstHops : ∀ hop ∈ dst.hops, 0 ≤ hop) :
    Ddc.merged w.view dst.view = (merged w dst).map Int.toNat := by
  unfold Ddc.merged merged
  rw [List.map_append]
  change _ ++ (w.hops.map Int.toNat).filter (· ∉ dst.hops.map Int.toNat) = _
  congr 1
  rw [List.filter_map]
  congr 1
  refine List.filter_congr fun hop member => ?_
  rw [Function.comp_apply, decide_eq_decide, not_iff_not, List.mem_map]
  constructor
  · rintro ⟨other, otherMember, same⟩
    have nonnegative := wHops hop member
    have otherNonnegative := dstHops other otherMember
    have equal : other = hop := by omega
    exact equal ▸ otherMember
  · exact fun known => ⟨hop, known, rfl⟩

/-- The entries that a next hop function leaves are those of its arguments. -/
theorem Rewritten.inside
    (rewritten : Rewritten w dst node)
    {Allowed : Int → Prop}
    (wHops : ∀ hop ∈ w.nexthop.toList, Allowed hop)
    (dstHops : ∀ hop ∈ dst.nexthop.toList, Allowed hop) :
    ∀ hop ∈ node.nexthop.toList, Allowed hop := by
  intro hop member
  exact (rewritten.entries hop member).elim (dstHops hop) (wHops hop)

theorem view_room
    (room : node.nexthopCount ≤ maxEcmpLimit) :
    node.view.nexthop.length ≤ maxEcmpLimit := by
  change (List.map _ _).length ≤ _
  rw [List.length_map, Netnode.length_hops room]
  exact room

theorem nexthopCopy_view
    (wRoom : w.nexthopCount ≤ maxEcmpLimit)
    (dst : Netnode) :
    ∃ node,
      nexthopCopy w dst = .ok node ∧
        Rewritten w dst node ∧
        Ddc.nexthopCopy w.view dst.view = .ok node.view := by
  obtain ⟨node, copied, rewritten, hops⟩ := nexthopCopy_ok wRoom dst
  refine ⟨node, copied, rewritten, ?_⟩
  rw [rewritten.view, hops]
  exact Ddc.nexthopCopy_eq (view_room wRoom) _

/-- Both computations append the same next hops, or both leave the array. -/
theorem equalPathCopy_agrees
    (wRoom : w.nexthopCount ≤ maxEcmpLimit)
    (room : dst.nexthopCount ≤ maxEcmpLimit)
    (wHops : ∀ hop ∈ w.hops, 0 ≤ hop)
    (dstHops : ∀ hop ∈ dst.hops, 0 ≤ hop) :
    Loops.Agrees (fun node abstract => Rewritten w dst node ∧ abstract = node.view) SameFault
      (equalPathCopy w dst) (Ddc.equalPathCopy w.view dst.view) := by
  obtain ⟨goesOn, stops⟩ := equalPathCopy_spec wRoom room
  have copyView := Ddc.equalPathCopy_eq w.view (view_room room)
  rw [merged_view wHops dstHops, List.length_map] at copyView
  rw [copyView]
  by_cases fits : (merged w dst).length ≤ maxEcmpLimit
  · obtain ⟨node, copied, rewritten, hops⟩ := goesOn fits
    rw [copied, if_pos fits]
    refine .ok ⟨rewritten, ?_⟩
    rw [rewritten.view, hops]
  · rw [stops fits, if_neg fits]
    exact .error rfl

end NextHops

/-! ## The inner loop -/

section Relaxing

variable {total s w j : Nat} {state : DijkstraState}

theorem Matrix.setNode_view
    (matrix : Matrix)
    (x y : Nat)
    (node : Netnode) :
    (matrix.setNode x y node).view = matrix.view.setNode x y node.view := by
  funext row column
  unfold Matrix.view Matrix.setNode Ddc.Matrix.setNode
  split
  · rfl
  · rfl

theorem Sized.setNode
    {matrix : Matrix}
    (sized : Sized total matrix)
    (sInside : s < total)
    (wInside : w < total)
    (jInside : j < total)
    {node : Netnode}
    (rewritten : Rewritten (matrix s w) (matrix s j) node) :
    Sized total (matrix.setNode s j node) where
  bounded := sized.bounded.setNode rewritten.count s j
  hops i iInside column columnInside := by
    unfold Matrix.setNode
    split
    · exact rewritten.inside (sized.hops s sInside w wInside) (sized.hops s sInside j jInside)
    · exact sized.hops i iInside column columnInside
  metric i column := by
    unfold Matrix.setNode
    split
    · rw [rewritten.fields]
      exact sized.metric s j
    · exact sized.metric i column

/-- A new distance in one place is seen in that place. -/
theorem DijkstraState.view_setDistance
    (state : DijkstraState)
    (value : Int32)
    (matrix : Matrix) :
    DijkstraState.view
        { state with
          distance := fun i => if i = j then value else state.distance i
          matrix := matrix } =
      { state.view with
        distance := fun i => if i = j then value.toInt.toNat else state.view.distance i
        matrix := matrix.view } := by
  unfold DijkstraState.view
  congr 1
  funext i
  dsimp only
  split
  · rfl
  · rfl

/-- The sum that a pass compares does not overflow. -/
theorem Small.sum
    (small : Small total state)
    (wInside : w < total) :
    (state.distance w + (state.matrix w j).metric.toInt32).toInt.toNat =
        state.view.distance w + (state.view.matrix w j).metric ∧
      0 ≤ (state.distance w + (state.matrix w j).metric.toInt32).toInt := by
  have distance := small.distance w wInside
  have metric := small.sized.metric w j
  have sum :
      (state.distance w + (state.matrix w j).metric.toInt32).toInt =
        (state.distance w).toInt + (state.matrix w j).metric.toNat :=
    Truncation.toInt_add_toInt32 distance.1 (by omega)
  rw [sum]
  refine ⟨?_, by omega⟩
  change _ = (state.distance w).toInt.toNat + (state.matrix w j).metric.toNat
  omega

/-- One pass of the inner loop. -/
theorem relax_agrees
    (small : Small total state)
    (sInside : s < total)
    (wInside : w < total)
    (jInside : j < total) :
    Loops.Agrees (Stands total) SameFault (relax s w state j) (Ddc.relax s w state.view j) := by
  unfold relax Ddc.relax
  by_cases isSource : j = s
  · rw [if_pos isSource, if_pos isSource]
    refine .ok ⟨⟨small.sized, fun i iInside => ?_⟩, ?_⟩
    · dsimp only
      split
      · decide
      · exact small.distance i iInside
    · exact state.view_setDistance 0 state.matrix
  · rw [if_neg isSource, if_neg isSource]
    by_cases visited : state.visite j = true
    · rw [if_pos visited, if_pos (show state.view.visite j = true from visited)]
      exact .ok ⟨small, rfl⟩
    · rw [if_neg visited, if_neg (show ¬state.view.visite j = true from visited)]
      dsimp only
      have jDistance := small.distance j jInside
      have wHops := small.sized.hops s sInside w wInside
      have jHops := small.sized.hops s sInside j jInside
      obtain ⟨sumView, sumNonnegative⟩ := small.sum (j := j) wInside
      have distanceView : state.view.distance j = (state.distance j).toInt.toNat := rfl
      generalize state.distance w + (state.matrix w j).metric.toInt32 = byW at *
      rw [← sumView, distanceView]
      by_cases nearer : byW < state.distance j
      · have nearerView : byW.toInt.toNat < (state.distance j).toInt.toNat := by
          have := Int32.lt_iff_toInt_lt.mp nearer
          omega
        obtain ⟨node, copied, rewritten, copyView⟩ :=
          nexthopCopy_view (small.sized.bounded s w) (state.matrix s j)
        rw [if_pos nearer, if_pos nearerView, copied]
        change Loops.Agrees _ _ _ ((Ddc.nexthopCopy (state.matrix s w).view
          (state.matrix s j).view).map _)
        rw [copyView]
        refine .ok ⟨⟨small.sized.setNode sInside wInside jInside rewritten, ?_⟩, ?_⟩
        · intro i iInside
          dsimp only
          split
          · have := Int32.lt_iff_toInt_lt.mp nearer
            omega
          · exact small.distance i iInside
        · rw [DijkstraState.view_setDistance, Matrix.setNode_view]
          rfl
      · have nearerView : ¬byW.toInt.toNat < (state.distance j).toInt.toNat := by
          rw [Int32.lt_iff_toInt_lt] at nearer
          omega
        rw [if_neg nearer, if_neg nearerView]
        by_cases tie : byW = state.distance j
        · rw [if_pos tie, if_pos (by rw [tie])]
          refine Loops.Agrees.map
            (equalPathCopy_agrees (small.sized.bounded s w) (small.sized.bounded s j)
              (fun hop member => (wHops hop (Netnode.mem_of_mem_hops member)).1)
              (fun hop member => (jHops hop (Netnode.mem_of_mem_hops member)).1)) ?_
          rintro node _ ⟨rewritten, rfl⟩
          refine ⟨⟨small.sized.setNode sInside wInside jInside rewritten,
            small.distance⟩, ?_⟩
          unfold DijkstraState.view
          rw [Matrix.setNode_view]
        · have tieView : ¬byW.toInt.toNat = (state.distance j).toInt.toNat := by
            intro same
            refine tie (Int32.toInt_inj.mp ?_)
            omega
          rw [if_neg tie, if_neg tieView]
          exact .ok ⟨small, rfl⟩

end Relaxing

/-! ## The selection -/

section Selecting

variable {total s : Nat} {state : DijkstraState}

/-- The variables of `min_cost` in both computations. -/
structure SameMinCost (best : MinCost) (abstract : Ddc.MinCost) : Prop where
  nonnegative : 0 ≤ best.temp.toInt
  temp : best.temp.toNatClampNeg = abstract.temp
  minIfindex : best.minIfindex = abstract.minIfindex
  value : best.value = abstract.value

/-- One pass of the loop of `min_cost`, which reads inside of `nodeinfo`. -/
theorem minCostStep_same
    (small : Small total state)
    (sInside : s < total)
    (curIfindex : Nat → Int)
    {i : Nat}
    (inside : i < total)
    {best : MinCost}
    {abstract : Ddc.MinCost}
    (same : SameMinCost best abstract) :
    ∃ next,
      minCostStep total s state curIfindex best i = .ok next ∧
        SameMinCost next (Ddc.minCostStep state.view curIfindex abstract i) := by
  have distance := small.distance i inside
  have taken : SameMinCost ⟨state.distance i, curIfindex i, i⟩
      ⟨state.view.distance i, curIfindex i, i⟩ :=
    ⟨distance.1, rfl, rfl, rfl⟩
  have member : (state.matrix s i).hopAt 0 ∈ (state.matrix s i).nexthop.toList :=
    Netnode.hopAt_mem (by decide)
  have reads := small.sized.hops s sInside i inside _ member
  have temp := same.temp
  have nonnegative := same.nonnegative
  change best.temp.toInt.toNat = abstract.temp at temp
  have le :
      state.distance i ≤ best.temp ↔ state.view.distance i ≤ abstract.temp := by
    rw [Int32.le_iff_toInt_le]
    change _ ↔ (state.distance i).toInt.toNat ≤ _
    omega
  have eq :
      state.distance i = best.temp ↔ state.view.distance i = abstract.temp := by
    rw [← Int32.toInt_inj]
    change _ ↔ (state.distance i).toInt.toNat = _
    omega
  have zero : state.distance i ≠ 0 ↔ state.view.distance i ≠ 0 := by
    rw [Ne, ← Int32.toInt_inj]
    change ¬_ = (0 : Int) ↔ (state.distance i).toInt.toNat ≠ 0
    omega
  have candidate :
      (state.visite i = false ∧ state.distance i ≤ best.temp ∧ state.distance i ≠ 0) ↔
        (state.view.visite i = false ∧ state.view.distance i ≤ abstract.temp ∧
          state.view.distance i ≠ 0) :=
    and_congr_right' (and_congr le zero)
  unfold minCostStep Ddc.minCostStep
  by_cases isCandidate :
      state.visite i = false ∧ state.distance i ≤ best.temp ∧ state.distance i ≠ 0
  · rw [if_pos isCandidate, if_pos (candidate.mp isCandidate)]
    dsimp only
    rw [if_pos reads]
    refine ⟨_, rfl, ?_⟩
    by_cases tie : state.distance i = best.temp
    · rw [if_pos tie, if_pos (eq.mp tie), same.minIfindex]
      split
      · exact taken
      · exact same
    · rw [if_neg tie, if_neg fun tieView => tie (eq.mpr tieView)]
      exact taken
  · rw [if_neg isCandidate, if_neg fun other => isCandidate (candidate.mpr other)]
    exact ⟨best, rfl, same⟩

/-- `min_cost` selects the same node. -/
theorem minCost_eq
    (small : Small total state)
    (sInside : s < total)
    (curIfindex : Nat → Int) :
    minCost total s state curIfindex = .ok (Ddc.minCost total state.view curIfindex) := by
  have loop (m : Nat) (within : m ≤ total) :
      ∃ best,
        (List.range m).foldlM (minCostStep total s state curIfindex)
            ⟨1999, Ddc.maxInterface, 0⟩ = .ok best ∧
          SameMinCost best
            ((List.range m).foldl (Ddc.minCostStep state.view curIfindex)
              ⟨maxMetric - 1, Ddc.maxInterface, 0⟩) := by
    induction m with
    | zero =>
        exact ⟨_, rfl, ⟨by decide, rfl, rfl, rfl⟩⟩
    | succ m inductionHypothesis =>
        obtain ⟨best, reached, same⟩ := inductionHypothesis (Nat.le_of_succ_le within)
        obtain ⟨next, step, sameNext⟩ := minCostStep_same small sInside curIfindex within same
        refine ⟨next, ?_, ?_⟩
        · rw [Loops.foldlM_range_succ, reached]
          exact step
        · rw [List.range_succ, List.foldl_append]
          exact sameNext
  obtain ⟨best, reached, same⟩ := loop total (Nat.le_refl total)
  unfold minCost Ddc.minCost
  rw [reached, ← same.value]
  rfl

end Selecting

/-! ## The whole computation -/

section Whole

variable {total s : Nat} {state : DijkstraState} {ifid : Nat → Nat → Int} {az : AreaInfo}

/-- `min_cost` selects a node of the area. -/
theorem minCost_inside
    (state : Ddc.DijkstraState)
    (curIfindex : Nat → Int)
    (inside : s < total) :
    Ddc.minCost total state curIfindex < total := by
  have found := Ddc.minCost_found total state curIfindex
  unfold Ddc.minCost
  generalize
    (List.range total).foldl (Ddc.minCostStep state curIfindex)
      ⟨maxMetric - 1, Ddc.maxInterface, 0⟩ = best at found
  cases found with
  | node within _ _ _ _ =>
      exact within
  | none _ =>
      exact Nat.zero_lt_of_lt inside

/-- One pass of the outer loop. -/
theorem iteration_agrees
    (small : Small total state)
    (sInside : s < total)
    (curIfindex : Nat → Int) :
    Loops.Agrees (Stands total) SameFault (iteration total s state curIfindex)
      (Ddc.iteration total s state.view curIfindex) := by
  have selected := minCost_eq small sInside curIfindex
  have wInside := minCost_inside state.view curIfindex sInside
  unfold iteration innerLoop Ddc.iteration
  rw [selected]
  dsimp only
  generalize Ddc.minCost total state.view curIfindex = w at wInside
  have loop :
      Loops.Agrees (Stands total) SameFault
        ((List.range total).foldlM (relax s w) (state.visit w))
        ((List.range total).foldlM (Ddc.relax s w) (state.view.visit w)) := by
    refine Loops.Agrees.foldlM ?_ ⟨⟨small.sized, small.distance⟩, rfl⟩
    rintro state _ j member ⟨smallState, rfl⟩
    exact relax_agrees smallState sInside wInside (List.mem_range.mp member)
  have mapped :
      (((List.range total).foldlM (relax s w) (state.visit w)).bind
        fun reached => .ok (w, reached)).map Prod.snd =
        (List.range total).foldlM (relax s w) (state.visit w) := by
    cases (List.range total).foldlM (relax s w) (state.visit w) with
    | error fault => rfl
    | ok reached => rfl
  change Loops.Agrees _ _ ((((List.range total).foldlM (relax s w) (state.visit w)).bind
    fun reached => .ok (w, reached)).map Prod.snd) _
  rw [mapped]
  exact loop

theorem afterPasses_agrees
    (sized : Sized az.routerCount az.matrix)
    (inside : s < az.routerCount)
    (k : Nat) :
    Loops.Agrees (Stands az.routerCount) SameFault (afterPasses ifid s az k)
      (Ddc.afterPasses ifid s az.view k) := by
  unfold afterPasses Ddc.afterPasses
  have start : Stands az.routerCount (az.start s) (az.view.start s) := by
    have number (j : Nat) :
        ((az.start s).distance j).toInt = (az.matrix s j).metric.toNat :=
      Truncation.toInt_toInt32 (Nat.lt_of_le_of_lt (sized.metric s j) (by decide))
    refine ⟨⟨sized, fun j _ => ?_⟩, ?_⟩
    · have metric := sized.metric s j
      rw [number j]
      omega
    · unfold DijkstraState.view
      congr 1
      funext j
      change ((az.start s).distance j).toInt.toNat = (az.matrix s j).metric.toNat
      rw [number j]
      exact Int.toNat_natCast _
  refine Loops.Agrees.foldlM ?_ start
  rintro state _ curIfindex - ⟨small, rfl⟩
  exact iteration_agrees small inside curIfindex

/-- What a computation leaves, besides what its matrix stands for. -/
structure Computed (az result : AreaInfo) (abstract : Ddc.AreaInfo) : Prop where
  view : result.view = abstract
  sized : Sized az.routerCount result.matrix
  azid : result.azid = az.azid
  routers : result.routers = az.routers
  lslist : result.lslist = az.lslist

theorem finish_view
    {state : DijkstraState}
    (small : Small total state) :
    (state.finish total s).view = state.view.finish total s := by
  funext row column
  unfold Matrix.view DijkstraState.finish Ddc.DijkstraState.finish
  dsimp only
  split
  · rename_i inside
    have cost := Int32.toNat_toUInt32_of_le
      (Int32.le_iff_toInt_le.mpr (small.distance column inside.2).1)
    have hop :
        (if (state.matrix row column).nexthopCount ≠ 0 then
            (state.matrix row column).hopAt 0
          else
            s : Int).toNat =
          ((state.matrix row column).hops.map Int.toNat).headD s := by
      unfold Netnode.hops
      cases count : (state.matrix row column).nexthopCount with
      | zero =>
          rfl
      | succ count =>
          have first :
              (state.matrix row column).nexthop.toList[0]? =
                some ((state.matrix row column).hopAt 0) :=
            Netnode.hopAt_eq (by decide)
          rw [if_pos (Nat.succ_ne_zero _)]
          cases listed : (state.matrix row column).nexthop.toList with
          | nil =>
              rw [listed] at first
              cases first
          | cons head rest =>
              rw [listed] at first
              rw [← Option.some.inj first]
              rfl
    unfold Netnode.view
    dsimp only
    rw [cost, hop]
    rfl
  · rfl

theorem finish_sized
    {state : DijkstraState}
    (sized : Sized total state.matrix) :
    Sized total (state.finish total s) := by
  have kept (Kept : Netnode → Prop) {i j : Nat}
      (before : Kept (state.matrix i j))
      (fields :
        ∀ node pathCost nextHop,
          Kept node → Kept { node with pathCost := pathCost, nextHop := nextHop }) :
      Kept (state.finish total s i j) := by
    unfold DijkstraState.finish
    dsimp only
    split
    · exact fields _ _ _ before
    · exact before
  constructor
  case bounded =>
    exact fun i j => kept (fun node => node.nexthopCount ≤ maxEcmpLimit)
      (sized.bounded i j) fun _ _ _ => id
  case hops =>
    exact fun i iInside j jInside =>
      kept (fun node => ∀ hop ∈ node.nexthop.toList, 0 ≤ hop ∧ hop < total)
        (sized.hops i iInside j jInside) fun _ _ _ => id
  case metric =>
    exact fun i j => kept (fun node => node.metric.toNat ≤ 65535)
      (sized.metric i j) fun _ _ _ => id

/-- With small metrics, `dijkstra` is the computation over natural numbers and lists. -/
theorem dijkstra_agrees
    (ifid : Nat → Nat → Int)
    (sized : Sized az.routerCount az.matrix)
    (inside : s < az.routerCount) :
    Loops.Agrees (Computed az) SameFault (dijkstra ifid s az) (Ddc.dijkstra ifid s az.view) := by
  unfold dijkstra Ddc.dijkstra
  refine Loops.Agrees.map (afterPasses_agrees sized inside _) ?_
  rintro state _ ⟨small, rfl⟩
  constructor
  case view =>
    unfold AreaInfo.view
    rw [← finish_view small]
    rfl
  case sized => exact finish_sized small.sized
  case azid => rfl
  case routers => rfl
  case lslist => rfl

/-- With small metrics, nothing but a lack of room keeps a computation from its end. -/
theorem EveryTieFits.ends
    (sized : Sized az.routerCount az.matrix)
    (inside : s < az.routerCount)
    (fits : EveryTieFits ifid s az) :
    ∃ result, dijkstra ifid s az = .ok result := by
  have agrees := dijkstra_agrees ifid sized inside
  cases computed : dijkstra ifid s az with
  | ok result =>
      exact ⟨result, rfl⟩
  | error fault =>
      rw [computed] at agrees
      have overrun : fault = .nexthopOverrun := by
        cases hold : Ddc.dijkstra ifid s az.view with
        | ok _ =>
            rw [hold] at agrees
            cases agrees
        | error _ =>
            rw [hold] at agrees
            cases agrees with
            | error same => exact same
      rw [overrun] at computed
      obtain ⟨k, kInside, m, mInside, w, state, reached, fails⟩ :=
        exists_relax_of_overrun computed
      have room := fits k kInside m mInside w state reached
      obtain ⟨after, step, -⟩ :=
        (relax_spec (during_bounded sized.bounded reached) m).1 room
      rw [fails] at step
      cases step

end Whole

/-! ## The matrix at the start -/

section Start

variable {routers : List UInt32} {table : List TopoLink} {areaid : UInt32} {az : AreaInfo}

/-- The next hops that `init_lidb_info` leaves in the entry from `i` to `j`. -/
inductive Filled (n i j : Nat) (node : Netnode) : Prop where
  | unset
      (nexthop : node.nexthop = .replicate maxEcmpLimit 0)
      (count : node.nexthopCount = 0)
  | set
      (y : Int)
      (nexthop : node.nexthop = (Vector.replicate maxEcmpLimit 0).set 0 y (by decide))
      (count : node.nexthopCount = 1)
      -- An unknown neighbour is written into the row before.
      (column : y = j ∨ y = -1 ∧ j + 1 = n ∧ i + 1 < n)

/-- What was found for the neighbour of a link, and where its entry is. -/
theorem place_cases
    {link : TopoLink}
    (inside : 0 ≤ position routers link) :
    let n := routers.length
    let row := (position routers link).toNat / n
    let column := (position routers link).toNat % n
    let y := getIndexByRid routers link.nrid
    row < n ∧ column < n ∧ (y = column ∨ y = -1 ∧ column + 1 = n ∧ row + 1 < n) := by
  dsimp only
  rcases getIndexByRid_cases routers link.rid with ⟨x, xFound, xIs⟩ | ⟨missing, -⟩
  · have xInside := (List.getElem?_eq_some_iff.mp xIs).1
    rcases getIndexByRid_cases routers link.nrid with ⟨y, yFound, yIs⟩ | ⟨yMissing, -⟩
    · have yInside := (List.getElem?_eq_some_iff.mp yIs).1
      have place : position routers link = x * routers.length + y := by
        rw [position, xFound, yFound]
      obtain ⟨row, column⟩ := (place_iff inside yInside).mpr place
      rw [← row, ← column, yFound]
      exact ⟨xInside, yInside, .inl rfl⟩
    · have placeIs : position routers link = x * routers.length - 1 := by
        rw [position, xFound, yMissing]
        rfl
      cases x with
      | zero =>
          rw [placeIs] at inside
          omega
      | succ x =>
          have columnInside : routers.length - 1 < routers.length := by omega
          have place :
              position routers link = x * routers.length + (routers.length - 1 : Nat) := by
            rw [placeIs, Int.natCast_succ, Int.add_mul, Int.one_mul]
            omega
          obtain ⟨row, column⟩ := (place_iff inside columnInside).mpr place
          rw [← row, ← column, yMissing]
          exact ⟨by omega, columnInside, .inr ⟨rfl, by omega, xInside⟩⟩
  · have columnBounded : getIndexByRid routers link.nrid < routers.length ∨
        routers.length = 0 := by
      rcases getIndexByRid_cases routers link.nrid with ⟨y, yFound, yIs⟩ | ⟨yMissing, -⟩
      · have yInside := (List.getElem?_eq_some_iff.mp yIs).1
        omega
      · omega
    rw [position, missing] at inside
    rcases columnBounded with bounded | empty
    · omega
    · rcases getIndexByRid_cases routers link.nrid with ⟨y, yFound, yIs⟩ | ⟨yMissing, -⟩
      · have yInside := (List.getElem?_eq_some_iff.mp yIs).1
        omega
      · omega

/-- What `init_lidb_info` makes of the matrix. -/
theorem initMatrix_filled
    {lslist : List TopoLink}
    {matrix : Matrix}
    (made : initMatrix routers lslist = .ok matrix) :
    ∀ i j,
      Filled routers.length i j (matrix i j) ∧
        (¬(i < routers.length ∧ j < routers.length) → matrix i j = noLink) := by
  unfold initMatrix at made
  refine Loops.foldlM_invariant
    (fun matrix =>
      ∀ i j,
        Filled routers.length i j (matrix i j) ∧
          (¬(i < routers.length ∧ j < routers.length) → matrix i j = noLink)) ?_ ?_ made
  · intro before entry next _ filled added i j
    obtain ⟨link, index⟩ := entry
    unfold addLink at added
    dsimp only at added
    split at added
    · cases added
      exact filled i j
    · split at added
      · rename_i inside
        cases added
        obtain ⟨rowInside, columnInside, column⟩ := place_cases inside.1
        unfold Matrix.setNode
        split
        · rename_i same
          obtain ⟨rfl, rfl⟩ := same
          refine ⟨?_, fun outside => absurd ⟨rowInside, columnInside⟩ outside⟩
          unfold Netnode.setLink
          by_cases near : link.metric.toNat < maxMetric
          · refine .set _ ?_ (if_pos near) column
            dsimp only
            rw [if_pos near]
            cases (filled _ _).1 with
            | unset nexthop _ =>
                rw [nexthop]
            | set y nexthop _ _ =>
                rw [nexthop, Vector.set_set]
          · cases (filled _ _).1 with
            | unset nexthop count =>
                refine .unset ?_ ?_
                · dsimp only
                  rw [if_neg near]
                  exact nexthop
                · dsimp only
                  rw [if_neg near]
                  exact count
            | set y nexthop count columnBefore =>
                refine .set y ?_ ?_ columnBefore
                · dsimp only
                  rw [if_neg near]
                  exact nexthop
                · dsimp only
                  rw [if_neg near]
                  exact count
        · exact filled i j
      · cases added
  · exact fun _ _ => ⟨.unset rfl rfl, fun _ => rfl⟩

/--
If what the matrix of an area stands for is one that the computation may start
with, the matrix is small.
-/
theorem initLidbInfo_sized
    (initialised : initLidbInfo table areaid = .ok az)
    (linked : az.view.Linked)
    (rows : ∀ s < az.routerCount, az.view.RowInitialised s) :
    Sized az.routerCount az.matrix := by
  have bounded := initLidbInfo_bounded initialised
  obtain ⟨matrix, made, rfl⟩ := Loops.map_eq_ok.mp initialised
  have filled := initMatrix_filled made
  refine ⟨bounded, fun i iInside j jInside hop member => ?_, fun i j => ?_⟩
  · change i < (getRouters table areaid).length at iInside
    change j < (getRouters table areaid).length at jInside
    change 0 ≤ hop ∧ hop < (getRouters table areaid).length
    have row := (rows i iInside).far j jInside
    change (matrix i j).hops.map Int.toNat = [] ∨ (matrix i j).hops.map Int.toNat = [j] at row
    change hop ∈ (matrix i j).nexthop.toList at member
    unfold Netnode.hops at row
    cases (filled i j).1 with
    | unset nexthop _ =>
        rw [nexthop, Vector.toList_replicate] at member
        rw [(List.mem_replicate.mp member).2]
        omega
    | set y nexthop count column =>
        rw [nexthop, count] at row
        rw [nexthop, Vector.toList_set, Vector.toList_replicate] at member
        have single : y.toNat = j := by
          rcases row with none | one
          · cases none
          · exact (List.cons.inj one).1
        rcases List.mem_or_eq_of_mem_set member with zero | same
        · rw [(List.mem_replicate.mp zero).2]
          omega
        · rw [same]
          omega
  · change (matrix i j).metric.toNat ≤ 65535
    by_cases inside : i < (getRouters table areaid).length ∧ j < (getRouters table areaid).length
    · by_cases same : i = j
      · have metric := (linked.diagonal i inside.1).2
        change (matrix i i).metric.toNat = maxMetric at metric
        rw [← same, metric]
        decide
      · have metric := linked.others i inside.1 j inside.2 same
        change (_ ∧ (matrix i j).metric.toNat = maxMetric) ∨
          (_ ∧ 1 ≤ (matrix i j).metric.toNat ∧ (matrix i j).metric.toNat ≤ 65535) at metric
        rcases metric with ⟨-, metric⟩ | ⟨-, -, metric⟩
        · rw [metric]
          decide
        · exact metric
    · rw [(filled i j).2 inside]
      decide

/-- A look-up that finds its router is the same in both. -/
theorem getIndexByRid_view
    {rid : UInt32}
    (known : rid ∈ routers) :
    ∃ x < routers.length,
      getIndexByRid routers rid = x ∧ Ddc.getIndexByRid routers rid = some x := by
  unfold getIndexByRid Ddc.getIndexByRid
  cases found : routers.findIdx? (· = rid) with
  | none =>
      have other := List.findIdx?_eq_none_iff.mp found rid known
      exact absurd rfl (of_decide_eq_false other)
  | some x =>
      obtain ⟨inside, -, -⟩ := List.findIdx?_eq_some_iff_getElem.mp found
      exact ⟨x, inside, rfl, rfl⟩

theorem setLink_view
    (node : Netnode)
    (link : TopoLink)
    (j y : Nat) :
    (node.setLink link j y).view =
      { node.view with
        link := some j
        linkIndex := j
        metric := link.metric.toNat
        pathCost := link.metric.toNat
        nexthop := if link.metric.toNat < maxMetric then [y] else node.view.nexthop } := by
  have hops :
      (node.setLink link j y).hops =
        if link.metric.toNat < maxMetric then [(y : Int)] else node.hops := by
    unfold Netnode.hops Netnode.setLink
    dsimp only
    by_cases near : link.metric.toNat < maxMetric
    · rw [if_pos near, if_pos near, if_pos near, Vector.toList_set]
      have length := node.nexthop.length_toList
      cases entries : node.nexthop.toList with
      | nil =>
          rw [entries] at length
          cases length
      | cons head rest =>
          rfl
    · rw [if_neg near, if_neg near, if_neg near]
  unfold Netnode.view
  rw [hops, apply_ite (List.map Int.toNat)]
  rfl

/-- Where every neighbour is known, a link is written as it is without the array. -/
theorem addLink_view
    (matrix : Matrix)
    {entry : TopoLink × Nat}
    (known : ¬IsAccess entry.1 → entry.1.rid ∈ routers ∧ entry.1.nrid ∈ routers) :
    ∃ next,
      addLink routers matrix entry = .ok next ∧
        Ddc.addLink routers matrix.view entry = some next.view := by
  obtain ⟨link, j⟩ := entry
  unfold addLink Ddc.addLink
  dsimp only
  by_cases access : IsAccess link
  · rw [if_pos access, if_pos (show link.nrid = 0 ∧ link.nifid = 0 from access)]
    exact ⟨matrix, rfl, rfl⟩
  · rw [if_neg access, if_neg (show ¬(link.nrid = 0 ∧ link.nifid = 0) from access)]
    obtain ⟨source, target⟩ := known access
    obtain ⟨x, xInside, xFound, xView⟩ := getIndexByRid_view source
    obtain ⟨y, yInside, yFound, yView⟩ := getIndexByRid_view target
    have place : position routers link = x * routers.length + y := by
      rw [position, xFound, yFound]
    have nonnegative : 0 ≤ position routers link := by
      rw [place]
      exact_mod_cast Nat.zero_le (x * routers.length + y)
    have bounded : position routers link < routers.length * routers.length :=
      position_lt source
    obtain ⟨row, column⟩ := (place_iff nonnegative yInside).mpr place
    rw [if_pos ⟨nonnegative, bounded⟩, xView, yView, ← row, ← column, yFound]
    refine ⟨_, rfl, ?_⟩
    rw [Matrix.setNode_view, setLink_view]
    rfl

/-- Where every neighbour is known, the matrix is the one without the array. -/
theorem initLidbInfo_view
    (known :
      ∀ link ∈ getLinkStates table areaid,
        ¬IsAccess link → link.nrid ∈ getRouters table areaid) :
    ∃ az,
      initLidbInfo table areaid = .ok az ∧
        Ddc.initLidbInfo (getRouters table areaid) (getLinkStates table areaid) =
          some az.view := by
  have loop (entries : List (TopoLink × Nat)) (matrix : Matrix)
      (inside : ∀ entry ∈ entries, entry.1 ∈ getLinkStates table areaid) :
      ∃ last,
        entries.foldlM (addLink (getRouters table areaid)) matrix = .ok last ∧
          entries.foldlM (Ddc.addLink (getRouters table areaid)) matrix.view =
            some last.view := by
    induction entries generalizing matrix with
    | nil =>
        exact ⟨matrix, rfl, rfl⟩
    | cons entry rest inductionHypothesis =>
        rw [List.forall_mem_cons] at inside
        obtain ⟨next, step, stepView⟩ := addLink_view matrix fun backbone =>
          ⟨mem_getRouters.mpr ⟨entry.1, inside.1, rfl⟩, known entry.1 inside.1 backbone⟩
        obtain ⟨last, later, laterView⟩ := inductionHypothesis next inside.2
        refine ⟨last, ?_, ?_⟩
        · rw [List.foldlM_cons, step]
          exact later
        · rw [List.foldlM_cons, stepView]
          exact laterView
  obtain ⟨last, made, madeView⟩ :=
    loop (getLinkStates table areaid).zipIdx (fun _ _ => noLink)
      fun entry member => List.fst_mem_of_mem_zipIdx member
  refine ⟨⟨areaid, getRouters table areaid, getLinkStates table areaid, last⟩, ?_, ?_⟩
  · unfold initLidbInfo initMatrix
    dsimp only
    rw [made]
    rfl
  · have start : Matrix.view (fun _ _ => noLink) = fun _ _ => Ddc.noLink := rfl
    unfold Ddc.initLidbInfo
    rw [← start, madeView]
    rfl

/-- The computation may start with what routers advertise that know each other. -/
theorem initLidbInfo_starts
    (known :
      ∀ link ∈ getLinkStates table areaid,
        ¬IsAccess link → link.nrid ∈ getRouters table areaid)
    (advertised :
      ∀ link ∈ getLinkStates table areaid, IsAccess link ∨ Ddc.Advertised link) :
    ∃ az,
      initLidbInfo table areaid = .ok az ∧
        az.view.Linked ∧
        ∀ s, az.view.RowInitialised s := by
  obtain ⟨az, initialised, view⟩ := initLidbInfo_view known
  exact ⟨az, initialised, Ddc.initLidbInfo_initialised view advertised⟩

end Start

end Pma.Lidb
