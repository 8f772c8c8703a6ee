import Pma.DdcShortest
import Pma.LidbNextHops
import Pma.Loops

namespace Pma.Lidb

open Ddc (maxMetric maxEcmpLimit)

/-!
# How many next hops a computation may find

A pass of the inner loop writes past the end of `nexthop` exactly where a
destination is as near by way of the selected node as before and the next hops
of both together are more than `MAX_ECMP_LIMIT`.  Nothing is said of the metrics
here: a sum may wrap, and then it is compared as the code compares it.
-/

/-- No entry counts more next hops than its array has. -/
def Bounded (matrix : Matrix) : Prop :=
  ∀ i j, (matrix i j).nexthopCount ≤ maxEcmpLimit

/-- If `j` is as near by way of `w`, its array has room for the next hops of `w`. -/
def HasRoomFor (s w : Nat) (state : DijkstraState) (j : Nat) : Prop :=
  j ≠ s →
  state.visite j = false →
  state.distance w + (state.matrix w j).metric.toInt32 = state.distance j →
  (merged (state.matrix s w) (state.matrix s j)).length ≤ maxEcmpLimit

/-- `dijkstra` in pass `k` of its outer loop, with the inner loop before pass `m`. -/
def during
    (ifid : Nat → Nat → Int)
    (s : Nat)
    (az : AreaInfo)
    (k m : Nat) : Except Fault (Nat × DijkstraState) :=
  (afterPasses ifid s az k).bind fun state => innerLoop az.routerCount s state (ifid k) m

/-- During and after the computation, the counts are bounded and no write is out of place. -/
structure EcmpBound (ifid : Nat → Nat → Int) (s : Nat) (az : AreaInfo) : Prop where
  states :
    ∀ k < az.routerCount,
      ∀ m ≤ az.routerCount,
        ∀ w state, during ifid s az k m = .ok (w, state) → Bounded state.matrix
  writes :
    ∀ k < az.routerCount,
      ∀ m < az.routerCount,
        ∀ w state,
          during ifid s az k m = .ok (w, state) →
          relax s w state m ≠ .error .nexthopOverrun
  ends : dijkstra ifid s az ≠ .error .nexthopOverrun
  result : ∀ result, dijkstra ifid s az = .ok result → Bounded result.matrix

/-- In every pass that the computation comes to, there is room. -/
def EveryTieFits (ifid : Nat → Nat → Int) (s : Nat) (az : AreaInfo) : Prop :=
  ∀ k < az.routerCount,
    ∀ m < az.routerCount,
      ∀ w state,
        during ifid s az k m = .ok (w, state) →
        HasRoomFor s w state m

section

variable {s w : Nat} {state after : DijkstraState}

theorem Bounded.setNode
    {matrix : Matrix}
    (bounded : Bounded matrix)
    {node : Netnode}
    (count : node.nexthopCount ≤ maxEcmpLimit)
    (x y : Nat) :
    Bounded (matrix.setNode x y node) := by
  intro i j
  unfold Matrix.setNode
  split
  · exact count
  · exact bounded i j

/-- What one pass of the inner loop may have written. -/
structure Touched (s w j : Nat) (state after : DijkstraState) : Prop where
  distance : ∀ i ≠ j, after.distance i = state.distance i
  source : j = s → after.distance s = 0
  matrix :
    after.matrix = state.matrix ∨
      ∃ node,
        Rewritten (state.matrix s w) (state.matrix s j) node ∧
          after.matrix = state.matrix.setNode s j node

/-- One pass of the inner loop goes on exactly when there is room. -/
theorem relax_spec
    (bounded : Bounded state.matrix)
    (j : Nat) :
    (HasRoomFor s w state j →
      ∃ after, relax s w state j = .ok after ∧ Touched s w j state after) ∧
    (¬HasRoomFor s w state j → relax s w state j = .error .nexthopOverrun) := by
  unfold relax
  by_cases isSource : j = s
  · rw [if_pos isSource]
    refine ⟨fun _ => ⟨_, rfl, fun i other => if_neg other, fun _ => if_pos isSource.symm,
      .inl rfl⟩, fun full => absurd (fun notSource => absurd isSource notSource) full⟩
  · rw [if_neg isSource]
    have notSource {after : DijkstraState} : j = s → after.distance s = 0 :=
      fun same => absurd same isSource
    by_cases visited : state.visite j = true
    · rw [if_pos visited]
      refine ⟨fun _ => ⟨_, rfl, fun _ _ => rfl, notSource, .inl rfl⟩,
        fun full => absurd (fun _ isOpen => ?_) full⟩
      rw [visited] at isOpen
      cases isOpen
    · have isOpen : state.visite j = false := Bool.eq_false_of_not_eq_true visited
      rw [if_neg visited]
      dsimp only
      by_cases nearer :
          state.distance w + (state.matrix w j).metric.toInt32 < state.distance j
      · rw [if_pos nearer]
        obtain ⟨node, copied, rewritten, -⟩ :=
          nexthopCopy_ok (bounded s w) (state.matrix s j)
        rw [copied]
        refine ⟨fun _ => ⟨_, rfl, fun i other => if_neg other, notSource,
          .inr ⟨node, rewritten, rfl⟩⟩, fun full => absurd (fun _ _ tie => ?_) full⟩
        rw [tie] at nearer
        exact absurd nearer Int32.lt_irrefl
      · rw [if_neg nearer]
        by_cases tie :
            state.distance w + (state.matrix w j).metric.toInt32 = state.distance j
        · rw [if_pos tie]
          obtain ⟨goesOn, stops⟩ := equalPathCopy_spec (bounded s w) (bounded s j)
          constructor
          · intro room
            obtain ⟨node, copied, rewritten, -⟩ := goesOn (room isSource isOpen tie)
            rw [copied]
            exact ⟨_, rfl, fun _ _ => rfl, notSource, .inr ⟨node, rewritten, rfl⟩⟩
          · intro full
            rw [stops fun fits => full fun _ _ _ => fits]
            rfl
        · rw [if_neg tie]
          exact ⟨fun _ => ⟨_, rfl, fun _ _ => rfl, notSource, .inl rfl⟩,
            fun full => absurd (fun _ _ same => absurd same tie) full⟩

theorem relax_touched
    (bounded : Bounded state.matrix)
    {j : Nat}
    (step : relax s w state j = .ok after) :
    Touched s w j state after := by
  obtain ⟨goesOn, stops⟩ := relax_spec (s := s) (w := w) bounded j
  by_cases room : HasRoomFor s w state j
  · obtain ⟨next, reached, touched⟩ := goesOn room
    rw [step] at reached
    cases reached
    exact touched
  · rw [stops room] at step
    cases step

/-- Nothing but a pass of the inner loop writes next hops. -/
theorem relax_bounded
    (bounded : Bounded state.matrix)
    {j : Nat}
    (step : relax s w state j = .ok after) :
    Bounded after.matrix := by
  rcases (relax_touched bounded step).matrix with same | ⟨node, rewritten, written⟩
  · rw [same]
    exact bounded
  · rw [written]
    exact bounded.setNode rewritten.count s j

theorem innerLoop_bounded
    {total m : Nat}
    {curIfindex : Nat → Int}
    (bounded : Bounded state.matrix)
    (reached : innerLoop total s state curIfindex m = .ok (w, after)) :
    Bounded after.matrix := by
  obtain ⟨selected, -, reached⟩ := Loops.bind_eq_ok.mp reached
  obtain ⟨last, loop, same⟩ := Loops.bind_eq_ok.mp reached
  cases same
  exact Loops.foldlM_invariant (fun state => Bounded state.matrix)
    (fun _ _ _ _ bounded step => relax_bounded bounded step) bounded loop

theorem iteration_bounded
    {total : Nat}
    {curIfindex : Nat → Int}
    (bounded : Bounded state.matrix)
    (step : iteration total s state curIfindex = .ok after) :
    Bounded after.matrix := by
  obtain ⟨⟨selected, last⟩, reached, rfl⟩ := Loops.map_eq_ok.mp step
  exact innerLoop_bounded bounded reached

end

section

variable {ifid : Nat → Nat → Int} {s : Nat} {az : AreaInfo}

theorem afterPasses_bounded
    (bounded : Bounded az.matrix)
    {k : Nat}
    {state : DijkstraState}
    (reached : afterPasses ifid s az k = .ok state) :
    Bounded state.matrix :=
  Loops.foldlM_invariant (fun state => Bounded state.matrix)
    (fun _ _ _ _ bounded step => iteration_bounded bounded step) bounded reached

theorem during_bounded
    (bounded : Bounded az.matrix)
    {k m w : Nat}
    {state : DijkstraState}
    (reached : during ifid s az k m = .ok (w, state)) :
    Bounded state.matrix := by
  obtain ⟨before, passes, inner⟩ := Loops.bind_eq_ok.mp reached
  exact innerLoop_bounded (afterPasses_bounded bounded passes) inner

theorem dijkstra_bounded
    (bounded : Bounded az.matrix)
    {result : AreaInfo}
    (computed : dijkstra ifid s az = .ok result) :
    Bounded result.matrix := by
  obtain ⟨state, reached, rfl⟩ := Loops.map_eq_ok.mp computed
  have boundedState := afterPasses_bounded bounded reached
  intro i j
  change (state.finish az.routerCount s i j).nexthopCount ≤ maxEcmpLimit
  unfold DijkstraState.finish
  dsimp only
  split
  · exact boundedState i j
  · exact boundedState i j

theorem afterPasses_succ
    (k : Nat) :
    afterPasses ifid s az (k + 1) =
      (afterPasses ifid s az k).bind fun state =>
        iteration az.routerCount s state (ifid k) := by
  unfold afterPasses
  rw [List.foldlM_map, List.foldlM_map]
  exact Loops.foldlM_range_succ _ _ k

/-- `min_cost` writes nothing. -/
theorem minCost_ne_overrun
    (total s : Nat)
    (state : DijkstraState)
    (curIfindex : Nat → Int) :
    minCost total s state curIfindex ≠ .error .nexthopOverrun := by
  intro fails
  obtain ⟨i, -, best, -, step⟩ := Loops.foldlM_range_error (Loops.map_eq_error.mp fails)
  unfold minCostStep at step
  split at step
  · dsimp only at step
    split at step
    · cases step
    · cases step
  · cases step

/-- A write out of place is one of some pass of the inner loop. -/
theorem exists_relax_of_overrun
    (fails : dijkstra ifid s az = .error .nexthopOverrun) :
    ∃ k < az.routerCount, ∃ m < az.routerCount, ∃ w state,
      during ifid s az k m = .ok (w, state) ∧
        relax s w state m = .error .nexthopOverrun := by
  have passes := Loops.map_eq_error.mp fails
  unfold afterPasses at passes
  rw [List.foldlM_map] at passes
  obtain ⟨k, kInside, state, reached, step⟩ := Loops.foldlM_range_error passes
  have inner := Loops.map_eq_error.mp step
  rcases Loops.bind_eq_error.mp inner with selection | ⟨w, selected, loop⟩
  · exact absurd selection (minCost_ne_overrun _ _ _ _)
  · rcases Loops.bind_eq_error.mp loop with failed | ⟨last, -, ends⟩
    · obtain ⟨m, mInside, middle, reachedMiddle, last⟩ := Loops.foldlM_range_error failed
      refine ⟨k, kInside, m, mInside, w, middle, ?_, last⟩
      refine Loops.bind_eq_ok.mpr ⟨state, ?_, ?_⟩
      · unfold afterPasses
        rw [List.foldlM_map]
        exact reached
      · exact Loops.bind_eq_ok.mpr
          ⟨w, selected, Loops.bind_eq_ok.mpr ⟨middle, reachedMiddle, rfl⟩⟩
    · cases ends

/-- `init_lidb_info` counts at most one next hop. -/
theorem initLidbInfo_bounded
    {table : List TopoLink}
    {areaid : UInt32}
    (initialised : initLidbInfo table areaid = .ok az) :
    Bounded az.matrix := by
  obtain ⟨matrix, made, rfl⟩ := Loops.map_eq_ok.mp initialised
  unfold initMatrix at made
  refine Loops.foldlM_invariant Bounded ?_ ?_ made
  · intro matrix entry next _ bounded added
    obtain ⟨link, j⟩ := entry
    unfold addLink at added
    dsimp only at added
    split at added
    · cases added
      exact bounded
    · split at added
      · cases added
        refine bounded.setNode ?_ _ _
        unfold Netnode.setLink
        dsimp only
        split
        · decide
        · exact bounded _ _
      · cases added
  · exact fun _ _ => Nat.zero_le _

theorem dijkstraUpTo_succ
    (answers : Nat → Nat → Nat → Int)
    (az : AreaInfo)
    (k : Nat) :
    dijkstraUpTo answers az (k + 1) =
      (dijkstraUpTo answers az k).bind fun result => dijkstra (answers k) k result :=
  Loops.foldlM_range_succ _ _ k

theorem dijkstraUpTo_bounded
    {answers : Nat → Nat → Nat → Int}
    {k : Nat}
    {result : AreaInfo}
    (bounded : Bounded az.matrix)
    (computed : dijkstraUpTo answers az k = .ok result) :
    Bounded result.matrix :=
  Loops.foldlM_invariant (fun az => Bounded az.matrix)
    (fun _ _ _ _ bounded step => dijkstra_bounded bounded step) bounded computed

/--
For every table, every area and every source that `path_compute_start` comes to,
the counts are bounded and nothing is written past the end of an array exactly
if there is room in every pass.
-/
theorem ecmpBound_iff
    {table : List TopoLink}
    {areaid : UInt32}
    {initial : AreaInfo}
    (initialised : initLidbInfo table areaid = .ok initial)
    {answers : Nat → Nat → Nat → Int}
    {sources : Nat}
    (computed : dijkstraUpTo answers initial sources = .ok az) :
    EcmpBound ifid s az ↔ EveryTieFits ifid s az := by
  have bounded : Bounded az.matrix :=
    dijkstraUpTo_bounded (initLidbInfo_bounded initialised) computed
  constructor
  · intro bound k kInside m mInside w state reached
    by_contra full
    have stops := (relax_spec (during_bounded bounded reached) m).2 full
    exact bound.writes k kInside m mInside w state reached stops
  · intro fits
    have writes :
        ∀ k < az.routerCount,
          ∀ m < az.routerCount,
            ∀ w state,
              during ifid s az k m = .ok (w, state) →
              relax s w state m ≠ .error .nexthopOverrun := by
      intro k kInside m mInside w state reached fails
      have room := fits k kInside m mInside w state reached
      obtain ⟨after, step, -⟩ := (relax_spec (during_bounded bounded reached) m).1 room
      rw [fails] at step
      cases step
    constructor
    case states => exact fun _ _ _ _ _ _ reached => during_bounded bounded reached
    case writes => exact writes
    case ends =>
      intro fails
      obtain ⟨k, kInside, m, mInside, w, state, reached, step⟩ :=
        exists_relax_of_overrun fails
      exact writes k kInside m mInside w state reached step
    case result => exact fun _ computed => dijkstra_bounded bounded computed

end

/-- The last source of three routers. -/
theorem ecmpBound_iff_triangle :
    ∃ initial az,
      initLidbInfo Ddc.triangleLinks 1 = .ok initial ∧
        dijkstraUpTo (fun _ _ _ => 1) initial 2 = .ok az ∧
          (EcmpBound (fun _ _ => 1) 2 az ↔ EveryTieFits (fun _ _ => 1) 2 az) := by
  have ends :
      ((initLidbInfo Ddc.triangleLinks 1).bind
        (dijkstraUpTo (fun _ _ _ => 1) · 2)).toOption.isSome = true := by
    decide
  obtain ⟨az, both⟩ := Loops.exists_ok ends
  obtain ⟨initial, initialised, computed⟩ := Loops.bind_eq_ok.mp both
  exact ⟨initial, az, initialised, computed, ecmpBound_iff initialised computed⟩

/--
From router 6 to router 8 there are six next hops.  The first five sources end,
and in this one the fifth next hop is written over the count.
-/
theorem star_not_bound :
    ∃ initial az,
      initLidbInfo Ddc.starLinks 1 = .ok initial ∧
        dijkstraUpTo (fun _ _ _ => 1) initial 5 = .ok az ∧
          ¬EcmpBound (fun _ _ => 1) 5 az := by
  have ends :
      ((initLidbInfo Ddc.starLinks 1).bind
        (dijkstraUpTo (fun _ _ _ => 1) · 5)).toOption.isSome = true := by
    decide +kernel
  obtain ⟨az, both⟩ := Loops.exists_ok ends
  obtain ⟨initial, initialised, computed⟩ := Loops.bind_eq_ok.mp both
  have fault :
      (((initLidbInfo Ddc.starLinks 1).bind
        (dijkstraUpTo (fun _ _ _ => 1) · 5)).bind (dijkstra (fun _ _ => 1) 5)) =
        .error .nexthopOverrun := rfl
  rw [both] at fault
  exact ⟨initial, az, initialised, computed, fun bound => bound.ends fault⟩

end Pma.Lidb
