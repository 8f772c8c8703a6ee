import Pma.LidbEcmp
import Pma.Truncation

namespace Pma.Lidb

open Ddc (maxMetric maxInterface)

/-!
# Metrics that are too large

A metric comes out of a link state as an unsigned number, and `dijkstra` adds it
to distances that are signed.  To say when this goes well, the computation is made
a second time with distances that have no bound.
-/

/-! ## What is expected of a computation -/

/-- A path over links that are below `MAX_METRIC`, and its cost. -/
inductive RealPath (az : AreaInfo) (s : Nat) : Nat → Nat → Prop where
  | source :
      RealPath az s s 0
  | step
      {w j cost : Nat}
      (path : RealPath az s w cost)
      (inside : j < az.routerCount)
      (near : (az.matrix w j).metric.toNat < maxMetric) :
      RealPath az s j (cost + (az.matrix w j).metric.toNat)

/-- The distance of `m` by way of `w`, as the code adds it up. -/
def DijkstraState.sum (state : DijkstraState) (w m : Nat) : Int32 :=
  state.distance w + (state.matrix w m).metric.toInt32

/-- The way to `m` by way of `w` has a part that is not below `MAX_METRIC`. -/
def DijkstraState.Far (state : DijkstraState) (w m : Nat) : Prop :=
  (maxMetric : Int) ≤ (state.distance w).toInt ∨ maxMetric ≤ (state.matrix w m).metric.toNat

/-- What `dijkstra` computes is what the metrics say. -/
structure NoOverflow (ifid : Nat → Nat → Int) (s : Nat) (az : AreaInfo) : Prop where
  /-- No link of the source is nearer than its metric. -/
  starts :
    ∀ i < az.routerCount,
      maxMetric ≤ (az.matrix s i).metric.toNat →
      (maxMetric : Int) ≤ ((az.start s).distance i).toInt
  /-- No sum wraps or is below zero. -/
  sums :
    ∀ k < az.routerCount,
      ∀ m < az.routerCount,
        ∀ w state,
          during ifid s az k m = .ok (w, state) →
          m ≠ s →
          state.visite m = false →
          0 ≤ (state.sum w m).toInt ∧
            (state.sum w m).toInt =
              (state.distance w).toInt + (state.matrix w m).metric.toNat
  /-- What is far stays far, and changes nothing where there is a real path. -/
  far :
    ∀ k < az.routerCount,
      ∀ m < az.routerCount,
        ∀ w state,
          during ifid s az k m = .ok (w, state) →
          m ≠ s →
          state.visite m = false →
          state.Far w m →
          (maxMetric : Int) ≤ (state.sum w m).toInt ∧
            ((state.distance m).toInt < maxMetric → relax s w state m = .ok state)
  /-- A distance below `MAX_METRIC` is always that of a real path. -/
  real :
    ∀ k < az.routerCount,
      ∀ m ≤ az.routerCount,
        ∀ w state,
          during ifid s az k m = .ok (w, state) →
          ∀ j < az.routerCount,
            (state.distance j).toInt < maxMetric →
            ∃ cost, RealPath az s j cost ∧ (state.distance j).toInt = cost
  /-- And so is a cost that is reported. -/
  reported :
    ∀ result,
      dijkstra ifid s az = .ok result →
      ∀ j < az.routerCount,
        (result.matrix s j).pathCost.toNat < maxMetric →
        RealPath az s j (result.matrix s j).pathCost.toNat

/-! ## The computation with numbers that have no bound -/

namespace Exact

/-- The variables of `dijkstra`. -/
structure DijkstraState where
  visite : Nat → Bool
  distance : Nat → Nat
  matrix : Matrix

/-- The variables of `min_cost`. -/
structure MinCost where
  temp : Nat
  minIfindex : Int
  value : Nat

def minCostStep
    (total s : Nat)
    (state : DijkstraState)
    (curIfindex : Nat → Int)
    (best : MinCost)
    (i : Nat) : Except Fault MinCost :=
  if state.visite i = false ∧ state.distance i ≤ best.temp ∧ state.distance i ≠ 0 then
    let index := (state.matrix s i).hopAt 0
    if 0 ≤ index ∧ index < total then
      .ok
        (if state.distance i = best.temp then
          if curIfindex i < best.minIfindex then
            ⟨state.distance i, curIfindex i, i⟩
          else
            best
        else
          ⟨state.distance i, curIfindex i, i⟩)
    else
      .error .nodeinfoOverrun
  else
    .ok best

def minCost
    (total s : Nat)
    (state : DijkstraState)
    (curIfindex : Nat → Int) : Except Fault Nat :=
  ((List.range total).foldlM (minCostStep total s state curIfindex)
    ⟨1999, maxInterface, 0⟩).map MinCost.value

def relax
    (s w : Nat)
    (state : DijkstraState)
    (j : Nat) : Except Fault DijkstraState :=
  if j = s then
    .ok { state with distance := fun i => if i = j then 0 else state.distance i }
  else if state.visite j = true then
    .ok state
  else
    let sum := state.distance w + (state.matrix w j).metric.toNat
    if sum < state.distance j then
      (nexthopCopy (state.matrix s w) (state.matrix s j)).map fun node =>
        { state with
          distance := fun i => if i = j then sum else state.distance i
          matrix := state.matrix.setNode s j node }
    else if sum = state.distance j then
      (equalPathCopy (state.matrix s w) (state.matrix s j)).map fun node =>
        { state with matrix := state.matrix.setNode s j node }
    else
      .ok state

def DijkstraState.visit (state : DijkstraState) (w : Nat) : DijkstraState :=
  { state with visite := fun i => if i = w then true else state.visite i }

def innerLoop
    (total s : Nat)
    (state : DijkstraState)
    (curIfindex : Nat → Int)
    (m : Nat) : Except Fault (Nat × DijkstraState) := do
  let w ← minCost total s state curIfindex
  let reached ← (List.range m).foldlM (relax s w) (state.visit w)
  return (w, reached)

def iteration
    (total s : Nat)
    (state : DijkstraState)
    (curIfindex : Nat → Int) : Except Fault DijkstraState :=
  (innerLoop total s state curIfindex total).map Prod.snd

def start (az : AreaInfo) (s : Nat) : DijkstraState where
  visite := fun _ => false
  distance := fun i => (az.matrix s i).metric.toNat
  matrix := az.matrix

def afterPasses
    (ifid : Nat → Nat → Int)
    (s : Nat)
    (az : AreaInfo)
    (k : Nat) : Except Fault DijkstraState :=
  (List.range k).foldlM (fun state pass => iteration az.routerCount s state (ifid pass))
    (start az s)

/-- Pass `k` of the outer loop, with the inner loop before pass `m`. -/
def during
    (ifid : Nat → Nat → Int)
    (s : Nat)
    (az : AreaInfo)
    (k m : Nat) : Except Fault (Nat × DijkstraState) :=
  (afterPasses ifid s az k).bind fun state => innerLoop az.routerCount s state (ifid k) m

end Exact

/--
The metrics of the source have no bit for the sign, and neither has a sum that
comes up when the distances have no bound.
-/
structure SumsFit (ifid : Nat → Nat → Int) (s : Nat) (az : AreaInfo) : Prop where
  source : ∀ i < az.routerCount, (az.matrix s i).metric.toNat < 2 ^ 31
  sums :
    ∀ k < az.routerCount,
      ∀ m < az.routerCount,
        ∀ w exact,
          Exact.during ifid s az k m = .ok (w, exact) →
          m ≠ s →
          exact.visite m = false →
          exact.distance w + (exact.matrix w m).metric.toNat < 2 ^ 31

/-! ## What both computations have in common -/

namespace Exact

/-- The variables of `dijkstra` in both computations. -/
structure Same (total : Nat) (state : Lidb.DijkstraState) (exact : DijkstraState) : Prop where
  visite : state.visite = exact.visite
  matrix : state.matrix = exact.matrix
  distance : ∀ i < total, (state.distance i).toInt = exact.distance i

/-- The variables of `min_cost` in both computations. -/
structure SameMinCost (best : Lidb.MinCost) (exact : MinCost) : Prop where
  temp : best.temp.toInt = exact.temp
  minIfindex : best.minIfindex = exact.minIfindex
  value : best.value = exact.value

/-- What both select, and the variables afterwards. -/
def SamePass
    (total : Nat)
    (reached : Nat × Lidb.DijkstraState)
    (exact : Nat × DijkstraState) : Prop :=
  reached.1 = exact.1 ∧ Same total reached.2 exact.2

section Agreement

variable
  {total s w j : Nat}
  {state : Lidb.DijkstraState}
  {exact : DijkstraState}
  {curIfindex : Nat → Int}

theorem minCostStep_agrees
    (same : Same total state exact)
    {i : Nat}
    (inside : i < total)
    {best : Lidb.MinCost}
    {exactBest : MinCost}
    (sameBest : SameMinCost best exactBest) :
    Loops.Agrees SameMinCost (· = ·) (Lidb.minCostStep total s state curIfindex best i)
      (minCostStep total s exact curIfindex exactBest i) := by
  have distance := same.distance i inside
  have temp := sameBest.temp
  have le : state.distance i ≤ best.temp ↔ exact.distance i ≤ exactBest.temp := by
    rw [Int32.le_iff_toInt_le]
    omega
  have eq : state.distance i = best.temp ↔ exact.distance i = exactBest.temp := by
    rw [← Int32.toInt_inj]
    omega
  have zero : state.distance i ≠ 0 ↔ exact.distance i ≠ 0 := by
    rw [Ne, ← Int32.toInt_inj]
    change ¬_ = (0 : Int) ↔ _
    omega
  have candidate :
      (state.visite i = false ∧ state.distance i ≤ best.temp ∧ state.distance i ≠ 0) ↔
        (exact.visite i = false ∧ exact.distance i ≤ exactBest.temp ∧
          exact.distance i ≠ 0) := by
    rw [same.visite, le, zero]
  have taken :
      SameMinCost ⟨state.distance i, curIfindex i, i⟩ ⟨exact.distance i, curIfindex i, i⟩ :=
    ⟨distance, rfl, rfl⟩
  unfold Lidb.minCostStep minCostStep
  by_cases isCandidate :
      state.visite i = false ∧ state.distance i ≤ best.temp ∧ state.distance i ≠ 0
  · rw [if_pos isCandidate, if_pos (candidate.mp isCandidate), same.matrix]
    dsimp only
    split
    · refine .ok ?_
      by_cases tie : state.distance i = best.temp
      · rw [if_pos tie, if_pos (eq.mp tie), sameBest.minIfindex]
        split
        · exact taken
        · exact sameBest
      · rw [if_neg tie, if_neg fun exactTie => tie (eq.mpr exactTie)]
        exact taken
    · exact .error rfl
  · rw [if_neg isCandidate, if_neg fun other => isCandidate (candidate.mpr other)]
    exact .ok sameBest

/-- Both select the same node, or read outside of `nodeinfo`. -/
theorem minCost_agrees
    (same : Same total state exact) :
    Loops.Agrees (· = ·) (· = ·) (Lidb.minCost total s state curIfindex)
      (minCost total s exact curIfindex) := by
  have start :
      SameMinCost ⟨1999, maxInterface, 0⟩ ⟨1999, maxInterface, 0⟩ :=
    ⟨by decide, rfl, rfl⟩
  have loop :
      Loops.Agrees SameMinCost (· = ·)
        ((List.range total).foldlM (Lidb.minCostStep total s state curIfindex)
          ⟨1999, maxInterface, 0⟩)
        ((List.range total).foldlM (minCostStep total s exact curIfindex)
          ⟨1999, maxInterface, 0⟩) :=
    Loops.Agrees.foldlM
      (fun _ _ _ member sameBest =>
        minCostStep_agrees same (List.mem_range.mp member) sameBest) start
  exact loop.map fun _ _ sameBest => sameBest.value

/-- The node is one of the area. -/
theorem minCost_inside
    (positive : 0 < total)
    (selected : minCost total s exact curIfindex = .ok w) :
    w < total := by
  obtain ⟨best, loop, rfl⟩ := Loops.map_eq_ok.mp selected
  refine Loops.foldlM_invariant (fun best => best.value < total) ?_ positive loop
  intro best i next member inside step
  unfold minCostStep at step
  split at step
  · dsimp only at step
    split at step
    · cases step
      split
      · split
        · exact List.mem_range.mp member
        · exact inside
      · exact List.mem_range.mp member
    · cases step
  · cases step
    exact inside

/-- As long as the sum has no bit for the sign, a pass of the inner loop does the same. -/
theorem relax_agrees
    (same : Same total state exact)
    (wInside : w < total)
    (jInside : j < total)
    (fits :
      j ≠ s →
      exact.visite j = false →
      exact.distance w + (exact.matrix w j).metric.toNat < 2 ^ 31) :
    Loops.Agrees (Same total) (· = ·) (Lidb.relax s w state j) (relax s w exact j) := by
  unfold Lidb.relax relax
  by_cases isSource : j = s
  · rw [if_pos isSource, if_pos isSource]
    refine .ok ⟨same.visite, same.matrix, fun i inside => ?_⟩
    dsimp only
    split
    · rfl
    · exact same.distance i inside
  · rw [if_neg isSource, if_neg isSource, same.visite]
    by_cases visited : exact.visite j = true
    · rw [if_pos visited, if_pos visited]
      exact .ok same
    · rw [if_neg visited, if_neg visited]
      have wDistance := same.distance w wInside
      have jDistance := same.distance j jInside
      have sumFits := fits isSource (Bool.eq_false_of_not_eq_true visited)
      have sum :
          (state.distance w + (exact.matrix w j).metric.toInt32).toInt =
            (state.distance w).toInt + (exact.matrix w j).metric.toNat :=
        Truncation.toInt_add_toInt32 (by omega) (by omega)
      rw [same.matrix]
      dsimp only
      generalize state.distance w + (exact.matrix w j).metric.toInt32 = byW at sum
      have exactSum :
          byW.toInt = (exact.distance w + (exact.matrix w j).metric.toNat : Nat) := by
        omega
      generalize exact.distance w + (exact.matrix w j).metric.toNat = exactByW at exactSum
      have nearer : byW < state.distance j ↔ exactByW < exact.distance j := by
        rw [Int32.lt_iff_toInt_lt]
        omega
      have tie : byW = state.distance j ↔ exactByW = exact.distance j := by
        rw [← Int32.toInt_inj]
        omega
      by_cases isNearer : byW < state.distance j
      · rw [if_pos isNearer, if_pos (nearer.mp isNearer)]
        refine Loops.Agrees.map (Loops.Agrees.refl _) ?_
        rintro node _ rfl
        refine ⟨rfl, rfl, fun i inside => ?_⟩
        dsimp only
        split
        · exact exactSum
        · exact same.distance i inside
      · rw [if_neg isNearer, if_neg fun exactNearer => isNearer (nearer.mpr exactNearer)]
        by_cases isTie : byW = state.distance j
        · rw [if_pos isTie, if_pos (tie.mp isTie)]
          refine Loops.Agrees.map (Loops.Agrees.refl _) ?_
          rintro node _ rfl
          exact ⟨rfl, rfl, same.distance⟩
        · rw [if_neg isTie, if_neg fun exactTie => isTie (tie.mpr exactTie)]
          exact .ok same

end Agreement

/-! ## Both runs -/

/-- Where both computations come to the same, the exact sum has no bit for the sign. -/
def FitsWhereSame (ifid : Nat → Nat → Int) (s : Nat) (az : AreaInfo) : Prop :=
  ∀ k < az.routerCount,
    ∀ m < az.routerCount,
      ∀ w state exact,
        Lidb.during ifid s az k m = .ok (w, state) →
        during ifid s az k m = .ok (w, exact) →
        Same az.routerCount state exact →
        m ≠ s →
        exact.visite m = false →
        exact.distance w + (exact.matrix w m).metric.toNat < 2 ^ 31

section Runs

variable
  {ifid : Nat → Nat → Int}
  {s : Nat}
  {az : AreaInfo}
  {k m w : Nat}

theorem mem_during
    {before exact : DijkstraState}
    (passes : afterPasses ifid s az k = .ok before)
    (selected : minCost az.routerCount s before (ifid k) = .ok w)
    (loop : (List.range m).foldlM (relax s w) (before.visit w) = .ok exact) :
    during ifid s az k m = .ok (w, exact) :=
  Loops.bind_eq_ok.mpr ⟨before, passes, Loops.bind_eq_ok.mpr
    ⟨w, selected, Loops.bind_eq_ok.mpr ⟨exact, loop, rfl⟩⟩⟩

/-- One pass of the outer loop, as far as the inner loop has come. -/
theorem innerLoop_agrees
    (fits : FitsWhereSame ifid s az)
    (kInside : k < az.routerCount)
    (within : m ≤ az.routerCount)
    {before : Lidb.DijkstraState}
    {exactBefore : DijkstraState}
    (passes : Lidb.afterPasses ifid s az k = .ok before)
    (exactPasses : afterPasses ifid s az k = .ok exactBefore)
    (same : Same az.routerCount before exactBefore) :
    Loops.Agrees (SamePass az.routerCount) (· = ·)
      (Lidb.innerLoop az.routerCount s before (ifid k) m)
      (innerLoop az.routerCount s exactBefore (ifid k) m) := by
  have positive : 0 < az.routerCount := Nat.zero_lt_of_lt kInside
  refine (minCost_agrees same).bind_reached ?_
  rintro w _ selected exactSelected rfl
  have wInside := minCost_inside positive exactSelected
  have visited : Same az.routerCount (before.visit w) (exactBefore.visit w) := by
    refine ⟨?_, same.matrix, same.distance⟩
    unfold Lidb.DijkstraState.visit DijkstraState.visit
    rw [same.visite]
  have loop :
      Loops.Agrees (Same az.routerCount) (· = ·)
        ((List.range m).foldlM (Lidb.relax s w) (before.visit w))
        ((List.range m).foldlM (relax s w) (exactBefore.visit w)) := by
    refine Loops.Agrees.foldlM_range (fun j below state exact reached exactReached sameState =>
      ?_) visited
    have jInside : j < az.routerCount := Nat.lt_of_lt_of_le below within
    have atPass : Lidb.during ifid s az k j = .ok (w, state) :=
      Loops.bind_eq_ok.mpr ⟨before, passes, Loops.bind_eq_ok.mpr
        ⟨w, selected, Loops.bind_eq_ok.mpr ⟨state, reached, rfl⟩⟩⟩
    exact relax_agrees sameState wInside jInside
      (fits k kInside j jInside w state exact atPass
        (mem_during exactPasses exactSelected exactReached) sameState)
  exact loop.bind fun _ _ sameState => .ok ⟨rfl, sameState⟩

/-- The outer loop. -/
theorem afterPasses_agrees
    (source : ∀ i < az.routerCount, (az.matrix s i).metric.toNat < 2 ^ 31)
    (fits : FitsWhereSame ifid s az)
    (within : k ≤ az.routerCount) :
    Loops.Agrees (Same az.routerCount) (· = ·) (Lidb.afterPasses ifid s az k)
      (afterPasses ifid s az k) := by
  have start : Same az.routerCount (az.start s) (start az s) :=
    ⟨rfl, rfl, fun i inside => Truncation.toInt_toInt32 (source i inside)⟩
  unfold Lidb.afterPasses afterPasses
  rw [List.foldlM_map]
  refine Loops.Agrees.foldlM_range (fun pass below before exactBefore reached exactReached same =>
    ?_) start
  have passes : Lidb.afterPasses ifid s az pass = .ok before := by
    unfold Lidb.afterPasses
    rw [List.foldlM_map]
    exact reached
  have inside : pass < az.routerCount := Nat.lt_of_lt_of_le below within
  exact (innerLoop_agrees fits inside (Nat.le_refl _) passes exactReached same).map
    fun _ _ samePass => samePass.2

theorem during_agrees
    (source : ∀ i < az.routerCount, (az.matrix s i).metric.toNat < 2 ^ 31)
    (fits : FitsWhereSame ifid s az)
    (kInside : k < az.routerCount)
    (within : m ≤ az.routerCount) :
    Loops.Agrees (SamePass az.routerCount) (· = ·) (Lidb.during ifid s az k m)
      (during ifid s az k m) :=
  (afterPasses_agrees source fits (Nat.le_of_lt kInside)).bind_reached
    fun _ _ passes exactPasses same =>
      innerLoop_agrees fits kInside within passes exactPasses same

end Runs

end Exact

/-! ## Distances are those of paths -/

section Metrics

variable {w dst node : Netnode}

theorem Netnode.writeNexthop_metric
    {index : Nat}
    {hop : Int}
    (written : dst.writeNexthop index hop = .ok node) :
    node.metric = dst.metric := by
  unfold writeNexthop at written
  split at written
  · cases written
    rfl
  · cases written

theorem nexthopCopy_metric
    (copied : nexthopCopy w dst = .ok node) :
    node.metric = dst.metric := by
  obtain ⟨last, loop, rfl⟩ := Loops.map_eq_ok.mp copied
  refine Loops.foldlM_invariant (fun copied : Netnode × Bool => copied.1.metric = dst.metric)
    ?_ rfl loop
  intro state i next _ kept step
  unfold nexthopCopyStep at step
  split at step
  · cases step
    exact kept
  · obtain ⟨written, writes, rfl⟩ := Loops.map_eq_ok.mp step
    exact (Netnode.writeNexthop_metric writes).trans kept

theorem equalPathCopy_metric
    (copied : equalPathCopy w dst = .ok node) :
    node.metric = dst.metric := by
  obtain ⟨last, loop, rfl⟩ := Loops.map_eq_ok.mp copied
  refine Loops.foldlM_invariant (fun merging : Netnode × Nat => merging.1.metric = dst.metric)
    ?_ rfl loop
  rintro ⟨merging, index⟩ i next _ kept step
  unfold equalPathCopyStep at step
  dsimp only at step
  split at step
  · cases step
    exact kept
  · obtain ⟨written, writes, rfl⟩ := Loops.map_eq_ok.mp step
    exact (Netnode.writeNexthop_metric writes).trans kept

end Metrics

namespace Exact

/-- What holds all along: no metric is written, and a near distance has a path. -/
structure Traced (s : Nat) (az : AreaInfo) (exact : DijkstraState) : Prop where
  metric : ∀ i j, (exact.matrix i j).metric = (az.matrix i j).metric
  paths :
    ∀ j < az.routerCount, exact.distance j < maxMetric → RealPath az s j (exact.distance j)
  shorter : ∀ j, exact.distance j ≤ (az.matrix s j).metric.toNat

section Tracing

variable
  {ifid : Nat → Nat → Int}
  {s : Nat}
  {az : AreaInfo}
  {k m w j : Nat}
  {exact after : DijkstraState}

theorem start_traced
    (s : Nat)
    (az : AreaInfo) :
    Traced s az (start az s) where
  metric _ _ := rfl
  paths j inside near := by
    have path : RealPath az s j (0 + (az.matrix s j).metric.toNat) :=
      .step .source inside near
    rw [Nat.zero_add] at path
    exact path
  shorter _ := Nat.le_refl _

/-- A row is written with what keeps its metric. -/
theorem Traced.setNode_metric
    (traced : Traced s az exact)
    {node : Netnode}
    (kept : node.metric = (exact.matrix s j).metric)
    (row column : Nat) :
    (exact.matrix.setNode s j node row column).metric = (az.matrix row column).metric := by
  unfold Matrix.setNode
  split
  · rename_i same
    rw [kept, same.1, same.2]
    exact traced.metric s j
  · exact traced.metric row column

/-- One pass of the inner loop. -/
theorem relax_traced
    (traced : Traced s az exact)
    (wInside : w < az.routerCount)
    (jInside : j < az.routerCount)
    (step : relax s w exact j = .ok after) :
    Traced s az after := by
  unfold relax at step
  split at step
  · rename_i isSource
    cases step
    refine ⟨traced.metric, fun i inside near => ?_, fun i => ?_⟩
    · by_cases same : i = j
      · dsimp only
        rw [if_pos same, same, isSource]
        exact .source
      · dsimp only at near ⊢
        rw [if_neg same] at near ⊢
        exact traced.paths i inside near
    · dsimp only
      split
      · exact Nat.zero_le _
      · exact traced.shorter i
  · split at step
    · cases step
      exact traced
    · dsimp only at step
      split at step
      · rename_i nearer
        obtain ⟨node, copied, rfl⟩ := Loops.map_eq_ok.mp step
        refine ⟨traced.setNode_metric (nexthopCopy_metric copied), fun i inside near => ?_,
          fun i => ?_⟩
        · by_cases same : i = j
          · dsimp only at near ⊢
            rw [if_pos same] at near ⊢
            rw [traced.metric w j] at near ⊢
            have byW := traced.paths w wInside (by omega)
            rw [same]
            exact .step byW jInside (by omega)
          · dsimp only at near ⊢
            rw [if_neg same] at near ⊢
            exact traced.paths i inside near
        · dsimp only
          split
          · rename_i same
            rw [same]
            exact Nat.le_trans (Nat.le_of_lt nearer) (traced.shorter j)
          · exact traced.shorter i
      · split at step
        · obtain ⟨node, copied, rfl⟩ := Loops.map_eq_ok.mp step
          exact ⟨traced.setNode_metric (equalPathCopy_metric copied), traced.paths,
            traced.shorter⟩
        · cases step
          exact traced

theorem innerLoop_traced
    (traced : Traced s az exact)
    (positive : 0 < az.routerCount)
    (within : m ≤ az.routerCount)
    {curIfindex : Nat → Int}
    (reached : innerLoop az.routerCount s exact curIfindex m = .ok (w, after)) :
    w < az.routerCount ∧ Traced s az after := by
  obtain ⟨selected, selects, reached⟩ := Loops.bind_eq_ok.mp reached
  obtain ⟨last, loop, same⟩ := Loops.bind_eq_ok.mp reached
  cases same
  have wInside := minCost_inside positive selects
  refine ⟨wInside, Loops.foldlM_invariant (Traced s az) ?_ ?_ loop⟩
  · intro state j next member kept step
    exact relax_traced kept wInside
      (Nat.lt_of_lt_of_le (List.mem_range.mp member) within) step
  · exact ⟨traced.metric, traced.paths, traced.shorter⟩

theorem afterPasses_traced
    (within : k ≤ az.routerCount)
    (reached : afterPasses ifid s az k = .ok exact) :
    Traced s az exact := by
  refine Loops.foldlM_invariant (Traced s az) ?_ (start_traced s az) reached
  intro state pass next member kept step
  have below : pass < az.routerCount := Nat.lt_of_lt_of_le (List.mem_range.mp member) within
  obtain ⟨⟨selected, last⟩, inner, rfl⟩ := Loops.map_eq_ok.mp step
  exact (innerLoop_traced kept (Nat.zero_lt_of_lt below) (Nat.le_refl _) inner).2

theorem during_traced
    (kInside : k < az.routerCount)
    (within : m ≤ az.routerCount)
    (reached : during ifid s az k m = .ok (w, exact)) :
    w < az.routerCount ∧ Traced s az exact := by
  obtain ⟨before, passes, inner⟩ := Loops.bind_eq_ok.mp reached
  exact innerLoop_traced (afterPasses_traced (Nat.le_of_lt kInside) passes)
    (Nat.zero_lt_of_lt kInside) within inner

end Tracing

end Exact

/-! ## When it goes well -/

section

variable {ifid : Nat → Nat → Int} {s : Nat} {az : AreaInfo}

theorem NoOverflow.source
    (noOverflow : NoOverflow ifid s az)
    {i : Nat}
    (inside : i < az.routerCount) :
    (az.matrix s i).metric.toNat < 2 ^ 31 := by
  by_contra large
  have negative := Truncation.toInt_toInt32_neg (Nat.le_of_not_lt large)
  have far : maxMetric ≤ (az.matrix s i).metric.toNat :=
    Nat.le_trans (by decide) (Nat.le_of_not_lt large)
  have starts : (maxMetric : Int) ≤ (az.matrix s i).metric.toInt32.toInt :=
    noOverflow.starts i inside far
  omega

/-- A sum that is right has fitted. -/
theorem NoOverflow.fitsWhereSame
    (noOverflow : NoOverflow ifid s az) :
    Exact.FitsWhereSame ifid s az := by
  intro k kInside m mInside w state exact reached exactReached same notSource isOpen
  rw [← same.visite] at isOpen
  have wInside := (Exact.during_traced kInside (Nat.le_of_lt mInside) exactReached).1
  have right := (noOverflow.sums k kInside m mInside w state reached notSource isOpen).2
  rw [same.distance w wInside, same.matrix] at right
  have below := (state.sum w m).toInt_lt
  omega

theorem SumsFit.fitsWhereSame
    (fits : SumsFit ifid s az) :
    Exact.FitsWhereSame ifid s az :=
  fun k kInside m mInside w _ exact _ reached _ => fits.sums k kInside m mInside w exact reached

/-- What the code has come to, and what there is without a bound. -/
theorem SumsFit.exists_exact
    (fits : SumsFit ifid s az)
    {k m w : Nat}
    {state : DijkstraState}
    (kInside : k < az.routerCount)
    (within : m ≤ az.routerCount)
    (reached : during ifid s az k m = .ok (w, state)) :
    ∃ exact,
      Exact.during ifid s az k m = .ok (w, exact) ∧
        Exact.Same az.routerCount state exact ∧
        w < az.routerCount ∧
        Exact.Traced s az exact := by
  obtain ⟨⟨_, exact⟩, exactReached, selects, same⟩ :=
    (Exact.during_agrees fits.source fits.fitsWhereSame kInside within).to_ok reached
  dsimp only at selects
  subst selects
  exact ⟨exact, exactReached, same, Exact.during_traced kInside within exactReached⟩

/-- Where the sums fit, the code adds what there is to add. -/
theorem SumsFit.sum
    (fits : SumsFit ifid s az)
    {k m w : Nat}
    {state : DijkstraState}
    (kInside : k < az.routerCount)
    (mInside : m < az.routerCount)
    (reached : during ifid s az k m = .ok (w, state))
    (notSource : m ≠ s)
    (isOpen : state.visite m = false) :
    0 ≤ (state.distance w).toInt ∧
      (state.sum w m).toInt = (state.distance w).toInt + (state.matrix w m).metric.toNat := by
  obtain ⟨exact, exactReached, same, wInside, -⟩ :=
    fits.exists_exact kInside (Nat.le_of_lt mInside) reached
  have distance := same.distance w wInside
  rw [same.visite] at isOpen
  have sumFits := fits.sums k kInside m mInside w exact exactReached notSource isOpen
  rw [← same.matrix] at sumFits
  exact ⟨by omega, Truncation.toInt_add_toInt32 (by omega) (by omega)⟩

theorem NoOverflow.sumsFit
    (noOverflow : NoOverflow ifid s az) :
    SumsFit ifid s az := by
  refine ⟨fun i inside => noOverflow.source inside, ?_⟩
  intro k kInside m mInside w exact exactReached notSource isOpen
  obtain ⟨⟨_, state⟩, reached, selects, same⟩ :=
    (Exact.during_agrees (fun i inside => noOverflow.source inside)
      noOverflow.fitsWhereSame kInside (Nat.le_of_lt mInside)).of_ok exactReached
  dsimp only at selects
  subst selects
  exact noOverflow.fitsWhereSame k kInside m mInside _ state exact reached exactReached
    same notSource isOpen

/-- A sum that is not nearer changes nothing. -/
theorem relax_eq_self
    {w m : Nat}
    {state : DijkstraState}
    (notSource : m ≠ s)
    (isOpen : state.visite m = false)
    (notNearer : (state.distance m).toInt < (state.sum w m).toInt) :
    relax s w state m = .ok state := by
  have notBelow : ¬state.sum w m < state.distance m := by
    rw [Int32.lt_iff_toInt_lt]
    omega
  have noTie : ¬state.sum w m = state.distance m := by
    rw [← Int32.toInt_inj]
    omega
  unfold relax
  rw [if_neg notSource, isOpen, if_neg Bool.false_ne_true]
  dsimp only
  exact (if_neg notBelow).trans (if_neg noTie)

/-- The last loop writes a distance as an unsigned number. -/
theorem DijkstraState.finish_pathCost
    {total j : Nat}
    (state : DijkstraState)
    (inside : j < total)
    (nonnegative : 0 ≤ (state.distance j).toInt) :
    ((state.finish total s s j).pathCost.toNat : Int) = (state.distance j).toInt := by
  have cost : (state.finish total s s j).pathCost = (state.distance j).toUInt32 := by
    unfold finish
    dsimp only
    rw [if_pos ⟨rfl, inside⟩]
  rw [cost]
  exact Truncation.toNat_toUInt32 nonnegative

/-- Where the sums fit, a near cost is that of a real path. -/
theorem SumsFit.reported
    (fits : SumsFit ifid s az)
    {result : AreaInfo}
    (computed : dijkstra ifid s az = .ok result)
    {j : Nat}
    (inside : j < az.routerCount)
    (near : (result.matrix s j).pathCost.toNat < maxMetric) :
    RealPath az s j (result.matrix s j).pathCost.toNat := by
  obtain ⟨state, reached, rfl⟩ := Loops.map_eq_ok.mp computed
  obtain ⟨exact, exactReached, same⟩ :=
    (Exact.afterPasses_agrees fits.source fits.fitsWhereSame (Nat.le_refl _)).to_ok reached
  have distance := same.distance j inside
  have reports := state.finish_pathCost (s := s) inside (by omega)
  have cost : (state.finish az.routerCount s s j).pathCost.toNat = exact.distance j := by
    omega
  dsimp only at near ⊢
  rw [cost] at near ⊢
  exact (Exact.afterPasses_traced (Nat.le_refl _) exactReached).paths j inside near

theorem SumsFit.noOverflow
    (fits : SumsFit ifid s az) :
    NoOverflow ifid s az := by
  constructor
  case starts =>
    intro i inside far
    change (maxMetric : Int) ≤ (az.matrix s i).metric.toInt32.toInt
    rw [Truncation.toInt_toInt32 (fits.source i inside)]
    exact Int.ofNat_le.mpr far
  case sums =>
    intro k kInside m mInside w state reached notSource isOpen
    obtain ⟨nonnegative, right⟩ := fits.sum kInside mInside reached notSource isOpen
    exact ⟨by omega, right⟩
  case far =>
    intro k kInside m mInside w state reached notSource isOpen far
    obtain ⟨nonnegative, right⟩ := fits.sum kInside mInside reached notSource isOpen
    have sumFar : (maxMetric : Int) ≤ (state.sum w m).toInt := by
      rcases far with wFar | linkFar
      · omega
      · omega
    exact ⟨sumFar, fun near => relax_eq_self notSource isOpen (by omega)⟩
  case real =>
    intro k kInside m within w state reached j inside near
    obtain ⟨exact, -, same, -, traced⟩ := fits.exists_exact kInside within reached
    have distance := same.distance j inside
    exact ⟨exact.distance j, traced.paths j inside (by omega), distance⟩
  case reported =>
    exact fun _ computed _ inside near => fits.reported computed inside near

/--
For every matrix, every source and all answers of the queries, nothing overflows
exactly if the metrics of the source and the sums without a bound fit.
-/
theorem noOverflow_iff : NoOverflow ifid s az ↔ SumsFit ifid s az :=
  ⟨NoOverflow.sumsFit, SumsFit.noOverflow⟩

/-- It is enough that a metric of the source and one more fit together. -/
theorem sumsFit_of_pairs
    (pairs :
      ∀ w < az.routerCount,
        ∀ m < az.routerCount,
          (az.matrix s w).metric.toNat + (az.matrix w m).metric.toNat < 2 ^ 31) :
    SumsFit ifid s az := by
  constructor
  case source =>
    intro i inside
    have pair := pairs i inside i inside
    omega
  case sums =>
    intro k kInside m mInside w exact reached _ _
    obtain ⟨wInside, traced⟩ := Exact.during_traced kInside (Nat.le_of_lt mInside) reached
    have shorter := traced.shorter w
    have pair := pairs w wInside m mInside
    rw [traced.metric w m]
    omega

end

/-- The first link has a metric that is -5 as a signed number. -/
def wrappedLinks : List TopoLink :=
  [Ddc.linkBetween 1 2 4294967291, Ddc.linkBetween 2 3 10, Ddc.linkBetween 1 3 7,
    Ddc.linkBetween 3 1 7]

/-- The third router is reported at 5, by way of that link, and is 7 away. -/
theorem wrappedLinks_overflow :
    ∃ az result,
      initLidbInfo wrappedLinks 1 = .ok az ∧
        dijkstra (fun _ _ => 1) 0 az = .ok result ∧
          (result.matrix 0 2).pathCost = 5 ∧
            (result.matrix 0 2).nexthopCount = 0 ∧
              ¬NoOverflow (fun _ _ => 1) 0 az := by
  have run :
      (((initLidbInfo wrappedLinks 1).bind fun az =>
        (dijkstra (fun _ _ => 1) 0 az).map fun result =>
          (az.routerCount, (az.matrix 0 1).metric, (result.matrix 0 2).pathCost,
            (result.matrix 0 2).nexthopCount))).toOption =
        some (3, 4294967291, 5, 0) := by
    decide
  obtain ⟨az, initialised, ends⟩ := Loops.bind_eq_ok.mp (Loops.toOption_eq_some.mp run)
  obtain ⟨result, computed, same⟩ := Loops.map_eq_ok.mp ends
  obtain ⟨count, metric, cost, hops⟩ := Prod.mk.inj same |>.imp_right fun rest =>
    (Prod.mk.inj rest).imp_right Prod.mk.inj
  refine ⟨az, result, initialised, computed, cost, hops, fun noOverflow => ?_⟩
  have large : (az.matrix 0 1).metric.toNat < 2 ^ 31 :=
    noOverflow.source (by omega)
  rw [metric] at large
  exact absurd large (by decide)

end Pma.Lidb
