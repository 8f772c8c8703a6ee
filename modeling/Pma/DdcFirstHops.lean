import Pma.DdcShortest
import Pma.FirstHops
import Pma.Loops

namespace Pma.Ddc

open Transition
open ShortestPaths (Remaining SettlingOrder NearerSettled Distance FirstHop firstHops)

/-!
# The next hops that `dijkstra` finds

A router that is settled keeps the next hops it has, and these are the first
hops of all shortest paths to it: whatever is nearer was settled before.  What
is never settled is as far as `MAX_METRIC` allows, and so nothing is missing
there either.
-/

variable {az : AreaInfo} {s : Nat} {linked : az.Linked} {order : List Nat}

/-- The next hops of a router are the first hops of the shortest paths to it. -/
def HopsRight
    (az : AreaInfo)
    (linked : az.Linked)
    (s : Nat)
    (state : DijkstraState)
    (j : Nat) : Prop :=
  ∀ cost,
    Distance (az.network linked) s j cost →
    cost < maxMetric →
    ∀ hop, hop ∈ (state.matrix s j).nexthop ↔ FirstHop (az.network linked) s j hop

/-- A near neighbour is its own next hop. -/
theorem AreaInfo.RowInitialised.rowHops
    (row : az.RowInitialised s)
    (linked : az.Linked) :
    ∀ j ∈ (az.network linked).vertices,
      (az.network linked).weight s j < (az.network linked).limit →
      az.rowHops s j = {j} := by
  intro j inside near
  ext hop
  change hop ∈ (az.matrix s j).nexthop ↔ _
  rw [row.near j (Finset.mem_range.mp inside) near, List.mem_singleton,
    Set.mem_singleton_iff]

/-- What remains has the right next hops as soon as all that is nearer was settled. -/
theorem Follows.hopsRight
    {state : DijkstraState}
    (follows : Follows az linked s order state)
    (row : az.RowInitialised s)
    (inside : s < az.routerCount)
    {j : Nat}
    (remaining : Remaining (az.network linked) s order j)
    (nearer :
      ∀ cost,
        Distance (az.network linked) s j cost →
        cost < maxMetric →
        NearerSettled (az.network linked) s order cost) :
    HopsRight az linked s state j := by
  intro cost distance below hop
  rw [follows.hops j hop remaining]
  exact ShortestPaths.mem_firstHops_iff (row.rowHops linked) distance follows.settling
    (Finset.mem_range.mpr inside) remaining.1 remaining.2.1 below (nearer cost distance below)

/-- What is settled keeps its next hops. -/
theorem Pass.hopsRight
    {w : Nat}
    {state after : DijkstraState}
    (pass : Pass az linked s order w state after)
    {j : Nat}
    (inside : j < az.routerCount)
    (notSource : j ≠ s)
    (settled : j ∈ order ∨ j = w)
    (right : HopsRight az linked s state j) :
    HopsRight az linked s after j := by
  intro cost distance below hop
  rw [(pass.settled inside notSource settled).2]
  exact right cost distance below hop

/-- After any number of passes, all that is settled has the right next hops. -/
theorem afterPasses_hopsRight
    {ifid : Nat → Nat → Int}
    {state : DijkstraState}
    (row : az.RowInitialised s)
    (linked : az.Linked)
    (inside : s < az.routerCount)
    {k : Nat}
    (reached : afterPasses ifid s az k = .ok state) :
    ∃ order,
      Follows az linked s order state ∧ ∀ j ∈ order, HopsRight az linked s state j := by
  induction k generalizing state with
  | zero =>
      cases reached
      exact ⟨[], row.follows linked inside, fun _ member => absurd member List.not_mem_nil⟩
  | succ k inductionHypothesis =>
      obtain ⟨middle, before, step⟩ := afterPasses_succ_eq_ok.mp reached
      obtain ⟨order, follows, right⟩ := inductionHypothesis before
      obtain ⟨kept, -⟩ := afterPasses_settles row linked inside before
      obtain ⟨-, -, settles, relaxed⟩ := kept.of_iteration linked inside step
      obtain ⟨wInside, -, selected⟩ := kept.minCost linked inside (ifid k)
      have pass : Pass az linked s order _ middle state :=
        ⟨follows, kept, inside, settles, relaxed⟩
      have earlier {j : Nat} (member : j ∈ order) : HopsRight az linked s state j := by
        obtain ⟨jInside, notSource⟩ := follows.settling.inside member
        exact pass.hopsRight (Finset.mem_range.mp jInside) notSource (.inl member)
          (right j member)
      rcases Follows.stale_or_remaining linked s order wInside with stale | remains
      · exact ⟨order, pass.stale stale, fun j member => earlier member⟩
      · have mayFollow :=
          follows.sound.mayFollow (fun _ => follows.open_iff.mpr) selected
        refine ⟨_ :: order, pass.fresh remains mayFollow, fun j member => ?_⟩
        rcases List.mem_cons.mp member with rfl | member
        · refine pass.hopsRight wInside remains.2.1 (.inr rfl) ?_
          exact follows.hopsRight row inside remains
            fun _ distance below => mayFollow.nearerSettled distance below
        · exact earlier member

/-- After all passes, every router has the right next hops. -/
theorem afterPasses_all_hopsRight
    {ifid : Nat → Nat → Int}
    {state : DijkstraState}
    (row : az.RowInitialised s)
    (linked : az.Linked)
    (inside : s < az.routerCount)
    (reached : afterPasses ifid s az az.routerCount = .ok state) :
    ∀ j < az.routerCount,
      j ≠ s →
      HopsRight az linked s state j ∧ (state.matrix s j).nexthop.Nodup := by
  obtain ⟨order, follows, right⟩ := afterPasses_hopsRight row linked inside reached
  obtain ⟨-, -, labels, length, run⟩ := afterPasses_settles row linked inside reached
  have initial :
      ShortestPaths.Initial (az.network linked) s (az.start s).labels :=
    ⟨fun _ => rfl, fun _ _ => rfl⟩
  have sourceInside : s ∈ (az.network linked).vertices := Finset.mem_range.mpr inside
  have complete : (az.network linked).vertices.card ≤ labels.length := by
    rw [length]
    exact Nat.le_of_eq (Finset.card_range _)
  obtain ⟨-, exhausted⟩ :=
    ShortestPaths.run_exhausted run sourceInside initial complete
  intro j jInside notSource
  refine ⟨?_, follows.nodup j jInside⟩
  by_cases settled : j ∈ order
  · exact right j settled
  · have remaining : Remaining (az.network linked) s order j :=
      ⟨Finset.mem_range.mpr jInside, notSource, settled⟩
    refine follows.hopsRight row inside remaining fun cost distance below => ?_
    intro other otherCost otherInside otherNotSource walk nearer
    by_contra fresh
    have far := exhausted other (follows.open_iff.mpr ⟨otherInside, otherNotSource, fresh⟩)
    have limit : (az.network linked).limit = maxMetric := rfl
    have least :=
      (ShortestPaths.run_least run sourceInside initial complete otherInside
        otherNotSource).1 ⟨otherCost, walk, by omega⟩
    have label := least.2 walk
    omega

/-- The next hops of a row, wherever the destination is near. -/
def AreaInfo.NextHopsRight
    (az : AreaInfo)
    (linked : az.Linked)
    (s : Nat)
    (result : AreaInfo) : Prop :=
  ∀ j < az.routerCount,
    j ≠ s →
    (result.matrix s j).pathCost < maxMetric →
    (result.matrix s j).nexthop.Nodup ∧
      (∀ hop,
        hop ∈ (result.matrix s j).nexthop ↔ FirstHop (az.network linked) s j hop) ∧
      (result.matrix s j).nextHop ∈ (result.matrix s j).nexthop

/-- A path cost below `MAX_METRIC` is the distance. -/
theorem AreaInfo.Shortest.distance
    {result : AreaInfo}
    (shortest : az.Shortest linked s result)
    {j : Nat}
    (inside : j < az.routerCount)
    (notSource : j ≠ s)
    (near : (result.matrix s j).pathCost < maxMetric) :
    Distance (az.network linked) s j (result.matrix s j).pathCost := by
  refine shortest.least j inside notSource ?_
  by_contra none
  refine absurd near (Nat.not_lt.mpr (shortest.far j inside notSource fun cost walk => ?_))
  by_contra below
  exact none ⟨cost, walk, Nat.lt_of_not_le below⟩

/-- A computation that comes to its end has found the first hops. -/
theorem nextHopsRight_of_dijkstra
    {ifid : Nat → Nat → Int}
    {result : AreaInfo}
    (row : az.RowInitialised s)
    (linked : az.Linked)
    (inside : s < az.routerCount)
    (computed : dijkstra ifid s az = .ok result) :
    az.Shortest linked s result ∧ az.NextHopsRight linked s result := by
  obtain ⟨state, reached, rfl⟩ := dijkstra_eq_ok.mp computed
  have shortest := shortest_of_afterPasses row linked inside reached
  refine ⟨shortest, fun j jInside notSource near => ?_⟩
  have distance := shortest.distance jInside notSource near
  obtain ⟨right, nodup⟩ :=
    afterPasses_all_hopsRight row linked inside reached j jInside notSource
  have entry :
      (state.finish az.routerCount s s j).nexthop = (state.matrix s j).nexthop ∧
        (state.finish az.routerCount s s j).nextHop = (state.matrix s j).nexthop.headD s := by
    unfold DijkstraState.finish
    rw [if_pos ⟨rfl, jInside⟩]
    exact ⟨rfl, rfl⟩
  change (state.finish az.routerCount s s j).nexthop.Nodup ∧
    (∀ hop, hop ∈ (state.finish az.routerCount s s j).nexthop ↔ _) ∧
      (state.finish az.routerCount s s j).nextHop ∈
        (state.finish az.routerCount s s j).nexthop
  rw [entry.1, entry.2]
  have hops := right _ distance near
  refine ⟨nodup, hops, ?_⟩
  obtain ⟨hop, first⟩ := distance.exists_firstHop notSource
  have member := (hops hop).mpr first
  cases listed : (state.matrix s j).nexthop with
  | nil =>
      rw [listed] at member
      cases member
  | cons head rest =>
      exact List.mem_cons_self

end Pma.Ddc
