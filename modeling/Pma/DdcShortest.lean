import Mathlib.Data.Set.Card
import Pma.Ddc

namespace Pma.Ddc

open Transition

/-!
# When `dijkstra` finds the shortest paths

The passes of the outer loop settle the routers in an order that their distances
and the answers of the queries give, and the next hops of a destination are those
of the cheapest routes by way of what is settled.  So whether the array for them
is large enough can be said of the links alone.
-/

variable {az : AreaInfo} {s : Nat}

/-! ## The passes -/

section Passes

variable {ifid : Nat → Nat → Int} {state after : DijkstraState}

/-- The loop starts with a matrix as it should be. -/
theorem AreaInfo.RowInitialised.kept
    (row : az.RowInitialised s)
    (linked : az.Linked)
    (inside : s < az.routerCount) :
    Kept az s (az.start s) where
  fields _ _ := rfl
  others _ _ _ := rfl
  room j jInside := by
    change (az.matrix s j).nexthop.length ≤ maxEcmpLimit
    rcases row.far j jInside with none | one
    · rw [none]
      exact Nat.zero_le _
    · rw [one]
      exact (by decide : 1 ≤ maxEcmpLimit)
  positive j jInside _ :=
    Nat.ne_of_gt ((az.network linked).positive (Finset.mem_range.mpr inside)
      (Finset.mem_range.mpr jInside))
  source := .inr (Nat.le_of_eq (linked.diagonal s inside).2.symm)

theorem afterPasses_succ
    (k : Nat) :
    afterPasses ifid s az (k + 1) =
      (afterPasses ifid s az k).bind fun state =>
        iteration az.routerCount s state (ifid k) := by
  unfold afterPasses
  rw [List.range_succ, List.map_append, List.foldlM_append]
  change Except.bind _ (fun state => [ifid k].foldlM (iteration az.routerCount s) state) = _
  congr 1
  funext state
  rw [List.foldlM_cons]
  exact bind_pure _

theorem afterPasses_succ_eq_ok
    {k : Nat} :
    afterPasses ifid s az (k + 1) = .ok after ↔
      ∃ state,
        afterPasses ifid s az k = .ok state ∧
          iteration az.routerCount s state (ifid k) = .ok after := by
  rw [afterPasses_succ]
  cases afterPasses ifid s az k with
  | error fault =>
      exact iff_of_false nofun (by rintro ⟨state, ⟨⟩, -⟩)
  | ok state =>
      constructor
      · intro step
        exact ⟨state, rfl, step⟩
      · rintro ⟨_, ⟨⟩, step⟩
        exact step

/-- The passes depend on the answers they get, and not on later ones. -/
theorem afterPasses_congr
    {answers : Nat → Nat → Int}
    {k : Nat}
    (same : ∀ pass < k, answers pass = ifid pass) :
    afterPasses answers s az k = afterPasses ifid s az k := by
  unfold afterPasses
  congr 1
  exact List.map_congr_left fun pass within => same pass (List.mem_range.mp within)

/-- Fewer passes come to their end as well. -/
theorem afterPasses_ok_of_le
    {k total : Nat}
    (fewer : k ≤ total)
    (ends : ∃ state, afterPasses ifid s az total = .ok state) :
    ∃ state, afterPasses ifid s az k = .ok state := by
  induction fewer with
  | refl =>
      exact ends
  | step _ inductionHypothesis =>
      obtain ⟨after, reached⟩ := ends
      obtain ⟨state, earlier, -⟩ := afterPasses_succ_eq_ok.mp reached
      exact inductionHypothesis ⟨state, earlier⟩

/-- What a pass that comes to its end has done. -/
theorem Kept.of_iteration
    {curIfindex : Nat → Int}
    (kept : Kept az s state)
    (linked : az.Linked)
    (inside : s < az.routerCount)
    (step : Ddc.iteration az.routerCount s state curIfindex = .ok after) :
    let w := Ddc.minCost az.routerCount state curIfindex
    Kept az s after ∧
      after.distance s = 0 ∧
      ShortestPaths.Settles (az.network linked) s state.labels w after.labels ∧
      Relaxed s w az.routerCount (state.visit w) after := by
  obtain ⟨goesOn, stops⟩ := kept.iteration linked inside curIfindex
  by_cases room : HasRoom az.routerCount s state curIfindex
  · obtain ⟨found, reached, facts⟩ := goesOn room
    rw [step] at reached
    cases reached
    exact facts
  · rw [stops room] at step
    cases step

/-- After any number of passes, the labels are those of the abstract algorithm. -/
theorem afterPasses_settles
    (row : az.RowInitialised s)
    (linked : az.Linked)
    (inside : s < az.routerCount)
    {k : Nat}
    (reached : afterPasses ifid s az k = .ok state) :
    Kept az s state ∧
      (0 < k → state.distance s = 0) ∧
      ∃ order : List Nat,
        order.length = k ∧
          Run (ShortestPaths.Settles (az.network linked) s) (az.start s).labels order
            state.labels := by
  induction k generalizing state with
  | zero =>
      cases reached
      exact ⟨row.kept linked inside, nofun, [], rfl, .nil _⟩
  | succ k inductionHypothesis =>
      obtain ⟨middle, before, step⟩ := afterPasses_succ_eq_ok.mp reached
      obtain ⟨kept, -, order, length, run⟩ := inductionHypothesis before
      obtain ⟨keptAfter, zero, settles, -⟩ := kept.of_iteration linked inside step
      refine ⟨keptAfter, fun _ => zero, order ++ [_], ?_, run.snoc settles⟩
      rw [List.length_append, length]
      rfl

end Passes

/-! ## The next hops are those of the cheapest routes -/

open ShortestPaths (Remaining SettlingOrder MayFollow Cheapest firstHops)

/-- The next hops that a row starts with. -/
def AreaInfo.rowHops (az : AreaInfo) (s j : Nat) : Set Nat :=
  {hop | hop ∈ (az.matrix s j).nexthop}

/-- What the state is after the routers in `order` were settled, the last one first. -/
structure Follows
    (az : AreaInfo)
    (linked : az.Linked)
    (s : Nat)
    (order : List Nat)
    (state : DijkstraState) : Prop where
  settling : SettlingOrder (az.network linked) s 0 order
  sound : ShortestPaths.Sound (az.network linked) s state.labels
  visite : ∀ i < az.routerCount, i ≠ s → (state.visite i = true ↔ i ∈ order)
  cheapest :
    ∀ j,
      Remaining (az.network linked) s order j →
      Cheapest (az.network linked) s order j (state.distance j)
  hops :
    ∀ j hop,
      Remaining (az.network linked) s order j →
      (hop ∈ (state.matrix s j).nexthop ↔
        hop ∈ firstHops (az.network linked) s (az.rowHops s) order j)
  nodup : ∀ j < az.routerCount, (state.matrix s j).nexthop.Nodup
  own : (state.matrix s s).nexthop = []
  -- A router that is settled already has nothing to add.
  again :
    ∀ w j,
      w ∈ order →
      Remaining (az.network linked) s order j →
      state.distance j ≤ state.distance w + (az.matrix w j).metric ∧
        (state.distance j = state.distance w + (az.matrix w j).metric →
          (state.matrix s w).nexthop ⊆ (state.matrix s j).nexthop)

section Following

variable
  {linked : az.Linked}
  {order : List Nat}
  {state after : DijkstraState}

theorem AreaInfo.RowInitialised.follows
    (row : az.RowInitialised s)
    (linked : az.Linked)
    (inside : s < az.routerCount) :
    Follows az linked s [] (az.start s) where
  settling := .nil
  sound :=
    ShortestPaths.Initial.sound ⟨fun _ => rfl, fun _ _ => rfl⟩
      (Finset.mem_range.mpr inside)
  visite _ _ _ := iff_of_false Bool.false_ne_true List.not_mem_nil
  cheapest _ remaining := .nil remaining.1
  hops j hop remaining := by
    rw [ShortestPaths.firstHops_nil remaining.1]
    rfl
  nodup j jInside := by
    change (az.matrix s j).nexthop.Nodup
    rcases row.far j jInside with none | one
    · rw [none]
      exact .nil
    · rw [one]
      exact List.nodup_singleton j
  own := row.noLink s inside (linked.diagonal s inside).1
  again _ _ member := absurd member List.not_mem_nil

/-- What is open is what remains. -/
theorem Follows.open_iff
    (follows : Follows az linked s order state)
    {j : Nat} :
    ShortestPaths.Open (az.network linked) s state.labels j ↔
      Remaining (az.network linked) s order j := by
  constructor
  · rintro ⟨inside, notSource, isOpen⟩
    refine ⟨inside, notSource, fun member => ?_⟩
    have settled := (follows.visite j (Finset.mem_range.mp inside) notSource).mpr member
    have isFalse : state.visite j = false := isOpen
    rw [isFalse] at settled
    cases settled
  · rintro ⟨inside, notSource, fresh⟩
    refine ⟨inside, notSource, Bool.eq_false_of_not_eq_true fun settled => fresh ?_⟩
    exact (follows.visite j (Finset.mem_range.mp inside) notSource).mp settled

theorem mem_merged
    {w dst : Netnode}
    {hop : Nat} :
    hop ∈ merged w dst ↔ hop ∈ dst.nexthop ∨ hop ∈ w.nexthop := by
  rw [merged, List.mem_append, List.mem_filter, decide_eq_true_iff]
  constructor
  · rintro (known | ⟨new, -⟩)
    · exact .inl known
    · exact .inr new
  · rintro (known | new)
    · exact .inl known
    · by_cases known : hop ∈ dst.nexthop
      · exact .inl known
      · exact .inr ⟨new, known⟩

theorem nodup_merged
    {w dst : Netnode}
    (wNodup : w.nexthop.Nodup)
    (dstNodup : dst.nexthop.Nodup) :
    (merged w dst).Nodup := by
  refine dstNodup.append (wNodup.filter _) ?_
  intro hop known new
  exact of_decide_eq_true (List.mem_filter.mp new).2 known

/-- The next hops behind a pass are those of whichever way is the nearest. -/
theorem mem_relaxedNexthop
    {w j hop : Nat}
    (notSource : j ≠ s)
    (isOpen : state.visite j = false) :
    hop ∈ relaxedNexthop s w state j ↔
      (state.distance j ≤ through s w state j ∧ hop ∈ (state.matrix s j).nexthop) ∨
        (through s w state j ≤ state.distance j ∧
          hop ∈ (state.matrix s w).nexthop) := by
  unfold relaxedNexthop
  rcases Nat.lt_trichotomy (through s w state j) (state.distance j) with
    nearer | tie | farther
  · rw [if_neg (not_skipped notSource isOpen (Nat.le_of_lt nearer)), if_pos nearer]
    constructor
    · exact fun member => .inr ⟨Nat.le_of_lt nearer, member⟩
    · rintro (⟨kept, -⟩ | ⟨-, member⟩)
      · omega
      · exact member
  · rw [if_neg (not_skipped notSource isOpen (Nat.le_of_eq tie)), if_neg (by omega),
      mem_merged, tie]
    exact or_congr (and_iff_right (Nat.le_refl _)).symm (and_iff_right (Nat.le_refl _)).symm
  · rw [if_pos (.inr (.inr farther))]
    constructor
    · exact fun member => .inl ⟨Nat.le_of_lt farther, member⟩
    · rintro (⟨-, member⟩ | ⟨kept, -⟩)
      · exact member
      · omega

theorem nodup_relaxedNexthop
    {w j : Nat}
    (wNodup : (state.matrix s w).nexthop.Nodup)
    (jNodup : (state.matrix s j).nexthop.Nodup) :
    (relaxedNexthop s w state j).Nodup := by
  unfold relaxedNexthop
  split
  · exact jNodup
  · split
    · exact wNodup
    · exact nodup_merged wNodup jNodup

/-- What a pass leaves for a destination that is still open. -/
theorem Relaxed.of_open
    {total w j : Nat}
    (relaxed : Relaxed s w total state after)
    (inside : j < total)
    (notSource : j ≠ s)
    (isOpen : state.visite j = false) :
    after.distance j = min (state.distance j) (through s w state j) ∧
      ∀ hop,
        hop ∈ (after.matrix s j).nexthop ↔
          (state.distance j ≤ through s w state j ∧
              hop ∈ (state.matrix s j).nexthop) ∨
            (through s w state j ≤ state.distance j ∧
              hop ∈ (state.matrix s w).nexthop) := by
  constructor
  · rw [relaxed.distance_eq inside, relaxedDistance_open notSource isOpen]
  · intro hop
    rw [relaxed.row j, if_pos inside]
    exact mem_relaxedNexthop notSource isOpen

/-- What is settled does not change. -/
theorem Relaxed.of_settled
    {total w j : Nat}
    (relaxed : Relaxed s w total state after)
    (inside : j < total)
    (notSource : j ≠ s)
    (settled : state.visite j = true) :
    after.distance j = state.distance j ∧
      (after.matrix s j).nexthop = (state.matrix s j).nexthop := by
  constructor
  · rw [relaxed.distance_eq inside, relaxedDistance, if_neg notSource, if_pos settled]
  · rw [relaxed.row j, if_pos inside]
    change relaxedNexthop s w state j = _
    rw [relaxedNexthop, if_pos (.inr (.inl settled))]

/-- One pass of the outer loop, from a state that follows an order. -/
structure Pass
    (az : AreaInfo)
    (linked : az.Linked)
    (s : Nat)
    (order : List Nat)
    (w : Nat)
    (state after : DijkstraState) : Prop where
  follows : Follows az linked s order state
  kept : Kept az s state
  sourceInside : s < az.routerCount
  settles :
    ShortestPaths.Settles (az.network linked) s state.labels w after.labels
  relaxed : Relaxed s w az.routerCount (state.visit w) after

namespace Pass

variable {w : Nat}

/-- What a pass leaves for a destination that remains. -/
theorem remaining
    (pass : Pass az linked s order w state after)
    {j : Nat}
    (remaining : Remaining (az.network linked) s order j)
    (other : j ≠ w) :
    let sum := ShortestPaths.reach s state.labels w + (az.matrix w j).metric
    after.distance j = min (state.distance j) sum ∧
      ∀ hop,
        hop ∈ (after.matrix s j).nexthop ↔
          (state.distance j ≤ sum ∧ hop ∈ (state.matrix s j).nexthop) ∨
            (sum ≤ state.distance j ∧ hop ∈ (state.matrix s w).nexthop) := by
  have isOpen : (state.visit w).visite j = false := by
    change (if j = w then true else state.visite j) = false
    rw [if_neg other]
    exact (pass.follows.open_iff.mpr remaining).2.2
  have left :=
    pass.relaxed.of_open (Finset.mem_range.mp remaining.1) remaining.2.1 isOpen
  rw [pass.kept.through_visit w j] at left
  exact left

/-- What was settled before the pass or is settled by it does not change. -/
theorem settled
    (pass : Pass az linked s order w state after)
    {u : Nat}
    (inside : u < az.routerCount)
    (notSource : u ≠ s)
    (settled : u ∈ order ∨ u = w) :
    after.distance u = state.distance u ∧
      (after.matrix s u).nexthop = (state.matrix s u).nexthop := by
  refine pass.relaxed.of_settled inside notSource ?_
  change (if u = w then true else state.visite u) = true
  split
  · rfl
  · rename_i other
    exact (pass.follows.visite u inside notSource).mpr (settled.resolve_right other)

/-- Behind the pass, the settled routers have nothing more to add. -/
theorem again
    (pass : Pass az linked s order w state after)
    {u j : Nat}
    (inside : u < az.routerCount)
    (notSource : u ≠ s)
    (settled : u ∈ order ∨ u = w)
    (remaining : Remaining (az.network linked) s order j)
    (other : j ≠ w) :
    after.distance j ≤ after.distance u + (az.matrix u j).metric ∧
      (after.distance j = after.distance u + (az.matrix u j).metric →
        (after.matrix s u).nexthop ⊆ (after.matrix s j).nexthop) := by
  obtain ⟨uDistance, uHops⟩ := pass.settled inside notSource settled
  obtain ⟨distance, hops⟩ := pass.remaining remaining other
  rw [uDistance, uHops]
  by_cases earlier : u ∈ order
  · obtain ⟨le, tie⟩ := pass.follows.again u j earlier remaining
    refine ⟨by omega, fun same hop member => (hops hop).mpr (.inl ⟨by omega, ?_⟩)⟩
    exact tie (by omega) member
  · have isW : u = w := settled.resolve_left earlier
    subst isW
    rw [ShortestPaths.reach_of_ne notSource] at distance hops
    change _ = min (state.distance j) (state.distance u + _) at distance
    refine ⟨by omega, fun same hop member => (hops hop).mpr (.inr ⟨?_, member⟩)⟩
    change state.distance u + _ ≤ _
    omega

theorem nodup
    (pass : Pass az linked s order w state after)
    {j : Nat}
    (inside : j < az.routerCount) :
    (after.matrix s j).nexthop.Nodup := by
  rw [pass.relaxed.row j, if_pos inside]
  exact nodup_relaxedNexthop
    (pass.follows.nodup w (Finset.mem_range.mp pass.settles.inside))
    (pass.follows.nodup j inside)

theorem own
    (pass : Pass az linked s order w state after) :
    (after.matrix s s).nexthop = [] := by
  rw [pass.relaxed.row s, if_pos pass.sourceInside]
  change relaxedNexthop s w (state.visit w) s = []
  rw [relaxedNexthop, if_pos (.inl rfl)]
  exact pass.follows.own

/-- A pass that settles another router. -/
theorem fresh
    (pass : Pass az linked s order w state after)
    (remains : Remaining (az.network linked) s order w)
    (mayFollow : MayFollow (az.network linked) s 0 order w) :
    Follows az linked s (w :: order) after where
  settling := pass.follows.settling.cons remains mayFollow
  sound :=
    pass.settles.sound (Finset.mem_range.mpr pass.sourceInside) pass.follows.sound
  visite i inside notSource := by
    have settled : after.visite i = true ↔ state.visite i = true ∨ i = w :=
      pass.settles.settled i
    rw [settled, pass.follows.visite i inside notSource, List.mem_cons, or_comm]
  cheapest j remaining := by
    obtain ⟨before, other⟩ := ShortestPaths.Remaining.cons_iff.mp remaining
    obtain ⟨distance, -⟩ := pass.remaining before other
    rw [distance, ShortestPaths.reach_of_ne remains.2.1]
    exact (pass.follows.cheapest j before).cons (pass.follows.cheapest w remains)
  hops j hop remaining := by
    obtain ⟨before, other⟩ := ShortestPaths.Remaining.cons_iff.mp remaining
    obtain ⟨-, hops⟩ := pass.remaining before other
    rw [hops hop, pass.follows.hops j hop before, pass.follows.hops w hop remains,
      ShortestPaths.reach_of_ne remains.2.1]
    exact
      ((pass.follows.cheapest j before).firstHops_cons
        (pass.follows.cheapest w remains)).symm
  nodup _ inside := pass.nodup inside
  own := pass.own
  again u j member remaining := by
    obtain ⟨before, other⟩ := ShortestPaths.Remaining.cons_iff.mp remaining
    rcases List.mem_cons.mp member with same | earlier
    · subst same
      exact pass.again (Finset.mem_range.mp remains.1) remains.2.1 (.inr rfl) before other
    · obtain ⟨inside, notSource⟩ := pass.follows.settling.inside earlier
      exact pass.again (Finset.mem_range.mp inside) notSource (.inl earlier) before other

/-- A router that is settled already, or the source, has nothing to add. -/
theorem nothing_new
    (follows : Follows az linked s order state)
    (stale : w = s ∨ w ∈ order)
    {j : Nat}
    (remaining : Remaining (az.network linked) s order j) :
    let sum := ShortestPaths.reach s state.labels w + (az.matrix w j).metric
    state.distance j ≤ sum ∧
      (state.distance j = sum →
        (state.matrix s w).nexthop ⊆ (state.matrix s j).nexthop) := by
  rcases stale with isSource | earlier
  · subst isSource
    unfold ShortestPaths.reach
    rw [if_pos rfl, Nat.zero_add, follows.own]
    exact ⟨follows.sound.direct remaining.1 remaining.2.1,
      fun _ => List.nil_subset _⟩
  · rw [ShortestPaths.reach_of_ne (follows.settling.inside earlier).2]
    exact follows.again w j earlier remaining

/-- A pass that settles no other router. -/
theorem stale
    (pass : Pass az linked s order w state after)
    (stale : w = s ∨ w ∈ order) :
    Follows az linked s order after := by
  have others {j : Nat} (remaining : Remaining (az.network linked) s order j) :
      j ≠ w := by
    rintro rfl
    exact stale.elim remaining.2.1 remaining.2.2
  have distance {j : Nat} (remaining : Remaining (az.network linked) s order j) :
      after.distance j = state.distance j := by
    obtain ⟨distance, -⟩ := pass.remaining remaining (others remaining)
    obtain ⟨le, -⟩ := nothing_new pass.follows stale remaining
    exact distance.trans (Nat.min_eq_left le)
  constructor
  case settling => exact pass.follows.settling
  case sound =>
    exact pass.settles.sound (Finset.mem_range.mpr pass.sourceInside) pass.follows.sound
  case visite =>
    intro i inside notSource
    have settled : after.visite i = true ↔ state.visite i = true ∨ i = w :=
      pass.settles.settled i
    rw [settled, pass.follows.visite i inside notSource]
    refine or_iff_left_of_imp fun same => ?_
    exact stale.elim (fun isSource => absurd (same.trans isSource) notSource)
      fun member => same ▸ member
  case cheapest =>
    intro j remaining
    rw [distance remaining]
    exact pass.follows.cheapest j remaining
  case hops =>
    intro j hop remaining
    obtain ⟨-, hops⟩ := pass.remaining remaining (others remaining)
    obtain ⟨le, tie⟩ := nothing_new pass.follows stale remaining
    rw [hops hop, ← pass.follows.hops j hop remaining]
    constructor
    · rintro (⟨-, member⟩ | ⟨ge, member⟩)
      · exact member
      · exact tie (Nat.le_antisymm le ge) member
    · exact fun member => .inl ⟨le, member⟩
  case nodup => exact fun _ inside => pass.nodup inside
  case own => exact pass.own
  case again =>
    intro u j member remaining
    obtain ⟨inside, notSource⟩ := pass.follows.settling.inside member
    exact pass.again (Finset.mem_range.mp inside) notSource (.inl member) remaining
      (others remaining)

end Pass

/-- The source and what is settled have nothing to add, and anything else remains. -/
theorem Follows.stale_or_remaining
    (linked : az.Linked)
    (s : Nat)
    (order : List Nat)
    {w : Nat}
    (inside : w < az.routerCount) :
    (w = s ∨ w ∈ order) ∨ Remaining (az.network linked) s order w := by
  by_cases isSource : w = s
  · exact .inl (.inl isSource)
  · by_cases member : w ∈ order
    · exact .inl (.inr member)
    · exact .inr ⟨Finset.mem_range.mpr inside, isSource, member⟩

/-- A list without repetitions is as long as the set of its members is large. -/
theorem length_le_of_encard_le
    {hops : List Nat}
    {allowed : Set Nat}
    {limit : Nat}
    (nodup : hops.Nodup)
    (inside : ∀ hop ∈ hops, hop ∈ allowed)
    (few : allowed.encard ≤ limit) :
    hops.length ≤ limit := by
  have smaller : ((hops.toFinset : Finset Nat) : Set Nat) ⊆ allowed := by
    intro hop member
    exact inside hop (List.mem_toFinset.mp (Finset.mem_coe.mp member))
  have size := (Set.encard_le_encard smaller).trans few
  rw [Set.encard_coe_eq_coe_finsetCard, List.toFinset_card_of_nodup nodup] at size
  exact Nat.cast_le.mp size

theorem encard_le_length
    {hops : List Nat}
    {found : Set Nat}
    (inside : ∀ hop ∈ found, hop ∈ hops) :
    found.encard ≤ hops.length := by
  have smaller : found ⊆ ((hops.toFinset : Finset Nat) : Set Nat) := by
    intro hop member
    exact Finset.mem_coe.mpr (List.mem_toFinset.mpr (inside hop member))
  refine (Set.encard_le_encard smaller).trans ?_
  rw [Set.encard_coe_eq_coe_finsetCard]
  exact Nat.cast_le.mpr (List.toFinset_card_le hops)

end Following

/-! ## The condition on the links -/

/--
In whatever order the routers may be settled, the cheapest routes to one that
remains have no more first hops than its array can hold.
-/
def AreaInfo.FirstHopsFit
    (az : AreaInfo)
    (linked : az.Linked)
    (s : Nat) : Prop :=
  ∀ order j,
    SettlingOrder (az.network linked) s 0 order →
    Remaining (az.network linked) s order j →
    (firstHops (az.network linked) s (az.rowHops s) order j).encard ≤ maxEcmpLimit

/-- The first hops fit if the source has no more links than an array has entries. -/
theorem AreaInfo.firstHopsFit_of_few
    (linked : az.Linked)
    {neighbours : List Nat}
    (few : neighbours.length ≤ maxEcmpLimit)
    (inside :
      ∀ j < az.routerCount,
        ∀ hop ∈ (az.matrix s j).nexthop,
          hop ∈ neighbours) :
    az.FirstHopsFit linked s := by
  intro order j _ _
  have among :
      firstHops (az.network linked) s (az.rowHops s) order j ⊆
        {hop | hop ∈ neighbours} :=
    ShortestPaths.firstHops_subset fun first firstInside hop member =>
      inside first (Finset.mem_range.mp firstInside) hop member
  exact (encard_le_length fun hop member => among member).trans (Nat.cast_le.mpr few)

section Fitting

variable
  {linked : az.Linked}
  {order : List Nat}
  {ifid : Nat → Nat → Int}
  {state after : DijkstraState}

/-- If the first hops fit, there is room in the next pass. -/
theorem Follows.hasRoom
    (follows : Follows az linked s order state)
    (kept : Kept az s state)
    (inside : s < az.routerCount)
    (fit : az.FirstHopsFit linked s)
    (curIfindex : Nat → Int) :
    HasRoom az.routerCount s state curIfindex := by
  obtain ⟨wInside, -, selected⟩ := kept.minCost linked inside curIfindex
  unfold HasRoom
  dsimp only
  generalize minCost az.routerCount state curIfindex = w at wInside selected
  intro j jInside notSource isOpen tie
  change (if j = w then true else state.visite j) = false at isOpen
  have other : j ≠ w := by
    intro same
    rw [if_pos same] at isOpen
    cases isOpen
  rw [if_neg other] at isOpen
  have remaining : Remaining (az.network linked) s order j :=
    follows.open_iff.mp ⟨Finset.mem_range.mpr jInside, notSource, isOpen⟩
  rw [kept.through_visit w j] at tie
  change _ = state.distance j at tie
  have nodup : (merged (state.matrix s w) (state.matrix s j)).Nodup :=
    nodup_merged (follows.nodup w wInside) (follows.nodup j jInside)
  rcases Follows.stale_or_remaining linked s order wInside with stale | remains
  · refine length_le_of_encard_le nodup ?_ (fit order j follows.settling remaining)
    intro hop member
    rw [← follows.hops j hop remaining]
    exact (mem_merged.mp member).elim id
      fun new => (Pass.nothing_new follows stale remaining).2 tie.symm new
  · have settling : SettlingOrder (az.network linked) s 0 (w :: order) :=
      follows.settling.cons remains
        (follows.sound.mayFollow (fun _ => follows.open_iff.mpr) selected)
    have remainingAfter : Remaining (az.network linked) s (w :: order) j :=
      ShortestPaths.Remaining.cons_iff.mpr ⟨remaining, other⟩
    refine length_le_of_encard_le nodup ?_ (fit (w :: order) j settling remainingAfter)
    intro hop member
    rw [ShortestPaths.reach_of_ne remains.2.1] at tie
    rw [(follows.cheapest j remaining).firstHops_cons (follows.cheapest w remains),
      ← follows.hops j hop remaining, ← follows.hops w hop remains]
    exact (mem_merged.mp member).imp (fun known => ⟨Nat.le_of_eq tie.symm, known⟩)
      fun new => ⟨Nat.le_of_eq tie, new⟩

/-- After any number of passes, the state follows an order. -/
theorem afterPasses_follows
    (row : az.RowInitialised s)
    (linked : az.Linked)
    (inside : s < az.routerCount)
    {k : Nat}
    (reached : afterPasses ifid s az k = .ok state) :
    ∃ order, Follows az linked s order state := by
  induction k generalizing state with
  | zero =>
      cases reached
      exact ⟨[], row.follows linked inside⟩
  | succ k inductionHypothesis =>
      obtain ⟨middle, before, step⟩ := afterPasses_succ_eq_ok.mp reached
      obtain ⟨order, follows⟩ := inductionHypothesis before
      obtain ⟨kept, -⟩ := afterPasses_settles row linked inside before
      obtain ⟨-, -, settles, relaxed⟩ := kept.of_iteration linked inside step
      obtain ⟨wInside, -, selected⟩ := kept.minCost linked inside (ifid k)
      have pass : Pass az linked s order _ middle state :=
        ⟨follows, kept, inside, settles, relaxed⟩
      rcases Follows.stale_or_remaining linked s order wInside with stale | remains
      · exact ⟨order, pass.stale stale⟩
      · have mayFollow :=
          follows.sound.mayFollow (fun _ => follows.open_iff.mpr) selected
        exact ⟨_ :: order, pass.fresh remains mayFollow⟩

/-- If the first hops fit, the passes come to their end. -/
theorem afterPasses_ok
    (row : az.RowInitialised s)
    (inside : s < az.routerCount)
    (fit : az.FirstHopsFit linked s)
    (k : Nat) :
    ∃ state, afterPasses ifid s az k = .ok state := by
  induction k with
  | zero =>
      exact ⟨az.start s, rfl⟩
  | succ k inductionHypothesis =>
      obtain ⟨state, reached⟩ := inductionHypothesis
      obtain ⟨kept, -⟩ := afterPasses_settles row linked inside reached
      obtain ⟨order, follows⟩ := afterPasses_follows row linked inside reached
      obtain ⟨goesOn, -⟩ := kept.iteration linked inside (ifid k)
      obtain ⟨after, step, -⟩ := goesOn (follows.hasRoom kept inside fit (ifid k))
      exact ⟨after, afterPasses_succ_eq_ok.mpr ⟨state, reached, step⟩⟩

/-- The queries can be answered so that `min_cost` takes any router that it may. -/
theorem Kept.minCost_favour
    (kept : Kept az s state)
    {w : Nat}
    (selected :
      ShortestPaths.Nearest (az.network linked) s state.labels w ∨
        ShortestPaths.Exhausted (az.network linked) s state.labels ∧ w = 0) :
    Ddc.minCost az.routerCount state (favour w) = w := by
  have candidate {i : Nat} (inside : i < az.routerCount) (isCandidate : Candidate state i) :
      ShortestPaths.Open (az.network linked) s state.labels i ∨
        maxMetric ≤ state.distance i := by
    by_cases isSource : i = s
    · subst isSource
      exact .inr (kept.source.resolve_left isCandidate.2)
    · exact .inl ⟨Finset.mem_range.mpr inside, isSource, isCandidate.1⟩
  rcases selected with ⟨isOpen, near, least⟩ | ⟨exhausted, rfl⟩
  · have inside := Finset.mem_range.mp isOpen.1
    refine Ddc.minCost_favour inside
      ⟨isOpen.2.2, kept.positive w inside isOpen.2.1⟩ near fun i iInside isCandidate => ?_
    rcases candidate iInside isCandidate with iOpen | far
    · exact least i iOpen
    · exact Nat.le_of_lt (Nat.lt_of_lt_of_le near far)
  · refine minCost_favour_zero fun i iInside isCandidate => ?_
    rcases candidate iInside isCandidate with iOpen | far
    · exact exhausted i iOpen
    · omega

/-- If all passes come to their end whatever the answers, every order is followed. -/
theorem exists_follows
    (row : az.RowInitialised s)
    (inside : s < az.routerCount)
    (ends : ∀ ifid, ∃ state, afterPasses ifid s az az.routerCount = .ok state)
    (settling : SettlingOrder (az.network linked) s 0 order) :
    ∃ ifid state,
      afterPasses ifid s az order.length = .ok state ∧
        Follows az linked s order state := by
  induction settling with
  | nil =>
      exact ⟨fun _ _ => 0, az.start s, rfl, row.follows linked inside⟩
  | @cons order w before remains mayFollow inductionHypothesis =>
      obtain ⟨ifid, state, reached, follows⟩ := inductionHypothesis
      -- The answers are as before, and those for the next pass favour `w`.
      let answers := Function.update ifid order.length (favour w)
      have reachedAgain : afterPasses answers s az order.length = .ok state := by
        rw [← reached]
        exact afterPasses_congr fun pass earlier =>
          Function.update_of_ne (Nat.ne_of_lt earlier) _ _
      have enough : order.length + 1 ≤ az.routerCount := by
        have length :=
          (before.cons remains mayFollow).length_lt (Finset.mem_range.mpr inside)
        change (w :: order).length < (Finset.range az.routerCount).card at length
        rw [Finset.card_range] at length
        exact Nat.le_of_lt length
      obtain ⟨after, reachedAfter⟩ := afterPasses_ok_of_le enough (ends answers)
      obtain ⟨_, reachedState, step⟩ := afterPasses_succ_eq_ok.mp reachedAfter
      rw [reachedAgain] at reachedState
      cases reachedState
      obtain ⟨kept, -⟩ := afterPasses_settles row linked inside reached
      have isOpen := follows.open_iff.mpr remains
      have selected :=
        mayFollow.selected follows.sound isOpen fun _ => follows.open_iff.mp
      have favoured : answers order.length = favour w := Function.update_self _ _ _
      rw [favoured] at step
      obtain ⟨-, -, settles, relaxed⟩ := kept.of_iteration linked inside step
      rw [kept.minCost_favour selected] at settles relaxed
      have pass : Pass az linked s order w state after :=
        ⟨follows, kept, inside, settles, relaxed⟩
      exact ⟨answers, after, reachedAfter, pass.fresh remains mayFollow⟩

/-- The passes come to their end whatever the answers exactly if the first hops fit. -/
theorem afterPasses_ok_iff
    (row : az.RowInitialised s)
    (linked : az.Linked)
    (inside : s < az.routerCount) :
    (∀ ifid, ∃ state, afterPasses ifid s az az.routerCount = .ok state) ↔
      az.FirstHopsFit linked s := by
  constructor
  · intro ends order j settling remaining
    obtain ⟨ifid, state, reached, follows⟩ := exists_follows row inside ends settling
    obtain ⟨kept, -⟩ := afterPasses_settles row linked inside reached
    refine (encard_le_length fun hop member => ?_).trans
      (Nat.cast_le.mpr (kept.room j (Finset.mem_range.mp remaining.1)))
    exact (follows.hops j hop remaining).mpr member
  · intro fit ifid
    exact afterPasses_ok row inside fit az.routerCount

end Fitting

/-! ## The whole computation -/

section Whole

variable {ifid : Nat → Nat → Int}

/-- The path costs of a row are right, and nothing else has changed but its next hops. -/
structure AreaInfo.Shortest
    (az : AreaInfo)
    (linked : az.Linked)
    (s : Nat)
    (result : AreaInfo) : Prop where
  least :
    ∀ j < az.routerCount,
      j ≠ s →
      (∃ cost,
        ShortestPaths.Walk (az.network linked) s j cost ∧ cost < maxMetric) →
      IsLeast {cost | ShortestPaths.Walk (az.network linked) s j cost}
        (result.matrix s j).pathCost
  far :
    ∀ j < az.routerCount,
      j ≠ s →
      (∀ cost, ShortestPaths.Walk (az.network linked) s j cost → maxMetric ≤ cost) →
      maxMetric ≤ (result.matrix s j).pathCost
  own : (result.matrix s s).pathCost = 0
  otherRows : ∀ i j, i ≠ s → result.matrix i j = az.matrix i j
  metric : ∀ i j, (result.matrix i j).metric = (az.matrix i j).metric
  link : ∀ i j, (result.matrix i j).link = (az.matrix i j).link
  linkIndex : ∀ i j, (result.matrix i j).linkIndex = (az.matrix i j).linkIndex
  routerCount : result.routerCount = az.routerCount

/-- What the last loop leaves after all passes is right. -/
theorem shortest_of_afterPasses
    (row : az.RowInitialised s)
    (linked : az.Linked)
    (inside : s < az.routerCount)
    {state : DijkstraState}
    (reached : afterPasses ifid s az az.routerCount = .ok state) :
    az.Shortest linked s { az with matrix := state.finish az.routerCount s } := by
  obtain ⟨kept, sourceZero, order, length, run⟩ :=
    afterPasses_settles row linked inside reached
  have initial :
      ShortestPaths.Initial (az.network linked) s (az.start s).labels :=
    ⟨fun _ => rfl, fun _ _ => rfl⟩
  have correct {j : Nat} (jInside : j < az.routerCount) (notSource : j ≠ s) :=
    ShortestPaths.run_least run (Finset.mem_range.mpr inside) initial
      (by rw [length]; exact Nat.le_of_eq (Finset.card_range _))
      (Finset.mem_range.mpr jInside) notSource
  have pathCost (j : Nat) (jInside : j < az.routerCount) :
      (state.finish az.routerCount s s j).pathCost = state.distance j := by
    unfold DijkstraState.finish
    rw [if_pos ⟨rfl, jInside⟩]
  have fields {Field : Type} (field : Netnode → Field)
      (finished :
        ∀ node pathCost nextHop,
          field { node with pathCost := pathCost, nextHop := nextHop } = field node)
      (hops : ∀ node nexthop, field (node.withNexthop nexthop) = field node)
      (i j : Nat) :
      field (state.finish az.routerCount s i j) = field (az.matrix i j) := by
    rw [← hops (az.matrix i j) (state.matrix i j).nexthop, ← kept.fields i j]
    unfold DijkstraState.finish
    dsimp only
    split
    · exact finished _ _ _
    · rfl
  constructor
  · intro j jInside notSource near
    change IsLeast _ (state.finish az.routerCount s s j).pathCost
    rw [pathCost j jInside]
    exact (correct jInside notSource).1 near
  · intro j jInside notSource far
    change maxMetric ≤ (state.finish az.routerCount s s j).pathCost
    rw [pathCost j jInside]
    exact (correct jInside notSource).2 far
  · change (state.finish az.routerCount s s s).pathCost = 0
    rw [pathCost s inside]
    exact sourceZero (Nat.zero_lt_of_lt inside)
  · intro i j other
    change state.finish az.routerCount s i j = az.matrix i j
    unfold DijkstraState.finish
    rw [if_neg fun both => other both.1]
    exact kept.others i j other
  · exact fields Netnode.metric (fun _ _ _ => rfl) fun _ _ => rfl
  · exact fields Netnode.link (fun _ _ _ => rfl) fun _ _ => rfl
  · exact fields Netnode.linkIndex (fun _ _ _ => rfl) fun _ _ => rfl
  · rfl

theorem dijkstra_eq_ok
    {result : AreaInfo} :
    dijkstra ifid s az = .ok result ↔
      ∃ state,
        afterPasses ifid s az az.routerCount = .ok state ∧
          result = { az with matrix := state.finish az.routerCount s } := by
  unfold dijkstra
  cases afterPasses ifid s az az.routerCount with
  | error fault =>
      exact iff_of_false nofun (by rintro ⟨state, ⟨⟩, -⟩)
  | ok state =>
      constructor
      · rintro ⟨⟩
        exact ⟨state, rfl, rfl⟩
      · rintro ⟨_, ⟨⟩, rfl⟩
        rfl

/--
`dijkstra` ends with the shortest paths whatever the queries answer, exactly when
the first hops of the cheapest routes fit in their arrays.
-/
theorem dijkstra_shortest
    (row : az.RowInitialised s)
    (linked : az.Linked)
    (inside : s < az.routerCount) :
    (∀ ifid, ∃ result,
        dijkstra ifid s az = .ok result ∧ az.Shortest linked s result) ↔
      az.FirstHopsFit linked s := by
  rw [← afterPasses_ok_iff row linked inside]
  constructor
  · intro computes ifid
    obtain ⟨result, computed, -⟩ := computes ifid
    obtain ⟨state, reached, -⟩ := dijkstra_eq_ok.mp computed
    exact ⟨state, reached⟩
  · intro ends ifid
    obtain ⟨state, reached⟩ := ends ifid
    exact ⟨_, dijkstra_eq_ok.mpr ⟨state, reached, rfl⟩,
      shortest_of_afterPasses row linked inside reached⟩

end Whole

/-! ## Two areas -/

/-- A link whose interface has the number of the other router. -/
def linkBetween (rid nrid metric : UInt32) : TopoLink where
  areaid := 1
  rid := rid
  nrid := nrid
  ifid := nrid
  nifid := rid
  metric := metric

/-- Three routers, of which two are nearer by way of the third. -/
def triangleLinks : List TopoLink :=
  [linkBetween 1 2 1, linkBetween 2 1 1, linkBetween 2 3 1, linkBetween 3 2 1,
    linkBetween 1 3 5, linkBetween 3 1 5]

def triangle : AreaInfo :=
  (initLidbInfo [1, 2, 3] triangleLinks).getD ⟨0, fun _ _ => noLink⟩

theorem triangle_initialised :
    triangle.Linked ∧ ∀ s, triangle.RowInitialised s := by
  have initialised : initLidbInfo [1, 2, 3] triangleLinks = some triangle := rfl
  refine initLidbInfo_initialised initialised ?_
  unfold Advertised
  decide

theorem dijkstra_shortest_triangle :
    0 < triangle.routerCount ∧
      ∀ ifid, ∃ result,
        dijkstra ifid 0 triangle = .ok result ∧
          triangle.Shortest triangle_initialised.1 0 result := by
  have inside : 0 < triangle.routerCount := by decide
  have few : [1, 2].length ≤ maxEcmpLimit := by decide
  have fit : triangle.FirstHopsFit triangle_initialised.1 0 :=
    AreaInfo.firstHopsFit_of_few _ few (by decide)
  exact ⟨inside,
    (dijkstra_shortest (triangle_initialised.2 0) triangle_initialised.1 inside).mpr fit⟩

/-- Six routers between two others, all at the same distance. -/
def starLinks : List TopoLink :=
  [1, 2, 3, 4, 5, 7].flatMap fun rid =>
    [linkBetween 8 rid 1, linkBetween rid 8 1, linkBetween rid 6 1, linkBetween 6 rid 1]

def star : AreaInfo :=
  (initLidbInfo [1, 2, 3, 4, 5, 6, 7, 8] starLinks).getD ⟨0, fun _ _ => noLink⟩

theorem star_initialised :
    star.Linked ∧ ∀ s, star.RowInitialised s := by
  have initialised : initLidbInfo [1, 2, 3, 4, 5, 6, 7, 8] starLinks = some star := rfl
  refine initLidbInfo_initialised initialised ?_
  unfold Advertised
  decide

/--
From 7 to 5 there are six next hops.  The array ends behind the fourth, and the
sixth would be written over the metric.
-/
theorem star_not_shortest :
    7 < star.routerCount ∧
      ¬∀ ifid, ∃ result,
        dijkstra ifid 7 star = .ok result ∧
          star.Shortest star_initialised.1 7 result := by
  refine ⟨by decide, fun computes => ?_⟩
  obtain ⟨result, computed, -⟩ := computes fun _ _ => 1
  have fault : dijkstra (fun _ _ => 1) 7 star = .error .nexthopOverrun := rfl
  rw [fault] at computed
  cases computed

end Pma.Ddc
