import Pma.DdcFirstHops

namespace Pma.Ddc

/-!
# Links of a router to itself

A link from a router to itself fills an entry of the diagonal.  With a metric of
0 it changes little: `dijkstra` passes the source over all the same, and only
where nothing near is left to settle does source 0 come to be selected, whose
entry has a next hop then.  It is added behind what was found, or to what is too
far to matter.
-/

/-- An area with links of metric 0 on its diagonal, and the same area without them. -/
structure SelfLinked (s : Nat) (looped plain : AreaInfo) : Prop where
  routerCount : looped.routerCount = plain.routerCount
  metric : ∀ i j, i ≠ j → (looped.matrix i j).metric = (plain.matrix i j).metric
  hops : ∀ j, j ≠ s → (looped.matrix s j).nexthop = (plain.matrix s j).nexthop
  own : (looped.matrix s s).metric = 0
  room : (looped.matrix s s).nexthop.length ≤ maxEcmpLimit

/-- The variables of `dijkstra` in both areas. -/
structure Beside (total s : Nat) (looped plain : DijkstraState) : Prop where
  visite : looped.visite = plain.visite
  distance : ∀ j, j ≠ s → looped.distance j = plain.distance j
  source : looped.distance s = 0
  metric : ∀ i j, i ≠ j → (looped.matrix i j).metric = (plain.matrix i j).metric
  direct : ∀ j, j ≠ s → plain.distance j ≤ (plain.matrix s j).metric
  hops : ∀ j, j ≠ s → (plain.matrix s j).nexthop ⊆ (looped.matrix s j).nexthop
  room : ∀ j < total, (looped.matrix s j).nexthop.length ≤ maxEcmpLimit
  -- The next hop that is chosen in the end is the first one.
  near :
    ∀ j < total,
      j ≠ s →
      plain.distance j < maxMetric →
      ∃ hop rest more,
        (plain.matrix s j).nexthop = hop :: rest ∧ (looped.matrix s j).nexthop = hop :: more

variable {total s w : Nat} {looped plain after next : DijkstraState}

theorem merged_subset
    {w dst wMore dstMore : Netnode}
    (fewer : w.nexthop ⊆ wMore.nexthop)
    (dstFewer : dst.nexthop ⊆ dstMore.nexthop) :
    merged w dst ⊆ merged wMore dstMore := by
  intro hop member
  exact mem_merged.mpr ((mem_merged.mp member).imp (fun old => dstFewer old) fun new => fewer new)

theorem merged_cons
    (w : Netnode)
    {dst : Netnode}
    {hop : Nat}
    {rest : List Nat}
    (listed : dst.nexthop = hop :: rest) :
    ∃ more, merged w dst = hop :: more := by
  rw [merged, listed]
  exact ⟨_, rfl⟩

/-! ## The selection -/

/-- `min_cost` never compares with a distance that is far. -/
theorem Found.temp_lt
    {state : DijkstraState}
    {seen : Nat}
    {best : MinCost}
    (found : Found state seen best) :
    best.temp < maxMetric := by
  cases found with
  | node _ _ _ near _ => exact near
  | none _ => decide

/-- The source is not looked at in either. -/
theorem Beside.minCostStep
    (beside : Beside total s looped plain)
    (source : plain.distance s = 0 ∨ maxMetric ≤ plain.distance s)
    (curIfindex : Nat → Int)
    {best : MinCost}
    (near : best.temp < maxMetric)
    (i : Nat) :
    Ddc.minCostStep looped curIfindex best i = Ddc.minCostStep plain curIfindex best i := by
  unfold Ddc.minCostStep
  by_cases own : i = s
  · subst own
    rw [if_neg fun candidate => candidate.2.2 beside.source, if_neg]
    rintro ⟨-, le, nonzero⟩
    rcases source with zero | far
    · exact nonzero zero
    · omega
  · rw [beside.visite, beside.distance i own]

theorem Beside.minCost
    (beside : Beside total s looped plain)
    (source : plain.distance s = 0 ∨ maxMetric ≤ plain.distance s)
    (m : Nat)
    (curIfindex : Nat → Int) :
    Ddc.minCost m looped curIfindex = Ddc.minCost m plain curIfindex := by
  have loop :
      (List.range m).foldl (Ddc.minCostStep looped curIfindex)
          ⟨maxMetric - 1, maxInterface, 0⟩ =
        (List.range m).foldl (Ddc.minCostStep plain curIfindex)
          ⟨maxMetric - 1, maxInterface, 0⟩ := by
    induction m with
    | zero =>
        rfl
    | succ m inductionHypothesis =>
        rw [List.range_succ, List.foldl_append, List.foldl_append, inductionHypothesis]
        exact beside.minCostStep source curIfindex
          (minCost_found m plain curIfindex).temp_lt m
  unfold Ddc.minCost
  rw [loop]

/-! ## One pass -/

/-- What a pass compares is the same, except for what it does not compare at all. -/
theorem Beside.through_eq
    (beside : Beside total s looped plain)
    {j : Nat}
    (other : w ≠ j) :
    through s w (looped.visit w) j = through s w (plain.visit w) j := by
  change ShortestPaths.reach s looped.labels w + (looped.matrix w j).metric =
    ShortestPaths.reach s plain.labels w + (plain.matrix w j).metric
  rw [beside.metric w j other]
  unfold ShortestPaths.reach
  by_cases own : w = s
  · rw [if_pos own, if_pos own]
  · rw [if_neg own, if_neg own]
    change looped.distance w + _ = plain.distance w + _
    rw [beside.distance w own]

section Passes

variable {az : AreaInfo} {linked : az.Linked} {order : List Nat} {j : Nat}

/-- The source has nothing to add, and what it would add is no nearer. -/
theorem Beside.hops_selected
    (beside : Beside total s looped plain)
    (own : (plain.matrix s s).nexthop = [])
    (w : Nat) :
    (plain.matrix s w).nexthop ⊆ (looped.matrix s w).nexthop := by
  by_cases isSource : w = s
  · rw [isSource, own]
    exact List.nil_subset _
  · exact beside.hops w isSource

/-- Where there is room with the self-links, there is room without them. -/
theorem Beside.hasRoomFor
    (beside : Beside total s looped plain)
    (own : (plain.matrix s s).nexthop = [])
    (nodup : (merged (plain.matrix s w) (plain.matrix s j)).Nodup)
    (room : HasRoomFor s w (looped.visit w) j) :
    HasRoomFor s w (plain.visit w) j := by
  intro notSource isOpen tie
  have other : w ≠ j := by
    rintro rfl
    change (if w = w then true else _) = false at isOpen
    rw [if_pos rfl] at isOpen
    cases isOpen
  have isOpenLooped : (looped.visit w).visite j = false := by
    change (if j = w then true else looped.visite j) = false
    rw [beside.visite]
    exact isOpen
  rw [← beside.through_eq other] at tie
  have fits := room notSource isOpenLooped (tie.trans (beside.distance j notSource).symm)
  have fewer : merged (plain.matrix s w) (plain.matrix s j) ⊆
      merged (looped.matrix s w) (looped.matrix s j) :=
    merged_subset (beside.hops_selected own w) (beside.hops j notSource)
  exact (nodup.subperm fewer).length_le.trans fits

/-- What a pass does to a destination, in both. -/
inductive PassedOn (s w : Nat) (looped plain : DijkstraState) (j : Nat) : Prop where
  | kept
      (distance : relaxedDistance s w (plain.visit w) j = plain.distance j)
      (hopsLooped :
        relaxedNexthop s w (looped.visit w) j = (looped.matrix s j).nexthop)
      (hops : relaxedNexthop s w (plain.visit w) j = (plain.matrix s j).nexthop)
  | nearer
      (notSource : w ≠ s)
      (behind : plain.distance w ≤ relaxedDistance s w (plain.visit w) j)
      (hopsLooped :
        relaxedNexthop s w (looped.visit w) j = (looped.matrix s w).nexthop)
      (hops : relaxedNexthop s w (plain.visit w) j = (plain.matrix s w).nexthop)
  | tie
      (distance : relaxedDistance s w (plain.visit w) j = plain.distance j)
      (hopsLooped :
        relaxedNexthop s w (looped.visit w) j =
          merged (looped.matrix s w) (looped.matrix s j))
      (hops :
        relaxedNexthop s w (plain.visit w) j = merged (plain.matrix s w) (plain.matrix s j))

theorem Beside.passedOn
    (beside : Beside total s looped plain)
    (notSource : j ≠ s) :
    PassedOn s w looped plain j := by
  have marks : (looped.visit w).visite j = (plain.visit w).visite j := by
    change (if j = w then true else looped.visite j) = if j = w then true else plain.visite j
    rw [beside.visite]
  have distances : (looped.visit w).distance j = (plain.visit w).distance j :=
    beside.distance j notSource
  by_cases settled : (plain.visit w).visite j = true
  · refine .kept ?_ ?_ ?_
    · rw [relaxedDistance, if_neg notSource, if_pos settled]
      rfl
    · rw [relaxedNexthop, if_pos (.inr (.inl (marks.trans settled)))]
      rfl
    · rw [relaxedNexthop, if_pos (.inr (.inl settled))]
      rfl
  · have isOpen : (plain.visit w).visite j = false := Bool.eq_false_of_not_eq_true settled
    have other : w ≠ j := by
      rintro rfl
      exact settled (if_pos rfl)
    have sums := beside.through_eq other
    have distance := relaxedDistance_open (w := w) notSource isOpen
    rcases Nat.lt_trichotomy (through s w (plain.visit w) j) ((plain.visit w).distance j) with
      nearer | tie | farther
    · have skipped := not_skipped notSource isOpen (Nat.le_of_lt nearer)
      have isW : w ≠ s := by
        rintro rfl
        have direct := beside.direct j notSource
        change ShortestPaths.reach w plain.labels w + (plain.matrix w j).metric <
          plain.distance j at nearer
        rw [ShortestPaths.reach, if_pos rfl] at nearer
        omega
      refine .nearer isW ?_ ?_ ?_
      · rw [distance, Nat.min_eq_right (Nat.le_of_lt nearer)]
        change _ ≤ ShortestPaths.reach s plain.labels w + _
        rw [ShortestPaths.reach_of_ne isW]
        exact Nat.le_add_right _ _
      · rw [relaxedNexthop, marks, sums, distances, if_neg skipped, if_pos nearer]
        rfl
      · rw [relaxedNexthop, if_neg skipped, if_pos nearer]
        rfl
    · have skipped := not_skipped notSource isOpen (Nat.le_of_eq tie)
      refine .tie ?_ ?_ ?_
      · rw [distance, tie, Nat.min_self]
        rfl
      · rw [relaxedNexthop, marks, sums, distances, if_neg skipped,
          if_neg (Nat.not_lt.mpr (Nat.le_of_eq tie.symm))]
        rfl
      · rw [relaxedNexthop, if_neg skipped,
          if_neg (Nat.not_lt.mpr (Nat.le_of_eq tie.symm))]
        rfl
    · refine .kept ?_ ?_ ?_
      · rw [distance, Nat.min_eq_left (Nat.le_of_lt farther)]
        rfl
      · rw [relaxedNexthop, marks, sums, distances, if_pos (.inr (.inr farther))]
        rfl
      · rw [relaxedNexthop, if_pos (.inr (.inr farther))]
        rfl

/-- The distances behind a pass are the same. -/
theorem Beside.relaxedDistance_eq
    (beside : Beside total s looped plain)
    (notSource : j ≠ s) :
    relaxedDistance s w (looped.visit w) j = relaxedDistance s w (plain.visit w) j := by
  have marks : (looped.visit w).visite j = (plain.visit w).visite j := by
    change (if j = w then true else looped.visite j) = if j = w then true else plain.visite j
    rw [beside.visite]
  unfold relaxedDistance
  rw [if_neg notSource, if_neg notSource, marks]
  change (if _ then looped.distance j else min (looped.distance j) _) =
    if _ then plain.distance j else min (plain.distance j) _
  rw [beside.distance j notSource]
  by_cases settled : (plain.visit w).visite j = true
  · rw [if_pos settled, if_pos settled]
  · have other : w ≠ j := by
      rintro rfl
      exact settled (if_pos rfl)
    rw [if_neg settled, if_neg settled, beside.through_eq other]

theorem relaxedDistance_le
    (notSource : j ≠ s) :
    relaxedDistance s w (plain.visit w) j ≤ plain.distance j := by
  unfold relaxedDistance
  rw [if_neg notSource]
  split
  · exact Nat.le_refl _
  · exact Nat.min_le_left _ _

/-- One pass of the outer loop in both. -/
theorem Beside.pass
    (beside : Beside total s looped plain)
    (own : (plain.matrix s s).nexthop = [])
    (inside : s < total)
    (wInside : w < total)
    (fits : ∀ j < total, HasRoomFor s w (looped.visit w) j)
    (relaxedLooped : Relaxed s w total (looped.visit w) after)
    (relaxed : Relaxed s w total (plain.visit w) next) :
    Beside total s after next where
  visite := by
    rw [relaxedLooped.visite, relaxed.visite]
    unfold DijkstraState.visit
    rw [beside.visite]
  distance j notSource := by
    rw [relaxedLooped.distance j, relaxed.distance j, beside.relaxedDistance_eq notSource]
    change (if _ then _ else looped.distance j) = if _ then _ else plain.distance j
    rw [beside.distance j notSource]
  source := by
    rw [relaxedLooped.distance_eq inside, relaxedDistance, if_pos rfl]
  metric := by
    have kept {before after : DijkstraState}
        (relaxed : Relaxed s w total (before.visit w) after)
        (i j : Nat) :
        (after.matrix i j).metric = (before.matrix i j).metric := by
      by_cases row : i = s
      · rw [row, relaxed.row j]
        split
        · rfl
        · rfl
      · rw [relaxed.others i j row]
        rfl
    intro i j other
    rw [kept relaxedLooped, kept relaxed, beside.metric i j other]
  direct j notSource := by
    have metric : (next.matrix s j).metric = (plain.matrix s j).metric := by
      rw [relaxed.row j]
      split
      · rfl
      · rfl
    rw [metric, relaxed.distance j]
    split
    · exact (relaxedDistance_le notSource).trans (beside.direct j notSource)
    · exact beside.direct j notSource
  hops j notSource := by
    rw [relaxedLooped.row j, relaxed.row j]
    by_cases jInside : j < total
    · rw [if_pos jInside, if_pos jInside]
      change relaxedNexthop s w (plain.visit w) j ⊆ relaxedNexthop s w (looped.visit w) j
      cases beside.passedOn (w := w) notSource with
      | kept _ hopsLooped hops =>
          rw [hopsLooped, hops]
          exact beside.hops j notSource
      | nearer _ _ hopsLooped hops =>
          rw [hopsLooped, hops]
          exact beside.hops_selected own w
      | tie _ hopsLooped hops =>
          rw [hopsLooped, hops]
          exact merged_subset (beside.hops_selected own w) (beside.hops j notSource)
    · rw [if_neg jInside, if_neg jInside]
      exact beside.hops j notSource
  room j jInside := by
    rw [relaxedLooped.row j, if_pos jInside]
    change (relaxedNexthop s w (looped.visit w) j).length ≤ maxEcmpLimit
    unfold relaxedNexthop
    split
    · exact beside.room j jInside
    · rename_i open_
      rw [not_or, not_or] at open_
      split
      · exact beside.room w wInside
      · exact fits j jInside open_.1 (Bool.eq_false_of_not_eq_true open_.2.1) (by omega)
  near j jInside notSource isNear := by
    rw [relaxed.distance_eq jInside] at isNear
    rw [relaxedLooped.row j, relaxed.row j, if_pos jInside, if_pos jInside]
    change ∃ hop rest more,
      relaxedNexthop s w (plain.visit w) j = hop :: rest ∧
        relaxedNexthop s w (looped.visit w) j = hop :: more
    cases beside.passedOn (w := w) notSource with
    | kept distance hopsLooped hops =>
        rw [hopsLooped, hops]
        exact beside.near j jInside notSource (distance ▸ isNear)
    | nearer isW behind hopsLooped hops =>
        rw [hopsLooped, hops]
        exact beside.near w wInside isW (Nat.lt_of_le_of_lt behind isNear)
    | tie distance hopsLooped hops =>
        obtain ⟨hop, rest, more, first, firstLooped⟩ :=
          beside.near j jInside notSource (distance ▸ isNear)
        obtain ⟨rest, same⟩ := merged_cons (plain.matrix s w) first
        obtain ⟨more, sameLooped⟩ := merged_cons (looped.matrix s w) firstLooped
        exact ⟨hop, rest, more, hops.trans same, hopsLooped.trans sameLooped⟩

end Passes

/-! ## The whole computation -/

section Whole

variable
  {ifid : Nat → Nat → Int}
  {loopedArea area result : AreaInfo}
  {linked : area.Linked}

theorem SelfLinked.start
    (selfLinked : SelfLinked s loopedArea area)
    (row : area.RowInitialised s) :
    Beside area.routerCount s (loopedArea.start s) (area.start s) where
  visite := rfl
  distance j notSource := selfLinked.metric s j notSource.symm
  source := selfLinked.own
  metric := selfLinked.metric
  direct _ _ := Nat.le_refl _
  hops j notSource := by
    change (area.matrix s j).nexthop ⊆ (loopedArea.matrix s j).nexthop
    rw [selfLinked.hops j notSource]
    exact List.Subset.refl _
  room j jInside := by
    change (loopedArea.matrix s j).nexthop.length ≤ maxEcmpLimit
    by_cases own : j = s
    · rw [own]
      exact selfLinked.room
    · rw [selfLinked.hops j own]
      rcases row.far j jInside with none | one
      · rw [none]
        exact Nat.zero_le _
      · rw [one]
        exact (by decide : 1 ≤ maxEcmpLimit)
  near j jInside notSource near := by
    have hops := row.near j jInside near
    exact ⟨j, [], [], hops, (selfLinked.hops j notSource).trans hops⟩

/-- Passes that end with the self-links end without them. -/
theorem SelfLinked.afterPasses
    (selfLinked : SelfLinked s loopedArea area)
    (linked : area.Linked)
    (row : area.RowInitialised s)
    (inside : s < area.routerCount)
    {k : Nat}
    (reached : Ddc.afterPasses ifid s loopedArea k = .ok after) :
    ∃ next,
      Ddc.afterPasses ifid s area k = .ok next ∧ Beside area.routerCount s after next := by
  induction k generalizing after with
  | zero =>
      cases reached
      exact ⟨area.start s, rfl, selfLinked.start row⟩
  | succ k inductionHypothesis =>
      obtain ⟨middle, before, step⟩ := afterPasses_succ_eq_ok.mp reached
      obtain ⟨state, reachedPlain, beside⟩ := inductionHypothesis before
      obtain ⟨kept, -⟩ := afterPasses_settles row linked inside reachedPlain
      obtain ⟨order, follows⟩ := afterPasses_follows row linked inside reachedPlain
      obtain ⟨wInside, source, -⟩ := kept.minCost linked inside (ifid k)
      obtain ⟨goesOn, -⟩ := kept.iteration linked inside (ifid k)
      unfold iteration at step
      rw [selfLinked.routerCount, beside.minCost kept.source] at step
      dsimp only at step
      unfold HasRoom at goesOn
      dsimp only at goesOn
      generalize Ddc.minCost area.routerCount state (ifid k) = w at wInside source goesOn step
      have marked : Marked area.routerCount s w (middle.visit w) :=
        ⟨wInside, if_pos rfl, source, beside.room⟩
      obtain ⟨goesOnLooped, stops⟩ := marked.relaxed (Nat.le_refl _)
      by_cases fits : ∀ j < area.routerCount, HasRoomFor s w (middle.visit w) j
      · obtain ⟨_, reachedLooped, relaxedLooped⟩ := goesOnLooped fits
        rw [step] at reachedLooped
        cases reachedLooped
        obtain ⟨next, stepPlain, -, -, -, relaxed⟩ := goesOn fun j jInside =>
          beside.hasRoomFor follows.own
            (nodup_merged (follows.nodup w wInside) (follows.nodup j jInside)) (fits j jInside)
        exact ⟨next, afterPasses_succ_eq_ok.mpr ⟨state, reachedPlain, stepPlain⟩,
          beside.pass follows.own inside wInside fits relaxedLooped relaxed⟩
      · rw [stops fits] at step
        cases step

/-- The self-links change neither a path cost nor a next hop that is used. -/
theorem SelfLinked.dijkstra
    (selfLinked : SelfLinked s loopedArea area)
    (linked : area.Linked)
    (row : area.RowInitialised s)
    (inside : s < area.routerCount)
    (computed : Ddc.dijkstra ifid s loopedArea = .ok result) :
    ∃ plainResult,
      Ddc.dijkstra ifid s area = .ok plainResult ∧
        ∀ j < area.routerCount,
          j ≠ s →
          (result.matrix s j).pathCost = (plainResult.matrix s j).pathCost ∧
            ((plainResult.matrix s j).pathCost < maxMetric →
              (result.matrix s j).nextHop = (plainResult.matrix s j).nextHop) := by
  obtain ⟨after, reached, rfl⟩ := dijkstra_eq_ok.mp computed
  rw [selfLinked.routerCount] at reached ⊢
  obtain ⟨next, reachedPlain, beside⟩ := selfLinked.afterPasses linked row inside reached
  refine ⟨_, dijkstra_eq_ok.mpr ⟨next, reachedPlain, rfl⟩, fun j jInside notSource => ?_⟩
  have entry (state : DijkstraState) :
      (state.finish area.routerCount s s j).pathCost = state.distance j ∧
        (state.finish area.routerCount s s j).nextHop = (state.matrix s j).nexthop.headD s := by
    unfold DijkstraState.finish
    rw [if_pos ⟨rfl, jInside⟩]
    exact ⟨rfl, rfl⟩
  dsimp only
  rw [(entry after).1, (entry after).2, (entry next).1, (entry next).2]
  refine ⟨beside.distance j notSource, fun near => ?_⟩
  obtain ⟨hop, rest, more, hops, hopsLooped⟩ := beside.near j jInside notSource near
  rw [hops, hopsLooped]
  rfl

end Whole

end Pma.Ddc
