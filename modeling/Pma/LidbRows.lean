import Pma.LidbEcmp
import Pma.LidbMatrix

namespace Pma.Lidb

/-!
# What `dijkstra` leaves alone

`dijkstra` writes the row of its source, and there neither the metrics nor the
links.  This holds for any rows of `pma_lsdb`, whatever the sums of the metrics
are.
-/

/-- Only the row of `s` was written, and the links are what they were. -/
structure KeepsLinks (s : Nat) (before after : Matrix) : Prop where
  others : ∀ i j, i ≠ s → after i j = before i j
  metric : ∀ i j, (after i j).metric = (before i j).metric
  linkIndex : ∀ i j, (after i j).linkIndex = (before i j).linkIndex
  link : ∀ i j, (after i j).link = (before i j).link

variable {s w : Nat}

theorem KeepsLinks.refl
    (s : Nat)
    (matrix : Matrix) :
    KeepsLinks s matrix matrix :=
  ⟨fun _ _ _ => rfl, fun _ _ => rfl, fun _ _ => rfl, fun _ _ => rfl⟩

theorem KeepsLinks.trans
    {before middle after : Matrix}
    (first : KeepsLinks s before middle)
    (second : KeepsLinks s middle after) :
    KeepsLinks s before after where
  others i j other := (second.others i j other).trans (first.others i j other)
  metric i j := (second.metric i j).trans (first.metric i j)
  linkIndex i j := (second.linkIndex i j).trans (first.linkIndex i j)
  link i j := (second.link i j).trans (first.link i j)

/-- An entry of the row is replaced by one with the same link. -/
theorem KeepsLinks.of_entries
    {before after : Matrix}
    (others : ∀ i j, i ≠ s → after i j = before i j)
    (row :
      ∀ j,
        (after s j).metric = (before s j).metric ∧
          (after s j).linkIndex = (before s j).linkIndex ∧
          (after s j).link = (before s j).link) :
    KeepsLinks s before after := by
  have entry (i j : Nat) :
      (after i j).metric = (before i j).metric ∧
        (after i j).linkIndex = (before i j).linkIndex ∧
        (after i j).link = (before i j).link := by
    by_cases own : i = s
    · rw [own]
      exact row j
    · rw [others i j own]
      exact ⟨rfl, rfl, rfl⟩
  exact ⟨others, fun i j => (entry i j).1, fun i j => (entry i j).2.1,
    fun i j => (entry i j).2.2⟩

section Passes

variable {state after : DijkstraState} {total : Nat} {curIfindex : Nat → Int}

theorem Touched.keepsLinks
    {j : Nat}
    (touched : Touched s w j state after) :
    KeepsLinks s state.matrix after.matrix := by
  rcases touched.matrix with same | ⟨node, rewritten, written⟩
  · rw [same]
    exact .refl s _
  · rw [written]
    refine .of_entries (fun i column other => if_neg fun both => other both.1) fun column => ?_
    unfold Matrix.setNode
    split
    · rename_i own
      rw [own.2, rewritten.fields]
      exact ⟨rfl, rfl, rfl⟩
    · exact ⟨rfl, rfl, rfl⟩

/-- A pass of the outer loop, which has set the distance of the source. -/
theorem iteration_keepsLinks
    (bounded : Bounded state.matrix)
    (step : iteration total s state curIfindex = .ok after) :
    KeepsLinks s state.matrix after.matrix ∧ (s < total → after.distance s = 0) := by
  obtain ⟨⟨w, last⟩, reached, rfl⟩ := Loops.map_eq_ok.mp step
  obtain ⟨selected, -, reached⟩ := Loops.bind_eq_ok.mp reached
  obtain ⟨last, loop, same⟩ := Loops.bind_eq_ok.mp reached
  cases same
  have passes (m : Nat) :
      ∀ last,
        (List.range m).foldlM (relax s w) (state.visit w) = .ok last →
        Bounded last.matrix ∧
          KeepsLinks s state.matrix last.matrix ∧ (s < m → last.distance s = 0) := by
    induction m with
    | zero =>
        intro last ends
        cases ends
        exact ⟨bounded, .refl s _, fun none => absurd none (Nat.not_lt_zero s)⟩
    | succ m inductionHypothesis =>
        intro last ends
        rw [Loops.foldlM_range_succ] at ends
        obtain ⟨middle, earlier, pass⟩ := Loops.bind_eq_ok.mp ends
        obtain ⟨boundedMiddle, kept, source⟩ := inductionHypothesis middle earlier
        have touched := relax_touched boundedMiddle pass
        refine ⟨relax_bounded boundedMiddle pass, kept.trans touched.keepsLinks, fun within => ?_⟩
        by_cases own : m = s
        · exact touched.source own
        · rw [touched.distance s fun same => own same.symm]
          exact source (by omega)
  obtain ⟨-, kept, source⟩ := passes total _ loop
  exact ⟨kept, source⟩

end Passes

section Sources

variable {az result : AreaInfo} {ifid : Nat → Nat → Int}

theorem afterPasses_keepsLinks
    (bounded : Bounded az.matrix)
    {k : Nat}
    {state : DijkstraState}
    (reached : afterPasses ifid s az k = .ok state) :
    KeepsLinks s az.matrix state.matrix ∧
      (s < az.routerCount → 0 < k → state.distance s = 0) := by
  cases k with
  | zero =>
      cases reached
      exact ⟨.refl s _, fun _ none => absurd none (Nat.lt_irrefl 0)⟩
  | succ k =>
      rw [afterPasses_succ] at reached
      obtain ⟨before, earlier, last⟩ := Loops.bind_eq_ok.mp reached
      have kept : KeepsLinks s az.matrix before.matrix := by
        refine (Loops.foldlM_invariant
          (fun state => Bounded state.matrix ∧ KeepsLinks s az.matrix state.matrix)
          (fun middle _ next _ invariant step => ?_) ⟨bounded, .refl s _⟩ earlier).2
        exact ⟨iteration_bounded invariant.1 step,
          invariant.2.trans (iteration_keepsLinks invariant.1 step).1⟩
      obtain ⟨keptLast, source⟩ :=
        iteration_keepsLinks (afterPasses_bounded bounded earlier) last
      exact ⟨kept.trans keptLast, fun inside _ => source inside⟩

/-- What a computation changes, for any table. -/
structure RowComputed (s : Nat) (az result : AreaInfo) : Prop where
  azid : result.azid = az.azid
  routers : result.routers = az.routers
  lslist : result.lslist = az.lslist
  links : KeepsLinks s az.matrix result.matrix
  source : s < az.routerCount → (result.matrix s s).pathCost = 0

theorem dijkstra_rowComputed
    (bounded : Bounded az.matrix)
    (computed : dijkstra ifid s az = .ok result) :
    RowComputed s az result := by
  obtain ⟨state, reached, rfl⟩ := Loops.map_eq_ok.mp computed
  obtain ⟨kept, source⟩ := afterPasses_keepsLinks bounded reached
  have finished : KeepsLinks s state.matrix (state.finish az.routerCount s) := by
    refine .of_entries (fun i j other => if_neg fun both => other both.1) fun j => ?_
    unfold DijkstraState.finish
    dsimp only
    split
    · exact ⟨rfl, rfl, rfl⟩
    · exact ⟨rfl, rfl, rfl⟩
  refine ⟨rfl, rfl, rfl, kept.trans finished, fun inside => ?_⟩
  change (state.finish az.routerCount s s s).pathCost = 0
  unfold DijkstraState.finish
  rw [if_pos ⟨rfl, inside⟩]
  dsimp only
  rw [source inside (Nat.zero_lt_of_lt inside)]
  rfl

/-- What the computations from the first `k` sources change, for any table. -/
structure RowsComputed (k : Nat) (az result : AreaInfo) : Prop where
  bounded : Bounded result.matrix
  azid : result.azid = az.azid
  routers : result.routers = az.routers
  lslist : result.lslist = az.lslist
  later : ∀ i ≥ k, ∀ j, result.matrix i j = az.matrix i j
  metric : ∀ i j, (result.matrix i j).metric = (az.matrix i j).metric
  linkIndex : ∀ i j, (result.matrix i j).linkIndex = (az.matrix i j).linkIndex
  link : ∀ i j, (result.matrix i j).link = (az.matrix i j).link
  diagonal : ∀ i < k, i < az.routerCount → (result.matrix i i).pathCost = 0

theorem RowsComputed.routerCount
    {k : Nat}
    (computed : RowsComputed k az result) :
    result.routerCount = az.routerCount :=
  congrArg List.length computed.routers

/-- One more source. -/
theorem RowsComputed.step
    {k : Nat}
    {next : AreaInfo}
    (rows : RowsComputed k az result)
    (step : dijkstra ifid k result = .ok next) :
    RowsComputed (k + 1) az next := by
  have row := dijkstra_rowComputed rows.bounded step
  constructor
  case bounded => exact dijkstra_bounded rows.bounded step
  case azid => exact row.azid.trans rows.azid
  case routers => exact row.routers.trans rows.routers
  case lslist => exact row.lslist.trans rows.lslist
  case later =>
    intro i later j
    exact (row.links.others i j (Nat.ne_of_gt later)).trans
      (rows.later i (Nat.le_of_succ_le later) j)
  case metric => exact fun i j => (row.links.metric i j).trans (rows.metric i j)
  case linkIndex => exact fun i j => (row.links.linkIndex i j).trans (rows.linkIndex i j)
  case link => exact fun i j => (row.links.link i j).trans (rows.link i j)
  case diagonal =>
    intro i within inside
    rcases Nat.lt_succ_iff_lt_or_eq.mp within with earlier | rfl
    · rw [row.links.others i i (Nat.ne_of_lt earlier)]
      exact rows.diagonal i earlier inside
    · exact row.source (by rw [rows.routerCount]; exact inside)

theorem dijkstraUpTo_rowsComputed
    {answers : Nat → Nat → Nat → Int}
    (bounded : Bounded az.matrix)
    {k : Nat}
    (computed : dijkstraUpTo answers az k = .ok result) :
    RowsComputed k az result := by
  induction k generalizing result with
  | zero =>
      cases computed
      exact ⟨bounded, rfl, rfl, rfl, fun _ _ _ => rfl, fun _ _ => rfl, fun _ _ => rfl,
        fun _ _ => rfl, fun i none => absurd none (Nat.not_lt_zero i)⟩
  | succ k inductionHypothesis =>
      rw [dijkstraUpTo_succ] at computed
      obtain ⟨before, earlier, step⟩ := Loops.bind_eq_ok.mp computed
      exact (inductionHypothesis earlier).step step

end Sources

/-! ## The links of the entries -/

/-- Every entry is described by the last link that writes it. -/
theorem initLidbInfo_describes
    {table : List TopoLink}
    {areaid : UInt32}
    {az : AreaInfo}
    (initialised : initLidbInfo table areaid = .ok az) :
    az.routers = getRouters table areaid ∧
      az.lslist = getLinkStates table areaid ∧
      ∀ x, ∀ y < az.routerCount,
        Describes az.routers (az.matrix x y) (lastWrite az.routers az.lslist.zipIdx x y) := by
  obtain ⟨matrix, made, rfl⟩ := Loops.map_eq_ok.mp initialised
  refine ⟨rfl, rfl, ?_⟩
  unfold initMatrix at made
  obtain ⟨goesOn, stops⟩ :=
    @foldlM_addLink (getRouters table areaid) (getLinkStates table areaid).zipIdx
  by_cases inside :
      ∀ entry ∈ (getLinkStates table areaid).zipIdx,
        WritesInside (getRouters table areaid) entry.1
  · obtain ⟨same, reached, described⟩ := goesOn inside
    rw [made] at reached
    cases reached
    exact described
  · rw [stops inside] at made
    cases made

theorem initLidbInfo_nodup
    {table : List TopoLink}
    {areaid : UInt32}
    {az : AreaInfo}
    (initialised : initLidbInfo table areaid = .ok az) :
    az.routers.Nodup := by
  rw [(initLidbInfo_describes initialised).1]
  exact nodup_getRouters table areaid

section Entries

variable {table : List TopoLink} {areaid : UInt32} {az : AreaInfo}

theorem initLidbInfo_fields
    (initialised : initLidbInfo table areaid = .ok az) :
    az.azid = areaid ∧ az.routers = getRouters table areaid ∧
      az.lslist = getLinkStates table areaid ∧
      initMatrix az.routers az.lslist = .ok az.matrix := by
  obtain ⟨matrix, made, rfl⟩ := Loops.map_eq_ok.mp initialised
  exact ⟨rfl, rfl, rfl, made⟩

/-- Two routers with a link between them have an entry, of the least metric. -/
theorem LastIsLeast.entry
    (last : LastIsLeast (getRouters table areaid) (getLinkStates table areaid))
    (initialised : initLidbInfo table areaid = .ok az)
    {x y : Nat}
    (xInside : x < az.routerCount)
    (yInside : y < az.routerCount)
    (joined : ∃ link ∈ az.lslist, Joins az.routers x y link) :
    (az.matrix x y).link ≠ none ∧
      (∃ link ∈ az.lslist,
        Joins az.routers x y link ∧ (az.matrix x y).metric = link.metric) ∧
      ∀ link ∈ az.lslist,
        Joins az.routers x y link → (az.matrix x y).metric ≤ link.metric := by
  obtain ⟨-, routers, lslist, made⟩ := initLidbInfo_fields initialised
  obtain ⟨matrix, sameMade, right⟩ :=
    last.matrixRight (nodup_getRouters table areaid) fun link member =>
      mem_getRouters.mpr ⟨link, member, rfl⟩
  rw [← routers, ← lslist] at sameMade right
  rw [made] at sameMade
  cases sameMade
  obtain ⟨default, chosen⟩ := right x xInside y yInside
  obtain ⟨j, link, listed, joins, least, metric, -⟩ := chosen joined
  refine ⟨fun none => ?_, ⟨link, List.mem_of_getElem? listed, joins, metric⟩, ?_⟩
  · obtain ⟨-, -, described⟩ := initLidbInfo_describes initialised
    have entry := described x y yInside
    cases found : lastWrite az.routers az.lslist.zipIdx x y with
    | none =>
        rw [found] at entry
        exact default.mp entry joined
    | some written =>
        rw [found] at entry
        rw [entry.1] at none
        cases none
  · rw [metric]
    exact least

end Entries

end Pma.Lidb
