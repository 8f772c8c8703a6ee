import Pma.DdcSelfLinks
import Pma.LidbRecording

namespace Pma.Lidb

open Ddc (maxMetric maxEcmpLimit)

/-!
# Areas whose routers have links to themselves

If every router has a link to itself, of metric 0, the entries of the diagonal
are passed over when the paths are recorded.  What is found between distinct
routers is what is found without these links.
-/

/-! ## The table without the self-links -/

/-- A link of a router to itself as a row without a neighbour. -/
def withoutSelf (link : TopoLink) : TopoLink :=
  if link.rid = link.nrid then { link with nrid := 0, nifid := 0 } else link

section Tables

variable {routers : List UInt32} {table : List TopoLink} {areaid : UInt32}

theorem withoutSelf_fields
    (link : TopoLink) :
    (withoutSelf link).areaid = link.areaid ∧ (withoutSelf link).rid = link.rid := by
  unfold withoutSelf
  split
  · exact ⟨rfl, rfl⟩
  · exact ⟨rfl, rfl⟩

theorem isAccess_withoutSelf
    {link : TopoLink} :
    IsAccess (withoutSelf link) ↔ IsAccess link ∨ link.rid = link.nrid := by
  unfold withoutSelf
  split
  · rename_i own
    exact iff_of_true ⟨rfl, rfl⟩ (.inr own)
  · rename_i other
    exact (or_iff_left other).symm

theorem getLinkStates_withoutSelf
    (table : List TopoLink)
    (areaid : UInt32) :
    getLinkStates (table.map withoutSelf) areaid =
      (getLinkStates table areaid).map withoutSelf := by
  unfold getLinkStates
  rw [List.filter_map]
  congr 2
  funext link
  rw [Function.comp_apply, (withoutSelf_fields link).1]

theorem getRouters_withoutSelf
    (table : List TopoLink)
    (areaid : UInt32) :
    getRouters (table.map withoutSelf) areaid = getRouters table areaid := by
  unfold getRouters
  rw [getLinkStates_withoutSelf, List.map_map]
  congr 3
  funext link
  exact (withoutSelf_fields link).2

/-- A self-link writes on the diagonal. -/
theorem addLink_withoutSelf
    {matrix plain next : Matrix}
    {entry : TopoLink × Nat}
    (known : entry.1.rid ∈ routers)
    (same : ∀ i j, i ≠ j → matrix i j = plain i j)
    (added : addLink routers matrix entry = .ok next) :
    ∃ nextPlain,
      addLink routers plain (withoutSelf entry.1, entry.2) = .ok nextPlain ∧
        ∀ i j, i ≠ j → next i j = nextPlain i j := by
  obtain ⟨link, index⟩ := entry
  dsimp only at known ⊢
  by_cases passed : IsAccess link ∨ link.rid = link.nrid
  · refine ⟨plain, if_pos (isAccess_withoutSelf.mpr passed), fun i j other => ?_⟩
    rw [← same i j other]
    unfold addLink at added
    dsimp only at added
    split at added
    · cases added
      rfl
    · rename_i backbone
      have own := passed.resolve_left backbone
      split at added
      · rename_i inside
        cases added
        obtain ⟨x, found, isRouter⟩ :=
          (getIndexByRid_cases routers link.rid).resolve_right fun missing => missing.2 known
        have xInside := (List.getElem?_eq_some_iff.mp isRouter).1
        have place : position routers link = x * routers.length + x := by
          rw [position, ← own, found]
        obtain ⟨row, column⟩ := (place_iff inside.1 xInside).mpr place
        rw [Matrix.setNode, if_neg]
        rintro ⟨rfl, rfl⟩
        exact other (row.symm.trans column)
      · cases added
  · rw [not_or] at passed
    have kept : withoutSelf link = link := if_neg passed.2
    rw [kept]
    unfold addLink at added ⊢
    dsimp only at added ⊢
    rw [if_neg passed.1] at added ⊢
    split at added
    · rename_i inside
      cases added
      rw [if_pos inside]
      refine ⟨_, rfl, fun i j other => ?_⟩
      unfold Matrix.setNode
      split
      · rename_i written
        obtain ⟨rfl, rfl⟩ := written
        rw [same _ _ other]
      · exact same i j other
    · cases added

/-- The matrix is the same without the self-links, but for its diagonal. -/
theorem initMatrix_withoutSelf
    {lslist : List TopoLink}
    {matrix : Matrix}
    (known : ∀ link ∈ lslist, link.rid ∈ routers)
    (made : initMatrix routers lslist = .ok matrix) :
    ∃ plain,
      initMatrix routers (lslist.map withoutSelf) = .ok plain ∧
        ∀ i j, i ≠ j → matrix i j = plain i j := by
  have loop (entries : List (TopoLink × Nat)) :
      (∀ entry ∈ entries, entry.1.rid ∈ routers) →
      ∀ before plain,
        (∀ i j, i ≠ j → before i j = plain i j) →
        entries.foldlM (addLink routers) before = .ok matrix →
        ∃ last,
          (entries.map (Prod.map withoutSelf id)).foldlM (addLink routers) plain = .ok last ∧
            ∀ i j, i ≠ j → matrix i j = last i j := by
    induction entries with
    | nil =>
        intro _ before plain same ends
        cases ends
        exact ⟨plain, rfl, same⟩
    | cons entry rest inductionHypothesis =>
        intro known before plain same ends
        rw [List.forall_mem_cons] at known
        rw [List.foldlM_cons] at ends
        obtain ⟨middle, first, later⟩ := Loops.bind_eq_ok.mp ends
        obtain ⟨middlePlain, firstPlain, sameMiddle⟩ := addLink_withoutSelf known.1 same first
        obtain ⟨last, laterPlain, sameLast⟩ :=
          inductionHypothesis known.2 middle middlePlain sameMiddle later
        refine ⟨last, ?_, sameLast⟩
        rw [List.map_cons, List.foldlM_cons]
        exact Loops.bind_eq_ok.mpr ⟨middlePlain, firstPlain, laterPlain⟩
  unfold initMatrix at made ⊢
  rw [List.zipIdx_map]
  exact loop lslist.zipIdx
    (fun entry member => known entry.1 (List.fst_mem_of_mem_zipIdx member))
    (fun _ _ => noLink) (fun _ _ => noLink) (fun _ _ _ => rfl) made

/-- A link of the area without self-links is one of the area. -/
theorem LinkPath.withSelf
    {routers : List UInt32}
    {lslist : List TopoLink}
    {i j cost : Nat}
    {links : List Nat}
    (path : LinkPath routers (lslist.map withoutSelf) i j links cost) :
    LinkPath routers lslist i j links cost := by
  induction path with
  | nil =>
      exact .nil
  | @cons i b j x rest links link listed joins _ inductionHypothesis =>
      rw [List.getElem?_map] at listed
      obtain ⟨original, at_, same⟩ := Option.map_eq_some_iff.mp listed
      have other : original.rid ≠ original.nrid := fun own =>
        joins.1 (same ▸ isAccess_withoutSelf.mpr (.inr own))
      have kept : link = original := same.symm.trans (if_neg other)
      subst kept
      exact .cons at_ joins inductionHypothesis

/-- A matrix with self-links is as small as the one without them. -/
theorem sized_of_others
    {az plain : AreaInfo}
    (initialised : initLidbInfo table areaid = .ok az)
    (sized : Sized plain.routerCount plain.matrix)
    (count : plain.routerCount = az.routerCount)
    (others : ∀ i j, i ≠ j → az.matrix i j = plain.matrix i j)
    (diagonal : ∀ i < az.routerCount, (az.matrix i i).metric = 0) :
    Sized az.routerCount az.matrix := by
  obtain ⟨-, -, -, made⟩ := initLidbInfo_fields initialised
  have filled := initMatrix_filled made
  refine ⟨initLidbInfo_bounded initialised, fun i iInside j jInside hop member => ?_,
    fun i j => ?_⟩
  · by_cases own : i = j
    · subst own
      have none : hop = 0 ∨ hop = i := by
        cases (filled i i).1 with
        | unset nexthop _ =>
            rw [nexthop, Vector.toList_replicate] at member
            exact .inl (List.mem_replicate.mp member).2
        | set y nexthop _ column =>
            rw [nexthop, Vector.toList_set, Vector.toList_replicate] at member
            rcases List.mem_or_eq_of_mem_set member with zero | same
            · exact .inl (List.mem_replicate.mp zero).2
            · rcases column with column | ⟨-, last, earlier⟩
              · exact .inr (same.trans column)
              · omega
      omega
    · rw [others i j own] at member
      rw [← count] at iInside jInside ⊢
      exact sized.hops i iInside j jInside hop member
  · by_cases own : i = j
    · subst own
      by_cases inside : i < az.routerCount
      · rw [diagonal i inside]
        decide
      · rw [(filled i i).2 fun both => inside both.1]
        decide
    · rw [others i j own]
      exact sized.metric i j

end Tables

/-! ## The rows from all sources -/

/-- An area whose routers have links to themselves, and the area without them. -/
structure Unlooped (az plain : AreaInfo) : Prop where
  routers : plain.routers = az.routers
  lslist : plain.lslist = az.lslist.map withoutSelf
  others : ∀ i j, i ≠ j → az.matrix i j = plain.matrix i j
  diagonal : ∀ i < az.routerCount, (az.matrix i i).metric = 0
  sized : Sized az.routerCount az.matrix

/-- What the computations from the first `k` sources leave in both. -/
structure RowsBeside
    (az plain : AreaInfo)
    (linked : plain.view.Linked)
    (k : Nat)
    (result plainResult : AreaInfo) : Prop where
  computed : RowsComputed k az result
  sized : Sized az.routerCount result.matrix
  found : RowsFound plain linked k plainResult
  same :
    ∀ s < k,
      s < az.routerCount →
      ∀ j < az.routerCount,
        j ≠ s →
        (result.matrix s j).pathCost = (plainResult.matrix s j).pathCost ∧
          ((plainResult.matrix s j).pathCost.toNat < maxMetric →
            (result.matrix s j).nextHop = (plainResult.matrix s j).nextHop)

section Sources

variable
  {az plain result plainResult next : AreaInfo}
  {linked : plain.view.Linked}
  {s k : Nat}

theorem Unlooped.routerCount
    (unlooped : Unlooped az plain) :
    plain.routerCount = az.routerCount :=
  congrArg List.length unlooped.routers

/-- `nextHop` is a router. -/
theorem dijkstra_nextHop_nonneg
    {ifid : Nat → Nat → Int}
    (sized : Sized az.routerCount az.matrix)
    (inside : s < az.routerCount)
    (computed : dijkstra ifid s az = .ok result)
    {j : Nat}
    (jInside : j < az.routerCount) :
    0 ≤ (result.matrix s j).nextHop := by
  obtain ⟨state, reached, rfl⟩ := Loops.map_eq_ok.mp computed
  obtain ⟨_, -, small, -⟩ := (afterPasses_agrees sized inside _).to_ok reached
  change 0 ≤ (state.finish az.routerCount s s j).nextHop
  unfold DijkstraState.finish
  rw [if_pos ⟨rfl, jInside⟩]
  dsimp only
  split
  · exact (small.sized.hops s inside j jInside _ (Netnode.hopAt_mem (by decide))).1
  · exact Int.natCast_nonneg s

/-- One source in both. -/
theorem RowsBeside.selfLinked
    (unlooped : Unlooped az plain)
    (beside : RowsBeside az plain linked k result plainResult)
    (inside : k < az.routerCount) :
    Ddc.SelfLinked k result.view plainResult.view where
  routerCount := by
    change result.routerCount = plainResult.routerCount
    rw [beside.computed.routerCount, beside.found.computed.routerCount, unlooped.routerCount]
  metric i j other := by
    change (result.matrix i j).metric.toNat = (plainResult.matrix i j).metric.toNat
    rw [beside.computed.metric, beside.found.computed.metric, unlooped.others i j other]
  hops j notSource := by
    change (result.matrix k j).hops.map Int.toNat = (plainResult.matrix k j).hops.map Int.toNat
    rw [beside.computed.later k (Nat.le_refl k) j,
      beside.found.computed.later k (Nat.le_refl k) j, unlooped.others k j notSource.symm]
  own := by
    change (result.matrix k k).metric.toNat = 0
    rw [beside.computed.metric, unlooped.diagonal k inside]
    rfl
  room := view_room (beside.sized.bounded k k)

/-- The next source in both. -/
theorem RowsBeside.step
    (unlooped : Unlooped az plain)
    (beside : RowsBeside az plain linked k result plainResult)
    (row : plain.view.RowInitialised k)
    (inside : k < az.routerCount)
    {ifid : Nat → Nat → Int}
    (step : dijkstra ifid k result = .ok next) :
    ∃ plainNext,
      dijkstra ifid k plainResult = .ok plainNext ∧
        RowsBeside az plain linked (k + 1) next plainNext := by
  have count := beside.computed.routerCount
  have plainCount := beside.found.computed.routerCount.trans unlooped.routerCount
  have sized : Sized result.routerCount result.matrix := by
    rw [count]
    exact beside.sized
  have plainSized : Sized plainResult.routerCount plainResult.matrix := by
    rw [beside.found.computed.routerCount]
    exact beside.found.sized
  have resultInside : k < result.routerCount := by
    rw [count]
    exact inside
  have plainInside : k < plainResult.routerCount := by
    rw [plainCount]
    exact inside
  obtain ⟨still, -⟩ := beside.found.computed.network linked
  obtain ⟨abstract, reached, computed⟩ := (dijkstra_agrees ifid sized resultInside).to_ok step
  obtain ⟨plainAbstract, plainReached, same⟩ :=
    (beside.selfLinked unlooped inside).dijkstra still (beside.found.computed.row row)
      plainInside reached
  obtain ⟨plainNext, plainStep, plainComputed⟩ :=
    (dijkstra_agrees ifid plainSized plainInside).of_ok plainReached
  have kept := dijkstra_rowComputed beside.computed.bounded step
  have plainKept := dijkstra_rowComputed beside.found.computed.bounded plainStep
  have found := beside.found.step row (by rw [unlooped.routerCount]; exact inside) plainStep
  refine ⟨plainNext, plainStep, beside.computed.step step, count ▸ computed.sized, found, ?_⟩
  intro i within iInside j jInside other
  rcases Nat.lt_succ_iff_lt_or_eq.mp within with earlier | rfl
  · rw [kept.links.others i j (Nat.ne_of_lt earlier),
      plainKept.links.others i j (Nat.ne_of_lt earlier)]
    exact beside.same i earlier iInside j jInside other
  · obtain ⟨cost, hop⟩ := same j (by
      change j < plainResult.routerCount
      rw [plainCount]
      exact jInside) other
    rw [← computed.view, ← plainComputed.view] at cost hop
    refine ⟨UInt32.toNat_inj.mp cost, fun near => ?_⟩
    have natural :
        (next.matrix i j).nextHop.toNat = (plainNext.matrix i j).nextHop.toNat := hop near
    have nonnegative := dijkstra_nextHop_nonneg sized resultInside step
      (show j < result.routerCount by rw [count]; exact jInside)
    have plainNonnegative := dijkstra_nextHop_nonneg plainSized plainInside plainStep
      (show j < plainResult.routerCount by rw [plainCount]; exact jInside)
    omega

/-- The computations from all sources in both. -/
theorem dijkstraUpTo_beside
    (unlooped : Unlooped az plain)
    (linked : plain.view.Linked)
    (rows : ∀ i < plain.routerCount, plain.view.RowInitialised i)
    (plainSized : Sized plain.routerCount plain.matrix)
    {ifid : Nat → Nat → Nat → Int}
    (within : k ≤ az.routerCount)
    (computed : dijkstraUpTo ifid az k = .ok result) :
    ∃ plainResult,
      dijkstraUpTo ifid plain k = .ok plainResult ∧
        RowsBeside az plain linked k result plainResult := by
  induction k generalizing result with
  | zero =>
      cases computed
      refine ⟨plain, rfl, ?_, unlooped.sized, .start plainSized linked,
        fun s none => absurd none (Nat.not_lt_zero s)⟩
      exact dijkstraUpTo_rowsComputed unlooped.sized.bounded
        (rfl : dijkstraUpTo ifid az 0 = _)
  | succ k inductionHypothesis =>
      rw [dijkstraUpTo_succ] at computed
      obtain ⟨before, earlier, step⟩ := Loops.bind_eq_ok.mp computed
      obtain ⟨plainBefore, plainEarlier, beside⟩ :=
        inductionHypothesis (Nat.le_of_succ_le within) earlier
      obtain ⟨plainNext, plainStep, besideNext⟩ :=
        beside.step unlooped (rows k (by rw [unlooped.routerCount]; exact within)) within step
      refine ⟨plainNext, ?_, besideNext⟩
      rw [dijkstraUpTo_succ]
      exact Loops.bind_eq_ok.mpr ⟨plainBefore, plainEarlier, plainStep⟩

end Sources

/-! ## The walks -/

section Walks

variable
  {table : List TopoLink}
  {areaid : UInt32}
  {az plain result plainResult : AreaInfo}
  {linked : plain.view.Linked}

/-- Every entry has the place of a link, or -1. -/
theorem initLidbInfo_linkIndex_lt
    (initialised : initLidbInfo table areaid = .ok az)
    (i : Nat)
    {j : Nat}
    (inside : j < az.routerCount) :
    (az.matrix i j).linkIndex < az.lslist.length := by
  obtain ⟨-, -, described⟩ := initLidbInfo_describes initialised
  have entry := described i j inside
  cases found : lastWrite az.routers az.lslist.zipIdx i j with
  | none =>
      rw [found] at entry
      rw [show az.matrix i j = noLink from entry]
      change (-1 : Int) < _
      omega
  | some written =>
      rw [found] at entry
      obtain ⟨listed, -⟩ := lastWrite_zipIdx.mp found
      rw [entry.2.1]
      exact_mod_cast (List.getElem?_eq_some_iff.mp listed).1

/--
The walk to a router that is near ends with the self-links too.  On the diagonal
it hands on the place of the self-link.  The induction is on the distance.
-/
theorem RowsBeside.walk_ok
    (unlooped : Unlooped az plain)
    (beside : RowsBeside az plain linked az.routerCount result plainResult)
    (initialised : initLidbInfo table areaid = .ok az)
    (plainInitialised : initLidbInfo (table.map withoutSelf) areaid = .ok plain)
    (rows : ∀ i < plain.routerCount, plain.view.RowInitialised i)
    {a j cost : Nat}
    (aInside : a < az.routerCount)
    (jInside : j < az.routerCount)
    (other : j ≠ a)
    (distance : ShortestPaths.Distance (plain.view.network linked) a j cost)
    (below : cost < maxMetric)
    {fuel : Nat}
    (enough : 2 * cost < fuel) :
    ∃ linkIndices,
      walk result j fuel a (result.matrix a j).nextHop = .ok linkIndices ∧
        ∀ linkIndex ∈ linkIndices, linkIndex < az.lslist.length := by
  induction cost using Nat.strong_induction_on generalizing a fuel with
  | _ cost inductionHypothesis =>
      have plainCount := unlooped.routerCount
      have count := beside.computed.routerCount
      have found : RowsFound plain linked plain.routerCount plainResult := by
        rw [plainCount]
        exact beside.found
      obtain ⟨b, x, rest, link, plainHop, bInside, -, -, -, later, positive, rfl⟩ :=
        found.hop plainInitialised rows (by rw [plainCount]; exact aInside)
          (by rw [plainCount]; exact jInside) other distance below
      rw [plainCount] at bInside
      have aPlain : a < plain.routerCount := by
        rw [plainCount]
        exact aInside
      have near := (found.found a aPlain aPlain).near j
        (by rw [plainCount]; exact jInside) other _ distance below
      have nextHop : (result.matrix a j).nextHop = b :=
        ((beside.same a aInside aInside j jInside other).2 (by omega)).trans plainHop
      obtain ⟨fuel, rfl⟩ : ∃ less, fuel = less + 2 := ⟨fuel - 2, by omega⟩
      have bResult : b < result.routerCount := by
        rw [count]
        exact bInside
      have place (c : Nat) : (result.matrix c b).linkIndex < az.lslist.length := by
        rw [beside.computed.linkIndex]
        exact initLidbInfo_linkIndex_lt initialised c bInside
      rw [nextHop, walk_hop (fuel + 1) other.symm bResult, nextHop]
      by_cases arrived : b = j
      · refine ⟨[(result.matrix a b).linkIndex], ?_, ?_⟩
        · rw [walk, if_neg fun both => both.1 arrived]
          rfl
        · rw [List.forall_mem_singleton]
          exact place a
      · obtain ⟨linkIndices, walked, within⟩ :=
          inductionHypothesis rest (by omega) bInside (fun same => arrived same.symm) later
            (by omega) (by omega : 2 * rest < fuel)
        refine ⟨(result.matrix a b).linkIndex :: (result.matrix b b).linkIndex :: linkIndices,
          ?_, ?_⟩
        · rw [walk_hop fuel arrived bResult, walked]
          rfl
        · rw [List.forall_mem_cons, List.forall_mem_cons]
          exact ⟨place a, place b, within⟩

end Walks

end Pma.Lidb
