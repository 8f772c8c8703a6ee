import Pma.Lidb
import Pma.Loops

namespace Pma.Lidb

open Ddc (maxMetric maxEcmpLimit)

/-!
# The loops over the next hops

`nexthop_copy` and `equal_path_copy` count their indices themselves.  Both write
behind what they have written, so what they leave can be said of lists, and the
first write that is out of place is at `MAX_ECMP_LIMIT`.
-/

/-- The first `nexthop_count` entries of `nexthop`. -/
def Netnode.hops (node : Netnode) : List Int :=
  node.nexthop.toList.take node.nexthopCount

/-- The next hops of `dst` and then those of `w` that it does not have. -/
def merged (w dst : Netnode) : List Int :=
  dst.hops ++ w.hops.filter (· ∉ dst.hops)

/-- What the two functions leave alone in `dst`. -/
structure Rewritten (w dst node : Netnode) : Prop where
  fields :
    node = { dst with nexthop := node.nexthop, nexthopCount := node.nexthopCount }
  count : node.nexthopCount ≤ maxEcmpLimit
  entries :
    ∀ hop ∈ node.nexthop.toList, hop ∈ dst.nexthop.toList ∨ hop ∈ w.nexthop.toList

section

variable {w dst node : Netnode}

theorem Netnode.length_hops
    (room : node.nexthopCount ≤ maxEcmpLimit) :
    node.hops.length = node.nexthopCount := by
  rw [hops, List.length_take, Vector.length_toList, Nat.min_eq_left room]

theorem Netnode.hopAt_eq
    {index : Nat}
    (inside : index < maxEcmpLimit) :
    node.nexthop.toList[index]? = some (node.hopAt index) := by
  have within : index < node.nexthop.toList.length := by
    rw [Vector.length_toList]
    exact inside
  rw [hopAt, List.getD_eq_getElem?_getD, List.getElem?_eq_getElem within, Option.getD_some]

theorem Netnode.hopAt_mem
    {index : Nat}
    (inside : index < maxEcmpLimit) :
    node.hopAt index ∈ node.nexthop.toList :=
  List.mem_of_getElem? (hopAt_eq inside)

/-- One more entry of the array. -/
theorem Netnode.take_succ
    {index : Nat}
    (inside : index < maxEcmpLimit) :
    node.nexthop.toList.take (index + 1) =
      node.nexthop.toList.take index ++ [node.hopAt index] := by
  rw [List.take_add_one, hopAt_eq inside]
  rfl

/-- A write behind the entries that count appends one. -/
theorem Netnode.writeNexthop_end
    (inside : node.nexthopCount < maxEcmpLimit)
    (hop : Int) :
    ∃ next,
      node.writeNexthop node.nexthopCount hop = .ok next ∧
        next.hops = node.hops ++ [hop] ∧
        next.nexthopCount = node.nexthopCount + 1 ∧
        next = { node with nexthop := next.nexthop, nexthopCount := next.nexthopCount } ∧
        ∀ other ∈ next.nexthop.toList, other ∈ node.nexthop.toList ∨ other = hop := by
  unfold writeNexthop
  rw [dif_pos inside]
  have within : node.nexthopCount < node.nexthop.toList.length := by
    rw [Vector.length_toList]
    exact inside
  refine ⟨_, rfl, ?_, rfl, rfl, fun other member => ?_⟩
  · unfold hops
    dsimp only
    rw [Vector.toList_set, List.take_add_one, List.take_set_of_le (Nat.le_refl _),
      List.getElem?_set_self within]
    rfl
  · rw [Vector.toList_set] at member
    exact List.mem_or_eq_of_mem_set member

theorem Netnode.writeNexthop_overrun
    (full : node.nexthopCount = maxEcmpLimit)
    (hop : Int) :
    node.writeNexthop node.nexthopCount hop = .error .nexthopOverrun := by
  unfold writeNexthop
  rw [dif_neg (by omega)]

/-- `nexthop_copy` copies what counts. -/
theorem nexthopCopy_ok
    (room : w.nexthopCount ≤ maxEcmpLimit)
    (dst : Netnode) :
    ∃ node, nexthopCopy w dst = .ok node ∧ Rewritten w dst node ∧ node.hops = w.hops := by
  have loop (i : Nat) (within : i ≤ w.nexthopCount) :
      ∃ node,
        (List.range i).foldlM (nexthopCopyStep w) ({ dst with nexthopCount := 0 }, false) =
            .ok (node, false) ∧
          Rewritten w dst node ∧
          node.nexthopCount = i ∧
          node.hops = w.nexthop.toList.take i := by
    induction i with
    | zero =>
        exact ⟨_, rfl, ⟨rfl, Nat.zero_le _, fun _ member => .inl member⟩, rfl, rfl⟩
    | succ i inductionHypothesis =>
        obtain ⟨before, reached, rewritten, count, hops⟩ :=
          inductionHypothesis (Nat.le_of_succ_le within)
        have inside : i < maxEcmpLimit := Nat.lt_of_lt_of_le within room
        obtain ⟨after, written, hopsAfter, countAfter, fields, entries⟩ :=
          before.writeNexthop_end (count ▸ inside) (w.hopAt i)
        rw [count] at written countAfter
        have notFull : decide (maxEcmpLimit < after.nexthopCount) = false :=
          decide_eq_false (by omega)
        refine ⟨after, ?_, ⟨?_, by omega, fun hop member => ?_⟩, countAfter, ?_⟩
        · rw [List.range_succ, List.foldlM_append, reached]
          change [i].foldlM (nexthopCopyStep w) (before, false) = _
          rw [List.foldlM_cons, nexthopCopyStep, if_neg Bool.false_ne_true, written]
          change Except.ok (after, decide (maxEcmpLimit < after.nexthopCount)) = _
          rw [notFull]
        · rw [fields, rewritten.fields]
        · rcases entries hop member with earlier | same
          · exact rewritten.entries hop earlier
          · exact .inr (same ▸ Netnode.hopAt_mem inside)
        · rw [hopsAfter, hops, Netnode.take_succ inside]
  obtain ⟨node, reached, rewritten, -, hops⟩ := loop w.nexthopCount (Nat.le_refl _)
  refine ⟨node, ?_, rewritten, hops⟩
  rw [nexthopCopy, reached]
  rfl

theorem isSame_iff
    {origin : Nat}
    (room : origin ≤ maxEcmpLimit)
    (hop : Int) :
    isSame node origin hop = true ↔ hop ∈ node.nexthop.toList.take origin := by
  unfold isSame
  rw [List.any_eq_true, List.mem_take_iff_getElem]
  constructor
  · rintro ⟨j, member, same⟩
    have inside : j < maxEcmpLimit := Nat.lt_of_lt_of_le (List.mem_range.mp member) room
    have entry : node.nexthop.toList[j]? = some (node.hopAt j) := Netnode.hopAt_eq inside
    obtain ⟨within, atJ⟩ := List.getElem?_eq_some_iff.mp entry
    exact ⟨j, Nat.lt_min.mpr ⟨List.mem_range.mp member, within⟩,
      atJ.trans (of_decide_eq_true same).symm⟩
  · rintro ⟨j, inside, same⟩
    obtain ⟨earlier, within⟩ := Nat.lt_min.mp inside
    refine ⟨j, List.mem_range.mpr earlier, decide_eq_true ?_⟩
    rw [← same, Netnode.hopAt, List.getD_eq_getElem?_getD,
      List.getElem?_eq_getElem within, Option.getD_some]

/-- The next hops of `dst` and then those of the first of `w` that it does not have. -/
def mergedUpTo (w dst : Netnode) (i : Nat) : List Int :=
  dst.hops ++ (w.nexthop.toList.take i).filter (· ∉ dst.hops)

theorem mergedUpTo_succ
    (dst : Netnode)
    {i : Nat}
    (inside : i < maxEcmpLimit) :
    mergedUpTo w dst (i + 1) =
      if w.hopAt i ∈ dst.hops then
        mergedUpTo w dst i
      else
        mergedUpTo w dst i ++ [w.hopAt i] := by
  unfold mergedUpTo
  rw [Netnode.take_succ inside, List.filter_append, List.filter_singleton,
    ← List.append_assoc]
  by_cases known : w.hopAt i ∈ dst.hops
  · rw [if_pos known, decide_eq_false (not_not.mpr known), cond_false, List.append_nil]
  · rw [if_neg known, decide_eq_true known, cond_true]

/-- What the loop of `equal_path_copy` has made of `dst` after `i` passes. -/
structure Merging (w dst : Netnode) (i : Nat) (node : Netnode) : Prop where
  rewritten : Rewritten w dst node
  hops : node.hops = mergedUpTo w dst i

/-- What is written does not change what the loop compares with. -/
theorem Merging.isSame_iff
    {i : Nat}
    (merging : Merging w dst i node)
    (room : dst.nexthopCount ≤ maxEcmpLimit)
    (hop : Int) :
    isSame node dst.nexthopCount hop = true ↔ hop ∈ dst.hops := by
  have length : node.nexthopCount = (mergedUpTo w dst i).length := by
    rw [← merging.hops, Netnode.length_hops merging.rewritten.count]
  have fewer : dst.nexthopCount ≤ node.nexthopCount := by
    rw [length, mergedUpTo, List.length_append, Netnode.length_hops room]
    exact Nat.le_add_right _ _
  have taken := congrArg (List.take dst.nexthopCount) merging.hops
  rw [Netnode.hops, List.take_take, Nat.min_eq_left fewer, mergedUpTo,
    List.take_append_of_le_length (Nat.le_of_eq (Netnode.length_hops room).symm),
    List.take_of_length_le (Nat.le_of_eq (Netnode.length_hops room))] at taken
  rw [← taken]
  exact Lidb.isSame_iff room hop

/-- One pass appends a next hop that is new, or finds no room for it. -/
theorem Merging.step
    {i : Nat}
    (merging : Merging w dst i node)
    (room : dst.nexthopCount ≤ maxEcmpLimit)
    (inside : i < maxEcmpLimit) :
    ((mergedUpTo w dst (i + 1)).length ≤ maxEcmpLimit →
      ∃ after,
        equalPathCopyStep w dst.nexthopCount (node, node.nexthopCount) i =
            .ok (after, after.nexthopCount) ∧
          Merging w dst (i + 1) after) ∧
    (¬(mergedUpTo w dst (i + 1)).length ≤ maxEcmpLimit →
      equalPathCopyStep w dst.nexthopCount (node, node.nexthopCount) i =
        .error .nexthopOverrun) := by
  have count := merging.rewritten.count
  have length : node.nexthopCount = (mergedUpTo w dst i).length := by
    rw [← merging.hops, Netnode.length_hops count]
  have same := merging.isSame_iff room (w.hopAt i)
  unfold equalPathCopyStep
  dsimp only
  by_cases known : w.hopAt i ∈ dst.hops
  · have unchanged : mergedUpTo w dst (i + 1) = mergedUpTo w dst i := by
      rw [mergedUpTo_succ dst inside, if_pos known]
    rw [if_pos (same.mpr known), unchanged, ← length]
    exact ⟨fun _ => ⟨node, rfl, merging.rewritten, merging.hops.trans unchanged.symm⟩,
      fun full => absurd count full⟩
  · have longer : mergedUpTo w dst (i + 1) = mergedUpTo w dst i ++ [w.hopAt i] := by
      rw [mergedUpTo_succ dst inside, if_neg known]
    rw [if_neg fun isKnown => known (same.mp isKnown), longer, List.length_append, ← length]
    by_cases fits : node.nexthopCount < maxEcmpLimit
    · obtain ⟨after, written, hopsAfter, countAfter, fields, entries⟩ :=
        node.writeNexthop_end fits (w.hopAt i)
      rw [written]
      refine ⟨fun _ => ⟨after, ?_, ⟨?_, by omega, fun hop member => ?_⟩, ?_⟩,
        fun full => absurd fits full⟩
      · rw [countAfter]
        rfl
      · rw [fields, merging.rewritten.fields]
      · rcases entries hop member with earlier | same
        · exact merging.rewritten.entries hop earlier
        · exact .inr (same ▸ Netnode.hopAt_mem inside)
      · rw [hopsAfter, merging.hops, longer]
    · have full : node.nexthopCount = maxEcmpLimit := by omega
      rw [node.writeNexthop_overrun full]
      exact ⟨fun less => absurd less fits, fun _ => rfl⟩

/-- The first passes of `equal_path_copy`. -/
theorem foldlM_equalPathCopyStep
    (wRoom : w.nexthopCount ≤ maxEcmpLimit)
    (room : dst.nexthopCount ≤ maxEcmpLimit)
    {i : Nat}
    (within : i ≤ w.nexthopCount) :
    ((mergedUpTo w dst i).length ≤ maxEcmpLimit →
      ∃ node,
        (List.range i).foldlM (equalPathCopyStep w dst.nexthopCount)
            (dst, dst.nexthopCount) =
            .ok (node, node.nexthopCount) ∧
          Merging w dst i node) ∧
    (¬(mergedUpTo w dst i).length ≤ maxEcmpLimit →
      (List.range i).foldlM (equalPathCopyStep w dst.nexthopCount) (dst, dst.nexthopCount) =
        .error .nexthopOverrun) := by
  induction i with
  | zero =>
      have start : mergedUpTo w dst 0 = dst.hops := List.append_nil _
      rw [start, Netnode.length_hops room]
      exact ⟨fun _ => ⟨dst, rfl, ⟨rfl, room, fun _ member => .inl member⟩, start.symm⟩,
        fun full => absurd room full⟩
  | succ i inductionHypothesis =>
      obtain ⟨goesOn, stops⟩ := inductionHypothesis (Nat.le_of_succ_le within)
      have inside : i < maxEcmpLimit := Nat.lt_of_lt_of_le within wRoom
      by_cases fits : (mergedUpTo w dst i).length ≤ maxEcmpLimit
      · obtain ⟨before, reached, merging⟩ := goesOn fits
        rw [Loops.foldlM_range_succ, reached]
        exact merging.step room inside
      · rw [Loops.foldlM_range_succ, stops fits]
        refine ⟨fun less => absurd ?_ fits, fun _ => rfl⟩
        rw [mergedUpTo_succ dst inside] at less
        split at less
        · exact less
        · rw [List.length_append] at less
          omega

/-- `equal_path_copy` appends the new next hops as long as there is room. -/
theorem equalPathCopy_spec
    (wRoom : w.nexthopCount ≤ maxEcmpLimit)
    (room : dst.nexthopCount ≤ maxEcmpLimit) :
    ((merged w dst).length ≤ maxEcmpLimit →
      ∃ node,
        equalPathCopy w dst = .ok node ∧
          Rewritten w dst node ∧
          node.hops = merged w dst) ∧
    (¬(merged w dst).length ≤ maxEcmpLimit →
      equalPathCopy w dst = .error .nexthopOverrun) := by
  obtain ⟨goesOn, stops⟩ := foldlM_equalPathCopyStep wRoom room (Nat.le_refl _)
  unfold equalPathCopy
  constructor
  · intro fits
    obtain ⟨node, reached, merging⟩ := goesOn fits
    rw [reached]
    exact ⟨node, rfl, merging.rewritten, merging.hops⟩
  · intro full
    rw [stops full]
    rfl

end

end Pma.Lidb
