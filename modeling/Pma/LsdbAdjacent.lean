import Pma.ArrayWrite
import Pma.LsdbTraverse

namespace Pma.Lsdb

/-!
# The adjacent routers

`cr_lsdb_find_adjacent_router` copies the backbone links of a router and writes
one number for each link whose two low state bits are set, then the terminator,
into an array of its caller.  The array has `MAX_ADJ` places, which the function
does not count.
-/

/-- `LINK_MASK`. -/
def linkMask : UInt8 := 0x03

/-- `MAX_ADJ`. -/
def maxAdj : Nat := 10

/-- The array of the caller and the index `i`. -/
abbrev AdjState := Vector Int32 maxAdj × Nat

/-- A pass of the loop of `cr_lsdb_find_adjacent_router`. -/
def visitAdjacent (state : AdjState) (ptr : CrLsdbLinkState) : Option AdjState :=
  if ptr.state &&& linkMask = linkMask then
    (ArrayWrite.write state.1 state.2 ptr.key.rtId.toInt32).map fun array => (array, state.2 + 1)
  else
    some state

/-- `cr_lsdb_find_adjacent_router`; nothing where it writes behind the array. -/
def crLsdbFindAdjacentRouter (db : Lsdb) (rtId : UInt32) (array : Vector Int32 maxAdj) :
    Option (Vector Int32 maxAdj) := do
  let head := db.crLsdbGetBackboneLinksStateByRouter rtId
  let (array, i) ← head.foldlM visitAdjacent (array, 0)
  ArrayWrite.write array i (-1)

/-- The backbone links of a router that are up on both sides. -/
def adjacentLinks (db : Lsdb) (rtId : UInt32) : List CrLsdbLinkState :=
  (db.crLsdbGetBackboneLinksStateByRouter rtId).filter fun link =>
    link.state &&& linkMask = linkMask

/-- The array has the neighbours of these links, in some order, and the terminator. -/
def ListsNeighbors (links : List CrLsdbLinkState) (array : Vector Int32 maxAdj) : Prop :=
  ∃ ids, ids.Perm (links.map fun link => link.key.nRtId.toInt32) ∧
    array.toList.take (ids.length + 1) = ids ++ [-1]

section

variable {db : Lsdb} {rtId : UInt32} {link : CrLsdbLinkState}

theorem mem_adjacentLinks :
    link ∈ db.adjacentLinks rtId ↔
      db.crLsdbLinkStateFind link.key = some link ∧ link.key.rtId = rtId ∧
        link.key.nRtId ≠ 0 ∧ link.state &&& linkMask = linkMask := by
  simp [adjacentLinks, crLsdbGetBackboneLinksStateByRouter, mem_linksStateByRouter, and_assoc]

/-- The loop writes the start of each adjacent link. -/
theorem foldlM_visitAdjacent
    (links : List CrLsdbLinkState)
    (array : Vector Int32 maxAdj)
    (i : Nat) :
    let starts :=
      (links.filter fun link => link.state &&& linkMask = linkMask).map fun link =>
        link.key.rtId.toInt32
    links.foldlM visitAdjacent (array, i) =
      (ArrayWrite.writeAll array i starts).map fun array => (array, i + starts.length) := by
  induction links generalizing array i with
  | nil =>
      rfl
  | cons link rest inductionHypothesis =>
      by_cases up : link.state &&& linkMask = linkMask
      · simp only [List.foldlM_cons, visitAdjacent, up, if_true, decide_true, List.filter_cons,
          List.map_cons, ArrayWrite.writeAll]
        cases ArrayWrite.write array i link.key.rtId.toInt32 with
        | none =>
            rfl
        | some array =>
            have later := inductionHypothesis array (i + 1)
            simp only [Nat.add_assoc, Nat.add_comm 1] at later
            exact later
      · simp only [List.foldlM_cons, visitAdjacent, up, if_false, decide_false, List.filter_cons]
        exact inductionHypothesis array i

/-- The links of a router start there, so all numbers are the same. -/
theorem starts_adjacentLinks :
    (db.adjacentLinks rtId).map (fun link => link.key.rtId.toInt32) =
      List.replicate (db.adjacentLinks rtId).length rtId.toInt32 := by
  rw [← List.map_const']
  apply List.map_congr_left
  intro link member
  rw [(mem_adjacentLinks.mp member).2.1]

/-- The call writes the router itself for each adjacent link, and the terminator. -/
theorem crLsdbFindAdjacentRouter_eq
    (array : Vector Int32 maxAdj) :
    db.crLsdbFindAdjacentRouter rtId array =
      ArrayWrite.writeAll array 0
        (List.replicate (db.adjacentLinks rtId).length rtId.toInt32 ++ [-1]) := by
  let starts := (db.adjacentLinks rtId).map fun link => link.key.rtId.toInt32
  have loop :
      (db.crLsdbGetBackboneLinksStateByRouter rtId).foldlM visitAdjacent (array, 0) =
        (ArrayWrite.writeAll array 0 starts).map fun array => (array, 0 + starts.length) :=
    foldlM_visitAdjacent _ array 0
  rw [← starts_adjacentLinks]
  simp only [ArrayWrite.writeAll_append, ArrayWrite.writeAll_singleton, crLsdbFindAdjacentRouter,
    loop, Option.bind_eq_bind, Option.bind_map]
  rfl

/-- The array after a call that stays inside of it. -/
theorem crLsdbFindAdjacentRouter_fits
    (array : Vector Int32 maxAdj)
    (few : (db.adjacentLinks rtId).length < maxAdj) :
    ∃ filled, db.crLsdbFindAdjacentRouter rtId array = some filled ∧
      filled.toList.take ((db.adjacentLinks rtId).length + 1) =
        List.replicate (db.adjacentLinks rtId).length rtId.toInt32 ++ [-1] := by
  have room :
      0 + (List.replicate (db.adjacentLinks rtId).length rtId.toInt32 ++ [-1]).length ≤ maxAdj := by
    simpa [Nat.succ_le_iff] using few
  obtain ⟨filled, writes, contents⟩ := ArrayWrite.writeAll_fits array room
  refine ⟨filled, (crLsdbFindAdjacentRouter_eq array).trans writes, ?_⟩
  rw [contents, List.take_zero, List.nil_append, List.take_append_of_le_length (by simp)]
  simp [List.take_append]

/-- The tenth adjacent link leaves no place for the terminator. -/
theorem crLsdbFindAdjacentRouter_overruns
    (array : Vector Int32 maxAdj)
    (many : maxAdj ≤ (db.adjacentLinks rtId).length) :
    db.crLsdbFindAdjacentRouter rtId array = none := by
  rw [crLsdbFindAdjacentRouter_eq]
  apply ArrayWrite.writeAll_overruns array (Nat.zero_le _)
  simpa [Nat.lt_succ_iff] using many

/-- A list of the router itself is a list of its neighbours if all links lead back to it. -/
theorem replicate_perm_iff
    (links : List CrLsdbLinkState) :
    (List.replicate links.length rtId.toInt32).Perm
        (links.map fun link => link.key.nRtId.toInt32) ↔
      ∀ link ∈ links, link.key.nRtId = rtId := by
  have injective : Function.Injective UInt32.toInt32 :=
    Function.LeftInverse.injective UInt32.toUInt32_toInt32
  rw [List.perm_comm, List.perm_replicate, List.eq_replicate_iff]
  simp [injective.eq_iff]

/--
The call fills the array with the neighbours of the adjacent links if and only if
there are at most nine of them, and each is a link of the router to itself.
-/
theorem crLsdbFindAdjacentRouter_lists_iff
    (db : Lsdb)
    (rtId : UInt32)
    (array : Vector Int32 maxAdj) :
    (∃ filled, db.crLsdbFindAdjacentRouter rtId array = some filled ∧
        ListsNeighbors (db.adjacentLinks rtId) filled) ↔
      (db.adjacentLinks rtId).length < maxAdj ∧
        ∀ link ∈ db.adjacentLinks rtId, link.key.nRtId = rtId := by
  by_cases few : (db.adjacentLinks rtId).length < maxAdj
  · obtain ⟨filled, returns, contents⟩ := crLsdbFindAdjacentRouter_fits array few
    rw [← replicate_perm_iff]
    constructor
    · rintro ⟨other, same, ids, perm, listed⟩
      rw [returns] at same
      cases same
      have length : ids.length = (db.adjacentLinks rtId).length := by
        simpa using perm.length_eq
      rw [length, contents] at listed
      exact ⟨few, List.append_cancel_right listed ▸ perm⟩
    · rintro ⟨-, perm⟩
      refine ⟨filled, returns, _, perm, ?_⟩
      simpa using contents
  · have overruns := crLsdbFindAdjacentRouter_overruns array (Nat.le_of_not_lt few)
    simp [overruns, few]

/-- A database with one link that is up, from router 1 to router 2. -/
def oneAdjacent : Lsdb where
  data := LsdbData.empty.lsdbLinkStateAdd (sampleLink ⟨1, 1, 2, 1⟩ 3)
  wellFormed :=
    LsdbData.lsdbLinkStateAdd_wellFormed LsdbData.empty_wellFormed (by decide) rfl

/-- The neighbour of router 1 is 2, and the call writes 1. -/
theorem oneAdjacent_wrong :
    ¬∃ filled,
      oneAdjacent.crLsdbFindAdjacentRouter 1 (Vector.replicate maxAdj 0) = some filled ∧
        ListsNeighbors (oneAdjacent.adjacentLinks 1) filled := by
  have returns :
      (oneAdjacent.crLsdbFindAdjacentRouter 1 (Vector.replicate maxAdj 0)).map Vector.toList =
        some [1, -1, 0, 0, 0, 0, 0, 0, 0, 0] := rfl
  rintro ⟨filled, same, ids, perm, listed⟩
  rw [same] at returns
  have neighbors : ids = [2] := List.perm_singleton.mp perm
  rw [neighbors, Option.some_inj.mp returns] at listed
  exact absurd listed (by decide)

end

end Pma.Lsdb
