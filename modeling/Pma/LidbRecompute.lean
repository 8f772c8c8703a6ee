import Pma.LidbAreas
import Pma.Transition

namespace Pma.Lidb

open Transition

/-!
# One computation after the other

`path_compute_start` frees what the computation before has left and starts
again in memory that holds anything.  `init_lidb_info` sets the lists of the
links for every link, and the list of the area only where it sees a backbone
link.
-/

/-- What `free_info_handle` does for a link: it frees as many paths as were counted. -/
def freeLinkshadow (linkshadow : LinkPathInfo) : Except Fault Unit :=
  if linkshadow.allshortpaths = [] ∨
      linkshadow.shortpathCount ≤ linkshadow.allshortpaths.length then
    .ok ()
  else
    .error .foreignMemory

/-- What it does for an area, whose list it follows until `NULL`. -/
def freeArea (area : Area) : Except Fault Unit := do
  forM area.paths.linkshadows freeLinkshadow
  if area.paths.tail = 0 then
    .ok ()
  else
    .error .foreignMemory

/-- `free_info_handle`, which `path_compute_start` calls if it has computed before. -/
def freeInfoHandle : Option (List Area) → Except Fault Unit
  | none => .ok ()
  | some areas => forM areas freeArea

/-- What a computation finds. -/
structure Computation where
  table : List TopoLink
  /-- The answers of the queries. -/
  ifid : UInt32 → Nat → Nat → Nat → Int
  /-- What the memory of each area held. -/
  memory : UInt32 → Memory
  /-- How far the loops of `record_short_path` are followed. -/
  fuel : Nat

/-- `path_compute_start` with the computation before. -/
def recompute
    (before : Option (List Area))
    (computation : Computation) : Except Fault (Option (List Area)) := do
  freeInfoHandle before
  let areas ←
    pathComputeStart computation.fuel computation.ifid computation.memory computation.table
  return some areas

/--
Nothing but the lists of the computation before is freed, and the lists of every
area are empty when `record_short_path` starts.
-/
structure StartsClean (before : Option (List Area)) (computation : Computation) : Prop where
  free : freeInfoHandle before = .ok ()
  lists :
    ∀ areaid ∈ getAreaes computation.table,
      (startPaths (computation.memory areaid)
        (getLinkStates computation.table areaid)).Clean
  ends :
    ∀ areaid ∈ getAreaes computation.table,
      (startPaths (computation.memory areaid)
        (getLinkStates computation.table areaid)).tail = 0

/-- Every area has a backbone link. -/
def EveryAreaLinked (table : List TopoLink) : Prop :=
  ∀ areaid ∈ getAreaes table, ∃ link ∈ getLinkStates table areaid, ¬IsAccess link

-- The areas are those of the table, and not all there could be.
instance (table : List TopoLink) : Decidable (EveryAreaLinked table) :=
  List.decidableBAll (fun areaid => ∃ link ∈ getLinkStates table areaid, ¬IsAccess link)
    (getAreaes table)

/-- The lists that a computation has left can be freed. -/
def Freeable (before : Option (List Area)) : Prop :=
  ∀ areas,
    before = some areas → ∀ area ∈ areas, area.paths.tail = 0 ∧ area.paths.Counted

theorem startPaths_tail
    (memory : Memory)
    {lslist : List TopoLink}
    (linked : ∃ link ∈ lslist, ¬IsAccess link) :
    (startPaths memory lslist).tail = 0 := by
  rw [startPaths_eq]
  exact if_pos linked

theorem Freeable.free
    {before : Option (List Area)}
    (freeable : Freeable before) :
    freeInfoHandle before = .ok () := by
  cases before with
  | none =>
      rfl
  | some areas =>
      refine Loops.forM_eq_ok.mpr fun area member => ?_
      obtain ⟨ends, counted⟩ := freeable areas rfl area member
      have links : forM area.paths.linkshadows freeLinkshadow = .ok () := by
        refine Loops.forM_eq_ok.mpr fun linkshadow inside => ?_
        unfold freeLinkshadow
        exact if_pos (.inr (Nat.le_of_eq (counted linkshadow inside)))
      unfold freeArea
      rw [links, if_pos ends]
      rfl

/-- A computation over linked areas leaves lists that end and are counted. -/
theorem recompute_freeable
    {before after : Option (List Area)}
    {computation : Computation}
    (linked : EveryAreaLinked computation.table)
    (step : recompute before computation = .ok after) :
    Freeable after := by
  obtain ⟨-, -, step⟩ := Loops.bind_eq_ok.mp step
  obtain ⟨areas, ends, same⟩ := Loops.bind_eq_ok.mp step
  cases same
  intro _ same area member
  cases same
  obtain ⟨areaid, listed, computed⟩ :=
    (Loops.exists_of_forall₂ (pathComputeStart_ok ends)).2 area member
  have recorded := computed.paths
  refine ⟨recorded.tail.trans (startPaths_tail _ ?_), recorded.counted⟩
  rw [computed.fields.2.2]
  exact linked areaid listed

/--
After any number of computations over tables whose areas have a backbone link
each, the next one starts clean in any memory exactly if its table is such a
table too.
-/
theorem startsClean_run
    {earlier : List Computation}
    {before : Option (List Area)}
    (run :
      Run
        (guarded (fun _ computation => EveryAreaLinked computation.table)
          (ofPartial recompute))
        none earlier before)
    (computation : Computation) :
    (∀ memory, StartsClean before { computation with memory := memory }) ↔
      EveryAreaLinked computation.table := by
  have freeable : Freeable before := by
    refine run.invariant Freeable (fun _ step => recompute_freeable step.1 step.2) ?_
    intro _ none
    cases none
  constructor
  · intro clean areaid listed
    by_contra unlinked
    have ends := (clean fun _ => ⟨1, fun _ => ⟨[], 0⟩⟩).ends areaid listed
    rw [startPaths_eq] at ends
    dsimp only at ends
    rw [if_neg unlinked] at ends
    cases ends
  · intro linked memory
    constructor
    case free => exact freeable.free
    case lists => exact fun areaid _ => startPaths_clean _ _
    case ends => exact fun areaid listed => startPaths_tail _ (linked areaid listed)

/-- What memory may hold that was used before. -/
def usedMemory : Memory where
  shortpaths := 1
  linkshadows := fun _ => ⟨[1], 2⟩

/-- Three routers that are linked. -/
def triangleComputation : Computation where
  table := Ddc.triangleLinks
  ifid := fun _ _ _ _ => 1
  memory := fun _ => usedMemory
  fuel := 100

theorem startsClean_run_triangle :
    ∃ before,
      recompute none triangleComputation = .ok before ∧
        ∀ memory, StartsClean before { triangleComputation with memory := memory } := by
  have linked : EveryAreaLinked triangleComputation.table := by decide
  obtain ⟨before, computed⟩ : ∃ before, recompute none triangleComputation = .ok before :=
    Loops.exists_ok (by decide +kernel)
  exact ⟨before, computed,
    (startsClean_run (.cons ⟨linked, computed⟩ (.nil before)) triangleComputation).mpr linked⟩

/-- One router with an access link. -/
def accessComputation : Computation where
  table := [⟨1, 1, 0, 1, 0, 10⟩]
  ifid := fun _ _ _ _ => 1
  memory := fun _ => usedMemory
  fuel := 1

/-- The list of its area starts with what the memory held, and is freed up to there. -/
theorem access_not_clean :
    ¬StartsClean none accessComputation ∧
      ∃ before,
        recompute none accessComputation = .ok before ∧
          freeInfoHandle before = .error .foreignMemory := by
  constructor
  · intro clean
    have ends := clean.ends 1 (by decide)
    have tail :
        (startPaths (accessComputation.memory 1)
          (getLinkStates accessComputation.table 1)).tail = 1 := by
      decide
    rw [tail] at ends
    cases ends
  · have fault :
        (recompute none accessComputation).bind freeInfoHandle = .error .foreignMemory := by
      decide
    obtain ⟨before, computed⟩ : ∃ before, recompute none accessComputation = .ok before :=
      Loops.exists_ok (by decide)
    rw [computed] at fault
    exact ⟨before, computed, fault⟩

end Pma.Lidb
