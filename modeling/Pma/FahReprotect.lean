import Mathlib.Data.List.Perm.Basic
import Pma.FahProtect

namespace Pma

open Loops Transition

/-!
# Protecting local links again

When a remote link breaks, DBM sends the policies of the local links that are down
once more.  It finds them among the rows that were copied at the last computation,
and only if a local link ever broke; what counts is the table.
-/

/-- The packets and the computations. -/
inductive DbmEvent where
  | addLsa (lsa : DbmLink)
  | updateLsa (lsa : DbmLink) (clock : Nat → Timeval)
  | pathComputeStart
      (fuel : Nat)
      (ifid : UInt32 → Nat → Nat → Nat → Int)
      (memory : UInt32 → Lidb.Memory)

/-- A fault of `ddc/fah.c` or of the computation. -/
inductive DbmFault where
  | fah (fault : FahFault)
  | lidb (fault : Lidb.Fault)
  deriving DecidableEq, Repr

/-- The local backbone links of an area that are down among some rows. -/
def downLinks (rows : List DbmLink) (areaid router : UInt32) : List DbmLink :=
  rows.filter fun row =>
    row.areaid = areaid ∧ row.rid = router ∧ row.nrid ≠ 0 ∧ row.nifid ≠ 0 ∧ row.status ≠ 3

/-- DBM, and the rows of the table at the last computation. -/
structure CopyingDbm where
  dbm : LinkDbm
  copied : Option (List DbmLink)

namespace CopyingDbm

/-- Before any packet. -/
def start (pmaId routerId : UInt32) (policyTable : PolicyTable) : CopyingDbm where
  dbm :=
    { table := .empty
      fah :=
        { areas := none
          isRouterNeedProtect := false
          deadTimer := .replicate maxInterfaceNum ⟨0, 0⟩
          policyTable := policyTable }
      pmaId := pmaId
      routerId := routerId }
  copied := none

/-- One event. -/
def step (state : CopyingDbm) : DbmEvent → Except DbmFault CopyingDbm
  | .addLsa lsa =>
      .ok { state with dbm := { state.dbm with table := state.dbm.table.insertLinkState lsa } }
  | .updateLsa lsa clock =>
      ((state.dbm.updateLsa lsa clock).mapError DbmFault.fah).map fun (dbm, _) =>
        { state with dbm := dbm }
  | .pathComputeStart fuel ifid memory =>
      ((state.dbm.table.pathComputeStart fuel ifid memory).mapError DbmFault.lidb).map
        fun areas =>
          { dbm := { state.dbm with fah := { state.dbm.fah with areas := some areas } }
            copied := some state.dbm.table.rows }

/-- The policies are sent for the local links that are down in the table. -/
def ReprotectsRight (state : CopyingDbm) (lsa : DbmLink) (clock : Nat → Timeval) : Prop :=
  ∃ after sends,
    state.dbm.updateLsa lsa clock = .ok (after, .protection sends) ∧
      (sends.all.map (·.ifid)).Perm
        ((downLinks after.table.rows lsa.areaid state.dbm.pmaId).map (·.ifid.toInt32))

/--
The links whose policies are due according to the last computation.  A link that
ends at the configured router is taken for a local one.
-/
def repeats (state : CopyingDbm) (lsa : DbmLink) : List DbmLink :=
  match state.copied with
  | none => []
  | some rows =>
      if lsa.areaid ∈ rows.map DbmLink.areaid then
        if lsa.Touches state.dbm.routerId then
          [lsa]
        else if state.dbm.fah.isRouterNeedProtect = true then
          downLinks rows lsa.areaid state.dbm.routerId
        else
          []
      else
        []

/-- They have the interfaces of the links that are down now. -/
def Agrees (state : CopyingDbm) (lsa : DbmLink) : Prop :=
  ((state.repeats lsa).map (·.ifid)).Perm
    ((downLinks state.dbm.table.rows lsa.areaid state.dbm.pmaId).map (·.ifid))

/-! ## What was copied -/

/-- The identifier and the rows of an area. -/
def content (az : FahArea) : UInt32 × List DbmLink :=
  (az.area.info.azid, az.lslist)

/-- The identifiers of the areas of some rows, each with its rows. -/
def contents (rows : List DbmLink) : List (UInt32 × List DbmLink) :=
  (Lidb.getAreaes (rows.map DbmLink.topoLink)).map fun areaid =>
    (areaid, rows.filter (·.areaid = areaid))

/-- The areas have the rows that were copied. -/
def Copies (state : CopyingDbm) : Prop :=
  state.dbm.fah.areas.map (·.map content) = state.copied.map contents

section

variable {state after : CopyingDbm} {lsa : DbmLink} {rows : List DbmLink}

/-- Marking paths leaves the rows as they are. -/
theorem map_content_recordBrokenPathDown
    (areas : List FahArea)
    (link : DbmLink) :
    (FahArea.recordBrokenPathDown areas link).map content = areas.map content := by
  unfold FahArea.recordBrokenPathDown
  split
  · refine Lidb.map_modify_kept (fun _ => ?_) areas _
    rfl
  · rfl

/-- An update leaves them as they are, and does not change the identifiers of the device. -/
theorem updateLsa_content
    {dbm next : LinkDbm}
    {clock : Nat → Timeval}
    {outcome : FahOutcome}
    (updated : dbm.updateLsa lsa clock = .ok (next, outcome)) :
    next.fah.areas.map (·.map content) = dbm.fah.areas.map (·.map content) := by
  unfold LinkDbm.updateLsa at updated
  dsimp only at updated
  split at updated
  · obtain ⟨⟨fah, sends⟩, protects, same⟩ := map_eq_ok.mp updated
    cases same
    obtain ⟨-, -, areas | areas⟩ := FahState.fahProtectLink_ok protects
    · rw [areas]
    · rw [areas, Option.map_map]
      congr 1
      funext areas
      exact map_content_recordBrokenPathDown areas lsa
  · obtain ⟨⟨fah, sends⟩, resets, same⟩ := map_eq_ok.mp updated
    cases same
    unfold FahState.fahSetDefaultTimer at resets
    split at resets
    · cases resets
      rfl
    · dsimp only at resets
      split at resets
      · cases resets
      · cases resets
        rfl
  · cases updated
    rfl

/-- A computation copies the rows of the table. -/
theorem pathComputeStart_content
    {table : LinkTable}
    {fuel : Nat}
    {ifid : UInt32 → Nat → Nat → Nat → Int}
    {memory : UInt32 → Lidb.Memory}
    {areas : List FahArea}
    (computed : table.pathComputeStart fuel ifid memory = .ok areas) :
    areas.map content = contents table.rows := by
  obtain ⟨found, ends, rfl⟩ := map_eq_ok.mp computed
  have each := Lidb.pathComputeStart_ok ends
  clear ends computed
  unfold contents
  generalize Lidb.getAreaes (table.rows.map DbmLink.topoLink) = areaids at each
  induction each with
  | nil =>
      rfl
  | @cons areaid area _ _ here _ inductionHypothesis =>
      obtain ⟨azid, -, lslist⟩ := here.fields
      have sameLinks :
          area.info.lslist =
            (table.rows.filter (·.areaid = area.info.azid)).map DbmLink.topoLink := by
        rw [lslist, azid]
        unfold Lidb.getLinkStates
        rw [List.filter_map]
        rfl
      have copied :
          FahArea.copy table.rows area =
            some ⟨area, table.rows.filter (·.areaid = area.info.azid), sameLinks⟩ :=
        dif_pos sameLinks
      rw [List.filterMap_cons_some copied, List.map_cons, List.map_cons, inductionHypothesis]
      unfold content
      dsimp only
      rw [azid]

/-- Every event keeps the copy. -/
theorem step_copies
    {event : DbmEvent}
    (copies : state.Copies)
    (stepped : state.step event = .ok after) :
    after.Copies := by
  cases event with
  | addLsa lsa =>
      cases stepped
      exact copies
  | updateLsa lsa clock =>
      obtain ⟨⟨dbm, outcome⟩, updated, rfl⟩ := map_eq_ok.mp stepped
      exact (updateLsa_content (mapError_eq_ok.mp updated)).trans copies
  | pathComputeStart fuel ifid memory =>
      obtain ⟨areas, computed, rfl⟩ := map_eq_ok.mp stepped
      exact congrArg some (pathComputeStart_content (mapError_eq_ok.mp computed))

theorem run_copies
    {pmaId routerId : UInt32}
    {policyTable : PolicyTable}
    {events : List DbmEvent}
    (run : Run (ofPartial step) (start pmaId routerId policyTable) events state) :
    state.Copies :=
  run.invariant Copies step_copies rfl

/-- An area that was copied is found with its rows. -/
theorem find_contents
    (rows : List DbmLink)
    (areaid : UInt32) :
    ((contents rows).find? (·.1 = areaid)).map Prod.snd =
      if areaid ∈ rows.map DbmLink.areaid then
        some (rows.filter (·.areaid = areaid))
      else
        none := by
  have listed :
      areaid ∈ Lidb.getAreaes (rows.map DbmLink.topoLink) ↔
        areaid ∈ rows.map DbmLink.areaid := by
    unfold Lidb.getAreaes
    rw [List.mem_dedup, List.map_map]
    rfl
  unfold contents
  rw [List.find?_map, Option.map_map, ← if_congr listed rfl rfl]
  generalize Lidb.getAreaes (rows.map DbmLink.topoLink) = areaids
  change (areaids.find? fun other => decide (other = areaid)).map _ = _
  cases found : areaids.find? fun other => decide (other = areaid) with
  | none =>
      have absent : areaid ∉ areaids := fun member =>
        List.find?_eq_none.mp found areaid member (decide_eq_true rfl)
      rw [if_neg absent]
      rfl
  | some other =>
      have same : other = areaid := by simpa using List.find?_some found
      have member := List.mem_of_find?_eq_some found
      rw [same] at member
      rw [if_pos member, same]
      rfl

/-- The rows of the area of a link. -/
theorem areaOf_lslist
    (copies : state.Copies) :
    (state.dbm.fah.areaOf lsa).map (·.lslist) =
      state.copied.bind fun rows =>
        if lsa.areaid ∈ rows.map DbmLink.areaid then
          some (rows.filter (·.areaid = lsa.areaid))
        else
          none := by
  have found :
      (state.dbm.fah.areaOf lsa).map (·.lslist) =
        (state.dbm.fah.areas.map (·.map content)).bind fun contents =>
          (contents.find? (·.1 = lsa.areaid)).map Prod.snd := by
    unfold FahState.areaOf
    cases state.dbm.fah.areas with
    | none => rfl
    | some areas =>
        change (FahArea.getAreaByAreaid areas lsa.areaid).map _ =
          ((areas.map content).find? _).map Prod.snd
        rw [List.find?_map, Option.map_map]
        rfl
  rw [found, copies]
  cases state.copied with
  | none => rfl
  | some rows => exact find_contents rows lsa.areaid

/-- The links that are down among the rows of an area. -/
theorem filter_isReprotected
    (rows : List DbmLink)
    (areaid router : UInt32) :
    (rows.filter (·.areaid = areaid)).filter (FahState.isReprotected router) =
      downLinks rows areaid router := by
  unfold downLinks FahState.isReprotected
  rw [List.filter_filter]
  refine List.filter_congr fun row _ => ?_
  rw [← Bool.decide_and]
  exact decide_eq_decide.mpr (by tauto)

/-- What `fah_protect_link` protects is due according to the copy. -/
theorem targets_eq_repeats
    (copies : state.Copies) :
    state.dbm.fah.targets state.dbm.routerId lsa = state.repeats lsa := by
  have rows :
      (state.dbm.fah.areaOf lsa).map (·.lslist) = _ := areaOf_lslist copies
  unfold repeats
  cases isCopied : state.copied with
  | none =>
      rw [isCopied, Option.bind_none, Option.map_eq_none_iff] at rows
      unfold FahState.targets
      rw [rows]
  | some copied =>
      rw [isCopied, Option.bind_some] at rows
      dsimp only
      by_cases listed : lsa.areaid ∈ copied.map DbmLink.areaid
      · rw [if_pos listed, Option.map_eq_some_iff] at rows
        obtain ⟨az, known, lslist⟩ := rows
        rw [if_pos listed, FahState.targets_known known, lslist, filter_isReprotected]
      · rw [if_neg listed, Option.map_eq_none_iff] at rows
        unfold FahState.targets
        rw [if_neg listed, rows]

/-- A remote update does not concern the local links. -/
theorem downLinks_updateLsa
    (table : LinkTable)
    {router : UInt32}
    (remote : lsa.rid ≠ router) :
    downLinks (table.updateLsa lsa).1.rows lsa.areaid router =
      downLinks table.rows lsa.areaid router := by
  have other (row : DbmLink) (isLocal : row.rid = router) : LinkTable.updated lsa row = row :=
    if_neg fun same => remote ((congrArg (·.2.1) same).symm.trans isLocal)
  have sameRouter (row : DbmLink) : (LinkTable.updated lsa row).rid = row.rid :=
    congrArg (·.2.1) (LinkTable.updated_key lsa row)
  unfold LinkTable.updateLsa
  dsimp only
  split
  · rfl
  · unfold LinkTable.updateLinkState downLinks
    rw [List.filter_map]
    have kept (row : DbmLink) :
        ((fun row : DbmLink =>
            decide (row.areaid = lsa.areaid ∧ row.rid = router ∧ row.nrid ≠ 0 ∧
              row.nifid ≠ 0 ∧ row.status ≠ 3)) ∘ LinkTable.updated lsa) row =
          decide (row.areaid = lsa.areaid ∧ row.rid = router ∧ row.nrid ≠ 0 ∧
            row.nifid ≠ 0 ∧ row.status ≠ 3) := by
      rw [Function.comp_apply]
      by_cases isLocal : row.rid = router
      · rw [other row isLocal]
      · have notLocal : ¬(LinkTable.updated lsa row).rid = router := by
          rw [sameRouter]
          exact isLocal
        exact decide_eq_decide.mpr
          (iff_of_false (fun both => notLocal both.2.1) fun both => isLocal both.2.1)
    rw [List.filter_congr fun row _ => kept row]
    refine (List.map_congr_left fun row member => ?_).trans (List.map_id _)
    exact other row (of_decide_eq_true (List.mem_filter.mp member).2).2.1

end

/--
After any packets and computations, when a remote link breaks the policies of
the local links that are down are sent exactly if nothing is a fault and the
links whose policies are due according to the last computation have the same
interfaces.
-/
theorem reprotectsRight_iff
    {pmaId routerId : UInt32}
    {policyTable : PolicyTable}
    {events : List DbmEvent}
    {state : CopyingDbm}
    (run : Run (ofPartial step) (start pmaId routerId policyTable) events state)
    (lsa : DbmLink)
    (clock : Nat → Timeval)
    (called : (state.dbm.table.updateLsa lsa).2 = some .fahProtectLink)
    (remote : ¬lsa.Touches state.dbm.pmaId) :
    state.ReprotectsRight lsa clock ↔
      state.dbm.fah.Ends state.dbm.routerId lsa ∧ state.Agrees lsa := by
  have due : state.dbm.fah.targets state.dbm.routerId lsa = state.repeats lsa :=
    targets_eq_repeats (run_copies run)
  have ends :
      (∃ reached,
          state.dbm.fah.fahProtectLink state.dbm.routerId lsa clock = .ok reached) ↔
        state.dbm.fah.Ends state.dbm.routerId lsa :=
    FahState.fahProtectLink_ends
  have injective : Function.Injective UInt32.toInt32 :=
    Function.LeftInverse.injective UInt32.toUInt32_toInt32
  have agrees (sends : FahState.Sends) (fah : FahState)
      (protects :
        state.dbm.fah.fahProtectLink state.dbm.routerId lsa clock = .ok (fah, sends)) :
      (sends.all.map (·.ifid)).Perm
          ((downLinks (state.dbm.table.updateLsa lsa).1.rows lsa.areaid
            state.dbm.pmaId).map (·.ifid.toInt32)) ↔
        state.Agrees lsa := by
    obtain ⟨ids, -⟩ := FahState.fahProtectLink_ok protects
    unfold Agrees
    rw [ids, due, downLinks_updateLsa state.dbm.table fun same => remote (.inl same),
      ← List.map_perm_map_iff injective, List.map_map, List.map_map]
    rfl
  unfold ReprotectsRight
  rw [LinkDbm.updateLsa_of_call called, ← ends]
  constructor
  · rintro ⟨after, sends, ended, right⟩
    obtain ⟨⟨fah, others⟩, protects, same⟩ := map_eq_ok.mp ended
    cases same
    exact ⟨⟨_, protects⟩, (agrees sends fah protects).mp right⟩
  · rintro ⟨⟨⟨fah, sends⟩, protects⟩, condition⟩
    exact ⟨_, sends, map_eq_ok.mpr ⟨_, protects, rfl⟩,
      (agrees sends fah protects).mpr condition⟩

/-- Three routers in a line are reported, each with a network, and the routes are computed. -/
def lineEvents : List DbmEvent :=
  [.addLsa ⟨1, 1, 2, 7, 8, 10, 3, 1, ⟨0, 0⟩⟩, .addLsa ⟨1, 2, 1, 8, 7, 10, 3, 1, ⟨0, 0⟩⟩,
    .addLsa ⟨1, 2, 3, 9, 10, 10, 3, 1, ⟨0, 0⟩⟩, .addLsa ⟨1, 3, 2, 10, 9, 10, 3, 1, ⟨0, 0⟩⟩,
    .addLsa ⟨1, 1, 0, 3, 0, 3, 3, 1, ⟨0, 0⟩⟩, .addLsa ⟨1, 3, 0, 3, 0, 3, 3, 1, ⟨0, 0⟩⟩,
    .pathComputeStart 100 (fun _ _ _ _ => 1) (fun _ => ⟨0, fun _ => ⟨[], 0⟩⟩)]

/-- Router 1 loses its link. -/
def localBreak : DbmEvent :=
  .updateLsa ⟨1, 1, 2, 7, 8, 10, 0, 2, ⟨0, 0⟩⟩ fun _ => ⟨1000, 0⟩

/-- The routes are computed again. -/
def recomputed : DbmEvent :=
  .pathComputeStart 100 (fun _ _ _ _ => 1) (fun _ => ⟨0, fun _ => ⟨[], 0⟩⟩)

/-- Later the link behind it breaks, too. -/
def remoteBreak : DbmLink := ⟨1, 2, 3, 9, 10, 10, 0, 2, ⟨0, 0⟩⟩

/-- What router 1 sends then, what is due according to the copy, and what is down. -/
def lineOutcome (events : List DbmEvent) :
    Option (UInt32 × FahOutcome × List UInt32 × List UInt32) :=
  (events.foldlM step (start 1 1 .init)).toOption.bind fun state =>
    (state.dbm.updateLsa remoteBreak fun _ => ⟨1010, 0⟩).toOption.map fun (_, outcome) =>
      (state.dbm.pmaId, outcome, (state.repeats remoteBreak).map (·.ifid),
        (downLinks state.dbm.table.rows 1 1).map (·.ifid))

theorem lineOutcome_eq
    {events : List DbmEvent}
    {sends : FahState.Sends}
    {due down : List UInt32}
    (observed : lineOutcome events = some (1, .protection sends, due, down)) :
    ∃ state after,
      Run (ofPartial step) (start 1 1 .init) events state ∧
        state.dbm.pmaId = 1 ∧
        state.dbm.updateLsa remoteBreak (fun _ => ⟨1010, 0⟩) =
          .ok (after, .protection sends) ∧
        (state.dbm.table.updateLsa remoteBreak).2 = some .fahProtectLink ∧
        (state.repeats remoteBreak).map (·.ifid) = due ∧
        (downLinks state.dbm.table.rows 1 1).map (·.ifid) = down := by
  obtain ⟨state, reached, observed⟩ := Option.bind_eq_some_iff.mp observed
  obtain ⟨⟨after, outcome⟩, updated, same⟩ := Option.map_eq_some_iff.mp observed
  simp only [Prod.mk.injEq] at same
  obtain ⟨pmaId, rfl, isDue, isDown⟩ := same
  have run := run_of_foldlM (toOption_eq_some.mp reached)
  have ended := toOption_eq_some.mp updated
  refine ⟨state, after, run, pmaId, ended, ?_, isDue, isDown⟩
  unfold LinkDbm.updateLsa at ended
  dsimp only at ended
  split at ended
  · next called => exact called
  · obtain ⟨_, -, same⟩ := map_eq_ok.mp ended
    cases same
  · cases ended

/-- After another computation the policy of the broken link is sent again. -/
theorem recomputed_reprotectsRight :
    ∃ state,
      Run (ofPartial step) (start 1 1 .init) (lineEvents ++ [localBreak, recomputed]) state ∧
        state.ReprotectsRight remoteBreak fun _ => ⟨1010, 0⟩ := by
  have observed :
      lineOutcome (lineEvents ++ [localBreak, recomputed]) =
        some (1, .protection ⟨[], [⟨7, 10000000, 30000000⟩]⟩, [7], [7]) := by
    decide +kernel
  obtain ⟨state, after, run, pmaId, ended, called, isDue, isDown⟩ := lineOutcome_eq observed
  have remote : ¬remoteBreak.Touches state.dbm.pmaId := by
    rw [pmaId]
    decide
  refine ⟨state, run, (reprotectsRight_iff run _ _ called remote).mpr ⟨?_, ?_⟩⟩
  · rw [LinkDbm.updateLsa_of_call called] at ended
    obtain ⟨reached, protects, -⟩ := map_eq_ok.mp ended
    exact FahState.fahProtectLink_ends.mp ⟨reached, protects⟩
  · unfold Agrees
    rw [isDue, pmaId]
    exact .of_eq isDown.symm

/-- Without it the link is up in the copy, and nothing is sent. -/
theorem staleCopy_not_reprotectsRight :
    ∃ state,
      Run (ofPartial step) (start 1 1 .init) (lineEvents ++ [localBreak]) state ∧
        (state.dbm.table.updateLsa remoteBreak).2 = some .fahProtectLink ∧
        ¬remoteBreak.Touches state.dbm.pmaId ∧
        ¬state.ReprotectsRight remoteBreak fun _ => ⟨1010, 0⟩ := by
  have observed :
      lineOutcome (lineEvents ++ [localBreak]) = some (1, .protection ⟨[], []⟩, [], [7]) := by
    decide +kernel
  obtain ⟨state, after, run, pmaId, ended, called, -, isDown⟩ := lineOutcome_eq observed
  refine ⟨state, run, called, ?_, ?_⟩
  · rw [pmaId]
    decide
  · rintro ⟨other, sends, alsoEnded, right⟩
    rw [ended] at alsoEnded
    cases alsoEnded
    rw [LinkDbm.updateLsa_of_call called] at ended
    obtain ⟨⟨fah, _⟩, -, same⟩ := map_eq_ok.mp ended
    cases same
    rw [pmaId, downLinks_updateLsa state.dbm.table (by decide)] at right
    have none := List.nil_perm.mp right
    have down := congrArg List.length isDown
    rw [List.map_eq_nil_iff] at none
    rw [List.length_map, show downLinks state.dbm.table.rows 1 1 = [] from none] at down
    cases down

end CopyingDbm

end Pma
