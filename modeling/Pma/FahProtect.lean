import Pma.FahPolicy

namespace Pma

open Loops

/-!
# Which interfaces are protected

`link_state_handler` calls `fah_protect_link` for a link that breaks.  If the link
ends at the local router, its interface is protected; otherwise those of the local
links that were down at the last computation are, if ever one was.
-/

/-- The state of DBM, as far as link states are concerned. -/
structure LinkDbm where
  table : LinkTable
  fah : FahState
  pmaId : UInt32
  routerId : UInt32

/-- What `link_state_handler` has sent for an update. -/
inductive FahOutcome where
  | nothing
  | protection (sends : FahState.Sends)
  | reset (sends : List PolicySend)
  deriving Repr, DecidableEq

/-- The `UPDATELSA` branch of `link_state_handler`. -/
def LinkDbm.updateLsa
    (dbm : LinkDbm)
    (lsa : DbmLink)
    (clock : Nat → Timeval) : Except FahFault (LinkDbm × FahOutcome) :=
  let (table, call) := dbm.table.updateLsa lsa
  match call with
  | some .fahProtectLink =>
      (dbm.fah.fahProtectLink dbm.routerId lsa clock).map fun (fah, sends) =>
        ({ dbm with table := table, fah := fah }, .protection sends)
  | some .fahSetDefaultTimer =>
      (dbm.fah.fahSetDefaultTimer lsa).map fun (fah, sends) =>
        ({ dbm with table := table, fah := fah }, .reset sends)
  | none => .ok ({ dbm with table := table }, .nothing)

/-- The calls of `send_policy` for a link that breaks. -/
def FahState.Sends.all (sends : FahState.Sends) : List PolicySend :=
  sends.direct ++ sends.again

/-- A link ends at a router. -/
def DbmLink.Touches (link : DbmLink) (router : UInt32) : Prop :=
  link.rid = router ∨ link.nrid = router

instance (link : DbmLink) (router : UInt32) : Decidable (link.Touches router) :=
  inferInstanceAs (Decidable (_ ∨ _))

namespace FahState

/-- The area in which a link is looked up. -/
def areaOf (fah : FahState) (link : DbmLink) : Option FahArea :=
  fah.areas.bind (FahArea.getAreaByAreaid · link.areaid)

/-- The links that are protected when a link breaks. -/
def targets (fah : FahState) (routerid : UInt32) (link : DbmLink) : List DbmLink :=
  match fah.areaOf link with
  | none => []
  | some az =>
      if link.Touches routerid then
        [link]
      else if fah.isRouterNeedProtect = true then
        az.lslist.filter (isReprotected routerid)
      else
        []

/-- Nothing that `fah_protect_link` does is a fault. -/
def Ends (fah : FahState) (routerid : UInt32) (link : DbmLink) : Prop :=
  ∀ az,
    fah.areaOf link = some az →
    ∃ destorydegree,
      destroyDegree (az.markDown link) = .ok destorydegree ∧
        ∀ info ∈ fah.targets routerid link,
          (∃ key, keyOfDegree destorydegree = .ok key) ∧ TimerEnds info.ifid.toInt32

/-! ## One link -/

section

variable
  {fah after : FahState} {link : DbmLink} {key : Int32} {timenow : Timeval}
  {destorydegree : Option ℚ} {clock : Nat → Timeval} {sent sends : List PolicySend}

/-- There are values for every key. -/
theorem chooseTimers_ok
    (table : PolicyTable)
    (key : Int32) :
    ∃ hello dead, chooseTimers (some table) key = some (hello, dead) := by
  by_cases found : ∃ i elem, table.IsFirst (key.toInt % 2 ^ 32) i elem
  · obtain ⟨i, elem, isFirst⟩ := found
    by_cases zero : i = 0
    · subst zero
      exact ⟨_, _, PolicyTable.chooseTimers_zero isFirst⟩
    · exact ⟨_, _, PolicyTable.chooseTimers_of_ne_zero isFirst zero⟩
  · exact ⟨_, _,
      PolicyTable.chooseTimers_none fun i elem isFirst => found ⟨i, elem, isFirst⟩⟩

/-- A link is protected at its own interface. -/
theorem protectLocalLink_ok
    (protects : fah.protectLocalLink link key timenow = .ok (after, sends)) :
    sends.map (·.ifid) = [link.ifid.toInt32] ∧
      after.areas = fah.areas ∧
      after.isRouterNeedProtect = fah.isRouterNeedProtect := by
  obtain ⟨hello, dead, chosen⟩ := chooseTimers_ok fah.policyTable key
  unfold protectLocalLink at protects
  rw [chosen] at protects
  obtain ⟨⟨value, deadTimer⟩, -, same⟩ := map_eq_ok.mp protects
  cases same
  exact ⟨rfl, rfl, rfl⟩

theorem protectLocalLink_ends :
    (∃ reached, fah.protectLocalLink link key timenow = .ok reached) ↔
      TimerEnds link.ifid.toInt32 := by
  obtain ⟨hello, dead, chosen⟩ := chooseTimers_ok fah.policyTable key
  unfold protectLocalLink
  rw [chosen]
  dsimp only
  constructor
  · rintro ⟨reached, protects⟩
    by_contra outside
    rw [recomputeDeadTimer_error outside] at protects
    cases protects
  · intro inside
    obtain ⟨value, after, ended⟩ := recomputeDeadTimer_ok inside
    rw [ended]
    exact ⟨_, rfl⟩

/-! ## The loop -/

/-- The loop protects the links one after the other. -/
theorem reprotect_ok
    {entries : List (DbmLink × Nat)}
    (protects :
      entries.foldlM (reprotectOne destorydegree clock) (fah, sent) = .ok (after, sends)) :
    sends.map (·.ifid) = sent.map (·.ifid) ++ entries.map (·.1.ifid.toInt32) ∧
      after.areas = fah.areas ∧
      after.isRouterNeedProtect = fah.isRouterNeedProtect := by
  induction entries generalizing fah sent with
  | nil =>
      cases protects
      rw [List.map_nil, List.append_nil]
      exact ⟨rfl, rfl, rfl⟩
  | cons entry rest inductionHypothesis =>
      rw [List.foldlM_cons] at protects
      obtain ⟨⟨middle, more⟩, first, protects⟩ := bind_eq_ok.mp protects
      obtain ⟨key, -, mapped⟩ := bind_eq_ok.mp first
      obtain ⟨⟨state, one⟩, here, same⟩ := map_eq_ok.mp mapped
      cases same
      obtain ⟨ids, areas, flag⟩ := protectLocalLink_ok here
      obtain ⟨others, laterAreas, laterFlag⟩ := inductionHypothesis protects
      refine ⟨?_, laterAreas.trans areas, laterFlag.trans flag⟩
      rw [others, List.map_append, ids, List.append_assoc, List.map_cons,
        List.singleton_append]

theorem reprotect_ends
    {entries : List (DbmLink × Nat)} :
    (∃ reached,
        entries.foldlM (reprotectOne destorydegree clock) (fah, sent) = .ok reached) ↔
      ∀ entry ∈ entries,
        (∃ key, keyOfDegree destorydegree = .ok key) ∧ TimerEnds entry.1.ifid.toInt32 := by
  induction entries generalizing fah sent with
  | nil =>
      exact iff_of_true ⟨_, rfl⟩ fun _ member => absurd member List.not_mem_nil
  | cons entry rest inductionHypothesis =>
      rw [List.foldlM_cons, List.forall_mem_cons]
      constructor
      · rintro ⟨reached, protects⟩
        obtain ⟨⟨middle, more⟩, first, protects⟩ := bind_eq_ok.mp protects
        obtain ⟨key, isKey, mapped⟩ := bind_eq_ok.mp first
        obtain ⟨⟨state, one⟩, here, same⟩ := map_eq_ok.mp mapped
        exact ⟨⟨⟨key, isKey⟩, protectLocalLink_ends.mp ⟨_, here⟩⟩,
          inductionHypothesis.mp ⟨reached, protects⟩⟩
      · rintro ⟨⟨⟨key, isKey⟩, inside⟩, others⟩
        have here :
            ∃ reached, fah.protectLocalLink entry.1 key (clock entry.2) = .ok reached :=
          protectLocalLink_ends.mpr inside
        obtain ⟨⟨state, one⟩, here⟩ := here
        have later :
            ∃ reached,
              rest.foldlM (reprotectOne destorydegree clock) (state, sent ++ one) =
                .ok reached :=
          inductionHypothesis.mpr others
        obtain ⟨reached, later⟩ := later
        refine ⟨reached, bind_eq_ok.mpr ⟨(state, sent ++ one), ?_, later⟩⟩
        exact bind_eq_ok.mpr ⟨key, isKey, map_eq_ok.mpr ⟨_, here, rfl⟩⟩

end

/-! ## The call -/

section

variable
  {fah after : FahState} {routerid : UInt32} {link : DbmLink} {az : FahArea}
  {clock : Nat → Timeval} {sends : Sends}

/-- Without an area nothing is done. -/
theorem fahProtectLink_unknown
    (unknown : fah.areaOf link = none) :
    fah.fahProtectLink routerid link clock = .ok (fah, ⟨[], []⟩) := by
  unfold areaOf at unknown
  unfold fahProtectLink
  split
  · rfl
  · next areas isAreas =>
      rw [isAreas] at unknown
      rw [show FahArea.getAreaByAreaid areas link.areaid = none from unknown]

/-- The state in which the links are protected. -/
def down (fah : FahState) (link : DbmLink) : FahState :=
  { fah with areas := fah.areas.map (FahArea.recordBrokenPathDown · link) }

theorem fahProtectLink_known
    (known : fah.areaOf link = some az) :
    fah.fahProtectLink routerid link clock =
      (destroyDegree (az.markDown link)).bind fun destorydegree =>
        if link.Touches routerid then
          (keyOfDegree destorydegree).bind fun key =>
            ({ fah.down link with isRouterNeedProtect := true }.protectLocalLink link key
                (clock 0)).map fun (fah, sends) =>
              (fah, ⟨sends, []⟩)
        else if fah.isRouterNeedProtect = true then
          ((fah.down link).reprotectLocalLink (az.markDown link) routerid destorydegree clock).map
            fun (fah, sends) => (fah, ⟨[], sends⟩)
        else
          .ok (fah.down link, ⟨[], []⟩) := by
  unfold areaOf at known
  unfold fahProtectLink down
  split
  · next isAreas =>
      rw [isAreas] at known
      cases known
  · next areas isAreas =>
      rw [isAreas] at known
      rw [show FahArea.getAreaByAreaid areas link.areaid = some az from known, isAreas]
      rfl

/-- The targets of a link in a known area. -/
theorem targets_known
    (known : fah.areaOf link = some az) :
    fah.targets routerid link =
      if link.Touches routerid then
        [link]
      else if fah.isRouterNeedProtect = true then
        az.lslist.filter (isReprotected routerid)
      else
        [] := by
  unfold targets
  rw [known]

/-- The targets are protected, and the link itself if it ends at the router. -/
theorem fahProtectLink_ok
    (called : fah.fahProtectLink routerid link clock = .ok (after, sends)) :
    sends.all.map (·.ifid) = (fah.targets routerid link).map (·.ifid.toInt32) ∧
      (sends.direct = [] ↔ ¬((fah.areaOf link).isSome = true ∧ link.Touches routerid)) ∧
      (after.areas = fah.areas ∨
        after.areas = fah.areas.map (FahArea.recordBrokenPathDown · link)) := by
  cases known : fah.areaOf link with
  | none =>
      rw [fahProtectLink_unknown known] at called
      cases called
      unfold targets
      rw [known]
      exact ⟨rfl, iff_of_true rfl (fun both => nomatch both.1), .inl rfl⟩
  | some az =>
      rw [fahProtectLink_known known] at called
      rw [targets_known known]
      obtain ⟨destorydegree, -, called⟩ := bind_eq_ok.mp called
      by_cases touches : link.Touches routerid
      · rw [if_pos touches] at called ⊢
        obtain ⟨key, -, called⟩ := bind_eq_ok.mp called
        obtain ⟨⟨state, one⟩, protects, same⟩ := map_eq_ok.mp called
        cases same
        obtain ⟨ids, areas, -⟩ := protectLocalLink_ok protects
        have sent : one ≠ [] := by
          rintro rfl
          cases ids
        refine ⟨?_, iff_of_false sent fun none => none ⟨rfl, touches⟩, .inr areas⟩
        unfold Sends.all
        rw [List.append_nil]
        exact ids
      · rw [if_neg touches] at called ⊢
        by_cases flag : fah.isRouterNeedProtect = true
        · rw [if_pos flag] at called ⊢
          obtain ⟨⟨state, several⟩, protects, same⟩ := map_eq_ok.mp called
          cases same
          obtain ⟨ids, areas, -⟩ := reprotect_ok protects
          refine ⟨?_, iff_of_true rfl fun both => touches both.2, .inr areas⟩
          have entries :
              ((az.lslist.filter (isReprotected routerid)).zipIdx.map
                fun entry => entry.1.ifid.toInt32) =
                (az.lslist.filter (isReprotected routerid)).map (·.ifid.toInt32) := by
            conv_rhs => rw [← List.zipIdx_map_fst 0 (az.lslist.filter _), List.map_map]
            rfl
          rw [← entries]
          exact ids
        · rw [if_neg flag] at called ⊢
          cases called
          exact ⟨rfl, iff_of_true rfl fun both => touches both.2, .inr rfl⟩

theorem protectDirect_ends
    {destorydegree : Option ℚ} :
    (∃ reached : FahState × Sends,
        ((keyOfDegree destorydegree).bind fun key =>
          (fah.protectLocalLink link key (clock 0)).map fun (fah, sends) =>
            (fah, ⟨sends, []⟩)) = .ok reached) ↔
      (∃ key, keyOfDegree destorydegree = .ok key) ∧ TimerEnds link.ifid.toInt32 := by
  constructor
  · rintro ⟨reached, called⟩
    obtain ⟨key, isKey, called⟩ := bind_eq_ok.mp called
    obtain ⟨one, protects, -⟩ := map_eq_ok.mp called
    exact ⟨⟨key, isKey⟩, protectLocalLink_ends.mp ⟨one, protects⟩⟩
  · rintro ⟨⟨key, isKey⟩, inside⟩
    obtain ⟨one, protects⟩ := protectLocalLink_ends.mpr inside
    exact ⟨_, bind_eq_ok.mpr ⟨key, isKey, map_eq_ok.mpr ⟨one, protects, rfl⟩⟩⟩

theorem protectAgain_ends
    {destorydegree : Option ℚ} :
    (∃ reached : FahState × Sends,
        (fah.reprotectLocalLink az routerid destorydegree clock).map
          (fun (fah, sends) => (fah, (⟨[], sends⟩ : Sends))) = .ok reached) ↔
      ∀ info ∈ az.lslist.filter (isReprotected routerid),
        (∃ key, keyOfDegree destorydegree = .ok key) ∧ TimerEnds info.ifid.toInt32 := by
  have entries (condition : DbmLink → Prop) :
      (∀ entry ∈ (az.lslist.filter (isReprotected routerid)).zipIdx, condition entry.1) ↔
        ∀ info ∈ az.lslist.filter (isReprotected routerid), condition info := by
    conv_rhs => rw [← List.zipIdx_map_fst 0 (az.lslist.filter _)]
    rw [List.forall_mem_map]
  have ends :
      (∃ reached, fah.reprotectLocalLink az routerid destorydegree clock = .ok reached) ↔ _ :=
    reprotect_ends
  rw [← entries, ← ends]
  constructor
  · rintro ⟨reached, called⟩
    obtain ⟨several, protects, -⟩ := map_eq_ok.mp called
    exact ⟨several, protects⟩
  · rintro ⟨several, protects⟩
    exact ⟨_, map_eq_ok.mpr ⟨several, protects, rfl⟩⟩

/-- It returns if nothing is a fault. -/
theorem fahProtectLink_ends :
    (∃ reached, fah.fahProtectLink routerid link clock = .ok reached) ↔
      fah.Ends routerid link := by
  unfold Ends
  cases known : fah.areaOf link with
  | none =>
      rw [fahProtectLink_unknown known]
      exact iff_of_true ⟨_, rfl⟩ fun az same => nomatch same
  | some az =>
      rw [fahProtectLink_known known, targets_known known]
      simp only [Option.some.injEq, forall_eq']
      cases degree : destroyDegree (az.markDown link) with
      | error fault =>
          exact iff_of_false (fun ⟨_, called⟩ => nomatch called)
            fun ⟨_, same, _⟩ => nomatch same
      | ok destorydegree =>
          have only (condition : Option ℚ → Prop) :
              (∃ other, Except.ok destorydegree = (.ok other : Except FahFault (Option ℚ)) ∧
                  condition other) ↔
                condition destorydegree := by
            constructor
            · rintro ⟨_, ⟨⟩, holds⟩
              exact holds
            · exact fun holds => ⟨_, rfl, holds⟩
          rw [only]
          by_cases touches : link.Touches routerid
          · simp only [if_pos touches, List.forall_mem_singleton]
            exact protectDirect_ends
          · simp only [if_neg touches]
            by_cases flag : fah.isRouterNeedProtect = true
            · simp only [if_pos flag]
              exact protectAgain_ends
            · simp only [if_neg flag]
              exact iff_of_true ⟨_, rfl⟩ fun _ member => absurd member List.not_mem_nil

end

end FahState

/-! ## The interface of a broken link -/

namespace LinkDbm

/-- An interface is the one that the local device has on a link. -/
def IsOwnInterface (dbm : LinkDbm) (lsa : DbmLink) (ifid : UInt32) : Prop :=
  (lsa.rid = dbm.pmaId → ifid = lsa.ifid) ∧ (lsa.nrid = dbm.pmaId → ifid = lsa.nifid)

/--
One message is sent, for the interface of the local device, if a broken link is
its own; and none for the link itself if it is not.
-/
def ProtectsRight (dbm : LinkDbm) (lsa : DbmLink) (clock : Nat → Timeval) : Prop :=
  ∃ after sends,
    dbm.updateLsa lsa clock = .ok (after, .protection sends) ∧
      if lsa.Touches dbm.pmaId then
        ∃ ifid,
          dbm.IsOwnInterface lsa ifid ∧ sends.all.map (·.ifid) = [ifid.toInt32]
      else
        sends.direct = []

/--
The link of the local device is in a known area and also ends at the router
whose identifier is configured, with the same interface on both sides if it was
reported by the neighbour; or exactly one link of that router was down, and it
has the same interface.
-/
def OwnIsTarget (dbm : LinkDbm) (lsa : DbmLink) : Prop :=
  ∃ az,
    dbm.fah.areaOf lsa = some az ∧
      (lsa.Touches dbm.routerId ∧ dbm.IsOwnInterface lsa lsa.ifid ∨
        ¬lsa.Touches dbm.routerId ∧
          dbm.fah.isRouterNeedProtect = true ∧
          ∃ info,
            az.lslist.filter (FahState.isReprotected dbm.routerId) = [info] ∧
              dbm.IsOwnInterface lsa info.ifid)

section

variable {dbm : LinkDbm} {lsa : DbmLink} {clock : Nat → Timeval}

theorem ownIsTarget_iff :
    dbm.OwnIsTarget lsa ↔
      ∃ info,
        dbm.fah.targets dbm.routerId lsa = [info] ∧ dbm.IsOwnInterface lsa info.ifid := by
  unfold OwnIsTarget
  cases known : dbm.fah.areaOf lsa with
  | none =>
      refine iff_of_false (fun ⟨_, same, _⟩ => nomatch same) fun ⟨info, single, _⟩ => ?_
      unfold FahState.targets at single
      rw [known] at single
      cases single
  | some az =>
      rw [FahState.targets_known known]
      simp only [Option.some.injEq, exists_eq_left']
      by_cases touches : lsa.Touches dbm.routerId
      · simp only [touches, not_true_eq_false, false_and, or_false, true_and, if_true,
          List.cons.injEq, and_true, exists_eq_left']
      · simp only [touches, not_false_eq_true, false_and, false_or, true_and, if_false]
        by_cases flag : dbm.fah.isRouterNeedProtect = true
        · simp only [flag, true_and, if_true]
        · refine iff_of_false (fun ⟨isFlag, _⟩ => flag isFlag) fun ⟨info, single, _⟩ => ?_
          rw [if_neg flag] at single
          cases single

/-- The handler protects a link that breaks. -/
theorem updateLsa_of_call
    (called : (dbm.table.updateLsa lsa).2 = some .fahProtectLink) :
    dbm.updateLsa lsa clock =
      (dbm.fah.fahProtectLink dbm.routerId lsa clock).map fun (fah, sends) =>
        ({ dbm with table := (dbm.table.updateLsa lsa).1, fah := fah }, .protection sends) := by
  unfold updateLsa
  dsimp only
  rw [called]

theorem updateLsa_ok
    (called : (dbm.table.updateLsa lsa).2 = some .fahProtectLink)
    (condition : FahState.Sends → Prop) :
    (∃ after sends,
        dbm.updateLsa lsa clock = .ok (after, .protection sends) ∧ condition sends) ↔
      ∃ fah sends,
        dbm.fah.fahProtectLink dbm.routerId lsa clock = .ok (fah, sends) ∧ condition sends := by
  rw [updateLsa_of_call called]
  constructor
  · rintro ⟨after, sends, ended, holds⟩
    obtain ⟨⟨fah, others⟩, protects, same⟩ := map_eq_ok.mp ended
    cases same
    exact ⟨fah, sends, protects, holds⟩
  · rintro ⟨fah, sends, protects, holds⟩
    exact ⟨_, sends, map_eq_ok.mpr ⟨_, protects, rfl⟩, holds⟩

end

/--
The right interface is protected exactly if nothing is a fault and, for a link
of the local device, its interface is the only one to be protected; for another
link, it does not end at the router whose identifier is configured, or its area
is not known.
-/
theorem protectsRight_iff
    (dbm : LinkDbm)
    (lsa : DbmLink)
    (clock : Nat → Timeval)
    (called : (dbm.table.updateLsa lsa).2 = some .fahProtectLink) :
    dbm.ProtectsRight lsa clock ↔
      dbm.fah.Ends dbm.routerId lsa ∧
        if lsa.Touches dbm.pmaId then
          dbm.OwnIsTarget lsa
        else
          ¬((dbm.fah.areaOf lsa).isSome = true ∧ lsa.Touches dbm.routerId) := by
  have ends :
      (∃ reached, dbm.fah.fahProtectLink dbm.routerId lsa clock = .ok reached) ↔
        dbm.fah.Ends dbm.routerId lsa :=
    FahState.fahProtectLink_ends
  unfold ProtectsRight
  rw [updateLsa_ok called, ownIsTarget_iff, ← ends]
  have iff (fah : FahState) (sends : FahState.Sends)
      (protects : dbm.fah.fahProtectLink dbm.routerId lsa clock = .ok (fah, sends)) :
      (if lsa.Touches dbm.pmaId then
          ∃ ifid, dbm.IsOwnInterface lsa ifid ∧ sends.all.map (·.ifid) = [ifid.toInt32]
        else
          sends.direct = []) ↔
        if lsa.Touches dbm.pmaId then
          ∃ info,
            dbm.fah.targets dbm.routerId lsa = [info] ∧ dbm.IsOwnInterface lsa info.ifid
        else
          ¬((dbm.fah.areaOf lsa).isSome = true ∧ lsa.Touches dbm.routerId) := by
    obtain ⟨ids, direct, -⟩ := FahState.fahProtectLink_ok protects
    split
    · rw [ids]
      constructor
      · rintro ⟨ifid, own, single⟩
        obtain ⟨info, isTarget, same⟩ := List.map_eq_singleton_iff.mp single
        have equal := congrArg Int32.toUInt32 same
        rw [UInt32.toUInt32_toInt32, UInt32.toUInt32_toInt32] at equal
        rw [← equal] at own
        exact ⟨info, isTarget, own⟩
      · rintro ⟨info, single, own⟩
        refine ⟨info.ifid, own, ?_⟩
        rw [single]
        rfl
    · exact direct
  constructor
  · rintro ⟨fah, sends, protects, right⟩
    exact ⟨⟨_, protects⟩, (iff fah sends protects).mp right⟩
  · rintro ⟨⟨⟨fah, sends⟩, protects⟩, condition⟩
    exact ⟨fah, sends, protects, (iff fah sends protects).mpr condition⟩

/-- Interface 7 of router 1 leads to interface 8 of router 2, and both have a network. -/
def homeTable : LinkTable where
  rows :=
    [⟨1, 1, 2, 7, 8, 10, 3, 1, ⟨0, 0⟩⟩, ⟨1, 2, 1, 8, 7, 10, 3, 1, ⟨0, 0⟩⟩,
      ⟨1, 1, 0, 3, 0, 3, 3, 1, ⟨0, 0⟩⟩, ⟨1, 2, 0, 3, 0, 3, 3, 1, ⟨0, 0⟩⟩]
  keyed := by decide

/-- Their area, computed in empty memory. -/
def homeAreas : Except Lidb.Fault (List FahArea) :=
  homeTable.pathComputeStart 100 (fun _ _ _ _ => 1) (fun _ => ⟨0, fun _ => ⟨[], 0⟩⟩)

/-- The DBM of router 1 after the computation. -/
def homeDbm (areas : List FahArea) : LinkDbm where
  table := homeTable
  fah :=
    { areas := some areas
      isRouterNeedProtect := false
      deadTimer := .replicate maxInterfaceNum ⟨0, 0⟩
      policyTable := .init }
  pmaId := 1
  routerId := 1

/-- What is sent when a link breaks. -/
def homeOutcome (lsa : DbmLink) : Except Lidb.Fault (Option FahOutcome) :=
  homeAreas.map fun areas =>
    ((homeDbm areas).updateLsa lsa fun _ => ⟨1000, 0⟩).toOption.map Prod.snd

theorem homeOutcome_eq
    {lsa : DbmLink}
    {outcome : FahOutcome}
    (sent : homeOutcome lsa = .ok (some outcome)) :
    ∃ areas after,
      homeAreas = .ok areas ∧
        (homeDbm areas).updateLsa lsa (fun _ => ⟨1000, 0⟩) = .ok (after, outcome) := by
  obtain ⟨areas, computed, observed⟩ := map_eq_ok.mp sent
  obtain ⟨⟨after, other⟩, ended, rfl⟩ := Option.map_eq_some_iff.mp observed
  exact ⟨areas, after, computed, toOption_eq_some.mp ended⟩

/-- Router 1 reports its link as broken, and its interface is protected. -/
theorem ownReport_protectsRight :
    ∃ areas,
      homeAreas = .ok areas ∧
        (homeDbm areas).ProtectsRight ⟨1, 1, 2, 7, 8, 10, 0, 2, ⟨0, 0⟩⟩ fun _ => ⟨1000, 0⟩ := by
  have sent :
      homeOutcome ⟨1, 1, 2, 7, 8, 10, 0, 2, ⟨0, 0⟩⟩ =
        .ok (some (.protection ⟨[⟨7, 10000000, 40000000⟩], []⟩)) := by
    decide +kernel
  obtain ⟨areas, after, computed, ended⟩ := homeOutcome_eq sent
  have called :
      ((homeDbm areas).table.updateLsa ⟨1, 1, 2, 7, 8, 10, 0, 2, ⟨0, 0⟩⟩).2 =
        some .fahProtectLink := by
    change (homeTable.updateLsa _).2 = _
    decide
  refine ⟨areas, computed, (protectsRight_iff _ _ _ called).mpr ?_⟩
  obtain ⟨fah, sends, protects, single⟩ :=
    (updateLsa_ok called fun sends => sends.all.map (·.ifid) = [7]).mp
      ⟨after, _, ended, rfl⟩
  refine ⟨FahState.fahProtectLink_ends.mp ⟨_, protects⟩, ?_⟩
  have touches :
      (⟨1, 1, 2, 7, 8, 10, 0, 2, ⟨0, 0⟩⟩ : DbmLink).Touches (homeDbm areas).pmaId := .inl rfl
  rw [if_pos touches, ownIsTarget_iff]
  obtain ⟨ids, -⟩ := FahState.fahProtectLink_ok protects
  rw [ids] at single
  obtain ⟨info, isTarget, same⟩ := List.map_eq_singleton_iff.mp single
  have equal := congrArg Int32.toUInt32 same
  rw [UInt32.toUInt32_toInt32] at equal
  exact ⟨info, isTarget, fun _ => equal, fun other => nomatch other⟩

/-- Its neighbour reports the link, and the interface of the neighbour is taken. -/
theorem neighbourReport_not_protectsRight :
    ∃ areas,
      homeAreas = .ok areas ∧
        (((homeDbm areas).table.updateLsa ⟨1, 2, 1, 8, 7, 10, 0, 2, ⟨0, 0⟩⟩).2 =
          some .fahProtectLink) ∧
        ¬(homeDbm areas).ProtectsRight ⟨1, 2, 1, 8, 7, 10, 0, 2, ⟨0, 0⟩⟩
          fun _ => ⟨1000, 0⟩ := by
  have sent :
      homeOutcome ⟨1, 2, 1, 8, 7, 10, 0, 2, ⟨0, 0⟩⟩ =
        .ok (some (.protection ⟨[⟨8, 10000000, 40000000⟩], []⟩)) := by
    decide +kernel
  obtain ⟨areas, after, computed, ended⟩ := homeOutcome_eq sent
  refine ⟨areas, computed, ?_, ?_⟩
  · change (homeTable.updateLsa _).2 = _
    decide
  · rintro ⟨other, sends, protects, right⟩
    rw [ended] at protects
    cases protects
    have touches :
        (⟨1, 2, 1, 8, 7, 10, 0, 2, ⟨0, 0⟩⟩ : DbmLink).Touches (homeDbm areas).pmaId := .inr rfl
    rw [if_pos touches] at right
    obtain ⟨ifid, ⟨-, own⟩, single⟩ := right
    rw [own rfl] at single
    exact absurd single (by decide)

end LinkDbm

end Pma
