import Pma.LsdSessions

namespace Pma

open Transition

/-!
# What reaches the database and the queues

The results about sequence numbers and about flooding over a network speak
about three things only: the entries of the databases, the advertisements put
on flood queues, and the calls of the flooding functions.  `Icm.Effect` states
all three exactly for one call.  `Icm.reaction` is the decision
`accept_lsa_into_lsdb` takes; what follows from it is
`Icm.acceptLsaIntoLsdb_effect`.
-/

/-- The entries of all databases of a daemon. -/
abbrev Entries := ZoneId → LinkStateKey → Option CrLsdbLinkState

/-- The entries after one link state was stored in an area. -/
def Entries.write (entries : Entries) (zone : ZoneId) (link : CrLsdbLinkState) :
    Entries :=
  fun query key =>
    if query = zone ∧ key = link.key then some link else entries query key

theorem Entries.write_self
    (entries : Entries)
    (zone : ZoneId)
    (link : CrLsdbLinkState) :
    entries.write zone link zone link.key = some link :=
  if_pos ⟨rfl, rfl⟩

/-- Storing one link state leaves the other keys alone. -/
theorem Entries.write_of_ne
    {zone query : ZoneId}
    {link : CrLsdbLinkState}
    {key : LinkStateKey}
    (entries : Entries)
    (different : ¬ (query = zone ∧ key = link.key)) :
    entries.write zone link query key = entries query key :=
  if_neg different

namespace Icm

/-- The entries a daemon stores. -/
def stored (icm : Icm) : Entries :=
  fun zone key => (icm.lsdb zone).crLsdbLinkStateFind key

/-- Whether an interface takes advertisements for flooding. -/
def live (icm : Icm) (eth : EthId) : Bool :=
  match icm.floodMaster eth with
  | none => false
  | some flood => flood.state ≠ .terminated

/-- The records of putting one advertisement on the queues of some interfaces. -/
def queuedCalls (icm : Icm) (eths : List EthId) (lsa : LinkStateAdv) :
    List Call :=
  (eths.filter icm.live).map fun eth => .floodQueued eth lsa

/-- Queueing is invisible to whoever does not look at the queues. -/
theorem filterMap_queuedCalls
    {α : Type}
    (observe : Call → Option α)
    (unseen : ∀ eth lsa, observe (.floodQueued eth lsa) = none)
    (icm : Icm)
    (eths : List EthId)
    (lsa : LinkStateAdv) :
    (icm.queuedCalls eths lsa).filterMap observe = [] := by
  unfold queuedCalls
  rw [List.filterMap_map]
  simp [unseen]

/--
`after` is reached from `before` by a call that leaves `entries` in the
databases and records `calls`.
-/
structure Effect
    (before after : Icm)
    (entries : Entries)
    (calls : List Call) : Prop extends Floods before after where
  stored : after.stored = entries
  live : after.live = before.live
  trace : after.trace = before.trace ++ calls

namespace Effect

theorem refl
    (icm : Icm) :
    Effect icm icm icm.stored [] :=
  { Floods.refl icm with
    stored := rfl
    live := rfl
    trace := by simp }

theorem trans
    {first second third : Icm}
    {middle entries : Entries}
    {earlierCalls laterCalls : List Call}
    (earlier : Effect first second middle earlierCalls)
    (later : Effect second third entries laterCalls) :
    Effect first third entries (earlierCalls ++ laterCalls) :=
  { earlier.toFloods.trans later.toFloods with
    stored := later.stored
    live := later.live.trans earlier.live
    trace := by
      rw [later.trace, earlier.trace, List.append_assoc] }

/-- Recording a call. -/
theorem log
    (icm : Icm)
    (call : Call) :
    Effect icm (icm.log call) icm.stored [call] :=
  { Floods.log icm call with
    stored := rfl
    live := rfl
    trace := rfl }

/-- Reading the clock. -/
theorem readClock
    (icm : Icm) :
    Effect icm icm.readClock icm.stored [] :=
  { Floods.readClock icm with
    stored := rfl
    live := rfl
    trace := by simp [Icm.readClock] }

/-- `flood_add_flood_lsa` puts the advertisement on a live queue. -/
theorem floodAddFloodLsa
    (icm : Icm)
    (lsa : LinkStateAdv)
    (eth : EthId) :
    Effect icm (icm.floodAddFloodLsa lsa eth) icm.stored
      (icm.queuedCalls [eth] lsa) := by
  refine
    { Floods.floodAddFloodLsa icm lsa eth with
      stored := ?_
      live := ?_
      trace := ?_ }
  · unfold Icm.floodAddFloodLsa
    split
    · rfl
    · split
      · rfl
      · dsimp only
        split <;> rfl
  · funext other
    unfold Icm.live Icm.floodAddFloodLsa
    cases found : icm.floodMaster eth with
    | none =>
        rfl
    | some flood =>
        by_cases same : other = eth
        · subst same
          cases state : flood.state <;>
            simp [found, state, setFlood, Icm.log]
        · cases state : flood.state <;>
            simp [state, setFlood, Icm.log, addTimer, same]
  · unfold Icm.floodAddFloodLsa queuedCalls Icm.live
    cases found : icm.floodMaster eth with
    | none =>
        simp [found]
    | some flood =>
        cases state : flood.state <;>
          simp [found, state, setFlood, Icm.log, addTimer]

/-- Putting an advertisement on the queues of a list of interfaces. -/
theorem queueAll
    (lsa : LinkStateAdv)
    (eths : List EthId)
    (icm : Icm) :
    Effect icm
      (eths.foldl (fun current eth => current.floodAddFloodLsa lsa eth) icm)
      icm.stored (icm.queuedCalls eths lsa) := by
  induction eths generalizing icm with
  | nil =>
      exact refl icm
  | cons eth rest inductionHypothesis =>
      have first := floodAddFloodLsa icm lsa eth
      have others := inductionHypothesis (icm.floodAddFloodLsa lsa eth)
      have joined := first.trans others
      rw [first.stored] at joined
      have calls :
          icm.queuedCalls (eth :: rest) lsa =
            icm.queuedCalls [eth] lsa ++
              (icm.floodAddFloodLsa lsa eth).queuedCalls rest lsa := by
        unfold queuedCalls
        rw [first.live, ← List.map_append, ← List.filter_append]
        rfl
      rw [calls]
      exact joined

/-- `flood_lsa_spread`. -/
theorem floodLsaSpread
    (icm : Icm)
    (lsa : LinkStateAdv)
    (zone : ZoneId) :
    Effect icm (icm.floodLsaSpread lsa zone) icm.stored
      (.floodLsaSpread zone lsa ::
        icm.queuedCalls (icm.router.zone zone).backbones lsa) :=
  (log icm _).trans (queueAll lsa _ (icm.log _))

/-- `flood_lsa_forward`. -/
theorem floodLsaForward
    (icm : Icm)
    (lsa : LinkStateAdv)
    (eth : EthId) :
    Effect icm (icm.floodLsaForward lsa eth) icm.stored
      (.floodLsaForward eth lsa ::
        icm.queuedCalls
          ((icm.router.zone (icm.zoneOf eth)).backbones.filter
            fun other => other ≠ eth) lsa) := by
  have filtered := queueAll lsa
    ((icm.router.zone (icm.zoneOf eth)).backbones.filter
      fun other => other ≠ eth) (icm.log (.floodLsaForward eth lsa))
  simp only [List.foldl_filter, decide_eq_true_eq] at filtered
  exact (log icm (.floodLsaForward eth lsa)).trans filtered

/-- Writing one link state into the database of an area. -/
theorem setLsdb
    {db : Lsdb}
    {zone : ZoneId}
    {link : CrLsdbLinkState}
    (icm : Icm)
    (call : Call)
    (found :
      ∀ key,
        db.crLsdbLinkStateFind key =
          if key = link.key then some link
          else (icm.lsdb zone).crLsdbLinkStateFind key) :
    Effect icm ((icm.log call).setLsdb zone db)
      (icm.stored.write zone link) [call] :=
  { (Floods.log icm call).trans (Floods.setLsdb _ zone db) with
    stored := by
      funext query key
      unfold Icm.stored Entries.write Icm.setLsdb
      by_cases same : query = zone
      · subst same
        simp [found]
      · simp [same, Icm.log]
    live := rfl
    trace := rfl }

/-- `cr_lsdb_link_state_add`. -/
theorem crLsdbLinkStateAdd
    {icm after : Icm}
    {zone : ZoneId}
    {link : CrLsdbLinkState}
    (returned : icm.crLsdbLinkStateAdd zone link = .ok after) :
    Effect icm after (icm.stored.write zone link)
      [.sendPacket .addLsa
        (lsdbMsgCreate (icm.getAreaIdByLsdbHandle zone) link)] := by
  unfold Icm.crLsdbLinkStateAdd at returned
  obtain ⟨db, added, rest⟩ := bind_eq_ok.mp returned
  cases rest
  exact setLsdb icm _ (Lsdb.find_of_add added)

/-- `cr_lsdb_link_state_update`. -/
theorem crLsdbLinkStateUpdate
    {icm after : Icm}
    {zone : ZoneId}
    {link : CrLsdbLinkState}
    (returned : icm.crLsdbLinkStateUpdate zone link = .ok after) :
    Effect icm after (icm.stored.write zone link)
      [.sendPacket .updateLsa
        (lsdbMsgCreate (icm.getAreaIdByLsdbHandle zone) link)] := by
  unfold Icm.crLsdbLinkStateUpdate at returned
  obtain ⟨db, updated, rest⟩ := bind_eq_ok.mp returned
  cases rest
  exact setLsdb icm _ (Lsdb.find_of_update updated)

end Effect

/-- Adding an absent key aborts only when it starts at router 0. -/
theorem crLsdbLinkStateAdd_yields
    (icm : Icm)
    (zone : ZoneId)
    (link : CrLsdbLinkState)
    (absent : icm.stored zone link.key = none) :
    Yields
      (fun fault =>
        link.key.rtId = 0 ∧ fault = .assertFailed .lsdbLinkStateAddZero)
      (fun after =>
        Effect icm after (icm.stored.write zone link)
          [.sendPacket .addLsa
            (lsdbMsgCreate (icm.getAreaIdByLsdbHandle zone) link)])
      (icm.crLsdbLinkStateAdd zone link) := by
  cases returned : icm.crLsdbLinkStateAdd zone link with
  | ok after =>
      exact Effect.crLsdbLinkStateAdd returned
  | error fault =>
      by_cases startZero : link.key.rtId = 0
      · unfold crLsdbLinkStateAdd at returned
        rw [Lsdb.add_zero _ startZero] at returned
        cases returned
        exact ⟨startZero, rfl⟩
      · obtain ⟨db, added⟩ := Lsdb.add_returns startZero absent
        unfold crLsdbLinkStateAdd at returned
        rw [added] at returned
        cases returned

/-- Updating a present key does not abort. -/
theorem crLsdbLinkStateUpdate_yields
    {allowed : Fault → Prop}
    {old : CrLsdbLinkState}
    (icm : Icm)
    (zone : ZoneId)
    (link : CrLsdbLinkState)
    (found : icm.stored zone link.key = some old) :
    Yields allowed
      (fun after =>
        Effect icm after (icm.stored.write zone link)
          [.sendPacket .updateLsa
            (lsdbMsgCreate (icm.getAreaIdByLsdbHandle zone) link)])
      (icm.crLsdbLinkStateUpdate zone link) := by
  obtain ⟨db, updated⟩ := Lsdb.update_returns found
  have returned :
      icm.crLsdbLinkStateUpdate zone link = .ok _ :=
    bind_eq_ok.mpr ⟨db, updated, rfl⟩
  rw [returned]
  exact Effect.crLsdbLinkStateUpdate returned

/-! ## The reaction to an advertisement -/

/-- What `accept_lsa_into_lsdb` does with an advertisement. -/
inductive Reaction where
  /-- Nothing. -/
  | drop
  /-- Send the stored entry back to the neighbour. -/
  | reply (link : CrLsdbLinkState)
  /-- Store the advertisement and forward it on the other interfaces. -/
  | store
  deriving Repr, DecidableEq

/-- Whether `check_local_lsdb` takes a key for one of the router's own. -/
def isLocal (icm : Icm) (eth : EthId) (key : LinkStateKey) : Bool :=
  key.rtId = (icm.router.zone (icm.zoneOf eth)).rId

/-- The second reading of the clock in a call of `accept_lsa_into_lsdb`. -/
def nextReading (icm : Icm) : Timeval :=
  icm.clock (icm.readings + 1)

/-- The decision of `accept_lsa_into_lsdb`. -/
def reaction (icm : Icm) (eth : EthId) (lsa : LinkStateAdv) : Reaction :=
  match icm.stored (icm.zoneOf eth) lsa.key with
  | none => if icm.isLocal eth lsa.key then .drop else .store
  | some link =>
      if icm.isLocal eth lsa.key then
        if link.seq = lsa.seq then .drop else .reply link
      else if isOutOfDate icm.nextReading link ∨ link.seq < lsa.seq then
        .store
      else if lsa.seq < link.seq then
        .reply link
      else
        .drop

/-- The entries `accept_lsa_into_lsdb` leaves behind. -/
def acceptedEntries (icm : Icm) (eth : EthId) (lsa : LinkStateAdv) : Entries :=
  match icm.reaction eth lsa with
  | .store => icm.stored.write (icm.zoneOf eth) (lsaToLsdbInfo lsa icm.now)
  | _ => icm.stored

theorem acceptedEntries_of_store
    {icm : Icm}
    {eth : EthId}
    {lsa : LinkStateAdv}
    (stores : icm.reaction eth lsa = .store) :
    icm.acceptedEntries eth lsa =
      icm.stored.write (icm.zoneOf eth) (lsaToLsdbInfo lsa icm.now) := by
  rw [acceptedEntries, stores]

theorem acceptedEntries_of_ne
    {icm : Icm}
    {eth : EthId}
    {lsa : LinkStateAdv}
    (keeps : icm.reaction eth lsa ≠ .store) :
    icm.acceptedEntries eth lsa = icm.stored := by
  unfold acceptedEntries
  split
  · next stores =>
      exact absurd stores keeps
  · rfl

/-- What the database module is told when an advertisement is stored. -/
def storedAction (icm : Icm) (eth : EthId) (lsa : LinkStateAdv) : LsdbAction :=
  if (icm.stored (icm.zoneOf eth) lsa.key).isSome then .updateLsa else .addLsa

/-- The interfaces an advertisement is forwarded on. -/
def forwardEths (icm : Icm) (eth : EthId) : List EthId :=
  (icm.router.zone (icm.zoneOf eth)).backbones.filter fun other => other ≠ eth

/-- The calls `accept_lsa_into_lsdb` makes. -/
def acceptedCalls (icm : Icm) (eth : EthId) (lsa : LinkStateAdv) : List Call :=
  match icm.reaction eth lsa with
  | .drop => []
  | .reply link => icm.queuedCalls [eth] (lsdbToLsaInfo link)
  | .store =>
      .sendPacket (icm.storedAction eth lsa)
          (lsdbMsgCreate (icm.getAreaIdByLsdbHandle (icm.zoneOf eth))
            (lsaToLsdbInfo lsa icm.now)) ::
        .floodLsaForward eth lsa ::
        icm.queuedCalls (icm.forwardEths eth) lsa

/-- Comparing an entry with an advertisement of its key. -/
theorem linkStateCompare_eq
    {first second : CrLsdbLinkState}
    (sameKey : first.key = second.key) :
    linkStateCompare first second = .ok (compare first.seq second.seq) := by
  simp [linkStateCompare, assertAt, sameKey, bind, Except.bind, pure,
    Except.pure]

/-- `check_local_lsdb`, by what is stored. -/
theorem checkLocalLsdb_eq
    (icm : Icm)
    (eth : EthId)
    (state : CrLsdbLinkState) :
    icm.checkLocalLsdb eth state =
      if icm.isLocal eth state.key then
        match icm.stored (icm.zoneOf eth) state.key with
        | none => .ok (true, icm)
        | some link =>
            if link.seq = state.seq then
              .ok (true, icm)
            else
              .ok (true, icm.floodAddFloodLsa (lsdbToLsaInfo link) eth)
      else
        .ok (false, icm) := by
  unfold checkLocalLsdb isLocal
  by_cases own : state.key.rtId = (icm.router.zone (icm.zoneOf eth)).rId
  · rw [if_neg (not_not.mpr own), if_pos (by simpa using own)]
    change (match icm.stored (icm.zoneOf eth) state.key with
      | none => _
      | some localState => _) = _
    cases found : icm.stored (icm.zoneOf eth) state.key with
    | none =>
        rfl
    | some link =>
        dsimp only
        rw [linkStateCompare_eq (Lsdb.key_of_find found)]
        by_cases same : link.seq = state.seq
        · simp [same, bind, Except.bind, pure, Except.pure]
        · have different : compare link.seq state.seq ≠ .eq :=
            fun equal => same (Std.compare_eq_iff_eq.mp equal)
          simp [same, different, bind, Except.bind, pure, Except.pure]
  · rw [if_pos own, if_neg (by simpa using own)]

/-- Storing an advertisement and forwarding it. -/
theorem Effect.storeAndForward
    {start called updated : Icm}
    {eth : EthId}
    {lsa : LinkStateAdv}
    {link : CrLsdbLinkState}
    {earlier stores : List Call}
    (before : Effect start called start.stored earlier)
    (written :
      Effect called updated (called.stored.write (called.zoneOf eth) link)
        stores) :
    Effect start (updated.floodLsaForward lsa eth)
      (start.stored.write (start.zoneOf eth) link)
      (earlier ++ (stores ++
        (.floodLsaForward eth lsa ::
          start.queuedCalls (start.forwardEths eth) lsa))) := by
  have forwarded := written.trans (Effect.floodLsaForward updated lsa eth)
  rw [written.stored, before.stored] at forwarded
  have whole := before.trans forwarded
  have sameRouter := written.router.trans before.router
  have sameLive := written.live.trans before.live
  unfold forwardEths queuedCalls zoneOf at *
  rw [before.router] at whole
  rw [sameLive, sameRouter] at whole
  exact whole

/-- The state in which `accept_lsa_into_lsdb` looks at its database. -/
def accepting (icm : Icm) (eth : EthId) (lsa : LinkStateAdv) : Icm :=
  (icm.log (.acceptLsaIntoLsdb eth lsa)).readClock

/-- Nothing happened yet when `accept_lsa_into_lsdb` looks at its database. -/
theorem accepting_effect
    (icm : Icm)
    (eth : EthId)
    (lsa : LinkStateAdv) :
    Effect icm (icm.accepting eth lsa) icm.stored
      [.acceptLsaIntoLsdb eth lsa] :=
  (Effect.log icm _).trans (Effect.readClock _)

/-- The part of `accept_lsa_into_lsdb` behind the check, by what is stored. -/
theorem acceptForeign_eq
    (icm : Icm)
    (eth : EthId)
    (icLsa : LinkStateAdv)
    (lsa : CrLsdbLinkState) :
    icm.acceptForeign eth icLsa lsa =
      match icm.stored (icm.zoneOf eth) lsa.key with
      | none => do
          let added ← icm.crLsdbLinkStateAdd (icm.zoneOf eth) lsa
          return added.floodLsaForward icLsa eth
      | some link =>
          if isOutOfDate icm.now link ∨ link.seq < lsa.seq then do
            let updated ←
              icm.readClock.crLsdbLinkStateUpdate (icm.zoneOf eth) lsa
            return updated.floodLsaForward icLsa eth
          else if lsa.seq < link.seq then
            .ok (icm.readClock.floodAddFloodLsa (lsdbToLsaInfo link) eth)
          else
            .ok icm.readClock := by
  unfold acceptForeign
  change (match icm.stored (icm.zoneOf eth) lsa.key with
    | none => _
    | some link => _) = _
  cases found : icm.stored (icm.zoneOf eth) lsa.key with
  | none =>
      rfl
  | some link =>
      dsimp only
      rw [linkStateCompare_eq (Lsdb.key_of_find found)]
      by_cases old : isOutOfDate icm.now link = true
      · rw [if_pos old, if_pos (.inl old)]
      · rw [if_neg old]
        dsimp only [bind, Except.bind]
        cases order : compare link.seq lsa.seq with
        | lt =>
            rw [if_pos (.inr (Std.compare_eq_lt.mp order))]
        | gt =>
            have less := Std.compare_eq_gt.mp order
            have notGreater : ¬ link.seq < lsa.seq := UInt32.lt_asymm less
            rw [if_neg (by simp [old, notGreater]), if_pos less]
            rfl
        | eq =>
            have same := Std.compare_eq_iff_eq.mp order
            rw [if_neg (by simp [old, same]), if_neg (by simp [same])]
            rfl

/-- A key taken for a local one is answered or dropped. -/
theorem acceptLsaIntoLsdb_local
    {icm : Icm}
    {eth : EthId}
    {lsa : LinkStateAdv}
    (own : icm.isLocal eth lsa.key = true) :
    ∃ after,
      icm.acceptLsaIntoLsdb eth lsa = .ok after ∧
        Effect icm after (icm.acceptedEntries eth lsa)
          (.acceptLsaIntoLsdb eth lsa :: icm.acceptedCalls eth lsa) := by
  have start := accepting_effect icm eth lsa
  have checked :
      (icm.accepting eth lsa).checkLocalLsdb eth (lsaToLsdbInfo lsa icm.now) =
        match icm.stored (icm.zoneOf eth) lsa.key with
        | none => .ok (true, icm.accepting eth lsa)
        | some link =>
            if link.seq = lsa.seq then
              .ok (true, icm.accepting eth lsa)
            else
              .ok (true, (icm.accepting eth lsa).floodAddFloodLsa
                (lsdbToLsaInfo link) eth) :=
    (checkLocalLsdb_eq _ _ _).trans (if_pos own)
  unfold acceptLsaIntoLsdb acceptedEntries acceptedCalls reaction
  cases found : icm.stored (icm.zoneOf eth) lsa.key with
  | none =>
      rw [found] at checked
      simp only [own, if_true]
      exact ⟨_, bind_eq_ok.mpr ⟨_, checked, rfl⟩, start⟩
  | some link =>
      rw [found] at checked
      by_cases same : link.seq = lsa.seq
      · simp only [same, if_true] at checked
        simp only [own, same, if_true]
        exact ⟨_, bind_eq_ok.mpr ⟨_, checked, rfl⟩, start⟩
      · simp only [same, if_false] at checked
        simp only [own, same, if_true, if_false]
        exact ⟨_, bind_eq_ok.mpr ⟨_, checked, rfl⟩,
          start.trans (Effect.floodAddFloodLsa _ _ eth)⟩

/-- Any other key goes on to the part behind the check. -/
theorem acceptLsaIntoLsdb_foreign
    {icm : Icm}
    {eth : EthId}
    {lsa : LinkStateAdv}
    (foreign : icm.isLocal eth lsa.key = false) :
    icm.acceptLsaIntoLsdb eth lsa =
      (icm.accepting eth lsa).acceptForeign eth lsa
        (lsaToLsdbInfo lsa icm.now) := by
  have checked :
      (icm.accepting eth lsa).checkLocalLsdb eth (lsaToLsdbInfo lsa icm.now) =
        .ok (false, icm.accepting eth lsa) := by
    refine (checkLocalLsdb_eq _ _ _).trans (if_neg ?_)
    exact Bool.not_eq_true _ ▸ foreign
  unfold acceptLsaIntoLsdb
  change (icm.accepting eth lsa).checkLocalLsdb eth
    (lsaToLsdbInfo lsa icm.now) >>= _ = _
  rw [checked]
  rfl

/--
`accept_lsa_into_lsdb` follows the reaction.  It aborts only on an advertisement
that starts at router 0.
-/
theorem acceptLsaIntoLsdb_yields
    (icm : Icm)
    (eth : EthId)
    (lsa : LinkStateAdv) :
    Yields
      (fun fault =>
        lsa.key.rtId = 0 ∧ fault = .assertFailed .lsdbLinkStateAddZero)
      (fun after =>
        Effect icm after (icm.acceptedEntries eth lsa)
          (.acceptLsaIntoLsdb eth lsa :: icm.acceptedCalls eth lsa))
      (icm.acceptLsaIntoLsdb eth lsa) := by
  have start := accepting_effect icm eth lsa
  cases own : icm.isLocal eth lsa.key with
  | true =>
      obtain ⟨after, returned, effect⟩ := acceptLsaIntoLsdb_local own
      rw [returned]
      exact effect
  | false =>
      have read :
          Effect icm (icm.accepting eth lsa).readClock icm.stored
            [.acceptLsaIntoLsdb eth lsa] :=
        start.trans (Effect.readClock _)
      rw [acceptLsaIntoLsdb_foreign own, acceptForeign_eq]
      change Yields _ _ (match icm.stored (icm.zoneOf eth) lsa.key with
        | none => _
        | some link => _)
      unfold acceptedEntries acceptedCalls reaction storedAction
      simp only [own, Bool.false_eq_true, if_false]
      cases found : icm.stored (icm.zoneOf eth) lsa.key with
      | none =>
          exact Yields.bind (crLsdbLinkStateAdd_yields (icm.accepting eth lsa)
            (icm.zoneOf eth) (lsaToLsdbInfo lsa icm.now) found)
            fun added effect => start.storeAndForward effect
      | some link =>
          change Yields _ _
            (if isOutOfDate icm.nextReading link = true ∨ link.seq < lsa.seq
              then _
              else if lsa.seq < link.seq then _ else _)
          by_cases replaced :
              isOutOfDate icm.nextReading link = true ∨ link.seq < lsa.seq
          · simp only [if_pos replaced]
            exact Yields.bind
              (crLsdbLinkStateUpdate_yields (icm.accepting eth lsa).readClock
                (icm.zoneOf eth) (lsaToLsdbInfo lsa icm.now) found)
              fun updated effect => read.storeAndForward effect
          · by_cases older : lsa.seq < link.seq
            · simp only [if_neg replaced, if_pos older]
              exact read.trans (Effect.floodAddFloodLsa _ _ eth)
            · simp only [if_neg replaced, if_neg older]
              exact read

/-- What a returned `accept_lsa_into_lsdb` did. -/
theorem acceptLsaIntoLsdb_effect
    {icm after : Icm}
    {eth : EthId}
    {lsa : LinkStateAdv}
    (returned : icm.acceptLsaIntoLsdb eth lsa = .ok after) :
    Effect icm after (icm.acceptedEntries eth lsa)
      (.acceptLsaIntoLsdb eth lsa :: icm.acceptedCalls eth lsa) :=
  (acceptLsaIntoLsdb_yields icm eth lsa).of_ok returned

/-- `accept_lsa_into_lsdb` returns for every key that starts at a router. -/
theorem acceptLsaIntoLsdb_returns
    {lsa : LinkStateAdv}
    (startNonzero : lsa.key.rtId ≠ 0)
    (icm : Icm)
    (eth : EthId) :
    ∃ after, icm.acceptLsaIntoLsdb eth lsa = .ok after := by
  cases returned : icm.acceptLsaIntoLsdb eth lsa with
  | ok after =>
      exact ⟨after, rfl⟩
  | error fault =>
      exact absurd
        ((acceptLsaIntoLsdb_yields icm eth lsa).of_error returned).1
        startNonzero

/-- When an advertisement replaces what is stored. -/
theorem reaction_eq_store
    {icm : Icm}
    {eth : EthId}
    {lsa : LinkStateAdv} :
    icm.reaction eth lsa = .store ↔
      icm.isLocal eth lsa.key = false ∧
        ∀ link, icm.stored (icm.zoneOf eth) lsa.key = some link →
          isOutOfDate icm.nextReading link = true ∨ link.seq < lsa.seq := by
  unfold reaction
  cases found : icm.stored (icm.zoneOf eth) lsa.key with
  | none =>
      cases icm.isLocal eth lsa.key <;> simp
  | some link =>
      cases icm.isLocal eth lsa.key with
      | true =>
          by_cases same : link.seq = lsa.seq <;> simp [same]
      | false =>
          by_cases replaced :
              isOutOfDate icm.nextReading link = true ∨ link.seq < lsa.seq
          · simp [replaced]
          · by_cases older : lsa.seq < link.seq <;>
              simp [replaced, older]

/-- When an advertisement is answered. -/
theorem reaction_eq_reply
    {icm : Icm}
    {eth : EthId}
    {lsa : LinkStateAdv}
    {answer : CrLsdbLinkState} :
    icm.reaction eth lsa = .reply answer ↔
      icm.stored (icm.zoneOf eth) lsa.key = some answer ∧
        if icm.isLocal eth lsa.key then
          answer.seq ≠ lsa.seq
        else
          isOutOfDate icm.nextReading answer = false ∧
            lsa.seq < answer.seq := by
  unfold reaction
  cases found : icm.stored (icm.zoneOf eth) lsa.key with
  | none =>
      cases icm.isLocal eth lsa.key <;> simp
  | some link =>
      cases icm.isLocal eth lsa.key with
      | true =>
          by_cases same : link.seq = lsa.seq
          · simp only [same, if_true]
            constructor
            · intro isReply
              cases isReply
            · rintro ⟨isLink, different⟩
              cases isLink
              exact absurd same different
          · simp only [same, if_true, if_false, Reaction.reply.injEq,
              Option.some.injEq]
            constructor
            · rintro rfl
              exact ⟨rfl, same⟩
            · exact fun held => held.1
      | false =>
          by_cases replaced :
              isOutOfDate icm.nextReading link = true ∨ link.seq < lsa.seq
          · simp only [replaced, if_true, Bool.false_eq_true, if_false]
            constructor
            · intro isReply
              cases isReply
            · rintro ⟨isLink, fresh, older⟩
              cases isLink
              rcases replaced with old | newer
              · simp [old] at fresh
              · exact absurd newer (UInt32.lt_asymm older)
          · by_cases older : lsa.seq < link.seq
            · simp only [replaced, older, if_true, if_false,
                Bool.false_eq_true, Reaction.reply.injEq, Option.some.injEq]
              constructor
              · rintro rfl
                exact ⟨rfl, by simpa using (not_or.mp replaced).1, older⟩
              · exact fun held => held.1
            · simp only [replaced, older, if_false, Bool.false_eq_true]
              constructor
              · intro isReply
                cases isReply
              · rintro ⟨isLink, -, less⟩
                cases isLink
                exact absurd less older

/-! ## The queues -/

/-- The advertisement a recorded call put on the queue of an interface. -/
def queuedBy (eth : EthId) : Call → Option LinkStateAdv
  | .floodQueued other lsa => if other = eth then some lsa else none
  | _ => none

/-- Everything that was ever put on the queue of an interface. -/
def queuedOn (icm : Icm) (eth : EthId) : List LinkStateAdv :=
  icm.trace.filterMap (queuedBy eth)

/-- Queueing on a list of interfaces, seen from one of them. -/
theorem queuedBy_queuedCalls
    (icm : Icm)
    (eths : List EthId)
    (lsa : LinkStateAdv)
    (eth : EthId) :
    (icm.queuedCalls eths lsa).filterMap (queuedBy eth) =
      List.replicate (if icm.live eth then eths.count eth else 0) lsa := by
  unfold queuedCalls
  induction eths with
  | nil =>
      simp
  | cons other rest inductionHypothesis =>
      by_cases same : other = eth
      · subst same
        cases isLive : icm.live other with
        | true =>
            rw [isLive] at inductionHypothesis
            simp only [if_true] at inductionHypothesis
            simp [isLive, queuedBy, List.replicate_succ,
              inductionHypothesis]
        | false =>
            rw [isLive] at inductionHypothesis
            simpa [List.filter_cons, isLive] using inductionHypothesis
      · rw [List.count_cons_of_ne same]
        cases isLive : icm.live other with
        | true =>
            simpa [List.filter_cons, isLive, queuedBy, same] using
              inductionHypothesis
        | false =>
            simpa [List.filter_cons, isLive] using inductionHypothesis

/-- What `accept_lsa_into_lsdb` puts on the queue of an interface. -/
def acceptedOn (icm : Icm) (eth : EthId) (lsa : LinkStateAdv) (other : EthId) :
    List LinkStateAdv :=
  match icm.reaction eth lsa with
  | .drop => []
  | .reply link =>
      if other = eth ∧ icm.live eth then [lsdbToLsaInfo link] else []
  | .store =>
      List.replicate
        (if icm.live other then (icm.forwardEths eth).count other else 0) lsa

/-- `accept_lsa_into_lsdb` lengthens the queues by what it answers or forwards. -/
theorem acceptLsaIntoLsdb_queuedOn
    {icm after : Icm}
    {eth : EthId}
    {lsa : LinkStateAdv}
    (returned : icm.acceptLsaIntoLsdb eth lsa = .ok after)
    (other : EthId) :
    after.queuedOn other = icm.queuedOn other ++ icm.acceptedOn eth lsa other := by
  unfold queuedOn
  rw [(acceptLsaIntoLsdb_effect returned).trace, List.filterMap_append]
  congr 1
  unfold acceptedCalls acceptedOn
  cases icm.reaction eth lsa with
  | drop =>
      rfl
  | reply link =>
      simp only [List.filterMap_cons, queuedBy]
      rw [queuedBy_queuedCalls]
      by_cases same : other = eth
      · subst same
        cases icm.live other <;> simp
      · simp [same, Ne.symm same]
  | store =>
      simp only [List.filterMap_cons, queuedBy]
      exact queuedBy_queuedCalls icm _ lsa other

/-- Nothing is forwarded on the interface an advertisement arrived on. -/
theorem forwardEths_self
    (icm : Icm)
    (eth : EthId) :
    (icm.forwardEths eth).count eth = 0 := by
  apply List.count_eq_zero_of_not_mem
  simp [forwardEths]

end Icm

end Pma
