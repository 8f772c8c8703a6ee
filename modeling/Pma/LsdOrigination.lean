import Pma.LsdAdjacency
import Pma.LsdEffect

namespace Pma

open Transition

/-!
# Sequence numbers of originated link states

A router raises the sequence number of a key whenever it spreads the key again.
`Icm.Ledger` is the discipline its neighbours rely on: what is stored is at
least as new as everything that was spread, and a number stands for one state.
Six code paths originate keys.  The low priority branch of
`hello_changed_handler` writes the number it read before the spread back, and
`ace_up_handler` starts again from 0, so the discipline holds for the runs in
which neither meets an entry it would take back, and no number wraps around.
-/

namespace Icm

/-- The advertisement a recorded call spread in an area. -/
def spreadBy (zone : ZoneId) : Call → Option LinkStateAdv
  | .floodLsaSpread other lsa => if other = zone then some lsa else none
  | _ => none

/-- Everything that was handed to `flood_lsa_spread` for an area. -/
def spreads (icm : Icm) (zone : ZoneId) : List LinkStateAdv :=
  icm.trace.filterMap (spreadBy zone)

/--
The discipline of one key of one area: the stored number is at least every
number that was spread, and two advertisements with one number have one state.
-/
structure Ledger (icm : Icm) (zone : ZoneId) (key : LinkStateKey) : Prop where
  covered :
    ∀ lsa ∈ icm.spreads zone, lsa.key = key →
      ∃ link, icm.stored zone key = some link ∧ lsa.seq ≤ link.seq
  unique :
    ∀ first ∈ icm.spreads zone, ∀ second ∈ icm.spreads zone,
      first.key = key →
      second.key = key →
      first.seq = second.seq →
      first.state = second.state

/-- Whether a key of an area is one the router originates. -/
def Own (icm : Icm) (zone : ZoneId) (key : LinkStateKey) : Prop :=
  key.rtId = (icm.router.zone zone).deviceId

/-- The discipline of every key the router originates. -/
def Ledgers (icm : Icm) : Prop :=
  ∀ zone key, icm.Own zone key → icm.Ledger zone key

/--
`after` was reached without touching the interfaces and the neighbours, with
`entries` stored and `spread` handed to `flood_lsa_spread`.
-/
structure Originates
    (before after : Icm)
    (entries : Entries)
    (spread : ZoneId → List LinkStateAdv) : Prop where
  router : after.router = before.router
  hello : after.helloMaster = before.helloMaster
  stored : after.stored = entries
  spreads : ∀ zone, after.spreads zone = before.spreads zone ++ spread zone

/-- Nothing is spread. -/
def noSpread : ZoneId → List LinkStateAdv :=
  fun _ => []

/-- One advertisement is spread in one area. -/
def oneSpread (zone : ZoneId) (lsa : LinkStateAdv) :
    ZoneId → List LinkStateAdv :=
  fun query => if zone = query then [lsa] else []

/-- The effect of a call, seen by the originator. -/
theorem Effect.originates
    {before after : Icm}
    {entries : Entries}
    {calls : List Call}
    (effect : Effect before after entries calls) :
    Originates before after entries
      (fun zone => calls.filterMap (spreadBy zone)) where
  router := effect.router
  hello := effect.hello
  stored := effect.stored
  spreads := by
    intro zone
    unfold Icm.spreads
    rw [effect.trace, List.filterMap_append]

/-- Queueing is not spreading. -/
theorem spreadBy_queuedCalls
    (icm : Icm)
    (eths : List EthId)
    (lsa : LinkStateAdv)
    (zone : ZoneId) :
    (icm.queuedCalls eths lsa).filterMap (spreadBy zone) = [] :=
  filterMap_queuedCalls (spreadBy zone) (fun _ _ => rfl) icm eths lsa

/-- Spreading one advertisement, seen in an area. -/
theorem spreadBy_spread
    (icm : Icm)
    (eths : List EthId)
    (zone : ZoneId)
    (lsa : LinkStateAdv)
    (query : ZoneId) :
    (Call.floodLsaSpread zone lsa :: icm.queuedCalls eths lsa).filterMap
        (spreadBy query) =
      oneSpread zone lsa query := by
  unfold oneSpread
  by_cases same : zone = query
  · simp [spreadBy, same, spreadBy_queuedCalls]
  · simp [spreadBy, same, spreadBy_queuedCalls]

/-- Writing a number that is no smaller keeps every ledger. -/
theorem Ledgers.write
    {before after : Icm}
    {zone : ZoneId}
    {link : CrLsdbLinkState}
    (ledgers : before.Ledgers)
    (originates :
      Originates before after (before.stored.write zone link) noSpread)
    (kept :
      ∀ old, before.stored zone link.key = some old → old.seq ≤ link.seq) :
    after.Ledgers := by
  intro query key own
  have same : after.spreads query = before.spreads query := by
    simpa [noSpread] using originates.spreads query
  unfold Own at own
  rw [originates.router] at own
  have ledger := ledgers query key own
  refine
    { covered := ?_
      unique := ?_ }
  · intro lsa member sameKey
    rw [same] at member
    obtain ⟨old, found, atMost⟩ := ledger.covered lsa member sameKey
    rw [originates.stored]
    by_cases written : query = zone ∧ key = link.key
    · obtain ⟨rfl, rfl⟩ := written
      exact ⟨link, Entries.write_self _ _ _,
        UInt32.le_trans atMost (kept old found)⟩
    · exact ⟨old, (Entries.write_of_ne _ written).trans found, atMost⟩
  · rw [same]
    exact ledger.unique

/-- The ledger of a key after a greater number was stored and spread. -/
theorem Ledger.raise
    {before after : Icm}
    {zone : ZoneId}
    {link : CrLsdbLinkState}
    (ledger : before.Ledger zone link.key)
    (stored : after.stored zone link.key = some link)
    (spread :
      after.spreads zone = before.spreads zone ++ [lsdbToLsaInfo link])
    (raised :
      ∀ old, before.stored zone link.key = some old → old.seq < link.seq) :
    after.Ledger zone link.key := by
  have older :
      ∀ lsa ∈ before.spreads zone, lsa.key = link.key →
        lsa.seq < link.seq := by
    intro lsa member sameKey
    obtain ⟨old, found, atMost⟩ := ledger.covered lsa member sameKey
    exact UInt32.lt_of_le_of_lt atMost (raised old found)
  refine
    { covered := ?_
      unique := ?_ }
  · intro lsa member sameKey
    refine ⟨link, stored, ?_⟩
    rw [spread] at member
    rcases List.mem_append.mp member with isOld | isNew
    · exact UInt32.le_of_lt (older lsa isOld sameKey)
    · rw [List.mem_singleton.mp isNew]
      exact UInt32.le_refl _
  · intro first firstMember second secondMember firstKey secondKey sameSeq
    rw [spread] at firstMember secondMember
    rcases List.mem_append.mp firstMember with firstOld | firstNew
    · rcases List.mem_append.mp secondMember with secondOld | secondNew
      · exact ledger.unique first firstOld second secondOld
          firstKey secondKey sameSeq
      · have less := older first firstOld firstKey
        rw [List.mem_singleton.mp secondNew] at sameSeq
        exact absurd sameSeq (UInt32.ne_of_lt less)
    · rcases List.mem_append.mp secondMember with secondOld | secondNew
      · have less := older second secondOld secondKey
        rw [List.mem_singleton.mp firstNew] at sameSeq
        exact absurd sameSeq.symm (UInt32.ne_of_lt less)
      · rw [List.mem_singleton.mp firstNew, List.mem_singleton.mp secondNew]

/-- The ledger of a key whose entry and spread numbers stay what they were. -/
theorem Ledger.keep
    {before after : Icm}
    {zone : ZoneId}
    {key : LinkStateKey}
    (ledger : before.Ledger zone key)
    (stored : after.stored zone key = before.stored zone key)
    (spread :
      ∀ lsa ∈ after.spreads zone, lsa.key = key →
        lsa ∈ before.spreads zone) :
    after.Ledger zone key := by
  refine
    { covered := ?_
      unique := ?_ }
  · intro lsa listed sameKey
    rw [stored]
    exact ledger.covered lsa (spread lsa listed sameKey) sameKey
  · intro first firstListed second secondListed firstKey secondKey
    exact ledger.unique first (spread first firstListed firstKey)
      second (spread second secondListed secondKey) firstKey secondKey

/-- Spreading a greater number and storing it keeps every ledger. -/
theorem Ledgers.spread
    {before after : Icm}
    {zone : ZoneId}
    {link : CrLsdbLinkState}
    (ledgers : before.Ledgers)
    (originates :
      Originates before after (before.stored.write zone link)
        (oneSpread zone (lsdbToLsaInfo link)))
    (raised :
      ∀ old, before.stored zone link.key = some old → old.seq < link.seq) :
    after.Ledgers := by
  intro query key own
  unfold Own at own
  rw [originates.router] at own
  have ledger := ledgers query key own
  by_cases written : query = zone ∧ key = link.key
  · obtain ⟨rfl, rfl⟩ := written
    refine ledger.raise ?_ ?_ raised
    · rw [originates.stored]
      exact Entries.write_self _ _ _
    · simpa [oneSpread] using originates.spreads query
  · refine ledger.keep ?_ ?_
    · rw [originates.stored]
      exact Entries.write_of_ne _ written
    · intro lsa listed sameKey
      rw [originates.spreads query] at listed
      rcases List.mem_append.mp listed with isOld | isNew
      · exact isOld
      · unfold oneSpread at isNew
        split at isNew
        · next sameZone =>
            rw [List.mem_singleton.mp isNew] at sameKey
            exact absurd ⟨sameZone.symm, sameKey.symm⟩ written
        · cases isNew

/-! ## Budgets -/

/-- One origination of a key in an area. -/
abbrev Visit := ZoneId × LinkStateKey

/-- The stored sequence number of a key, 0 when nothing is stored. -/
def seqOf (icm : Icm) (zone : ZoneId) (key : LinkStateKey) : Nat :=
  match icm.stored zone key with
  | some link => link.seq.toNat
  | none => 0

theorem seqOf_of_some
    {icm : Icm}
    {zone : ZoneId}
    {key : LinkStateKey}
    {link : CrLsdbLinkState}
    (found : icm.stored zone key = some link) :
    icm.seqOf zone key = link.seq.toNat := by
  simp [seqOf, found]

/-- No sequence number wraps around when the visits are made. -/
def Budget (icm : Icm) (visits : List Visit) : Prop :=
  ∀ zone key, icm.seqOf zone key + visits.count (zone, key) < 2 ^ 32

/--
A state on the way through an operation that started at `start`, with some
visits still to make.
-/
structure Paid (start : Icm) (visits : List Visit) (icm : Icm) : Prop where
  router : icm.router = start.router
  hello : icm.helloMaster = start.helloMaster
  ledgers : icm.Ledgers
  budget : icm.Budget visits

/-- Sequence numbers after one entry was written. -/
theorem seqOf_write
    {before after : Icm}
    {zone : ZoneId}
    {link : CrLsdbLinkState}
    (stored : after.stored = before.stored.write zone link)
    (query : ZoneId)
    (key : LinkStateKey) :
    after.seqOf query key =
      if query = zone ∧ key = link.key then link.seq.toNat
      else before.seqOf query key := by
  unfold seqOf
  rw [stored]
  unfold Entries.write
  split_ifs <;> rfl

namespace Paid

variable {start before after : Icm} {visits : List Visit}

/-- A call that stores and spreads nothing. -/
theorem quiet
    (paid : Paid start visits before)
    (originates : Originates before after before.stored noSpread) :
    Paid start visits after where
  router := originates.router.trans paid.router
  hello := originates.hello.trans paid.hello
  ledgers := by
    intro zone key own
    have same : after.spreads zone = before.spreads zone := by
      simpa [noSpread] using originates.spreads zone
    unfold Own at own
    rw [originates.router] at own
    have ledger := paid.ledgers zone key own
    refine
      { covered := ?_
        unique := ?_ }
    · rw [same, originates.stored]
      exact ledger.covered
    · rw [same]
      exact ledger.unique
  budget := by
    intro zone key
    unfold seqOf
    rw [originates.stored]
    exact paid.budget zone key

/-- A call that stores a key under the number it has. -/
theorem write
    {zone : ZoneId}
    {link : CrLsdbLinkState}
    (paid : Paid start visits before)
    (originates :
      Originates before after (before.stored.write zone link) noSpread)
    (kept : link.seq.toNat = before.seqOf zone link.key) :
    Paid start visits after where
  router := originates.router.trans paid.router
  hello := originates.hello.trans paid.hello
  ledgers := by
    refine paid.ledgers.write originates ?_
    intro old found
    rw [seqOf_of_some found] at kept
    exact UInt32.le_iff_toNat_le.mpr kept.ge
  budget := by
    intro query key
    rw [seqOf_write originates.stored]
    split
    · next same =>
        rw [same.1, same.2, kept]
        exact paid.budget zone link.key
    · exact paid.budget query key

/-- The number after a visit does not wrap around. -/
theorem raised_toNat
    {zone : ZoneId}
    {link : CrLsdbLinkState}
    (paid : Paid start ((zone, link.key) :: visits) before)
    (raised : link.seq = UInt32.ofNat (before.seqOf zone link.key + 1)) :
    link.seq.toNat = before.seqOf zone link.key + 1 := by
  have budget := paid.budget zone link.key
  rw [List.count_cons_self] at budget
  rw [raised, UInt32.toNat_ofNat']
  exact Nat.mod_eq_of_lt (by omega)

/-- A visit: the next number is spread and stored. -/
theorem spread
    {zone : ZoneId}
    {link : CrLsdbLinkState}
    {key : LinkStateKey}
    (paid : Paid start ((zone, key) :: visits) before)
    (originates :
      Originates before after (before.stored.write zone link)
        (oneSpread zone (lsdbToLsaInfo link)))
    (sameKey : link.key = key)
    (raised : link.seq = UInt32.ofNat (before.seqOf zone key + 1)) :
    Paid start visits after := by
  subst sameKey
  have next := paid.raised_toNat raised
  refine
    { router := originates.router.trans paid.router
      hello := originates.hello.trans paid.hello
      ledgers := paid.ledgers.spread originates ?_
      budget := ?_ }
  · intro old found
    rw [seqOf_of_some found] at next
    exact UInt32.lt_iff_toNat_lt.mpr (by omega)
  · intro query other
    have budget := paid.budget query other
    rw [seqOf_write originates.stored]
    split
    · next same =>
        obtain ⟨rfl, rfl⟩ := same
        rw [List.count_cons_self] at budget
        omega
    · next different =>
        have isOther : (zone, link.key) ≠ (query, other) := by
          rintro ⟨⟩
          exact different ⟨rfl, rfl⟩
        rwa [List.count_cons_of_ne isOther] at budget

/-- A visit to a key that is not stored may be skipped. -/
theorem skip
    {visit : Visit}
    (paid : Paid start (visit :: visits) before) :
    Paid start visits before :=
  { paid with
    budget := by
      intro zone key
      have budget := paid.budget zone key
      have fewer : visits.count (zone, key) ≤ (visit :: visits).count (zone, key) :=
        List.Sublist.count_le _ (List.sublist_cons_self visit visits)
      omega }

/-- A loop that makes the visits of its items one after another. -/
theorem foldlM
    {Item : Type}
    {body : Icm → Item → Except Fault Icm}
    {visitsOf : Item → List Visit}
    (each :
      ∀ {before after : Icm} {item : Item} {rest : List Visit},
        Paid start (visitsOf item ++ rest) before →
        body before item = .ok after →
        Paid start rest after)
    {items : List Item}
    {rest : List Visit}
    (paid : Paid start (items.flatMap visitsOf ++ rest) before)
    (returned : items.foldlM body before = .ok after) :
    Paid start rest after := by
  induction items generalizing before with
  | nil =>
      cases returned
      exact paid
  | cons item others inductionHypothesis =>
      rw [List.foldlM_cons] at returned
      obtain ⟨middle, first, remaining⟩ := bind_eq_ok.mp returned
      rw [List.flatMap_cons, List.append_assoc] at paid
      exact inductionHypothesis (each paid first) remaining

end Paid

/-! ## The originating functions -/

/-- The next number of a stored key. -/
theorem next_of_some
    {icm : Icm}
    {zone : ZoneId}
    {key : LinkStateKey}
    {found : CrLsdbLinkState}
    (stored : icm.stored zone key = some found) :
    found.seq + 1 = UInt32.ofNat (icm.seqOf zone key + 1) := by
  rw [seqOf_of_some stored, UInt32.ofNat_add, UInt32.ofNat_toNat]
  rfl

/-- The first number of a key that is not stored. -/
theorem next_of_none
    {icm : Icm}
    {zone : ZoneId}
    {key : LinkStateKey}
    (absent : icm.stored zone key = none) :
    (1 : UInt32) = UInt32.ofNat (icm.seqOf zone key + 1) := by
  simp [seqOf, absent]

/-- Storing and spreading one link state, in either order, with its report. -/
theorem Effect.spreadOnce
    {icm after : Icm}
    {zone : ZoneId}
    {link : CrLsdbLinkState}
    {calls : List Call}
    (effect : Effect icm after (icm.stored.write zone link) calls)
    (once :
      ∀ query,
        calls.filterMap (spreadBy query) =
          oneSpread zone (lsdbToLsaInfo link) query) :
    Originates icm after (icm.stored.write zone link)
      (oneSpread zone (lsdbToLsaInfo link)) := by
  have originates := effect.originates
  simpa only [once] using originates

/-- The common body of the two `flood_spread_*` functions: the next number is stored and spread. -/
theorem Originates.floodSpreadLinkState
    {before after : Icm}
    {zone : ZoneId}
    {key : LinkStateKey}
    {addr metric : UInt32}
    {state : UInt8}
    (returned :
      before.floodSpreadLinkState zone key addr metric state = .ok after) :
    ∃ link : CrLsdbLinkState,
      Originates before after (before.stored.write zone link)
          (oneSpread zone (lsdbToLsaInfo link)) ∧
        link.key = key ∧
        link.state = state ∧
        link.seq = UInt32.ofNat (before.seqOf zone key + 1) := by
  unfold Icm.floodSpreadLinkState at returned
  split at returned
  · next found stored =>
      obtain ⟨updated, written, rest⟩ := bind_eq_ok.mp returned
      cases rest
      have sameKey : found.key = key := Lsdb.key_of_find stored
      have store := Effect.crLsdbLinkStateUpdate written
      have effect := store.trans
        (Effect.floodLsaSpread updated
          (lsdbToLsaInfo { found with state := state, seq := found.seq + 1 })
          zone)
      rw [store.stored] at effect
      refine ⟨_, effect.spreadOnce ?_, sameKey, rfl, next_of_some stored⟩
      intro query
      exact spreadBy_spread _ _ zone _ query
  · next absent =>
      obtain ⟨added, written, rest⟩ := bind_eq_ok.mp returned
      cases rest
      have store := Effect.crLsdbLinkStateAdd written
      have effect := store.trans
        (Effect.floodLsaSpread added
          (lsdbToLsaInfo
            { key := key
              addr := addr
              metric := metric
              state := state
              seq := 1
              age := before.stack.age })
          zone)
      rw [store.stored] at effect
      refine ⟨_, effect.spreadOnce ?_, rfl, rfl, next_of_none absent⟩
      intro query
      exact spreadBy_spread _ _ zone _ query

/-- The common body of the two `flood_spread_*` functions, as a visit. -/
theorem Paid.floodSpreadLinkState
    {start before after : Icm}
    {zone : ZoneId}
    {key : LinkStateKey}
    {addr metric : UInt32}
    {state : UInt8}
    {visits : List Visit}
    (paid : Paid start ((zone, key) :: visits) before)
    (returned :
      before.floodSpreadLinkState zone key addr metric state = .ok after) :
    Paid start visits after := by
  obtain ⟨link, originates, sameKey, -, raised⟩ :=
    Originates.floodSpreadLinkState returned
  exact paid.spread originates sameKey raised

/-- One key of the periodic spread. -/
theorem Paid.spreadStoredLinkState
    {start before after : Icm}
    {zone : ZoneId}
    {key : LinkStateKey}
    {visits : List Visit}
    (paid : Paid start ((zone, key) :: visits) before)
    (returned : before.spreadStoredLinkState zone key = .ok after) :
    Paid start visits after := by
  unfold Icm.spreadStoredLinkState at returned
  split at returned
  · next found stored =>
      have sameKey : found.key = key := Lsdb.key_of_find stored
      have spread := Effect.floodLsaSpread before
        (lsdbToLsaInfo { found with seq := found.seq + 1 }) zone
      have effect := spread.trans (Effect.crLsdbLinkStateUpdate returned)
      rw [spread.stored] at effect
      refine paid.spread (effect.spreadOnce ?_) sameKey (next_of_some stored)
      intro query
      rw [List.filterMap_append, spreadBy_spread]
      exact List.append_nil _
  · cases returned
    exact paid.skip

/-- The visits of `flood_spread_access_link_state` and of one access interface. -/
def accessVisits (icm : Icm) (eth : AccessId) : List Visit :=
  icm.router.azs.map fun zone => (zone, icm.accessKey eth zone)

/-- The visit of one backbone interface of `spread_local_link_state`. -/
def backboneVisit (icm : Icm) (zone : ZoneId) (eth : EthId) : List Visit :=
  match icm.helloMaster eth with
  | none => []
  | some hello => [(zone, icm.localBackboneKey zone eth hello.neighbor)]

/-- The visits of `spread_local_link_state`. -/
def localVisits (icm : Icm) : List Visit :=
  icm.router.accesses.flatMap icm.accessVisits ++
    icm.router.azs.flatMap fun zone =>
      (icm.router.zone zone).backbones.flatMap (icm.backboneVisit zone)

/-- `flood_spread_access_link_state`. -/
theorem Paid.floodSpreadAccessLinkState
    {start after : Icm}
    {eth : AccessId}
    {state : UInt8}
    (paid : Paid start (start.accessVisits eth) start)
    (returned : start.floodSpreadAccessLinkState eth state = .ok after) :
    Paid start [] after := by
  unfold Icm.floodSpreadAccessLinkState at returned
  have shape :
      start.accessVisits eth =
        start.router.azs.flatMap
          (fun zone => [(zone, start.accessKey eth zone)]) ++ [] := by
    simp [accessVisits, List.map_eq_flatMap]
  rw [shape] at paid
  refine Paid.foldlM ?_ paid returned
  intro before after zone rest current spread
  have sameKey : before.accessKey eth zone = start.accessKey eth zone := by
    unfold accessKey
    rw [current.router]
  rw [sameKey] at spread
  exact current.floodSpreadLinkState spread

/-- One backbone interface of `spread_local_link_state`. -/
theorem Paid.spreadLocalBackbone
    {start before after : Icm}
    {zone : ZoneId}
    {eth : EthId}
    {visits : List Visit}
    (paid : Paid start (start.backboneVisit zone eth ++ visits) before)
    (returned : before.spreadLocalBackbone zone eth = .ok after) :
    Paid start visits after := by
  unfold Icm.spreadLocalBackbone at returned
  obtain ⟨hello, found, rest⟩ := bind_eq_ok.mp returned
  have allocated := deref_eq_ok.mp found
  have sameKey :
      before.localBackboneKey zone eth hello.neighbor =
        start.localBackboneKey zone eth hello.neighbor := by
    unfold localBackboneKey
    rw [paid.router]
  have visit :
      start.backboneVisit zone eth =
        [(zone, start.localBackboneKey zone eth hello.neighbor)] := by
    unfold backboneVisit
    rw [← paid.hello, allocated]
  rw [visit] at paid
  split at rest
  · rw [sameKey] at rest
    exact paid.spreadStoredLinkState rest
  · cases rest
    exact paid.skip

/-- `spread_local_link_state`. -/
theorem Paid.spreadLocalLinkState
    {start after : Icm}
    (paid : Paid start start.localVisits start)
    (returned : start.spreadLocalLinkState = .ok after) :
    Paid start [] after := by
  unfold Icm.spreadLocalLinkState at returned
  obtain ⟨accesses, accessLoop, remaining⟩ := bind_eq_ok.mp returned
  obtain ⟨backbones, backboneLoop, arms⟩ := bind_eq_ok.mp remaining
  cases arms
  have afterAccesses :
      Paid start
        (start.router.azs.flatMap fun zone =>
          (start.router.zone zone).backbones.flatMap
            (start.backboneVisit zone)) accesses := by
    refine Paid.foldlM ?_ paid accessLoop
    intro before after eth rest current looped
    rw [current.router] at looped
    have shape :
        start.accessVisits eth =
          start.router.azs.flatMap
            (fun zone => [(zone, start.accessKey eth zone)]) := by
      simp [accessVisits, List.map_eq_flatMap]
    rw [shape] at current
    refine Paid.foldlM ?_ current looped
    intro inner innerAfter zone rest current spread
    have sameKey : inner.accessKey eth zone = start.accessKey eth zone := by
      unfold accessKey
      rw [current.router]
    rw [sameKey] at spread
    exact current.spreadStoredLinkState spread
  have afterBackbones : Paid start [] backbones := by
    unfold Icm.spreadLocalBackbones at backboneLoop
    rw [afterAccesses.router] at backboneLoop
    rw [← List.append_nil (List.flatMap _ _)] at afterAccesses
    refine Paid.foldlM ?_ afterAccesses backboneLoop
    intro before after zone rest current looped
    rw [current.router] at looped
    refine Paid.foldlM ?_ current looped
    intro inner innerAfter eth rest current spread
    exact current.spreadLocalBackbone spread
  exact afterBackbones.quiet
    { router := rfl
      hello := rfl
      stored := rfl
      spreads := fun zone => (List.append_nil _).symm }

/-! ## Sessions -/

/-- Datagrams are not spread. -/
theorem spreadBy_sentCalls
    (icm : Icm)
    (eth : EthId)
    (body : Option Body)
    (zone : ZoneId) :
    (icm.sentCalls eth body).filterMap (spreadBy zone) = [] := by
  unfold sentCalls
  dsimp only
  split
  · rfl
  · split <;> rfl

/-- A call that only sends datagrams and works on sessions. -/
theorem Originates.session
    {before after : Icm}
    {calls : List Call}
    (router : after.router = before.router)
    (hello : after.helloMaster = before.helloMaster)
    (lsdb : after.lsdb = before.lsdb)
    (trace : after.trace = before.trace ++ calls)
    (silent : ∀ zone, calls.filterMap (spreadBy zone) = []) :
    Originates before after before.stored noSpread where
  router := router
  hello := hello
  stored := by
    unfold Icm.stored
    rw [lsdb]
  spreads := by
    intro zone
    unfold Icm.spreads
    rw [trace, List.filterMap_append, silent]
    rfl

/-- `exchange_send_start`. -/
theorem Originates.exchangeSendStart
    {before after : Icm}
    {eth : EthId}
    (returned : before.exchangeSendStart eth = .ok after) :
    Originates before after before.stored noSpread := by
  unfold Icm.exchangeSendStart at returned
  obtain ⟨_, -, rest⟩ := bind_eq_ok.mp returned
  obtain ⟨exchange, -, rest⟩ := bind_eq_ok.mp rest
  obtain ⟨_, -, sent⟩ := bind_eq_ok.mp rest
  have shape := exchangeSend_eq before eth
    { exchange with
      sendState := .waiting
      linksState := (before.lsdbOf eth).crLsdbGetLinksState }
    before.master before.trace
  cases shape.symm.trans sent
  exact .session rfl rfl rfl rfl (spreadBy_sentCalls before eth _)

/-- `exchange_terminate`. -/
theorem Originates.exchangeTerminate
    {before after : Icm}
    {eth : EthId}
    (returned : before.exchangeTerminate eth = .ok after) :
    Originates before after before.stored noSpread := by
  unfold Icm.exchangeTerminate at returned
  obtain ⟨_, -, rest⟩ := bind_eq_ok.mp returned
  obtain ⟨exchange, -, rest⟩ := bind_eq_ok.mp rest
  cases rest
  exact .session rfl rfl rfl (List.append_nil _).symm fun _ => rfl

/-- `flood_terminate`. -/
theorem Originates.floodTerminate
    {before after : Icm}
    {eth : EthId}
    (returned : before.floodTerminate eth = .ok after) :
    Originates before after before.stored noSpread := by
  unfold Icm.floodTerminate at returned
  obtain ⟨flood, -, rest⟩ := bind_eq_ok.mp returned
  cases rest
  exact .session rfl rfl rfl (List.append_nil _).symm fun _ => rfl

/-- `flood_start`. -/
theorem Originates.floodStart
    {before after : Icm}
    {eth : EthId}
    (returned : before.floodStart eth = .ok after) :
    Originates before after before.stored noSpread := by
  unfold Icm.floodStart at returned
  obtain ⟨stopped, terminated, rest⟩ := bind_eq_ok.mp returned
  obtain ⟨flood, -, rest⟩ := bind_eq_ok.mp rest
  obtain ⟨_, -, rest⟩ := bind_eq_ok.mp rest
  cases rest
  have quiet := Originates.floodTerminate terminated
  exact
    { router := quiet.router
      hello := quiet.hello
      stored := quiet.stored
      spreads := quiet.spreads }

/-! ## The handlers -/

/-- The visit of `flood_spread_backbone_link_state`. -/
def handlerVisit (icm : Icm) (eth : EthId) : List Visit :=
  match icm.helloMaster eth with
  | none => []
  | some hello => [(icm.zoneOf eth, icm.backboneKey eth hello.neighbor)]

/-- The key of an interface is the same all through an operation. -/
theorem Paid.backboneKey_eq
    {start before : Icm}
    {visits : List Visit}
    (paid : Paid start visits before)
    (eth : EthId)
    (neighbor : LsdNeighborInfo) :
    before.backboneKey eth neighbor = start.backboneKey eth neighbor := by
  unfold backboneKey zoneOf
  rw [paid.router]

/-- The area of an interface is the same all through an operation. -/
theorem Paid.zoneOf_eq
    {start before : Icm}
    {visits : List Visit}
    (paid : Paid start visits before)
    (eth : EthId) :
    before.zoneOf eth = start.zoneOf eth := by
  unfold zoneOf
  rw [paid.router]

/-- `flood_spread_backbone_link_state`. -/
theorem Paid.floodSpreadBackboneLinkState
    {start before after : Icm}
    {eth : EthId}
    {state : UInt8}
    {visits : List Visit}
    (paid : Paid start (start.handlerVisit eth ++ visits) before)
    (returned : before.floodSpreadBackboneLinkState eth state = .ok after) :
    Paid start visits after := by
  unfold Icm.floodSpreadBackboneLinkState at returned
  obtain ⟨hello, found, rest⟩ := bind_eq_ok.mp returned
  obtain ⟨_, -, spread⟩ := bind_eq_ok.mp rest
  have allocated := deref_eq_ok.mp found
  have visit :
      start.handlerVisit eth =
        [(before.zoneOf eth, before.backboneKey eth hello.neighbor)] := by
    unfold handlerVisit
    rw [← paid.hello, allocated, paid.zoneOf_eq, paid.backboneKey_eq]
  rw [visit] at paid
  exact paid.floodSpreadLinkState spread

/-- The sessions and the spread after a change of the high priority was stored. -/
theorem Paid.highChanged
    {start before after : Icm}
    {eth : EthId}
    {status : LsdStatus}
    {state : UInt8}
    {visits : List Visit}
    (paid : Paid start (start.handlerVisit eth ++ visits) before)
    (returned : before.highChanged eth status state = .ok after) :
    Paid start visits after := by
  unfold Icm.highChanged at returned
  cases status with
  | connected =>
      obtain ⟨exchanging, exchangeStarts, rest⟩ := bind_eq_ok.mp returned
      obtain ⟨flooding, floodStarts, spreads⟩ := bind_eq_ok.mp rest
      have exchanged := paid.quiet (.exchangeSendStart exchangeStarts)
      have flooded := exchanged.quiet (.floodStart floodStarts)
      exact flooded.floodSpreadBackboneLinkState spreads
  | disconnected =>
      obtain ⟨stopped, exchangeStops, rest⟩ := bind_eq_ok.mp returned
      obtain ⟨spread, spreads, floodStops⟩ := bind_eq_ok.mp rest
      have terminated := paid.quiet (.exchangeTerminate exchangeStops)
      have advertised := terminated.floodSpreadBackboneLinkState spreads
      exact advertised.quiet (.floodTerminate floodStops)

/-- Adding a key under number 0. -/
theorem Paid.add
    {start before after : Icm}
    {zone : ZoneId}
    {link : CrLsdbLinkState}
    {visits : List Visit}
    (paid : Paid start visits before)
    (returned : before.crLsdbLinkStateAdd zone link = .ok after)
    (absent : before.stored zone link.key = none)
    (zero : link.seq = 0) :
    Paid start visits after := by
  have originates := (Effect.crLsdbLinkStateAdd returned).originates
  refine paid.write originates ?_
  simp [seqOf, absent, zero]

/-- Updating a key under the number it has. -/
theorem Paid.update
    {start before after : Icm}
    {zone : ZoneId}
    {link old : CrLsdbLinkState}
    {visits : List Visit}
    (paid : Paid start visits before)
    (returned : before.crLsdbLinkStateUpdate zone link = .ok after)
    (found : before.stored zone link.key = some old)
    (kept : link.seq = old.seq) :
    Paid start visits after := by
  have originates := (Effect.crLsdbLinkStateUpdate returned).originates
  refine paid.write originates ?_
  rw [seqOf_of_some found, kept]

/-- Reading the clock before an operation. -/
theorem Paid.readClock
    {start before : Icm}
    {visits : List Visit}
    (paid : Paid start visits before) :
    Paid start visits before.readClock :=
  paid.quiet (.session rfl rfl rfl (List.append_nil _).symm fun _ => rfl)

/-- The high priority branch of `hello_changed_handler`. -/
theorem Paid.helloHighChanged
    {start before after : Icm}
    {eth : EthId}
    {status : LsdStatus}
    {base : CrLsdbLinkState}
    {visits : List Visit}
    (paid : Paid start (start.handlerVisit eth ++ visits) before)
    (returned : before.helloHighChanged eth status base = .ok after) :
    Paid start visits after := by
  unfold Icm.helloHighChanged at returned
  split at returned
  · next absent =>
      obtain ⟨added, adds, changes⟩ := bind_eq_ok.mp returned
      exact (paid.add adds absent rfl).highChanged changes
  · next result found =>
      obtain ⟨updated, updates, changes⟩ := bind_eq_ok.mp returned
      exact (paid.update updates found rfl).highChanged changes

/-- The low priority branch of `hello_changed_handler`, for a key not yet stored. -/
theorem Paid.helloLowChanged
    {start before after : Icm}
    {eth : EthId}
    {status : LsdStatus}
    {base : CrLsdbLinkState}
    {visits : List Visit}
    (paid : Paid start (start.handlerVisit eth ++ visits) before)
    (returned : before.helloLowChanged eth status base = .ok after)
    (absent : before.stored (before.zoneOf eth) base.key = none) :
    Paid start visits after := by
  unfold Icm.helloLowChanged at returned
  split at returned
  · obtain ⟨added, adds, spreads⟩ := bind_eq_ok.mp returned
    exact (paid.add adds absent rfl).floodSpreadBackboneLinkState spreads
  · next result found =>
      have stored :
          before.stored (before.zoneOf eth) base.key = some result := found
      rw [absent] at stored
      cases stored

/-- One area of `ace_up_handler`, when nothing newer than number 0 is stored. -/
theorem Paid.aceUpInZone
    {start before after : Icm}
    {eth : AccessId}
    {zone : ZoneId}
    {visits : List Visit}
    (paid : Paid start visits before)
    (zero : before.seqOf zone (before.accessKey eth zone) = 0)
    (returned : before.aceUpInZone eth zone = .ok after) :
    Paid start visits after ∧
      ∀ query key, before.seqOf query key = 0 → after.seqOf query key = 0 := by
  have reset :
      ∀ {link : CrLsdbLinkState},
        link.seq = 0 →
        after.stored = before.stored.write zone link →
        ∀ query key, before.seqOf query key = 0 → after.seqOf query key = 0 := by
    intro link isZero stored query key wasZero
    rw [seqOf_write stored]
    split
    · simp [isZero]
    · exact wasZero
  unfold Icm.aceUpInZone at returned
  dsimp only at returned
  split at returned
  · next absent =>
      exact ⟨paid.readClock.add returned absent rfl,
        reset rfl (Effect.crLsdbLinkStateAdd returned).stored⟩
  · next old found =>
      have effect := Effect.crLsdbLinkStateUpdate returned
      refine ⟨paid.readClock.write effect.originates ?_, reset rfl effect.stored⟩
      exact zero.symm

/-! ## Runs -/

/-- What can happen to the link states a router originates. -/
inductive Origination where
  /-- `hello_changed_handler`. -/
  | helloChanged (eth : EthId) (type : PriorityType) (status : LsdStatus)
  /-- `ace_up_handler`. -/
  | aceUp (eth : AccessId)
  /-- `flood_spread_backbone_link_state`. -/
  | spreadBackbone (eth : EthId) (state : UInt8)
  /-- `flood_spread_access_link_state`. -/
  | spreadAccess (eth : AccessId) (state : UInt8)
  /-- `spread_local_link_state`. -/
  | spreadLocal
  /-- A hello packet names the neighbour of an interface. -/
  | neighbor (eth : EthId) (neighbor : LsdNeighborInfo)
  /-- An advertisement of another router arrives. -/
  | accept (eth : EthId) (lsa : LinkStateAdv)

/-- The execution of one such operation. -/
def originate (icm : Icm) : Origination → Except Fault Icm
  | .helloChanged eth type status => icm.helloChangedHandler eth type status
  | .aceUp eth => icm.aceUpHandler eth
  | .spreadBackbone eth state => icm.floodSpreadBackboneLinkState eth state
  | .spreadAccess eth state => icm.floodSpreadAccessLinkState eth state
  | .spreadLocal => icm.spreadLocalLinkState
  | .neighbor eth neighbor => do
      let hello ← deref (icm.helloMaster eth)
      return icm.setHello eth { hello with neighbor := neighbor }
  | .accept eth lsa => icm.acceptLsaIntoLsdb eth lsa

/-- No advertisement of an own key is received. -/
def Undisturbed (icm : Icm) : Origination → Prop
  | .accept eth lsa => ¬ icm.Own (icm.zoneOf eth) lsa.key
  | _ => True

/--
The operation takes no sequence number back: the low priority changes a key that
is not stored yet, an access interface comes up while nothing newer than number
0 is stored for it, and no number wraps around.
-/
def Careful (icm : Icm) : Origination → Prop
  | .helloChanged eth .high _ => icm.Budget (icm.handlerVisit eth)
  | .helloChanged eth .low _ =>
      ∀ hello, icm.helloMaster eth = some hello →
        icm.stored (icm.zoneOf eth) (icm.backboneKey eth hello.neighbor) = none
  | .aceUp eth =>
      ∀ zone ∈ icm.router.azs, icm.seqOf zone (icm.accessKey eth zone) = 0
  | .spreadBackbone eth _ => icm.Budget (icm.handlerVisit eth)
  | .spreadAccess eth _ => icm.Budget (icm.accessVisits eth)
  | .spreadLocal => icm.Budget icm.localVisits
  | .neighbor _ _ => True
  | .accept _ _ => True

/-- The steps of a router that hears nothing of its own keys. -/
def undisturbedStep : Icm → Origination → Icm → Prop :=
  guarded Undisturbed (ofPartial originate)

/-- A state with its ledgers in order and visits it can afford. -/
theorem Ledgers.paid
    {icm : Icm}
    {visits : List Visit}
    (ledgers : icm.Ledgers)
    (budget : icm.Budget visits) :
    Paid icm visits icm where
  router := rfl
  hello := rfl
  ledgers := ledgers
  budget := budget

/-- Without visits nothing wraps around. -/
theorem budget_nil
    (icm : Icm) :
    icm.Budget [] := by
  intro zone key
  unfold seqOf
  split
  · next link _ =>
      simpa using link.seq.toNat_lt
  · simp

/-- One visit of a key below the greatest number wraps nothing around. -/
theorem budget_single
    {icm : Icm}
    (zone : ZoneId)
    (key : LinkStateKey)
    (room : icm.seqOf zone key + 1 < 2 ^ 32) :
    icm.Budget [(zone, key)] := by
  intro query other
  by_cases same : (zone, key) = (query, other)
  · cases same
    simpa using room
  · rw [List.count_cons_of_ne same]
    exact budget_nil icm query other

/-- Ledgers only depend on the areas, the entries and what was spread. -/
theorem Ledgers.congr
    {before after : Icm}
    (ledgers : before.Ledgers)
    (router : after.router = before.router)
    (stored :
      ∀ zone key, before.Own zone key →
        after.stored zone key = before.stored zone key)
    (spreads : ∀ zone, after.spreads zone = before.spreads zone) :
    after.Ledgers := by
  intro zone key own
  unfold Own at own
  rw [router] at own
  exact (ledgers zone key own).keep (stored zone key own)
    fun lsa listed _ => spreads zone ▸ listed

/-- `hello_changed_handler`. -/
theorem Ledgers.helloChanged
    {before after : Icm}
    {eth : EthId}
    {type : PriorityType}
    {status : LsdStatus}
    (ledgers : before.Ledgers)
    (careful : before.Careful (.helloChanged eth type status))
    (returned : before.helloChangedHandler eth type status = .ok after) :
    after.Ledgers := by
  unfold Icm.helloChangedHandler at returned
  obtain ⟨hello, found, rest⟩ := bind_eq_ok.mp returned
  have allocated := deref_eq_ok.mp found
  have visit :
      before.handlerVisit eth =
        [(before.zoneOf eth, before.backboneKey eth hello.neighbor)] := by
    unfold handlerVisit
    rw [allocated]
  cases type with
  | high =>
      have paid := (ledgers.paid careful).readClock
      rw [← List.append_nil (before.handlerVisit eth)] at paid
      exact (paid.helloHighChanged rest).ledgers
  | low =>
      have absent := careful hello allocated
      have room :
          before.seqOf (before.zoneOf eth)
            (before.backboneKey eth hello.neighbor) + 1 < 2 ^ 32 := by
        simp [seqOf, absent]
      have paid := (ledgers.paid (budget_single _ _ room)).readClock
      rw [← visit, ← List.append_nil (before.handlerVisit eth)] at paid
      exact (paid.helloLowChanged rest absent).ledgers

/-- `ace_up_handler`. -/
theorem Ledgers.aceUp
    {before after : Icm}
    {eth : AccessId}
    (ledgers : before.Ledgers)
    (careful : before.Careful (.aceUp eth))
    (returned : before.aceUpHandler eth = .ok after) :
    after.Ledgers := by
  have looped :
      ∀ (zones : List ZoneId) (middle : Icm),
        Paid before [] middle →
        (∀ zone ∈ zones, middle.seqOf zone (before.accessKey eth zone) = 0) →
        zones.foldlM (fun (current : Icm) zone => current.aceUpInZone eth zone)
          middle = .ok after →
        after.Ledgers := by
    intro zones
    induction zones with
    | nil =>
        intro middle paid _ done
        cases done
        exact paid.ledgers
    | cons zone rest inductionHypothesis =>
        intro middle paid zero loops
        rw [List.foldlM_cons] at loops
        obtain ⟨next, first, remaining⟩ := bind_eq_ok.mp loops
        have sameKey : middle.accessKey eth zone = before.accessKey eth zone := by
          unfold accessKey
          rw [paid.router]
        have firstZero : middle.seqOf zone (middle.accessKey eth zone) = 0 := by
          rw [sameKey]
          exact zero zone List.mem_cons_self
        obtain ⟨nextPaid, nextZero⟩ := paid.aceUpInZone firstZero first
        refine inductionHypothesis next nextPaid ?_ remaining
        intro other member
        exact nextZero _ _ (zero other (List.mem_cons_of_mem _ member))
  exact looped _ before (ledgers.paid (budget_nil before)) careful returned

/-- An advertisement of a foreign key. -/
theorem Ledgers.accept
    {before after : Icm}
    {eth : EthId}
    {lsa : LinkStateAdv}
    (ledgers : before.Ledgers)
    (undisturbed : ¬ before.Own (before.zoneOf eth) lsa.key)
    (returned : before.acceptLsaIntoLsdb eth lsa = .ok after) :
    after.Ledgers := by
  have effect := acceptLsaIntoLsdb_effect returned
  refine ledgers.congr effect.router ?_ ?_
  · intro zone key own
    rw [effect.stored]
    by_cases stores : before.reaction eth lsa = .store
    · rw [acceptedEntries_of_store stores]
      apply Entries.write_of_ne
      rintro ⟨rfl, rfl⟩
      exact undisturbed own
    · rw [acceptedEntries_of_ne stores]
  · intro zone
    unfold Icm.spreads
    rw [effect.trace, List.filterMap_append]
    unfold acceptedCalls
    cases before.reaction eth lsa <;>
      simp only [List.filterMap_cons, List.filterMap_nil, spreadBy,
        spreadBy_queuedCalls, List.append_nil]

/-- One careful step keeps the ledgers. -/
theorem Ledgers.step
    {before after : Icm}
    {label : Origination}
    (ledgers : before.Ledgers)
    (step : guarded Careful undisturbedStep before label after) :
    after.Ledgers := by
  obtain ⟨careful, undisturbed, returned⟩ := step
  cases label with
  | helloChanged eth type status =>
      exact ledgers.helloChanged careful returned
  | aceUp eth =>
      exact ledgers.aceUp careful returned
  | spreadBackbone eth state =>
      have paid := ledgers.paid careful
      rw [← List.append_nil (before.handlerVisit eth)] at paid
      exact (paid.floodSpreadBackboneLinkState returned).ledgers
  | spreadAccess eth state =>
      exact ((ledgers.paid careful).floodSpreadAccessLinkState
        returned).ledgers
  | spreadLocal =>
      exact ((ledgers.paid careful).spreadLocalLinkState returned).ledgers
  | neighbor eth neighbor =>
      obtain ⟨hello, -, rest⟩ := bind_eq_ok.mp returned
      cases rest
      exact ledgers.congr rfl (fun _ _ _ => rfl) fun _ => rfl
  | accept eth lsa =>
      exact ledgers.accept undisturbed returned

/--
The originator's discipline.  From a daemon that spread nothing yet, whatever it
stores, in every run of origination operations that take no number back, the
number stored for an own key is at least every number spread for it, and two
spread advertisements with one number have one state.
-/
theorem origination_ledger
    {initial final : Icm}
    {labels : List Origination}
    (silent : ∀ zone, initial.spreads zone = [])
    (run : Run (guarded Careful undisturbedStep) initial labels final)
    {zone : ZoneId}
    {key : LinkStateKey}
    (own : final.Own zone key) :
    (∀ lsa ∈ final.spreads zone, lsa.key = key →
      ∃ link, final.stored zone key = some link ∧ lsa.seq ≤ link.seq) ∧
    (∀ first ∈ final.spreads zone, ∀ second ∈ final.spreads zone,
      first.key = key → second.key = key →
      first.seq = second.seq → first.state = second.state) := by
  have ledgers : initial.Ledgers := by
    intro query other _
    exact
      { covered := by simp [silent]
        unique := by simp [silent] }
  have ledger := run.invariant Ledgers Ledgers.step ledgers zone key own
  exact ⟨ledger.covered, ledger.unique⟩

/-- The key of the interface of the daemon towards its neighbour. -/
def idleKey : LinkStateKey := ⟨1, 7, 2, 7⟩

/-- Three changes of the low priority in a row. -/
def lowFlaps : List Origination :=
  [ .neighbor 0 ⟨2, 7⟩,
    .helloChanged 0 .low .connected,
    .helloChanged 0 .low .disconnected,
    .helloChanged 0 .low .connected ]

/--
The second and the third change of the low priority spread number 2 with
different states, and number 1 stays stored.
-/
theorem low_flaps_reuse_number :
    ∃ final,
      Run undisturbedStep (idleDaemon 10 1 2) lowFlaps final ∧
      final.Own 0 idleKey ∧
      (∃ lsa ∈ final.spreads 0, lsa.key = idleKey ∧
        ∀ link, final.stored 0 idleKey = some link → link.seq < lsa.seq) ∧
      ∃ first ∈ final.spreads 0, ∃ second ∈ final.spreads 0,
        first.key = idleKey ∧ second.key = idleKey ∧
          first.seq = second.seq ∧ first.state ≠ second.state := by
  refine ⟨_,
    .cons ⟨trivial, rfl⟩ (.cons ⟨trivial, rfl⟩ (.cons ⟨trivial, rfl⟩
      (.cons ⟨trivial, rfl⟩ (.nil _)))), rfl, ?_, ?_⟩
  · refine ⟨_, List.mem_cons_of_mem _ List.mem_cons_self, rfl, ?_⟩
    rintro link ⟨⟩
    decide
  · exact ⟨_, List.mem_cons_of_mem _ List.mem_cons_self,
      _, List.mem_cons_of_mem _ (List.mem_cons_of_mem _ List.mem_cons_self),
      rfl, rfl, rfl, by decide⟩

/-- A change of the low priority and then one of the high priority. -/
theorem origination_ledger_connect :
    ∃ final,
      Run (guarded Careful undisturbedStep) (idleDaemon 10 1 2)
        [ .neighbor 0 ⟨2, 7⟩,
          .helloChanged 0 .low .connected,
          .helloChanged 0 .high .connected ]
        final ∧
      ∀ lsa ∈ final.spreads 0, lsa.key = idleKey →
        ∃ link, final.stored 0 idleKey = some link ∧ lsa.seq ≤ link.seq := by
  have runs :
      ∃ final,
        Run (guarded Careful undisturbedStep) (idleDaemon 10 1 2)
          [ .neighbor 0 ⟨2, 7⟩,
            .helloChanged 0 .low .connected,
            .helloChanged 0 .high .connected ]
          final ∧
        final.Own 0 idleKey := by
    refine ⟨_,
      .cons ⟨trivial, trivial, rfl⟩ (.cons ⟨?_, trivial, rfl⟩
        (.cons ⟨?_, trivial, rfl⟩ (.nil _))), rfl⟩
    · rintro hello ⟨⟩
      rfl
    · exact budget_single 0 idleKey (by decide)
  obtain ⟨final, run, own⟩ := runs
  exact ⟨final, run, (origination_ledger (fun _ => rfl) run own).1⟩

end Icm

end Pma
