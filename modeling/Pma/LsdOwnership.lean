import Pma.LsdAdjacency
import Pma.LsdEffect

namespace Pma

open Transition

/-!
# Entries a router originates

A router puts the device id of the area into the keys it originates, but
`check_local_lsdb` recognises its own keys by the router id of the area.
`lsd_iflist_init` takes the two from different fields of the router, so a
neighbour can write the entries a router originates unless the two happen to be
equal.
-/

namespace Icm

/--
The areas of a daemon carry the ids they were created with, and every interface
knows the area it is listed in.
-/
structure Identified (routerid agentid : UInt32) (icm : Icm) : Prop where
  ids :
    ∀ zone ∈ icm.router.azs,
      (icm.router.zone zone).deviceId = agentid ∧
        (icm.router.zone zone).rId = routerid
  homes :
    ∀ zone ∈ icm.router.azs,
      ∀ eth ∈ (icm.router.zone zone).backbones, icm.zoneOf eth = zone
  zones :
    ∀ zone ∈ icm.router.azs, zone < icm.zoneBrk
  eths :
    ∀ zone ∈ icm.router.azs,
      ∀ eth ∈ (icm.router.zone zone).backbones, eth < icm.ethBrk

namespace Identified

variable {routerid agentid : UInt32}

/-- Only the mirrored interfaces count. -/
theorem congr
    {before after : Icm}
    (identified : before.Identified routerid agentid)
    (links : after.links = before.links) :
    after.Identified routerid agentid := by
  have router : after.router = before.router := congrArg Prod.fst links
  have zoneBrk : after.zoneBrk = before.zoneBrk :=
    congrArg (fun links => links.2.1) links
  have ethBrk : after.ethBrk = before.ethBrk :=
    congrArg (fun links => links.2.2) links
  refine
    { ids := ?_
      homes := ?_
      zones := ?_
      eths := ?_ }
  · rw [router]
    exact identified.ids
  · unfold zoneOf
    rw [router]
    exact identified.homes
  · rw [router, zoneBrk]
    exact identified.zones
  · rw [router, ethBrk]
    exact identified.eths

/-- A new description of an interface that keeps its area. -/
theorem describe
    {icm : Icm}
    {eth : EthId}
    {link : BackboneEth}
    (identified : icm.Identified routerid agentid)
    (sameArea : link.az = (icm.router.eth eth).az) :
    (icm.setEth eth link).Identified routerid agentid :=
  { ids := identified.ids
    homes := by
      intro zone member other listed
      have home := identified.homes zone member other listed
      by_cases same : other = eth
      · subst same
        simpa [zoneOf, setEth, sameArea] using home
      · simpa [zoneOf, setEth, same] using home
    zones := identified.zones
    eths := identified.eths }

/-- The description of an interface that is listed nowhere yet. -/
theorem describeFresh
    {icm : Icm}
    (identified : icm.Identified routerid agentid)
    (link : BackboneEth) :
    ({ icm with ethBrk := icm.ethBrk + 1 }.setEth icm.ethBrk link).Identified
      routerid agentid :=
  { ids := identified.ids
    homes := by
      intro zone member other listed
      have home := identified.homes zone member other listed
      have allocated := identified.eths zone member other listed
      simpa [zoneOf, setEth, allocated.ne] using home
    zones := identified.zones
    eths := by
      intro zone member other listed
      exact Nat.lt_succ_of_lt (identified.eths zone member other listed) }

/-- Finding or allocating an area. -/
theorem ensureZone
    {icm : Icm}
    (identified : icm.Identified routerid agentid)
    (router : icm.localrouter.routerid = routerid)
    (agent : icm.localrouter.agentid = agentid)
    (areaId : UInt32) :
    (icm.ensureZone areaId).2.Identified routerid agentid ∧
      (icm.ensureZone areaId).1 ∈ (icm.ensureZone areaId).2.router.azs := by
  unfold Icm.ensureZone
  split
  · next zone found =>
      exact ⟨identified, List.mem_of_find?_eq_some found⟩
  · refine ⟨?_, List.mem_cons_self⟩
    have different : ∀ zone ∈ icm.router.azs, zone ≠ icm.zoneBrk :=
      fun zone member => (identified.zones zone member).ne
    refine
      { ids := ?_
        homes := ?_
        zones := ?_
        eths := ?_ }
    · intro zone member
      rcases List.mem_cons.mp member with isNew | isOld
      · subst isNew
        simp [router, agent]
      · simpa [different zone isOld] using identified.ids zone isOld
    · intro zone member eth listed
      rcases List.mem_cons.mp member with isNew | isOld
      · subst isNew
        simp at listed
      · simp only [Function.update_of_ne (different zone isOld)] at listed
        exact identified.homes zone isOld eth listed
    · intro zone member
      rcases List.mem_cons.mp member with isNew | isOld
      · subst isNew
        exact Nat.lt_succ_self _
      · exact Nat.lt_succ_of_lt (identified.zones zone isOld)
    · intro zone member eth listed
      rcases List.mem_cons.mp member with isNew | isOld
      · subst isNew
        simp at listed
      · simp only [Function.update_of_ne (different zone isOld)] at listed
        exact identified.eths zone isOld eth listed

/-- Listing a new interface in its area. -/
theorem backboneEthAdd
    {icm : Icm}
    {zone : ZoneId}
    {eth : EthId}
    (identified : icm.Identified routerid agentid)
    (unlisted :
      ∀ other ∈ icm.router.azs, eth ∉ (icm.router.zone other).backbones)
    (allocated : eth < icm.ethBrk) :
    (icm.backboneEthAdd zone eth).Identified routerid agentid := by
  have listedIn :
      ∀ other ∈ icm.router.azs,
        ∀ member ∈ ((icm.backboneEthAdd zone eth).router.zone other).backbones,
          (member = eth ∧ other = zone) ∨
            member ≠ eth ∧ member ∈ (icm.router.zone other).backbones := by
    intro other isArea member listed
    by_cases same : other = zone
    · subst same
      simp only [Icm.backboneEthAdd, setEth, Function.update_self,
        List.mem_cons] at listed
      rcases listed with isNew | isOld
      · exact .inl ⟨isNew, rfl⟩
      · refine .inr ⟨?_, isOld⟩
        rintro rfl
        exact unlisted other isArea isOld
    · simp only [Icm.backboneEthAdd, setEth,
        Function.update_of_ne same] at listed
      refine .inr ⟨?_, listed⟩
      rintro rfl
      exact unlisted other isArea listed
  refine
    { ids := ?_
      homes := ?_
      zones := identified.zones
      eths := ?_ }
  · intro other isArea
    by_cases same : other = zone
    · subst same
      simpa [Icm.backboneEthAdd, setEth] using identified.ids other isArea
    · simpa [Icm.backboneEthAdd, setEth, same] using
        identified.ids other isArea
  · intro other isArea member listed
    rcases listedIn other isArea member listed with ⟨rfl, rfl⟩ | ⟨ne, isOld⟩
    · simp [zoneOf, Icm.backboneEthAdd, setEth]
    · have home := identified.homes other isArea member isOld
      simpa [zoneOf, Icm.backboneEthAdd, setEth, ne] using home
  · intro other isArea member listed
    rcases listedIn other isArea member listed with ⟨rfl, rfl⟩ | ⟨ne, isOld⟩
    · exact allocated
    · exact identified.eths other isArea member isOld

end Identified

/-- The interface table names the router by two ids. -/
def NamedBy (routerid agentid : UInt32) (localrouter : LocalRouter) : Prop :=
  localrouter.routerid = routerid ∧ localrouter.agentid = agentid

/-- What the loop of `lsd_iflist_init` keeps. -/
def Mirroring (routerid agentid : UInt32) (icm : Icm) : Prop :=
  icm.Identified routerid agentid ∧ NamedBy routerid agentid icm.localrouter

/-- `eth_state_update` schedules an event and changes no interface. -/
theorem Mirroring.ethStateUpdate
    {routerid agentid : UInt32}
    {icm : Icm}
    (mirroring : icm.Mirroring routerid agentid)
    (arg : ThreadArg)
    (state : EthState) :
    (icm.ethStateUpdate arg state).Mirroring routerid agentid := by
  cases state with
  | up =>
      exact ⟨mirroring.1.congr rfl, mirroring.2⟩
  | down =>
      exact ⟨mirroring.1.congr rfl, mirroring.2⟩

/-- The allocation of an area keeps the ids of the router. -/
theorem ensureZone_localrouter
    (icm : Icm)
    (areaId : UInt32) :
    (icm.ensureZone areaId).2.localrouter = icm.localrouter := by
  unfold ensureZone
  split <;> rfl

/-- The allocation of an area lists no interface. -/
theorem ensureZone_unlisted
    {icm : Icm}
    {eth : EthId}
    (unlisted :
      ∀ zone ∈ icm.router.azs, eth ∉ (icm.router.zone zone).backbones)
    (areaId : UInt32) :
    ∀ zone ∈ (icm.ensureZone areaId).2.router.azs,
      eth ∉ ((icm.ensureZone areaId).2.router.zone zone).backbones := by
  unfold ensureZone
  split
  · exact unlisted
  · intro zone member
    by_cases same : zone = icm.zoneBrk
    · subst same
      simp
    · rcases List.mem_cons.mp member with isNew | isOld
      · exact absurd isNew same
      · simpa [same] using unlisted zone isOld

/-- The allocation of an area leaves the interface addresses alone. -/
theorem ensureZone_ethBrk
    (icm : Icm)
    (areaId : UInt32) :
    (icm.ensureZone areaId).2.ethBrk = icm.ethBrk := by
  unfold ensureZone
  split <;> rfl

/-- Listing an interface that is described but in no area yet. -/
theorem Identified.listFresh
    {routerid agentid : UInt32}
    {icm : Icm}
    {eth : EthId}
    (identified : icm.Identified routerid agentid)
    (named : NamedBy routerid agentid icm.localrouter)
    (unlisted :
      ∀ zone ∈ icm.router.azs, eth ∉ (icm.router.zone zone).backbones)
    (allocated : eth < icm.ethBrk)
    (areaId : UInt32)
    (id : IfaceId)
    (object : VInterface) :
    (((icm.ensureZone areaId).2.setVinterface id object).backboneEthAdd
      (icm.ensureZone areaId).1 eth).Mirroring routerid agentid := by
  have ensured := (identified.ensureZone named.1 named.2 areaId).1
  have mirrored :
      ((icm.ensureZone areaId).2.setVinterface id object).Identified
        routerid agentid :=
    ensured.congr rfl
  refine ⟨mirrored.backboneEthAdd (ensureZone_unlisted unlisted areaId) ?_, ?_⟩
  · exact lt_of_lt_of_eq allocated (ensureZone_ethBrk icm areaId).symm
  · unfold Icm.backboneEthAdd setVinterface NamedBy setEth
    rw [ensureZone_localrouter]
    exact named

/-- One interface of `lsd_iflist_init`. -/
theorem Mirroring.initInterface
    {routerid agentid : UInt32}
    {icm : Icm}
    (mirroring : icm.Mirroring routerid agentid)
    (id : IfaceId) :
    Yields (fun _ => True) (Mirroring routerid agentid)
      (icm.initInterface id) := by
  obtain ⟨identified, router, agent⟩ := mirroring
  unfold Icm.initInterface
  split
  · unfold initBackbone
    dsimp only
    split
    · trivial
    · next eth _ =>
        apply Mirroring.ethStateUpdate
        have described :
            (icm.setEth eth (describeBackbone (icm.localrouter.iface id) id
              (icm.router.eth eth))).Identified routerid agentid :=
          identified.describe rfl
        have ensured := (described.ensureZone router agent
          (areaOf (icm.localrouter.iface id).protoInfo)).1
        refine ⟨ensured.congr rfl, ?_⟩
        have named := ensureZone_localrouter
          (icm.setEth eth (describeBackbone (icm.localrouter.iface id) id
            (icm.router.eth eth)))
          (areaOf (icm.localrouter.iface id).protoInfo)
        unfold setVinterface NamedBy
        rw [named]
        exact ⟨router, agent⟩
    · apply Mirroring.ethStateUpdate
      have described := identified.describeFresh
        (describeBackbone (icm.localrouter.iface id) id zeroEth)
      have unlisted :
          ∀ zone ∈ icm.router.azs,
            icm.ethBrk ∉ (icm.router.zone zone).backbones :=
        fun zone member listed =>
          (identified.eths zone member _ listed).false
      exact described.listFresh ⟨router, agent⟩ unlisted
        (Nat.lt_succ_self _) _ _ _
  · unfold initAccess
    dsimp only
    split
    · trivial
    · apply Mirroring.ethStateUpdate
      exact ⟨{ identified with }, router, agent⟩
    · apply Mirroring.ethStateUpdate
      exact ⟨{ identified with }, router, agent⟩
  · exact ⟨identified, router, agent⟩

/-- Events whose interface table names the router by two ids. -/
def Event.NamedBy (routerid agentid : UInt32) : Event → Prop
  | .interfaces table => Icm.NamedBy routerid agentid table
  | .datagram _ => True
  | .expire _ => True

/-- The steps of a daemon that is always named by the same two ids. -/
def namedStep (routerid agentid : UInt32) : Icm → Event → Icm → Prop :=
  guarded (fun _ event => event.NamedBy routerid agentid) (ofPartial step)

/-- One step of a daemon that is always named by the same two ids. -/
theorem Identified.step
    {routerid agentid : UInt32}
    {before after : Icm}
    {event : Event}
    (invariant : before.AdjacencyInv)
    (identified : before.Identified routerid agentid)
    (stepped : namedStep routerid agentid before event after) :
    after.AdjacencyInv ∧ after.Identified routerid agentid := by
  obtain ⟨named, returned⟩ := stepped
  refine ⟨(yields_runOp invariant (.event event)).of_ok returned, ?_⟩
  cases event with
  | datagram datagram =>
      exact identified.congr
        ((yields_lsdReceive invariant datagram).of_ok returned).2
  | expire id =>
      exact identified.congr
        ((yields_expire invariant id).of_ok returned).2
  | interfaces table =>
      have refreshed :
          (before.refreshInterfaces table).Mirroring routerid agentid :=
        ⟨identified.congr rfl, named⟩
      change (before.refreshInterfaces table).lsdIflistInit = .ok after at returned
      unfold lsdIflistInit at returned
      split at returned
      · have looped := run_of_foldlM returned
        refine (looped.invariant (Mirroring routerid agentid) ?_ refreshed).1
        intro state id next mirroring initialised
        exact (mirroring.initInterface id).of_ok initialised
      · cases returned
        exact refreshed.1

/-- Every reachable state of a daemon carries the ids it is named by. -/
theorem identified_of_run
    {routerid agentid : UInt32}
    {clock : Nat → Timeval}
    {stack : CrLsdbLinkState}
    {table : LocalRouter}
    {events : List Event}
    {icm : Icm}
    (run : Run (namedStep routerid agentid) (boot clock stack table) events icm) :
    icm.Identified routerid agentid := by
  have booted : (boot clock stack table).Identified routerid agentid :=
    { ids := by simp [boot]
      homes := by simp [boot]
      zones := by simp [boot]
      eths := by simp [boot] }
  have both := run.invariant
    (fun state => state.AdjacencyInv ∧ state.Identified routerid agentid)
    (fun held stepped => held.2.step held.1 stepped)
    ⟨(boot_fresh clock stack table).adjacencyInv, booted⟩
  exact both.2

/--
No neighbour writes an entry the router originates: in every reachable state of
a daemon named by the two ids, an advertisement of a key that starts at the
device id of an area leaves every entry as it is, whatever interface of the area
it arrives on.
-/
def OwnEntriesKept (routerid agentid : UInt32) : Prop :=
  ∀ (clock : Nat → Timeval) (stack : CrLsdbLinkState) (table : LocalRouter)
    (events : List Event) (icm : Icm),
    Run (namedStep routerid agentid) (boot clock stack table) events icm →
    ∀ zone ∈ icm.router.azs,
      ∀ eth ∈ (icm.router.zone zone).backbones,
        ∀ lsa : LinkStateAdv,
          lsa.key.rtId = (icm.router.zone zone).deviceId →
          ∃ after,
            icm.acceptLsaIntoLsdb eth lsa = .ok after ∧
              after.stored = icm.stored

/-- An advertisement taken for local leaves every entry as it is. -/
theorem stored_of_local
    {icm : Icm}
    {eth : EthId}
    {lsa : LinkStateAdv}
    (own : icm.isLocal eth lsa.key = true) :
    ∃ after,
      icm.acceptLsaIntoLsdb eth lsa = .ok after ∧
        after.stored = icm.stored := by
  obtain ⟨after, returned, effect⟩ := acceptLsaIntoLsdb_local own
  refine ⟨after, returned, ?_⟩
  rw [effect.stored]
  unfold acceptedEntries reaction
  cases icm.stored (icm.zoneOf eth) lsa.key with
  | none =>
      simp [own]
  | some link =>
      by_cases same : link.seq = lsa.seq
      · simp [own, same]
      · simp [own, same]

/-- The advertisement of an own key that nothing is stored for. -/
def ownAdv (agentid : UInt32) : LinkStateAdv :=
  { zeroAdv with key := ⟨agentid, 0, 0, 0⟩ }

/-- Mirroring one interface creates its area, with nothing stored. -/
theorem oneLink_mirrored
    (routerid agentid : UInt32) :
    ∃ icm,
      Run (namedStep routerid agentid)
        (boot (fun _ => ⟨0, 0⟩) (lsaToLsdbInfo zeroAdv ⟨0, 0⟩)
          (oneLinkTable routerid agentid 2))
        [.interfaces (oneLinkTable routerid agentid 2)] icm ∧
      0 ∈ icm.router.azs ∧
      0 ∈ (icm.router.zone 0).backbones ∧
      icm.zoneOf 0 = 0 ∧
      (icm.router.zone 0).deviceId = agentid ∧
      (icm.router.zone 0).rId = routerid ∧
      icm.stored 0 (ownAdv agentid).key = none :=
  ⟨_, .cons ⟨⟨rfl, rfl⟩, rfl⟩ (.nil _),
    List.mem_singleton.mpr rfl, List.mem_singleton.mpr rfl, rfl, rfl, rfl,
    Lsdb.init_find _⟩

/-- With different ids, a neighbour adds an entry the router originates. -/
theorem not_ownEntriesKept
    {routerid agentid : UInt32}
    (different : routerid ≠ agentid) :
    ¬ OwnEntriesKept routerid agentid := by
  intro kept
  obtain ⟨icm, run, area, listed, home, device, router, empty⟩ :=
    oneLink_mirrored routerid agentid
  obtain ⟨after, returned, same⟩ :=
    kept _ _ _ _ icm run 0 area 0 listed (ownAdv agentid) device.symm
  have foreign : icm.isLocal 0 (ownAdv agentid).key = false := by
    simp [isLocal, home, router, ownAdv, Ne.symm different]
  have effect := (acceptLsaIntoLsdb_yields icm 0 (ownAdv agentid)).of_ok returned
  have written := congrFun (congrFun effect.stored 0) (ownAdv agentid).key
  rw [same, empty] at written
  simp [acceptedEntries, reaction, empty, foreign, home, Entries.write] at written

/--
The entries a router originates are safe from its neighbours exactly when its
two ids are equal.
-/
theorem ownEntriesKept_iff
    (routerid agentid : UInt32) :
    OwnEntriesKept routerid agentid ↔ routerid = agentid := by
  constructor
  · intro kept
    by_contra different
    exact not_ownEntriesKept different kept
  · rintro rfl clock stack table events icm run zone area eth listed lsa start
    have identified := identified_of_run run
    have home := identified.homes zone area eth listed
    have ids := identified.ids zone area
    apply stored_of_local
    simp [isLocal, home, ids.2, start, ids.1]

/-- The high hello of a neighbour, and then an advertisement it makes up. -/
theorem own_entry_overwritten :
    ∃ icm after,
      Run (namedStep 10 1)
        (boot (fun _ => ⟨0, 0⟩) (lsaToLsdbInfo zeroAdv ⟨0, 0⟩)
          (oneLinkTable 10 1 2))
        [ .interfaces (oneLinkTable 10 1 2),
          .expire 0,
          .datagram (helloFrom 2 9) ] icm ∧
      (icm.router.zone 0).deviceId = 1 ∧
      (icm.stored 0 ⟨1, 7, 2, 9⟩).map (fun link => (link.seq, link.state)) =
        some (1, 2) ∧
      icm.acceptLsaIntoLsdb 0
          { zeroAdv with key := ⟨1, 7, 2, 9⟩, seq := 5 } = .ok after ∧
      (after.stored 0 ⟨1, 7, 2, 9⟩).map (fun link => (link.seq, link.state)) =
        some (5, 0) :=
  ⟨_, _,
    .cons ⟨⟨rfl, rfl⟩, rfl⟩ (.cons ⟨trivial, rfl⟩ (.cons ⟨trivial, rfl⟩ (.nil _))),
    rfl, rfl, rfl, rfl⟩

end Icm

end Pma
