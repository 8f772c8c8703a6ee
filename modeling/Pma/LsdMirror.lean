import Pma.LsdOwnership

namespace Pma

open Transition

/-!
# The interface list as a mirror

`lsd_iflist_init` allocates one object for every interface the first time it
sees it, puts a backbone object into the list of its area, and from then on
only rewrites the fields of the object it remembers in `vinterface`.  The lists
therefore stay sound in every run, while the area and the type an object was
created for are never looked at again: the mirror is right exactly as long as
no refresh changes either.
-/

namespace Icm

/-- The object that mirrors an interface, if `lsd_iflist_init` made one. -/
def mirrorOf (icm : Icm) (id : IfaceId) : Option VInterface :=
  (icm.localrouter.iface id).vinterface

/-- The id of the area a backbone object is in. -/
def areaIdOf (icm : Icm) (eth : EthId) : UInt32 :=
  (icm.router.zone (icm.zoneOf eth)).azId

/-- Every area is listed once, and no two areas have the same id. -/
structure AreasDistinct (icm : Icm) : Prop where
  azsNodup :
    icm.router.azs.Nodup
  zones :
    ∀ zone ∈ icm.router.azs, zone < icm.zoneBrk
  areasUnique :
    ∀ first ∈ icm.router.azs,
      ∀ second ∈ icm.router.azs,
        (icm.router.zone first).azId = (icm.router.zone second).azId →
        first = second

/-- The lists of the daemon and the objects of the interfaces fit together. -/
structure Placed (icm : Icm) : Prop extends AreasDistinct icm where
  backbonesNodup :
    ∀ zone ∈ icm.router.azs, (icm.router.zone zone).backbones.Nodup
  backbones :
    ∀ zone ∈ icm.router.azs,
      ∀ eth ∈ (icm.router.zone zone).backbones,
        icm.zoneOf eth = zone ∧
          icm.mirrorOf (icm.router.eth eth).interface = some (.backbone eth)
  backboneMirrors :
    ∀ id eth,
      icm.mirrorOf id = some (.backbone eth) →
      eth < icm.ethBrk ∧
        (icm.router.eth eth).interface = id ∧
        icm.zoneOf eth ∈ icm.router.azs ∧
        eth ∈ (icm.router.zone (icm.zoneOf eth)).backbones
  accessesNodup :
    icm.router.accesses.Nodup
  accesses :
    ∀ eth ∈ icm.router.accesses,
      icm.mirrorOf (icm.router.access eth).interface = some (.access eth)
  accessMirrors :
    ∀ id eth,
      icm.mirrorOf id = some (.access eth) →
      eth < icm.accessBrk ∧
        (icm.router.access eth).interface = id ∧
        eth ∈ icm.router.accesses

namespace AreasDistinct

variable {icm : Icm}

/-- Only the list of areas and their ids count. -/
theorem congr
    {after : Icm}
    (distinct : icm.AreasDistinct)
    (azs : after.router.azs = icm.router.azs)
    (areas :
      ∀ zone, (after.router.zone zone).azId = (icm.router.zone zone).azId)
    (zoneBrk : after.zoneBrk = icm.zoneBrk) :
    after.AreasDistinct := by
  constructor
  · rw [azs]
    exact distinct.azsNodup
  · rw [azs, zoneBrk]
    exact distinct.zones
  · intro first firstMember second secondMember sameArea
    rw [azs] at firstMember secondMember
    rw [areas, areas] at sameArea
    exact distinct.areasUnique first firstMember second secondMember sameArea

/-- Finding or allocating an area. -/
theorem ensureZone
    (distinct : icm.AreasDistinct)
    (areaId : UInt32) :
    (icm.ensureZone areaId).2.AreasDistinct := by
  unfold Icm.ensureZone
  split
  · exact distinct
  · next absent =>
      have old : ∀ zone ∈ icm.router.azs, zone ≠ icm.zoneBrk :=
        fun zone member => (distinct.zones zone member).ne
      have otherArea :
          ∀ zone ∈ icm.router.azs, (icm.router.zone zone).azId ≠ areaId := by
        intro zone member sameArea
        have different := List.find?_eq_none.mp absent zone member
        simp [sameArea] at different
      constructor
      · exact List.nodup_cons.mpr
          ⟨fun member => old _ member rfl, distinct.azsNodup⟩
      · intro zone member
        rcases List.mem_cons.mp member with isNew | isOld
        · subst isNew
          exact Nat.lt_succ_self _
        · exact Nat.lt_succ_of_lt (distinct.zones zone isOld)
      · intro first firstMember second secondMember sameArea
        rcases List.mem_cons.mp firstMember with isNew | isOld
        · rcases List.mem_cons.mp secondMember with secondNew | secondOld
          · rw [isNew, secondNew]
          · simp only [isNew, Function.update_self,
              Function.update_of_ne (old second secondOld)] at sameArea
            exact absurd sameArea.symm (otherArea second secondOld)
        · rcases List.mem_cons.mp secondMember with secondNew | secondOld
          · simp only [secondNew, Function.update_self,
              Function.update_of_ne (old first isOld)] at sameArea
            exact absurd sameArea (otherArea first isOld)
          · simp only [Function.update_of_ne (old first isOld),
              Function.update_of_ne (old second secondOld)] at sameArea
            exact distinct.areasUnique first isOld second secondOld sameArea

/-- Listing an interface in an area changes no area id. -/
theorem backboneEthAdd
    (distinct : icm.AreasDistinct)
    (zone : ZoneId)
    (eth : EthId) :
    (icm.backboneEthAdd zone eth).AreasDistinct := by
  refine distinct.congr rfl ?_ rfl
  intro other
  by_cases isZone : other = zone
  · subst isZone
    simp [Icm.backboneEthAdd, setEth]
  · simp [Icm.backboneEthAdd, setEth, isZone]

/-- `eth_state_update` schedules an event and changes no area. -/
theorem ethStateUpdate
    (distinct : icm.AreasDistinct)
    (arg : ThreadArg)
    (state : EthState) :
    (icm.ethStateUpdate arg state).AreasDistinct := by
  cases state with
  | up =>
      exact distinct.congr rfl (fun _ => rfl) rfl
  | down =>
      exact distinct.congr rfl (fun _ => rfl) rfl

/-- One interface of `lsd_iflist_init`. -/
theorem initInterface
    (distinct : icm.AreasDistinct)
    (id : IfaceId) :
    Yields (fun _ => True) AreasDistinct (icm.initInterface id) := by
  unfold Icm.initInterface
  split
  · unfold initBackbone
    dsimp only
    split
    · trivial
    · next eth _ =>
        apply AreasDistinct.ethStateUpdate
        have described :
            (icm.setEth eth (describeBackbone (icm.localrouter.iface id) id
              (icm.router.eth eth))).AreasDistinct :=
          distinct.congr rfl (fun _ => rfl) rfl
        have ensured := described.ensureZone
          (areaOf (icm.localrouter.iface id).protoInfo)
        exact ensured.congr rfl (fun _ => rfl) rfl
    · apply AreasDistinct.ethStateUpdate
      apply AreasDistinct.backboneEthAdd
      have described :
          ({ icm with ethBrk := icm.ethBrk + 1 }.setEth icm.ethBrk
            (describeBackbone (icm.localrouter.iface id) id
              zeroEth)).AreasDistinct :=
        distinct.congr rfl (fun _ => rfl) rfl
      have ensured := described.ensureZone
        (areaOf (icm.localrouter.iface id).protoInfo)
      exact ensured.congr rfl (fun _ => rfl) rfl
  · unfold initAccess
    dsimp only
    split
    · trivial
    · apply AreasDistinct.ethStateUpdate
      exact distinct.congr rfl (fun _ => rfl) rfl
    · apply AreasDistinct.ethStateUpdate
      exact distinct.congr rfl (fun _ => rfl) rfl
  · exact distinct

end AreasDistinct

/-- One step of the daemon keeps its areas distinct. -/
theorem AreasDistinct.step
    {before after : Icm}
    {event : Event}
    (invariant : before.AdjacencyInv)
    (distinct : before.AreasDistinct)
    (stepped : ofPartial Icm.step before event after) :
    after.AdjacencyInv ∧ after.AreasDistinct := by
  refine ⟨(yields_runOp invariant (.event event)).of_ok stepped, ?_⟩
  have ofLinks : after.links = before.links → after.AreasDistinct := by
    intro links
    have router : after.router = before.router := congrArg Prod.fst links
    refine distinct.congr ?_ ?_ (congrArg (fun links => links.2.1) links)
    · rw [router]
    · intro zone
      rw [router]
  cases event with
  | datagram datagram =>
      exact ofLinks ((yields_lsdReceive invariant datagram).of_ok stepped).2
  | expire id =>
      exact ofLinks ((yields_expire invariant id).of_ok stepped).2
  | interfaces table =>
      have refreshed : (before.refreshInterfaces table).AreasDistinct :=
        distinct.congr rfl (fun _ => rfl) rfl
      change (before.refreshInterfaces table).lsdIflistInit = .ok after at stepped
      unfold lsdIflistInit at stepped
      split at stepped
      · refine (run_of_foldlM stepped).invariant AreasDistinct ?_ refreshed
        intro state id next stateDistinct initialised
        exact (stateDistinct.initInterface id).of_ok initialised
      · cases stepped
        exact refreshed

/-- The areas of a running daemon are distinct. -/
theorem areasDistinct_of_run
    {clock : Nat → Timeval}
    {stack : CrLsdbLinkState}
    {table : LocalRouter}
    {events : List Event}
    {icm : Icm}
    (run : Run (ofPartial step) (boot clock stack table) events icm) :
    icm.AreasDistinct := by
  have booted : (boot clock stack table).AreasDistinct :=
    { azsNodup := List.nodup_nil
      zones := by simp [boot]
      areasUnique := by simp [boot] }
  have both := run.invariant
    (fun state => state.AdjacencyInv ∧ state.AreasDistinct)
    (fun held stepped => held.2.step held.1 stepped)
    ⟨(boot_fresh clock stack table).adjacencyInv, booted⟩
  exact both.2

/-- The mirror of an interface is of its type, and in its area. -/
def Represented (icm : Icm) (id : IfaceId) : Prop :=
  let face := icm.localrouter.iface id
  match face.type with
  | .backbone =>
      ∃ eth,
        icm.mirrorOf id = some (.backbone eth) ∧
          icm.areaIdOf eth = areaOf face.protoInfo
  | .access => ∃ eth, icm.mirrorOf id = some (.access eth)
  | .unknown => True

/-- A table leaves the type and the area of a mirrored interface as they are. -/
def SteadyAt (icm : Icm) (face : Rinterface) (id : IfaceId) : Prop :=
  match icm.mirrorOf id, face.type with
  | some (.backbone eth), .backbone => icm.areaIdOf eth = areaOf face.protoInfo
  | some (.backbone _), .access => False
  | some (.access _), .backbone => False
  | _, _ => True

/-- What one more mirrored interface leaves of the others. -/
structure Extends (before after : Icm) : Prop where
  iflist :
    after.localrouter.iflist = before.localrouter.iflist
  type :
    ∀ id,
      (after.localrouter.iface id).type =
        (before.localrouter.iface id).type
  protoInfo :
    ∀ id,
      (after.localrouter.iface id).protoInfo =
        (before.localrouter.iface id).protoInfo
  mirrors :
    ∀ id object,
      before.mirrorOf id = some object →
      after.mirrorOf id = some object
  areas :
    ∀ id eth,
      before.mirrorOf id = some (.backbone eth) →
      after.areaIdOf eth = before.areaIdOf eth

namespace Extends

theorem refl
    (icm : Icm) :
    Extends icm icm where
  iflist := rfl
  type := fun _ => rfl
  protoInfo := fun _ => rfl
  mirrors := fun _ _ mirrored => mirrored
  areas := fun _ _ _ => rfl

theorem trans
    {first second third : Icm}
    (earlier : Extends first second)
    (later : Extends second third) :
    Extends first third where
  iflist := later.iflist.trans earlier.iflist
  type := fun id => (later.type id).trans (earlier.type id)
  protoInfo := fun id => (later.protoInfo id).trans (earlier.protoInfo id)
  mirrors := fun id object mirrored =>
    later.mirrors id object (earlier.mirrors id object mirrored)
  areas := fun id eth mirrored =>
    (later.areas id eth (earlier.mirrors id _ mirrored)).trans
      (earlier.areas id eth mirrored)

variable {before after : Icm} (extension : Extends before after)
include extension

/-- A represented interface stays represented. -/
theorem represented
    {id : IfaceId}
    (represented : before.Represented id) :
    after.Represented id := by
  unfold Represented at represented ⊢
  dsimp only at represented ⊢
  rw [extension.type id, extension.protoInfo id]
  cases shape : (before.localrouter.iface id).type with
  | backbone =>
      rw [shape] at represented
      obtain ⟨eth, mirrored, inArea⟩ := represented
      exact ⟨eth, extension.mirrors id _ mirrored,
        (extension.areas id eth mirrored).trans inArea⟩
  | access =>
      rw [shape] at represented
      obtain ⟨eth, mirrored⟩ := represented
      exact ⟨eth, extension.mirrors id _ mirrored⟩
  | unknown =>
      trivial

/-- What is represented in the end was not changed on the way. -/
theorem steadyAt
    {id : IfaceId}
    (represented : after.Represented id) :
    before.SteadyAt (before.localrouter.iface id) id := by
  unfold Represented at represented
  dsimp only at represented
  rw [extension.type id, extension.protoInfo id] at represented
  unfold SteadyAt
  cases mirrored : before.mirrorOf id with
  | none =>
      trivial
  | some object =>
      have kept := extension.mirrors id object mirrored
      cases object with
      | backbone eth =>
          cases shape : (before.localrouter.iface id).type with
          | backbone =>
              rw [shape] at represented
              obtain ⟨other, otherMirrored, inArea⟩ := represented
              rw [kept] at otherMirrored
              cases otherMirrored
              exact (extension.areas id eth mirrored).symm.trans inArea
          | access =>
              rw [shape] at represented
              obtain ⟨other, otherMirrored⟩ := represented
              rw [kept] at otherMirrored
              cases otherMirrored
          | unknown =>
              trivial
      | access eth =>
          cases shape : (before.localrouter.iface id).type with
          | backbone =>
              rw [shape] at represented
              obtain ⟨other, otherMirrored, _⟩ := represented
              rw [kept] at otherMirrored
              cases otherMirrored
          | access =>
              trivial
          | unknown =>
              trivial

end Extends

/-- Remembering an object is a write of the pointer of one interface. -/
theorem mirrorOf_setVinterface
    (icm : Icm)
    (id : IfaceId)
    (object : VInterface) :
    (icm.setVinterface id object).mirrorOf =
      Function.update icm.mirrorOf id (some object) := by
  funext other
  by_cases isId : other = id
  · subst isId
    simp [mirrorOf, setVinterface]
  · simp [mirrorOf, setVinterface, isId]

section BackboneEthAdd

variable (icm : Icm) (zone : ZoneId) (eth : EthId)

/-- The list of the area gets the interface as its head. -/
theorem backboneEthAdd_backbones
    (other : ZoneId) :
    ((icm.backboneEthAdd zone eth).router.zone other).backbones =
      if other = zone then eth :: (icm.router.zone zone).backbones
      else (icm.router.zone other).backbones := by
  by_cases isZone : other = zone
  · subst isZone
    simp [backboneEthAdd, setEth]
  · simp [backboneEthAdd, setEth, isZone]

/-- The interface gets its area. -/
theorem backboneEthAdd_zoneOf
    (other : EthId) :
    (icm.backboneEthAdd zone eth).zoneOf other =
      if other = eth then zone else icm.zoneOf other := by
  by_cases isEth : other = eth
  · subst isEth
    simp [zoneOf, backboneEthAdd, setEth]
  · simp [zoneOf, backboneEthAdd, setEth, isEth]

theorem backboneEthAdd_interface
    (other : EthId) :
    ((icm.backboneEthAdd zone eth).router.eth other).interface =
      (icm.router.eth other).interface := by
  by_cases isEth : other = eth
  · subst isEth
    simp [backboneEthAdd, setEth]
  · simp [backboneEthAdd, setEth, isEth]

end BackboneEthAdd

namespace Placed

variable {icm : Icm}

/-- Only the lists, the objects and the remembered pointers count. -/
theorem congr
    {after : Icm}
    (placed : icm.Placed)
    (router : after.router = icm.router)
    (mirrors : after.mirrorOf = icm.mirrorOf)
    (zoneBrk : after.zoneBrk = icm.zoneBrk)
    (ethBrk : after.ethBrk = icm.ethBrk)
    (accessBrk : after.accessBrk = icm.accessBrk) :
    after.Placed := by
  have zoneOf : after.zoneOf = icm.zoneOf := by
    funext eth
    unfold Icm.zoneOf
    rw [router]
  constructor
  · refine placed.toAreasDistinct.congr ?_ ?_ zoneBrk
    · rw [router]
    · intro zone
      rw [router]
  · rw [router]
    exact placed.backbonesNodup
  · rw [router, mirrors, zoneOf]
    exact placed.backbones
  · rw [router, mirrors, zoneOf, ethBrk]
    exact placed.backboneMirrors
  · rw [router]
    exact placed.accessesNodup
  · rw [router, mirrors]
    exact placed.accesses
  · rw [router, mirrors, accessBrk]
    exact placed.accessMirrors

/-- A new description of an object that keeps its area and its interface. -/
theorem describe
    {eth : EthId}
    {link : BackboneEth}
    (placed : icm.Placed)
    (sameArea : link.az = (icm.router.eth eth).az)
    (sameInterface : link.interface = (icm.router.eth eth).interface) :
    (icm.setEth eth link).Placed := by
  have az :
      ∀ other,
        ((icm.setEth eth link).router.eth other).az =
          (icm.router.eth other).az := by
    intro other
    by_cases same : other = eth
    · subst same
      simpa [setEth] using sameArea
    · simp [setEth, same]
  have interface :
      ∀ other,
        ((icm.setEth eth link).router.eth other).interface =
          (icm.router.eth other).interface := by
    intro other
    by_cases same : other = eth
    · subst same
      simpa [setEth] using sameInterface
    · simp [setEth, same]
  refine { placed with backbones := ?_, backboneMirrors := ?_ }
  · intro zone member other listed
    have kept := placed.backbones zone member other listed
    unfold zoneOf at kept ⊢
    rw [az, interface]
    exact kept
  · intro id other mirrored
    have kept := placed.backboneMirrors id other mirrored
    unfold zoneOf at kept ⊢
    rw [az, interface]
    exact kept

/-- The description of an object that was just allocated. -/
theorem describeFresh
    (placed : icm.Placed)
    (link : BackboneEth) :
    ({ icm with ethBrk := icm.ethBrk + 1 }.setEth icm.ethBrk link).Placed := by
  have unlisted :
      ∀ zone ∈ icm.router.azs,
        ∀ eth ∈ (icm.router.zone zone).backbones, eth ≠ icm.ethBrk := by
    intro zone member eth listed
    have mirrored := (placed.backbones zone member eth listed).2
    exact (placed.backboneMirrors _ eth mirrored).1.ne
  refine { placed with backbones := ?_, backboneMirrors := ?_ }
  · intro zone member eth listed
    have kept := placed.backbones zone member eth listed
    have old := unlisted zone member eth listed
    simpa [zoneOf, setEth, mirrorOf, old] using kept
  · intro id eth mirrored
    obtain ⟨allocated, kept⟩ := placed.backboneMirrors id eth mirrored
    refine ⟨Nat.lt_succ_of_lt allocated, ?_⟩
    simpa [zoneOf, setEth, allocated.ne] using kept

/-- Finding or allocating an area. -/
theorem ensureZone
    (placed : icm.Placed)
    (areaId : UInt32) :
    (icm.ensureZone areaId).2.Placed := by
  have distinct := placed.toAreasDistinct.ensureZone areaId
  unfold Icm.ensureZone at distinct ⊢
  split
  · exact placed
  · next absent =>
      rw [absent] at distinct
      have old : ∀ zone ∈ icm.router.azs, zone ≠ icm.zoneBrk :=
        fun zone member => (placed.zones zone member).ne
      refine
        { placed with
          toAreasDistinct := distinct
          backbonesNodup := ?_
          backbones := ?_
          backboneMirrors := ?_ }
      · intro zone member
        rcases List.mem_cons.mp member with isNew | isOld
        · subst isNew
          simp
        · simpa [old zone isOld] using placed.backbonesNodup zone isOld
      · intro zone member eth listed
        rcases List.mem_cons.mp member with isNew | isOld
        · subst isNew
          simp at listed
        · simp only [Function.update_of_ne (old zone isOld)] at listed
          exact placed.backbones zone isOld eth listed
      · intro id eth mirrored
        obtain ⟨allocated, interface, home, listed⟩ :=
          placed.backboneMirrors id eth mirrored
        refine ⟨allocated, interface, List.mem_cons_of_mem _ home, ?_⟩
        have homeOld := old _ home
        change eth ∈
          (Function.update icm.router.zone icm.zoneBrk _
            (icm.zoneOf eth)).backbones
        rw [Function.update_of_ne homeOld]
        exact listed

/-- Remember a fresh object of an interface and list it in an area. -/
theorem list
    {eth : EthId}
    {id : IfaceId}
    {zone : ZoneId}
    (placed : icm.Placed)
    (allocated : eth < icm.ethBrk)
    (unmirrored : ∀ other, icm.mirrorOf other ≠ some (.backbone eth))
    (absent : icm.mirrorOf id = none)
    (interface : (icm.router.eth eth).interface = id)
    (member : zone ∈ icm.router.azs) :
    ((icm.setVinterface id (.backbone eth)).backboneEthAdd zone eth).Placed := by
  have unlisted :
      ∀ other ∈ icm.router.azs,
        eth ∉ (icm.router.zone other).backbones :=
    fun other otherMember listed =>
      unmirrored _ (placed.backbones other otherMember eth listed).2
  have mirrors :
      ∀ other,
        ((icm.setVinterface id (.backbone eth)).backboneEthAdd
            zone eth).mirrorOf other =
          if other = id then some (.backbone eth)
          else icm.mirrorOf other := by
    intro other
    change (icm.setVinterface id (.backbone eth)).mirrorOf other = _
    rw [mirrorOf_setVinterface, Function.update_apply]
  have lists :
      ∀ other,
        (((icm.setVinterface id (.backbone eth)).backboneEthAdd
            zone eth).router.zone other).backbones =
          if other = zone then eth :: (icm.router.zone zone).backbones
          else (icm.router.zone other).backbones :=
    backboneEthAdd_backbones _ zone eth
  have homes :
      ∀ other,
        ((icm.setVinterface id (.backbone eth)).backboneEthAdd
            zone eth).zoneOf other =
          if other = eth then zone else icm.zoneOf other :=
    backboneEthAdd_zoneOf _ zone eth
  have interfaces :
      ∀ other,
        (((icm.setVinterface id (.backbone eth)).backboneEthAdd
            zone eth).router.eth other).interface =
          (icm.router.eth other).interface :=
    backboneEthAdd_interface _ zone eth
  have notId :
      ∀ other object, icm.mirrorOf other = some object → other ≠ id := by
    intro other object mirrored isId
    rw [isId, absent] at mirrored
    cases mirrored
  refine
    { toAreasDistinct := ?_
      backbonesNodup := ?_
      backbones := ?_
      backboneMirrors := ?_
      accessesNodup := placed.accessesNodup
      accesses := ?_
      accessMirrors := ?_ }
  · have remembered :
        (icm.setVinterface id (.backbone eth)).AreasDistinct :=
      placed.toAreasDistinct.congr rfl (fun _ => rfl) rfl
    exact remembered.backboneEthAdd zone eth
  · intro other otherMember
    rw [lists]
    by_cases isZone : other = zone
    · rw [if_pos isZone]
      exact List.nodup_cons.mpr
        ⟨unlisted zone member, placed.backbonesNodup zone member⟩
    · rw [if_neg isZone]
      exact placed.backbonesNodup other otherMember
  · intro other otherMember link listed
    have isNewOrOld :
        (other = zone ∧ link = eth) ∨
          link ∈ (icm.router.zone other).backbones := by
      rw [lists] at listed
      by_cases isZone : other = zone
      · rw [if_pos isZone] at listed
        rcases List.mem_cons.mp listed with isNew | isOld
        · exact .inl ⟨isZone, isNew⟩
        · rw [← isZone] at isOld
          exact .inr isOld
      · rw [if_neg isZone] at listed
        exact .inr listed
    rcases isNewOrOld with ⟨rfl, rfl⟩ | isOld
    · rw [homes, interfaces, mirrors, if_pos rfl, interface, if_pos rfl]
      exact ⟨rfl, rfl⟩
    · obtain ⟨home, mirrored⟩ :=
        placed.backbones other otherMember link isOld
      have notEth : link ≠ eth := by
        rintro rfl
        exact unlisted other otherMember isOld
      rw [homes, interfaces, mirrors, if_neg notEth,
        if_neg (notId _ _ mirrored)]
      exact ⟨home, mirrored⟩
  · intro other link mirrored
    rw [mirrors] at mirrored
    rw [homes, interfaces, lists]
    by_cases isId : other = id
    · rw [if_pos isId] at mirrored
      cases mirrored
      rw [if_pos rfl, if_pos rfl, isId]
      exact ⟨allocated, interface, member, List.mem_cons_self⟩
    · rw [if_neg isId] at mirrored
      obtain ⟨linkAllocated, linkInterface, home, listed⟩ :=
        placed.backboneMirrors other link mirrored
      have notEth : link ≠ eth := by
        rintro rfl
        exact unmirrored other mirrored
      rw [if_neg notEth]
      refine ⟨linkAllocated, linkInterface, home, ?_⟩
      by_cases isZone : icm.zoneOf link = zone
      · rw [if_pos isZone, ← isZone]
        exact List.mem_cons_of_mem _ listed
      · rw [if_neg isZone]
        exact listed
  · intro link listed
    have mirrored := placed.accesses link listed
    change Icm.mirrorOf _ (icm.router.access link).interface = _
    rw [mirrors, if_neg (notId _ _ mirrored)]
    exact mirrored
  · intro other link mirrored
    rw [mirrors] at mirrored
    by_cases isId : other = id
    · rw [if_pos isId] at mirrored
      cases mirrored
    · rw [if_neg isId] at mirrored
      exact placed.accessMirrors other link mirrored

/-- A new description of an access object that keeps its interface. -/
theorem describeAccess
    {eth : AccessId}
    {link : AccessEth}
    (placed : icm.Placed)
    (sameInterface : link.interface = (icm.router.access eth).interface) :
    (icm.setAccess eth link).Placed := by
  have interface :
      ∀ other,
        ((icm.setAccess eth link).router.access other).interface =
          (icm.router.access other).interface := by
    intro other
    by_cases same : other = eth
    · subst same
      simpa [setAccess] using sameInterface
    · simp [setAccess, same]
  refine { placed with accesses := ?_, accessMirrors := ?_ }
  · intro other listed
    rw [interface]
    exact placed.accesses other listed
  · intro id other mirrored
    rw [interface]
    exact placed.accessMirrors id other mirrored

/-- Remember a fresh access object of an interface and list it. -/
theorem listAccess
    {id : IfaceId}
    {link : AccessEth}
    (placed : icm.Placed)
    (absent : icm.mirrorOf id = none)
    (interface : link.interface = id) :
    (({ icm with
        accessBrk := icm.accessBrk + 1
        router :=
          { icm.router with
            accesses := icm.accessBrk :: icm.router.accesses } }.setAccess
      icm.accessBrk link).setVinterface id (.access icm.accessBrk)).Placed := by
  have old : ∀ eth ∈ icm.router.accesses, eth ≠ icm.accessBrk := by
    intro eth listed
    exact (placed.accessMirrors _ eth (placed.accesses eth listed)).1.ne
  have notId :
      ∀ other object, icm.mirrorOf other = some object → other ≠ id := by
    intro other object mirrored isId
    rw [isId, absent] at mirrored
    cases mirrored
  refine
    { placed with
      backbones := ?_
      backboneMirrors := ?_
      accessesNodup := ?_
      accesses := ?_
      accessMirrors := ?_ }
  · intro zone member eth listed
    obtain ⟨home, mirrored⟩ := placed.backbones zone member eth listed
    refine ⟨home, ?_⟩
    simpa [mirrorOf, setVinterface, setAccess, notId _ _ mirrored] using mirrored
  · intro other eth mirrored
    by_cases isId : other = id
    · subst isId
      simp [mirrorOf, setVinterface, setAccess] at mirrored
    · refine placed.backboneMirrors other eth ?_
      simpa [mirrorOf, setVinterface, setAccess, isId] using mirrored
  · exact List.nodup_cons.mpr
      ⟨fun listed => old _ listed rfl, placed.accessesNodup⟩
  · intro eth listed
    rcases List.mem_cons.mp listed with isNew | isOld
    · subst isNew
      simp [mirrorOf, setVinterface, setAccess, interface]
    · have mirrored := placed.accesses eth isOld
      simpa [mirrorOf, setVinterface, setAccess, old eth isOld,
        notId _ _ mirrored] using mirrored
  · intro other eth mirrored
    by_cases isId : other = id
    · subst isId
      have isFresh : icm.accessBrk = eth := by
        simpa [mirrorOf, setVinterface, setAccess] using mirrored
      subst isFresh
      refine ⟨Nat.lt_succ_self _, ?_, List.mem_cons_self⟩
      simp [setVinterface, setAccess, interface]
    · have oldMirrored : icm.mirrorOf other = some (.access eth) := by
        simpa [mirrorOf, setVinterface, setAccess, isId] using mirrored
      obtain ⟨allocated, oldInterface, listed⟩ :=
        placed.accessMirrors other eth oldMirrored
      refine ⟨Nat.lt_succ_of_lt allocated, ?_, List.mem_cons_of_mem _ listed⟩
      simpa [setVinterface, setAccess, allocated.ne] using oldInterface

end Placed

namespace Extends

variable {icm : Icm}

/-- A description that keeps the areas of the mirrored objects. -/
theorem setEth
    {eth : EthId}
    {link : BackboneEth}
    (sameArea :
      ∀ id,
        icm.mirrorOf id = some (.backbone eth) →
        link.az = (icm.router.eth eth).az) :
    Extends icm (icm.setEth eth link) :=
  { refl icm with
    mirrors := fun _ _ mirrored => mirrored
    areas := by
      intro id other mirrored
      by_cases same : other = eth
      · subst same
        simp [areaIdOf, zoneOf, Icm.setEth, sameArea id mirrored]
      · simp [areaIdOf, zoneOf, Icm.setEth, same] }

/-- Finding or allocating an area. -/
theorem ensureZone
    (placed : icm.Placed)
    (areaId : UInt32) :
    Extends icm (icm.ensureZone areaId).2 := by
  unfold Icm.ensureZone
  split
  · exact refl icm
  · refine
      { refl icm with
        mirrors := fun _ _ mirrored => mirrored
        areas := ?_ }
    intro id eth mirrored
    obtain ⟨-, -, home, -⟩ := placed.backboneMirrors id eth mirrored
    have old : icm.zoneOf eth ≠ icm.zoneBrk := (placed.zones _ home).ne
    change
      (Function.update icm.router.zone icm.zoneBrk _ (icm.zoneOf eth)).azId = _
    rw [Function.update_of_ne old]
    rfl

/-- Remembering an object overwrites no other. -/
theorem setVinterface
    {id : IfaceId}
    {object : VInterface}
    (free : ∀ other, icm.mirrorOf id = some other → other = object) :
    Extends icm (icm.setVinterface id object) where
  iflist := rfl
  type := by
    intro other
    by_cases isId : other = id
    · subst isId
      simp [Icm.setVinterface]
    · simp [Icm.setVinterface, isId]
  protoInfo := by
    intro other
    by_cases isId : other = id
    · subst isId
      simp [Icm.setVinterface]
    · simp [Icm.setVinterface, isId]
  mirrors := by
    intro other stored mirrored
    by_cases isId : other = id
    · subst isId
      simp [mirrorOf, Icm.setVinterface, free stored mirrored]
    · simpa [mirrorOf, Icm.setVinterface, isId] using mirrored
  areas := fun _ _ _ => rfl

/-- Listing an object moves no other one. -/
theorem backboneEthAdd
    {zone : ZoneId}
    {eth : EthId}
    (sameArea :
      ∀ id,
        icm.mirrorOf id = some (.backbone eth) →
        icm.zoneOf eth = zone) :
    Extends icm (icm.backboneEthAdd zone eth) :=
  { refl icm with
    mirrors := fun _ _ mirrored => mirrored
    areas := by
      intro id other mirrored
      have home :
          (icm.backboneEthAdd zone eth).zoneOf other = icm.zoneOf other := by
        by_cases same : other = eth
        · subst same
          rw [sameArea id mirrored]
          simp [zoneOf, Icm.backboneEthAdd, Icm.setEth]
        · simp [zoneOf, Icm.backboneEthAdd, Icm.setEth, same]
      unfold areaIdOf
      rw [home]
      by_cases isZone : icm.zoneOf other = zone
      · simp [Icm.backboneEthAdd, Icm.setEth, isZone]
      · simp [Icm.backboneEthAdd, Icm.setEth, isZone] }

end Extends

/-- The area that was found or allocated is listed and has the id asked for. -/
theorem ensureZone_area
    (icm : Icm)
    (areaId : UInt32) :
    (icm.ensureZone areaId).1 ∈ (icm.ensureZone areaId).2.router.azs ∧
      ((icm.ensureZone areaId).2.router.zone
        (icm.ensureZone areaId).1).azId = areaId := by
  unfold ensureZone
  split
  · next zone found =>
      refine ⟨List.mem_of_find?_eq_some found, ?_⟩
      simpa using List.find?_some found
  · exact ⟨List.mem_cons_self, by simp⟩

/-- The allocation of an area leaves the interface objects alone. -/
theorem ensureZone_eth
    (icm : Icm)
    (areaId : UInt32) :
    (icm.ensureZone areaId).2.router.eth = icm.router.eth := by
  unfold ensureZone
  split <;> rfl

/-- Remembering the object that is remembered already. -/
theorem Placed.setVinterface
    {icm : Icm}
    {id : IfaceId}
    {object : VInterface}
    (placed : icm.Placed)
    (mirrored : icm.mirrorOf id = some object) :
    (icm.setVinterface id object).Placed := by
  refine placed.congr rfl ?_ rfl rfl rfl
  rw [mirrorOf_setVinterface, ← mirrored, Function.update_eq_self]

/-- What `lsd_iflist_init` did to one interface. -/
structure Mirrored (before : Icm) (id : IfaceId) (after : Icm) : Prop where
  placed : after.Placed
  extension : Extends before after
  others :
    ∀ other,
      other ≠ id →
      after.mirrorOf other = before.mirrorOf other
  represented :
    before.SteadyAt (before.localrouter.iface id) id →
    after.Represented id

/-- `eth_state_update` changes no object. -/
theorem Mirrored.ethStateUpdate
    {before after : Icm}
    {id : IfaceId}
    (mirrored : Mirrored before id after)
    (arg : ThreadArg)
    (state : EthState) :
    Mirrored before id (after.ethStateUpdate arg state) := by
  cases state with
  | up =>
      exact
        { placed := mirrored.placed.congr rfl rfl rfl rfl rfl
          extension := { mirrored.extension with }
          others := mirrored.others
          represented := mirrored.represented }
  | down =>
      exact
        { placed := mirrored.placed.congr rfl rfl rfl rfl rfl
          extension := { mirrored.extension with }
          others := mirrored.others
          represented := mirrored.represented }

section InitInterface

variable {icm : Icm} {id : IfaceId} (placed : icm.Placed)
include placed

/-- A backbone interface that has an object. -/
theorem mirrored_reusedBackbone
    {eth : EthId}
    (isBackbone : (icm.localrouter.iface id).type = .backbone)
    (mirrored : icm.mirrorOf id = some (.backbone eth)) :
    let face := icm.localrouter.iface id
    Mirrored icm id
      (((icm.setEth eth (describeBackbone face id
          (icm.router.eth eth))).ensureZone
        (areaOf face.protoInfo)).2.setVinterface id (.backbone eth)) := by
  intro face
  obtain ⟨-, interface, -, -⟩ := placed.backboneMirrors id eth mirrored
  have described :
      (icm.setEth eth
        (describeBackbone face id (icm.router.eth eth))).Placed :=
    placed.describe rfl interface.symm
  have described_extends :
      Extends icm
        (icm.setEth eth (describeBackbone face id (icm.router.eth eth))) :=
    Extends.setEth fun _ _ => rfl
  have ensured := described.ensureZone (areaOf face.protoInfo)
  have ensured_extends :=
    described_extends.trans
      (Extends.ensureZone described (areaOf face.protoInfo))
  have stillMirrored := ensured_extends.mirrors id _ mirrored
  have extension :=
    ensured_extends.trans
      (Extends.setVinterface
        fun other remembered =>
          Option.some.inj (remembered.symm.trans stillMirrored))
  refine
    { placed := ensured.setVinterface stillMirrored
      extension := extension
      others := ?_
      represented := ?_ }
  · intro other isOther
    rw [mirrorOf_setVinterface, Function.update_of_ne isOther]
    unfold mirrorOf
    rw [ensureZone_localrouter]
    rfl
  intro steady
  unfold SteadyAt at steady
  rw [mirrored, isBackbone] at steady
  refine extension.represented ?_
  unfold Represented
  dsimp only
  rw [isBackbone]
  exact ⟨eth, mirrored, steady⟩

omit placed in
/-- Find the area of a fresh object, remember the object and list it there. -/
theorem mirrored_listed
    {described : Icm}
    {eth : EthId}
    (isBackbone : (icm.localrouter.iface id).type = .backbone)
    (describedPlaced : described.Placed)
    (extension : Extends icm described)
    (describedMirrors : described.mirrorOf = icm.mirrorOf)
    (allocated : eth < described.ethBrk)
    (unmirrored : ∀ other, described.mirrorOf other ≠ some (.backbone eth))
    (absent : described.mirrorOf id = none)
    (interface : (described.router.eth eth).interface = id) :
    let ensured :=
      described.ensureZone (areaOf (icm.localrouter.iface id).protoInfo)
    Mirrored icm id
      ((ensured.2.setVinterface id (.backbone eth)).backboneEthAdd
        ensured.1 eth) := by
  intro ensured
  obtain ⟨member, sameArea⟩ :=
    ensureZone_area described (areaOf (icm.localrouter.iface id).protoInfo)
  have sameMirrors : ensured.2.mirrorOf = described.mirrorOf := by
    funext other
    unfold mirrorOf
    rw [ensureZone_localrouter]
  have ensuredExtends :=
    extension.trans (Extends.ensureZone describedPlaced
      (areaOf (icm.localrouter.iface id).protoInfo))
  have listedExtends : Extends ensured.2 (ensured.2.backboneEthAdd ensured.1 eth) := by
    apply Extends.backboneEthAdd
    intro other mirrored
    rw [sameMirrors] at mirrored
    exact absurd mirrored (unmirrored other)
  -- The two writes touch different records, so they may be swapped.
  have swapped :
      Extends (ensured.2.backboneEthAdd ensured.1 eth)
        ((ensured.2.setVinterface id (.backbone eth)).backboneEthAdd
          ensured.1 eth) := by
    apply Extends.setVinterface
    intro other mirrored
    change ensured.2.mirrorOf id = some other at mirrored
    rw [sameMirrors, absent] at mirrored
    cases mirrored
  have whole := ensuredExtends.trans (listedExtends.trans swapped)
  refine
    { placed := ?_
      extension := whole
      others := ?_
      represented := ?_ }
  · refine (describedPlaced.ensureZone _).list ?_ ?_ ?_ ?_ member
    · rw [ensureZone_ethBrk]
      exact allocated
    · intro other
      rw [show Icm.mirrorOf _ = described.mirrorOf from sameMirrors]
      exact unmirrored other
    · rw [show Icm.mirrorOf _ = described.mirrorOf from sameMirrors]
      exact absent
    · rw [ensureZone_eth]
      exact interface
  · intro other isOther
    change (ensured.2.setVinterface id (.backbone eth)).mirrorOf other = _
    rw [mirrorOf_setVinterface, Function.update_of_ne isOther, sameMirrors,
      describedMirrors]
  · intro _
    unfold Represented
    dsimp only
    rw [whole.type id, whole.protoInfo id, isBackbone]
    refine ⟨eth, ?_, ?_⟩
    · simp [mirrorOf, backboneEthAdd, setVinterface, setEth]
    · rw [← sameArea]
      simp [areaIdOf, zoneOf, backboneEthAdd, setVinterface, setEth, ensured]

/-- A backbone interface that is seen for the first time. -/
theorem mirrored_newBackbone
    (isBackbone : (icm.localrouter.iface id).type = .backbone)
    (absent : icm.mirrorOf id = none) :
    let face := icm.localrouter.iface id
    let ensured :=
      ({ icm with ethBrk := icm.ethBrk + 1 }.setEth icm.ethBrk
        (describeBackbone face id zeroEth)).ensureZone (areaOf face.protoInfo)
    Mirrored icm id
      ((ensured.2.setVinterface id (.backbone icm.ethBrk)).backboneEthAdd
        ensured.1 icm.ethBrk) := by
  intro face
  have unmirrored :
      ∀ other, icm.mirrorOf other ≠ some (.backbone icm.ethBrk) :=
    fun other mirrored =>
      (placed.backboneMirrors other icm.ethBrk mirrored).1.false
  have extension :
      Extends icm
        ({ icm with ethBrk := icm.ethBrk + 1 }.setEth icm.ethBrk
          (describeBackbone face id zeroEth)) :=
    { Extends.setEth
        (fun other mirrored => absurd mirrored (unmirrored other)) with }
  refine mirrored_listed isBackbone (placed.describeFresh _) extension rfl
    (Nat.lt_succ_self _) unmirrored absent ?_
  simp [setEth, describeBackbone]

/-- An access interface that has an object. -/
theorem mirrored_reusedAccess
    {eth : AccessId}
    {link : AccessEth}
    (isAccess : (icm.localrouter.iface id).type = .access)
    (mirrored : icm.mirrorOf id = some (.access eth))
    (interface : link.interface = id) :
    Mirrored icm id
      ((icm.setAccess eth link).setVinterface id (.access eth)) := by
  obtain ⟨-, oldInterface, -⟩ := placed.accessMirrors id eth mirrored
  have described : (icm.setAccess eth link).Placed :=
    placed.describeAccess (interface.trans oldInterface.symm)
  have extension :
      Extends icm ((icm.setAccess eth link).setVinterface id (.access eth)) :=
    { Extends.setVinterface
        (fun other remembered =>
          Option.some.inj (remembered.symm.trans mirrored)) with }
  refine
    { placed := described.setVinterface mirrored
      extension := extension
      others := ?_
      represented := ?_ }
  · intro other isOther
    rw [mirrorOf_setVinterface, Function.update_of_ne isOther]
    rfl
  intro _
  refine extension.represented ?_
  unfold Represented
  dsimp only
  rw [isAccess]
  exact ⟨eth, mirrored⟩

/-- An access interface that is seen for the first time. -/
theorem mirrored_newAccess
    {link : AccessEth}
    (isAccess : (icm.localrouter.iface id).type = .access)
    (absent : icm.mirrorOf id = none)
    (interface : link.interface = id) :
    Mirrored icm id
      (({ icm with
          accessBrk := icm.accessBrk + 1
          router :=
            { icm.router with
              accesses := icm.accessBrk :: icm.router.accesses } }.setAccess
        icm.accessBrk link).setVinterface id (.access icm.accessBrk)) := by
  have extension :
      Extends icm
        (({ icm with
            accessBrk := icm.accessBrk + 1
            router :=
              { icm.router with
                accesses := icm.accessBrk :: icm.router.accesses } }.setAccess
          icm.accessBrk link).setVinterface id (.access icm.accessBrk)) := by
    have remembered :
        Extends icm (icm.setVinterface id (.access icm.accessBrk)) := by
      apply Extends.setVinterface
      intro other mirrored
      rw [absent] at mirrored
      cases mirrored
    exact { remembered with }
  refine
    { placed := placed.listAccess absent interface
      extension := extension
      others := ?_
      represented := ?_ }
  · intro other isOther
    rw [mirrorOf_setVinterface, Function.update_of_ne isOther]
    rfl
  intro _
  unfold Represented
  dsimp only
  rw [extension.type id, isAccess]
  exact ⟨icm.accessBrk, by simp [mirrorOf, setVinterface]⟩

/--
One interface of `lsd_iflist_init`: it goes wrong only when the interface has
an object of another type.
-/
theorem yields_mirrored
    (id : IfaceId) :
    Yields
      (fun _ => ¬icm.SteadyAt (icm.localrouter.iface id) id)
      (Mirrored icm id)
      (icm.initInterface id) := by
  unfold Icm.initInterface
  split
  · next isBackbone =>
      unfold initBackbone
      dsimp only
      split
      · next eth mirrored =>
          intro steady
          change icm.mirrorOf id = some (.access eth) at mirrored
          unfold SteadyAt at steady
          rw [mirrored, isBackbone] at steady
          exact steady
      · next eth mirrored =>
          exact (mirrored_reusedBackbone placed isBackbone mirrored).ethStateUpdate _ _
      · next absent =>
          exact (mirrored_newBackbone placed isBackbone absent).ethStateUpdate _ _
  · next isAccess =>
      unfold initAccess
      dsimp only
      split
      · next eth mirrored =>
          intro steady
          change icm.mirrorOf id = some (.backbone eth) at mirrored
          unfold SteadyAt at steady
          rw [mirrored, isAccess] at steady
          exact steady
      · next eth mirrored =>
          exact (mirrored_reusedAccess placed isAccess mirrored rfl).ethStateUpdate _ _
      · next absent =>
          exact (mirrored_newAccess placed isAccess absent rfl).ethStateUpdate _ _
  · next isUnknown =>
      refine
        { placed := placed
          extension := .refl icm
          others := fun _ _ => rfl
          represented := ?_ }
      intro _
      unfold Represented
      dsimp only
      rw [isUnknown]
      trivial

end InitInterface

/-- Mirroring one interface leaves the others as steady as they were. -/
theorem Mirrored.steadyAt
    {before after : Icm}
    {id other : IfaceId}
    (mirrored : Mirrored before id after)
    (steady : before.SteadyAt (before.localrouter.iface id) id)
    (otherSteady : before.SteadyAt (before.localrouter.iface other) other) :
    after.SteadyAt (after.localrouter.iface other) other := by
  by_cases isOther : other = id
  · subst isOther
    exact (Extends.refl after).steadyAt (mirrored.represented steady)
  · have sameMirror := mirrored.others other isOther
    unfold SteadyAt at otherSteady ⊢
    rw [sameMirror, mirrored.extension.type other,
      mirrored.extension.protoInfo other]
    cases object : before.mirrorOf other with
    | none =>
        trivial
    | some object' =>
        rw [object] at otherSteady
        cases object' with
        | backbone eth =>
            have sameArea := mirrored.extension.areas other eth object
            cases shape : (before.localrouter.iface other).type with
            | backbone =>
                rw [shape] at otherSteady
                exact sameArea.trans otherSteady
            | access =>
                rw [shape] at otherSteady
                exact otherSteady
            | unknown =>
                trivial
        | access eth =>
            cases shape : (before.localrouter.iface other).type with
            | backbone =>
                rw [shape] at otherSteady
                exact otherSteady
            | access =>
                trivial
            | unknown =>
                trivial

/-- The loop of `lsd_iflist_init` keeps the lists sound. -/
theorem Placed.loop
    {before after : Icm}
    {ids : List IfaceId}
    (placed : before.Placed)
    (returned :
      ids.foldlM (fun (current : Icm) id => current.initInterface id) before =
        .ok after) :
    after.Placed ∧ Extends before after := by
  have run := run_of_foldlM returned
  clear returned
  induction run with
  | nil state =>
      exact ⟨placed, .refl state⟩
  | cons first rest inductionHypothesis =>
      have mirrored := (yields_mirrored placed _).of_ok first
      obtain ⟨lastPlaced, lastExtends⟩ := inductionHypothesis mirrored.placed
      exact ⟨lastPlaced, mirrored.extension.trans lastExtends⟩

/-- On a steady table the loop of `lsd_iflist_init` returns and represents every interface. -/
theorem Placed.loop_returns
    {before : Icm}
    {ids : List IfaceId}
    (placed : before.Placed)
    (steady :
      ∀ id ∈ ids, before.SteadyAt (before.localrouter.iface id) id) :
    ∃ after,
      ids.foldlM (fun (current : Icm) id => current.initInterface id) before =
          .ok after ∧
        ∀ id ∈ ids, after.Represented id := by
  induction ids generalizing before with
  | nil =>
      refine ⟨before, rfl, ?_⟩
      intro id member
      cases member
  | cons id rest inductionHypothesis =>
      have headSteady := steady id List.mem_cons_self
      have yields := yields_mirrored placed id
      cases first : before.initInterface id with
      | error fault =>
          exact absurd headSteady (yields.of_error first)
      | ok middle =>
          have mirrored := yields.of_ok first
          have restSteady :
              ∀ other ∈ rest,
                middle.SteadyAt (middle.localrouter.iface other) other :=
            fun other member =>
              mirrored.steadyAt headSteady
                (steady other (List.mem_cons_of_mem _ member))
          obtain ⟨after, returned, represented⟩ :=
            inductionHypothesis mirrored.placed restSteady
          refine ⟨after, ?_, ?_⟩
          · rw [List.foldlM_cons, first]
            exact returned
          · intro other member
            rcases List.mem_cons.mp member with isHead | inRest
            · subst isHead
              exact (mirrored.placed.loop returned).2.represented
                (mirrored.represented headSteady)
            · exact represented other inRest

/--
A refresh of the interface table, as `update_interface_from_snmp` makes it,
and `lsd_iflist_init` after it.  A refresh leaves the router initialised.
-/
def refresh (icm : Icm) (table : LocalRouter) : Except Fault Icm :=
  (icm.refreshInterfaces { table with inited := true }).lsdIflistInit

/--
The interface list is consistent: every backbone interface has one object in
the list of the area it is in now, every access interface has one object in the
list of access interfaces, and no interface has both.
-/
structure Consistent (icm : Icm) : Prop where
  backbones :
    ∀ id ∈ icm.localrouter.iflist,
      (icm.localrouter.iface id).type = .backbone →
      ∃ eth,
        ∃ zone ∈ icm.router.azs,
          icm.mirrorOf id = some (.backbone eth) ∧
            (icm.router.eth eth).interface = id ∧
            (icm.router.zone zone).backbones.count eth = 1 ∧
            (icm.router.eth eth).az = zone ∧
            (icm.router.zone zone).azId =
              areaOf (icm.localrouter.iface id).protoInfo ∧
            ∀ other ∈ icm.router.azs,
              ∀ link ∈ (icm.router.zone other).backbones,
                (icm.router.eth link).interface = id →
                link = eth ∧ other = zone
  accesses :
    ∀ id ∈ icm.localrouter.iflist,
      (icm.localrouter.iface id).type = .access →
      ∃ eth,
        icm.mirrorOf id = some (.access eth) ∧
          (icm.router.access eth).interface = id ∧
          icm.router.accesses.count eth = 1 ∧
          ∀ link ∈ icm.router.accesses,
            (icm.router.access link).interface = id →
            link = eth
  notBoth :
    ∀ zone ∈ icm.router.azs,
      ∀ eth ∈ (icm.router.zone zone).backbones,
        ∀ link ∈ icm.router.accesses,
          (icm.router.eth eth).interface ≠
            (icm.router.access link).interface
  zonesOnce :
    icm.router.azs.Nodup

/-- With sound lists, consistency is that every interface is represented. -/
theorem Placed.consistent_iff
    {icm : Icm}
    (placed : icm.Placed) :
    icm.Consistent ↔
      ∀ id ∈ icm.localrouter.iflist, icm.Represented id := by
  constructor
  · intro consistent id member
    unfold Represented
    dsimp only
    cases shape : (icm.localrouter.iface id).type with
    | backbone =>
        obtain ⟨eth, zone, -, mirrored, -, -, home, area, -⟩ :=
          consistent.backbones id member shape
        refine ⟨eth, mirrored, ?_⟩
        unfold areaIdOf zoneOf
        rw [home]
        exact area
    | access =>
        obtain ⟨eth, mirrored, -⟩ := consistent.accesses id member shape
        exact ⟨eth, mirrored⟩
    | unknown =>
        trivial
  · intro represented
    refine
      { backbones := ?_
        accesses := ?_
        notBoth := ?_
        zonesOnce := placed.azsNodup }
    · intro id member isBackbone
      have shape := represented id member
      unfold Represented at shape
      dsimp only at shape
      rw [isBackbone] at shape
      obtain ⟨eth, mirrored, area⟩ := shape
      obtain ⟨-, interface, home, listed⟩ :=
        placed.backboneMirrors id eth mirrored
      refine ⟨eth, icm.zoneOf eth, home, mirrored, interface, ?_, rfl, area, ?_⟩
      · exact List.count_eq_one_of_mem
          (placed.backbonesNodup _ home) listed
      · intro other otherMember link linkListed linkInterface
        obtain ⟨linkHome, linkMirrored⟩ :=
          placed.backbones other otherMember link linkListed
        rw [linkInterface, mirrored] at linkMirrored
        cases linkMirrored
        exact ⟨rfl, linkHome.symm⟩
    · intro id member isAccess
      have shape := represented id member
      unfold Represented at shape
      dsimp only at shape
      rw [isAccess] at shape
      obtain ⟨eth, mirrored⟩ := shape
      obtain ⟨-, interface, listed⟩ := placed.accessMirrors id eth mirrored
      refine ⟨eth, mirrored, interface, ?_, ?_⟩
      · exact List.count_eq_one_of_mem placed.accessesNodup listed
      · intro link linkListed linkInterface
        have linkMirrored := placed.accesses link linkListed
        rw [linkInterface, mirrored] at linkMirrored
        cases linkMirrored
        rfl
    · intro zone member eth listed link linkListed sameInterface
      have mirrored := (placed.backbones zone member eth listed).2
      have linkMirrored := placed.accesses link linkListed
      rw [← sameInterface, mirrored] at linkMirrored
      cases linkMirrored

/--
A table is steady when it changes neither the type nor the area of an interface
that has an object.
-/
def Steady (icm : Icm) (table : LocalRouter) : Prop :=
  ∀ id ∈ table.iflist, icm.SteadyAt (table.iface id) id

/-- Every refresh in turn returns and leaves a consistent interface list. -/
def AlwaysConsistent : Icm → List LocalRouter → Prop
  | _, [] => True
  | icm, table :: rest =>
      ∃ after,
        icm.refresh table = .ok after ∧
          after.Consistent ∧ AlwaysConsistent after rest

/-- Every table in turn is steady where it arrives. -/
def AlwaysSteady : Icm → List LocalRouter → Prop
  | _, [] => True
  | icm, table :: rest =>
      icm.Steady table ∧
        ∀ after, icm.refresh table = .ok after → AlwaysSteady after rest

/-- A refresh is followed by a consistent interface list exactly when it is steady. -/
theorem Placed.refresh_iff
    {icm : Icm}
    (placed : icm.Placed)
    (table : LocalRouter) :
    (∃ after, icm.refresh table = .ok after ∧ after.Consistent) ↔
      icm.Steady table := by
  have refreshed :
      (icm.refreshInterfaces { table with inited := true }).Placed :=
    placed.congr rfl rfl rfl rfl rfl
  constructor
  · rintro ⟨after, returned, consistent⟩ id member
    obtain ⟨lastPlaced, extension⟩ := refreshed.loop returned
    have listed : id ∈ after.localrouter.iflist := by
      rw [extension.iflist]
      exact member
    exact extension.steadyAt (lastPlaced.consistent_iff.mp consistent id listed)
  · intro steady
    obtain ⟨after, returned, represented⟩ := refreshed.loop_returns steady
    obtain ⟨lastPlaced, extension⟩ := refreshed.loop returned
    refine ⟨after, returned, lastPlaced.consistent_iff.mpr ?_⟩
    intro id member
    rw [extension.iflist] at member
    exact represented id member

/-- A refresh keeps the lists sound. -/
theorem Placed.refresh
    {icm after : Icm}
    {table : LocalRouter}
    (placed : icm.Placed)
    (returned : icm.refresh table = .ok after) :
    after.Placed := by
  have refreshed :
      (icm.refreshInterfaces { table with inited := true }).Placed :=
    placed.congr rfl rfl rfl rfl rfl
  exact (refreshed.loop returned).1

/-- The global `localrouter` before the first refresh. -/
def uninitedRouter : LocalRouter where
  routerid := 0
  agentid := 0
  inited := false
  iflist := []
  iface := fun _ =>
    { type := .access
      opState := .down
      ctlId := 0
      protoInfo := ⟨0, 0, 0⟩
      neighbor := none
      vinterface := none
      addresses := [] }

/-- A daemon that mirrored nothing yet has sound lists. -/
theorem boot_placed
    (clock : Nat → Timeval)
    (stack : CrLsdbLinkState) :
    (boot clock stack uninitedRouter).Placed where
  azsNodup := List.nodup_nil
  zones := by simp [boot]
  areasUnique := by simp [boot]
  backbonesNodup := by simp [boot]
  backbones := by simp [boot]
  backboneMirrors := by simp [mirrorOf, boot, uninitedRouter]
  accessesNodup := List.nodup_nil
  accesses := by simp [boot]
  accessMirrors := by simp [mirrorOf, boot, uninitedRouter]

/-- From sound lists, every run of refreshes is consistent exactly when it is steady. -/
theorem Placed.alwaysConsistent_iff
    {icm : Icm}
    (placed : icm.Placed)
    (tables : List LocalRouter) :
    icm.AlwaysConsistent tables ↔ icm.AlwaysSteady tables := by
  induction tables generalizing icm with
  | nil =>
      exact Iff.rfl
  | cons table rest inductionHypothesis =>
      constructor
      · rintro ⟨after, returned, consistent, later⟩
        refine ⟨(placed.refresh_iff table).mp ⟨after, returned, consistent⟩, ?_⟩
        intro other otherReturned
        rw [returned] at otherReturned
        cases otherReturned
        exact (inductionHypothesis (placed.refresh returned)).mp later
      · rintro ⟨steady, later⟩
        obtain ⟨after, returned, consistent⟩ :=
          (placed.refresh_iff table).mpr steady
        exact ⟨after, returned, consistent,
          (inductionHypothesis (placed.refresh returned)).mpr
            (later after returned)⟩

/--
The interface list is consistent after every refresh of a run exactly when no
refresh changes the area or the type of an interface that has an object.
-/
theorem interface_list_consistent_iff
    (clock : Nat → Timeval)
    (stack : CrLsdbLinkState)
    (tables : List LocalRouter) :
    (boot clock stack uninitedRouter).AlwaysConsistent tables ↔
      (boot clock stack uninitedRouter).AlwaysSteady tables :=
  (boot_placed clock stack).alwaysConsistent_iff tables

/-- The one-link table after its interface was moved to another area. -/
def movedLinkTable (areaid : UInt32) : LocalRouter :=
  { oneLinkTable 1 2 3 with
    iface := fun id =>
      { (oneLinkTable 1 2 3).iface id with
        protoInfo := ⟨routerOspf, areaid, 10⟩ } }

/-- The object of an interface that moves from area 0 to area 1 stays in area 0. -/
theorem moved_interface_inconsistent :
    ¬(boot (fun _ => ⟨0, 0⟩) (lsaToLsdbInfo zeroAdv ⟨0, 0⟩)
      uninitedRouter).AlwaysConsistent
        [oneLinkTable 1 2 3, movedLinkTable 1] := by
  rw [(boot_placed _ _).alwaysConsistent_iff]
  rintro ⟨-, later⟩
  obtain ⟨steady, -⟩ := later _ rfl
  have sameArea : (0 : UInt32) = 1 := steady 0 List.mem_cons_self
  exact absurd sameArea (by decide)

end Icm

end Pma
