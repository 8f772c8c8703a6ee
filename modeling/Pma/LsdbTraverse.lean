import Mathlib.Data.Fintype.Card
import Mathlib.Data.List.Perm.Basic
import Pma.Lsdb
import Pma.Transition

namespace Pma.Lsdb

/-!
# The database as a finite map

The rest of `lsdb/lsdb_interface.c` and the visitors of `lsdb/lsdb_traverse.c`.
A caller sees a database only through these functions.  The module relates
them to the map from keys to entries that the calls of a run describe: what was
last written under a key is what is found, and every enumeration lists each
entry it is for exactly once.
-/

/-- `cr_lsdb_router_add`. -/
def crLsdbRouterAdd (db : Lsdb) (id : UInt32) : Except Fault Lsdb :=
  if id ≠ 0 then
    if absent : db.data.lsdbRouterFind id = none then
      .ok
        { data := db.data.lsdbRouterAdd id
          wellFormed :=
            LsdbData.lsdbRouterAdd_wellFormed db.wellFormed absent }
    else
      .error (.assertFailed .lsdbRouterAddPresent)
  else
    .error (.assertFailed .lsdbRouterAddZero)

/-- Overwrite the data of a router node, as `cr_lsdb_router_update` does. -/
def writeRouter (data : LsdbData) (node : RouterNode) (id : UInt32) : LsdbData :=
  { data with
    routers := data.routers.map fun other =>
      if other = node then { other with id := id } else other }

/-- The data of a router is its id, so the node found by an id keeps its data. -/
theorem writeRouter_found
    {data : LsdbData}
    {node : RouterNode}
    {id : UInt32}
    (found : data.lsdbRouterFind id = some node) :
    writeRouter data node id = data := by
  have sameId := (LsdbData.lsdbRouterFind_some found).2
  have kept :
      (data.routers.map fun other =>
        if other = node then { other with id := id } else other) =
        data.routers := by
    refine (List.map_congr_left ?_).trans (List.map_id _)
    intro other _
    by_cases isNode : other = node
    · rw [if_pos isNode, isNode, ← sameId]
      rfl
    · rw [if_neg isNode]
      rfl
  rw [writeRouter, kept]

/-- `cr_lsdb_router_update`; a router that is not there is not added. -/
def crLsdbRouterUpdate (db : Lsdb) (id : UInt32) : Except Fault Lsdb :=
  if id ≠ 0 then
    match found : db.data.lsdbRouterFind id with
    | some node =>
        .ok
          { data := writeRouter db.data node id
            wellFormed := by
              rw [writeRouter_found found]
              exact db.wellFormed }
    | none => .ok db
  else
    .error (.assertFailed .lsdbRouterUpdateZero)

/--
The visitor `add_link_state_into_list` over a list of nodes: every entry that
meets the condition is pushed in front of the copies made so far.
-/
def addLinkStateIntoList
    (db : Lsdb) (visits : CrLsdbLinkState → Bool) (entries : List Nat) :
    List CrLsdbLinkState :=
  entries.foldl
    (fun copies entry =>
      if visits (db.data.heap entry) then
        db.data.heap entry :: copies
      else
        copies) []

/--
The common body of the enumerations of one router; a router that is not there
leaves the head of the copies at `NULL`.
-/
def linksStateByRouter
    (db : Lsdb) (visits : CrLsdbLinkState → Bool) (rtId : UInt32) :
    List CrLsdbLinkState :=
  match db.data.lsdbRouterFind rtId with
  | none => []
  | some node => db.addLinkStateIntoList visits node.linksState

/-- `cr_lsdb_get_links_state_by_router`. -/
def crLsdbGetLinksStateByRouter (db : Lsdb) (rtId : UInt32) :
    List CrLsdbLinkState :=
  db.linksStateByRouter (fun _ => true) rtId

/-- `cr_lsdb_get_access_links_state_by_router`. -/
def crLsdbGetAccessLinksStateByRouter (db : Lsdb) (rtId : UInt32) :
    List CrLsdbLinkState :=
  db.linksStateByRouter (fun link => link.key.nRtId = 0) rtId

/-- `cr_lsdb_get_backbone_links_state_by_router`. -/
def crLsdbGetBackboneLinksStateByRouter (db : Lsdb) (rtId : UInt32) :
    List CrLsdbLinkState :=
  db.linksStateByRouter (fun link => link.key.nRtId ≠ 0) rtId

/-- The visitor copies the entries that meet its condition, in reverse. -/
theorem addLinkStateIntoList_eq
    (db : Lsdb)
    (visits : CrLsdbLinkState → Bool)
    (entries : List Nat) :
    db.addLinkStateIntoList visits entries =
      ((entries.map db.data.heap).filter visits).reverse := by
  have pushed :
      ∀ (entries : List Nat) (copies : List CrLsdbLinkState),
        entries.foldl
            (fun copies entry =>
              if visits (db.data.heap entry) then
                db.data.heap entry :: copies
              else
                copies) copies =
          ((entries.map db.data.heap).filter visits).reverse ++ copies := by
    intro entries
    induction entries with
    | nil =>
        simp
    | cons entry rest inductionHypothesis =>
        intro copies
        by_cases visited : visits (db.data.heap entry) = true
        · simp [inductionHypothesis, visited]
        · simp [inductionHypothesis, visited]
  rw [addLinkStateIntoList, pushed, List.append_nil]

/-- Distinct allocated nodes hold distinct entries. -/
theorem heap_nodup
    (db : Lsdb)
    {entries : List Nat}
    (nodup : entries.Nodup)
    (allocated : ∀ entry ∈ entries, entry < db.data.brk) :
    (entries.map db.data.heap).Nodup := by
  refine nodup.map_on ?_
  intro first firstMember second secondMember sameEntry
  exact db.wellFormed.keysUnique
    first (allocated first firstMember)
    second (allocated second secondMember)
    (congrArg CrLsdbLinkState.key sameEntry)

/-- No entry is listed twice in the enumeration of the whole database. -/
theorem nodup_crLsdbGetLinksState
    (db : Lsdb) :
    db.crLsdbGetLinksState.Nodup := by
  rw [crLsdbGetLinksState_eq]
  exact db.heap_nodup List.nodup_range fun _ member => List.mem_range.mp member

section ByRouter

variable (db : Lsdb) (visits : CrLsdbLinkState → Bool) (rtId : UInt32)

/-- No entry is listed twice in an enumeration of one router. -/
theorem nodup_linksStateByRouter :
    (db.linksStateByRouter visits rtId).Nodup := by
  unfold linksStateByRouter
  split
  · exact List.nodup_nil
  · next node found =>
      have member := (LsdbData.lsdbRouterFind_some found).1
      rw [addLinkStateIntoList_eq, List.nodup_reverse]
      refine List.Nodup.filter _ (db.heap_nodup ?_ ?_)
      · exact db.wellFormed.routerListsNodup node member
      · intro entry inList
        exact (db.wellFormed.routerLists node member entry inList).1

/-- An enumeration of one router lists the entries that start there and meet its condition. -/
theorem mem_linksStateByRouter
    {link : CrLsdbLinkState} :
    link ∈ db.linksStateByRouter visits rtId ↔
      db.crLsdbLinkStateFind link.key = some link ∧
        link.key.rtId = rtId ∧ visits link = true := by
  unfold linksStateByRouter
  rw [crLsdbLinkStateFind_eq_some]
  constructor
  · intro member
    split at member
    · cases member
    · next node found =>
        obtain ⟨nodeMember, sameId⟩ := LsdbData.lsdbRouterFind_some found
        rw [addLinkStateIntoList_eq, List.mem_reverse, List.mem_filter,
          List.mem_map] at member
        obtain ⟨⟨entry, inList, rfl⟩, visited⟩ := member
        obtain ⟨allocated, start⟩ :=
          db.wellFormed.routerLists node nodeMember entry inList
        exact ⟨⟨entry, allocated, rfl, rfl⟩, start.trans sameId, visited⟩
  · rintro ⟨⟨entry, allocated, rfl, -⟩, rfl, visited⟩
    obtain ⟨node, nodeMember, sameId, inList⟩ :=
      db.wellFormed.covered entry allocated
    have found := LsdbData.lsdbRouterFind_of_mem db.wellFormed nodeMember
    rw [sameId] at found
    rw [found]
    change _ ∈ db.addLinkStateIntoList visits node.linksState
    rw [addLinkStateIntoList_eq, List.mem_reverse, List.mem_filter,
      List.mem_map]
    exact ⟨⟨entry, inList, rfl⟩, visited⟩

/-- The access and backbone enumerations split the entries of a router. -/
theorem access_append_backbone_perm :
    (db.crLsdbGetAccessLinksStateByRouter rtId ++
        db.crLsdbGetBackboneLinksStateByRouter rtId).Perm
      (db.crLsdbGetLinksStateByRouter rtId) := by
  have disjoint :
      List.Disjoint
        (db.crLsdbGetAccessLinksStateByRouter rtId)
        (db.crLsdbGetBackboneLinksStateByRouter rtId) := by
    intro link isAccess isBackbone
    have isZero := ((db.mem_linksStateByRouter _ rtId).mp isAccess).2.2
    have isNonzero := ((db.mem_linksStateByRouter _ rtId).mp isBackbone).2.2
    simp only [decide_eq_true_eq] at isZero isNonzero
    exact isNonzero isZero
  refine (List.perm_ext_iff_of_nodup
    ((db.nodup_linksStateByRouter _ rtId).append
      (db.nodup_linksStateByRouter _ rtId) disjoint)
    (db.nodup_linksStateByRouter _ rtId)).mpr ?_
  intro link
  rw [List.mem_append, mem_linksStateByRouter, mem_linksStateByRouter,
    mem_linksStateByRouter]
  by_cases isAccess : link.key.nRtId = 0
  · simp [isAccess]
  · simp [isAccess]

end ByRouter

/-- The calls that write a database. -/
inductive LsdbCall where
  | init
  | routerAdd (id : UInt32)
  | routerUpdate (id : UInt32)
  | linkStateAdd (link : CrLsdbLinkState)
  | linkStateUpdate (link : CrLsdbLinkState)
  deriving Repr, DecidableEq

/-- One call; it aborts when an asserted precondition fails or an updated key is absent. -/
def runCall (db : Lsdb) : LsdbCall → Except Fault Lsdb
  | .init => .ok .init
  | .routerAdd id => db.crLsdbRouterAdd id
  | .routerUpdate id => db.crLsdbRouterUpdate id
  | .linkStateAdd link => db.crLsdbLinkStateAdd link
  | .linkStateUpdate link => db.crLsdbLinkStateUpdate link

/--
`malloc_z` asserts that it got a node.  A handle of a database is a pointer
stored in an `unsigned int`, so a node lies at a nonnull 32-bit address.
-/
def MallocReturns (db : Lsdb) : LsdbCall → Prop
  | .linkStateAdd _ => db.data.brk + 1 < 2 ^ 32
  | _ => True

instance (db : Lsdb) (call : LsdbCall) : Decidable (MallocReturns db call) :=
  match call with
  | .linkStateAdd _ => inferInstanceAs (Decidable (_ < _))
  | .init => .isTrue trivial
  | .routerAdd _ => .isTrue trivial
  | .routerUpdate _ => .isTrue trivial
  | .linkStateUpdate _ => .isTrue trivial

/-- What a call writes into the map from keys to entries. -/
def LsdbCall.write
    (written : LinkStateKey → Option CrLsdbLinkState) :
    LsdbCall → LinkStateKey → Option CrLsdbLinkState
  | .init => fun _ => none
  | .routerAdd _ => written
  | .routerUpdate _ => written
  | .linkStateAdd link => Function.update written link.key (some link)
  | .linkStateUpdate link => Function.update written link.key (some link)

/-- The last entry the calls wrote under each key since the last `cr_lsdb_init`. -/
def lastWritten (calls : List LsdbCall) : LinkStateKey → Option CrLsdbLinkState :=
  calls.foldl LsdbCall.write fun _ => none

/--
What a caller may rely on: the lists, counts and router nodes fit together,
and finding and enumerating read one finite map from keys to entries.
-/
structure IsFiniteMap
    (db : Lsdb)
    (written : LinkStateKey → Option CrLsdbLinkState) : Prop where
  routerIdsUnique :
    (db.data.routers.map RouterNode.id).Nodup
  listedOnce :
    db.data.linksState.Nodup
  inOneRouterList :
    ∀ entry ∈ db.data.linksState,
      ∃ node ∈ db.data.routers,
        node.id = (db.data.heap entry).key.rtId ∧
          node.linksState.count entry = 1 ∧
          ∀ other ∈ db.data.routers,
            entry ∈ other.linksState → other = node
  routerListsListed :
    ∀ node ∈ db.data.routers,
      ∀ entry ∈ node.linksState, entry ∈ db.data.linksState
  routersCount :
    db.data.routersCount.toNat = db.data.routers.length
  linksStateCount :
    db.data.linksStateCount.toNat = db.data.linksState.length
  routerLinksStateCount :
    ∀ node ∈ db.data.routers,
      node.linksStateCount.toNat = node.linksState.length
  neighborsPresent :
    ∀ entry ∈ db.data.linksState,
      (db.data.heap entry).key.nRtId ≠ 0 →
      ∃ node ∈ db.data.routers,
        node.id = (db.data.heap entry).key.nRtId
  find :
    ∀ key, db.crLsdbLinkStateFind key = written key
  linksState :
    db.crLsdbGetLinksState.Nodup ∧
      ∀ link,
        link ∈ db.crLsdbGetLinksState ↔ written link.key = some link
  linksStateByRouter :
    ∀ rtId,
      (db.crLsdbGetLinksStateByRouter rtId).Nodup ∧
        ∀ link,
          link ∈ db.crLsdbGetLinksStateByRouter rtId ↔
            written link.key = some link ∧ link.key.rtId = rtId
  accessByRouter :
    ∀ rtId,
      (db.crLsdbGetAccessLinksStateByRouter rtId).Nodup ∧
        ∀ link,
          link ∈ db.crLsdbGetAccessLinksStateByRouter rtId ↔
            written link.key = some link ∧ link.key.rtId = rtId ∧
              link.key.nRtId = 0
  backboneByRouter :
    ∀ rtId,
      (db.crLsdbGetBackboneLinksStateByRouter rtId).Nodup ∧
        ∀ link,
          link ∈ db.crLsdbGetBackboneLinksStateByRouter rtId ↔
            written link.key = some link ∧ link.key.rtId = rtId ∧
              link.key.nRtId ≠ 0
  partitioned :
    ∀ rtId,
      (db.crLsdbGetAccessLinksStateByRouter rtId ++
          db.crLsdbGetBackboneLinksStateByRouter rtId).Perm
        (db.crLsdbGetLinksStateByRouter rtId)

/-- Every router node has a nonzero id. -/
def RouterIdsNonzero (data : LsdbData) : Prop :=
  ∀ id ∈ data.routers.map RouterNode.id, id ≠ 0

/-- `ensureRouter` of a nonzero id adds no other. -/
theorem ensureRouter_idsNonzero
    {data : LsdbData}
    {id : UInt32}
    (nonzero : RouterIdsNonzero data)
    (idNonzero : id ≠ 0) :
    RouterIdsNonzero (data.ensureRouter id) := by
  unfold LsdbData.ensureRouter
  split
  · exact nonzero
  · intro other member
    rcases List.mem_cons.mp member with isNew | isOld
    · rw [isNew]
      exact idNonzero
    · exact nonzero other isOld

/-- `lsdb_link_state_add` adds router nodes only for nonzero ids. -/
theorem lsdbLinkStateAdd_idsNonzero
    {data : LsdbData}
    {link : CrLsdbLinkState}
    (nonzero : RouterIdsNonzero data)
    (startNonzero : link.key.rtId ≠ 0) :
    RouterIdsNonzero (data.lsdbLinkStateAdd link) := by
  unfold LsdbData.lsdbLinkStateAdd RouterIdsNonzero
  rw [LsdbData.pushLinkState_ids]
  by_cases backbone : link.key.nRtId ≠ 0
  · rw [if_pos backbone]
    exact ensureRouter_idsNonzero
      (ensureRouter_idsNonzero nonzero backbone) startNonzero
  · rw [if_neg backbone]
    exact ensureRouter_idsNonzero nonzero startNonzero

/-- What a run of calls keeps beside the structural invariant. -/
structure Describes
    (db : Lsdb)
    (written : LinkStateKey → Option CrLsdbLinkState) : Prop where
  idsNonzero : RouterIdsNonzero db.data
  addressable : db.data.brk < 2 ^ 32
  find : ∀ key, db.crLsdbLinkStateFind key = written key

namespace Describes

variable {db after : Lsdb} {written : LinkStateKey → Option CrLsdbLinkState}

/-- `cr_lsdb_init` starts with the empty map. -/
theorem init : Describes .init fun _ => none where
  idsNonzero := by
    intro id member
    cases member
  addressable := by
    exact Nat.two_pow_pos 32
  find := init_find

/-- `cr_lsdb_router_add` writes no entry. -/
theorem routerAdd
    {id : UInt32}
    (describes : Describes db written)
    (returned : db.crLsdbRouterAdd id = .ok after) :
    Describes after written := by
  unfold crLsdbRouterAdd at returned
  split at returned
  · next idNonzero =>
      split at returned
      · cases returned
        refine ⟨?_, describes.addressable, ?_⟩
        · intro other member
          rcases List.mem_cons.mp member with isNew | isOld
          · rw [isNew]
            exact idNonzero
          · exact describes.idsNonzero other isOld
        · intro key
          rw [← describes.find key]
          apply Option.ext
          intro link
          rw [crLsdbLinkStateFind_eq_some, crLsdbLinkStateFind_eq_some]
          rfl
      · cases returned
  · cases returned

/-- `cr_lsdb_router_update` changes nothing. -/
theorem routerUpdate
    {id : UInt32}
    (returned : db.crLsdbRouterUpdate id = .ok after) :
    after = db := by
  unfold crLsdbRouterUpdate at returned
  split at returned
  · split at returned
    · next node found =>
        cases returned
        cases db with
        | mk data wellFormed =>
            congr 1
            exact writeRouter_found found
    · cases returned
      rfl
  · cases returned

/-- `cr_lsdb_link_state_add` writes the new entry. -/
theorem linkStateAdd
    {link : CrLsdbLinkState}
    (describes : Describes db written)
    (allocates : db.data.brk + 1 < 2 ^ 32)
    (returned : db.crLsdbLinkStateAdd link = .ok after) :
    Describes after (Function.update written link.key (some link)) := by
  have found := find_of_add returned
  unfold crLsdbLinkStateAdd at returned
  split at returned
  · next startNonzero =>
      split at returned
      · cases returned
        refine ⟨?_, ?_, ?_⟩
        · exact lsdbLinkStateAdd_idsNonzero
            describes.idsNonzero startNonzero
        · rw [(LsdbData.lsdbLinkStateAdd_heap db.data link).2]
          exact allocates
        · intro key
          rw [found key, Function.update_apply, describes.find key]
      · cases returned
  · cases returned

/-- `cr_lsdb_link_state_update` overwrites the entry of its key. -/
theorem linkStateUpdate
    {link : CrLsdbLinkState}
    (describes : Describes db written)
    (returned : db.crLsdbLinkStateUpdate link = .ok after) :
    Describes after (Function.update written link.key (some link)) := by
  have found := find_of_update returned
  unfold crLsdbLinkStateUpdate at returned
  split at returned
  · split at returned
    · cases returned
      refine ⟨describes.idsNonzero, describes.addressable, ?_⟩
      intro key
      rw [found key, Function.update_apply, describes.find key]
    · cases returned
  · cases returned

/-- One call writes what the map of the calls says. -/
theorem runCall
    {call : LsdbCall}
    (describes : Describes db written)
    (allocates : MallocReturns db call)
    (returned : db.runCall call = .ok after) :
    Describes after (call.write written) := by
  cases call with
  | init =>
      cases returned
      exact init
  | routerAdd id =>
      exact describes.routerAdd returned
  | routerUpdate id =>
      rw [routerUpdate returned]
      exact describes
  | linkStateAdd link =>
      exact describes.linkStateAdd allocates returned
  | linkStateUpdate link =>
      exact describes.linkStateUpdate returned

/-- Nonzero unique ids are fewer than a `u32` can count. -/
theorem routers_lt
    (describes : Describes db written) :
    db.data.routers.length < 2 ^ 32 := by
  have nodup :
      ((0 :: db.data.routers.map RouterNode.id).map UInt32.toFin).Nodup := by
    refine List.Nodup.map (fun _ _ same => UInt32.toFin_inj.mp same) ?_
    refine List.nodup_cons.mpr ⟨?_, db.wellFormed.routerIdsNodup⟩
    intro isMember
    exact describes.idsNonzero 0 isMember rfl
  have bounded := nodup.length_le_card
  simp only [List.length_map, List.length_cons, Fintype.card_fin] at bounded
  exact bounded

/-- The list of a router is no longer than the list of all nodes. -/
theorem routerList_lt
    (describes : Describes db written)
    {node : RouterNode}
    (member : node ∈ db.data.routers) :
    node.linksState.length < 2 ^ 32 := by
  have within : node.linksState ⊆ List.range db.data.brk := by
    intro entry inList
    exact List.mem_range.mpr
      (db.wellFormed.routerLists node member entry inList).1
  have bounded :=
    ((db.wellFormed.routerListsNodup node member).subperm within).length_le
  rw [List.length_range] at bounded
  exact Nat.lt_of_le_of_lt bounded describes.addressable

/-- The invariants of a run make the database a finite map. -/
theorem isFiniteMap
    (describes : Describes db written) :
    IsFiniteMap db written := by
  have allocated :
      ∀ entry, entry ∈ db.data.linksState ↔ entry < db.data.brk := by
    intro entry
    rw [db.wellFormed.listed, List.mem_reverse, List.mem_range]
  have length : db.data.linksState.length = db.data.brk := by
    rw [db.wellFormed.listed, List.length_reverse, List.length_range]
  have byRouter :
      ∀ visits rtId,
        (db.linksStateByRouter visits rtId).Nodup ∧
          ∀ link,
            link ∈ db.linksStateByRouter visits rtId ↔
              written link.key = some link ∧ link.key.rtId = rtId ∧
                visits link = true := by
    intro visits rtId
    refine ⟨db.nodup_linksStateByRouter visits rtId, ?_⟩
    intro link
    rw [mem_linksStateByRouter, describes.find]
  exact
    { routerIdsUnique := db.wellFormed.routerIdsNodup
      listedOnce := by
        rw [db.wellFormed.listed, List.nodup_reverse]
        exact List.nodup_range
      inOneRouterList := by
        intro entry member
        obtain ⟨node, nodeMember, sameId, inList⟩ :=
          db.wellFormed.covered entry ((allocated entry).mp member)
        refine ⟨node, nodeMember, sameId, ?_, ?_⟩
        · exact List.count_eq_one_of_mem
            (db.wellFormed.routerListsNodup node nodeMember) inList
        · intro other otherMember inOther
          have otherId :=
            (db.wellFormed.routerLists other otherMember entry inOther).2
          exact List.inj_on_of_nodup_map db.wellFormed.routerIdsNodup
            otherMember nodeMember (otherId.symm.trans sameId.symm)
      routerListsListed := by
        intro node member entry inList
        exact (allocated entry).mpr
          (db.wellFormed.routerLists node member entry inList).1
      routersCount := by
        rw [db.wellFormed.routersCounted]
        exact UInt32.toNat_ofNat_of_lt' describes.routers_lt
      linksStateCount := by
        rw [db.wellFormed.linksStateCounted, length]
        exact UInt32.toNat_ofNat_of_lt' describes.addressable
      routerLinksStateCount := by
        intro node member
        rw [db.wellFormed.routerListsCounted node member]
        exact UInt32.toNat_ofNat_of_lt' (describes.routerList_lt member)
      neighborsPresent := by
        intro entry member
        exact db.wellFormed.neighbors entry ((allocated entry).mp member)
      find := describes.find
      linksState := by
        refine ⟨db.nodup_crLsdbGetLinksState, ?_⟩
        intro link
        rw [mem_crLsdbGetLinksState, describes.find]
      linksStateByRouter := by
        intro rtId
        refine ⟨(byRouter _ rtId).1, ?_⟩
        intro link
        exact ((byRouter _ rtId).2 link).trans (by simp)
      accessByRouter := by
        intro rtId
        refine ⟨(byRouter _ rtId).1, ?_⟩
        intro link
        exact ((byRouter _ rtId).2 link).trans (by simp)
      backboneByRouter := by
        intro rtId
        refine ⟨(byRouter _ rtId).1, ?_⟩
        intro link
        exact ((byRouter _ rtId).2 link).trans (by simp)
      partitioned := db.access_append_backbone_perm }

end Describes

/-- A run of calls leaves what the calls wrote. -/
theorem describes_of_run
    {before after : Lsdb}
    {calls : List LsdbCall}
    {written : LinkStateKey → Option CrLsdbLinkState}
    (run :
      Transition.Run
        (Transition.guarded MallocReturns (Transition.ofPartial runCall))
        before calls after)
    (describes : Describes before written) :
    Describes after (calls.foldl LsdbCall.write written) := by
  induction run generalizing written with
  | nil state =>
      exact describes
  | cons first rest inductionHypothesis =>
      exact inductionHypothesis (describes.runCall first.1 first.2)

/--
Every run of calls that meet their asserted preconditions leaves a finite map
from keys to the entries last written under them.
-/
theorem lsdb_is_finite_map
    {db : Lsdb}
    {calls : List LsdbCall}
    (run :
      Transition.Run
        (Transition.guarded MallocReturns (Transition.ofPartial runCall))
        .init calls db) :
    IsFiniteMap db (lastWritten calls) :=
  (describes_of_run run .init).isFiniteMap

/-- An entry of a link, with everything but its key and state left at zero. -/
def sampleLink (key : LinkStateKey) (state : UInt8) : CrLsdbLinkState :=
  { lsaToLsdbInfo zeroAdv ⟨0, 0⟩ with key := key, state := state }

/-- Two parallel links and an access link of router 1, one of them updated. -/
def sampleCalls : List LsdbCall :=
  [.linkStateAdd (sampleLink ⟨1, 1, 2, 1⟩ 0),
    .linkStateAdd (sampleLink ⟨1, 2, 2, 2⟩ 0),
    .linkStateAdd (sampleLink ⟨1, 3, 0, 0⟩ 0),
    .linkStateUpdate (sampleLink ⟨1, 1, 2, 1⟩ 3),
    .routerAdd 3,
    .routerUpdate 3]

/-- The calls return, and the database they leave is the map of their writes. -/
theorem lsdb_is_finite_map_sample :
    ∃ db : Lsdb,
      IsFiniteMap db (lastWritten sampleCalls) ∧
        db.crLsdbLinkStateFind ⟨1, 1, 2, 1⟩ =
          some (sampleLink ⟨1, 1, 2, 1⟩ 3) ∧
        db.data.routersCount = 3 :=
  ⟨_,
    lsdb_is_finite_map
      (.cons ⟨by decide, rfl⟩
        (.cons ⟨by decide, rfl⟩
          (.cons ⟨by decide, rfl⟩
            (.cons ⟨trivial, rfl⟩
              (.cons ⟨trivial, rfl⟩
                (.cons ⟨trivial, rfl⟩ (.nil _))))))),
    rfl, rfl⟩

end Pma.Lsdb
