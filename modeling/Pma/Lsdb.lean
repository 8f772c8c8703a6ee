import Mathlib.Data.List.Nodup
import Mathlib.Data.List.Range
import Mathlib.Logic.Function.Basic
import Pma.Abort
import Pma.LinkState

namespace Pma

/-!
# The link state database

`lsdb/lsdb_impl.c` keeps router nodes on one intrusive list and link states on
two: a global one and the one of the router they start from.  Both lists share
the same heap nodes, so an update through one is seen through the other.  The
model keeps that sharing explicit: lists hold node addresses, and the contents
live in `heap`, of which the addresses below `brk` are allocated.

`Lsdb` bundles the record with its structural invariant, so that the operations
of `lsdb/lsdb_interface.c` cannot produce anything but a finite map from keys
to entries.
-/

/-- `struct router_node`: the links that start from one router, newest first. -/
structure RouterNode where
  id : UInt32
  linksStateCount : UInt32
  linksState : List Nat
  deriving Repr, DecidableEq

/-- `struct lsdb`, with the heap its link state nodes live in. -/
structure LsdbData where
  routersCount : UInt32
  linksStateCount : UInt32
  routers : List RouterNode
  linksState : List Nat
  heap : Nat → CrLsdbLinkState
  brk : Nat

namespace LsdbData

/-- `lsdb_router_find`. -/
def lsdbRouterFind (db : LsdbData) (rtId : UInt32) : Option RouterNode :=
  db.routers.find? fun node => node.id = rtId

/-- `lsdb_router_add`. -/
def lsdbRouterAdd (db : LsdbData) (id : UInt32) : LsdbData :=
  { db with
    routers := ⟨id, 0, []⟩ :: db.routers
    routersCount := db.routersCount + 1 }

/-- The router node `lsdb_link_state_add` needs, added when it is missing. -/
def ensureRouter (db : LsdbData) (id : UInt32) : LsdbData :=
  match db.lsdbRouterFind id with
  | some _ => db
  | none => db.lsdbRouterAdd id

/-- Allocate a node for `state` and push it on the global list and its router's. -/
def pushLinkState (db : LsdbData) (state : CrLsdbLinkState) : LsdbData :=
  { db with
    heap := Function.update db.heap db.brk state
    brk := db.brk + 1
    linksState := db.brk :: db.linksState
    linksStateCount := db.linksStateCount + 1
    routers := db.routers.map fun node =>
      if node.id = state.key.rtId then
        { node with
          linksState := db.brk :: node.linksState
          linksStateCount := node.linksStateCount + 1 }
      else
        node }

/-- `lsdb_link_state_add`. -/
def lsdbLinkStateAdd (db : LsdbData) (state : CrLsdbLinkState) : LsdbData :=
  let withNeighbor :=
    if state.key.nRtId ≠ 0 then
      db.ensureRouter state.key.nRtId
    else
      db
  (withNeighbor.ensureRouter state.key.rtId).pushLinkState state

/--
`lsdb_link_state_find`: the address of the first node on the list of router
`key.rt_id` that agrees on the other three parts of the key.
-/
def lsdbLinkStateFind (db : LsdbData) (key : LinkStateKey) : Option Nat :=
  match db.lsdbRouterFind key.rtId with
  | none => none
  | some node =>
      node.linksState.find? fun entry =>
        (db.heap entry).key.ifId = key.ifId ∧
          (db.heap entry).key.nRtId = key.nRtId ∧
          (db.heap entry).key.nIfId = key.nIfId

/-- `cr_lsdb_init`. -/
def empty : LsdbData where
  routersCount := 0
  linksStateCount := 0
  routers := []
  linksState := []
  heap := fun _ => lsaToLsdbInfo zeroAdv ⟨0, 0⟩
  brk := 0

/--
The structural invariant of a link state database: router ids are unique, the
two families of lists index the same allocated nodes, and no two nodes have the
same key.
-/
structure WellFormed (db : LsdbData) : Prop where
  routerIdsNodup :
    (db.routers.map RouterNode.id).Nodup
  routerLists :
    ∀ node ∈ db.routers,
      ∀ entry ∈ node.linksState,
        entry < db.brk ∧ (db.heap entry).key.rtId = node.id
  routerListsNodup :
    ∀ node ∈ db.routers, node.linksState.Nodup
  covered :
    ∀ entry < db.brk,
      ∃ node ∈ db.routers,
        node.id = (db.heap entry).key.rtId ∧ entry ∈ node.linksState
  keysUnique :
    ∀ first < db.brk,
      ∀ second < db.brk,
        (db.heap first).key = (db.heap second).key →
        first = second
  listed :
    db.linksState = (List.range db.brk).reverse
  startsNonzero :
    ∀ entry < db.brk, (db.heap entry).key.rtId ≠ 0
  neighbors :
    ∀ entry < db.brk,
      (db.heap entry).key.nRtId ≠ 0 →
      ∃ node ∈ db.routers, node.id = (db.heap entry).key.nRtId
  routersCounted :
    db.routersCount = UInt32.ofNat db.routers.length
  linksStateCounted :
    db.linksStateCount = UInt32.ofNat db.linksState.length
  routerListsCounted :
    ∀ node ∈ db.routers,
      node.linksStateCount = UInt32.ofNat node.linksState.length

/-- A freshly initialised database is well formed. -/
theorem empty_wellFormed : empty.WellFormed where
  routerIdsNodup := List.nodup_nil
  routerLists := by simp [empty]
  routerListsNodup := by simp [empty]
  covered := by simp [empty]
  keysUnique := by simp [empty]
  listed := rfl
  startsNonzero := by simp [empty]
  neighbors := by simp [empty]
  routersCounted := rfl
  linksStateCounted := rfl
  routerListsCounted := by simp [empty]

/-- A found router node is on the list and has the id looked for. -/
theorem lsdbRouterFind_some
    {db : LsdbData}
    {rtId : UInt32}
    {node : RouterNode}
    (found : db.lsdbRouterFind rtId = some node) :
    node ∈ db.routers ∧ node.id = rtId := by
  constructor
  · exact List.mem_of_find?_eq_some found
  · simpa using List.find?_some found

/-- Unique ids make the search find the node with the id looked for. -/
theorem lsdbRouterFind_of_mem
    {db : LsdbData}
    (wellFormed : db.WellFormed)
    {node : RouterNode}
    (member : node ∈ db.routers) :
    db.lsdbRouterFind node.id = some node := by
  cases found : db.lsdbRouterFind node.id with
  | none =>
      have absent := List.find?_eq_none.mp found node member
      simp at absent
  | some other =>
      obtain ⟨otherMember, sameId⟩ := lsdbRouterFind_some found
      rw [List.inj_on_of_nodup_map wellFormed.routerIdsNodup
        otherMember member sameId]

/-- Adding a router whose id is not on the list keeps the invariant. -/
theorem lsdbRouterAdd_wellFormed
    {db : LsdbData}
    (wellFormed : db.WellFormed)
    {id : UInt32}
    (absent : db.lsdbRouterFind id = none) :
    (db.lsdbRouterAdd id).WellFormed where
  routerIdsNodup := by
    have fresh : id ∉ db.routers.map RouterNode.id := by
      intro member
      obtain ⟨node, nodeMember, sameId⟩ := List.mem_map.mp member
      have different := List.find?_eq_none.mp absent node nodeMember
      simp [sameId] at different
    simpa [lsdbRouterAdd] using ⟨by simpa using fresh, wellFormed.routerIdsNodup⟩
  routerLists := by
    intro node member
    rcases List.mem_cons.mp member with isNew | isOld
    · subst isNew
      simp
    · exact wellFormed.routerLists node isOld
  routerListsNodup := by
    intro node member
    rcases List.mem_cons.mp member with isNew | isOld
    · subst isNew
      simp
    · exact wellFormed.routerListsNodup node isOld
  covered := by
    intro entry allocated
    obtain ⟨node, member, owner⟩ := wellFormed.covered entry allocated
    exact ⟨node, List.mem_cons_of_mem _ member, owner⟩
  keysUnique := wellFormed.keysUnique
  listed := wellFormed.listed
  startsNonzero := wellFormed.startsNonzero
  neighbors := by
    intro entry allocated backbone
    obtain ⟨node, member, sameId⟩ :=
      wellFormed.neighbors entry allocated backbone
    exact ⟨node, List.mem_cons_of_mem _ member, sameId⟩
  routersCounted := by
    simp [lsdbRouterAdd, wellFormed.routersCounted]
  linksStateCounted := wellFormed.linksStateCounted
  routerListsCounted := by
    intro node member
    rcases List.mem_cons.mp member with isNew | isOld
    · subst isNew
      rfl
    · exact wellFormed.routerListsCounted node isOld

/-- `ensureRouter` keeps the invariant. -/
theorem ensureRouter_wellFormed
    {db : LsdbData}
    (wellFormed : db.WellFormed)
    (id : UInt32) :
    (db.ensureRouter id).WellFormed := by
  unfold ensureRouter
  split
  · exact wellFormed
  · next absent =>
      exact lsdbRouterAdd_wellFormed wellFormed absent

/-- `ensureRouter` does not touch the link state nodes. -/
theorem ensureRouter_heap
    (db : LsdbData)
    (id : UInt32) :
    (db.ensureRouter id).heap = db.heap ∧
      (db.ensureRouter id).brk = db.brk := by
  unfold ensureRouter
  split <;> exact ⟨rfl, rfl⟩

/-- After `ensureRouter` the router is on the list. -/
theorem ensureRouter_mem
    (db : LsdbData)
    (id : UInt32) :
    ∃ node ∈ (db.ensureRouter id).routers, node.id = id := by
  unfold ensureRouter
  split
  · next node found =>
      exact ⟨node, lsdbRouterFind_some found⟩
  · exact ⟨_, List.mem_cons_self, rfl⟩

/-- `ensureRouter` only adds to the router list. -/
theorem ensureRouter_mono
    {db : LsdbData}
    {node : RouterNode}
    (member : node ∈ db.routers)
    (id : UInt32) :
    node ∈ (db.ensureRouter id).routers := by
  unfold ensureRouter
  split
  · exact member
  · exact List.mem_cons_of_mem _ member

/--
The search finds exactly the allocated node with the key looked for: the
router's list covers every node with that start, and agreeing on the other
three parts of the key is then agreeing on the whole key.
-/
theorem lsdbLinkStateFind_eq_some
    {db : LsdbData}
    (wellFormed : db.WellFormed)
    {key : LinkStateKey}
    {entry : Nat} :
    db.lsdbLinkStateFind key = some entry ↔
      entry < db.brk ∧ (db.heap entry).key = key := by
  constructor
  · intro found
    unfold lsdbLinkStateFind at found
    split at found
    · cases found
    · next node routerFound =>
        obtain ⟨member, sameId⟩ := lsdbRouterFind_some routerFound
        have agrees := List.find?_some found
        have inList := List.mem_of_find?_eq_some found
        obtain ⟨allocated, start⟩ :=
          wellFormed.routerLists node member entry inList
        simp only [decide_eq_true_eq] at agrees
        obtain ⟨sameIf, sameNeighbor, sameNeighborIf⟩ := agrees
        refine ⟨allocated, ?_⟩
        cases key
        cases shape : (db.heap entry).key
        simp_all
  · rintro ⟨allocated, sameKey⟩
    obtain ⟨node, member, sameId, inList⟩ :=
      wellFormed.covered entry allocated
    have routerFound : db.lsdbRouterFind key.rtId = some node := by
      rw [← sameKey, ← sameId]
      exact lsdbRouterFind_of_mem wellFormed member
    unfold lsdbLinkStateFind
    rw [routerFound]
    cases found : node.linksState.find? fun entry =>
        (db.heap entry).key.ifId = key.ifId ∧
          (db.heap entry).key.nRtId = key.nRtId ∧
          (db.heap entry).key.nIfId = key.nIfId with
    | none =>
        have absent := List.find?_eq_none.mp found entry inList
        simp [sameKey] at absent
    | some other =>
        have agrees := List.find?_some found
        have otherInList := List.mem_of_find?_eq_some found
        obtain ⟨otherAllocated, otherStart⟩ :=
          wellFormed.routerLists node member other otherInList
        have otherKey : (db.heap other).key = (db.heap entry).key := by
          simp only [decide_eq_true_eq] at agrees
          obtain ⟨sameIf, sameNeighbor, sameNeighborIf⟩ := agrees
          subst key
          cases first : (db.heap other).key
          cases second : (db.heap entry).key
          simp_all
        exact found.trans (congrArg some
          (wellFormed.keysUnique other otherAllocated
            entry allocated otherKey))

section Push

variable {db : LsdbData} {state : CrLsdbLinkState}

/-- Pushing a link state keeps the router list. -/
theorem pushLinkState_ids :
    (db.pushLinkState state).routers.map RouterNode.id =
      db.routers.map RouterNode.id := by
  simp only [pushLinkState, List.map_map]
  apply List.map_congr_left
  intro node _
  by_cases isStart : node.id = state.key.rtId <;> simp [isStart]

/-- A router that was present stays present. -/
theorem pushLinkState_present
    {id : UInt32}
    (present : ∃ node ∈ db.routers, node.id = id) :
    ∃ node ∈ (db.pushLinkState state).routers, node.id = id := by
  obtain ⟨node, member, sameId⟩ := present
  have idMember : id ∈ db.routers.map RouterNode.id :=
    List.mem_map.mpr ⟨node, member, sameId⟩
  rw [← pushLinkState_ids] at idMember
  exact List.mem_map.mp idMember

/-- The entries that were allocated keep their contents. -/
theorem pushLinkState_heap_old
    {entry : Nat}
    (allocated : entry < db.brk) :
    (db.pushLinkState state).heap entry = db.heap entry :=
  Function.update_of_ne (Nat.ne_of_lt allocated) _ _

/-- The new entry holds the link state. -/
theorem pushLinkState_heap_new :
    (db.pushLinkState state).heap db.brk = state :=
  Function.update_self _ _ _

/-- The list of a router holds allocated entries that start at the router. -/
theorem pushLinkState_routerLists
    (wellFormed : db.WellFormed) :
    ∀ node ∈ (db.pushLinkState state).routers,
      ∀ entry ∈ node.linksState,
        entry < (db.pushLinkState state).brk ∧
          ((db.pushLinkState state).heap entry).key.rtId = node.id := by
  intro node member entry inList
  obtain ⟨original, originalMember, rfl⟩ := List.mem_map.mp member
  by_cases isStart : original.id = state.key.rtId
  · simp only [isStart, ↓reduceIte, List.mem_cons] at inList ⊢
    rcases inList with isNew | isOld
    · subst isNew
      exact ⟨Nat.lt_succ_self _, by rw [pushLinkState_heap_new]⟩
    · obtain ⟨allocated, start⟩ :=
        wellFormed.routerLists original originalMember entry isOld
      exact ⟨Nat.lt_succ_of_lt allocated, by
        rw [pushLinkState_heap_old allocated, start, isStart]⟩
  · simp only [isStart, ↓reduceIte] at inList ⊢
    obtain ⟨allocated, start⟩ :=
      wellFormed.routerLists original originalMember entry inList
    exact ⟨Nat.lt_succ_of_lt allocated, by
      rw [pushLinkState_heap_old allocated, start]⟩

/-- The new entry was on no list before. -/
theorem pushLinkState_routerListsNodup
    (wellFormed : db.WellFormed) :
    ∀ node ∈ (db.pushLinkState state).routers, node.linksState.Nodup := by
  intro node member
  obtain ⟨original, originalMember, rfl⟩ := List.mem_map.mp member
  have originalNodup := wellFormed.routerListsNodup original originalMember
  by_cases isStart : original.id = state.key.rtId
  · simp only [isStart, ↓reduceIte]
    refine List.nodup_cons.mpr ⟨?_, originalNodup⟩
    intro inList
    exact absurd
      (wellFormed.routerLists original originalMember _ inList).1
      (Nat.lt_irrefl _)
  · simp only [isStart, ↓reduceIte]
    exact originalNodup

/-- Every entry is on the list of the router it starts at. -/
theorem pushLinkState_covered
    (wellFormed : db.WellFormed)
    (startPresent : ∃ node ∈ db.routers, node.id = state.key.rtId) :
    ∀ entry < (db.pushLinkState state).brk,
      ∃ node ∈ (db.pushLinkState state).routers,
        node.id = ((db.pushLinkState state).heap entry).key.rtId ∧
          entry ∈ node.linksState := by
  intro entry allocated
  rcases Nat.lt_succ_iff_lt_or_eq.mp allocated with isOld | isNew
  · obtain ⟨node, member, sameId, inList⟩ :=
      wellFormed.covered entry isOld
    rw [pushLinkState_heap_old isOld]
    refine ⟨_, List.mem_map.mpr ⟨node, member, rfl⟩, ?_⟩
    by_cases isStart : node.id = state.key.rtId
    · simp only [isStart, ↓reduceIte, List.mem_cons]
      exact ⟨isStart ▸ sameId, Or.inr inList⟩
    · simp only [isStart, ↓reduceIte]
      exact ⟨sameId, inList⟩
  · subst isNew
    obtain ⟨node, member, sameId⟩ := startPresent
    rw [pushLinkState_heap_new]
    refine ⟨_, List.mem_map.mpr ⟨node, member, rfl⟩, ?_⟩
    simp [sameId]

/-- A new key leaves the keys unique. -/
theorem pushLinkState_keysUnique
    (wellFormed : db.WellFormed)
    (absent : ∀ entry < db.brk, (db.heap entry).key ≠ state.key) :
    ∀ first < (db.pushLinkState state).brk,
      ∀ second < (db.pushLinkState state).brk,
        ((db.pushLinkState state).heap first).key =
          ((db.pushLinkState state).heap second).key →
        first = second := by
  intro first firstAllocated second secondAllocated sameKey
  rcases Nat.lt_succ_iff_lt_or_eq.mp firstAllocated with
      firstOld | firstNew <;>
    rcases Nat.lt_succ_iff_lt_or_eq.mp secondAllocated with
      secondOld | secondNew
  · rw [pushLinkState_heap_old firstOld, pushLinkState_heap_old secondOld]
      at sameKey
    exact wellFormed.keysUnique first firstOld second secondOld sameKey
  · rw [pushLinkState_heap_old firstOld, secondNew, pushLinkState_heap_new]
      at sameKey
    exact absurd sameKey (absent first firstOld)
  · rw [pushLinkState_heap_old secondOld, firstNew, pushLinkState_heap_new]
      at sameKey
    exact absurd sameKey.symm (absent second secondOld)
  · exact firstNew.trans secondNew.symm

/-- Pushing a link state with a new key from a present router keeps the invariant. -/
theorem pushLinkState_wellFormed
    (wellFormed : db.WellFormed)
    (startPresent : ∃ node ∈ db.routers, node.id = state.key.rtId)
    (neighborPresent :
      state.key.nRtId ≠ 0 →
      ∃ node ∈ db.routers, node.id = state.key.nRtId)
    (startNonzero : state.key.rtId ≠ 0)
    (absent : ∀ entry < db.brk, (db.heap entry).key ≠ state.key) :
    (db.pushLinkState state).WellFormed := by
  refine
    { routerIdsNodup := by
        rw [pushLinkState_ids]
        exact wellFormed.routerIdsNodup
      routerLists := pushLinkState_routerLists wellFormed
      routerListsNodup := pushLinkState_routerListsNodup wellFormed
      covered := pushLinkState_covered wellFormed startPresent
      keysUnique := pushLinkState_keysUnique wellFormed absent
      listed := by
        simp [pushLinkState, List.range_succ, wellFormed.listed]
      startsNonzero := ?_
      neighbors := ?_
      routersCounted := by
        simp [pushLinkState, wellFormed.routersCounted]
      linksStateCounted := by
        simp [pushLinkState, wellFormed.linksStateCounted]
      routerListsCounted := ?_ }
  · intro entry allocated
    rcases Nat.lt_succ_iff_lt_or_eq.mp allocated with isOld | isNew
    · rw [pushLinkState_heap_old isOld]
      exact wellFormed.startsNonzero entry isOld
    · rw [isNew, pushLinkState_heap_new]
      exact startNonzero
  · intro entry allocated
    rcases Nat.lt_succ_iff_lt_or_eq.mp allocated with isOld | isNew
    · rw [pushLinkState_heap_old isOld]
      intro backbone
      exact pushLinkState_present (wellFormed.neighbors entry isOld backbone)
    · rw [isNew, pushLinkState_heap_new]
      intro backbone
      exact pushLinkState_present (neighborPresent backbone)
  · intro node member
    obtain ⟨original, originalMember, rfl⟩ := List.mem_map.mp member
    have counted := wellFormed.routerListsCounted original originalMember
    by_cases isStart : original.id = state.key.rtId
    · simp [isStart, counted]
    · simp only [isStart, ↓reduceIte]
      exact counted

end Push

/-- `lsdb_link_state_add` of a new key with a nonzero start keeps the invariant. -/
theorem lsdbLinkStateAdd_wellFormed
    {db : LsdbData}
    (wellFormed : db.WellFormed)
    {state : CrLsdbLinkState}
    (startNonzero : state.key.rtId ≠ 0)
    (absent : db.lsdbLinkStateFind state.key = none) :
    (db.lsdbLinkStateAdd state).WellFormed := by
  have keyAbsent : ∀ entry < db.brk, (db.heap entry).key ≠ state.key := by
    intro entry allocated sameKey
    have found :=
      (lsdbLinkStateFind_eq_some wellFormed).mpr ⟨allocated, sameKey⟩
    simp [absent] at found
  unfold lsdbLinkStateAdd
  by_cases backbone : state.key.nRtId ≠ 0
  · simp only [if_pos backbone]
    have neighborHeap := ensureRouter_heap db state.key.nRtId
    have startHeap :=
      ensureRouter_heap (db.ensureRouter state.key.nRtId) state.key.rtId
    refine pushLinkState_wellFormed
      (ensureRouter_wellFormed
        (ensureRouter_wellFormed wellFormed _) _)
      (ensureRouter_mem _ _) ?_ startNonzero ?_
    · intro _
      obtain ⟨node, member, sameId⟩ :=
        ensureRouter_mem db state.key.nRtId
      exact ⟨node, ensureRouter_mono member _, sameId⟩
    · rw [startHeap.1, startHeap.2, neighborHeap.1, neighborHeap.2]
      exact keyAbsent
  · simp only [if_neg backbone]
    have startHeap := ensureRouter_heap db state.key.rtId
    refine pushLinkState_wellFormed
      (ensureRouter_wellFormed wellFormed _)
      (ensureRouter_mem _ _)
      (fun isBackbone => absurd isBackbone backbone)
      startNonzero ?_
    rw [startHeap.1, startHeap.2]
    exact keyAbsent

/-- `lsdb_link_state_add` writes exactly one new heap node. -/
theorem lsdbLinkStateAdd_heap
    (db : LsdbData)
    (state : CrLsdbLinkState) :
    (db.lsdbLinkStateAdd state).heap =
        Function.update db.heap db.brk state ∧
      (db.lsdbLinkStateAdd state).brk = db.brk + 1 := by
  unfold lsdbLinkStateAdd
  by_cases backbone : state.key.nRtId ≠ 0
  · have neighborHeap := ensureRouter_heap db state.key.nRtId
    have startHeap :=
      ensureRouter_heap (db.ensureRouter state.key.nRtId) state.key.rtId
    simp only [if_pos backbone, pushLinkState]
    rw [startHeap.1, startHeap.2, neighborHeap.1, neighborHeap.2]
    exact ⟨rfl, rfl⟩
  · have startHeap := ensureRouter_heap db state.key.rtId
    simp only [if_neg backbone, pushLinkState]
    rw [startHeap.1, startHeap.2]
    exact ⟨rfl, rfl⟩

/-- Overwrite one heap node, as the `memcpy` of an update does. -/
def writeLinkState
    (db : LsdbData)
    (entry : Nat)
    (state : CrLsdbLinkState) : LsdbData :=
  { db with heap := Function.update db.heap entry state }

/-- Overwriting a node by a value with the same key keeps the invariant. -/
theorem writeLinkState_wellFormed
    {db : LsdbData}
    (wellFormed : db.WellFormed)
    {entry : Nat}
    {state : CrLsdbLinkState}
    (sameKey : (db.heap entry).key = state.key) :
    (db.writeLinkState entry state).WellFormed := by
  have keyKept :
      ∀ other,
        ((db.writeLinkState entry state).heap other).key =
          (db.heap other).key := by
    intro other
    by_cases isEntry : other = entry
    · subst isEntry
      simp [writeLinkState, sameKey]
    · simp [writeLinkState, isEntry]
  exact
    { routerIdsNodup := wellFormed.routerIdsNodup
      routerLists := by
        intro node member other inList
        rw [keyKept]
        exact wellFormed.routerLists node member other inList
      routerListsNodup := wellFormed.routerListsNodup
      covered := by
        intro other allocated
        rw [keyKept]
        exact wellFormed.covered other allocated
      keysUnique := by
        intro first firstAllocated second secondAllocated
        rw [keyKept, keyKept]
        exact wellFormed.keysUnique
          first firstAllocated second secondAllocated
      listed := wellFormed.listed
      startsNonzero := by
        intro other allocated
        rw [keyKept]
        exact wellFormed.startsNonzero other allocated
      neighbors := by
        intro other allocated
        rw [keyKept]
        exact wellFormed.neighbors other allocated
      routersCounted := wellFormed.routersCounted
      linksStateCounted := wellFormed.linksStateCounted
      routerListsCounted := wellFormed.routerListsCounted }

end LsdbData

/-- A link state database: the record and its structural invariant. -/
structure Lsdb where
  data : LsdbData
  wellFormed : data.WellFormed

namespace Lsdb

/-- `cr_lsdb_init`. -/
def init : Lsdb where
  data := .empty
  wellFormed := LsdbData.empty_wellFormed

/-- `cr_lsdb_link_state_find`. -/
def crLsdbLinkStateFind (db : Lsdb) (key : LinkStateKey) :
    Option CrLsdbLinkState :=
  if key.rtId = 0 then
    none
  else
    (db.data.lsdbLinkStateFind key).map db.data.heap

/--
`cr_lsdb_link_state_add`, without the packet it sends to the database module.
-/
def crLsdbLinkStateAdd (db : Lsdb) (link : CrLsdbLinkState) :
    Except Fault Lsdb :=
  if startNonzero : link.key.rtId ≠ 0 then
    if absent : db.data.lsdbLinkStateFind link.key = none then
      .ok
        { data := db.data.lsdbLinkStateAdd link
          wellFormed :=
            LsdbData.lsdbLinkStateAdd_wellFormed
              db.wellFormed startNonzero absent }
    else
      .error (.assertFailed .lsdbLinkStateAddPresent)
  else
    .error (.assertFailed .lsdbLinkStateAddZero)

/--
`cr_lsdb_link_state_update`, without the packet it sends to the database
module.  The final `memcpy` stands outside the test that the key was found, so
for a missing key it writes through an uninitialised pointer.
-/
def crLsdbLinkStateUpdate (db : Lsdb) (link : CrLsdbLinkState) :
    Except Fault Lsdb :=
  if link.key.rtId ≠ 0 then
    match found : db.data.lsdbLinkStateFind link.key with
    | some entry =>
        .ok
          { data := db.data.writeLinkState entry link
            wellFormed :=
              LsdbData.writeLinkState_wellFormed db.wellFormed
                ((LsdbData.lsdbLinkStateFind_eq_some
                  db.wellFormed).mp found).2 }
    | none =>
        .error .wildPointer
  else
    .error (.assertFailed .lsdbLinkStateUpdateZero)

/--
`cr_lsdb_get_links_state`: the global list is walked from its head and every
entry is pushed in front of the copies made so far.
-/
def crLsdbGetLinksState (db : Lsdb) : List CrLsdbLinkState :=
  db.data.linksState.foldl
    (fun copies entry => db.data.heap entry :: copies) []

/-- A stored entry is one of the allocated heap nodes, under its own key. -/
theorem crLsdbLinkStateFind_eq_some
    {db : Lsdb}
    {key : LinkStateKey}
    {link : CrLsdbLinkState} :
    db.crLsdbLinkStateFind key = some link ↔
      ∃ entry < db.data.brk,
        db.data.heap entry = link ∧ link.key = key := by
  unfold crLsdbLinkStateFind
  constructor
  · intro found
    split at found
    · cases found
    · obtain ⟨entry, entryFound, rfl⟩ := Option.map_eq_some_iff.mp found
      obtain ⟨allocated, sameKey⟩ :=
        (LsdbData.lsdbLinkStateFind_eq_some db.wellFormed).mp entryFound
      exact ⟨entry, allocated, rfl, sameKey⟩
  · rintro ⟨entry, allocated, rfl, rfl⟩
    rw [if_neg (db.wellFormed.startsNonzero entry allocated),
      (LsdbData.lsdbLinkStateFind_eq_some db.wellFormed).mpr
        ⟨allocated, rfl⟩]
    rfl

/-- A found entry has the key it was looked up by. -/
theorem key_of_find
    {db : Lsdb}
    {key : LinkStateKey}
    {link : CrLsdbLinkState}
    (found : db.crLsdbLinkStateFind key = some link) :
    link.key = key := by
  obtain ⟨_, _, _, sameKey⟩ := crLsdbLinkStateFind_eq_some.mp found
  exact sameKey

/-- Only keys with a nonzero start are ever found. -/
theorem rtId_ne_zero_of_find
    {db : Lsdb}
    {key : LinkStateKey}
    {link : CrLsdbLinkState}
    (found : db.crLsdbLinkStateFind key = some link) :
    key.rtId ≠ 0 := by
  intro isZero
  simp [crLsdbLinkStateFind, isZero] at found

/-- The initial database holds no entry. -/
@[simp] theorem init_find
    (key : LinkStateKey) :
    init.crLsdbLinkStateFind key = none := by
  cases found : init.crLsdbLinkStateFind key with
  | none =>
      rfl
  | some link =>
      obtain ⟨entry, allocated, _⟩ :=
        crLsdbLinkStateFind_eq_some.mp found
      exact absurd allocated (Nat.not_lt_zero entry)

/-- Two lookups with the same entries agree. -/
private theorem find_congr
    {first second : Lsdb}
    {firstKey secondKey : LinkStateKey}
    (same :
      ∀ link,
        first.crLsdbLinkStateFind firstKey = some link ↔
          second.crLsdbLinkStateFind secondKey = some link) :
    first.crLsdbLinkStateFind firstKey =
      second.crLsdbLinkStateFind secondKey :=
  Option.ext same

/-- A successful add stores the new entry and no other. -/
theorem find_of_add
    {db added : Lsdb}
    {link : CrLsdbLinkState}
    (returned : db.crLsdbLinkStateAdd link = .ok added)
    (key : LinkStateKey) :
    added.crLsdbLinkStateFind key =
      if key = link.key then some link
      else db.crLsdbLinkStateFind key := by
  unfold crLsdbLinkStateAdd at returned
  split at returned
  · split at returned
    · next startNonzero absent =>
        cases returned
        obtain ⟨heapShape, brkShape⟩ :=
          LsdbData.lsdbLinkStateAdd_heap db.data link
        by_cases isNew : key = link.key
        · subst isNew
          rw [if_pos rfl, crLsdbLinkStateFind_eq_some]
          refine ⟨db.data.brk, ?_, ?_, rfl⟩
          · rw [brkShape]
            exact Nat.lt_succ_self _
          · rw [heapShape, Function.update_self]
        · rw [if_neg isNew]
          apply find_congr
          intro other
          simp only [crLsdbLinkStateFind_eq_some, heapShape, brkShape]
          constructor
          · rintro ⟨entry, allocated, rfl, sameKey⟩
            rcases Nat.lt_succ_iff_lt_or_eq.mp allocated with
                isOld | isPushed
            · rw [Function.update_of_ne (Nat.ne_of_lt isOld)] at sameKey ⊢
              exact ⟨entry, isOld, rfl, sameKey⟩
            · subst isPushed
              rw [Function.update_self] at sameKey
              exact absurd sameKey.symm isNew
          · rintro ⟨entry, allocated, rfl, sameKey⟩
            exact ⟨entry, Nat.lt_succ_of_lt allocated,
              Function.update_of_ne (Nat.ne_of_lt allocated) _ _, sameKey⟩
    · cases returned
  · cases returned

/-- A successful update replaces the entry of its key and no other. -/
theorem find_of_update
    {db updated : Lsdb}
    {link : CrLsdbLinkState}
    (returned : db.crLsdbLinkStateUpdate link = .ok updated)
    (key : LinkStateKey) :
    updated.crLsdbLinkStateFind key =
      if key = link.key then some link
      else db.crLsdbLinkStateFind key := by
  unfold crLsdbLinkStateUpdate at returned
  split at returned
  · split at returned
    · next entry found =>
        cases returned
        obtain ⟨allocated, entryKey⟩ :=
          (LsdbData.lsdbLinkStateFind_eq_some db.wellFormed).mp found
        by_cases isNew : key = link.key
        · subst isNew
          rw [if_pos rfl, crLsdbLinkStateFind_eq_some]
          exact ⟨entry, allocated, Function.update_self _ _ _, rfl⟩
        · rw [if_neg isNew]
          apply find_congr
          intro other
          simp only [crLsdbLinkStateFind_eq_some, LsdbData.writeLinkState]
          constructor
          · rintro ⟨node, nodeAllocated, rfl, sameKey⟩
            by_cases isEntry : node = entry
            · subst isEntry
              rw [Function.update_self] at sameKey
              exact absurd sameKey.symm isNew
            · rw [Function.update_of_ne isEntry] at sameKey ⊢
              exact ⟨node, nodeAllocated, rfl, sameKey⟩
          · rintro ⟨node, nodeAllocated, rfl, sameKey⟩
            have notEntry : node ≠ entry := by
              intro isEntry
              subst isEntry
              exact isNew (sameKey.symm.trans entryKey)
            exact ⟨node, nodeAllocated,
              Function.update_of_ne notEntry _ _, sameKey⟩
    · cases returned
  · cases returned

/-- An absent key with a nonzero start can be added. -/
theorem add_returns
    {db : Lsdb}
    {link : CrLsdbLinkState}
    (startNonzero : link.key.rtId ≠ 0)
    (absent : db.crLsdbLinkStateFind link.key = none) :
    ∃ added, db.crLsdbLinkStateAdd link = .ok added := by
  have entryAbsent : db.data.lsdbLinkStateFind link.key = none := by
    simpa [crLsdbLinkStateFind, startNonzero] using absent
  exact ⟨_, by rw [crLsdbLinkStateAdd, dif_pos startNonzero, dif_pos entryAbsent]⟩

/-- A key that was added was absent. -/
theorem absent_of_add
    {db added : Lsdb}
    {link : CrLsdbLinkState}
    (returned : db.crLsdbLinkStateAdd link = .ok added) :
    db.crLsdbLinkStateFind link.key = none := by
  unfold crLsdbLinkStateAdd at returned
  split at returned
  · next startNonzero =>
      split at returned
      · next absent =>
          unfold crLsdbLinkStateFind
          rw [if_neg startNonzero, absent]
          rfl
      · cases returned
  · cases returned

/-- Adding a key with a zero start fails its assertion. -/
theorem add_zero
    (db : Lsdb)
    {link : CrLsdbLinkState}
    (startZero : link.key.rtId = 0) :
    db.crLsdbLinkStateAdd link =
      .error (.assertFailed .lsdbLinkStateAddZero) := by
  simp [crLsdbLinkStateAdd, startZero]

/-- A present key can be updated. -/
theorem update_returns
    {db : Lsdb}
    {link old : CrLsdbLinkState}
    (found : db.crLsdbLinkStateFind link.key = some old) :
    ∃ updated, db.crLsdbLinkStateUpdate link = .ok updated := by
  have startNonzero := rtId_ne_zero_of_find found
  obtain ⟨entry, allocated, _, sameKey⟩ :=
    crLsdbLinkStateFind_eq_some.mp found
  subst old
  have entryFound :=
    (LsdbData.lsdbLinkStateFind_eq_some db.wellFormed).mpr
      ⟨allocated, sameKey⟩
  unfold crLsdbLinkStateUpdate
  rw [if_pos startNonzero]
  split
  · exact ⟨_, rfl⟩
  · next absent =>
      rw [absent] at entryFound
      cases entryFound

/-- A key that was updated was present. -/
theorem present_of_update
    {db updated : Lsdb}
    {link : CrLsdbLinkState}
    (returned : db.crLsdbLinkStateUpdate link = .ok updated) :
    ∃ old, db.crLsdbLinkStateFind link.key = some old := by
  unfold crLsdbLinkStateUpdate at returned
  split at returned
  · next startNonzero =>
      split at returned
      · next entry found =>
          unfold crLsdbLinkStateFind
          rw [if_neg startNonzero, found]
          exact ⟨_, rfl⟩
      · cases returned
  · cases returned

/-- The snapshot lists the allocated nodes in the order they were added. -/
theorem crLsdbGetLinksState_eq
    (db : Lsdb) :
    db.crLsdbGetLinksState =
      (List.range db.data.brk).map db.data.heap := by
  have pushed :
      ∀ (entries : List Nat) (copies : List CrLsdbLinkState),
        entries.foldl
            (fun copies entry => db.data.heap entry :: copies) copies =
          (entries.map db.data.heap).reverse ++ copies := by
    intro entries
    induction entries with
    | nil =>
        simp
    | cons entry rest inductionHypothesis =>
        intro copies
        simp [inductionHypothesis]
  rw [crLsdbGetLinksState, pushed, db.wellFormed.listed]
  simp

/-- The snapshot holds exactly the entries that can be found. -/
theorem mem_crLsdbGetLinksState
    {db : Lsdb}
    {link : CrLsdbLinkState} :
    link ∈ db.crLsdbGetLinksState ↔
      db.crLsdbLinkStateFind link.key = some link := by
  rw [crLsdbGetLinksState_eq, crLsdbLinkStateFind_eq_some]
  simp

end Lsdb

end Pma
