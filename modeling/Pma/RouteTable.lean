import Mathlib.Data.List.Nodup
import Mathlib.Data.List.Perm.Basic
import Pma.Transition

namespace Pma

open Transition

/-!
# The route table

`netlink/route.c` and `router/routertable.c` keep the routing table as a linked
list behind a dummy head.  A cycle marks what it sees: routes that are new to
the list are `FRESH_STATUS`, routes seen again are replaced by `NEW_STATUS`
ones, and `watch_route_change` deletes the rest.  `refresh_route_status` marks
all routes old for the next cycle, except the last one: its loop ends at the
node that has no next.
-/

/-- What `prefixv4_cmp` and `is_route_same_exactly` compare. -/
structure RouteKey where
  prefixAddr : UInt32
  prefixlen : UInt8
  gateway : UInt32
  interfaceId : UInt32
  metric : UInt32
  deriving Repr, DecidableEq

/-- `dirty`. -/
inductive RouteStatus where
  | FRESH_STATUS
  | OLD_STATUS
  | NEW_STATUS
  deriving Repr, DecidableEq

/-- `struct route`, a node of the list. -/
structure Route extends RouteKey where
  type : UInt32
  dirty : RouteStatus
  deriving Repr, DecidableEq

/-- `prefixv4_cmp`. -/
def prefixv4Cmp (a b : RouteKey) : Bool :=
  a.prefixAddr = b.prefixAddr && a.prefixlen = b.prefixlen

/-- `is_route_same_exactly`. -/
def isRouteSameExactly (a b : RouteKey) : Bool :=
  if a.gateway = b.gateway then
    if a.interfaceId = b.interfaceId then
      a.metric = b.metric
    else
      false
  else
    false

/-- `add_route`: at the head of the list. -/
def addRoute (rlist : List Route) (r : Route) : List Route :=
  { r with dirty := .FRESH_STATUS } :: rlist

/-- `find_before_route`: how many routes stand before the one found. -/
def findBeforeRoute (rlist : List Route) (rt : Route) : Option Nat :=
  rlist.findIdx? fun p =>
    prefixv4Cmp p.toRouteKey rt.toRouteKey &&
      isRouteSameExactly p.toRouteKey rt.toRouteKey

/-- `update_route`: in the place of the route found. -/
def updateRoute (rlist : List Route) (before : Nat) (r : Route) : List Route :=
  rlist.set before { r with dirty := .NEW_STATUS }

/-- What both collectors do with a route they have built. -/
def collectRoute (rlist : List Route) (r : Route) : List Route :=
  match findBeforeRoute rlist r with
  | none => addRoute rlist r
  | some before => updateRoute rlist before r

/-- `watch_route_change`: whether the list changed, and the list. -/
def watchRouteChange : List Route → Bool × List Route
  | [] => (false, [])
  | h :: rest =>
      let (ischanged, kept) := watchRouteChange rest
      match h.dirty with
      | .NEW_STATUS => (ischanged, h :: kept)
      | .FRESH_STATUS => (true, h :: kept)
      | .OLD_STATUS => (true, kept)

/-- `refresh_route_status`. -/
def refreshRouteStatus : List Route → List Route
  | [] => []
  | [last] => [last]
  | r :: rest => { r with dirty := .OLD_STATUS } :: refreshRouteStatus rest

/-- A route as a collector sees it. -/
inductive ObservedRoute where
  /-- The arguments of `route_add_ipv4`; an interface of zero stands for none. -/
  | netlink
      (type prefixAddr : UInt32)
      (prefixlen : UInt8)
      (gate src : Option UInt32)
      (ifindex metric : UInt32)
  /-- A row of the table that `get_route_table_by_snmp` reads, converted. -/
  | snmp (key : RouteKey) (type : UInt32)
  deriving Repr, DecidableEq

namespace ObservedRoute

/-- The prefix, gateway, interface and metric of a route. -/
def key : ObservedRoute → RouteKey
  | .netlink _ prefixAddr prefixlen gate _ ifindex metric =>
      ⟨prefixAddr, prefixlen, gate.getD 0, ifindex, metric⟩
  | .snmp key _ => key

/--
The `struct route` a collector builds from zeroed memory.  With a gateway and
an interface, `nexthop_ipv4_ifindex_add` sets the interface only when no
preferred source is given.
-/
def newRoute : ObservedRoute → Route
  | .netlink type prefixAddr prefixlen gate src ifindex metric =>
      let (gateway, interfaceId) :=
        match gate with
        | some gate =>
            if ifindex ≠ 0 then
              if src.isSome then (gate, 0) else (gate, ifindex)
            else
              (gate, 0)
        | none => (0, ifindex)
      { prefixAddr := prefixAddr
        prefixlen := prefixlen
        gateway := gateway
        interfaceId := interfaceId
        metric := metric
        type := type
        dirty := .FRESH_STATUS }
  | .snmp key type => { key with
      type := type
      dirty := .FRESH_STATUS }

/-- The interface of a route is stored: there is no preferred source beside it. -/
def Carried : ObservedRoute → Prop
  | .netlink _ _ _ gate src ifindex _ =>
      gate = none ∨ src = none ∨ ifindex = 0
  | .snmp _ _ => True

end ObservedRoute

/-- A collector: the routes come in any order. -/
def collectRoutes
    (rlist : List Route)
    (observed : List ObservedRoute) : List Route :=
  observed.foldl (fun rlist route => collectRoute rlist route.newRoute) rlist

/-- `route_table_detect`: what `watch_route_change` returns, and the list. -/
def routeTableDetect
    (rlist : List Route)
    (observed : List ObservedRoute) : Bool × List Route :=
  let (ret, watched) := watchRouteChange (collectRoutes rlist observed)
  (ret, refreshRouteStatus watched)

/-! ## What the collectors leave in the list -/

/-- The keys of the routes in the list. -/
def keys (rlist : List Route) : List RouteKey :=
  rlist.map Route.toRouteKey

/-- What the cycle looks at in a route. -/
def Route.marked (r : Route) : RouteKey × RouteStatus :=
  (r.toRouteKey, r.dirty)

theorem map_fst_marked
    (rlist : List Route) :
    (rlist.map Route.marked).map Prod.fst = keys rlist := by
  rw [List.map_map]
  rfl

/-- The two comparisons together compare the keys. -/
theorem same_iff
    (a b : RouteKey) :
    (prefixv4Cmp a b && isRouteSameExactly a b) = true ↔ a = b := by
  cases a
  cases b
  simp only [prefixv4Cmp, isRouteSameExactly, Bool.and_eq_true,
    decide_eq_true_eq, RouteKey.mk.injEq, and_assoc]
  split
  · split <;> simp_all
  · simp_all

theorem findBeforeRoute_eq
    (rlist : List Route)
    (rt : Route) :
    findBeforeRoute rlist rt =
      rlist.findIdx? fun p => p.toRouteKey = rt.toRouteKey := by
  unfold findBeforeRoute
  congr 1
  funext p
  rw [Bool.eq_iff_iff, same_iff, decide_eq_true_iff]

/-- Replacing the route that is found marks it, and no other. -/
theorem marked_updateRoute
    {rlist : List Route}
    (distinct : (keys rlist).Nodup)
    {r : Route}
    {before : Nat}
    (found : findBeforeRoute rlist r = some before) :
    (updateRoute rlist before r).map Route.marked =
      rlist.map fun p =>
        (p.toRouteKey,
          if p.toRouteKey = r.toRouteKey then .NEW_STATUS else p.dirty) := by
  rw [findBeforeRoute_eq] at found
  unfold updateRoute
  induction rlist generalizing before with
  | nil =>
      rfl
  | cons p rest inductionHypothesis =>
      have apart : p.toRouteKey ∉ keys rest ∧ (keys rest).Nodup :=
        List.nodup_cons.mp distinct
      rw [List.findIdx?_cons] at found
      by_cases same : p.toRouteKey = r.toRouteKey
      · rw [decide_eq_true same, if_pos rfl, Option.some.injEq] at found
        subst found
        rw [List.set_cons_zero, List.map_cons, List.map_cons, if_pos same]
        congr 1
        · unfold Route.marked
          rw [same]
        · apply List.map_congr_left
          intro other member
          rw [if_neg]
          · rfl
          · intro sameOther
            exact apart.1 (List.mem_map.mpr ⟨other, member, sameOther.trans same.symm⟩)
      · rw [decide_eq_false same, if_neg Bool.false_ne_true,
          Option.map_eq_some_iff] at found
        obtain ⟨earlier, foundRest, rfl⟩ := found
        rw [List.set_cons_succ, List.map_cons, List.map_cons, if_neg same,
          inductionHypothesis apart.2 foundRest]
        rfl

/-- The step of a collector. -/
theorem marked_collectRoute
    {rlist : List Route}
    (distinct : (keys rlist).Nodup)
    (r : Route) :
    (collectRoute rlist r).map Route.marked =
      (if r.toRouteKey ∈ keys rlist then [] else [(r.toRouteKey, .FRESH_STATUS)]) ++
        rlist.map fun p =>
          (p.toRouteKey,
            if p.toRouteKey = r.toRouteKey then .NEW_STATUS else p.dirty) := by
  unfold collectRoute
  cases found : findBeforeRoute rlist r with
  | none =>
      rw [findBeforeRoute_eq, List.findIdx?_eq_none_iff] at found
      have absent : r.toRouteKey ∉ keys rlist := by
        intro member
        obtain ⟨p, inList, same⟩ := List.mem_map.mp member
        simpa [same] using found p inList
      rw [if_neg absent]
      change _ :: rlist.map Route.marked = _ :: rlist.map _
      congr 1
      apply List.map_congr_left
      intro p member
      rw [if_neg]
      · rfl
      · intro same
        exact absent (List.mem_map.mpr ⟨p, member, same⟩)
  | some before =>
      have present : r.toRouteKey ∈ keys rlist := by
        rw [findBeforeRoute_eq, List.findIdx?_eq_some_iff_getElem] at found
        obtain ⟨inside, same, _⟩ := found
        exact List.mem_map.mpr
          ⟨_, List.getElem_mem inside, of_decide_eq_true same⟩
      rw [if_pos present]
      exact marked_updateRoute distinct found

/-- A collector keeps the keys of the list and adds the one it brings. -/
theorem keys_collectRoute
    {rlist : List Route}
    (distinct : (keys rlist).Nodup)
    (r : Route) :
    keys (collectRoute rlist r) =
      (if r.toRouteKey ∈ keys rlist then [] else [r.toRouteKey]) ++ keys rlist := by
  rw [← map_fst_marked, marked_collectRoute distinct, List.map_append,
    List.map_map]
  split
  · rfl
  · rfl

/-- The keys of the routes that a collector builds. -/
def builtKeys (observed : List ObservedRoute) : List RouteKey :=
  observed.map fun route => route.newRoute.toRouteKey

/--
The run of a collector: new routes come to the front, and the others are
marked where they stand.
-/
theorem marked_collectRoutes
    {rlist : List Route}
    (distinct : (keys rlist).Nodup)
    {observed : List ObservedRoute}
    (apart : (builtKeys observed).Nodup) :
    (collectRoutes rlist observed).map Route.marked =
      ((builtKeys observed).filter fun key => key ∉ keys rlist).reverse.map
          (fun key => (key, .FRESH_STATUS)) ++
        rlist.map fun p =>
          (p.toRouteKey,
            if p.toRouteKey ∈ builtKeys observed then .NEW_STATUS else p.dirty) := by
  induction observed generalizing rlist with
  | nil =>
      simp only [builtKeys, List.map_nil, List.filter_nil, List.reverse_nil,
        List.nil_append, List.not_mem_nil, if_false]
      rfl
  | cons route rest inductionHypothesis =>
      obtain ⟨notLater, apartRest⟩ := List.nodup_cons.mp apart
      have step := marked_collectRoute distinct route.newRoute
      have nextKeys := keys_collectRoute distinct route.newRoute
      have distinctNext : (keys (collectRoute rlist route.newRoute)).Nodup := by
        rw [nextKeys]
        split
        · exact distinct
        · next absent =>
            exact List.nodup_cons.mpr ⟨absent, distinct⟩
      have later := inductionHypothesis distinctNext apartRest
      have viaMarks :
          ((collectRoute rlist route.newRoute).map fun p =>
              (p.toRouteKey,
                if p.toRouteKey ∈ builtKeys rest then RouteStatus.NEW_STATUS
                else p.dirty)) =
            ((collectRoute rlist route.newRoute).map Route.marked).map fun mark =>
              (mark.1,
                if mark.1 ∈ builtKeys rest then RouteStatus.NEW_STATUS
                else mark.2) := by
        rw [List.map_map]
        rfl
      have split :
          builtKeys (route :: rest) = route.newRoute.toRouteKey :: builtKeys rest :=
        rfl
      have marks :
          ∀ p ∈ rlist,
            (p.toRouteKey,
                if p.toRouteKey ∈ builtKeys rest then RouteStatus.NEW_STATUS
                else if p.toRouteKey = route.newRoute.toRouteKey then .NEW_STATUS
                else p.dirty) =
              (p.toRouteKey,
                if p.toRouteKey ∈ builtKeys (route :: rest) then .NEW_STATUS
                else p.dirty) := by
        intro p _
        by_cases inRest : p.toRouteKey ∈ builtKeys rest
        · simp only [split, List.mem_cons, inRest, or_true, if_true]
        · simp only [split, List.mem_cons, inRest, or_false, if_false]
      change (collectRoutes (collectRoute rlist route.newRoute) rest).map _ = _
      rw [later, viaMarks, step, List.map_append, List.map_map, nextKeys, split,
        List.filter_cons]
      by_cases present : route.newRoute.toRouteKey ∈ keys rlist
      · simp only [present, not_true_eq_false, decide_false, Bool.false_eq_true,
          if_true, if_false, List.nil_append, List.map_nil]
        congr 1
        exact List.map_congr_left marks
      · have sameFilter :
            ((builtKeys rest).filter fun key =>
                key ∉ route.newRoute.toRouteKey :: keys rlist) =
              (builtKeys rest).filter fun key => key ∉ keys rlist := by
          apply List.filter_congr
          intro key member
          have other : key ≠ route.newRoute.toRouteKey := by
            rintro rfl
            exact notLater member
          simp only [List.mem_cons, other, false_or]
        have absent : route.newRoute.toRouteKey ∉ builtKeys rest := notLater
        simp only [present, not_false_eq_true, decide_true, if_true, if_false,
          List.singleton_append, List.reverse_cons, List.map_append,
          List.append_assoc, List.map_cons, List.map_nil, absent]
        rw [sameFilter]
        congr 2
        exact List.map_congr_left marks

/-! ## One cycle -/

theorem watchRouteChange_eq
    (rlist : List Route) :
    watchRouteChange rlist =
      (rlist.any fun r => r.dirty ≠ .NEW_STATUS,
        rlist.filter fun r => r.dirty ≠ .OLD_STATUS) := by
  induction rlist with
  | nil =>
      rfl
  | cons h rest inductionHypothesis =>
      rw [watchRouteChange, inductionHypothesis]
      cases status : h.dirty <;>
        simp [status]

/-- The last route of the list is among the ones seen. -/
def LastSeen (rlist : List Route) (seen : List RouteKey) : Prop :=
  ∀ r ∈ rlist.getLast?, r.toRouteKey ∈ seen

section Cycle

variable {rlist : List Route} {observed : List ObservedRoute}

/-- The routes that a cycle keeps. -/
theorem keys_watched
    (distinct : (keys rlist).Nodup)
    (apart : (builtKeys observed).Nodup) :
    keys (watchRouteChange (collectRoutes rlist observed)).2 =
      ((builtKeys observed).filter fun key => key ∉ keys rlist).reverse ++
        keys (rlist.filter fun r =>
          r.toRouteKey ∈ builtKeys observed ∨ r.dirty ≠ .OLD_STATUS) := by
  have viaMarks :
      keys ((collectRoutes rlist observed).filter fun r => r.dirty ≠ .OLD_STATUS) =
        (((collectRoutes rlist observed).map Route.marked).filter fun mark =>
          mark.2 ≠ .OLD_STATUS).map Prod.fst := by
    rw [List.filter_map, List.map_map]
    rfl
  rw [watchRouteChange_eq, viaMarks, marked_collectRoutes distinct apart,
    List.filter_append, List.map_append, List.filter_map, List.filter_map,
    List.map_map, List.map_map]
  congr 1
  · rw [List.filter_eq_self.mpr (by simp)]
    exact List.map_id _
  · unfold keys
    congr 1
    apply List.filter_congr
    intro r _
    by_cases seen : r.toRouteKey ∈ builtKeys observed
    · simp [seen]
    · simp [seen]

/-- A cycle keeps what it has seen, and what is not marked old. -/
theorem mem_watched
    (distinct : (keys rlist).Nodup)
    (apart : (builtKeys observed).Nodup)
    (key : RouteKey) :
    key ∈ keys (watchRouteChange (collectRoutes rlist observed)).2 ↔
      key ∈ builtKeys observed ∨
        ∃ r ∈ rlist, r.toRouteKey = key ∧ r.dirty ≠ .OLD_STATUS := by
  rw [keys_watched distinct apart, List.mem_append, List.mem_reverse,
    List.mem_filter, decide_eq_true_iff]
  constructor
  · rintro (⟨seen, _⟩ | kept)
    · exact .inl seen
    · obtain ⟨r, inFilter, rfl⟩ := List.mem_map.mp kept
      obtain ⟨inList, why⟩ := List.mem_filter.mp inFilter
      rcases of_decide_eq_true why with seen | notOld
      · exact .inl seen
      · exact .inr ⟨r, inList, rfl, notOld⟩
  · rintro (seen | ⟨r, inList, rfl, notOld⟩)
    · by_cases present : key ∈ keys rlist
      · obtain ⟨r, inList, rfl⟩ := List.mem_map.mp present
        exact .inr (List.mem_map.mpr
          ⟨r, List.mem_filter.mpr ⟨inList, decide_eq_true (.inl seen)⟩, rfl⟩)
      · exact .inl ⟨seen, present⟩
    · exact .inr (List.mem_map.mpr
        ⟨r, List.mem_filter.mpr ⟨inList, decide_eq_true (.inr notOld)⟩, rfl⟩)

end Cycle

/-! ## Runs -/

/-- The list of a routing table, and the routes that the last cycle has seen. -/
structure RouteTable where
  rlist : List Route
  observed : List ObservedRoute

namespace RouteTable

/-- Before the first cycle. -/
def init : RouteTable where
  rlist := []
  observed := []

/-- One cycle. -/
def cycle
    (table : RouteTable)
    (observed : List ObservedRoute) : RouteTable where
  rlist := (routeTableDetect table.rlist observed).2
  observed := observed

/-- The keys of the routes that a cycle sees. -/
def seenKeys (observed : List ObservedRoute) : List RouteKey :=
  observed.map ObservedRoute.key

/-- The stored routes are those that the last cycle has seen, each once. -/
def Synchronised (table : RouteTable) : Prop :=
  (keys table.rlist).Perm (seenKeys table.observed)

/-- A cycle leaves what it has seen and reports a change when there is one. -/
def Right (table : RouteTable) (observed : List ObservedRoute) : Prop :=
  (table.cycle observed).Synchronised ∧
    ((routeTableDetect table.rlist observed).1 = true ↔
      ¬ ∀ key, key ∈ seenKeys observed ↔ key ∈ seenKeys table.observed)

/-- A set of routes of which every one is stored with its interface. -/
structure Observable (observed : List ObservedRoute) : Prop where
  distinct : (seenKeys observed).Nodup
  carried : ∀ route ∈ observed, route.Carried

end RouteTable

end Pma
