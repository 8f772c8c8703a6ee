import Pma.InterfaceConfig

namespace Pma

/-!
# The refresh of the interfaces

`update_interface_from_snmp` of `router/interface.c` goes through the table of the
device, finds or creates the interface of each row and writes the row into it.
The address goes through `connected_add` of `lib/if.c`, which adds to an empty
list only.
-/

namespace Interface.Refresh

open Config FirstMatch Words

/-- `struct ifTable`: the columns that are read. -/
structure IfTable where
  ifdex : String
  ifDescr : String
  ifOperStatus : String
  ifAdminStatus : String
  ifBandwidth : String
  ip : String
  areaId : String
  ospfIfHelloInterval : String
  ospfIfDeadInterval : String
  ospfCost : String
  physAddress : String
  nbrRouteId : String
  ospfNbrIp : String
  deriving Repr, DecidableEq

/--
What a refresh meets: the table of the device, its number as `getBgpLocalAs` gives
it, the configuration file, and what the memory of a new address holds before
`inet_pton` writes it.
-/
structure Poll where
  table : List IfTable
  asid : String
  file : Option (List Char)
  fresh : IfTable → UInt32

/-- The number of the interface in a row. -/
def ctid (node : IfTable) : UInt32 :=
  (atoi node.ifdex).toUInt32

/-- `connected_add`; `cmp` is whether the list has a comparison, which `if_create` sets. -/
def connectedAdd (cmp : Bool) (connected : List UInt32) (ip : UInt32) : List UInt32 :=
  let flag := connected.any fun _ => cmp
  if flag then connected else connected ++ [ip]

/-- What the address of a row holds after `inet_pton`. -/
def addressRead (poll : Poll) (node : IfTable) : UInt32 :=
  (inetPton node.ip).getD (poll.fresh node)

/-- The protocol information of a row. -/
def fillProto (deviceType : RouterType) (asId : UInt32) (node : IfTable)
    (proto : ProtoInfo) : ProtoInfo :=
  let area := (atoi node.areaId).toUInt32
  let proto :=
    match deviceType with
    | .BGP_ROUTER => { proto with
        protoType := 2
        u := area
        bgpType := if area = asId then 2 else 1 }
    | .OSPF_ROUTER => { proto with
        protoType := 1
        u := area
        info := some
          { helloInterval := (atoi node.ospfIfHelloInterval).toUInt32
            deadInterval := (atoi node.ospfIfDeadInterval).toUInt32 } }
  { proto with cost := (atoi node.ospfCost).toUInt32 }

/-- The neighbor of a row; an address that cannot be read is left as it was. -/
def fillNeighbor (node : IfTable) (neighbor : Neighbor) : Neighbor :=
  { neighbor with
    rid := (inetPton node.nbrRouteId).getD 0
    routerAddr := (inetPton node.ospfNbrIp).getD neighbor.routerAddr }

/-- The body of the loop behind the lookup. -/
def fill (deviceType : RouterType) (poll : Poll) (node : IfTable) (face : Rinterface) :
    Rinterface :=
  { face with
    ctlId := ctid node
    name := node.ifDescr
    opState := checkInterfaceStatus node.ifOperStatus
    hwState := checkInterfaceStatus node.ifAdminStatus
    details :=
      { name := node.ifDescr
        ifindex := ctid node
        status := checkInterfaceStatus node.ifOperStatus
        bandwidth := (atoi node.ifBandwidth).toUInt32
        hwAddr := node.physAddress
        connected := connectedAdd true face.details.connected (addressRead poll node) }
    protoInfo := some
      (fillProto deviceType (atoi poll.asid).toUInt32 node (face.protoInfo.getD ⟨0, 0, 0, 0, none⟩))
    neighbor := some (fillNeighbor node (face.neighbor.getD ⟨0, 0, 0, 0⟩))
    type := .unknown }

/-- A pass of the loop: the interface of the row is found or created. -/
def updateRow (deviceType : RouterType) (poll : Poll) (iflist : List Rinterface)
    (node : IfTable) : List Rinterface :=
  upsert (qCtid (ctid node)) (fill deviceType poll node) created iflist

/-- The loop of `update_interface_from_snmp`. -/
def updateRows (deviceType : RouterType) (poll : Poll) (iflist : List Rinterface) :
    List Rinterface :=
  poll.table.foldl (updateRow deviceType poll) iflist

/-- `update_interface_from_snmp`. -/
def updateInterfaceFromSnmp (deviceType : RouterType) (iflist : List Rinterface) (poll : Poll) :
    Option (List Rinterface) :=
  loadInterfaceTypeFromConfig poll.file (updateRows deviceType poll iflist)

/-- Refreshes one after the other, from the empty list. -/
def refreshAll (deviceType : RouterType) (polls : List Poll) : Option (List Rinterface) :=
  polls.foldlM (updateInterfaceFromSnmp deviceType) []

/-! ## What a refresh is to do -/

/-- All rows of the tables, with their tables. -/
def rowsOf (polls : List Poll) : List (Poll × IfTable) :=
  polls.flatMap fun poll => poll.table.map fun node => (poll, node)

/-- The interface of a row, as the callers look it up. -/
def interfaceOf (iflist : List Rinterface) (node : IfTable) : Option Rinterface :=
  getInterface (qCtid (ctid node)) iflist

/-- What a row says of an interface, apart from its address. -/
structure Filled (node : IfTable) (face : Rinterface) : Prop where
  name : face.name = node.ifDescr
  state : face.opState = checkInterfaceStatus node.ifOperStatus
  cost : face.protoInfo.map ProtoInfo.cost = some (atoi node.ospfCost).toUInt32
  area : face.protoInfo.map ProtoInfo.u = some (atoi node.areaId).toUInt32

/-- The interfaces after the polls and `last` are those of the device. -/
structure Reflects (deviceType : RouterType) (polls : List Poll) (last : Poll)
    (iflist : List Rinterface) : Prop where
  once : (iflist.map Rinterface.ctlId).Nodup
  seen : ∀ id, id ∈ iflist.map Rinterface.ctlId ↔
    ∃ row ∈ rowsOf (polls ++ [last]), ctid row.2 = id
  filled : ∀ node ∈ last.table, ∃ face, interfaceOf iflist node = some face ∧ Filled node face
  address : ∀ node ∈ last.table, ∃ addr,
    inetPton node.ip = some addr ∧ (interfaceOf iflist node).bind getAddress = some addr
  twice : ∀ fresh,
    updateInterfaceFromSnmp deviceType iflist { last with fresh := fresh } = some iflist

/-- The first row of an interface holds the address that its row in `last` gives. -/
def KeepsAddresses (polls : List Poll) (last : Poll) : Prop :=
  ∀ node ∈ last.table, ∃ first,
    (rowsOf (polls ++ [last])).find? (fun row => ctid row.2 = ctid node) = some first ∧
      inetPton node.ip = some (addressRead first.1 first.2)

section

variable (deviceType : RouterType) (poll : Poll) {iflist : List Rinterface}

/-! ## A row -/

theorem interfaceOf_updateRow
    (iflist : List Rinterface)
    (node : IfTable) :
    interfaceOf (updateRow deviceType poll iflist node) node =
      some (fill deviceType poll node ((interfaceOf iflist node).getD created)) := by
  apply find?_upsert
  · intro _ _
    exact decide_eq_true rfl
  · exact decide_eq_true rfl

theorem getInterface_updateRow_other
    (iflist : List Rinterface)
    {node : IfTable}
    {id : UInt32}
    (other : ctid node ≠ id) :
    getInterface (qCtid id) (updateRow deviceType poll iflist node) =
      getInterface (qCtid id) iflist := by
  apply find?_upsert_other
  · intro face found
    have same : face.ctlId = ctid node := of_decide_eq_true found
    exact decide_eq_false (same ▸ other)
  · intro _ _
    exact decide_eq_false other
  · exact decide_eq_false other

theorem once_updateRow
    (node : IfTable)
    (once : (iflist.map Rinterface.ctlId).Nodup) :
    ((updateRow deviceType poll iflist node).map Rinterface.ctlId).Nodup := by
  apply nodup_upsert
  · intro _ _
    rfl
  · rfl
  · exact once

/-! ## The rows of a table -/

theorem once_updateRows
    (nodes : List IfTable)
    (once : (iflist.map Rinterface.ctlId).Nodup) :
    ((nodes.foldl (updateRow deviceType poll) iflist).map Rinterface.ctlId).Nodup := by
  induction nodes generalizing iflist with
  | nil =>
      exact once
  | cons node rest inductionHypothesis =>
      exact inductionHypothesis (once_updateRow deviceType poll node once)

theorem getInterface_updateRows_other
    {nodes : List IfTable}
    {id : UInt32}
    (other : ∀ node ∈ nodes, ctid node ≠ id)
    (iflist : List Rinterface) :
    getInterface (qCtid id) (nodes.foldl (updateRow deviceType poll) iflist) =
      getInterface (qCtid id) iflist := by
  induction nodes generalizing iflist with
  | nil =>
      rfl
  | cons node rest inductionHypothesis =>
      rw [List.forall_mem_cons] at other
      rw [List.foldl_cons, inductionHypothesis other.2,
        getInterface_updateRow_other deviceType poll iflist other.1]

/-- A row is written into its interface as it was before the table. -/
theorem interfaceOf_updateRows
    {nodes : List IfTable}
    (distinct : (nodes.map ctid).Nodup)
    {node : IfTable}
    (member : node ∈ nodes)
    (iflist : List Rinterface) :
    interfaceOf (nodes.foldl (updateRow deviceType poll) iflist) node =
      some (fill deviceType poll node ((interfaceOf iflist node).getD created)) := by
  induction nodes generalizing iflist with
  | nil =>
      cases member
  | cons first rest inductionHypothesis =>
      obtain ⟨fresh, distinctRest⟩ := List.nodup_cons.mp distinct
      rw [List.foldl_cons]
      rcases List.mem_cons.mp member with isFirst | inRest
      · have others : ∀ other ∈ rest, ctid other ≠ ctid first := by
          intro other memberOther same
          exact fresh (List.mem_map.mpr ⟨other, memberOther, same⟩)
        rw [isFirst]
        exact (getInterface_updateRows_other deviceType poll others _).trans
          (interfaceOf_updateRow deviceType poll iflist first)
      · have apart : ctid first ≠ ctid node := by
          intro same
          exact fresh (List.mem_map.mpr ⟨node, inRest, same.symm⟩)
        have before :
            interfaceOf (updateRow deviceType poll iflist first) node = interfaceOf iflist node :=
          getInterface_updateRow_other deviceType poll iflist apart
        rw [inductionHypothesis distinctRest inRest, before]

/-! ## The types of the configuration -/

/-- An interface apart from its type. -/
def untyped (face : Rinterface) : Rinterface :=
  setType .unknown face

/-- The configuration changes types only. -/
theorem untyped_load
    {file : Option (List Char)}
    {after : List Rinterface}
    (loaded : loadInterfaceTypeFromConfig file iflist = some after) :
    after.map untyped = iflist.map untyped := by
  obtain ⟨script, isScript⟩ := load_script file
  rw [isScript] at loaded
  obtain ⟨given, -, isAfter⟩ := Option.map_eq_some_iff.mp loaded
  rw [← isAfter]
  clear isAfter loaded isScript
  induction given generalizing iflist with
  | nil =>
      rfl
  | cons first rest inductionHypothesis =>
      change (assignAll rest (updateFirst (qName first.1) (setType first.2) iflist)).map untyped = _
      have same (face : Rinterface) (_ : qName first.1 face = true) :
          untyped (setType first.2 face) = untyped face :=
        rfl
      rw [inductionHypothesis, map_updateFirst same]

/-- What is kept apart from types is the same for every interface that is looked up. -/
theorem untyped_getInterface
    {after : List Rinterface}
    (same : after.map untyped = iflist.map untyped)
    (id : UInt32) :
    (getInterface (qCtid id) after).map untyped = (getInterface (qCtid id) iflist).map untyped := by
  have found (faces : List Rinterface) :
      (faces.map untyped).find? (qCtid id) = (getInterface (qCtid id) faces).map untyped := by
    rw [List.find?_map]
    rfl
  rw [← found, ← found, same]

theorem ctlIds_of_untyped
    {after : List Rinterface}
    (same : after.map untyped = iflist.map untyped) :
    after.map Rinterface.ctlId = iflist.map Rinterface.ctlId := by
  have ids := congrArg (List.map Rinterface.ctlId) same
  rwa [List.map_map, List.map_map] at ids

/-! ## The addresses over all refreshes -/

/-- The interfaces after the rows of some tables: each has the address of its first row. -/
structure Kept (rows : List (Poll × IfTable)) (iflist : List Rinterface) : Prop where
  once : (iflist.map Rinterface.ctlId).Nodup
  held : ∀ id,
    (getInterface (qCtid id) iflist).map (fun face => face.details.connected) =
      (rows.find? fun row => ctid row.2 = id).map fun row => [addressRead row.1 row.2]

theorem Kept.nil :
    Kept [] [] :=
  { once := List.nodup_nil
    held := fun _ => rfl }

/-- The address of an interface is that of its first row. -/
theorem Kept.address
    {rows : List (Poll × IfTable)}
    (kept : Kept rows iflist)
    {node : IfTable}
    (listed : (poll, node) ∈ rows) :
    ∃ first,
      rows.find? (fun row => ctid row.2 = ctid node) = some first ∧
        (interfaceOf iflist node).bind getAddress = some (addressRead first.1 first.2) := by
  have held := kept.held (ctid node)
  cases found : rows.find? fun row => ctid row.2 = ctid node with
  | none =>
      have never := List.find?_eq_none.mp found _ listed
      exact absurd (decide_eq_true rfl) never
  | some first =>
      rw [found] at held
      obtain ⟨face, isFace, connected⟩ := Option.map_eq_some_iff.mp held
      refine ⟨first, rfl, ?_⟩
      unfold interfaceOf
      rw [isFace, Option.bind_some, getAddress, connected]
      rfl

/-- A new interface takes the address of its row, an old one keeps its own. -/
theorem Kept.updateRow
    {rows : List (Poll × IfTable)}
    (kept : Kept rows iflist)
    (node : IfTable) :
    Kept (rows ++ [(poll, node)]) (updateRow deviceType poll iflist node) := by
  refine ⟨once_updateRow deviceType poll node kept.once, fun id => ?_⟩
  rw [List.find?_append]
  by_cases same : ctid node = id
  · subst same
    have written := interfaceOf_updateRow deviceType poll iflist node
    unfold interfaceOf at written
    have before := kept.held (ctid node)
    rw [written]
    cases first : rows.find? fun row => ctid row.2 = ctid node with
    | none =>
        rw [first, Option.map_none, Option.map_eq_none_iff] at before
        rw [before]
        simp [fill, created, connectedAdd]
    | some row =>
        rw [first] at before
        obtain ⟨face, found, connected⟩ := Option.map_eq_some_iff.mp before
        rw [found]
        simp [fill, connectedAdd, connected]
  · have notLast : ¬ctid (poll, node).2 = id := same
    rw [getInterface_updateRow_other deviceType poll iflist same, kept.held id]
    simp [same]

theorem Kept.updateRows
    {rows : List (Poll × IfTable)}
    (nodes : List IfTable)
    (kept : Kept rows iflist) :
    Kept (rows ++ nodes.map fun node => (poll, node))
      (nodes.foldl (Refresh.updateRow deviceType poll) iflist) := by
  induction nodes generalizing rows iflist with
  | nil =>
      simpa using kept
  | cons node rest inductionHypothesis =>
      have later := inductionHypothesis (kept.updateRow deviceType poll node)
      rw [List.append_assoc] at later
      exact later

theorem Kept.load
    {rows : List (Poll × IfTable)}
    {file : Option (List Char)}
    {after : List Rinterface}
    (kept : Kept rows iflist)
    (loaded : loadInterfaceTypeFromConfig file iflist = some after) :
    Kept rows after := by
  have same := untyped_load loaded
  constructor
  · rw [ctlIds_of_untyped same]
    exact kept.once
  · intro id
    rw [← kept.held id]
    have found := congrArg (Option.map fun face => face.details.connected)
      (untyped_getInterface same id)
    rw [Option.map_map, Option.map_map] at found
    exact found

theorem Kept.update
    {rows : List (Poll × IfTable)}
    {after : List Rinterface}
    (kept : Kept rows iflist)
    (updated : updateInterfaceFromSnmp deviceType iflist poll = some after) :
    Kept (rows ++ rowsOf [poll]) after := by
  have written := kept.updateRows deviceType poll poll.table
  have loaded := written.load updated
  rwa [rowsOf, List.flatMap_singleton]

theorem rowsOf_cons
    (poll : Poll)
    (polls : List Poll) :
    rowsOf (poll :: polls) = rowsOf [poll] ++ rowsOf polls := by
  simp [rowsOf]

theorem Kept.all
    {rows : List (Poll × IfTable)}
    {polls : List Poll}
    {after : List Rinterface}
    (kept : Kept rows iflist)
    (run : polls.foldlM (updateInterfaceFromSnmp deviceType) iflist = some after) :
    Kept (rows ++ rowsOf polls) after := by
  induction polls generalizing rows iflist with
  | nil =>
      cases run
      simpa [rowsOf] using kept
  | cons poll rest inductionHypothesis =>
      rw [List.foldlM_cons] at run
      obtain ⟨next, first, later⟩ := Option.bind_eq_some_iff.mp run
      have whole := inductionHypothesis (kept.update deviceType poll first) later
      rwa [List.append_assoc, ← rowsOf_cons] at whole

/-! ## The same table once more -/

theorem connectedAdd_again
    (connected : List UInt32)
    (first second : UInt32) :
    connectedAdd true (connectedAdd true connected first) second =
      connectedAdd true connected first := by
  cases connected with
  | nil =>
      rfl
  | cons addr rest =>
      simp [connectedAdd]

/-- A row that is written again changes nothing, whatever memory its address gets. -/
theorem fill_again
    (fresh : IfTable → UInt32)
    (node : IfTable)
    (face : Rinterface) :
    fill deviceType { poll with fresh := fresh } node (fill deviceType poll node face) =
      fill deviceType poll node face := by
  have connected := connectedAdd_again face.details.connected (addressRead poll node)
    (addressRead { poll with fresh := fresh } node)
  have neighbor (before : Neighbor) :
      fillNeighbor node (fillNeighbor node before) = fillNeighbor node before := by
    cases read : inetPton node.ospfNbrIp with
    | none =>
        simp [fillNeighbor, read]
    | some addr =>
        simp [fillNeighbor, read]
  have proto (asId : UInt32) (before : ProtoInfo) :
      fillProto deviceType asId node (fillProto deviceType asId node before) =
        fillProto deviceType asId node before := by
    cases deviceType with
    | OSPF_ROUTER =>
        rfl
    | BGP_ROUTER =>
        rfl
  simp only [fill, Option.getD_some, connected, neighbor, proto]

/-- A row that is in the list already sets a type only. -/
theorem updateRow_filled
    {node : IfTable}
    {faces : List Rinterface}
    (once : (faces.map Rinterface.ctlId).Nodup)
    (present : ctid node ∈ faces.map Rinterface.ctlId)
    (filled : ∀ face ∈ faces, face.ctlId = ctid node →
      fill deviceType poll node face = untyped face) :
    updateRow deviceType poll faces node =
      faces.map fun face => if face.ctlId = ctid node then untyped face else face := by
  have isThere : (faces.any (qCtid (ctid node))) = true := by
    obtain ⟨face, member, same⟩ := List.mem_map.mp present
    exact List.any_eq_true.mpr ⟨face, member, decide_eq_true same⟩
  unfold updateRow upsert
  rw [if_pos isThere]
  refine (updateFirst_eq_map (ctid node) once).trans ?_
  apply List.map_congr_left
  intro face member
  by_cases same : face.ctlId = ctid node
  · rw [if_pos same, if_pos same, filled face member same]
  · rw [if_neg same, if_neg same]

/-- Rows that are in the list already set types only. -/
theorem updateRows_filled
    {nodes : List IfTable}
    {faces : List Rinterface}
    (once : (faces.map Rinterface.ctlId).Nodup)
    (present : ∀ node ∈ nodes, ctid node ∈ faces.map Rinterface.ctlId)
    (filled : ∀ node ∈ nodes, ∀ face ∈ faces, face.ctlId = ctid node →
      fill deviceType poll node face = untyped face) :
    nodes.foldl (updateRow deviceType poll) faces =
      faces.map fun face => if face.ctlId ∈ nodes.map ctid then untyped face else face := by
  induction nodes generalizing faces with
  | nil =>
      simp
  | cons node rest inductionHypothesis =>
      rw [List.forall_mem_cons] at present filled
      have step := updateRow_filled deviceType poll once present.1 filled.1
      have ids :
          (updateRow deviceType poll faces node).map Rinterface.ctlId =
            faces.map Rinterface.ctlId := by
        rw [step, List.map_map]
        apply List.map_congr_left
        intro face _
        simp only [Function.comp_apply]
        split
        · rfl
        · rfl
      rw [List.foldl_cons, inductionHypothesis]
      · rw [step, List.map_map]
        apply List.map_congr_left
        intro face _
        by_cases same : face.ctlId = ctid node
        · simp [same, untyped, setType]
        · simp [same]
      · rwa [ids]
      · rw [ids]
        exact present.2
      · intro other memberOther face member same
        rw [step] at member
        obtain ⟨before, memberBefore, isFace⟩ := List.mem_map.mp member
        subst isFace
        by_cases written : before.ctlId = ctid node
        · rw [if_pos written] at same ⊢
          exact filled.2 other memberOther before memberBefore same
        · rw [if_neg written] at same ⊢
          exact filled.2 other memberOther before memberBefore same

/-- An interface of the list is the one that is looked up under its number. -/
theorem getInterface_of_mem
    {faces : List Rinterface}
    (once : (faces.map Rinterface.ctlId).Nodup)
    {face : Rinterface}
    (member : face ∈ faces) :
    getInterface (qCtid face.ctlId) faces = some face := by
  cases found : getInterface (qCtid face.ctlId) faces with
  | none =>
      have never := List.find?_eq_none.mp found face member
      exact absurd (decide_eq_true rfl) never
  | some other =>
      have isMatch := List.find?_some found
      have inList := List.mem_of_find?_eq_some found
      rw [List.inj_on_of_nodup_map once inList member (of_decide_eq_true isMatch)]

/-- After the loop an interface of the table has no type. -/
theorem type_updateRows
    (distinct : (poll.table.map ctid).Nodup)
    (once : (iflist.map Rinterface.ctlId).Nodup)
    {face : Rinterface}
    (member : face ∈ updateRows deviceType poll iflist)
    (inTable : face.ctlId ∈ poll.table.map ctid) :
    face.type = .unknown := by
  obtain ⟨node, memberNode, isNode⟩ := List.mem_map.mp inTable
  have look := getInterface_of_mem (once_updateRows deviceType poll poll.table once) member
  rw [← isNode] at look
  have written := interfaceOf_updateRows deviceType poll distinct memberNode iflist
  have row := look.symm.trans written
  cases row
  rfl

/-- The loop again, after some types were set, takes the types back. -/
theorem updateRows_again
    {after : List Rinterface}
    (distinct : (poll.table.map ctid).Nodup)
    (once : (iflist.map Rinterface.ctlId).Nodup)
    (same : after.map untyped = (updateRows deviceType poll iflist).map untyped)
    (fresh : IfTable → UInt32) :
    updateRows deviceType { poll with fresh := fresh } after =
      after.map fun face => if face.ctlId ∈ poll.table.map ctid then untyped face else face := by
  have ids := ctlIds_of_untyped same
  have onceAfter : (after.map Rinterface.ctlId).Nodup := by
    rw [ids]
    exact once_updateRows deviceType poll poll.table once
  -- an interface of the table is the one its row was written into
  have written {node : IfTable} (member : node ∈ poll.table) :=
    interfaceOf_updateRows deviceType poll distinct member iflist
  apply updateRows_filled deviceType { poll with fresh := fresh } onceAfter
  · intro node member
    have found := List.mem_of_find?_eq_some (written member)
    rw [ids]
    exact List.mem_map.mpr ⟨_, found, rfl⟩
  · intro node member face inAfter isNode
    have look := getInterface_of_mem onceAfter inAfter
    rw [isNode] at look
    have looked := untyped_getInterface same (ctid node)
    have row := written member
    unfold interfaceOf at row
    rw [look] at looked
    unfold updateRows at looked
    rw [row, Option.map_some, Option.map_some, Option.some.injEq] at looked
    change fill deviceType { poll with fresh := fresh } node (untyped face) = untyped face
    rw [looked]
    exact fill_again deviceType poll fresh node _

/-- Refreshing twice with one table is refreshing once. -/
theorem update_twice
    {after : List Rinterface}
    (distinct : (poll.table.map ctid).Nodup)
    (once : (iflist.map Rinterface.ctlId).Nodup)
    (updated : updateInterfaceFromSnmp deviceType iflist poll = some after)
    (fresh : IfTable → UInt32) :
    updateInterfaceFromSnmp deviceType after { poll with fresh := fresh } = some after := by
  have same := untyped_load updated
  have again := updateRows_again deviceType poll distinct once same fresh
  obtain ⟨script, isScript⟩ := load_script poll.file
  unfold updateInterfaceFromSnmp at updated ⊢
  rw [isScript] at updated ⊢
  obtain ⟨given, isGiven, isAfter⟩ := Option.map_eq_some_iff.mp updated
  rw [isGiven, Option.map_some, Option.some.injEq, again]
  have names :
      after.map Rinterface.name = (updateRows deviceType poll iflist).map Rinterface.name := by
    have both := congrArg (List.map Rinterface.name) same
    rwa [List.map_map, List.map_map] at both
  have namesAgain :
      (after.map fun face => if face.ctlId ∈ poll.table.map ctid then untyped face else face).map
        Rinterface.name = after.map Rinterface.name := by
    rw [List.map_map]
    apply List.map_congr_left
    intro face _
    simp only [Function.comp_apply]
    split
    · rfl
    · rfl
  apply List.ext_getElem?
  intro index
  have place := getElem?_assignAll given (updateRows deviceType poll iflist) index
  rw [isAfter] at place
  rw [getElem?_assignAll, namesAgain, names, List.getElem?_map, place]
  cases there : (updateRows deviceType poll iflist)[index]? with
  | none =>
      rfl
  | some face =>
      have member := List.mem_of_getElem? there
      simp only [Option.map_some, Option.some.injEq]
      by_cases inTable : face.ctlId ∈ poll.table.map ctid
      · have unknown := type_updateRows deviceType poll distinct once member inTable
        simp [setType, untyped, inTable, unknown]
      · cases typeAt given ((updateRows deviceType poll iflist).map Rinterface.name) index with
        | none =>
            simp [setType, inTable]
        | some type =>
            simp [setType, inTable]

/-! ## What holds after any refreshes -/

theorem refresh_some
    {polls : List Poll}
    (fits : ∀ poll ∈ polls, FileFits poll.file)
    (iflist : List Rinterface) :
    ∃ after, polls.foldlM (updateInterfaceFromSnmp deviceType) iflist = some after := by
  induction polls generalizing iflist with
  | nil =>
      exact ⟨iflist, rfl⟩
  | cons poll rest inductionHypothesis =>
      rw [List.forall_mem_cons] at fits
      obtain ⟨next, first⟩ := load_some fits.1 (updateRows deviceType poll iflist)
      obtain ⟨after, later⟩ := inductionHypothesis fits.2 next
      refine ⟨after, ?_⟩
      rw [List.foldlM_cons]
      exact Option.bind_eq_some_iff.mpr ⟨next, first, later⟩

/-- The numbers in the list are those of all rows so far. -/
theorem Kept.seen
    {rows : List (Poll × IfTable)}
    (kept : Kept rows iflist)
    (id : UInt32) :
    id ∈ iflist.map Rinterface.ctlId ↔ ∃ row ∈ rows, ctid row.2 = id := by
  have both := congrArg Option.isSome (kept.held id)
  rw [Option.isSome_map, Option.isSome_map] at both
  have inList : (getInterface (qCtid id) iflist).isSome ↔ id ∈ iflist.map Rinterface.ctlId := by
    unfold getInterface
    rw [List.find?_isSome, List.mem_map]
    simp only [qCtid, decide_eq_true_eq]
  have inRows :
      (rows.find? fun row => ctid row.2 = id).isSome ↔ ∃ row ∈ rows, ctid row.2 = id := by
    rw [List.find?_isSome]
    simp only [decide_eq_true_eq]
  rw [← inList, both, inRows]

/-- The row of the last table is what the interface says of itself, but for its address. -/
theorem filled_of_update
    {after : List Rinterface}
    (distinct : (poll.table.map ctid).Nodup)
    (updated : updateInterfaceFromSnmp deviceType iflist poll = some after)
    {node : IfTable}
    (member : node ∈ poll.table) :
    ∃ face, interfaceOf after node = some face ∧ Filled node face := by
  have look := untyped_getInterface (untyped_load updated) (ctid node)
  have row := interfaceOf_updateRows deviceType poll distinct member iflist
  unfold interfaceOf at row
  unfold updateRows at look
  rw [row, Option.map_some] at look
  obtain ⟨face, found, same⟩ := Option.map_eq_some_iff.mp look
  refine ⟨face, found, ?_⟩
  have area (proto : ProtoInfo) :
      (fillProto deviceType (atoi poll.asid).toUInt32 node proto).u =
        (atoi node.areaId).toUInt32 := by
    cases deviceType with
    | OSPF_ROUTER =>
        rfl
    | BGP_ROUTER =>
        rfl
  constructor
  · exact congrArg Rinterface.name same
  · exact congrArg Rinterface.opState same
  · exact congrArg (fun face => face.protoInfo.map ProtoInfo.cost) same
  · have proto := congrArg (fun face => face.protoInfo.map ProtoInfo.u) same
    exact proto.trans (congrArg some (area _))

/--
After any refreshes the list is that of the device if and only if no interface of
the last table has another address than it had in the first table that listed it.
The refreshes come to an end unless a word of a configuration file is too long.
-/
theorem refresh_reflects
    {polls : List Poll}
    {last : Poll}
    (distinct : (last.table.map ctid).Nodup) :
    ((∀ poll ∈ polls ++ [last], FileFits poll.file) →
      ∃ iflist, refreshAll deviceType (polls ++ [last]) = some iflist) ∧
      ∀ iflist, refreshAll deviceType (polls ++ [last]) = some iflist →
        (Reflects deviceType polls last iflist ↔ KeepsAddresses polls last) := by
  refine ⟨fun fits => refresh_some deviceType fits [], ?_⟩
  intro after whole
  have parts := whole
  unfold refreshAll at parts
  rw [List.foldlM_append] at parts
  obtain ⟨before, run, ending⟩ := Option.bind_eq_some_iff.mp parts
  rw [List.foldlM_cons] at ending
  obtain ⟨reached, updated, isAfter⟩ := Option.bind_eq_some_iff.mp ending
  cases isAfter
  have keptBefore := Kept.nil.all deviceType run
  have kept := Kept.nil.all deviceType whole
  rw [List.nil_append] at kept
  have listed {node : IfTable} (member : node ∈ last.table) :
      (last, node) ∈ rowsOf (polls ++ [last]) := by
    unfold rowsOf
    exact List.mem_flatMap.mpr ⟨last, by simp, List.mem_map.mpr ⟨node, member, rfl⟩⟩
  constructor
  · intro reflects node member
    obtain ⟨first, found, held⟩ := kept.address last (listed member)
    obtain ⟨addr, read, isHeld⟩ := reflects.address node member
    rw [held] at isHeld
    exact ⟨first, found, read.trans isHeld.symm⟩
  · intro keeps
    exact
      { once := kept.once
        seen := kept.seen
        filled := fun node member => filled_of_update deviceType last distinct updated member
        address := by
          intro node member
          obtain ⟨first, found, read⟩ := keeps node member
          obtain ⟨other, foundOther, held⟩ := kept.address last (listed member)
          rw [found] at foundOther
          cases foundOther
          exact ⟨_, read, held⟩
        twice := update_twice deviceType last distinct keptBefore.once updated }

end

/-- The row of an interface that is up, with this address. -/
def oneRow (ip : String) : IfTable where
  ifdex := "2"
  ifDescr := "eth0"
  ifOperStatus := "up"
  ifAdminStatus := "up"
  ifBandwidth := "1000"
  ip := ip
  areaId := "1"
  ospfIfHelloInterval := "10"
  ospfIfDeadInterval := "40"
  ospfCost := "5"
  physAddress := ""
  nbrRouteId := "10.0.0.9"
  ospfNbrIp := "10.0.0.9"

/-- A table of one interface. -/
def onePoll (ip : String) : Poll where
  table := [oneRow ip]
  asid := ""
  file := none
  fresh := fun _ => 0

/-- An interface that keeps its address. -/
theorem refresh_reflects_same :
    ((onePoll "10.0.0.1").table.map ctid).Nodup ∧
      ∃ iflist,
        refreshAll .OSPF_ROUTER ([onePoll "10.0.0.1"] ++ [onePoll "10.0.0.1"]) = some iflist ∧
          Reflects .OSPF_ROUTER [onePoll "10.0.0.1"] (onePoll "10.0.0.1") iflist := by
  have fits : ∀ poll ∈ [onePoll "10.0.0.1"] ++ [onePoll "10.0.0.1"], FileFits poll.file := by
    intro poll member content isFile
    simp only [List.singleton_append, List.mem_cons, List.not_mem_nil, or_false, or_self] at member
    subst member
    cases isFile
  have distinct : ((onePoll "10.0.0.1").table.map ctid).Nodup := List.nodup_singleton _
  have keeps : KeepsAddresses [onePoll "10.0.0.1"] (onePoll "10.0.0.1") := by
    intro node member
    rw [List.mem_singleton.mp member]
    refine ⟨(onePoll "10.0.0.1", oneRow "10.0.0.1"), ?_, ?_⟩
    · have found : decide (ctid (oneRow "10.0.0.1") = ctid (oneRow "10.0.0.1")) = true :=
        decide_eq_true rfl
      exact List.find?_cons_of_pos found
    · decide
  obtain ⟨completes, reflects⟩ := refresh_reflects .OSPF_ROUTER distinct
  obtain ⟨iflist, refreshed⟩ := completes fits
  exact ⟨distinct, iflist, refreshed, (reflects iflist refreshed).mpr keeps⟩

/-- The address of an interface changes on the device and stays in the list. -/
theorem refresh_misses_address :
    ∃ iflist,
      refreshAll .OSPF_ROUTER [onePoll "10.0.0.1", onePoll "10.0.0.2"] = some iflist ∧
        (interfaceOf iflist (oneRow "10.0.0.2")).bind getAddress = inetPton "10.0.0.1" ∧
          ¬Reflects .OSPF_ROUTER [onePoll "10.0.0.1"] (onePoll "10.0.0.2") iflist := by
  have completes :
      (refreshAll .OSPF_ROUTER [onePoll "10.0.0.1", onePoll "10.0.0.2"]).isSome = true := by
    decide
  obtain ⟨iflist, refreshed⟩ := Option.isSome_iff_exists.mp completes
  have held :
      (refreshAll .OSPF_ROUTER [onePoll "10.0.0.1", onePoll "10.0.0.2"]).bind (fun iflist =>
        (interfaceOf iflist (oneRow "10.0.0.2")).bind getAddress) = inetPton "10.0.0.1" := by
    decide
  rw [refreshed, Option.bind_some] at held
  refine ⟨iflist, refreshed, held, ?_⟩
  intro reflects
  obtain ⟨addr, read, isHeld⟩ := reflects.address (oneRow "10.0.0.2") List.mem_cons_self
  have both : inetPton "10.0.0.2" = inetPton "10.0.0.1" :=
    read.trans (isHeld.symm.trans held)
  exact absurd both (by decide)

end Interface.Refresh

end Pma
