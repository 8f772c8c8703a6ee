import Pma.Answers
import Pma.IfRate

namespace Pma

/-!
# Polls of the hardware state

`deviceinfo_diff_and_send` of `router/interface.c` compares the administrative
states of the device with those in the list of interfaces, writes what differs
into the list and uploads all of it if anything did.  `ifrate_detect` polls the
same table and changes the rates of the same list; the table's lock keeps the two
apart.  The polls here are those between two refreshes of the list.
-/

namespace Interface.Device

open Answers FirstMatch

/-- `struct InterfaceTable`: the columns that are read. -/
structure InterfaceTable where
  ifindex : String
  ifadminstatus : String
  deriving Repr, DecidableEq

/-- `struct ifTable` of the last refresh: the columns that are printed. -/
structure IfNode where
  ifdex : String
  ifDescr : String
  ip : String
  netMask : String
  physAddress : String
  ifBandwidth : String
  deriving Repr, DecidableEq

/-- An interface in the document of `device_info_to_xml`. -/
structure DeviceInfo where
  node : IfNode
  hwStatus : IfState
  deriving Repr, DecidableEq

/-- The list of interfaces and `device_info_run_first`. -/
structure DevicePolling where
  iflist : List Rinterface
  runFirst : Bool
  deriving Repr, DecidableEq

/-- The number of the interface in a row. -/
def rowId (ifnode : InterfaceTable) : UInt32 :=
  (atoi ifnode.ifindex).toUInt32

/-- The state in a row. -/
def rowStatus (ifnode : InterfaceTable) : IfState :=
  checkInterfaceStatus ifnode.ifadminstatus

/-- `iface->hw_state = hw_state`. -/
def setHwState (hwState : IfState) (iface : Rinterface) : Rinterface :=
  { iface with hwState := hwState }

/-- A pass of the loop, with `is_changed`. -/
def stateRow (state : List Rinterface × Bool) (ifnode : InterfaceTable) :
    List Rinterface × Bool :=
  match getInterface (qCtid (rowId ifnode)) state.1 with
  -- "find new interface" is left empty
  | none => state
  | some iface =>
      if rowStatus ifnode ≠ iface.hwState then
        (updateFirst (qCtid (rowId ifnode)) (setHwState (rowStatus ifnode)) state.1, true)
      else
        state

/-- The number of an interface of the last refresh. -/
def nodeId (node : IfNode) : UInt32 :=
  (atoi node.ifdex).toUInt32

/-- `device_info_to_xml`; all interfaces of the last refresh are to be found. -/
def deviceInfoToXml (ifList : List IfNode) (iflist : List Rinterface) :
    Option (List DeviceInfo) :=
  ifList.mapM fun node =>
    (getInterface (qCtid (nodeId node)) iflist).map fun iface => ⟨node, iface.hwState⟩

/-- An upload, when there is to be one; nothing where the text is a null pointer. -/
def upload (ifList : List IfNode) (iflist : List Rinterface) (sends : Bool) :
    Option (List (List DeviceInfo)) :=
  if sends then
    (deviceInfoToXml ifList iflist).map fun buff => [buff]
  else
    some []

/-- `deviceinfo_diff_and_send`, with what it sends. -/
def deviceinfoDiffAndSend (ifList : List IfNode) (state : DevicePolling)
    (table : List InterfaceTable) : Option (DevicePolling × List (List DeviceInfo)) :=
  let polled := table.foldl stateRow (state.iflist, false)
  (upload ifList polled.1 polled.2).bind fun changed =>
    (upload ifList polled.1 (!state.runFirst)).map fun first =>
      (⟨polled.1, true⟩, changed ++ first)

/-- `deviceinfo_get_and_send`. -/
def deviceinfoGetAndSend (ifList : List IfNode) (state : DevicePolling) :
    Option (DevicePolling × List (List DeviceInfo)) :=
  (upload ifList state.iflist true).map fun sent => (state, sent)

/-- `device_info_detect`; there is no table when the request fails. -/
def deviceInfoDetect (ifList : List IfNode) (type : Int32) (state : DevicePolling) :
    Option (List InterfaceTable) → Option (DevicePolling × List (List DeviceInfo))
  | none => some (state, [])
  | some table =>
      if type = 1 then
        deviceinfoDiffAndSend ifList state table
      else if type = 2 then
        deviceinfoGetAndSend ifList state
      else
        some (state, [])

/-- A poll of the table of interfaces, by one daemon or the other. -/
inductive Poll where
  | device (type : Int32) (table : Option (List InterfaceTable))
  | rates (table : List Rate.InterfaceTable)

/-- What a poll does to the list and sends of it. -/
def poll (ifList : List IfNode) (state : DevicePolling) :
    Poll → Option (DevicePolling × List (List DeviceInfo))
  | .device type table => deviceInfoDetect ifList type state table
  | .rates table => some ({ state with iflist := table.foldl Rate.rateRow state.iflist }, [])

/-! ## The states that are to be sent -/

/-- The rows a poll compares. -/
def Poll.rows : Poll → List InterfaceTable
  | .device type (some table) => if type = 1 then table else []
  | .device _ none => []
  | .rates _ => []

/-- The rows of polls in their order. -/
def rowsOf (polls : List Poll) : List InterfaceTable :=
  polls.flatMap Poll.rows

/-- The state of an interface after some rows: that of its last one. -/
def stateAfter (rows : List InterfaceTable) (id : UInt32) (initial : IfState) : IfState :=
  rows.foldl (fun state ifnode => if rowId ifnode = id then rowStatus ifnode else state) initial

/-- A poll that compares a table. -/
def Poll.Compares : Poll → Prop
  | .device type table => type = 1 ∧ table.isSome
  | .rates _ => False

/-- A poll that uploads in any case, or after a comparison. -/
def Poll.Uploads : Poll → Prop
  | .device type table => (type = 1 ∨ type = 2) ∧ table.isSome
  | .rates _ => False

/-- The state of an interface in the list. -/
def hwStateOf (iflist : List Rinterface) (id : UInt32) : Option IfState :=
  (getInterface (qCtid id) iflist).map Rinterface.hwState

/-- The states of the interfaces of a list after some rows. -/
def statesAfter (iflist : List Rinterface) (rows : List InterfaceTable) (id : UInt32) :
    Option IfState :=
  (hwStateOf iflist id).map (stateAfter rows id)

/-- The document of some states. -/
def reportOf (ifList : List IfNode) (states : UInt32 → Option IfState) :
    Option (List DeviceInfo) :=
  ifList.mapM fun node => (states (nodeId node)).map (DeviceInfo.mk node)

/-- All interfaces of the last refresh are in the list. -/
def Listed (ifList : List IfNode) (iflist : List Rinterface) : Prop :=
  ∀ node ∈ ifList, (hwStateOf iflist (nodeId node)).isSome

/-- What holds after some polls of a list of interfaces. -/
structure Polled (ifList : List IfNode) (iflist : List Rinterface) (polls : List Poll)
    (last : DevicePolling) (sent : List (List DeviceInfo)) : Prop where
  states : hwStateOf last.iflist = statesAfter iflist (rowsOf polls)
  compared : last.runFirst = true ↔ ∃ earlier ∈ polls, earlier.Compares
  newest : (∃ earlier ∈ polls, earlier.Uploads) →
    sent.getLast? = reportOf ifList (statesAfter iflist (rowsOf polls))

/-! ## A row -/

section

variable {iflist : List Rinterface} {before rows : List InterfaceTable}

variable {ifList : List IfNode}

variable {polls : List Poll} {last : DevicePolling} {sent : List (List DeviceInfo)}

end

end Interface.Device

end Pma
