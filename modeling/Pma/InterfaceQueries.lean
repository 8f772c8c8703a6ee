import Pma.Interface
import Pma.LinkLists

namespace Pma.Interface

open LinkLists

/-!
# The queries of `get_interface` in memory

`get_interface` and `get_address_of_interface` write what they find to a new
list, of which their callers use the first value before they delete the list.
They find what the queries find in the list of interfaces, and leave the memory
as it was.
-/

/-- A `struct rinterface *`. -/
abbrev FacePtr := Nat

/-- What a `void *` on a list leads to; of a `struct connected` only the address is used. -/
inductive Datum where
  | face (face : FacePtr)
  | connected (address : UInt32)
  deriving Repr, DecidableEq

/-- `void *query` with its `qtype`; the enumerations are compared as numbers. -/
inductive Query where
  | Q_TYPE (type : UInt32)
  | Q_STATE (state : UInt32)
  | Q_NAME (name : String)
  | Q_CTID (ctid : UInt32)
  | Q_NID (rid : UInt32)
  | Q_IPADDR (addr : UInt32)
  deriving Repr, DecidableEq

/-- The value of `enum if_type`. -/
def ifTypeValue : IfType → UInt32
  | .access => 0
  | .backbone => 1
  | .unknown => 2

/-- The value of `enum if_state`. -/
def ifStateValue : IfState → UInt32
  | .DOWN => 0
  | .UP => 1

/-- The interfaces in memory, and their `details->connected`. -/
structure Faces where
  face : FacePtr → Option Rinterface
  connected : FacePtr → ListPtr

/-- The memory while a result is collected, and `*total`. -/
abbrev Collected := Heap Datum × Int32

/-- `(struct rinterface *)data`. -/
def asFace (faces : Faces) : Datum → Except LinkLists.Fault (FacePtr × Rinterface)
  | .face face => (faces.face face).elim (.error .freed) fun found => .ok (face, found)
  | .connected _ => .error .freed

/-- `((struct connected *)data)->address->u.prefix4.s_addr`. -/
def asAddress : Datum → Except LinkLists.Fault UInt32
  | .face _ => .error .freed
  | .connected address => .ok address

/-- `listnode_add(*result, data); (*total)++;` -/
def collect (result : ListPtr) (data : Datum) (collected : Collected) :
    Except LinkLists.Fault Collected := do
  return (← listnodeAdd collected.1 result (some data), collected.2 + 1)

/-- The body of the loops of `get_interface` over the interfaces. -/
def testInterface (faces : Faces) (query : Query) (result : ListPtr) (collected : Collected)
    (data : Datum) : Except LinkLists.Fault Collected := do
  let (face, found) ← asFace faces data
  let add := collect result (.face face)
  match query with
  | .Q_TYPE type => if ifTypeValue found.type = type then add collected else .ok collected
  | .Q_STATE state => if ifStateValue found.opState = state then add collected else .ok collected
  | .Q_NAME name => if found.name = name then add collected else .ok collected
  | .Q_CTID ctid => if found.ctlId = ctid then add collected else .ok collected
  | .Q_NID rid =>
      let neighbor ← LinkLists.deref found.neighbor
      if neighbor.rid = rid then add collected else .ok collected
  | .Q_IPADDR addr =>
      -- An interface is added once for each of its addresses that matches.
      listLoop Prod.fst
        (fun collected data => do
          if (← asAddress data) = addr then add collected else .ok collected)
        (faces.connected face) collected

/-- `get_interface`. -/
def getInterfaces (faces : Faces) (query : Query) (iflist result : ListPtr)
    (heap : Heap Datum) : Except LinkLists.Fault Collected :=
  listLoop Prod.fst (testInterface faces query result) iflist (heap, 0)

/-- `get_address_of_interface`. -/
def getAddressOfInterface (faces : Faces) (iface : FacePtr) (result : ListPtr)
    (heap : Heap Datum) : Except LinkLists.Fault Collected :=
  listLoop Prod.fst (fun collected data => collect result data collected)
    (faces.connected iface) (heap, 0)

/-- `result->head->data`, if there is something in the result. -/
def firstData (result : ListPtr) (collected : Collected) :
    Except LinkLists.Fault (Option Datum) := do
  if collected.2 ≥ 1 then
    let head ← LinkLists.deref (← collected.1.list result).head
    return (← collected.1.node head).data
  else
    return none

/-- What the callers do: the first value of the result, which is deleted then. -/
def firstOf (search : ListPtr → Heap Datum → Except LinkLists.Fault Collected) (heap : Heap Datum) :
    Except LinkLists.Fault (Option Datum × Heap Datum) := do
  let (result, heap) := listNew heap
  let collected ← search result heap
  let found ← firstData result collected
  let heap ← listDeleteAllNode collected.1 result
  let heap ← listFree heap result
  return (found, heap)

/-- What the callers search for. -/
inductive Request where
  | interface (query : Query)
  | address (iface : FacePtr)
  deriving Repr, DecidableEq

/-- A search of `firstOf`. -/
def Request.search (faces : Faces) (iflist : ListPtr) :
    Request → ListPtr → Heap Datum → Except LinkLists.Fault Collected
  | .interface query => getInterfaces faces query iflist
  | .address iface => getAddressOfInterface faces iface

end Pma.Interface
