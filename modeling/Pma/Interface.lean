import Pma.FirstMatch
import Pma.Icm
import Pma.Inet
import Pma.PolicyParse

namespace Pma

/-!
# The interfaces of the router

`router/interface.c` keeps what it knows of the interfaces in a list of `struct
rinterface` and finds them there with `get_interface`.  A text is the list of its
bytes, each as a character.
-/

/-- `atoi`: the `long` that `strtol` returns, cut to an `int`. -/
def atoi (text : String) : Int32 :=
  Int32.ofInt (strtol text)

/-- `atoll`. -/
def atoll (text : String) : Int64 :=
  Int64.ofInt (strtol text)

namespace Interface

open FirstMatch

/-- `enum if_state`. -/
inductive IfState where
  | DOWN
  | UP
  deriving Repr, DecidableEq

/-- The types of a router whose interfaces are read. -/
inductive RouterType where
  | OSPF_ROUTER
  | BGP_ROUTER
  deriving Repr, DecidableEq

/-- `struct ospf_proto_info`. -/
structure OspfProtoInfo where
  helloInterval : UInt32
  deadInterval : UInt32
  deriving Repr, DecidableEq

/-- `struct proto_info`; `u` is the area of an OSPF interface and the system of a BGP interface. -/
structure ProtoInfo where
  protoType : UInt32
  u : UInt32
  bgpType : UInt32
  cost : UInt32
  info : Option OspfProtoInfo
  deriving Repr, DecidableEq

/-- What is written of `struct interface`, with the addresses on its list. -/
structure Details where
  name : String
  ifindex : UInt32
  status : IfState
  bandwidth : UInt32
  hwAddr : String
  connected : List UInt32
  deriving Repr, DecidableEq

/-- `struct rinterface`. -/
structure Rinterface where
  type : IfType
  opState : IfState
  hwState : IfState
  name : String
  ctlId : UInt32
  protoInfo : Option ProtoInfo
  neighbor : Option Neighbor
  details : Details
  sendRate : UInt64
  recvRate : UInt64
  sendPacket : UInt64
  recvPacket : UInt64
  deriving Repr, DecidableEq

/-- `malloc_z` of an interface, with the details of `if_create`. -/
def created : Rinterface where
  type := .access
  opState := .DOWN
  hwState := .DOWN
  name := ""
  ctlId := 0
  protoInfo := none
  neighbor := none
  details :=
    { name := ""
      ifindex := 0
      status := .DOWN
      bandwidth := 0
      hwAddr := ""
      connected := [] }
  sendRate := 0
  recvRate := 0
  sendPacket := 0
  recvPacket := 0

/-! ## The queries of `get_interface` -/

/-- `Q_CTID`. -/
def qCtid (ctid : UInt32) (face : Rinterface) : Bool :=
  face.ctlId = ctid

/-- `Q_NAME`. -/
def qName (name : String) (face : Rinterface) : Bool :=
  face.name = name

/-- `Q_IPADDR`. -/
def qIpaddr (addr : UInt32) (face : Rinterface) : Bool :=
  face.details.connected.any (· = addr)

/-- The interface the callers use of those that `get_interface` returns, the first one. -/
def getInterface (query : Rinterface → Bool) (iflist : List Rinterface) : Option Rinterface :=
  iflist.find? query

/-- `get_address_of_backbone` and `get_address_of_access`, which are the same. -/
def getAddress (face : Rinterface) : Option UInt32 :=
  face.details.connected.head?

/-- `check_interface_status`. -/
def checkInterfaceStatus (cstatus : String) : IfState :=
  if cstatus ≠ "down" then .UP else .DOWN

/-- The type of an interface is set. -/
def setType (type : IfType) (face : Rinterface) : Rinterface :=
  { face with type := type }

end Interface

end Pma
