import Pma.ArrayWrite
import Pma.ModuleLengths
import Pma.RouterList

namespace Pma.PmaList

open Bytes
open PacketReader (Delivers moduleGetData)
open RouterList (Router listBytes saveRouterListToXml)

/-!
# The packet with the neighbours

BM writes its list of routers to a buffer of 1024 bytes, twelve bytes for each
router, copies them to `global_pma_buff` and sends this to ICM, where
`pma_list_handle` takes the body of the packet for an array of `struct pma_list`.
-/

/-! ## BM -/

/-- The size of the buffer of `save_router_list_to_xml`. -/
def listBuffSize : Nat := 1024

/-- The loop of `save_router_list_to_xml`: three copies at `pkt_ptr`, which then moves on. -/
def copyRouters (buff : Vector UInt8 listBuffSize) (pktPtr : Nat) :
    List Router → Option (Vector UInt8 listBuffSize)
  | [] => some buff
  | router :: rest => do
      let buff ← ArrayWrite.writeAll buff pktPtr (leBytes 4 router.devid.toNat)
      let buff ← ArrayWrite.writeAll buff (pktPtr + 4) (leBytes 4 router.rid.toNat)
      let buff ← ArrayWrite.writeAll buff (pktPtr + 2 * 4) (leBytes 4 router.ipAddr.toNat)
      copyRouters buff (pktPtr + 3 * 4) rest

/-- `global_pma_buff`: its buffer, and how many bytes of it are used. -/
structure PmaBuff where
  buff : Vector UInt8 maxBuf
  length : Nat

/-- The bytes in use. -/
def PmaBuff.data (pmaBuff : PmaBuff) : List UInt8 :=
  pmaBuff.buff.toList.take pmaBuff.length

/--
The memory that `save_router_list_to_xml` writes to, for a list that is there;
nothing if it writes behind the end of a buffer.
-/
def saveRouterList (malloced : Vector UInt8 listBuffSize) (before : PmaBuff)
    (routers : List Router) : Option PmaBuff := do
  let filled ← copyRouters malloced 0 routers
  let len := routers.length * 3 * 4
  let buff ← ArrayWrite.writeAll before.buff 0 (filled.toList.take len)
  return ⟨buff, len⟩

/-- `PMA_LIST`. -/
def pmaList : UInt8 := 54

/-! ## ICM -/

/-- The arguments of a call of `set_neighbor_agent_address`, as bits. -/
structure NeighborAddress where
  devid : UInt32
  rid : UInt32
  ip : UInt32
  deriving Repr, DecidableEq

/-- `sizeof(struct pma_list)`. -/
def pmaListSize : Nat := 12

/-- The fields of the `struct pma_list` at an address. -/
def readPmaList (data : Nat → UInt8) (address : Nat) : NeighborAddress where
  devid := .ofNat (leValue (window data address 4))
  rid := .ofNat (leValue (window data (address + 4) 4))
  ip := .ofNat (leValue (window data (address + 8) 4))

/-- The calls of `set_neighbor_agent_address` that `pma_list_handle` makes, in order. -/
def pmaListHandle (data : Nat → UInt8) (length : Nat) : List NeighborAddress :=
  (List.range (length / pmaListSize)).map fun i => readPmaList data (i * pmaListSize)

/-! ## The way of a list -/

/-- The call that is due for a router. -/
def addressOf (router : Router) : NeighborAddress :=
  ⟨router.devid, router.rid, router.ipAddr⟩

/-- The memory that BM and ICM find uninitialised, or with what was there before. -/
structure Surroundings where
  malloced : Vector UInt8 listBuffSize
  before : PmaBuff
  heap : Nat → UInt8
  memory : Uninitialised
  /-- What comes behind the packet. -/
  behind : List UInt8

/--
The list fits both buffers, its packet arrives, and `pma_list_handle` makes the
calls for the routers of the list, wherever the body of the packet lies.
-/
def RoundTrip (around : Surroundings) (routers : List Router) : Prop :=
  ∃ saved, saveRouterList around.malloced around.before routers = some saved ∧
    ∃ payload,
      Delivers moduleGetData around.memory (sendMessageToModule around.heap pmaList saved.data)
        around.behind pmaList payload ∧
      ∀ data, window data 0 payload.length = payload →
        pmaListHandle data payload.length = routers.map addressOf

/-! ## Writing -/

theorem length_bytes
    (router : Router) :
    router.bytes.length = 12 := by
  simp [Router.bytes]

theorem length_listBytes
    (routers : List Router) :
    (listBytes routers).length = routers.length * 12 :=
  length_records length_bytes routers

/-- The copies of a router write its bytes one behind the other. -/
theorem copyRouters_eq
    (buff : Vector UInt8 listBuffSize)
    (pktPtr : Nat)
    (routers : List Router) :
    copyRouters buff pktPtr routers = ArrayWrite.writeAll buff pktPtr (listBytes routers) := by
  induction routers generalizing buff pktPtr with
  | nil =>
      rfl
  | cons router rest inductionHypothesis =>
      simp only [copyRouters, inductionHypothesis]
      simp only [listBytes, List.flatMap_cons, Router.bytes, List.append_assoc,
        ArrayWrite.writeAll_append, length_leBytes, Nat.add_assoc]
      rfl

/-- A list of at most 85 routers is written, and its bytes are in use afterwards. -/
theorem saveRouterList_fits
    (malloced : Vector UInt8 listBuffSize)
    (before : PmaBuff)
    {routers : List Router}
    (fits : routers.length ≤ 85) :
    ∃ saved, saveRouterList malloced before routers = some saved ∧
      saved.data = listBytes routers := by
  have length := length_listBytes routers
  have room : 0 + (listBytes routers).length ≤ listBuffSize := by
    unfold listBuffSize
    omega
  obtain ⟨filled, writes, contents⟩ := ArrayWrite.writeAll_fits malloced room
  rw [← copyRouters_eq] at writes
  have taken : filled.toList.take (routers.length * 3 * 4) = listBytes routers := by
    rw [contents, List.take_zero, List.nil_append, Nat.mul_assoc]
    exact List.take_left' length
  have global : 0 + (listBytes routers).length ≤ maxBuf := by
    unfold maxBuf
    omega
  obtain ⟨buff, copies, copied⟩ := ArrayWrite.writeAll_fits before.buff global
  refine ⟨⟨buff, routers.length * 3 * 4⟩, ?_, ?_⟩
  · simp [saveRouterList, writes, taken, copies]
  · unfold PmaBuff.data
    dsimp only
    rw [copied, List.take_zero, List.nil_append, Nat.mul_assoc]
    exact List.take_left' length

/-- The bytes of a longer list do not fit. -/
theorem saveRouterList_overruns
    (malloced : Vector UInt8 listBuffSize)
    (before : PmaBuff)
    {routers : List Router}
    (above : 85 < routers.length) :
    saveRouterList malloced before routers = none := by
  have overrun : listBuffSize < 0 + (listBytes routers).length := by
    rw [length_listBytes]
    unfold listBuffSize
    omega
  have writes := ArrayWrite.writeAll_overruns malloced (Nat.zero_le _) overrun
  rw [← copyRouters_eq] at writes
  simp [saveRouterList, writes]

/-- The buffers of BM are what the model of the list takes them for. -/
theorem saveRouterListToXml_eq
    (malloced : Vector UInt8 listBuffSize)
    (before : PmaBuff)
    (routers : List Router) :
    saveRouterListToXml (some routers) before.data =
      match saveRouterList malloced before routers with
      | none => .error .buffOverrun
      | some saved => .ok (0, saved.data) := by
  unfold saveRouterListToXml
  by_cases fits : routers.length ≤ 85
  · obtain ⟨saved, saves, data⟩ := saveRouterList_fits malloced before fits
    rw [saves]
    dsimp only
    rw [data, if_pos]
    rw [length_listBytes]
    omega
  · rw [saveRouterList_overruns malloced before (Nat.lt_of_not_le fits)]
    apply if_neg
    rw [length_listBytes]
    omega

/-! ## Reading -/

theorem leValue_toNat
    (number : UInt32) :
    UInt32.ofNat (leValue (leBytes 4 number.toNat)) = number := by
  rw [leValue_leBytes number.toNat_lt, UInt32.ofNat_toNat]

/-- A router that is stored is read back. -/
theorem readPmaList_eq
    {data : Nat → UInt8}
    {address : Nat}
    {router : Router}
    (held : window data address 12 = router.bytes) :
    readPmaList data address = addressOf router := by
  have fields : window data address 4 = leBytes 4 router.devid.toNat ∧
      window data (address + 4) (4 + 4) =
        leBytes 4 router.rid.toNat ++ leBytes 4 router.ipAddr.toNat := by
    rw [window_add data address 4 8] at held
    exact List.append_inj held (by simp)
  have addresses := fields.2
  rw [window_add] at addresses
  have later := List.append_inj addresses (by simp)
  rw [readPmaList, addressOf, fields.1, later.1, later.2]
  simp only [leValue_toNat]

/-- `pma_list_handle` makes one call for each router that is stored, in order. -/
theorem pmaListHandle_eq
    {data : Nat → UInt8}
    {routers : List Router}
    (held : window data 0 (listBytes routers).length = listBytes routers) :
    pmaListHandle data (listBytes routers).length = routers.map addressOf := by
  rw [length_listBytes] at held ⊢
  unfold pmaListHandle
  apply List.ext_getElem
  · simp [pmaListSize]
  · intro i _ inRouters
    rw [List.length_map] at inRouters
    have stored := window_record length_bytes held inRouters
    rw [Nat.zero_add] at stored
    simpa [pmaListSize] using readPmaList_eq stored

/-! ## Sending -/

/-- The packet of a list that fits arrives. -/
theorem delivers_listBytes
    (around : Surroundings)
    {routers : List Router}
    (fits : routers.length ≤ 85) :
    Delivers moduleGetData around.memory
      (sendMessageToModule around.heap pmaList (listBytes routers)) around.behind pmaList
      (listBytes routers) := by
  obtain ⟨header, length, fields, sent⟩ :=
    sendMessageToModule_split around.heap pmaList (listBytes routers)
  rw [sent]
  cases routers with
  | nil =>
      have noBody : header ++ listBytes [] = header := List.append_nil header
      rw [noBody]
      exact PacketReader.moduleGetData_delivers_empty length fields
  | cons router rest =>
      have size := length_listBytes (router :: rest)
      rw [List.length_cons] at size fits
      apply PacketReader.moduleGetData_delivers length fields
      · omega
      · unfold localHeaderSize
        omega

/--
Whatever the memory holds, a list fits the buffers and arrives at ICM with one
call for each of its routers, in order, if and only if it has at most 85 routers.
-/
theorem roundTrip_iff
    (around : Surroundings)
    (routers : List Router) :
    RoundTrip around routers ↔ routers.length ≤ 85 := by
  constructor
  · rintro ⟨saved, saves, -⟩
    by_contra above
    rw [saveRouterList_overruns _ _ (Nat.lt_of_not_le above)] at saves
    cases saves
  · intro fits
    obtain ⟨saved, saves, data⟩ := saveRouterList_fits around.malloced around.before fits
    refine ⟨saved, saves, listBytes routers, ?_, fun _ => pmaListHandle_eq⟩
    rw [data]
    exact delivers_listBytes around fits

/-- The devices 0 to 85. -/
def manyRouters : List Router :=
  (List.range 86).map fun devid => ⟨.ofNat devid, 1, 1⟩

/-- The last of 86 routers is written behind the end. -/
theorem manyRouters_overrun :
    ¬RoundTrip
      ⟨.replicate listBuffSize 0, ⟨.replicate maxBuf 0, 0⟩, fun _ => 0,
        fun _ => (fun _ => 0, fun _ => 0), []⟩
      manyRouters := by
  rintro ⟨saved, saves, -⟩
  have above : 85 < manyRouters.length := by
    rw [manyRouters, List.length_map, List.length_range]
    decide
  rw [saveRouterList_overruns _ _ above] at saves
  cases saves

end Pma.PmaList
