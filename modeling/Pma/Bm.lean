import Mathlib.Data.List.Basic
import Mathlib.Logic.Function.Basic

namespace Pma

/-!
# The base module

The modules talk to each other through BM.  A module registers with its id, BM
remembers the socket it registered on, and `comm/handler.c` passes the packets
for a module on to that socket.  `module_data_handle` lets nothing but
registrations through until two modules were counted, and what it does not let
through is dropped.

BM handles one packet at a time.  The model has the packets from the modules
and what is handed to their sockets; what goes to PMS is left out.
-/

/-- The bytes of a packet after its header. -/
abbrev Payload := List UInt8

/-- The types of the packets BM sends to a module. -/
inductive PktType where
  | ack
  | addLsa
  | updateLsa
  | ospfSpf
  | policyInfo
  | policyList
  | pmaList
  | icmConf
  | dbmConf
  | pemConf
  /-- The type `send_config_to_module` leaves to chance for other modules. -/
  | uninitialised
  deriving Repr, DecidableEq

/-- `struct module_register_table`; a zero id means that the entry is free. -/
structure ModuleRegister where
  mId : Int
  mSockfd : Int
  deriving Repr, DecidableEq

/-- A packet that was handed to a socket, and the module it was meant for. -/
structure Sent where
  module : Int
  sock : Int
  pktType : PktType
  data : Payload
  deriving Repr, DecidableEq

/-- A packet from a module. -/
inductive LocalPacket where
  /-- `MODREG` on a socket; `answered` is whether the response can be sent. -/
  | modreg (mId mSockfd : Int) (answered : Bool)
  | addLsa (data : Payload)
  | updateLsa (data : Payload)
  | ospfSpf (data : Payload)
  | policyInfo (data : Payload)
  /-- A packet that is passed on to PMS, or has no handler. -/
  | upload
  deriving Repr, DecidableEq

/-- The globals of BM, and all it handed to the sockets of the modules. -/
structure Bm where
  registerTable : Int → ModuleRegister
  bmStatus : Nat
  responseMessage : Int → Payload
  pmaConf : Int → Payload
  xmlPolicyBuff : Payload
  globalPmaBuff : Payload
  sends : List Sent

namespace Bm

/-- `ICM`. -/
def icm : Int := 1

/-- `DBM`. -/
def dbm : Int := 2

/-- `PEM`. -/
def pem : Int := 3

/-- `MAX_MODULE_NUM`. -/
def maxModuleNum : Int := 10

/--
`insert_register_table`: `-1` for a wrong id or socket, otherwise whether the
module was registered before.
-/
def insertRegisterTable (bm : Bm) (mId mSockfd : Int) : Int × Bm :=
  if mId ≤ 0 ∨ mId ≥ maxModuleNum then
    (-1, bm)
  else if mSockfd ≤ 0 then
    (-1, bm)
  else
    (if (bm.registerTable mId).mId = mId then 1 else 0,
      { bm with
        registerTable := Function.update bm.registerTable mId ⟨mId, mSockfd⟩ })

/-- `find_register_table_by_id`. -/
def findRegisterTableById (bm : Bm) (mId : Int) : Option ModuleRegister :=
  if mId ≤ 0 ∨ mId ≥ maxModuleNum then
    none
  else if (bm.registerTable mId).mId ≠ 0 then
    some (bm.registerTable mId)
  else
    none

/-- `send_pkt`. -/
def sendPkt (bm : Bm) (module sock : Int) (pktType : PktType) (data : Payload) :
    Bm :=
  if sock = 0 then
    bm
  else
    { bm with sends := bm.sends ++ [⟨module, sock, pktType, data⟩] }

/-- `send_message_to_module`. -/
def sendMessageToModule
    (bm : Bm) (module : Int) (pkgType : PktType) (data : Payload) : Bm :=
  match bm.findRegisterTableById module with
  | none => bm
  | some entry => bm.sendPkt module entry.mSockfd pkgType data

/-- The type of the configuration packet of a module. -/
def confType (module : Int) : PktType :=
  if module = icm then
    .icmConf
  else if module = dbm then
    .dbmConf
  else if module = pem then
    .pemConf
  else
    .uninitialised

/-- `send_config_to_module`. -/
def sendConfigToModule (bm : Bm) (module : Int) : Bm :=
  bm.sendMessageToModule module (confType module) (bm.pmaConf module)

/-- `bm_status` counts a module that was not registered before. -/
def countModule (bm : Bm) (alreadyRegistered : Int) : Bm :=
  if alreadyRegistered = 0 then
    { bm with bmStatus := bm.bmStatus + 1 }
  else
    bm

/-- The last part of `handle_local_module_register`. -/
def welcomeModule (bm : Bm) (mId alreadyRegistered : Int) : Bm :=
  if mId = icm then
    let counted := bm.countModule alreadyRegistered
    if counted.globalPmaBuff.length ≠ 0 then
      counted.sendMessageToModule icm .pmaList counted.globalPmaBuff
    else
      counted
  else if mId = dbm then
    let counted := bm.countModule alreadyRegistered
    counted.sendMessageToModule dbm .policyList counted.xmlPolicyBuff
  else if mId = pem then
    bm.countModule alreadyRegistered
  else
    bm

/--
`handle_local_module_register`.  A socket the response cannot be sent to is
closed, but stays in the table.
-/
def handleLocalModuleRegister
    (bm : Bm) (mId mSockfd : Int) (answered : Bool) : Bm :=
  let inserted := bm.insertRegisterTable mId mSockfd
  if answered ∧ mSockfd ≠ 0 then
    let responded :=
      inserted.2.sendPkt mId mSockfd .ack (inserted.2.responseMessage mId)
    (responded.sendConfigToModule mId).welcomeModule mId inserted.1
  else
    inserted.2

/-- The handlers of `module_handle`. -/
def runCtl (bm : Bm) : LocalPacket → Bm
  | .modreg mId mSockfd answered =>
      bm.handleLocalModuleRegister mId mSockfd answered
  | .addLsa data => bm.sendMessageToModule dbm .addLsa data
  | .updateLsa data => bm.sendMessageToModule dbm .updateLsa data
  | .ospfSpf data => bm.sendMessageToModule dbm .ospfSpf data
  | .policyInfo data => bm.sendMessageToModule pem .policyInfo data
  | .upload => bm

/-- `basemodule_check_status`. -/
def basemoduleCheckStatus (bm : Bm) : Bool :=
  bm.bmStatus > 1

/-- Whether a packet is a registration. -/
def isModreg : LocalPacket → Bool
  | .modreg _ _ _ => true
  | _ => false

/-- `module_data_handle`. -/
def moduleDataHandle (bm : Bm) (pkt : LocalPacket) : Bm :=
  if bm.basemoduleCheckStatus = false ∧ isModreg pkt = false then
    bm
  else
    bm.runCtl pkt

/-- BM after a sequence of packets. -/
def run (bm : Bm) (pkts : List LocalPacket) : Bm :=
  pkts.foldl moduleDataHandle bm

/-- The link states that were added to DBM, with the socket they went to. -/
def delivered (bm : Bm) : List (Int × Payload) :=
  bm.sends.filterMap fun sent =>
    if sent.module = dbm ∧ sent.pktType = .addLsa then
      some (sent.sock, sent.data)
    else
      none

/-! ## What is sent without a link state -/

/-- `after` differs from `before` in packets that add no link state. -/
def Quiet (before after : Bm) : Prop :=
  ∃ more,
    after = { before with sends := before.sends ++ more } ∧
      ∀ sent ∈ more, sent.pktType ≠ .addLsa

namespace Quiet

theorem refl
    (bm : Bm) :
    Quiet bm bm :=
  ⟨[], by simp, by simp⟩

theorem trans
    {first second third : Bm}
    (earlier : Quiet first second)
    (later : Quiet second third) :
    Quiet first third := by
  obtain ⟨earlierSends, rfl, earlierTypes⟩ := earlier
  obtain ⟨laterSends, rfl, laterTypes⟩ := later
  refine ⟨earlierSends ++ laterSends, by simp, ?_⟩
  intro sent member
  rcases List.mem_append.mp member with isEarlier | isLater
  · exact earlierTypes sent isEarlier
  · exact laterTypes sent isLater

variable {before after : Bm}

theorem registerTable
    (quiet : Quiet before after) :
    after.registerTable = before.registerTable := by
  obtain ⟨more, rfl, -⟩ := quiet
  rfl

theorem bmStatus
    (quiet : Quiet before after) :
    after.bmStatus = before.bmStatus := by
  obtain ⟨more, rfl, -⟩ := quiet
  rfl

theorem delivered
    (quiet : Quiet before after) :
    after.delivered = before.delivered := by
  obtain ⟨more, rfl, types⟩ := quiet
  unfold Bm.delivered
  rw [List.filterMap_append]
  have none :
      more.filterMap (fun sent =>
        if sent.module = dbm ∧ sent.pktType = .addLsa then
          some (sent.sock, sent.data)
        else
          none) = [] := by
    rw [List.filterMap_eq_nil_iff]
    intro sent member
    exact if_neg fun isAdd => types sent member isAdd.2
  rw [none, List.append_nil]

/-- Counting a module does not look at what was sent. -/
theorem countModule
    (quiet : Quiet before after)
    (alreadyRegistered : Int) :
    Quiet (before.countModule alreadyRegistered)
      (after.countModule alreadyRegistered) := by
  obtain ⟨more, rfl, types⟩ := quiet
  refine ⟨more, ?_, types⟩
  unfold Bm.countModule
  split
  · rfl
  · rfl

end Quiet

/-- A packet of another type adds no link state. -/
theorem quiet_sendPkt
    {pktType : PktType}
    (bm : Bm)
    (module sock : Int)
    (data : Payload)
    (notAdd : pktType ≠ .addLsa) :
    Quiet bm (bm.sendPkt module sock pktType data) := by
  unfold sendPkt
  split
  · exact .refl bm
  · refine ⟨[⟨module, sock, pktType, data⟩], rfl, ?_⟩
    intro sent member
    rw [List.mem_singleton.mp member]
    exact notAdd

theorem quiet_sendMessageToModule
    {pktType : PktType}
    (bm : Bm)
    (module : Int)
    (data : Payload)
    (notAdd : pktType ≠ .addLsa) :
    Quiet bm (bm.sendMessageToModule module pktType data) := by
  unfold sendMessageToModule
  split
  · exact .refl bm
  · exact quiet_sendPkt bm _ _ _ notAdd

theorem quiet_sendConfigToModule
    (bm : Bm)
    (module : Int) :
    Quiet bm (bm.sendConfigToModule module) := by
  apply quiet_sendMessageToModule
  unfold confType
  split
  · decide
  · split
    · decide
    · split
      · decide
      · decide

/-- The last part of a registration counts the three modules. -/
theorem quiet_welcomeModule
    (bm : Bm)
    (mId alreadyRegistered : Int) :
    Quiet
      (if mId = icm ∨ mId = dbm ∨ mId = pem then
        bm.countModule alreadyRegistered
      else
        bm)
      (bm.welcomeModule mId alreadyRegistered) := by
  unfold welcomeModule
  by_cases isIcm : mId = icm
  · rw [if_pos isIcm, if_pos (.inl isIcm)]
    dsimp only
    split
    · exact quiet_sendMessageToModule _ _ _ (by decide)
    · exact .refl _
  · rw [if_neg isIcm]
    by_cases isDbm : mId = dbm
    · rw [if_pos isDbm, if_pos (.inr (.inl isDbm))]
      exact quiet_sendMessageToModule _ _ _ (by decide)
    · rw [if_neg isDbm]
      by_cases isPem : mId = pem
      · rw [if_pos isPem, if_pos (.inr (.inr isPem))]
        exact .refl _
      · rw [if_neg isPem, if_neg (by tauto)]
        exact .refl _

/-! ## The sockets of the modules -/

/-- The socket of every module; zero when it did not register. -/
abbrev Sockets := Int → Int

/-- The socket of a module after a packet. -/
def socketAfter (sockets : Sockets) : LocalPacket → Sockets
  | .modreg mId mSockfd _ => fun id =>
      if id = mId ∧ 0 < mSockfd then mSockfd else sockets id
  | _ => sockets

/-- The sockets after a sequence of packets. -/
def socketsAfter (sockets : Sockets) (pkts : List LocalPacket) : Sockets :=
  pkts.foldl socketAfter sockets

/-- DBM and another module are registered. -/
def Ready (sockets : Sockets) : Prop :=
  sockets dbm ≠ 0 ∧ (sockets icm ≠ 0 ∨ sockets pem ≠ 0)

/-- Every registration is answered. -/
def Answered : LocalPacket → Prop
  | .modreg _ _ answered => answered = true
  | _ => True

/-- How much a socket adds to `bm_status`. -/
def counted (sock : Int) : Nat :=
  if sock = 0 then 0 else 1

/-- The table and the counter of BM are those of the registrations. -/
structure Inv (bm : Bm) (sockets : Sockets) : Prop where
  table :
    ∀ id,
      0 < id →
      id < maxModuleNum →
      bm.registerTable id =
        if sockets id = 0 then ⟨0, 0⟩ else ⟨id, sockets id⟩
  status :
    bm.bmStatus =
      counted (sockets icm) + counted (sockets dbm) + counted (sockets pem)

section Register

variable {bm : Bm} {sockets : Sockets} {mId mSockfd : Int}

/-- A wrong id or socket registers nobody. -/
theorem insertRegisterTable_of_wrong
    (wrong : ¬(0 < mId ∧ mId < maxModuleNum ∧ 0 < mSockfd)) :
    bm.insertRegisterTable mId mSockfd = (-1, bm) := by
  unfold insertRegisterTable
  split
  · rfl
  · split
    · rfl
    · omega

/-- What an answered registration does to the table and the counter. -/
def register (bm : Bm) (mId mSockfd : Int) : Bm :=
  let inserted := bm.insertRegisterTable mId mSockfd
  if mId = icm ∨ mId = dbm ∨ mId = pem then
    inserted.2.countModule inserted.1
  else
    inserted.2

/-- An answered registration sends no link state. -/
theorem quiet_handleLocalModuleRegister
    (bm : Bm)
    (mId mSockfd : Int) :
    Quiet (bm.register mId mSockfd)
      (bm.handleLocalModuleRegister mId mSockfd true) := by
  unfold register handleLocalModuleRegister
  dsimp only
  by_cases noSocket : mSockfd = 0
  · have wrong : bm.insertRegisterTable mId mSockfd = (-1, bm) :=
      insertRegisterTable_of_wrong (by omega)
    have unanswered : ¬(true = true ∧ mSockfd ≠ 0) :=
      fun held => held.2 noSocket
    have uncounted : bm.countModule (-1) = bm := if_neg (by decide)
    rw [if_neg unanswered, wrong]
    dsimp only
    rw [uncounted, ite_self]
    exact .refl bm
  · have hasAnswer : true = true ∧ mSockfd ≠ 0 := ⟨rfl, noSocket⟩
    rw [if_pos hasAnswer]
    refine .trans ?_ (quiet_welcomeModule _ mId _)
    have answered :=
      (quiet_sendPkt (bm.insertRegisterTable mId mSockfd).2 mId mSockfd
        ((bm.insertRegisterTable mId mSockfd).2.responseMessage mId)
        (by decide : PktType.ack ≠ .addLsa)).trans
        (quiet_sendConfigToModule _ mId)
    split
    · exact answered.countModule _
    · exact answered

/-- A registration hands nothing to a socket by itself. -/
theorem register_sends
    (bm : Bm)
    (mId mSockfd : Int) :
    (bm.register mId mSockfd).sends = bm.sends := by
  unfold register insertRegisterTable countModule
  dsimp only
  split_ifs <;> rfl

/-- A wrong registration changes no socket of a known module. -/
theorem Inv.register_of_wrong
    (invariant : bm.Inv sockets)
    (wrong : ¬(0 < mId ∧ mId < maxModuleNum ∧ 0 < mSockfd)) :
    (bm.register mId mSockfd).Inv
      (socketAfter sockets (.modreg mId mSockfd true)) := by
  have same : bm.register mId mSockfd = bm := by
    unfold Bm.register
    rw [insertRegisterTable_of_wrong wrong]
    exact ite_self bm
  have sockets :
      ∀ id,
        0 < id →
        id < maxModuleNum →
        socketAfter sockets (.modreg mId mSockfd true) id = sockets id := by
    intro id positive small
    refine if_neg ?_
    rintro ⟨rfl, isSocket⟩
    exact wrong ⟨positive, small, isSocket⟩
  rw [same]
  constructor
  · intro id positive small
    rw [sockets id positive small]
    exact invariant.table id positive small
  · rw [sockets icm (by decide) (by decide), sockets dbm (by decide) (by decide),
      sockets pem (by decide) (by decide)]
    exact invariant.status

/-- A right registration writes the table and tells whether the module is new. -/
theorem Inv.insertRegisterTable
    (invariant : bm.Inv sockets)
    (positive : 0 < mId)
    (small : mId < maxModuleNum)
    (isSocket : 0 < mSockfd) :
    bm.insertRegisterTable mId mSockfd =
      (if sockets mId = 0 then 0 else 1,
        { bm with
          registerTable :=
            Function.update bm.registerTable mId ⟨mId, mSockfd⟩ }) := by
  have isNew :
      (bm.registerTable mId).mId = mId ↔ ¬sockets mId = 0 := by
    rw [invariant.table mId positive small]
    split
    · next free =>
        exact iff_of_false (Int.ne_of_lt positive) (not_not_intro free)
    · next taken =>
        exact iff_of_true rfl taken
  unfold Bm.insertRegisterTable
  rw [if_neg (by omega), if_neg (by omega)]
  simp only [isNew, ite_not]

/-- A registration counts its module once. -/
theorem counted_socketAfter
    (sockets : Sockets)
    (isSocket : 0 < mSockfd)
    (id : Int) :
    counted (socketAfter sockets (.modreg mId mSockfd true) id) =
      counted (sockets id) +
        if id = mId ∧ sockets mId = 0 then 1 else 0 := by
  have taken : counted mSockfd = 1 := if_neg (Int.ne_of_gt isSocket)
  unfold socketAfter
  dsimp only
  by_cases isModule : id = mId
  · subst isModule
    rw [if_pos ⟨rfl, isSocket⟩, taken]
    unfold counted
    by_cases free : sockets id = 0
    · simp [free]
    · simp [free]
  · simp [isModule]

/-- The table and the counter after an answered registration. -/
theorem Inv.register
    (invariant : bm.Inv sockets)
    (mId mSockfd : Int) :
    (bm.register mId mSockfd).Inv
      (socketAfter sockets (.modreg mId mSockfd true)) := by
  by_cases right : 0 < mId ∧ mId < maxModuleNum ∧ 0 < mSockfd
  · obtain ⟨positive, small, isSocket⟩ := right
    have inserted :=
      invariant.insertRegisterTable positive small isSocket
    have table :
        (bm.register mId mSockfd).registerTable =
          Function.update bm.registerTable mId ⟨mId, mSockfd⟩ := by
      unfold Bm.register countModule
      rw [inserted]
      dsimp only
      split_ifs <;> rfl
    have status :
        (bm.register mId mSockfd).bmStatus =
          bm.bmStatus +
            if (mId = icm ∨ mId = dbm ∨ mId = pem) ∧ sockets mId = 0 then 1
            else 0 := by
      unfold Bm.register countModule
      rw [inserted]
      dsimp only
      by_cases free : sockets mId = 0
      · simp only [free]
        split_ifs <;> simp_all
      · simp only [free]
        split_ifs <;> simp_all
    constructor
    · intro id idPositive idSmall
      rw [table]
      by_cases isModule : id = mId
      · subst isModule
        have socket :
            socketAfter sockets (.modreg id mSockfd true) id = mSockfd :=
          if_pos ⟨rfl, isSocket⟩
        rw [Function.update_self, socket, if_neg (Int.ne_of_gt isSocket)]
      · have socket :
            socketAfter sockets (.modreg mId mSockfd true) id = sockets id :=
          if_neg fun held => isModule held.1
        rw [Function.update_of_ne isModule, socket]
        exact invariant.table id idPositive idSmall
    · rw [status, invariant.status, counted_socketAfter sockets isSocket,
        counted_socketAfter sockets isSocket, counted_socketAfter sockets isSocket]
      unfold icm dbm pem
      split_ifs <;> omega
  · exact invariant.register_of_wrong right

end Register

/-! ## Which link states are passed on -/

section Relay

variable {bm : Bm} {sockets : Sockets}

/-- A module is found when it registered. -/
theorem Inv.findRegisterTableById
    (invariant : bm.Inv sockets)
    (id : Int)
    (positive : 0 < id)
    (small : id < maxModuleNum) :
    bm.findRegisterTableById id =
      if sockets id = 0 then none else some ⟨id, sockets id⟩ := by
  unfold Bm.findRegisterTableById
  rw [if_neg (by omega), invariant.table id positive small]
  by_cases free : sockets id = 0
  · simp [free]
  · simp [free, Int.ne_of_gt positive]

/-- The gate is open once DBM and another module are registered. -/
theorem Inv.checkStatus_of_ready
    (invariant : bm.Inv sockets)
    (ready : Ready sockets) :
    bm.basemoduleCheckStatus = true := by
  obtain ⟨hasDbm, hasOther⟩ := ready
  have dbmCounted : counted (sockets dbm) = 1 := if_neg hasDbm
  have otherCounted :
      counted (sockets icm) = 1 ∨ counted (sockets pem) = 1 :=
    hasOther.imp (fun hasIcm => if_neg hasIcm) (fun hasPem => if_neg hasPem)
  unfold basemoduleCheckStatus
  rw [invariant.status]
  exact decide_eq_true (by omega)

/-- An open gate without DBM and another module is open without DBM. -/
theorem Inv.noDbm_of_not_ready
    (invariant : bm.Inv sockets)
    (notReady : ¬Ready sockets)
    (opened : bm.basemoduleCheckStatus = true) :
    sockets dbm = 0 := by
  by_contra hasDbm
  have others : sockets icm = 0 ∧ sockets pem = 0 := by
    by_contra hasOther
    exact notReady ⟨hasDbm, by tauto⟩
  unfold basemoduleCheckStatus at opened
  rw [invariant.status] at opened
  simp [counted, hasDbm, others.1, others.2] at opened

/-- The link state a packet adds, with the socket it has to go to. -/
def addLsaOf (sockets : Sockets) : LocalPacket → List (Int × Payload)
  | .addLsa data => [(sockets dbm, data)]
  | _ => []

/-- Packets that neither register a module nor add a link state. -/
theorem quiet_moduleDataHandle
    {pkt : LocalPacket}
    (notModreg : isModreg pkt = false)
    (notAdd : addLsaOf sockets pkt = []) :
    Quiet bm (bm.moduleDataHandle pkt) := by
  unfold moduleDataHandle
  split
  · exact .refl bm
  · cases pkt with
    | modreg mId mSockfd answered =>
        cases notModreg
    | addLsa data =>
        cases notAdd
    | updateLsa data =>
        exact quiet_sendMessageToModule _ _ _ (by decide)
    | ospfSpf data =>
        exact quiet_sendMessageToModule _ _ _ (by decide)
    | policyInfo data =>
        exact quiet_sendMessageToModule _ _ _ (by decide)
    | upload =>
        exact .refl bm

/-- An added link state is passed on to the socket of DBM when BM is ready. -/
theorem Inv.addLsa_of_ready
    (invariant : bm.Inv sockets)
    (ready : Ready sockets)
    (data : Payload) :
    bm.moduleDataHandle (.addLsa data) =
      { bm with
        sends := bm.sends ++ [⟨dbm, sockets dbm, .addLsa, data⟩] } := by
  have found :=
    invariant.findRegisterTableById dbm (by decide) (by decide)
  rw [if_neg ready.1] at found
  unfold moduleDataHandle
  rw [if_neg (by simp [invariant.checkStatus_of_ready ready])]
  unfold runCtl sendMessageToModule
  rw [found]
  exact if_neg ready.1

/-- Before that it is dropped. -/
theorem Inv.addLsa_of_not_ready
    (invariant : bm.Inv sockets)
    (notReady : ¬Ready sockets)
    (data : Payload) :
    bm.moduleDataHandle (.addLsa data) = bm := by
  unfold moduleDataHandle
  split
  · rfl
  · next opened =>
      have opened : bm.basemoduleCheckStatus = true := by
        simpa [isModreg] using opened
      have found :=
        invariant.findRegisterTableById dbm (by decide) (by decide)
      rw [if_pos (invariant.noDbm_of_not_ready notReady opened)] at found
      unfold runCtl sendMessageToModule
      rw [found]

/-- BM stays ready. -/
theorem Ready.socketAfter
    (ready : Ready sockets)
    (pkt : LocalPacket) :
    Ready (socketAfter sockets pkt) := by
  have kept : ∀ id, sockets id ≠ 0 → Bm.socketAfter sockets pkt id ≠ 0 := by
    intro id registered
    cases pkt with
    | modreg mId mSockfd answered =>
        unfold Bm.socketAfter
        dsimp only
        split
        · next right =>
            exact Int.ne_of_gt right.2
        · exact registered
    | addLsa data =>
        exact registered
    | updateLsa data =>
        exact registered
    | ospfSpf data =>
        exact registered
    | policyInfo data =>
        exact registered
    | upload =>
        exact registered
  exact ⟨kept _ ready.1, ready.2.imp (kept _) (kept _)⟩

/-- Only the table and the counter count. -/
theorem Inv.of_quiet
    {after : Bm}
    (invariant : bm.Inv sockets)
    (quiet : Quiet bm after) :
    after.Inv sockets where
  table := by
    rw [quiet.registerTable]
    exact invariant.table
  status := by
    rw [quiet.bmStatus]
    exact invariant.status

/-- A packet that neither registers a module nor adds a link state. -/
theorem Inv.step_of_quiet
    {pkt : LocalPacket}
    (invariant : bm.Inv sockets)
    (notModreg : isModreg pkt = false)
    (notAdd : addLsaOf sockets pkt = [])
    (sameSockets : socketAfter sockets pkt = sockets) :
    (bm.moduleDataHandle pkt).Inv (socketAfter sockets pkt) ∧
      (Ready sockets →
        (bm.moduleDataHandle pkt).delivered =
          bm.delivered ++ addLsaOf sockets pkt) ∧
      (¬Ready sockets →
        (bm.moduleDataHandle pkt).delivered = bm.delivered) := by
  have quiet : Quiet bm (bm.moduleDataHandle pkt) :=
    quiet_moduleDataHandle notModreg notAdd
  rw [sameSockets, notAdd, List.append_nil]
  exact ⟨invariant.of_quiet quiet, fun _ => quiet.delivered,
    fun _ => quiet.delivered⟩

/-- One answered packet: the table, and the link state that is passed on. -/
theorem Inv.step
    {pkt : LocalPacket}
    (invariant : bm.Inv sockets)
    (answered : Answered pkt) :
    (bm.moduleDataHandle pkt).Inv (socketAfter sockets pkt) ∧
      (Ready sockets →
        (bm.moduleDataHandle pkt).delivered =
          bm.delivered ++ addLsaOf sockets pkt) ∧
      (¬Ready sockets →
        (bm.moduleDataHandle pkt).delivered = bm.delivered) := by
  cases pkt with
  | modreg mId mSockfd isAnswered =>
      cases answered
      have quiet := quiet_handleLocalModuleRegister bm mId mSockfd
      have registered := invariant.register mId mSockfd
      have handled :
          bm.moduleDataHandle (.modreg mId mSockfd true) =
            bm.handleLocalModuleRegister mId mSockfd true :=
        if_neg (by simp [isModreg])
      have same :
          (bm.handleLocalModuleRegister mId mSockfd true).delivered =
            bm.delivered := by
        rw [quiet.delivered]
        unfold delivered
        rw [register_sends]
      rw [handled]
      refine ⟨registered.of_quiet quiet, ?_, fun _ => same⟩
      intro _
      rw [same]
      exact (List.append_nil _).symm
  | addLsa data =>
      refine ⟨?_, ?_, ?_⟩
      · by_cases ready : Ready sockets
        · rw [invariant.addLsa_of_ready ready]
          exact ⟨invariant.table, invariant.status⟩
        · rw [invariant.addLsa_of_not_ready ready]
          exact invariant
      · intro ready
        rw [invariant.addLsa_of_ready ready]
        unfold delivered
        rw [List.filterMap_append]
        rfl
      · intro notReady
        rw [invariant.addLsa_of_not_ready notReady]
  | updateLsa data =>
      exact invariant.step_of_quiet rfl rfl rfl
  | ospfSpf data =>
      exact invariant.step_of_quiet rfl rfl rfl
  | policyInfo data =>
      exact invariant.step_of_quiet rfl rfl rfl
  | upload =>
      exact invariant.step_of_quiet rfl rfl rfl

/-- The link states a ready BM passes on. -/
def relayed (sockets : Sockets) : List LocalPacket → List (Int × Payload)
  | [] => []
  | pkt :: rest =>
      addLsaOf sockets pkt ++ relayed (socketAfter sockets pkt) rest

/-- A ready BM passes on every added link state. -/
theorem Inv.run_of_ready
    (invariant : bm.Inv sockets)
    (ready : Ready sockets)
    {pkts : List LocalPacket}
    (answered : ∀ pkt ∈ pkts, Answered pkt) :
    (bm.run pkts).delivered = bm.delivered ++ relayed sockets pkts := by
  induction pkts generalizing bm sockets with
  | nil =>
      exact (List.append_nil _).symm
  | cons pkt rest inductionHypothesis =>
      obtain ⟨after, passedOn, -⟩ :=
        invariant.step (answered pkt List.mem_cons_self)
      have later := inductionHypothesis after (ready.socketAfter pkt)
        fun other member => answered other (List.mem_cons_of_mem _ member)
      change ((bm.moduleDataHandle pkt).run rest).delivered = _
      rw [later, passedOn ready, List.append_assoc]
      rfl

/--
BM drops the link states up to the packet that makes it ready and passes on all
that follow.
-/
theorem Inv.run
    (invariant : bm.Inv sockets)
    {pkts : List LocalPacket}
    (answered : ∀ pkt ∈ pkts, Answered pkt) :
    ∃ early late,
      pkts = early ++ late ∧
        (late ≠ [] → Ready (socketsAfter sockets early)) ∧
        (∀ shorter,
          shorter <+: early →
          shorter ≠ early →
          ¬Ready (socketsAfter sockets shorter)) ∧
        (bm.run pkts).delivered =
          bm.delivered ++ relayed (socketsAfter sockets early) late := by
  induction pkts generalizing bm sockets with
  | nil =>
      refine ⟨[], [], rfl, fun nonempty => absurd rfl nonempty, ?_,
        (List.append_nil _).symm⟩
      intro shorter begins different
      exact absurd (List.prefix_nil.mp begins) different
  | cons pkt rest inductionHypothesis =>
      by_cases ready : Ready sockets
      · refine ⟨[], pkt :: rest, rfl, fun _ => ready, ?_,
          invariant.run_of_ready ready answered⟩
        intro shorter begins different
        exact absurd (List.prefix_nil.mp begins) different
      · obtain ⟨after, -, dropped⟩ :=
          invariant.step (answered pkt List.mem_cons_self)
        obtain ⟨early, late, split, isReady, notBefore, passedOn⟩ :=
          inductionHypothesis after
            fun other member => answered other (List.mem_cons_of_mem _ member)
        refine ⟨pkt :: early, late, by rw [split]; rfl, isReady, ?_, ?_⟩
        · intro shorter begins different
          cases shorter with
          | nil =>
              exact ready
          | cons first others =>
              obtain ⟨rfl, othersBegin⟩ := List.cons_prefix_cons.mp begins
              exact notBefore others othersBegin
                fun same => different (by rw [same])
        · change ((bm.moduleDataHandle pkt).run rest).delivered = _
          rw [passedOn, dropped ready]
          rfl

end Relay

/-- BM as `module_manager_init` leaves it. -/
def init
    (responseMessage pmaConf : Int → Payload)
    (xmlPolicyBuff globalPmaBuff : Payload) : Bm where
  registerTable := fun _ => ⟨0, 0⟩
  bmStatus := 0
  responseMessage := responseMessage
  pmaConf := pmaConf
  xmlPolicyBuff := xmlPolicyBuff
  globalPmaBuff := globalPmaBuff
  sends := []

/-- No module is registered before the first packet. -/
def noSockets : Sockets :=
  fun _ => 0

theorem init_inv
    (responseMessage pmaConf : Int → Payload)
    (xmlPolicyBuff globalPmaBuff : Payload) :
    (init responseMessage pmaConf xmlPolicyBuff globalPmaBuff).Inv noSockets where
  table := fun _ _ _ => rfl
  status := rfl

/-- The payloads of the link states ICM adds. -/
def emitted (pkts : List LocalPacket) : List Payload :=
  pkts.filterMap fun pkt =>
    match pkt with
    | .addLsa data => some data
    | _ => none

end Bm

end Pma
