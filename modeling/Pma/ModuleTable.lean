import Mathlib.Data.List.Induction
import Pma.Bm
import Pma.Loops

namespace Pma.ModuleTable

/-!
# The register table and the names of the modules

A registration reads two arrays at the id in its packet: the register table
and, for the messages it prints, `modlist`.  Here the functions of the module
manager, and those that call them, fail when they leave an array.  As long as
they do not, they are those of the base module.

The list for ICM is taken from `global_pma_buff` as it is.
-/

/-- `modlist`. -/
def modlist : List String :=
  ["", "ICM", "DBM", "PEM", "BM", "PMS"]

/-- The number of entries of `g_m_register_table`. -/
def tableSize : Nat := 100

/-- An access outside an array. -/
inductive Fault where
  | modlistOverrun
  | tableOverrun
  deriving Repr, DecidableEq

/-- `modlist[mId]`. -/
def moduleName (mId : Int) : Except Fault String :=
  match if 0 ≤ mId then modlist[mId.toNat]? else none with
  | some name => .ok name
  | none => .error .modlistOverrun

/-- `g_m_register_table[mId]`. -/
def readEntry (bm : Bm) (mId : Int) : Except Fault ModuleRegister :=
  if 0 ≤ mId ∧ mId < tableSize then
    .ok (bm.registerTable mId)
  else
    .error .tableOverrun

/-- The assignments to `g_m_register_table[mId]`. -/
def writeEntry (bm : Bm) (mId : Int) (entry : ModuleRegister) : Except Fault Bm :=
  if 0 ≤ mId ∧ mId < tableSize then
    .ok { bm with registerTable := Function.update bm.registerTable mId entry }
  else
    .error .tableOverrun

/-- `insert_register_table`. -/
def insertRegisterTable (bm : Bm) (mId mSockfd : Int) : Except Fault (Int × Bm) :=
  if mId ≤ 0 ∨ mId ≥ Bm.maxModuleNum then
    .ok (-1, bm)
  else if mSockfd ≤ 0 then
    .ok (-1, bm)
  else do
    -- The name is printed before anything is written.
    let _ ← moduleName mId
    let entry ← readEntry bm mId
    let written ← writeEntry bm mId ⟨mId, mSockfd⟩
    return (if entry.mId = mId then 1 else 0, written)

/-- `find_register_table_by_id`. -/
def findRegisterTableById (bm : Bm) (mId : Int) : Except Fault (Option ModuleRegister) :=
  if mId ≤ 0 ∨ mId ≥ Bm.maxModuleNum then
    .ok none
  else do
    let entry ← readEntry bm mId
    return if entry.mId ≠ 0 then some entry else none

/-- `send_message_to_module`. -/
def sendMessageToModule
    (bm : Bm) (module : Int) (pkgType : PktType) (data : Payload) : Except Fault Bm := do
  match ← findRegisterTableById bm module with
  | none => do
      let _ ← moduleName module
      return bm
  | some entry => return bm.sendPkt module entry.mSockfd pkgType data

/-- `send_config_to_module`. -/
def sendConfigToModule (bm : Bm) (module : Int) : Except Fault Bm := do
  match ← findRegisterTableById bm module with
  | none => return bm
  | some entry =>
      return bm.sendPkt module entry.mSockfd (Bm.confType module) (bm.pmaConf module)

/-- The last part of `handle_local_module_register`. -/
def welcomeModule (bm : Bm) (mId alreadyRegistered : Int) : Except Fault Bm :=
  if mId = Bm.icm then
    let counted := bm.countModule alreadyRegistered
    if counted.globalPmaBuff.length ≠ 0 then
      sendMessageToModule counted Bm.icm .pmaList counted.globalPmaBuff
    else
      .ok counted
  else if mId = Bm.dbm then
    let counted := bm.countModule alreadyRegistered
    sendMessageToModule counted Bm.dbm .policyList counted.xmlPolicyBuff
  else if mId = Bm.pem then
    .ok (bm.countModule alreadyRegistered)
  else
    .ok bm

/-- A packet `MODREG` on a socket, and whether the response can be sent. -/
structure Modreg where
  mId : Int
  mSockfd : Int
  answered : Bool
  deriving Repr, DecidableEq

/-- `handle_local_module_register`. -/
def handleLocalModuleRegister (bm : Bm) (pkt : Modreg) : Except Fault Bm := do
  let inserted ← insertRegisterTable bm pkt.mId pkt.mSockfd
  if pkt.answered ∧ pkt.mSockfd ≠ 0 then
    let responded :=
      inserted.2.sendPkt pkt.mId pkt.mSockfd .ack (inserted.2.responseMessage pkt.mId)
    let configured ← sendConfigToModule responded pkt.mId
    welcomeModule configured pkt.mId inserted.1
  else
    return inserted.2

/-- BM after a sequence of registrations. -/
def run (bm : Bm) (pkts : List Modreg) : Except Fault Bm :=
  pkts.foldlM handleLocalModuleRegister bm

/-! ## What has to hold -/

/-- The modules that have a name. -/
def Named (mId : Int) : Prop :=
  0 < mId ∧ mId < modlist.length

instance (mId : Int) : Decidable (Named mId) :=
  inferInstanceAs (Decidable (_ ∧ _))

/-- A packet that registers a module. -/
def Registers (mId : Int) (pkt : Modreg) : Prop :=
  pkt.mId = mId ∧ 0 < pkt.mSockfd

instance (mId : Int) (pkt : Modreg) : Decidable (Registers mId pkt) :=
  inferInstanceAs (Decidable (_ ∧ _))

/-- The socket of the latest registration of a module. -/
def latestSocket (pkts : List Modreg) (mId : Int) : Option Int :=
  (pkts.filter (Registers mId)).getLast?.map Modreg.mSockfd

/-- The modules that `bm_status` counts. -/
def countedModules : List Int :=
  [Bm.icm, Bm.dbm, Bm.pem]

/-- How many of them have registered. -/
def registeredCount (pkts : List Modreg) : Nat :=
  countedModules.countP fun mId => (latestSocket pkts mId).isSome

/-- What has to hold of every sequence of registrations, and of every start of it. -/
structure RegistrationsRight (initial : Bm) (pkts : List Modreg) : Prop where
  inside : ∃ bm, run initial pkts = .ok bm
  unknown :
    ∀ earlier pkt bm after,
      earlier ++ [pkt] <+: pkts →
      ¬Named pkt.mId →
      run initial earlier = .ok bm →
      run initial (earlier ++ [pkt]) = .ok after →
      after.registerTable = bm.registerTable ∧ after.bmStatus = bm.bmStatus
  status :
    ∀ earlier bm,
      earlier <+: pkts →
      run initial earlier = .ok bm →
      bm.bmStatus = registeredCount earlier
  sends :
    ∀ earlier bm,
      earlier <+: pkts →
      run initial earlier = .ok bm →
      ∀ module pkgType data,
        Named module →
        sendMessageToModule bm module pkgType data =
          .ok
            (match latestSocket earlier module with
            | none => bm
            | some sock => { bm with sends := bm.sends ++ [⟨module, sock, pkgType, data⟩] })

/-- The packet has an id below `MAX_MODULE_NUM` that has no name, and its socket is right. -/
def Overruns (pkt : Modreg) : Prop :=
  modlist.length ≤ pkt.mId ∧ pkt.mId < Bm.maxModuleNum ∧ 0 < pkt.mSockfd

instance (pkt : Modreg) : Decidable (Overruns pkt) :=
  inferInstanceAs (Decidable (_ ∧ _ ∧ _))

/-- The first registration of a module that is counted is answered. -/
def FirstAnswered (pkts : List Modreg) : Prop :=
  ∀ earlier pkt,
    earlier ++ [pkt] <+: pkts →
    pkt.mId ∈ countedModules →
    0 < pkt.mSockfd →
    latestSocket earlier pkt.mId = none →
    pkt.answered = true

/-! ## Inside the arrays the base module is right -/

section Inside

variable {bm : Bm} {mId : Int}

theorem moduleName_of_named
    (named : Named mId) :
    ∃ name, moduleName mId = .ok name := by
  obtain ⟨positive, small⟩ := named
  have inside : mId.toNat < modlist.length := by omega
  unfold moduleName
  rw [if_pos (Int.le_of_lt positive), List.getElem?_eq_getElem inside]
  exact ⟨_, rfl⟩

theorem moduleName_of_large
    (large : modlist.length ≤ mId) :
    moduleName mId = .error .modlistOverrun := by
  have outside : modlist.length ≤ mId.toNat := by omega
  unfold moduleName
  rw [List.getElem?_eq_none outside, ite_self]

/-- What `MAX_MODULE_NUM` lets through is in the table. -/
theorem inside_table
    (right : ¬(mId ≤ 0 ∨ mId ≥ Bm.maxModuleNum)) :
    0 ≤ mId ∧ mId < tableSize := by
  unfold Bm.maxModuleNum at right
  unfold tableSize
  omega

theorem insertRegisterTable_of_overruns
    {pkt : Modreg}
    (overruns : Overruns pkt) :
    insertRegisterTable bm pkt.mId pkt.mSockfd = .error .modlistOverrun := by
  obtain ⟨large, small, isSocket⟩ := overruns
  have positive : 0 < pkt.mId := Int.lt_of_lt_of_le (by decide) large
  unfold insertRegisterTable
  rw [if_neg (by omega), if_neg (by omega), moduleName_of_large large]
  rfl

theorem insertRegisterTable_eq
    {pkt : Modreg}
    (inside : ¬Overruns pkt) :
    insertRegisterTable bm pkt.mId pkt.mSockfd =
      .ok (bm.insertRegisterTable pkt.mId pkt.mSockfd) := by
  unfold insertRegisterTable Bm.insertRegisterTable
  split
  · rfl
  · next right =>
      split
      · rfl
      · next isSocket =>
          have named : Named pkt.mId := by
            unfold Overruns at inside
            unfold Named
            omega
          obtain ⟨name, isName⟩ := moduleName_of_named named
          unfold readEntry writeEntry
          rw [isName, if_pos (inside_table right), if_pos (inside_table right)]
          rfl

theorem findRegisterTableById_eq
    (bm : Bm)
    (mId : Int) :
    findRegisterTableById bm mId = .ok (bm.findRegisterTableById mId) := by
  unfold findRegisterTableById Bm.findRegisterTableById
  split
  · rfl
  · next right =>
      unfold readEntry
      rw [if_pos (inside_table right)]
      rfl

/-- A name is read only for a module that is not registered. -/
theorem sendMessageToModule_eq
    {module : Int}
    (named : Named module)
    (pkgType : PktType)
    (data : Payload) :
    sendMessageToModule bm module pkgType data =
      .ok (bm.sendMessageToModule module pkgType data) := by
  obtain ⟨name, isName⟩ := moduleName_of_named named
  unfold sendMessageToModule Bm.sendMessageToModule
  rw [findRegisterTableById_eq]
  cases bm.findRegisterTableById module with
  | none =>
      change (moduleName module).bind (fun _ => .ok bm) = .ok bm
      rw [isName]
      rfl
  | some entry =>
      rfl

theorem sendConfigToModule_eq
    (bm : Bm)
    (module : Int) :
    sendConfigToModule bm module = .ok (bm.sendConfigToModule module) := by
  unfold sendConfigToModule Bm.sendConfigToModule Bm.sendMessageToModule
  rw [findRegisterTableById_eq]
  cases bm.findRegisterTableById module with
  | none =>
      rfl
  | some entry =>
      rfl

theorem welcomeModule_eq
    (bm : Bm)
    (mId alreadyRegistered : Int) :
    welcomeModule bm mId alreadyRegistered = .ok (bm.welcomeModule mId alreadyRegistered) := by
  unfold welcomeModule Bm.welcomeModule
  dsimp only
  split
  · split
    · exact sendMessageToModule_eq (by decide) _ _
    · rfl
  · split
    · exact sendMessageToModule_eq (by decide) _ _
    · split
      · rfl
      · rfl

/-- A registration that leaves no array is handled as the base module does. -/
theorem handleLocalModuleRegister_eq
    {pkt : Modreg}
    (inside : ¬Overruns pkt) :
    handleLocalModuleRegister bm pkt =
      .ok (bm.handleLocalModuleRegister pkt.mId pkt.mSockfd pkt.answered) := by
  unfold handleLocalModuleRegister Bm.handleLocalModuleRegister
  rw [insertRegisterTable_eq inside]
  change (if pkt.answered = true ∧ pkt.mSockfd ≠ 0 then _ else _) = _
  dsimp only
  split
  · rw [sendConfigToModule_eq]
    exact welcomeModule_eq _ _ _
  · rfl

theorem handleLocalModuleRegister_of_overruns
    {pkt : Modreg}
    (overruns : Overruns pkt) :
    handleLocalModuleRegister bm pkt = .error .modlistOverrun := by
  unfold handleLocalModuleRegister
  rw [insertRegisterTable_of_overruns overruns]
  rfl

theorem run_snoc
    (initial : Bm)
    (earlier : List Modreg)
    (pkt : Modreg) :
    run initial (earlier ++ [pkt]) =
      (run initial earlier).bind fun bm => handleLocalModuleRegister bm pkt := by
  unfold run
  rw [List.foldlM_append]
  simp only [List.foldlM_cons, List.foldlM_nil, bind_pure]
  rfl

end Inside

/-! ## What the base module keeps of the registrations -/

theorem latestSocket_snoc
    (earlier : List Modreg)
    (pkt : Modreg)
    (mId : Int) :
    latestSocket (earlier ++ [pkt]) mId =
      if Registers mId pkt then some pkt.mSockfd else latestSocket earlier mId := by
  unfold latestSocket
  rw [List.filter_append]
  split
  · next registers =>
      rw [List.filter_cons_of_pos (by simpa using registers), List.filter_nil,
        List.getLast?_append]
      rfl
  · next other =>
      rw [List.filter_cons_of_neg (by simpa using other), List.filter_nil, List.append_nil]

theorem isSome_latestSocket_snoc
    (earlier : List Modreg)
    (pkt : Modreg)
    (mId : Int) :
    (if (latestSocket (earlier ++ [pkt]) mId).isSome = true then 1 else 0) =
      (if (latestSocket earlier mId).isSome = true then 1 else 0) +
        if pkt.mId = mId ∧ 0 < pkt.mSockfd ∧ latestSocket earlier mId = none then 1 else 0 := by
  rw [latestSocket_snoc]
  by_cases registers : Registers mId pkt
  · rw [if_pos registers]
    cases before : latestSocket earlier mId with
    | none =>
        simp [registers.1, registers.2]
    | some sock =>
        simp
  · have other : ¬(pkt.mId = mId ∧ 0 < pkt.mSockfd ∧ latestSocket earlier mId = none) :=
      fun fresh => registers ⟨fresh.1, fresh.2.1⟩
    rw [if_neg registers, if_neg other, Nat.add_zero]

/-- A registration counts when its module had no socket. -/
theorem registeredCount_snoc
    (earlier : List Modreg)
    (pkt : Modreg) :
    registeredCount (earlier ++ [pkt]) =
      registeredCount earlier +
        if pkt.mId ∈ countedModules ∧ 0 < pkt.mSockfd ∧
            latestSocket earlier pkt.mId = none then 1 else 0 := by
  have member :
      pkt.mId ∈ countedModules ↔
        pkt.mId = Bm.icm ∨ pkt.mId = Bm.dbm ∨ pkt.mId = Bm.pem := by
    simp [countedModules]
  unfold registeredCount
  rw [countedModules] at *
  simp only [List.countP_cons, List.countP_nil, isSome_latestSocket_snoc, member]
  by_cases isIcm : pkt.mId = Bm.icm
  · rw [isIcm]
    simp [Bm.icm, Bm.dbm, Bm.pem]
    omega
  · by_cases isDbm : pkt.mId = Bm.dbm
    · rw [isDbm]
      simp [Bm.icm, Bm.dbm, Bm.pem]
      omega
    · by_cases isPem : pkt.mId = Bm.pem
      · rw [isPem]
        simp [Bm.icm, Bm.dbm, Bm.pem]
        omega
      · simp [isIcm, isDbm, isPem]

section Kept

variable {bm : Bm} {pkts : List Modreg}

/-- Every entry of the table is the latest registration of its module. -/
def TableRight (bm : Bm) (pkts : List Modreg) : Prop :=
  ∀ mId,
    0 < mId →
    mId < Bm.maxModuleNum →
    bm.registerTable mId =
      match latestSocket pkts mId with
      | none => ⟨0, 0⟩
      | some sock => ⟨mId, sock⟩

theorem registerTable_handle
    (bm : Bm)
    (pkt : Modreg) :
    (bm.handleLocalModuleRegister pkt.mId pkt.mSockfd pkt.answered).registerTable =
      (bm.insertRegisterTable pkt.mId pkt.mSockfd).2.registerTable := by
  cases pkt with
  | mk mId mSockfd answered =>
      cases answered with
      | false =>
          unfold Bm.handleLocalModuleRegister
          rw [if_neg (by simp)]
      | true =>
          rw [(Bm.quiet_handleLocalModuleRegister bm mId mSockfd).registerTable]
          unfold Bm.register Bm.countModule
          dsimp only
          split_ifs <;> rfl

/-- Only an answered registration is counted. -/
theorem bmStatus_handle
    (bm : Bm)
    (pkt : Modreg) :
    (bm.handleLocalModuleRegister pkt.mId pkt.mSockfd pkt.answered).bmStatus =
      bm.bmStatus +
        if pkt.answered = true ∧ pkt.mId ∈ countedModules ∧
            (bm.insertRegisterTable pkt.mId pkt.mSockfd).1 = 0 then 1 else 0 := by
  have inserted : (bm.insertRegisterTable pkt.mId pkt.mSockfd).2.bmStatus = bm.bmStatus := by
    unfold Bm.insertRegisterTable
    split_ifs <;> rfl
  cases pkt with
  | mk mId mSockfd answered =>
      cases answered with
      | false =>
          unfold Bm.handleLocalModuleRegister
          rw [if_neg (by simp)]
          simpa using inserted
      | true =>
          rw [(Bm.quiet_handleLocalModuleRegister bm mId mSockfd).bmStatus]
          have member :
              mId ∈ countedModules ↔ mId = Bm.icm ∨ mId = Bm.dbm ∨ mId = Bm.pem := by
            simp [countedModules]
          unfold Bm.register
          dsimp only
          by_cases isCounted : mId = Bm.icm ∨ mId = Bm.dbm ∨ mId = Bm.pem
          · unfold Bm.countModule
            rw [if_pos isCounted]
            by_cases isNew : (bm.insertRegisterTable mId mSockfd).1 = 0
            · rw [if_pos isNew, if_pos ⟨rfl, member.mpr isCounted, isNew⟩]
              exact congrArg (· + 1) inserted
            · rw [if_neg isNew, if_neg fun counts => isNew counts.2.2]
              exact inserted
          · rw [if_neg isCounted, if_neg fun counts => isCounted (member.mp counts.2.1)]
            exact inserted

theorem TableRight.handle
    (right : TableRight bm pkts)
    (pkt : Modreg) :
    TableRight (bm.handleLocalModuleRegister pkt.mId pkt.mSockfd pkt.answered)
      (pkts ++ [pkt]) := by
  intro mId positive small
  have before := right mId positive small
  rw [registerTable_handle, latestSocket_snoc]
  by_cases registers : Registers mId pkt
  · obtain ⟨isModule, isSocket⟩ := registers
    rw [if_pos ⟨isModule, isSocket⟩]
    unfold Bm.insertRegisterTable
    rw [if_neg (by omega), if_neg (by omega), isModule]
    dsimp only
    rw [Function.update_self]
  · rw [if_neg registers, ← before]
    unfold Bm.insertRegisterTable
    split
    · rfl
    · split
      · rfl
      · next isSocket =>
          have other : mId ≠ pkt.mId := fun same =>
            registers ⟨same.symm, Int.not_le.mp isSocket⟩
          exact Function.update_of_ne other _ _

/-- `insert_register_table` returns zero for a module that had no socket. -/
theorem TableRight.insertRegisterTable_eq_zero
    (right : TableRight bm pkts)
    (pkt : Modreg)
    (isCounted : pkt.mId ∈ countedModules) :
    (bm.insertRegisterTable pkt.mId pkt.mSockfd).1 = 0 ↔
      0 < pkt.mSockfd ∧ latestSocket pkts pkt.mId = none := by
  have inside : 0 < pkt.mId ∧ pkt.mId < Bm.maxModuleNum := by
    simp only [countedModules, List.mem_cons, List.not_mem_nil, or_false] at isCounted
    unfold Bm.icm Bm.dbm Bm.pem at isCounted
    unfold Bm.maxModuleNum
    omega
  unfold Bm.insertRegisterTable
  rw [if_neg (by omega), right pkt.mId inside.1 inside.2]
  split
  · next wrong =>
      exact iff_of_false (show (-1 : Int) ≠ 0 by decide) fun fresh =>
        Int.not_lt.mpr wrong fresh.1
  · next isSocket =>
      have isSocket : 0 < pkt.mSockfd := Int.not_le.mp isSocket
      cases latestSocket pkts pkt.mId with
      | none =>
          simp [isSocket, Int.ne_of_lt inside.1]
      | some sock =>
          simp

theorem latestSocket_pos
    {mId sock : Int}
    (isLatest : latestSocket pkts mId = some sock) :
    0 < sock := by
  unfold latestSocket at isLatest
  obtain ⟨pkt, last, rfl⟩ := Option.map_eq_some_iff.mp isLatest
  have member := List.mem_of_getLast? last
  have registers : Registers mId pkt := by simpa using (List.mem_filter.mp member).2
  exact registers.2

/-- A message goes to the socket of the latest registration. -/
theorem TableRight.sendMessageToModule
    (right : TableRight bm pkts)
    {module : Int}
    (named : Named module)
    (pkgType : PktType)
    (data : Payload) :
    ModuleTable.sendMessageToModule bm module pkgType data =
      .ok
        (match latestSocket pkts module with
        | none => bm
        | some sock => { bm with sends := bm.sends ++ [⟨module, sock, pkgType, data⟩] }) := by
  have positive : 0 < module := named.1
  have small : module < Bm.maxModuleNum := Int.lt_trans named.2 (by decide)
  rw [sendMessageToModule_eq named]
  unfold Bm.sendMessageToModule Bm.findRegisterTableById
  rw [if_neg (by omega), right module named.1 small]
  cases isLatest : latestSocket pkts module with
  | none =>
      rfl
  | some sock =>
      have socket : sock ≠ 0 := Int.ne_of_gt (latestSocket_pos isLatest)
      rw [if_pos (Int.ne_of_gt named.1)]
      dsimp only
      unfold Bm.sendPkt
      rw [if_neg socket]

end Kept

/-! ## Runs -/

section Runs

variable {initial bm : Bm} {pkts earlier : List Modreg} {pkt : Modreg}

/-- The last registration of a run that leaves no array. -/
theorem run_snoc_eq_ok
    {after : Bm} :
    run initial (earlier ++ [pkt]) = .ok after ↔
      ∃ bm,
        run initial earlier = .ok bm ∧
          ¬Overruns pkt ∧
          bm.handleLocalModuleRegister pkt.mId pkt.mSockfd pkt.answered = after := by
  rw [run_snoc, Loops.bind_eq_ok]
  refine exists_congr fun bm => and_congr_right fun _ => ?_
  by_cases overruns : Overruns pkt
  · rw [handleLocalModuleRegister_of_overruns overruns]
    exact iff_of_false (fun ends => nomatch ends) fun right => right.1 overruns
  · rw [handleLocalModuleRegister_eq overruns]
    exact ⟨fun ends => ⟨overruns, Except.ok.inj ends⟩, fun right => congrArg _ right.2⟩

/-- A run leaves no array when no packet makes it. -/
theorem exists_run_iff :
    (∃ bm, run initial pkts = .ok bm) ↔ ∀ pkt ∈ pkts, ¬Overruns pkt := by
  induction pkts using List.reverseRecOn with
  | nil =>
      exact iff_of_true ⟨initial, rfl⟩ fun pkt member => absurd member List.not_mem_nil
  | append_singleton earlier pkt inductionHypothesis =>
      simp only [run_snoc_eq_ok, List.mem_append, List.mem_singleton, or_imp, forall_and,
        forall_eq, ← inductionHypothesis]
      constructor
      · rintro ⟨after, bm, ends, inside, -⟩
        exact ⟨⟨bm, ends⟩, inside⟩
      · rintro ⟨⟨bm, ends⟩, inside⟩
        exact ⟨_, bm, ends, inside, rfl⟩

/-- The start of a run is a run. -/
theorem run_of_prefix
    (starts : earlier <+: pkts)
    (ends : ∃ after, run initial pkts = .ok after) :
    ∃ bm, run initial earlier = .ok bm := by
  rw [exists_run_iff] at ends ⊢
  exact fun pkt member => ends pkt (starts.subset member)

theorem run_tableRight
    (empty : TableRight initial [])
    (ends : run initial pkts = .ok bm) :
    TableRight bm pkts := by
  induction pkts using List.reverseRecOn generalizing bm with
  | nil =>
      cases ends
      exact empty
  | append_singleton earlier pkt inductionHypothesis =>
      obtain ⟨before, ran, -, rfl⟩ := run_snoc_eq_ok.mp ends
      exact (inductionHypothesis ran).handle pkt

/-- What the last registration of a run adds to `bm_status`. -/
theorem bmStatus_snoc
    {after : Bm}
    (empty : TableRight initial [])
    (ran : run initial earlier = .ok bm)
    (ends : run initial (earlier ++ [pkt]) = .ok after) :
    after.bmStatus =
      bm.bmStatus +
        if pkt.answered = true ∧ pkt.mId ∈ countedModules ∧ 0 < pkt.mSockfd ∧
            latestSocket earlier pkt.mId = none then 1 else 0 := by
  obtain ⟨before, same, -, rfl⟩ := run_snoc_eq_ok.mp ends
  cases ran.symm.trans same
  have right := run_tableRight empty ran
  rw [bmStatus_handle]
  congr 1
  by_cases isCounted : pkt.mId ∈ countedModules
  · simp only [right.insertRegisterTable_eq_zero pkt isCounted]
  · simp only [isCounted, false_and, and_false]

/-- An id without a name changes nothing, as long as no array is left. -/
theorem unknown_snoc
    {after : Bm}
    (unnamed : ¬Named pkt.mId)
    (ran : run initial earlier = .ok bm)
    (ends : run initial (earlier ++ [pkt]) = .ok after) :
    after.registerTable = bm.registerTable ∧ after.bmStatus = bm.bmStatus := by
  obtain ⟨before, same, inside, rfl⟩ := run_snoc_eq_ok.mp ends
  cases ran.symm.trans same
  have wrong : ¬(0 < pkt.mId ∧ pkt.mId < Bm.maxModuleNum ∧ 0 < pkt.mSockfd) := by
    unfold Named at unnamed
    unfold Overruns at inside
    omega
  rw [registerTable_handle, bmStatus_handle, Bm.insertRegisterTable_of_wrong wrong]
  refine ⟨rfl, ?_⟩
  rw [if_neg fun counts => absurd counts.2.2 (show (-1 : Int) ≠ 0 by decide)]
  rfl

/-- `bm_status` is right at every start when every first registration is answered. -/
theorem status_of_firstAnswered
    (empty : TableRight initial [])
    (zero : initial.bmStatus = 0)
    (answered : FirstAnswered pkts)
    (starts : earlier <+: pkts)
    (ends : run initial earlier = .ok bm) :
    bm.bmStatus = registeredCount earlier := by
  induction earlier using List.reverseRecOn generalizing bm with
  | nil =>
      cases ends
      exact zero
  | append_singleton earlier pkt inductionHypothesis =>
      obtain ⟨before, ran, -, -⟩ := run_snoc_eq_ok.mp ends
      have shorter : earlier <+: pkts := (List.prefix_append earlier [pkt]).trans starts
      rw [bmStatus_snoc empty ran ends, inductionHypothesis shorter ran, registeredCount_snoc]
      congr 1
      refine if_congr ?_ rfl rfl
      exact ⟨And.right, fun fresh =>
        ⟨answered earlier pkt starts fresh.1 fresh.2.1 fresh.2.2, fresh⟩⟩

/-- An unanswered first registration is in the table, and never counted. -/
theorem firstAnswered_of_status
    (empty : TableRight initial [])
    (ends : ∃ after, run initial pkts = .ok after)
    (status :
      ∀ earlier bm,
        earlier <+: pkts →
        run initial earlier = .ok bm →
        bm.bmStatus = registeredCount earlier) :
    FirstAnswered pkts := by
  intro earlier pkt starts isCounted isSocket fresh
  obtain ⟨after, ran⟩ := run_of_prefix starts ends
  have shorter : earlier <+: pkts := (List.prefix_append earlier [pkt]).trans starts
  obtain ⟨bm, before⟩ := run_of_prefix shorter ends
  have added := bmStatus_snoc empty before ran
  rw [status _ _ starts ran, status _ _ shorter before, registeredCount_snoc,
    if_pos ⟨isCounted, isSocket, fresh⟩] at added
  by_contra unanswered
  rw [if_neg fun counts => unanswered counts.1] at added
  omega

end Runs

theorem init_tableRight
    (responseMessage pmaConf : Int → Payload)
    (xmlPolicyBuff globalPmaBuff : Payload) :
    TableRight (Bm.init responseMessage pmaConf xmlPolicyBuff globalPmaBuff) [] :=
  fun _ _ _ => rfl

/--
BM handles a sequence of registrations as it has to exactly if no packet has an
id that passes the check and has no name, and the first registration of each
module that is counted is answered.
-/
theorem registrationsRight_iff
    (responseMessage pmaConf : Int → Payload)
    (xmlPolicyBuff globalPmaBuff : Payload)
    (pkts : List Modreg) :
    RegistrationsRight
        (Bm.init responseMessage pmaConf xmlPolicyBuff globalPmaBuff) pkts ↔
      (∀ pkt ∈ pkts, ¬Overruns pkt) ∧ FirstAnswered pkts := by
  have empty := init_tableRight responseMessage pmaConf xmlPolicyBuff globalPmaBuff
  constructor
  · intro right
    exact ⟨exists_run_iff.mp right.inside,
      firstAnswered_of_status empty right.inside right.status⟩
  · rintro ⟨inside, answered⟩
    constructor
    case inside => exact exists_run_iff.mpr inside
    case unknown => exact fun _ _ _ _ _ unnamed ran ends => unknown_snoc unnamed ran ends
    case status =>
      exact fun _ _ starts ends => status_of_firstAnswered empty rfl answered starts ends
    case sends =>
      exact fun _ _ _ ends _ pkgType data named =>
        (run_tableRight empty ends).sendMessageToModule named pkgType data

/-- Id 7 passes the check and has no name; an unanswered module is never counted. -/
theorem bad_registrations :
    ¬RegistrationsRight (Bm.init (fun _ => []) (fun _ => []) [] []) [⟨7, 5, true⟩] ∧
      ¬RegistrationsRight (Bm.init (fun _ => []) (fun _ => []) [] [])
        [⟨Bm.icm, 5, false⟩, ⟨Bm.icm, 6, true⟩] := by
  constructor
  · intro right
    obtain ⟨bm, ends⟩ := right.inside
    cases ends
  · intro right
    obtain ⟨bm, ends⟩ := right.inside
    have status := right.status _ bm List.prefix_rfl ends
    have counted :
        (run (Bm.init (fun _ => []) (fun _ => []) [] [])
          [⟨Bm.icm, 5, false⟩, ⟨Bm.icm, 6, true⟩]).map Bm.bmStatus = .ok 0 := rfl
    rw [ends] at counted
    have zero : bm.bmStatus = 0 := Except.ok.inj counted
    rw [zero] at status
    exact absurd status (by decide)

end Pma.ModuleTable
