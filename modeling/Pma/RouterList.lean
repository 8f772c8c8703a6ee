import Pma.Bm
import Pma.Bytes
import Pma.FirstMatch
import Pma.Loops
import Pma.Timer
import Pma.Transition

namespace Pma.RouterList

open Transition

/-!
# The list of the neighbour routers

PMS pushes the neighbours to BM, which keeps them in `rList` and passes the
whole list on to ICM.  A push arms a timer, or restarts the one that is armed.
The timer starts a thread with `send_router_list_to_ic`, which writes the list
to `global_pma_buff`, sends the buffer, unsets the timer and forgets its id.

A push, a tick of the timers, each of these four and the registration of ICM
are atomic steps.  BM gets the neighbours as XML, and the model starts from the
elements that the parser finds.
-/

/-- What ends BM, and the step of a thread that is not there. -/
inductive Fault where
  /-- `strtol` or `inet_pton` reads at `NULL`. -/
  | nullText
  /-- More than 1024 bytes are written to the buffer of `save_router_list_to_xml`. -/
  | buffOverrun
  | notRunning
  deriving Repr, DecidableEq

/-- `struct router_list`, each number with its bits. -/
structure Router where
  devid : UInt32
  rid : UInt32
  ipAddr : UInt32
  deriving Repr, DecidableEq

/-! ## The list -/

/-- `find_router_by_id`. -/
def findRouterById (routers : List Router) (id : UInt32) : Option Router :=
  routers.find? (·.devid = id)

/-- The assignment to `ip_addr` of the router that was found. -/
def updateAddr (id ipAddr : UInt32) : List Router → List Router
  | [] => []
  | router :: rest =>
      if router.devid = id then
        { router with ipAddr := ipAddr } :: rest
      else
        router :: updateAddr id ipAddr rest

/-- `insert_router_list`: a router that is known keeps its `rid`. -/
def insertRouterList (routers : List Router) (router : Router) : List Router :=
  match findRouterById routers router.devid with
  | none => router :: routers
  | some _ => updateAddr router.devid router.ipAddr routers

/-- What `inet_pton` gets to read in an element. -/
inductive AddrText where
  /-- The element has no text. -/
  | null
  /-- The text is no address. -/
  | malformed
  | addr (value : UInt32)
  deriving Repr, DecidableEq

/-- `inet_pton`, which leaves the variable alone when the text is no address. -/
def inetPton (before : UInt32) : AddrText → Except Fault UInt32
  | .null => .error .nullText
  | .malformed => .ok before
  | .addr value => .ok value

/-- A child of an element `PMA`. -/
inductive PmaChild where
  | routerId (text : AddrText)
  | agentControlIp (text : AddrText)
  | other
  deriving Repr, DecidableEq

/-- An element `PMA`: the number in its attribute `id`, and its children. -/
structure PmaElement where
  id : Option UInt32
  children : List PmaChild
  deriving Repr, DecidableEq

/-- `router_addr` and `ctl_addr`, which keep their values from one element to the next. -/
structure Addrs where
  routerAddr : UInt32
  ctlAddr : UInt32
  deriving Repr, DecidableEq

/-- One pass of the inner loop of `process_neighbor_list`. -/
def readChild (addrs : Addrs) : PmaChild → Except Fault Addrs
  | .routerId text => do
      let routerAddr ← inetPton addrs.routerAddr text
      return { addrs with routerAddr := routerAddr }
  | .agentControlIp text => do
      let ctlAddr ← inetPton addrs.ctlAddr text
      return { addrs with ctlAddr := ctlAddr }
  | .other => .ok addrs

/-- The routers that the outer loop inserts, in order. -/
def readPmas (addrs : Addrs) : List PmaElement → Except Fault (List Router)
  | [] => .ok []
  | pma :: rest =>
      match pma.id with
      | none => .error .nullText
      | some agentId => do
          let addrs ← pma.children.foldlM readChild addrs
          let routers ← readPmas addrs rest
          return ⟨agentId, addrs.routerAddr, addrs.ctlAddr⟩ :: routers

/-! ## The buffer -/

/-- The three numbers as they are in memory. -/
def Router.bytes (router : Router) : Payload :=
  Bytes.leBytes 4 router.devid.toNat ++
    (Bytes.leBytes 4 router.rid.toNat ++ Bytes.leBytes 4 router.ipAddr.toNat)

/-- The routers one behind the other. -/
def listBytes (routers : List Router) : Payload :=
  routers.flatMap Router.bytes

/-- `save_router_list_to_xml`: what it returns, and the buffer. -/
def saveRouterListToXml (rList : Option (List Router)) (buff : Payload) :
    Except Fault (Int × Payload) :=
  match rList with
  | none => .ok (-1, buff)
  | some routers =>
      if (listBytes routers).length ≤ 1024 then
        .ok (0, listBytes routers)
      else
        .error .buffOverrun

/-! ## The steps of BM -/

/-- The callbacks BM sets timers for. -/
inductive Callback where
  | sendRouterListToIc
  | heartBeatSend
  deriving Repr, DecidableEq

/-- The point a thread with `send_router_list_to_ic` is at. -/
inductive Phase where
  | serialise
  | send
  | unsetTimer
  | resetId
  deriving Repr, DecidableEq

/-- BM, with the threads of `send_router_list_to_ic` that are running. -/
structure State where
  bm : Bm
  rList : Option (List Router)
  routerListTimer : UInt32
  timers : TimerArr Callback
  threads : List Phase

/-- The routers behind the head of `rList`. -/
def State.routers (state : State) : List Router :=
  state.rList.getD []

/-- What BM does next, with the answers from outside. -/
inductive Action where
  /--
  `process_neighbor_list`: the elements, if the text is XML, and what the
  addresses on its stack held.
  -/
  | push (xml : Option (List PmaElement)) (stack : Addrs)
  /-- `exe_timer_callback`. -/
  | tick
  /-- `main` sets the timer of the heart beat. -/
  | startHeartBeat
  | serialise
  /-- Whether the packet can be sent. -/
  | send (accepted : Bool)
  | unsetTimer
  | resetId
  /-- `MODREG` of ICM: whether the response can be sent, and then the list. -/
  | registerIcm (mSockfd : Int) (answered accepted : Bool)
  deriving Repr, DecidableEq

/-- `send_message_to_module(ICM, PMA_LIST, ..)`. -/
def sendPmaList (bm : Bm) (accepted : Bool) : Bm :=
  if accepted then
    bm.sendMessageToModule Bm.icm .pmaList bm.globalPmaBuff
  else
    bm

/-- `process_neighbor_list`. -/
def processNeighborList
    (state : State)
    (xml : Option (List PmaElement))
    (stack : Addrs) : Except Fault State :=
  let initialised := { state with rList := some state.routers }
  match xml with
  | none => .ok initialised
  | some elements => do
      let routers ← readPmas stack elements
      let inserted :=
        { initialised with rList := some (routers.foldl insertRouterList state.routers) }
      if state.routerListTimer = noTimer then
        let timer := state.timers.setTimer 5 .sendRouterListToIc
        return { inserted with routerListTimer := timer.1, timers := timer.2 }
      else
        return { inserted with timers := state.timers.updateTimer state.routerListTimer }

/-- The list that ICM gets when it registers. -/
def welcomeIcm (bm : Bm) (accepted : Bool) : Bm :=
  if bm.globalPmaBuff.length ≠ 0 then
    sendPmaList bm accepted
  else
    bm

/-- `handle_local_module_register` for ICM. -/
def registerIcm
    (state : State)
    (mSockfd : Int)
    (answered accepted : Bool) : Except Fault State :=
  let inserted := state.bm.insertRegisterTable Bm.icm mSockfd
  if answered ∧ mSockfd ≠ 0 then do
    let responded :=
      inserted.2.sendPkt Bm.icm mSockfd .ack (inserted.2.responseMessage Bm.icm)
    let counted := (responded.sendConfigToModule Bm.icm).countModule inserted.1
    let saved ← saveRouterListToXml state.rList counted.globalPmaBuff
    return { state with bm := welcomeIcm { counted with globalPmaBuff := saved.2 } accepted }
  else
    .ok { state with bm := inserted.2 }

/-- A thread goes on, or ends. -/
def State.advance (state : State) (phase : Phase) (next : List Phase) : State :=
  { state with threads := state.threads.erase phase ++ next }

/-- One step of BM. -/
def step (state : State) : Action → Except Fault State
  | .push xml stack => processNeighborList state xml stack
  | .tick =>
      let fired := state.timers.exeTimerCallback
      .ok { state with
        timers := fired.2
        threads :=
          state.threads ++
            (fired.1.filter (· = .sendRouterListToIc)).map fun _ => .serialise }
  | .startHeartBeat =>
      .ok { state with timers := (state.timers.setTimer 5 .heartBeatSend).2 }
  | .serialise =>
      if .serialise ∈ state.threads then do
        let saved ← saveRouterListToXml state.rList state.bm.globalPmaBuff
        let bm := { state.bm with globalPmaBuff := saved.2 }
        return { state with bm := bm }.advance .serialise
          (if saved.1 = -1 then [] else [.send])
      else
        .error .notRunning
  | .send accepted =>
      if .send ∈ state.threads then
        -- What the sending returns is not looked at.
        .ok ({ state with bm := sendPmaList state.bm accepted }.advance .send [.unsetTimer])
      else
        .error .notRunning
  | .unsetTimer =>
      if .unsetTimer ∈ state.threads then
        let timers := state.timers.unsetTimer state.routerListTimer
        .ok ({ state with timers := timers }.advance .unsetTimer [.resetId])
      else
        .error .notRunning
  | .resetId =>
      if .resetId ∈ state.threads then
        .ok ({ state with routerListTimer := noTimer }.advance .resetId [])
      else
        .error .notRunning
  | .registerIcm mSockfd answered accepted => registerIcm state mSockfd answered accepted

/-- BM before the first step. -/
def init
    (responseMessage pmaConf : Int → Payload)
    (xmlPolicyBuff : Payload) : State where
  bm := Bm.init responseMessage pmaConf xmlPolicyBuff []
  rList := none
  routerListTimer := noTimer
  timers := TimerArr.init
  threads := []

/-! ## What has to hold -/

/-- ICM is in the register table. -/
def Registered (bm : Bm) : Prop :=
  bm.findRegisterTableById Bm.icm ≠ none

/-- The last `PMA_LIST` that was sent to ICM; it is empty when there was none. -/
def lastPmaList (bm : Bm) : Payload :=
  ((bm.sends.filter fun sent =>
    sent.module = Bm.icm ∧ sent.pktType = .pmaList).getLast?.map Sent.data).getD []

/-- When no list is under way, the last one that was sent is the current one. -/
def Delivered (state : State) : Prop :=
  state.routerListTimer = noTimer →
    state.threads = [] →
    Registered state.bm →
    lastPmaList state.bm = listBytes state.routers

/-- A router is in the list with its address. -/
def Known (routers : List Router) (router : Router) : Prop :=
  ∃ known, findRouterById routers router.devid = some known ∧ known.ipAddr = router.ipAddr

/-- No thread has written the list already, and a timer can be had if none is armed. -/
structure PushNoticed (state : State) : Prop where
  threads : ∀ phase ∈ state.threads, phase = .serialise
  timer :
    state.routerListTimer = noTimer →
      state.timers.timers.length < timerMaxCount ∧ state.timers.maxTimerId ≠ noTimer

/--
A push that has something new comes while no thread is between writing the list
and forgetting the timer, and finds a timer.  What is sent to ICM is accepted.
-/
def Undisturbed (state : State) : Action → Prop
  | .push (some elements) stack =>
      ∀ routers,
        readPmas stack elements = .ok routers →
        (∀ router ∈ routers, Known state.routers router) ∨ PushNoticed state
  | .send accepted => Registered state.bm → accepted = true
  | .registerIcm _ answered accepted => answered = true ∧ accepted = true
  | _ => True

/-! ## The routers -/

theorem updateAddr_eq_updateFirst
    (id ipAddr : UInt32)
    (routers : List Router) :
    updateAddr id ipAddr routers =
      FirstMatch.updateFirst (fun router => router.devid = id)
        (fun router => { router with ipAddr := ipAddr }) routers := by
  induction routers with
  | nil =>
      rfl
  | cons router rest inductionHypothesis =>
      unfold updateAddr FirstMatch.updateFirst
      rw [inductionHypothesis]
      simp only [decide_eq_true_eq]

theorem updateAddr_of_known
    {routers : List Router}
    {id ipAddr : UInt32}
    {known : Router}
    (found : findRouterById routers id = some known)
    (same : known.ipAddr = ipAddr) :
    updateAddr id ipAddr routers = routers := by
  rw [updateAddr_eq_updateFirst]
  apply FirstMatch.updateFirst_eq_self_of_find?
  intro router isFound
  cases found.symm.trans isFound
  rw [← same]

theorem devid_updateAddr
    {routers : List Router}
    {id : UInt32}
    (ipAddr : UInt32) :
    (updateAddr id ipAddr routers).map Router.devid = routers.map Router.devid := by
  rw [updateAddr_eq_updateFirst]
  apply FirstMatch.map_updateFirst
  intro router _
  rfl

/-- A router that is known changes nothing. -/
theorem insertRouterList_of_known
    {routers : List Router}
    {router : Router}
    (isKnown : Known routers router) :
    insertRouterList routers router = routers := by
  obtain ⟨known, found, same⟩ := isKnown
  unfold insertRouterList
  rw [found]
  exact updateAddr_of_known found same

theorem foldl_insertRouterList_of_known
    {routers pushed : List Router}
    (known : ∀ router ∈ pushed, Known routers router) :
    pushed.foldl insertRouterList routers = routers := by
  induction pushed with
  | nil =>
      rfl
  | cons router rest inductionHypothesis =>
      rw [List.foldl_cons, insertRouterList_of_known (known router List.mem_cons_self)]
      exact inductionHypothesis fun other member =>
        known other (List.mem_cons_of_mem _ member)

theorem updateAddr_eq_nil
    {routers : List Router}
    {id ipAddr : UInt32}
    (empty : updateAddr id ipAddr routers = []) :
    routers = [] := by
  have ids := @devid_updateAddr routers id ipAddr
  rw [empty] at ids
  exact List.map_eq_nil_iff.mp ids.symm

/-- No router is ever deleted. -/
theorem foldl_insertRouterList_eq_nil
    {routers pushed : List Router}
    (empty : pushed.foldl insertRouterList routers = []) :
    routers = [] := by
  induction pushed generalizing routers with
  | nil =>
      exact empty
  | cons router rest inductionHypothesis =>
      have inserted : insertRouterList routers router = [] := inductionHypothesis empty
      unfold insertRouterList at inserted
      split at inserted
      · cases inserted
      · exact updateAddr_eq_nil inserted

/-- A list that is XML is inserted when all of its elements can be read. -/
theorem processNeighborList_some
    {state after : State}
    {elements : List PmaElement}
    {stack : Addrs} :
    processNeighborList state (some elements) stack = .ok after ↔
      ∃ pushed, readPmas stack elements = .ok pushed ∧
        { state with
          rList := some (pushed.foldl insertRouterList state.routers)
          routerListTimer :=
            if state.routerListTimer = noTimer then
              (state.timers.setTimer 5 .sendRouterListToIc).1
            else
              state.routerListTimer
          timers :=
            if state.routerListTimer = noTimer then
              (state.timers.setTimer 5 .sendRouterListToIc).2
            else
              state.timers.updateTimer state.routerListTimer } = after := by
  refine Loops.bind_eq_ok.trans (exists_congr fun pushed => and_congr_right fun _ => ?_)
  by_cases unarmed : state.routerListTimer = noTimer
  · simp only [unarmed, if_true, pure, Except.pure, Except.ok.injEq]
  · simp only [unarmed, if_false, pure, Except.pure, Except.ok.injEq]

/-- What a push changes. -/
theorem processNeighborList_ok
    {state after : State}
    {xml : Option (List PmaElement)}
    {stack : Addrs}
    (step : processNeighborList state xml stack = .ok after) :
    after.bm = state.bm ∧
      after.threads = state.threads ∧
      (after.routers = state.routers ∧
          after.routerListTimer = state.routerListTimer ∨
        ∃ elements pushed,
          xml = some elements ∧
            readPmas stack elements = .ok pushed ∧
            after.routers = pushed.foldl insertRouterList state.routers ∧
            after.routerListTimer =
              if state.routerListTimer = noTimer then
                (state.timers.setTimer 5 .sendRouterListToIc).1
              else
                state.routerListTimer) := by
  cases xml with
  | none =>
      cases step
      exact ⟨rfl, rfl, .inl ⟨rfl, rfl⟩⟩
  | some elements =>
      obtain ⟨pushed, read, rfl⟩ := processNeighborList_some.mp step
      exact ⟨rfl, rfl, .inr ⟨elements, pushed, rfl, read, rfl, rfl⟩⟩

/-! ## What is sent to ICM -/

section Sends

variable {before after bm : Bm}

theorem registered_iff :
    Registered bm ↔ (bm.registerTable Bm.icm).mId ≠ 0 := by
  unfold Registered Bm.findRegisterTableById
  rw [if_neg (by decide)]
  split
  · next taken =>
      exact iff_of_true (Option.some_ne_none _) taken
  · next free =>
      exact iff_of_false (fun found => found rfl) free

/-- `after` differs from `before` in the counter and in packets that are no lists. -/
structure NoList (before after : Bm) : Prop where
  registerTable : after.registerTable = before.registerTable
  globalPmaBuff : after.globalPmaBuff = before.globalPmaBuff
  lastPmaList : lastPmaList after = lastPmaList before

theorem NoList.refl
    (bm : Bm) :
    NoList bm bm :=
  ⟨rfl, rfl, rfl⟩

theorem NoList.trans
    {first second third : Bm}
    (earlier : NoList first second)
    (later : NoList second third) :
    NoList first third :=
  ⟨later.registerTable.trans earlier.registerTable,
    later.globalPmaBuff.trans earlier.globalPmaBuff,
    later.lastPmaList.trans earlier.lastPmaList⟩

theorem noList_sendPkt
    {pktType : PktType}
    (bm : Bm)
    (module sock : Int)
    (data : Payload)
    (noList : pktType ≠ .pmaList) :
    NoList bm (bm.sendPkt module sock pktType data) := by
  unfold Bm.sendPkt
  split
  · exact .refl bm
  · refine ⟨rfl, rfl, ?_⟩
    unfold lastPmaList
    rw [List.filter_append, List.filter_cons_of_neg (by simp [noList]), List.filter_nil,
      List.append_nil]

theorem noList_sendConfigToModule
    (bm : Bm) :
    NoList bm (bm.sendConfigToModule Bm.icm) := by
  unfold Bm.sendConfigToModule Bm.sendMessageToModule
  split
  · exact .refl bm
  · exact noList_sendPkt bm _ _ _ (by decide)

theorem noList_countModule
    (bm : Bm)
    (alreadyRegistered : Int) :
    NoList bm (bm.countModule alreadyRegistered) := by
  unfold Bm.countModule
  split
  · exact ⟨rfl, rfl, rfl⟩
  · exact .refl bm

/-- What ICM gets before the list, and the counter. -/
theorem noList_respond
    (bm : Bm)
    (mSockfd alreadyRegistered : Int) :
    NoList bm
      (((bm.sendPkt Bm.icm mSockfd .ack
          (bm.responseMessage Bm.icm)).sendConfigToModule Bm.icm).countModule
        alreadyRegistered) :=
  ((noList_sendPkt bm Bm.icm mSockfd _ (by decide)).trans
    (noList_sendConfigToModule _)).trans (noList_countModule _ alreadyRegistered)

theorem sendPmaList_of_not_registered
    (notRegistered : ¬Registered bm)
    (accepted : Bool) :
    sendPmaList bm accepted = bm := by
  have notFound : bm.findRegisterTableById Bm.icm = none := not_not.mp notRegistered
  unfold sendPmaList Bm.sendMessageToModule
  rw [notFound]
  exact ite_self bm

/-- Sending to ICM changes neither the table nor the buffer. -/
theorem sendPmaList_frame
    (bm : Bm)
    (accepted : Bool) :
    (sendPmaList bm accepted).registerTable = bm.registerTable ∧
      (sendPmaList bm accepted).globalPmaBuff = bm.globalPmaBuff := by
  unfold sendPmaList
  split
  · obtain ⟨more, same, -⟩ :=
      @Bm.quiet_sendMessageToModule .pmaList bm Bm.icm bm.globalPmaBuff (by decide)
    rw [same]
    exact ⟨rfl, rfl⟩
  · exact ⟨rfl, rfl⟩

/-- A list that is accepted is the last one. -/
theorem lastPmaList_sendPmaList
    (registered : Registered bm)
    (socket : 0 < (bm.registerTable Bm.icm).mSockfd) :
    lastPmaList (sendPmaList bm true) = bm.globalPmaBuff := by
  have found : bm.findRegisterTableById Bm.icm = some (bm.registerTable Bm.icm) := by
    unfold Bm.findRegisterTableById
    rw [if_neg (by decide), if_pos (registered_iff.mp registered)]
  unfold sendPmaList Bm.sendMessageToModule
  rw [if_pos rfl, found]
  dsimp only
  unfold Bm.sendPkt
  rw [if_neg (Int.ne_of_gt socket)]
  unfold lastPmaList
  rw [List.filter_append, List.filter_cons_of_pos (by simp), List.filter_nil,
    List.getLast?_append]
  rfl

end Sends

/-! ## The invariant -/

/-- What holds between any two steps of an undisturbed run. -/
structure Inv (state : State) : Prop where
  socket : Registered state.bm → 0 < (state.bm.registerTable Bm.icm).mSockfd
  /-- What is about to be sent is the list. -/
  saved : .send ∈ state.threads → state.bm.globalPmaBuff = listBytes state.routers
  /-- The timer is forgotten for a list that was sent. -/
  sent :
    .unsetTimer ∈ state.threads ∨ .resetId ∈ state.threads →
      Registered state.bm →
      lastPmaList state.bm = listBytes state.routers
  /-- A list that was not sent is under way. -/
  pending :
    Registered state.bm →
      lastPmaList state.bm ≠ listBytes state.routers →
      state.routerListTimer ≠ noTimer ∨
        .serialise ∈ state.threads ∨
        .send ∈ state.threads
  empty :
    state.routers = [] → state.bm.globalPmaBuff = [] ∧ lastPmaList state.bm = []

theorem init_inv
    (responseMessage pmaConf : Int → Payload)
    (xmlPolicyBuff : Payload) :
    Inv (init responseMessage pmaConf xmlPolicyBuff) where
  socket := fun registered => absurd rfl (registered_iff.mp registered)
  saved := fun running => absurd running List.not_mem_nil
  sent := fun running => absurd running (by simp [init])
  pending := fun registered => absurd rfl (registered_iff.mp registered)
  empty := fun _ => ⟨rfl, rfl⟩

theorem Inv.delivered
    {state : State}
    (inv : Inv state) :
    Delivered state := by
  intro noneArmed noneRuns registered
  by_contra stale
  rcases inv.pending registered stale with armed | running
  · exact armed noneArmed
  · rw [noneRuns] at running
    exact running.elim List.not_mem_nil List.not_mem_nil

section Steps

variable {state after : State}

/-- The first id that a table with room gives is an id. -/
theorem PushNoticed.setTimer
    (noticed : PushNoticed state)
    (unarmed : state.routerListTimer = noTimer) :
    (state.timers.setTimer 5 .sendRouterListToIc).1 ≠ noTimer := by
  obtain ⟨room, fresh⟩ := noticed.timer unarmed
  unfold TimerArr.setTimer
  rw [if_neg (Nat.ne_of_lt room)]
  exact fresh

/-- The timers do not count, as long as an armed one stays armed. -/
theorem Inv.of_same
    (inv : Inv state)
    (bm : after.bm = state.bm)
    (threads : after.threads = state.threads)
    (routers : after.routers = state.routers)
    (armed : state.routerListTimer ≠ noTimer → after.routerListTimer ≠ noTimer) :
    Inv after where
  socket := by
    rw [bm]
    exact inv.socket
  saved := by
    rw [bm, threads, routers]
    exact inv.saved
  sent := by
    rw [bm, threads, routers]
    exact inv.sent
  pending := by
    rw [bm, threads, routers]
    exact fun registered stale => (inv.pending registered stale).imp_left armed
  empty := by
    rw [bm, routers]
    exact inv.empty

/-- A push that is noticed leaves a timer armed and no thread past writing the list. -/
theorem Inv.push_noticed
    (inv : Inv state)
    (noticed : PushNoticed state)
    {pushed : List Router}
    (bm : after.bm = state.bm)
    (threads : after.threads = state.threads)
    (routers : after.routers = pushed.foldl insertRouterList state.routers)
    (armed : after.routerListTimer ≠ noTimer) :
    Inv after := by
  have notPast : ∀ phase, phase ≠ .serialise → phase ∉ after.threads := by
    intro phase other running
    rw [threads] at running
    exact other (noticed.threads phase running)
  constructor
  case socket =>
    rw [bm]
    exact inv.socket
  case saved => exact fun running => absurd running (notPast .send (by decide))
  case sent =>
    intro running
    rcases running with unsetting | resetting
    · exact absurd unsetting (notPast .unsetTimer (by decide))
    · exact absurd resetting (notPast .resetId (by decide))
  case pending => exact fun _ _ => .inl armed
  case empty =>
    intro empty
    rw [routers] at empty
    rw [bm]
    exact inv.empty (foldl_insertRouterList_eq_nil empty)

theorem Inv.push
    (inv : Inv state)
    {xml : Option (List PmaElement)}
    {stack : Addrs}
    (undisturbed : Undisturbed state (.push xml stack))
    (step : processNeighborList state xml stack = .ok after) :
    Inv after := by
  obtain ⟨bm, threads, unchanged | inserted⟩ := processNeighborList_ok step
  · obtain ⟨routers, timer⟩ := unchanged
    exact inv.of_same bm threads routers fun armed => by rwa [timer]
  · obtain ⟨elements, pushed, rfl, read, routers, timer⟩ := inserted
    rcases undisturbed pushed read with known | noticed
    · refine inv.of_same bm threads ?_ fun armed => by rwa [timer, if_neg armed]
      exact routers.trans (foldl_insertRouterList_of_known known)
    · refine inv.push_noticed noticed bm threads routers ?_
      rw [timer]
      split
      · next unarmed =>
          exact noticed.setTimer unarmed
      · next armed =>
          exact armed

/-- A tick starts threads at their first step. -/
theorem Inv.tick
    (inv : Inv state)
    (count : List Callback)
    (timers : TimerArr Callback) :
    Inv
      { state with
        timers := timers
        threads := state.threads ++ count.map fun _ => .serialise } := by
  have started :
      ∀ phase, phase ≠ .serialise →
        phase ∈ state.threads ++ count.map (fun _ => Phase.serialise) →
        phase ∈ state.threads := by
    intro phase other running
    rcases List.mem_append.mp running with before | isNew
    · exact before
    · obtain ⟨-, -, same⟩ := List.mem_map.mp isNew
      exact absurd same.symm other
  constructor
  case socket => exact inv.socket
  case saved => exact fun running => inv.saved (started .send (by decide) running)
  case sent =>
    exact fun running =>
      inv.sent (running.imp (started .unsetTimer (by decide)) (started .resetId (by decide)))
  case empty => exact inv.empty
  case pending =>
    intro registered stale
    rcases inv.pending registered stale with armed | serialising | sending
    · exact .inl armed
    · exact .inr (.inl (List.mem_append_left _ serialising))
    · exact .inr (.inr (List.mem_append_left _ sending))

/-- What `save_router_list_to_xml` leaves in the buffer. -/
theorem saveRouterListToXml_ok
    {rList : Option (List Router)}
    {buff : Payload}
    {saved : Int × Payload}
    (returned : saveRouterListToXml rList buff = .ok saved) :
    rList = none ∧ saved = (-1, buff) ∨
      ∃ routers, rList = some routers ∧ saved = (0, listBytes routers) := by
  unfold saveRouterListToXml at returned
  cases rList with
  | none =>
      cases returned
      exact .inl ⟨rfl, rfl⟩
  | some routers =>
      dsimp only at returned
      split at returned
      · cases returned
        exact .inr ⟨routers, rfl, rfl⟩
      · cases returned

/-- The buffer that was saved is the list. -/
theorem Inv.saved_eq
    (inv : Inv state)
    {saved : Int × Payload}
    (returned : saveRouterListToXml state.rList state.bm.globalPmaBuff = .ok saved) :
    saved.2 = listBytes state.routers := by
  rcases saveRouterListToXml_ok returned with ⟨none, rfl⟩ | ⟨routers, some, rfl⟩
  · have empty : state.routers = [] := by
      unfold State.routers
      rw [none]
      rfl
    rw [empty]
    exact (inv.empty empty).1
  · unfold State.routers
    rw [some]
    rfl

/-- A new buffer is the list, and what is sent does not change. -/
theorem Inv.buffer
    (inv : Inv state)
    {buff : Payload}
    (current : buff = listBytes state.routers) :
    Inv { state with bm := { state.bm with globalPmaBuff := buff } } where
  socket := inv.socket
  saved := fun _ => current
  sent := inv.sent
  pending := inv.pending
  empty := by
    intro empty
    refine ⟨?_, (inv.empty empty).2⟩
    change buff = []
    rw [current]
    have same : state.routers = [] := empty
    rw [same]
    rfl

theorem mem_advance
    {phase other : Phase}
    {next : List Phase}
    (running : other ∈ (state.advance phase next).threads) :
    other ∈ state.threads ∨ other ∈ next :=
  (List.mem_append.mp running).imp_left List.mem_of_mem_erase

/-- A thread that is past sending goes on, when what was sent is the list. -/
theorem Inv.advance
    (inv : Inv state)
    {phase : Phase}
    {next : List Phase}
    (notSending : .send ∉ next)
    (current : Registered state.bm → lastPmaList state.bm = listBytes state.routers) :
    Inv (state.advance phase next) where
  socket := inv.socket
  saved := fun running =>
    inv.saved ((mem_advance running).resolve_right notSending)
  sent := fun _ => current
  pending := fun registered stale => absurd (current registered) stale
  empty := inv.empty

/-- An empty list needs no sending. -/
theorem Inv.current_of_empty
    (inv : Inv state)
    (empty : state.routers = []) :
    lastPmaList state.bm = listBytes state.routers := by
  rw [(inv.empty empty).2, empty]
  rfl

theorem Inv.serialise
    (inv : Inv state)
    {saved : Int × Payload}
    (returned : saveRouterListToXml state.rList state.bm.globalPmaBuff = .ok saved) :
    Inv
      ({ state with bm := { state.bm with globalPmaBuff := saved.2 } }.advance .serialise
        (if saved.1 = -1 then [] else [.send])) := by
  have buffered := inv.buffer (inv.saved_eq returned)
  rcases saveRouterListToXml_ok returned with ⟨none, rfl⟩ | ⟨routers, some, rfl⟩
  · rw [if_pos rfl]
    refine buffered.advance List.not_mem_nil fun _ => buffered.current_of_empty ?_
    change state.rList.getD [] = []
    rw [none]
    rfl
  · rw [if_neg (show (0 : Int) ≠ -1 by decide)]
    constructor
    case socket => exact buffered.socket
    case saved => exact fun _ => inv.saved_eq returned
    case sent =>
      intro running
      exact buffered.sent
        (running.imp (fun unsetting => (mem_advance unsetting).resolve_right (by decide))
          (fun resetting => (mem_advance resetting).resolve_right (by decide)))
    case pending => exact fun _ _ => .inr (.inr (List.mem_append_right _ List.mem_cons_self))
    case empty => exact buffered.empty

/-- The list was sent last, or ICM is not registered and nothing was sent. -/
theorem Inv.withBm
    (inv : Inv state)
    {bm : Bm}
    (socket : Registered bm → 0 < (bm.registerTable Bm.icm).mSockfd)
    (buffered : bm.globalPmaBuff = listBytes state.routers)
    (last :
      lastPmaList bm = listBytes state.routers ∨
        ¬Registered bm ∧ lastPmaList bm = lastPmaList state.bm) :
    Inv { state with bm := bm } ∧
      (Registered bm → lastPmaList bm = listBytes state.routers) := by
  have current : Registered bm → lastPmaList bm = listBytes state.routers :=
    fun registered => last.resolve_right fun other => other.1 registered
  refine ⟨?_, current⟩
  constructor
  case socket => exact socket
  case saved => exact fun _ => buffered
  case sent => exact fun _ => current
  case pending => exact fun registered stale => absurd (current registered) stale
  case empty =>
    intro empty
    have noBytes : listBytes state.routers = [] := by
      have same : state.routers = [] := empty
      rw [same]
      rfl
    refine ⟨buffered.trans noBytes, ?_⟩
    rcases last with sentLast | ⟨-, unchanged⟩
    · exact sentLast.trans noBytes
    · exact unchanged.trans (inv.empty empty).2

/-- Sending the list to ICM. -/
theorem Inv.sendPmaList
    (inv : Inv state)
    {bm : Bm}
    {accepted : Bool}
    (socket : Registered bm → 0 < (bm.registerTable Bm.icm).mSockfd)
    (buffered : bm.globalPmaBuff = listBytes state.routers)
    (unchanged : lastPmaList bm = lastPmaList state.bm)
    (isAccepted : Registered bm → accepted = true) :
    Inv { state with bm := sendPmaList bm accepted } ∧
      (Registered (RouterList.sendPmaList bm accepted) →
        lastPmaList (RouterList.sendPmaList bm accepted) = listBytes state.routers) := by
  by_cases registered : Registered bm
  · obtain ⟨sameTable, sameBuff⟩ := sendPmaList_frame bm accepted
    refine inv.withBm ?_ (sameBuff.trans buffered) (.inl ?_)
    · intro _
      rw [sameTable]
      exact socket registered
    · rw [isAccepted registered, lastPmaList_sendPmaList registered (socket registered)]
      exact buffered
  · rw [sendPmaList_of_not_registered registered]
    exact inv.withBm socket buffered (.inr ⟨registered, unchanged⟩)

theorem listBytes_eq_nil
    {routers : List Router}
    (empty : listBytes routers = []) :
    routers = [] := by
  cases routers with
  | nil =>
      rfl
  | cons router rest =>
      have lengths := congrArg List.length empty
      unfold listBytes Router.bytes at lengths
      rw [List.flatMap_cons, List.length_append, List.length_append,
        Bytes.length_leBytes] at lengths
      simp at lengths

/-- The register table after a registration of ICM. -/
theorem insertRegisterTable_icm
    (bm : Bm)
    (mSockfd : Int) :
    let inserted := (bm.insertRegisterTable Bm.icm mSockfd).2
    inserted.globalPmaBuff = bm.globalPmaBuff ∧
      lastPmaList inserted = lastPmaList bm ∧
      (inserted = bm ∧ mSockfd ≤ 0 ∨
        0 < mSockfd ∧ (inserted.registerTable Bm.icm).mSockfd = mSockfd) := by
  unfold Bm.insertRegisterTable
  rw [if_neg (by decide)]
  split
  · next wrong =>
      exact ⟨rfl, rfl, .inl ⟨rfl, wrong⟩⟩
  · next right =>
      refine ⟨rfl, rfl, .inr ⟨Int.not_le.mp right, ?_⟩⟩
      dsimp only
      rw [Function.update_self]

/-- ICM gets the list if there are routers in it. -/
theorem Inv.welcomeIcm
    (inv : Inv state)
    {bm : Bm}
    (socket : Registered bm → 0 < (bm.registerTable Bm.icm).mSockfd)
    (buffered : bm.globalPmaBuff = listBytes state.routers)
    (unchanged : lastPmaList bm = lastPmaList state.bm) :
    Inv { state with bm := welcomeIcm bm true } := by
  unfold RouterList.welcomeIcm
  split
  · exact (inv.sendPmaList socket buffered unchanged fun _ => rfl).1
  · next noBytes =>
      rw [buffered] at noBytes
      have empty : state.routers = [] :=
        listBytes_eq_nil (List.length_eq_zero_iff.mp (not_not.mp noBytes))
      exact (inv.withBm socket buffered
        (.inl (unchanged.trans (inv.current_of_empty empty)))).1

theorem Inv.registerIcm
    (inv : Inv state)
    {mSockfd : Int}
    (returned : registerIcm state mSockfd true true = .ok after) :
    Inv after := by
  obtain ⟨sameBuff, sameLast, table⟩ := insertRegisterTable_icm state.bm mSockfd
  have socket :
      Registered (state.bm.insertRegisterTable Bm.icm mSockfd).2 →
        0 < ((state.bm.insertRegisterTable Bm.icm mSockfd).2.registerTable Bm.icm).mSockfd := by
    rcases table with ⟨refused, -⟩ | ⟨positive, isSocket⟩
    · rw [refused]
      exact inv.socket
    · intro _
      rw [isSocket]
      exact positive
  unfold RouterList.registerIcm at returned
  dsimp only at returned
  split at returned
  · obtain ⟨saved, isSaved, same⟩ := Loops.bind_eq_ok.mp returned
    cases same
    have noList :=
      noList_respond (state.bm.insertRegisterTable Bm.icm mSockfd).2 mSockfd
        (state.bm.insertRegisterTable Bm.icm mSockfd).1
    rw [noList.globalPmaBuff, sameBuff] at isSaved
    refine inv.welcomeIcm ?_ (inv.saved_eq isSaved) (noList.lastPmaList.trans sameLast)
    rw [registered_iff, noList.registerTable, ← registered_iff]
    exact socket
  · next refused =>
      cases returned
      rcases table with ⟨unchanged, -⟩ | ⟨positive, -⟩
      · rw [unchanged]
        exact inv
      · exact absurd ⟨rfl, Int.ne_of_gt positive⟩ refused

/-- An undisturbed step keeps the invariant. -/
theorem Inv.step
    (inv : Inv state)
    {action : Action}
    (undisturbed : Undisturbed state action)
    (stepped : step state action = .ok after) :
    Inv after := by
  cases action with
  | push xml stack =>
      exact inv.push undisturbed stepped
  | tick =>
      cases stepped
      exact inv.tick _ _
  | startHeartBeat =>
      cases stepped
      exact inv.of_same rfl rfl rfl id
  | serialise =>
      unfold RouterList.step at stepped
      dsimp only at stepped
      split at stepped
      · obtain ⟨saved, returned, same⟩ := Loops.bind_eq_ok.mp stepped
        cases same
        exact inv.serialise returned
      · cases stepped
  | send accepted =>
      unfold RouterList.step at stepped
      dsimp only at stepped
      split at stepped
      · next running =>
          cases stepped
          obtain ⟨sent, current⟩ :=
            inv.sendPmaList inv.socket (inv.saved running) rfl undisturbed
          exact sent.advance (by decide) current
      · cases stepped
  | unsetTimer =>
      unfold RouterList.step at stepped
      dsimp only at stepped
      split at stepped
      · next running =>
          cases stepped
          have unset :
              Inv { state with timers := state.timers.unsetTimer state.routerListTimer } :=
            inv.of_same rfl rfl rfl id
          exact unset.advance (by decide) (inv.sent (.inl running))
      · cases stepped
  | resetId =>
      unfold RouterList.step at stepped
      dsimp only at stepped
      split at stepped
      · next running =>
          cases stepped
          have current := inv.sent (.inr running)
          have reset : Inv { state with routerListTimer := noTimer } :=
            ⟨inv.socket, inv.saved, inv.sent,
              fun registered stale => absurd (current registered) stale, inv.empty⟩
          exact reset.advance (by decide) current
      · cases stepped
  | registerIcm mSockfd answered accepted =>
      obtain ⟨rfl, rfl⟩ := undisturbed
      exact inv.registerIcm stepped

end Steps

/--
In every undisturbed run, whenever no timer is armed and no thread is running,
the last list sent to a registered ICM is the current one.
-/
theorem delivered_run
    {responseMessage pmaConf : Int → Payload}
    {xmlPolicyBuff : Payload}
    {actions : List Action}
    {state : State}
    (run :
      Run (guarded Undisturbed (ofPartial step))
        (init responseMessage pmaConf xmlPolicyBuff) actions state) :
    Delivered state := by
  have inv : Inv state :=
    run.invariant Inv (fun inv stepped => inv.step stepped.1 stepped.2)
      (init_inv responseMessage pmaConf xmlPolicyBuff)
  exact inv.delivered

/-- BM with no configuration. -/
def bareInit : State :=
  init (fun _ => []) (fun _ => []) []

/-- The element of a router whose numbers are all the same. -/
def pma (number : UInt32) : PmaElement :=
  ⟨some number, [.routerId (.addr number), .agentControlIp (.addr number)]⟩

/-- ICM registers, a router is pushed, and five seconds later the list is sent. -/
def pushAndSend : List Action :=
  [.registerIcm 5 true true, .push (some [pma 1]) ⟨0, 0⟩, .tick, .tick, .tick, .tick, .tick,
    .serialise, .send true, .unsetTimer, .resetId]

theorem pushAndSend_run :
    ∃ state,
      Run (guarded Undisturbed (ofPartial step)) bareInit pushAndSend state ∧
        lastPmaList state.bm = [1, 0, 0, 0, 1, 0, 0, 0, 1, 0, 0, 0] := by
  have noticed : ∀ state : State,
      state.threads = [] →
      state.timers = TimerArr.init →
      PushNoticed state := by
    intro state none unused
    refine ⟨?_, fun _ => ?_⟩
    · rw [none]
      exact fun phase running => absurd running List.not_mem_nil
    · rw [unused]
      decide
  exact ⟨_,
    .cons ⟨⟨rfl, rfl⟩, rfl⟩
      (.cons ⟨fun _ _ => .inr (noticed _ rfl rfl), rfl⟩
        (.cons ⟨trivial, rfl⟩ (.cons ⟨trivial, rfl⟩ (.cons ⟨trivial, rfl⟩
          (.cons ⟨trivial, rfl⟩ (.cons ⟨trivial, rfl⟩ (.cons ⟨trivial, rfl⟩
            (.cons ⟨fun _ => rfl, rfl⟩ (.cons ⟨trivial, rfl⟩
              (.cons ⟨trivial, rfl⟩ (.nil _))))))))))),
    rfl⟩

theorem delivered_run_pushed :
    ∃ state,
      Run (guarded Undisturbed (ofPartial step)) bareInit pushAndSend state ∧
        lastPmaList state.bm = [1, 0, 0, 0, 1, 0, 0, 0, 1, 0, 0, 0] ∧
        Delivered state := by
  obtain ⟨state, run, last⟩ := pushAndSend_run
  exact ⟨state, run, last, delivered_run run⟩

/-- While the first router is sent to ICM, a second one is pushed. -/
def lostPush : List Action :=
  [.registerIcm 5 true true, .push (some [pma 1]) ⟨0, 0⟩, .tick, .tick, .tick, .tick, .tick,
    .serialise, .push (some [pma 2]) ⟨0, 0⟩, .send true, .unsetTimer, .resetId]

/-- The second router is in the list, and nothing is left that would send it. -/
theorem lostPush_not_delivered :
    ¬∀ actions state, Run (ofPartial step) bareInit actions state → Delivered state := by
  intro claim
  obtain ⟨state, ended⟩ : ∃ state, lostPush.foldlM step bareInit = .ok state :=
    Loops.exists_ok (by decide)
  have found :
      (lostPush.foldlM step bareInit).map
          (fun state =>
            (state.routerListTimer, state.threads, (state.bm.registerTable Bm.icm).mId)) =
        .ok (noTimer, [], 1) := rfl
  have lists :
      (lostPush.foldlM step bareInit).map
          (fun state => (lastPmaList state.bm, listBytes state.routers)) =
        .ok ([1, 0, 0, 0, 1, 0, 0, 0, 1, 0, 0, 0],
          [2, 0, 0, 0, 2, 0, 0, 0, 2, 0, 0, 0, 1, 0, 0, 0, 1, 0, 0, 0, 1, 0, 0, 0]) := rfl
  rw [ended] at found lists
  simp only [Except.map, Except.ok.injEq, Prod.mk.injEq] at found lists
  have registered : Registered state.bm := by
    rw [registered_iff, found.2.2]
    decide
  have same := claim lostPush state (run_of_foldlM ended) found.1 found.2.1 registered
  rw [lists.1, lists.2] at same
  exact absurd same (by decide)

end Pma.RouterList
