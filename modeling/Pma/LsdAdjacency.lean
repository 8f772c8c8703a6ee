import Pma.LsdDetection

namespace Pma

open Transition

/-!
# Runs of the adjacencies

`Icm.Op` lists everything that can happen to the adjacencies of a daemon, in
any order.  Every operation keeps `Icm.AdjacencyInv`, so every run of a fresh
daemon does; what that means for the timers and for the flood master is stated
at the end.
-/

namespace Icm

/-- One operation on the adjacencies of a daemon. -/
inductive Op where
  /-- An interface went up or down and its handlers run. -/
  | stateChanged (eth : EthId) (state : EthState)
  /-- A datagram of a neighbour reaches the packet handlers. -/
  | packet (eth : EthId) (datagram : Datagram)
  /-- An event of the daemon. -/
  | event (event : Event)
  /-- A direct call of `flood_start`. -/
  | floodStart (eth : EthId)
  /-- A direct call of `flood_terminate`. -/
  | floodTerminate (eth : EthId)
  /-- A direct call of `flood_add_flood_lsa`. -/
  | floodAddFloodLsa (lsa : LinkStateAdv) (eth : EthId)

/-- Write the operational state of an interface. -/
def setEthState (icm : Icm) (eth : EthId) (state : EthState) : Icm :=
  icm.setEth eth { icm.router.eth eth with state := state }

/-- The execution of one operation. -/
def runOp (icm : Icm) : Op → Except Fault Icm
  | .stateChanged eth state =>
      .ok ((icm.setEthState eth state).backboneStateChanged eth)
  | .packet eth datagram => icm.dispatch eth datagram
  | .event event => icm.step event
  | .floodStart eth => icm.floodStart eth
  | .floodTerminate eth => icm.floodTerminate eth
  | .floodAddFloodLsa lsa eth => .ok (icm.floodAddFloodLsa lsa eth)

/-- The masters of every interface are still to be allocated and nothing is scheduled. -/
structure Fresh (icm : Icm) : Prop where
  hello : ∀ eth, icm.helloMaster eth = none
  exchange : ∀ eth, icm.exchangeMaster eth = none
  flood : ∀ eth, icm.floodMaster eth = none
  idle : icm.master.pending = []
  period : icm.periodctrl = none

/-- Nothing is pending in a scheduler without pending threads. -/
theorem pendingOf_of_idle
    {master : ThreadMaster}
    (idle : master.pending = [])
    (func : ThreadFunc)
    (arg : ThreadArg) :
    master.pendingOf func arg = [] := by
  simp [ThreadMaster.pendingOf, idle]

/-- A fresh daemon has sound adjacencies. -/
theorem Fresh.adjacencyInv
    {icm : Icm}
    (fresh : icm.Fresh) :
    icm.AdjacencyInv := by
  have idle := pendingOf_of_idle fresh.idle
  refine
    { flood := fun eth => ?_
      exchange := fun eth => ?_
      hello := fun eth => ?_
      exchangeAllocated := fun eth allocated => ?_
      period := fun _ => ⟨fresh.period, idle _⟩
      coupled := fun eth _ => ?_ }
  · unfold floodView
    rw [fresh.flood eth]
    exact
      { ackTracks := idle _ _
        sndTracks := idle _ _
        consistent := ⟨rfl, rfl, rfl⟩ }
  · unfold exchangeView
    rw [fresh.exchange eth]
    exact
      { ackTracks := idle _ _
        ackPending := by simp [newExchangeMaster]
        rcvIdle := rfl }
  · unfold helloView
    rw [fresh.hello eth]
    exact
      { highTracks := idle _ _
        highPending := by simp [newHelloMaster]
        lowTracks := idle _ _
        lowPending := by simp [newHelloMaster]
        highChain := fun _ handle => by cases handle
        lowChain := fun _ handle => by cases handle }
  · simp [fresh.hello eth] at allocated
  · unfold exchangeView
    rw [fresh.exchange eth]
    rfl

/-- The packet handlers. -/
theorem yields_dispatch
    {icm : Icm}
    (invariant : icm.AdjacencyInv)
    (eth : EthId)
    (datagram : Datagram) :
    Yields Fault.Unguarded (Keeps icm) (icm.dispatch eth datagram) := by
  unfold dispatch
  split
  · exact (detects_helloOnHighPacketReceived invariant _).keeps invariant
  · exact (detects_helloOnLowPacketReceived invariant _).keeps invariant
  · exact (yields_exchangePktReceived invariant.toSessionInv eth _).mono
      fun after yielded =>
        ⟨invariant.session yielded.1 yielded.2.1 yielded.2.2, yielded.1.links⟩
  · exact (yields_floodPktReceived invariant.flood eth _).mono
      fun after yielded =>
        ⟨invariant.floodFrame yielded.1 yielded.2, yielded.1.links⟩
  · exact ⟨invariant, rfl⟩

/-- Fetching a thread that belongs to no protocol. -/
theorem AdjacencyInv.fetch
    {icm : Icm}
    {id : ThreadId}
    {func : ThreadFunc}
    {arg : ThreadArg}
    (invariant : icm.AdjacencyInv)
    (isPending : id ∈ icm.master.pendingOf func arg)
    (shared : func.protocol = none) :
    (icm.fetch id).AdjacencyInv := by
  refine invariant.congr (fun _ => rfl) (fun _ => rfl) rfl
    (fun _ allocated => allocated) ?_ ?_
  · intro fresh
    refine ⟨(invariant.period fresh).1, fun arg => ?_⟩
    have none := (invariant.period fresh).2 arg
    unfold Icm.fetch
    rw [ThreadMaster.pendingOf_threadCancel, none]
    rfl
  · exact (ThreadMaster.AgreesOff.refl _).cancel isPending shared

/-- The periodic spread runs only after flooding was called. -/
theorem yields_spreadLocalLinkState
    {icm : Icm}
    (invariant : icm.AdjacencyInv)
    (called : icm.floodCalled = true) :
    Yields Fault.Unguarded (Keeps icm) icm.spreadLocalLinkState := by
  have loops := (yields_spreadLocal icm).frame invariant.flood
  have split :
      icm.spreadLocalLinkState =
        (icm.spreadLocalAccesses >>= spreadLocalBackbones) >>=
          fun backbones => pure backbones.armPeriodctrl := by
    unfold spreadLocalLinkState
    rw [bind_assoc]
  rw [split]
  refine Yields.bind loops ?_
  rintro spread ⟨framed, flooding⟩
  exact ⟨(invariant.floodFrame framed flooding).armPeriodctrl
    (by rw [framed.floodCalled, called]), framed.links⟩

/-- The handlers an interface event runs. -/
theorem yields_interfaceChanged
    {icm : Icm}
    (invariant : icm.AdjacencyInv)
    (arg : ThreadArg) :
    Yields Fault.Unguarded (Keeps icm) (icm.interfaceChanged arg) := by
  unfold interfaceChanged
  split
  · exact ((yields_aceUpHandler icm _).frame invariant.flood).mono
      fun after yielded =>
        ⟨invariant.floodFrame yielded.1 yielded.2, yielded.1.links⟩
  · exact ⟨invariant.backboneStateChanged _, backboneStateChanged_links icm _⟩
  · trivial

/-- A pending thread fires. -/
theorem yields_threadCall
    {icm : Icm}
    {thread : Thread}
    (invariant : icm.AdjacencyInv)
    (isPending :
      thread.id ∈ icm.master.pendingOf thread.func thread.arg) :
    Yields Fault.Unguarded (Keeps icm)
      ((icm.fetch thread.id).threadCall thread) := by
  obtain ⟨id, func, arg⟩ := thread
  dsimp only at isPending ⊢
  cases func with
  | helloHighSend =>
      cases arg with
      | backbone eth =>
          exact yields_helloHighSend invariant isPending
      | none =>
          trivial
      | access eth =>
          trivial
  | helloLowSend =>
      cases arg with
      | backbone eth =>
          exact yields_helloLowSend invariant isPending
      | none =>
          trivial
      | access eth =>
          trivial
  | deadTimerHigh =>
      cases arg with
      | backbone eth =>
          exact (detects_deadTimerHigh invariant isPending).keeps invariant
      | none =>
          trivial
      | access eth =>
          trivial
  | deadTimerLow =>
      cases arg with
      | backbone eth =>
          exact (detects_deadTimerLow invariant isPending).keeps invariant
      | none =>
          trivial
      | access eth =>
          trivial
  | ackTimeExcceed =>
      cases arg with
      | backbone eth =>
          have waiting := invariant.toSessionInv.waiting isPending
          refine (yields_ackTimeExcceed invariant.toSessionInv isPending).mono ?_
          rintro after ⟨framed, sessions, -⟩
          exact ⟨invariant.session framed sessions
            fun terminated => by simp [waiting] at terminated, framed.links⟩
      | none =>
          trivial
      | access eth =>
          trivial
  | floodAckTimeout =>
      cases arg with
      | backbone eth =>
          exact (yields_floodAckTimeout invariant.flood isPending).mono
            fun after yielded =>
        ⟨invariant.floodFrame yielded.1 yielded.2, yielded.1.links⟩
      | none =>
          trivial
      | access eth =>
          trivial
  | floodSendLsa =>
      cases arg with
      | backbone eth =>
          exact (yields_floodSendLsa invariant.flood isPending).mono
            fun after yielded =>
        ⟨invariant.floodFrame yielded.1 yielded.2, yielded.1.links⟩
      | none =>
          trivial
      | access eth =>
          trivial
  | spreadLocalLinkState =>
      have called : icm.floodCalled = true := by
        by_contra notCalled
        have none := (invariant.period (by simpa using notCalled)).2 arg
        rw [none] at isPending
        cases isPending
      exact yields_spreadLocalLinkState (invariant.fetch isPending rfl) called
  | interfaceUp =>
      exact yields_interfaceChanged (invariant.fetch isPending rfl) arg
  | interfaceDown =>
      exact yields_interfaceChanged (invariant.fetch isPending rfl) arg

/-- `thread_fetch` and the call of what it fetched. -/
theorem yields_expire
    {icm : Icm}
    (invariant : icm.AdjacencyInv)
    (id : ThreadId) :
    Yields Fault.Unguarded (Keeps icm) (icm.expire id) := by
  unfold expire
  split
  · exact ⟨invariant, rfl⟩
  · next thread found =>
      obtain ⟨isPending, rfl⟩ := ThreadMaster.find_eq_some.mp found
      exact yields_threadCall invariant (ThreadMaster.mem_pendingOf.mpr isPending)

/-- `lsd_receive`. -/
theorem yields_lsdReceive
    {icm : Icm}
    (invariant : icm.AdjacencyInv)
    (datagram : Datagram) :
    Yields Fault.Unguarded (Keeps icm) (icm.lsdReceive datagram) := by
  unfold lsdReceive
  split
  · exact ⟨invariant, rfl⟩
  · split
    · exact ⟨invariant, rfl⟩
    · split
      · exact ⟨invariant, rfl⟩
      · exact yields_dispatch invariant _ datagram

/-- Mirroring the interface table only schedules interface events. -/
structure Mirrors (before after : Icm) : Prop where
  hello : after.helloMaster = before.helloMaster
  exchange : after.exchangeMaster = before.exchangeMaster
  flood : after.floodMaster = before.floodMaster
  periodctrl : after.periodctrl = before.periodctrl
  floodCalled : after.floodCalled = before.floodCalled
  pending :
    ThreadMaster.AgreesOff
      (fun func _ => func = .interfaceUp ∨ func = .interfaceDown)
      before.master after.master

namespace Mirrors

theorem refl
    (icm : Icm) :
    Mirrors icm icm where
  hello := rfl
  exchange := rfl
  flood := rfl
  periodctrl := rfl
  floodCalled := rfl
  pending := .refl _

theorem trans
    {first second third : Icm}
    (earlier : Mirrors first second)
    (later : Mirrors second third) :
    Mirrors first third where
  hello := later.hello.trans earlier.hello
  exchange := later.exchange.trans earlier.exchange
  flood := later.flood.trans earlier.flood
  periodctrl := later.periodctrl.trans earlier.periodctrl
  floodCalled := later.floodCalled.trans earlier.floodCalled
  pending := earlier.pending.trans later.pending

/-- `eth_state_update`. -/
theorem ethStateUpdate
    (icm : Icm)
    (arg : ThreadArg)
    (state : EthState) :
    Mirrors icm (icm.ethStateUpdate arg state) := by
  cases state with
  | up =>
      exact { refl icm with pending := (ThreadMaster.AgreesOff.refl _).addEvent (.inl rfl) }
  | down =>
      exact { refl icm with pending := (ThreadMaster.AgreesOff.refl _).addEvent (.inr rfl) }

/-- Finding or allocating an area. -/
theorem ensureZone
    (icm : Icm)
    (areaId : UInt32) :
    Mirrors icm (icm.ensureZone areaId).2 := by
  unfold Icm.ensureZone
  split
  · exact refl icm
  · exact { refl icm with }

/-- One interface of `lsd_iflist_init`. -/
theorem initInterface
    (icm : Icm)
    (id : IfaceId) :
    Yields Fault.Unguarded (Mirrors icm) (icm.initInterface id) := by
  unfold Icm.initInterface
  split
  · unfold initBackbone
    dsimp only
    split
    · trivial
    · refine trans ?_ (ethStateUpdate _ _ _)
      exact { ensureZone (icm.setEth _ _) _ with }
    · refine trans ?_ (ethStateUpdate _ _ _)
      exact { ensureZone (Icm.setEth { icm with ethBrk := icm.ethBrk + 1 } _ _) _ with }
  · unfold initAccess
    dsimp only
    split
    · trivial
    · refine trans ?_ (ethStateUpdate _ _ _)
      exact { refl icm with }
    · refine trans ?_ (ethStateUpdate _ _ _)
      exact { refl icm with }
  · exact refl icm

/-- `lsd_iflist_init` on a new interface table. -/
theorem lsdIflistInit
    (icm : Icm)
    (table : LocalRouter) :
    Yields Fault.Unguarded (Mirrors icm)
      (icm.refreshInterfaces table).lsdIflistInit := by
  have refreshed : Mirrors icm (icm.refreshInterfaces table) :=
    { refl icm with }
  unfold Icm.lsdIflistInit
  split
  · exact (Yields.foldlM refl trans initInterface _ _).mono
      fun _ mirrored => refreshed.trans mirrored
  · exact refreshed

end Mirrors

/-- Mirroring the interface table keeps the adjacency invariant. -/
theorem AdjacencyInv.mirrors
    {before after : Icm}
    (invariant : before.AdjacencyInv)
    (mirrored : Mirrors before after) :
    after.AdjacencyInv := by
  refine invariant.congr ?_ ?_ mirrored.hello ?_ ?_ ?_
  · intro eth
    unfold floodView
    rw [mirrored.flood]
  · intro eth
    unfold exchangeView
    rw [mirrored.exchange]
  · intro eth allocated
    rwa [mirrored.exchange]
  · intro fresh
    rw [mirrored.floodCalled] at fresh
    rw [mirrored.periodctrl]
    refine ⟨(invariant.period fresh).1, fun arg => ?_⟩
    rw [mirrored.pending _ _ (by simp)]
    exact (invariant.period fresh).2 arg
  · refine mirrored.pending.mono ?_
    rintro func arg (rfl | rfl)
    · rfl
    · rfl

/-- One operation keeps the invariant and fails no assertion of a session or timer. -/
theorem yields_runOp
    {icm : Icm}
    (invariant : icm.AdjacencyInv)
    (op : Op) :
    Yields Fault.Unguarded AdjacencyInv (icm.runOp op) := by
  cases op with
  | stateChanged eth state =>
      have written : (icm.setEthState eth state).AdjacencyInv :=
        invariant.mirrors { Mirrors.refl icm with }
      exact written.backboneStateChanged eth
  | packet eth datagram =>
      exact (yields_dispatch invariant eth datagram).mono fun _ => And.left
  | event event =>
      cases event with
      | datagram datagram =>
          exact (yields_lsdReceive invariant datagram).mono fun _ => And.left
      | expire id =>
          exact (yields_expire invariant id).mono fun _ => And.left
      | interfaces table =>
          exact (Mirrors.lsdIflistInit icm table).mono
            fun _ mirrored => invariant.mirrors mirrored
  | floodStart eth =>
      exact (yields_floodStart invariant.flood eth).mono
        fun after yielded => invariant.floodFrame yielded.1 yielded.2
  | floodTerminate eth =>
      exact (yields_floodTerminate invariant.flood eth).mono
        fun after yielded => invariant.floodFrame yielded.1 yielded.2.1
  | floodAddFloodLsa lsa eth =>
      have floods := Floods.floodAddFloodLsa icm lsa eth
      exact invariant.floodFrame floods.toFloodFrame
        (floods.flooding invariant.flood)

/-- The adjacency invariant holds throughout every run of a fresh daemon. -/
theorem adjacencyInv_of_run
    {initial final : Icm}
    {ops : List Op}
    (fresh : initial.Fresh)
    (run : Run (ofPartial runOp) initial ops final) :
    final.AdjacencyInv :=
  run.invariant AdjacencyInv
    (fun invariant stepped => (yields_runOp invariant _).of_ok stepped)
    fresh.adjacencyInv

/--
The state machine of an adjacency.  In every state a run reaches, the two dead
timers run exactly while their priority is connected, the acknowledgement timer
exactly while the exchange waits, nothing is exchanged while the high priority
is down, and no further operation fails an assertion of the session and timer
functions.
-/
theorem adjacency_state_machine
    {initial final : Icm}
    {ops : List Op}
    (fresh : initial.Fresh)
    (run : Run (ofPartial runOp) initial ops final)
    (eth : EthId) :
    (final.master.Tracks .deadTimerHigh (.backbone eth)
        (final.helloView eth).deadTimerHigh ∧
      (final.master.pendingOf .deadTimerHigh (.backbone eth) ≠ [] ↔
        (final.helloView eth).highStatus = .connected)) ∧
    (final.master.Tracks .deadTimerLow (.backbone eth)
        (final.helloView eth).deadTimerLow ∧
      (final.master.pendingOf .deadTimerLow (.backbone eth) ≠ [] ↔
        (final.helloView eth).lowStatus = .connected)) ∧
    (final.master.Tracks .ackTimeExcceed (.backbone eth)
        (final.exchangeView eth).ackCtrl ∧
      (final.master.pendingOf .ackTimeExcceed (.backbone eth) ≠ [] ↔
        (final.exchangeView eth).sendState = .waiting)) ∧
    ((final.helloView eth).highStatus = .disconnected →
      (final.exchangeView eth).sendState = .terminated) ∧
    ∀ op fault, final.runOp op = .error fault → fault.Unguarded := by
  have invariant := adjacencyInv_of_run fresh run
  have hello := invariant.hello eth
  have exchange := invariant.exchange eth
  refine ⟨⟨hello.highTracks, ?_⟩, ⟨hello.lowTracks, ?_⟩,
    ⟨exchange.ackTracks, ?_⟩, invariant.coupled eth, ?_⟩
  · rw [← hello.highTracks.isSome_iff]
    exact hello.highPending
  · rw [← hello.lowTracks.isSome_iff]
    exact hello.lowPending
  · rw [← exchange.ackTracks.isSome_iff]
    exact exchange.ackPending
  · intro op fault aborted
    exact (yields_runOp invariant op).of_error aborted

/-- `lsd_init` leaves a fresh daemon. -/
theorem boot_fresh
    (clock : Nat → Timeval)
    (stack : CrLsdbLinkState)
    (localrouter : LocalRouter) :
    (boot clock stack localrouter).Fresh where
  hello := fun _ => rfl
  exchange := fun _ => rfl
  flood := fun _ => rfl
  idle := rfl
  period := rfl

/-- A daemon with one interface that is yet to be mirrored, under a stopped clock. -/
def oneLinkBoot (routerid agentid neighbor : UInt32) : Icm :=
  boot (fun _ => ⟨0, 0⟩) (lsaToLsdbInfo zeroAdv ⟨0, 0⟩)
    (oneLinkTable routerid agentid neighbor)

/-- The operations that bring up the adjacency of `oneLinkBoot`. -/
def bringUp (routerid agentid neighbor : UInt32) : List Op :=
  [ .event (.interfaces (oneLinkTable routerid agentid neighbor)),
    .event (.expire 0),
    .packet 0 (helloFrom neighbor 7) ]

/-- The first hello packet connects the high priority and starts both sessions. -/
theorem bringUp_runs :
    ∃ final,
      Run (ofPartial runOp) (oneLinkBoot 10 1 2) (bringUp 10 1 2) final ∧
      (final.helloView 0).highStatus = .connected ∧
      (final.exchangeView 0).sendState = .waiting ∧
      (final.floodView 0).state = .busy :=
  ⟨_, .cons rfl (.cons rfl (.cons rfl (.nil _))), rfl, rfl, rfl⟩

/-- A daemon with one interface up that heard nothing of its neighbour. -/
def idleDaemon (routerid agentid neighbor : UInt32) : Icm :=
  ((bringUp routerid agentid neighbor).take 2).foldlM runOp
      (oneLinkBoot routerid agentid neighbor) |>.toOption.getD
        (oneLinkBoot routerid agentid neighbor)

/-- Whatever the ids, an idle daemon keeps the invariant of its adjacencies. -/
theorem idleDaemon_adjacencyInv
    (routerid agentid neighbor : UInt32) :
    (idleDaemon routerid agentid neighbor).AdjacencyInv := by
  unfold idleDaemon
  cases returned :
      ((bringUp routerid agentid neighbor).take 2).foldlM runOp
        (oneLinkBoot routerid agentid neighbor) with
  | ok final =>
      exact adjacencyInv_of_run (boot_fresh _ _ _) (run_of_foldlM returned)
  | error fault =>
      exact (boot_fresh _ _ _).adjacencyInv

/-- A daemon with its adjacency up. -/
def upDaemon (routerid agentid neighbor : UInt32) : Icm :=
  ((bringUp routerid agentid neighbor).foldlM runOp
    (oneLinkBoot routerid agentid neighbor)).toOption.getD
      (oneLinkBoot routerid agentid neighbor)

/-- The dead timer and the acknowledgement timer run once the adjacency is up. -/
theorem adjacency_state_machine_bringUp :
    ∃ final,
      Run (ofPartial runOp) (oneLinkBoot 10 1 2) (bringUp 10 1 2) final ∧
      final.master.pendingOf .deadTimerHigh (.backbone 0) ≠ [] ∧
      final.master.pendingOf .ackTimeExcceed (.backbone 0) ≠ [] := by
  obtain ⟨final, run, connected, waiting, -⟩ := bringUp_runs
  obtain ⟨high, -, exchange, -, -⟩ :=
    adjacency_state_machine (boot_fresh _ _ _) run 0
  exact ⟨final, run, high.2.mpr connected, exchange.2.mpr waiting⟩

/--
The states of a flood master.  In every state a run reaches, the state of the
master decides its queue and its timers; whenever the send timer fires there is
something to send, and neither timer runs twice.
-/
theorem flood_master_states
    {initial final : Icm}
    {ops : List Op}
    (fresh : initial.Fresh)
    (run : Run (ofPartial runOp) initial ops final)
    (eth : EthId) :
    (final.master.Tracks .floodAckTimeout (.backbone eth)
        (final.floodView eth).ackCtrl ∧
      final.master.Tracks .floodSendLsa (.backbone eth)
        (final.floodView eth).sndCtrl) ∧
    ((final.floodView eth).state = .ready →
      (final.floodView eth).queue = [] ∧
        final.master.pendingOf .floodAckTimeout (.backbone eth) = [] ∧
        final.master.pendingOf .floodSendLsa (.backbone eth) = []) ∧
    ((final.floodView eth).state = .busy →
      (final.floodView eth).queue ≠ [] ∧
        final.master.pendingOf .floodAckTimeout (.backbone eth) = [] ∧
        final.master.pendingOf .floodSendLsa (.backbone eth) ≠ []) ∧
    ((final.floodView eth).state = .ackWaiting →
      final.master.pendingOf .floodAckTimeout (.backbone eth) ≠ [] ∧
        final.master.pendingOf .floodSendLsa (.backbone eth) = []) ∧
    ((final.floodView eth).state = .terminated →
      (final.floodView eth).queue = [] ∧
        final.master.pendingOf .floodAckTimeout (.backbone eth) = [] ∧
        final.master.pendingOf .floodSendLsa (.backbone eth) = []) ∧
    (final.master.pendingOf .floodSendLsa (.backbone eth) ≠ [] →
      (floodBatch (final.floodView eth)).lsas ≠ []) ∧
    (final.master.pendingOf .floodSendLsa (.backbone eth)).length ≤ 1 ∧
    (final.master.pendingOf .floodAckTimeout (.backbone eth)).length ≤ 1 := by
  have sound := (adjacencyInv_of_run fresh run).flood eth
  have ack := sound.ackTracks
  have snd := sound.sndTracks
  have consistent := sound.consistent
  refine ⟨⟨ack, snd⟩, ?_⟩
  unfold ThreadMaster.Tracks at ack snd
  rw [ack, snd]
  unfold FloodMaster.Consistent at consistent
  refine ⟨?_, ?_, ?_, ?_, ?_, ?_, ?_⟩
  · intro ready
    simpa [ready] using consistent
  · intro busy
    simpa [busy, Option.isSome_iff_ne_none] using consistent
  · intro waiting
    simpa [waiting, Option.isSome_iff_ne_none] using consistent
  · intro terminated
    simpa [terminated] using consistent
  · intro armed
    have queued : (final.floodView eth).queue ≠ [] := by
      cases state : (final.floodView eth).state <;> simp_all
    simpa [floodBatch, lsaCtPerPak] using queued
  · cases (final.floodView eth).sndCtrl <;> simp
  · cases (final.floodView eth).ackCtrl <;> simp

/-- Bringing the adjacency up floods its link state, so the send timer runs. -/
theorem flood_master_states_bringUp :
    ∃ final,
      Run (ofPartial runOp) (oneLinkBoot 10 1 2) (bringUp 10 1 2) final ∧
      (final.floodView 0).queue ≠ [] ∧
      final.master.pendingOf .floodSendLsa (.backbone 0) ≠ [] := by
  obtain ⟨final, run, -, -, busy⟩ := bringUp_runs
  obtain ⟨-, -, whenBusy, -⟩ :=
    flood_master_states (boot_fresh _ _ _) run 0
  exact ⟨final, run, (whenBusy busy).1, (whenBusy busy).2.2⟩

end Icm

end Pma
