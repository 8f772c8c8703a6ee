import Pma.LsdAdjacency

namespace Pma

open Transition

/-!
# Hello chains

`hello_on_eth_state_changed` starts two chains of sending threads when an
interface is up, and each thread arms its successor.  The handle of a chain is
one field of the hello master: starting a chain while one runs overwrites the
handle, and the older chain can no longer be stopped.  Every refresh of the
interface table schedules an event for every interface, whether its state
changed or not, so the chains of an interface are unique only in the runs in
which an interface that is up is handled while it has none.
-/

namespace Icm

/-- Every other thread function is no part of a chain. -/
theorem not_helloChain
    {eth : EthId}
    {func : ThreadFunc}
    {arg : ThreadArg}
    (notHigh : func ≠ .helloHighSend)
    (notLow : func ≠ .helloLowSend) :
    ¬helloChain eth func arg := by
  rintro ⟨isHigh | isLow, -⟩
  · exact notHigh isHigh
  · exact notLow isLow

/-- The handles of both chains of an interface track the pending threads. -/
structure Chained (icm : Icm) (eth : EthId) : Prop where
  high :
    icm.master.Tracks .helloHighSend (.backbone eth)
      (icm.helloView eth).helloTimerHigh
  low :
    icm.master.Tracks .helloLowSend (.backbone eth)
      (icm.helloView eth).helloTimerLow

/-- No chain of an interface has a handle. -/
def Unchained (icm : Icm) (eth : EthId) : Prop :=
  (icm.helloView eth).helloTimerHigh = none ∧
    (icm.helloView eth).helloTimerLow = none

/-- `after` has the chains that `before` has on an interface. -/
structure KeepsChain (eth : EthId) (before after : Icm) : Prop where
  high :
    (after.helloView eth).helloTimerHigh = (before.helloView eth).helloTimerHigh
  low :
    (after.helloView eth).helloTimerLow = (before.helloView eth).helloTimerLow
  pending :
    ThreadMaster.AgreesOff (fun func arg => ¬helloChain eth func arg)
      before.master after.master

namespace KeepsChain

variable {eth : EthId} {before after : Icm}

theorem trans
    {middle : Icm}
    (earlier : KeepsChain eth before middle)
    (later : KeepsChain eth middle after) :
    KeepsChain eth before after where
  high := later.high.trans earlier.high
  low := later.low.trans earlier.low
  pending := earlier.pending.trans later.pending

/-- A step that writes no hello master and owns no sending thread. -/
theorem ofMasters
    {own : ThreadFunc → ThreadArg → Prop}
    (hello : after.helloMaster = before.helloMaster)
    (pending : ThreadMaster.AgreesOff own before.master after.master)
    (foreign :
      ∀ func arg, own func arg → ¬helloChain eth func arg) :
    KeepsChain eth before after where
  high := by
    unfold helloView
    rw [hello]
  low := by
    unfold helloView
    rw [hello]
  pending := pending.mono foreign

/-- A step that touches neither hello masters nor the scheduler. -/
theorem ofSame
    (hello : after.helloMaster = before.helloMaster)
    (master : after.master = before.master) :
    KeepsChain eth before after where
  high := by
    unfold helloView
    rw [hello]
  low := by
    unfold helloView
    rw [hello]
  pending := by
    rw [master]
    exact .refl _

/-- The sessions of an interface own no sending thread. -/
theorem ofSession
    {other : EthId}
    (framed : SessionFrame other before after) :
    KeepsChain eth before after := by
  refine ofMasters framed.hello framed.pending ?_
  rintro func arg (isFlood | isExchange) ⟨rfl | rfl, -⟩
  · cases isFlood
  · cases isFlood
  · cases isExchange.1
  · cases isExchange.1

/-- Flooding owns no sending thread. -/
theorem ofFlood
    (framed : FloodFrame before after) :
    KeepsChain eth before after :=
  ofSession (framed.session eth)

/-- Mirroring the interface table schedules interface events only. -/
theorem ofMirrors
    (mirrored : Mirrors before after) :
    KeepsChain eth before after := by
  refine ofMasters mirrored.hello mirrored.pending ?_
  rintro func arg (rfl | rfl)
  · exact not_helloChain (by simp) (by simp)
  · exact not_helloChain (by simp) (by simp)

/-- A fetched thread that is no sending thread of the interface. -/
theorem fetch
    {icm : Icm}
    {id : ThreadId}
    {func : ThreadFunc}
    {arg : ThreadArg}
    (isPending : id ∈ icm.master.pendingOf func arg)
    (notChain : ¬helloChain eth func arg) :
    KeepsChain eth icm (icm.fetch id) := by
  refine ofMasters rfl
    ((ThreadMaster.AgreesOff.refl _).cancel isPending ⟨rfl, rfl⟩ :
      ThreadMaster.AgreesOff (ThreadMaster.only func arg) _ _) ?_
  rintro query queryArg ⟨rfl, rfl⟩
  exact notChain

/-- A write of the hello master of one interface. -/
theorem write
    {other : EthId}
    {new : HelloMaster}
    {own : ThreadFunc → ThreadArg → Prop}
    (hello : after.helloMaster = Function.update before.helloMaster other (some new))
    (pending : ThreadMaster.AgreesOff own before.master after.master)
    (foreign : ∀ func arg, own func arg → ¬helloChain eth func arg)
    (kept :
      eth = other →
        new.helloTimerHigh = (before.helloView eth).helloTimerHigh ∧
          new.helloTimerLow = (before.helloView eth).helloTimerLow) :
    KeepsChain eth before after := by
  by_cases same : eth = other
  · obtain ⟨high, low⟩ := kept same
    have written : after.helloView eth = new := by
      unfold helloView
      rw [hello, same, Function.update_self]
      rfl
    exact
      { high := by rw [written, high]
        low := by rw [written, low]
        pending := pending.mono foreign }
  · have view : after.helloView eth = before.helloView eth := by
      unfold helloView
      rw [hello, Function.update_of_ne same]
    exact
      { high := by rw [view]
        low := by rw [view]
        pending := pending.mono foreign }

end KeepsChain

/-- Chains that are kept are still tracked. -/
theorem Chained.keeps
    {before after : Icm}
    {eth : EthId}
    (chained : before.Chained eth)
    (keeps : KeepsChain eth before after) :
    after.Chained eth where
  high := by
    rw [keeps.high]
    exact chained.high.agrees keeps.pending
      (not_not_intro ⟨.inl rfl, rfl⟩)
  low := by
    rw [keeps.low]
    exact chained.low.agrees keeps.pending
      (not_not_intro ⟨.inr rfl, rfl⟩)

/-- No chain starts in a step that keeps the chains. -/
theorem Unchained.keeps
    {before after : Icm}
    {eth : EthId}
    (unchained : before.Unchained eth)
    (keeps : KeepsChain eth before after) :
    after.Unchained eth :=
  ⟨keeps.high.trans unchained.1, keeps.low.trans unchained.2⟩

/-! ## Steps that keep the chains -/

/-- A step that keeps the chains of an interface, or stops the daemon. -/
abbrev YieldsChain (eth : EthId) (icm : Icm) : Except Fault Icm → Prop :=
  Yields Fault.Unguarded (KeepsChain eth icm)

/-- Detection restarts dead timers only. -/
theorem Detects.keepsChain
    {icm : Icm}
    {other : EthId}
    {computation : Except Fault Icm}
    (invariant : icm.AdjacencyInv)
    (detects : icm.Detects other computation)
    (eth : EthId) :
    YieldsChain eth icm computation := by
  have wrote :
      ∀ {new : HelloMaster} {master : ThreadMaster},
        icm.HelloWrite other new master →
          KeepsChain eth icm (icm.withHello other new master) := by
    intro new master writes
    refine .write rfl writes.pending ?_ ?_
    · rintro func arg ⟨rfl | rfl, -⟩
      · exact not_helloChain (by simp) (by simp)
      · exact not_helloChain (by simp) (by simp)
    · rintro rfl
      exact writes.sending
  cases detects with
  | unallocated =>
      trivial
  | restarted writes highKept =>
      exact wrote writes
  | changed writes rises highStatus lowStatus =>
      have timers := invariant.toTimerInv.write writes.exchanging
        (writes.pending.mono (deadTimers_owned other)) writes.sound
      refine (yields_helloChangedHandler timers.toSessionInv writes.exchanging
        _ _ ?_).mono ?_
      · intro isHigh connected
        exact invariant.coupled other (rises isHigh connected)
      · rintro after ⟨framed, -⟩
        exact (wrote writes).trans (.ofSession framed)

/-- The packet handlers. -/
theorem yieldsChain_dispatch
    {icm : Icm}
    (invariant : icm.AdjacencyInv)
    (eth other : EthId)
    (datagram : Datagram) :
    YieldsChain eth icm (icm.dispatch other datagram) := by
  unfold dispatch
  split
  · exact (detects_helloOnHighPacketReceived invariant _).keepsChain invariant eth
  · exact (detects_helloOnLowPacketReceived invariant _).keepsChain invariant eth
  · exact (yields_exchangePktReceived invariant.toSessionInv other _).mono
      fun after yielded => .ofSession yielded.1
  · exact (yields_floodPktReceived invariant.flood other _).mono
      fun after yielded => .ofFlood yielded.1
  · exact .ofSame rfl rfl

/-- `lsd_receive`. -/
theorem yieldsChain_lsdReceive
    {icm : Icm}
    (invariant : icm.AdjacencyInv)
    (eth : EthId)
    (datagram : Datagram) :
    YieldsChain eth icm (icm.lsdReceive datagram) := by
  have dropped : KeepsChain eth icm icm := .ofSame rfl rfl
  unfold lsdReceive
  split
  · exact dropped
  · split
    · exact dropped
    · split
      · exact dropped
      · exact yieldsChain_dispatch invariant eth _ datagram

/-- The handlers of an interface change before the one of hello. -/
theorem keepsChain_allocate
    {icm : Icm}
    (invariant : icm.AdjacencyInv)
    (eth other : EthId) :
    KeepsChain eth icm
      ((icm.floodOnEthStateChanged other).exchangeOnEthStateChanged other) := by
  have allocates : KeepsChain eth icm (icm.floodAllocate other) := by
    unfold floodAllocate
    split
    · exact .ofSame rfl rfl
    · exact .ofSame rfl rfl
  have callsOnce :
      KeepsChain eth (icm.floodAllocate other)
        (icm.floodAllocate other).floodCallOnce := by
    by_cases called : (icm.floodAllocate other).floodCalled
    · rw [floodCallOnce, if_pos called]
      exact .ofSame rfl rfl
    · have idle :=
        ((invariant.floodAllocate other).period (by simpa using called)).1
      rw [floodCallOnce, if_neg called, floodPeriodicallyFloodStart,
        floodPeriodicallyFloodTerminate, idle]
      refine .ofMasters rfl
        ((ThreadMaster.AgreesOff.refl _).add ⟨rfl, rfl⟩ :
          ThreadMaster.AgreesOff
            (ThreadMaster.only .spreadLocalLinkState .none) _ _) ?_
      rintro func arg ⟨rfl, rfl⟩
      exact not_helloChain (by simp) (by simp)
  refine (allocates.trans callsOnce).trans ?_
  unfold exchangeOnEthStateChanged
  split
  · exact .ofSame rfl rfl
  · exact .ofSame rfl rfl

/-- `hello_on_eth_state_changed` of another interface. -/
theorem keepsChain_helloOnEthStateChanged
    {icm : Icm}
    {eth other : EthId}
    (invariant : icm.AdjacencyInv)
    (different : eth ≠ other) :
    KeepsChain eth icm (icm.helloOnEthStateChanged other) := by
  have sound := invariant.hello other
  have elsewhere :
      ∀ func arg, helloChain other func arg → ¬helloChain eth func arg := by
    rintro func arg ⟨-, rfl⟩ ⟨-, same⟩
    cases same
    exact different rfl
  unfold helloOnEthStateChanged
  dsimp only
  split
  · refine .write rfl (helloOnEthDown_agrees sound) elsewhere ?_
    exact fun same => absurd same different
  · refine .write rfl
      (((ThreadMaster.AgreesOff.refl _).addEvent ⟨.inl rfl, rfl⟩).addEvent
        ⟨.inr rfl, rfl⟩ :
        ThreadMaster.AgreesOff (helloChain other) _ _) elsewhere ?_
    exact fun same => absurd same different

/-- The periodic spread. -/
theorem yieldsChain_spreadLocalLinkState
    (icm : Icm)
    (eth : EthId) :
    YieldsChain eth icm icm.spreadLocalLinkState := by
  have split :
      icm.spreadLocalLinkState =
        (icm.spreadLocalAccesses >>= spreadLocalBackbones) >>=
          fun backbones => pure backbones.armPeriodctrl := by
    unfold spreadLocalLinkState
    rw [bind_assoc]
  rw [split]
  refine Yields.bind (yields_spreadLocal icm) fun spread floods => ?_
  refine (KeepsChain.ofFlood floods.toFloodFrame).trans ?_
  refine .ofMasters rfl
    ((ThreadMaster.AgreesOff.refl _).add ⟨rfl, rfl⟩ :
      ThreadMaster.AgreesOff
        (ThreadMaster.only .spreadLocalLinkState .none) _ _) ?_
  rintro func arg ⟨rfl, rfl⟩
  exact not_helloChain (by simp) (by simp)

/-- The handlers an interface event runs, for another interface. -/
theorem yieldsChain_interfaceChanged
    {icm : Icm}
    {eth : EthId}
    {arg : ThreadArg}
    (invariant : icm.AdjacencyInv)
    (different : arg ≠ .backbone eth) :
    YieldsChain eth icm (icm.interfaceChanged arg) := by
  unfold interfaceChanged
  split
  · exact (yields_aceUpHandler icm _).mono
      fun after floods => .ofFlood floods.toFloodFrame
  · next other =>
      have elsewhere : eth ≠ other := by
        rintro rfl
        exact different rfl
      exact (keepsChain_allocate invariant eth other).trans
        (keepsChain_helloOnEthStateChanged
          (((invariant.floodAllocate other).floodCallOnce).exchangeOnEthStateChanged
            other) elsewhere)
  · trivial

/-- A sending thread of another interface arms its successor. -/
theorem keepsChain_rearm
    {icm after : Icm}
    {eth other : EthId}
    {func : ThreadFunc}
    {id : ThreadId}
    {new : HelloMaster}
    (isPending : id ∈ icm.master.pendingOf func (.backbone other))
    (different : eth ≠ other)
    (hello : after.helloMaster = Function.update icm.helloMaster other (some new))
    (master :
      after.master =
        (icm.master.threadCancel id).threadAddTimer func (.backbone other)) :
    KeepsChain eth icm after := by
  refine .write hello (master ▸ (rearm isPending).1) ?_ ?_
  · rintro query arg ⟨rfl, rfl⟩ ⟨-, same⟩
    cases same
    exact different rfl
  · exact fun same => absurd same different

/--
A fetched thread keeps the chains of an interface unless it is one of them or
an event of the interface.
-/
theorem yieldsChain_threadCall
    {icm : Icm}
    {eth : EthId}
    {thread : Thread}
    (invariant : icm.AdjacencyInv)
    (isPending :
      thread.id ∈ icm.master.pendingOf thread.func thread.arg)
    (notChain : ¬helloChain eth thread.func thread.arg)
    (notEvent :
      thread.func = .interfaceUp ∨ thread.func = .interfaceDown →
        thread.arg ≠ .backbone eth) :
    YieldsChain eth icm ((icm.fetch thread.id).threadCall thread) := by
  obtain ⟨id, func, arg⟩ := thread
  dsimp only at isPending notChain notEvent ⊢
  have fetched : KeepsChain eth icm (icm.fetch id) := .fetch isPending notChain
  cases func with
  | helloHighSend =>
      cases arg with
      | backbone other =>
          have different : eth ≠ other := by
            rintro rfl
            exact notChain ⟨.inl rfl, rfl⟩
          refine Yields.bind (Yields.deref fun _ => trivial) fun hello _ => ?_
          refine keepsChain_rearm isPending different
            (Floods.lsdSend _ other _).hello ?_
          rw [lsdSend_eq]
          rfl
      | none =>
          trivial
      | access other =>
          trivial
  | helloLowSend =>
      cases arg with
      | backbone other =>
          have different : eth ≠ other := by
            rintro rfl
            exact notChain ⟨.inr rfl, rfl⟩
          refine Yields.bind (Yields.deref fun _ => trivial) fun hello _ => ?_
          refine keepsChain_rearm isPending different
            (Floods.lsdSend _ other _).hello ?_
          rw [lsdSend_eq]
          rfl
      | none =>
          trivial
      | access other =>
          trivial
  | deadTimerHigh =>
      cases arg with
      | backbone other =>
          exact (detects_deadTimerHigh invariant isPending).keepsChain invariant eth
      | none =>
          trivial
      | access other =>
          trivial
  | deadTimerLow =>
      cases arg with
      | backbone other =>
          exact (detects_deadTimerLow invariant isPending).keepsChain invariant eth
      | none =>
          trivial
      | access other =>
          trivial
  | ackTimeExcceed =>
      cases arg with
      | backbone other =>
          exact (yields_ackTimeExcceed invariant.toSessionInv isPending).mono
            fun after yielded => .ofSession yielded.1
      | none =>
          trivial
      | access other =>
          trivial
  | floodAckTimeout =>
      cases arg with
      | backbone other =>
          exact (yields_floodAckTimeout invariant.flood isPending).mono
            fun after yielded => .ofFlood yielded.1
      | none =>
          trivial
      | access other =>
          trivial
  | floodSendLsa =>
      cases arg with
      | backbone other =>
          exact (yields_floodSendLsa invariant.flood isPending).mono
            fun after yielded => .ofFlood yielded.1
      | none =>
          trivial
      | access other =>
          trivial
  | spreadLocalLinkState =>
      exact (yieldsChain_spreadLocalLinkState (icm.fetch id) eth).mono
        fun after keeps => fetched.trans keeps
  | interfaceUp =>
      exact (yieldsChain_interfaceChanged (invariant.fetch isPending rfl)
        (notEvent (.inl rfl))).mono fun after keeps => fetched.trans keeps
  | interfaceDown =>
      exact (yieldsChain_interfaceChanged (invariant.fetch isPending rfl)
        (notEvent (.inr rfl))).mono fun after keeps => fetched.trans keeps

/-! ## Steps of the chains -/

/-- The hello master of an interface after it was written. -/
theorem helloView_of_update
    {before after : Icm}
    {eth : EthId}
    {new : HelloMaster}
    (hello : after.helloMaster = Function.update before.helloMaster eth (some new)) :
    after.helloView eth = new := by
  unfold helloView
  rw [hello, Function.update_self]
  rfl

namespace Chained

variable {icm : Icm} {eth : EthId}

/-- A sending thread of the high priority arms its successor. -/
theorem helloHighSend
    {id : ThreadId}
    (chained : icm.Chained eth)
    (isPending : id ∈ icm.master.pendingOf .helloHighSend (.backbone eth)) :
    Yields Fault.Unguarded (fun after => after.Chained eth)
      ((icm.fetch id).helloHighSend eth) := by
  unfold Icm.helloHighSend
  refine Yields.bind (Yields.deref fun _ => trivial) fun hello allocated => ?_
  change icm.helloMaster eth = some hello at allocated
  have lowTracks := chained.low
  rw [helloView_of_some allocated] at lowTracks
  dsimp only
  rw [lsdSend_eq]
  refine { high := ?_, low := ?_ }
  · rw [helloView_of_update rfl]
    exact (chained.high.fetched isPending).add
  · rw [helloView_of_update rfl]
    exact lowTracks.agrees (rearm isPending).1 (by simp [ThreadMaster.only])

/-- A sending thread of the low priority arms its successor. -/
theorem helloLowSend
    {id : ThreadId}
    (chained : icm.Chained eth)
    (isPending : id ∈ icm.master.pendingOf .helloLowSend (.backbone eth)) :
    Yields Fault.Unguarded (fun after => after.Chained eth)
      ((icm.fetch id).helloLowSend eth) := by
  unfold Icm.helloLowSend
  refine Yields.bind (Yields.deref fun _ => trivial) fun hello allocated => ?_
  change icm.helloMaster eth = some hello at allocated
  have highTracks := chained.high
  rw [helloView_of_some allocated] at highTracks
  dsimp only
  rw [lsdSend_eq]
  refine { high := ?_, low := ?_ }
  · rw [helloView_of_update rfl]
    exact highTracks.agrees (rearm isPending).1 (by simp [ThreadMaster.only])
  · rw [helloView_of_update rfl]
    exact (chained.low.fetched isPending).add

/-- The `ETH_DOWN` branch stops both chains. -/
theorem helloOnEthDown
    {hello : HelloMaster}
    (chained : icm.Chained eth)
    (view : icm.helloView eth = hello) :
    (icm.helloOnEthDown eth hello).Chained eth ∧
      (icm.helloOnEthDown eth hello).Unchained eth := by
  have highTracks := chained.high
  have lowTracks := chained.low
  rw [view] at highTracks lowTracks
  have lowKept :
      (icm.master.threadOff hello.helloTimerHigh).Tracks
        .helloLowSend (.backbone eth) hello.helloTimerLow :=
    (highTracks.off_other (by simp)).trans lowTracks
  have written :
      (icm.helloOnEthDown eth hello).helloView eth =
        { hello with helloTimerHigh := none, helloTimerLow := none } :=
    helloView_of_update rfl
  refine ⟨{ high := ?_, low := ?_ }, ?_, ?_⟩
  · rw [written]
    exact (lowKept.off_other (by simp)).trans highTracks.off
  · rw [written]
    exact lowKept.off
  · rw [written]
  · rw [written]

/-- The `ETH_UP` branch starts two chains where there are none. -/
theorem helloOnEthUp
    (chained : icm.Chained eth)
    (unchained : icm.Unchained eth)
    (hello : HelloMaster) :
    (icm.helloOnEthUp eth hello).Chained eth := by
  have highIdle := chained.high
  have lowIdle := chained.low
  rw [unchained.1] at highIdle
  rw [unchained.2] at lowIdle
  unfold ThreadMaster.Tracks at highIdle lowIdle
  unfold Icm.helloOnEthUp
  refine { high := ?_, low := ?_ }
  · rw [helloView_of_update rfl]
    unfold ThreadMaster.Tracks
    dsimp only [setHello, addEvent]
    rw [ThreadMaster.pendingOf_threadAddEvent, if_neg (by simp),
      ThreadMaster.pendingOf_threadAddEvent, if_pos ⟨rfl, rfl⟩, highIdle]
    rfl
  · rw [helloView_of_update rfl]
    unfold ThreadMaster.Tracks
    dsimp only [setHello, addEvent]
    rw [ThreadMaster.pendingOf_threadAddEvent, if_pos ⟨rfl, rfl⟩,
      ThreadMaster.pendingOf_threadAddEvent, if_neg (by simp), lowIdle]
    rfl

end Chained

/-! ## Whole runs -/

/-- The interface event of an interface that a step of the daemon handles. -/
def interfaceEvent (eth : EthId) (icm : Icm) : Event → Option ThreadFunc
  | .expire id =>
      match icm.master.find id with
      | none => none
      | some thread =>
          if (thread.func = .interfaceUp ∨ thread.func = .interfaceDown) ∧
              thread.arg = .backbone eth then
            some thread.func
          else
            none
  | _ => none

/-- The event a fetched thread is for an interface. -/
theorem interfaceEvent_of_find
    {icm : Icm}
    {id : ThreadId}
    {thread : Thread}
    (found : icm.master.find id = some thread)
    (eth : EthId) :
    icm.interfaceEvent eth (.expire id) =
      if (thread.func = .interfaceUp ∨ thread.func = .interfaceDown) ∧
          thread.arg = .backbone eth then
        some thread.func
      else
        none := by
  unfold interfaceEvent
  dsimp only
  rw [found]

/--
An event of an interface that is up is an `interface_up`, and it finds the
interface without chains.
-/
def Orderly (eth : EthId) (icm : Icm) (event : Event) : Prop :=
  ∀ func,
    icm.interfaceEvent eth event = some func →
    (icm.router.eth eth).state = .up →
    func = .interfaceUp ∧ icm.Unchained eth

/-- What holds of the chains of an interface after its last interface event. -/
structure ChainInv
    (eth : EthId)
    (icm : Icm)
    (last : Option ThreadFunc) : Prop where
  adjacency : icm.AdjacencyInv
  chained : icm.Chained eth
  stopped : last = some .interfaceDown → icm.Unchained eth

/-- The handlers of an interface event. -/
theorem ChainInv.backboneStateChanged
    {icm : Icm}
    {eth : EthId}
    {func : ThreadFunc}
    (invariant : icm.AdjacencyInv)
    (chained : icm.Chained eth)
    (orderly :
      (icm.router.eth eth).state = .up →
        func = .interfaceUp ∧ icm.Unchained eth) :
    ChainInv eth (icm.backboneStateChanged eth) (some func) := by
  have adjacency := invariant.backboneStateChanged eth
  have keeps := keepsChain_allocate invariant eth eth
  have router :
      ((icm.floodOnEthStateChanged eth).exchangeOnEthStateChanged eth).router =
        icm.router :=
    congrArg Prod.fst (exchangeOnEthStateChanged_links icm eth)
  have allocated := chained.keeps keeps
  unfold Icm.backboneStateChanged helloOnEthStateChanged at adjacency ⊢
  generalize
    (icm.floodOnEthStateChanged eth).exchangeOnEthStateChanged eth = middle
    at adjacency keeps router allocated ⊢
  dsimp only at adjacency ⊢
  rw [router] at adjacency ⊢
  cases state : (icm.router.eth eth).state with
  | down =>
      rw [state] at adjacency
      obtain ⟨still, unchained⟩ := allocated.helloOnEthDown rfl
      exact ⟨adjacency, still, fun _ => unchained⟩
  | up =>
      rw [state] at adjacency
      obtain ⟨isUp, unchained⟩ := orderly state
      refine ⟨adjacency, allocated.helloOnEthUp (unchained.keeps keeps) _, ?_⟩
      rw [isUp]
      intro isDown
      cases isDown

/-- An interface event of another kind, or of another interface. -/
theorem ChainInv.keeps
    {before after : Icm}
    {eth : EthId}
    {last : Option ThreadFunc}
    (chain : ChainInv eth before last)
    (adjacency : after.AdjacencyInv)
    (keeps : KeepsChain eth before after) :
    ChainInv eth after last where
  adjacency := adjacency
  chained := chain.chained.keeps keeps
  stopped := fun isDown => (chain.stopped isDown).keeps keeps

/-- A thread of a chain is not fetched while the chain is stopped. -/
theorem ChainInv.rearmed
    {before after : Icm}
    {eth : EthId}
    {last : Option ThreadFunc}
    {func : ThreadFunc}
    {id : ThreadId}
    (chain : ChainInv eth before last)
    (isPending : id ∈ before.master.pendingOf func (.backbone eth))
    (isChain : func = .helloHighSend ∨ func = .helloLowSend)
    (adjacency : after.AdjacencyInv)
    (chained : after.Chained eth) :
    ChainInv eth after last where
  adjacency := adjacency
  chained := chained
  stopped := by
    intro isDown
    obtain ⟨high, low⟩ := chain.stopped isDown
    have highIdle := chain.chained.high
    have lowIdle := chain.chained.low
    rw [high] at highIdle
    rw [low] at lowIdle
    rcases isChain with rfl | rfl
    · rw [highIdle] at isPending
      cases isPending
    · rw [lowIdle] at isPending
      cases isPending

/-- A fetched thread. -/
theorem ChainInv.expire
    {before after : Icm}
    {eth : EthId}
    {last : Option ThreadFunc}
    {id : ThreadId}
    (chain : ChainInv eth before last)
    (orderly : before.Orderly eth (.expire id))
    (expired : before.expire id = .ok after) :
    ChainInv eth after ((before.interfaceEvent eth (.expire id)).or last) := by
  have adjacency := ((yields_expire chain.adjacency id).of_ok expired).1
  unfold Icm.expire at expired
  cases found : before.master.find id with
  | none =>
      rw [found] at expired
      cases expired
      have nothing : before.interfaceEvent eth (.expire id) = none := by
        unfold interfaceEvent
        dsimp only
        rw [found]
      rw [nothing]
      exact chain
  | some thread =>
      rw [found] at expired
      have observed := interfaceEvent_of_find found eth
      obtain ⟨isThread, rfl⟩ := ThreadMaster.find_eq_some.mp found
      have isPending := ThreadMaster.mem_pendingOf.mpr isThread
      by_cases isEvent :
          (thread.func = .interfaceUp ∨ thread.func = .interfaceDown) ∧
            thread.arg = .backbone eth
      · rw [if_pos isEvent] at observed
        rw [observed]
        obtain ⟨id, func, arg⟩ := thread
        obtain ⟨isFunc, rfl⟩ := isEvent
        have fetched : KeepsChain eth before (before.fetch id) :=
          .fetch isPending
            (not_helloChain (by rintro rfl; simp at isFunc)
              (by rintro rfl; simp at isFunc))
        have shared : func.protocol = none := by
          rcases isFunc with rfl | rfl
          · rfl
          · rfl
        have changed :=
          ChainInv.backboneStateChanged
            (chain.adjacency.fetch isPending shared)
            (chain.chained.keeps fetched)
            fun isUp =>
              ⟨(orderly func observed isUp).1,
                (orderly func observed isUp).2.keeps fetched⟩
        rcases isFunc with rfl | rfl
        · cases expired
          exact changed
        · cases expired
          exact changed
      · rw [if_neg isEvent] at observed
        rw [observed]
        by_cases isChain : helloChain eth thread.func thread.arg
        · obtain ⟨id, func, arg⟩ := thread
          obtain ⟨rfl | rfl, rfl⟩ := isChain
          · exact chain.rearmed isPending (.inl rfl) adjacency
              ((chain.chained.helloHighSend isPending).of_ok expired)
          · exact chain.rearmed isPending (.inr rfl) adjacency
              ((chain.chained.helloLowSend isPending).of_ok expired)
        · have keeps := (yieldsChain_threadCall chain.adjacency isPending isChain
            fun event isArg => isEvent ⟨event, isArg⟩).of_ok expired
          exact chain.keeps adjacency keeps

/-- One event of the daemon. -/
theorem ChainInv.step
    {before after : Icm}
    {eth : EthId}
    {last : Option ThreadFunc}
    {event : Event}
    (chain : ChainInv eth before last)
    (orderly : before.Orderly eth event)
    (stepped : before.step event = .ok after) :
    ChainInv eth after ((before.interfaceEvent eth event).or last) := by
  have adjacency := (yields_runOp chain.adjacency (.event event)).of_ok stepped
  cases event with
  | datagram datagram =>
      exact chain.keeps adjacency
        ((yieldsChain_lsdReceive chain.adjacency eth datagram).of_ok stepped)
  | expire id =>
      exact chain.expire orderly stepped
  | interfaces table =>
      exact chain.keeps adjacency
        (.ofMirrors ((Mirrors.lsdIflistInit before table).of_ok stepped))

/--
In a run that handles an interface that is up only by `interface_up` and only
while it has no chains, each of its chains has at most one pending thread, and
none after an `interface_down` that no `interface_up` followed.
-/
theorem one_hello_chain
    {clock : Nat → Timeval}
    {stack : CrLsdbLinkState}
    {table : LocalRouter}
    {events : List Event}
    {icm : Icm}
    {eth : EthId}
    (run :
      Run (guarded (Orderly eth) (ofPartial step))
        (boot clock stack table) events icm) :
    (icm.master.pendingOf .helloHighSend (.backbone eth)).length ≤ 1 ∧
      (icm.master.pendingOf .helloLowSend (.backbone eth)).length ≤ 1 ∧
      ((observed step (interfaceEvent eth)
          (boot clock stack table) events).getLast? = some .interfaceDown →
        icm.master.pendingOf .helloHighSend (.backbone eth) = [] ∧
          icm.master.pendingOf .helloLowSend (.backbone eth) = []) := by
  have booted : ChainInv eth (boot clock stack table) none :=
    { adjacency := (boot_fresh clock stack table).adjacencyInv
      chained := { high := rfl, low := rfl }
      stopped := by
        intro isDown
        cases isDown }
  have chain := run.lastObserved (ChainInv eth) ChainInv.step booted
  rw [Option.or_none] at chain
  have atMostOne :
      ∀ {func : ThreadFunc} {handle : Option ThreadId},
        icm.master.Tracks func (.backbone eth) handle →
          (icm.master.pendingOf func (.backbone eth)).length ≤ 1 := by
    intro func handle tracks
    rw [tracks]
    cases handle <;> simp
  refine ⟨atMostOne chain.chained.high, atMostOne chain.chained.low, ?_⟩
  intro isDown
  obtain ⟨high, low⟩ := chain.stopped isDown
  have highIdle := chain.chained.high
  have lowIdle := chain.chained.low
  rw [high] at highIdle
  rw [low] at lowIdle
  exact ⟨highIdle, lowIdle⟩

/-- The interface table with its link in a given state. -/
def linkTable (state : EthState) : LocalRouter :=
  { oneLinkTable 20 2 1 with
    iface := fun id => { (oneLinkTable 20 2 1).iface id with opState := state } }

/-- The daemon before it reads the table, under a stopped clock. -/
def linkBoot : Icm :=
  boot (fun _ => ⟨0, 0⟩) (lsaToLsdbInfo zeroAdv ⟨0, 0⟩) (linkTable .up)

/-- An interface that goes up and down again. -/
theorem one_hello_chain_up_down :
    ∃ icm,
      Run (guarded (Orderly 0) (ofPartial step)) linkBoot
          [.interfaces (linkTable .up), .expire 0,
            .interfaces (linkTable .down), .expire 3] icm ∧
        icm.master.pendingOf .helloHighSend (.backbone 0) = [] ∧
        icm.master.pendingOf .helloLowSend (.backbone 0) = [] := by
  have runs :
      ∃ icm,
        Run (guarded (Orderly 0) (ofPartial step)) linkBoot
          [.interfaces (linkTable .up), .expire 0,
            .interfaces (linkTable .down), .expire 3] icm := by
    refine ⟨_, .cons ⟨?_, rfl⟩ (.cons ⟨?_, rfl⟩ (.cons ⟨?_, rfl⟩
      (.cons ⟨?_, rfl⟩ (.nil _))))⟩
    · intro func observed
      cases observed
    · intro func observed _
      cases observed
      exact ⟨rfl, rfl, rfl⟩
    · intro func observed
      cases observed
    · intro func _ isUp
      cases isUp
  obtain ⟨icm, run⟩ := runs
  obtain ⟨-, -, stopped⟩ := one_hello_chain run
  exact ⟨icm, run, stopped (by decide)⟩

/-- A second refresh of the table while the interface is up starts a second chain. -/
theorem refresh_doubles_hello_chain :
    ∃ icm,
      Run (ofPartial step) linkBoot
          [.interfaces (linkTable .up), .expire 0,
            .interfaces (linkTable .up), .expire 3] icm ∧
        (icm.master.pendingOf .helloHighSend (.backbone 0)).length = 2 ∧
        (icm.master.pendingOf .helloLowSend (.backbone 0)).length = 2 := by
  have runs :
      ∃ icm,
        Run (ofPartial step) linkBoot
            [.interfaces (linkTable .up), .expire 0,
              .interfaces (linkTable .up), .expire 3] icm ∧
          icm.master.pendingOf .helloHighSend (.backbone 0) = [1, 3] ∧
          icm.master.pendingOf .helloLowSend (.backbone 0) = [2, 4] :=
    ⟨_, .cons rfl (.cons rfl (.cons rfl (.cons rfl (.nil _)))), rfl, rfl⟩
  obtain ⟨icm, run, high, low⟩ := runs
  exact ⟨icm, run, by rw [high]; rfl, by rw [low]; rfl⟩

end Icm

end Pma
