import Pma.LsdSessions

namespace Pma

open Transition

/-!
# Detection and its sessions

Detection, exchange and flooding of one backbone interface are coupled only
through their handlers: a hello change starts and stops sessions, and every
session owns timers.  `Icm.TimerInv` says that each handle tracks its own
timer, that the dead timers run exactly while their priority is connected, and
that the acknowledgement timer of an exchange runs exactly while it waits.
`Icm.Coupled` adds that nothing is exchanged while the high priority is down.
-/

/-- Handles track the dead timers, which run exactly while connected. -/
structure HelloMaster.Sound
    (hello : HelloMaster)
    (master : ThreadMaster)
    (eth : EthId) : Prop where
  highTracks :
    master.Tracks .deadTimerHigh (.backbone eth) hello.deadTimerHigh
  highPending :
    hello.deadTimerHigh.isSome ↔ hello.highStatus = .connected
  lowTracks :
    master.Tracks .deadTimerLow (.backbone eth) hello.deadTimerLow
  lowPending :
    hello.deadTimerLow.isSome ↔ hello.lowStatus = .connected
  highChain :
    ∀ id, hello.helloTimerHigh = some id →
      id ∈ master.pendingOf .helloHighSend (.backbone eth)
  lowChain :
    ∀ id, hello.helloTimerLow = some id →
      id ∈ master.pendingOf .helloLowSend (.backbone eth)

namespace HelloMaster.Sound

variable {hello : HelloMaster} {before after : ThreadMaster} {eth : EthId}

/-- Soundness of a hello master only depends on the hello timers. -/
theorem agrees
    {own : ThreadFunc → ThreadArg → Prop}
    (sound : hello.Sound before eth)
    (pending : ThreadMaster.AgreesOff own before after)
    (foreign :
      ∀ func,
        func.protocol = some .hello →
        ¬ own func (.backbone eth)) :
    hello.Sound after eth where
  highTracks := sound.highTracks.agrees pending (foreign _ rfl)
  highPending := sound.highPending
  lowTracks := sound.lowTracks.agrees pending (foreign _ rfl)
  lowPending := sound.lowPending
  highChain := by
    intro id handle
    rw [pending _ _ (foreign _ rfl)]
    exact sound.highChain id handle
  lowChain := by
    intro id handle
    rw [pending _ _ (foreign _ rfl)]
    exact sound.lowChain id handle

/-- A new state of the high priority and its dead timer. -/
theorem high
    (sound : hello.Sound before eth)
    (pending :
      ThreadMaster.AgreesOff (ThreadMaster.only .deadTimerHigh (.backbone eth))
        before after)
    {handle : Option ThreadId}
    (status : LsdStatus)
    (tracks : after.Tracks .deadTimerHigh (.backbone eth) handle)
    (running : handle.isSome ↔ status = .connected)
    (neighbor : LsdNeighborInfo) :
    HelloMaster.Sound
      { hello with
        deadTimerHigh := handle
        highStatus := status
        neighbor := neighbor }
      after eth where
  highTracks := tracks
  highPending := running
  lowTracks := sound.lowTracks.agrees pending (by simp [ThreadMaster.only])
  lowPending := sound.lowPending
  highChain := by
    intro id chained
    rw [pending _ _ (by simp [ThreadMaster.only])]
    exact sound.highChain id chained
  lowChain := by
    intro id chained
    rw [pending _ _ (by simp [ThreadMaster.only])]
    exact sound.lowChain id chained

/-- A new state of the low priority and its dead timer. -/
theorem low
    (sound : hello.Sound before eth)
    (pending :
      ThreadMaster.AgreesOff (ThreadMaster.only .deadTimerLow (.backbone eth))
        before after)
    {handle : Option ThreadId}
    (status : LsdStatus)
    (tracks : after.Tracks .deadTimerLow (.backbone eth) handle)
    (running : handle.isSome ↔ status = .connected)
    (neighbor : LsdNeighborInfo) :
    HelloMaster.Sound
      { hello with
        deadTimerLow := handle
        lowStatus := status
        neighbor := neighbor }
      after eth where
  highTracks := sound.highTracks.agrees pending (by simp [ThreadMaster.only])
  highPending := sound.highPending
  lowTracks := tracks
  lowPending := running
  highChain := by
    intro id chained
    rw [pending _ _ (by simp [ThreadMaster.only])]
    exact sound.highChain id chained
  lowChain := by
    intro id chained
    rw [pending _ _ (by simp [ThreadMaster.only])]
    exact sound.lowChain id chained

end HelloMaster.Sound

namespace Icm

/-- The hello master of an interface; an unallocated one counts as disconnected. -/
def helloView (icm : Icm) (eth : EthId) : HelloMaster :=
  (icm.helloMaster eth).getD newHelloMaster

theorem helloView_of_some
    {icm : Icm}
    {eth : EthId}
    {hello : HelloMaster}
    (allocated : icm.helloMaster eth = some hello) :
    icm.helloView eth = hello := by
  simp [helloView, allocated]

/-- Every handle of the three protocols tracks its timer. -/
structure TimerInv (icm : Icm) : Prop extends SessionInv icm where
  hello :
    ∀ eth, (icm.helloView eth).Sound icm.master eth
  exchangeAllocated :
    ∀ eth, (icm.helloMaster eth).isSome → (icm.exchangeMaster eth).isSome
  period :
    icm.floodCalled = false →
      icm.periodctrl = none ∧
        ∀ arg, icm.master.pendingOf .spreadLocalLinkState arg = []

/-- Nothing is exchanged while the high priority is disconnected. -/
def Coupled (icm : Icm) (eth : EthId) : Prop :=
  (icm.helloView eth).highStatus = .disconnected →
    (icm.exchangeView eth).sendState = .terminated

/-- The invariant of the adjacencies of a daemon. -/
structure AdjacencyInv (icm : Icm) : Prop extends TimerInv icm where
  coupled : ∀ eth, icm.Coupled eth

/-- A step of the sessions of one interface keeps every handle tracking. -/
theorem TimerInv.session
    {before after : Icm}
    {eth : EthId}
    (invariant : before.TimerInv)
    (framed : SessionFrame eth before after)
    (sessions : after.SessionInv) :
    after.TimerInv where
  toSessionInv := sessions
  hello := by
    intro other
    unfold helloView
    rw [framed.hello]
    refine (invariant.hello other).agrees framed.pending ?_
    intro func isHello
    simp [isHello, timersOf]
  exchangeAllocated := by
    intro other allocated
    rw [framed.hello] at allocated
    have exchanging := invariant.exchangeAllocated other allocated
    by_cases same : other = eth
    · subst same
      rwa [framed.allocated]
    · rwa [framed.exchange other same]
  period := by
    intro fresh
    rw [framed.floodCalled] at fresh
    rw [framed.periodctrl]
    refine ⟨(invariant.period fresh).1, fun arg => ?_⟩
    rw [framed.pending _ _ (by simp [ThreadFunc.protocol, timersOf])]
    exact (invariant.period fresh).2 arg

/-- The coupling of the other interfaces through a step of one. -/
theorem Coupled.session
    {before after : Icm}
    {eth other : EthId}
    (coupled : before.Coupled other)
    (framed : SessionFrame eth before after)
    (different : other ≠ eth) :
    after.Coupled other := by
  unfold Coupled helloView exchangeView at *
  rw [framed.hello, framed.exchange other different]
  exact coupled

/-- A session step that leaves a terminated session terminated. -/
theorem AdjacencyInv.session
    {before after : Icm}
    {eth : EthId}
    (invariant : before.AdjacencyInv)
    (framed : SessionFrame eth before after)
    (sessions : after.SessionInv)
    (stays : StaysTerminated eth before after) :
    after.AdjacencyInv where
  toTimerInv := invariant.toTimerInv.session framed sessions
  coupled := by
    intro other
    by_cases same : other = eth
    · subst same
      intro disconnected
      apply stays
      apply invariant.coupled other
      unfold helloView at disconnected ⊢
      rwa [framed.hello] at disconnected
    · exact (invariant.coupled other).session framed same

/-- Steps inside the flood frame keep the adjacency invariant. -/
theorem AdjacencyInv.floodFrame
    {before after : Icm}
    (invariant : before.AdjacencyInv)
    (framed : FloodFrame before after)
    (flooding : after.FloodInv) :
    after.AdjacencyInv := by
  refine invariant.session (framed.session 0)
    (invariant.toSessionInv.floodFrame framed flooding) ?_
  intro terminated
  unfold exchangeView at terminated ⊢
  rwa [framed.exchange]

/-! ## The handler of a hello change -/

/-- Sequencing of session computations. -/
theorem YieldsSession.andThen
    {eth : EthId}
    {icm : Icm}
    {middle post : Icm → Prop}
    {first : Except Fault Icm}
    {next : Icm → Except Fault Icm}
    (earlier : YieldsSession eth icm middle first)
    (later :
      ∀ state,
        state.SessionInv →
        middle state →
        YieldsSession eth state post (next state)) :
    YieldsSession eth icm post (first >>= next) := by
  refine Yields.bind earlier ?_
  rintro state ⟨framed, sessions, held⟩
  refine (later state sessions held).mono ?_
  rintro after ⟨laterFramed, laterSessions, laterHeld⟩
  exact ⟨framed.trans laterFramed, laterSessions, laterHeld⟩

/-- A flooding computation as a session computation. -/
theorem YieldsFloods.session
    {icm : Icm}
    {computation : Except Fault Icm}
    (yields : YieldsFloods icm computation)
    (invariant : icm.SessionInv)
    (eth : EthId) :
    YieldsSession eth icm
      (fun after => after.exchangeMaster = icm.exchangeMaster)
      computation :=
  (yields.frame invariant.flood).session invariant eth

/-- Only the exchange master decides whether a session is terminated. -/
theorem sendState_of_eq
    {before after : Icm}
    (eth : EthId)
    (kept : after.exchangeMaster = before.exchangeMaster) :
    (after.exchangeView eth).sendState = (before.exchangeView eth).sendState := by
  unfold exchangeView
  rw [kept]

/--
The sessions after a change of the high priority: a connected neighbour needs a
terminated session to start from, and a lost one leaves one behind.
-/
theorem yields_highChanged
    {icm : Icm}
    {eth : EthId}
    (invariant : icm.SessionInv)
    (allocated : (icm.exchangeMaster eth).isSome)
    (status : LsdStatus)
    (ready :
      status = .connected →
        (icm.exchangeView eth).sendState = .terminated)
    (state : UInt8) :
    YieldsSession eth icm
      (fun after =>
        status = .disconnected →
          (after.exchangeView eth).sendState = .terminated)
      (icm.highChanged eth status state) := by
  unfold highChanged
  cases status with
  | connected =>
      refine (yields_exchangeSendStart invariant allocated
        (ready rfl)).andThen fun exchanging sessions _ => ?_
      refine ((yields_floodStart sessions.flood eth).session
        sessions eth).andThen fun flooding sessions _ => ?_
      refine ((yields_floodSpreadBackboneLinkState flooding eth state).session
        sessions eth).mono ?_
      rintro after ⟨framed, sessions, -⟩
      exact ⟨framed, sessions, fun lost => by cases lost⟩
  | disconnected =>
      refine (yields_exchangeTerminate invariant eth).andThen
        fun stopped sessions terminated => ?_
      refine ((yields_floodSpreadBackboneLinkState stopped eth state).session
        sessions eth).andThen fun spread sessions kept => ?_
      refine (yields_floodTerminate sessions.flood eth).mono ?_
      rintro after ⟨framed, flooding, -⟩
      refine ⟨framed.session eth, sessions.floodFrame framed flooding, ?_⟩
      intro _
      rw [sendState_of_eq eth framed.exchange,
        sendState_of_eq eth kept]
      exact terminated

/-- What `hello_changed_handler` leaves of the exchange session. -/
def HandlerPost
    (eth : EthId)
    (type : PriorityType)
    (status : LsdStatus)
    (before after : Icm) : Prop :=
  match type with
  | .high =>
      status = .disconnected →
        (after.exchangeView eth).sendState = .terminated
  | .low =>
      after.exchangeMaster = before.exchangeMaster

/-- Storing the changed link state before the sessions react to it. -/
theorem yields_storedHighChanged
    {icm : Icm}
    {eth : EthId}
    {store : Except Fault Icm}
    (invariant : icm.SessionInv)
    (allocated : (icm.exchangeMaster eth).isSome)
    (stores : YieldsFloods icm store)
    (status : LsdStatus)
    (ready :
      status = .connected →
        (icm.exchangeView eth).sendState = .terminated)
    (state : UInt8) :
    YieldsSession eth icm (HandlerPost eth .high status icm)
      (store >>= fun stored => stored.highChanged eth status state) := by
  refine (stores.session invariant eth).andThen
    fun stored sessions kept => ?_
  refine yields_highChanged sessions ?_ status ?_ state
  · rwa [kept]
  · rw [sendState_of_eq eth kept]
    exact ready

/-- The high priority branch of `hello_changed_handler`. -/
theorem yields_helloHighChanged
    {icm : Icm}
    {eth : EthId}
    (invariant : icm.SessionInv)
    (allocated : (icm.exchangeMaster eth).isSome)
    (status : LsdStatus)
    (ready :
      status = .connected →
        (icm.exchangeView eth).sendState = .terminated)
    (base : CrLsdbLinkState) :
    YieldsSession eth icm (HandlerPost eth .high status icm)
      (icm.helloHighChanged eth status base) := by
  unfold helloHighChanged
  split
  · exact yields_storedHighChanged invariant allocated
      (yields_crLsdbLinkStateAdd icm _ _) status ready _
  · exact yields_storedHighChanged invariant allocated
      (yields_crLsdbLinkStateUpdate icm _ _) status ready _

/-- The low priority branch of `hello_changed_handler`. -/
theorem yields_helloLowChanged
    (icm : Icm)
    (eth : EthId)
    (status : LsdStatus)
    (base : CrLsdbLinkState) :
    YieldsFloods icm (icm.helloLowChanged eth status base) := by
  unfold helloLowChanged
  split
  · exact (yields_crLsdbLinkStateAdd icm _ _).andThen
      fun added => yields_floodSpreadBackboneLinkState added eth _
  · exact (yields_floodSpreadBackboneLinkState icm eth _).andThen
      fun spread => yields_crLsdbLinkStateUpdate spread _ _

/-- `hello_changed_handler`. -/
theorem yields_helloChangedHandler
    {icm : Icm}
    {eth : EthId}
    (invariant : icm.SessionInv)
    (allocated : (icm.exchangeMaster eth).isSome)
    (type : PriorityType)
    (status : LsdStatus)
    (ready :
      type = .high →
        status = .connected →
          (icm.exchangeView eth).sendState = .terminated) :
    YieldsSession eth icm (HandlerPost eth type status icm)
      (icm.helloChangedHandler eth type status) := by
  unfold helloChangedHandler
  refine Yields.bind (Yields.deref fun _ => trivial) fun hello _ => ?_
  cases type with
  | high =>
      have read : SessionInv icm.readClock :=
        invariant.floodFrame (Floods.readClock icm).toFloodFrame
          ((Floods.readClock icm).flooding invariant.flood)
      refine (yields_helloHighChanged read allocated status
        (ready rfl) _).mono ?_
      rintro after ⟨framed, sessions, post⟩
      exact ⟨((Floods.readClock icm).session eth).trans framed,
        sessions, post⟩
  | low =>
      exact (YieldsFloods.after (Floods.readClock icm)
        (yields_helloLowChanged _ eth status _)).session invariant eth

/-! ## Detection -/

/-- What every step but the mirroring of the interface table keeps. -/
def Keeps (before after : Icm) : Prop :=
  after.AdjacencyInv ∧ after.links = before.links

/-- Replace the hello master of an interface and the scheduler. -/
def withHello
    (icm : Icm)
    (eth : EthId)
    (hello : HelloMaster)
    (master : ThreadMaster) : Icm :=
  { icm with
    helloMaster := Function.update icm.helloMaster eth (some hello)
    master := master }

/-- Writing a sound hello master and its timers keeps every handle tracking. -/
theorem TimerInv.write
    {icm : Icm}
    {eth : EthId}
    {master : ThreadMaster}
    {new : HelloMaster}
    (invariant : icm.TimerInv)
    (exchanging : (icm.exchangeMaster eth).isSome)
    (pending :
      ThreadMaster.AgreesOff (timersOf .hello eth) icm.master master)
    (sound : new.Sound master eth) :
    (icm.withHello eth new master).TimerInv where
  flood := invariant.flood.congr rfl
    (pending.mono fun _ _ owned => by simp [owned.1])
  exchange := fun other =>
    (invariant.exchange other).agrees pending
      (by simp [timersOf, ThreadFunc.protocol])
  hello := by
    intro other
    unfold helloView withHello
    by_cases same : other = eth
    · subst same
      simpa using sound
    · have old := invariant.hello other
      unfold helloView at old
      simp only [Function.update_of_ne same]
      exact old.agrees pending fun _ _ => by simp [timersOf, same]
  exchangeAllocated := by
    intro other allocated
    by_cases same : other = eth
    · subst same
      exact exchanging
    · apply invariant.exchangeAllocated other
      simpa [withHello, same] using allocated
  period := by
    intro fresh
    refine ⟨(invariant.period fresh).1, fun arg => ?_⟩
    rw [withHello, pending _ _ (by simp [ThreadFunc.protocol, timersOf])]
    exact (invariant.period fresh).2 arg

/-- The coupling of an interface whose hello master was not written. -/
theorem Coupled.write
    {icm : Icm}
    {eth other : EthId}
    (coupled : icm.Coupled other)
    (different : other ≠ eth)
    (new : HelloMaster)
    (master : ThreadMaster) :
    (icm.withHello eth new master).Coupled other := by
  unfold Coupled helloView withHello exchangeView at *
  simpa [different] using coupled

/-- Writing a hello master with the same high status keeps the coupling. -/
theorem AdjacencyInv.write
    {icm : Icm}
    {eth : EthId}
    {master : ThreadMaster}
    {new : HelloMaster}
    (invariant : icm.AdjacencyInv)
    (exchanging : (icm.exchangeMaster eth).isSome)
    (pending :
      ThreadMaster.AgreesOff (timersOf .hello eth) icm.master master)
    (sound : new.Sound master eth)
    (sameStatus : new.highStatus = (icm.helloView eth).highStatus) :
    (icm.withHello eth new master).AdjacencyInv where
  toTimerInv := invariant.toTimerInv.write exchanging pending sound
  coupled := by
    intro other
    by_cases same : other = eth
    · subst same
      intro disconnected
      apply invariant.coupled other
      rw [← sameStatus]
      simpa [helloView, withHello] using disconnected
    · exact (invariant.coupled other).write same new master

/--
A change of one priority: the new hello master is written and the handler runs.
The high priority reports a connection only after a disconnected state, so the
exchange session it starts is terminated.
-/
theorem yields_helloChange
    (icm : Icm)
    {eth : EthId}
    {master : ThreadMaster}
    {new : HelloMaster}
    {type : PriorityType}
    {status : LsdStatus}
    (invariant : icm.AdjacencyInv)
    (exchanging : (icm.exchangeMaster eth).isSome)
    (pending :
      ThreadMaster.AgreesOff (timersOf .hello eth) icm.master master)
    (sound : new.Sound master eth)
    (rises :
      type = .high → status = .connected →
        (icm.helloView eth).highStatus = .disconnected)
    (highStatus :
      type = .high → new.highStatus = status)
    (lowStatus :
      type = .low → new.highStatus = (icm.helloView eth).highStatus) :
    Yields Fault.Unguarded (Keeps icm)
      ((icm.withHello eth new master).helloChangedHandler eth type status) := by
  have timers := invariant.toTimerInv.write exchanging pending sound
  have ready :
      type = .high → status = .connected →
        ((icm.withHello eth new master).exchangeView eth).sendState =
          .terminated :=
    fun isHigh connected => invariant.coupled eth (rises isHigh connected)
  refine (yields_helloChangedHandler timers.toSessionInv exchanging
    type status ready).mono ?_
  rintro after ⟨framed, sessions, post⟩
  refine ⟨{ timers.session framed sessions with coupled := ?_ },
    framed.links⟩
  intro other
  by_cases same : other = eth
  · subst same
    intro disconnected
    have written : after.helloView other = new := by
      unfold helloView
      rw [framed.hello]
      simp [withHello]
    rw [written] at disconnected
    cases type with
    | high =>
        exact post ((highStatus rfl).symm.trans disconnected)
    | low =>
        rw [sendState_of_eq other post]
        exact invariant.coupled other ((lowStatus rfl).symm.trans disconnected)
  · exact ((invariant.coupled other).write same new master).session
      framed same

/-- The dead timers of the two priorities of an interface. -/
def deadTimers (eth : EthId) : ThreadFunc → ThreadArg → Prop :=
  fun func arg =>
    (func = .deadTimerHigh ∨ func = .deadTimerLow) ∧ arg = .backbone eth

theorem deadTimers_owned
    (eth : EthId) :
    ∀ func arg, deadTimers eth func arg → timersOf .hello eth func arg := by
  rintro func arg ⟨rfl | rfl, rfl⟩
  · exact ⟨rfl, rfl⟩
  · exact ⟨rfl, rfl⟩

/--
A hello master that detection may write, with its scheduler: its dead timers
are sound, and its sending timers are the ones of the interface.
-/
structure HelloWrite
    (icm : Icm)
    (eth : EthId)
    (new : HelloMaster)
    (master : ThreadMaster) : Prop where
  exchanging : (icm.exchangeMaster eth).isSome
  pending : ThreadMaster.AgreesOff (deadTimers eth) icm.master master
  sound : new.Sound master eth
  sending :
    new.helloTimerHigh = (icm.helloView eth).helloTimerHigh ∧
      new.helloTimerLow = (icm.helloView eth).helloTimerLow

/-- What detection does to an interface: it writes the hello master and reports a change. -/
inductive Detects (icm : Icm) (eth : EthId) : Except Fault Icm → Prop where
  | unallocated :
      Detects icm eth (.error .nullPointer)
  | restarted
      {new : HelloMaster}
      {master : ThreadMaster}
      (writes : icm.HelloWrite eth new master)
      (highKept : new.highStatus = (icm.helloView eth).highStatus) :
      Detects icm eth (.ok (icm.withHello eth new master))
  | changed
      {new : HelloMaster}
      {master : ThreadMaster}
      {type : PriorityType}
      {status : LsdStatus}
      (writes : icm.HelloWrite eth new master)
      (rises :
        type = .high → status = .connected →
          (icm.helloView eth).highStatus = .disconnected)
      (highStatus :
        type = .high → new.highStatus = status)
      (lowStatus :
        type = .low → new.highStatus = (icm.helloView eth).highStatus) :
      Detects icm eth
        ((icm.withHello eth new master).helloChangedHandler eth type status)

/-- Detection keeps the adjacency invariant. -/
theorem Detects.keeps
    {icm : Icm}
    {eth : EthId}
    {computation : Except Fault Icm}
    (invariant : icm.AdjacencyInv)
    (detects : icm.Detects eth computation) :
    Yields Fault.Unguarded (Keeps icm) computation := by
  cases detects with
  | unallocated =>
      trivial
  | restarted writes highKept =>
      exact ⟨invariant.write writes.exchanging
        (writes.pending.mono (deadTimers_owned eth)) writes.sound highKept, rfl⟩
  | changed writes rises highStatus lowStatus =>
      exact yields_helloChange icm invariant writes.exchanging
        (writes.pending.mono (deadTimers_owned eth)) writes.sound
        rises highStatus lowStatus

/-- Restarting a timer through its handle. -/
theorem restart
    {master : ThreadMaster}
    {func : ThreadFunc}
    {arg : ThreadArg}
    {handle : Option ThreadId}
    (tracks : master.Tracks func arg handle) :
    ((master.threadOff handle).threadAddTimer func arg).Tracks func arg
        (some (master.threadOff handle).threadGet) ∧
      ThreadMaster.AgreesOff (ThreadMaster.only func arg) master
        ((master.threadOff handle).threadAddTimer func arg) :=
  ⟨tracks.off.add,
    ((ThreadMaster.AgreesOff.refl master).off tracks ⟨rfl, rfl⟩).add
      ⟨rfl, rfl⟩⟩

section Detected

variable {icm : Icm} {eth : EthId} {hello : HelloMaster}

theorem sound_of_some
    (invariant : icm.AdjacencyInv)
    (allocated : icm.helloMaster eth = some hello) :
    hello.Sound icm.master eth := by
  have sound := invariant.hello eth
  rw [helloView_of_some allocated] at sound
  exact sound

/-- Detection may write a new state of the high priority and its dead timer. -/
theorem HelloWrite.high
    (invariant : icm.AdjacencyInv)
    (allocated : icm.helloMaster eth = some hello)
    {master : ThreadMaster}
    (pending :
      ThreadMaster.AgreesOff (ThreadMaster.only .deadTimerHigh (.backbone eth))
        icm.master master)
    {handle : Option ThreadId}
    (status : LsdStatus)
    (tracks : master.Tracks .deadTimerHigh (.backbone eth) handle)
    (running : handle.isSome ↔ status = .connected)
    (neighbor : LsdNeighborInfo) :
    icm.HelloWrite eth
      { hello with
        deadTimerHigh := handle
        highStatus := status
        neighbor := neighbor }
      master where
  exchanging := invariant.exchangeAllocated eth (by simp [allocated])
  pending := pending.mono fun _ _ owned => ⟨.inl owned.1.symm, owned.2.symm⟩
  sound := (sound_of_some invariant allocated).high pending status tracks running neighbor
  sending := by
    rw [helloView_of_some allocated]
    exact ⟨rfl, rfl⟩

/-- The low priority, likewise. -/
theorem HelloWrite.low
    (invariant : icm.AdjacencyInv)
    (allocated : icm.helloMaster eth = some hello)
    {master : ThreadMaster}
    (pending :
      ThreadMaster.AgreesOff (ThreadMaster.only .deadTimerLow (.backbone eth))
        icm.master master)
    {handle : Option ThreadId}
    (status : LsdStatus)
    (tracks : master.Tracks .deadTimerLow (.backbone eth) handle)
    (running : handle.isSome ↔ status = .connected)
    (neighbor : LsdNeighborInfo) :
    icm.HelloWrite eth
      { hello with
        deadTimerLow := handle
        lowStatus := status
        neighbor := neighbor }
      master where
  exchanging := invariant.exchangeAllocated eth (by simp [allocated])
  pending := pending.mono fun _ _ owned => ⟨.inr owned.1.symm, owned.2.symm⟩
  sound := (sound_of_some invariant allocated).low pending status tracks running neighbor
  sending := by
    rw [helloView_of_some allocated]
    exact ⟨rfl, rfl⟩

/-- `hello_on_high_packet_received`. -/
theorem detects_helloOnHighPacketReceived
    (invariant : icm.AdjacencyInv)
    (head : LsdHead) :
    icm.Detects eth (icm.helloOnHighPacketReceived eth head) := by
  unfold helloOnHighPacketReceived
  cases allocated : icm.helloMaster eth with
  | none =>
      exact .unallocated
  | some hello =>
      have sound := sound_of_some invariant allocated
      have view := helloView_of_some allocated
      obtain ⟨tracks, pending⟩ := restart sound.highTracks
      have writes := HelloWrite.high invariant allocated pending .connected tracks (by simp)
      rw [deref_some_bind]
      split
      · next connected =>
          have kept := writes hello.neighbor
          rw [← connected] at kept
          exact .restarted kept (by rw [view])
      · next disconnected =>
          refine .changed (writes ⟨head.rId, head.ifId⟩) ?_ ?_ ?_
          · intro _ _
            rw [view, disconnected]
          · intro _
            rfl
          · intro isLow
            cases isLow

/-- `hello_on_low_packet_received`. -/
theorem detects_helloOnLowPacketReceived
    (invariant : icm.AdjacencyInv)
    (head : LsdHead) :
    icm.Detects eth (icm.helloOnLowPacketReceived eth head) := by
  unfold helloOnLowPacketReceived
  cases allocated : icm.helloMaster eth with
  | none =>
      exact .unallocated
  | some hello =>
      have sound := sound_of_some invariant allocated
      have view := helloView_of_some allocated
      obtain ⟨tracks, pending⟩ := restart sound.lowTracks
      have writes := HelloWrite.low invariant allocated pending .connected tracks (by simp)
      rw [deref_some_bind]
      split
      · next connected =>
          have kept := writes hello.neighbor
          rw [← connected] at kept
          exact .restarted kept (by rw [view])
      · next disconnected =>
          refine .changed (writes ⟨head.rId, head.ifId⟩) ?_ ?_ ?_
          · intro isHigh
            cases isHigh
          · intro isHigh
            cases isHigh
          · intro _
            rw [view]

/-- `dead_timer_high`, when its timer fires. -/
theorem detects_deadTimerHigh
    {id : ThreadId}
    (invariant : icm.AdjacencyInv)
    (isPending : id ∈ icm.master.pendingOf .deadTimerHigh (.backbone eth)) :
    icm.Detects eth ((icm.fetch id).deadTimerHigh eth) := by
  unfold deadTimerHigh
  change Detects icm eth (deref (icm.helloMaster eth) >>= fun _ => _)
  cases allocated : icm.helloMaster eth with
  | none =>
      exact .unallocated
  | some hello =>
      have sound := sound_of_some invariant allocated
      have view := helloView_of_some allocated
      have connected : hello.highStatus = .connected := by
        apply sound.highPending.mp
        rw [sound.highTracks.eq_some isPending]
        rfl
      have pending :
          ThreadMaster.AgreesOff
            (ThreadMaster.only .deadTimerHigh (.backbone eth))
            icm.master (icm.master.threadCancel id) :=
        (ThreadMaster.AgreesOff.refl _).cancel isPending ⟨rfl, rfl⟩
      have writes := HelloWrite.high invariant allocated pending .disconnected
        (sound.highTracks.fetched isPending) (by simp) hello.neighbor
      change Detects icm eth
        (assertAt .deadTimerHigh (hello.highStatus = .connected) >>= fun _ => _)
      rw [connected]
      change Detects icm eth
        ((icm.withHello eth
          { hello with deadTimerHigh := none, highStatus := .disconnected }
          (icm.master.threadCancel id)).helloChangedHandler eth .high .disconnected)
      refine .changed writes ?_ ?_ ?_
      · intro _ isUp
        cases isUp
      · intro _
        rfl
      · intro isLow
        cases isLow

/-- `dead_timer_low`, when its timer fires. -/
theorem detects_deadTimerLow
    {id : ThreadId}
    (invariant : icm.AdjacencyInv)
    (isPending : id ∈ icm.master.pendingOf .deadTimerLow (.backbone eth)) :
    icm.Detects eth ((icm.fetch id).deadTimerLow eth) := by
  unfold deadTimerLow
  change Detects icm eth (deref (icm.helloMaster eth) >>= fun _ => _)
  cases allocated : icm.helloMaster eth with
  | none =>
      exact .unallocated
  | some hello =>
      have sound := sound_of_some invariant allocated
      have view := helloView_of_some allocated
      have connected : hello.lowStatus = .connected := by
        apply sound.lowPending.mp
        rw [sound.lowTracks.eq_some isPending]
        rfl
      have pending :
          ThreadMaster.AgreesOff
            (ThreadMaster.only .deadTimerLow (.backbone eth))
            icm.master (icm.master.threadCancel id) :=
        (ThreadMaster.AgreesOff.refl _).cancel isPending ⟨rfl, rfl⟩
      have writes := HelloWrite.low invariant allocated pending .disconnected
        (sound.lowTracks.fetched isPending) (by simp) hello.neighbor
      change Detects icm eth
        (assertAt .deadTimerLow (hello.lowStatus = .connected) >>= fun _ => _)
      rw [connected]
      change Detects icm eth
        ((icm.withHello eth
          { hello with deadTimerLow := none, lowStatus := .disconnected }
          (icm.master.threadCancel id)).helloChangedHandler eth .low .disconnected)
      refine .changed writes ?_ ?_ ?_
      · intro isHigh
        cases isHigh
      · intro isHigh
        cases isHigh
      · intro _
        rw [view]

end Detected

/-! ## Hello chains -/

/-- The sending timers of the two priorities of an interface. -/
def helloChain (eth : EthId) : ThreadFunc → ThreadArg → Prop :=
  fun func arg =>
    (func = .helloHighSend ∨ func = .helloLowSend) ∧ arg = .backbone eth

theorem helloChain_owned
    (eth : EthId) :
    ∀ func arg, helloChain eth func arg → timersOf .hello eth func arg := by
  rintro func arg ⟨rfl | rfl, rfl⟩
  · exact ⟨rfl, rfl⟩
  · exact ⟨rfl, rfl⟩

/-- New sending timers leave the dead timers alone. -/
theorem sound_chains
    {hello : HelloMaster}
    {before after : ThreadMaster}
    {eth : EthId}
    (new : HelloMaster)
    (sound : hello.Sound before eth)
    (pending : ThreadMaster.AgreesOff (helloChain eth) before after)
    (highKept :
      new.deadTimerHigh = hello.deadTimerHigh ∧
        new.highStatus = hello.highStatus)
    (lowKept :
      new.deadTimerLow = hello.deadTimerLow ∧
        new.lowStatus = hello.lowStatus)
    (highChain :
      ∀ id, new.helloTimerHigh = some id →
        id ∈ after.pendingOf .helloHighSend (.backbone eth))
    (lowChain :
      ∀ id, new.helloTimerLow = some id →
        id ∈ after.pendingOf .helloLowSend (.backbone eth)) :
    new.Sound after eth where
  highTracks := by
    rw [highKept.1]
    exact sound.highTracks.agrees pending (by simp [helloChain])
  highPending := by
    rw [highKept.1, highKept.2]
    exact sound.highPending
  lowTracks := by
    rw [lowKept.1]
    exact sound.lowTracks.agrees pending (by simp [helloChain])
  lowPending := by
    rw [lowKept.1, lowKept.2]
    exact sound.lowPending
  highChain := highChain
  lowChain := lowChain

/-- A sending timer that fires and is armed again. -/
theorem rearm
    {master : ThreadMaster}
    {func : ThreadFunc}
    {arg : ThreadArg}
    {id : ThreadId}
    (isPending : id ∈ master.pendingOf func arg) :
    ThreadMaster.AgreesOff (ThreadMaster.only func arg) master
        ((master.threadCancel id).threadAddTimer func arg) ∧
      (master.threadCancel id).threadGet ∈
        ((master.threadCancel id).threadAddTimer func arg).pendingOf
          func arg := by
  constructor
  · exact ((ThreadMaster.AgreesOff.refl _).cancel isPending ⟨rfl, rfl⟩).add
      ⟨rfl, rfl⟩
  · rw [ThreadMaster.pendingOf_threadAddTimer, if_pos ⟨rfl, rfl⟩]
    exact List.mem_cons_self

/-- Sending a datagram keeps the adjacency invariant. -/
theorem AdjacencyInv.lsdSend
    {icm : Icm}
    (invariant : icm.AdjacencyInv)
    (eth : EthId)
    (body : Body) :
    (icm.lsdSend eth body).AdjacencyInv :=
  have sends := Floods.lsdSend icm eth body
  invariant.floodFrame sends.toFloodFrame (sends.flooding invariant.flood)

/-- `hello_high_send`, when its timer fires. -/
theorem yields_helloHighSend
    {icm : Icm}
    {eth : EthId}
    {id : ThreadId}
    (invariant : icm.AdjacencyInv)
    (isPending : id ∈ icm.master.pendingOf .helloHighSend (.backbone eth)) :
    Yields Fault.Unguarded (Keeps icm)
      ((icm.fetch id).helloHighSend eth) := by
  unfold helloHighSend
  refine Yields.bind (Yields.deref fun _ => trivial) fun hello allocated => ?_
  change icm.helloMaster eth = some hello at allocated
  have exchanging := invariant.exchangeAllocated eth (by simp [allocated])
  have sound := sound_of_some invariant allocated
  have view := helloView_of_some allocated
  obtain ⟨pending, armed⟩ := rearm isPending
  have chained :
      ThreadMaster.AgreesOff (helloChain eth) icm.master
        ((icm.master.threadCancel id).threadAddTimer .helloHighSend
          (.backbone eth)) :=
    pending.mono fun _ _ owned => ⟨.inl owned.1.symm, owned.2.symm⟩
  have sending := sound_chains
    { hello with
      helloTimerHigh := some (icm.master.threadCancel id).threadGet }
    sound chained ⟨rfl, rfl⟩ ⟨rfl, rfl⟩
    (by
      rintro other ⟨⟩
      exact armed)
    (by
      intro other handle
      rw [pending _ _ (by simp [ThreadMaster.only])]
      exact sound.lowChain other handle)
  exact ⟨AdjacencyInv.lsdSend
    (invariant.write exchanging (chained.mono (helloChain_owned eth))
      sending (by rw [view])) eth _, (Floods.lsdSend _ eth _).links⟩

/-- `hello_low_send`, when its timer fires. -/
theorem yields_helloLowSend
    {icm : Icm}
    {eth : EthId}
    {id : ThreadId}
    (invariant : icm.AdjacencyInv)
    (isPending : id ∈ icm.master.pendingOf .helloLowSend (.backbone eth)) :
    Yields Fault.Unguarded (Keeps icm)
      ((icm.fetch id).helloLowSend eth) := by
  unfold helloLowSend
  refine Yields.bind (Yields.deref fun _ => trivial) fun hello allocated => ?_
  change icm.helloMaster eth = some hello at allocated
  have exchanging := invariant.exchangeAllocated eth (by simp [allocated])
  have sound := sound_of_some invariant allocated
  have view := helloView_of_some allocated
  obtain ⟨pending, armed⟩ := rearm isPending
  have chained :
      ThreadMaster.AgreesOff (helloChain eth) icm.master
        ((icm.master.threadCancel id).threadAddTimer .helloLowSend
          (.backbone eth)) :=
    pending.mono fun _ _ owned => ⟨.inr owned.1.symm, owned.2.symm⟩
  have sending := sound_chains
    { hello with
      helloTimerLow := some (icm.master.threadCancel id).threadGet }
    sound chained ⟨rfl, rfl⟩ ⟨rfl, rfl⟩
    (by
      intro other handle
      rw [pending _ _ (by simp [ThreadMaster.only])]
      exact sound.highChain other handle)
    (by
      rintro other ⟨⟩
      exact armed)
  exact ⟨AdjacencyInv.lsdSend
    (invariant.write exchanging (chained.mono (helloChain_owned eth))
      sending (by rw [view])) eth _, (Floods.lsdSend _ eth _).links⟩

/-! ## Interface changes -/

/-- The invariant only depends on the masters and their timers. -/
theorem AdjacencyInv.congr
    {before after : Icm}
    (invariant : before.AdjacencyInv)
    (flood : ∀ eth, after.floodView eth = before.floodView eth)
    (exchange : ∀ eth, after.exchangeView eth = before.exchangeView eth)
    (hello : after.helloMaster = before.helloMaster)
    (allocated :
      ∀ eth,
        (before.exchangeMaster eth).isSome →
        (after.exchangeMaster eth).isSome)
    (period :
      after.floodCalled = false →
        after.periodctrl = none ∧
          ∀ arg, after.master.pendingOf .spreadLocalLinkState arg = [])
    (pending :
      ThreadMaster.AgreesOff (fun func _ => func.protocol = none)
        before.master after.master) :
    after.AdjacencyInv where
  flood := by
    intro eth
    have sound := invariant.flood eth
    rw [flood eth]
    exact
      { ackTracks := sound.ackTracks.agrees pending (by simp [ThreadFunc.protocol])
        sndTracks := sound.sndTracks.agrees pending (by simp [ThreadFunc.protocol])
        consistent := sound.consistent }
  exchange := by
    intro eth
    rw [exchange eth]
    exact (invariant.exchange eth).agrees pending (by simp [ThreadFunc.protocol])
  hello := by
    intro eth
    unfold helloView
    rw [hello]
    exact (invariant.hello eth).agrees pending
      fun func isHello => by simp [isHello]
  exchangeAllocated := by
    intro eth isHello
    rw [hello] at isHello
    exact allocated eth (invariant.exchangeAllocated eth isHello)
  period := period
  coupled := by
    intro eth disconnected
    rw [exchange eth]
    apply invariant.coupled eth
    unfold helloView at disconnected ⊢
    rwa [hello] at disconnected

/-- Arming the periodic flood once flooding was called. -/
theorem AdjacencyInv.armPeriodctrl
    {icm : Icm}
    (invariant : icm.AdjacencyInv)
    (called : icm.floodCalled = true) :
    icm.armPeriodctrl.AdjacencyInv := by
  refine invariant.congr (fun _ => rfl) (fun _ => rfl) rfl
    (fun _ allocated => allocated) ?_ ?_
  · intro fresh
    change icm.floodCalled = false at fresh
    simp [called] at fresh
  · exact (ThreadMaster.AgreesOff.refl _).add rfl

/-- Allocating a flood master does not change how its interface looks. -/
theorem AdjacencyInv.floodAllocate
    {icm : Icm}
    (invariant : icm.AdjacencyInv)
    (eth : EthId) :
    (icm.floodAllocate eth).AdjacencyInv := by
  unfold Icm.floodAllocate
  split
  · next fresh =>
      refine invariant.congr ?_ (fun _ => rfl) rfl
        (fun _ allocated => allocated) invariant.period (.refl _)
      intro other
      by_cases same : other = eth
      · subst same
        simp [floodView, fresh, setFlood]
      · exact floodView_setFlood_of_ne _ _ same
  · exact invariant

/-- The first call starts the periodic flood. -/
theorem AdjacencyInv.floodCallOnce
    {icm : Icm}
    (invariant : icm.AdjacencyInv) :
    icm.floodCallOnce.AdjacencyInv := by
  unfold Icm.floodCallOnce
  split
  · exact invariant
  · next notCalled =>
      have idle := (invariant.period (by simpa using notCalled)).1
      have started :
          icm.floodPeriodicallyFloodStart = icm.armPeriodctrl := by
        unfold floodPeriodicallyFloodStart floodPeriodicallyFloodTerminate
        rw [idle]
        rfl
      rw [started]
      exact invariant.congr (fun _ => rfl) (fun _ => rfl) rfl
        (fun _ allocated => allocated) (fun fresh => by cases fresh)
        ((ThreadMaster.AgreesOff.refl _).add rfl)

/-- `exchange_on_eth_state_changed`. -/
theorem AdjacencyInv.exchangeOnEthStateChanged
    {icm : Icm}
    (invariant : icm.AdjacencyInv)
    (eth : EthId) :
    (icm.exchangeOnEthStateChanged eth).AdjacencyInv := by
  unfold Icm.exchangeOnEthStateChanged
  split
  · next fresh =>
      refine invariant.congr (fun _ => rfl) ?_ rfl ?_
        invariant.period (.refl _)
      · intro other
        by_cases same : other = eth
        · subst same
          simp [exchangeView, fresh, setExchange]
        · simp [exchangeView, setExchange, same]
      · intro other allocated
        by_cases same : other = eth
        · subst same
          simp [fresh] at allocated
        · simpa [setExchange, same] using allocated
  · exact invariant

/-- `exchange_on_eth_state_changed` leaves an exchange master behind. -/
theorem exchangeOnEthStateChanged_allocated
    (icm : Icm)
    (eth : EthId) :
    ((icm.exchangeOnEthStateChanged eth).exchangeMaster eth).isSome := by
  unfold exchangeOnEthStateChanged
  split
  · simp [setExchange]
  · next allocated =>
      simp [allocated]

/-- The `ETH_DOWN` branch cancels sending timers of its interface only. -/
theorem helloOnEthDown_agrees
    {icm : Icm}
    {eth : EthId}
    {hello : HelloMaster}
    (sound : hello.Sound icm.master eth) :
    ThreadMaster.AgreesOff (helloChain eth) icm.master
      (icm.helloOnEthDown eth hello).master := by
  have cancelled :
      ∀ {master : ThreadMaster} {func : ThreadFunc} {handle : Option ThreadId},
        ThreadMaster.AgreesOff (helloChain eth) icm.master master →
        helloChain eth func (.backbone eth) →
        (∀ id, handle = some id →
          id ∈ master.pendingOf func (.backbone eth)) →
        ThreadMaster.AgreesOff (helloChain eth) icm.master
          (master.threadOff handle) := by
    intro master func handle pending owned chained
    cases handle with
    | none =>
        exact pending
    | some id =>
        exact pending.cancel (chained id rfl) owned
  have highOff := cancelled (.refl _) ⟨.inl rfl, rfl⟩ sound.highChain
  have lowKept :
      ∀ id, hello.helloTimerLow = some id →
        id ∈ (icm.master.threadOff hello.helloTimerHigh).pendingOf
          .helloLowSend (.backbone eth) := by
    intro id handle
    cases high : hello.helloTimerHigh with
    | none =>
        exact sound.lowChain id handle
    | some other =>
        rw [ThreadMaster.threadOff,
          ThreadMaster.pendingOf_threadCancel_of_ne
            (sound.highChain other high) (by simp)]
        exact sound.lowChain id handle
  exact cancelled highOff ⟨.inr rfl, rfl⟩ lowKept

/-- The `ETH_DOWN` branch stops both sending timers. -/
theorem AdjacencyInv.helloOnEthDown
    {icm : Icm}
    {eth : EthId}
    (invariant : icm.AdjacencyInv)
    (exchanging : (icm.exchangeMaster eth).isSome) :
    (icm.helloOnEthDown eth (icm.helloView eth)).AdjacencyInv := by
  have sound := invariant.hello eth
  have bothOff := helloOnEthDown_agrees sound
  exact invariant.write exchanging (bothOff.mono (helloChain_owned eth))
    (sound_chains _ sound bothOff ⟨rfl, rfl⟩ ⟨rfl, rfl⟩
      (fun _ handle => by cases handle) (fun _ handle => by cases handle))
    rfl

/-- The `ETH_UP` branch schedules both sending events. -/
theorem AdjacencyInv.helloOnEthUp
    {icm : Icm}
    {eth : EthId}
    (invariant : icm.AdjacencyInv)
    (exchanging : (icm.exchangeMaster eth).isSome) :
    (icm.helloOnEthUp eth (icm.helloView eth)).AdjacencyInv := by
  have sound := invariant.hello eth
  have chained :
      ThreadMaster.AgreesOff (helloChain eth) icm.master
        ((icm.master.threadAddEvent .helloHighSend
          (.backbone eth)).threadAddEvent .helloLowSend (.backbone eth)) :=
    ((ThreadMaster.AgreesOff.refl _).addEvent ⟨.inl rfl, rfl⟩).addEvent
      ⟨.inr rfl, rfl⟩
  have scheduled := sound_chains
    { icm.helloView eth with
      hHelloVal := 1
      lHelloVal := 20
      hDeadVal := 4
      lDeadVal := 80
      helloTimerHigh := some icm.master.threadGet
      helloTimerLow := some (icm.master.threadAddEvent .helloHighSend
        (.backbone eth)).threadGet }
    sound chained ⟨rfl, rfl⟩ ⟨rfl, rfl⟩
  refine invariant.write exchanging (chained.mono (helloChain_owned eth))
    (scheduled ?_ ?_) rfl
  · rintro id ⟨⟩
    rw [ThreadMaster.pendingOf_threadAddEvent, if_neg (by simp),
      ThreadMaster.pendingOf_threadAddEvent, if_pos ⟨rfl, rfl⟩]
    simp
  · rintro id ⟨⟩
    rw [ThreadMaster.pendingOf_threadAddEvent, if_pos ⟨rfl, rfl⟩]
    simp

/-- The handlers of an interface change. -/
theorem AdjacencyInv.backboneStateChanged
    {icm : Icm}
    (invariant : icm.AdjacencyInv)
    (eth : EthId) :
    (icm.backboneStateChanged eth).AdjacencyInv := by
  have allocated :=
    ((invariant.floodAllocate eth).floodCallOnce).exchangeOnEthStateChanged eth
  have exchanging :=
    exchangeOnEthStateChanged_allocated (icm.floodOnEthStateChanged eth) eth
  unfold Icm.backboneStateChanged Icm.helloOnEthStateChanged
  dsimp only
  split
  · exact allocated.helloOnEthDown exchanging
  · exact allocated.helloOnEthUp exchanging

/-- The sessions an interface change allocates do not touch the interfaces. -/
theorem exchangeOnEthStateChanged_links
    (icm : Icm)
    (eth : EthId) :
    ((icm.floodOnEthStateChanged eth).exchangeOnEthStateChanged eth).links =
      icm.links := by
  have allocate : (icm.floodAllocate eth).links = icm.links := by
    unfold Icm.floodAllocate
    split <;> rfl
  have callOnce : ∀ state : Icm, state.floodCallOnce.links = state.links := by
    intro state
    unfold Icm.floodCallOnce
    split <;> rfl
  have exchange :
      ∀ state : Icm,
        (state.exchangeOnEthStateChanged eth).links = state.links := by
    intro state
    unfold Icm.exchangeOnEthStateChanged
    split <;> rfl
  unfold Icm.floodOnEthStateChanged
  rw [exchange, callOnce, allocate]

/-- The handlers of an interface change do not touch the interfaces. -/
theorem backboneStateChanged_links
    (icm : Icm)
    (eth : EthId) :
    (icm.backboneStateChanged eth).links = icm.links := by
  have hello :
      ∀ state : Icm,
        (state.helloOnEthStateChanged eth).links = state.links := by
    intro state
    unfold Icm.helloOnEthStateChanged
    dsimp only
    split <;> rfl
  unfold Icm.backboneStateChanged
  rw [hello, exchangeOnEthStateChanged_links]

end Icm

end Pma
