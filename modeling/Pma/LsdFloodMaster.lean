import Pma.LsdIf
import Pma.Transition

namespace Pma

open Transition

/-!
# The flood master

A flood master couples a state, a queue and two timer handles.  `FloodMaster.Sound`
says how: each handle tracks the pending threads of its own timer function, and
the state decides which of the two timers runs and whether the queue may be
empty.  `Floods` collects what the flooding functions and the functions that
only write the database and flood leave alone.
-/

/-- The assertions of the session and timer functions. -/
def AssertSite.guarded : AssertSite → Bool
  | .deadTimerHigh => true
  | .deadTimerLow => true
  | .ackTimeExcceed => true
  | .exchangeSendStartMaster => true
  | .exchangeSendStartState => true
  | .floodStart => true
  | _ => false

/-- A fault other than a failed assertion of a session or timer function. -/
def Fault.Unguarded : Fault → Prop
  | .assertFailed site => site.guarded = false
  | .nullPointer => True
  | .wildPointer => True

/-- The protocol a scheduled function belongs to. -/
inductive Protocol where
  | hello
  | exchange
  | flood
  deriving Repr, DecidableEq

/-- The protocol of a scheduled function; the other functions serve no interface alone. -/
def ThreadFunc.protocol : ThreadFunc → Option Protocol
  | .helloHighSend => some .hello
  | .helloLowSend => some .hello
  | .deadTimerHigh => some .hello
  | .deadTimerLow => some .hello
  | .ackTimeExcceed => some .exchange
  | .floodAckTimeout => some .flood
  | .floodSendLsa => some .flood
  | .spreadLocalLinkState => none
  | .interfaceUp => none
  | .interfaceDown => none

/-- The queue and timers a flood state allows. -/
def FloodMaster.Consistent (flood : FloodMaster) : Prop :=
  match flood.state with
  | .ready =>
      flood.queue = [] ∧ flood.ackCtrl = none ∧ flood.sndCtrl = none
  | .busy =>
      flood.queue ≠ [] ∧ flood.ackCtrl = none ∧ flood.sndCtrl.isSome
  | .ackWaiting =>
      flood.ackCtrl.isSome ∧ flood.sndCtrl = none
  | .terminated =>
      flood.queue = [] ∧ flood.ackCtrl = none ∧ flood.sndCtrl = none

/-- A consistent flood master whose handles track its two timers. -/
structure FloodMaster.Sound
    (flood : FloodMaster)
    (master : ThreadMaster)
    (eth : EthId) : Prop where
  ackTracks :
    master.Tracks .floodAckTimeout (.backbone eth) flood.ackCtrl
  sndTracks :
    master.Tracks .floodSendLsa (.backbone eth) flood.sndCtrl
  consistent :
    flood.Consistent

/-- The timers of one protocol of one interface. -/
def timersOf (protocol : Protocol) (eth : EthId) :
    ThreadFunc → ThreadArg → Prop :=
  fun func arg => func.protocol = some protocol ∧ arg = .backbone eth

/-- Stopping both timers of a sound flood master. -/
theorem FloodMaster.Sound.stop
    {flood : FloodMaster}
    {master : ThreadMaster}
    {eth : EthId}
    (sound : flood.Sound master eth) :
    ((master.threadOff flood.ackCtrl).threadOff flood.sndCtrl).Tracks
        .floodAckTimeout (.backbone eth) none ∧
      ((master.threadOff flood.ackCtrl).threadOff flood.sndCtrl).Tracks
        .floodSendLsa (.backbone eth) none ∧
      ThreadMaster.AgreesOff (timersOf .flood eth) master
        ((master.threadOff flood.ackCtrl).threadOff flood.sndCtrl) := by
  have sndTracks :
      (master.threadOff flood.ackCtrl).Tracks .floodSendLsa
        (.backbone eth) flood.sndCtrl :=
    (sound.ackTracks.off_other (by simp)).trans sound.sndTracks
  refine ⟨?_, sndTracks.off, ?_⟩
  · exact (sndTracks.off_other (by simp)).trans sound.ackTracks.off
  · exact ((ThreadMaster.AgreesOff.refl _).off sound.ackTracks
      ⟨rfl, rfl⟩).off sndTracks ⟨rfl, rfl⟩

namespace Icm

/-- The flood master of an interface; an unallocated one counts as terminated. -/
def floodView (icm : Icm) (eth : EthId) : FloodMaster :=
  (icm.floodMaster eth).getD newFloodMaster

/-- Every flood master of the daemon is sound. -/
def FloodInv (icm : Icm) : Prop :=
  ∀ eth, (icm.floodView eth).Sound icm.master eth

theorem floodView_of_some
    {icm : Icm}
    {eth : EthId}
    {flood : FloodMaster}
    (allocated : icm.floodMaster eth = some flood) :
    icm.floodView eth = flood := by
  simp [floodView, allocated]

@[simp] theorem floodView_setFlood_self
    (icm : Icm)
    (eth : EthId)
    (flood : FloodMaster) :
    (icm.setFlood eth flood).floodView eth = flood := by
  simp [floodView, setFlood]

theorem floodView_setFlood_of_ne
    {other eth : EthId}
    (icm : Icm)
    (flood : FloodMaster)
    (different : other ≠ eth) :
    (icm.setFlood eth flood).floodView other = icm.floodView other := by
  simp [floodView, setFlood, different]

/-- The mirrored interfaces and the addresses the next ones will get. -/
def links (icm : Icm) : LsdRouter × Nat × Nat :=
  (icm.router, icm.zoneBrk, icm.ethBrk)

/--
`after` differs from `before` at most in the databases, the flood masters,
their timers, the clock readings and the trace.
-/
structure FloodFrame (before after : Icm) : Prop where
  links : after.links = before.links
  localrouter : after.localrouter = before.localrouter
  clock : after.clock = before.clock
  stack : after.stack = before.stack
  hello : after.helloMaster = before.helloMaster
  exchange : after.exchangeMaster = before.exchangeMaster
  allocated :
    ∀ eth, (after.floodMaster eth).isSome = (before.floodMaster eth).isSome
  periodctrl : after.periodctrl = before.periodctrl
  floodCalled : after.floodCalled = before.floodCalled
  pending :
    ThreadMaster.AgreesOff (fun func _ => func.protocol = some .flood)
      before.master after.master

namespace FloodFrame

theorem refl
    (icm : Icm) :
    FloodFrame icm icm where
  links := rfl
  localrouter := rfl
  clock := rfl
  stack := rfl
  hello := rfl
  exchange := rfl
  allocated := fun _ => rfl
  periodctrl := rfl
  floodCalled := rfl
  pending := .refl icm.master

theorem trans
    {first second third : Icm}
    (earlier : FloodFrame first second)
    (later : FloodFrame second third) :
    FloodFrame first third where
  links := later.links.trans earlier.links
  localrouter := later.localrouter.trans earlier.localrouter
  clock := later.clock.trans earlier.clock
  stack := later.stack.trans earlier.stack
  hello := later.hello.trans earlier.hello
  exchange := later.exchange.trans earlier.exchange
  allocated := fun eth => (later.allocated eth).trans (earlier.allocated eth)
  periodctrl := later.periodctrl.trans earlier.periodctrl
  floodCalled := later.floodCalled.trans earlier.floodCalled
  pending := earlier.pending.trans later.pending

/-- The interfaces are part of the frame. -/
theorem router
    {before after : Icm}
    (framed : FloodFrame before after) :
    after.router = before.router :=
  congrArg Prod.fst framed.links

end FloodFrame

/-- Writing one allocated flood master and its timers stays inside the frame. -/
theorem FloodFrame.write
    {before after : Icm}
    {eth : EthId}
    {old new : FloodMaster}
    (allocated : before.floodMaster eth = some old)
    (written :
      after =
        { before with
          floodMaster := Function.update before.floodMaster eth (some new)
          master := after.master
          trace := after.trace })
    (pending :
      ThreadMaster.AgreesOff (timersOf .flood eth)
        before.master after.master) :
    FloodFrame before after where
  links := by
    unfold Icm.links
    rw [written]
  localrouter := by rw [written]
  clock := by rw [written]
  stack := by rw [written]
  hello := by rw [written]
  exchange := by rw [written]
  allocated := by
    intro other
    rw [written]
    by_cases same : other = eth
    · subst same
      simp [allocated]
    · simp [same]
  periodctrl := by rw [written]
  floodCalled := by rw [written]
  pending := pending.mono fun _ _ owned => owned.1

/--
Replacing one flood master and its timers keeps the invariant when the new
master is sound.
-/
theorem FloodInv.write
    {before after : Icm}
    {eth : EthId}
    {new : FloodMaster}
    (invariant : before.FloodInv)
    (written :
      after =
        { before with
          floodMaster := Function.update before.floodMaster eth (some new)
          master := after.master
          trace := after.trace })
    (sound : new.Sound after.master eth)
    (pending :
      ThreadMaster.AgreesOff (timersOf .flood eth)
        before.master after.master) :
    after.FloodInv := by
  have masters :
      after.floodMaster =
        Function.update before.floodMaster eth (some new) := by
    rw [written]
  intro other
  unfold floodView
  rw [masters]
  by_cases same : other = eth
  · subst same
    simpa using sound
  · have old := invariant other
    rw [Function.update_of_ne same]
    exact
      { ackTracks := old.ackTracks.agrees pending (by simp [timersOf, same])
        sndTracks := old.sndTracks.agrees pending (by simp [timersOf, same])
        consistent := old.consistent }

/-- The invariant only depends on the flood masters and their timers. -/
theorem FloodInv.congr
    {before after : Icm}
    (invariant : before.FloodInv)
    (masters : after.floodMaster = before.floodMaster)
    (pending :
      ThreadMaster.AgreesOff (fun func _ => func.protocol ≠ some .flood)
        before.master after.master) :
    after.FloodInv := by
  intro eth
  have sound := invariant eth
  unfold floodView at sound ⊢
  rw [masters]
  exact
    { ackTracks := sound.ackTracks.agrees pending (by simp [ThreadFunc.protocol])
      sndTracks := sound.sndTracks.agrees pending (by simp [ThreadFunc.protocol])
      consistent := sound.consistent }

/-- A step inside the frame that keeps the flood invariant. -/
structure Floods (before after : Icm) : Prop extends
    FloodFrame before after where
  flooding : before.FloodInv → after.FloodInv

namespace Floods

theorem refl
    (icm : Icm) :
    Floods icm icm :=
  { FloodFrame.refl icm with flooding := id }

theorem trans
    {first second third : Icm}
    (earlier : Floods first second)
    (later : Floods second third) :
    Floods first third :=
  { earlier.toFloodFrame.trans later.toFloodFrame with
    flooding := later.flooding ∘ earlier.flooding }

/-- Recording a call changes nothing else. -/
theorem log
    (icm : Icm)
    (call : Call) :
    Floods icm (icm.log call) :=
  { FloodFrame.refl icm with flooding := id }

/-- Reading the clock changes nothing else. -/
theorem readClock
    (icm : Icm) :
    Floods icm icm.readClock :=
  { FloodFrame.refl icm with flooding := id }

/-- Writing a database changes nothing else. -/
theorem setLsdb
    (icm : Icm)
    (zone : ZoneId)
    (db : Lsdb) :
    Floods icm (icm.setLsdb zone db) :=
  { FloodFrame.refl icm with flooding := id }

/-- `lsd_send` records at most one call. -/
theorem lsdSend
    (icm : Icm)
    (eth : EthId)
    (body : Body) :
    Floods icm (icm.lsdSend eth body) := by
  unfold Icm.lsdSend
  dsimp only
  split
  · exact refl icm
  · exact log icm _

/-- The first advertisement of an idle master starts its send timer. -/
theorem queueFirst
    (icm : Icm)
    {eth : EthId}
    {flood : FloodMaster}
    (allocated : icm.floodMaster eth = some flood)
    (idle : flood.state = .ready)
    (lsa : LinkStateAdv) :
    Floods icm
      ((icm.addTimer .floodSendLsa (.backbone eth)).setFlood eth
        { flood with
          queue := flood.queue ++ [lsa]
          state := .busy
          sndCtrl := some icm.master.threadGet }) := by
  have pending :
      ThreadMaster.AgreesOff (timersOf .flood eth) icm.master
        (icm.master.threadAddTimer .floodSendLsa (.backbone eth)) :=
    (ThreadMaster.AgreesOff.refl _).add ⟨rfl, rfl⟩
  refine
    { FloodFrame.write allocated rfl pending with
      flooding := ?_ }
  intro invariant
  have sound := invariant eth
  rw [floodView_of_some allocated] at sound
  have consistent := sound.consistent
  simp only [FloodMaster.Consistent, idle] at consistent
  have sndTracks := sound.sndTracks
  rw [consistent.2.2] at sndTracks
  refine invariant.write rfl ?_ pending
  exact
    { ackTracks :=
        (ThreadMaster.pendingOf_threadAddTimer_of_ne _
          (by simp)).trans sound.ackTracks
      sndTracks := sndTracks.add
      consistent := by
        simp [FloodMaster.Consistent, consistent.2.1] }

/-- A further advertisement only lengthens the queue. -/
theorem queueNext
    (icm : Icm)
    {eth : EthId}
    {flood : FloodMaster}
    (allocated : icm.floodMaster eth = some flood)
    (running : flood.state ≠ .terminated)
    (busy : flood.state ≠ .ready)
    (lsa : LinkStateAdv) :
    Floods icm
      (icm.setFlood eth { flood with queue := flood.queue ++ [lsa] }) := by
  have framed :
      FloodFrame icm
        (icm.setFlood eth { flood with queue := flood.queue ++ [lsa] }) :=
    FloodFrame.write allocated rfl (.refl _)
  refine { framed with flooding := ?_ }
  intro invariant
  have sound := invariant eth
  rw [floodView_of_some allocated] at sound
  refine invariant.write rfl ?_ (.refl _)
  exact
    { ackTracks := sound.ackTracks
      sndTracks := sound.sndTracks
      consistent := by
        have consistent := sound.consistent
        unfold FloodMaster.Consistent at consistent ⊢
        cases state : flood.state <;> simp_all }

/-- `flood_add_flood_lsa`. -/
theorem floodAddFloodLsa
    (icm : Icm)
    (lsa : LinkStateAdv)
    (eth : EthId) :
    Floods icm (icm.floodAddFloodLsa lsa eth) := by
  unfold Icm.floodAddFloodLsa
  split
  · exact refl icm
  · next flood allocated =>
      split
      · exact refl icm
      · next running =>
          apply trans (log icm (.floodQueued eth lsa))
          dsimp only
          split
          · next idle =>
              exact queueFirst (icm.log _) allocated idle lsa
          · next busy =>
              exact queueNext (icm.log _) allocated running busy lsa

/-- A loop of flooding steps floods. -/
theorem foldl
    {Item : Type}
    {body : Icm → Item → Icm}
    (stepwise : ∀ icm item, Floods icm (body icm item))
    (items : List Item)
    (icm : Icm) :
    Floods icm (items.foldl body icm) :=
  (run_of_foldl body items icm).relates refl trans (by
    rintro before item _ rfl
    exact stepwise before item)

/-- `flood_lsa_spread`. -/
theorem floodLsaSpread
    (icm : Icm)
    (lsa : LinkStateAdv)
    (zone : ZoneId) :
    Floods icm (icm.floodLsaSpread lsa zone) :=
  (log icm _).trans
    (foldl (fun current eth => floodAddFloodLsa current lsa eth) _ _)

/-- `flood_lsa_forward`. -/
theorem floodLsaForward
    (icm : Icm)
    (lsa : LinkStateAdv)
    (eth : EthId) :
    Floods icm (icm.floodLsaForward lsa eth) := by
  apply (log icm _).trans
  apply foldl
  intro current other
  split
  · exact floodAddFloodLsa current lsa other
  · exact refl current

end Floods

/-- Only a busy master has a pending send timer. -/
theorem FloodInv.busy
    {icm : Icm}
    {eth : EthId}
    {id : ThreadId}
    (invariant : icm.FloodInv)
    (isPending : id ∈ icm.master.pendingOf .floodSendLsa (.backbone eth)) :
    (icm.floodView eth).state = .busy := by
  have sound := invariant eth
  have named := sound.sndTracks.eq_some isPending
  have consistent := sound.consistent
  unfold FloodMaster.Consistent at consistent
  cases state : (icm.floodView eth).state <;> simp_all

/-- Only a waiting master has a pending acknowledgement timer. -/
theorem FloodInv.ackWaiting
    {icm : Icm}
    {eth : EthId}
    {id : ThreadId}
    (invariant : icm.FloodInv)
    (isPending : id ∈ icm.master.pendingOf .floodAckTimeout (.backbone eth)) :
    (icm.floodView eth).state = .ackWaiting := by
  have sound := invariant eth
  have named := sound.ackTracks.eq_some isPending
  have consistent := sound.consistent
  unfold FloodMaster.Consistent at consistent
  cases state : (icm.floodView eth).state <;> simp_all

/-- A computation inside the flood frame that leaves every flood master sound. -/
abbrev YieldsFloodFrame (icm : Icm) : Except Fault Icm → Prop :=
  Yields Fault.Unguarded
    (fun after => FloodFrame icm after ∧ after.FloodInv)

/-- `flood_send_lsa`, when its timer fires. -/
theorem yields_floodSendLsa
    {icm : Icm}
    {eth : EthId}
    {id : ThreadId}
    (invariant : icm.FloodInv)
    (isPending : id ∈ icm.master.pendingOf .floodSendLsa (.backbone eth)) :
    YieldsFloodFrame icm ((icm.fetch id).floodSendLsa eth) := by
  unfold floodSendLsa
  refine Yields.bind (Yields.deref fun _ => trivial) fun flood allocated => ?_
  change icm.floodMaster eth = some flood at allocated
  have sound := invariant eth
  have busy := invariant.busy isPending
  rw [floodView_of_some allocated] at sound busy
  have consistent := sound.consistent
  simp only [FloodMaster.Consistent, busy] at consistent
  have ackTracks := sound.ackTracks
  rw [consistent.2.1] at ackTracks
  have pending :
      ThreadMaster.AgreesOff (timersOf .flood eth) icm.master
        ((icm.master.threadCancel id).threadAddTimer .floodAckTimeout
          (.backbone eth)) :=
    ((ThreadMaster.AgreesOff.refl _).cancel isPending ⟨rfl, rfl⟩).add
      ⟨rfl, rfl⟩
  have ackFree :
      (icm.master.threadCancel id).Tracks .floodAckTimeout
        (.backbone eth) none :=
    (ThreadMaster.pendingOf_threadCancel_of_ne isPending
      (by simp)).trans ackTracks
  dsimp only
  rw [lsdSend_eq]
  refine ⟨FloodFrame.write allocated rfl pending,
    invariant.write rfl ?_ pending⟩
  exact
    { ackTracks := ackFree.add
      sndTracks :=
        (ThreadMaster.pendingOf_threadAddTimer_of_ne _ (by simp)).trans
          (sound.sndTracks.fetched isPending)
      consistent := by
        simp [FloodMaster.Consistent] }

/-- `flood_ack_timeout`, when its timer fires. -/
theorem yields_floodAckTimeout
    {icm : Icm}
    {eth : EthId}
    {id : ThreadId}
    (invariant : icm.FloodInv)
    (isPending :
      id ∈ icm.master.pendingOf .floodAckTimeout (.backbone eth)) :
    YieldsFloodFrame icm ((icm.fetch id).floodAckTimeout eth) := by
  unfold floodAckTimeout
  refine Yields.bind (Yields.deref fun _ => trivial) fun flood allocated => ?_
  change icm.floodMaster eth = some flood at allocated
  have sound := invariant eth
  have waiting := invariant.ackWaiting isPending
  rw [floodView_of_some allocated] at sound waiting
  have consistent := sound.consistent
  simp only [FloodMaster.Consistent, waiting] at consistent
  have pending :
      ThreadMaster.AgreesOff (timersOf .flood eth) icm.master
        ((icm.master.threadCancel id).threadAddTimer .floodAckTimeout
          (.backbone eth)) :=
    ((ThreadMaster.AgreesOff.refl _).cancel isPending ⟨rfl, rfl⟩).add
      ⟨rfl, rfl⟩
  dsimp only
  rw [lsdSendBuf_eq]
  refine ⟨FloodFrame.write allocated rfl pending,
    invariant.write rfl ?_ pending⟩
  exact
    { ackTracks := (sound.ackTracks.fetched isPending).add
      sndTracks :=
        ((ThreadMaster.pendingOf_threadAddTimer_of_ne _ (by simp)).trans
          (ThreadMaster.pendingOf_threadCancel_of_ne isPending
            (by simp))).trans sound.sndTracks
      consistent := by
        simp [FloodMaster.Consistent, waiting, consistent.2] }

/-- `flood_terminate`. -/
theorem yields_floodTerminate
    {icm : Icm}
    (invariant : icm.FloodInv)
    (eth : EthId) :
    Yields Fault.Unguarded
      (fun after =>
        FloodFrame icm after ∧ after.FloodInv ∧
          (after.floodView eth).state = .terminated)
      (icm.floodTerminate eth) := by
  unfold floodTerminate
  refine Yields.bind (Yields.deref fun _ => trivial) fun flood allocated => ?_
  have sound := invariant eth
  rw [floodView_of_some allocated] at sound
  obtain ⟨ackTracks, sndTracks, pending⟩ := sound.stop
  refine ⟨FloodFrame.write allocated rfl pending,
    invariant.write rfl ?_ pending, by simp⟩
  exact
    { ackTracks := ackTracks
      sndTracks := sndTracks
      consistent := by
        simp [FloodMaster.Consistent] }

/-- `flood_start`; its assertion follows what `flood_terminate` just wrote. -/
theorem yields_floodStart
    {icm : Icm}
    (invariant : icm.FloodInv)
    (eth : EthId) :
    YieldsFloodFrame icm (icm.floodStart eth) := by
  unfold floodStart
  refine Yields.bind (yields_floodTerminate invariant eth) ?_
  rintro stopped ⟨framed, sound, terminated⟩
  refine Yields.bind (Yields.deref fun _ => trivial) fun flood allocated => ?_
  have stoppedSound := sound eth
  rw [floodView_of_some allocated] at terminated stoppedSound
  have consistent := stoppedSound.consistent
  simp only [FloodMaster.Consistent, terminated] at consistent
  refine Yields.bind (Yields.assertAt ?_) fun _ _ => ?_
  · intro failed
    simp [terminated] at failed
  · refine ⟨framed.trans (FloodFrame.write allocated rfl (.refl _)),
      sound.write rfl ?_ (.refl _)⟩
    exact
      { ackTracks := stoppedSound.ackTracks
        sndTracks := stoppedSound.sndTracks
        consistent := by
          simp [FloodMaster.Consistent, consistent] }

end Icm

end Pma
