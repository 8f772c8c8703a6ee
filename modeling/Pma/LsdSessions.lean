import Pma.LsdFloodMaster

namespace Pma

open Transition

/-!
# Exchange and flood sessions

What the functions of the exchange and the flood protocol do to the session
masters of an interface and their timers.  A function that only writes
databases and floods is covered by `Icm.Floods`.  The others write one exchange
master: `Icm.SessionFrame` says what they leave alone, and `Icm.SessionInv`
that the acknowledgement timer of an exchange runs exactly while it waits.
-/

/-- The handle tracks the acknowledgement timer, which runs exactly while waiting. -/
structure ExchangeMaster.Sound
    (exchange : ExchangeMaster)
    (master : ThreadMaster)
    (eth : EthId) : Prop where
  ackTracks :
    master.Tracks .ackTimeExcceed (.backbone eth) exchange.ackCtrl
  ackPending :
    exchange.ackCtrl.isSome ↔ exchange.sendState = .waiting
  rcvIdle :
    exchange.rcvCtrl = none

/-- Soundness of an exchange master only depends on its timer. -/
theorem ExchangeMaster.Sound.agrees
    {own : ThreadFunc → ThreadArg → Prop}
    {exchange : ExchangeMaster}
    {before after : ThreadMaster}
    {eth : EthId}
    (sound : exchange.Sound before eth)
    (pending : ThreadMaster.AgreesOff own before after)
    (foreign : ¬ own .ackTimeExcceed (.backbone eth)) :
    exchange.Sound after eth where
  ackTracks := sound.ackTracks.agrees pending foreign
  ackPending := sound.ackPending
  rcvIdle := sound.rcvIdle

namespace Icm

/-! ## Functions that only write databases and flood -/

/-- A computation that floods and fails no session or timer assertion. -/
abbrev YieldsFloods (icm : Icm) : Except Fault Icm → Prop :=
  Yields Fault.Unguarded (Floods icm)

theorem yields_crLsdbLinkStateAdd
    (icm : Icm)
    (zone : ZoneId)
    (link : CrLsdbLinkState) :
    YieldsFloods icm (icm.crLsdbLinkStateAdd zone link) := by
  unfold crLsdbLinkStateAdd Lsdb.crLsdbLinkStateAdd
  split
  · split
    · exact (Floods.log icm _).trans (Floods.setLsdb _ zone _)
    · rfl
  · rfl

theorem yields_crLsdbLinkStateUpdate
    (icm : Icm)
    (zone : ZoneId)
    (link : CrLsdbLinkState) :
    YieldsFloods icm (icm.crLsdbLinkStateUpdate zone link) := by
  unfold crLsdbLinkStateUpdate Lsdb.crLsdbLinkStateUpdate
  split
  · split
    · exact (Floods.log icm _).trans (Floods.setLsdb _ zone _)
    · trivial
  · rfl

/-- A flooding step before a flooding computation. -/
theorem YieldsFloods.after
    {first second : Icm}
    {computation : Except Fault Icm}
    (earlier : Floods first second)
    (later : YieldsFloods second computation) :
    YieldsFloods first computation :=
  later.mono fun _ floods => earlier.trans floods

/-- A flooding step after a flooding computation. -/
theorem YieldsFloods.andThen
    {icm : Icm}
    {computation : Except Fault Icm}
    {next : Icm → Except Fault Icm}
    (earlier : YieldsFloods icm computation)
    (later : ∀ middle, YieldsFloods middle (next middle)) :
    YieldsFloods icm (computation >>= next) :=
  Yields.bind earlier fun middle floods =>
    YieldsFloods.after floods (later middle)

/-- A loop of flooding computations. -/
theorem YieldsFloods.foldlM
    {Item : Type}
    {body : Icm → Item → Except Fault Icm}
    (stepwise : ∀ icm item, YieldsFloods icm (body icm item))
    (items : List Item)
    (icm : Icm) :
    YieldsFloods icm (items.foldlM body icm) :=
  Yields.foldlM Floods.refl Floods.trans stepwise items icm

theorem yields_floodSpreadLinkState
    (icm : Icm)
    (zone : ZoneId)
    (key : LinkStateKey)
    (addr metric : UInt32)
    (state : UInt8) :
    YieldsFloods icm
      (icm.floodSpreadLinkState zone key addr metric state) := by
  unfold floodSpreadLinkState
  split
  · exact (yields_crLsdbLinkStateUpdate icm zone _).andThen
      fun middle => Floods.floodLsaSpread middle _ zone
  · exact (yields_crLsdbLinkStateAdd icm zone _).andThen
      fun middle => Floods.floodLsaSpread middle _ zone

theorem yields_floodSpreadBackboneLinkState
    (icm : Icm)
    (eth : EthId)
    (state : UInt8) :
    YieldsFloods icm (icm.floodSpreadBackboneLinkState eth state) := by
  unfold floodSpreadBackboneLinkState
  refine Yields.bind (Yields.deref fun _ => trivial) fun hello _ => ?_
  refine Yields.bind (Yields.assertAt fun _ => rfl) fun _ _ => ?_
  exact yields_floodSpreadLinkState icm _ _ _ _ _

theorem yields_spreadStoredLinkState
    (icm : Icm)
    (zone : ZoneId)
    (key : LinkStateKey) :
    YieldsFloods icm (icm.spreadStoredLinkState zone key) := by
  unfold spreadStoredLinkState
  split
  · exact YieldsFloods.after (Floods.floodLsaSpread icm _ zone)
      (yields_crLsdbLinkStateUpdate _ zone _)
  · exact Floods.refl icm

theorem yields_spreadLocalBackbone
    (icm : Icm)
    (zone : ZoneId)
    (eth : EthId) :
    YieldsFloods icm (icm.spreadLocalBackbone zone eth) := by
  unfold spreadLocalBackbone
  refine Yields.bind (Yields.deref fun _ => trivial) fun hello _ => ?_
  split
  · exact yields_spreadStoredLinkState icm zone _
  · exact Floods.refl icm

/-- The two loops of `spread_local_link_state`. -/
theorem yields_spreadLocal
    (icm : Icm) :
    YieldsFloods icm
      (icm.spreadLocalAccesses >>= spreadLocalBackbones) := by
  refine YieldsFloods.andThen ?_ ?_
  · apply YieldsFloods.foldlM
    intro current eth
    apply YieldsFloods.foldlM
    intro inner zone
    exact yields_spreadStoredLinkState inner zone _
  · intro middle
    apply YieldsFloods.foldlM
    intro current zone
    apply YieldsFloods.foldlM
    intro inner eth
    exact yields_spreadLocalBackbone inner zone eth

theorem yields_aceUpHandler
    (icm : Icm)
    (eth : AccessId) :
    YieldsFloods icm (icm.aceUpHandler eth) := by
  apply YieldsFloods.foldlM
  intro current zone
  unfold aceUpInZone
  dsimp only
  split
  · exact YieldsFloods.after (Floods.readClock current)
      (yields_crLsdbLinkStateAdd _ zone _)
  · exact YieldsFloods.after (Floods.readClock current)
      (yields_crLsdbLinkStateUpdate _ zone _)

/-- Comparing link states fails no session or timer assertion. -/
theorem yields_linkStateCompare
    (first second : CrLsdbLinkState) :
    Yields Fault.Unguarded (fun _ => True)
      (linkStateCompare first second) := by
  unfold linkStateCompare
  exact Yields.bind (Yields.assertAt fun _ => rfl) fun _ _ => trivial

theorem yields_checkLocalLsdb
    (icm : Icm)
    (eth : EthId)
    (state : CrLsdbLinkState) :
    Yields Fault.Unguarded
      (fun result => Floods icm result.2)
      (icm.checkLocalLsdb eth state) := by
  unfold checkLocalLsdb
  split
  · exact Floods.refl icm
  · split
    · exact Floods.refl icm
    · refine Yields.bind (yields_linkStateCompare _ _) fun order _ => ?_
      split
      · exact Floods.floodAddFloodLsa icm _ eth
      · exact Floods.refl icm

theorem yields_acceptForeign
    (icm : Icm)
    (eth : EthId)
    (icLsa : LinkStateAdv)
    (lsa : CrLsdbLinkState) :
    YieldsFloods icm (icm.acceptForeign eth icLsa lsa) := by
  unfold acceptForeign
  split
  · exact (yields_crLsdbLinkStateAdd icm _ _).andThen
      fun middle => Floods.floodLsaForward middle _ eth
  · split
    · apply YieldsFloods.after (Floods.readClock icm)
      exact (yields_crLsdbLinkStateUpdate _ _ _).andThen
        fun middle => Floods.floodLsaForward middle _ eth
    · refine Yields.bind (yields_linkStateCompare _ _) fun order _ => ?_
      apply YieldsFloods.after (Floods.readClock icm)
      cases order with
      | lt =>
          exact (yields_crLsdbLinkStateUpdate _ _ _).andThen
            fun middle => Floods.floodLsaForward middle _ eth
      | gt =>
          exact Floods.floodAddFloodLsa _ _ eth
      | eq =>
          exact Floods.refl _

theorem yields_acceptLsaIntoLsdb
    (icm : Icm)
    (eth : EthId)
    (lsa : LinkStateAdv) :
    YieldsFloods icm (icm.acceptLsaIntoLsdb eth lsa) := by
  unfold acceptLsaIntoLsdb
  apply YieldsFloods.after (Floods.log icm _)
  apply YieldsFloods.after (Floods.readClock _)
  refine Yields.bind (yields_checkLocalLsdb _ eth _) ?_
  rintro ⟨isLocal, checked⟩ floods
  apply YieldsFloods.after floods
  dsimp only
  split
  · exact Floods.refl checked
  · exact yields_acceptForeign checked eth lsa _

theorem yields_acceptRecords
    (icm : Icm)
    (eth : EthId)
    (lsas : List LinkStateAdv)
    (count : Nat) :
    YieldsFloods icm (icm.acceptRecords eth lsas count) := by
  apply YieldsFloods.foldlM
  intro current index
  refine Yields.bind (?_ : Yields _ (fun _ => True) _) fun lsa _ => ?_
  · unfold recordAt
    split <;> trivial
  · exact yields_acceptLsaIntoLsdb current eth lsa

/-! ## Flood packets -/

/-- A flooding computation keeps sound flood masters sound. -/
theorem YieldsFloods.frame
    {icm : Icm}
    {computation : Except Fault Icm}
    (yields : YieldsFloods icm computation)
    (invariant : icm.FloodInv) :
    YieldsFloodFrame icm computation :=
  yields.mono fun _ floods => ⟨floods.toFloodFrame, floods.flooding invariant⟩

/-- `flood_pkt_received`. -/
theorem yields_floodPktReceived
    {icm : Icm}
    (invariant : icm.FloodInv)
    (eth : EthId)
    (packet : Flood) :
    YieldsFloodFrame icm (icm.floodPktReceived eth packet) := by
  unfold floodPktReceived
  split
  · refine Yields.bind (Yields.deref fun _ => trivial) fun flood allocated => ?_
    have sound := invariant eth
    rw [floodView_of_some allocated] at sound
    split
    · next waiting =>
        have consistent := sound.consistent
        simp only [FloodMaster.Consistent, waiting.1] at consistent
        have sndTracks := sound.sndTracks
        rw [consistent.2] at sndTracks
        have sndFree :
            (icm.master.threadOff flood.ackCtrl).Tracks .floodSendLsa
              (.backbone eth) none :=
          (sound.ackTracks.off_other (by simp)).trans sndTracks
        have stopped :
            ThreadMaster.AgreesOff (timersOf .flood eth) icm.master
              (icm.master.threadOff flood.ackCtrl) :=
          (ThreadMaster.AgreesOff.refl _).off sound.ackTracks ⟨rfl, rfl⟩
        dsimp only
        split
        · next drained =>
            refine ⟨FloodFrame.write allocated rfl stopped,
              invariant.write rfl ?_ stopped⟩
            exact
              { ackTracks := sound.ackTracks.off
                sndTracks := by
                  rw [consistent.2]
                  exact sndFree
                consistent := by
                  simp [FloodMaster.Consistent, drained, consistent.2] }
        · next remaining =>
            have restarted :
                ThreadMaster.AgreesOff (timersOf .flood eth) icm.master
                  ((icm.master.threadOff flood.ackCtrl).threadAddTimer
                    .floodSendLsa (.backbone eth)) :=
              stopped.add ⟨rfl, rfl⟩
            refine ⟨FloodFrame.write allocated rfl restarted,
              invariant.write rfl ?_ restarted⟩
            exact
              { ackTracks :=
                  (ThreadMaster.pendingOf_threadAddTimer_of_ne _
                    (by simp)).trans sound.ackTracks.off
                sndTracks := sndFree.add
                consistent := by
                  simp [FloodMaster.Consistent, remaining] }
    · exact ⟨FloodFrame.refl icm, invariant⟩
  · exact (YieldsFloods.after (Floods.lsdSend icm eth _)
      (yields_acceptRecords _ eth _ _)).frame invariant
  · exact ⟨FloodFrame.refl icm, invariant⟩

/-! ## Exchange sessions -/

/-- The exchange master of an interface; an unallocated one counts as terminated. -/
def exchangeView (icm : Icm) (eth : EthId) : ExchangeMaster :=
  (icm.exchangeMaster eth).getD newExchangeMaster

theorem exchangeView_of_some
    {icm : Icm}
    {eth : EthId}
    {exchange : ExchangeMaster}
    (allocated : icm.exchangeMaster eth = some exchange) :
    icm.exchangeView eth = exchange := by
  simp [exchangeView, allocated]

/-- The session masters of every interface are sound. -/
structure SessionInv (icm : Icm) : Prop where
  flood :
    icm.FloodInv
  exchange :
    ∀ eth, (icm.exchangeView eth).Sound icm.master eth

/--
`after` differs from `before` at most in the databases, the flood masters, one
exchange master, the timers of these, the clock readings and the trace.
-/
structure SessionFrame (eth : EthId) (before after : Icm) : Prop where
  links : after.links = before.links
  hello : after.helloMaster = before.helloMaster
  exchange :
    ∀ other, other ≠ eth →
      after.exchangeMaster other = before.exchangeMaster other
  allocated :
    (after.exchangeMaster eth).isSome = (before.exchangeMaster eth).isSome
  periodctrl : after.periodctrl = before.periodctrl
  floodCalled : after.floodCalled = before.floodCalled
  pending :
    ThreadMaster.AgreesOff
      (fun func arg =>
        func.protocol = some .flood ∨ timersOf .exchange eth func arg)
      before.master after.master

namespace SessionFrame

variable {eth : EthId}

theorem trans
    {first second third : Icm}
    (earlier : SessionFrame eth first second)
    (later : SessionFrame eth second third) :
    SessionFrame eth first third where
  links := later.links.trans earlier.links
  hello := later.hello.trans earlier.hello
  exchange := fun other different =>
    (later.exchange other different).trans (earlier.exchange other different)
  allocated := later.allocated.trans earlier.allocated
  periodctrl := later.periodctrl.trans earlier.periodctrl
  floodCalled := later.floodCalled.trans earlier.floodCalled
  pending := earlier.pending.trans later.pending

end SessionFrame

/-- A step inside the flood frame touches no exchange master. -/
theorem FloodFrame.session
    {before after : Icm}
    (framed : FloodFrame before after)
    (eth : EthId) :
    SessionFrame eth before after where
  links := framed.links
  hello := framed.hello
  exchange := fun _ _ => by rw [framed.exchange]
  allocated := by rw [framed.exchange]
  periodctrl := framed.periodctrl
  floodCalled := framed.floodCalled
  pending := framed.pending.mono fun _ _ owned => .inl owned

/-- The invariant of the sessions through a step inside the flood frame. -/
theorem SessionInv.floodFrame
    {before after : Icm}
    (invariant : before.SessionInv)
    (framed : FloodFrame before after)
    (flooding : after.FloodInv) :
    after.SessionInv where
  flood := flooding
  exchange := by
    intro eth
    unfold exchangeView
    rw [framed.exchange]
    exact (invariant.exchange eth).agrees framed.pending
      (by simp [ThreadFunc.protocol])

/-- Replace the exchange master of an interface, the scheduler and the trace. -/
def withExchange
    (icm : Icm)
    (eth : EthId)
    (exchange : ExchangeMaster)
    (master : ThreadMaster)
    (trace : List Call) : Icm :=
  { icm with
    exchangeMaster := Function.update icm.exchangeMaster eth (some exchange)
    master := master
    trace := trace }

/-- Writing one allocated exchange master and its timer stays inside the frame. -/
theorem SessionFrame.write
    {icm : Icm}
    {eth : EthId}
    {old : ExchangeMaster}
    {master : ThreadMaster}
    (allocated : icm.exchangeMaster eth = some old)
    (pending :
      ThreadMaster.AgreesOff (timersOf .exchange eth) icm.master master)
    (new : ExchangeMaster)
    (trace : List Call) :
    SessionFrame eth icm (icm.withExchange eth new master trace) where
  links := rfl
  hello := rfl
  exchange := fun other different => Function.update_of_ne different _ _
  allocated := by simp [withExchange, allocated]
  periodctrl := rfl
  floodCalled := rfl
  pending := pending.mono fun _ _ owned => .inr owned

/-- Writing a sound exchange master keeps the sessions sound. -/
theorem SessionInv.write
    {icm : Icm}
    {eth : EthId}
    {master : ThreadMaster}
    {new : ExchangeMaster}
    (invariant : icm.SessionInv)
    (pending :
      ThreadMaster.AgreesOff (timersOf .exchange eth) icm.master master)
    (sound : new.Sound master eth)
    (trace : List Call) :
    (icm.withExchange eth new master trace).SessionInv where
  flood := invariant.flood.congr rfl
    (pending.mono fun _ _ owned => by simp [owned.1])
  exchange := by
    intro other
    unfold exchangeView withExchange
    by_cases same : other = eth
    · subst same
      simpa using sound
    · have old := invariant.exchange other
      unfold exchangeView at old
      simp only [Function.update_of_ne same]
      exact old.agrees pending (by simp [timersOf, same])

/-- A computation of the sessions of one interface. -/
abbrev YieldsSession
    (eth : EthId)
    (icm : Icm)
    (post : Icm → Prop) : Except Fault Icm → Prop :=
  Yields Fault.Unguarded
    (fun after => SessionFrame eth icm after ∧ after.SessionInv ∧ post after)

/-- A computation inside the flood frame leaves the exchange master as it was. -/
theorem YieldsFloodFrame.session
    {icm : Icm}
    {computation : Except Fault Icm}
    (yields : YieldsFloodFrame icm computation)
    (invariant : icm.SessionInv)
    (eth : EthId) :
    YieldsSession eth icm
      (fun after => after.exchangeMaster = icm.exchangeMaster)
      computation :=
  yields.mono fun _ after =>
    ⟨after.1.session eth, invariant.floodFrame after.1 after.2,
      after.1.exchange⟩

/-- The exchange master `exchange_send` leaves behind. -/
def exchangeSent (exchange : ExchangeMaster) (handle : ThreadId) :
    ExchangeMaster :=
  { exchange with
    linksState := exchange.linksState.drop linkLsaCtPerPak
    sendbuf := some (exchangeBatch exchange)
    sendState := .waiting
    ackCtrl := some handle }

/-- `exchange_send` on an exchange master that was just written. -/
theorem exchangeSend_eq
    (icm : Icm)
    (eth : EthId)
    (exchange : ExchangeMaster)
    (master : ThreadMaster)
    (trace : List Call) :
    (icm.withExchange eth exchange master trace).exchangeSend eth =
      .ok (icm.withExchange eth
        (exchangeSent exchange master.threadGet)
        (master.threadAddTimer .ackTimeExcceed (.backbone eth))
        (trace ++
          icm.sentCalls eth (some (.exchange (exchangeBatch exchange))))) := by
  unfold exchangeSend
  simp only [withExchange, Function.update_self, deref, bind, Except.bind]
  rw [lsdSend_eq]
  simp only [setExchange, addTimer, Function.update_idem]
  rfl

/--
`exchange_send`, called with the acknowledgement timer stopped.  Its callers
have changed the exchange master already, so the statement speaks about the
state before them.
-/
theorem yields_exchangeSend
    {icm : Icm}
    {eth : EthId}
    {old : ExchangeMaster}
    {master : ThreadMaster}
    (invariant : icm.SessionInv)
    (allocated : icm.exchangeMaster eth = some old)
    (pending :
      ThreadMaster.AgreesOff (timersOf .exchange eth) icm.master master)
    (free : master.Tracks .ackTimeExcceed (.backbone eth) none)
    (exchange : ExchangeMaster)
    (rcvIdle : exchange.rcvCtrl = none)
    (trace : List Call) :
    YieldsSession eth icm
      (fun after => (after.exchangeView eth).sendState = .waiting)
      ((icm.withExchange eth exchange master trace).exchangeSend eth) := by
  have armed :
      ThreadMaster.AgreesOff (timersOf .exchange eth) icm.master
        (master.threadAddTimer .ackTimeExcceed (.backbone eth)) :=
    pending.add ⟨rfl, rfl⟩
  rw [exchangeSend_eq]
  refine ⟨.write allocated armed _ _, invariant.write armed ?_ _, ?_⟩
  · exact
      { ackTracks := free.add
        ackPending := by simp [exchangeSent]
        rcvIdle := rcvIdle }
  · simp [exchangeView, withExchange, exchangeSent]

/-- A sound exchange master that does not wait has no acknowledgement timer. -/
theorem SessionInv.ackFree
    {icm : Icm}
    {eth : EthId}
    (invariant : icm.SessionInv)
    (idle : (icm.exchangeView eth).sendState ≠ .waiting) :
    icm.master.Tracks .ackTimeExcceed (.backbone eth) none := by
  have sound := invariant.exchange eth
  have tracks := sound.ackTracks
  cases handle : (icm.exchangeView eth).ackCtrl with
  | none =>
      rwa [handle] at tracks
  | some id =>
      exact absurd (sound.ackPending.mp (by simp [handle])) idle

/-- `exchange_send_start` in a terminated session. -/
theorem yields_exchangeSendStart
    {icm : Icm}
    {eth : EthId}
    (invariant : icm.SessionInv)
    (allocated : (icm.exchangeMaster eth).isSome)
    (terminated : (icm.exchangeView eth).sendState = .terminated) :
    YieldsSession eth icm
      (fun after => (after.exchangeView eth).sendState = .waiting)
      (icm.exchangeSendStart eth) := by
  unfold exchangeSendStart
  refine Yields.bind (Yields.assertAt ?_) fun _ _ => ?_
  · intro failed
    simp [failed] at allocated
  refine Yields.bind (Yields.deref fun _ => trivial) fun exchange found => ?_
  have free :
      icm.master.Tracks .ackTimeExcceed (.backbone eth) none :=
    invariant.ackFree (by simp [terminated])
  have sound := invariant.exchange eth
  rw [exchangeView_of_some found] at terminated sound
  refine Yields.bind (Yields.assertAt ?_) fun _ _ => ?_
  · intro failed
    simp [terminated] at failed
  · refine yields_exchangeSend invariant found (.refl _) free _ ?_ _
    exact sound.rcvIdle

/-- `exchange_terminate`. -/
theorem yields_exchangeTerminate
    {icm : Icm}
    (invariant : icm.SessionInv)
    (eth : EthId) :
    YieldsSession eth icm
      (fun after => (after.exchangeView eth).sendState = .terminated)
      (icm.exchangeTerminate eth) := by
  unfold exchangeTerminate
  refine Yields.bind (Yields.assertAt fun _ => rfl) fun _ _ => ?_
  refine Yields.bind (Yields.deref fun _ => trivial) fun exchange found => ?_
  have sound := invariant.exchange eth
  rw [exchangeView_of_some found] at sound
  have stopped :
      ThreadMaster.AgreesOff (timersOf .exchange eth) icm.master
        (icm.master.threadOff exchange.ackCtrl) :=
    (ThreadMaster.AgreesOff.refl _).off sound.ackTracks ⟨rfl, rfl⟩
  dsimp only
  rw [sound.rcvIdle]
  refine ⟨.write found stopped _ _, invariant.write stopped ?_ _, ?_⟩
  · exact
      { ackTracks := sound.ackTracks.off
        ackPending := by simp
        rcvIdle := rfl }
  · simp [exchangeView, setExchange]

/-- Only a waiting exchange has a pending acknowledgement timer. -/
theorem SessionInv.waiting
    {icm : Icm}
    {eth : EthId}
    {id : ThreadId}
    (invariant : icm.SessionInv)
    (isPending : id ∈ icm.master.pendingOf .ackTimeExcceed (.backbone eth)) :
    (icm.exchangeView eth).sendState = .waiting := by
  have sound := invariant.exchange eth
  have named := sound.ackTracks.eq_some isPending
  exact sound.ackPending.mp (by simp [named])

/-- `ack_time_excceed`, when its timer fires. -/
theorem yields_ackTimeExcceed
    {icm : Icm}
    {eth : EthId}
    {id : ThreadId}
    (invariant : icm.SessionInv)
    (isPending : id ∈ icm.master.pendingOf .ackTimeExcceed (.backbone eth)) :
    YieldsSession eth icm
      (fun after => (after.exchangeView eth).sendState = .waiting)
      ((icm.fetch id).ackTimeExcceed eth) := by
  unfold ackTimeExcceed
  refine Yields.bind (Yields.deref fun _ => trivial) fun exchange found => ?_
  change icm.exchangeMaster eth = some exchange at found
  have waiting := invariant.waiting isPending
  have sound := invariant.exchange eth
  rw [exchangeView_of_some found] at waiting sound
  refine Yields.bind (Yields.assertAt ?_) fun _ _ => ?_
  · intro failed
    simp [waiting] at failed
  have armed :
      ThreadMaster.AgreesOff (timersOf .exchange eth) icm.master
        ((icm.master.threadCancel id).threadAddTimer .ackTimeExcceed
          (.backbone eth)) :=
    ((ThreadMaster.AgreesOff.refl _).cancel isPending ⟨rfl, rfl⟩).add
      ⟨rfl, rfl⟩
  dsimp only
  rw [lsdSendBuf_eq]
  refine ⟨.write found armed _ _, invariant.write armed ?_ _, ?_⟩
  · exact
      { ackTracks := (sound.ackTracks.fetched isPending).add
        ackPending := by simp [waiting]
        rcvIdle := sound.rcvIdle }
  · simp [exchangeView, setExchange, waiting]

/-- A terminated send session stays terminated. -/
def StaysTerminated (eth : EthId) (before after : Icm) : Prop :=
  (before.exchangeView eth).sendState = .terminated →
    (after.exchangeView eth).sendState = .terminated

/-- `ex_ack_received` while waiting. -/
theorem yields_exAckReceived
    {icm : Icm}
    {eth : EthId}
    (invariant : icm.SessionInv)
    (waiting : (icm.exchangeView eth).sendState = .waiting)
    (packet : Exchange) :
    YieldsSession eth icm (StaysTerminated eth icm)
      (icm.exAckReceived eth packet) := by
  have vacuous :
      ∀ after, StaysTerminated eth icm after := by
    intro after terminated
    simp [waiting] at terminated
  unfold exAckReceived
  refine Yields.bind (Yields.deref fun _ => trivial) fun exchange found => ?_
  have sound := invariant.exchange eth
  rw [exchangeView_of_some found] at sound
  have stopped :
      ThreadMaster.AgreesOff (timersOf .exchange eth) icm.master
        (icm.master.threadOff exchange.ackCtrl) :=
    (ThreadMaster.AgreesOff.refl _).off sound.ackTracks ⟨rfl, rfl⟩
  split
  · dsimp only
    split
    · refine Yields.mono
        (yields_exchangeSend invariant found stopped
          sound.ackTracks.off _ ?_ _) ?_
      · exact sound.rcvIdle
      · intro after yielded
        exact ⟨yielded.1, yielded.2.1, vacuous after⟩
    · refine ⟨.write found stopped _ _, invariant.write stopped ?_ _,
        vacuous _⟩
      exact
        { ackTracks := sound.ackTracks.off
          ackPending := by simp
          rcvIdle := sound.rcvIdle }
  · exact ⟨(FloodFrame.refl icm).session eth, invariant, vacuous icm⟩

/-- `exchange_pkt_received`. -/
theorem yields_exchangePktReceived
    {icm : Icm}
    (invariant : icm.SessionInv)
    (eth : EthId)
    (packet : Exchange) :
    YieldsSession eth icm (StaysTerminated eth icm)
      (icm.exchangePktReceived eth packet) := by
  unfold exchangePktReceived
  refine Yields.bind (Yields.assertAt fun _ => rfl) fun _ _ => ?_
  refine Yields.bind (Yields.deref fun _ => trivial) fun exchange found => ?_
  have sound := invariant.exchange eth
  rw [exchangeView_of_some found] at sound
  split
  · split
    · next waiting =>
        exact yields_exAckReceived invariant
          (by rwa [exchangeView_of_some found]) packet
    · exact ⟨(FloodFrame.refl icm).session eth, invariant, id⟩
  · have awakeSound :
        ExchangeMaster.Sound
          { exchange with rcvState := rcvWakeUp exchange.rcvState }
          icm.master eth :=
      { ackTracks := sound.ackTracks
        ackPending := sound.ackPending
        rcvIdle := sound.rcvIdle }
    have awakeFrame :
        SessionFrame eth icm
          (icm.setExchange eth
            { exchange with rcvState := rcvWakeUp exchange.rcvState }) :=
      .write found (.refl _) _ _
    have awakeInv :
        (icm.setExchange eth
          { exchange with rcvState := rcvWakeUp exchange.rcvState }).SessionInv :=
      invariant.write (.refl _) awakeSound _
    dsimp only
    split
    · refine Yields.bind
        (((yields_acceptRecords _ eth _ _).frame awakeInv.flood).session
          awakeInv eth) ?_
      rintro received ⟨receivedFrame, receivedInv, kept⟩
      have current :
          received.exchangeMaster eth =
            some { exchange with rcvState := rcvWakeUp exchange.rcvState } := by
        rw [kept]
        simp [setExchange]
      have receivedSound := receivedInv.exchange eth
      rw [exchangeView_of_some current] at receivedSound
      unfold exchangeSendAck
      rw [lsdSend_eq]
      dsimp only
      rw [current]
      dsimp only [deref, bind, Except.bind]
      rw [sound.rcvIdle]
      refine ⟨(awakeFrame.trans receivedFrame).trans
          (.write current (.refl _) _ _),
        receivedInv.write (.refl _) ?_ _, ?_⟩
      · exact
          { ackTracks := receivedSound.ackTracks
            ackPending := sound.ackPending
            rcvIdle := rfl }
      · intro terminated
        rw [exchangeView_of_some found] at terminated
        simpa [exchangeView, setExchange] using terminated
    · refine ⟨awakeFrame, awakeInv, ?_⟩
      intro terminated
      rw [exchangeView_of_some found] at terminated
      simpa [exchangeView, setExchange] using terminated

end Icm

end Pma
