import Pma.LsdOrigination

namespace Pma

open Transition

/-!
# The advertised bits follow detection

The state of a backbone link has one bit for each priority of the hello
detection.  `hello_changed_handler` sets the bit of the priority that changed
in the state it finds stored, and every branch stores and spreads the result.
As long as one neighbour is heard and nobody else writes its key, the stored
state and the state spread last are the two statuses of the hello master.
-/

namespace Icm

/-- The link state that stands for the two statuses of a hello master. -/
def detectionBits (high low : LsdStatus) : UInt8 :=
  setHelloHigh high (setHelloLow low 0)

/-- The bit of a priority, set in the state that is stored. -/
def changeBit (type : PriorityType) (status : LsdStatus) (data : UInt8) : UInt8 :=
  match type with
  | .high => setHelloHigh status data
  | .low => setHelloLow status data

/-- Changing the high bit leaves the low one alone. -/
theorem changeBit_high
    (status high low : LsdStatus) :
    changeBit .high status (detectionBits high low) =
      detectionBits status low := by
  cases status <;> cases high <;> cases low <;> rfl

/-- Changing the low bit leaves the high one alone. -/
theorem changeBit_low
    (status high low : LsdStatus) :
    changeBit .low status (detectionBits high low) =
      detectionBits high status := by
  cases status <;> cases high <;> cases low <;> rfl

/-- The advertisement of a key that was handed to `flood_lsa_spread` last. -/
def lastSpread (icm : Icm) (zone : ZoneId) (key : LinkStateKey) :
    Option LinkStateAdv :=
  ((icm.spreads zone).filter fun lsa => lsa.key = key).getLast?

/--
A key of an area was stored with a state and spread once, with that state.
-/
structure Advertises
    (before after : Icm)
    (zone : ZoneId)
    (key : LinkStateKey)
    (state : UInt8) : Prop where
  router : after.router = before.router
  hello : after.helloMaster = before.helloMaster
  stored :
    ∃ link, after.stored zone key = some link ∧ link.state = state
  spread :
    ∃ lsa,
      after.spreads zone = before.spreads zone ++ [lsa] ∧
        lsa.key = key ∧ lsa.state = state

namespace Advertises

variable {before middle after : Icm} {zone : ZoneId} {key : LinkStateKey}
  {state : UInt8}

/-- A quiet computation before an advertisement. -/
theorem after_quiet
    {entries : Entries}
    (quiet : Originates before middle entries noSpread)
    (advertises : Advertises middle after zone key state) :
    Advertises before after zone key state where
  router := advertises.router.trans quiet.router
  hello := advertises.hello.trans quiet.hello
  stored := advertises.stored
  spread := by
    obtain ⟨lsa, spread, sameKey, sameState⟩ := advertises.spread
    refine ⟨lsa, ?_, sameKey, sameState⟩
    rw [spread, quiet.spreads zone, noSpread, List.append_nil]

/-- A quiet computation after an advertisement. -/
theorem andThen
    (advertises : Advertises before middle zone key state)
    (quiet : Originates middle after middle.stored noSpread) :
    Advertises before after zone key state where
  router := quiet.router.trans advertises.router
  hello := quiet.hello.trans advertises.hello
  stored := by
    rw [quiet.stored]
    exact advertises.stored
  spread := by
    obtain ⟨lsa, spread, sameKey, sameState⟩ := advertises.spread
    refine ⟨lsa, ?_, sameKey, sameState⟩
    rw [quiet.spreads zone, noSpread, List.append_nil, spread]

/-- Storing the state again after an advertisement. -/
theorem rewrite
    {link : CrLsdbLinkState}
    (advertises : Advertises before middle zone key state)
    (written :
      Originates middle after (middle.stored.write zone link) noSpread)
    (sameKey : link.key = key)
    (sameState : link.state = state) :
    Advertises before after zone key state where
  router := written.router.trans advertises.router
  hello := written.hello.trans advertises.hello
  stored := by
    subst sameKey
    refine ⟨link, ?_, sameState⟩
    rw [written.stored]
    exact Entries.write_self _ _ _
  spread := by
    obtain ⟨lsa, spread, lsaKey, lsaState⟩ := advertises.spread
    refine ⟨lsa, ?_, lsaKey, lsaState⟩
    rw [written.spreads zone, noSpread, List.append_nil, spread]

/-- What was advertised is what was spread last. -/
theorem lastSpread
    (advertises : Advertises before after zone key state) :
    (after.lastSpread zone key).map LinkStateAdv.state = some state := by
  obtain ⟨lsa, spread, sameKey, sameState⟩ := advertises.spread
  unfold Icm.lastSpread
  rw [spread, List.filter_append]
  simp [sameKey, sameState]

end Advertises

/-- `flood_spread_backbone_link_state`. -/
theorem advertises_floodSpreadBackboneLinkState
    {before after : Icm}
    {eth : EthId}
    {hello : HelloMaster}
    {state : UInt8}
    (allocated : before.helloMaster eth = some hello)
    (returned : before.floodSpreadBackboneLinkState eth state = .ok after) :
    Advertises before after (before.zoneOf eth)
      (before.backboneKey eth hello.neighbor) state := by
  unfold floodSpreadBackboneLinkState at returned
  obtain ⟨current, found, rest⟩ := bind_eq_ok.mp returned
  obtain ⟨_, -, spread⟩ := bind_eq_ok.mp rest
  have same : current = hello :=
    Option.some.inj ((deref_eq_ok.mp found).symm.trans allocated)
  subst same
  obtain ⟨link, originates, sameKey, sameState, -⟩ :=
    Originates.floodSpreadLinkState spread
  refine
    { router := originates.router
      hello := originates.hello
      stored := ?_
      spread := ?_ }
  · refine ⟨link, ?_, sameState⟩
    rw [originates.stored, ← sameKey]
    exact Entries.write_self _ _ _
  · refine ⟨lsdbToLsaInfo link, ?_, sameKey, sameState⟩
    rw [originates.spreads]
    simp [oneSpread]

/-- The area and the key of an interface are read from the router alone. -/
theorem backboneKey_congr
    {before after : Icm}
    (router : after.router = before.router)
    (eth : EthId)
    (neighbor : LsdNeighborInfo) :
    after.zoneOf eth = before.zoneOf eth ∧
      after.backboneKey eth neighbor = before.backboneKey eth neighbor := by
  unfold backboneKey zoneOf
  rw [router]
  exact ⟨rfl, rfl⟩

/-- The sessions and the spread after a change of the high priority was stored. -/
theorem advertises_highChanged
    {before after : Icm}
    {eth : EthId}
    {hello : HelloMaster}
    {status : LsdStatus}
    {state : UInt8}
    (allocated : before.helloMaster eth = some hello)
    (returned : before.highChanged eth status state = .ok after) :
    Advertises before after (before.zoneOf eth)
      (before.backboneKey eth hello.neighbor) state := by
  unfold highChanged at returned
  cases status with
  | connected =>
      obtain ⟨exchanging, exchangeStarts, rest⟩ := bind_eq_ok.mp returned
      obtain ⟨flooding, floodStarts, spreads⟩ := bind_eq_ok.mp rest
      have exchanged := Originates.exchangeSendStart exchangeStarts
      have flooded := Originates.floodStart floodStarts
      have sameHello : flooding.helloMaster eth = some hello := by
        rw [flooded.hello, exchanged.hello]
        exact allocated
      obtain ⟨sameZone, sameKey⟩ := backboneKey_congr
        (flooded.router.trans exchanged.router) eth hello.neighbor
      have advertises := advertises_floodSpreadBackboneLinkState sameHello spreads
      rw [sameZone, sameKey] at advertises
      exact .after_quiet exchanged (.after_quiet flooded advertises)
  | disconnected =>
      obtain ⟨stopped, exchangeStops, rest⟩ := bind_eq_ok.mp returned
      obtain ⟨spread, spreads, floodStops⟩ := bind_eq_ok.mp rest
      have terminated := Originates.exchangeTerminate exchangeStops
      have sameHello : stopped.helloMaster eth = some hello := by
        rw [terminated.hello]
        exact allocated
      obtain ⟨sameZone, sameKey⟩ := backboneKey_congr
        terminated.router eth hello.neighbor
      have advertises := advertises_floodSpreadBackboneLinkState sameHello spreads
      rw [sameZone, sameKey] at advertises
      exact (Advertises.after_quiet terminated advertises).andThen
        (.floodTerminate floodStops)

/-- The state stored for a key, 0 when nothing is stored. -/
def storedState (icm : Icm) (zone : ZoneId) (key : LinkStateKey) : UInt8 :=
  match icm.stored zone key with
  | some link => link.state
  | none => 0

/-- The high priority branch of `hello_changed_handler`. -/
theorem advertises_helloHighChanged
    {before after : Icm}
    {eth : EthId}
    {hello : HelloMaster}
    {status : LsdStatus}
    {base : CrLsdbLinkState}
    (allocated : before.helloMaster eth = some hello)
    (returned : before.helloHighChanged eth status base = .ok after) :
    Advertises before after (before.zoneOf eth)
      (before.backboneKey eth hello.neighbor)
      (setHelloHigh status
        (before.storedState (before.zoneOf eth) base.key)) := by
  have written :
      ∀ {link : CrLsdbLinkState} {middle : Icm} {state : UInt8},
        Originates before middle
          (before.stored.write (before.zoneOf eth) link) noSpread →
        middle.highChanged eth status state = .ok after →
        Advertises before after (before.zoneOf eth)
          (before.backboneKey eth hello.neighbor) state := by
    intro link middle state stores changes
    have sameHello : middle.helloMaster eth = some hello := by
      rw [stores.hello]
      exact allocated
    obtain ⟨sameZone, sameKey⟩ :=
      backboneKey_congr stores.router eth hello.neighbor
    have advertises := advertises_highChanged sameHello changes
    rw [sameZone, sameKey] at advertises
    exact .after_quiet stores advertises
  unfold helloHighChanged at returned
  split at returned
  · next absent =>
      obtain ⟨added, adds, changes⟩ := bind_eq_ok.mp returned
      change before.stored (before.zoneOf eth) base.key = none at absent
      rw [storedState, absent]
      exact written (Effect.crLsdbLinkStateAdd adds).originates changes
  · next result found =>
      obtain ⟨updated, updates, changes⟩ := bind_eq_ok.mp returned
      change before.stored (before.zoneOf eth) base.key = some result at found
      rw [storedState, found]
      exact written (Effect.crLsdbLinkStateUpdate updates).originates changes

/-- The low priority branch of `hello_changed_handler`. -/
theorem advertises_helloLowChanged
    {before after : Icm}
    {eth : EthId}
    {hello : HelloMaster}
    {status : LsdStatus}
    {base : CrLsdbLinkState}
    (allocated : before.helloMaster eth = some hello)
    (baseKey : base.key = before.backboneKey eth hello.neighbor)
    (returned : before.helloLowChanged eth status base = .ok after) :
    Advertises before after (before.zoneOf eth)
      (before.backboneKey eth hello.neighbor)
      (setHelloLow status
        (before.storedState (before.zoneOf eth) base.key)) := by
  unfold helloLowChanged at returned
  split at returned
  · next absent =>
      obtain ⟨added, adds, spreads⟩ := bind_eq_ok.mp returned
      change before.stored (before.zoneOf eth) base.key = none at absent
      rw [storedState, absent]
      have stores := (Effect.crLsdbLinkStateAdd adds).originates
      have sameHello : added.helloMaster eth = some hello := by
        rw [stores.hello]
        exact allocated
      obtain ⟨sameZone, sameKey⟩ :=
        backboneKey_congr stores.router eth hello.neighbor
      have advertises := advertises_floodSpreadBackboneLinkState sameHello spreads
      rw [sameZone, sameKey] at advertises
      exact .after_quiet stores advertises
  · next result found =>
      obtain ⟨spread, spreads, updates⟩ := bind_eq_ok.mp returned
      change before.stored (before.zoneOf eth) base.key = some result at found
      rw [storedState, found]
      have advertises := advertises_floodSpreadBackboneLinkState allocated spreads
      exact advertises.rewrite
        (Effect.crLsdbLinkStateUpdate updates).originates baseKey rfl

/-- `hello_changed_handler` advertises the stored state with one bit changed. -/
theorem advertises_helloChangedHandler
    {before after : Icm}
    {eth : EthId}
    {hello : HelloMaster}
    {type : PriorityType}
    {status : LsdStatus}
    (allocated : before.helloMaster eth = some hello)
    (returned : before.helloChangedHandler eth type status = .ok after) :
    Advertises before after (before.zoneOf eth)
      (before.backboneKey eth hello.neighbor)
      (changeBit type status
        (before.storedState (before.zoneOf eth)
          (before.backboneKey eth hello.neighbor))) := by
  unfold helloChangedHandler at returned
  obtain ⟨current, found, changes⟩ := bind_eq_ok.mp returned
  have same : current = hello :=
    Option.some.inj ((deref_eq_ok.mp found).symm.trans allocated)
  subst same
  have clock :
      Originates before before.readClock before.stored noSpread :=
    .session rfl rfl rfl (List.append_nil _).symm fun _ => rfl
  have sameHello : before.readClock.helloMaster eth = some current := allocated
  have sameState :
      before.readClock.storedState (before.readClock.zoneOf eth)
          (before.helloBase eth current.neighbor).key =
        before.storedState (before.zoneOf eth)
          (before.backboneKey eth current.neighbor) :=
    rfl
  cases type with
  | high =>
      have advertises := advertises_helloHighChanged sameHello changes
      rw [sameState] at advertises
      exact .after_quiet clock advertises
  | low =>
      have advertises := advertises_helloLowChanged sameHello rfl changes
      rw [sameState] at advertises
      exact .after_quiet clock advertises

/--
The detection of one neighbour on an interface, with what is stored and spread
for the key of the link.
-/
structure Follows
    (neighbor : LsdNeighborInfo)
    (eth : EthId)
    (hello : HelloMaster)
    (icm : Icm) : Prop where
  allocated : icm.helloMaster eth = some hello
  heard :
    hello.highStatus = .connected ∨ hello.lowStatus = .connected →
    hello.neighbor = neighbor
  absent :
    icm.stored (icm.zoneOf eth) (icm.backboneKey eth neighbor) = none →
    hello.highStatus = .disconnected ∧ hello.lowStatus = .disconnected
  present :
    ∀ link,
      icm.stored (icm.zoneOf eth) (icm.backboneKey eth neighbor) = some link →
      link.state = detectionBits hello.highStatus hello.lowStatus ∧
        (icm.lastSpread (icm.zoneOf eth)
          (icm.backboneKey eth neighbor)).map LinkStateAdv.state =
            some link.state

namespace Follows

variable {neighbor : LsdNeighborInfo} {eth : EthId} {hello : HelloMaster}
  {icm : Icm}

/-- The stored state is the two statuses, also while nothing is stored. -/
theorem storedState
    (follows : Follows neighbor eth hello icm) :
    icm.storedState (icm.zoneOf eth) (icm.backboneKey eth neighbor) =
      detectionBits hello.highStatus hello.lowStatus := by
  unfold Icm.storedState
  cases found : icm.stored (icm.zoneOf eth) (icm.backboneKey eth neighbor) with
  | none =>
      obtain ⟨high, low⟩ := follows.absent found
      rw [high, low]
      rfl
  | some link =>
      exact (follows.present link found).1

/-- Timers and the neighbour of a hello master are not advertised. -/
theorem rewrite
    {after : Icm}
    {next : HelloMaster}
    (follows : Follows neighbor eth hello icm)
    (router : after.router = icm.router)
    (lsdb : after.lsdb = icm.lsdb)
    (trace : after.trace = icm.trace)
    (written : after.helloMaster eth = some next)
    (high : next.highStatus = hello.highStatus)
    (low : next.lowStatus = hello.lowStatus)
    (sameNeighbor : next.neighbor = hello.neighbor) :
    Follows neighbor eth next after := by
  obtain ⟨sameZone, sameKey⟩ := backboneKey_congr router eth neighbor
  have stored : after.stored = icm.stored := by
    unfold Icm.stored
    rw [lsdb]
  have spread :
      after.lastSpread = icm.lastSpread := by
    unfold lastSpread spreads
    rw [trace]
  constructor
  · exact written
  · rw [high, low, sameNeighbor]
    exact follows.heard
  · rw [stored, sameZone, sameKey, high, low]
    exact follows.absent
  · rw [stored, sameZone, sameKey, high, low, spread]
    exact follows.present

/-- A change of one priority is stored and spread. -/
theorem changed
    {middle after : Icm}
    {next : HelloMaster}
    {type : PriorityType}
    {status : LsdStatus}
    (follows : Follows neighbor eth hello icm)
    (returned : middle.helloChangedHandler eth type status = .ok after)
    (router : middle.router = icm.router)
    (lsdb : middle.lsdb = icm.lsdb)
    (written : middle.helloMaster eth = some next)
    (sameNeighbor : next.neighbor = neighbor)
    (bits :
      changeBit type status
          (detectionBits hello.highStatus hello.lowStatus) =
        detectionBits next.highStatus next.lowStatus) :
    Follows neighbor eth next after := by
  have advertises := advertises_helloChangedHandler written returned
  rw [sameNeighbor] at advertises
  obtain ⟨startZone, startKey⟩ := backboneKey_congr router eth neighbor
  obtain ⟨sameZone, sameKey⟩ :=
    backboneKey_congr advertises.router eth neighbor
  have state :
      middle.storedState (middle.zoneOf eth) (middle.backboneKey eth neighbor) =
        detectionBits hello.highStatus hello.lowStatus := by
    rw [← follows.storedState, startZone, startKey]
    unfold Icm.storedState Icm.stored
    rw [lsdb]
  rw [state, bits] at advertises
  obtain ⟨link, stored, sameState⟩ := advertises.stored
  constructor
  · rw [advertises.hello]
    exact written
  · intro _
    exact sameNeighbor
  · rw [sameZone, sameKey, stored]
    intro isNone
    cases isNone
  · rw [sameZone, sameKey, stored]
    rintro _ ⟨⟩
    exact ⟨sameState, advertises.lastSpread.trans (congrArg some sameState.symm)⟩

end Follows

/-- What the detection on one interface reacts to. -/
inductive Detection where
  /-- A high hello packet arrives. -/
  | high (head : LsdHead)
  /-- A low hello packet arrives. -/
  | low (head : LsdHead)
  /-- The dead timer of the high priority expires. -/
  | deadHigh (id : ThreadId)
  /-- The dead timer of the low priority expires. -/
  | deadLow (id : ThreadId)

/-- The reaction; an expired timer leaves the scheduler before it is called. -/
def detect (eth : EthId) (icm : Icm) : Detection → Except Fault Icm
  | .high head => icm.helloOnHighPacketReceived eth head
  | .low head => icm.helloOnLowPacketReceived eth head
  | .deadHigh id => (icm.fetch id).deadTimerHigh eth
  | .deadLow id => (icm.fetch id).deadTimerLow eth

/-- Hello packets come from one neighbour, and only pending timers expire. -/
def Detection.FromNeighbor
    (eth : EthId) (neighbor : LsdNeighborInfo) (icm : Icm) : Detection → Prop
  | .high head => head.rId = neighbor.rtId ∧ head.ifId = neighbor.ifId
  | .low head => head.rId = neighbor.rtId ∧ head.ifId = neighbor.ifId
  | .deadHigh id => id ∈ icm.master.pendingOf .deadTimerHigh (.backbone eth)
  | .deadLow id => id ∈ icm.master.pendingOf .deadTimerLow (.backbone eth)

/-- The detection of one neighbour on an interface. -/
def detectionStep (eth : EthId) (neighbor : LsdNeighborInfo) :
    Icm → Detection → Icm → Prop :=
  guarded (Detection.FromNeighbor eth neighbor) (ofPartial (detect eth))

/-- One reaction keeps the advertised state and the statuses together. -/
theorem Follows.detect
    {neighbor : LsdNeighborInfo}
    {eth : EthId}
    {before after : Icm}
    {label : Detection}
    (follows : ∃ hello, Follows neighbor eth hello before)
    (stepped : detectionStep eth neighbor before label after) :
    ∃ hello, Follows neighbor eth hello after := by
  obtain ⟨hello, follows⟩ := follows
  obtain ⟨fromNeighbor, returned⟩ := stepped
  have isHello :
      ∀ {current : HelloMaster},
        Pma.deref (before.helloMaster eth) = .ok current → current = hello :=
    fun found =>
      Option.some.inj ((deref_eq_ok.mp found).symm.trans follows.allocated)
  cases label with
  | high head =>
      unfold ofPartial Icm.detect helloOnHighPacketReceived at returned
      obtain ⟨current, found, rest⟩ := bind_eq_ok.mp returned
      cases isHello found
      dsimp only at rest
      split at rest
      · cases rest
        exact ⟨_, follows.rewrite rfl rfl rfl
          (Function.update_self _ _ _) rfl rfl rfl⟩
      · next disconnected =>
          refine ⟨_, follows.changed rest rfl rfl
            (Function.update_self _ _ _) ?_ ?_⟩
          · rw [fromNeighbor.1, fromNeighbor.2]
          · exact changeBit_high _ _ _
  | low head =>
      unfold ofPartial Icm.detect helloOnLowPacketReceived at returned
      obtain ⟨current, found, rest⟩ := bind_eq_ok.mp returned
      cases isHello found
      dsimp only at rest
      split at rest
      · cases rest
        exact ⟨_, follows.rewrite rfl rfl rfl
          (Function.update_self _ _ _) rfl rfl rfl⟩
      · next disconnected =>
          refine ⟨_, follows.changed rest rfl rfl
            (Function.update_self _ _ _) ?_ ?_⟩
          · rw [fromNeighbor.1, fromNeighbor.2]
          · exact changeBit_low _ _ _
  | deadHigh id =>
      unfold ofPartial Icm.detect deadTimerHigh at returned
      obtain ⟨current, found, rest⟩ := bind_eq_ok.mp returned
      cases isHello found
      obtain ⟨_, connected, changes⟩ := bind_eq_ok.mp rest
      have isConnected : hello.highStatus = .connected := by
        simpa using assertAt_eq_ok.mp connected
      refine ⟨_, follows.changed changes rfl rfl (Function.update_self _ _ _)
        (follows.heard (.inl isConnected)) ?_⟩
      exact changeBit_high _ _ _
  | deadLow id =>
      unfold ofPartial Icm.detect deadTimerLow at returned
      obtain ⟨current, found, rest⟩ := bind_eq_ok.mp returned
      cases isHello found
      obtain ⟨_, connected, changes⟩ := bind_eq_ok.mp rest
      have isConnected : hello.lowStatus = .connected := by
        simpa using assertAt_eq_ok.mp connected
      refine ⟨_, follows.changed changes rfl rfl (Function.update_self _ _ _)
        (follows.heard (.inr isConnected)) ?_⟩
      exact changeBit_low _ _ _

/--
After every reaction of a run that starts disconnected and without an entry,
an entry of the link has the two statuses as its state, and so has the
advertisement of the link that was spread last.
-/
theorem advertised_bits_follow_detection
    {start icm : Icm}
    {eth : EthId}
    {neighbor : LsdNeighborInfo}
    {idle : HelloMaster}
    {labels : List Detection}
    (allocated : start.helloMaster eth = some idle)
    (highIdle : idle.highStatus = .disconnected)
    (lowIdle : idle.lowStatus = .disconnected)
    (absent :
      start.stored (start.zoneOf eth) (start.backboneKey eth neighbor) = none)
    (run : Run (detectionStep eth neighbor) start labels icm) :
    ∃ hello,
      icm.helloMaster eth = some hello ∧
        ∀ link,
          icm.stored (icm.zoneOf eth) (icm.backboneKey eth neighbor) =
              some link →
          link.state = detectionBits hello.highStatus hello.lowStatus ∧
            (icm.lastSpread (icm.zoneOf eth)
              (icm.backboneKey eth neighbor)).map LinkStateAdv.state =
                some link.state := by
  have started : Follows neighbor eth idle start := by
    refine
      { allocated := allocated
        heard := ?_
        absent := fun _ => ⟨highIdle, lowIdle⟩
        present := ?_ }
    · rw [highIdle, lowIdle]
      rintro (isConnected | isConnected)
      · cases isConnected
      · cases isConnected
    · rw [absent]
      intro link stored
      cases stored
  obtain ⟨hello, follows⟩ := run.invariant
    (fun state => ∃ hello, Follows neighbor eth hello state)
    Follows.detect ⟨idle, started⟩
  exact ⟨hello, follows.allocated, follows.present⟩

/-- The low priority connects, then the high one: both bits are advertised. -/
theorem advertised_bits_follow_detection_connect :
    ∃ final hello link,
      Run (detectionStep 0 ⟨2, 7⟩) (idleDaemon 10 1 2)
          [.low (helloFrom 2 7).head, .high (helloFrom 2 7).head] final ∧
        final.helloMaster 0 = some hello ∧
        final.stored 0 idleKey = some link ∧
        link.state = 3 ∧
        link.state = detectionBits hello.highStatus hello.lowStatus := by
  have runs :
      ∃ final link,
        Run (detectionStep 0 ⟨2, 7⟩) (idleDaemon 10 1 2)
            [.low (helloFrom 2 7).head, .high (helloFrom 2 7).head] final ∧
          final.stored (final.zoneOf 0) (final.backboneKey 0 ⟨2, 7⟩) =
            some link ∧
          final.stored 0 idleKey = some link ∧
          link.state = 3 :=
    ⟨_, _, .cons ⟨⟨rfl, rfl⟩, rfl⟩ (.cons ⟨⟨rfl, rfl⟩, rfl⟩ (.nil _)),
      rfl, rfl, rfl⟩
  obtain ⟨final, link, run, stored, listed, state⟩ := runs
  obtain ⟨hello, allocated, follows⟩ :=
    advertised_bits_follow_detection rfl rfl rfl rfl run
  exact ⟨final, hello, link, run, allocated, listed, state,
    (follows link stored).1⟩

end Icm

end Pma
