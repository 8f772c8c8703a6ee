import Mathlib.Algebra.BigOperators.Fin
import Pma.LsdAdjacency
import Pma.LsdEffect

namespace Pma

open Transition

/-!
# The routers of an area

The routers of one area, joined by their backbone interfaces, spread a link
state: a router that learns of it stores it and forwards it on its other
interfaces, and one that knows better answers.  What is queued on an interface
is in flight to the router at its other end, and deliveries happen in any order.
-/

namespace Icm

/-- The advertisement a recorded call put on a queue, and the interface. -/
def queueRecord : Call → Option (EthId × LinkStateAdv)
  | .floodQueued eth lsa => some (eth, lsa)
  | _ => none

/-- Everything that was ever put on a flood queue, oldest first. -/
def queued (icm : Icm) : List (EthId × LinkStateAdv) :=
  icm.trace.filterMap queueRecord

/-- The advertisement a recorded call of `flood_lsa_forward` forwards. -/
def forwardRecord : Call → Option LinkStateAdv
  | .floodLsaForward _ lsa => some lsa
  | _ => none

/-- Everything `flood_lsa_forward` was ever called with, oldest first. -/
def forwards (icm : Icm) : List LinkStateAdv :=
  icm.trace.filterMap forwardRecord

theorem queueRecord_queuedCalls
    (icm : Icm)
    (eths : List EthId)
    (lsa : LinkStateAdv) :
    (icm.queuedCalls eths lsa).filterMap queueRecord =
      (eths.filter icm.live).map fun eth => (eth, lsa) := by
  unfold queuedCalls
  rw [List.filterMap_map]
  exact congrFun List.filterMap_eq_map _

/-- What `accept_lsa_into_lsdb` puts on the queues. -/
def acceptedQueue (icm : Icm) (eth : EthId) (lsa : LinkStateAdv) :
    List (EthId × LinkStateAdv) :=
  match icm.reaction eth lsa with
  | .drop => []
  | .reply link =>
      ([eth].filter icm.live).map fun other => (other, lsdbToLsaInfo link)
  | .store => ((icm.forwardEths eth).filter icm.live).map fun other => (other, lsa)

/-- What is queued is the advertisement itself or the entry stored for its key. -/
theorem mem_acceptedQueue
    {icm : Icm}
    {eth : EthId}
    {lsa : LinkStateAdv}
    {record : EthId × LinkStateAdv}
    (member : record ∈ icm.acceptedQueue eth lsa) :
    record.2 = lsa ∨
      ∃ link,
        icm.stored (icm.zoneOf eth) lsa.key = some link ∧
          record.2 = lsdbToLsaInfo link := by
  unfold acceptedQueue at member
  cases reacts : icm.reaction eth lsa with
  | drop =>
      rw [reacts] at member
      cases member
  | reply link =>
      rw [reacts] at member
      obtain ⟨other, -, rfl⟩ := List.mem_map.mp member
      exact .inr ⟨link, (reaction_eq_reply.mp reacts).1, rfl⟩
  | store =>
      rw [reacts] at member
      obtain ⟨other, -, rfl⟩ := List.mem_map.mp member
      exact .inl rfl

section Accepted

variable {icm after : Icm} {eth : EthId} {lsa : LinkStateAdv}

/-- `accept_lsa_into_lsdb` lengthens the queues by what it answers or forwards. -/
theorem acceptLsaIntoLsdb_queued
    (returned : icm.acceptLsaIntoLsdb eth lsa = .ok after) :
    after.queued = icm.queued ++ icm.acceptedQueue eth lsa := by
  unfold queued
  rw [(acceptLsaIntoLsdb_effect returned).trace, List.filterMap_append]
  congr 1
  unfold acceptedCalls acceptedQueue
  cases icm.reaction eth lsa <;>
    simp only [List.filterMap_cons, queueRecord, List.filterMap_nil,
      queueRecord_queuedCalls]

/-- `accept_lsa_into_lsdb` forwards exactly what it stores. -/
theorem acceptLsaIntoLsdb_forwards
    (returned : icm.acceptLsaIntoLsdb eth lsa = .ok after) :
    after.forwards =
      icm.forwards ++ if icm.reaction eth lsa = .store then [lsa] else [] := by
  unfold forwards
  rw [(acceptLsaIntoLsdb_effect returned).trace, List.filterMap_append]
  congr 1
  unfold acceptedCalls
  cases icm.reaction eth lsa <;>
    simp only [List.filterMap_cons, forwardRecord, List.filterMap_nil,
      filterMap_queuedCalls forwardRecord fun _ _ => rfl, reduceCtorEq, if_true,
      if_false]

end Accepted

/--
The reaction of a router with a fresh entry compares numbers only, unless it
takes the key for its own and hears of a greater number.
-/
theorem reaction_of_fresh
    {icm : Icm}
    {eth : EthId}
    {lsa : LinkStateAdv}
    {link : CrLsdbLinkState}
    (found : icm.stored (icm.zoneOf eth) lsa.key = some link)
    (fresh : isOutOfDate icm.nextReading link = false)
    (newest : icm.isLocal eth lsa.key = true → lsa.seq ≤ link.seq) :
    icm.reaction eth lsa =
      if link.seq < lsa.seq then .store
      else if lsa.seq < link.seq then .reply link
      else .drop := by
  unfold reaction
  rw [found]
  cases own : icm.isLocal eth lsa.key with
  | false =>
      simp [fresh]
  | true =>
      have notGreater : ¬ link.seq < lsa.seq := UInt32.not_lt.mpr (newest own)
      by_cases same : link.seq = lsa.seq
      · simp [same]
      · have less : lsa.seq < link.seq :=
          UInt32.lt_of_le_of_ne (newest own) (Ne.symm same)
        simp [same, notGreater, less]

/-- `flood_lsa_spread` queues the advertisement on every live interface of the area. -/
theorem floodLsaSpread_queued
    (icm : Icm)
    (lsa : LinkStateAdv)
    (zone : ZoneId) :
    (icm.floodLsaSpread lsa zone).queued =
      icm.queued ++
        (((icm.router.zone zone).backbones.filter icm.live).map
          fun eth => (eth, lsa)) := by
  unfold queued
  rw [(Effect.floodLsaSpread icm lsa zone).trace, List.filterMap_append]
  simp only [List.filterMap_cons, queueRecord, queueRecord_queuedCalls]

end Icm

/--
The routers of one area: the database each has for it, the interface at the
other end of every backbone interface, and the advertisements on their way to
an interface.
-/
structure AreaNet (V : Type) where
  router : V → Icm
  zone : V → ZoneId
  peer : V × EthId → V × EthId
  inFlight : List ((V × EthId) × LinkStateAdv)

namespace AreaNet

open Icm

variable {V : Type}

/-- The backbone interfaces of a router in the area. -/
def backbones (net : AreaNet V) (v : V) : List EthId :=
  ((net.router v).router.zone (net.zone v)).backbones

/-- The router id `check_local_lsdb` compares with. -/
def rId (net : AreaNet V) (v : V) : UInt32 :=
  ((net.router v).router.zone (net.zone v)).rId

/-- The entry a router stores for a key. -/
def entry (net : AreaNet V) (v : V) (key : LinkStateKey) :
    Option CrLsdbLinkState :=
  (net.router v).stored (net.zone v) key

/-- What a step of a router puts in flight: everything it queued. -/
def launched (net : AreaNet V) (v : V) (before after : Icm) :
    List ((V × EthId) × LinkStateAdv) :=
  (after.queued.drop before.queued.length).map
    fun record => (net.peer (v, record.1), record.2)

/-- A link of the area leads from one router to the other. -/
def Adjacent (net : AreaNet V) (v w : V) : Prop :=
  ∃ eth ∈ net.backbones v, (net.peer (v, eth)).1 = w

/--
The interfaces form a connected graph, every interface is mirrored in the area,
and no flood master is terminated.
-/
structure Wired (net : AreaNet V) : Prop where
  home : ∀ v, ∀ eth ∈ net.backbones v, (net.router v).zoneOf eth = net.zone v
  peer_mem :
    ∀ v, ∀ eth ∈ net.backbones v,
      (net.peer (v, eth)).2 ∈ net.backbones (net.peer (v, eth)).1
  peer_peer :
    ∀ v, ∀ eth ∈ net.backbones v, net.peer (net.peer (v, eth)) = (v, eth)
  live : ∀ v, ∀ eth ∈ net.backbones v, (net.router v).live eth = true
  connected : ∀ v w, Relation.ReflTransGen net.Adjacent v w

/-- The clocks stand still, and no entry of the key is out of date. -/
structure Frozen (net : AreaNet V) (key : LinkStateKey) : Prop where
  still : ∀ v reading, (net.router v).clock reading = (net.router v).clock 0
  fresh :
    ∀ v link, net.entry v key = some link →
      isOutOfDate ((net.router v).clock 0) link = false

/--
A router has just spread an advertisement on all its links; it stores it, every
other router has a lower number or none, and nothing else is in flight.
-/
structure Spread (net : AreaNet V) (origin : V) (lsa : LinkStateAdv) : Prop where
  held : ∃ link, net.entry origin lsa.key = some link ∧ lsdbToLsaInfo link = lsa
  older :
    ∀ v, v ≠ origin → ∀ link, net.entry v lsa.key = some link → link.seq < lsa.seq
  spread :
    ∃ before : Icm,
      net.router origin = before.floodLsaSpread lsa (net.zone origin) ∧
        net.inFlight = net.launched origin before (net.router origin)

/-- The delivery of an advertisement to an interface, maybe with a duplicate left. -/
structure Delivery (V : Type) where
  port : V × EthId
  lsa : LinkStateAdv
  duplicate : Bool

/-- How many deliveries leave a duplicate in flight. -/
def duplicates (deliveries : List (Delivery V)) : Nat :=
  deliveries.countP (·.duplicate)

section Deliver

variable [DecidableEq V]

/-- The area after a router accepted an advertisement. -/
def delivered
    (net : AreaNet V)
    (delivery : Delivery V)
    (remaining : List ((V × EthId) × LinkStateAdv))
    (after : Icm) :
    AreaNet V where
  router := Function.update net.router delivery.port.1 after
  zone := net.zone
  peer := net.peer
  inFlight :=
    remaining ++
      net.launched delivery.port.1 (net.router delivery.port.1) after

/--
One delivery: the receiver runs `accept_lsa_into_lsdb`, and what it queues is in
flight then.
-/
def Deliver (net : AreaNet V) (delivery : Delivery V) (next : AreaNet V) : Prop :=
  ∃ earlier later after,
    net.inFlight = earlier ++ (delivery.port, delivery.lsa) :: later ∧
      (net.router delivery.port.1).acceptLsaIntoLsdb delivery.port.2
          delivery.lsa = .ok after ∧
      next =
        net.delivered delivery
          (if delivery.duplicate then net.inFlight else earlier ++ later) after

variable [Fintype V]

/-- How many advertisements the routers of the area ever queued. -/
def enqueued (net : AreaNet V) : Nat :=
  ∑ v, (net.router v).queued.length

/--
The area converges on what was spread: however often deliveries are
duplicated, there is a bound on what is queued; no router forwards a number of
the key twice; and when nothing is in flight, every router stores it.
-/
structure Converges (net : AreaNet V) (lsa : LinkStateAdv) : Prop where
  bounded :
    ∀ limit, ∃ bound, ∀ deliveries final,
      Run Deliver net deliveries final →
      duplicates deliveries ≤ limit →
      final.enqueued ≤ bound
  once :
    ∀ deliveries final,
      Run Deliver net deliveries final →
      ∀ v, ∃ recent,
        (final.router v).forwards = (net.router v).forwards ++ recent ∧
          (recent.map fun forwarded => (forwarded.key, forwarded.seq)).Nodup
  settled :
    ∀ deliveries final,
      Run Deliver net deliveries final →
      final.inFlight = [] →
      ∀ v, ∃ link,
        final.entry v lsa.key = some link ∧ lsdbToLsaInfo link = lsa

end Deliver

/-! ## What deliveries keep -/

/-- The second area has the wiring and the clocks of the first. -/
structure Keeps (start net : AreaNet V) : Prop where
  zone : net.zone = start.zone
  peer : net.peer = start.peer
  router : ∀ v, (net.router v).router = (start.router v).router
  live : ∀ v, (net.router v).live = (start.router v).live
  clock : ∀ v, (net.router v).clock = (start.router v).clock

namespace Keeps

variable {start net next : AreaNet V}

theorem refl
    (net : AreaNet V) :
    Keeps net net where
  zone := rfl
  peer := rfl
  router := fun _ => rfl
  live := fun _ => rfl
  clock := fun _ => rfl

theorem trans
    (earlier : Keeps start net)
    (later : Keeps net next) :
    Keeps start next where
  zone := later.zone.trans earlier.zone
  peer := later.peer.trans earlier.peer
  router := fun v => (later.router v).trans (earlier.router v)
  live := fun v => (later.live v).trans (earlier.live v)
  clock := fun v => (later.clock v).trans (earlier.clock v)

theorem backbones
    (keeps : Keeps start net)
    (v : V) :
    net.backbones v = start.backbones v := by
  unfold AreaNet.backbones
  rw [keeps.zone, keeps.router]

theorem rId
    (keeps : Keeps start net)
    (v : V) :
    net.rId v = start.rId v := by
  unfold AreaNet.rId
  rw [keeps.zone, keeps.router]

/-- The wiring is kept whole. -/
theorem wired
    (keeps : Keeps start net)
    (wired : start.Wired) :
    net.Wired := by
  have sameBackbones : net.backbones = start.backbones := funext keeps.backbones
  have sameLinks : net.Adjacent = start.Adjacent := by
    unfold Adjacent
    rw [sameBackbones, keeps.peer]
  refine
    { home := ?_
      peer_mem := ?_
      peer_peer := ?_
      live := ?_
      connected := ?_ }
  · intro v eth listed
    unfold zoneOf
    rw [keeps.router, keeps.zone]
    rw [sameBackbones] at listed
    exact wired.home v eth listed
  · rw [sameBackbones, keeps.peer]
    exact wired.peer_mem
  · rw [sameBackbones, keeps.peer]
    exact wired.peer_peer
  · intro v eth listed
    rw [keeps.live]
    rw [sameBackbones] at listed
    exact wired.live v eth listed
  · rw [sameLinks]
    exact wired.connected

end Keeps

/-- What the receiver of a delivery puts in flight. -/
def answer (net : AreaNet V) (delivery : Delivery V) :
    List ((V × EthId) × LinkStateAdv) :=
  ((net.router delivery.port.1).acceptedQueue delivery.port.2 delivery.lsa).map
    fun record => (net.peer (delivery.port.1, record.1), record.2)

/-- What answers a delivery is the advertisement itself or what the receiver stores. -/
theorem mem_answer
    {net : AreaNet V}
    {delivery : Delivery V}
    {message : (V × EthId) × LinkStateAdv}
    (member : message ∈ net.answer delivery) :
    message.2 = delivery.lsa ∨
      ∃ link,
        (net.router delivery.port.1).stored
            ((net.router delivery.port.1).zoneOf delivery.port.2)
            delivery.lsa.key = some link ∧
          message.2 = lsdbToLsaInfo link := by
  obtain ⟨record, queued, rfl⟩ := List.mem_map.mp member
  exact mem_acceptedQueue queued

section Steps

variable [DecidableEq V]
  {net next : AreaNet V}
  {delivery : Delivery V}

/-- A delivery keeps the wiring and the clocks. -/
theorem Deliver.keeps
    (step : Deliver net delivery next) :
    Keeps net next := by
  obtain ⟨earlier, later, after, -, accepted, rfl⟩ := step
  have effect := acceptLsaIntoLsdb_effect accepted
  have others :
      ∀ {α : Type} (observe : Icm → α),
        observe after = observe (net.router delivery.port.1) →
        ∀ v,
          observe (Function.update net.router delivery.port.1 after v) =
            observe (net.router v) := by
    intro α observe same v
    by_cases receiver : v = delivery.port.1
    · rw [receiver, Function.update_self]
      exact same
    · rw [Function.update_of_ne receiver]
  exact
    { zone := rfl
      peer := rfl
      router := others Icm.router effect.router
      live := others Icm.live effect.live
      clock := others Icm.clock effect.clock }

/-- The delivered advertisement was in flight. -/
theorem Deliver.flies
    (step : Deliver net delivery next) :
    (delivery.port, delivery.lsa) ∈ net.inFlight := by
  obtain ⟨earlier, later, after, shape, -⟩ := step
  simp [shape]

/-- What is in flight after a delivery. -/
theorem Deliver.inFlight
    (step : Deliver net delivery next) :
    ∃ earlier later,
      net.inFlight = earlier ++ (delivery.port, delivery.lsa) :: later ∧
        next.inFlight =
          (if delivery.duplicate then net.inFlight else earlier ++ later) ++
            net.answer delivery := by
  obtain ⟨earlier, later, after, shape, accepted, rfl⟩ := step
  refine ⟨earlier, later, shape, ?_⟩
  unfold delivered launched answer
  rw [acceptLsaIntoLsdb_queued accepted, List.drop_left]

/-- An advertisement in flight after a delivery was so before, or answers it. -/
theorem Deliver.mem_inFlight
    {message : (V × EthId) × LinkStateAdv}
    (step : Deliver net delivery next)
    (flies : message ∈ next.inFlight) :
    message ∈ net.inFlight ∨ message ∈ net.answer delivery := by
  obtain ⟨earlier, later, shape, flying⟩ := step.inFlight
  rw [flying, List.mem_append] at flies
  refine flies.imp_left fun stays => ?_
  split at stays
  · exact stays
  · rw [shape]
    rw [List.mem_append] at stays ⊢
    exact stays.imp_right (List.mem_cons_of_mem _)

/-- Deliveries keep to the keys in flight. -/
theorem Deliver.keys
    {key : LinkStateKey}
    (step : Deliver net delivery next)
    (keys : ∀ message ∈ net.inFlight, message.2.key = key) :
    ∀ message ∈ next.inFlight, message.2.key = key := by
  intro message flies
  have sameKey : delivery.lsa.key = key := keys _ step.flies
  rcases step.mem_inFlight flies with stays | answers
  · exact keys message stays
  · rcases mem_answer answers with isLsa | ⟨link, found, isEntry⟩
    · rw [isLsa]
      exact sameKey
    · rw [isEntry]
      exact (Lsdb.key_of_find found).trans sameKey

/-- The entries of the receiver of a delivery. -/
theorem Deliver.entry_receiver
    (step : Deliver net delivery next)
    (home :
      (net.router delivery.port.1).zoneOf delivery.port.2 =
        net.zone delivery.port.1) :
    next.entry delivery.port.1 delivery.lsa.key =
      if (net.router delivery.port.1).reaction delivery.port.2 delivery.lsa =
          .store then
        some (lsaToLsdbInfo delivery.lsa (net.router delivery.port.1).now)
      else
        net.entry delivery.port.1 delivery.lsa.key := by
  obtain ⟨earlier, later, after, -, accepted, rfl⟩ := step
  unfold AreaNet.entry delivered
  dsimp only
  rw [Function.update_self, (acceptLsaIntoLsdb_effect accepted).stored]
  split
  · next stores =>
      rw [acceptedEntries_of_store stores, home]
      exact Entries.write_self _ _
        (lsaToLsdbInfo delivery.lsa (net.router delivery.port.1).now)
  · next keeps =>
      rw [acceptedEntries_of_ne keeps]

/-- The other routers keep their entries. -/
theorem Deliver.entry_of_ne
    {v : V}
    (step : Deliver net delivery next)
    (other : v ≠ delivery.port.1)
    (key : LinkStateKey) :
    next.entry v key = net.entry v key := by
  obtain ⟨earlier, later, after, -, -, rfl⟩ := step
  unfold AreaNet.entry delivered
  dsimp only
  rw [Function.update_of_ne other]

end Steps

end AreaNet

end Pma
