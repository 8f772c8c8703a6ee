import Pma.LsdMirror
import Pma.LsdWire

namespace Pma

open Transition

/-!
# Dispatching a datagram

`lsd_receive` finds the interface a datagram belongs to from the area and the
router id in its head: the first interface on the list of the area whose
neighbour has that id.  The interface id that `lsd_send` stamps is not looked
at, so the datagrams of parallel links all end at the interface listed first.
-/

namespace Icm

/-- The interface `lsd_receive` hands a datagram to, if it hands it to one. -/
def receivingEth (icm : Icm) (datagram : Datagram) : Option EthId :=
  match icm.getAutonomousZoneById datagram.head.areaId with
  | none => none
  | some zone =>
      match icm.getBackboneByNeighborId zone datagram.head.rId with
      | none => none
      | some eth =>
          if (icm.router.eth eth).state = .down ∨
              datagram.head.version ≠ lsdVersion ∨
              datagram.head.icsum ≠ lsdChecksum then
            none
          else
            some eth

/--
An interface of one router and the interface of the other router at the far end
of the same link, in one area, each with the other router as its neighbour.
-/
structure Linked
    (sender receiver : Icm)
    (near far : EthId) : Prop where
  area :
    receiver.zoneOf far ∈ receiver.router.azs
  listed :
    far ∈ (receiver.router.zone (receiver.zoneOf far)).backbones
  sameArea :
    sender.areaIdOf near = receiver.areaIdOf far
  nearNeighbor :
    (sender.router.eth near).neighborPma.deviceId =
      (receiver.router.zone (receiver.zoneOf far)).deviceId
  farNeighbor :
    (receiver.router.eth far).neighborPma.deviceId =
      (sender.router.zone (sender.zoneOf near)).deviceId

/-- `lsd_send` hands a datagram of an interface to the socket. -/
def Emits (icm : Icm) (eth : EthId) (datagram : Datagram) : Prop :=
  ∃ body, (icm.lsdSend eth body).trace = icm.trace ++ [.lsdSend eth datagram]

/--
An interface is up, and none before it on the list of its area has the same
neighbour.
-/
def FirstTowards (icm : Icm) (eth : EthId) : Prop :=
  (icm.router.eth eth).state = .up ∧
    ∃ earlier later,
      (icm.router.zone (icm.zoneOf eth)).backbones = earlier ++ eth :: later ∧
        ∀ other ∈ earlier,
          (icm.router.eth other).neighborPma.deviceId ≠
            (icm.router.eth eth).neighborPma.deviceId

/-- A datagram carries the ids of the interface it was sent through. -/
theorem Emits.head
    {icm : Icm}
    {eth : EthId}
    {datagram : Datagram}
    (emitted : icm.Emits eth datagram) :
    datagram.head.areaId = icm.areaIdOf eth ∧
      datagram.head.rId = (icm.router.zone (icm.zoneOf eth)).deviceId ∧
      datagram.head.version = lsdVersion ∧
      datagram.head.icsum = lsdChecksum := by
  obtain ⟨body, sent⟩ := emitted
  rw [lsdSend_eq] at sent
  have recorded : icm.sentCalls eth (some body) = [.lsdSend eth datagram] :=
    List.append_cancel_left sent
  unfold sentCalls at recorded
  dsimp only at recorded
  split at recorded
  · cases recorded
  · split at recorded
    · cases recorded
    · cases recorded
    · next isBody _ =>
        have same := (List.cons.inj recorded).1
        cases same
        exact ⟨rfl, rfl, rfl, rfl⟩

/-- Distinct areas are found by their id. -/
theorem AreasDistinct.find
    {icm : Icm}
    {zone : ZoneId}
    (distinct : icm.AreasDistinct)
    (member : zone ∈ icm.router.azs) :
    icm.getAutonomousZoneById (icm.router.zone zone).azId = some zone := by
  unfold getAutonomousZoneById
  cases found :
      icm.router.azs.find? fun other =>
        (icm.router.zone other).azId = (icm.router.zone zone).azId with
  | none =>
      have absent := List.find?_eq_none.mp found zone member
      simp at absent
  | some other =>
      have sameArea := List.find?_some found
      rw [decide_eq_true_eq] at sameArea
      rw [distinct.areasUnique other (List.mem_of_find?_eq_some found)
        zone member sameArea]

/--
A datagram sent through one end of a link is handed to the other end exactly
when that end is up and is listed before every other interface towards the
sending router.
-/
theorem received_on_same_link_iff
    {clock : Nat → Timeval}
    {stack : CrLsdbLinkState}
    {table : LocalRouter}
    {events : List Event}
    {sender receiver : Icm}
    {near far : EthId}
    {datagram : Datagram}
    (run : Run (ofPartial step) (boot clock stack table) events receiver)
    (linked : Linked sender receiver near far)
    (emitted : sender.Emits near datagram) :
    receiver.receivingEth datagram = some far ↔ receiver.FirstTowards far := by
  obtain ⟨areaId, rId, version, icsum⟩ := emitted.head
  have zoneFound := (areasDistinct_of_run run).find linked.area
  unfold receivingEth
  rw [areaId, linked.sameArea, areaIdOf, zoneFound, rId, ← linked.farNeighbor]
  dsimp only
  unfold getBackboneByNeighborId FirstTowards
  constructor
  · intro dispatched
    split at dispatched
    · cases dispatched
    · next eth found =>
        split at dispatched
        · cases dispatched
        · next accepted =>
            cases dispatched
            obtain ⟨-, earlier, later, shape, before⟩ :=
              List.find?_eq_some_iff_append.mp found
            refine ⟨?_, earlier, later, shape, ?_⟩
            · cases state : (receiver.router.eth far).state with
              | up =>
                  rfl
              | down =>
                  exact absurd (.inl state) accepted
            · intro other member same
              have different := before other member
              simp [same] at different
  · rintro ⟨isUp, earlier, later, shape, before⟩
    have found :
        ((receiver.router.zone (receiver.zoneOf far)).backbones.find? fun eth =>
          (receiver.router.eth eth).neighborPma.deviceId =
            (receiver.router.eth far).neighborPma.deviceId) = some far := by
      refine List.find?_eq_some_iff_append.mpr
        ⟨by simp, earlier, later, shape, ?_⟩
      intro other member
      simpa using before other member
    rw [found]
    simp [isUp, version, icsum]

/-- A daemon that is yet to mirror an interface table, under a stopped clock. -/
def unmirrored (table : LocalRouter) : Icm :=
  boot (fun _ => ⟨0, 0⟩) (lsaToLsdbInfo zeroAdv ⟨0, 0⟩) table

/-- The daemon after it mirrored the table. -/
def mirroring (table : LocalRouter) : Icm :=
  (step (unmirrored table) (.interfaces table)).toOption.getD (unmirrored table)

/-- Two routers with one link between them. -/
theorem received_on_same_link_single :
    ∃ sender receiver datagram,
      Linked sender receiver 0 0 ∧
        sender.Emits 0 datagram ∧
        receiver.receivingEth datagram = some 0 := by
  have run :
      Run (ofPartial step) (unmirrored (oneLinkTable 20 2 1))
        [.interfaces (oneLinkTable 20 2 1)] (mirroring (oneLinkTable 20 2 1)) :=
    .cons rfl (.nil _)
  have linked :
      Linked (mirroring (oneLinkTable 10 1 2)) (mirroring (oneLinkTable 20 2 1))
        0 0 :=
    ⟨List.mem_cons_self, List.mem_cons_self, rfl, rfl, rfl⟩
  have emitted :
      (mirroring (oneLinkTable 10 1 2)).Emits 0
        ((mirroring (oneLinkTable 10 1 2)).datagramOf 0 (.helloHigh 100000 400000)) :=
    ⟨.helloHigh 100000 400000, rfl⟩
  have first : (mirroring (oneLinkTable 20 2 1)).FirstTowards 0 := by
    refine ⟨rfl, [], [], rfl, ?_⟩
    intro other member
    cases member
  exact ⟨_, _, _, linked, emitted,
    (received_on_same_link_iff run linked emitted).mpr first⟩

/-- An interface table with two backbone interfaces towards one neighbour. -/
def parallelTable (routerid agentid neighbor : UInt32) : LocalRouter :=
  { oneLinkTable routerid agentid neighbor with
    iflist := [0, 1]
    iface := fun id =>
      { (oneLinkTable routerid agentid neighbor).iface id with
        ctlId := if id = 0 then 7 else 8 } }

/--
Two routers with two links between them: what is sent through the first link is
handed to the interface of the second, with the interface id of the first in
its head.
-/
theorem parallel_link_misdelivers :
    ∃ sender receiver datagram,
      Run (ofPartial step) (unmirrored (parallelTable 10 1 2))
          [.interfaces (parallelTable 10 1 2)] sender ∧
        Run (ofPartial step) (unmirrored (parallelTable 20 2 1))
          [.interfaces (parallelTable 20 2 1)] receiver ∧
        Linked sender receiver 0 0 ∧
        Linked sender receiver 1 1 ∧
        sender.Emits 0 datagram ∧
        receiver.receivingEth datagram = some 1 :=
  ⟨mirroring (parallelTable 10 1 2), mirroring (parallelTable 20 2 1),
    (mirroring (parallelTable 10 1 2)).datagramOf 0 (.helloHigh 100000 400000),
    .cons rfl (.nil _), .cons rfl (.nil _),
    ⟨List.mem_cons_self, List.mem_cons_of_mem _ List.mem_cons_self,
      by decide, by decide, by decide⟩,
    ⟨List.mem_cons_self, List.mem_cons_self,
      by decide, by decide, by decide⟩,
    ⟨.helloHigh 100000 400000, rfl⟩, by decide⟩

end Icm

end Pma
