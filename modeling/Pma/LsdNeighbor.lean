import Pma.Loops
import Pma.LsdAdvertised

namespace Pma

open Transition

/-!
# The neighbour that both priorities share

A backbone interface has one neighbour record.  Either priority of the hello
detection overwrites it when it connects, and `hello_changed_handler` makes its
key of what the record holds when it is called.  So a priority disconnects the
link it connected exactly if no packet of another neighbour connected the other
priority meanwhile.
-/

/-- The status of a priority. -/
def HelloMaster.status (hello : HelloMaster) : PriorityType → LsdStatus
  | .high => hello.highStatus
  | .low => hello.lowStatus

namespace Icm

/-! ## The calls of the handler -/

/-- The memory when a high packet has connected. -/
def highConnected (icm : Icm) (eth : EthId) (hello : HelloMaster) (head : LsdHead) : Icm :=
  let stopped := icm.threadOff hello.deadTimerHigh
  (stopped.addTimer .deadTimerHigh (.backbone eth)).setHello eth
    { hello with
      deadTimerHigh := some stopped.master.threadGet
      highStatus := .connected
      neighbor := ⟨head.rId, head.ifId⟩ }

/-- The memory when a low packet has connected. -/
def lowConnected (icm : Icm) (eth : EthId) (hello : HelloMaster) (head : LsdHead) : Icm :=
  let stopped := icm.threadOff hello.deadTimerLow
  (stopped.addTimer .deadTimerLow (.backbone eth)).setHello eth
    { hello with
      deadTimerLow := some stopped.master.threadGet
      lowStatus := .connected
      neighbor := ⟨head.rId, head.ifId⟩ }

/-- The memory when the timer of the high priority has expired. -/
def highExpired (icm : Icm) (eth : EthId) (hello : HelloMaster) (id : ThreadId) : Icm :=
  (icm.fetch id).setHello eth
    { hello with
      deadTimerHigh := none
      highStatus := .disconnected }

/-- The memory when the timer of the low priority has expired. -/
def lowExpired (icm : Icm) (eth : EthId) (hello : HelloMaster) (id : ThreadId) : Icm :=
  (icm.fetch id).setHello eth
    { hello with
      deadTimerLow := none
      lowStatus := .disconnected }

/-- A call of `hello_changed_handler`, with the memory it is made in. -/
structure HandlerCall where
  memory : Icm
  type : PriorityType
  status : LsdStatus

/-- The call that a reaction makes, if it does not abort before. -/
def handlerCall (eth : EthId) (icm : Icm) (label : Detection) : Option HandlerCall :=
  (icm.helloMaster eth).bind fun hello =>
    match label with
    | .high head =>
        if hello.highStatus = .disconnected then
          some ⟨icm.highConnected eth hello head, .high, .connected⟩
        else
          none
    | .low head =>
        if hello.lowStatus = .disconnected then
          some ⟨icm.lowConnected eth hello head, .low, .connected⟩
        else
          none
    | .deadHigh id => some ⟨icm.highExpired eth hello id, .high, .disconnected⟩
    | .deadLow id => some ⟨icm.lowExpired eth hello id, .low, .disconnected⟩

/-- An event that `hello_changed_handler` is called for, with the key it uses. -/
structure Change where
  type : PriorityType
  status : LsdStatus
  key : LinkStateKey
  deriving DecidableEq, Repr

/-- The event of a call. -/
def HandlerCall.change (eth : EthId) (call : HandlerCall) : Option Change :=
  (call.memory.helloMaster eth).map fun hello =>
    ⟨call.type, call.status, (call.memory.helloBase eth hello.neighbor).key⟩

/-- The event of a reaction. -/
def changeOf (eth : EthId) (icm : Icm) (label : Detection) : Option Change :=
  (handlerCall eth icm label).bind (HandlerCall.change eth)

/-- What a reaction does is the call that it makes. -/
theorem detect_handlerCall
    {eth : EthId}
    {icm after : Icm}
    {label : Detection}
    {call : HandlerCall}
    (calls : handlerCall eth icm label = some call)
    (returned : detect eth icm label = .ok after) :
    call.memory.helloChangedHandler eth call.type call.status = .ok after := by
  obtain ⟨hello, allocated, called⟩ := Option.bind_eq_some_iff.mp calls
  have isHello :
      ∀ {current : HelloMaster},
        Pma.deref (icm.helloMaster eth) = .ok current → current = hello :=
    fun found => Option.some.inj ((deref_eq_ok.mp found).symm.trans allocated)
  cases label with
  | high head =>
      unfold detect helloOnHighPacketReceived at returned
      obtain ⟨current, found, rest⟩ := bind_eq_ok.mp returned
      cases isHello found
      dsimp only at called
      split at called
      · next disconnected =>
          cases called
          rw [disconnected] at rest
          exact rest
      · cases called
  | low head =>
      unfold detect helloOnLowPacketReceived at returned
      obtain ⟨current, found, rest⟩ := bind_eq_ok.mp returned
      cases isHello found
      dsimp only at called
      split at called
      · next disconnected =>
          cases called
          rw [disconnected] at rest
          exact rest
      · cases called
  | deadHigh id =>
      unfold detect deadTimerHigh at returned
      obtain ⟨current, found, rest⟩ := bind_eq_ok.mp returned
      obtain ⟨_, -, changes⟩ := bind_eq_ok.mp rest
      cases isHello found
      cases called
      exact changes
  | deadLow id =>
      unfold detect deadTimerLow at returned
      obtain ⟨current, found, rest⟩ := bind_eq_ok.mp returned
      obtain ⟨_, -, changes⟩ := bind_eq_ok.mp rest
      cases isHello found
      cases called
      exact changes

/-! ## Two priorities with a neighbour each -/

/--
Each connected event is remembered for its priority, and a disconnected one has
to come with the same key.
-/
def DisconnectsMatch :
    (PriorityType → Option LinkStateKey) → List Change → Prop
  | _, [] => True
  | connected, change :: rest =>
      match change.status with
      | .connected =>
          DisconnectsMatch
            (Function.update connected change.type (some change.key)) rest
      | .disconnected =>
          connected change.type = some change.key ∧
            DisconnectsMatch (Function.update connected change.type none) rest

/-- The neighbour that each priority connected to, and the last one of both. -/
structure Heard where
  connected : PriorityType → Option LsdNeighborInfo
  last : LsdNeighborInfo

namespace Heard

/-- A packet connects a priority that is not connected. -/
def hears (heard : Heard) (type : PriorityType) (head : LsdHead) : Heard :=
  if (heard.connected type).isSome = true then
    heard
  else
    { connected := Function.update heard.connected type (some ⟨head.rId, head.ifId⟩)
      last := ⟨head.rId, head.ifId⟩ }

/-- An expired timer disconnects a priority. -/
def loses (heard : Heard) (type : PriorityType) : Heard :=
  { heard with connected := Function.update heard.connected type none }

/-- What is heard after a reaction. -/
def next (heard : Heard) : Detection → Heard
  | .high head => heard.hears .high head
  | .low head => heard.hears .low head
  | .deadHigh _ => heard.loses .high
  | .deadLow _ => heard.loses .low

/-- The event of a packet. -/
def connects
    (heard : Heard)
    (keyOf : LsdNeighborInfo → LinkStateKey)
    (type : PriorityType)
    (head : LsdHead) : Option Change :=
  if (heard.connected type).isSome = true then
    none
  else
    some ⟨type, .connected, keyOf ⟨head.rId, head.ifId⟩⟩

/-- The event of a reaction; a disconnect has the key of the last neighbour. -/
def change
    (heard : Heard)
    (keyOf : LsdNeighborInfo → LinkStateKey) : Detection → Option Change
  | .high head => heard.connects keyOf .high head
  | .low head => heard.connects keyOf .low head
  | .deadHigh _ => some ⟨.high, .disconnected, keyOf heard.last⟩
  | .deadLow _ => some ⟨.low, .disconnected, keyOf heard.last⟩

/-- The events of a sequence of reactions. -/
def changes (keyOf : LsdNeighborInfo → LinkStateKey) : Heard → List Detection → List Change
  | _, [] => []
  | heard, label :: rest =>
      (heard.change keyOf label).toList ++ changes keyOf (heard.next label) rest

/-- An expiring priority connected to the neighbour that was connected to last. -/
def LosesLast (heard : Heard) : Detection → Prop
  | .high _ => True
  | .low _ => True
  | .deadHigh _ => heard.connected .high = some heard.last
  | .deadLow _ => heard.connected .low = some heard.last

/-- This is so whenever a timer expires. -/
def AlwaysLosesLast : Heard → List Detection → Prop
  | _, [] => True
  | heard, label :: rest =>
      heard.LosesLast label ∧ (heard.next label).AlwaysLosesLast rest

variable {heard : Heard} {keyOf : LsdNeighborInfo → LinkStateKey}

/-- The keys that the priorities connected with. -/
def keys (heard : Heard) (keyOf : LsdNeighborInfo → LinkStateKey) (type : PriorityType) :
    Option LinkStateKey :=
  (heard.connected type).map keyOf

theorem update_keys
    (type : PriorityType)
    (neighbor : Option LsdNeighborInfo)
    (last : LsdNeighborInfo) :
    Function.update (heard.keys keyOf) type (neighbor.map keyOf) =
      keys ⟨Function.update heard.connected type neighbor, last⟩ keyOf := by
  funext other
  unfold keys
  dsimp only
  by_cases same : other = type
  · subst same
    rw [Function.update_self, Function.update_self]
  · rw [Function.update_of_ne same, Function.update_of_ne same]

/-- A packet asks for nothing. -/
theorem disconnectsMatch_connects
    (type : PriorityType)
    (head : LsdHead)
    (rest : List Change) :
    DisconnectsMatch (heard.keys keyOf)
        ((heard.connects keyOf type head).toList ++ rest) ↔
      DisconnectsMatch ((heard.hears type head).keys keyOf) rest := by
  unfold connects hears
  by_cases connected : (heard.connected type).isSome = true
  · rw [if_pos connected, if_pos connected]
    rfl
  · rw [if_neg connected, if_neg connected,
      ← update_keys type (some ⟨head.rId, head.ifId⟩) ⟨head.rId, head.ifId⟩]
    rfl

/-- An expired timer asks for the key of its priority. -/
theorem disconnectsMatch_loses
    (injective : Function.Injective keyOf)
    (type : PriorityType)
    (rest : List Change) :
    DisconnectsMatch (heard.keys keyOf)
        (⟨type, .disconnected, keyOf heard.last⟩ :: rest) ↔
      heard.connected type = some heard.last ∧
        DisconnectsMatch ((heard.loses type).keys keyOf) rest := by
  have sameKey :
      heard.keys keyOf type = some (keyOf heard.last) ↔
        heard.connected type = some heard.last := by
    unfold keys
    rw [← Option.map_some, (Option.map_injective injective).eq_iff]
  rw [← sameKey, loses, ← update_keys type none heard.last]
  rfl

/-- The events match exactly if the timers expire so. -/
theorem disconnectsMatch_changes
    (injective : Function.Injective keyOf)
    (labels : List Detection) :
    DisconnectsMatch (heard.keys keyOf) (heard.changes keyOf labels) ↔
      heard.AlwaysLosesLast labels := by
  induction labels generalizing heard with
  | nil =>
      exact Iff.rfl
  | cons label rest inductionHypothesis =>
      unfold AlwaysLosesLast
      rw [← inductionHypothesis]
      cases label with
      | high head =>
          exact (disconnectsMatch_connects .high head _).trans (iff_of_eq (true_and _)).symm
      | low head =>
          exact (disconnectsMatch_connects .low head _).trans (iff_of_eq (true_and _)).symm
      | deadHigh id =>
          exact disconnectsMatch_loses injective .high _
      | deadLow id =>
          exact disconnectsMatch_loses injective .low _

end Heard

/-! ## The events of the code -/

/-- The hello master keeps the statuses of both priorities and the last neighbour. -/
structure Tracks (heard : Heard) (hello : HelloMaster) : Prop where
  connected :
    ∀ type, (heard.connected type).isSome = true ↔ hello.status type = .connected
  last : heard.last = hello.neighbor

/-- The key of an interface tells the neighbours apart. -/
theorem backboneKey_injective
    (icm : Icm)
    (eth : EthId) :
    Function.Injective (icm.backboneKey eth) := by
  rintro ⟨first, firstIf⟩ ⟨second, secondIf⟩ same
  unfold backboneKey at same
  simp only [LinkStateKey.mk.injEq] at same
  obtain ⟨-, -, rfl, rfl⟩ := same
  rfl

section Reactions

variable
  {eth : EthId} {before after : Icm} {hello : HelloMaster} {heard : Heard}
  {label : Detection}

/-- The reactions that call the handler leave what they have written before the call. -/
theorem detect_calls
    {memory : Icm}
    {type : PriorityType}
    {status : LsdStatus}
    {next : HelloMaster}
    (calls : handlerCall eth before label = some ⟨memory, type, status⟩)
    (router : memory.router = before.router)
    (written : memory.helloMaster eth = some next)
    (returned : detect eth before label = .ok after) :
    after.helloMaster eth = some next ∧
      after.router = before.router ∧
      changeOf eth before label =
        some ⟨type, status, before.backboneKey eth next.neighbor⟩ := by
  have advertises :=
    advertises_helloChangedHandler written (detect_handlerCall calls returned)
  refine ⟨?_, advertises.router.trans router, ?_⟩
  · rw [advertises.hello]
    exact written
  · unfold changeOf HandlerCall.change
    rw [calls, Option.bind_some, written, Option.map_some,
      ← (backboneKey_congr router eth next.neighbor).2]
    rfl

namespace Tracks

/-- Timers are not tracked. -/
theorem rewrite
    {next : HelloMaster}
    (tracks : Tracks heard hello)
    (statuses : ∀ type, next.status type = hello.status type)
    (neighbor : next.neighbor = hello.neighbor) :
    Tracks heard next where
  connected := by
    intro type
    rw [statuses]
    exact tracks.connected type
  last := tracks.last.trans neighbor.symm

/-- One priority changes its status. -/
theorem update
    {next : HelloMaster}
    {type : PriorityType}
    {neighbor : Option LsdNeighborInfo}
    {last : LsdNeighborInfo}
    (tracks : Tracks heard hello)
    (status : neighbor.isSome = true ↔ next.status type = .connected)
    (others : ∀ other ≠ type, next.status other = hello.status other)
    (isLast : last = next.neighbor) :
    Tracks ⟨Function.update heard.connected type neighbor, last⟩ next where
  connected := by
    intro other
    dsimp only
    by_cases same : other = type
    · subst same
      rw [Function.update_self]
      exact status
    · rw [Function.update_of_ne same, others other same]
      exact tracks.connected other
  last := isLast

/-- A packet while its priority is connected changes nothing. -/
theorem hears_connected
    {type : PriorityType}
    (tracks : Tracks heard hello)
    (connected : hello.status type = .connected)
    (keyOf : LsdNeighborInfo → LinkStateKey)
    (head : LsdHead) :
    heard.hears type head = heard ∧ heard.connects keyOf type head = none := by
  have isSome := (tracks.connected type).mpr connected
  unfold Heard.hears Heard.connects
  rw [if_pos isSome, if_pos isSome]
  exact ⟨rfl, rfl⟩

/-- A packet while its priority is not connected connects it. -/
theorem hears_disconnected
    {type : PriorityType}
    (tracks : Tracks heard hello)
    (disconnected : hello.status type = .disconnected)
    (keyOf : LsdNeighborInfo → LinkStateKey)
    (head : LsdHead) :
    heard.hears type head =
        ⟨Function.update heard.connected type (some ⟨head.rId, head.ifId⟩),
          ⟨head.rId, head.ifId⟩⟩ ∧
      heard.connects keyOf type head =
        some ⟨type, .connected, keyOf ⟨head.rId, head.ifId⟩⟩ := by
  have isNone : ¬(heard.connected type).isSome = true := by
    rw [tracks.connected type, disconnected]
    decide
  unfold Heard.hears Heard.connects
  rw [if_neg isNone, if_neg isNone]
  exact ⟨rfl, rfl⟩

end Tracks

/-- What a reaction leaves, and the event it makes. -/
def Reacts
    (eth : EthId)
    (before after : Icm)
    (label : Detection)
    (heard : Heard)
    (change : Option Change) : Prop :=
  ∃ next,
    after.helloMaster eth = some next ∧
      Tracks heard next ∧
      after.router = before.router ∧
      changeOf eth before label = change

/-- A packet that connects its priority. -/
theorem Reacts.connects
    {memory : Icm}
    {type : PriorityType}
    {next : HelloMaster}
    {head : LsdHead}
    (tracks : Tracks heard hello)
    (disconnected : hello.status type = .disconnected)
    (calls : handlerCall eth before label = some ⟨memory, type, .connected⟩)
    (router : memory.router = before.router)
    (written : memory.helloMaster eth = some next)
    (connected : next.status type = .connected)
    (others : ∀ other ≠ type, next.status other = hello.status other)
    (neighbor : next.neighbor = ⟨head.rId, head.ifId⟩)
    (returned : detect eth before label = .ok after) :
    Reacts eth before after label (heard.hears type head)
      (heard.connects (before.backboneKey eth) type head) := by
  obtain ⟨allocated, sameRouter, change⟩ := detect_calls calls router written returned
  obtain ⟨hears, connects⟩ :=
    tracks.hears_disconnected disconnected (before.backboneKey eth) head
  rw [hears, connects]
  refine ⟨next, allocated, tracks.update ?_ others neighbor.symm, sameRouter, ?_⟩
  · exact iff_of_true rfl connected
  · rw [change, neighbor]

/-- A timer that expires. -/
theorem Reacts.loses
    {memory : Icm}
    {type : PriorityType}
    {next : HelloMaster}
    (tracks : Tracks heard hello)
    (calls : handlerCall eth before label = some ⟨memory, type, .disconnected⟩)
    (router : memory.router = before.router)
    (written : memory.helloMaster eth = some next)
    (disconnected : next.status type = .disconnected)
    (others : ∀ other ≠ type, next.status other = hello.status other)
    (neighbor : next.neighbor = hello.neighbor)
    (returned : detect eth before label = .ok after) :
    Reacts eth before after label (heard.loses type)
      (some ⟨type, .disconnected, before.backboneKey eth heard.last⟩) := by
  obtain ⟨allocated, sameRouter, change⟩ := detect_calls calls router written returned
  have isLast : heard.last = next.neighbor := tracks.last.trans neighbor.symm
  refine ⟨next, allocated, tracks.update ?_ others isLast, sameRouter, ?_⟩
  · rw [disconnected]
    decide
  · rw [change, isLast]

/-- A packet while its priority is connected. -/
theorem Reacts.quiet
    {type : PriorityType}
    {next : HelloMaster}
    {head : LsdHead}
    (tracks : Tracks heard hello)
    (connected : hello.status type = .connected)
    (calls : handlerCall eth before label = none)
    (router : after.router = before.router)
    (written : after.helloMaster eth = some next)
    (statuses : ∀ type, next.status type = hello.status type)
    (neighbor : next.neighbor = hello.neighbor) :
    Reacts eth before after label (heard.hears type head)
      (heard.connects (before.backboneKey eth) type head) := by
  obtain ⟨hears, connects⟩ :=
    tracks.hears_connected connected (before.backboneKey eth) head
  rw [hears, connects]
  refine ⟨next, written, tracks.rewrite statuses neighbor, router, ?_⟩
  unfold changeOf
  rw [calls]
  rfl

/-- One reaction of the code and of the two priorities. -/
theorem detect_reacts
    (allocated : before.helloMaster eth = some hello)
    (tracks : Tracks heard hello)
    (returned : detect eth before label = .ok after) :
    Reacts eth before after label (heard.next label)
      (heard.change (before.backboneKey eth) label) := by
  have isHello :
      ∀ {current : HelloMaster},
        Pma.deref (before.helloMaster eth) = .ok current → current = hello :=
    fun found => Option.some.inj ((deref_eq_ok.mp found).symm.trans allocated)
  cases label with
  | high head =>
      cases status : hello.highStatus with
      | disconnected =>
          have called :
              handlerCall eth before (.high head) =
                some ⟨before.highConnected eth hello head, .high, .connected⟩ := by
            unfold handlerCall
            rw [allocated, Option.bind_some]
            exact if_pos status
          refine .connects tracks status called rfl (Function.update_self _ _ _) rfl ?_ rfl returned
          rintro ⟨⟩ other
          · exact absurd rfl other
          · rfl
      | connected =>
          have called : handlerCall eth before (.high head) = none := by
            unfold handlerCall
            rw [allocated, Option.bind_some, status]
            rfl
          unfold detect helloOnHighPacketReceived at returned
          obtain ⟨current, found, rest⟩ := bind_eq_ok.mp returned
          cases isHello found
          rw [status] at rest
          cases rest
          refine .quiet tracks status called rfl (Function.update_self _ _ _) ?_ rfl
          rintro ⟨⟩
          · exact status.symm
          · rfl
  | low head =>
      cases status : hello.lowStatus with
      | disconnected =>
          have called :
              handlerCall eth before (.low head) =
                some ⟨before.lowConnected eth hello head, .low, .connected⟩ := by
            unfold handlerCall
            rw [allocated, Option.bind_some]
            exact if_pos status
          refine .connects tracks status called rfl (Function.update_self _ _ _) rfl ?_ rfl returned
          rintro ⟨⟩ other
          · rfl
          · exact absurd rfl other
      | connected =>
          have called : handlerCall eth before (.low head) = none := by
            unfold handlerCall
            rw [allocated, Option.bind_some, status]
            rfl
          unfold detect helloOnLowPacketReceived at returned
          obtain ⟨current, found, rest⟩ := bind_eq_ok.mp returned
          cases isHello found
          rw [status] at rest
          cases rest
          refine .quiet tracks status called rfl (Function.update_self _ _ _) ?_ rfl
          rintro ⟨⟩
          · rfl
          · exact status.symm
  | deadHigh id =>
      have called :
          handlerCall eth before (.deadHigh id) =
            some ⟨before.highExpired eth hello id, .high, .disconnected⟩ := by
        unfold handlerCall
        rw [allocated, Option.bind_some]
      refine .loses tracks called rfl (Function.update_self _ _ _) rfl ?_ rfl returned
      rintro ⟨⟩ other
      · exact absurd rfl other
      · rfl
  | deadLow id =>
      have called :
          handlerCall eth before (.deadLow id) =
            some ⟨before.lowExpired eth hello id, .low, .disconnected⟩ := by
        unfold handlerCall
        rw [allocated, Option.bind_some]
      refine .loses tracks called rfl (Function.update_self _ _ _) rfl ?_ rfl returned
      rintro ⟨⟩ other
      · rfl
      · exact absurd rfl other

end Reactions

/-! ## Runs -/

/-- Only pending timers expire; the packets may come from any neighbour. -/
def Detection.Possible (eth : EthId) (icm : Icm) : Detection → Prop
  | .high _ => True
  | .low _ => True
  | .deadHigh id => id ∈ icm.master.pendingOf .deadTimerHigh (.backbone eth)
  | .deadLow id => id ∈ icm.master.pendingOf .deadTimerLow (.backbone eth)

/-- The detection on an interface. -/
def hearingStep (eth : EthId) : Icm → Detection → Icm → Prop :=
  guarded (Detection.Possible eth) (ofPartial (detect eth))

/-- The events of a run are those of the two priorities. -/
theorem observed_eq_changes
    {eth : EthId}
    {before after : Icm}
    {hello : HelloMaster}
    {heard : Heard}
    {labels : List Detection}
    (run : Run (hearingStep eth) before labels after)
    (allocated : before.helloMaster eth = some hello)
    (tracks : Tracks heard hello) :
    observed (detect eth) (changeOf eth) before labels =
      heard.changes (before.backboneKey eth) labels := by
  induction run generalizing heard hello with
  | nil state =>
      rfl
  | @cons before middle after label labels first rest inductionHypothesis =>
      have returned : detect eth before label = .ok middle := first.2
      obtain ⟨next, written, tracked, router, change⟩ := detect_reacts allocated tracks returned
      have sameKeys : middle.backboneKey eth = before.backboneKey eth :=
        funext fun neighbor => (backboneKey_congr router eth neighbor).2
      have later := inductionHypothesis written tracked
      rw [sameKeys] at later
      rw [observed, change, returned, Heard.changes]
      exact congrArg _ later

/-- Nothing is connected yet. -/
def Heard.idle (last : LsdNeighborInfo) : Heard where
  connected := fun _ => none
  last := last

/--
In a run from a disconnected interface, every disconnected event has the key of
the connected event before it exactly if whenever a dead timer expires, its
priority was connected by a packet of the neighbour whose packet connected a
priority last.
-/
theorem disconnectsMatch_iff
    {start final : Icm}
    {eth : EthId}
    {idle : HelloMaster}
    {labels : List Detection}
    (allocated : start.helloMaster eth = some idle)
    (highIdle : idle.highStatus = .disconnected)
    (lowIdle : idle.lowStatus = .disconnected)
    (run : Run (hearingStep eth) start labels final) :
    DisconnectsMatch (fun _ => none) (observed (detect eth) (changeOf eth) start labels) ↔
      (Heard.idle idle.neighbor).AlwaysLosesLast labels := by
  have tracks : Tracks (Heard.idle idle.neighbor) idle := by
    refine ⟨?_, rfl⟩
    rintro ⟨⟩
    · change (false = true) ↔ idle.highStatus = .connected
      rw [highIdle]
      decide
    · change (false = true) ↔ idle.lowStatus = .connected
      rw [lowIdle]
      decide
  have same :
      DisconnectsMatch ((Heard.idle idle.neighbor).keys (start.backboneKey eth))
          ((Heard.idle idle.neighbor).changes (start.backboneKey eth) labels) ↔
        (Heard.idle idle.neighbor).AlwaysLosesLast labels :=
    Heard.disconnectsMatch_changes (backboneKey_injective start eth) labels
  rw [observed_eq_changes run allocated tracks]
  exact same

/-- A packet of each priority, then the timer of the high one expires. -/
def highExpires (lowIfId : UInt32) : List Detection :=
  [.high (helloFrom 2 7).head, .low (helloFrom 2 lowIfId).head, .deadHigh 3]

/-- The daemon has heard both packets. -/
def bothHeard (lowIfId : UInt32) : Icm :=
  (((highExpires lowIfId).take 2).foldlM (detect 0) (idleDaemon 10 1 2)).toOption.getD
    (idleDaemon 10 1 2)

/-- Such a run, if none of its steps aborts. -/
theorem exists_highExpires
    {lowIfId : UInt32}
    (hears :
      (((highExpires lowIfId).take 2).foldlM (detect 0)
        (idleDaemon 10 1 2)).toOption.isSome = true)
    (isPending :
      3 ∈ (bothHeard lowIfId).master.pendingOf .deadTimerHigh (.backbone 0))
    (expires : (detect 0 (bothHeard lowIfId) (.deadHigh 3)).toOption.isSome = true) :
    ∃ final, Run (hearingStep 0) (idleDaemon 10 1 2) (highExpires lowIfId) final := by
  obtain ⟨heard, heardReturned⟩ := Loops.exists_ok hears
  have isHeard : bothHeard lowIfId = heard := by
    unfold bothHeard
    rw [heardReturned]
    rfl
  rw [isHeard] at isPending expires
  obtain ⟨final, returned⟩ := Loops.exists_ok expires
  cases run_of_foldlM heardReturned with
  | cons high rest =>
      cases rest with
      | cons low rest =>
          cases rest
          exact ⟨final, .cons ⟨trivial, high⟩ (.cons ⟨trivial, low⟩
            (.cons ⟨isPending, returned⟩ (.nil final)))⟩

/-- Both packets come over one link. -/
theorem disconnectsMatch_sameLink :
    ∃ final,
      Run (hearingStep 0) (idleDaemon 10 1 2) (highExpires 7) final ∧
        DisconnectsMatch (fun _ => none)
          (observed (detect 0) (changeOf 0) (idleDaemon 10 1 2) (highExpires 7)) := by
  obtain ⟨final, run⟩ :
      ∃ final, Run (hearingStep 0) (idleDaemon 10 1 2) (highExpires 7) final :=
    exists_highExpires (by decide +kernel) (by decide +kernel) (by decide +kernel)
  exact ⟨final, run, (disconnectsMatch_iff rfl rfl rfl run).mpr
    ⟨trivial, trivial, rfl, trivial⟩⟩

/-- The low packet comes over a parallel link: the high priority takes its key. -/
theorem parallelLink_not_disconnectsMatch :
    ∃ final,
      Run (hearingStep 0) (idleDaemon 10 1 2) (highExpires 8) final ∧
        ¬DisconnectsMatch (fun _ => none)
          (observed (detect 0) (changeOf 0) (idleDaemon 10 1 2) (highExpires 8)) := by
  obtain ⟨final, run⟩ :
      ∃ final, Run (hearingStep 0) (idleDaemon 10 1 2) (highExpires 8) final :=
    exists_highExpires (by decide +kernel) (by decide +kernel) (by decide +kernel)
  refine ⟨final, run, ?_⟩
  rintro ⟨same, -⟩
  have key : (some ⟨1, 7, 2, 7⟩ : Option LinkStateKey) = some ⟨1, 7, 2, 8⟩ := same
  exact absurd key (by decide)

end Icm

end Pma
