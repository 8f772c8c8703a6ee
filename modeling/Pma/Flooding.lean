import Mathlib.Algebra.BigOperators.Group.Finset.Basic
import Mathlib.Algebra.Order.BigOperators.Group.Finset
import Mathlib.Data.Fintype.Basic
import Mathlib.Tactic.Ring
import Pma.Transition

namespace Pma.Flooding

open Transition

/-!
# Flooding on a graph

Every node holds a level.  A node that hears of a greater level takes it over
and passes it on through its other ports; one that hears of a lower level sends
its own level back.  Deliveries come in any order, and a delivery may leave a
duplicate behind.  The results are a bound on the deliveries
(`flying_add_removals_le`) and that nothing is left to deliver only when every
node of a connected graph holds the greatest level (`Sound.quiescent`).
-/

variable {Node Port : Type*}

/-- Nodes with their ports; a link joins a port and its peer. -/
structure Topology (Node Port : Type*) where
  ports : Node → List Port
  owner : Port → Node
  peer : Port → Port
  owner_of_mem : ∀ {node port}, port ∈ ports node → owner port = node
  peer_mem : ∀ {node port}, port ∈ ports node → peer port ∈ ports (owner (peer port))
  peer_peer : ∀ {node port}, port ∈ ports node → peer (peer port) = port

/-- A link leads from one node to the other. -/
def Topology.Adjacent (topology : Topology Node Port) (node other : Node) : Prop :=
  ∃ port ∈ topology.ports node, topology.owner (topology.peer port) = other

/-- The level of every node, and the levels on their way to a port. -/
structure Config (Node Port : Type*) where
  level : Node → ℕ
  flying : List (Port × ℕ)

/-- The delivery of a level to a port, which may leave a duplicate in flight. -/
structure Delivery (Port : Type*) where
  port : Port
  level : ℕ
  duplicate : Bool

/-- How many deliveries leave a duplicate behind. -/
def duplicates (deliveries : List (Delivery Port)) : ℕ :=
  deliveries.countP (·.duplicate)

/-- How many deliveries take their message out of flight. -/
def removals (deliveries : List (Delivery Port)) : ℕ :=
  deliveries.countP (! ·.duplicate)

/--
The invariant of a flood that started at `seed` with the greatest level: nobody
holds more, a message is backed by the node that sent it, and a node with the
greatest level has told its neighbours.
-/
structure Sound
    (topology : Topology Node Port)
    (seed : Node)
    (top : ℕ)
    (config : Config Node Port) : Prop where
  seeded : config.level seed = top
  bounded : ∀ node, config.level node ≤ top
  listed :
    ∀ message ∈ config.flying,
      message.1 ∈ topology.ports (topology.owner message.1)
  backed :
    ∀ message ∈ config.flying,
      message.2 ≤ config.level (topology.owner (topology.peer message.1))
  told :
    ∀ node, config.level node = top →
      ∀ port ∈ topology.ports node,
        config.level (topology.owner (topology.peer port)) = top ∨
          (topology.peer port, top) ∈ config.flying

namespace Sound

variable {topology : Topology Node Port}
  {seed : Node}
  {top : ℕ}
  {config : Config Node Port}

/-- No message in flight exceeds the greatest level. -/
theorem flying_le
    {message : Port × ℕ}
    (sound : Sound topology seed top config)
    (flies : message ∈ config.flying) :
    message.2 ≤ top :=
  (sound.backed message flies).trans (sound.bounded _)

/-- When nothing is in flight, every node the seed is connected to holds the top. -/
theorem quiescent
    (sound : Sound topology seed top config)
    (quiet : config.flying = [])
    {node : Node}
    (connected : Relation.ReflTransGen topology.Adjacent seed node) :
    config.level node = top := by
  induction connected with
  | refl =>
      exact sound.seeded
  | tail _ link inductionHypothesis =>
      obtain ⟨port, member, rfl⟩ := link
      rcases sound.told _ inductionHypothesis port member with held | flies
      · exact held
      · simp [quiet] at flies

end Sound

section Potential

variable [Fintype Node]

/-- How much a message in flight counts: lower levels are worth more. -/
def weight (top : ℕ) (message : Port × ℕ) : ℕ :=
  top - message.2 + 1

/-- How much a node still has to rise, counted by what its rises may send. -/
def climb
    (topology : Topology Node Port) (top : ℕ) (level : Node → ℕ) (node : Node) :
    ℕ :=
  (top - level node) * ((topology.ports node).length * (top + 1))

/-- The potential of a configuration; every removal lowers it. -/
def potential
    (topology : Topology Node Port) (top : ℕ) (config : Config Node Port) : ℕ :=
  (∑ node, climb topology top config.level node) +
    (config.flying.map (weight top)).sum

/-- Every message in flight counts. -/
theorem length_flying_le_potential
    (topology : Topology Node Port)
    (top : ℕ)
    (config : Config Node Port) :
    config.flying.length ≤ potential topology top config := by
  have counted :
      (config.flying.map (weight top)).length ≤
        (config.flying.map (weight top)).sum := by
    apply List.length_le_sum_of_one_le
    intro value member
    obtain ⟨message, -, rfl⟩ := List.mem_map.mp member
    exact Nat.le_add_left 1 _
  rw [List.length_map] at counted
  exact counted.trans (Nat.le_add_left _ _)

/-- Passing a level on counts at most one rise of the node. -/
theorem weight_passed_le
    (top level : ℕ)
    (ports : List Port)
    (peer : Port → Port) :
    ((ports.map fun port => (peer port, level)).map (weight top)).sum ≤
      ports.length * (top + 1) := by
  have bounded :
      ∀ value ∈ (ports.map fun port => (peer port, level)).map (weight top),
        value ≤ top + 1 := by
    intro value member
    obtain ⟨message, -, rfl⟩ := List.mem_map.mp member
    exact Nat.add_le_add_right (Nat.sub_le _ _) 1
  simpa using List.sum_le_card_nsmul _ _ bounded

variable [DecidableEq Node]

/-- The rises of the nodes other than the receiver stay. -/
theorem sum_climb_update
    (topology : Topology Node Port)
    (top : ℕ)
    (level : Node → ℕ)
    (node : Node)
    (raised : ℕ) :
    (∑ other, climb topology top (Function.update level node raised) other) +
        climb topology top level node =
      (∑ other, climb topology top level other) +
        (top - raised) * ((topology.ports node).length * (top + 1)) := by
  have others :
      ∀ other ∈ Finset.univ.erase node,
        climb topology top (Function.update level node raised) other =
          climb topology top level other := by
    intro other member
    unfold climb
    rw [Function.update_of_ne (Finset.ne_of_mem_erase member)]
  rw [← Finset.add_sum_erase _ _ (Finset.mem_univ node),
    Finset.sum_congr rfl others,
    ← Finset.add_sum_erase Finset.univ (climb topology top level)
      (Finset.mem_univ node)]
  unfold climb
  rw [Function.update_self]
  omega

end Potential

section Sent

variable [DecidableEq Port]

/-- What a node that holds `held` sends when a level arrives at its port. -/
def Topology.sent
    (topology : Topology Node Port) (port : Port) (held level : ℕ) :
    List (Port × ℕ) :=
  if held < level then
    ((topology.ports (topology.owner port)).filter (· ≠ port)).map
      fun other => (topology.peer other, level)
  else if level < held then
    [(topology.peer port, held)]
  else
    []

/-- What a node sends, it holds, and it sends it through one of its ports. -/
theorem Topology.mem_sent
    {topology : Topology Node Port}
    {port : Port}
    {held level : ℕ}
    {message : Port × ℕ}
    (listed : port ∈ topology.ports (topology.owner port))
    (sent : message ∈ topology.sent port held level) :
    ∃ through ∈ topology.ports (topology.owner port),
      message = (topology.peer through, max held level) := by
  unfold Topology.sent at sent
  split at sent
  · next raised =>
      obtain ⟨through, chosen, rfl⟩ := List.mem_map.mp sent
      refine ⟨through, List.mem_of_mem_filter chosen, ?_⟩
      rw [max_eq_right raised.le]
  · next keeps =>
      split at sent
      · rw [List.mem_singleton] at sent
        refine ⟨port, listed, ?_⟩
        rw [sent, max_eq_left (not_lt.mp keeps)]
      · cases sent

end Sent

variable [DecidableEq Node] [DecidableEq Port]

/-- The steps of a flooding network. -/
def Step
    (topology : Topology Node Port)
    (before : Config Node Port)
    (delivery : Delivery Port)
    (after : Config Node Port) : Prop :=
  ∃ earlier later,
    before.flying = earlier ++ (delivery.port, delivery.level) :: later ∧
      after.level =
        Function.update before.level (topology.owner delivery.port)
          (max (before.level (topology.owner delivery.port)) delivery.level) ∧
      after.flying =
        (if delivery.duplicate then before.flying else earlier ++ later) ++
          topology.sent delivery.port
            (before.level (topology.owner delivery.port)) delivery.level

namespace Step

variable {topology : Topology Node Port}
  {before after : Config Node Port}
  {delivery : Delivery Port}

/-- The delivered level was in flight. -/
theorem flies
    (step : Step topology before delivery after) :
    (delivery.port, delivery.level) ∈ before.flying := by
  obtain ⟨earlier, later, shape, -⟩ := step
  simp [shape]

/-- The receiver holds the greater of the two levels. -/
theorem level_owner
    (step : Step topology before delivery after) :
    after.level (topology.owner delivery.port) =
      max (before.level (topology.owner delivery.port)) delivery.level := by
  obtain ⟨earlier, later, -, levels, -⟩ := step
  rw [levels, Function.update_self]

/-- Every other node holds what it held. -/
theorem level_of_ne
    {node : Node}
    (step : Step topology before delivery after)
    (other : node ≠ topology.owner delivery.port) :
    after.level node = before.level node := by
  obtain ⟨earlier, later, -, levels, -⟩ := step
  rw [levels, Function.update_of_ne other]

/-- No node lowers its level. -/
theorem level_mono
    (step : Step topology before delivery after)
    (node : Node) :
    before.level node ≤ after.level node := by
  by_cases receiver : node = topology.owner delivery.port
  · rw [receiver, step.level_owner]
    exact le_max_left _ _
  · exact (step.level_of_ne receiver).ge

/-- What is in flight after a delivery was so before, or was sent. -/
theorem mem_flying
    {message : Port × ℕ}
    (step : Step topology before delivery after)
    (flies : message ∈ after.flying) :
    message ∈ before.flying ∨
      message ∈ topology.sent delivery.port
        (before.level (topology.owner delivery.port)) delivery.level := by
  obtain ⟨earlier, later, shape, -, flying⟩ := step
  rw [flying, List.mem_append] at flies
  refine flies.imp_left fun stays => ?_
  split at stays
  · exact stays
  · rw [shape]
    rw [List.mem_append] at stays ⊢
    exact stays.imp_right (List.mem_cons_of_mem _)

/-- Only the delivered message leaves the flight. -/
theorem flies_of_ne
    {message : Port × ℕ}
    (step : Step topology before delivery after)
    (flies : message ∈ before.flying)
    (other : message ≠ (delivery.port, delivery.level)) :
    message ∈ after.flying := by
  obtain ⟨earlier, later, shape, -, flying⟩ := step
  rw [flying, List.mem_append]
  left
  split
  · exact flies
  · rw [shape] at flies
    simpa [other] using flies

/-- What the receiver sends is in flight. -/
theorem flies_of_sent
    {message : Port × ℕ}
    (step : Step topology before delivery after)
    (sent :
      message ∈ topology.sent delivery.port
        (before.level (topology.owner delivery.port)) delivery.level) :
    message ∈ after.flying := by
  obtain ⟨earlier, later, -, -, flying⟩ := step
  rw [flying]
  exact List.mem_append_right _ sent

end Step

namespace Sound

variable {topology : Topology Node Port}
  {seed : Node}
  {top : ℕ}
  {before after : Config Node Port}
  {delivery : Delivery Port}

/-- The receiver of a delivery has told its neighbours if it now holds the top. -/
theorem told_receiver
    (sound : Sound topology seed top before)
    (step : Step topology before delivery after)
    (arrived : after.level (topology.owner delivery.port) = top)
    {port : Port}
    (listed : port ∈ topology.ports (topology.owner delivery.port)) :
    after.level (topology.owner (topology.peer port)) = top ∨
      (topology.peer port, top) ∈ after.flying := by
  by_cases raised :
      before.level (topology.owner delivery.port) < delivery.level
  · have isTop : delivery.level = top := by
      rw [step.level_owner, max_eq_right raised.le] at arrived
      exact arrived
    by_cases source : port = delivery.port
    · -- The sender of the delivered level holds it.
      left
      have held := sound.backed _ step.flies
      have upper := sound.bounded (topology.owner (topology.peer delivery.port))
      have kept := step.level_mono (topology.owner (topology.peer delivery.port))
      rw [source]
      by_cases loop :
          topology.owner (topology.peer delivery.port) =
            topology.owner delivery.port
      · rw [loop]
        exact arrived
      · rw [step.level_of_ne loop]
        dsimp only at held
        omega
    · right
      apply step.flies_of_sent
      unfold Topology.sent
      rw [if_pos raised, isTop]
      exact List.mem_map.mpr
        ⟨port, List.mem_filter.mpr ⟨listed, by simpa using source⟩, rfl⟩
  · have heldTop : before.level (topology.owner delivery.port) = top := by
      rw [step.level_owner, max_eq_left (not_lt.mp raised)] at arrived
      exact arrived
    rcases sound.told _ heldTop port listed with neighbor | flies
    · left
      have kept := step.level_mono (topology.owner (topology.peer port))
      by_cases loop :
          topology.owner (topology.peer port) = topology.owner delivery.port
      · rw [loop]
        exact arrived
      · rw [step.level_of_ne loop]
        exact neighbor
    · by_cases delivered :
          (topology.peer port, top) = (delivery.port, delivery.level)
      · left
        have samePort : topology.peer port = delivery.port :=
          congrArg Prod.fst delivered
        rw [samePort]
        exact arrived
      · exact .inr (step.flies_of_ne flies delivered)

/-- A node that held the top before has still told its neighbours. -/
theorem told_other
    (sound : Sound topology seed top before)
    (step : Step topology before delivery after)
    {node : Node}
    (held : before.level node = top)
    {port : Port}
    (listed : port ∈ topology.ports node) :
    after.level (topology.owner (topology.peer port)) = top ∨
      (topology.peer port, top) ∈ after.flying := by
  have limit :
      ∀ other, before.level other = top → after.level other = top := by
    intro other isTop
    by_cases receiver : other = topology.owner delivery.port
    · have upper := sound.flying_le step.flies
      dsimp only at upper
      rw [receiver] at isTop ⊢
      rw [step.level_owner, isTop, max_eq_left upper]
    · rw [step.level_of_ne receiver, isTop]
  rcases sound.told node held port listed with neighbor | flies
  · exact .inl (limit _ neighbor)
  · by_cases delivered :
        (topology.peer port, top) = (delivery.port, delivery.level)
    · left
      have samePort : topology.peer port = delivery.port :=
        congrArg Prod.fst delivered
      have sameLevel : top = delivery.level := congrArg Prod.snd delivered
      have upper := sound.bounded (topology.owner delivery.port)
      rw [samePort, step.level_owner, ← sameLevel, max_eq_right upper]
    · exact .inr (step.flies_of_ne flies delivered)

/-- Every delivery keeps the invariant. -/
theorem step
    (sound : Sound topology seed top before)
    (step : Step topology before delivery after) :
    Sound topology seed top after := by
  have upper := sound.flying_le step.flies
  dsimp only at upper
  have bounded : ∀ node, after.level node ≤ top := by
    intro node
    by_cases receiver : node = topology.owner delivery.port
    · rw [receiver, step.level_owner]
      exact max_le (sound.bounded _) upper
    · rw [step.level_of_ne receiver]
      exact sound.bounded node
  have listed := sound.listed _ step.flies
  refine
    { seeded := ?_
      bounded := bounded
      listed := ?_
      backed := ?_
      told := ?_ }
  · exact le_antisymm (bounded seed)
      (sound.seeded.ge.trans (step.level_mono seed))
  · intro message flies
    rcases step.mem_flying flies with earlier | sent
    · exact sound.listed message earlier
    · obtain ⟨through, member, rfl⟩ := Topology.mem_sent listed sent
      exact topology.peer_mem member
  · intro message flies
    rcases step.mem_flying flies with earlier | sent
    · exact (sound.backed message earlier).trans (step.level_mono _)
    · obtain ⟨through, member, rfl⟩ := Topology.mem_sent listed sent
      dsimp only
      rw [topology.peer_peer member, topology.owner_of_mem member,
        step.level_owner]
  · intro node held port member
    by_cases receiver : node = topology.owner delivery.port
    · subst receiver
      exact sound.told_receiver step held member
    · rw [step.level_of_ne receiver] at held
      exact sound.told_other step held member

end Sound

section Bound

variable [Fintype Node]
  {topology : Topology Node Port}
  {seed : Node}
  {top : ℕ}
  {before after : Config Node Port}

/-- What a delivery sends is paid by the rise it causes or by its message. -/
theorem sent_paid
    {delivery : Delivery Port}
    (sound : Sound topology seed top before)
    (step : Step topology before delivery after) :
    (∑ node, climb topology top after.level node) +
        ((topology.sent delivery.port
          (before.level (topology.owner delivery.port))
          delivery.level).map (weight top)).sum + 1 ≤
      (∑ node, climb topology top before.level node) +
        weight top (delivery.port, delivery.level) := by
  have upper := sound.flying_le step.flies
  have heldBound := sound.bounded (topology.owner delivery.port)
  obtain ⟨earlier, later, -, levels, -⟩ := step
  have moved := sum_climb_update topology top before.level
    (topology.owner delivery.port)
    (max (before.level (topology.owner delivery.port)) delivery.level)
  rw [← levels] at moved
  unfold climb at moved ⊢
  unfold Topology.sent weight
  dsimp only at upper ⊢
  generalize before.level (topology.owner delivery.port) = held at *
  split
  · next raised =>
      rw [max_eq_right raised.le] at moved
      have passed := weight_passed_le top delivery.level
        ((topology.ports (topology.owner delivery.port)).filter
          (· ≠ delivery.port)) topology.peer
      have fewer :
          ((topology.ports (topology.owner delivery.port)).filter
            (· ≠ delivery.port)).length * (top + 1) ≤
            (topology.ports (topology.owner delivery.port)).length *
              (top + 1) :=
        Nat.mul_le_mul_right _ (List.length_filter_le _ _)
      generalize hbudget :
        (topology.ports (topology.owner delivery.port)).length * (top + 1) =
          budget at *
      have rise :
          (top - delivery.level) * budget + budget ≤ (top - held) * budget := by
        rw [← Nat.succ_mul]
        exact Nat.mul_le_mul_right _ (by omega)
      unfold weight at passed
      omega
  · next keeps =>
      rw [max_eq_left (not_lt.mp keeps)] at moved
      split
      · simp only [List.map_cons, List.map_nil, List.sum_cons, List.sum_nil]
        omega
      · simp only [List.map_nil, List.sum_nil]
        omega

/-- A removal lowers the potential; a duplicate raises it by less than a message. -/
theorem potential_step
    {delivery : Delivery Port}
    (sound : Sound topology seed top before)
    (step : Step topology before delivery after) :
    potential topology top after + (if delivery.duplicate then 0 else 1) ≤
      potential topology top before + (if delivery.duplicate then top else 0) := by
  have paid := sent_paid sound step
  have weighs : weight top (delivery.port, delivery.level) ≤ top + 1 := by
    unfold weight
    omega
  obtain ⟨earlier, later, shape, -, flying⟩ := step
  unfold potential
  rw [flying, List.map_append, List.sum_append]
  cases duplicate : delivery.duplicate with
  | true =>
      simp only [if_true]
      omega
  | false =>
      rw [shape]
      simp only [Bool.false_eq_true, if_false, List.map_append, List.map_cons,
        List.sum_append, List.sum_cons]
      omega

/--
The bound: what is in flight and what was taken out of flight, against the
potential at the start and the duplicates.
-/
theorem flying_add_removals_le
    {deliveries : List (Delivery Port)}
    (run : Run (Step topology) before deliveries after)
    (sound : Sound topology seed top before) :
    after.flying.length + removals deliveries ≤
      potential topology top before + top * duplicates deliveries := by
  induction run with
  | nil config =>
      simpa [removals, duplicates] using
        length_flying_le_potential topology top config
  | cons first rest inductionHypothesis =>
      next start middle final delivery labels =>
        have later := inductionHypothesis (sound.step first)
        have paid := potential_step sound first
        unfold removals duplicates at later ⊢
        rw [List.countP_cons, List.countP_cons]
        cases duplicate : delivery.duplicate with
        | true =>
            rw [duplicate] at paid
            simp only [if_true, Bool.not_true, Bool.false_eq_true, if_false,
              Nat.mul_add, Nat.mul_one] at paid ⊢
            omega
        | false =>
            rw [duplicate] at paid
            simp only [if_true, Bool.not_false, Bool.false_eq_true, if_false,
              Nat.add_zero] at paid ⊢
            omega

end Bound

end Pma.Flooding
