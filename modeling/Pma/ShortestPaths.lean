import Mathlib.Data.Finset.Card
import Mathlib.Order.Bounds.Basic
import Pma.Transition

namespace Pma.ShortestPaths

open Transition

/-!
# Shortest paths by settling vertices

Dijkstra's algorithm as a relation between labellings, for a network in which
the absence of an edge is a weight like any other, only a large one.  Which of
the cheapest vertices is settled is left open, and so is what is settled when
none is below the limit.  Nothing here mentions a particular program.
-/

variable {Vertex : Type*}

/-- A finite network; where there is no edge, the weight is at least the limit. -/
structure Network (Vertex : Type*) where
  vertices : Finset Vertex
  edge : Vertex → Vertex → Prop
  weight : Vertex → Vertex → Nat
  limit : Nat
  positive :
    ∀ {source target},
      source ∈ vertices →
      target ∈ vertices →
      0 < weight source target
  absent :
    ∀ {source target},
      source ∈ vertices →
      target ∈ vertices →
      ¬edge source target →
      limit ≤ weight source target

/-- A walk along edges, with the sum of its weights. -/
inductive Walk
    (net : Network Vertex)
    (source : Vertex) : Vertex → Nat → Prop where
  | nil :
      Walk net source source 0
  | snoc
      {middle target : Vertex}
      {cost : Nat}
      (walk : Walk net source middle cost)
      (middleInside : middle ∈ net.vertices)
      (targetInside : target ∈ net.vertices)
      (edge : net.edge middle target) :
      Walk net source target (cost + net.weight middle target)

/-- The vertices that are settled, and the distances found so far. -/
structure Labels (Vertex : Type*) where
  settled : Vertex → Bool
  dist : Vertex → Nat

section

variable (net : Network Vertex) (source : Vertex)

/-- The vertices that may still be settled. -/
def Open (labels : Labels Vertex) (vertex : Vertex) : Prop :=
  vertex ∈ net.vertices ∧ vertex ≠ source ∧ labels.settled vertex = false

/-- A vertex below the limit that no other is nearer than. -/
def Nearest (labels : Labels Vertex) (vertex : Vertex) : Prop :=
  Open net source labels vertex ∧
    labels.dist vertex < net.limit ∧
    ∀ other, Open net source labels other → labels.dist vertex ≤ labels.dist other

/-- Nothing that is open leads to a distance below the limit. -/
def Exhausted (labels : Labels Vertex) : Prop :=
  ∀ vertex, Open net source labels vertex → net.limit ≤ labels.dist vertex + 1

/-- The distance from which a vertex is relaxed. -/
def reach
    [DecidableEq Vertex]
    (labels : Labels Vertex)
    (vertex : Vertex) : Nat :=
  if vertex = source then 0 else labels.dist vertex

/-- A vertex is settled, and the open ones are relaxed from it. -/
structure Settles
    [DecidableEq Vertex]
    (before : Labels Vertex)
    (vertex : Vertex)
    (after : Labels Vertex) : Prop where
  inside : vertex ∈ net.vertices
  selected : Nearest net source before vertex ∨ Exhausted net source before
  settled :
    ∀ other,
      after.settled other = true ↔ before.settled other = true ∨ other = vertex
  dist :
    ∀ other,
      other ∈ net.vertices →
      other ≠ source →
      after.dist other =
        if after.settled other = true then
          before.dist other
        else
          min (before.dist other)
            (reach source before vertex + net.weight vertex other)

/-- What holds of the labels all the time. -/
structure Sound (labels : Labels Vertex) : Prop where
  attained :
    ∀ {vertex},
      vertex ∈ net.vertices →
      vertex ≠ source →
      labels.dist vertex < net.limit →
      Walk net source vertex (labels.dist vertex)
  direct :
    ∀ {vertex},
      vertex ∈ net.vertices →
      vertex ≠ source →
      labels.dist vertex ≤ net.weight source vertex
  ordered :
    ∀ {first second},
      first ∈ net.vertices →
      first ≠ source →
      labels.settled first = true →
      Open net source labels second →
      labels.dist first ≤ labels.dist second ∨
        net.limit ≤ labels.dist second + 1
  relaxed :
    ∀ {first second},
      first ∈ net.vertices →
      first ≠ source →
      labels.settled first = true →
      second ∈ net.vertices →
      second ≠ source →
      labels.dist second ≤ labels.dist first + net.weight first second ∨
        net.limit ≤ labels.dist first + net.weight first second

end

section Settling

variable
  [DecidableEq Vertex]
  {net : Network Vertex}
  {source vertex : Vertex}
  {before after : Labels Vertex}

/-- No distance grows. -/
theorem Settles.dist_le
    (settles : Settles net source before vertex after)
    {other : Vertex}
    (inside : other ∈ net.vertices)
    (notSource : other ≠ source) :
    after.dist other ≤ before.dist other := by
  rw [settles.dist other inside notSource]
  split
  · exact Nat.le_refl _
  · exact Nat.min_le_left _ _

/-- What is settled keeps its distance. -/
theorem Settles.dist_settled
    (settles : Settles net source before vertex after)
    {other : Vertex}
    (inside : other ∈ net.vertices)
    (notSource : other ≠ source)
    (settled : after.settled other = true) :
    after.dist other = before.dist other := by
  rw [settles.dist other inside notSource, if_pos settled]

/-- What is open afterwards was open before, and is another vertex. -/
theorem Settles.open_before
    (settles : Settles net source before vertex after)
    {other : Vertex}
    (isOpen : Open net source after other) :
    Open net source before other ∧ other ≠ vertex := by
  obtain ⟨inside, notSource, notSettled⟩ := isOpen
  have neither : ¬(before.settled other = true ∨ other = vertex) := by
    rw [← settles.settled other, notSettled]
    exact Bool.false_ne_true
  rw [not_or] at neither
  exact ⟨⟨inside, notSource, Bool.eq_false_of_not_eq_true neither.1⟩, neither.2⟩

/-- A relaxed distance is the old one, or comes from the settled vertex. -/
theorem Settles.dist_open
    (settles : Settles net source before vertex after)
    {other : Vertex}
    (isOpen : Open net source after other) :
    after.dist other =
      min (before.dist other)
        (reach source before vertex + net.weight vertex other) := by
  rw [settles.dist other isOpen.1 isOpen.2.1, isOpen.2.2]
  exact if_neg Bool.false_ne_true

/-- Relaxing from a vertex that is settled already changes nothing below the limit. -/
theorem Sound.reach_settled
    (sound : Sound net source before)
    (vertexInside : vertex ∈ net.vertices)
    (settled : vertex = source ∨ before.settled vertex = true)
    {other : Vertex}
    (inside : other ∈ net.vertices)
    (notSource : other ≠ source) :
    before.dist other ≤ reach source before vertex + net.weight vertex other ∨
      net.limit ≤ reach source before vertex + net.weight vertex other := by
  unfold reach
  by_cases isSource : vertex = source
  · rw [if_pos isSource, isSource, Nat.zero_add]
    exact .inl (sound.direct inside notSource)
  · rw [if_neg isSource]
    exact sound.relaxed vertexInside isSource (settled.resolve_left isSource) inside
      notSource

/-- An open vertex is settled from its own distance. -/
theorem reach_of_ne
    (notSource : vertex ≠ source) :
    reach source before vertex = before.dist vertex :=
  if_neg notSource

/-- The vertex is the source, was settled before, or is newly settled. -/
theorem Settles.cases
    (settles : Settles net source before vertex after) :
    (vertex = source ∨ before.settled vertex = true) ∨
      Open net source before vertex := by
  by_cases isSource : vertex = source
  · exact .inl (.inl isSource)
  · cases settled : before.settled vertex with
    | true => exact .inl (.inr rfl)
    | false => exact .inr ⟨settles.inside, isSource, settled⟩

/-- Once no open vertex is near, none will be. -/
theorem Settles.exhausted
    (settles : Settles net source before vertex after)
    (sound : Sound net source before)
    (exhausted : Exhausted net source before) :
    Exhausted net source after := by
  intro other isOpen
  obtain ⟨wasOpen, -⟩ := settles.open_before isOpen
  have far := exhausted other wasOpen
  rw [settles.dist_open isOpen]
  rcases settles.cases with known | fresh
  · rcases sound.reach_settled settles.inside known wasOpen.1 wasOpen.2.1 with
      kept | large
    · omega
    · omega
  · have vertexFar := exhausted vertex fresh
    rw [reach_of_ne fresh.2.1]
    omega

/-- Settling a vertex keeps the labels sound. -/
theorem Settles.sound
    (settles : Settles net source before vertex after)
    (sourceInside : source ∈ net.vertices)
    (sound : Sound net source before) :
    Sound net source after where
  attained := by
    intro other inside notSource below
    by_cases kept : after.dist other = before.dist other
    · rw [kept] at below ⊢
      exact sound.attained inside notSource below
    · have notSettled : after.settled other = false := by
        apply Bool.eq_false_of_not_eq_true
        intro settled
        exact kept (settles.dist_settled inside notSource settled)
      have relaxed := settles.dist_open ⟨inside, notSource, notSettled⟩
      have fromVertex :
          after.dist other =
            reach source before vertex + net.weight vertex other := by
        omega
      rw [fromVertex] at below ⊢
      have edge : net.edge vertex other := by
        by_contra none
        have large := net.absent settles.inside inside none
        omega
      unfold reach at below ⊢
      by_cases isSource : vertex = source
      · rw [if_pos isSource, isSource]
        exact .snoc .nil sourceInside inside (isSource ▸ edge)
      · rw [if_neg isSource] at below ⊢
        exact .snoc (sound.attained settles.inside isSource (by omega))
          settles.inside inside edge
  direct := by
    intro other inside notSource
    exact Nat.le_trans (settles.dist_le inside notSource)
      (sound.direct inside notSource)
  ordered := by
    intro first second inside notSource settled isOpen
    obtain ⟨wasOpen, -⟩ := settles.open_before isOpen
    rw [settles.dist_settled inside notSource settled, settles.dist_open isOpen]
    rcases (settles.settled first).mp settled with earlier | isVertex
    · have order := sound.ordered inside notSource earlier wasOpen
      rcases settles.cases with known | fresh
      · rcases sound.reach_settled settles.inside known wasOpen.1 wasOpen.2.1 with
          kept | large <;>
          omega
      · have before := sound.ordered inside notSource earlier fresh
        rw [reach_of_ne fresh.2.1]
        omega
    · subst isVertex
      rw [reach_of_ne notSource]
      rcases settles.selected with nearest | exhausted
      · have least := nearest.2.2 second wasOpen
        omega
      · have far := exhausted second wasOpen
        by_cases earlier : before.settled first = true
        · rcases sound.relaxed inside notSource earlier wasOpen.1 wasOpen.2.1 with
            kept | large <;>
            omega
        · have firstFar :=
            exhausted first
              ⟨inside, notSource, Bool.eq_false_of_not_eq_true earlier⟩
          omega
  relaxed := by
    intro first second inside notSource settled secondInside secondNotSource
    have shorter := settles.dist_le secondInside secondNotSource
    rw [settles.dist_settled inside notSource settled]
    by_cases earlier : before.settled first = true
    · rcases sound.relaxed inside notSource earlier secondInside secondNotSource with
        kept | large <;>
        omega
    · have isVertex : first = vertex :=
        ((settles.settled first).mp settled).resolve_left earlier
      subst isVertex
      have fresh : Open net source before first :=
        ⟨inside, notSource, Bool.eq_false_of_not_eq_true earlier⟩
      have positive := net.positive inside secondInside
      by_cases secondSettled : after.settled second = true
      · rcases (settles.settled second).mp secondSettled with secondEarlier | same
        · have order := sound.ordered secondInside secondNotSource secondEarlier fresh
          omega
        · rw [same] at shorter ⊢
          omega
      · have relaxed :=
          settles.dist_open
            ⟨secondInside, secondNotSource,
              Bool.eq_false_of_not_eq_true secondSettled⟩
        rw [reach_of_ne notSource] at relaxed
        omega

end Settling

/-! ## Settling as often as there are vertices -/

section Runs

variable
  [DecidableEq Vertex]
  {net : Network Vertex}
  {source : Vertex}
  {before after : Labels Vertex}
  {order : List Vertex}

/-- The labels that a weight matrix starts with. -/
structure Initial
    (net : Network Vertex)
    (source : Vertex)
    (labels : Labels Vertex) : Prop where
  settled : ∀ vertex, labels.settled vertex = false
  dist :
    ∀ {vertex},
      vertex ∈ net.vertices →
      vertex ≠ source →
      labels.dist vertex = net.weight source vertex

omit [DecidableEq Vertex] in
theorem Initial.sound
    (initial : Initial net source before)
    (sourceInside : source ∈ net.vertices) :
    Sound net source before where
  attained := by
    intro vertex inside notSource below
    rw [initial.dist inside notSource] at below ⊢
    have edge : net.edge source vertex := by
      by_contra none
      exact Nat.not_lt.mpr (net.absent sourceInside inside none) below
    have walk : Walk net source vertex (0 + net.weight source vertex) :=
      .snoc .nil sourceInside inside edge
    rwa [Nat.zero_add] at walk
  direct := by
    intro vertex inside notSource
    exact Nat.le_of_eq (initial.dist inside notSource)
  ordered := by
    intro first second _ _ settled
    rw [initial.settled first] at settled
    cases settled
  relaxed := by
    intro first second _ _ settled
    rw [initial.settled first] at settled
    cases settled

/-- The vertices that are settled. -/
def settledSet (net : Network Vertex) (labels : Labels Vertex) : Finset Vertex :=
  net.vertices.filter fun vertex => labels.settled vertex = true

/-- Until nothing near is open, every step settles another vertex, never the source. -/
def Progress
    (net : Network Vertex)
    (source : Vertex)
    (steps : Nat)
    (labels : Labels Vertex) : Prop :=
  Exhausted net source labels ∨
    (labels.settled source = false ∧ steps ≤ (settledSet net labels).card)

theorem Settles.progress
    {vertex : Vertex}
    {steps : Nat}
    (settles : Settles net source before vertex after)
    (sound : Sound net source before)
    (progress : Progress net source steps before) :
    Progress net source (steps + 1) after := by
  rcases progress with exhausted | ⟨sourceOpen, enough⟩
  · exact .inl (settles.exhausted sound exhausted)
  · rcases settles.selected with nearest | exhausted
    · obtain ⟨inside, notSource, fresh⟩ := nearest.1
      refine .inr ⟨?_, ?_⟩
      · apply Bool.eq_false_of_not_eq_true
        rw [settles.settled source, sourceOpen]
        rintro (settled | same)
        · cases settled
        · exact notSource same.symm
      · have missing : vertex ∉ settledSet net before := by
          rw [settledSet, Finset.mem_filter, fresh]
          exact fun both => Bool.false_ne_true both.2
        have larger : insert vertex (settledSet net before) ⊆ settledSet net after := by
          intro other member
          rw [Finset.mem_insert] at member
          rw [settledSet, Finset.mem_filter, settles.settled other]
          rcases member with rfl | member
          · exact ⟨inside, .inr rfl⟩
          · obtain ⟨otherInside, settled⟩ := Finset.mem_filter.mp member
            exact ⟨otherInside, .inl settled⟩
        have size := Finset.card_le_card larger
        rw [Finset.card_insert_of_notMem missing] at size
        omega
    · exact .inl (settles.exhausted sound exhausted)

/-- Any number of steps keeps the labels sound and makes progress. -/
theorem run_progress
    {steps : Nat}
    (run : Run (Settles net source) before order after)
    (sourceInside : source ∈ net.vertices)
    (sound : Sound net source before)
    (progress : Progress net source steps before) :
    Sound net source after ∧ Progress net source (steps + order.length) after := by
  induction run generalizing steps with
  | nil labels =>
      exact ⟨sound, progress⟩
  | cons first rest inductionHypothesis =>
      obtain ⟨laterSound, laterProgress⟩ :=
        inductionHypothesis (first.sound sourceInside sound)
          (first.progress sound progress)
      rw [Nat.add_assoc, Nat.add_comm 1] at laterProgress
      exact ⟨laterSound, laterProgress⟩

/-- After as many steps as there are vertices, nothing near is open. -/
theorem run_exhausted
    (run : Run (Settles net source) before order after)
    (sourceInside : source ∈ net.vertices)
    (initial : Initial net source before)
    (complete : net.vertices.card ≤ order.length) :
    Sound net source after ∧ Exhausted net source after := by
  obtain ⟨sound, exhausted | ⟨sourceOpen, enough⟩⟩ :=
    run_progress run sourceInside (initial.sound sourceInside)
      (.inr ⟨initial.settled source, Nat.zero_le _⟩)
  · exact ⟨sound, exhausted⟩
  · have smaller : settledSet net after ⊂ net.vertices := by
      refine ⟨Finset.filter_subset _ _, fun all => ?_⟩
      have settled := (Finset.mem_filter.mp (all sourceInside)).2
      rw [sourceOpen] at settled
      cases settled
    have size := Finset.card_lt_card smaller
    omega

omit [DecidableEq Vertex] in
/-- A walk that is cheaper than the label of its end leaves the settled vertices. -/
theorem Walk.frontier
    {labels : Labels Vertex}
    {vertex : Vertex}
    {cost : Nat}
    (walk : Walk net source vertex cost)
    (sound : Sound net source labels)
    (notSource : vertex ≠ source)
    (below : cost < net.limit) :
    labels.dist vertex ≤ cost ∨
      ∃ other, Open net source labels other ∧ labels.dist other < cost := by
  induction walk with
  | nil =>
      exact absurd rfl notSource
  | @snoc middle target cost walk middleInside targetInside edge inductionHypothesis =>
      have positive := net.positive middleInside targetInside
      by_cases isSource : middle = source
      · have direct := sound.direct targetInside notSource
        rw [isSource]
        exact .inl (by omega)
      · rcases inductionHypothesis isSource (by omega) with
          reached | ⟨other, isOpen, nearer⟩
        · cases settled : labels.settled middle with
          | true =>
              have relaxed :=
                sound.relaxed middleInside isSource settled targetInside notSource
              exact .inl (by omega)
          | false =>
              exact .inr ⟨middle, ⟨middleInside, isSource, settled⟩, by omega⟩
        · exact .inr ⟨other, isOpen, by omega⟩

omit [DecidableEq Vertex] in
/-- When nothing near is open, no walk below the limit is cheaper than a label. -/
theorem Walk.dist_le
    {vertex : Vertex}
    {cost : Nat}
    (walk : Walk net source vertex cost)
    (sound : Sound net source after)
    (exhausted : Exhausted net source after)
    (notSource : vertex ≠ source)
    (below : cost < net.limit) :
    after.dist vertex ≤ cost := by
  rcases walk.frontier sound notSource below with reached | ⟨other, isOpen, nearer⟩
  · exact reached
  · have far := exhausted other isOpen
    omega

/--
Dijkstra's algorithm is right: after as many steps as there are vertices, the
label of a vertex is the least cost of a walk if that is below the limit, and is
not below it otherwise.
-/
theorem run_least
    (run : Run (Settles net source) before order after)
    (sourceInside : source ∈ net.vertices)
    (initial : Initial net source before)
    (complete : net.vertices.card ≤ order.length)
    {vertex : Vertex}
    (inside : vertex ∈ net.vertices)
    (notSource : vertex ≠ source) :
    ((∃ cost, Walk net source vertex cost ∧ cost < net.limit) →
        IsLeast {cost | Walk net source vertex cost} (after.dist vertex)) ∧
      ((∀ cost, Walk net source vertex cost → net.limit ≤ cost) →
        net.limit ≤ after.dist vertex) := by
  obtain ⟨sound, exhausted⟩ := run_exhausted run sourceInside initial complete
  constructor
  · rintro ⟨cost, walk, below⟩
    have least := walk.dist_le sound exhausted notSource below
    refine ⟨sound.attained inside notSource (by omega), fun other otherWalk => ?_⟩
    by_cases otherBelow : other < net.limit
    · exact Walk.dist_le otherWalk sound exhausted notSource otherBelow
    · omega
  · intro far
    by_contra near
    have below := Nat.lt_of_not_le near
    exact near (far _ (sound.attained inside notSource below))

end Runs

/-! ## The orders in which vertices may be settled -/

section Orders

variable (net : Network Vertex) (source spare : Vertex)

/-- A vertex that has not been settled in `order`. -/
def Remaining (order : List Vertex) (vertex : Vertex) : Prop :=
  vertex ∈ net.vertices ∧ vertex ≠ source ∧ vertex ∉ order

/--
What may be settled after `order`: a vertex that no remaining one is nearer than,
or the spare vertex if none that remains is near.
-/
inductive MayFollow (order : List Vertex) : Vertex → Prop where
  | nearest
      {vertex : Vertex}
      {cost : Nat}
      (walk : Walk net source vertex cost)
      (below : cost < net.limit)
      (least :
        ∀ other otherCost,
          Remaining net source order other →
          Walk net source other otherCost →
          cost ≤ otherCost) :
      MayFollow order vertex
  | spare
      (far :
        ∀ other otherCost,
          Remaining net source order other →
          Walk net source other otherCost →
          net.limit ≤ otherCost + 1) :
      MayFollow order spare

/-- An order in which vertices may be settled, with the last one first. -/
inductive SettlingOrder : List Vertex → Prop where
  | nil :
      SettlingOrder []
  | cons
      {order : List Vertex}
      {vertex : Vertex}
      (before : SettlingOrder order)
      (remaining : Remaining net source order vertex)
      (follows : MayFollow net source spare order vertex) :
      SettlingOrder (vertex :: order)

end Orders

section Following

variable
  {net : Network Vertex}
  {source spare vertex : Vertex}
  {labels : Labels Vertex}
  {order : List Vertex}

/-- The source is not in an order. -/
theorem SettlingOrder.inside
    (settling : SettlingOrder net source spare order)
    {member : Vertex}
    (isMember : member ∈ order) :
    member ∈ net.vertices ∧ member ≠ source := by
  induction settling with
  | nil =>
      cases isMember
  | cons before remaining _ inductionHypothesis =>
      rcases List.mem_cons.mp isMember with same | earlier
      · exact same ▸ ⟨remaining.1, remaining.2.1⟩
      · exact inductionHypothesis earlier

theorem SettlingOrder.nodup
    (settling : SettlingOrder net source spare order) :
    order.Nodup := by
  induction settling with
  | nil => exact .nil
  | cons before remaining _ inductionHypothesis =>
      exact inductionHypothesis.cons remaining.2.2

/-- An order has fewer members than there are vertices. -/
theorem SettlingOrder.length_lt
    [DecidableEq Vertex]
    (settling : SettlingOrder net source spare order)
    (sourceInside : source ∈ net.vertices) :
    order.length < net.vertices.card := by
  have smaller : order.toFinset ⊆ net.vertices.erase source := by
    intro member isMember
    obtain ⟨inside, notSource⟩ := settling.inside (List.mem_toFinset.mp isMember)
    exact Finset.mem_erase.mpr ⟨notSource, inside⟩
  have size := Finset.card_le_card smaller
  have positive := Finset.card_pos.mpr ⟨source, sourceInside⟩
  rw [List.toFinset_card_of_nodup settling.nodup,
    Finset.card_erase_of_mem sourceInside] at size
  omega

theorem Remaining.cons_iff
    {other : Vertex} :
    Remaining net source (vertex :: order) other ↔
      Remaining net source order other ∧ other ≠ vertex := by
  unfold Remaining
  rw [List.mem_cons, not_or]
  constructor
  · rintro ⟨inside, notSource, different, fresh⟩
    exact ⟨⟨inside, notSource, fresh⟩, different⟩
  · rintro ⟨⟨inside, notSource, fresh⟩, different⟩
    exact ⟨inside, notSource, different, fresh⟩

/-- Where the labels are sound, what the labels select may follow. -/
theorem Sound.mayFollow
    (sound : Sound net source labels)
    (remaining :
      ∀ other, Remaining net source order other → Open net source labels other)
    (selected :
      Nearest net source labels vertex ∨
        Exhausted net source labels ∧ vertex = spare) :
    MayFollow net source spare order vertex := by
  rcases selected with ⟨isOpen, below, least⟩ | ⟨exhausted, rfl⟩
  · refine .nearest (sound.attained isOpen.1 isOpen.2.1 below) below ?_
    intro other cost remains walk
    by_contra cheaper
    rcases walk.frontier sound remains.2.1 (by omega) with
      reached | ⟨nearer, nearerOpen, nearerLt⟩
    · have otherLe := least other (remaining other remains)
      omega
    · have nearerLe := least nearer nearerOpen
      omega
  · refine .spare fun other cost remains walk => ?_
    by_contra near
    have far := exhausted other (remaining other remains)
    rcases walk.frontier sound remains.2.1 (by omega) with
      reached | ⟨nearer, nearerOpen, nearerLt⟩
    · omega
    · have nearerFar := exhausted nearer nearerOpen
      omega

/-- Where the labels are sound, the labels may select what may follow. -/
theorem MayFollow.selected
    (follows : MayFollow net source spare order vertex)
    (sound : Sound net source labels)
    (isOpen : Open net source labels vertex)
    (remaining :
      ∀ other, Open net source labels other → Remaining net source order other) :
    Nearest net source labels vertex ∨
      Exhausted net source labels ∧ vertex = spare := by
  cases follows with
  | @nearest _ cost walk below least =>
      have noneNearer {other : Vertex} (otherOpen : Open net source labels other) :
          cost ≤ labels.dist other := by
        by_contra nearer
        have walkOther :=
          sound.attained otherOpen.1 otherOpen.2.1
            (Nat.lt_trans (Nat.lt_of_not_le nearer) below)
        exact nearer (least other _ (remaining other otherOpen) walkOther)
      have reached : labels.dist vertex ≤ cost := by
        rcases walk.frontier sound isOpen.2.1 below with
          reached | ⟨other, otherOpen, nearer⟩
        · exact reached
        · have otherLe := noneNearer otherOpen
          omega
      exact .inl ⟨isOpen, Nat.lt_of_le_of_lt reached below,
        fun other otherOpen => Nat.le_trans reached (noneNearer otherOpen)⟩
  | spare far =>
      refine .inr ⟨fun other otherOpen => ?_, rfl⟩
      by_contra near
      have walk := sound.attained otherOpen.1 otherOpen.2.1 (by omega)
      exact near (far other _ (remaining other otherOpen) walk)

end Following

/-! ## Routes through the vertices of an order -/

section Routes

variable (net : Network Vertex) (source : Vertex)

/--
A route by way of vertices in the order in which they were settled, with the sum
of its weights; `starts` says where it may begin.
-/
inductive Route
    (starts : Vertex → Prop) : List Vertex → Vertex → Nat → Prop where
  | direct
      {target : Vertex}
      (inside : target ∈ net.vertices)
      (first : starts target) :
      Route starts [] target (net.weight source target)
  | older
      {order : List Vertex}
      {last target : Vertex}
      {cost : Nat}
      (route : Route starts order target cost) :
      Route starts (last :: order) target cost
  | through
      {order : List Vertex}
      {last target : Vertex}
      {cost : Nat}
      (route : Route starts order last cost) :
      Route starts (last :: order) target (cost + net.weight last target)

/-- The least cost of a route. -/
def Cheapest (order : List Vertex) (target : Vertex) (cost : Nat) : Prop :=
  IsLeast {cost | Route net source (fun _ => True) order target cost} cost

/-- The first hops of the cheapest routes. -/
def firstHops
    (hops : Vertex → Set Vertex)
    (order : List Vertex)
    (target : Vertex) : Set Vertex :=
  {hop |
    ∃ cost,
      Cheapest net source order target cost ∧
        Route net source (fun first => hop ∈ hops first) order target cost}

variable {net source} {order : List Vertex} {last target : Vertex}

theorem Route.cons_iff
    {starts : Vertex → Prop}
    {cost : Nat} :
    Route net source starts (last :: order) target cost ↔
      Route net source starts order target cost ∨
        ∃ lastCost,
          Route net source starts order last lastCost ∧
            cost = lastCost + net.weight last target := by
  constructor
  · rintro (_ | route | route)
    · exact .inl route
    · exact .inr ⟨_, route, rfl⟩
  · rintro (route | ⟨lastCost, route, rfl⟩)
    · exact .older route
    · exact .through route

/-- A route is one wherever it begins. -/
theorem Route.anywhere
    {starts : Vertex → Prop}
    {cost : Nat}
    (route : Route net source starts order target cost) :
    Route net source (fun _ => True) order target cost := by
  induction route with
  | direct inside _ => exact .direct inside trivial
  | older _ inductionHypothesis => exact .older inductionHypothesis
  | through _ inductionHypothesis => exact .through inductionHypothesis

theorem Cheapest.nil
    (inside : target ∈ net.vertices) :
    Cheapest net source [] target (net.weight source target) := by
  refine ⟨.direct inside trivial, ?_⟩
  rintro cost ⟨⟩
  exact Nat.le_refl _

theorem Cheapest.cons
    {cost lastCost : Nat}
    (cheapest : Cheapest net source order target cost)
    (cheapestLast : Cheapest net source order last lastCost) :
    Cheapest net source (last :: order) target
      (min cost (lastCost + net.weight last target)) := by
  constructor
  · rcases Nat.le_total cost (lastCost + net.weight last target) with kept | nearer
    · rw [Nat.min_eq_left kept]
      exact .older cheapest.1
    · rw [Nat.min_eq_right nearer]
      exact .through cheapestLast.1
  · intro other route
    rcases Route.cons_iff.mp route with older | ⟨otherLast, through, rfl⟩
    · exact Nat.le_trans (Nat.min_le_left _ _) (cheapest.2 older)
    · exact Nat.le_trans (Nat.min_le_right _ _)
        (Nat.add_le_add_right (cheapestLast.2 through) _)

/-- Where the cost is known, the first hops are those of the routes with that cost. -/
theorem Cheapest.mem_firstHops
    {hops : Vertex → Set Vertex}
    {hop : Vertex}
    {cost : Nat}
    (cheapest : Cheapest net source order target cost) :
    hop ∈ firstHops net source hops order target ↔
      Route net source (fun first => hop ∈ hops first) order target cost := by
  constructor
  · rintro ⟨other, otherCheapest, route⟩
    rwa [cheapest.unique otherCheapest]
  · intro route
    exact ⟨cost, cheapest, route⟩

theorem firstHops_nil
    {hops : Vertex → Set Vertex}
    (inside : target ∈ net.vertices) :
    firstHops net source hops [] target = hops target := by
  ext hop
  rw [(Cheapest.nil inside).mem_firstHops]
  constructor
  · rintro ⟨⟩
    assumption
  · exact fun first => .direct inside first

/-- Another vertex adds its first hops where it is as near, and replaces them where nearer. -/
theorem Cheapest.firstHops_cons
    {hops : Vertex → Set Vertex}
    {hop : Vertex}
    {cost lastCost : Nat}
    (cheapest : Cheapest net source order target cost)
    (cheapestLast : Cheapest net source order last lastCost) :
    hop ∈ firstHops net source hops (last :: order) target ↔
      (cost ≤ lastCost + net.weight last target ∧
          hop ∈ firstHops net source hops order target) ∨
        (lastCost + net.weight last target ≤ cost ∧
          hop ∈ firstHops net source hops order last) := by
  rw [(cheapest.cons cheapestLast).mem_firstHops, cheapest.mem_firstHops,
    cheapestLast.mem_firstHops, Route.cons_iff]
  constructor
  · rintro (older | ⟨otherLast, through, same⟩)
    · have least := cheapest.2 older.anywhere
      have kept : min cost (lastCost + net.weight last target) = cost := by omega
      rw [kept] at older
      exact .inl ⟨by omega, older⟩
    · have least := cheapestLast.2 through.anywhere
      have lastSame : otherLast = lastCost := by omega
      exact .inr ⟨by omega, lastSame ▸ through⟩
  · rintro (⟨kept, older⟩ | ⟨nearer, through⟩)
    · rw [Nat.min_eq_left kept]
      exact .inl older
    · rw [Nat.min_eq_right nearer]
      exact .inr ⟨lastCost, through, rfl⟩

/-- Every first hop is where some route begins. -/
theorem firstHops_subset
    {hops : Vertex → Set Vertex}
    {allowed : Set Vertex}
    (inside : ∀ vertex ∈ net.vertices, hops vertex ⊆ allowed) :
    firstHops net source hops order target ⊆ allowed := by
  rintro hop ⟨cost, -, route⟩
  induction route with
  | direct targetInside first => exact inside _ targetInside first
  | older _ inductionHypothesis => exact inductionHypothesis
  | through _ inductionHypothesis => exact inductionHypothesis

end Routes

end Pma.ShortestPaths
