import Mathlib.Data.Nat.Find
import Pma.ShortestPaths

namespace Pma.ShortestPaths

/-!
# The first hops of the shortest walks

Where vertices are settled in the order of their distances, the cheapest routes
by way of what is settled begin where the shortest walks begin: all but the last
vertex of a shortest walk are nearer than the last one, and so they have been
settled before it.
-/

variable {Vertex : Type*} {net : Network Vertex} {source target hop : Vertex}

/-! ## Walks -/

/-- The cost of a shortest walk. -/
def Distance (net : Network Vertex) (source target : Vertex) (cost : Nat) : Prop :=
  IsLeast {cost | Walk net source target cost} cost

theorem Walk.append
    {middle : Vertex}
    {cost rest : Nat}
    (first : Walk net source middle cost)
    (later : Walk net middle target rest) :
    Walk net source target (cost + rest) := by
  induction later with
  | nil =>
      exact first
  | snoc walk middleInside targetInside edge inductionHypothesis =>
      rw [← Nat.add_assoc]
      exact .snoc inductionHypothesis middleInside targetInside edge

/-- A walk of one edge. -/
theorem Walk.single
    (sourceInside : source ∈ net.vertices)
    (targetInside : target ∈ net.vertices)
    (edge : net.edge source target) :
    Walk net source target (net.weight source target) := by
  have walk : Walk net source target (0 + net.weight source target) :=
    .snoc .nil sourceInside targetInside edge
  rwa [Nat.zero_add] at walk

/-- A walk is empty or begins with an edge. -/
theorem Walk.uncons
    {cost : Nat}
    (walk : Walk net source target cost) :
    (target = source ∧ cost = 0) ∨
      ∃ hop rest,
        source ∈ net.vertices ∧ hop ∈ net.vertices ∧ net.edge source hop ∧
          Walk net hop target rest ∧ cost = net.weight source hop + rest := by
  induction walk with
  | nil =>
      exact .inl ⟨rfl, rfl⟩
  | @snoc middle target cost walk middleInside targetInside edge inductionHypothesis =>
      right
      rcases inductionHypothesis with
        ⟨rfl, rfl⟩ | ⟨hop, rest, sourceInside, hopInside, first, later, rfl⟩
      · exact ⟨target, 0, middleInside, targetInside, edge, .nil, Nat.add_comm _ _⟩
      · exact ⟨hop, rest + net.weight middle target, sourceInside, hopInside, first,
          .snoc later middleInside targetInside edge, Nat.add_assoc _ _ _⟩

/-- If no edge goes down by more than its weight, no walk goes down by more than its cost. -/
theorem Walk.height_le
    {cost : Nat}
    (walk : Walk net source target cost)
    {height : Vertex → Nat}
    (edges :
      ∀ first ∈ net.vertices,
        ∀ second ∈ net.vertices,
          net.edge first second →
          height first ≤ net.weight first second + height second) :
    height source ≤ cost + height target := by
  induction walk with
  | nil =>
      exact Nat.le_add_left _ _
  | snoc _ middleInside targetInside edge inductionHypothesis =>
      have last := edges _ middleInside _ targetInside edge
      omega

/-- Where there is a walk, there is a shortest one. -/
theorem Walk.exists_distance
    {cost : Nat}
    (walk : Walk net source target cost) :
    ∃ least ≤ cost, Distance net source target least := by
  classical
  have walks : ∃ cost, Walk net source target cost := ⟨cost, walk⟩
  exact ⟨Nat.find walks, Nat.find_min' walks walk, Nat.find_spec walks,
    fun _ other => Nat.find_min' walks other⟩

/-- A vertex from which a shortest walk goes on after its first edge. -/
def FirstHop (net : Network Vertex) (source target hop : Vertex) : Prop :=
  source ∈ net.vertices ∧ hop ∈ net.vertices ∧ net.edge source hop ∧
    ∃ rest, Walk net hop target rest ∧ Distance net source target (net.weight source hop + rest)

/-- A shortest walk to another vertex has a first hop. -/
theorem Distance.exists_firstHop
    {cost : Nat}
    (distance : Distance net source target cost)
    (other : target ≠ source) :
    ∃ hop, FirstHop net source target hop := by
  rcases Walk.uncons distance.1 with
    ⟨same, -⟩ | ⟨hop, rest, sourceInside, hopInside, edge, later, rfl⟩
  · exact absurd same other
  · exact ⟨hop, sourceInside, hopInside, edge, rest, later, distance⟩

/-- What is behind the first hop is a shortest walk as well. -/
theorem FirstHop.rest
    (first : FirstHop net source target hop)
    {cost : Nat}
    (distance : Distance net source target cost) :
    ∃ rest, Distance net hop target rest ∧ cost = net.weight source hop + rest := by
  obtain ⟨sourceInside, hopInside, edge, rest, walk, least⟩ := first
  have same : cost = net.weight source hop + rest := distance.unique least
  refine ⟨rest, ⟨walk, fun other otherWalk => ?_⟩, same⟩
  have longer := least.2 ((Walk.single sourceInside hopInside edge).append otherWalk)
  omega

/-! ## Routes -/

section Routes

variable {starts : Vertex → Prop} {order : List Vertex}

/-- More vertices may be passed through. -/
theorem Route.suffix
    {earlier : List Vertex}
    {cost : Nat}
    (route : Route net source starts earlier target cost)
    (isSuffix : earlier <:+ order) :
    Route net source starts order target cost := by
  obtain ⟨later, rfl⟩ := isSuffix
  induction later with
  | nil =>
      exact route
  | cons last later inductionHypothesis =>
      exact .older inductionHypothesis

/-- A route below the limit is an edge and a walk. -/
theorem Route.walk
    {cost : Nat}
    (route : Route net source starts order target cost)
    (sourceInside : source ∈ net.vertices)
    (targetInside : target ∈ net.vertices)
    (inside : ∀ vertex ∈ order, vertex ∈ net.vertices)
    (below : cost < net.limit) :
    ∃ hop rest,
      starts hop ∧ net.weight source hop < net.limit ∧ hop ∈ net.vertices ∧
        net.edge source hop ∧ Walk net hop target rest ∧
        cost = net.weight source hop + rest := by
  induction route with
  | @direct target _ first =>
      have edge : net.edge source target := by
        by_contra none
        exact absurd (net.absent sourceInside targetInside none) (Nat.not_le.mpr below)
      exact ⟨_, 0, first, below, targetInside, edge, .nil, rfl⟩
  | older _ inductionHypothesis =>
      exact inductionHypothesis targetInside
        (fun vertex member => inside vertex (List.mem_cons_of_mem _ member)) below
  | @through order last target cost _ inductionHypothesis =>
      have lastInside := inside last List.mem_cons_self
      have edge : net.edge last target := by
        by_contra none
        have large := net.absent lastInside targetInside none
        omega
      obtain ⟨hop, rest, first, near, hopInside, firstEdge, walk, rfl⟩ :=
        inductionHypothesis lastInside
          (fun vertex member => inside vertex (List.mem_cons_of_mem _ member)) (by omega)
      exact ⟨hop, rest + net.weight last target, first, near, hopInside, firstEdge,
        .snoc walk lastInside targetInside edge, Nat.add_assoc _ _ _⟩

end Routes

/-! ## Routes and shortest walks -/

section Settled

variable {spare vertex : Vertex} {order : List Vertex}

/-- All vertices that are nearer than a distance have been settled. -/
def NearerSettled (net : Network Vertex) (source : Vertex) (order : List Vertex) (cost : Nat) :
    Prop :=
  ∀ vertex other,
    vertex ∈ net.vertices →
    vertex ≠ source →
    Walk net source vertex other →
    other < cost →
    vertex ∈ order

/-- What may follow is settled after everything that is nearer. -/
theorem MayFollow.nearerSettled
    (follows : MayFollow net source spare order vertex)
    {cost : Nat}
    (distance : Distance net source vertex cost)
    (below : cost < net.limit) :
    NearerSettled net source order cost := by
  intro other otherCost otherInside notSource walk nearer
  by_contra fresh
  have remains : Remaining net source order other := ⟨otherInside, notSource, fresh⟩
  cases follows with
  | nearest vertexWalk _ least =>
      have vertexLe := distance.2 vertexWalk
      have otherLe := least other otherCost remains walk
      omega
  | spare far =>
      have otherFar := far other otherCost remains walk
      omega

/-- Where a vertex was settled in an order. -/
theorem SettlingOrder.settledAt
    (settling : SettlingOrder net source spare order)
    (member : vertex ∈ order) :
    ∃ earlier,
      vertex :: earlier <:+ order ∧
        SettlingOrder net source spare earlier ∧
        Remaining net source earlier vertex ∧
        MayFollow net source spare earlier vertex := by
  induction settling with
  | nil =>
      cases member
  | cons before remains follows inductionHypothesis =>
      rcases List.mem_cons.mp member with rfl | earlier
      · exact ⟨_, List.suffix_refl _, before, remains, follows⟩
      · obtain ⟨first, isSuffix, rest⟩ := inductionHypothesis earlier
        exact ⟨first, isSuffix.trans (List.suffix_cons _ _), rest⟩

/--
A shortest walk is a route, as all its vertices but the last are nearer.  The
induction is on the cost, and the route is that of the last vertex but one when
that was settled.
-/
theorem FirstHop.route
    {hops : Vertex → Set Vertex}
    (own :
      ∀ vertex ∈ net.vertices, net.weight source vertex < net.limit → vertex ∈ hops vertex)
    (settling : SettlingOrder net source spare order)
    {cost : Nat}
    (first : FirstHop net source target hop)
    (notSource : target ≠ source)
    (distance : Distance net source target cost)
    (below : cost < net.limit)
    (nearer : NearerSettled net source order cost) :
    Route net source (fun start => hop ∈ hops start) order target cost := by
  induction cost using Nat.strong_induction_on generalizing target order with
  | _ cost inductionHypothesis =>
      have firstHop := first
      obtain ⟨sourceInside, hopInside, edge, rest, walk, least⟩ := first
      have same : cost = net.weight source hop + rest := distance.unique least
      have positive := net.positive sourceInside hopInside
      cases walk with
      | nil =>
          have near : net.weight source hop < net.limit := by omega
          have direct :
              Route net source (fun start => hop ∈ hops start) [] hop (net.weight source hop) :=
            .direct hopInside (own hop hopInside near)
          rw [same]
          exact direct.suffix (List.nil_suffix)
      | @snoc middle _ walkCost walk middleInside targetInside lastEdge =>
          have lastPositive := net.positive middleInside targetInside
          have middleNotSource : middle ≠ source := by
            rintro rfl
            have shorter := least.2 (Walk.single middleInside targetInside lastEdge)
            omega
          have whole : Walk net source middle (net.weight source hop + walkCost) :=
            (Walk.single sourceInside hopInside edge).append walk
          have middleDistance :
              Distance net source middle (net.weight source hop + walkCost) := by
            refine ⟨whole, fun other otherWalk => ?_⟩
            have longer := least.2 (.snoc otherWalk middleInside targetInside lastEdge)
            omega
          have settled : middle ∈ order :=
            nearer middle _ middleInside middleNotSource whole (by omega)
          obtain ⟨earlier, isSuffix, before, -, follows⟩ := settling.settledAt settled
          have middleBelow : net.weight source hop + walkCost < net.limit := by omega
          have route := inductionHypothesis (net.weight source hop + walkCost) (by omega)
            before ⟨sourceInside, hopInside, edge, walkCost, walk, middleDistance⟩
            middleNotSource middleDistance middleBelow
            (follows.nearerSettled middleDistance middleBelow)
          have through :
              Route net source (fun start => hop ∈ hops start) (middle :: earlier) target
                (net.weight source hop + walkCost + net.weight middle target) :=
            .through route
          have last := through.suffix isSuffix
          rwa [Nat.add_assoc, ← same] at last

/-- The cheapest route below the limit costs what a shortest walk costs. -/
theorem Distance.cheapest
    {cost : Nat}
    (distance : Distance net source target cost)
    (settling : SettlingOrder net source spare order)
    (sourceInside : source ∈ net.vertices)
    (targetInside : target ∈ net.vertices)
    (notSource : target ≠ source)
    (below : cost < net.limit)
    (nearer : NearerSettled net source order cost) :
    Cheapest net source order target cost := by
  obtain ⟨hop, first⟩ := distance.exists_firstHop notSource
  have everywhere :
      ∀ vertex ∈ net.vertices,
        net.weight source vertex < net.limit → vertex ∈ (Set.univ : Set Vertex) :=
    fun vertex _ _ => Set.mem_univ vertex
  have route := first.route everywhere settling notSource distance below nearer
  refine ⟨route.anywhere, fun other otherRoute => ?_⟩
  by_contra cheaper
  have otherBelow : other < net.limit := by omega
  obtain ⟨start, rest, -, -, startInside, edge, walk, rfl⟩ :=
    Route.walk otherRoute sourceInside targetInside
      (fun vertex member => (settling.inside member).1) otherBelow
  have longer := distance.2 ((Walk.single sourceInside startInside edge).append walk)
  omega

/-- The cheapest routes begin where the shortest walks begin. -/
theorem mem_firstHops_iff
    {hops : Vertex → Set Vertex}
    {cost : Nat}
    (own :
      ∀ vertex ∈ net.vertices, net.weight source vertex < net.limit → hops vertex = {vertex})
    (distance : Distance net source target cost)
    (settling : SettlingOrder net source spare order)
    (sourceInside : source ∈ net.vertices)
    (targetInside : target ∈ net.vertices)
    (notSource : target ≠ source)
    (below : cost < net.limit)
    (nearer : NearerSettled net source order cost) :
    hop ∈ firstHops net source hops order target ↔ FirstHop net source target hop := by
  have cheapest :=
    distance.cheapest settling sourceInside targetInside notSource below nearer
  rw [cheapest.mem_firstHops]
  constructor
  · intro route
    obtain ⟨start, rest, isStart, near, startInside, edge, walk, rfl⟩ :=
      route.walk sourceInside targetInside
        (fun vertex member => (settling.inside member).1) below
    rw [own start startInside near, Set.mem_singleton_iff] at isStart
    subst isStart
    exact ⟨sourceInside, startInside, edge, rest, walk, distance⟩
  · intro first
    refine first.route (fun vertex inside near => ?_) settling notSource distance below nearer
    rw [own vertex inside near]
    exact Set.mem_singleton vertex

end Settled

end Pma.ShortestPaths
