import Mathlib.Data.List.Nodup
import Pma.IntrusiveRing

namespace Pma.NullTerminated

open IntrusiveRing

/-!
# Doubly linked lists with two ends

A doubly linked list through fields of its nodes, with a pointer to its first
and one to its last node, and the null pointer at both ends.  With the null
pointer as a node of its own, before the first and behind the last, it is a
ring, so that what holds of rings holds of it.
-/

variable {Node : Type}

/-- The neighbours of all nodes; `none` is the null pointer. -/
structure Neighbours (Node : Type) where
  next : Node → Option Node
  prev : Node → Option Node

/-- The pointers to the first and to the last node of a list. -/
structure Ends (Node : Type) where
  head : Option Node
  tail : Option Node

/-- The ring of a list and the null pointer. -/
def ring (neighbours : Neighbours Node) (ends : Ends Node) : Links (Option Node) where
  next pointer := pointer.elim ends.head neighbours.next
  prev pointer := pointer.elim ends.tail neighbours.prev

/-- The list from the head to the tail, in both directions. -/
def Holds (neighbours : Neighbours Node) (ends : Ends Node) (nodes : List Node) : Prop :=
  (ring neighbours ends).Linked none (nodes.map some)

/-- An insertion before a place, seen from the node before it. -/
theorem insertTail_behind
    [DecidableEq Node]
    {links : Links Node}
    {place node : Node}
    (back : links.prev (links.next place) = place)
    (notBehind : node ≠ links.next place) :
    links.insertTail (links.next place) node =
      { next := Function.update (Function.update links.next node (links.next place)) place node
        prev := Function.update (Function.update links.prev node place)
          (links.next place) node } := by
  unfold Links.insertTail
  dsimp only
  rw [Function.update_of_ne notBehind.symm, back]

namespace Holds

variable
  {neighbours changed : Neighbours Node}
  {ends changedEnds : Ends Node}
  {nodes first second : List Node}
  {node other : Node}

theorem nodup
    (holds : Holds neighbours ends nodes) :
    nodes.Nodup :=
  List.Nodup.of_map some (List.nodup_cons.mp holds.distinct).2

/-- The list without a node. -/
theorem nil
    (head : ends.head = none)
    (tail : ends.tail = none) :
    Holds neighbours ends [] :=
  Links.linked_nil head tail

theorem head_eq
    (holds : Holds neighbours ends nodes) :
    ends.head = nodes.head? := by
  have atHead := holds.next_head.1
  cases nodes with
  | nil =>
      exact atHead
  | cons node rest =>
      exact atHead

theorem tail_eq
    (holds : Holds neighbours ends nodes) :
    ends.tail = nodes.getLast? := by
  rcases List.eq_nil_or_concat nodes with rfl | ⟨earlier, last, rfl⟩
  · exact holds.segment.2
  · have segment := holds.segment
    rw [List.concat_eq_append, List.map_append] at segment
    have back := (Links.segment_append.mp segment).2.2
    rw [List.concat_eq_append, List.getLast?_concat]
    exact back

/-- The node behind another one, or the null pointer. -/
theorem next_eq
    (holds : Holds neighbours ends (first ++ node :: second)) :
    neighbours.next node = second.head? := by
  have segment := holds.segment
  rw [List.map_append] at segment
  have onward := (Links.segment_append.mp segment).2
  cases second with
  | nil =>
      exact onward.1
  | cons behind rest =>
      exact onward.1

/-- The node before another one, or the null pointer. -/
theorem prev_eq
    (holds : Holds neighbours ends (first ++ node :: second)) :
    neighbours.prev node = first.getLast? := by
  have segment := holds.segment
  rw [List.map_append] at segment
  have before := (Links.segment_append.mp segment).1
  rcases List.eq_nil_or_concat first with rfl | ⟨earlier, last, rfl⟩
  · exact before.2
  · rw [List.concat_eq_append, List.map_append] at before
    have back := (Links.segment_append.mp before).2.2
    rw [List.concat_eq_append, List.getLast?_concat]
    exact back

/-- Only the ends and the neighbours of the nodes of a list matter to it. -/
theorem congr
    (holds : Holds neighbours ends nodes)
    (sameEnds : changedEnds = ends)
    (same :
      ∀ node ∈ nodes,
        changed.next node = neighbours.next node ∧ changed.prev node = neighbours.prev node) :
    Holds changed changedEnds nodes := by
  subst sameEnds
  apply Links.Linked.congr holds
  intro pointer member
  rcases List.mem_cons.mp member with rfl | inNodes
  · exact ⟨rfl, rfl⟩
  · obtain ⟨node, isNode, rfl⟩ := List.mem_map.mp inNodes
    exact same node isNode

variable [DecidableEq Node]

/-- An insertion before a node, or at the end when the place is the null pointer. -/
theorem insert
    (holds : Holds neighbours ends (first ++ second))
    (fresh : node ∉ first ++ second)
    (inserted :
      ring changed changedEnds = (ring neighbours ends).insertTail second.head? (some node)) :
    Holds changed changedEnds (first ++ node :: second) := by
  have place : (second.map some).headD none = second.head? := by
    cases second <;> rfl
  unfold Holds at holds ⊢
  rw [List.map_append] at holds
  rw [inserted, ← place, List.map_append]
  apply holds.insertBefore
  rw [← List.map_append]
  intro member
  rcases List.mem_cons.mp member with isNone | inNodes
  · cases isNone
  · exact fresh (by simpa using inNodes)

/-- An insertion leaves the neighbours of all nodes outside as they were. -/
theorem insert_outside
    (holds : Holds neighbours ends (first ++ second))
    (fresh : node ∉ first ++ second)
    (inserted :
      ring changed changedEnds = (ring neighbours ends).insertTail second.head? (some node))
    (outside : other ∉ first ++ second)
    (different : other ≠ node) :
    changed.next other = neighbours.next other ∧ changed.prev other = neighbours.prev other := by
  have place : (second.map some).headD none = second.head? := by
    cases second <;> rfl
  have notMember {pointer : Node} (away : pointer ∉ first ++ second) :
      some pointer ∉ none :: (first.map some ++ second.map some) := by
    rw [← List.map_append]
    simpa using away
  unfold Holds at holds
  rw [List.map_append] at holds
  have same := holds.insertBefore_outside (notMember fresh) (notMember outside)
    (fun equal => different (Option.some.inj equal))
  rw [place, ← inserted] at same
  exact same

/--
Taking a node out leaves the others; the neighbours of the node itself may be
anything afterwards.
-/
theorem delete
    (holds : Holds neighbours ends (first ++ node :: second))
    (deleted :
      ∀ pointer, pointer ≠ some node →
        (ring changed changedEnds).next pointer =
            ((ring neighbours ends).unlink (some node)).next pointer ∧
          (ring changed changedEnds).prev pointer =
            ((ring neighbours ends).unlink (some node)).prev pointer) :
    Holds changed changedEnds (first ++ second) := by
  have apart := List.perm_middle.nodup_iff.mp holds.nodup
  unfold Holds at holds ⊢
  rw [List.map_append, List.map_cons] at holds
  have unlinked := holds.unlink
  rw [← List.map_append] at unlinked
  apply unlinked.congr
  intro pointer member
  apply deleted
  rintro rfl
  rcases List.mem_cons.mp member with isNone | inNodes
  · cases isNone
  · exact (List.nodup_cons.mp apart).1 (by simpa using inNodes)

/-- Taking a node out leaves the neighbours of all nodes outside as they were. -/
theorem delete_outside
    (holds : Holds neighbours ends nodes)
    (member : node ∈ nodes)
    (deleted :
      ∀ pointer, pointer ≠ some node →
        (ring changed changedEnds).next pointer =
            ((ring neighbours ends).unlink (some node)).next pointer ∧
          (ring changed changedEnds).prev pointer =
            ((ring neighbours ends).unlink (some node)).prev pointer)
    (outside : other ∉ nodes) :
    changed.next other = neighbours.next other ∧ changed.prev other = neighbours.prev other := by
  have away : some other ∉ none :: nodes.map some := by
    simpa using outside
  have inside : some node ∈ nodes.map some :=
    List.mem_map_of_mem member
  have same := Links.Linked.unlink_outside holds inside away
  have different : some other ≠ some node := by
    intro equal
    exact outside (Option.some.inj equal ▸ member)
  obtain ⟨next, prev⟩ := deleted (some other) different
  exact ⟨next.trans same.1, prev.trans same.2⟩

end Holds

/-! ## Walking along a list -/

section

variable {State ε : Type}

/-- The first node with a property, from `start` on. -/
def search
    (next : Node → Option Node)
    (found : Node → Except ε Bool)
    (spent : ε) : Nat → Option Node → Except ε (Option Node)
  | 0, _ => .error spent
  | _ + 1, none => .ok none
  | fuel + 1, some node => do
      if ← found node then
        return some node
      else
        search next found spent fuel (next node)

/-- What is done at each node, from `start` on; the node behind is read before. -/
def forEach
    (next : State → Node → Option Node)
    (body : State → Node → Except ε State)
    (spent : ε) : Nat → Option Node → State → Except ε State
  | 0, _, _ => .error spent
  | _ + 1, none, state => .ok state
  | fuel + 1, some node, state => do
      let behind := next state node
      let state ← body state node
      forEach next body spent fuel behind state

/-- A search with enough fuel is that in the list of nodes. -/
theorem Holds.search_eq
    {neighbours : Neighbours Node}
    {ends : Ends Node}
    {nodes first second : List Node}
    {found : Node → Except ε Bool}
    {property : Node → Bool}
    {spent : ε}
    {fuel : Nat}
    (holds : Holds neighbours ends nodes)
    (shape : nodes = first ++ second)
    (decides : ∀ node ∈ second, found node = .ok (property node))
    (enough : second.length < fuel) :
    search neighbours.next found spent fuel second.head? = .ok (second.find? property) := by
  induction second generalizing first fuel with
  | nil =>
      obtain ⟨fuel, rfl⟩ := Nat.exists_eq_add_one_of_ne_zero (Nat.ne_zero_of_lt enough)
      rfl
  | cons node rest inductionHypothesis =>
      obtain ⟨fuel, rfl⟩ := Nat.exists_eq_add_one_of_ne_zero (Nat.ne_zero_of_lt enough)
      have behind : neighbours.next node = rest.head? :=
        (shape ▸ holds).next_eq
      have atNode := decides node List.mem_cons_self
      rw [List.head?_cons, search, atNode, behind, List.find?_cons]
      cases holdsHere : property node with
      | true =>
          rfl
      | false =>
          have onward : nodes = (first ++ [node]) ++ rest := by
            rw [shape, List.append_assoc, List.singleton_append]
          exact inductionHypothesis onward
            (fun other member => decides other (List.mem_cons_of_mem _ member))
            (Nat.lt_of_succ_lt_succ enough)

/--
The rule of loops along a list that changes on the way: the invariant speaks of
the nodes passed and of those still to come, and while it holds the node behind
the present one is the next to come.
-/
theorem forEach_rule
    {next : State → Node → Option Node}
    {body : State → Node → Except ε State}
    {spent : ε}
    {fuel : Nat}
    {passed coming : List Node}
    {state : State}
    (invariant : State → List Node → List Node → Prop)
    (behind :
      ∀ {state passed node coming},
        invariant state passed (node :: coming) → next state node = coming.head?)
    (preserved :
      ∀ {state passed node coming},
        invariant state passed (node :: coming) →
        ∃ after, body state node = .ok after ∧ invariant after (passed ++ [node]) coming)
    (holds : invariant state passed coming)
    (enough : coming.length < fuel) :
    ∃ after,
      forEach next body spent fuel coming.head? state = .ok after ∧
        invariant after (passed ++ coming) [] := by
  induction coming generalizing passed fuel state with
  | nil =>
      obtain ⟨fuel, rfl⟩ := Nat.exists_eq_add_one_of_ne_zero (Nat.ne_zero_of_lt enough)
      exact ⟨state, rfl, by rwa [List.append_nil]⟩
  | cons node rest inductionHypothesis =>
      obtain ⟨fuel, rfl⟩ := Nat.exists_eq_add_one_of_ne_zero (Nat.ne_zero_of_lt enough)
      obtain ⟨middle, done, onward⟩ := preserved holds
      obtain ⟨after, returned, atEnd⟩ :=
        inductionHypothesis onward (Nat.lt_of_succ_lt_succ enough)
      rw [List.append_assoc, List.singleton_append] at atEnd
      refine ⟨after, ?_, atEnd⟩
      rw [List.head?_cons, forEach, behind holds, done]
      exact returned

end

end Pma.NullTerminated
