import Mathlib.Logic.Function.Basic
import Mathlib.Data.List.Basic

namespace Pma.IntrusiveRing

/-!
# Doubly linked rings

A doubly linked list through fields of its nodes, closed to a ring by a head
node of its own.  The nodes are the keys of two maps, so a node stays a key
after it is taken out; which nodes are in the ring is what `Linked` says.
Nothing here mentions a particular program.
-/

variable {Node : Type*}

/-- The link fields of all nodes. -/
structure Links (Node : Type*) where
  next : Node → Node
  prev : Node → Node

namespace Links

/-- From `start` through `nodes` to `stop`, both ways. -/
def Segment (links : Links Node) : Node → List Node → Node → Prop
  | start, [], stop =>
      links.next start = stop ∧ links.prev stop = start
  | start, node :: rest, stop =>
      links.next start = node ∧ links.prev node = start ∧
        Segment links node rest stop

/-- The ring of `head` and `nodes`. -/
structure Linked (links : Links Node) (head : Node) (nodes : List Node) : Prop where
  segment : links.Segment head nodes head
  distinct : (head :: nodes).Nodup

/-- A segment is two segments that meet at a node between. -/
theorem segment_append
    {links : Links Node}
    {start middle stop : Node}
    {first second : List Node} :
    links.Segment start (first ++ middle :: second) stop ↔
      links.Segment start first middle ∧ links.Segment middle second stop := by
  induction first generalizing start with
  | nil =>
      simp only [List.nil_append, Segment, and_assoc]
  | cons node rest inductionHypothesis =>
      simp only [List.cons_append, Segment, inductionHypothesis, and_assoc]

/-- A segment depends on the links of its own nodes only. -/
theorem Segment.congr
    {links changed : Links Node}
    {start stop : Node}
    {nodes : List Node}
    (segment : links.Segment start nodes stop)
    (sameNext : ∀ node ∈ start :: nodes, changed.next node = links.next node)
    (samePrev : ∀ node ∈ nodes ++ [stop], changed.prev node = links.prev node) :
    changed.Segment start nodes stop := by
  induction nodes generalizing start with
  | nil =>
      refine ⟨?_, ?_⟩
      · rw [sameNext start (by simp)]
        exact segment.1
      · rw [samePrev stop (by simp)]
        exact segment.2
  | cons node rest inductionHypothesis =>
      refine ⟨?_, ?_, ?_⟩
      · rw [sameNext start (by simp)]
        exact segment.1
      · rw [samePrev node (by simp)]
        exact segment.2.1
      · apply inductionHypothesis segment.2.2
        · intro other member
          exact sameNext other (List.mem_cons_of_mem _ member)
        · intro other member
          exact samePrev other (List.mem_cons_of_mem _ member)

/-- The node before the end of a segment. -/
theorem Segment.prev_stop
    {links : Links Node}
    {start stop : Node}
    {nodes : List Node}
    (segment : links.Segment start nodes stop) :
    (nodes = [] ∧ links.prev stop = start) ∨
      ∃ earlier,
        nodes = earlier ++ [links.prev stop] ∧
          links.Segment start earlier (links.prev stop) := by
  rcases List.eq_nil_or_concat nodes with rfl | ⟨earlier, last, rfl⟩
  · exact .inl ⟨rfl, segment.2⟩
  · rw [List.concat_eq_append] at segment ⊢
    obtain ⟨before, link⟩ := segment_append.mp segment
    have same : links.prev stop = last := link.2
    rw [same]
    exact .inr ⟨earlier, rfl, before⟩

/-- The node after the start of a segment. -/
theorem Segment.next_start
    {links : Links Node}
    {start stop : Node}
    {nodes : List Node}
    (segment : links.Segment start nodes stop) :
    (nodes = [] ∧ links.next start = stop) ∨
      ∃ later,
        nodes = links.next start :: later ∧
          links.Segment (links.next start) later stop := by
  cases nodes with
  | nil =>
      exact .inl ⟨rfl, segment.1⟩
  | cons node rest =>
      obtain ⟨same, _, after⟩ := segment
      rw [same]
      exact .inr ⟨rest, rfl, after⟩

theorem Segment.prev_stop_mem
    {links : Links Node}
    {start stop : Node}
    {nodes : List Node}
    (segment : links.Segment start nodes stop) :
    links.prev stop ∈ start :: nodes := by
  rcases segment.prev_stop with ⟨_, same⟩ | ⟨earlier, shape, _⟩
  · rw [same]
    exact List.mem_cons_self
  · rw [shape]
    simp

theorem Segment.next_start_mem
    {links : Links Node}
    {start stop : Node}
    {nodes : List Node}
    (segment : links.Segment start nodes stop) :
    links.next start ∈ stop :: nodes := by
  rcases segment.next_start with ⟨_, same⟩ | ⟨later, shape, _⟩
  · rw [same]
    exact List.mem_cons_self
  · rw [shape]
    simp

/-- The ring with nothing in it. -/
theorem linked_nil
    {links : Links Node}
    {head : Node}
    (next : links.next head = head)
    (prev : links.prev head = head) :
    links.Linked head [] :=
  ⟨⟨next, prev⟩, by simp⟩

/-- The last node of a ring, or its head. -/
theorem Linked.prev_head_mem
    {links : Links Node}
    {head : Node}
    {nodes : List Node}
    (linked : links.Linked head nodes) :
    links.prev head ∈ head :: nodes :=
  linked.segment.prev_stop_mem

/-- The neighbours of a node of a ring are in the ring. -/
theorem Linked.neighbours_mem
    {links : Links Node}
    {head node : Node}
    {nodes : List Node}
    (linked : links.Linked head nodes)
    (member : node ∈ nodes) :
    links.prev node ∈ head :: nodes ∧ links.next node ∈ head :: nodes := by
  obtain ⟨first, second, rfl⟩ := List.append_of_mem member
  obtain ⟨before, after⟩ := segment_append.mp linked.segment
  have fromFirst : head :: first ⊆ head :: (first ++ node :: second) :=
    List.cons_subset_cons head (List.subset_append_left ..)
  have fromSecond : head :: second ⊆ head :: (first ++ node :: second) :=
    List.cons_subset_cons head
      (List.Subset.trans (List.subset_cons_self ..) (List.subset_append_right ..))
  exact ⟨fromFirst before.prev_stop_mem, fromSecond after.next_start_mem⟩

/-- A ring depends on the links of its own nodes only. -/
theorem Linked.congr
    {links changed : Links Node}
    {head : Node}
    {nodes : List Node}
    (linked : links.Linked head nodes)
    (same :
      ∀ node ∈ head :: nodes,
        changed.next node = links.next node ∧ changed.prev node = links.prev node) :
    changed.Linked head nodes := by
  refine ⟨linked.segment.congr (fun node member => (same node member).1) ?_, linked.distinct⟩
  intro node member
  apply (same node _).2
  rcases List.mem_append.mp member with inNodes | isHead
  · exact List.mem_cons_of_mem _ inNodes
  · exact List.mem_cons.mpr (.inl (List.mem_singleton.mp isHead))

/-- Each node of a ring can be taken for its head. -/
theorem Linked.rotate
    {links : Links Node}
    {head node : Node}
    {first second : List Node}
    (linked : links.Linked head (first ++ node :: second)) :
    links.Linked node (second ++ head :: first) := by
  obtain ⟨before, after⟩ := segment_append.mp linked.segment
  refine ⟨segment_append.mpr ⟨after, before⟩, ?_⟩
  have around : (node :: second ++ head :: first).Perm (head :: first ++ node :: second) :=
    List.perm_append_comm
  exact around.nodup_iff.mpr linked.distinct

/-- The node after the head of a ring is the first one, or the head. -/
theorem Linked.next_head
    {links : Links Node}
    {head : Node}
    {nodes : List Node}
    (linked : links.Linked head nodes) :
    links.next head = nodes.headD head ∧ links.prev (nodes.headD head) = head := by
  cases nodes with
  | nil =>
      exact linked.segment
  | cons node rest =>
      exact ⟨linked.segment.1, linked.segment.2.1⟩

/-- The links of a ring are inverse to each other. -/
theorem Linked.inverse
    {links : Links Node}
    {head node : Node}
    {nodes : List Node}
    (linked : links.Linked head nodes)
    (member : node ∈ head :: nodes) :
    links.prev (links.next node) = node ∧ links.next (links.prev node) = node := by
  have atHead {head : Node} {nodes : List Node} (linked : links.Linked head nodes) :
      links.prev (links.next head) = head ∧ links.next (links.prev head) = head := by
    refine ⟨?_, ?_⟩
    · rw [linked.next_head.1]
      exact linked.next_head.2
    · rcases List.eq_nil_or_concat nodes with rfl | ⟨earlier, last, rfl⟩
      · rw [linked.segment.2]
        exact linked.segment.1
      · rw [List.concat_eq_append] at linked
        obtain ⟨_, link⟩ := segment_append.mp linked.segment
        rw [link.2]
        exact link.1
  rcases List.mem_cons.mp member with rfl | inNodes
  · exact atHead linked
  · obtain ⟨first, second, rfl⟩ := List.append_of_mem inNodes
    exact atHead linked.rotate

theorem Linked.prev_mem
    {links : Links Node}
    {head node : Node}
    {nodes : List Node}
    (linked : links.Linked head nodes)
    (member : node ∈ head :: nodes) :
    links.prev node ∈ head :: nodes := by
  rcases List.mem_cons.mp member with rfl | inNodes
  · exact linked.prev_head_mem
  · exact (linked.neighbours_mem inNodes).1

/-- A node of a ring has other neighbours than itself. -/
theorem Linked.neighbours_ne
    {links : Links Node}
    {head node : Node}
    {nodes : List Node}
    (linked : links.Linked head nodes)
    (member : node ∈ nodes) :
    links.next node ≠ node ∧ links.prev node ≠ node := by
  have next : links.next node ≠ node := by
    obtain ⟨first, second, rfl⟩ := List.append_of_mem member
    have around := linked.rotate
    have others := (List.nodup_cons.mp around.distinct).1
    rcases around.segment.next_start with ⟨empty, _⟩ | ⟨later, shape, _⟩
    · simp at empty
    · intro same
      rw [shape, same] at others
      exact others List.mem_cons_self
  refine ⟨next, ?_⟩
  intro same
  have back := (linked.inverse (List.mem_cons_of_mem _ member)).2
  rw [same] at back
  exact next back

variable [DecidableEq Node]

/-- Put a node before the head, in the order of the four assignments. -/
def insertTail (links : Links Node) (head node : Node) : Links Node :=
  let prev := Function.update links.prev node (links.prev head)
  let next := Function.update links.next node head
  { next := Function.update next (prev head) node
    prev := Function.update prev head node }

/-- Let the neighbours of a node point past it. -/
def unlink (links : Links Node) (node : Node) : Links Node :=
  let next := Function.update links.next (links.prev node) (links.next node)
  { next := next
    prev := Function.update links.prev (next node) (links.prev node) }

/-- The links after an insertion. -/
theorem insertTail_next
    {links : Links Node}
    {head node : Node}
    (other : node ≠ head) :
    (links.insertTail head node).next =
      Function.update (Function.update links.next node head)
        (links.prev head) node := by
  unfold insertTail
  dsimp only
  rw [Function.update_of_ne other.symm]

theorem insertTail_prev
    (links : Links Node)
    (head node : Node) :
    (links.insertTail head node).prev =
      Function.update (Function.update links.prev node (links.prev head))
        head node :=
  rfl

/-- Inserting before the head adds the node at the end. -/
theorem Linked.insertTail
    {links : Links Node}
    {head node : Node}
    {nodes : List Node}
    (linked : links.Linked head nodes)
    (fresh : node ∉ head :: nodes) :
    (links.insertTail head node).Linked head (nodes ++ [node]) := by
  have last := linked.prev_head_mem
  have otherHead : node ≠ head := by
    rintro rfl
    exact fresh List.mem_cons_self
  have otherLast : node ≠ links.prev head := by
    intro same
    exact fresh (same ▸ last)
  have nextLast : (links.insertTail head node).next (links.prev head) = node := by
    rw [insertTail_next otherHead, Function.update_self]
  have nextNode : (links.insertTail head node).next node = head := by
    rw [insertTail_next otherHead, Function.update_of_ne otherLast,
      Function.update_self]
  have prevHead : (links.insertTail head node).prev head = node :=
    Function.update_self ..
  have prevNode : (links.insertTail head node).prev node = links.prev head := by
    rw [insertTail_prev, Function.update_of_ne otherHead, Function.update_self]
  refine ⟨segment_append.mpr ⟨?_, nextNode, prevHead⟩, ?_⟩
  · rcases linked.segment.prev_stop with ⟨rfl, same⟩ | ⟨earlier, shape, before⟩
    · rw [same] at nextLast prevNode
      exact ⟨nextLast, prevNode⟩
    · have apart := linked.distinct
      rw [shape] at fresh apart ⊢
      refine segment_append.mpr ⟨?_, nextLast, prevNode⟩
      apply before.congr
      · intro other member
        have notNode : other ≠ node := by
          rintro rfl
          simp only [List.mem_cons, List.mem_append] at fresh member
          tauto
        have notLast : other ≠ links.prev head := by
          rintro rfl
          rw [← List.cons_append, List.nodup_append] at apart
          exact apart.2.2 _ member _ (List.mem_singleton_self _) rfl
        rw [insertTail_next otherHead, Function.update_of_ne notLast,
          Function.update_of_ne notNode]
      · intro other member
        have notNode : other ≠ node := by
          rintro rfl
          exact fresh (List.mem_cons_of_mem _ member)
        have notHead : other ≠ head := by
          rintro rfl
          exact (List.nodup_cons.mp apart).1 member
        rw [insertTail_prev, Function.update_of_ne notHead, Function.update_of_ne notNode]
  · rw [← List.cons_append, List.nodup_append]
    refine ⟨linked.distinct, List.nodup_cons.mpr ⟨List.not_mem_nil, List.nodup_nil⟩, ?_⟩
    intro other member added isNode same
    rw [List.mem_singleton] at isNode
    exact fresh (isNode ▸ same ▸ member)

/-- Inserting before any node of a ring, or before its head. -/
theorem Linked.insertBefore
    {links : Links Node}
    {head node : Node}
    {first second : List Node}
    (linked : links.Linked head (first ++ second))
    (fresh : node ∉ head :: (first ++ second)) :
    (links.insertTail (second.headD head) node).Linked head (first ++ node :: second) := by
  cases second with
  | nil =>
      rw [List.append_nil] at linked fresh
      exact linked.insertTail fresh
  | cons place rest =>
      have around : node ∉ place :: (rest ++ head :: first) := by
        simp only [List.mem_cons, List.mem_append, not_or] at fresh ⊢
        tauto
      have inserted := linked.rotate.insertTail around
      rw [List.append_assoc, List.cons_append] at inserted
      have back := inserted.rotate
      rw [List.append_assoc] at back
      exact back

/-- An insertion changes the links of the ring and of the new node only. -/
theorem Linked.insertTail_outside
    {links : Links Node}
    {head node other : Node}
    {nodes : List Node}
    (linked : links.Linked head nodes)
    (fresh : node ≠ head)
    (outside : other ∉ head :: nodes)
    (different : other ≠ node) :
    (links.insertTail head node).next other = links.next other ∧
      (links.insertTail head node).prev other = links.prev other := by
  have notHead : other ≠ head := by
    rintro rfl
    exact outside List.mem_cons_self
  have notLast : other ≠ links.prev head := by
    rintro rfl
    exact outside linked.prev_head_mem
  refine ⟨?_, ?_⟩
  · rw [insertTail_next fresh, Function.update_of_ne notLast, Function.update_of_ne different]
  · rw [insertTail_prev, Function.update_of_ne notHead, Function.update_of_ne different]

theorem Linked.insertBefore_outside
    {links : Links Node}
    {head node other : Node}
    {first second : List Node}
    (linked : links.Linked head (first ++ second))
    (fresh : node ∉ head :: (first ++ second))
    (outside : other ∉ head :: (first ++ second))
    (different : other ≠ node) :
    (links.insertTail (second.headD head) node).next other = links.next other ∧
      (links.insertTail (second.headD head) node).prev other = links.prev other := by
  cases second with
  | nil =>
      apply linked.insertTail_outside _ outside different
      rintro rfl
      exact fresh List.mem_cons_self
  | cons place rest =>
      apply linked.rotate.insertTail_outside _ _ different
      · rintro rfl
        exact fresh (by simp)
      · simp only [List.mem_cons, List.mem_append, not_or] at outside ⊢
        tauto

/-- The links after a node is unlinked. -/
theorem unlink_prev
    {links : Links Node}
    {node : Node}
    (other : node ≠ links.prev node) :
    (links.unlink node).prev =
      Function.update links.prev (links.next node) (links.prev node) := by
  unfold unlink
  dsimp only
  rw [Function.update_of_ne other]

theorem unlink_next
    (links : Links Node)
    (node : Node) :
    (links.unlink node).next =
      Function.update links.next (links.prev node) (links.next node) :=
  rfl

/-- Unlinking a node takes it out and leaves the order of the others. -/
theorem Linked.unlink
    {links : Links Node}
    {head node : Node}
    {first second : List Node}
    (linked : links.Linked head (first ++ node :: second)) :
    (links.unlink node).Linked head (first ++ second) := by
  obtain ⟨before, after⟩ := segment_append.mp linked.segment
  have apart := linked.distinct
  rw [← List.cons_append, List.nodup_append, List.nodup_cons (l := second)] at apart
  obtain ⟨apartFirst, ⟨notSecond, apartSecond⟩, across⟩ := apart
  have prevMem : links.prev node ∈ head :: first := before.prev_stop_mem
  have otherPrev : node ≠ links.prev node := by
    intro same
    exact across _ prevMem node List.mem_cons_self same.symm
  have nextPrev :
      (links.unlink node).next (links.prev node) = links.next node := by
    rw [unlink_next, Function.update_self]
  have prevNext :
      (links.unlink node).prev (links.next node) = links.prev node := by
    rw [unlink_prev otherPrev, Function.update_self]
  -- From the node before the one taken out to the end of the ring.
  have rest : (links.unlink node).Segment (links.prev node) second head := by
    rcases after.next_start with ⟨rfl, same⟩ | ⟨later, shape, beyond⟩
    · rw [same] at nextPrev prevNext
      exact ⟨nextPrev, prevNext⟩
    · rw [shape] at apartSecond across ⊢
      refine ⟨nextPrev, prevNext, ?_⟩
      apply beyond.congr
      · intro other member
        rw [unlink_next, Function.update_of_ne]
        intro same
        exact across _ prevMem other (List.mem_cons_of_mem _ member) same.symm
      · intro other member
        rw [unlink_prev otherPrev, Function.update_of_ne]
        rintro rfl
        rcases List.mem_append.mp member with inLater | isHead
        · exact (List.nodup_cons.mp apartSecond).1 inLater
        · rw [List.mem_singleton] at isHead
          exact across head List.mem_cons_self _
            (List.mem_cons_of_mem _ List.mem_cons_self) isHead.symm
  have nextMem : links.next node ∈ head :: second := after.next_start_mem
  refine ⟨?_, ?_⟩
  · rcases before.prev_stop with ⟨rfl, same⟩ | ⟨earlier, shape, beyond⟩
    · rw [same] at rest
      exact rest
    · rw [shape] at apartFirst across ⊢
      rw [List.append_assoc, List.singleton_append]
      refine segment_append.mpr ⟨?_, rest⟩
      apply beyond.congr
      · intro other member
        rw [unlink_next, Function.update_of_ne]
        rintro rfl
        rw [← List.cons_append, List.nodup_append] at apartFirst
        exact apartFirst.2.2 _ member _ (List.mem_singleton_self _) rfl
      · intro other member
        rw [unlink_prev otherPrev, Function.update_of_ne]
        rintro rfl
        rcases List.mem_cons.mp nextMem with isHead | inSecond
        · rw [isHead] at member
          exact (List.nodup_cons.mp apartFirst).1 member
        · exact across _ (List.mem_cons_of_mem _ member) _
            (List.mem_cons_of_mem _ inSecond) rfl
  · rw [← List.cons_append, List.nodup_append]
    exact ⟨apartFirst, apartSecond, fun one inFirst other inSecond =>
      across one inFirst other (List.mem_cons_of_mem _ inSecond)⟩

/-- Unlinking a node changes the links of its ring only. -/
theorem Linked.unlink_outside
    {links : Links Node}
    {head node other : Node}
    {nodes : List Node}
    (linked : links.Linked head nodes)
    (member : node ∈ nodes)
    (outside : other ∉ head :: nodes) :
    (links.unlink node).next other = links.next other ∧
      (links.unlink node).prev other = links.prev other := by
  obtain ⟨prevMem, nextMem⟩ := linked.neighbours_mem member
  have otherPrev : node ≠ links.prev node := by
    obtain ⟨first, second, rfl⟩ := List.append_of_mem member
    intro same
    have before := (segment_append.mp linked.segment).1
    have apart := linked.distinct
    rw [← List.cons_append, List.nodup_append] at apart
    exact apart.2.2 _ before.prev_stop_mem node List.mem_cons_self same.symm
  have notPrev : other ≠ links.prev node := by
    rintro rfl
    exact outside prevMem
  have notNext : other ≠ links.next node := by
    rintro rfl
    exact outside nextMem
  refine ⟨?_, ?_⟩
  · rw [unlink_next, Function.update_of_ne notPrev]
  · rw [unlink_prev otherPrev, Function.update_of_ne notNext]

end Links

end Pma.IntrusiveRing
