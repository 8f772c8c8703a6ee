import Pma.LinkLists

namespace Pma.LinkLists

open NullTerminated IntrusiveRing

/-!
# The links of the lists

What the assignments of `lib/linklist.c` do to the ring of a list, to what its
nodes hold and to the other lists.
-/

section

variable {Value : Type}

theorem ok_bind
    {First Second : Type}
    (first : First)
    (next : First → Except Fault Second) :
    (Except.ok first >>= next) = next first :=
  rfl

/-- The neighbours of the nodes of all lists. -/
def Heap.neighbours (heap : Heap Value) : Neighbours NodePtr where
  next node := (heap.nodes node).bind (·.next)
  prev node := (heap.nodes node).bind (·.prev)

/-- What the nodes hold that are allocated. -/
def Heap.data (heap : Heap Value) (node : NodePtr) : Option (Option Value) :=
  (heap.nodes node).map (·.data)

/-- The two ends of a list. -/
def Heap.ends (heap : Heap Value) (list : ListPtr) : Ends NodePtr where
  head := (heap.lists list).bind (·.head)
  tail := (heap.lists list).bind (·.tail)

/-- The ring that a list is with the null pointer. -/
def Heap.ring (heap : Heap Value) (list : ListPtr) : Links (Option NodePtr) :=
  NullTerminated.ring heap.neighbours (heap.ends list)

/-- What a list has besides its ends. -/
structure Header (Value : Type) where
  count : UInt32
  cmp : Option (Option Value → Option Value → Int32)
  del : Bool

/-- What the lists have besides their ends that are allocated. -/
def Heap.header (heap : Heap Value) (list : ListPtr) : Option (Header Value) :=
  (heap.lists list).map fun header => ⟨header.count, header.cmp, header.del⟩

/-- Only links have changed, of nodes and of this list. -/
structure Relinked (list : ListPtr) (before after : Heap Value) : Prop where
  data : after.data = before.data
  header : after.header = before.header
  ends : ∀ other ≠ list, after.ends other = before.ends other
  freshNode : after.freshNode = before.freshNode
  freshList : after.freshList = before.freshList
  deleted : after.deleted = before.deleted

namespace Relinked

variable
  {list : ListPtr}
  {first second third : Heap Value}

theorem trans
    (earlier : Relinked list first second)
    (later : Relinked list second third) :
    Relinked list first third where
  data := later.data.trans earlier.data
  header := later.header.trans earlier.header
  ends other different := (later.ends other different).trans (earlier.ends other different)
  freshNode := later.freshNode.trans earlier.freshNode
  freshList := later.freshList.trans earlier.freshList
  deleted := later.deleted.trans earlier.deleted

end Relinked

/-! ## Reading and writing -/

section

variable
  {heap : Heap Value}
  {list : ListPtr}
  {node : NodePtr}
  {data : Option Value}
  {header : Header Value}

theorem node_eq
    (isData : heap.data node = some data)
    (list : ListPtr) :
    heap.node node =
      .ok ⟨(heap.ring list).next (some node), (heap.ring list).prev (some node), data⟩ := by
  obtain ⟨found, isFound, isValue⟩ := Option.map_eq_some_iff.mp isData
  unfold Heap.node
  rw [isFound, ← isValue]
  simp [Heap.ring, NullTerminated.ring, Heap.neighbours, isFound]

theorem list_eq
    (isHeader : heap.header list = some header) :
    heap.list list =
      .ok ⟨(heap.ring list).next none, (heap.ring list).prev none, header.count, header.cmp,
        header.del⟩ := by
  obtain ⟨found, isFound, isValue⟩ := Option.map_eq_some_iff.mp isHeader
  unfold Heap.list
  rw [isFound, ← isValue]
  simp [Heap.ring, NullTerminated.ring, Heap.ends, isFound]

/-- The list is allocated, and so is the node, unless the pointer is null. -/
structure Usable (heap : Heap Value) (list : ListPtr) (pointer : Option NodePtr) : Prop where
  list : (heap.header list).isSome
  node : ∀ node ∈ pointer, (heap.data node).isSome

theorem Usable.relinked
    {before after : Heap Value}
    {pointer : Option NodePtr}
    (usable : Usable before list pointer)
    (relinked : Relinked list before after) :
    Usable after list pointer := by
  refine ⟨?_, ?_⟩
  · rw [relinked.header]
    exact usable.list
  · rw [relinked.data]
    exact usable.node

/-- An assignment to a field of a node that is allocated. -/
theorem modifyNode_eq
    {old : Listnode Value}
    (found : heap.nodes node = some old)
    (change : Listnode Value → Listnode Value) :
    heap.modifyNode node change =
      .ok { heap with nodes := Function.update heap.nodes node (some (change old)) } := by
  unfold Heap.modifyNode Heap.node
  rw [found]
  rfl

/-- An assignment to a field of a list that is allocated. -/
theorem modifyList_eq
    {old : LinkList Value}
    (found : heap.lists list = some old)
    (change : LinkList Value → LinkList Value) :
    heap.modifyList list change =
      .ok { heap with lists := Function.update heap.lists list (some (change old)) } := by
  unfold Heap.modifyList Heap.list
  rw [found]
  rfl

/-- An assignment to a node that leaves its data. -/
theorem relinked_node
    {old new : Listnode Value}
    (found : heap.nodes node = some old)
    (same : new.data = old.data)
    (list : ListPtr) :
    Relinked list heap { heap with nodes := Function.update heap.nodes node (some new) } := by
  refine ⟨?_, rfl, fun _ _ => rfl, rfl, rfl, rfl⟩
  funext other
  by_cases here : other = node
  · subst here
    simp [Heap.data, found, same]
  · simp [Heap.data, here]

/-- What an assignment to a list does to its other fields. -/
theorem header_list
    (heap : Heap Value)
    (list : ListPtr)
    (new : LinkList Value) :
    Heap.header { heap with lists := Function.update heap.lists list (some new) } =
      Function.update heap.header list (some ⟨new.count, new.cmp, new.del⟩) := by
  funext other
  by_cases here : other = list
  · subst here
    simp [Heap.header]
  · simp [Heap.header, here]

/-- An assignment to an end of a list. -/
theorem relinked_list
    {old new : LinkList Value}
    (found : heap.lists list = some old)
    (count : new.count = old.count)
    (cmp : new.cmp = old.cmp)
    (del : new.del = old.del) :
    Relinked list heap { heap with lists := Function.update heap.lists list (some new) } := by
  refine ⟨rfl, ?_, ?_, rfl, rfl, rfl⟩
  · have same : heap.header list = some ⟨new.count, new.cmp, new.del⟩ := by
      rw [Heap.header, found, count, cmp, del]
      rfl
    rw [header_list, ← same, Function.update_eq_self]
  · intro other different
    simp [Heap.ends, different]

/-- An assignment to a node changes its two places in the ring. -/
theorem ring_node
    (heap : Heap Value)
    (list : ListPtr)
    (node : NodePtr)
    (new : Listnode Value) :
    Heap.ring { heap with nodes := Function.update heap.nodes node (some new) } list =
      { next := Function.update (heap.ring list).next (some node) new.next
        prev := Function.update (heap.ring list).prev (some node) new.prev } := by
  simp only [Heap.ring, NullTerminated.ring, Links.mk.injEq]
  refine ⟨?_, ?_⟩
  all_goals
    funext pointer
    cases pointer with
    | none => rfl
    | some other => by_cases here : other = node <;> simp [Heap.neighbours, here]

/-- An assignment to a list changes the places of the null pointer. -/
theorem ring_list
    (heap : Heap Value)
    (list : ListPtr)
    (new : LinkList Value) :
    Heap.ring { heap with lists := Function.update heap.lists list (some new) } list =
      { next := Function.update (heap.ring list).next none new.head
        prev := Function.update (heap.ring list).prev none new.tail } := by
  simp only [Heap.ring, NullTerminated.ring, Links.mk.injEq]
  refine ⟨?_, ?_⟩
  all_goals
    funext pointer
    cases pointer <;> simp [Heap.ends, Heap.neighbours]

/-- The links of a node that is allocated are its places in the ring. -/
theorem links_of_found
    {old : Listnode Value}
    (found : heap.nodes node = some old)
    (list : ListPtr) :
    old.next = (heap.ring list).next (some node) ∧
      old.prev = (heap.ring list).prev (some node) := by
  simp [Heap.ring, NullTerminated.ring, Heap.neighbours, found]

/-- The ends of a list that is allocated are the places of the null pointer. -/
theorem ends_of_found
    {old : LinkList Value}
    (found : heap.lists list = some old) :
    old.head = (heap.ring list).next none ∧ old.tail = (heap.ring list).prev none := by
  simp [Heap.ring, NullTerminated.ring, Heap.ends, found]

theorem setNextOf_eq
    {pointer : Option NodePtr}
    (usable : Usable heap list pointer)
    (value : Option NodePtr) :
    ∃ after,
      heap.setNextOf list pointer value = .ok after ∧
        Relinked list heap after ∧
          after.ring list =
            { next := Function.update (heap.ring list).next pointer value
              prev := (heap.ring list).prev } := by
  cases pointer with
  | none =>
      obtain ⟨header, isHeader⟩ := Option.isSome_iff_exists.mp usable.list
      obtain ⟨old, found, _⟩ := Option.map_eq_some_iff.mp isHeader
      refine ⟨_, modifyList_eq found _, relinked_list found (by rfl) (by rfl) (by rfl), ?_⟩
      rw [ring_list, (ends_of_found found).2, Function.update_eq_self]
  | some node =>
      obtain ⟨data, isData⟩ := Option.isSome_iff_exists.mp (usable.node node rfl)
      obtain ⟨old, found, _⟩ := Option.map_eq_some_iff.mp isData
      refine ⟨_, modifyNode_eq found _, relinked_node found (by rfl) list, ?_⟩
      rw [ring_node, (links_of_found found list).2, Function.update_eq_self]

theorem setPrevOf_eq
    {pointer : Option NodePtr}
    (usable : Usable heap list pointer)
    (value : Option NodePtr) :
    ∃ after,
      heap.setPrevOf list pointer value = .ok after ∧
        Relinked list heap after ∧
          after.ring list =
            { next := (heap.ring list).next
              prev := Function.update (heap.ring list).prev pointer value } := by
  cases pointer with
  | none =>
      obtain ⟨header, isHeader⟩ := Option.isSome_iff_exists.mp usable.list
      obtain ⟨old, found, _⟩ := Option.map_eq_some_iff.mp isHeader
      refine ⟨_, modifyList_eq found _, relinked_list found (by rfl) (by rfl) (by rfl), ?_⟩
      rw [ring_list, (ends_of_found found).1, Function.update_eq_self]
  | some node =>
      obtain ⟨data, isData⟩ := Option.isSome_iff_exists.mp (usable.node node rfl)
      obtain ⟨old, found, _⟩ := Option.map_eq_some_iff.mp isData
      refine ⟨_, modifyNode_eq found _, relinked_node found (by rfl) list, ?_⟩
      rw [ring_node, (links_of_found found list).1, Function.update_eq_self]

end

/-! ## A new node -/

/-- A node has been allocated since and holds `val`, and the ring of the list is `links`. -/
structure Grown (list : ListPtr) (before after : Heap Value) (val : Option Value)
    (links : Links (Option NodePtr)) : Prop where
  ring : after.ring list = links
  data : after.data = Function.update before.data before.freshNode (some val)
  header : after.header = before.header
  ends : ∀ other ≠ list, after.ends other = before.ends other
  freshNode : after.freshNode = before.freshNode + 1
  freshList : after.freshList = before.freshList
  deleted : after.deleted = before.deleted

/-- A node that is not allocated has no neighbours. -/
theorem ring_of_free
    {heap : Heap Value}
    {node : NodePtr}
    (free : heap.nodes node = none)
    (list : ListPtr) :
    (heap.ring list).next (some node) = none ∧ (heap.ring list).prev (some node) = none := by
  simp [Heap.ring, NullTerminated.ring, Heap.neighbours, free]

/-- `listnode_new`. -/
theorem grown_listnodeNew
    {heap : Heap Value}
    (free : heap.nodes heap.freshNode = none)
    (list : ListPtr) :
    Grown list heap (listnodeNew heap).2 none (heap.ring list) := by
  refine ⟨?_, ?_, rfl, fun _ _ => rfl, rfl, rfl, rfl⟩
  · obtain ⟨next, prev⟩ := ring_of_free free list
    refine (ring_node heap list heap.freshNode ⟨none, none, none⟩).trans ?_
    dsimp only
    rw [← next, Function.update_eq_self, next, ← prev, Function.update_eq_self]
  · funext node
    by_cases fresh : node = heap.freshNode
    · simp [listnodeNew, Heap.data, fresh]
    · simp [listnodeNew, Heap.data, fresh]

namespace Grown

variable
  {list : ListPtr}
  {val data : Option Value}
  {before middle : Heap Value}
  {links : Links (Option NodePtr)}
  {header : Header Value}
  {pointer : Option NodePtr}

/-- What was allocated before still is, and the new node is. -/
theorem usable
    (grown : Grown list before middle val links)
    (alive : (before.header list).isSome)
    (known : ∀ node ∈ pointer, node = before.freshNode ∨ (before.data node).isSome) :
    Usable middle list pointer := by
  refine ⟨?_, ?_⟩
  · rw [grown.header]
    exact alive
  · intro node member
    rw [grown.data]
    by_cases fresh : node = before.freshNode
    · rw [fresh, Function.update_self]
      rfl
    · rw [Function.update_of_ne fresh]
      exact (known node member).resolve_left fresh

theorem relinked
    {after : Heap Value}
    (grown : Grown list before middle val links)
    (relinked : Relinked list middle after) :
    Grown list before after val (after.ring list) where
  ring := rfl
  data := relinked.data.trans grown.data
  header := relinked.header.trans grown.header
  ends other different := (relinked.ends other different).trans (grown.ends other different)
  freshNode := relinked.freshNode.trans grown.freshNode
  freshList := relinked.freshList.trans grown.freshList
  deleted := relinked.deleted.trans grown.deleted

theorem setNextOf
    (grown : Grown list before middle val links)
    (alive : (before.header list).isSome)
    (known : ∀ node ∈ pointer, node = before.freshNode ∨ (before.data node).isSome)
    (value : Option NodePtr) :
    ∃ after,
      middle.setNextOf list pointer value = .ok after ∧
        Grown list before after val ⟨Function.update links.next pointer value, links.prev⟩ := by
  obtain ⟨after, returned, relinked, ring⟩ := setNextOf_eq (grown.usable alive known) value
  refine ⟨after, returned, ?_⟩
  rw [← grown.ring, ← ring]
  exact grown.relinked relinked

theorem setPrevOf
    (grown : Grown list before middle val links)
    (alive : (before.header list).isSome)
    (known : ∀ node ∈ pointer, node = before.freshNode ∨ (before.data node).isSome)
    (value : Option NodePtr) :
    ∃ after,
      middle.setPrevOf list pointer value = .ok after ∧
        Grown list before after val ⟨links.next, Function.update links.prev pointer value⟩ := by
  obtain ⟨after, returned, relinked, ring⟩ := setPrevOf_eq (grown.usable alive known) value
  refine ⟨after, returned, ?_⟩
  rw [← grown.ring, ← ring]
  exact grown.relinked relinked

/-- The assignment of the data. -/
theorem setData
    {old : Option Value}
    (grown : Grown list before middle old links)
    (val : Option Value) :
    ∃ after,
      middle.setData before.freshNode val = .ok after ∧ Grown list before after val links := by
  have isData : middle.data before.freshNode = some old := by
    rw [grown.data, Function.update_self]
  obtain ⟨node, found, _⟩ := Option.map_eq_some_iff.mp isData
  refine ⟨_, modifyNode_eq found _, ⟨?_, ?_, grown.header, grown.ends, grown.freshNode,
    grown.freshList, grown.deleted⟩⟩
  · obtain ⟨next, prev⟩ := links_of_found found list
    rw [ring_node, next, prev, Function.update_eq_self, Function.update_eq_self]
    exact grown.ring
  · funext other
    by_cases fresh : other = before.freshNode
    · simp [Heap.data, fresh]
    · have kept := congrFun grown.data other
      rw [Function.update_of_ne fresh] at kept
      simp [Heap.data, fresh]
      exact kept

/-- What is read of the list. -/
theorem readList
    (grown : Grown list before middle val links)
    (isHeader : before.header list = some header) :
    middle.list list =
      .ok ⟨links.next none, links.prev none, header.count, header.cmp, header.del⟩ := by
  rw [list_eq ((congrFun grown.header list).trans isHeader), grown.ring]

/-- What is read of a node that was there before. -/
theorem readNode
    {node : NodePtr}
    (grown : Grown list before middle val links)
    (isData : before.data node = some data)
    (different : node ≠ before.freshNode) :
    middle.node node = .ok ⟨links.next (some node), links.prev (some node), data⟩ := by
  have kept : middle.data node = some data := by
    rw [grown.data, Function.update_of_ne different, isData]
  rw [node_eq kept list, grown.ring]

end Grown

/-! ## Insertions -/

/-- The count of a list has changed and nothing else. -/
structure Recounted (list : ListPtr) (change : UInt32) (before after : Heap Value) : Prop where
  ring : after.ring list = before.ring list
  nodes : after.nodes = before.nodes
  header :
    after.header =
      Function.update before.header list
        ((before.header list).map fun header => { header with count := header.count + change })
  ends : ∀ other ≠ list, after.ends other = before.ends other
  freshNode : after.freshNode = before.freshNode
  freshList : after.freshList = before.freshList
  deleted : after.deleted = before.deleted

theorem addCount_eq
    {heap : Heap Value}
    {list : ListPtr}
    (alive : (heap.header list).isSome)
    (change : UInt32) :
    ∃ after, heap.addCount list change = .ok after ∧ Recounted list change heap after := by
  obtain ⟨header, isHeader⟩ := Option.isSome_iff_exists.mp alive
  obtain ⟨old, found, isOld⟩ := Option.map_eq_some_iff.mp isHeader
  refine ⟨_, modifyList_eq found _, ?_, rfl, ?_, ?_, rfl, rfl, rfl⟩
  · obtain ⟨head, tail⟩ := ends_of_found found
    rw [ring_list, head, tail, Function.update_eq_self, Function.update_eq_self]
  · rw [header_list, isHeader, Option.map_some, ← isOld]
  · intro other different
    simp [Heap.ends, different]

/-- A new node stands before a place, which is the end when it is null. -/
structure Inserted (list : ListPtr) (place : Option NodePtr) (val : Option Value)
    (counted : UInt32) (before after : Heap Value) : Prop where
  ring : after.ring list = (before.ring list).insertTail place (some before.freshNode)
  data : after.data = Function.update before.data before.freshNode (some val)
  header :
    after.header =
      Function.update before.header list
        ((before.header list).map fun header => { header with count := header.count + counted })
  ends : ∀ other ≠ list, after.ends other = before.ends other
  freshNode : after.freshNode = before.freshNode + 1
  freshList : after.freshList = before.freshList
  deleted : after.deleted = before.deleted

/-- The node is counted. -/
theorem Grown.addCount
    {list : ListPtr}
    {place : Option NodePtr}
    {val : Option Value}
    {before middle : Heap Value}
    {links : Links (Option NodePtr)}
    (grown : Grown list before middle val links)
    (alive : (before.header list).isSome)
    (ring : links = (before.ring list).insertTail place (some before.freshNode)) :
    ∃ after,
      middle.addCount list 1 = .ok after ∧ Inserted list place val 1 before after := by
  have inMiddle : (middle.header list).isSome := by
    rw [grown.header]
    exact alive
  obtain ⟨after, counted, recounted⟩ := addCount_eq inMiddle 1
  refine ⟨after, counted, (recounted.ring.trans grown.ring).trans ring, ?_, ?_, ?_, ?_, ?_, ?_⟩
  · rw [← grown.data]
    unfold Heap.data
    rw [recounted.nodes]
  · rw [recounted.header, grown.header]
  · intro other different
    exact (recounted.ends other different).trans (grown.ends other different)
  · exact recounted.freshNode.trans grown.freshNode
  · exact recounted.freshList.trans grown.freshList
  · exact recounted.deleted.trans grown.deleted

/-- A list is allocated and holds these nodes, which are allocated. -/
structure Chained (heap : Heap Value) (list : ListPtr) (nodes : List NodePtr) : Prop where
  holds : Holds heap.neighbours (heap.ends list) nodes
  alive : (heap.header list).isSome
  known : ∀ node ∈ nodes, (heap.data node).isSome
  below : ∀ node, (heap.data node).isSome → node < heap.freshNode

section

variable
  {heap : Heap Value}
  {list : ListPtr}
  {nodes first second : List NodePtr}

theorem Chained.free
    (chained : Chained heap list nodes) :
    heap.nodes heap.freshNode = none := by
  have unknown : ¬ (heap.data heap.freshNode).isSome :=
    fun known => lt_irrefl _ (chained.below _ known)
  rwa [Heap.data, Option.isSome_map, Option.not_isSome_iff_eq_none] at unknown

/-- A pointer to a node of the list, or the null pointer, may be used. -/
theorem Chained.usable
    {pointer : Option NodePtr}
    (chained : Chained heap list nodes)
    (member : ∀ node ∈ pointer, node ∈ nodes) :
    Usable heap list pointer :=
  ⟨chained.alive, fun node isNode => chained.known node (member node isNode)⟩

/-- The new node is none of the nodes of the list. -/
theorem Chained.fresh_not_mem
    (chained : Chained heap list nodes) :
    heap.freshNode ∉ nodes :=
  fun member => lt_irrefl _ (chained.below _ (chained.known _ member))

/-- The loops along the list are given enough. -/
theorem Chained.enough
    (chained : Chained heap list nodes) :
    nodes.length < heap.freshNode + 1 := by
  have inRange : nodes ⊆ List.range heap.freshNode := by
    intro node member
    exact List.mem_range.mpr (chained.below node (chained.known node member))
  have short := chained.holds.nodup.length_le_of_subset inRange
  rw [List.length_range] at short
  exact Nat.lt_succ_of_le short

/-- A pointer to a node of the list, or the null pointer, may be used. -/
theorem Chained.pointer
    {pointer : Option NodePtr}
    (chained : Chained heap list nodes)
    (member : ∀ node ∈ pointer, node ∈ nodes) :
    ∀ node ∈ pointer, node = heap.freshNode ∨ (heap.data node).isSome :=
  fun node isNode => .inr (chained.known node (member node isNode))

/-- So may the pointer to the new node. -/
theorem fresh_pointer (heap : Heap Value) :
    ∀ node ∈ some heap.freshNode, node = heap.freshNode ∨ (heap.data node).isSome :=
  fun _ isNode => .inl (Option.mem_some_iff.mp isNode).symm

theorem null_pointer (heap : Heap Value) :
    ∀ node ∈ (none : Option NodePtr), node = heap.freshNode ∨ (heap.data node).isSome := by
  intro node isNode
  cases isNode

theorem new_eq (heap : Heap Value) : (listnodeNew heap).1 = heap.freshNode :=
  rfl

/-- The links after an insertion at the end. -/
theorem place_end
    (chained : Chained heap list nodes) :
    Links.mk (Function.update (heap.ring list).next ((heap.ring list).prev none)
          (some heap.freshNode))
        (Function.update (Function.update (heap.ring list).prev (some heap.freshNode)
          ((heap.ring list).prev none)) none (some heap.freshNode)) =
      (heap.ring list).insertTail none (some heap.freshNode) := by
  unfold Links.insertTail
  dsimp only
  rw [Function.update_of_ne (Option.some_ne_none _).symm]
  congr 2
  exact (Function.update_eq_self_iff.mpr (ring_of_free chained.free list).1.symm).symm

/-- `listnode_add`. -/
theorem listnodeAdd_eq
    (chained : Chained heap list nodes)
    (val : Option Value) :
    ∃ after, listnodeAdd heap list val = .ok after ∧ Inserted list none val 1 heap after := by
  have alive := chained.alive
  obtain ⟨header, isHeader⟩ := Option.isSome_iff_exists.mp alive
  have tail : (heap.ring list).prev none = nodes.getLast? := chained.holds.tail_eq
  have head : (heap.ring list).next none = nodes.head? := chained.holds.head_eq
  have isTail := chained.pointer fun node isLast =>
    List.mem_of_getLast? (tail.symm.trans isLast)
  have grown := grown_listnodeNew chained.free list
  have firstRead := grown.readList isHeader
  obtain ⟨second, setPrev, grown⟩ :=
    grown.setPrevOf alive (fresh_pointer heap) ((heap.ring list).prev none)
  obtain ⟨third, setData, grown⟩ := grown.setData val
  have secondRead := grown.readList isHeader
  obtain ⟨fourth, setNext, grown⟩ := grown.setNextOf alive isTail (some heap.freshNode)
  obtain ⟨fifth, setTail, grown⟩ :=
    grown.setPrevOf alive (null_pointer heap) (some heap.freshNode)
  obtain ⟨after, counted, inserted⟩ := grown.addCount alive (place_end chained)
  refine ⟨after, ?_, inserted⟩
  have keptTail :
      Function.update (heap.ring list).prev (some heap.freshNode) ((heap.ring list).prev none)
        none = (heap.ring list).prev none :=
    Function.update_of_ne (Option.some_ne_none _).symm _ _
  dsimp only at secondRead
  rw [keptTail] at secondRead
  unfold listnodeAdd
  simp only [firstRead, ok_bind, new_eq heap]
  change (listnodeNew heap).2.setPrev heap.freshNode _ = _ at setPrev
  change fourth.setTail list _ = _ at setTail
  simp only [setPrev, ok_bind, setData, secondRead]
  rcases List.eq_nil_or_concat nodes with rfl | ⟨earlier, last, rfl⟩
  · rw [tail] at setNext
    change third.setHead list _ = _ at setNext
    rw [head]
    simp only [List.head?_nil, Option.isNone_none, if_true, setNext, ok_bind, setTail]
    exact counted
  · rw [tail, List.concat_eq_append, List.getLast?_concat] at setNext
    change third.setNext last _ = _ at setNext
    have found : deref (some last) = .ok last := rfl
    have notEmpty : ((earlier.concat last).head?).isNone = false := by
      cases earlier <;> rfl
    rw [head, tail, notEmpty, List.concat_eq_append, List.getLast?_concat]
    simp only [Bool.false_eq_true, if_false, found, ok_bind, setNext, setTail]
    exact counted

/-- The neighbours of a node of a list are nodes of the list or null. -/
theorem Chained.neighbours
    {node : NodePtr}
    (chained : Chained heap list (first ++ node :: second)) :
    (heap.ring list).next (some node) = second.head? ∧
      (heap.ring list).prev (some node) = first.getLast? :=
  ⟨chained.holds.next_eq, chained.holds.prev_eq⟩

theorem Chained.prev_pointer
    {node : NodePtr}
    (chained : Chained heap list (first ++ node :: second)) :
    ∀ other ∈ (heap.ring list).prev (some node),
      other = heap.freshNode ∨ (heap.data other).isSome := by
  rw [chained.neighbours.2]
  apply chained.pointer
  intro other isLast
  exact List.mem_append_left _ (List.mem_of_getLast? isLast)

theorem Chained.next_pointer
    {node : NodePtr}
    (chained : Chained heap list (first ++ node :: second)) :
    ∀ other ∈ (heap.ring list).next (some node),
      other = heap.freshNode ∨ (heap.data other).isSome := by
  rw [chained.neighbours.1]
  apply chained.pointer
  intro other isHead
  exact List.mem_append_right _ (List.mem_cons_of_mem _ (List.mem_of_head? isHead))

theorem Chained.own_pointer
    {node : NodePtr}
    (chained : Chained heap list (first ++ node :: second)) :
    ∀ other ∈ some node, other = heap.freshNode ∨ (heap.data other).isSome := by
  apply chained.pointer
  intro other isNode
  rw [← Option.mem_some_iff.mp isNode]
  exact List.mem_append_right _ List.mem_cons_self

/-- A node of a list is allocated and not the new one. -/
theorem Chained.member
    {node : NodePtr}
    (chained : Chained heap list (first ++ node :: second)) :
    (∃ data, heap.data node = some data) ∧ node ≠ heap.freshNode := by
  have inside : node ∈ first ++ node :: second :=
    List.mem_append_right _ List.mem_cons_self
  refine ⟨Option.isSome_iff_exists.mp (chained.known node inside), ?_⟩
  rintro rfl
  exact chained.fresh_not_mem inside

/-- The links after an insertion before a node. -/
theorem place_before
    {node : NodePtr}
    (different : node ≠ heap.freshNode) :
    Links.mk
        (Function.update (Function.update (heap.ring list).next (some heap.freshNode) (some node))
          ((heap.ring list).prev (some node)) (some heap.freshNode))
        (Function.update (Function.update (heap.ring list).prev (some heap.freshNode)
          ((heap.ring list).prev (some node))) (some node) (some heap.freshNode)) =
      (heap.ring list).insertTail (some node) (some heap.freshNode) := by
  have apart : some node ≠ some heap.freshNode := fun same => different (Option.some.inj same)
  unfold Links.insertTail
  dsimp only
  rw [Function.update_of_ne apart]

/-- `list_add_node_prev`. -/
theorem listAddNodePrev_eq
    {current : NodePtr}
    (chained : Chained heap list (first ++ current :: second))
    (val : Option Value) :
    ∃ after,
      listAddNodePrev heap list current val = .ok after ∧
        Inserted list (some current) val 1 heap after := by
  have alive := chained.alive
  obtain ⟨⟨data, isData⟩, different⟩ := chained.member
  have grown := grown_listnodeNew chained.free list
  obtain ⟨second, setNext, grown⟩ :=
    grown.setNextOf alive (fresh_pointer heap) (some current)
  obtain ⟨third, setData, grown⟩ := grown.setData val
  have firstRead := grown.readNode isData different
  obtain ⟨fourth, setNextOf, grown⟩ :=
    grown.setNextOf alive chained.prev_pointer (some heap.freshNode)
  have secondRead := grown.readNode isData different
  obtain ⟨fifth, setPrev, grown⟩ :=
    grown.setPrevOf alive (fresh_pointer heap) ((heap.ring list).prev (some current))
  obtain ⟨sixth, setPrevOf, grown⟩ :=
    grown.setPrevOf alive chained.own_pointer (some heap.freshNode)
  obtain ⟨after, counted, inserted⟩ := grown.addCount alive (place_before different)
  refine ⟨after, ?_, inserted⟩
  unfold listAddNodePrev
  change (listnodeNew heap).2.setNext heap.freshNode _ = _ at setNext
  change fourth.setPrev heap.freshNode _ = _ at setPrev
  change fifth.setPrev current _ = _ at setPrevOf
  simp only [new_eq heap, setNext, ok_bind, setData, firstRead, setNextOf, secondRead, setPrev,
    setPrevOf]
  exact counted

/-- A node of a list and the null pointer are in its ring. -/
theorem mem_ring
    {pointer : Option NodePtr}
    (member : ∀ node ∈ pointer, node ∈ nodes) :
    pointer ∈ none :: nodes.map some := by
  cases pointer with
  | none =>
      exact List.mem_cons_self
  | some node =>
      exact List.mem_cons_of_mem _ (List.mem_map_of_mem (member node rfl))

/-- What is behind a node of a list, or first in it, is a node of the list or null. -/
theorem Chained.next_mem
    {pointer : Option NodePtr}
    (chained : Chained heap list nodes)
    (member : ∀ node ∈ pointer, node ∈ nodes) :
    ∀ node ∈ (heap.ring list).next pointer, node ∈ nodes := by
  intro node isNext
  cases pointer with
  | none =>
      have head : (heap.ring list).next none = nodes.head? := chained.holds.head_eq
      exact List.mem_of_head? (head.symm.trans isNext)
  | some other =>
      obtain ⟨first, second, rfl⟩ := List.append_of_mem (member other rfl)
      rw [chained.neighbours.1] at isNext
      exact List.mem_append_right _ (List.mem_cons_of_mem _ (List.mem_of_head? isNext))

theorem Chained.fresh_ne_next
    {pointer : Option NodePtr}
    (chained : Chained heap list nodes)
    (member : ∀ node ∈ pointer, node ∈ nodes) :
    some heap.freshNode ≠ (heap.ring list).next pointer := by
  intro same
  exact chained.fresh_not_mem (chained.next_mem member _ same.symm)

/-- The links after an insertion behind a node, or before the first one. -/
theorem place_behind
    {pointer : Option NodePtr}
    (chained : Chained heap list nodes)
    (member : ∀ node ∈ pointer, node ∈ nodes) :
    Links.mk
        (Function.update (Function.update (heap.ring list).next (some heap.freshNode)
          ((heap.ring list).next pointer)) pointer (some heap.freshNode))
        (Function.update (Function.update (heap.ring list).prev (some heap.freshNode) pointer)
          ((heap.ring list).next pointer) (some heap.freshNode)) =
      (heap.ring list).insertTail ((heap.ring list).next pointer) (some heap.freshNode) := by
  have linked : (heap.ring list).Linked none (nodes.map some) := chained.holds
  have back := (linked.inverse (mem_ring member)).1
  exact (insertTail_behind back (chained.fresh_ne_next member)).symm

/-- `list_add_node_next`. -/
theorem listAddNodeNext_eq
    {current : NodePtr}
    (chained : Chained heap list (first ++ current :: second))
    (val : Option Value) :
    ∃ after,
      listAddNodeNext heap list current val = .ok after ∧
        Inserted list second.head? val 1 heap after := by
  have alive := chained.alive
  obtain ⟨⟨data, isData⟩, different⟩ := chained.member
  have inside : ∀ node ∈ some current, node ∈ first ++ current :: second := by
    intro node isNode
    rw [← Option.mem_some_iff.mp isNode]
    exact List.mem_append_right _ List.mem_cons_self
  have grown := grown_listnodeNew chained.free list
  obtain ⟨second', setPrev, grown⟩ :=
    grown.setPrevOf alive (fresh_pointer heap) (some current)
  obtain ⟨third, setData, grown⟩ := grown.setData val
  have firstRead := grown.readNode isData different
  obtain ⟨fourth, setPrevOf, grown⟩ :=
    grown.setPrevOf alive chained.next_pointer (some heap.freshNode)
  have secondRead := grown.readNode isData different
  obtain ⟨fifth, setNext, grown⟩ :=
    grown.setNextOf alive (fresh_pointer heap) ((heap.ring list).next (some current))
  obtain ⟨sixth, setNextOf, grown⟩ :=
    grown.setNextOf alive chained.own_pointer (some heap.freshNode)
  obtain ⟨after, counted, inserted⟩ := grown.addCount alive (place_behind chained inside)
  rw [chained.neighbours.1] at inserted
  refine ⟨after, ?_, inserted⟩
  unfold listAddNodeNext
  change (listnodeNew heap).2.setPrev heap.freshNode _ = _ at setPrev
  change fourth.setNext heap.freshNode _ = _ at setNext
  change fifth.setNext current _ = _ at setNextOf
  simp only [new_eq heap, setPrev, ok_bind, setData, firstRead, setPrevOf, secondRead, setNext,
    setNextOf]
  exact counted

/-- A node that is not counted. -/
theorem Grown.uncounted
    {place : Option NodePtr}
    {val : Option Value}
    {before middle : Heap Value}
    {links : Links (Option NodePtr)}
    (grown : Grown list before middle val links)
    (ring : links = (before.ring list).insertTail place (some before.freshNode)) :
    Inserted list place val 0 before middle := by
  refine ⟨grown.ring.trans ring, grown.data, ?_, grown.ends, grown.freshNode, grown.freshList,
    grown.deleted⟩
  have same :
      ((before.header list).map fun header => { header with count := header.count + 0 }) =
        before.header list := by
    cases before.header list with
    | none => rfl
    | some header => simp
  rw [same, Function.update_eq_self]
  exact grown.header

/-- `listnode_add_after`. -/
theorem listnodeAddAfter_eq
    {pp : Option NodePtr}
    (chained : Chained heap list nodes)
    (inside : ∀ node ∈ pp, node ∈ nodes)
    (val : Option Value) :
    ∃ after,
      listnodeAddAfter heap list pp val = .ok after ∧
        Inserted list ((heap.ring list).next pp) val 0 heap after := by
  have alive := chained.alive
  obtain ⟨header, isHeader⟩ := Option.isSome_iff_exists.mp alive
  have isNext := chained.pointer (chained.next_mem inside)
  have grown := grown_listnodeNew chained.free list
  obtain ⟨second, setData, grown⟩ := grown.setData val
  have firstGrown := grown
  obtain ⟨third, setPrevOf, grown⟩ := grown.setPrevOf alive isNext (some heap.freshNode)
  have thirdGrown := grown
  obtain ⟨fourth, setNext, grown⟩ :=
    grown.setNextOf alive (fresh_pointer heap) ((heap.ring list).next pp)
  obtain ⟨fifth, setPrev, grown⟩ := grown.setPrevOf alive (fresh_pointer heap) pp
  obtain ⟨sixth, setNextOf, grown⟩ :=
    grown.setNextOf alive (chained.pointer inside) (some heap.freshNode)
  have order :
      Function.update (Function.update (heap.ring list).prev ((heap.ring list).next pp)
          (some heap.freshNode)) (some heap.freshNode) pp =
        Function.update (Function.update (heap.ring list).prev (some heap.freshNode) pp)
          ((heap.ring list).next pp) (some heap.freshNode) :=
    Function.update_comm (chained.fresh_ne_next inside).symm _ _ _
  have ring := place_behind chained inside
  rw [← order] at ring
  refine ⟨sixth, ?_, grown.uncounted ring⟩
  change third.setNext heap.freshNode _ = _ at setNext
  change fourth.setPrev heap.freshNode _ = _ at setPrev
  unfold listnodeAddAfter
  simp only [new_eq heap, setData, ok_bind]
  cases pp with
  | none =>
      have firstRead := firstGrown.readList isHeader
      have secondRead := thirdGrown.readList isHeader
      change fifth.setHead list _ = _ at setNextOf
      simp only [firstRead, ok_bind, setPrevOf, secondRead, setNext, setPrev]
      exact setNextOf
  | some node =>
      obtain ⟨data, isData⟩ := Option.isSome_iff_exists.mp (chained.known node (inside node rfl))
      have different : node ≠ heap.freshNode := by
        rintro rfl
        exact chained.fresh_not_mem (inside _ rfl)
      have firstRead := firstGrown.readNode isData different
      have secondRead := thirdGrown.readNode isData different
      change fifth.setNext node _ = _ at setNextOf
      simp only [firstRead, ok_bind, setPrevOf, secondRead, setNext, setPrev]
      exact setNextOf

/-- `nodeWith` and the loop of `listnode_add_sort` find the first node with a property. -/
theorem search_chained
    {before after : Heap Value}
    (chained : Chained before list nodes)
    (same : after.ring list = before.ring list)
    (kept : ∀ node ∈ nodes, after.data node = before.data node)
    (room : before.freshNode ≤ after.freshNode)
    (property : Option Value → Bool) :
    search (fun node => (after.nodes node).bind (·.next))
        (fun node => do return property (← after.node node).data)
        .unfinished (after.freshNode + 1) ((before.ring list).next none) =
      .ok (nodes.find? fun node => property ((before.data node).getD none)) := by
  have holds : Holds after.neighbours (after.ends list) nodes := by
    have linked : (before.ring list).Linked none (nodes.map some) := chained.holds
    rw [← same] at linked
    exact linked
  have head : (before.ring list).next none = nodes.head? := chained.holds.head_eq
  have decides :
      ∀ node ∈ nodes,
        (do return property (← after.node node).data : Except Fault Bool) =
          .ok (property ((before.data node).getD none)) := by
    intro node member
    obtain ⟨data, isData⟩ := Option.isSome_iff_exists.mp (chained.known node member)
    rw [node_eq ((kept node member).trans isData) list, isData]
    rfl
  rw [head]
  exact holds.search_eq (List.nil_append nodes).symm decides
    (lt_of_lt_of_le chained.enough (Nat.succ_le_succ room))

/-- Where `listnode_add_sort` puts a value: before the first that is larger. -/
def largerNode (heap : Heap Value) (nodes : List NodePtr)
    (cmp : Option (Option Value → Option Value → Int32)) (val : Option Value) : Option NodePtr :=
  cmp.elim none fun cmp =>
    nodes.find? fun node => decide (cmp val ((heap.data node).getD none) < 0)

theorem largerNode_mem
    {cmp : Option (Option Value → Option Value → Int32)}
    {val : Option Value}
    {node : NodePtr}
    (found : largerNode heap nodes cmp val = some node) :
    node ∈ nodes := by
  cases cmp with
  | none => cases found
  | some cmp => exact List.mem_of_find?_eq_some found

/-- `listnode_add_sort`. -/
theorem listnodeAddSort_eq
    {header : Header Value}
    (chained : Chained heap list nodes)
    (isHeader : heap.header list = some header)
    (val : Option Value) :
    ∃ after,
      listnodeAddSort heap list val = .ok after ∧
        Inserted list (largerNode heap nodes header.cmp val) val 1 heap after := by
  have alive := chained.alive
  have grown := grown_listnodeNew chained.free list
  obtain ⟨second, setData, grown⟩ := grown.setData val
  have firstRead := grown.readList isHeader
  have found :
      (header.cmp.elim (.ok none) fun cmp =>
          sortPlace second cmp val ((heap.ring list).next none)) =
        .ok (largerNode heap nodes header.cmp val) := by
    cases header.cmp with
    | none =>
        rfl
    | some cmp =>
        have kept : ∀ node ∈ nodes, second.data node = heap.data node := by
          intro node member
          rw [grown.data, Function.update_of_ne]
          rintro rfl
          exact chained.fresh_not_mem member
        have room : heap.freshNode ≤ second.freshNode := by
          rw [grown.freshNode]
          exact Nat.le_succ _
        exact search_chained chained grown.ring kept room fun data => decide (cmp val data < 0)
  unfold listnodeAddSort
  simp only [new_eq heap, setData, ok_bind, firstRead, found]
  cases isPlace : largerNode heap nodes header.cmp val with
  | none =>
      have tail : (heap.ring list).prev none = nodes.getLast? := chained.holds.tail_eq
      have isTail := chained.pointer fun node isLast =>
        List.mem_of_getLast? (tail.symm.trans isLast)
      obtain ⟨third, setPrev, grown⟩ :=
        grown.setPrevOf alive (fresh_pointer heap) ((heap.ring list).prev none)
      have secondRead := grown.readList isHeader
      dsimp only at secondRead
      rw [Function.update_of_ne (Option.some_ne_none _).symm] at secondRead
      obtain ⟨fourth, setNext, grown⟩ := grown.setNextOf alive isTail (some heap.freshNode)
      obtain ⟨fifth, setTail, grown⟩ :=
        grown.setPrevOf alive (null_pointer heap) (some heap.freshNode)
      obtain ⟨after, counted, inserted⟩ := grown.addCount alive (place_end chained)
      refine ⟨after, ?_, inserted⟩
      change second.setPrev heap.freshNode _ = _ at setPrev
      change fourth.setTail list _ = _ at setTail
      simp only [setPrev, ok_bind, secondRead, setNext, setTail]
      exact counted
  | some node =>
      have inside := largerNode_mem isPlace
      obtain ⟨first, rest, rfl⟩ := List.append_of_mem inside
      obtain ⟨⟨data, isData⟩, different⟩ := chained.member
      have apart : some node ≠ some heap.freshNode :=
        fun same => different (Option.some.inj same)
      obtain ⟨third, setNext, grown⟩ :=
        grown.setNextOf alive (fresh_pointer heap) (some node)
      have firstRead := grown.readNode isData different
      dsimp only at firstRead
      obtain ⟨fourth, setPrev, grown⟩ :=
        grown.setPrevOf alive (fresh_pointer heap) ((heap.ring list).prev (some node))
      have secondRead := grown.readNode isData different
      dsimp only at secondRead
      rw [Function.update_of_ne apart, Function.update_of_ne apart] at secondRead
      obtain ⟨fifth, setNextOf, grown⟩ :=
        grown.setNextOf alive chained.prev_pointer (some heap.freshNode)
      obtain ⟨sixth, setPrevOf, grown⟩ :=
        grown.setPrevOf alive chained.own_pointer (some heap.freshNode)
      obtain ⟨after, counted, inserted⟩ := grown.addCount alive (place_before different)
      refine ⟨after, ?_, inserted⟩
      change second.setNext heap.freshNode _ = _ at setNext
      change third.setPrev heap.freshNode _ = _ at setPrev
      change fifth.setPrev node _ = _ at setPrevOf
      simp only [setNext, ok_bind, firstRead, setPrev, secondRead, setNextOf, setPrevOf]
      exact counted

/-! ## Deletions -/

/-- A node has been taken out of a list and freed. -/
structure Removed (list : ListPtr) (node : NodePtr) (before after : Heap Value) : Prop where
  ring :
    ∀ pointer ≠ some node,
      (after.ring list).next pointer = ((before.ring list).unlink (some node)).next pointer ∧
        (after.ring list).prev pointer = ((before.ring list).unlink (some node)).prev pointer
  data : after.data = Function.update before.data node none
  header :
    after.header =
      Function.update before.header list
        ((before.header list).map fun header => { header with count := header.count + (-1) })
  ends : ∀ other ≠ list, after.ends other = before.ends other
  freshNode : after.freshNode = before.freshNode
  freshList : after.freshList = before.freshList
  deleted : after.deleted = before.deleted

/-- A node has been freed and nothing else. -/
structure Freed (node : NodePtr) (before after : Heap Value) : Prop where
  nodes : ∀ other ≠ node, after.nodes other = before.nodes other
  data : after.data = Function.update before.data node none
  lists : after.lists = before.lists
  freshNode : after.freshNode = before.freshNode
  freshList : after.freshList = before.freshList
  deleted : after.deleted = before.deleted

theorem listnodeFree_eq
    {node : NodePtr}
    (known : (heap.data node).isSome) :
    ∃ after, listnodeFree heap node = .ok after ∧ Freed node heap after := by
  obtain ⟨data, isData⟩ := Option.isSome_iff_exists.mp known
  obtain ⟨old, found, _⟩ := Option.map_eq_some_iff.mp isData
  have freed :
      listnodeFree heap node =
        .ok { heap with nodes := Function.update heap.nodes node none } := by
    unfold listnodeFree Heap.node
    rw [found]
    rfl
  refine ⟨_, freed, ?_, ?_, rfl, rfl, rfl, rfl⟩
  · intro other different
    exact Function.update_of_ne different _ _
  · funext other
    by_cases here : other = node
    · simp [Heap.data, here]
    · simp [Heap.data, here]

/-- What is freed is no place in a ring that others look at. -/
theorem Freed.ring
    {node : NodePtr}
    {before after : Heap Value}
    {pointer : Option NodePtr}
    (freed : Freed node before after)
    (different : pointer ≠ some node)
    (list : ListPtr) :
    (after.ring list).next pointer = (before.ring list).next pointer ∧
      (after.ring list).prev pointer = (before.ring list).prev pointer := by
  cases pointer with
  | none =>
      simp [Heap.ring, NullTerminated.ring, Heap.ends, freed.lists]
  | some other =>
      have apart : other ≠ node := fun same => different (congrArg some same)
      simp [Heap.ring, NullTerminated.ring, Heap.neighbours, freed.nodes other apart]

/-- `list_delete_node`. -/
theorem listDeleteNode_eq
    {node : NodePtr}
    (chained : Chained heap list (first ++ node :: second)) :
    ∃ after, listDeleteNode heap list node = .ok after ∧ Removed list node heap after := by
  obtain ⟨⟨data, isData⟩, _⟩ := chained.member
  have firstRead := node_eq isData list
  have isPrev : Usable heap list ((heap.ring list).prev (some node)) := by
    rw [chained.neighbours.2]
    apply chained.usable
    intro other isLast
    exact List.mem_append_left _ (List.mem_of_getLast? isLast)
  have isNext : Usable heap list ((heap.ring list).next (some node)) := by
    rw [chained.neighbours.1]
    apply chained.usable
    intro other isHead
    exact List.mem_append_right _ (List.mem_cons_of_mem _ (List.mem_of_head? isHead))
  obtain ⟨second', setNext, relinked, secondRing⟩ :=
    setNextOf_eq isPrev ((heap.ring list).next (some node))
  have secondData : second'.data node = some data := by
    rw [relinked.data, isData]
  have secondRead := node_eq secondData list
  -- The node before is another one, so that the link of the node itself is still there.
  have kept : (second'.ring list).next (some node) = (heap.ring list).next (some node) := by
    have linked : (heap.ring list).Linked none ((first ++ node :: second).map some) :=
      chained.holds
    have inside : some node ∈ (first ++ node :: second).map some :=
      List.mem_map_of_mem (List.mem_append_right _ List.mem_cons_self)
    rw [secondRing]
    exact Function.update_of_ne (linked.neighbours_ne inside).2.symm _ _
  have stillNext : Usable second' list ((second'.ring list).next (some node)) := by
    rw [kept]
    exact isNext.relinked relinked
  obtain ⟨third, setPrev, relinkedAgain, thirdRing⟩ :=
    setPrevOf_eq stillNext ((second'.ring list).prev (some node))
  have relinked := relinked.trans relinkedAgain
  obtain ⟨fourth, counted, recounted⟩ := addCount_eq (stillNext.relinked relinkedAgain).list (-1)
  have fourthData : fourth.data = heap.data := by
    rw [← relinked.data]
    unfold Heap.data
    rw [recounted.nodes]
  have lastData : (fourth.data node).isSome := by
    rw [fourthData, isData]
    rfl
  obtain ⟨after, freeNode, freed⟩ := listnodeFree_eq lastData
  have sameHeader : after.header = fourth.header := by
    unfold Heap.header
    rw [freed.lists]
  have sameEnds (other : ListPtr) : after.ends other = fourth.ends other := by
    unfold Heap.ends
    rw [freed.lists]
  refine ⟨after, ?_, ?_⟩
  · unfold listDeleteNode
    simp only [firstRead, ok_bind, setNext, secondRead, setPrev, counted]
    exact freeNode
  · refine
      { ring := ?_
        data := by rw [freed.data, fourthData]
        header := by rw [sameHeader, recounted.header, relinked.header]
        ends := ?_
        freshNode := freed.freshNode.trans (recounted.freshNode.trans relinked.freshNode)
        freshList := freed.freshList.trans (recounted.freshList.trans relinked.freshList)
        deleted := freed.deleted.trans (recounted.deleted.trans relinked.deleted) }
    · intro pointer different
      obtain ⟨next, prev⟩ := freed.ring different list
      rw [next, prev, recounted.ring, thirdRing, secondRing]
      exact ⟨rfl, rfl⟩
    · intro other different
      rw [sameEnds, recounted.ends other different, relinked.ends other different]

/-- Some nodes have been freed; if `del`, their data has been deleted in this order. -/
structure Swept (del : Bool) (nodes : List NodePtr) (before after : Heap Value) : Prop where
  freed : ∀ node ∈ nodes, after.nodes node = none
  kept : ∀ node ∉ nodes, after.nodes node = before.nodes node
  lists : after.lists = before.lists
  freshNode : after.freshNode = before.freshNode
  freshList : after.freshList = before.freshList
  deleted :
    after.deleted =
      before.deleted ++ if del then nodes.map fun node => (before.data node).getD none else []

theorem callDel_eq
    (heap : Heap Value)
    (del : Bool)
    (data : Option Value) :
    callDel heap del data =
      { heap with deleted := heap.deleted ++ if del then [data] else [] } := by
  cases del with
  | false => simp [callDel]
  | true => rfl

/-- One more node. -/
theorem Swept.snoc
    {del : Bool}
    {node : NodePtr}
    {middle : Heap Value}
    {data : Option Value}
    (swept : Swept del nodes heap middle)
    (different : node ∉ nodes)
    (isData : heap.data node = some data) :
    ∃ after,
      (do listnodeFree (callDel middle del (← middle.node node).data) node) = .ok after ∧
        Swept del (nodes ++ [node]) heap after := by
  have inMiddle : middle.data node = some data := by
    rw [← isData]
    unfold Heap.data
    rw [swept.kept node different]
  have known : ((callDel middle del data).data node).isSome := by
    rw [callDel_eq]
    exact Option.isSome_of_eq_some inMiddle
  obtain ⟨after, freeNode, freed⟩ := listnodeFree_eq known
  rw [callDel_eq] at freed
  refine ⟨after, ?_, ?_⟩
  · rw [node_eq inMiddle 0]
    exact freeNode
  · refine
      { freed := ?_
        kept := ?_
        lists := freed.lists.trans swept.lists
        freshNode := freed.freshNode.trans swept.freshNode
        freshList := freed.freshList.trans swept.freshList
        deleted := ?_ }
    · intro other member
      rcases List.mem_append.mp member with before | isNode
      · have apart : other ≠ node := fun same => different (same ▸ before)
        exact (freed.nodes other apart).trans (swept.freed other before)
      · have gone : after.data node = none := by
          rw [freed.data, Function.update_self]
        rw [List.mem_singleton.mp isNode]
        exact Option.map_eq_none_iff.mp gone
    · intro other outside
      rw [List.mem_append, List.mem_singleton, not_or] at outside
      exact (freed.nodes other outside.2).trans (swept.kept other outside.1)
    · rw [freed.deleted, swept.deleted, List.append_assoc]
      cases del with
      | false => rfl
      | true => simp [isData]

/-- The loop of `list_delete_all_node` and of `list_delete` frees all nodes. -/
theorem deleteNodes_eq
    {header : Header Value}
    (chained : Chained heap list nodes)
    (isHeader : heap.header list = some header) :
    ∃ after, deleteNodes heap list = .ok after ∧ Swept header.del nodes heap after := by
  let invariant (state : Heap Value) (passed coming : List NodePtr) : Prop :=
    nodes = passed ++ coming ∧ Swept header.del passed heap state
  have notPassed
      {passed coming : List NodePtr}
      {node : NodePtr}
      (shape : nodes = passed ++ node :: coming) :
      node ∉ passed := by
    have apart := chained.holds.nodup
    rw [shape] at apart
    exact fun member =>
      (List.nodup_append.mp apart).2.2 node member node List.mem_cons_self rfl
  have behind
      {state : Heap Value}
      {passed coming : List NodePtr}
      {node : NodePtr}
      (holds : invariant state passed (node :: coming)) :
      (state.nodes node).bind (·.next) = coming.head? := by
    obtain ⟨shape, swept⟩ := holds
    rw [swept.kept node (notPassed shape)]
    exact (shape ▸ chained.holds).next_eq
  have preserved
      {state : Heap Value}
      {passed coming : List NodePtr}
      {node : NodePtr}
      (holds : invariant state passed (node :: coming)) :
      ∃ after,
        (do listnodeFree (callDel state header.del (← state.node node).data) node) = .ok after ∧
          invariant after (passed ++ [node]) coming := by
    obtain ⟨shape, swept⟩ := holds
    have inside : node ∈ nodes := by
      rw [shape]
      exact List.mem_append_right _ List.mem_cons_self
    obtain ⟨data, isData⟩ := Option.isSome_iff_exists.mp (chained.known node inside)
    obtain ⟨after, returned, sweptMore⟩ := swept.snoc (notPassed shape) isData
    refine ⟨after, returned, ?_, sweptMore⟩
    rw [shape, List.append_assoc, List.singleton_append]
  have start : invariant heap [] nodes := by
    refine ⟨rfl, ?_, ?_, rfl, rfl, rfl, ?_⟩
    · intro node member
      cases member
    · intro node _
      rfl
    · simp
  obtain ⟨after, returned, _, swept⟩ :=
    forEach_rule invariant behind preserved start chained.enough
  rw [List.nil_append] at swept
  refine ⟨after, ?_, swept⟩
  have head : (heap.ring list).next none = nodes.head? := chained.holds.head_eq
  unfold deleteNodes
  rw [list_eq isHeader, ok_bind]
  dsimp only
  rw [head]
  exact returned

end

end

end Pma.LinkLists
