import Mathlib.Data.List.Find
import Pma.LinkListSequences

namespace Pma.LinkLists

open NullTerminated

/-!
# The sequences in memory

Every call of `lib/linklist.c` does to the memory what it does to the
sequences.
-/

section

variable {Value : Type}

/-- The memory holds the sequences and nothing else. -/
structure Represents (heap : Heap Value) (world : World Value) : Prop where
  header : ∀ list, heap.header list = (world.lists list).map Sequence.header
  holds :
    ∀ {list sequence}, world.lists list = some sequence →
      Holds heap.neighbours (heap.ends list) sequence.nodes
  data :
    ∀ {list sequence}, world.lists list = some sequence →
      ∀ item ∈ sequence.items, heap.data item.1 = some item.2
  owned : ∀ node, (heap.data node).isSome → ∃ list, world.On node list
  apart : ∀ {node list other}, world.On node list → world.On node other → list = other
  below : ∀ node, (heap.data node).isSome → node < heap.freshNode
  listsBelow : ∀ list, (heap.header list).isSome → list < heap.freshList
  freshNode : heap.freshNode = world.freshNode
  freshList : heap.freshList = world.freshList
  deleted : heap.deleted = world.deleted

section

variable
  {heap after : Heap Value}
  {world : World Value}
  {list : ListPtr}
  {sequence old new : Sequence Value}

namespace Represents

theorem known
    {node : NodePtr}
    (represents : Represents heap world)
    (on : world.On node list) :
    (heap.data node).isSome := by
  obtain ⟨sequence, isList, member⟩ := on
  obtain ⟨item, inItems, rfl⟩ := List.mem_map.mp member
  rw [represents.data isList item inItems]
  rfl

theorem isHeader
    (represents : Represents heap world)
    (isList : world.lists list = some sequence) :
    heap.header list = some sequence.header := by
  rw [represents.header, isList]
  rfl

theorem list_lt
    (represents : Represents heap world)
    (isList : world.lists list = some sequence) :
    list < heap.freshList := by
  apply represents.listsBelow
  rw [represents.isHeader isList]
  rfl

/-- The nodes of a sequence are chained in memory. -/
theorem chained
    (represents : Represents heap world)
    (isList : world.lists list = some sequence) :
    Chained heap list sequence.nodes where
  holds := represents.holds isList
  alive := by
    rw [represents.isHeader isList]
    rfl
  known _ member := represents.known ⟨sequence, isList, member⟩
  below := represents.below

end Represents

theorem on_iff
    (isList : world.lists list = some sequence)
    (node : NodePtr) :
    world.On node list ↔ node ∈ sequence.nodes := by
  constructor
  · rintro ⟨found, isFound, member⟩
    rw [isList] at isFound
    exact Option.some.inj isFound ▸ member
  · intro member
    exact ⟨sequence, isList, member⟩

/-- What has become of one list; the others are as they were. -/
structure Rewritten (list : ListPtr) (old new : Sequence Value) (heap after : Heap Value) :
    Prop where
  header : after.header = Function.update heap.header list (some new.header)
  ends : ∀ other ≠ list, after.ends other = heap.ends other
  holds : Holds after.neighbours (after.ends list) new.nodes
  data : ∀ item ∈ new.items, after.data item.1 = some item.2
  outside :
    ∀ node ∉ old.nodes, node ∉ new.nodes →
      after.data node = heap.data node ∧
        after.neighbours.next node = heap.neighbours.next node ∧
          after.neighbours.prev node = heap.neighbours.prev node
  gone : ∀ node ∈ old.nodes, node ∉ new.nodes → after.data node = none
  fresh : ∀ node ∈ new.nodes, node ∈ old.nodes ∨ heap.freshNode ≤ node ∧ node < after.freshNode
  room : heap.freshNode ≤ after.freshNode
  listBelow : list < after.freshList
  listRoom : heap.freshList ≤ after.freshList

namespace Rewritten

/-- A node of another list is on neither of the two sequences. -/
theorem elsewhere
    {node : NodePtr}
    {other : ListPtr}
    (rewritten : Rewritten list old new heap after)
    (represents : Represents heap world)
    (isOld : ∀ node, world.On node list ↔ node ∈ old.nodes)
    (different : other ≠ list)
    (on : world.On node other) :
    node ∉ old.nodes ∧ node ∉ new.nodes := by
  have notOld : node ∉ old.nodes := by
    intro member
    exact different (represents.apart on ((isOld node).mpr member))
  refine ⟨notOld, ?_⟩
  intro member
  rcases rewritten.fresh node member with inOld | ⟨isFresh, _⟩
  · exact notOld inOld
  · exact absurd (represents.below node (represents.known on)) (Nat.not_lt_of_le isFresh)

/-- Where the nodes are that are allocated afterwards. -/
theorem located
    {node : NodePtr}
    (rewritten : Rewritten list old new heap after)
    (known : (after.data node).isSome) :
    node ∈ new.nodes ∨ node ∉ old.nodes ∧ node ∉ new.nodes ∧ (heap.data node).isSome := by
  by_cases inNew : node ∈ new.nodes
  · exact .inl inNew
  · by_cases inOld : node ∈ old.nodes
    · rw [rewritten.gone node inOld inNew] at known
      cases known
    · rw [(rewritten.outside node inOld inNew).1] at known
      exact .inr ⟨inOld, inNew, known⟩

end Rewritten

/-- Only one list is different. -/
theorem Represents.rewritten
    (represents : Represents heap world)
    (isOld : ∀ node, world.On node list ↔ node ∈ old.nodes)
    (rewritten : Rewritten list old new heap after) :
    Represents after
      { lists := Function.update world.lists list (some new)
        freshNode := after.freshNode
        freshList := after.freshList
        deleted := after.deleted } := by
  have kept {other : ListPtr} (different : other ≠ list) :
      Function.update world.lists list (some new) other = world.lists other :=
    Function.update_of_ne different _ _
  have onOther {node : NodePtr} {other : ListPtr} (different : other ≠ list)
      (on : ∃ sequence, Function.update world.lists list (some new) other = some sequence ∧
        node ∈ sequence.nodes) :
      world.On node other := by
    rwa [kept different] at on
  have onList {node : NodePtr}
      (on : ∃ sequence, Function.update world.lists list (some new) list = some sequence ∧
        node ∈ sequence.nodes) :
      node ∈ new.nodes := by
    obtain ⟨sequence, isSequence, member⟩ := on
    rw [Function.update_self] at isSequence
    exact Option.some.inj isSequence ▸ member
  refine
    { header := ?_
      holds := ?_
      data := ?_
      owned := ?_
      apart := ?_
      below := ?_
      listsBelow := ?_
      freshNode := rfl
      freshList := rfl
      deleted := rfl }
  · intro other
    rw [rewritten.header]
    dsimp only
    by_cases here : other = list
    · rw [here, Function.update_self, Function.update_self]
      rfl
    · rw [kept here, Function.update_of_ne here, represents.header]
  · intro other sequence isSequence
    dsimp only at isSequence
    by_cases here : other = list
    · subst here
      rw [Function.update_self] at isSequence
      exact Option.some.inj isSequence ▸ rewritten.holds
    · rw [kept here] at isSequence
      apply (represents.holds isSequence).congr (rewritten.ends other here)
      intro node member
      obtain ⟨notOld, notNew⟩ :=
        rewritten.elsewhere represents isOld here ⟨sequence, isSequence, member⟩
      exact (rewritten.outside node notOld notNew).2
  · intro other sequence isSequence item member
    dsimp only at isSequence
    by_cases here : other = list
    · subst here
      rw [Function.update_self] at isSequence
      exact rewritten.data item (Option.some.inj isSequence ▸ member)
    · rw [kept here] at isSequence
      have on : world.On item.1 other := ⟨sequence, isSequence, List.mem_map_of_mem member⟩
      obtain ⟨notOld, notNew⟩ := rewritten.elsewhere represents isOld here on
      rw [(rewritten.outside item.1 notOld notNew).1]
      exact represents.data isSequence item member
  · intro node known
    rcases rewritten.located known with inNew | ⟨notOld, _, knownBefore⟩
    · exact ⟨list, new, Function.update_self .., inNew⟩
    · obtain ⟨other, sequence, isSequence, member⟩ := represents.owned node knownBefore
      have different : other ≠ list := by
        rintro rfl
        exact notOld ((isOld node).mp ⟨sequence, isSequence, member⟩)
      exact ⟨other, sequence, (kept different).trans isSequence, member⟩
  · intro node first second onFirst onSecond
    by_cases isFirst : first = list
    · subst isFirst
      by_cases isSecond : second = first
      · exact isSecond.symm
      · have away := rewritten.elsewhere represents isOld isSecond (onOther isSecond onSecond)
        exact absurd (onList onFirst) away.2
    · by_cases isSecond : second = list
      · subst isSecond
        have away := rewritten.elsewhere represents isOld isFirst (onOther isFirst onFirst)
        exact absurd (onList onSecond) away.2
      · exact represents.apart (onOther isFirst onFirst) (onOther isSecond onSecond)
  · intro node known
    rcases rewritten.located known with inNew | ⟨_, _, knownBefore⟩
    · rcases rewritten.fresh node inNew with inOld | ⟨_, isBelow⟩
      · exact lt_of_lt_of_le
          (represents.below node (represents.known ((isOld node).mpr inOld))) rewritten.room
      · exact isBelow
    · exact lt_of_lt_of_le (represents.below node knownBefore) rewritten.room
  · intro other alive
    by_cases here : other = list
    · exact here ▸ rewritten.listBelow
    · rw [rewritten.header, Function.update_of_ne here] at alive
      exact lt_of_lt_of_le (represents.listsBelow other alive) rewritten.listRoom

/-- A call that changes one list and allocates no other one. -/
theorem Represents.modified
    {freshNode : NodePtr}
    {deleted : List (Option Value)}
    (represents : Represents heap world)
    (isList : world.lists list = some old)
    (change : Sequence Value → Sequence Value)
    (rewritten : Rewritten list old (change old) heap after)
    (isFreshNode : after.freshNode = freshNode)
    (isFreshList : after.freshList = heap.freshList)
    (isDeleted : after.deleted = deleted) :
    Represents after
      { world.modify list change with freshNode := freshNode, deleted := deleted } := by
  have represented := represents.rewritten (on_iff isList) rewritten
  rw [isFreshNode, isFreshList, isDeleted, represents.freshList] at represented
  unfold World.modify
  rw [isList]
  exact represented

/-! ## Insertions -/

/-- The place of an insertion is where the items behind it begin. -/
theorem head_dropWhile
    {place : Option NodePtr}
    {items : List (Item Value)}
    (inside : ∀ node ∈ place, node ∈ items.map Prod.fst) :
    ((items.dropWhile fun other => some other.1 ≠ place).map Prod.fst).head? = place := by
  induction items with
  | nil =>
      cases place with
      | none => rfl
      | some node => exact absurd (inside node rfl) List.not_mem_nil
  | cons item items inductionHypothesis =>
      by_cases here : some item.1 = place
      · rw [List.dropWhile_cons_of_neg (by simpa using here)]
        exact here
      · rw [List.dropWhile_cons_of_pos (by simpa using here)]
        apply inductionHypothesis
        intro node isPlace
        rcases List.mem_cons.mp (inside node isPlace) with same | later
        · exact absurd (same ▸ isPlace).symm here
        · exact later

/-- What an insertion does to the sequence. -/
theorem Inserted.rewritten
    {place : Option NodePtr}
    {val : Option Value}
    {counted : UInt32}
    (inserted : Inserted list place val counted heap after)
    (represents : Represents heap world)
    (isList : world.lists list = some old)
    (inside : ∀ node ∈ place, node ∈ old.nodes)
    (items : new.items = insertAt place (heap.freshNode, val) old.items)
    (header : new.header = { old.header with count := old.header.count + counted }) :
    Rewritten list old new heap after := by
  obtain ⟨first, isFirst⟩ :
      ∃ first, first = old.items.takeWhile fun other => some other.1 ≠ place := ⟨_, rfl⟩
  obtain ⟨second, isSecond⟩ :
      ∃ second, second = old.items.dropWhile fun other => some other.1 ≠ place := ⟨_, rfl⟩
  have shape : old.items = first ++ second := by
    rw [isFirst, isSecond, List.takeWhile_append_dropWhile]
  have newItems : new.items = first ++ (heap.freshNode, val) :: second := by
    rw [items, insertAt, isFirst, isSecond]
  have atPlace : (second.map Prod.fst).head? = place := by
    rw [isSecond]
    exact head_dropWhile inside
  have oldNodes : old.nodes = first.map Prod.fst ++ second.map Prod.fst := by
    rw [Sequence.nodes, shape, List.map_append]
  have newNodes :
      new.nodes = first.map Prod.fst ++ heap.freshNode :: second.map Prod.fst := by
    rw [Sequence.nodes, newItems, List.map_append, List.map_cons]
  have chained := represents.chained isList
  have notFresh := chained.fresh_not_mem
  have holds := chained.holds
  have ring := inserted.ring
  rw [← atPlace] at ring
  rw [oldNodes] at holds notFresh
  have inNew (node : NodePtr) : node ∈ new.nodes ↔ node = heap.freshNode ∨ node ∈ old.nodes := by
    rw [newNodes, oldNodes]
    simp only [List.mem_append, List.mem_cons]
    tauto
  refine
    { header := ?_
      ends := inserted.ends
      holds := ?_
      data := ?_
      outside := ?_
      gone := ?_
      fresh := ?_
      room := inserted.freshNode ▸ Nat.le_succ _
      listBelow := inserted.freshList ▸ represents.list_lt isList
      listRoom := inserted.freshList ▸ le_rfl }
  · rw [inserted.header, represents.isHeader isList, header]
    rfl
  · rw [newNodes]
    exact holds.insert notFresh ring
  · intro item member
    rw [inserted.data]
    have split : item = (heap.freshNode, val) ∨ item ∈ old.items := by
      rw [newItems] at member
      rw [shape]
      simp only [List.mem_append, List.mem_cons] at member ⊢
      tauto
    rcases split with rfl | inOld
    · exact Function.update_self ..
    · have isNode : item.1 ∈ old.nodes := List.mem_map_of_mem inOld
      have apart : item.1 ≠ heap.freshNode := fun same => chained.fresh_not_mem (same ▸ isNode)
      rw [Function.update_of_ne apart]
      exact represents.data isList item inOld
  · intro node notOld notNew
    have apart : node ≠ heap.freshNode := fun same => notNew ((inNew node).mpr (.inl same))
    refine ⟨?_, ?_⟩
    · rw [inserted.data, Function.update_of_ne apart]
    · exact holds.insert_outside notFresh ring (oldNodes ▸ notOld) apart
  · intro node inOld notNew
    exact absurd ((inNew node).mpr (.inr inOld)) notNew
  · intro node member
    rcases (inNew node).mp member with rfl | inOld
    · exact .inr ⟨le_rfl, inserted.freshNode ▸ Nat.lt_succ_self _⟩
    · exact .inl inOld

theorem length_insertAt
    (place : Option NodePtr)
    (item : Item Value)
    (items : List (Item Value)) :
    (insertAt place item items).length = items.length + 1 := by
  have split := congrArg List.length
    (List.takeWhile_append_dropWhile (p := fun other : Item Value => some other.1 ≠ place)
      (l := items))
  rw [List.length_append] at split
  rw [insertAt, List.length_append, List.length_cons, ← Nat.add_assoc]
  exact congrArg (· + 1) split

/-- One more item, and one more that is counted. -/
theorem count_insert (length uncounted : Nat) :
    UInt32.ofNat (length + 1) - UInt32.ofNat uncounted =
      UInt32.ofNat length - UInt32.ofNat uncounted + 1 := by
  rw [UInt32.ofNat_add]
  grind

/-- One more item that is not counted. -/
theorem count_insertUncounted (length uncounted : Nat) :
    UInt32.ofNat (length + 1) - UInt32.ofNat (uncounted + 1) =
      UInt32.ofNat length - UInt32.ofNat uncounted + 0 := by
  rw [UInt32.ofNat_add, UInt32.ofNat_add]
  grind

/-- One item less. -/
theorem count_erase (length uncounted : Nat) :
    UInt32.ofNat length - UInt32.ofNat uncounted =
      UInt32.ofNat (length + 1) - UInt32.ofNat uncounted + (-1) := by
  rw [count_insert]
  grind

theorem header_insert
    (sequence : Sequence Value)
    (place : Option NodePtr)
    (item : Item Value) :
    (sequence.insert place item).header =
      { sequence.header with count := sequence.header.count + 1 } := by
  simp only [Sequence.header, Sequence.insert, length_insertAt, count_insert]

theorem header_insertUncounted
    (sequence : Sequence Value)
    (place : Option NodePtr)
    (item : Item Value) :
    (sequence.insertUncounted place item).header =
      { sequence.header with count := sequence.header.count + 0 } := by
  simp only [Sequence.header, Sequence.insertUncounted, length_insertAt, count_insertUncounted]

/-! ## Deletions -/

/-- What a deletion does to the sequence. -/
theorem Removed.rewritten
    {item : Item Value}
    {first second : List (Item Value)}
    (removed : Removed list item.1 heap after)
    (represents : Represents heap world)
    (isList : world.lists list = some old)
    (shape : old.items = first ++ item :: second) :
    Rewritten list old { old with items := first ++ second } heap after := by
  have oldNodes : old.nodes = first.map Prod.fst ++ item.1 :: second.map Prod.fst := by
    rw [Sequence.nodes, shape, List.map_append, List.map_cons]
  have newNodes :
      Sequence.nodes { old with items := first ++ second } =
        first.map Prod.fst ++ second.map Prod.fst :=
    List.map_append
  have chained := represents.chained isList
  have holds := chained.holds
  rw [oldNodes] at holds
  have apart := (List.nodup_cons.mp (List.perm_middle.nodup_iff.mp holds.nodup)).1
  have inOld (node : NodePtr) :
      node ∈ old.nodes ↔ node = item.1 ∨ node ∈ first.map Prod.fst ++ second.map Prod.fst := by
    rw [oldNodes]
    simp only [List.mem_append, List.mem_cons]
    tauto
  refine
    { header := ?_
      ends := removed.ends
      holds := ?_
      data := ?_
      outside := ?_
      gone := ?_
      fresh := ?_
      room := removed.freshNode ▸ le_rfl
      listBelow := removed.freshList ▸ represents.list_lt isList
      listRoom := removed.freshList ▸ le_rfl }
  · have length : old.items.length = (first ++ second).length + 1 := by
      rw [shape, List.length_append, List.length_append, List.length_cons, Nat.add_assoc]
    rw [removed.header, represents.isHeader isList]
    simp only [Option.map_some, Sequence.header, length, ← count_erase]
  · rw [newNodes]
    exact holds.delete removed.ring
  · intro other member
    have inItems : other ∈ old.items := by
      rw [shape]
      rcases List.mem_append.mp member with inFirst | inSecond
      · exact List.mem_append_left _ inFirst
      · exact List.mem_append_right _ (List.mem_cons_of_mem _ inSecond)
    have different : other.1 ≠ item.1 := by
      intro same
      apply apart
      rw [← List.map_append, ← same]
      exact List.mem_map_of_mem member
    rw [removed.data, Function.update_of_ne different]
    exact represents.data isList other inItems
  · intro node notOld _
    have different : node ≠ item.1 := fun same => notOld ((inOld node).mpr (.inl same))
    refine ⟨?_, ?_⟩
    · rw [removed.data, Function.update_of_ne different]
    · rw [oldNodes] at notOld
      exact holds.delete_outside (List.mem_append_right _ List.mem_cons_self) removed.ring notOld
  · intro node member notNew
    rw [newNodes] at notNew
    rcases (inOld node).mp member with rfl | inNew
    · rw [removed.data, Function.update_self]
    · exact absurd inNew notNew
  · intro node member
    rw [newNodes] at member
    exact .inl ((inOld node).mpr (.inr member))

/-- What it does to the sequence that all nodes are freed. -/
theorem Swept.rewritten
    {middle : Heap Value}
    (swept : Swept old.del old.nodes heap middle)
    (represents : Represents heap world)
    (isList : world.lists list = some old)
    (nodes : after.nodes = middle.nodes)
    (header : after.header = Function.update heap.header list (some old.clear.header))
    (ends : ∀ other ≠ list, after.ends other = heap.ends other)
    (empty : after.ends list = ⟨none, none⟩)
    (freshNode : after.freshNode = middle.freshNode)
    (freshList : after.freshList = middle.freshList) :
    Rewritten list old old.clear heap after := by
  refine
    { header := header
      ends := ends
      holds := .nil (by rw [empty]) (by rw [empty])
      data := ?_
      outside := ?_
      gone := ?_
      fresh := ?_
      room := (freshNode.trans swept.freshNode) ▸ le_rfl
      listBelow := (freshList.trans swept.freshList) ▸ represents.list_lt isList
      listRoom := (freshList.trans swept.freshList) ▸ le_rfl }
  · intro item member
    cases member
  · intro node notOld _
    have same : after.nodes node = heap.nodes node := by
      rw [nodes]
      exact swept.kept node notOld
    simp only [Heap.data, Heap.neighbours, same, and_self]
  · intro node inOld _
    rw [Heap.data, nodes, swept.freed node inOld]
    rfl
  · intro node member
    cases member

/-- A list is gone, with all its nodes. -/
theorem Represents.dropped
    {del : Bool}
    {middle : Heap Value}
    {deleted : List (Option Value)}
    (represents : Represents heap world)
    (isList : world.lists list = some old)
    (swept : Swept del old.nodes heap middle)
    (isDeleted : middle.deleted = deleted) :
    Represents { middle with lists := Function.update middle.lists list none }
      { world with
        lists := Function.update world.lists list none
        deleted := deleted } := by
  have kept {other : ListPtr} (different : other ≠ list) :
      Function.update world.lists list none other = world.lists other :=
    Function.update_of_ne different _ _
  have isOther {other : ListPtr} {sequence : Sequence Value}
      (isSequence : Function.update world.lists list none other = some sequence) :
      other ≠ list ∧ world.lists other = some sequence := by
    by_cases here : other = list
    · rw [here, Function.update_self] at isSequence
      cases isSequence
    · exact ⟨here, (kept here).symm.trans isSequence⟩
  have elsewhere {other : ListPtr} {node : NodePtr}
      (different : other ≠ list)
      (on : world.On node other) :
      middle.nodes node = heap.nodes node := by
    apply swept.kept
    intro inOld
    exact different (represents.apart on ⟨old, isList, inOld⟩)
  have before {node : NodePtr} (known : (middle.data node).isSome) :
      node ∉ old.nodes ∧ (heap.data node).isSome := by
    have notOld : node ∉ old.nodes := by
      intro inOld
      rw [Heap.data, swept.freed node inOld] at known
      cases known
    rw [Heap.data, swept.kept node notOld] at known
    exact ⟨notOld, known⟩
  refine
    { header := ?_
      holds := ?_
      data := ?_
      owned := ?_
      apart := ?_
      below := ?_
      listsBelow := ?_
      freshNode := swept.freshNode.trans represents.freshNode
      freshList := swept.freshList.trans represents.freshList
      deleted := isDeleted }
  · intro other
    dsimp only [Heap.header]
    by_cases here : other = list
    · rw [here, Function.update_self, Function.update_self]
      rfl
    · rw [kept here, Function.update_of_ne here, swept.lists]
      exact represents.header other
  · intro other sequence isSequence
    obtain ⟨different, isSequence⟩ := isOther isSequence
    have sameEnds :
        Heap.ends { middle with lists := Function.update middle.lists list none } other =
          heap.ends other := by
      simp [Heap.ends, different, swept.lists]
    apply (represents.holds isSequence).congr sameEnds
    intro node member
    have same := elsewhere different ⟨sequence, isSequence, member⟩
    simp only [Heap.neighbours, same, and_self]
  · intro other sequence isSequence item member
    obtain ⟨different, isSequence⟩ := isOther isSequence
    have same := elsewhere different ⟨sequence, isSequence, List.mem_map_of_mem member⟩
    have isData := represents.data isSequence item member
    rw [Heap.data] at isData ⊢
    rw [same]
    exact isData
  · intro node known
    obtain ⟨notOld, knownBefore⟩ := before known
    obtain ⟨other, sequence, isSequence, member⟩ := represents.owned node knownBefore
    have different : other ≠ list := by
      rintro rfl
      rw [isList] at isSequence
      exact notOld (Option.some.inj isSequence ▸ member)
    exact ⟨other, sequence, (kept different).trans isSequence, member⟩
  · intro node first second onFirst onSecond
    obtain ⟨sequence, isFirst, inFirst⟩ := onFirst
    obtain ⟨another, isSecond, inSecond⟩ := onSecond
    exact represents.apart ⟨sequence, (isOther isFirst).2, inFirst⟩
      ⟨another, (isOther isSecond).2, inSecond⟩
  · intro node known
    exact swept.freshNode ▸ represents.below node (before known).2
  · intro other alive
    dsimp only [Heap.header] at alive ⊢
    rw [swept.freshList]
    apply represents.listsBelow
    by_cases here : other = list
    · rw [here, Function.update_self] at alive
      cases alive
    · rwa [Function.update_of_ne here, swept.lists] at alive

/-! ## Calls -/

/-- `list_new`. -/
theorem Represents.listNew
    (represents : Represents heap world) :
    Represents (listNew heap).2
      { world with
        lists := Function.update world.lists world.freshList (some Sequence.new)
        freshList := world.freshList + 1 } := by
  have notThere : world.lists heap.freshList = none := by
    have notAlive : ¬ (heap.header heap.freshList).isSome :=
      fun alive => lt_irrefl _ (represents.listsBelow _ alive)
    rwa [represents.header, Option.isSome_map, Option.not_isSome_iff_eq_none] at notAlive
  have isOld (node : NodePtr) :
      world.On node heap.freshList ↔ node ∈ (Sequence.new : Sequence Value).nodes := by
    constructor
    · rintro ⟨sequence, isList, _⟩
      rw [notThere] at isList
      cases isList
    · intro member
      cases member
  have newHeader : (Sequence.new : Sequence Value).header = ⟨0, none, false⟩ := by
    simp [Sequence.header, Sequence.new]
  have rewritten :
      Rewritten heap.freshList Sequence.new Sequence.new heap (LinkLists.listNew heap).2 := by
    refine
      { header := newHeader ▸ header_list heap heap.freshList ⟨none, none, 0, none, false⟩
        ends := ?_
        holds := ?_
        data := ?_
        outside := fun _ _ _ => ⟨rfl, rfl, rfl⟩
        gone := ?_
        fresh := ?_
        room := le_rfl
        listBelow := Nat.lt_succ_self _
        listRoom := Nat.le_succ _ }
    · intro other different
      simp [Heap.ends, LinkLists.listNew, different]
    · exact .nil (by simp [Heap.ends, LinkLists.listNew]) (by simp [Heap.ends, LinkLists.listNew])
    · intro item member
      cases member
    · intro node member
      cases member
    · intro node member
      cases member
  have represented := represents.rewritten isOld rewritten
  have sameNode : (LinkLists.listNew heap).2.freshNode = world.freshNode := represents.freshNode
  have sameList : (LinkLists.listNew heap).2.freshList = world.freshList + 1 :=
    congrArg (· + 1) represents.freshList
  have sameDeleted : (LinkLists.listNew heap).2.deleted = world.deleted := represents.deleted
  rw [sameNode, sameList, sameDeleted, represents.freshList] at represented
  exact represented

/-- The assignments to `cmp` and `del`. -/
theorem Represents.setFunctions
    (represents : Represents heap world)
    (isList : world.lists list = some old)
    (cmp : Option (Option Value → Option Value → Int32))
    (del : Bool) :
    ∃ after,
      heap.modifyList list (fun old => { old with cmp := cmp, del := del }) = .ok after ∧
        Represents after
          (world.modify list fun sequence => { sequence with cmp := cmp, del := del }) := by
  obtain ⟨header, found, isHeader⟩ := Option.map_eq_some_iff.mp (represents.isHeader isList)
  have count : header.count = old.header.count := congrArg Header.count isHeader
  let change (sequence : Sequence Value) : Sequence Value :=
    { sequence with cmp := cmp, del := del }
  have rewritten :
      Rewritten list old (change old) heap
        { heap with
          lists := Function.update heap.lists list
            (some { header with cmp := cmp, del := del }) } := by
    have chained := represents.chained isList
    refine
      { header := ?_
        ends := ?_
        holds := ?_
        data := fun item member => represents.data isList item member
        outside := fun _ _ _ => ⟨rfl, rfl, rfl⟩
        gone := ?_
        fresh := fun _ member => .inl member
        room := le_rfl
        listBelow := represents.list_lt isList
        listRoom := le_rfl }
    · rw [header_list, count]
      rfl
    · intro other different
      simp [Heap.ends, different]
    · apply chained.holds.congr
      · simp [Heap.ends, found]
      · intro node _
        exact ⟨rfl, rfl⟩
    · intro node member notNew
      exact absurd member notNew
  refine ⟨_, modifyList_eq found _, ?_⟩
  exact represents.modified isList change rewritten represents.freshNode rfl represents.deleted

/-- `list_free`. -/
theorem Represents.listFree
    (represents : Represents heap world)
    (isList : world.lists list = some old)
    (empty : old.items = []) :
    ∃ after,
      listFree heap list = .ok after ∧
        Represents after { world with lists := Function.update world.lists list none } := by
  have noNodes : old.nodes = [] := by
    rw [Sequence.nodes, empty]
    rfl
  have swept : Swept false old.nodes heap heap := by
    rw [noNodes]
    refine ⟨?_, fun _ _ => rfl, rfl, rfl, rfl, ?_⟩
    · intro node member
      cases member
    · simp
  obtain ⟨header, found, _⟩ := Option.map_eq_some_iff.mp (represents.isHeader isList)
  refine ⟨_, ?_, represents.dropped isList swept represents.deleted⟩
  unfold LinkLists.listFree Heap.list
  rw [found]
  rfl

/-- A node on a list has been inserted. -/
theorem Represents.insert
    {place : Option NodePtr}
    {val : Option Value}
    (represents : Represents heap world)
    (isList : world.lists list = some old)
    (inside : ∀ node ∈ place, node ∈ old.nodes)
    (inserted : Inserted list place val 1 heap after) :
    Represents after (world.insert list place val) := by
  have rewritten : Rewritten list old (old.insert place (world.freshNode, val)) heap after := by
    rw [← represents.freshNode]
    exact inserted.rewritten represents isList inside rfl (header_insert ..)
  have isFreshNode : after.freshNode = world.freshNode + 1 := by
    rw [inserted.freshNode, represents.freshNode]
  exact represents.modified isList (fun sequence => sequence.insert place (world.freshNode, val))
    rewritten isFreshNode inserted.freshList (inserted.deleted.trans represents.deleted)

/-- `listnode_add`. -/
theorem Represents.add
    (represents : Represents heap world)
    (isList : world.lists list = some old)
    (val : Option Value) :
    ∃ after,
      listnodeAdd heap list val = .ok after ∧ Represents after (world.add list val) := by
  obtain ⟨after, returned, inserted⟩ := listnodeAdd_eq (represents.chained isList) val
  have inside : ∀ node ∈ (none : Option NodePtr), node ∈ old.nodes := by
    intro node isNone
    cases isNone
  exact ⟨after, returned, represents.insert isList inside inserted⟩

/-- The first node with a property is that of the first item with it. -/
theorem Represents.find_nodes
    (represents : Represents heap world)
    (isList : world.lists list = some old)
    (property : Option Value → Bool) :
    (old.nodes.find? fun node => property ((heap.data node).getD none)) =
      (old.items.find? fun item => property item.2).map Prod.fst := by
  rw [Sequence.nodes, List.find?_map]
  congr 1
  apply List.find?_congr
  intro item member
  simp [represents.data isList item member]

/-- `listnode_add_sort`. -/
theorem Represents.addSort
    (represents : Represents heap world)
    (isList : world.lists list = some old)
    (val : Option Value) :
    ∃ after,
      listnodeAddSort heap list val = .ok after ∧
        Represents after (world.insert list ((world.lists list).bind (·.larger val)) val) := by
  have chained := represents.chained isList
  obtain ⟨after, returned, inserted⟩ :=
    listnodeAddSort_eq chained (represents.isHeader isList) val
  have place : largerNode heap old.nodes old.header.cmp val = old.larger val := by
    have sameCmp : old.header.cmp = old.cmp := rfl
    unfold largerNode Sequence.larger
    rw [sameCmp]
    cases old.cmp with
    | none => rfl
    | some cmp => exact represents.find_nodes isList fun data => decide (cmp val data < 0)
  refine ⟨after, returned, ?_⟩
  rw [isList, Option.bind_some, ← place]
  exact represents.insert isList (fun node found => largerNode_mem found) inserted

/-- What is behind a node in the ring is behind it in the sequence. -/
theorem Represents.behind
    {pointer : Option NodePtr}
    (represents : Represents heap world)
    (isList : world.lists list = some old)
    (inside : ∀ node ∈ pointer, node ∈ old.nodes) :
    (heap.ring list).next pointer = old.behind pointer := by
  have chained := represents.chained isList
  cases pointer with
  | none =>
      exact chained.holds.head_eq
  | some node =>
      obtain ⟨first, second, shape⟩ := List.append_of_mem (inside node rfl)
      have distinct := chained.holds.nodup
      rw [shape] at chained distinct
      have before : ∀ other ∈ first, (decide (other ≠ node)) = true := by
        intro other member
        apply decide_eq_true
        rintro rfl
        exact (List.nodup_append.mp distinct).2.2 other member other List.mem_cons_self rfl
      rw [chained.neighbours.1, Sequence.behind, shape, List.dropWhile_append_of_pos before,
        List.dropWhile_cons_of_neg (by simp)]
      rfl

/-- `listnode_add_after`. -/
theorem Represents.addAfter
    {pp : Option NodePtr}
    (represents : Represents heap world)
    (isList : world.lists list = some old)
    (inside : ∀ node ∈ pp, node ∈ old.nodes)
    (val : Option Value) :
    ∃ after,
      listnodeAddAfter heap list pp val = .ok after ∧
        Represents after
          { world.modify list fun sequence =>
              sequence.insertUncounted ((world.lists list).bind (·.behind pp))
                (world.freshNode, val)
            with freshNode := world.freshNode + 1 } := by
  have chained := represents.chained isList
  obtain ⟨after, returned, inserted⟩ := listnodeAddAfter_eq chained inside val
  have place : (heap.ring list).next pp = (world.lists list).bind (·.behind pp) := by
    rw [isList, Option.bind_some, represents.behind isList inside]
  have isNode := chained.next_mem inside
  rw [place] at inserted isNode
  have rewritten :
      Rewritten list old
        (old.insertUncounted ((world.lists list).bind (·.behind pp)) (world.freshNode, val))
        heap after := by
    rw [← represents.freshNode]
    exact inserted.rewritten represents isList isNode rfl (header_insertUncounted ..)
  have isFreshNode : after.freshNode = world.freshNode + 1 := by
    rw [inserted.freshNode, represents.freshNode]
  refine ⟨after, returned, ?_⟩
  exact represents.modified isList
    (fun sequence =>
      sequence.insertUncounted ((world.lists list).bind (·.behind pp)) (world.freshNode, val))
    rewritten isFreshNode inserted.freshList (inserted.deleted.trans represents.deleted)

/-- `list_add_node_prev`. -/
theorem Represents.addNodePrev
    {current : NodePtr}
    (represents : Represents heap world)
    (on : world.On current list)
    (val : Option Value) :
    ∃ after,
      listAddNodePrev heap list current val = .ok after ∧
        Represents after (world.insert list (some current) val) := by
  obtain ⟨old, isList, member⟩ := on
  have chained := represents.chained isList
  obtain ⟨first, second, shape⟩ := List.append_of_mem member
  rw [shape] at chained
  obtain ⟨after, returned, inserted⟩ := listAddNodePrev_eq chained val
  refine ⟨after, returned, represents.insert isList ?_ inserted⟩
  intro node isNode
  exact Option.mem_some_iff.mp isNode ▸ member

/-- `list_add_node_next`. -/
theorem Represents.addNodeNext
    {current : NodePtr}
    (represents : Represents heap world)
    (on : world.On current list)
    (val : Option Value) :
    ∃ after,
      listAddNodeNext heap list current val = .ok after ∧
        Represents after
          (world.insert list ((world.lists list).bind (·.behind (some current))) val) := by
  obtain ⟨old, isList, member⟩ := on
  have inside : ∀ node ∈ some current, node ∈ old.nodes := by
    intro node isNode
    exact Option.mem_some_iff.mp isNode ▸ member
  have chained := represents.chained isList
  have isNode := chained.next_mem inside
  have place := represents.behind isList inside
  obtain ⟨first, second, shape⟩ := List.append_of_mem member
  rw [shape] at chained
  obtain ⟨after, returned, inserted⟩ := listAddNodeNext_eq chained val
  rw [← chained.neighbours.1] at inserted
  refine ⟨after, returned, ?_⟩
  rw [isList, Option.bind_some, ← place]
  exact represents.insert isList isNode inserted

/--
The rule of loops along a list: the body may do anything that leaves this list
alone, and the invariant speaks of the items passed.
-/
theorem walk_rule
    {State : Type}
    {memory : State → Heap Value}
    {body : State → Option Value → Except Fault State}
    {state : State}
    {passed coming : List (Item Value)}
    {fuel : Nat}
    (invariant : State → World Value → List (Item Value) → Prop)
    (preserved :
      ∀ {state world passed item},
        item ∈ old.items →
        Represents (memory state) world →
        world.lists list = some old →
        invariant state world passed →
        ∃ after later,
          body state item.2 = .ok after ∧ Represents (memory after) later ∧
            later.lists list = some old ∧ invariant after later (passed ++ [item]))
    (represents : Represents (memory state) world)
    (isList : world.lists list = some old)
    (holds : invariant state world passed)
    (shape : old.items = passed ++ coming)
    (enough : coming.length < fuel) :
    ∃ after later,
      walk memory body fuel (coming.map Prod.fst).head? state = .ok after ∧
        Represents (memory after) later ∧ later.lists list = some old ∧
          invariant after later old.items := by
  induction coming generalizing state world passed fuel with
  | nil =>
      obtain ⟨fuel, rfl⟩ := Nat.exists_eq_add_one_of_ne_zero (Nat.ne_zero_of_lt enough)
      rw [List.append_nil] at shape
      exact ⟨state, world, rfl, represents, isList, shape ▸ holds⟩
  | cons item coming inductionHypothesis =>
      obtain ⟨fuel, rfl⟩ := Nat.exists_eq_add_one_of_ne_zero (Nat.ne_zero_of_lt enough)
      have member : item ∈ old.items := by
        rw [shape]
        exact List.mem_append_right _ List.mem_cons_self
      obtain ⟨middle, between, done, representsBetween, stillList, holdsBetween⟩ :=
        preserved member represents isList holds
      have onward : old.items = (passed ++ [item]) ++ coming := by
        rw [shape, List.append_assoc, List.singleton_append]
      obtain ⟨after, later, returned, represented⟩ :=
        inductionHypothesis representsBetween stillList holdsBetween onward
          (Nat.lt_of_succ_lt_succ enough)
      refine ⟨after, later, ?_, represented⟩
      have chained := representsBetween.chained stillList
      rw [Sequence.nodes, shape, List.map_append, List.map_cons] at chained
      have firstRead := node_eq (represents.data isList item member) list
      have secondRead := node_eq (representsBetween.data stillList item member) list
      rw [chained.neighbours.1] at secondRead
      rw [List.map_cons, List.head?_cons, walk]
      simp only [firstRead, ok_bind, done, secondRead]
      exact returned

/-- `list_add_list`. -/
theorem Represents.addList
    {l m : ListPtr}
    (represents : Represents heap world)
    (alive : world.Alive l)
    (isList : world.lists m = some old)
    (different : l = m → world.items m = []) :
    ∃ after,
      listAddList heap l m = .ok after ∧
        Represents after ((world.items m).foldl (fun world item => world.add l item.2) world) := by
  have chained := represents.chained isList
  have items : world.items m = old.items := by
    rw [World.items, isList]
    rfl
  have head : (heap.ring m).next none = old.nodes.head? := chained.holds.head_eq
  have start := list_eq (represents.isHeader isList)
  unfold listAddList
  rw [start, ok_bind, items]
  dsimp only
  rw [head]
  by_cases same : l = m
  · have empty : old.items = [] := items.symm.trans (different same)
    refine ⟨heap, ?_, ?_⟩
    · rw [Sequence.nodes, empty]
      rfl
    · rw [empty]
      exact represents
  · have enough : old.items.length < heap.freshNode + 1 := by
      have atMost := chained.enough
      rwa [Sequence.nodes, List.length_map] at atMost
    let invariant (_ : Heap Value) (later : World Value) (passed : List (Item Value)) : Prop :=
      later.Alive l ∧ later = passed.foldl (fun world item => world.add l item.2) world
    have preserved
        {state : Heap Value}
        {between : World Value}
        {passed : List (Item Value)}
        {item : Item Value}
        (_ : item ∈ old.items)
        (representsBetween : Represents state between)
        (stillList : between.lists m = some old)
        (holds : invariant state between passed) :
        ∃ after later,
          listnodeAdd state l item.2 = .ok after ∧ Represents after later ∧
            later.lists m = some old ∧ invariant after later (passed ++ [item]) := by
      obtain ⟨stillAlive, isBetween⟩ := holds
      obtain ⟨target, isTarget⟩ := Option.isSome_iff_exists.mp stillAlive
      obtain ⟨after, added, represented⟩ := representsBetween.add isTarget item.2
      refine ⟨after, _, added, represented, ?_, ?_, ?_⟩
      · simp [World.add, World.insert, World.modify, Ne.symm same, stillList]
      · simp [World.Alive, World.add, World.insert, World.modify, isTarget]
      · rw [List.foldl_concat, isBetween]
    obtain ⟨after, later, returned, represented, _, _, rfl⟩ :=
      walk_rule invariant preserved represents isList ⟨alive, rfl⟩
        (List.nil_append old.items).symm enough
    exact ⟨after, returned, represented⟩

/-! ## Lookups and deletions -/

/-- `nodeWith` finds the node of the first item with the data. -/
theorem Represents.nodeWith
    [DecidableEq Value]
    (represents : Represents heap world)
    (isList : world.lists list = some old)
    (data : Option Value) :
    nodeWith heap data ((heap.ring list).next none) =
      .ok ((old.items.find? fun item => item.2 = data).map Prod.fst) := by
  have chained := represents.chained isList
  rw [← represents.find_nodes isList fun other => decide (other = data)]
  exact search_chained chained rfl (fun _ _ => rfl) le_rfl fun other => decide (other = data)

/-- `list_delete_node` on the first item with a property. -/
theorem Represents.deleteFirst
    {property : Item Value → Bool}
    {item : Item Value}
    (represents : Represents heap world)
    (isList : world.lists list = some old)
    (found : old.items.find? property = some item) :
    ∃ after,
      listDeleteNode heap list item.1 = .ok after ∧
        Represents after (world.modify list (·.erase property)) := by
  obtain ⟨holds, first, second, shape, before⟩ := List.find?_eq_some_iff_append.mp found
  have erased : old.items.eraseP property = first ++ second := by
    rw [shape, List.eraseP_append_right, List.eraseP_cons_of_pos holds]
    intro other member
    simpa using before other member
  have chained := represents.chained isList
  rw [Sequence.nodes, shape, List.map_append, List.map_cons] at chained
  obtain ⟨after, returned, removed⟩ := listDeleteNode_eq chained
  have rewritten := removed.rewritten represents isList shape
  rw [← erased] at rewritten
  have isFreshNode : after.freshNode = world.freshNode :=
    removed.freshNode.trans represents.freshNode
  have isDeleted : after.deleted = world.deleted :=
    removed.deleted.trans represents.deleted
  exact ⟨after, returned, represents.modified isList (·.erase property) rewritten isFreshNode
    removed.freshList isDeleted⟩

/-- A deletion that finds nothing. -/
theorem World.modify_erase_of_none
    {property : Item Value → Bool}
    (isList : world.lists list = some old)
    (found : old.items.find? property = none) :
    world.modify list (·.erase property) = world := by
  have same : old.erase property = old := by
    have unchanged : old.items.eraseP property = old.items :=
      List.eraseP_of_forall_not (List.find?_eq_none.mp found)
    unfold Sequence.erase
    rw [unchanged]
  unfold World.modify
  rw [isList, Option.map_some, same, ← isList, Function.update_eq_self]

/-- `listnode_delete`. -/
theorem Represents.delete
    [DecidableEq Value]
    (represents : Represents heap world)
    (isList : world.lists list = some old)
    (val : Option Value) :
    ∃ after,
      listnodeDelete heap list val = .ok after ∧
        Represents after (world.modify list (·.erase fun item => item.2 = val)) := by
  have searched := represents.nodeWith isList val
  unfold listnodeDelete
  rw [list_eq (represents.isHeader isList), ok_bind]
  dsimp only
  rw [searched, ok_bind]
  cases found : old.items.find? fun item => item.2 = val with
  | none =>
      refine ⟨heap, rfl, ?_⟩
      rw [World.modify_erase_of_none isList found]
      exact represents
  | some item =>
      exact represents.deleteFirst isList found

/-- `list_delete_node`. -/
theorem Represents.deleteNode
    {node : NodePtr}
    (represents : Represents heap world)
    (on : world.On node list) :
    ∃ after,
      listDeleteNode heap list node = .ok after ∧
        Represents after (world.modify list (·.erase fun item => item.1 = node)) := by
  obtain ⟨old, isList, member⟩ := on
  obtain ⟨item, inItems, isNode⟩ := List.mem_map.mp member
  obtain ⟨found, isFound⟩ : ∃ found, (old.items.find? fun item => item.1 = node) = some found := by
    rw [← Option.isSome_iff_exists, List.find?_isSome]
    exact ⟨item, inItems, decide_eq_true isNode⟩
  have same : found.1 = node := by
    simpa using List.find?_some isFound
  have deleted := represents.deleteFirst isList isFound
  rw [same] at deleted
  exact deleted

/-- What `del` is called with. -/
theorem Represents.deletes
    {middle : Heap Value}
    (represents : Represents heap world)
    (isList : world.lists list = some old)
    (swept : Swept old.del old.nodes heap middle) :
    middle.deleted = world.deleted ++ world.deletes list := by
  have data :
      (old.nodes.map fun node => (heap.data node).getD none) = old.items.map Prod.snd := by
    rw [Sequence.nodes, List.map_map]
    apply List.map_congr_left
    intro item member
    simp [represents.data isList item member]
  rw [swept.deleted, represents.deleted, data, World.deletes, isList]
  rfl

/-- `list_delete_all_node`. -/
theorem Represents.deleteAllNode
    (represents : Represents heap world)
    (isList : world.lists list = some old) :
    ∃ after,
      listDeleteAllNode heap list = .ok after ∧
        Represents after
          { world.modify list Sequence.clear with
            deleted := world.deleted ++ world.deletes list } := by
  obtain ⟨middle, swept, isSwept⟩ :=
    deleteNodes_eq (represents.chained isList) (represents.isHeader isList)
  obtain ⟨header, found, isHeader⟩ := Option.map_eq_some_iff.mp (represents.isHeader isList)
  rw [← isSwept.lists] at found
  have cmp : header.cmp = old.cmp := congrArg Header.cmp isHeader
  have del : header.del = old.del := congrArg Header.del isHeader
  have emptied :
      listDeleteAllNode heap list =
        .ok { middle with
          lists := Function.update middle.lists list
            (some { header with head := none, tail := none, count := 0 }) } := by
    unfold listDeleteAllNode
    rw [swept, ok_bind, Heap.setTail, modifyList_eq found, ok_bind, Heap.setHead,
      modifyList_eq (Function.update_self ..), ok_bind, modifyList_eq (Function.update_self ..),
      Function.update_idem, Function.update_idem]
  have sameHeader : middle.header = heap.header := by
    unfold Heap.header
    rw [isSwept.lists]
  have clearHeader : old.clear.header = ⟨0, header.cmp, header.del⟩ := by
    rw [cmp, del]
    simp [Sequence.header, Sequence.clear]
  have rewritten :
      Rewritten list old old.clear heap
        { middle with
          lists := Function.update middle.lists list
            (some { header with head := none, tail := none, count := 0 }) } := by
    refine Swept.rewritten isSwept represents isList ?_ ?_ ?_ ?_ ?_ ?_
    · rfl
    · rw [header_list, sameHeader, clearHeader]
    · intro other different
      simp [Heap.ends, different, isSwept.lists]
    · simp [Heap.ends]
    · rfl
    · rfl
  have isDeleted : middle.deleted = world.deleted ++ world.deletes list :=
    represents.deletes isList isSwept
  exact ⟨_, emptied, represents.modified isList Sequence.clear rewritten
    (isSwept.freshNode.trans represents.freshNode) isSwept.freshList isDeleted⟩

/-- `list_delete`. -/
theorem Represents.deleteList
    (represents : Represents heap world)
    (isList : world.lists list = some old) :
    ∃ after,
      listDelete heap list = .ok after ∧
        Represents after
          { world with
            lists := Function.update world.lists list none
            deleted := world.deleted ++ world.deletes list } := by
  obtain ⟨middle, swept, isSwept⟩ :=
    deleteNodes_eq (represents.chained isList) (represents.isHeader isList)
  obtain ⟨header, found, _⟩ := Option.map_eq_some_iff.mp (represents.isHeader isList)
  refine ⟨_, ?_, represents.dropped isList isSwept (represents.deletes isList isSwept)⟩
  unfold listDelete LinkLists.listFree Heap.list
  rw [swept, ok_bind, isSwept.lists, found]
  rfl

/-- `listnode_head`. -/
theorem Represents.head
    (represents : Represents heap world)
    (isList : world.lists list = some old) :
    listnodeHead heap list = .ok ((world.items list).head?.bind Prod.snd) := by
  have items : world.items list = old.items := by
    rw [World.items, isList]
    rfl
  have chained := represents.chained isList
  have head : (heap.ring list).next none = old.nodes.head? := chained.holds.head_eq
  unfold listnodeHead
  rw [list_eq (represents.isHeader isList), ok_bind, items]
  dsimp only
  rw [head, Sequence.nodes]
  cases shape : old.items with
  | nil =>
      rfl
  | cons item rest =>
      have member : item ∈ old.items := by
        rw [shape]
        exact List.mem_cons_self
      simp only [List.map_cons, List.head?_cons, node_eq (represents.data isList item member) list,
        ok_bind]
      rfl

/-- `listnode_lookup`. -/
theorem Represents.lookup
    [DecidableEq Value]
    (represents : Represents heap world)
    (isList : world.lists list = some old)
    (data : Option Value) :
    listnodeLookup heap list data =
      .ok (((world.items list).find? fun item => item.2 = data).map Prod.fst) := by
  have items : world.items list = old.items := by
    rw [World.items, isList]
    rfl
  unfold listnodeLookup
  rw [list_eq (represents.isHeader isList), ok_bind, items]
  exact represents.nodeWith isList data

end

end

end Pma.LinkLists
