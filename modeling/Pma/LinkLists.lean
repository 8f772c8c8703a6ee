import Mathlib.Data.Nat.Basic
import Mathlib.Logic.Function.Basic
import Pma.NullTerminated

namespace Pma.LinkLists

open NullTerminated

/-!
# Linked lists

`lib/linklist.c`: doubly linked lists of pointers, whose nodes are allocated
one by one.  A pointer that is null or to freed memory is a fault.
-/

/-- A null pointer or freed memory; a loop that was not given enough is `unfinished`. -/
inductive Fault where
  | null
  | freed
  | unfinished
  deriving Repr, DecidableEq

/-- A `struct listnode *` that is not null. -/
abbrev NodePtr := Nat

/-- A `struct list *` that is not null. -/
abbrev ListPtr := Nat

section

variable (Value : Type)

/-- `struct listnode`; `data` is a `void *`. -/
structure Listnode where
  next : Option NodePtr
  prev : Option NodePtr
  data : Option Value

/-- `struct list`. -/
structure LinkList where
  head : Option NodePtr
  tail : Option NodePtr
  count : UInt32
  cmp : Option (Option Value → Option Value → Int32)
  del : Bool

/-- The memory: what is allocated, and what the functions `del` were called with. -/
structure Heap where
  nodes : NodePtr → Option (Listnode Value)
  lists : ListPtr → Option (LinkList Value)
  freshNode : NodePtr
  freshList : ListPtr
  deleted : List (Option Value)

end

section

variable {Value : Type}

/-- Nothing is allocated. -/
def Heap.empty : Heap Value where
  nodes _ := none
  lists _ := none
  freshNode := 0
  freshList := 0
  deleted := []

/-- A pointer that is used. -/
def deref {Ptr : Type} (pointer : Option Ptr) : Except Fault Ptr :=
  pointer.elim (.error .null) .ok

namespace Heap

variable (heap : Heap Value)

/-- `*node`. -/
def node (node : NodePtr) : Except Fault (Listnode Value) :=
  (heap.nodes node).elim (.error .freed) .ok

/-- `*list`. -/
def list (list : ListPtr) : Except Fault (LinkList Value) :=
  (heap.lists list).elim (.error .freed) .ok

/-- An assignment to a field of a node. -/
def modifyNode (node : NodePtr) (change : Listnode Value → Listnode Value) :
    Except Fault (Heap Value) := do
  let old ← heap.node node
  return { heap with nodes := Function.update heap.nodes node (some (change old)) }

/-- An assignment to a field of a list. -/
def modifyList (list : ListPtr) (change : LinkList Value → LinkList Value) :
    Except Fault (Heap Value) := do
  let old ← heap.list list
  return { heap with lists := Function.update heap.lists list (some (change old)) }

def setNext (node : NodePtr) (value : Option NodePtr) : Except Fault (Heap Value) :=
  heap.modifyNode node fun old => { old with next := value }

def setPrev (node : NodePtr) (value : Option NodePtr) : Except Fault (Heap Value) :=
  heap.modifyNode node fun old => { old with prev := value }

def setData (node : NodePtr) (value : Option Value) : Except Fault (Heap Value) :=
  heap.modifyNode node fun old => { old with data := value }

def setHead (list : ListPtr) (value : Option NodePtr) : Except Fault (Heap Value) :=
  heap.modifyList list fun old => { old with head := value }

def setTail (list : ListPtr) (value : Option NodePtr) : Except Fault (Heap Value) :=
  heap.modifyList list fun old => { old with tail := value }

/-- `list->count` plus or minus one. -/
def addCount (list : ListPtr) (change : UInt32) : Except Fault (Heap Value) :=
  heap.modifyList list fun old => { old with count := old.count + change }

/-- `if (pointer) pointer->next = value; else list->head = value;` -/
def setNextOf (list : ListPtr) (pointer value : Option NodePtr) : Except Fault (Heap Value) :=
  pointer.elim (heap.setHead list value) fun node => heap.setNext node value

/-- `if (pointer) pointer->prev = value; else list->tail = value;` -/
def setPrevOf (list : ListPtr) (pointer value : Option NodePtr) : Except Fault (Heap Value) :=
  pointer.elim (heap.setTail list value) fun node => heap.setPrev node value

end Heap

/-! ## Allocation -/

/-- `list_new`. -/
def listNew (heap : Heap Value) : ListPtr × Heap Value :=
  (heap.freshList,
    { heap with
      lists := Function.update heap.lists heap.freshList (some ⟨none, none, 0, none, false⟩)
      freshList := heap.freshList + 1 })

/-- `list_free`. -/
def listFree (heap : Heap Value) (list : ListPtr) : Except Fault (Heap Value) := do
  let _ ← heap.list list
  return { heap with lists := Function.update heap.lists list none }

/-- `listnode_new`. -/
def listnodeNew (heap : Heap Value) : NodePtr × Heap Value :=
  (heap.freshNode,
    { heap with
      nodes := Function.update heap.nodes heap.freshNode (some ⟨none, none, none⟩)
      freshNode := heap.freshNode + 1 })

/-- `listnode_free`. -/
def listnodeFree (heap : Heap Value) (node : NodePtr) : Except Fault (Heap Value) := do
  let _ ← heap.node node
  return { heap with nodes := Function.update heap.nodes node none }

/-! ## Insertion -/

/-- `listnode_add`. -/
def listnodeAdd (heap : Heap Value) (list : ListPtr) (val : Option Value) :
    Except Fault (Heap Value) := do
  let (node, heap) := listnodeNew heap
  let heap ← heap.setPrev node (← heap.list list).tail
  let heap ← heap.setData node val
  let heap ←
    if (← heap.list list).head.isNone then
      heap.setHead list (some node)
    else
      heap.setNext (← deref (← heap.list list).tail) (some node)
  let heap ← heap.setTail list (some node)
  heap.addCount list 1

/-- The loop of `listnode_add_sort`. -/
def sortPlace (heap : Heap Value) (cmp : Option Value → Option Value → Int32)
    (val : Option Value) (start : Option NodePtr) : Except Fault (Option NodePtr) :=
  search (fun n => (heap.nodes n).bind (·.next))
    (fun n => do return decide (cmp val (← heap.node n).data < 0))
    .unfinished (heap.freshNode + 1) start

/-- `listnode_add_sort`. -/
def listnodeAddSort (heap : Heap Value) (list : ListPtr) (val : Option Value) :
    Except Fault (Heap Value) := do
  let (new, heap) := listnodeNew heap
  let heap ← heap.setData new val
  let header ← heap.list list
  let place ← header.cmp.elim (.ok none) fun cmp => sortPlace heap cmp val header.head
  match place with
  | some n =>
      let heap ← heap.setNext new (some n)
      let heap ← heap.setPrev new (← heap.node n).prev
      let heap ← heap.setNextOf list (← heap.node n).prev (some new)
      let heap ← heap.setPrev n (some new)
      heap.addCount list 1
  | none =>
      let heap ← heap.setPrev new (← heap.list list).tail
      let heap ← heap.setNextOf list (← heap.list list).tail (some new)
      let heap ← heap.setTail list (some new)
      heap.addCount list 1

/-- `listnode_add_after`; it leaves `count` as it is. -/
def listnodeAddAfter (heap : Heap Value) (list : ListPtr) (pp : Option NodePtr)
    (val : Option Value) : Except Fault (Heap Value) := do
  let (nn, heap) := listnodeNew heap
  let heap ← heap.setData nn val
  match pp with
  | none =>
      let heap ← heap.setPrevOf list (← heap.list list).head (some nn)
      let heap ← heap.setNext nn (← heap.list list).head
      let heap ← heap.setPrev nn none
      heap.setHead list (some nn)
  | some pp =>
      let heap ← heap.setPrevOf list (← heap.node pp).next (some nn)
      let heap ← heap.setNext nn (← heap.node pp).next
      let heap ← heap.setPrev nn (some pp)
      heap.setNext pp (some nn)

/-- `list_add_node_prev`. -/
def listAddNodePrev (heap : Heap Value) (list : ListPtr) (current : NodePtr)
    (val : Option Value) : Except Fault (Heap Value) := do
  let (node, heap) := listnodeNew heap
  let heap ← heap.setNext node (some current)
  let heap ← heap.setData node val
  let heap ← heap.setNextOf list (← heap.node current).prev (some node)
  let heap ← heap.setPrev node (← heap.node current).prev
  let heap ← heap.setPrev current (some node)
  heap.addCount list 1

/-- `list_add_node_next`. -/
def listAddNodeNext (heap : Heap Value) (list : ListPtr) (current : NodePtr)
    (val : Option Value) : Except Fault (Heap Value) := do
  let (node, heap) := listnodeNew heap
  let heap ← heap.setPrev node (some current)
  let heap ← heap.setData node val
  let heap ← heap.setPrevOf list (← heap.node current).next (some node)
  let heap ← heap.setNext node (← heap.node current).next
  let heap ← heap.setNext current (some node)
  heap.addCount list 1

/-! ## Loops along a list -/

section

variable {State : Type}

/-- A loop along a list that moves on with the link that the body leaves. -/
def walk (memory : State → Heap Value) (body : State → Option Value → Except Fault State) :
    Nat → Option NodePtr → State → Except Fault State
  | 0, _, _ => .error .unfinished
  | _ + 1, none, state => .ok state
  | fuel + 1, some node, state => do
      let state ← body state (← (memory state).node node).data
      walk memory body fuel (← (memory state).node node).next state

/-- `LIST_LOOP`. -/
def listLoop (memory : State → Heap Value) (body : State → Value → Except Fault State)
    (list : ListPtr) (state : State) : Except Fault State := do
  let start := (← (memory state).list list).head
  walk memory (fun state data => data.elim (.ok state) (body state))
    ((memory state).freshNode + 1) start state

end

/-- `list_add_list`. -/
def listAddList (heap : Heap Value) (l m : ListPtr) : Except Fault (Heap Value) := do
  let start := (← heap.list m).head
  walk id (fun heap data => listnodeAdd heap l data) (heap.freshNode + 1) start heap

/-- `listnode_head`. -/
def listnodeHead (heap : Heap Value) (list : ListPtr) : Except Fault (Option Value) := do
  match (← heap.list list).head with
  | some node => return (← heap.node node).data
  | none => return none

/-- The first node that has this data. -/
def nodeWith [DecidableEq Value] (heap : Heap Value) (data : Option Value)
    (start : Option NodePtr) : Except Fault (Option NodePtr) :=
  search (fun node => (heap.nodes node).bind (·.next))
    (fun node => do return decide ((← heap.node node).data = data))
    .unfinished (heap.freshNode + 1) start

/-- `listnode_lookup`. -/
def listnodeLookup [DecidableEq Value] (heap : Heap Value) (list : ListPtr)
    (data : Option Value) : Except Fault (Option NodePtr) := do
  nodeWith heap data (← heap.list list).head

/-! ## Deletion -/

/-- `list_delete_node`. -/
def listDeleteNode (heap : Heap Value) (list : ListPtr) (node : NodePtr) :
    Except Fault (Heap Value) := do
  let heap ← heap.setNextOf list (← heap.node node).prev (← heap.node node).next
  let heap ← heap.setPrevOf list (← heap.node node).next (← heap.node node).prev
  let heap ← heap.addCount list (-1)
  listnodeFree heap node

/-- `listnode_delete`; it deletes the node found as `list_delete_node` does. -/
def listnodeDelete [DecidableEq Value] (heap : Heap Value) (list : ListPtr)
    (val : Option Value) : Except Fault (Heap Value) := do
  match ← nodeWith heap val (← heap.list list).head with
  | some node => listDeleteNode heap list node
  | none => return heap

/-- `if (list->del) (*list->del) (data);` -/
def callDel (heap : Heap Value) (del : Bool) (data : Option Value) : Heap Value :=
  if del then
    { heap with deleted := heap.deleted ++ [data] }
  else
    heap

/-- The loop of `list_delete_all_node` and of `list_delete`. -/
def deleteNodes (heap : Heap Value) (list : ListPtr) : Except Fault (Heap Value) := do
  let header ← heap.list list
  forEach (fun heap node => (heap.nodes node).bind (·.next))
    (fun heap node => do listnodeFree (callDel heap header.del (← heap.node node).data) node)
    .unfinished (heap.freshNode + 1) header.head heap

/-- `list_delete_all_node`. -/
def listDeleteAllNode (heap : Heap Value) (list : ListPtr) : Except Fault (Heap Value) := do
  let heap ← deleteNodes heap list
  let heap ← heap.setTail list none
  let heap ← heap.setHead list none
  heap.modifyList list fun old => { old with count := 0 }

/-- `list_delete`. -/
def listDelete (heap : Heap Value) (list : ListPtr) : Except Fault (Heap Value) := do
  let heap ← deleteNodes heap list
  listFree heap list

/-! ## Calls -/

/-- What a program does with lists; `setFunctions` assigns to `cmp` and `del`. -/
inductive Call (Value : Type) where
  | new
  | setFunctions (list : ListPtr) (cmp : Option (Option Value → Option Value → Int32))
      (del : Bool)
  | free (list : ListPtr)
  | add (list : ListPtr) (val : Option Value)
  | addSort (list : ListPtr) (val : Option Value)
  | addAfter (list : ListPtr) (pp : Option NodePtr) (val : Option Value)
  | addNodePrev (list : ListPtr) (current : NodePtr) (val : Option Value)
  | addNodeNext (list : ListPtr) (current : NodePtr) (val : Option Value)
  | addList (l m : ListPtr)
  | delete (list : ListPtr) (val : Option Value)
  | deleteNode (list : ListPtr) (node : NodePtr)
  | deleteAllNode (list : ListPtr)
  | deleteList (list : ListPtr)
  | head (list : ListPtr)
  | lookup (list : ListPtr) (data : Option Value)

/-- What a call returns. -/
inductive Answer (Value : Type) where
  | nothing
  | list (list : ListPtr)
  | data (data : Option Value)
  | node (node : Option NodePtr)
  deriving Repr, DecidableEq

/-- A call. -/
def step [DecidableEq Value] (heap : Heap Value) :
    Call Value → Except Fault (Answer Value × Heap Value)
  | .new =>
      let (list, heap) := listNew heap
      .ok (.list list, heap)
  | .setFunctions list cmp del => do
      return (.nothing, ← heap.modifyList list fun old => { old with cmp := cmp, del := del })
  | .free list => do return (.nothing, ← listFree heap list)
  | .add list val => do return (.nothing, ← listnodeAdd heap list val)
  | .addSort list val => do return (.nothing, ← listnodeAddSort heap list val)
  | .addAfter list pp val => do return (.nothing, ← listnodeAddAfter heap list pp val)
  | .addNodePrev list current val => do
      return (.nothing, ← listAddNodePrev heap list current val)
  | .addNodeNext list current val => do
      return (.nothing, ← listAddNodeNext heap list current val)
  | .addList l m => do return (.nothing, ← listAddList heap l m)
  | .delete list val => do return (.nothing, ← listnodeDelete heap list val)
  | .deleteNode list node => do return (.nothing, ← listDeleteNode heap list node)
  | .deleteAllNode list => do return (.nothing, ← listDeleteAllNode heap list)
  | .deleteList list => do return (.nothing, ← listDelete heap list)
  | .head list => do return (.data (← listnodeHead heap list), heap)
  | .lookup list data => do return (.node (← listnodeLookup heap list data), heap)

end

end Pma.LinkLists
