import Pma.LinkListLinks
import Pma.Transition

namespace Pma.LinkLists

open NullTerminated Transition

/-!
# Lists as sequences

What the lists of `lib/linklist.c` are for: each is a sequence of values, whose
places have names that the program keeps.  Whatever the program does with any
number of lists, the nodes and links in memory are those of the sequences.
-/

section

variable {Value : Type}

/-! ## Sequences -/

/-- A node and what it holds. -/
abbrev Item (Value : Type) := NodePtr × Option Value

/-- What is on a list; `listnode_add_after` does not count what it adds. -/
structure Sequence (Value : Type) where
  items : List (Item Value)
  cmp : Option (Option Value → Option Value → Int32)
  del : Bool
  uncounted : Nat

/-- A new node before a place, or at the end when there is no such place. -/
def insertAt (place : Option NodePtr) (item : Item Value) (items : List (Item Value)) :
    List (Item Value) :=
  items.takeWhile (fun other => some other.1 ≠ place) ++
    item :: items.dropWhile (fun other => some other.1 ≠ place)

namespace Sequence

variable (sequence : Sequence Value)

/-- A new list. -/
def new : Sequence Value where
  items := []
  cmp := none
  del := false
  uncounted := 0

def nodes : List NodePtr :=
  sequence.items.map Prod.fst

def header : Header Value where
  count := UInt32.ofNat sequence.items.length - UInt32.ofNat sequence.uncounted
  cmp := sequence.cmp
  del := sequence.del

/-- The place of the first value that is larger. -/
def larger (val : Option Value) : Option NodePtr :=
  sequence.cmp.elim none fun cmp =>
    (sequence.items.find? fun item => decide (cmp val item.2 < 0)).map Prod.fst

/-- The place behind a node, or the first place. -/
def behind : Option NodePtr → Option NodePtr
  | none => sequence.nodes.head?
  | some node => (sequence.nodes.dropWhile fun other => other ≠ node).tail.head?

def insert (place : Option NodePtr) (item : Item Value) : Sequence Value :=
  { sequence with items := insertAt place item sequence.items }

def insertUncounted (place : Option NodePtr) (item : Item Value) : Sequence Value :=
  { sequence with
    items := insertAt place item sequence.items
    uncounted := sequence.uncounted + 1 }

/-- Without the first item that has a property. -/
def erase (property : Item Value → Bool) : Sequence Value :=
  { sequence with items := sequence.items.eraseP property }

def clear : Sequence Value :=
  { sequence with items := [], uncounted := 0 }

/-- What is deleted with all items. -/
def deletes : List (Option Value) :=
  if sequence.del then sequence.items.map Prod.snd else []

end Sequence

/-! ## All lists -/

/-- All lists of a program. -/
structure World (Value : Type) where
  lists : ListPtr → Option (Sequence Value)
  freshNode : NodePtr
  freshList : ListPtr
  deleted : List (Option Value)

namespace World

variable (world : World Value)

def empty : World Value where
  lists _ := none
  freshNode := 0
  freshList := 0
  deleted := []

def modify (list : ListPtr) (change : Sequence Value → Sequence Value) : World Value :=
  { world with
    lists := Function.update world.lists list ((world.lists list).map change) }

/-- A new item in a list. -/
def insert (list : ListPtr) (place : Option NodePtr) (val : Option Value) : World Value :=
  { world.modify list fun sequence => sequence.insert place (world.freshNode, val) with
    freshNode := world.freshNode + 1 }

def add (list : ListPtr) (val : Option Value) : World Value :=
  world.insert list none val

/-- What is on a list. -/
def items (list : ListPtr) : List (Item Value) :=
  ((world.lists list).map Sequence.items).getD []

/-- All items of a list are deleted. -/
def deletes (list : ListPtr) : List (Option Value) :=
  ((world.lists list).map Sequence.deletes).getD []

/-- A call. -/
def step [DecidableEq Value] : Call Value → Answer Value × World Value
  | .new =>
      (.list world.freshList,
        { world with
          lists := Function.update world.lists world.freshList (some Sequence.new)
          freshList := world.freshList + 1 })
  | .setFunctions list cmp del =>
      (.nothing, world.modify list fun sequence => { sequence with cmp := cmp, del := del })
  | .free list => (.nothing, { world with lists := Function.update world.lists list none })
  | .add list val => (.nothing, world.add list val)
  | .addSort list val =>
      (.nothing, world.insert list ((world.lists list).bind (·.larger val)) val)
  | .addAfter list pp val =>
      let place := (world.lists list).bind (·.behind pp)
      (.nothing,
        { world.modify list fun sequence => sequence.insertUncounted place (world.freshNode, val)
          with freshNode := world.freshNode + 1 })
  | .addNodePrev list current val => (.nothing, world.insert list (some current) val)
  | .addNodeNext list current val =>
      (.nothing, world.insert list ((world.lists list).bind (·.behind (some current))) val)
  | .addList l m => (.nothing, (world.items m).foldl (fun world item => world.add l item.2) world)
  | .delete list val => (.nothing, world.modify list (·.erase fun item => item.2 = val))
  | .deleteNode list node => (.nothing, world.modify list (·.erase fun item => item.1 = node))
  | .deleteAllNode list =>
      (.nothing,
        { world.modify list Sequence.clear with
          deleted := world.deleted ++ world.deletes list })
  | .deleteList list =>
      (.nothing,
        { world with
          lists := Function.update world.lists list none
          deleted := world.deleted ++ world.deletes list })
  | .head list => (.data ((world.items list).head?.bind Prod.snd), world)
  | .lookup list data =>
      (.node (((world.items list).find? fun item => item.2 = data).map Prod.fst), world)

/-- The list is there. -/
def Alive (list : ListPtr) : Prop :=
  (world.lists list).isSome

/-- The node is on the list. -/
def On (node : NodePtr) (list : ListPtr) : Prop :=
  ∃ sequence, world.lists list = some sequence ∧ node ∈ sequence.nodes

/--
What a program may do: it uses lists that are there and nodes that are on them,
frees no list with nodes on it, and adds no list with nodes to itself.
-/
def Allowed : Call Value → Prop
  | .new => True
  | .setFunctions list _ _ => world.Alive list
  | .free list => world.Alive list ∧ world.items list = []
  | .add list _ => world.Alive list
  | .addSort list _ => world.Alive list
  | .addAfter list pp _ => world.Alive list ∧ ∀ node ∈ pp, world.On node list
  | .addNodePrev list current _ => world.On current list
  | .addNodeNext list current _ => world.On current list
  | .addList l m => world.Alive l ∧ world.Alive m ∧ (l = m → world.items m = [])
  | .delete list _ => world.Alive list
  | .deleteNode list node => world.On node list
  | .deleteAllNode list => world.Alive list
  | .deleteList list => world.Alive list
  | .head list => world.Alive list
  | .lookup list _ => world.Alive list

end World

end

end Pma.LinkLists
