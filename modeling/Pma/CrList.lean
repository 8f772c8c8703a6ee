import Mathlib.Data.List.Sort
import Pma.IntrusiveRing

namespace Pma

open IntrusiveRing

/-!
# Lists through fields of their entries

`utils/list.c` keeps lists and stacks as rings of `struct cr_list_head`, with one
of them as the head.  The functions are shown to do to the rings what the
operations of lists of entries do, for any number of heads.
-/

namespace CrList

/-! ## Memory -/

/-- A pointer to a `struct cr_list_head`; zero is `NULL`. -/
abbrev Ptr := UInt64

/-- The links of all `struct cr_list_head`, and the `item` of the stack item around each. -/
structure Memory where
  links : Links Ptr
  item : Ptr → Ptr

/-- What ends the program, or the loop of `cr_list_add_in_order` when it was not given enough. -/
inductive Fault where
  | nullPointer
  | assertFailed
  | unfinished
  deriving Repr, DecidableEq

namespace Memory

variable (mem : Memory) (ptr value : Ptr)

/-- `ptr->next`. -/
def next : Except Fault Ptr :=
  if ptr = 0 then .error .nullPointer else .ok (mem.links.next ptr)

/-- `ptr->prev`. -/
def prev : Except Fault Ptr :=
  if ptr = 0 then .error .nullPointer else .ok (mem.links.prev ptr)

/-- `ptr->next = value`. -/
def setNext : Except Fault Memory :=
  if ptr = 0 then
    .error .nullPointer
  else
    .ok { mem with links.next := Function.update mem.links.next ptr value }

/-- `ptr->prev = value`. -/
def setPrev : Except Fault Memory :=
  if ptr = 0 then
    .error .nullPointer
  else
    .ok { mem with links.prev := Function.update mem.links.prev ptr value }

end Memory

/-! ## The functions -/

/-- `NO_ERR`. -/
def noErr : Int32 := 0

/-- `CONTAINER_EMPTY_ERR`. -/
def containerEmptyErr : Int32 := -6

/-- `cr_init_list_head`. -/
def crInitListHead (mem : Memory) (ptr : Ptr) : Except Fault Memory := do
  let mem ← mem.setNext ptr ptr
  mem.setPrev ptr ptr

/-- `cr_list_add`. -/
def crListAdd (mem : Memory) (new head : Ptr) : Except Fault Memory := do
  let next ← mem.next head
  let mem ← mem.setNext head new
  let mem ← mem.setNext new next
  let mem ← mem.setPrev new head
  mem.setPrev next new

/-- `cr_list_add_tail`. -/
def crListAddTail (mem : Memory) (new head : Ptr) : Except Fault Memory := do
  let prev ← mem.prev head
  let mem ← mem.setPrev head new
  let mem ← mem.setPrev new prev
  let mem ← mem.setNext new head
  mem.setNext prev new

/-- The loop of `cr_list_add_in_order`: the pointer that it ends with. -/
def place (mem : Memory) (head : Ptr) (key : Int32) (v : Ptr → Int32) :
    Nat → Ptr → Except Fault Ptr
  | 0, _ => .error .unfinished
  | fuel + 1, ptr => do
      let ptr ← mem.next ptr
      if key > v ptr ∧ ptr ≠ head then
        place mem head key v fuel ptr
      else
        return ptr

/-- `cr_list_add_in_order`. -/
def crListAddInOrder (fuel : Nat) (mem : Memory) (new head : Ptr) (key : Int32)
    (v : Ptr → Int32) : Except Fault Memory := do
  let ptr ← place mem head key v fuel head
  crListAddTail mem new ptr

/-- `cr_list_empty`. -/
def crListEmpty (mem : Memory) (head : Ptr) : Except Fault Bool := do
  let next ← mem.next head
  let prev ← mem.prev head
  return next = head ∨ prev = head

/-- `cr_list_del`. -/
def crListDel (mem : Memory) (entry : Ptr) : Except Fault (Int32 × Memory) := do
  let next ← mem.next entry
  let prev ← mem.prev entry
  if next = entry ∨ prev = entry then
    return (containerEmptyErr, mem)
  let mem ← mem.setNext prev next
  let next ← mem.next entry
  let prev ← mem.prev entry
  let mem ← mem.setPrev next prev
  let mem ← mem.setNext entry 0
  let mem ← mem.setPrev entry 0
  return (noErr, mem)

/-- `malloc_z` of a `struct stack_item`, whose `ptrs` are at the address `stackItem`. -/
def mallocZ (mem : Memory) (stackItem : Ptr) : Except Fault Memory := do
  if stackItem = 0 then
    throw .assertFailed
  let mem ← mem.setNext stackItem 0
  let mem ← mem.setPrev stackItem 0
  return { mem with item := Function.update mem.item stackItem 0 }

/-- `cr_stack_push`. -/
def crStackPush (mem : Memory) (item stack stackItem : Ptr) : Except Fault Memory := do
  if item = 0 ∨ stack = 0 then
    throw .assertFailed
  let mem ← mallocZ mem stackItem
  crListAdd { mem with item := Function.update mem.item stackItem item } stackItem stack

/-- `cr_stack_pop`: the item, or `NULL`. -/
def crStackPop (mem : Memory) (stack : Ptr) : Except Fault (Ptr × Memory) := do
  if stack = 0 then
    throw .assertFailed
  let item ← mem.next stack
  let (ret, mem) ← crListDel mem item
  if ret = noErr then
    return (mem.item item, mem)
  else
    return (0, mem)

/-! ## Calls -/

/-- The calls; `malloc` answers a push with the address of its stack item. -/
inductive Call where
  | crListAdd (new head : Ptr)
  | crListAddTail (new head : Ptr)
  | crListAddInOrder (new head : Ptr) (key : Int32) (v : Ptr → Int32)
  | crListDel (entry : Ptr)
  | crStackPush (item stack stackItem : Ptr)
  | crStackPop (stack : Ptr)

/-- What a call returns. -/
inductive Answer where
  | nothing
  | ret (code : Int32)
  | item (ptr : Ptr)
  deriving Repr, DecidableEq

/-- A call. -/
def step (fuel : Nat) (mem : Memory) : Call → Except Fault (Answer × Memory)
  | .crListAdd new head => (CrList.crListAdd mem new head).map fun mem => (.nothing, mem)
  | .crListAddTail new head => (CrList.crListAddTail mem new head).map fun mem => (.nothing, mem)
  | .crListAddInOrder new head key v =>
      (CrList.crListAddInOrder fuel mem new head key v).map fun mem => (.nothing, mem)
  | .crListDel entry => (CrList.crListDel mem entry).map fun (code, mem) => (.ret code, mem)
  | .crStackPush item stack stackItem =>
      (CrList.crStackPush mem item stack stackItem).map fun mem => (.nothing, mem)
  | .crStackPop stack => (CrList.crStackPop mem stack).map fun (item, mem) => (.item item, mem)

/-- Calls one after the other. -/
def run (fuel : Nat) (mem : Memory) : List Call → Except Fault (List Answer × Memory)
  | [] => .ok ([], mem)
  | call :: calls => do
      let (answer, mem) ← step fuel mem call
      let (answers, mem) ← run fuel mem calls
      return (answer :: answers, mem)

/-! ## Lists of entries -/

/-- What the memory stands for: a list of entries for each head, and the item of each entry. -/
structure Lists where
  entries : Ptr → List Ptr
  item : Ptr → Ptr

/-- The keys, with the one that was passed for the new entry. -/
def keyOf (v : Ptr → Int32) (new : Ptr) (key : Int32) : Ptr → Int32 :=
  Function.update v new key

/-- The order of entries by their keys. -/
def KeyLe (v : Ptr → Int32) (first second : Ptr) : Prop :=
  v first ≤ v second

instance (v : Ptr → Int32) : DecidableRel (KeyLe v) := fun first second =>
  inferInstanceAs (Decidable (v first ≤ v second))

instance (v : Ptr → Int32) : Std.Total (KeyLe v) where
  total first second := Int32.le_total (v first) (v second)

instance (v : Ptr → Int32) : IsTrans Ptr (KeyLe v) where
  trans _ _ _ first second := Int32.le_trans first second

namespace Lists

/-- The lists with another one at a head. -/
def set (lists : Lists) (head : Ptr) (entries : List Ptr) : Lists :=
  { lists with entries := Function.update lists.entries head entries }

theorem entries_set_self
    (lists : Lists)
    (head : Ptr)
    (entries : List Ptr) :
    (lists.set head entries).entries head = entries :=
  Function.update_self ..

theorem entries_set_of_ne
    (lists : Lists)
    {head other : Ptr}
    (different : other ≠ head)
    (entries : List Ptr) :
    (lists.set head entries).entries other = lists.entries other :=
  Function.update_of_ne different ..

/-- What a call does to the lists of some heads. -/
def step (heads : List Ptr) (lists : Lists) : Call → Answer × Lists
  | .crListAdd new head => (.nothing, lists.set head (new :: lists.entries head))
  | .crListAddTail new head => (.nothing, lists.set head (lists.entries head ++ [new]))
  | .crListAddInOrder new head key v =>
      (.nothing,
        lists.set head ((lists.entries head).orderedInsert (KeyLe (keyOf v new key)) new))
  | .crListDel entry =>
      if entry ∈ heads then
        (.ret containerEmptyErr, lists)
      else
        (.ret noErr, { lists with entries := fun head => (lists.entries head).erase entry })
  | .crStackPush item stack stackItem =>
      (.nothing,
        { lists.set stack (stackItem :: lists.entries stack) with
          item := Function.update lists.item stackItem item })
  | .crStackPop stack =>
      match lists.entries stack with
      | [] => (.item 0, lists)
      | stackItem :: rest => (.item (lists.item stackItem), lists.set stack rest)

/-- Calls one after the other. -/
def run (heads : List Ptr) (lists : Lists) : List Call → List Answer × Lists
  | [] => ([], lists)
  | call :: calls =>
      let (answer, lists) := lists.step heads call
      let (answers, lists) := lists.run heads calls
      (answer :: answers, lists)

/-- The entry is in no list, and no head. -/
structure Unlinked (heads : List Ptr) (lists : Lists) (ptr : Ptr) : Prop where
  nonzero : ptr ≠ 0
  outside : ∀ head ∈ heads, ptr ∉ head :: lists.entries head

/-- The calls with initialised heads, entries that are not linked, and entries of the lists. -/
def Allowed (heads : List Ptr) (lists : Lists) : Call → Prop
  | .crListAdd new head
  | .crListAddTail new head
  | .crListAddInOrder new head _ _ => head ∈ heads ∧ Unlinked heads lists new
  | .crListDel entry =>
      (∃ head ∈ heads, entry ∈ lists.entries head) ∨
        entry ∈ heads ∧ lists.entries entry = []
  | .crStackPush item stack stackItem =>
      item ≠ 0 ∧ stack ∈ heads ∧ Unlinked heads lists stackItem
  | .crStackPop stack => stack ∈ heads

/-- Each call is allowed for the lists that the calls before it leave. -/
def AllAllowed (heads : List Ptr) (lists : Lists) : List Call → Prop
  | [] => True
  | call :: calls =>
      lists.Allowed heads call ∧ AllAllowed heads (lists.step heads call).2 calls

end Lists

/-- The rings of the heads are the lists, and no two of them meet. -/
structure Represents (heads : List Ptr) (mem : Memory) (lists : Lists) : Prop where
  linked : ∀ head ∈ heads, mem.links.Linked head (lists.entries head)
  apart :
    ∀ head ∈ heads, ∀ other ∈ heads, other ≠ head →
      ∀ ptr ∈ head :: lists.entries head, ptr ∉ other :: lists.entries other
  nonzero : ∀ head ∈ heads, ∀ ptr ∈ head :: lists.entries head, ptr ≠ 0
  item : mem.item = lists.item

namespace Represents

variable {heads : List Ptr} {mem : Memory} {lists : Lists}

/-- Another ring at a head, with nothing of the other rings, stands for another list there. -/
theorem change
    (represents : Represents heads mem lists)
    {head : Ptr}
    (isHead : head ∈ heads)
    {links : Links Ptr}
    {entries : List Ptr}
    (linked : links.Linked head entries)
    (within : ∀ ptr ∈ entries, ptr ∈ lists.entries head ∨ Lists.Unlinked heads lists ptr)
    (same :
      ∀ other ∈ heads, other ≠ head → ∀ ptr ∈ other :: lists.entries other,
        links.next ptr = mem.links.next ptr ∧ links.prev ptr = mem.links.prev ptr) :
    Represents heads { mem with links := links } (lists.set head entries) := by
  have atHead := lists.entries_set_self head entries
  have elsewhere {other : Ptr} (different : other ≠ head) :=
    lists.entries_set_of_ne different entries
  -- no entry of the new list is in the ring of another head
  have foreign :
      ∀ other ∈ heads, other ≠ head → ∀ ptr ∈ head :: entries,
        ptr ∉ other :: lists.entries other := by
    intro other isOther different ptr member
    rcases List.mem_cons.mp member with rfl | inEntries
    · exact represents.apart _ isHead other isOther different _ List.mem_cons_self
    · rcases within ptr inEntries with old | new
      · exact represents.apart head isHead other isOther different ptr
          (List.mem_cons_of_mem _ old)
      · exact new.outside other isOther
  refine ⟨?_, ?_, ?_, represents.item⟩
  · intro other isOther
    by_cases different : other = head
    · rw [different, atHead]
      exact linked
    · rw [elsewhere different]
      exact (represents.linked other isOther).congr (same other isOther different)
  · intro first isFirst second isSecond different ptr member
    by_cases firstHead : first = head
    · subst firstHead
      rw [atHead] at member
      rw [elsewhere different]
      exact foreign second isSecond different ptr member
    · rw [elsewhere firstHead] at member
      by_cases secondHead : second = head
      · subst secondHead
        rw [atHead]
        intro inNew
        exact foreign first isFirst firstHead ptr inNew member
      · rw [elsewhere secondHead]
        exact represents.apart first isFirst second isSecond different ptr member
  · intro other isOther ptr member
    by_cases different : other = head
    · rw [different, atHead] at member
      rcases List.mem_cons.mp member with rfl | inEntries
      · exact represents.nonzero _ isHead _ List.mem_cons_self
      · rcases within ptr inEntries with old | new
        · exact represents.nonzero head isHead ptr (List.mem_cons_of_mem _ old)
        · exact new.nonzero
    · rw [elsewhere different] at member
      exact represents.nonzero other isOther ptr member

/-- An insertion into the ring of a head leaves the rings of the others. -/
theorem insertBefore
    (represents : Represents heads mem lists)
    {head new : Ptr}
    (isHead : head ∈ heads)
    (unlinked : Lists.Unlinked heads lists new)
    {first second : List Ptr}
    (whole : lists.entries head = first ++ second) :
    Represents heads
      { mem with links := mem.links.insertTail (second.headD head) new }
      (lists.set head (first ++ new :: second)) := by
  have linked := represents.linked head isHead
  have fresh := unlinked.outside head isHead
  rw [whole] at linked fresh
  apply represents.change isHead (linked.insertBefore fresh)
  · intro ptr member
    rw [whole]
    rcases List.mem_append.mp member with inFirst | inRest
    · exact Or.inl (List.mem_append_left _ inFirst)
    · rcases List.mem_cons.mp inRest with rfl | inSecond
      · exact Or.inr unlinked
      · exact Or.inl (List.mem_append_right _ inSecond)
  · intro other isOther different ptr member
    have outside : ptr ∉ head :: (first ++ second) := by
      intro inRing
      rw [← whole] at inRing
      exact represents.apart head isHead other isOther different ptr inRing member
    have notNew : ptr ≠ new := by
      rintro rfl
      exact unlinked.outside other isOther member
    exact linked.insertBefore_outside fresh outside notNew

/-- What the memory stands for is what is at the heads. -/
theorem congr
    (represents : Represents heads mem lists)
    {others : Lists}
    (same : ∀ head ∈ heads, others.entries head = lists.entries head)
    (item : others.item = lists.item) :
    Represents heads mem others where
  linked := by
    intro head isHead
    rw [same head isHead]
    exact represents.linked head isHead
  apart := by
    intro head isHead other isOther
    rw [same head isHead, same other isOther]
    exact represents.apart head isHead other isOther
  nonzero := by
    intro head isHead
    rw [same head isHead]
    exact represents.nonzero head isHead
  item := represents.item.trans item.symm

theorem head_ne_zero
    (represents : Represents heads mem lists)
    {head : Ptr}
    (isHead : head ∈ heads) :
    head ≠ 0 :=
  represents.nonzero head isHead head List.mem_cons_self

end Represents

/-! ## The functions on rings -/

section
variable {mem : Memory} {ptr value : Ptr}

theorem next_eq
    (nonzero : ptr ≠ 0) :
    mem.next ptr = .ok (mem.links.next ptr) :=
  if_neg nonzero

theorem prev_eq
    (nonzero : ptr ≠ 0) :
    mem.prev ptr = .ok (mem.links.prev ptr) :=
  if_neg nonzero

theorem setNext_eq
    (nonzero : ptr ≠ 0) :
    mem.setNext ptr value =
      .ok { mem with links.next := Function.update mem.links.next ptr value } :=
  if_neg nonzero

theorem setPrev_eq
    (nonzero : ptr ≠ 0) :
    mem.setPrev ptr value =
      .ok { mem with links.prev := Function.update mem.links.prev ptr value } :=
  if_neg nonzero

/-- `cr_list_add_tail` of a node and a pointer that is not the node. -/
theorem crListAddTail_eq
    {new head : Ptr}
    (newNonzero : new ≠ 0)
    (headNonzero : head ≠ 0)
    (prevNonzero : mem.links.prev head ≠ 0)
    (different : new ≠ head) :
    crListAddTail mem new head =
      .ok { mem with links := mem.links.insertTail head new } := by
  unfold crListAddTail
  rw [prev_eq headNonzero]
  change (mem.setPrev head new >>= _) = _
  rw [setPrev_eq headNonzero]
  change (Memory.setPrev _ new _ >>= _) = _
  rw [setPrev_eq newNonzero]
  change (Memory.setNext _ new _ >>= _) = _
  rw [setNext_eq newNonzero]
  change Memory.setNext _ _ _ = _
  rw [setNext_eq prevNonzero, Links.insertTail, Function.update_of_ne different.symm,
    Function.update_comm different]

/-- `cr_list_add` puts the node before the one behind the head. -/
theorem crListAdd_eq
    {new head : Ptr}
    (newNonzero : new ≠ 0)
    (headNonzero : head ≠ 0)
    (nextNonzero : mem.links.next head ≠ 0)
    (inverse : mem.links.prev (mem.links.next head) = head)
    (differentHead : new ≠ head)
    (differentNext : new ≠ mem.links.next head) :
    crListAdd mem new head =
      .ok { mem with links := mem.links.insertTail (mem.links.next head) new } := by
  unfold crListAdd
  rw [next_eq headNonzero]
  change (mem.setNext head new >>= _) = _
  rw [setNext_eq headNonzero]
  change (Memory.setNext _ new _ >>= _) = _
  rw [setNext_eq newNonzero]
  change (Memory.setPrev _ new _ >>= _) = _
  rw [setPrev_eq newNonzero]
  change Memory.setPrev _ _ _ = _
  rw [setPrev_eq nextNonzero, Links.insertTail, Function.update_of_ne differentNext.symm,
    inverse, Function.update_comm differentHead]

/-- The loop ends at the first entry whose key is not below the new one, or at the head. -/
theorem place_eq
    {head : Ptr}
    {key : Int32}
    {v : Ptr → Int32}
    {below : Ptr → Bool}
    {done rest : List Ptr}
    (linked : mem.links.Linked head (done ++ rest))
    (nonzero : ∀ ptr ∈ head :: (done ++ rest), ptr ≠ 0)
    (isBelow : ∀ ptr ∈ rest, below ptr = true ↔ v ptr < key)
    {fuel : Nat}
    (enough : rest.length < fuel)
    (member : ptr ∈ head :: done)
    (comes : mem.links.next ptr = rest.headD head) :
    place mem head key v fuel ptr = .ok ((rest.dropWhile below).headD head) := by
  have ptrNonzero : ptr ≠ 0 := by
    apply nonzero
    exact List.cons_subset_cons head (List.subset_append_left ..) member
  induction rest generalizing done fuel ptr with
  | nil =>
      obtain ⟨fuel, rfl⟩ : ∃ more, fuel = more + 1 := ⟨fuel - 1, by simp at enough; omega⟩
      unfold place
      rw [next_eq ptrNonzero, comes]
      exact if_neg fun both => both.2 rfl
  | cons node rest inductionHypothesis =>
      obtain ⟨fuel, rfl⟩ : ∃ more, fuel = more + 1 := ⟨fuel - 1, by simp at enough; omega⟩
      have notHead : node ≠ head := by
        rintro rfl
        exact (List.nodup_cons.mp linked.distinct).1 (by simp)
      have isNode : place mem head key v (fuel + 1) ptr =
          if key > v node ∧ node ≠ head then place mem head key v fuel node else .ok node := by
        rw [place, next_eq ptrNonzero, comes]
        rfl
      rw [isNode]
      by_cases smaller : v node < key
      · have goesOn : below node = true := (isBelow node List.mem_cons_self).mpr smaller
        rw [if_pos ⟨smaller, notHead⟩, List.dropWhile_cons_of_pos goesOn]
        have next : mem.links.next node = rest.headD head := by
          rw [linked.rotate.next_head.1]
          cases rest with
          | nil =>
              rfl
          | cons later others =>
              rfl
        rw [List.append_cons] at linked nonzero
        apply inductionHypothesis linked nonzero
        · intro ptr inRest
          exact isBelow ptr (List.mem_cons_of_mem _ inRest)
        · exact Nat.lt_of_succ_lt_succ enough
        · simp
        · exact next
        · apply nonzero
          simp
      · have stops : ¬below node = true := fun isBelowNode =>
          smaller ((isBelow node List.mem_cons_self).mp isBelowNode)
        rw [if_neg fun both => smaller both.1, List.dropWhile_cons_of_neg stops]
        rfl

/-- `cr_list_del` of an entry lets its neighbours point past it and clears its links. -/
theorem crListDel_eq
    {entry : Ptr}
    (nonzero : entry ≠ 0)
    (nextNonzero : mem.links.next entry ≠ 0)
    (prevNonzero : mem.links.prev entry ≠ 0)
    (nextOther : mem.links.next entry ≠ entry)
    (prevOther : mem.links.prev entry ≠ entry) :
    crListDel mem entry =
      .ok (noErr,
        { mem with
          links :=
            { next := Function.update (mem.links.unlink entry).next entry 0
              prev := Function.update (mem.links.unlink entry).prev entry 0 } }) := by
  unfold crListDel
  rw [next_eq nonzero]
  change (mem.prev entry >>= _) = _
  rw [prev_eq nonzero]
  change (if _ then _ else _) = _
  rw [if_neg (not_or.mpr ⟨nextOther, prevOther⟩)]
  rw [setNext_eq prevNonzero]
  change (Memory.next _ entry >>= _) = _
  rw [next_eq nonzero]
  change (Memory.prev _ entry >>= _) = _
  rw [prev_eq nonzero]
  change (Memory.setPrev _
    (Function.update mem.links.next (mem.links.prev entry) (mem.links.next entry) entry) _ >>= _) =
      _
  rw [Function.update_of_ne prevOther.symm, setPrev_eq nextNonzero]
  change (Memory.setNext _ entry 0 >>= _) = _
  rw [setNext_eq nonzero]
  change (Memory.setPrev _ entry 0 >>= _) = _
  rw [setPrev_eq nonzero, Links.unlink, Function.update_of_ne prevOther.symm]
  rfl

/-- `cr_list_del` of a head without entries. -/
theorem crListDel_head
    {head : Ptr}
    (nonzero : head ≠ 0)
    (empty : mem.links.next head = head) :
    crListDel mem head = .ok (containerEmptyErr, mem) := by
  unfold crListDel
  rw [next_eq nonzero]
  change (mem.prev head >>= _) = _
  rw [prev_eq nonzero]
  exact if_pos (Or.inl empty)

end

/-! ## Calls and lists -/

namespace Represents

variable {heads : List Ptr} {mem : Memory} {lists : Lists}

/-- `cr_list_add_tail` at any place of a ring, given by the entries from there on. -/
theorem crListAddTail
    (represents : Represents heads mem lists)
    {head new : Ptr}
    (isHead : head ∈ heads)
    (unlinked : Lists.Unlinked heads lists new)
    {first second : List Ptr}
    (whole : lists.entries head = first ++ second) :
    ∃ after,
      CrList.crListAddTail mem new (second.headD head) = .ok after ∧
        Represents heads after (lists.set head (first ++ new :: second)) := by
  have linked := represents.linked head isHead
  have placeMem : second.headD head ∈ head :: lists.entries head := by
    rw [whole]
    cases second with
    | nil =>
        exact List.mem_cons_self
    | cons place rest =>
        simp
  have different : new ≠ second.headD head := by
    intro same
    exact unlinked.outside head isHead (same ▸ placeMem)
  have call := crListAddTail_eq unlinked.nonzero
    (represents.nonzero head isHead _ placeMem)
    (represents.nonzero head isHead _ (linked.prev_mem placeMem)) different
  exact ⟨_, call, represents.insertBefore isHead unlinked whole⟩

/-- `cr_list_add` puts an entry in front of a list. -/
theorem crListAdd
    (represents : Represents heads mem lists)
    {head new : Ptr}
    (isHead : head ∈ heads)
    (unlinked : Lists.Unlinked heads lists new) :
    ∃ after,
      CrList.crListAdd mem new head = .ok after ∧
        Represents heads after (lists.set head (new :: lists.entries head)) := by
  have linked := represents.linked head isHead
  have outside := unlinked.outside head isHead
  obtain ⟨next, back⟩ := linked.next_head
  have nextMem : mem.links.next head ∈ head :: lists.entries head :=
    linked.segment.next_start_mem
  have inverse := (linked.inverse List.mem_cons_self).1
  have differentHead : new ≠ head := by
    rintro rfl
    exact outside List.mem_cons_self
  have differentNext : new ≠ mem.links.next head := by
    intro same
    exact outside (same ▸ nextMem)
  have call := crListAdd_eq unlinked.nonzero (represents.head_ne_zero isHead)
    (represents.nonzero head isHead _ nextMem) inverse differentHead differentNext
  rw [next] at call
  have whole : lists.entries head = [] ++ lists.entries head := rfl
  exact ⟨_, call, represents.insertBefore isHead unlinked whole⟩

/-- `cr_list_add_in_order` puts an entry where its key belongs. -/
theorem crListAddInOrder
    (represents : Represents heads mem lists)
    {head new : Ptr}
    (isHead : head ∈ heads)
    (unlinked : Lists.Unlinked heads lists new)
    (key : Int32)
    (v : Ptr → Int32)
    {fuel : Nat}
    (enough : (lists.entries head).length < fuel) :
    ∃ after,
      CrList.crListAddInOrder fuel mem new head key v = .ok after ∧
        Represents heads after
          (lists.set head ((lists.entries head).orderedInsert (KeyLe (keyOf v new key)) new)) := by
  have linked := represents.linked head isHead
  have outside := unlinked.outside head isHead
  have isBelow :
      ∀ ptr ∈ lists.entries head,
        decide (¬KeyLe (keyOf v new key) new ptr) = true ↔ v ptr < key := by
    intro ptr member
    have other : ptr ≠ new := by
      rintro rfl
      exact outside (List.mem_cons_of_mem _ member)
    rw [decide_eq_true_iff, KeyLe, keyOf, Function.update_self, Function.update_of_ne other,
      Int32.not_le]
  have all : mem.links.Linked head ([] ++ lists.entries head) := linked
  have found := place_eq all (represents.nonzero head isHead) isBelow enough
    List.mem_cons_self linked.next_head.1
  have whole : lists.entries head =
      ((lists.entries head).takeWhile fun ptr => ¬KeyLe (keyOf v new key) new ptr) ++
        (lists.entries head).dropWhile fun ptr => ¬KeyLe (keyOf v new key) new ptr :=
    List.takeWhile_append_dropWhile.symm
  obtain ⟨after, call, next⟩ := represents.crListAddTail isHead unlinked whole
  refine ⟨after, ?_, ?_⟩
  · unfold CrList.crListAddInOrder
    rw [found]
    exact call
  · rw [List.orderedInsert_eq_take_drop]
    exact next

/-- `cr_list_del` of an entry takes it out of its list. -/
theorem crListDel
    (represents : Represents heads mem lists)
    {head entry : Ptr}
    (isHead : head ∈ heads)
    (member : entry ∈ lists.entries head) :
    ∃ links,
      CrList.crListDel mem entry = .ok (noErr, { mem with links := links }) ∧
        Represents heads { mem with links := links }
          (lists.set head ((lists.entries head).erase entry)) := by
  have linked := represents.linked head isHead
  have inRing := List.mem_cons_of_mem head member
  obtain ⟨prevMem, nextMem⟩ := linked.neighbours_mem member
  obtain ⟨nextOther, prevOther⟩ := linked.neighbours_ne member
  have call := crListDel_eq (represents.nonzero head isHead _ inRing)
    (represents.nonzero head isHead _ nextMem) (represents.nonzero head isHead _ prevMem)
    nextOther prevOther
  refine ⟨_, call, ?_⟩
  apply represents.change isHead
  · obtain ⟨first, second, shape⟩ := List.append_of_mem member
    rw [shape] at linked ⊢
    have apart := linked.distinct
    rw [← List.cons_append, List.nodup_append] at apart
    have notFirst : entry ∉ head :: first := fun inFirst =>
      apart.2.2 entry inFirst entry List.mem_cons_self rfl
    have notSecond : entry ∉ second := (List.nodup_cons.mp apart.2.1).1
    rw [List.erase_append_right _ fun inFirst => notFirst (List.mem_cons_of_mem _ inFirst),
      List.erase_cons_head]
    apply linked.unlink.congr
    intro ptr inRest
    have other : ptr ≠ entry := by
      rintro rfl
      rw [← List.cons_append] at inRest
      exact (List.mem_append.mp inRest).elim notFirst notSecond
    exact ⟨Function.update_of_ne other .., Function.update_of_ne other ..⟩
  · intro ptr inErased
    exact Or.inl (List.mem_of_mem_erase inErased)
  · intro other isOther different ptr inOther
    have outside : ptr ∉ head :: lists.entries head := fun inHead =>
      represents.apart head isHead other isOther different ptr inHead inOther
    have notEntry : ptr ≠ entry := by
      rintro rfl
      exact outside inRing
    have same := linked.unlink_outside member outside
    dsimp only
    rw [Function.update_of_ne notEntry, Function.update_of_ne notEntry]
    exact same

/-- The links of a pointer that is in no ring, and all items, can be changed. -/
theorem elsewhere
    (represents : Represents heads mem lists)
    {changed : Memory}
    {ptr : Ptr}
    (unlinked : Lists.Unlinked heads lists ptr)
    (same :
      ∀ other ≠ ptr,
        changed.links.next other = mem.links.next other ∧
          changed.links.prev other = mem.links.prev other) :
    Represents heads changed { lists with item := changed.item } where
  linked := by
    intro head isHead
    apply (represents.linked head isHead).congr
    intro other member
    apply same
    rintro rfl
    exact unlinked.outside head isHead member
  apart := represents.apart
  nonzero := represents.nonzero
  item := rfl

/-- `cr_stack_push` puts a stack item with the item in front. -/
theorem crStackPush
    (represents : Represents heads mem lists)
    {item stack stackItem : Ptr}
    (isItem : item ≠ 0)
    (isHead : stack ∈ heads)
    (unlinked : Lists.Unlinked heads lists stackItem) :
    ∃ after,
      CrList.crStackPush mem item stack stackItem = .ok after ∧
        Represents heads after
          { lists.set stack (stackItem :: lists.entries stack) with
            item := Function.update lists.item stackItem item } := by
  have filled : Represents heads
      { links :=
          { next := Function.update mem.links.next stackItem 0
            prev := Function.update mem.links.prev stackItem 0 }
        item := Function.update (Function.update mem.item stackItem 0) stackItem item }
      { lists with item := Function.update lists.item stackItem item } := by
    rw [Function.update_idem, represents.item]
    apply represents.elsewhere unlinked
    intro other different
    exact ⟨Function.update_of_ne different .., Function.update_of_ne different ..⟩
  have still : Lists.Unlinked heads
      { lists with item := Function.update lists.item stackItem item } stackItem :=
    ⟨unlinked.nonzero, unlinked.outside⟩
  obtain ⟨after, call, next⟩ := filled.crListAdd isHead still
  refine ⟨after, ?_, next⟩
  have nonzero : ¬(item = 0 ∨ stack = 0) :=
    not_or.mpr ⟨isItem, represents.head_ne_zero isHead⟩
  have made : mallocZ mem stackItem =
      .ok
        { links :=
            { next := Function.update mem.links.next stackItem 0
              prev := Function.update mem.links.prev stackItem 0 }
          item := Function.update mem.item stackItem 0 } := by
    unfold mallocZ
    rw [if_neg unlinked.nonzero]
    change (mem.setNext stackItem 0 >>= _) = _
    rw [setNext_eq unlinked.nonzero]
    change (Memory.setPrev _ stackItem 0 >>= _) = _
    rw [setPrev_eq unlinked.nonzero]
    rfl
  unfold CrList.crStackPush
  rw [if_neg nonzero]
  change (mallocZ mem stackItem >>= _) = _
  rw [made]
  exact call

/-- `cr_stack_pop` of a stack without items. -/
theorem crStackPop_nil
    (represents : Represents heads mem lists)
    {stack : Ptr}
    (isHead : stack ∈ heads)
    (empty : lists.entries stack = []) :
    CrList.crStackPop mem stack = .ok (0, mem) := by
  have nonzero := represents.head_ne_zero isHead
  have next : mem.links.next stack = stack := by
    rw [(represents.linked stack isHead).next_head.1, empty]
    rfl
  unfold CrList.crStackPop
  rw [if_neg nonzero]
  change (mem.next stack >>= _) = _
  rw [next_eq nonzero, next]
  change (CrList.crListDel mem stack >>= _) = _
  rw [crListDel_head nonzero next]
  rfl

/-- `cr_stack_pop` takes the first stack item out and returns its item. -/
theorem crStackPop_cons
    (represents : Represents heads mem lists)
    {stack stackItem : Ptr}
    {rest : List Ptr}
    (isHead : stack ∈ heads)
    (first : lists.entries stack = stackItem :: rest) :
    ∃ after,
      CrList.crStackPop mem stack = .ok (lists.item stackItem, after) ∧
        Represents heads after (lists.set stack rest) := by
  have nonzero := represents.head_ne_zero isHead
  have next : mem.links.next stack = stackItem := by
    rw [(represents.linked stack isHead).next_head.1, first]
    rfl
  have member : stackItem ∈ lists.entries stack := by
    rw [first]
    exact List.mem_cons_self
  obtain ⟨links, call, deleted⟩ := represents.crListDel isHead member
  rw [first, List.erase_cons_head] at deleted
  refine ⟨_, ?_, deleted⟩
  unfold CrList.crStackPop
  rw [if_neg nonzero]
  change (mem.next stack >>= _) = _
  rw [next_eq nonzero, next]
  change (CrList.crListDel mem stackItem >>= _) = _
  rw [call, ← represents.item]
  rfl

/-- An entry of a list is no head. -/
theorem not_head
    (represents : Represents heads mem lists)
    {head entry : Ptr}
    (isHead : head ∈ heads)
    (member : entry ∈ lists.entries head) :
    entry ∉ heads := by
  intro entryHead
  by_cases same : entry = head
  · subst same
    exact (List.nodup_cons.mp (represents.linked entry isHead).distinct).1 member
  · exact represents.apart head isHead entry entryHead same entry
      (List.mem_cons_of_mem _ member) List.mem_cons_self

/-- Taking an entry out of all lists is taking it out of its own. -/
theorem erase_entries
    (represents : Represents heads mem lists)
    {head entry : Ptr}
    (isHead : head ∈ heads)
    (member : entry ∈ lists.entries head) :
    ∀ other ∈ heads,
      (lists.entries other).erase entry =
        (lists.set head ((lists.entries head).erase entry)).entries other := by
  intro other isOther
  by_cases different : other = head
  · rw [different, Lists.entries_set_self]
  · have outside := represents.apart head isHead other isOther different entry
      (List.mem_cons_of_mem _ member)
    rw [Lists.entries_set_of_ne _ different]
    exact List.erase_of_not_mem fun inOther => outside (List.mem_cons_of_mem _ inOther)

/-- The step lemma: a call does to the rings what it does to the lists. -/
theorem step
    (represents : Represents heads mem lists)
    {call : Call}
    (allowed : lists.Allowed heads call)
    {fuel : Nat}
    (enough : ∀ head ∈ heads, (lists.entries head).length < fuel) :
    ∃ after,
      CrList.step fuel mem call = .ok ((lists.step heads call).1, after) ∧
        Represents heads after (lists.step heads call).2 := by
  cases call with
  | crListAdd new head =>
      obtain ⟨after, returns, next⟩ := represents.crListAdd allowed.1 allowed.2
      exact ⟨after, by rw [CrList.step, returns]; rfl, next⟩
  | crListAddTail new head =>
      obtain ⟨after, returns, next⟩ :=
        represents.crListAddTail allowed.1 allowed.2 (List.append_nil _).symm
      exact ⟨after, by rw [CrList.step]; exact congrArg _ returns, next⟩
  | crListAddInOrder new head key v =>
      obtain ⟨after, returns, next⟩ :=
        represents.crListAddInOrder allowed.1 allowed.2 key v (enough head allowed.1)
      exact ⟨after, by rw [CrList.step, returns]; rfl, next⟩
  | crListDel entry =>
      rcases allowed with ⟨head, isHead, member⟩ | ⟨isHead, empty⟩
      · obtain ⟨links, returns, next⟩ := represents.crListDel isHead member
        have noHead := represents.not_head isHead member
        refine ⟨{ mem with links := links }, ?_, ?_⟩
        · rw [CrList.step, returns, Lists.step, if_neg noHead]
          rfl
        · rw [Lists.step, if_neg noHead]
          exact next.congr (represents.erase_entries isHead member) rfl
      · have next : mem.links.next entry = entry := by
          rw [(represents.linked entry isHead).next_head.1, empty]
          rfl
        have returns := crListDel_head (represents.head_ne_zero isHead) next
        refine ⟨mem, ?_, ?_⟩
        · rw [CrList.step, returns, Lists.step, if_pos isHead]
          rfl
        · rw [Lists.step, if_pos isHead]
          exact represents
  | crStackPush item stack stackItem =>
      obtain ⟨isItem, isHead, unlinked⟩ := allowed
      obtain ⟨after, returns, next⟩ := represents.crStackPush isItem isHead unlinked
      exact ⟨after, by rw [CrList.step, returns]; rfl, next⟩
  | crStackPop stack =>
      cases first : lists.entries stack with
      | nil =>
          have returns := represents.crStackPop_nil allowed first
          refine ⟨mem, ?_, ?_⟩
          · rw [CrList.step, returns, Lists.step, first]
            rfl
          · rw [Lists.step, first]
            exact represents
      | cons stackItem rest =>
          obtain ⟨after, returns, next⟩ := represents.crStackPop_cons allowed first
          refine ⟨after, ?_, ?_⟩
          · rw [CrList.step, returns, Lists.step, first]
            rfl
          · rw [Lists.step, first]
            exact next

end Represents

/-! ## Runs -/

/-- The lists of heads without entries. -/
def Lists.empty (item : Ptr → Ptr) : Lists where
  entries := fun _ => []
  item := item

/-- A call adds at most one entry to a list. -/
theorem length_step
    (heads : List Ptr)
    (lists : Lists)
    (call : Call)
    (head : Ptr) :
    ((lists.step heads call).2.entries head).length ≤ (lists.entries head).length + 1 := by
  have ofSet {other : Ptr} {entries : List Ptr}
      (short : entries.length ≤ (lists.entries other).length + 1) :
      ((lists.set other entries).entries head).length ≤ (lists.entries head).length + 1 := by
    by_cases same : head = other
    · subst same
      rw [Lists.entries_set_self]
      exact short
    · rw [Lists.entries_set_of_ne _ same]
      exact Nat.le_succ _
  cases call with
  | crListAdd new other =>
      exact ofSet (Nat.le_refl _)
  | crListAddTail new other =>
      exact ofSet (by rw [List.length_append, List.length_singleton])
  | crListAddInOrder new other key v =>
      exact ofSet (by rw [List.orderedInsert_length])
  | crListDel entry =>
      rw [Lists.step]
      by_cases isHead : entry ∈ heads
      · rw [if_pos isHead]
        exact Nat.le_succ _
      · rw [if_neg isHead]
        exact Nat.le_succ_of_le List.length_erase_le
  | crStackPush item stack stackItem =>
      exact ofSet (Nat.le_refl _)
  | crStackPop stack =>
      rw [Lists.step]
      cases first : lists.entries stack with
      | nil =>
          exact Nat.le_succ _
      | cons stackItem rest =>
          apply ofSet
          rw [first, List.length_cons]
          exact Nat.le_add_right _ 2

/-- The run lemma: calls do to the rings what they do to the lists. -/
theorem Represents.run
    {heads : List Ptr}
    {mem : Memory}
    {lists : Lists}
    (represents : Represents heads mem lists)
    {calls : List Call}
    (allowed : lists.AllAllowed heads calls)
    {fuel : Nat}
    (enough : ∀ head ∈ heads, (lists.entries head).length + calls.length < fuel + 1) :
    ∃ after,
      CrList.run fuel mem calls = .ok ((lists.run heads calls).1, after) ∧
        Represents heads after (lists.run heads calls).2 := by
  induction calls generalizing mem lists with
  | nil =>
      exact ⟨mem, rfl, represents⟩
  | cons call calls inductionHypothesis =>
      obtain ⟨first, later⟩ := allowed
      have enoughNow : ∀ head ∈ heads, (lists.entries head).length < fuel := by
        intro head isHead
        have room := enough head isHead
        rw [List.length_cons] at room
        omega
      obtain ⟨middle, returns, next⟩ := represents.step first enoughNow
      have enoughLater :
          ∀ head ∈ heads,
            ((lists.step heads call).2.entries head).length + calls.length < fuel + 1 := by
        intro head isHead
        have room := enough head isHead
        have grows := length_step heads lists call head
        rw [List.length_cons] at room
        omega
      obtain ⟨after, rest, represented⟩ := inductionHypothesis next later enoughLater
      refine ⟨after, ?_, represented⟩
      unfold CrList.run
      rw [returns]
      change (CrList.run fuel middle calls >>= _) = _
      rw [rest]
      rfl

/-- Initialised heads are linked to themselves, and others that are stay so. -/
theorem selfLinked_of_crInitListHead
    {heads : List Ptr}
    {before mem : Memory}
    (initialised : heads.foldlM crInitListHead before = .ok mem) :
    (∀ ptr,
        before.links.next ptr = ptr ∧ before.links.prev ptr = ptr →
          mem.links.next ptr = ptr ∧ mem.links.prev ptr = ptr) ∧
      ∀ head ∈ heads, head ≠ 0 ∧ mem.links.next head = head ∧ mem.links.prev head = head := by
  induction heads generalizing before with
  | nil =>
      cases initialised
      refine ⟨fun ptr linked => linked, ?_⟩
      intro head isHead
      cases isHead
  | cons head heads inductionHypothesis =>
      rw [List.foldlM_cons] at initialised
      by_cases null : head = 0
      · have fails : crInitListHead before head = .error .nullPointer := by
          unfold crInitListHead Memory.setNext
          rw [if_pos null]
          rfl
        rw [fails] at initialised
        cases initialised
      · have first : crInitListHead before head =
            .ok { before with
              links :=
                { next := Function.update before.links.next head head
                  prev := Function.update before.links.prev head head } } := by
          unfold crInitListHead
          rw [setNext_eq null]
          change Memory.setPrev _ head head = _
          rw [setPrev_eq null]
        rw [first] at initialised
        obtain ⟨kept, others⟩ := inductionHypothesis initialised
        refine ⟨?_, ?_⟩
        · intro ptr linked
          apply kept
          by_cases same : ptr = head
          · subst same
            exact ⟨Function.update_self .., Function.update_self ..⟩
          · dsimp only
            rw [Function.update_of_ne same, Function.update_of_ne same]
            exact linked
        · intro ptr member
          rcases List.mem_cons.mp member with rfl | inHeads
          · exact ⟨null, kept _ ⟨Function.update_self .., Function.update_self ..⟩⟩
          · exact others ptr inHeads

/-- Initialised heads stand for lists without entries. -/
theorem represents_empty
    {heads : List Ptr}
    {before mem : Memory}
    (initialised : heads.foldlM crInitListHead before = .ok mem) :
    Represents heads mem (Lists.empty mem.item) where
  linked := by
    intro head isHead
    obtain ⟨_, next, prev⟩ := (selfLinked_of_crInitListHead initialised).2 head isHead
    exact Links.linked_nil next prev
  apart := by
    intro head isHead other isOther different ptr member inOther
    rw [List.mem_singleton.mp member] at inOther
    exact different (List.mem_singleton.mp inOther).symm
  nonzero := by
    intro head isHead ptr member
    rw [List.mem_singleton.mp member]
    exact ((selfLinked_of_crInitListHead initialised).2 head isHead).1
  item := rfl

/-- What is asked of rings that stand for lists. -/
structure Behaves (heads : List Ptr) (mem : Memory) (lists : Lists) : Prop where
  represents : Represents heads mem lists
  inverse :
    ∀ head ∈ heads, ∀ ptr ∈ head :: lists.entries head,
      mem.links.prev (mem.links.next ptr) = ptr ∧ mem.links.next (mem.links.prev ptr) = ptr
  isEmpty :
    ∀ head ∈ heads, crListEmpty mem head = .ok (decide (lists.entries head = []))
  sorted :
    ∀ head ∈ heads, ∀ new, Lists.Unlinked heads lists new →
      ∀ key v, (lists.entries head).Pairwise (KeyLe v) →
        ∀ fuel, (lists.entries head).length < fuel →
          ∃ after entries,
            crListAddInOrder fuel mem new head key v = .ok after ∧
              Represents heads after (lists.set head entries) ∧
              entries.Pairwise (KeyLe (keyOf v new key))
  lastEntry :
    ∀ head ∈ heads, ∀ entry, lists.entries head = [entry] →
      ∃ after, crListDel mem entry = .ok (noErr, after) ∧ crListEmpty after head = .ok true
  noEntry :
    ∀ head ∈ heads, lists.entries head = [] →
      crListDel mem head = .ok (containerEmptyErr, mem) ∧ crStackPop mem head = .ok (0, mem)

namespace Represents

variable {heads : List Ptr} {mem : Memory} {lists : Lists}

/-- `cr_list_empty` tells whether a list has no entries. -/
theorem crListEmpty_eq
    (represents : Represents heads mem lists)
    {head : Ptr}
    (isHead : head ∈ heads) :
    crListEmpty mem head = .ok (decide (lists.entries head = [])) := by
  have linked := represents.linked head isHead
  have nonzero := represents.head_ne_zero isHead
  have answer : (mem.links.next head = head ∨ mem.links.prev head = head) ↔
      lists.entries head = [] := by
    constructor
    · rintro (next | prev)
      · rcases linked.segment.next_start with ⟨empty, _⟩ | ⟨later, shape, _⟩
        · exact empty
        · have others := (List.nodup_cons.mp linked.distinct).1
          rw [shape, next] at others
          exact absurd List.mem_cons_self others
      · rcases linked.segment.prev_stop with ⟨empty, _⟩ | ⟨earlier, shape, _⟩
        · exact empty
        · have others := (List.nodup_cons.mp linked.distinct).1
          rw [shape, prev] at others
          exact absurd (List.mem_append_right _ (List.mem_singleton_self _)) others
    · intro empty
      left
      rw [linked.next_head.1, empty]
      rfl
  unfold crListEmpty
  rw [next_eq nonzero]
  change (mem.prev head >>= _) = _
  rw [prev_eq nonzero]
  change Except.ok (decide _) = _
  exact congrArg Except.ok (decide_eq_decide.mpr answer)

/-- An ordered insertion keeps a sorted list sorted. -/
theorem crListAddInOrder_sorted
    (represents : Represents heads mem lists)
    {head new : Ptr}
    (isHead : head ∈ heads)
    (unlinked : Lists.Unlinked heads lists new)
    (key : Int32)
    {v : Ptr → Int32}
    (sorted : (lists.entries head).Pairwise (KeyLe v))
    {fuel : Nat}
    (enough : (lists.entries head).length < fuel) :
    ∃ after entries,
      CrList.crListAddInOrder fuel mem new head key v = .ok after ∧
        Represents heads after (lists.set head entries) ∧
        entries.Pairwise (KeyLe (keyOf v new key)) := by
  obtain ⟨after, call, next⟩ := represents.crListAddInOrder isHead unlinked key v enough
  refine ⟨after, _, call, next, ?_⟩
  apply List.Pairwise.orderedInsert
  -- the keys of the entries are as they were
  have outside := unlinked.outside head isHead
  apply sorted.imp_of_mem
  intro first second firstMember secondMember ordered
  have firstOther : first ≠ new := by
    rintro rfl
    exact outside (List.mem_cons_of_mem _ firstMember)
  have secondOther : second ≠ new := by
    rintro rfl
    exact outside (List.mem_cons_of_mem _ secondMember)
  unfold KeyLe keyOf
  rw [Function.update_of_ne firstOther, Function.update_of_ne secondOther]
  exact ordered

theorem behaves
    (represents : Represents heads mem lists) :
    Behaves heads mem lists where
  represents := represents
  inverse := by
    intro head isHead ptr member
    exact (represents.linked head isHead).inverse member
  isEmpty := by
    intro head isHead
    exact represents.crListEmpty_eq isHead
  sorted := by
    intro head isHead new unlinked key v sorted fuel enough
    exact represents.crListAddInOrder_sorted isHead unlinked key sorted enough
  lastEntry := by
    intro head isHead entry only
    have member : entry ∈ lists.entries head := by
      rw [only]
      exact List.mem_singleton_self entry
    obtain ⟨links, call, next⟩ := represents.crListDel isHead member
    refine ⟨_, call, ?_⟩
    rw [next.crListEmpty_eq isHead, Lists.entries_set_self, only, List.erase_cons_head]
    rfl
  noEntry := by
    intro head isHead empty
    have next : mem.links.next head = head := by
      rw [(represents.linked head isHead).next_head.1, empty]
      rfl
    exact ⟨crListDel_head (represents.head_ne_zero isHead) next,
      represents.crStackPop_nil isHead empty⟩

end Represents

end CrList

end Pma
