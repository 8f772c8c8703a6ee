import Pma.LinkListRefinement

namespace Pma.LinkLists

open NullTerminated Transition

/-!
# Runs of programs with lists

Whatever a program does with its lists, the memory holds their sequences, and
nothing else.
-/

section

variable {Value : Type}

section

variable
  {heap after : Heap Value}
  {world : World Value}

/-- A call returns what the sequences say, and leaves what they say. -/
theorem Represents.step
    [DecidableEq Value]
    {call : Call Value}
    (represents : Represents heap world)
    (allowed : world.Allowed call) :
    ∃ after,
      step heap call = .ok ((world.step call).1, after) ∧
        Represents after (world.step call).2 := by
  have isThere {list : ListPtr} (alive : world.Alive list) :
      ∃ sequence, world.lists list = some sequence :=
    Option.isSome_iff_exists.mp alive
  cases call with
  | new =>
      refine ⟨_, ?_, represents.listNew⟩
      have sameList : (LinkLists.listNew heap).1 = world.freshList := represents.freshList
      simp only [LinkLists.step, World.step, ← sameList]
  | setFunctions list cmp del =>
      obtain ⟨old, isList⟩ := isThere allowed
      obtain ⟨after, returned, represented⟩ := represents.setFunctions isList cmp del
      exact ⟨after, by simp only [LinkLists.step, returned, ok_bind]; rfl, represented⟩
  | free list =>
      obtain ⟨old, isList⟩ := isThere allowed.1
      have empty : old.items = [] := by
        have items := allowed.2
        rwa [World.items, isList] at items
      obtain ⟨after, returned, represented⟩ := represents.listFree isList empty
      exact ⟨after, by simp only [LinkLists.step, returned, ok_bind]; rfl, represented⟩
  | add list val =>
      obtain ⟨old, isList⟩ := isThere allowed
      obtain ⟨after, returned, represented⟩ := represents.add isList val
      exact ⟨after, by simp only [LinkLists.step, returned, ok_bind]; rfl, represented⟩
  | addSort list val =>
      obtain ⟨old, isList⟩ := isThere allowed
      obtain ⟨after, returned, represented⟩ := represents.addSort isList val
      exact ⟨after, by simp only [LinkLists.step, returned, ok_bind]; rfl, represented⟩
  | addAfter list pp val =>
      obtain ⟨old, isList⟩ := isThere allowed.1
      have inside : ∀ node ∈ pp, node ∈ old.nodes :=
        fun node isNode => (on_iff isList node).mp (allowed.2 node isNode)
      obtain ⟨after, returned, represented⟩ := represents.addAfter isList inside val
      exact ⟨after, by simp only [LinkLists.step, returned, ok_bind]; rfl, represented⟩
  | addNodePrev list current val =>
      obtain ⟨after, returned, represented⟩ := represents.addNodePrev allowed val
      exact ⟨after, by simp only [LinkLists.step, returned, ok_bind]; rfl, represented⟩
  | addNodeNext list current val =>
      obtain ⟨after, returned, represented⟩ := represents.addNodeNext allowed val
      exact ⟨after, by simp only [LinkLists.step, returned, ok_bind]; rfl, represented⟩
  | addList l m =>
      obtain ⟨old, isList⟩ := isThere allowed.2.1
      obtain ⟨after, returned, represented⟩ :=
        represents.addList allowed.1 isList allowed.2.2
      exact ⟨after, by simp only [LinkLists.step, returned, ok_bind]; rfl, represented⟩
  | delete list val =>
      obtain ⟨old, isList⟩ := isThere allowed
      obtain ⟨after, returned, represented⟩ := represents.delete isList val
      exact ⟨after, by simp only [LinkLists.step, returned, ok_bind]; rfl, represented⟩
  | deleteNode list node =>
      obtain ⟨after, returned, represented⟩ := represents.deleteNode allowed
      exact ⟨after, by simp only [LinkLists.step, returned, ok_bind]; rfl, represented⟩
  | deleteAllNode list =>
      obtain ⟨old, isList⟩ := isThere allowed
      obtain ⟨after, returned, represented⟩ := represents.deleteAllNode isList
      exact ⟨after, by simp only [LinkLists.step, returned, ok_bind]; rfl, represented⟩
  | deleteList list =>
      obtain ⟨old, isList⟩ := isThere allowed
      obtain ⟨after, returned, represented⟩ := represents.deleteList isList
      exact ⟨after, by simp only [LinkLists.step, returned, ok_bind]; rfl, represented⟩
  | head list =>
      obtain ⟨old, isList⟩ := isThere allowed
      refine ⟨heap, ?_, represents⟩
      simp only [LinkLists.step, represents.head isList, ok_bind]
      rfl
  | lookup list data =>
      obtain ⟨old, isList⟩ := isThere allowed
      refine ⟨heap, ?_, represents⟩
      simp only [LinkLists.step, represents.lookup isList data, ok_bind]
      rfl

/-- At first there is nothing. -/
theorem represents_empty :
    Represents (Heap.empty : Heap Value) World.empty := by
  refine ⟨fun _ => rfl, ?_, ?_, ?_, ?_, ?_, ?_, rfl, rfl, rfl⟩
  · intro list sequence isList
    cases isList
  · intro list sequence isList
    cases isList
  · intro node known
    cases known
  · intro node list other on
    obtain ⟨sequence, isList, _⟩ := on
    cases isList
  · intro node known
    cases known
  · intro list alive
    cases alive

/-- A call and its answer. -/
abbrev Entry (Value : Type) := Call Value × Answer Value

/-- A call of the program, and what it returns. -/
def Steps [DecidableEq Value] (heap : Heap Value) (entry : Entry Value) (after : Heap Value) :
    Prop :=
  LinkLists.step heap entry.1 = .ok (entry.2, after)

/-- A call that a program may make, and what the sequences say to it. -/
def World.Steps [DecidableEq Value] (world : World Value) (entry : Entry Value)
    (after : World Value) : Prop :=
  world.Allowed entry.1 ∧ world.step entry.1 = (entry.2, after)

/-- Memory that holds no sequences is not used. -/
theorem Represents.unused
    (represents : Represents heap world)
    (gone : ∀ list, world.lists list = none) :
    ∀ pointer, heap.nodes pointer = none ∧ heap.lists pointer = none := by
  intro pointer
  refine ⟨?_, ?_⟩
  · have unknown : ¬ (heap.data pointer).isSome := by
      intro known
      obtain ⟨list, sequence, isList, _⟩ := represents.owned pointer known
      rw [gone] at isList
      cases isList
    rwa [Heap.data, Option.isSome_map, Option.not_isSome_iff_eq_none] at unknown
  · have notThere := represents.header pointer
    rw [gone] at notThere
    exact Option.map_eq_none_iff.mp notThere

end

/-- A run that a program may do is one of the memory. -/
theorem run_represents
    [DecidableEq Value]
    {history : List (Entry Value)}
    {world : World Value}
    (run : Run World.Steps World.empty history world) :
    ∃ heap, Run Steps Heap.empty history heap ∧ Represents heap world := by
  have simulation
      {before later : World Value}
      {entry : Entry Value}
      {heap : Heap Value}
      (represents : Represents heap before)
      (stepped : before.Steps entry later) :
      ∃ after, Steps heap entry after ∧ Represents after later := by
    obtain ⟨after, returned, represented⟩ := represents.step stepped.1
    rw [stepped.2] at returned represented
    exact ⟨after, returned, represented⟩
  have simulated :
      ∃ heap, Run Steps Heap.empty (history.map id) heap ∧ Represents heap world :=
    run.simulates (fun world heap => Represents heap world) id simulation represents_empty
  rwa [List.map_id] at simulated

/--
Whatever a program does with any number of lists that it may do, every call
returns what the sequences say, the links in memory are those of the sequences,
the next call returns as well, and when all lists are gone nothing is left.
-/
theorem lists_follow_sequences
    [DecidableEq Value]
    {history : List (Entry Value)}
    {world : World Value}
    (run : Run World.Steps World.empty history world) :
    ∃ heap,
      Run Steps Heap.empty history heap ∧ Represents heap world ∧
        (∀ call, world.Allowed call → ∃ answer after, step heap call = .ok (answer, after)) ∧
          ((∀ list, world.lists list = none) →
            ∀ pointer, heap.nodes pointer = none ∧ heap.lists pointer = none) := by
  obtain ⟨heap, concrete, represents⟩ := run_represents run
  refine ⟨heap, concrete, represents, ?_, represents.unused⟩
  intro call allowed
  obtain ⟨after, returned, _⟩ := represents.step allowed
  exact ⟨_, after, returned⟩

/-- Two lists, one of which is added to the other. -/
def twoLists : List (Entry Nat) :=
  [(.new, .list 0), (.add 0 (some 5), .nothing), (.new, .list 1), (.addList 1 0, .nothing),
    (.lookup 1 (some 5), .node (some 1)), (.deleteList 0, .nothing)]

theorem lists_follow_sequences_sample :
    ∃ world heap,
      Run World.Steps World.empty twoLists world ∧ Run Steps Heap.empty twoLists heap ∧
        Represents heap world := by
  have run : ∃ world, Run World.Steps World.empty twoLists world := by
    refine ⟨_, .cons ⟨trivial, rfl⟩ (.cons ⟨rfl, rfl⟩ (.cons ⟨trivial, rfl⟩
      (.cons ⟨⟨rfl, rfl, ?_⟩, rfl⟩ (.cons ⟨rfl, rfl⟩ (.cons ⟨rfl, rfl⟩ (.nil _))))))⟩
    intro same
    cases same
  obtain ⟨world, run⟩ := run
  obtain ⟨heap, concrete, represents, _⟩ := lists_follow_sequences run
  exact ⟨world, heap, run, concrete, represents⟩

end

end Pma.LinkLists
