import Pma.InterfaceQueries
import Pma.LinkListRuns

namespace Pma.Interface

open LinkLists Transition

/-!
# What the queries find and leave

In every memory that holds the list of interfaces and their addresses, the
callers of `get_interface` find the first interface that the query holds of, and
the memory is as it was when they are done.
-/

/-! ## The queries -/

/-- How often an interface is added to the result. -/
def Query.hits (found : Rinterface) : Query → Nat
  | .Q_TYPE type => if ifTypeValue found.type = type then 1 else 0
  | .Q_STATE state => if ifStateValue found.opState = state then 1 else 0
  | .Q_NAME name => if qName name found then 1 else 0
  | .Q_CTID ctid => if qCtid ctid found then 1 else 0
  | .Q_NID rid => if (found.neighbor.map Neighbor.rid) = some rid then 1 else 0
  | .Q_IPADDR addr => found.details.connected.count addr

/-- The query holds of an interface. -/
def Query.holds (query : Query) (found : Rinterface) : Bool :=
  0 < query.hits found

/-- An interface in memory. -/
abbrev Entry := FacePtr × Rinterface

/-- The list of interfaces and the lists of their addresses are in memory. -/
structure InMemory (faces : Faces) (world : World Datum) (iflist : ListPtr)
    (entries : List Entry) : Prop where
  interfaces :
    ∃ sequence, world.lists iflist = some sequence ∧
      sequence.items.map Prod.snd = (entries.map fun entry => Datum.face entry.1).map some
  found : ∀ entry ∈ entries, faces.face entry.1 = some entry.2
  addresses :
    ∀ entry ∈ entries, ∃ sequence, world.lists (faces.connected entry.1) = some sequence ∧
      sequence.items.map Prod.snd = (entry.2.details.connected.map Datum.connected).map some

/-- The values have been collected, and all other lists are as they were. -/
structure Gathered (result : ListPtr) (world : World Datum) (values : List Datum)
    (collected : Collected) (later : World Datum) : Prop where
  represents : Represents collected.1 later
  isThere :
    ∃ sequence, later.lists result = some sequence ∧
      sequence.items.map Prod.snd = values.map some ∧ sequence.del = false
  others : ∀ other ≠ result, later.lists other = world.lists other
  deleted : later.deleted = world.deleted
  total : collected.2 = Int32.ofNat values.length

section

variable
  {result list : ListPtr}
  {world later : World Datum}
  {values : List Datum}
  {collected : Collected}

theorem insertAt_none
    (item : Item Datum)
    (items : List (Item Datum)) :
    insertAt none item items = items ++ [item] := by
  induction items with
  | nil =>
      rfl
  | cons other items inductionHypothesis =>
      exact congrArg (other :: ·) inductionHypothesis

/-- `listnode_add(*result, data); (*total)++;` -/
theorem Gathered.collect
    (gathered : Gathered result world values collected later)
    (data : Datum) :
    ∃ after afterwards,
      Interface.collect result data collected = .ok after ∧
        Gathered result world (values ++ [data]) after afterwards := by
  obtain ⟨sequence, isList, items, del⟩ := gathered.isThere
  obtain ⟨heap, added, represents⟩ := gathered.represents.add isList (some data)
  have isAdded :
      (later.add result (some data)).lists result =
        some (sequence.insert none (later.freshNode, some data)) := by
    simp [World.add, World.insert, World.modify, isList]
  refine ⟨(heap, collected.2 + 1), _, ?_, represents, ⟨_, isAdded, ?_, del⟩, ?_, ?_, ?_⟩
  · unfold Interface.collect
    rw [added]
    rfl
  · simp [Sequence.insert, insertAt_none, items]
  · intro other different
    rw [← gathered.others other different]
    simp [World.add, World.insert, World.modify, different]
  · exact gathered.deleted
  · rw [gathered.total, List.length_append, List.length_singleton, Int32.ofNat_add]
    rfl

/-- A loop whose body adds values for each datum collects all of them. -/
theorem Gathered.listLoop
    {sequence : Sequence Datum}
    {data : List Datum}
    {body : Collected → Datum → Except LinkLists.Fault Collected}
    (gathered : Gathered result world values collected later)
    (different : list ≠ result)
    (isList : world.lists list = some sequence)
    (items : sequence.items.map Prod.snd = data.map some)
    (out : Datum → List Datum)
    (each :
      ∀ datum ∈ data, ∀ {values collected later},
        Gathered result world values collected later →
        ∃ after afterwards,
          body collected datum = .ok after ∧
            Gathered result world (values ++ out datum) after afterwards) :
    ∃ after afterwards,
      LinkLists.listLoop Prod.fst body list collected = .ok after ∧
        Gathered result world (values ++ data.flatMap out) after afterwards := by
  let outOf (item : Item Datum) : List Datum := item.2.elim [] out
  let invariant (state : Collected) (afterwards : World Datum) (passed : List (Item Datum)) :
      Prop :=
    Gathered result world (values ++ passed.flatMap outOf) state afterwards
  have isDatum {item : Item Datum} (member : item ∈ sequence.items) :
      ∃ datum ∈ data, item.2 = some datum := by
    have inData : item.2 ∈ data.map some := by
      rw [← items]
      exact List.mem_map_of_mem member
    obtain ⟨datum, isIn, same⟩ := List.mem_map.mp inData
    exact ⟨datum, isIn, same.symm⟩
  have preserved
      {state : Collected}
      {between : World Datum}
      {passed : List (Item Datum)}
      {item : Item Datum}
      (member : item ∈ sequence.items)
      (_ : Represents state.1 between)
      (_ : between.lists list = some sequence)
      (holds : invariant state between passed) :
      ∃ after afterwards,
        item.2.elim (.ok state) (body state) = .ok after ∧ Represents after.1 afterwards ∧
          afterwards.lists list = some sequence ∧
            invariant after afterwards (passed ++ [item]) := by
    obtain ⟨datum, isIn, isItem⟩ := isDatum member
    obtain ⟨after, afterwards, returned, more⟩ := each datum isIn holds
    refine ⟨after, afterwards, ?_, more.represents, ?_, ?_⟩
    · rw [isItem]
      exact returned
    · rw [more.others list different]
      exact isList
    · have isOut : outOf item = out datum := by
        simp only [outOf, isItem, Option.elim_some]
      change Gathered result world (values ++ (passed ++ [item]).flatMap outOf) after afterwards
      rw [List.flatMap_append, List.flatMap_singleton, isOut, ← List.append_assoc]
      exact more
  have stillList : later.lists list = some sequence :=
    (gathered.others list different).trans isList
  have chained := gathered.represents.chained stillList
  have head : (collected.1.ring list).next none = sequence.nodes.head? := chained.holds.head_eq
  have enough : sequence.items.length < collected.1.freshNode + 1 := by
    have atMost := chained.enough
    rwa [Sequence.nodes, List.length_map] at atMost
  have start : invariant collected later [] := by
    change Gathered result world (values ++ [].flatMap outOf) collected later
    rw [List.flatMap_nil, List.append_nil]
    exact gathered
  have walked :
      ∃ after afterwards,
        walk Prod.fst (fun state data => data.elim (.ok state) (body state))
            (collected.1.freshNode + 1) sequence.nodes.head? collected = .ok after ∧
          Represents after.1 afterwards ∧ afterwards.lists list = some sequence ∧
            invariant after afterwards sequence.items :=
    walk_rule invariant preserved gathered.represents stillList start
      (List.nil_append sequence.items).symm enough
  obtain ⟨after, afterwards, returned, _, _, finished⟩ := walked
  refine ⟨after, afterwards, ?_, ?_⟩
  · unfold LinkLists.listLoop
    rw [list_eq (gathered.represents.isHeader stillList)]
    dsimp only
    rw [LinkLists.ok_bind]
    dsimp only
    rw [head]
    exact returned
  · have sameOut : sequence.items.flatMap outOf = data.flatMap out := by
      have ofItems :
          sequence.items.flatMap outOf =
            (sequence.items.map Prod.snd).flatMap fun datum => datum.elim [] out := by
        rw [List.flatMap_map]
      rw [ofItems, items, List.flatMap_map]
      rfl
    rw [← sameOut]
    exact finished

/-! ## Interfaces -/

/-- What an interface adds to the result. -/
def Query.adds (query : Query) (entry : Entry) : List Datum :=
  List.replicate (query.hits entry.2) (.face entry.1)

/-- The interfaces of the result. -/
def Query.answers (query : Query) (entries : List Entry) : List Datum :=
  entries.flatMap query.adds

/-- Interfaces that are compared by their neighbours have neighbours. -/
def Query.Applies (query : Query) (entries : List Entry) : Prop :=
  ∀ rid, query = .Q_NID rid → ∀ entry ∈ entries, entry.2.neighbor.isSome

/-- A value is added if a condition holds. -/
theorem Gathered.addIf
    {condition : Prop}
    [Decidable condition]
    (gathered : Gathered result world values collected later)
    (data : Datum) :
    ∃ after afterwards,
      (if condition then Interface.collect result data collected else .ok collected) = .ok after ∧
        Gathered result world
          (values ++ List.replicate (if condition then 1 else 0) data) after afterwards := by
  by_cases holds : condition
  · simp only [if_pos holds]
    exact gathered.collect data
  · simp only [if_neg holds, List.replicate_zero, List.append_nil]
    exact ⟨collected, later, rfl, gathered⟩

/-- What an address adds. -/
def addressAdds (addr : UInt32) (face : Datum) : Datum → List Datum
  | .face _ => []
  | .connected address => List.replicate (if address = addr then 1 else 0) face

theorem flatMap_addressAdds
    (addr : UInt32)
    (face : Datum)
    (addresses : List UInt32) :
    (addresses.map Datum.connected).flatMap (addressAdds addr face) =
      List.replicate (addresses.count addr) face := by
  induction addresses with
  | nil =>
      rfl
  | cons address addresses inductionHypothesis =>
      rw [List.map_cons, List.flatMap_cons, inductionHypothesis, List.count_cons]
      by_cases same : address = addr
      · simp [addressAdds, same, List.replicate_succ]
      · simp [addressAdds, same]

/-- The body of the loops of `get_interface`. -/
theorem Gathered.testInterface
    {faces : Faces}
    {query : Query}
    {iflist : ListPtr}
    {entries : List Entry}
    {entry : Entry}
    (gathered : Gathered result world values collected later)
    (inMemory : InMemory faces world iflist entries)
    (fresh : world.lists result = none)
    (applies : query.Applies entries)
    (member : entry ∈ entries) :
    ∃ after afterwards,
      Interface.testInterface faces query result collected (.face entry.1) = .ok after ∧
        Gathered result world (values ++ query.adds entry) after afterwards := by
  have isFace : asFace faces (.face entry.1) = .ok entry := by
    simp only [asFace, inMemory.found entry member, Option.elim_some]
  unfold Interface.testInterface
  rw [isFace, LinkLists.ok_bind]
  unfold Query.adds
  cases query with
  | Q_TYPE type => exact gathered.addIf _
  | Q_STATE state => exact gathered.addIf _
  | Q_NAME name =>
      simp only [Query.hits, qName, decide_eq_true_eq]
      exact gathered.addIf _
  | Q_CTID ctid =>
      simp only [Query.hits, qCtid, decide_eq_true_eq]
      exact gathered.addIf _
  | Q_NID rid =>
      obtain ⟨neighbor, isNeighbor⟩ :=
        Option.isSome_iff_exists.mp (applies rid rfl entry member)
      simp only [Query.hits, isNeighbor, Option.map_some, Option.some.injEq]
      exact gathered.addIf _
  | Q_IPADDR addr =>
      obtain ⟨sequence, isList, items⟩ := inMemory.addresses entry member
      have different : faces.connected entry.1 ≠ result := by
        intro same
        rw [same, fresh] at isList
        cases isList
      have each :
          ∀ datum ∈ entry.2.details.connected.map Datum.connected,
            ∀ {values collected later},
              Gathered result world values collected later →
              ∃ after afterwards,
                (do
                    if (← asAddress datum) = addr then
                      Interface.collect result (.face entry.1) collected
                    else
                      .ok collected) = .ok after ∧
                  Gathered result world (values ++ addressAdds addr (.face entry.1) datum) after
                    afterwards := by
        intro datum inAddresses values collected later gathered
        obtain ⟨address, _, rfl⟩ := List.mem_map.mp inAddresses
        exact gathered.addIf _
      have looped :=
        gathered.listLoop different isList items (addressAdds addr (.face entry.1)) each
      rw [flatMap_addressAdds] at looped
      exact looped

/-! ## The first value -/

/-- A search that writes these values to an empty list. -/
def Finds (search : ListPtr → Heap Datum → Except LinkLists.Fault Collected)
    (world : World Datum) (values : List Datum) : Prop :=
  ∀ result heap later,
    world.lists result = none →
    Gathered result world [] (heap, 0) later →
    ∃ after afterwards,
      search result heap = .ok after ∧ Gathered result world values after afterwards

/-- The number of values is positive as an `int`. -/
theorem one_le_ofNat
    {number : Nat}
    (few : number < 2 ^ 31) :
    (1 : Int32) ≤ Int32.ofNat number ↔ 0 < number := by
  have isNumber : (Int32.ofNat number).toInt = number :=
    Int32.toInt_ofNat_of_lt few
  rw [Int32.le_iff_toInt_le, isNumber, Int32.toInt_one]
  omega

/-- What is read of a result. -/
theorem Gathered.firstData
    (gathered : Gathered result world values collected later)
    (few : values.length < 2 ^ 31) :
    Interface.firstData result collected = .ok values.head? := by
  obtain ⟨sequence, isList, items, _⟩ := gathered.isThere
  have chained := gathered.represents.chained isList
  have head : (collected.1.ring result).next none = sequence.nodes.head? := chained.holds.head_eq
  unfold Interface.firstData
  rw [gathered.total]
  cases values with
  | nil =>
      rfl
  | cons value values =>
      have positive : Int32.ofNat (value :: values).length ≥ 1 :=
        (one_le_ofNat few).mpr (Nat.succ_pos _)
      rw [if_pos positive, list_eq (gathered.represents.isHeader isList), LinkLists.ok_bind, head,
        Sequence.nodes]
      cases shape : sequence.items with
      | nil =>
          rw [shape] at items
          cases items
      | cons item rest =>
          rw [shape, List.map_cons, List.map_cons] at items
          have isValue : item.2 = some value := (List.cons.inj items).1
          have member : item ∈ sequence.items := by
            rw [shape]
            exact List.mem_cons_self
          have isData := gathered.represents.data isList item member
          have derefs : LinkLists.deref (some item.1) = .ok item.1 := rfl
          rw [List.map_cons, List.head?_cons, derefs, LinkLists.ok_bind, node_eq isData result,
            LinkLists.ok_bind, isValue]
          rfl

section

variable
  {faces : Faces}
  {iflist : ListPtr}
  {entries : List Entry}

/-- What a request is answered. -/
def Request.expected (entries : List Entry) : Request → Option Datum
  | .interface query =>
      (entries.find? fun entry => query.holds entry.2).map fun entry => .face entry.1
  | .address iface =>
      (entries.find? fun entry => entry.1 = iface).bind fun entry =>
        (getAddress entry.2).map .connected

/-- What may be requested: what fits an `int`, of interfaces that are there. -/
def Request.Allowed (entries : List Entry) : Request → Prop
  | .interface query => query.Applies entries ∧ (query.answers entries).length < 2 ^ 31
  | .address iface =>
      ∃ entry ∈ entries, entry.1 = iface ∧ entry.2.details.connected.length < 2 ^ 31

/-- A request and its answer. -/
def Answers (faces : Faces) (iflist : ListPtr) (heap : Heap Datum)
    (entry : Request × Option Datum) (after : Heap Datum) : Prop :=
  firstOf (entry.1.search faces iflist) heap = .ok (entry.2, after)

end

end

end Pma.Interface
