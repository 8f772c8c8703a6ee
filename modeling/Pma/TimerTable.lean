import Mathlib.Data.List.Nodup
import Pma.Abort
import Pma.IntrusiveRing
import Pma.TimerSchedule
import Pma.Transition

namespace Pma

open IntrusiveRing Transition

/-!
# The timers in memory

`timer/timer.c` holds a timer three times: as an entry of `timer_arr`, which
points to it, as a node of the list that starts at `timer_head`, and as an
allocated block.  `Pma.Timer` sees the array only.  Here the pointers are kept,
so that a null or a freed timer can be met.
-/

/-- `struct timer`: an entry of the array, with a pointer that may be null. -/
structure TimerEntry (Addr : Type) where
  tId : UInt32
  timer : Option Addr
  deriving Repr, DecidableEq

/-- A `struct list_head`: the head of the list, or the field of a timer. -/
inductive TimerNode (Addr : Type) where
  | timerHead
  | timer (addr : Addr)
  deriving Repr, DecidableEq

/--
The static variables of `timer.c` and the blocks it has allocated.  The array
is kept up to `timer_num`, which is the length of the list.
-/
structure TimerTable (Addr Callback : Type) where
  timerArr : List (TimerEntry Addr)
  maxTimerId : UInt32
  heap : Addr → Option (PmaTimer Callback)
  links : Links (TimerNode Addr)

/-- The calls, with the answers of `malloc` to `set_timer`. -/
inductive TableCall (Addr Callback : Type) where
  | setTimer
      (newTimer : Option Addr)
      (argsAllocated : Bool)
      (timeVal : UInt32)
      (callback : Callback)
  | updateTimer (tId : UInt32)
  | modifyTimer (tId timeout : UInt32)
  | unsetTimer (tId : UInt32)
  | clearTimer
  | exeTimerCallback

namespace TimerTable

variable {Addr Callback : Type}

/-- The variables at program start. -/
def init : TimerTable Addr Callback where
  timerArr := []
  maxTimerId := 0
  heap := fun _ => none
  links := ⟨fun _ => .timerHead, fun _ => .timerHead⟩

/-- Follow the pointer of an entry to its timer. -/
def load
    (table : TimerTable Addr Callback)
    (entry : TimerEntry Addr) :
    Except Fault (Addr × PmaTimer Callback) :=
  match entry.timer with
  | none => .error .nullPointer
  | some addr =>
      match table.heap addr with
      | none => .error .wildPointer
      | some timer => .ok (addr, timer)

/-- Access the link fields of a node. -/
def touch
    (table : TimerTable Addr Callback) :
    TimerNode Addr → Except Fault Unit
  | .timerHead => .ok ()
  | .timer addr =>
      if (table.heap addr).isSome then .ok () else .error .wildPointer

/-- The nodes of the timers that some entries point to. -/
def nodes (entries : List (TimerEntry Addr)) : List (TimerNode Addr) :=
  entries.filterMap fun entry => entry.timer.map .timer

/-- An entry whose timer is there can be loaded. -/
theorem load_eq_ok
    {table : TimerTable Addr Callback}
    {entry : TimerEntry Addr}
    {addr : Addr}
    {timer : PmaTimer Callback}
    (points : entry.timer = some addr)
    (there : table.heap addr = some timer) :
    table.load entry = .ok (addr, timer) := by
  unfold load
  rw [points]
  dsimp only
  rw [there]

theorem mem_nodes
    {entries : List (TimerEntry Addr)}
    {addr : Addr} :
    TimerNode.timer addr ∈ nodes entries ↔
      ∃ entry ∈ entries, entry.timer = some addr := by
  unfold nodes
  rw [List.mem_filterMap]
  simp only [Option.map_eq_some_iff, TimerNode.timer.injEq, exists_eq_right]

theorem nodes_cons
    {entry : TimerEntry Addr}
    {addr : Addr}
    (points : entry.timer = some addr)
    (rest : List (TimerEntry Addr)) :
    nodes (entry :: rest) = .timer addr :: nodes rest := by
  unfold nodes
  rw [List.filterMap_cons, points]
  rfl

theorem nodes_append
    (first second : List (TimerEntry Addr)) :
    nodes (first ++ second) = nodes first ++ nodes second :=
  List.filterMap_append

variable [DecidableEq Addr]

/-- Write to a timer. -/
def store
    (table : TimerTable Addr Callback)
    (addr : Addr)
    (timer : PmaTimer Callback) : TimerTable Addr Callback :=
  { table with heap := Function.update table.heap addr (some timer) }

/-- `list_add_tail_rcu(&timer_head, ...)`. -/
def listAddTail
    (table : TimerTable Addr Callback)
    (addr : Addr) : Except Fault (TimerTable Addr Callback) := do
  table.touch (table.links.prev .timerHead)
  return { table with links := table.links.insertTail .timerHead (.timer addr) }

/-- `list_del_rcu`. -/
def listDel
    (table : TimerTable Addr Callback)
    (addr : Addr) : Except Fault (TimerTable Addr Callback) := do
  table.touch (table.links.prev (.timer addr))
  table.touch (table.links.next (.timer addr))
  return { table with links := table.links.unlink (.timer addr) }

theorem listAddTail_eq_ok
    {table : TimerTable Addr Callback}
    (touched : table.touch (table.links.prev .timerHead) = .ok ())
    (addr : Addr) :
    table.listAddTail addr =
      .ok { table with
        links := table.links.insertTail .timerHead (.timer addr) } := by
  unfold listAddTail
  rw [touched]
  rfl

theorem listDel_eq_ok
    {table : TimerTable Addr Callback}
    {addr : Addr}
    (touchedPrev : table.touch (table.links.prev (.timer addr)) = .ok ())
    (touchedNext : table.touch (table.links.next (.timer addr)) = .ok ()) :
    table.listDel addr =
      .ok { table with links := table.links.unlink (.timer addr) } := by
  unfold listDel
  rw [touchedPrev, touchedNext]
  rfl

/--
`set_timer`.  When the memory of the arguments is refused the timer is freed
again, but its id stays used.
-/
def setTimer
    (table : TimerTable Addr Callback)
    (newTimer : Option Addr)
    (argsAllocated : Bool)
    (timeVal : UInt32)
    (callback : Callback) :
    Except Fault (TimerTable Addr Callback) :=
  if table.timerArr.length = timerMaxCount then
    .ok table
  else
    match newTimer with
    | none => .ok table
    | some addr =>
        if argsAllocated then do
          let stored :=
            table.store addr ⟨table.maxTimerId, timeVal, timeVal, callback⟩
          let linked ← stored.listAddTail addr
          return { linked with
            timerArr := table.timerArr ++ [⟨table.maxTimerId, some addr⟩]
            maxTimerId := table.maxTimerId + 1 }
        else
          .ok { table with maxTimerId := table.maxTimerId + 1 }

/-- The entry at which the loops of the calls below stop. -/
def find
    (table : TimerTable Addr Callback)
    (tId : UInt32) : Option (TimerEntry Addr) :=
  table.timerArr.find? fun entry => entry.tId = tId

/-- Write to the timer with an id, if there is one. -/
def change
    (table : TimerTable Addr Callback)
    (tId : UInt32)
    (written : PmaTimer Callback → PmaTimer Callback) :
    Except Fault (TimerTable Addr Callback) :=
  match table.find tId with
  | none => .ok table
  | some entry => do
      let (addr, timer) ← table.load entry
      return table.store addr (written timer)

/-- `update_timer`. -/
def updateTimer
    (table : TimerTable Addr Callback)
    (tId : UInt32) : Except Fault (TimerTable Addr Callback) :=
  table.change tId PmaTimer.restarted

/-- `modify_timer`. -/
def modifyTimer
    (table : TimerTable Addr Callback)
    (tId timeout : UInt32) : Except Fault (TimerTable Addr Callback) :=
  table.change tId (TimerArr.retimed timeout)

/-- Take the timer of an entry out of the list and free it. -/
def release
    (table : TimerTable Addr Callback)
    (entry : TimerEntry Addr) : Except Fault (TimerTable Addr Callback) := do
  let (addr, _) ← table.load entry
  let unlinked ← table.listDel addr
  return { unlinked with heap := Function.update unlinked.heap addr none }

/-- `unset_timer`: the later entries move up. -/
def unsetTimer
    (table : TimerTable Addr Callback)
    (tId : UInt32) : Except Fault (TimerTable Addr Callback) :=
  match table.find tId with
  | none => .ok table
  | some entry => do
      let released ← table.release entry
      return { released with
        timerArr := table.timerArr.eraseP fun entry => entry.tId = tId }

/-- `clear_timer`: the pointers become null, and `timer_num` is not written. -/
def clearTimer
    (table : TimerTable Addr Callback) :
    Except Fault (TimerTable Addr Callback) := do
  let released ← table.timerArr.foldlM release table
  return { released with
    timerArr := table.timerArr.map fun entry => { entry with timer := none } }

/-- The body of the loop of `exe_timer_callback`, with the callbacks started. -/
def exeEntry
    (reached : List Callback × TimerTable Addr Callback)
    (entry : TimerEntry Addr) :
    Except Fault (List Callback × TimerTable Addr Callback) := do
  let (addr, timer) ← reached.2.load entry
  let started :=
    if TimerArr.fires timer then reached.1 ++ [timer.callback] else reached.1
  return (started, reached.2.store addr (TimerArr.countDown timer))

/-- `exe_timer_callback`. -/
def exeTimerCallback
    (table : TimerTable Addr Callback) :
    Except Fault (List Callback × TimerTable Addr Callback) :=
  table.timerArr.foldlM exeEntry ([], table)

/-- Execute one call. -/
def step
    (table : TimerTable Addr Callback) :
    TableCall Addr Callback → Except Fault (TimerTable Addr Callback)
  | .setTimer newTimer argsAllocated timeVal callback =>
      table.setTimer newTimer argsAllocated timeVal callback
  | .updateTimer tId => table.updateTimer tId
  | .modifyTimer tId timeout => table.modifyTimer tId timeout
  | .unsetTimer tId => table.unsetTimer tId
  | .clearTimer => table.clearTimer
  | .exeTimerCallback => do
      let (_, ticked) ← table.exeTimerCallback
      return ticked

/-! ## The invariant -/

/-- An entry that points to a timer with its id. -/
def Backed
    (table : TimerTable Addr Callback)
    (entry : TimerEntry Addr) : Prop :=
  ∃ addr timer,
    entry.timer = some addr ∧
      table.heap addr = some timer ∧
      timer.timerId = entry.tId

/-- The array, the list and the allocated timers agree. -/
structure Valid (table : TimerTable Addr Callback) : Prop where
  bounded : table.timerArr.length ≤ timerMaxCount
  distinct : (table.timerArr.map TimerEntry.tId).Nodup
  backed : ∀ entry ∈ table.timerArr, table.Backed entry
  linked : table.links.Linked .timerHead (nodes table.timerArr)
  issued : ∀ entry ∈ table.timerArr, entry.tId < table.maxTimerId

namespace Valid

variable {table : TimerTable Addr Callback}

omit [DecidableEq Addr] in
/-- Every node of the list can be accessed. -/
theorem touch_eq_ok
    (valid : table.Valid)
    {node : TimerNode Addr}
    (member : node ∈ TimerNode.timerHead :: nodes table.timerArr) :
    table.touch node = .ok () := by
  cases node with
  | timerHead =>
      rfl
  | timer addr =>
      rcases List.mem_cons.mp member with isHead | inNodes
      · cases isHead
      · obtain ⟨entry, inArr, points⟩ := mem_nodes.mp inNodes
        obtain ⟨found, timer, pointsFound, there, _⟩ := valid.backed entry inArr
        rw [points] at pointsFound
        cases pointsFound
        simp only [touch, there, Option.isSome_some, if_true]

omit [DecidableEq Addr] in
/-- The entry a call finds, with its timer. -/
theorem of_find
    (valid : table.Valid)
    {tId : UInt32}
    {entry : TimerEntry Addr}
    (found : table.find tId = some entry) :
    entry ∈ table.timerArr ∧
      ∃ addr timer,
        table.load entry = .ok (addr, timer) ∧
          entry.timer = some addr ∧
          table.heap addr = some timer ∧
          timer.timerId = entry.tId := by
  have member : entry ∈ table.timerArr := List.mem_of_find?_eq_some found
  obtain ⟨addr, timer, points, there, same⟩ := valid.backed entry member
  exact ⟨member, addr, timer, load_eq_ok points there, points, there, same⟩

/-- Writing to a timer without changing its id keeps the invariant. -/
theorem store
    (valid : table.Valid)
    {addr : Addr}
    {timer written : PmaTimer Callback}
    (there : table.heap addr = some timer)
    (sameId : written.timerId = timer.timerId) :
    (table.store addr written).Valid where
  bounded := valid.bounded
  distinct := valid.distinct
  linked := valid.linked
  issued := valid.issued
  backed := by
    intro entry member
    obtain ⟨found, current, points, there', same⟩ := valid.backed entry member
    by_cases here : found = addr
    · subst here
      rw [there] at there'
      cases there'
      exact ⟨found, written, points, Function.update_self .., sameId.trans same⟩
    · refine ⟨found, current, points, ?_, same⟩
      change Function.update table.heap addr (some written) found = some current
      rw [Function.update_of_ne here]
      exact there'

omit [DecidableEq Addr] in
/-- Memory that is not allocated holds no timer of the list. -/
theorem notMem_nodes
    (valid : table.Valid)
    {addr : Addr}
    (unused : table.heap addr = none) :
    TimerNode.timer addr ∉ TimerNode.timerHead :: nodes table.timerArr := by
  intro member
  rcases List.mem_cons.mp member with isHead | inNodes
  · cases isHead
  · obtain ⟨entry, inArr, points⟩ := mem_nodes.mp inNodes
    obtain ⟨found, timer, pointsFound, there, _⟩ := valid.backed entry inArr
    rw [points] at pointsFound
    cases pointsFound
    rw [unused] at there
    cases there

/-- Every node of the list can be accessed after a write. -/
theorem touch_stored
    (valid : table.Valid)
    (addr : Addr)
    (timer : PmaTimer Callback)
    {node : TimerNode Addr}
    (member : node ∈ TimerNode.timerHead :: nodes table.timerArr) :
    (table.store addr timer).touch node = .ok () := by
  have before := valid.touch_eq_ok member
  cases node with
  | timerHead =>
      rfl
  | timer other =>
      by_cases same : other = addr
      · simp [touch, TimerTable.store, same]
      · simpa [touch, TimerTable.store, same] using before

/-- Adding a timer at the end of the array and of the list keeps the invariant. -/
theorem append
    (valid : table.Valid)
    (room : table.timerArr.length ≠ timerMaxCount)
    {addr : Addr}
    (unused : table.heap addr = none)
    (timer : PmaTimer Callback)
    (isNew : timer.timerId = table.maxTimerId)
    {maxTimerId : UInt32}
    (counted : maxTimerId.toNat = table.maxTimerId.toNat + 1) :
    Valid
      { timerArr := table.timerArr ++ [⟨table.maxTimerId, some addr⟩]
        maxTimerId := maxTimerId
        heap := Function.update table.heap addr (some timer)
        links := table.links.insertTail .timerHead (.timer addr) } where
  bounded := by
    have bounded := valid.bounded
    rw [List.length_append, List.length_singleton]
    omega
  distinct := by
    rw [List.map_append, List.nodup_append]
    refine ⟨valid.distinct, by simp, ?_⟩
    intro tId used other isMax same
    obtain ⟨entry, member, rfl⟩ := List.mem_map.mp used
    simp only [List.map_cons, List.map_nil, List.mem_singleton] at isMax
    have earlier := valid.issued entry member
    rw [same, isMax] at earlier
    exact UInt32.lt_irrefl _ earlier
  backed := by
    intro entry member
    rcases List.mem_append.mp member with old | added
    · obtain ⟨found, current, points, there, same⟩ := valid.backed entry old
      refine ⟨found, current, points, ?_, same⟩
      dsimp only
      rw [Function.update_of_ne]
      · exact there
      · rintro rfl
        rw [unused] at there
        cases there
    · rw [List.mem_singleton] at added
      subst added
      exact ⟨addr, timer, rfl, Function.update_self .., isNew⟩
  linked := by
    dsimp only
    rw [nodes_append, nodes_cons rfl]
    exact valid.linked.insertTail (valid.notMem_nodes unused)
  issued := by
    intro entry member
    dsimp only
    rw [UInt32.lt_iff_toNat_lt]
    rcases List.mem_append.mp member with old | added
    · have earlier := valid.issued entry old
      rw [UInt32.lt_iff_toNat_lt] at earlier
      omega
    · rw [List.mem_singleton] at added
      subst added
      dsimp only
      omega

/-- `set_timer` returns and keeps the invariant while there are ids left. -/
theorem setTimer
    (valid : table.Valid)
    {newTimer : Option Addr}
    (fresh : ∀ addr, newTimer = some addr → table.heap addr = none)
    (left : table.maxTimerId.toNat + 1 < 2 ^ 32)
    (argsAllocated : Bool)
    (timeVal : UInt32)
    (callback : Callback) :
    ∃ next,
      table.setTimer newTimer argsAllocated timeVal callback = .ok next ∧
        next.Valid ∧
        next.maxTimerId.toNat ≤ table.maxTimerId.toNat + 1 := by
  have nextId : (table.maxTimerId + 1).toNat = table.maxTimerId.toNat + 1 := by
    rw [UInt32.toNat_add]
    exact Nat.mod_eq_of_lt left
  have later : ∀ tId, tId < table.maxTimerId → tId < table.maxTimerId + 1 := by
    intro tId earlier
    rw [UInt32.lt_iff_toNat_lt] at earlier ⊢
    omega
  unfold TimerTable.setTimer
  by_cases full : table.timerArr.length = timerMaxCount
  · rw [if_pos full]
    exact ⟨table, rfl, valid, Nat.le_succ _⟩
  · rw [if_neg full]
    cases newTimer with
    | none =>
        exact ⟨table, rfl, valid, Nat.le_succ _⟩
    | some addr =>
        cases argsAllocated with
        | false =>
            refine ⟨_, rfl, ?_, Nat.le_of_eq nextId⟩
            exact
              { bounded := valid.bounded
                distinct := valid.distinct
                backed := valid.backed
                linked := valid.linked
                issued := fun entry member =>
                  later entry.tId (valid.issued entry member) }
        | true =>
            have unused : table.heap addr = none := fresh addr rfl
            have touched :=
              valid.touch_stored addr
                ⟨table.maxTimerId, timeVal, timeVal, callback⟩
                valid.linked.prev_head_mem
            have added :=
              valid.append full unused
                ⟨table.maxTimerId, timeVal, timeVal, callback⟩ rfl nextId
            refine ⟨_, ?_, added, Nat.le_of_eq nextId⟩
            dsimp only
            rw [if_pos rfl, listAddTail_eq_ok touched]
            rfl

/-- Every entry of the array can be released. -/
theorem release_eq_ok
    (valid : table.Valid)
    {entry : TimerEntry Addr}
    (member : entry ∈ table.timerArr) :
    ∃ addr,
      entry.timer = some addr ∧
        table.release entry =
          .ok { table with
            heap := Function.update table.heap addr none
            links := table.links.unlink (.timer addr) } := by
  obtain ⟨addr, timer, points, there, _⟩ := valid.backed entry member
  have inNodes : TimerNode.timer addr ∈ nodes table.timerArr :=
    mem_nodes.mpr ⟨entry, member, points⟩
  obtain ⟨prevMem, nextMem⟩ := valid.linked.neighbours_mem inNodes
  refine ⟨addr, points, ?_⟩
  unfold release
  rw [load_eq_ok points there]
  change (table.listDel addr >>= fun unlinked => _) = _
  rw [listDel_eq_ok (valid.touch_eq_ok prevMem) (valid.touch_eq_ok nextMem)]
  rfl

/-- Taking one timer out of the array, the list and the memory keeps the invariant. -/
theorem remove
    (valid : table.Valid)
    {first second : List (TimerEntry Addr)}
    {entry : TimerEntry Addr}
    {addr : Addr}
    (shape : table.timerArr = first ++ entry :: second)
    (points : entry.timer = some addr) :
    Valid
      { table with
        timerArr := first ++ second
        heap := Function.update table.heap addr none
        links := table.links.unlink (.timer addr) } := by
  have kept : first ++ second ⊆ table.timerArr := by
    rw [shape]
    exact List.append_subset.mpr
      ⟨List.subset_append_left .., fun other member =>
        List.mem_append_right _ (List.mem_cons_of_mem _ member)⟩
  have shorter : (first ++ second).Sublist table.timerArr := by
    rw [shape]
    exact List.Sublist.append_left (List.sublist_cons_self entry second) first
  have linked := valid.linked
  rw [shape, nodes_append, nodes_cons points] at linked
  have apart := linked.distinct
  refine
    { bounded := shorter.length_le.trans valid.bounded
      distinct := (shorter.map _).nodup valid.distinct
      backed := ?_
      linked := ?_
      issued := fun other member => valid.issued other (kept member) }
  · intro other member
    obtain ⟨found, timer, pointsFound, there, same⟩ :=
      valid.backed other (kept member)
    refine ⟨found, timer, pointsFound, ?_, same⟩
    dsimp only
    rw [Function.update_of_ne]
    · exact there
    · rintro rfl
      have inNodes : TimerNode.timer found ∈ nodes (first ++ second) :=
        mem_nodes.mpr ⟨other, member, pointsFound⟩
      rw [nodes_append] at inNodes
      rw [List.nodup_cons, List.nodup_middle, List.nodup_cons] at apart
      exact apart.2.1 inNodes
  · dsimp only
    rw [nodes_append]
    exact linked.unlink

omit [DecidableEq Addr] in
/-- The array around the entry that a call finds. -/
theorem find_split
    {tId : UInt32}
    {entry : TimerEntry Addr}
    (found : table.find tId = some entry) :
    ∃ first second,
      table.timerArr = first ++ entry :: second ∧
        entry.tId = tId ∧
        (∀ other ∈ first, other.tId ≠ tId) ∧
        (table.timerArr.eraseP fun entry => entry.tId = tId) = first ++ second := by
  obtain ⟨matched, first, second, shape, earlier⟩ :=
    List.find?_eq_some_iff_append.mp found
  have before : ∀ other ∈ first, other.tId ≠ tId := by
    intro other inFirst
    simpa using earlier other inFirst
  refine ⟨first, second, shape, of_decide_eq_true matched, before, ?_⟩
  rw [shape, List.eraseP_append_right,
    List.eraseP_cons_of_pos
      (p := fun (entry : TimerEntry Addr) => entry.tId = tId) matched]
  intro other inFirst
  simpa using before other inFirst

/-- `unset_timer` returns and keeps the invariant. -/
theorem unsetTimer
    (valid : table.Valid)
    (tId : UInt32) :
    ∃ next,
      table.unsetTimer tId = .ok next ∧
        next.Valid ∧
        next.maxTimerId = table.maxTimerId := by
  unfold TimerTable.unsetTimer
  cases found : table.find tId with
  | none =>
      exact ⟨table, rfl, valid, rfl⟩
  | some entry =>
      obtain ⟨first, second, shape, -, -, erased⟩ := find_split found
      have member : entry ∈ table.timerArr := by
        rw [shape]
        simp
      obtain ⟨addr, points, released⟩ := valid.release_eq_ok member
      refine ⟨_, ?_, valid.remove shape points, rfl⟩
      dsimp only
      rw [released, erased]
      rfl

/-- `update_timer` and `modify_timer` return and keep the invariant. -/
theorem change
    (valid : table.Valid)
    (tId : UInt32)
    (written : PmaTimer Callback → PmaTimer Callback)
    (sameId : ∀ timer, (written timer).timerId = timer.timerId) :
    ∃ next,
      table.change tId written = .ok next ∧
        next.Valid ∧
        next.maxTimerId = table.maxTimerId := by
  unfold TimerTable.change
  cases found : table.find tId with
  | none =>
      exact ⟨table, rfl, valid, rfl⟩
  | some entry =>
      obtain ⟨_, addr, timer, loaded, _, there, _⟩ := valid.of_find found
      refine ⟨table.store addr (written timer), ?_,
        valid.store there (sameId timer), rfl⟩
      dsimp only
      rw [loaded]
      rfl

end Valid

/-! ## The loop of a tick -/

/-- The timers that some entries point to. -/
def timersOf
    (table : TimerTable Addr Callback)
    (entries : List (TimerEntry Addr)) : List (PmaTimer Callback) :=
  entries.filterMap fun entry => entry.timer.bind table.heap

/-- The table with the timers of some entries counted down. -/
def ticked
    (table : TimerTable Addr Callback)
    (entries : List (TimerEntry Addr)) : TimerTable Addr Callback :=
  { table with
    heap := fun addr =>
      if .timer addr ∈ nodes entries then
        (table.heap addr).map TimerArr.countDown
      else
        table.heap addr }

/-- Entries that point to other memory are backed after a write, too. -/
theorem Backed.store
    {table : TimerTable Addr Callback}
    {entry : TimerEntry Addr}
    (backed : table.Backed entry)
    {addr : Addr}
    (other : entry.timer ≠ some addr)
    (timer : PmaTimer Callback) :
    (table.store addr timer).Backed entry := by
  obtain ⟨found, current, points, there, same⟩ := backed
  refine ⟨found, current, points, ?_, same⟩
  unfold TimerTable.store
  dsimp only
  rw [Function.update_of_ne]
  · exact there
  · rintro rfl
    exact other points

/-- A write elsewhere does not change the timers of some entries. -/
theorem timersOf_store
    {table : TimerTable Addr Callback}
    {entries : List (TimerEntry Addr)}
    {addr : Addr}
    (elsewhere : ∀ entry ∈ entries, entry.timer ≠ some addr)
    (timer : PmaTimer Callback) :
    (table.store addr timer).timersOf entries = table.timersOf entries := by
  apply List.filterMap_congr
  intro entry member
  cases points : entry.timer with
  | none =>
      rfl
  | some found =>
      change Function.update table.heap addr (some timer) found = table.heap found
      rw [Function.update_of_ne]
      rintro rfl
      exact elsewhere entry member points

/-- Counting down one timer and then the rest is counting down all. -/
theorem ticked_cons
    {table : TimerTable Addr Callback}
    {entry : TimerEntry Addr}
    {rest : List (TimerEntry Addr)}
    {addr : Addr}
    {timer : PmaTimer Callback}
    (points : entry.timer = some addr)
    (there : table.heap addr = some timer)
    (apart : TimerNode.timer addr ∉ nodes rest) :
    (table.store addr (TimerArr.countDown timer)).ticked rest =
      table.ticked (entry :: rest) := by
  unfold ticked
  rw [nodes_cons points]
  congr 1
  funext other
  unfold TimerTable.store
  dsimp only
  by_cases same : other = addr
  · subst same
    rw [if_neg apart, if_pos List.mem_cons_self, Function.update_self, there]
    rfl
  · rw [Function.update_of_ne same]
    simp only [List.mem_cons, TimerNode.timer.injEq, same, false_or]

/-- Entries that point to different timers are counted down one after the other. -/
theorem foldlM_exeEntry
    {table : TimerTable Addr Callback}
    {entries : List (TimerEntry Addr)}
    (backed : ∀ entry ∈ entries, table.Backed entry)
    (apart : (nodes entries).Nodup)
    (started : List Callback) :
    entries.foldlM exeEntry (started, table) =
      .ok (started ++
          ((table.timersOf entries).filter TimerArr.fires).map PmaTimer.callback,
        table.ticked entries) := by
  induction entries generalizing table started with
  | nil =>
      simp [timersOf, ticked, nodes]
      rfl
  | cons entry rest inductionHypothesis =>
      obtain ⟨addr, timer, points, there, _⟩ :=
        backed entry List.mem_cons_self
      rw [nodes_cons points, List.nodup_cons] at apart
      have elsewhere : ∀ later ∈ rest, later.timer ≠ some addr := by
        intro later member same
        exact apart.1 (mem_nodes.mpr ⟨later, member, same⟩)
      have first :
          exeEntry (started, table) entry =
            .ok (if TimerArr.fires timer then started ++ [timer.callback] else started,
              table.store addr (TimerArr.countDown timer)) := by
        unfold exeEntry
        rw [load_eq_ok points there]
        rfl
      have stillBacked :
          ∀ later ∈ rest,
            (table.store addr (TimerArr.countDown timer)).Backed later :=
        fun later member =>
          (backed later (List.mem_cons_of_mem _ member)).store
            (elsewhere later member) _
      have later :=
        inductionHypothesis stillBacked apart.2
          (if TimerArr.fires timer then started ++ [timer.callback] else started)
      have timers :
          table.timersOf (entry :: rest) = timer :: table.timersOf rest := by
        unfold timersOf
        rw [List.filterMap_cons, points, Option.bind_some, there]
      rw [List.foldlM_cons, first]
      refine Eq.trans later ?_
      rw [timersOf_store elsewhere, ticked_cons points there apart.1, timers,
        List.filter_cons]
      by_cases due : TimerArr.fires timer = true
      · rw [if_pos due, if_pos due, List.map_cons, List.append_assoc]
        rfl
      · rw [if_neg due, if_neg due]

/-- Counting down changes no id. -/
theorem Valid.ticked
    {table : TimerTable Addr Callback}
    (valid : table.Valid)
    (entries : List (TimerEntry Addr)) :
    (table.ticked entries).Valid where
  bounded := valid.bounded
  distinct := valid.distinct
  linked := valid.linked
  issued := valid.issued
  backed := by
    intro entry member
    obtain ⟨addr, timer, points, there, same⟩ := valid.backed entry member
    unfold Backed TimerTable.ticked
    dsimp only
    by_cases counted : TimerNode.timer addr ∈ nodes entries
    · refine ⟨addr, TimerArr.countDown timer, points, ?_, ?_⟩
      · rw [if_pos counted, there]
        rfl
      · rw [TimerArr.countDown_timerId]
        exact same
    · refine ⟨addr, timer, points, ?_, same⟩
      rw [if_neg counted]
      exact there

/-- `exe_timer_callback` returns and counts down every timer. -/
theorem Valid.exeTimerCallback
    {table : TimerTable Addr Callback}
    (valid : table.Valid) :
    table.exeTimerCallback =
      .ok (((table.timersOf table.timerArr).filter TimerArr.fires).map
          PmaTimer.callback,
        table.ticked table.timerArr) := by
  have apart : (nodes table.timerArr).Nodup :=
    (List.nodup_cons.mp valid.linked.distinct).2
  have looped := foldlM_exeEntry valid.backed apart []
  rw [List.nil_append] at looped
  exact looped

/-! ## Runs -/

/-- `malloc` answers with memory that is not in use. -/
def MallocFresh
    (table : TimerTable Addr Callback) :
    TableCall Addr Callback → Prop
  | .setTimer newTimer _ _ _ => ∀ addr, newTimer = some addr → table.heap addr = none
  | _ => True

/-- `clear_timer` is called only while no timer is set. -/
def ClearsNothing
    (table : TimerTable Addr Callback) :
    TableCall Addr Callback → Prop
  | .clearTimer => table.timerArr = []
  | _ => True

/-- The number of `set_timer` calls. -/
def sets (calls : List (TableCall Addr Callback)) : Nat :=
  calls.countP fun call =>
    match call with
    | .setTimer .. => true
    | _ => false

omit [DecidableEq Addr] in
theorem sets_cons
    (call : TableCall Addr Callback)
    (calls : List (TableCall Addr Callback)) :
    sets (call :: calls) = sets [call] + sets calls := by
  unfold sets
  rw [← List.singleton_append, List.countP_append]

/-- The step lemma: every such call returns and keeps the invariant. -/
theorem Valid.step
    {table : TimerTable Addr Callback}
    (valid : table.Valid)
    {call : TableCall Addr Callback}
    (fresh : table.MallocFresh call)
    (clears : table.ClearsNothing call)
    (left : table.maxTimerId.toNat + sets [call] < 2 ^ 32) :
    ∃ next,
      table.step call = .ok next ∧
        next.Valid ∧
        next.maxTimerId.toNat ≤ table.maxTimerId.toNat + sets [call] := by
  cases call with
  | setTimer newTimer argsAllocated timeVal callback =>
      exact valid.setTimer fresh left argsAllocated timeVal callback
  | updateTimer tId =>
      obtain ⟨next, returned, kept, same⟩ :=
        valid.change tId PmaTimer.restarted fun timer => rfl
      exact ⟨next, returned, kept, Nat.le_of_eq (by rw [same]; rfl)⟩
  | modifyTimer tId timeout =>
      obtain ⟨next, returned, kept, same⟩ :=
        valid.change tId (TimerArr.retimed timeout) fun timer => rfl
      exact ⟨next, returned, kept, Nat.le_of_eq (by rw [same]; rfl)⟩
  | unsetTimer tId =>
      obtain ⟨next, returned, kept, same⟩ := valid.unsetTimer tId
      exact ⟨next, returned, kept, Nat.le_of_eq (by rw [same]; rfl)⟩
  | clearTimer =>
      refine ⟨table, ?_, valid, Nat.le_add_right ..⟩
      have empty : table.timerArr = [] := clears
      cases table
      subst empty
      rfl
  | exeTimerCallback =>
      refine ⟨table.ticked table.timerArr, ?_, valid.ticked _, Nat.le_add_right ..⟩
      unfold TimerTable.step
      dsimp only
      rw [valid.exeTimerCallback]
      rfl

omit [DecidableEq Addr] in
theorem valid_init :
    (init : TimerTable Addr Callback).Valid where
  bounded := Nat.zero_le _
  distinct := List.nodup_nil
  backed := fun _ member => absurd member List.not_mem_nil
  linked := Links.linked_nil rfl rfl
  issued := fun _ member => absurd member List.not_mem_nil

/-- The steps of a run in which `clear_timer` finds no timer. -/
abbrev SafeStep :
    TimerTable Addr Callback →
      TableCall Addr Callback → TimerTable Addr Callback → Prop :=
  guarded (fun table call => table.MallocFresh call ∧ table.ClearsNothing call)
    (ofPartial step)

/-- The run lemma, with the ids that are left. -/
theorem Valid.run
    {before after : TimerTable Addr Callback}
    {calls : List (TableCall Addr Callback)}
    (run : Run SafeStep before calls after)
    (valid : before.Valid)
    (left : before.maxTimerId.toNat + sets calls < 2 ^ 32) :
    after.Valid ∧
      after.maxTimerId.toNat ≤ before.maxTimerId.toNat + sets calls := by
  induction run with
  | nil table =>
      exact ⟨valid, Nat.le_add_right ..⟩
  | @cons before middle after call calls first rest inductionHypothesis =>
      obtain ⟨⟨fresh, clears⟩, stepped⟩ := first
      rw [sets_cons] at left ⊢
      obtain ⟨next, returned, kept, bound⟩ :=
        valid.step fresh clears (by omega)
      have same : middle = next := by
        have stepped : before.step call = .ok middle := stepped
        rw [stepped] at returned
        cases returned
        rfl
      subst same
      obtain ⟨final, finalBound⟩ := inductionHypothesis kept (by omega)
      exact ⟨final, by omega⟩

/-- What `clear_timer` leaves in the array. -/
theorem clearTimer_timerArr
    {table cleared : TimerTable Addr Callback}
    (returned : table.clearTimer = .ok cleared) :
    cleared.timerArr =
      table.timerArr.map fun entry => { entry with timer := none } := by
  unfold clearTimer at returned
  obtain ⟨released, _, done⟩ := bind_eq_ok.mp returned
  cases done
  rfl

/--
As long as `clear_timer` is called only while no timer is set, the array, the
list and the timers agree in every state, and the next call keeps it that way
exactly when it, too, does not clear a timer.
-/
theorem timerTable_run
    {after : TimerTable Addr Callback}
    {calls : List (TableCall Addr Callback)}
    (run : Run SafeStep init calls after)
    (few : sets calls < 2 ^ 32) :
    after.Valid ∧
      ∀ call,
        after.MallocFresh call →
        sets (calls ++ [call]) < 2 ^ 32 →
        ((∃ next,
            after.step call = .ok next ∧
              next.Valid ∧
              (call = .clearTimer → next.timerArr = [])) ↔
          after.ClearsNothing call) := by
  have start : (init : TimerTable Addr Callback).maxTimerId.toNat = 0 := rfl
  obtain ⟨valid, issued⟩ := valid_init.run run (by omega)
  refine ⟨valid, fun call fresh left => ?_⟩
  constructor
  · rintro ⟨next, returned, _, emptied⟩
    cases call with
    | clearTimer =>
        have empty := emptied rfl
        rw [clearTimer_timerArr returned] at empty
        exact List.map_eq_nil_iff.mp empty
    | setTimer newTimer argsAllocated timeVal callback =>
        trivial
    | updateTimer tId =>
        trivial
    | modifyTimer tId timeout =>
        trivial
    | unsetTimer tId =>
        trivial
    | exeTimerCallback =>
        trivial
  · intro clears
    have counted : sets (calls ++ [call]) = sets calls + sets [call] :=
      List.countP_append
    obtain ⟨next, returned, kept, _⟩ := valid.step fresh clears (by omega)
    refine ⟨next, returned, kept, ?_⟩
    rintro rfl
    have empty : after.timerArr = [] := clears
    rw [clearTimer_timerArr returned, empty]
    rfl

/-- Two timers, of which the first is unset before the next tick. -/
theorem timerTable_run_two :
    ∃ after : TimerTable Nat Unit,
      Run SafeStep init
          [.setTimer (some 7) true 2 (), .setTimer (some 8) true 3 (),
            .unsetTimer 0, .exeTimerCallback] after ∧
        after.timerArr = [⟨1, some 8⟩] ∧
        after.Valid := by
  have run :
      ∃ after : TimerTable Nat Unit,
        Run SafeStep init
            [.setTimer (some 7) true 2 (), .setTimer (some 8) true 3 (),
              .unsetTimer 0, .exeTimerCallback] after ∧
          after.timerArr = [⟨1, some 8⟩] := by
    refine ⟨_, .cons ⟨⟨?_, trivial⟩, rfl⟩ (.cons ⟨⟨?_, trivial⟩, rfl⟩
      (.cons ⟨⟨trivial, trivial⟩, rfl⟩
        (.cons ⟨⟨trivial, trivial⟩, rfl⟩ (.nil _)))), rfl⟩
    · intro addr _
      rfl
    · intro addr isEight
      cases isEight
      rfl
  obtain ⟨after, path, left⟩ := run
  exact ⟨after, path, left, (timerTable_run path (by decide)).1⟩

/-- Clearing a timer: the array points to nothing, and the next tick follows it. -/
theorem clearTimer_leaves_null :
    ∃ set cleared : TimerTable Nat Unit,
      init.step (.setTimer (some 7) true 2 ()) = .ok set ∧
        set.step .clearTimer = .ok cleared ∧
        ¬ cleared.Valid ∧
        cleared.timerArr ≠ [] ∧
        cleared.step .exeTimerCallback = .error .nullPointer := by
  refine ⟨_, _, rfl, rfl, ?_, by decide, rfl⟩
  intro valid
  obtain ⟨addr, timer, points, _⟩ := valid.backed ⟨0, none⟩ (by decide)
  cases points

end TimerTable

end Pma
