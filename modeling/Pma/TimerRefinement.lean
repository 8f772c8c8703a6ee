import Pma.TimerTable

namespace Pma

open IntrusiveRing Transition

/-!
# The array of timers as a view of the memory

`Pma.TimerTable` follows the pointers of `timer.c`, and `Pma.Timer` takes the
array for a list of timers.  While the pointers are in order and `malloc` does
not fail, every call does to the list what `Pma.Timer` says.
-/

/-- The call as `Pma.Timer` sees it; clearing an empty array is nothing. -/
def TableCall.seen {Addr Callback : Type} :
    TableCall Addr Callback → Option (TimerCall Callback)
  | .setTimer _ _ timeVal callback => some (.setTimer timeVal callback)
  | .updateTimer tId => some (.updateTimer tId)
  | .modifyTimer tId timeout => some (.modifyTimer tId timeout)
  | .unsetTimer tId => some (.unsetTimer tId)
  | .clearTimer => none
  | .exeTimerCallback => some .exeTimerCallback

namespace TimerArr

variable {Callback : Type}

/-- A change by id writes the timer that the search stops at. -/
theorem modify_split
    {first second : List (PmaTimer Callback)}
    {timer : PmaTimer Callback}
    (earlier : ∀ other ∈ first, other.timerId ≠ timer.timerId)
    (written : PmaTimer Callback → PmaTimer Callback) :
    (first ++ timer :: second).modify
        ((first ++ timer :: second).findIdx fun other => other.timerId = timer.timerId)
        written =
      first ++ written timer :: second := by
  induction first with
  | nil =>
      rw [List.nil_append, List.findIdx_cons, decide_eq_true rfl]
      rfl
  | cons other rest inductionHypothesis =>
      rw [List.forall_mem_cons] at earlier
      rw [List.cons_append, List.findIdx_cons, decide_eq_false earlier.1, cond_false,
        List.modify_succ_cons, inductionHypothesis earlier.2]
      rfl

/-- A change by an id that no timer has writes nothing. -/
theorem modify_absent
    {timers : List (PmaTimer Callback)}
    {tId : UInt32}
    (absent : ∀ timer ∈ timers, timer.timerId ≠ tId)
    (written : PmaTimer Callback → PmaTimer Callback) :
    timers.modify (timers.findIdx fun timer => timer.timerId = tId) written =
      timers := by
  apply List.modify_eq_self
  rw [List.findIdx_eq_length_of_false fun timer member =>
    decide_eq_false (absent timer member)]

end TimerArr

namespace TimerTable

variable {Addr Callback : Type}

/-- The timers that the array points to. -/
def view (table : TimerTable Addr Callback) : TimerArr Callback where
  timers := table.timersOf table.timerArr
  maxTimerId := table.maxTimerId

/-- `malloc` does not fail. -/
def MallocReturns : TableCall Addr Callback → Prop
  | .setTimer newTimer argsAllocated _ _ => newTimer ≠ none ∧ argsAllocated = true
  | _ => True

/-! ## The timers of some entries -/

theorem timersOf_append
    (table : TimerTable Addr Callback)
    (first second : List (TimerEntry Addr)) :
    table.timersOf (first ++ second) = table.timersOf first ++ table.timersOf second :=
  List.filterMap_append

theorem timersOf_cons
    {table : TimerTable Addr Callback}
    {entry : TimerEntry Addr}
    {addr : Addr}
    {timer : PmaTimer Callback}
    (points : entry.timer = some addr)
    (there : table.heap addr = some timer)
    (rest : List (TimerEntry Addr)) :
    table.timersOf (entry :: rest) = timer :: table.timersOf rest := by
  unfold timersOf
  rw [List.filterMap_cons, points, Option.bind_some, there]

/-- The timers have the ids of the entries. -/
theorem timersOf_ids
    {table : TimerTable Addr Callback}
    {entries : List (TimerEntry Addr)}
    (backed : ∀ entry ∈ entries, table.Backed entry) :
    (table.timersOf entries).map PmaTimer.timerId = entries.map TimerEntry.tId := by
  induction entries with
  | nil =>
      rfl
  | cons entry rest inductionHypothesis =>
      rw [List.forall_mem_cons] at backed
      obtain ⟨addr, timer, points, there, same⟩ := backed.1
      rw [timersOf_cons points there, List.map_cons, List.map_cons, same,
        inductionHypothesis backed.2]

/-- The timers depend on the memory that the entries point to. -/
theorem timersOf_congr
    {table other : TimerTable Addr Callback}
    {entries : List (TimerEntry Addr)}
    (same :
      ∀ entry ∈ entries,
        ∀ addr,
          entry.timer = some addr →
          other.heap addr = table.heap addr) :
    other.timersOf entries = table.timersOf entries := by
  apply List.filterMap_congr
  intro entry member
  cases points : entry.timer with
  | none => rfl
  | some addr => exact same entry member addr points

namespace Valid

variable {table : TimerTable Addr Callback}

theorem view_length
    (valid : table.Valid) :
    table.view.timers.length = table.timerArr.length := by
  have ids := congrArg List.length (timersOf_ids valid.backed)
  rw [List.length_map, List.length_map] at ids
  exact ids

/-- No timer of the view has an id that is not found. -/
theorem view_absent
    (valid : table.Valid)
    {tId : UInt32}
    (missing : table.find tId = none) :
    ∀ timer ∈ table.view.timers, timer.timerId ≠ tId := by
  intro timer member same
  have used : tId ∈ table.timerArr.map TimerEntry.tId := by
    rw [← timersOf_ids valid.backed, ← same]
    exact List.mem_map_of_mem member
  obtain ⟨entry, inArr, isId⟩ := List.mem_map.mp used
  exact List.find?_eq_none.mp missing entry inArr (decide_eq_true isId)

/-- The view around the timer with an id that is found. -/
theorem view_split
    (valid : table.Valid)
    {tId : UInt32}
    {entry : TimerEntry Addr}
    (found : table.find tId = some entry) :
    ∃ first second addr timer,
      table.timerArr = first ++ entry :: second ∧
        (table.timerArr.eraseP fun entry => entry.tId = tId) = first ++ second ∧
        entry.timer = some addr ∧
        table.heap addr = some timer ∧
        timer.timerId = tId ∧
        table.view.timers = table.timersOf first ++ timer :: table.timersOf second ∧
        (∀ other ∈ table.timersOf first, other.timerId ≠ timer.timerId) ∧
        ∀ other ∈ first ++ second, other.timer ≠ some addr := by
  obtain ⟨first, second, shape, isId, earlier, erased⟩ := find_split found
  have member : entry ∈ table.timerArr := by
    rw [shape]
    exact List.mem_append_right _ List.mem_cons_self
  obtain ⟨addr, timer, points, there, same⟩ := valid.backed entry member
  refine ⟨first, second, addr, timer, shape, erased, points, there, same.trans isId,
    ?_, ?_, ?_⟩
  · change table.timersOf table.timerArr = _
    rw [shape, timersOf_append, timersOf_cons points there]
  · intro other otherMember otherSame
    have backedFirst : ∀ earlier ∈ first, table.Backed earlier := by
      intro earlier inFirst
      refine valid.backed earlier ?_
      rw [shape]
      exact List.mem_append_left _ inFirst
    have used : other.timerId ∈ first.map TimerEntry.tId := by
      rw [← timersOf_ids backedFirst]
      exact List.mem_map_of_mem otherMember
    obtain ⟨before, inFirst, beforeId⟩ := List.mem_map.mp used
    exact earlier before inFirst
      (beforeId.trans (otherSame.trans (same.trans isId)))
  · have apart := (List.nodup_cons.mp valid.linked.distinct).2
    rw [shape, nodes_append, nodes_cons points, List.nodup_middle, ← nodes_append,
      List.nodup_cons] at apart
    intro other otherMember otherPoints
    exact apart.1 (mem_nodes.mpr ⟨other, otherMember, otherPoints⟩)

variable [DecidableEq Addr]

/-- A write to the timer with an id changes that timer of the view. -/
theorem view_change
    (valid : table.Valid)
    (tId : UInt32)
    (written : PmaTimer Callback → PmaTimer Callback)
    {next : TimerTable Addr Callback}
    (returned : table.change tId written = .ok next) :
    next.view =
      { table.view with
        timers :=
          table.view.timers.modify
            (table.view.timers.findIdx fun timer => timer.timerId = tId) written } := by
  unfold TimerTable.change at returned
  cases found : table.find tId with
  | none =>
      rw [found] at returned
      cases returned
      rw [TimerArr.modify_absent (valid.view_absent found)]
  | some entry =>
      obtain ⟨first, second, addr, timer, shape, -, points, there, isId, split, earlier,
        elsewhere⟩ := valid.view_split found
      rw [found] at returned
      dsimp only at returned
      rw [load_eq_ok points there] at returned
      cases returned
      have stored : (table.store addr (written timer)).heap addr = some (written timer) :=
        Function.update_self ..
      unfold view
      congr 1
      change (table.store addr (written timer)).timersOf table.timerArr = _
      rw [← isId]
      change _ = table.view.timers.modify (table.view.timers.findIdx _) written
      rw [split, TimerArr.modify_split earlier, shape, timersOf_append,
        timersOf_cons points stored,
        timersOf_store fun other member =>
          elsewhere other (List.mem_append_left _ member),
        timersOf_store fun other member =>
          elsewhere other (List.mem_append_right _ member)]

/-- `unset_timer` takes the timer out of the view. -/
theorem view_unsetTimer
    (valid : table.Valid)
    (tId : UInt32)
    {next : TimerTable Addr Callback}
    (returned : table.unsetTimer tId = .ok next) :
    next.view = table.view.unsetTimer tId := by
  unfold TimerTable.unsetTimer at returned
  unfold TimerArr.unsetTimer
  cases found : table.find tId with
  | none =>
      rw [found] at returned
      cases returned
      rw [List.eraseP_of_forall_not]
      intro timer member
      rw [decide_eq_true_iff]
      exact valid.view_absent found timer member
  | some entry =>
      obtain ⟨first, second, addr, timer, shape, erased, points, there, isId, split,
        earlier, elsewhere⟩ := valid.view_split found
      have member : entry ∈ table.timerArr := by
        rw [shape]
        exact List.mem_append_right _ List.mem_cons_self
      obtain ⟨released, pointsAgain, release⟩ := valid.release_eq_ok member
      rw [points] at pointsAgain
      cases pointsAgain
      rw [found] at returned
      dsimp only at returned
      rw [release] at returned
      cases returned
      unfold view
      dsimp only
      rw [erased]
      congr 1
      change _ = table.view.timers.eraseP fun timer => timer.timerId = tId
      have kept :
          TimerTable.timersOf
              { table with
                timerArr := first ++ second
                heap := Function.update table.heap addr none
                links := table.links.unlink (.timer addr) } (first ++ second) =
            table.timersOf (first ++ second) := by
        refine timersOf_congr fun other member found pointsFound =>
          Function.update_of_ne ?_ _ _
        rintro rfl
        exact elsewhere other member pointsFound
      have matched : decide (timer.timerId = tId) = true := decide_eq_true isId
      rw [kept, timersOf_append, split, List.eraseP_append_right,
        List.eraseP_cons_of_pos
          (p := fun (timer : PmaTimer Callback) => timer.timerId = tId) matched]
      intro other member
      rw [← isId, decide_eq_true_iff]
      exact earlier other member

/-- `set_timer` adds the timer to the view. -/
theorem view_setTimer
    (valid : table.Valid)
    {newTimer : Option Addr}
    {argsAllocated : Bool}
    (fresh : ∀ addr, newTimer = some addr → table.heap addr = none)
    (returns : newTimer ≠ none ∧ argsAllocated = true)
    {timeVal : UInt32}
    {callback : Callback}
    {next : TimerTable Addr Callback}
    (returned : table.setTimer newTimer argsAllocated timeVal callback = .ok next) :
    next.view = (table.view.setTimer timeVal callback).2 := by
  unfold TimerTable.setTimer at returned
  unfold TimerArr.setTimer
  rw [valid.view_length]
  by_cases full : table.timerArr.length = timerMaxCount
  · rw [if_pos full] at returned ⊢
    cases returned
    rfl
  · rw [if_neg full] at returned ⊢
    obtain ⟨addr, rfl⟩ := Option.ne_none_iff_exists'.mp returns.1
    let timer : PmaTimer Callback := ⟨table.maxTimerId, timeVal, timeVal, callback⟩
    have touched := valid.touch_stored addr timer valid.linked.prev_head_mem
    dsimp only at returned
    rw [if_pos returns.2] at returned
    change ((table.store addr timer).listAddTail addr >>= fun linked => _) = _ at returned
    rw [listAddTail_eq_ok touched] at returned
    cases returned
    have elsewhere : ∀ entry ∈ table.timerArr, entry.timer ≠ some addr := by
      intro entry member points
      obtain ⟨found, current, pointsFound, there, -⟩ := valid.backed entry member
      rw [points] at pointsFound
      cases pointsFound
      rw [fresh addr rfl] at there
      cases there
    have stored : (table.store addr timer).heap addr = some timer :=
      Function.update_self ..
    unfold view
    congr 1
    change (table.store addr timer).timersOf (table.timerArr ++ [_]) = _
    rw [timersOf_append, timersOf_store elsewhere, timersOf_cons rfl stored]
    rfl

/-- A tick counts the timers of the view down and starts the callbacks of those that fire. -/
theorem view_exeTimerCallback
    (valid : table.Valid)
    {started : List Callback}
    {next : TimerTable Addr Callback}
    (returned : table.exeTimerCallback = .ok (started, next)) :
    (started, next.view) = table.view.exeTimerCallback := by
  rw [valid.exeTimerCallback] at returned
  cases returned
  unfold TimerArr.exeTimerCallback
  congr 1
  unfold view
  congr 1
  change (table.ticked table.timerArr).timersOf table.timerArr = _
  unfold timersOf
  rw [List.map_filterMap]
  apply List.filterMap_congr
  intro entry member
  cases points : entry.timer with
  | none =>
      rfl
  | some addr =>
      exact if_pos (mem_nodes.mpr ⟨entry, member, points⟩)

/-- The step lemma: a call does to the view what `Pma.Timer` says. -/
theorem view_step
    (valid : table.Valid)
    {call : TableCall Addr Callback}
    (fresh : table.MallocFresh call)
    (clears : table.ClearsNothing call)
    (returns : MallocReturns call)
    {next : TimerTable Addr Callback}
    (returned : table.step call = .ok next) :
    next.view = call.seen.elim table.view table.view.call := by
  cases call with
  | setTimer newTimer argsAllocated timeVal callback =>
      exact valid.view_setTimer fresh returns returned
  | updateTimer tId =>
      refine (valid.view_change tId PmaTimer.restarted returned).trans ?_
      rw [← TimerArr.restartFirst_eq_modify]
      rfl
  | modifyTimer tId timeout =>
      exact valid.view_change tId (TimerArr.retimed timeout) returned
  | unsetTimer tId =>
      exact valid.view_unsetTimer tId returned
  | clearTimer =>
      have empty : table.timerArr = [] := clears
      have cleared : table.step .clearTimer = .ok table := by
        cases table
        subst empty
        rfl
      rw [cleared] at returned
      cases returned
      rfl
  | exeTimerCallback =>
      obtain ⟨⟨started, ticked⟩, tick, done⟩ := bind_eq_ok.mp returned
      cases done
      exact congrArg Prod.snd (valid.view_exeTimerCallback tick)

end Valid

/-- The steps of a run in which `malloc` does not fail, either. -/
abbrev ReturningStep [DecidableEq Addr] :
    TimerTable Addr Callback →
      TableCall Addr Callback → TimerTable Addr Callback → Prop :=
  guarded (fun _ call => MallocReturns call) SafeStep

/-- The run lemma: the array in memory is the array of `Pma.Timer` after the same calls. -/
theorem view_run
    [DecidableEq Addr]
    {before after : TimerTable Addr Callback}
    {calls : List (TableCall Addr Callback)}
    (run : Run ReturningStep before calls after)
    (valid : before.Valid)
    (left : before.maxTimerId.toNat + sets calls < 2 ^ 32) :
    after.view = (calls.filterMap TableCall.seen).foldl TimerArr.call before.view := by
  induction run with
  | nil table =>
      rfl
  | @cons before middle after call calls first rest inductionHypothesis =>
      obtain ⟨returns, ⟨fresh, clears⟩, stepped⟩ := first
      have returned : before.step call = .ok middle := stepped
      rw [sets_cons] at left
      obtain ⟨next, returnedNext, kept, bound⟩ := valid.step fresh clears (by omega)
      rw [returned] at returnedNext
      cases returnedNext
      rw [inductionHypothesis kept (by omega),
        valid.view_step fresh clears returns returned, List.filterMap_cons]
      cases call.seen with
      | none => rfl
      | some seen => rfl

end TimerTable

end Pma
