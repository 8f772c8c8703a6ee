import Mathlib.Data.List.Basic

namespace Pma

/-!
# Interval timers

`timer/timer.c` keeps the timers of a module in an array of fixed size.  Every
second `exe_timer_callback` counts them down, and a timer that reaches zero is
restarted and its callback runs in a thread of its own.  The used part of the
array is modelled as a list.  Allocation does not fail.
-/

/-- `struct pma_timer`; the callback stands for the function and its argument. -/
structure PmaTimer (Callback : Type) where
  timerId : UInt32
  timeVal : UInt32
  timeout : UInt32
  callback : Callback
  deriving Repr, DecidableEq

/-- The used part of `timer_arr`, and `max_timer_id`. -/
structure TimerArr (Callback : Type) where
  timers : List (PmaTimer Callback)
  maxTimerId : UInt32
  deriving Repr, DecidableEq

/-- `TIMER_MAX_COUNT`. -/
def timerMaxCount : Nat := 100

/-- The `-1` that stands for no timer. -/
def noTimer : UInt32 := 0xFFFFFFFF

namespace TimerArr

variable {Callback : Type}

/-- The array before the first timer is set. -/
def init : TimerArr Callback where
  timers := []
  maxTimerId := 0

/-- `set_timer`: the id of the new timer, or `-1` when the array is full. -/
def setTimer
    (arr : TimerArr Callback)
    (timeVal : UInt32)
    (callback : Callback) : UInt32 × TimerArr Callback :=
  if arr.timers.length = timerMaxCount then
    (noTimer, arr)
  else
    (arr.maxTimerId,
      { timers := arr.timers ++ [⟨arr.maxTimerId, timeVal, timeVal, callback⟩]
        maxTimerId := arr.maxTimerId + 1 })

/-- Restart the first timer with an id. -/
def restartFirst (tId : UInt32) :
    List (PmaTimer Callback) → List (PmaTimer Callback)
  | [] => []
  | timer :: rest =>
      if timer.timerId = tId then
        { timer with timeout := timer.timeVal } :: rest
      else
        timer :: restartFirst tId rest

/-- `update_timer`. -/
def updateTimer (arr : TimerArr Callback) (tId : UInt32) : TimerArr Callback :=
  { arr with timers := restartFirst tId arr.timers }

/-- A timer with a new interval, which also bounds what is left of the old one. -/
def retimed (timeout : UInt32) (timer : PmaTimer Callback) : PmaTimer Callback :=
  { timer with
    timeVal := timeout
    timeout := if timer.timeout > timeout then timeout else timer.timeout }

/-- `modify_timer`: the loop stops at the first timer with the id. -/
def modifyTimer
    (arr : TimerArr Callback)
    (tId timeout : UInt32) : TimerArr Callback :=
  { arr with
    timers :=
      arr.timers.modify
        (arr.timers.findIdx fun timer => timer.timerId = tId)
        (retimed timeout) }

/-- `unset_timer`. -/
def unsetTimer (arr : TimerArr Callback) (tId : UInt32) : TimerArr Callback :=
  { arr with timers := arr.timers.eraseP fun timer => timer.timerId = tId }

/-- Whether the countdown of a timer, which is unsigned, ends with this tick. -/
def fires (timer : PmaTimer Callback) : Bool :=
  timer.timeout - 1 = 0

/-- The countdown of one timer. -/
def countDown (timer : PmaTimer Callback) : PmaTimer Callback :=
  if fires timer then
    { timer with timeout := timer.timeVal }
  else
    { timer with timeout := timer.timeout - 1 }

/-- `exe_timer_callback`: the callbacks whose threads it starts, and the array. -/
def exeTimerCallback (arr : TimerArr Callback) :
    List Callback × TimerArr Callback :=
  ((arr.timers.filter fires).map PmaTimer.callback,
    { arr with timers := arr.timers.map countDown })

/-! ## Which timers there are -/

/-- The ids of the timers that are set. -/
def ids (arr : TimerArr Callback) : List UInt32 :=
  arr.timers.map PmaTimer.timerId

/-- Restarting a timer sets and unsets none. -/
@[simp] theorem ids_updateTimer
    (arr : TimerArr Callback)
    (tId : UInt32) :
    (arr.updateTimer tId).ids = arr.ids := by
  unfold updateTimer ids
  dsimp only
  induction arr.timers with
  | nil =>
      rfl
  | cons timer rest inductionHypothesis =>
      rw [restartFirst]
      split
      · rfl
      · rw [List.map_cons, List.map_cons, inductionHypothesis]

theorem countDown_timerId
    (timer : PmaTimer Callback) :
    (countDown timer).timerId = timer.timerId := by
  unfold countDown
  split
  · rfl
  · rfl

/-- A tick sets and unsets no timer. -/
@[simp] theorem ids_exeTimerCallback
    (arr : TimerArr Callback) :
    arr.exeTimerCallback.2.ids = arr.ids := by
  unfold exeTimerCallback ids
  rw [List.map_map]
  exact List.map_congr_left fun timer _ => countDown_timerId timer

/-- A timer that is set while there is room is added to the array. -/
theorem ids_setTimer
    {arr : TimerArr Callback}
    (room : arr.ids.length < timerMaxCount)
    (timeVal : UInt32)
    (callback : Callback) :
    (arr.setTimer timeVal callback).1 = arr.maxTimerId ∧
      (arr.setTimer timeVal callback).2.ids = arr.ids ++ [arr.maxTimerId] := by
  have notFull : arr.timers.length ≠ timerMaxCount := by
    unfold ids at room
    rw [List.length_map] at room
    exact Nat.ne_of_lt room
  unfold setTimer
  rw [if_neg notFull]
  refine ⟨rfl, ?_⟩
  unfold ids
  simp

/-- Unsetting a timer removes one id. -/
theorem ids_unsetTimer
    (arr : TimerArr Callback)
    (tId : UInt32) :
    (arr.unsetTimer tId).ids = arr.ids.erase tId := by
  unfold unsetTimer ids
  dsimp only
  induction arr.timers with
  | nil =>
      rfl
  | cons timer rest inductionHypothesis =>
      by_cases same : timer.timerId = tId
      · rw [List.eraseP_cons_of_pos (by simpa using same), List.map_cons, same,
          List.erase_cons_head]
      · rw [List.eraseP_cons_of_neg (by simpa using same), List.map_cons,
          List.map_cons, List.erase_cons_tail (by simpa using same),
          inductionHypothesis]

end TimerArr

end Pma
