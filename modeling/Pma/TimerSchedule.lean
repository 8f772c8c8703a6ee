import Mathlib.Data.List.Basic
import Mathlib.Data.Nat.ModEq
import Pma.Timer

namespace Pma

/-!
# When a timer fires

The threads of a module set, restart, change and unset timers between the ticks
of the timer thread, and the array is compacted under them.  One timer is
followed by its place in the array.  What happens to it is a list of events,
and when it fires is a function of that list alone.
-/

/-- The calls of the threads of a module, each of them atomic. -/
inductive TimerCall (Callback : Type) where
  | setTimer (timeVal : UInt32) (callback : Callback)
  | updateTimer (tId : UInt32)
  | modifyTimer (tId timeout : UInt32)
  | unsetTimer (tId : UInt32)
  | exeTimerCallback
  deriving Repr, DecidableEq

/-- What a call is to one timer. -/
inductive TimerEvent where
  | tick
  | update
  | modify (timeout : UInt32)
  | unset
  deriving Repr, DecidableEq

namespace TimerArr

variable {Callback : Type}

/-- Execute one call. -/
def call (arr : TimerArr Callback) : TimerCall Callback → TimerArr Callback
  | .setTimer timeVal callback => (arr.setTimer timeVal callback).2
  | .updateTimer tId => arr.updateTimer tId
  | .modifyTimer tId timeout => arr.modifyTimer tId timeout
  | .unsetTimer tId => arr.unsetTimer tId
  | .exeTimerCallback => arr.exeTimerCallback.2

/-- The entry at which the search for an id stops. -/
def index (arr : TimerArr Callback) (tId : UInt32) : Nat :=
  arr.timers.findIdx fun timer => timer.timerId = tId

/-- What a call is to the timer at a place; a call on another timer is nothing. -/
def event (arr : TimerArr Callback) (place : Nat) :
    TimerCall Callback → Option TimerEvent
  | .setTimer _ _ => none
  | .updateTimer tId =>
      if arr.index tId = place then some .update else none
  | .modifyTimer tId timeout =>
      if arr.index tId = place then some (.modify timeout) else none
  | .unsetTimer tId =>
      if arr.index tId = place then some .unset else none
  | .exeTimerCallback => some .tick

/-- The place after a call: unsetting an earlier timer moves the later ones. -/
def moved (arr : TimerArr Callback) (place : Nat) : TimerCall Callback → Nat
  | .unsetTimer tId => if arr.index tId < place then place - 1 else place
  | _ => place

/-- What happens to the timer at a place until it is unset. -/
def events (arr : TimerArr Callback) (place : Nat) :
    List (TimerCall Callback) → List TimerEvent
  | [] => []
  | next :: rest =>
      match arr.event place next with
      | none => events (arr.call next) (arr.moved place next) rest
      | some .unset => [.unset]
      | some seen => seen :: events (arr.call next) (arr.moved place next) rest

end TimerArr

namespace PmaTimer

open TimerArr

variable {Callback : Type}

/-- `update_timer` on one timer. -/
def restarted (timer : PmaTimer Callback) : PmaTimer Callback :=
  { timer with timeout := timer.timeVal }

/-- A timer after an event that leaves it set. -/
def after (timer : PmaTimer Callback) : TimerEvent → PmaTimer Callback
  | .tick => countDown timer
  | .update => timer.restarted
  | .modify timeout => retimed timeout timer
  | .unset => timer

/-- When a timer fires that is alone in the array. -/
def alone (timer : PmaTimer Callback) : List TimerEvent → List Bool
  | [] => []
  | .tick :: rest => fires timer :: alone (timer.after .tick) rest
  | .unset :: _ => []
  | seen :: rest => alone (timer.after seen) rest

end PmaTimer

/-- When a timer is due: at the multiples of its interval since it was started. -/
def due (interval : Nat) : Nat → List TimerEvent → List Bool
  | _, [] => []
  | elapsed, .tick :: rest =>
      decide (interval ∣ elapsed + 1) :: due interval (elapsed + 1) rest
  | _, .update :: rest => due interval 0 rest
  | elapsed, _ :: rest => due interval elapsed rest

namespace TimerArr

variable {Callback : Type}

/-! ## What one call does to the timer at a place -/

/-- Restarting the first timer with an id writes the entry the search stops at. -/
theorem restartFirst_eq_modify
    (tId : UInt32)
    (timers : List (PmaTimer Callback)) :
    restartFirst tId timers =
      timers.modify (timers.findIdx fun timer => timer.timerId = tId)
        PmaTimer.restarted := by
  induction timers with
  | nil =>
      rfl
  | cons timer rest inductionHypothesis =>
      rw [restartFirst, List.findIdx_cons]
      by_cases same : timer.timerId = tId
      · rw [if_pos same, decide_eq_true same]
        rfl
      · rw [if_neg same, decide_eq_false same, inductionHypothesis]
        rfl

end TimerArr

/-! ## When a timer is due -/

namespace PmaTimer

open TimerArr

variable {Callback : Type}

/-- What is left of the countdown of a timer that was started `elapsed` ticks ago. -/
def Counting
    (interval elapsed : Nat)
    (timer : PmaTimer Callback) : Prop :=
  timer.timeVal.toNat = interval ∧
    timer.timeout.toNat = interval - elapsed % interval

/-- The next tick is a multiple of the interval when the remainder is the last one. -/
theorem dvd_succ_iff
    {interval : Nat}
    (positive : 1 ≤ interval)
    (elapsed : Nat) :
    interval ∣ elapsed + 1 ↔ elapsed % interval + 1 = interval := by
  have below : elapsed % interval < interval := Nat.mod_lt _ positive
  rw [Nat.dvd_iff_mod_eq_zero, ← Nat.mod_add_mod]
  constructor
  · intro whole
    by_contra short
    rw [Nat.mod_eq_of_lt (by omega)] at whole
    omega
  · intro last
    rw [last, Nat.mod_self]

/-- The unsigned countdown ends when one tick is left. -/
theorem fires_iff
    (timer : PmaTimer Callback) :
    fires timer = true ↔ timer.timeout.toNat = 1 := by
  have width : timer.timeout.toNat < 2 ^ 32 := timer.timeout.toNat_lt
  unfold fires
  rw [decide_eq_true_iff, ← UInt32.toNat_inj, UInt32.toNat_sub]
  change (2 ^ 32 - 1 + timer.timeout.toNat) % 2 ^ 32 = 0 ↔ _
  omega

/-- A countdown ends at the multiples of the interval. -/
theorem Counting.fires_eq
    {interval elapsed : Nat}
    {timer : PmaTimer Callback}
    (positive : 1 ≤ interval)
    (counting : timer.Counting interval elapsed) :
    fires timer = decide (interval ∣ elapsed + 1) := by
  have below : elapsed % interval < interval := Nat.mod_lt _ positive
  rw [Bool.eq_iff_iff, fires_iff, decide_eq_true_iff, counting.2,
    dvd_succ_iff positive]
  omega

/-- One tick of a countdown. -/
theorem Counting.tick
    {interval elapsed : Nat}
    {timer : PmaTimer Callback}
    (positive : 1 ≤ interval)
    (counting : timer.Counting interval elapsed) :
    (timer.after .tick).Counting interval (elapsed + 1) := by
  have ends := counting.fires_eq positive
  have below : elapsed % interval < interval := Nat.mod_lt _ positive
  have step : (elapsed + 1) % interval = (elapsed % interval + 1) % interval :=
    (Nat.mod_add_mod elapsed interval 1).symm
  change (countDown timer).Counting interval (elapsed + 1)
  by_cases last : interval ∣ elapsed + 1
  · rw [decide_eq_true last] at ends
    rw [countDown, if_pos ends]
    refine ⟨counting.1, ?_⟩
    rw [Nat.mod_eq_zero_of_dvd last]
    exact counting.1
  · rw [decide_eq_false last] at ends
    rw [countDown, if_neg (by simp [ends])]
    refine ⟨counting.1, ?_⟩
    rw [dvd_succ_iff positive] at last
    rw [step, Nat.mod_eq_of_lt (by omega)]
    change (timer.timeout - 1).toNat = interval - (elapsed % interval + 1)
    have left := counting.2
    have width : timer.timeout.toNat < 2 ^ 32 := timer.timeout.toNat_lt
    rw [UInt32.toNat_sub]
    change (2 ^ 32 - 1 + timer.timeout.toNat) % 2 ^ 32 = _
    omega

end PmaTimer

namespace TimerArr

variable {Callback : Type}

end TimerArr

end Pma
