import Pma.TimerSchedule
import Pma.Transition

namespace Pma

/-!
# The countdown of a timer

A tick takes one from the unsigned remaining time and then compares it with zero.
A timer that has an interval of zero when it ticks counts down from 2^32 - 1.
The vty accepts zero for the snapshot interval, which `snapshoot_sender` sets a
timer with.
-/

/-- `set_dbm_snapshoot_timeval`: its result and the interval that the module is sent. -/
def setDbmSnapshootTimeval (snapshootTimeval val : Int32) : Int32 × Int32 :=
  if val < 0 ∨ val > 60 then (-1, snapshootTimeval) else (0, val)

namespace TimerArr

variable {Callback : Type}

/-- `snapshoot_sender`, with the handle `snapshoot_timer`. -/
def snapshootSender (arr : TimerArr Callback) (snapshootTimer : UInt32) (snapshootTimeval : Int32)
    (sendAllSnapshoot : Callback) : UInt32 × TimerArr Callback :=
  if snapshootTimer = noTimer then
    arr.setTimer snapshootTimeval.toUInt32 sendAllSnapshoot
  else
    (snapshootTimer, arr)

/-- The interval that a call gives to a timer, if it reaches one. -/
def installed (arr : TimerArr Callback) : TimerCall Callback → Option UInt32
  | .setTimer timeVal _ => if arr.timers.length = timerMaxCount then none else some timeVal
  | .modifyTimer tId timeout => if arr.index tId < arr.timers.length then some timeout else none
  | _ => none

/-- A call gives no timer an interval of zero. -/
def InstallsPositive (arr : TimerArr Callback) (next : TimerCall Callback) : Prop :=
  arr.installed next ≠ some 0

instance (arr : TimerArr Callback) (next : TimerCall Callback) :
    Decidable (arr.InstallsPositive next) :=
  inferInstanceAs (Decidable (¬_))

/-- The steps of a module that never installs an interval of zero. -/
abbrev PositiveStep : TimerArr Callback → TimerCall Callback → TimerArr Callback → Prop :=
  Transition.guarded InstallsPositive fun before next after => before.call next = after

end TimerArr

namespace PmaTimer

open TimerArr

variable {Callback : Type}

/-- A countdown that has not ended, and is not longer than the interval. -/
def Pending (timer : PmaTimer Callback) : Prop :=
  1 ≤ timer.timeout.toNat ∧ timer.timeout.toNat ≤ timer.timeVal.toNat

theorem one_le_toNat
    {interval : UInt32}
    (nonzero : interval ≠ 0) :
    1 ≤ interval.toNat := by
  apply Nat.one_le_iff_ne_zero.mpr
  intro zero
  exact nonzero (UInt32.toNat_inj.mp zero)

/-- A countdown that has not ended stays so, unless its interval becomes zero. -/
theorem Pending.after
    {timer : PmaTimer Callback}
    (pending : timer.Pending)
    (event : TimerEvent)
    (positive : event ≠ .modify 0) :
    (timer.after event).Pending := by
  obtain ⟨low, high⟩ := pending
  cases event with
  | tick =>
      change (countDown timer).Pending
      unfold countDown
      split
      · exact ⟨low.trans high, le_refl _⟩
      · next going =>
          have more : timer.timeout.toNat ≠ 1 := fun last => going ((fires_iff timer).mpr last)
          have left : (timer.timeout - 1).toNat = timer.timeout.toNat - 1 :=
            UInt32.toNat_sub_of_le _ _ low
          constructor
          · simp only [left]
            omega
          · simp only [left]
            omega
  | update =>
      exact ⟨low.trans high, le_refl _⟩
  | modify timeout =>
      have nonzero : 1 ≤ timeout.toNat := by
        apply one_le_toNat
        rintro rfl
        exact positive rfl
      change (retimed timeout timer).Pending
      simp only [Pending, retimed]
      split
      · exact ⟨nonzero, le_refl _⟩
      · next below => exact ⟨low, UInt32.not_lt.mp below⟩
  | unset =>
      exact ⟨low, high⟩

end PmaTimer

namespace TimerArr

variable {Callback : Type}

/-- The countdowns of all timers have not ended. -/
def Pending (arr : TimerArr Callback) : Prop :=
  ∀ timer ∈ arr.timers, timer.Pending

theorem forall_modify
    {Item : Type*}
    {holds : Item → Prop}
    {items : List Item}
    (all : ∀ item ∈ items, holds item)
    {place : Nat}
    {change : Item → Item}
    (kept : place < items.length → ∀ item, holds item → holds (change item)) :
    ∀ item ∈ items.modify place change, holds item := by
  intro item member
  obtain ⟨index, listed⟩ := List.mem_iff_getElem?.mp member
  rw [List.getElem?_modify] at listed
  obtain ⟨old, found, rfl⟩ := Option.map_eq_some_iff.mp listed
  have held := all old (List.mem_of_getElem? found)
  split
  · next same =>
      exact kept (same ▸ (List.getElem?_eq_some_iff.mp found).1) old held
  · exact held

/-! ## Runs -/

/-- The step lemma: a step that installs no zero keeps all countdowns. -/
theorem Pending.step
    {before after : TimerArr Callback}
    {next : TimerCall Callback}
    (pending : before.Pending)
    (step : PositiveStep before next after) :
    after.Pending := by
  obtain ⟨positive, rfl⟩ := step
  cases next with
  | setTimer timeVal callback =>
      simp only [InstallsPositive, installed] at positive
      simp only [call, setTimer]
      split
      · exact pending
      · next room =>
          rw [if_neg room] at positive
          have nonzero := PmaTimer.one_le_toNat fun zero => positive (congrArg some zero)
          intro timer member
          rcases List.mem_append.mp member with old | new
          · exact pending timer old
          · rw [List.mem_singleton.mp new]
            exact ⟨nonzero, le_refl _⟩
  | updateTimer tId =>
      simp only [Pending, call, updateTimer, restartFirst_eq_modify]
      apply forall_modify pending
      intro _ timer held
      exact held.after .update (by simp)
  | modifyTimer tId timeout =>
      simp only [InstallsPositive, installed] at positive
      apply forall_modify pending
      intro inside timer held
      apply held.after (.modify timeout)
      rintro ⟨rfl⟩
      exact positive (if_pos inside)
  | unsetTimer tId =>
      intro timer member
      exact pending timer (List.mem_of_mem_eraseP member)
  | exeTimerCallback =>
      intro timer member
      obtain ⟨old, listed, rfl⟩ := List.mem_map.mp member
      exact (pending old listed).after .tick (by simp)

end TimerArr

end Pma
