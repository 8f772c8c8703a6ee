import Pma.Fah
import Pma.Transition
import Pma.Truncation

namespace Pma

open Transition Truncation

/-!
# Adjusting the dead timers

`recompute_dead_timer` notes the time when an interface is adjusted for the first
time, and subtracts from later dead values what has passed since.  It does so
with unsigned numbers of 32 bits, and a time of zero stands for no time.
-/

/-- The calls that concern the dead timers; a computation replaces the areas. -/
inductive FahTimerCall where
  | recomputeDeadTimer (ifid : Int32) (deadValue : UInt32) (timenow : Timeval)
  | fahSetDefaultTimer (link : DbmLink)
  | pathComputeStart (areas : List FahArea)

/-- The variables, and when each interface was first adjusted since it was last reset. -/
structure Adjusting where
  fah : FahState
  first : Int32 → Option Timeval

namespace Adjusting

/-- Before any call. -/
def start (policyTable : PolicyTable) : Adjusting where
  fah :=
    { areas := none
      isRouterNeedProtect := false
      deadTimer := .replicate maxInterfaceNum ⟨0, 0⟩
      policyTable := policyTable }
  first := fun _ => none

/-- Whether `fah_set_default_timer` comes to the reset. -/
def finds (state : Adjusting) (link : DbmLink) : Bool :=
  (state.fah.areas.bind (FahArea.getAreaByAreaid · link.areaid)).isSome

/-- One call. -/
def step (state : Adjusting) : FahTimerCall → Except FahFault Adjusting
  | .recomputeDeadTimer ifid deadValue timenow =>
      (Pma.recomputeDeadTimer state.fah.deadTimer ifid deadValue timenow).map
        fun (_, deadTimer) =>
          { fah := { state.fah with deadTimer := deadTimer }
            first := Function.update state.first ifid ((state.first ifid).or (some timenow)) }
  | .fahSetDefaultTimer link =>
      (state.fah.fahSetDefaultTimer link).map fun (fah, _) =>
        { fah := fah
          first :=
            if state.finds link = true then
              Function.update state.first link.ifid.toInt32 none
            else
              state.first }
  | .pathComputeStart areas => .ok { state with fah := { state.fah with areas := some areas } }

/-- The microseconds from one time to another. -/
def elapsed (timenow first : Timeval) : Int :=
  1000000 * (timenow.tvSec - first.tvSec) + (timenow.tvUsec - first.tvUsec)

/-- The dead value to be returned. -/
def expected (state : Adjusting) (ifid : Int32) (deadValue : UInt32) (timenow : Timeval) : Int :=
  match state.first ifid with
  | none => deadValue.toNat
  | some first => max 0 (deadValue.toNat - elapsed timenow first)

/-- It is returned. -/
def Adjusts (state : Adjusting) (ifid : Int32) (deadValue : UInt32) (timenow : Timeval) : Prop :=
  ∃ value deadTimer,
    Pma.recomputeDeadTimer state.fah.deadTimer ifid deadValue timenow = .ok (value, deadTimer) ∧
      value.toNat = state.expected ifid deadValue timenow

/-- The interface is one of the array, and is not first adjusted at the time zero. -/
def Inside (state : Adjusting) : FahTimerCall → Prop
  | .recomputeDeadTimer ifid _ timenow =>
      (0 ≤ ifid.toInt ∧ ifid.toInt < maxInterfaceNum) ∧
        (state.first ifid = none → timenow ≠ ⟨0, 0⟩)
  | .fahSetDefaultTimer link =>
      state.finds link = true →
      0 ≤ link.ifid.toInt32.toInt ∧ link.ifid.toInt32.toInt < maxInterfaceNum
  | .pathComputeStart _ => True

/--
What is left of the dead value is a number of 32 bits, or nothing is left and
what has passed beyond it is a multiple of `2 ^ 32`.
-/
def Fits (state : Adjusting) (ifid : Int32) (deadValue : UInt32) (timenow : Timeval) : Prop :=
  ∀ first,
    state.first ifid = some first →
    0 ≤ deadValue.toNat - elapsed timenow first ∧
        deadValue.toNat - elapsed timenow first < 2 ^ 32 ∨
      deadValue.toNat - elapsed timenow first < 0 ∧
        (2 ^ 32 : Int) ∣ deadValue.toNat - elapsed timenow first

/-- The array holds the times of the first adjustments, and zero without one. -/
def Tracks (state : Adjusting) : Prop :=
  ∀ ifid place,
    deadTimerPlace ifid = some place →
    state.fah.deadTimer.get place = (state.first ifid).getD ⟨0, 0⟩ ∧
      state.first ifid ≠ some ⟨0, 0⟩

/-! ## One call -/

section

variable
  {state after : Adjusting} {ifid other : Int32} {place : Fin maxInterfaceNum}
  {deadValue : UInt32} {timenow first time : Timeval} {deadTimer : DeadTimer}

theorem deadTimerPlace_of_inside
    (inside : 0 ≤ ifid.toInt ∧ ifid.toInt < maxInterfaceNum) :
    ∃ place, deadTimerPlace ifid = some place := by
  unfold deadTimerPlace
  rw [dif_pos inside]
  exact ⟨_, rfl⟩

/-- Different interfaces have different places. -/
theorem deadTimerPlace_injective
    (isPlace : deadTimerPlace ifid = some place)
    (alsoPlace : deadTimerPlace other = some place) :
    ifid = other := by
  unfold deadTimerPlace at isPlace alsoPlace
  split at isPlace
  · next inside =>
      split at alsoPlace
      · next alsoInside =>
          have same := congrArg Fin.val (Option.some.inj (isPlace.trans alsoPlace.symm))
          dsimp only at same
          exact Int32.toInt_inj.mp (by omega)
      · cases alsoPlace
  · cases isPlace

/-- One element of the array is written. -/
theorem get_set
    (isPlace : deadTimerPlace ifid = some place)
    {target : Fin maxInterfaceNum}
    (isTarget : deadTimerPlace other = some target) :
    (deadTimer.set place time place.isLt).get target =
      if other = ifid then time else deadTimer.get target := by
  change (deadTimer.set place time place.isLt)[target] =
    if other = ifid then time else deadTimer[target]
  rw [Fin.getElem_fin, Fin.getElem_fin, Vector.getElem_set]
  by_cases same : other = ifid
  · subst same
    rw [isPlace] at isTarget
    cases isTarget
    rw [if_pos rfl, if_pos rfl]
  · have apart : (place : Nat) ≠ target := by
      intro equal
      cases Fin.ext equal
      exact same (deadTimerPlace_injective isTarget isPlace)
    rw [if_neg same]
    exact if_neg apart

/-- One time is written, in the array and beside it. -/
theorem Tracks.set
    (tracks : state.Tracks)
    (isPlace : deadTimerPlace ifid = some place)
    {value : Option Timeval}
    (notZero : value ≠ some ⟨0, 0⟩) :
    Tracks
      { fah :=
          { state.fah with
            deadTimer := state.fah.deadTimer.set place (value.getD ⟨0, 0⟩) place.isLt }
        first := Function.update state.first ifid value } := by
  intro other target isTarget
  obtain ⟨held, otherNotZero⟩ := tracks other target isTarget
  dsimp only
  rw [get_set isPlace isTarget, Function.update_apply]
  by_cases same : other = ifid
  · rw [if_pos same, if_pos same]
    exact ⟨rfl, notZero⟩
  · rw [if_neg same, if_neg same]
    exact ⟨held, otherNotZero⟩

/-- What is subtracted is what has passed, modulo `2 ^ 32`. -/
theorem toNat_sub_usecPassed :
    ((deadValue - usecPassed timenow first).toNat : Int) =
      (deadValue.toNat - elapsed timenow first) % 2 ^ 32 := by
  have passed : ((usecPassed timenow first).toNat : Int) = elapsed timenow first % 2 ^ 32 := by
    unfold usecPassed elapsed
    rw [toNat_ofInt32, Int.add_sub_assoc]
  have small := (usecPassed timenow first).toNat_lt
  rw [UInt32.toNat_sub]
  omega

/-- The two branches for what is left come to the same. -/
theorem ite_pos_zero
    (number : UInt32) :
    (if number > 0 then number else 0) = number := by
  split
  · rfl
  · next none =>
      exact (UInt32.le_zero_iff.mp (UInt32.not_lt.mp none)).symm

/-- Without a first adjustment the time is noted. -/
theorem recompute_first
    (tracks : state.Tracks)
    (isPlace : deadTimerPlace ifid = some place)
    (isFirst : state.first ifid = none) :
    Pma.recomputeDeadTimer state.fah.deadTimer ifid deadValue timenow =
      .ok (deadValue, state.fah.deadTimer.set place timenow place.isLt) := by
  have zero := (tracks ifid place isPlace).1
  rw [isFirst] at zero
  have inside : ¬ifid.toInt > maxInterfaceNum :=
    Int.not_lt.mpr (Int.le_of_lt (deadTimerPlace_inside isPlace).2)
  unfold Pma.recomputeDeadTimer
  rw [if_neg inside, isPlace]
  dsimp only
  rw [zero]
  rfl

/-- With one the difference is returned, whatever it is. -/
theorem recompute_later
    (tracks : state.Tracks)
    (isPlace : deadTimerPlace ifid = some place)
    (isFirst : state.first ifid = some first) :
    Pma.recomputeDeadTimer state.fah.deadTimer ifid deadValue timenow =
      .ok (deadValue - usecPassed timenow first, state.fah.deadTimer) := by
  obtain ⟨held, notZero⟩ := tracks ifid place isPlace
  rw [isFirst] at held notZero
  have isTime : ¬(first.tvSec = 0 ∧ first.tvUsec = 0) := by
    rintro ⟨sec, usec⟩
    refine notZero (congrArg some ?_)
    cases first
    cases sec
    cases usec
    rfl
  have inside : ¬ifid.toInt > maxInterfaceNum :=
    Int.not_lt.mpr (Int.le_of_lt (deadTimerPlace_inside isPlace).2)
  unfold Pma.recomputeDeadTimer
  rw [if_neg inside, isPlace]
  dsimp only
  rw [held, Option.getD_some, if_neg isTime, ite_pos_zero]

/-- A call keeps track of the times. -/
theorem step_tracks
    {call : FahTimerCall}
    (tracks : state.Tracks)
    (inside : state.Inside call)
    (stepped : state.step call = .ok after) :
    after.Tracks := by
  cases call with
  | recomputeDeadTimer ifid deadValue timenow =>
      obtain ⟨⟨value, deadTimer⟩, recomputed, rfl⟩ := Loops.map_eq_ok.mp stepped
      obtain ⟨place, isPlace⟩ := deadTimerPlace_of_inside inside.1
      dsimp only
      cases isFirst : state.first ifid with
      | none =>
          rw [recompute_first tracks isPlace isFirst] at recomputed
          cases recomputed
          rw [Option.none_or]
          exact tracks.set isPlace fun zero => inside.2 isFirst (Option.some.inj zero)
      | some first =>
          rw [recompute_later tracks isPlace isFirst] at recomputed
          cases recomputed
          rw [Option.some_or, ← isFirst, Function.update_eq_self]
          exact tracks
  | fahSetDefaultTimer link =>
      obtain ⟨⟨fah, sends⟩, reset, rfl⟩ := Loops.map_eq_ok.mp stepped
      unfold FahState.fahSetDefaultTimer at reset
      have finds : state.finds link =
        (state.fah.areas.bind (FahArea.getAreaByAreaid · link.areaid)).isSome := rfl
      split at reset
      · next unknown =>
          rw [unknown] at finds
          cases reset
          dsimp only
          rw [if_neg (by rw [finds]; exact Bool.false_ne_true)]
          exact tracks
      · next az known =>
          rw [known] at finds
          have finds : state.finds link = true := finds
          obtain ⟨place, isPlace⟩ := deadTimerPlace_of_inside (inside finds)
          dsimp only at reset
          rw [isPlace] at reset
          cases reset
          dsimp only
          rw [if_pos finds]
          have cleared : (none : Option Timeval) ≠ some ⟨0, 0⟩ := fun same => nomatch same
          exact tracks.set isPlace cleared
  | pathComputeStart areas =>
      cases stepped
      exact tracks

theorem start_tracks
    (policyTable : PolicyTable) :
    (start policyTable).Tracks := by
  intro ifid place _
  refine ⟨?_, fun none => nomatch none⟩
  change (Vector.replicate maxInterfaceNum (⟨0, 0⟩ : Timeval))[place] = ⟨0, 0⟩
  rw [Fin.getElem_fin, Vector.getElem_replicate]

/-- Along any calls. -/
theorem run_tracks
    {policyTable : PolicyTable}
    {calls : List FahTimerCall}
    (run : Run (guarded Inside (ofPartial step)) (start policyTable) calls state) :
    state.Tracks :=
  run.invariant Tracks
    (fun tracks stepped => step_tracks tracks stepped.1 stepped.2)
    (start_tracks policyTable)

end

/--
After any calls for interfaces of the array, of which none is first adjusted at
the time zero, a call returns the right dead value exactly if what is left fits.
-/
theorem adjusts_iff
    {policyTable : PolicyTable}
    {calls : List FahTimerCall}
    {state : Adjusting}
    (run : Run (guarded Inside (ofPartial step)) (start policyTable) calls state)
    (ifid : Int32)
    (deadValue : UInt32)
    (timenow : Timeval)
    (inside : state.Inside (.recomputeDeadTimer ifid deadValue timenow)) :
    state.Adjusts ifid deadValue timenow ↔ state.Fits ifid deadValue timenow := by
  have tracks := run_tracks run
  obtain ⟨place, isPlace⟩ := deadTimerPlace_of_inside inside.1
  unfold Adjusts expected Fits
  cases isFirst : state.first ifid with
  | none =>
      rw [recompute_first tracks isPlace isFirst]
      exact iff_of_true ⟨deadValue, _, rfl, rfl⟩ fun first none => nomatch none
  | some first =>
      have left : ((deadValue - usecPassed timenow first).toNat : Int) = _ :=
        toNat_sub_usecPassed
      rw [recompute_later tracks isPlace isFirst]
      constructor
      · rintro ⟨value, deadTimer, returned, right⟩ other same
        cases same
        cases returned
        dsimp only at right
        rw [left] at right
        omega
      · intro fits
        refine ⟨_, _, rfl, ?_⟩
        have fits := fits first rfl
        dsimp only
        rw [left]
        omega

/-- Interface 7 was adjusted after 1000 seconds. -/
def onceAdjusted : Adjusting where
  fah :=
    { (start .init).fah with
      deadTimer := (start .init).fah.deadTimer.set 7 ⟨1000, 0⟩ (by decide) }
  first := Function.update (fun _ => none) 7 (some ⟨1000, 0⟩)

theorem onceAdjusted_run :
    Run (guarded Inside (ofPartial step)) (start .init)
      [.recomputeDeadTimer 7 40000000 ⟨1000, 0⟩] onceAdjusted :=
  .cons ⟨⟨by decide, fun _ => by decide⟩, rfl⟩ (.nil _)

/-- Ten seconds later the dead value is reduced by them. -/
theorem onceAdjusted_adjusts : onceAdjusted.Adjusts 7 40000000 ⟨1010, 0⟩ := by
  refine (adjusts_iff onceAdjusted_run 7 40000000 ⟨1010, 0⟩
    ⟨by decide, fun _ => by decide⟩).mpr fun first isFirst => ?_
  cases isFirst
  decide

/-- When more time has passed than there was, the value is one of more than an hour. -/
theorem onceAdjusted_too_late :
    ∃ state,
      Run (guarded Inside (ofPartial step)) (start .init)
          [.recomputeDeadTimer 7 40000000 ⟨1000, 0⟩] state ∧
        ¬state.Adjusts 7 40000000 ⟨1041, 0⟩ := by
  refine ⟨onceAdjusted, onceAdjusted_run, ?_⟩
  rintro ⟨value, deadTimer, returned, right⟩
  have wrapped :
      recomputeDeadTimer onceAdjusted.fah.deadTimer 7 40000000 ⟨1041, 0⟩ =
        .ok (4293967296, onceAdjusted.fah.deadTimer) := rfl
  rw [wrapped] at returned
  cases returned
  exact absurd right (by decide)

end Adjusting

end Pma
