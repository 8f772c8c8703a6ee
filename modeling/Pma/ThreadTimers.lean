import Pma.ThreadRuns

namespace Pma.Threads

open Transition

/-!
# Timers of the scheduler

The times of timers are sorted as long as all times lie in one era, which is as
long as the `int` that `timeval_cmp` returns can count.  Then the earliest timer
is fetched first, and none before its time.
-/

variable {Func Arg : Type}

/-! ## Times -/

namespace Timeval

/-- A time in microseconds. -/
def usecs (time : Timeval) : Int :=
  time.tvSec * timerSecondMicro + time.tvUsec

/-- The microseconds make less than a second. -/
def Normal (time : Timeval) : Prop :=
  0 ≤ time.tvUsec ∧ time.tvUsec < timerSecondMicro

/-- A time within `2 ^ 31` seconds from `base` on. -/
structure InEra (base : Int) (time : Timeval) : Prop where
  normal : time.Normal
  lower : base ≤ time.tvSec
  upper : time.tvSec < base + 2147483648

end Timeval

theorem usecs_deadline
    (timerNow : Timeval)
    (microsecends : UInt64) :
    (deadline timerNow microsecends).usecs = timerNow.usecs + microsecends.toNat := by
  simp only [deadline, Timeval.usecs, timerSecondMicro]
  omega

/-- In an era `timeval_cmp` returns the difference that it computes. -/
theorem toInt_timevalCmp
    {base : Int}
    {a b : Timeval}
    (first : a.InEra base)
    (second : b.InEra base) :
    (timevalCmp a b).toInt =
      if a.tvSec = b.tvSec then a.tvUsec - b.tvUsec else a.tvSec - b.tvSec := by
  obtain ⟨⟨lowerA, upperA⟩, fromA, toA⟩ := first
  obtain ⟨⟨lowerB, upperB⟩, fromB, toB⟩ := second
  simp only [timerSecondMicro] at upperA upperB
  unfold timevalCmp
  apply Int32.toInt_ofInt_of_le
  · split <;> omega
  · split <;> omega

/-- Its sign says which time is earlier. -/
theorem timevalCmp_nonpos_iff
    {base : Int}
    {a b : Timeval}
    (first : a.InEra base)
    (second : b.InEra base) :
    timevalCmp a b ≤ 0 ↔ a.usecs ≤ b.usecs := by
  have value := toInt_timevalCmp first second
  obtain ⟨⟨lowerA, upperA⟩, _, _⟩ := first
  obtain ⟨⟨lowerB, upperB⟩, _, _⟩ := second
  rw [Int32.le_iff_toInt_le, value, Int32.toInt_zero]
  simp only [Timeval.usecs, timerSecondMicro] at upperA upperB ⊢
  split <;> omega

theorem timevalCmp_nonneg_iff
    {base : Int}
    {a b : Timeval}
    (first : a.InEra base)
    (second : b.InEra base) :
    timevalCmp a b ≥ 0 ↔ b.usecs ≤ a.usecs := by
  have value := toInt_timevalCmp first second
  obtain ⟨⟨lowerA, upperA⟩, _, _⟩ := first
  obtain ⟨⟨lowerB, upperB⟩, _, _⟩ := second
  rw [ge_iff_le, Int32.le_iff_toInt_le, value, Int32.toInt_zero]
  simp only [Timeval.usecs, timerSecondMicro] at upperA upperB ⊢
  split <;> omega

/-- The loops of `timeval_adjust` carry what is missing to a second. -/
theorem carried_spec
    {a : Timeval}
    (lower : -timerSecondMicro < a.tvUsec)
    (upper : a.tvUsec < timerSecondMicro) :
    (carryDown (carryUp a)).Normal ∧ (carryDown (carryUp a)).usecs = a.usecs := by
  have up : carryUp a = a := by
    rw [carryUp, if_neg (not_le.mpr upper)]
  rw [up, carryDown]
  by_cases negative : a.tvUsec < 0
  · have enough : ¬ a.tvUsec + timerSecondMicro < 0 := by
      omega
    rw [if_pos negative, carryDown, if_neg enough]
    simp only [Timeval.Normal, Timeval.usecs, timerSecondMicro] at *
    omega
  · rw [if_neg negative]
    exact ⟨⟨not_lt.mp negative, upper⟩, rfl⟩

/-- The bounds that `timeval_adjust` sets behind its loops. -/
theorem timevalAdjust_spec
    {a : Timeval}
    (normal : (carryDown (carryUp a)).Normal) :
    0 ≤ (timevalAdjust a).tvSec ∧ (timevalAdjust a).Normal ∧
      (timevalAdjust a).usecs ≤ max (carryDown (carryUp a)).usecs 10 ∧
      min (carryDown (carryUp a)).usecs 1000000000000 ≤ (timevalAdjust a).usecs := by
  unfold timevalAdjust
  generalize carryDown (carryUp a) = c at normal ⊢
  obtain ⟨lower, upper⟩ := normal
  simp only [Timeval.Normal, Timeval.usecs, timerSecondMicro] at upper ⊢
  by_cases late : c.tvSec < 0
  · have short : ¬ (0 : Int) > 1000000 := by
      omega
    simp only [late, short, if_true, if_false]
    omega
  · by_cases far : c.tvSec > 1000000
    · simp only [late, far, if_true, if_false]
      omega
    · simp only [late, far, if_false]
      omega

/-- What `timeval_subtract` answers is a time that `select` takes, and not too long. -/
theorem timevalSubtract_spec
    {a b : Timeval}
    (first : a.Normal)
    (second : b.Normal) :
    0 ≤ (timevalSubtract a b).tvSec ∧ (timevalSubtract a b).Normal ∧
      (timevalSubtract a b).usecs ≤ max (a.usecs - b.usecs) 10 ∧
      min (a.usecs - b.usecs) 1000000000000 ≤ (timevalSubtract a b).usecs := by
  obtain ⟨lowerA, upperA⟩ := first
  obtain ⟨lowerB, upperB⟩ := second
  let difference : Timeval := { tvSec := a.tvSec - b.tvSec, tvUsec := a.tvUsec - b.tvUsec }
  obtain ⟨normal, same⟩ : (carryDown (carryUp difference)).Normal ∧
      (carryDown (carryUp difference)).usecs = difference.usecs := by
    apply carried_spec
    · change -timerSecondMicro < a.tvUsec - b.tvUsec
      omega
    · change a.tvUsec - b.tvUsec < timerSecondMicro
      omega
  have adjusted := timevalAdjust_spec normal
  have value : difference.usecs = a.usecs - b.usecs := by
    simp only [difference, Timeval.usecs, timerSecondMicro]
    omega
  rw [same, value] at adjusted
  exact adjusted

/-! ## Sorted timers -/

/-- The time of every timer lies in the era, and the timers are sorted. -/
structure Agenda.Sorted (base : Int) (a : Agenda Func Arg) : Prop where
  times : ∀ thread ∈ a.queue .timer, ∃ time, a.time thread = some time ∧ time.InEra base
  order :
    (a.queue .timer).Pairwise fun first second =>
      ∀ one ∈ a.time first, ∀ other ∈ a.time second, one.usecs ≤ other.usecs

/-- The times of a call lie in the era. -/
def Timely (base : Int) : Call Func Arg → Prop
  | .addTimerHighResolution _ _ microsecends timerNow =>
      (deadline timerNow microsecends).InEra base
  | .addTimer _ _ timer timerNow =>
      (deadline timerNow (UInt64.ofInt (timer * timerSecondMicro))).InEra base
  | .fetch passes => ∀ pass ∈ passes, pass.timerNow.InEra base ∧ pass.waitNow.InEra base
  | _ => True

namespace Agenda

variable
  {base : Int}
  {a after : Agenda Func Arg}
  {list : ThreadType}
  {thread : ThreadId}

namespace Sorted

/-- Some of the timers, in the order they had. -/
theorem sublist
    (sorted : Sorted base a)
    (job : after.job = a.job)
    (sub : (after.queue .timer).Sublist (a.queue .timer)) :
    Sorted base after := by
  have time : after.time = a.time := by
    unfold Agenda.time
    rw [job]
  refine ⟨?_, ?_⟩
  · intro thread member
    rw [time]
    exact sorted.times thread (sub.subset member)
  · rw [time]
    exact sorted.order.sublist sub

/-- An addition leaves the times of those that wait. -/
theorem time_add
    {job : Job Func Arg}
    {parts : List ThreadId × List ThreadId}
    (wellFormed : a.WellFormed)
    (member : thread ∈ a.queue .timer) :
    (a.add list job parts).time thread = a.time thread := by
  unfold Agenda.time
  rw [job_add_other]
  rintro rfl
  apply fresh_off wellFormed .timer
  rwa [queue_take a (by decide)]

/-- A thread is added that is no timer. -/
theorem addOther
    {job : Job Func Arg}
    {parts : List ThreadId × List ThreadId}
    (sorted : Sorted base a)
    (wellFormed : a.WellFormed)
    (notTimer : ThreadType.timer ≠ list) :
    Sorted base (a.add list job parts) := by
  have queue : (a.add list job parts).queue .timer = a.queue .timer := by
    rw [queue_add_other a notTimer, queue_take a (by decide)]
  refine ⟨?_, ?_⟩
  · intro thread member
    rw [queue] at member
    rw [time_add wellFormed member]
    exact sorted.times thread member
  · rw [queue]
    apply sorted.order.imp_of_mem
    intro first second inFirst inSecond ordered
    rw [time_add wellFormed inFirst, time_add wellFormed inSecond]
    exact ordered

/-- In an era a new timer goes before those that are not earlier. -/
theorem isBefore_iff
    {sands time : Timeval}
    (isTime : a.time thread = some time)
    (inEra : time.InEra base)
    (new : sands.InEra base) :
    a.isBefore thread sands = true ↔ sands.usecs ≤ time.usecs := by
  unfold isBefore
  rw [isTime, Option.any_some, decide_eq_true_iff]
  exact timevalCmp_nonpos_iff new inEra

/-- A timer is added. -/
theorem addTimer
    {func : Func}
    {arg : Option Arg}
    {sands : Timeval}
    (sorted : Sorted base a)
    (wellFormed : a.WellFormed)
    (new : sands.InEra base) :
    Sorted base (a.addTimer func arg sands) := by
  let earlier := (a.queue .timer).takeWhile fun thread => !a.isBefore thread sands
  let later := (a.queue .timer).dropWhile fun thread => !a.isBefore thread sands
  have parts : earlier ++ later = a.queue .timer := List.takeWhile_append_dropWhile ..
  have queue : (a.addTimer func arg sands).queue .timer = earlier ++ a.fresh :: later := by
    unfold Agenda.addTimer
    rw [queue_add_self, List.span_eq_takeWhile_dropWhile]
  have fresh : (a.addTimer func arg sands).time a.fresh = some sands := by
    unfold Agenda.addTimer Agenda.time
    rw [job_add_fresh]
  have old {thread : ThreadId} (member : thread ∈ earlier ++ later) :
      (a.addTimer func arg sands).time thread = a.time thread := by
    rw [parts] at member
    exact time_add wellFormed member
  have order := sorted.order
  have times := sorted.times
  rw [← parts] at order times
  obtain ⟨orderEarlier, orderLater, across⟩ := List.pairwise_append.mp order
  have isEarlier : ∀ thread ∈ earlier, ∀ time ∈ a.time thread, time.usecs ≤ sands.usecs := by
    intro thread member time isTime
    obtain ⟨_, isSame, inEra⟩ := times thread (List.mem_append_left _ member)
    cases isSame.symm.trans isTime
    have notBefore := List.mem_takeWhile_imp member
    have iff := isBefore_iff isTime inEra new
    simp only [Bool.not_eq_true'] at notBefore
    rw [notBefore] at iff
    simp only [Bool.false_eq_true, false_iff, not_le] at iff
    exact iff.le
  have isLater : ∀ thread ∈ later, ∀ time ∈ a.time thread, sands.usecs ≤ time.usecs := by
    cases shape : later with
    | nil =>
        simp
    | cons head rest =>
        rw [shape] at orderLater
        obtain ⟨orderHead, _⟩ := List.pairwise_cons.mp orderLater
        have inLater : head ∈ earlier ++ later := by
          rw [shape]
          exact List.mem_append_right _ List.mem_cons_self
        obtain ⟨headTime, isHead, inEra⟩ := times head inLater
        have atHead : sands.usecs ≤ headTime.usecs := by
          have stops := List.head?_dropWhile_not (fun thread => !a.isBefore thread sands)
            (a.queue .timer)
          have isShape : (a.queue .timer).dropWhile (fun thread => !a.isBefore thread sands) =
              head :: rest := shape
          rw [isShape] at stops
          apply (isBefore_iff isHead inEra new).mp
          simpa using stops
        intro thread member time isTime
        rcases List.mem_cons.mp member with rfl | inRest
        · cases isHead.symm.trans isTime
          exact atHead
        · exact atHead.trans (orderHead thread inRest headTime isHead time isTime)
  refine ⟨?_, ?_⟩
  · intro thread member
    rw [queue] at member
    rcases List.mem_cons.mp (List.perm_middle.mem_iff.mp member) with rfl | inOld
    · exact ⟨sands, fresh, new⟩
    · rw [old inOld]
      exact times thread inOld
  · rw [queue]
    refine List.pairwise_append.mpr ⟨?_, List.pairwise_cons.mpr ⟨?_, ?_⟩, ?_⟩
    · apply orderEarlier.imp_of_mem
      intro first second inFirst inSecond ordered
      rw [old (List.mem_append_left _ inFirst), old (List.mem_append_left _ inSecond)]
      exact ordered
    · intro thread member one isOne other isOther
      rw [fresh] at isOne
      rw [old (List.mem_append_right _ member)] at isOther
      cases isOne
      exact isLater thread member other isOther
    · apply orderLater.imp_of_mem
      intro first second inFirst inSecond ordered
      rw [old (List.mem_append_right _ inFirst), old (List.mem_append_right _ inSecond)]
      exact ordered
    · intro first inFirst second inSecond one isOne other isOther
      rw [old (List.mem_append_left _ inFirst)] at isOne
      rcases List.mem_cons.mp inSecond with rfl | inLater
      · rw [fresh] at isOther
        cases isOther
        exact isEarlier first inFirst one isOne
      · rw [old (List.mem_append_right _ inLater)] at isOther
        exact across first inFirst second inLater one isOne other isOther

/-- Every call keeps the timers sorted. -/
theorem step
    [DecidableEq Arg]
    {call : Call Func Arg}
    (sorted : Sorted base a)
    (wellFormed : a.WellFormed)
    (timely : Timely base call) :
    Sorted base (a.step call).2 := by
  have moved {b : Agenda Func Arg} {list target : ThreadType} {thread : ThreadId}
      (sorted : Sorted base b)
      (notTimer : ThreadType.timer ≠ target) :
      Sorted base (b.move list thread target) := by
    apply Sorted.sublist sorted
    · rfl
    · by_cases isTimer : list = .timer
      · subst isTimer
        rw [queue_move_self b notTimer]
        exact List.erase_sublist
      · rw [queue_move_other b (Ne.symm isTimer) notTimer]
  cases call with
  | addRead func arg fd =>
      simp only [Agenda.step, Agenda.addWatch]
      split
      · exact sorted
      · exact sorted.addOther wellFormed (by decide)
  | addWrite func arg fd =>
      simp only [Agenda.step, Agenda.addWatch]
      split
      · exact sorted
      · exact sorted.addOther wellFormed (by decide)
  | addTimerHighResolution func arg microsecends timerNow =>
      exact sorted.addTimer wellFormed timely
  | addTimer func arg timer timerNow =>
      exact sorted.addTimer wellFormed timely
  | addEvent func arg val =>
      exact sorted.addOther wellFormed (by decide)
  | cancel thread =>
      change Sorted base (a.cancel thread)
      unfold Agenda.cancel
      split
      · exact moved sorted (by decide)
      · exact sorted
  | cancelEvent arg =>
      exact sorted.sublist rfl (.refl _)
  | fetch passes =>
      have polledSorted {b : Agenda Func Arg} (polled : a.Polled b) : Sorted base b := by
        apply sorted.sublist polled.job
        rw [polled.timer]
      have spec := fetch_spec a passes
      simp only [Agenda.step]
      generalize a.fetch passes = result at spec ⊢
      cases spec with
      | found index polled inPass before finds =>
          exact moved (polledSorted polled) (by decide)
      | nothing polled none =>
          exact polledSorted polled

theorem empty :
    Sorted base (Agenda.empty : Agenda Func Arg) := by
  refine ⟨?_, .nil⟩
  intro thread member
  simp [Agenda.empty] at member

/-- A timer is due when its time has come. -/
theorem isDue_iff
    {timerNow time : Timeval}
    (isTime : a.time thread = some time)
    (inEra : time.InEra base)
    (now : timerNow.InEra base) :
    a.isDue thread timerNow = true ↔ time.usecs ≤ timerNow.usecs := by
  unfold isDue
  rw [isTime, Option.any_some, decide_eq_true_iff]
  exact timevalCmp_nonneg_iff now inEra

/-- The first timer that is due is the earliest of all. -/
theorem find_due
    {timerNow : Timeval}
    (sorted : Sorted base a)
    (now : timerNow.InEra base)
    (found : (a.queue .timer).find? (fun timer => a.isDue timer timerNow) = some thread) :
    ∃ time, a.time thread = some time ∧ time.usecs ≤ timerNow.usecs ∧
      ∀ other ∈ a.queue .timer, ∀ later ∈ a.time other, time.usecs ≤ later.usecs := by
  obtain ⟨due, before, after, shape, notDue⟩ := List.find?_eq_some_iff_append.mp found
  have times := sorted.times
  have order := sorted.order
  rw [shape] at times order ⊢
  obtain ⟨time, isTime, inEra⟩ := times thread (by simp)
  have isNow := (isDue_iff isTime inEra now).mp due
  obtain ⟨_, orderAfter, _⟩ := List.pairwise_append.mp order
  obtain ⟨orderThread, _⟩ := List.pairwise_cons.mp orderAfter
  refine ⟨time, isTime, isNow, ?_⟩
  intro other member later isLater
  rcases List.mem_append.mp member with inBefore | inRest
  · obtain ⟨same, isSame, otherInEra⟩ := times other member
    cases isSame.symm.trans isLater
    have waits := notDue other inBefore
    have iff := isDue_iff isLater otherInEra now
    simp only [Bool.not_eq_true'] at waits
    rw [waits] at iff
    simp only [Bool.false_eq_true, false_iff, not_le] at iff
    exact isNow.trans iff.le
  · rcases List.mem_cons.mp inRest with rfl | inAfter
    · cases isTime.symm.trans isLater
      exact le_rfl
    · exact orderThread other inAfter time isTime later isLater

/-- The first timer is the earliest. -/
theorem head_earliest
    {head : ThreadId}
    {time : Timeval}
    (sorted : Sorted base a)
    (isHead : (a.queue .timer).head? = some head)
    (isTime : a.time head = some time) :
    ∀ other ∈ a.queue .timer, ∀ later ∈ a.time other, time.usecs ≤ later.usecs := by
  obtain ⟨rest, shape⟩ := List.head?_eq_some_iff.mp isHead
  have order := sorted.order
  rw [shape] at order ⊢
  obtain ⟨orderHead, _⟩ := List.pairwise_cons.mp order
  intro other member later isLater
  rcases List.mem_cons.mp member with rfl | inRest
  · cases isTime.symm.trans isLater
    exact le_rfl
  · exact orderHead other inRest time isTime later isLater

end Sorted

/-! ## The calls of `select` -/

/-- Nothing became ready, so nothing was hit. -/
theorem process_eq_self
    {fdset : Finset Nat}
    (watching : list = .read ∨ list = .write)
    (noneReady : (a.process list fdset).queue .ready = []) :
    a.process list fdset = a := by
  have different : ThreadType.ready ≠ list := by
    rcases watching with rfl | rfl <;> decide
  unfold process sweep at noneReady ⊢
  rw [queue_set_self] at noneReady
  obtain ⟨noReady, noHit⟩ := List.append_eq_nil_iff.mp noneReady
  have all :
      ((a.queue list).filter fun thread => !a.isHit thread fdset) = a.queue list := by
    apply List.filter_eq_self.mpr
    intro thread member
    simpa using List.filter_eq_nil_iff.mp noHit thread member
  rw [all, noReady, noHit, List.append_nil]
  unfold set
  congr 1
  dsimp only
  rw [Function.update_eq_self, ← noReady, Function.update_eq_self]

/-- Every `select` of a fetch is called in a pass in which nothing was found. -/
theorem fetchLoop_calls
    (a : Agenda Func Arg)
    (passes : List Pass)
    (index : Nat)
    (call : SelectCall)
    (isCall : (a.fetchLoop passes).2.1[index]? = some call) :
    ∃ pass, passes[index]? = some pass ∧ a.next pass.timerNow = none ∧
      call = a.selectCall pass.waitNow := by
  induction passes generalizing index with
  | nil =>
      simp [fetchLoop] at isCall
  | cons pass passes inductionHypothesis =>
      unfold fetchLoop at isCall
      cases found : a.next pass.timerNow with
      | some entry =>
          rw [found] at isCall
          simp at isCall
      | none =>
          rw [found] at isCall
          have later
              {index : Nat}
              (isCall : (a.fetchLoop passes).2.1[index]? = some call) :
              ∃ other, (pass :: passes)[index + 1]? = some other ∧
                a.next other.timerNow = none ∧ call = a.selectCall other.waitNow :=
            inductionHypothesis index isCall
          have first
              (isFirst : some (a.selectCall pass.waitNow) = some call) :
              ∃ other, (pass :: passes)[0]? = some other ∧ a.next other.timerNow = none ∧
                call = a.selectCall other.waitNow :=
            ⟨pass, rfl, found, (Option.some.inj isFirst).symm⟩
          cases answer : pass.selected with
          | nothing =>
              rw [answer] at isCall
              cases index with
              | zero => exact first isCall
              | succ index => exact later isCall
          | interrupted =>
              rw [answer] at isCall
              cases index with
              | zero => exact first isCall
              | succ index => exact later isCall
          | failed =>
              rw [answer] at isCall
              cases index with
              | zero => exact first isCall
              | succ index => simp at isCall
          | ready readfd writefd =>
              rw [answer] at isCall
              dsimp only at isCall
              split at isCall
              case h_1 head isHead =>
                cases index with
                | zero => exact first isCall
                | succ index => simp at isCall
              case h_2 noHead =>
                have noReady := List.head?_eq_none_iff.mp noHead
                have second := process_eq_self (.inr rfl) noReady
                rw [second] at noReady isCall
                rw [process_eq_self (.inl rfl) noReady] at isCall
                cases index with
                | zero => exact first isCall
                | succ index => exact later isCall

theorem fetch_calls
    (a : Agenda Func Arg)
    (passes : List Pass)
    (index : Nat)
    (call : SelectCall)
    (isCall : (a.fetch passes).2.1[index]? = some call) :
    ∃ pass, passes[index]? = some pass ∧ a.next pass.timerNow = none ∧
      call = a.selectCall pass.waitNow := by
  unfold fetch at isCall
  split at isCall
  · simp at isCall
  · exact fetchLoop_calls a passes index call isCall

end Agenda

/-! ## Runs in an era -/

/-- Every run whose times lie in an era keeps the timers sorted. -/
theorem run_sorted
    [DecidableEq Arg]
    {base : Int}
    {m : ThreadMaster Func Arg}
    {history : List (Entry Func Arg)}
    (run : Run Steps threadMasterCreate history m)
    (timely : ∀ entry ∈ history, Timely base entry.1) :
    ∃ a : Agenda Func Arg, Represents m a ∧ a.WellFormed ∧ a.Sorted base := by
  obtain ⟨a, abstractRun, represents, wellFormed⟩ := run_represents run
  let Kept (history : List (Entry Func Arg)) (a : Agenda Func Arg) : Prop :=
    a.WellFormed ∧ ((∀ entry ∈ history, Timely base entry.1) → a.Sorted base)
  have start : Kept [] Agenda.empty :=
    ⟨Agenda.wellFormed_empty, fun _ => .empty⟩
  have preserved
      {earlier : List (Entry Func Arg)}
      {before after : Agenda Func Arg}
      {entry : Entry Func Arg}
      (kept : Kept earlier before)
      (stepped : before.Steps entry after) :
      Kept (earlier ++ [entry]) after := by
    obtain ⟨wellFormed, sorted⟩ := kept
    obtain ⟨allowed, returned⟩ := stepped
    have wellFormedAfter := wellFormed.step allowed
    refine ⟨by rwa [returned] at wellFormedAfter, ?_⟩
    intro timely
    have sortedAfter : (before.step entry.1).2.Sorted base := by
      apply Agenda.Sorted.step _ wellFormed
      · exact timely entry (by simp)
      · exact sorted fun other member => timely other (List.mem_append_left _ member)
    rwa [returned] at sortedAfter
  have kept : Kept history a := abstractRun.histories Kept preserved start
  exact ⟨a, represents, wellFormed, kept.2 timely⟩

section

variable
  {base : Int}
  {m : ThreadMaster Func Arg}
  {a : Agenda Func Arg}
  {list : ThreadType}
  {thread : ThreadId}

/-- A thread in use is on the list of its type. -/
theorem Represents.mem_queue
    (represents : Represents m a)
    (wellFormed : a.WellFormed)
    (member : thread ∈ Threads.busy m)
    (type : (m.threads thread).type = list) :
    thread ∈ a.queue list := by
  have waits := (represents.busy wellFormed).mem_iff.mp member
  obtain ⟨other, _, inOther⟩ := Agenda.mem_waiting.mp waits
  rwa [← type, represents.type inOther]

/-- The time of a timer. -/
theorem Represents.time_eq
    {time : Timeval}
    (represents : Represents m a)
    (isTime : (m.threads thread).u = .sands time) :
    a.time thread = some time := by
  have stored : (a.job thread).u = .sands time := by
    rw [← represents.job]
    exact isTime
  unfold Agenda.time
  rw [stored]

/-- What waits for a time later than this. -/
def AllLater (m : ThreadMaster Func Arg) (usecs : Int) : Prop :=
  ∀ thread ∈ busy m, ∀ time, (m.threads thread).type = .timer →
    (m.threads thread).u = .sands time → usecs < time.usecs

/-- No thread of a type is in use. -/
def NoneOf (m : ThreadMaster Func Arg) (type : ThreadType) : Prop :=
  ∀ thread ∈ busy m, (m.threads thread).type ≠ type

theorem Represents.noneOf
    (represents : Represents m a)
    (wellFormed : a.WellFormed)
    (empty : a.queue list = []) :
    NoneOf m list := by
  intro thread member type
  have inQueue := represents.mem_queue wellFormed member type
  rw [empty] at inQueue
  exact absurd inQueue List.not_mem_nil

theorem Represents.allLater
    {timerNow : Timeval}
    (represents : Represents m a)
    (wellFormed : a.WellFormed)
    (sorted : a.Sorted base)
    (now : timerNow.InEra base)
    (noTimer : ∀ timer ∈ a.queue .timer, a.isDue timer timerNow = false) :
    AllLater m timerNow.usecs := by
  intro thread member time isTimer isTime
  have inQueue := represents.mem_queue wellFormed member isTimer
  obtain ⟨same, isSame, inEra⟩ := sorted.times thread inQueue
  have known := represents.time_eq isTime
  cases isSame.symm.trans known
  have iff := Agenda.Sorted.isDue_iff known inEra now
  rw [noTimer thread inQueue] at iff
  simpa using iff

/--
What a fetch hands out at this time: an event if there is one, else the earliest
timer if it is due, else a thread that is ready.
-/
structure Served (m : ThreadMaster Func Arg) (timerNow : Timeval) (copy : Thread Func Arg) :
    Prop where
  kind : copy.type = .event ∨ copy.type = .timer ∨ copy.type = .ready
  behindEvents : copy.type ≠ .event → NoneOf m .event
  behindTimers : copy.type = .ready → AllLater m timerNow.usecs
  inTime :
    copy.type = .timer →
      ∃ time, copy.u = .sands time ∧ time.usecs ≤ timerNow.usecs ∧
        ∀ thread ∈ busy m, ∀ later, (m.threads thread).type = .timer →
          (m.threads thread).u = .sands later → time.usecs ≤ later.usecs

/-- What is found is what should be served. -/
theorem Represents.served
    {b : Agenda Func Arg}
    {timerNow : Timeval}
    (represents : Represents m a)
    (wellFormed : a.WellFormed)
    (sorted : a.Sorted base)
    (now : timerNow.InEra base)
    (polled : a.Polled b)
    (finds : b.Finds timerNow list thread) :
    Served m timerNow (b.copy list thread) := by
  cases finds with
  | event isHead =>
      exact ⟨.inl rfl, fun notEvent => absurd rfl notEvent, nofun, nofun⟩
  | timer noEvent isDue =>
      rw [polled.event] at noEvent
      rw [polled.timer, polled.isDue] at isDue
      refine ⟨.inr (.inl rfl), fun _ => represents.noneOf wellFormed noEvent, nofun, fun _ => ?_⟩
      obtain ⟨time, isTime, inTime, earliest⟩ := sorted.find_due now isDue
      refine ⟨time, ?_, inTime, ?_⟩
      · change (b.job thread).u = .sands time
        rw [polled.job]
        unfold Agenda.time at isTime
        split at isTime
        case h_1 stored isStored =>
          cases isTime
          exact isStored
        case h_2 =>
          cases isTime
      · intro other member later isTimer isLater
        exact earliest other (represents.mem_queue wellFormed member isTimer) later
          (represents.time_eq isLater)
  | ready noEvent noTimer isHead =>
      rw [polled.event] at noEvent
      rw [polled.timer, polled.isDue] at noTimer
      exact ⟨.inr (.inr rfl), fun _ => represents.noneOf wellFormed noEvent,
        fun _ => represents.allLater wellFormed sorted now noTimer, nofun⟩

theorem timely_timerAndEvent :
    ∀ entry ∈ timerAndEvent, Timely 0 entry.1 := by
  intro entry member
  simp only [timerAndEvent, List.mem_cons, List.not_mem_nil, or_false] at member
  rcases member with rfl | rfl | rfl
  · exact ⟨⟨by decide, by decide⟩, by decide, by decide⟩
  · trivial
  · intro pass isPass
    cases List.mem_singleton.mp isPass
    exact ⟨⟨⟨by decide, by decide⟩, by decide, by decide⟩,
      ⟨⟨by decide, by decide⟩, by decide, by decide⟩⟩

/--
What `select` may be called with in a pass: nothing is there to be done, all
descriptors are watched that threads wait for, and it wakes up for every timer.
-/
structure Sleeps (m : ThreadMaster Func Arg) (pass : Pass) (call : SelectCall) : Prop where
  noEvent : NoneOf m .event
  noReady : NoneOf m .ready
  noTimer : AllLater m pass.timerNow.usecs
  readfd :
    ∀ fd, fd ∈ call.readfd ↔
      ∃ thread ∈ busy m, (m.threads thread).type = .read ∧ (m.threads thread).u = .fd fd
  writefd :
    ∀ fd, fd ∈ call.writefd ↔
      ∃ thread ∈ busy m, (m.threads thread).type = .write ∧ (m.threads thread).u = .fd fd
  forever : call.timerWait = none ↔ NoneOf m .timer
  wakes :
    ∀ wait ∈ call.timerWait, 0 ≤ wait.tvSec ∧ wait.Normal ∧
      ∀ thread ∈ busy m, ∀ time, (m.threads thread).type = .timer →
        (m.threads thread).u = .sands time →
          wait.usecs ≤ max (time.usecs - pass.waitNow.usecs) 10
  lasts :
    ∀ wait ∈ call.timerWait,
      ∃ thread ∈ busy m, ∃ time, (m.threads thread).type = .timer ∧
        (m.threads thread).u = .sands time ∧
          min (time.usecs - pass.waitNow.usecs) 1000000000000 ≤ wait.usecs

/-- The descriptors watched are those that the threads of a type wait for. -/
theorem Represents.mem_watched
    {fd : Nat}
    (represents : Represents m a)
    (wellFormed : a.WellFormed)
    (used : list ≠ .unused) :
    fd ∈ a.watched list ↔
      ∃ thread ∈ Threads.busy m, (m.threads thread).type = list ∧
        (m.threads thread).u = .fd fd := by
  have stored (thread : ThreadId) : (m.threads thread).u = (a.job thread).u := by
    rw [← represents.job]
    rfl
  rw [Agenda.mem_watched]
  constructor
  · rintro ⟨thread, member, watches⟩
    have inUse := (represents.busy wellFormed).mem_iff.mpr
      (Agenda.mem_waiting.mpr ⟨list, used, member⟩)
    exact ⟨thread, inUse, represents.type member, (stored thread).trans watches⟩
  · rintro ⟨thread, member, type, watches⟩
    exact ⟨thread, represents.mem_queue wellFormed member type,
      (stored thread).symm.trans watches⟩

/-- How long `select` waits if it does. -/
theorem Agenda.wait_eq_some
    {timerNow wait : Timeval}
    (isWait : a.wait timerNow = some wait) :
    ∃ head time, (a.queue .timer).head? = some head ∧ a.time head = some time ∧
      wait = if (timevalSubtract time timerNow).tvSec < 0 then { tvSec := 0, tvUsec := 10 }
        else timevalSubtract time timerNow := by
  unfold Agenda.wait at isWait
  obtain ⟨head, isHead, afterHead⟩ := Option.bind_eq_some_iff.mp isWait
  obtain ⟨time, isTime, isResult⟩ := Option.bind_eq_some_iff.mp afterHead
  exact ⟨head, time, isHead, isTime, (Option.some.inj isResult).symm⟩

/-- `select` waits forever when there is no timer. -/
theorem Agenda.wait_eq_none
    {timerNow : Timeval}
    (sorted : a.Sorted base) :
    a.wait timerNow = none ↔ a.queue .timer = [] := by
  constructor
  · intro isNone
    cases shape : a.queue .timer with
    | nil =>
        rfl
    | cons head rest =>
        obtain ⟨time, isTime, _⟩ := sorted.times head (by simp [shape])
        simp [Agenda.wait, shape, isTime] at isNone
  · intro empty
    simp [Agenda.wait, empty]

/-- What is called when nothing is found. -/
theorem Represents.sleeps
    {pass : Pass}
    (represents : Represents m a)
    (wellFormed : a.WellFormed)
    (sorted : a.Sorted base)
    (now : pass.timerNow.InEra base)
    (waitNow : pass.waitNow.InEra base)
    (nothing : a.next pass.timerNow = none) :
    Sleeps m pass (a.selectCall pass.waitNow) := by
  have searched := Agenda.next_spec a pass.timerNow
  rw [nothing] at searched
  obtain ⟨noEvent, noTimer⟩ := searched
  have noReady : a.queue .ready = [] := by
    unfold Agenda.next at nothing
    split at nothing
    · cases nothing
    · split at nothing
      · cases nothing
      · exact List.head?_eq_none_iff.mp (Option.map_eq_none_iff.mp nothing)
  have spec {wait : Timeval} (isWait : a.wait pass.waitNow = some wait) :
      ∃ head time, (a.queue .timer).head? = some head ∧ a.time head = some time ∧
        wait = timevalSubtract time pass.waitNow ∧
        0 ≤ wait.tvSec ∧ wait.Normal ∧
        wait.usecs ≤ max (time.usecs - pass.waitNow.usecs) 10 ∧
        min (time.usecs - pass.waitNow.usecs) 1000000000000 ≤ wait.usecs := by
    obtain ⟨head, time, isHead, isTime, isResult⟩ := Agenda.wait_eq_some isWait
    obtain ⟨same, isSame, inEra⟩ := sorted.times head (List.mem_of_head? isHead)
    cases isSame.symm.trans isTime
    have subtracted := timevalSubtract_spec inEra.normal waitNow.normal
    rw [if_neg (not_lt.mpr subtracted.1)] at isResult
    subst isResult
    exact ⟨head, time, isHead, isTime, rfl, subtracted⟩
  refine ⟨represents.noneOf wellFormed noEvent, represents.noneOf wellFormed noReady,
    represents.allLater wellFormed sorted now noTimer, ?_, ?_, ?_, ?_, ?_⟩
  · intro fd
    exact represents.mem_watched wellFormed (by decide)
  · intro fd
    exact represents.mem_watched wellFormed (by decide)
  · rw [Agenda.selectCall, Agenda.wait_eq_none sorted]
    constructor
    · exact represents.noneOf wellFormed
    · intro noTimer
      apply List.eq_nil_iff_forall_not_mem.mpr
      intro thread member
      have inUse := (represents.busy wellFormed).mem_iff.mpr
        (Agenda.mem_waiting.mpr ⟨.timer, by decide, member⟩)
      exact noTimer thread inUse (represents.type member)
  · intro wait isWait
    obtain ⟨head, time, isHead, isTime, _, positive, normal, upper, _⟩ := spec isWait
    refine ⟨positive, normal, ?_⟩
    intro thread member later isTimer isLater
    have earliest := sorted.head_earliest isHead isTime thread
      (represents.mem_queue wellFormed member isTimer) later (represents.time_eq isLater)
    exact upper.trans (max_le_max_right 10 (Int.sub_le_sub_right earliest _))
  · intro wait isWait
    obtain ⟨head, time, isHead, isTime, _, _, _, _, lower⟩ := spec isWait
    have member := List.mem_of_head? isHead
    have inUse := (represents.busy wellFormed).mem_iff.mpr
      (Agenda.mem_waiting.mpr ⟨.timer, by decide, member⟩)
    refine ⟨head, inUse, time, represents.type member, ?_, lower⟩
    have job := congrArg Job.u (represents.job head)
    unfold Agenda.time at isTime
    split at isTime
    case h_1 stored isStored =>
      cases isTime
      exact job.trans isStored
    case h_2 =>
      cases isTime

/--
In every state reached `thread_fetch` calls `select` only when nothing is to be
done, and `select` wakes up for the earliest timer and for every descriptor.
-/
theorem select_wakes_up
    [DecidableEq Arg]
    {after : ThreadMaster Func Arg}
    {history : List (Entry Func Arg)}
    {passes : List Pass}
    {fetched : Fetched Func Arg}
    {calls : List SelectCall}
    (run : Run Steps threadMasterCreate history m)
    (timely : ∀ entry ∈ history, Timely base entry.1)
    (inEra : ∀ pass ∈ passes, pass.timerNow.InEra base ∧ pass.waitNow.InEra base)
    (returned : threadFetch m passes = .ok (fetched, calls, after)) :
    ∀ (index : Nat) (call : SelectCall), calls[index]? = some call →
      ∃ pass, passes[index]? = some pass ∧ Sleeps m pass call := by
  intro index call isCall
  obtain ⟨a, represents, wellFormed, sorted⟩ := run_sorted run timely
  obtain ⟨_, sameReturned, _⟩ := represents.threadFetch wellFormed passes
  rw [sameReturned] at returned
  obtain ⟨_, isRest⟩ := Prod.mk.inj (Except.ok.inj returned)
  obtain ⟨isCalls, _⟩ := Prod.mk.inj isRest
  rw [← isCalls] at isCall
  obtain ⟨pass, inPass, nothing, rfl⟩ := Agenda.fetch_calls a passes index call isCall
  obtain ⟨now, waitNow⟩ := inEra pass (List.mem_of_getElem? inPass)
  exact ⟨pass, inPass, represents.sleeps wellFormed sorted now waitNow nothing⟩

theorem select_wakes_up_sample :
    ∃ (m after : ThreadMaster Unit Unit) (call : SelectCall),
      threadFetch m [⟨⟨101, 0⟩, ⟨101, 0⟩, .failed⟩] = .ok (.null, [call], after) ∧
        Sleeps m ⟨⟨101, 0⟩, ⟨101, 0⟩, .failed⟩ call := by
  obtain ⟨m, after, call, run, returned⟩ :
      ∃ (m after : ThreadMaster Unit Unit) (call : SelectCall),
        Run Steps threadMasterCreate timerAndEvent m ∧
          threadFetch m [⟨⟨101, 0⟩, ⟨101, 0⟩, .failed⟩] = .ok (.null, [call], after) :=
    ⟨_, _, _, .cons ⟨trivial, rfl⟩ (.cons ⟨trivial, rfl⟩ (.cons ⟨trivial, rfl⟩ (.nil _))), rfl⟩
  have inEra : ∀ pass ∈ [(⟨⟨101, 0⟩, ⟨101, 0⟩, .failed⟩ : Pass)],
      pass.timerNow.InEra 0 ∧ pass.waitNow.InEra 0 := by
    intro pass isPass
    cases List.mem_singleton.mp isPass
    exact ⟨⟨⟨by decide, by decide⟩, by decide, by decide⟩,
      ⟨⟨by decide, by decide⟩, by decide, by decide⟩⟩
  obtain ⟨pass, inPass, sleeps⟩ :=
    select_wakes_up run timely_timerAndEvent inEra returned 0 call rfl
  cases List.mem_singleton.mp (List.mem_of_getElem? inPass)
  exact ⟨m, after, call, returned, sleeps⟩

end

end Pma.Threads
