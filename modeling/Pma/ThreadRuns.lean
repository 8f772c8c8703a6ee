import Pma.ThreadRefinement
import Pma.Transition

namespace Pma.Threads

open Transition

/-!
# Runs of the scheduler

What every sequence of calls of `lib/thread.c` does: it follows the agenda, it
loses no thread and fetches none twice, and it fetches in the right order.
-/

variable {Func Arg : Type}

/-- A call and its answer. -/
abbrev Entry (Func Arg : Type) := Call Func Arg × Answer Func Arg

/-- The program may make the call, and the scheduler answers it. -/
def Steps [DecidableEq Arg] (m : ThreadMaster Func Arg) (entry : Entry Func Arg)
    (after : ThreadMaster Func Arg) : Prop :=
  Agenda.Allowed m.alloc entry.1 ∧ step m entry.1 = .ok (entry.2, after)

/-- The agenda answers a call. -/
def Agenda.Steps [DecidableEq Arg] (a : Agenda Func Arg) (entry : Entry Func Arg)
    (after : Agenda Func Arg) : Prop :=
  Agenda.Allowed a.alloc entry.1 ∧ a.step entry.1 = (entry.2, after)

section

variable
  [DecidableEq Arg]
  {m after : ThreadMaster Func Arg}
  {a : Agenda Func Arg}
  {history : List (Entry Func Arg)}

/-- One step of the scheduler is one of the agenda. -/
theorem Represents.simulates
    {entry : Entry Func Arg}
    (represents : Represents m a)
    (wellFormed : a.WellFormed)
    (stepped : Steps m entry after) :
    a.Steps entry (a.step entry.1).2 ∧ Represents after (a.step entry.1).2 ∧
      (a.step entry.1).2.WellFormed := by
  obtain ⟨allowed, returned⟩ := stepped
  rw [represents.alloc] at allowed
  obtain ⟨result, answered, represented⟩ := represents.step wellFormed allowed
  rw [returned] at answered
  obtain ⟨sameAnswer, rfl⟩ := Prod.mk.inj (Except.ok.inj answered)
  exact ⟨⟨allowed, by rw [sameAnswer]⟩, represented, wellFormed.step allowed⟩

/-- Every run is one of the agenda. -/
theorem run_represents
    (run : Run Steps threadMasterCreate history m) :
    ∃ a : Agenda Func Arg,
      Run Agenda.Steps Agenda.empty history a ∧ Represents m a ∧ a.WellFormed := by
  have simulated :
      ∃ a : Agenda Func Arg,
        Run Agenda.Steps Agenda.empty (history.map id) a ∧ Represents m a ∧ a.WellFormed :=
    run.simulates (fun m a => Represents m a ∧ a.WellFormed) id
      (fun related stepped => ⟨_, related.1.simulates related.2 stepped⟩)
      ⟨represents_create, Agenda.wellFormed_empty⟩
  rwa [List.map_id] at simulated

end

/-- A timer and an event are added, and the event is fetched. -/
def timerAndEvent : List (Entry Unit Unit) :=
  [(.addTimerHighResolution () none 1500000 ⟨100, 0⟩, .handle (some 0)),
    (.addEvent () none 7, .handle (some 1)),
    (.fetch [⟨⟨100, 0⟩, ⟨100, 0⟩, .nothing⟩],
      .fetched (.fetch 1 ⟨.event, none, none, some (), none, .val 7⟩) [])]

namespace Agenda

/-- The threads that wait. -/
def waiting (a : Agenda Func Arg) : List ThreadId :=
  a.queue .read ++ a.queue .write ++ a.queue .timer ++ a.queue .event ++ a.queue .ready

/-- `select` may have moved threads to the ready list; nothing else is different. -/
structure Polled (before after : Agenda Func Arg) : Prop where
  job : after.job = before.job
  event : after.queue .event = before.queue .event
  timer : after.queue .timer = before.queue .timer
  unused : after.queue .unused = before.queue .unused
  alloc : after.alloc = before.alloc
  waiting : after.waiting.Perm before.waiting

section

variable {a b : Agenda Func Arg} {list : ThreadType} {thread : ThreadId}

namespace Polled

theorem refl (a : Agenda Func Arg) : Polled a a :=
  ⟨rfl, rfl, rfl, rfl, rfl, .refl _⟩

theorem trans
    {first second third : Agenda Func Arg}
    (earlier : Polled first second)
    (later : Polled second third) :
    Polled first third where
  job := later.job.trans earlier.job
  event := later.event.trans earlier.event
  timer := later.timer.trans earlier.timer
  unused := later.unused.trans earlier.unused
  alloc := later.alloc.trans earlier.alloc
  waiting := later.waiting.trans earlier.waiting

/-- Nothing is due after a poll that was not due before. -/
theorem isDue
    (polled : Polled a b) :
    b.isDue = a.isDue := by
  unfold Agenda.isDue Agenda.time
  rw [polled.job]

theorem process
    (a : Agenda Func Arg)
    (fdset : Finset Nat)
    (watching : list = .read ∨ list = .write) :
    Polled a (a.process list fdset) := by
  have split := List.filter_append_perm (fun thread => a.isHit thread fdset) (a.queue list)
  refine ⟨rfl, ?_, ?_, ?_, rfl, ?_⟩
  · rcases watching with rfl | rfl <;> rfl
  · rcases watching with rfl | rfl <;> rfl
  · rcases watching with rfl | rfl <;> rfl
  · rw [List.perm_iff_count] at split ⊢
    intro thread
    have counted := split thread
    rcases watching with rfl | rfl
    all_goals
      simp only [Agenda.waiting, Agenda.process, Agenda.sweep, Agenda.set, List.count_append,
        Function.update_self, ne_eq, reduceCtorEq, not_false_eq_true,
        Function.update_of_ne] at counted ⊢
      omega

end Polled

/-- What a fetch finds in a pass: first of all an event, then a timer that is due. -/
inductive Finds (b : Agenda Func Arg) (timerNow : Timeval) : ThreadType → ThreadId → Prop where
  | event
      {thread : ThreadId}
      (isHead : (b.queue .event).head? = some thread) :
      Finds b timerNow .event thread
  | timer
      {thread : ThreadId}
      (noEvent : b.queue .event = [])
      (isDue : (b.queue .timer).find? (fun timer => b.isDue timer timerNow) = some thread) :
      Finds b timerNow .timer thread
  | ready
      {thread : ThreadId}
      (noEvent : b.queue .event = [])
      (noTimer : ∀ timer ∈ b.queue .timer, b.isDue timer timerNow = false)
      (isHead : (b.queue .ready).head? = some thread) :
      Finds b timerNow .ready thread

theorem Finds.mem
    {timerNow : Timeval}
    (finds : Finds b timerNow list thread) :
    list ≠ .unused ∧ thread ∈ b.queue list := by
  cases finds with
  | event isHead =>
      exact ⟨by decide, List.mem_of_head? isHead⟩
  | timer noEvent isDue =>
      exact ⟨by decide, List.mem_of_find?_eq_some isDue⟩
  | ready noEvent noTimer isHead =>
      exact ⟨by decide, List.mem_of_head? isHead⟩

/-- The three steps in which a thread is looked for. -/
theorem next_spec
    (a : Agenda Func Arg)
    (timerNow : Timeval) :
    match a.next timerNow with
    | some (list, thread) => Finds a timerNow list thread
    | none =>
        a.queue .event = [] ∧ ∀ timer ∈ a.queue .timer, a.isDue timer timerNow = false := by
  unfold next
  cases isEvent : (a.queue .event).head? with
  | some thread =>
      exact .event isEvent
  | none =>
      have noEvent := List.head?_eq_none_iff.mp isEvent
      cases isTimer : (a.queue .timer).find? fun thread => a.isDue thread timerNow with
      | some thread =>
          exact .timer noEvent isTimer
      | none =>
          have noTimer : ∀ timer ∈ a.queue .timer, a.isDue timer timerNow = false := by
            intro timer member
            simpa using List.find?_eq_none.mp isTimer timer member
          cases isReady : (a.queue .ready).head? with
          | some thread =>
              exact .ready noEvent noTimer isReady
          | none =>
              exact ⟨noEvent, noTimer⟩

/-- What `thread_fetch` returns, and what it leaves. -/
inductive FetchSpec (a : Agenda Func Arg) (passes : List Pass) :
    Fetched Func Arg × List SelectCall × Agenda Func Arg → Prop where
  /-- A thread is found in a pass, one that is ready perhaps behind its `select`. -/
  | found
      {b : Agenda Func Arg}
      {list : ThreadType}
      {thread : ThreadId}
      {calls : List SelectCall}
      {pass : Pass}
      (index : Nat)
      (polled : Polled a b)
      (inPass : passes[index]? = some pass)
      (before : calls.length = index ∨ list = .ready ∧ calls.length = index + 1)
      (finds : Finds b pass.timerNow list thread) :
      FetchSpec a passes (.fetch thread (b.copy list thread), calls, b.retire list thread)
  /-- Nothing is found. -/
  | nothing
      {b : Agenda Func Arg}
      {fetched : Fetched Func Arg}
      {calls : List SelectCall}
      (polled : Polled a b)
      (none : fetched = .null ∨ fetched = .asleep) :
      FetchSpec a passes (fetched, calls, b)

/-- One more pass in front that found nothing. -/
theorem FetchSpec.cons
    {passes : List Pass}
    {pass : Pass}
    {call : SelectCall}
    {result : Fetched Func Arg × List SelectCall × Agenda Func Arg}
    (polled : Polled a b)
    (spec : FetchSpec b passes result) :
    FetchSpec a (pass :: passes) (result.1, call :: result.2.1, result.2.2) := by
  cases spec with
  | found index later inPass before finds =>
      refine .found (index + 1) (polled.trans later) inPass ?_ finds
      rcases before with same | ⟨isReady, same⟩
      · exact .inl (congrArg Nat.succ same)
      · exact .inr ⟨isReady, congrArg Nat.succ same⟩
  | nothing later none =>
      exact .nothing (polled.trans later) none

theorem fetchLoop_spec
    (a : Agenda Func Arg)
    (passes : List Pass) :
    FetchSpec a passes (a.fetchLoop passes) := by
  induction passes generalizing a with
  | nil =>
      exact .nothing (.refl a) (.inr rfl)
  | cons pass passes inductionHypothesis =>
      have searched := next_spec a pass.timerNow
      unfold fetchLoop
      cases found : a.next pass.timerNow with
      | some entry =>
          rw [found] at searched
          exact .found 0 (.refl a) rfl (.inl rfl) searched
      | none =>
          rw [found] at searched
          obtain ⟨noEvent, noTimer⟩ := searched
          cases answer : pass.selected with
          | nothing =>
              exact (inductionHypothesis a).cons (.refl a)
          | interrupted =>
              exact (inductionHypothesis a).cons (.refl a)
          | failed =>
              exact .nothing (.refl a) (.inl rfl)
          | ready readfd writefd =>
              have polled : Polled a ((a.process .read readfd).process .write writefd) :=
                (Polled.process a readfd (.inl rfl)).trans
                  (Polled.process _ writefd (.inr rfl))
              dsimp only
              split
              case h_1 head isHead =>
                refine .found 0 polled rfl (.inr ⟨rfl, rfl⟩) (.ready ?_ ?_ isHead)
                · rw [polled.event, noEvent]
                · rw [polled.timer, polled.isDue]
                  exact noTimer
              case h_2 =>
                exact (inductionHypothesis _).cons polled

theorem fetch_spec
    (a : Agenda Func Arg)
    (passes : List Pass) :
    FetchSpec a passes (a.fetch passes) := by
  unfold fetch
  split
  · exact .nothing (.refl a) (.inl rfl)
  · exact fetchLoop_spec a passes

end

end Agenda

/-! ## No thread is lost, and none is fetched twice -/

/-- The job a call adds, if it gets a thread. -/
def addition : Entry Func Arg → Option (Job Func Arg)
  | (.addRead func arg fd, .handle (some _)) => some ⟨some func, arg, .fd fd⟩
  | (.addWrite func arg fd, .handle (some _)) => some ⟨some func, arg, .fd fd⟩
  | (.addTimerHighResolution func arg microsecends timerNow, .handle (some _)) =>
      some ⟨some func, arg, .sands (deadline timerNow microsecends)⟩
  | (.addTimer func arg timer timerNow, .handle (some _)) =>
      some ⟨some func, arg,
        .sands (deadline timerNow (UInt64.ofInt (timer * timerSecondMicro)))⟩
  | (.addEvent func arg val, .handle (some _)) => some ⟨some func, arg, .val val⟩
  | _ => none

/-- The thread a call fetches. -/
def fetchOf : Entry Func Arg → Option (Thread Func Arg)
  | (.fetch _, .fetched (.fetch _ copy) _) => some copy
  | _ => none

/-- A call that cancels. -/
def cancels : Call Func Arg → Bool
  | .cancel _ | .cancelEvent _ => true
  | _ => false

/-- The jobs added in a run, in order. -/
def additions (history : List (Entry Func Arg)) : List (Job Func Arg) :=
  history.filterMap addition

/-- The threads fetched in a run, in order. -/
def fetches (history : List (Entry Func Arg)) : List (Thread Func Arg) :=
  history.filterMap fetchOf

/-- Which addition each thread serves, and what became of those it serves no longer. -/
structure Ledger where
  ticket : ThreadId → Nat
  fetched : List Nat
  cancelled : List Nat

/-- The ledger agrees with the agenda, and with what was added and fetched. -/
structure Ledger.Right (ledger : Ledger) (added : List (Job Func Arg))
    (copies : List (Thread Func Arg)) (a : Agenda Func Arg) : Prop where
  serves : ∀ thread ∈ a.waiting, added[ledger.ticket thread]? = some (a.job thread)
  fetched : List.Forall₂ (fun ticket copy => added[ticket]? = some copy.job) ledger.fetched copies
  once :
    (ledger.fetched ++ ledger.cancelled ++ a.waiting.map ledger.ticket).Perm
      (List.range added.length)

section

variable
  {a after : Agenda Func Arg}
  {list : ThreadType}
  {thread : ThreadId}
  {ledger : Ledger}
  {added : List (Job Func Arg)}
  {copies : List (Thread Func Arg)}

namespace Agenda

theorem all_eq (a : Agenda Func Arg) :
    a.all = a.waiting ++ a.queue .unused :=
  rfl

theorem WellFormed.waiting_nodup
    (wellFormed : a.WellFormed) :
    a.waiting.Nodup := by
  apply List.nodup_iff_count_le_one.mpr
  intro thread
  have once := wellFormed.count_le_one thread
  rw [all_eq, List.count_append] at once
  omega

/-- A new thread joins those that wait. -/
theorem waiting_add
    {job : Job Func Arg}
    {parts : List ThreadId × List ThreadId}
    (used : list ≠ .unused)
    (shape : a.queue list = parts.1 ++ parts.2) :
    (a.add list job parts).waiting.Perm (a.fresh :: a.waiting) := by
  rw [List.perm_iff_count]
  intro thread
  have counted := congrArg (List.count thread) shape
  rw [List.count_append] at counted
  cases list
  case unused => exact absurd rfl used
  all_goals
    simp only [waiting, add, take, set, List.count_append, List.count_cons,
      Function.update_self, ne_eq, reduceCtorEq, not_false_eq_true,
      Function.update_of_ne] at counted ⊢
    omega

/-- A thread that leaves its list no longer waits. -/
theorem waiting_retire
    (used : list ≠ .unused)
    (member : thread ∈ a.queue list) :
    a.waiting.Perm (thread :: (a.retire list thread).waiting) := by
  rw [List.perm_iff_count]
  intro other
  have erased := (List.perm_cons_erase member).count_eq other
  rw [List.count_cons] at erased
  cases list
  case unused => exact absurd rfl used
  all_goals
    simp only [waiting, retire, move, set, List.count_append, List.count_cons,
      Function.update_self, ne_eq, reduceCtorEq, not_false_eq_true,
      Function.update_of_ne] at erased ⊢
    omega

/-- The cancelled events no longer wait. -/
theorem waiting_cancelEvent
    [DecidableEq Arg]
    (a : Agenda Func Arg)
    (arg : Option Arg) :
    ∃ gone, a.waiting.Perm (gone ++ (a.cancelEvent arg).waiting) := by
  refine ⟨(a.queue .event).filter fun thread => (a.job thread).arg = arg, ?_⟩
  rw [List.perm_iff_count]
  intro thread
  have split := (List.filter_append_perm
    (fun thread => decide ((a.job thread).arg = arg)) (a.queue .event)).count_eq thread
  simp only [waiting, cancelEvent, sweep, set, List.count_append, Function.update_self, ne_eq,
    reduceCtorEq, not_false_eq_true, Function.update_of_ne] at split ⊢
  omega

theorem mem_waiting :
    thread ∈ a.waiting ↔ ∃ list, list ≠ .unused ∧ thread ∈ a.queue list := by
  simp only [waiting, List.mem_append]
  constructor
  · rintro ((((inRead | inWrite) | inTimer) | inEvent) | inReady)
    exacts [⟨.read, by decide, inRead⟩, ⟨.write, by decide, inWrite⟩,
      ⟨.timer, by decide, inTimer⟩, ⟨.event, by decide, inEvent⟩, ⟨.ready, by decide, inReady⟩]
  · rintro ⟨list, used, member⟩
    cases list <;> simp [member] at used ⊢

/-- The handle that is handed out belongs to nobody who waits. -/
theorem WellFormed.fresh_not_waiting
    (wellFormed : a.WellFormed) :
    a.fresh ∉ a.waiting := by
  intro member
  obtain ⟨list, used, inList⟩ := mem_waiting.mp member
  apply fresh_off wellFormed list
  rwa [queue_take a used]

end Agenda

namespace Ledger.Right

/-- Who waits and what for is the same. -/
theorem congr
    (right : ledger.Right added copies a)
    (waiting : after.waiting.Perm a.waiting)
    (job : after.job = a.job) :
    ledger.Right added copies after where
  serves thread member := by
    rw [job]
    exact right.serves thread (waiting.mem_iff.mp member)
  fetched := right.fetched
  once := ((waiting.map ledger.ticket).append_left _).trans right.once

/-- A thread is added. -/
theorem add
    {job : Job Func Arg}
    {parts : List ThreadId × List ThreadId}
    (right : ledger.Right added copies a)
    (wellFormed : a.WellFormed)
    (used : list ≠ .unused)
    (shape : a.queue list = parts.1 ++ parts.2) :
    ({ ledger with ticket := Function.update ledger.ticket a.fresh added.length } : Ledger).Right
      (added ++ [job]) copies (a.add list job parts) := by
  have waiting : (a.add list job parts).waiting.Perm (a.fresh :: a.waiting) :=
    Agenda.waiting_add used shape
  have within {ticket : Nat} {value : Job Func Arg} (found : added[ticket]? = some value) :
      (added ++ [job])[ticket]? = some value := by
    rw [List.getElem?_append_left (List.getElem?_eq_some_iff.mp found).1]
    exact found
  have others {thread : ThreadId} (member : thread ∈ a.waiting) : thread ≠ a.fresh := by
    rintro rfl
    exact wellFormed.fresh_not_waiting member
  refine ⟨?_, ?_, ?_⟩
  · intro thread member
    rcases List.mem_cons.mp (waiting.mem_iff.mp member) with rfl | old
    · rw [Agenda.job_add_fresh]
      simp
    · rw [Agenda.job_add_other a (others old)]
      dsimp only
      rw [Function.update_of_ne (others old)]
      exact within (right.serves thread old)
  · exact right.fetched.imp fun _ _ found => within found
  · have same :
        a.waiting.map (Function.update ledger.ticket a.fresh added.length) =
          a.waiting.map ledger.ticket := by
      apply List.map_congr_left
      intro thread member
      exact Function.update_of_ne (others member) ..
    have mapped := waiting.map (Function.update ledger.ticket a.fresh added.length)
    rw [List.map_cons, Function.update_self, same] at mapped
    rw [List.length_append, List.length_singleton, List.range_succ]
    have moved := (mapped.append_left (ledger.fetched ++ ledger.cancelled)).trans
      List.perm_middle
    have last := (right.once.cons added.length).trans
      (List.perm_append_singleton added.length (List.range added.length)).symm
    exact moved.trans last

/-- A thread is fetched. -/
theorem fetch
    {copy : Thread Func Arg}
    (right : ledger.Right added copies a)
    (waiting : a.waiting.Perm (thread :: after.waiting))
    (job : after.job = a.job)
    (isCopy : copy.job = a.job thread) :
    ({ ledger with fetched := ledger.fetched ++ [ledger.ticket thread] } : Ledger).Right
      added (copies ++ [copy]) after where
  serves other member := by
    rw [job]
    exact right.serves other (waiting.mem_iff.mpr (List.mem_cons_of_mem _ member))
  fetched := by
    have served := right.serves thread (waiting.mem_iff.mpr List.mem_cons_self)
    rw [← isCopy] at served
    exact List.rel_append right.fetched (.cons served .nil)
  once := by
    have mapped := (waiting.map ledger.ticket).symm
    rw [List.map_cons] at mapped
    have whole := ((mapped.append_left (ledger.fetched ++ ledger.cancelled)).trans right.once)
    refine List.Perm.trans ?_ whole
    rw [List.perm_iff_count]
    intro ticket
    simp only [List.count_append, List.count_cons, List.count_nil]
    omega

/-- Threads are cancelled. -/
theorem cancel
    {gone : List ThreadId}
    (right : ledger.Right added copies a)
    (waiting : a.waiting.Perm (gone ++ after.waiting))
    (job : after.job = a.job) :
    ({ ledger with cancelled := ledger.cancelled ++ gone.map ledger.ticket } : Ledger).Right
      added copies after where
  serves other member := by
    rw [job]
    exact right.serves other (waiting.mem_iff.mpr (List.mem_append_right _ member))
  fetched := right.fetched
  once := by
    have mapped := (waiting.map ledger.ticket).symm
    rw [List.map_append] at mapped
    have whole := (mapped.append_left (ledger.fetched ++ ledger.cancelled)).trans right.once
    rw [List.append_assoc] at whole ⊢
    simpa only [List.append_assoc] using whole

end Ledger.Right

/-- A ledger for a run, with nothing cancelled where nothing was. -/
def Accounted (history : List (Entry Func Arg)) (a : Agenda Func Arg) : Prop :=
  a.WellFormed ∧
    ∃ ledger : Ledger,
      ledger.Right (additions history) (fetches history) a ∧
        ((∀ entry ∈ history, cancels entry.1 = false) → ledger.cancelled = [])

namespace Accounted

variable {history : List (Entry Func Arg)} {entry : Entry Func Arg}

/-- An entry that adds and fetches nothing. -/
theorem quiet
    (history : List (Entry Func Arg))
    (noAddition : addition entry = none)
    (noFetch : fetchOf entry = none) :
    additions (history ++ [entry]) = additions history ∧
      fetches (history ++ [entry]) = fetches history := by
  simp [additions, fetches, List.filterMap_append, noAddition, noFetch]

theorem keep
    (accounted : Accounted history a)
    (wellFormed : after.WellFormed)
    (noAddition : addition entry = none)
    (noFetch : fetchOf entry = none)
    (waiting : after.waiting.Perm a.waiting)
    (job : after.job = a.job) :
    Accounted (history ++ [entry]) after := by
  obtain ⟨_, ledger, right, nothing⟩ := accounted
  obtain ⟨sameAdditions, sameFetches⟩ := quiet history noAddition noFetch
  refine ⟨wellFormed, ledger, ?_, fun all => nothing fun entry member => ?_⟩
  · rw [sameAdditions, sameFetches]
    exact right.congr waiting job
  · exact all entry (List.mem_append_left _ member)

theorem add
    {job : Job Func Arg}
    {parts : List ThreadId × List ThreadId}
    (accounted : Accounted history a)
    (wellFormed : (a.add list job parts).WellFormed)
    (isAddition : addition entry = some job)
    (noFetch : fetchOf entry = none)
    (used : list ≠ .unused)
    (shape : a.queue list = parts.1 ++ parts.2) :
    Accounted (history ++ [entry]) (a.add list job parts) := by
  obtain ⟨before, ledger, right, nothing⟩ := accounted
  have isAdditions : additions (history ++ [entry]) = additions history ++ [job] := by
    simp [additions, List.filterMap_append, isAddition]
  have sameFetches : fetches (history ++ [entry]) = fetches history := by
    simp [fetches, List.filterMap_append, noFetch]
  have added : Ledger.Right _ (additions history ++ [job]) _ (a.add list job parts) :=
    right.add before used shape
  rw [← isAdditions, ← sameFetches] at added
  exact ⟨wellFormed, _, added,
    fun all => nothing fun entry member => all entry (List.mem_append_left _ member)⟩

theorem fetch
    {copy : Thread Func Arg}
    (accounted : Accounted history a)
    (wellFormed : after.WellFormed)
    (noAddition : addition entry = none)
    (isFetch : fetchOf entry = some copy)
    (waiting : a.waiting.Perm (thread :: after.waiting))
    (job : after.job = a.job)
    (isCopy : copy.job = a.job thread) :
    Accounted (history ++ [entry]) after := by
  obtain ⟨_, ledger, right, nothing⟩ := accounted
  have sameAdditions : additions (history ++ [entry]) = additions history := by
    simp [additions, List.filterMap_append, noAddition]
  have isFetches : fetches (history ++ [entry]) = fetches history ++ [copy] := by
    simp [fetches, List.filterMap_append, isFetch]
  have fetched := right.fetch waiting job isCopy
  rw [← sameAdditions, ← isFetches] at fetched
  exact ⟨wellFormed, _, fetched,
    fun all => nothing fun entry member => all entry (List.mem_append_left _ member)⟩

theorem cancel
    {gone : List ThreadId}
    (accounted : Accounted history a)
    (wellFormed : after.WellFormed)
    (noAddition : addition entry = none)
    (noFetch : fetchOf entry = none)
    (isCancel : cancels entry.1 = true)
    (waiting : a.waiting.Perm (gone ++ after.waiting))
    (job : after.job = a.job) :
    Accounted (history ++ [entry]) after := by
  obtain ⟨_, ledger, right, _⟩ := accounted
  obtain ⟨sameAdditions, sameFetches⟩ := quiet history noAddition noFetch
  have cancelled := right.cancel waiting job
  rw [← sameAdditions, ← sameFetches] at cancelled
  refine ⟨wellFormed, _, cancelled, fun all => ?_⟩
  have notCancel := all entry (List.mem_append_right _ (List.mem_singleton_self _))
  rw [isCancel] at notCancel
  cases notCancel

/-- Every step keeps a ledger. -/
theorem step
    [DecidableEq Arg]
    (accounted : Accounted history a)
    (stepped : a.Steps entry after) :
    Accounted (history ++ [entry]) after := by
  have wellFormed := accounted.1.step stepped.1
  obtain ⟨call, answer⟩ := entry
  obtain ⟨_, returned⟩ := stepped
  rw [returned] at wellFormed
  cases call with
  | addRead func arg fd =>
      simp only [Agenda.step, Agenda.addWatch] at returned
      split at returned
      all_goals
        obtain ⟨rfl, rfl⟩ := Prod.mk.inj returned
      · exact accounted.keep wellFormed rfl rfl (.refl _) rfl
      · exact accounted.add wellFormed rfl rfl (by decide) (List.append_nil _).symm
  | addWrite func arg fd =>
      simp only [Agenda.step, Agenda.addWatch] at returned
      split at returned
      all_goals
        obtain ⟨rfl, rfl⟩ := Prod.mk.inj returned
      · exact accounted.keep wellFormed rfl rfl (.refl _) rfl
      · exact accounted.add wellFormed rfl rfl (by decide) (List.append_nil _).symm
  | addTimerHighResolution func arg microsecends timerNow =>
      obtain ⟨rfl, rfl⟩ := Prod.mk.inj returned
      exact accounted.add wellFormed rfl rfl (by decide) (Agenda.timer_parts a _)
  | addTimer func arg timer timerNow =>
      obtain ⟨rfl, rfl⟩ := Prod.mk.inj returned
      exact accounted.add wellFormed rfl rfl (by decide) (Agenda.timer_parts a _)
  | addEvent func arg val =>
      obtain ⟨rfl, rfl⟩ := Prod.mk.inj returned
      exact accounted.add wellFormed rfl rfl (by decide) (List.append_nil _).symm
  | cancel thread =>
      obtain ⟨rfl, rfl⟩ := Prod.mk.inj returned
      unfold Agenda.cancel at wellFormed ⊢
      cases found : a.listOf thread with
      | none =>
          exact accounted.keep accounted.1 rfl rfl (.refl _) rfl
      | some list =>
          obtain ⟨used, member⟩ := Agenda.listOf_eq_some found
          rw [found] at wellFormed
          have waiting : a.waiting.Perm ([thread] ++ (a.retire list thread).waiting) :=
            Agenda.waiting_retire used member
          exact accounted.cancel wellFormed rfl rfl rfl waiting rfl
  | cancelEvent arg =>
      obtain ⟨rfl, rfl⟩ := Prod.mk.inj returned
      obtain ⟨gone, waiting⟩ := Agenda.waiting_cancelEvent a arg
      exact accounted.cancel wellFormed rfl rfl rfl waiting rfl
  | fetch passes =>
      have spec := Agenda.fetch_spec a passes
      simp only [Agenda.step] at returned
      obtain ⟨rfl, rfl⟩ := Prod.mk.inj returned
      generalize a.fetch passes = result at spec wellFormed ⊢
      cases spec with
      | found index polled inPass before finds =>
          obtain ⟨used, member⟩ := finds.mem
          have left := Agenda.waiting_retire used member
          exact accounted.fetch wellFormed rfl rfl (polled.waiting.symm.trans left) polled.job
            (congrFun polled.job _)
      | nothing polled none =>
          rcases none with rfl | rfl
          all_goals exact accounted.keep wellFormed rfl rfl polled.waiting polled.job

end Accounted

/-- The threads of a master that are in use. -/
def busy (m : ThreadMaster Func Arg) : List ThreadId :=
  (List.range m.alloc).filter fun thread => (m.threads thread).type ≠ .unused

/-- The threads in use are those that wait. -/
theorem Represents.busy
    {m : ThreadMaster Func Arg}
    (represents : Represents m a)
    (wellFormed : a.WellFormed) :
    (busy m).Perm a.waiting := by
  have nodup : (Threads.busy m).Nodup :=
    List.nodup_range.filter _
  apply (List.perm_ext_iff_of_nodup nodup wellFormed.waiting_nodup).mpr
  intro thread
  unfold Threads.busy
  rw [List.mem_filter, List.mem_range, Agenda.mem_waiting, represents.alloc,
    wellFormed.lt_alloc_iff]
  constructor
  · rintro ⟨⟨list, member⟩, notUnused⟩
    refine ⟨list, ?_, member⟩
    rintro rfl
    simp [represents.type member] at notUnused
  · rintro ⟨list, used, member⟩
    refine ⟨⟨list, member⟩, ?_⟩
    rw [represents.type member]
    exact decide_eq_true used

end

/-! ## Events are fetched in the order in which they were added -/

/-- The job of an event that a call adds. -/
def eventAdded : Entry Func Arg → Option (Job Func Arg)
  | (.addEvent func arg val, _) => some ⟨some func, arg, .val val⟩
  | _ => none

/-- The job of an event that a call fetches. -/
def eventFetched (entry : Entry Func Arg) : Option (Job Func Arg) :=
  (fetchOf entry).bind fun copy => if copy.type = .event then some copy.job else none

/-- The events fetched and those that wait are among those added, in their order. -/
def InOrder (history : List (Entry Func Arg)) (a : Agenda Func Arg) : Prop :=
  a.WellFormed ∧
    (history.filterMap eventFetched ++ (a.queue .event).map a.job).Sublist
      (history.filterMap eventAdded)

namespace InOrder

variable
  {a after : Agenda Func Arg}
  {history : List (Entry Func Arg)}
  {entry : Entry Func Arg}

/-- No event is added or fetched. -/
theorem keep
    (inOrder : InOrder history a)
    (wellFormed : after.WellFormed)
    (notAdded : eventAdded entry = none)
    (notFetched : eventFetched entry = none)
    (waiting : ((after.queue .event).map after.job).Sublist ((a.queue .event).map a.job)) :
    InOrder (history ++ [entry]) after := by
  refine ⟨wellFormed, ?_⟩
  simp only [List.filterMap_append, List.filterMap_cons, List.filterMap_nil, notAdded, notFetched,
    List.append_nil]
  exact (waiting.append_left _).trans inOrder.2

/-- An addition leaves the jobs of the events that wait. -/
theorem jobs_add
    {list : ThreadType}
    {job : Job Func Arg}
    {parts : List ThreadId × List ThreadId}
    (wellFormed : a.WellFormed) :
    (a.queue .event).map (a.add list job parts).job = (a.queue .event).map a.job := by
  apply List.map_congr_left
  intro thread member
  apply Agenda.job_add_other
  rintro rfl
  apply Agenda.fresh_off wellFormed .event
  rwa [Agenda.queue_take a (by decide)]

/-- An event is added. -/
theorem addEvent
    {job : Job Func Arg}
    (inOrder : InOrder history a)
    (wellFormed : (a.add .event job (a.queue .event, [])).WellFormed)
    (isAdded : eventAdded entry = some job)
    (notFetched : eventFetched entry = none) :
    InOrder (history ++ [entry]) (a.add .event job (a.queue .event, [])) := by
  refine ⟨wellFormed, ?_⟩
  rw [Agenda.queue_add_self, List.map_append, jobs_add inOrder.1, List.map_singleton,
    Agenda.job_add_fresh]
  simp only [List.filterMap_append, List.filterMap_cons, List.filterMap_nil, isAdded, notFetched,
    List.append_nil, ← List.append_assoc]
  exact inOrder.2.append (.refl _)

/-- The first event is fetched. -/
theorem fetchEvent
    {thread : ThreadId}
    (inOrder : InOrder history a)
    (wellFormed : after.WellFormed)
    (notAdded : eventAdded entry = none)
    (isFetched : eventFetched entry = some (a.job thread))
    (queue : a.queue .event = thread :: after.queue .event)
    (job : after.job = a.job) :
    InOrder (history ++ [entry]) after := by
  refine ⟨wellFormed, ?_⟩
  have waiting := inOrder.2
  rw [queue, List.map_cons] at waiting
  simp only [List.filterMap_append, List.filterMap_cons, List.filterMap_nil, notAdded, isFetched,
    List.append_nil, List.append_assoc, List.singleton_append, job]
  exact waiting

/-- A thread of another kind is added. -/
theorem addOther
    {list : ThreadType}
    {job : Job Func Arg}
    {parts : List ThreadId × List ThreadId}
    (inOrder : InOrder history a)
    (wellFormed : (a.add list job parts).WellFormed)
    (notAdded : eventAdded entry = none)
    (notFetched : eventFetched entry = none)
    (notEvent : ThreadType.event ≠ list) :
    InOrder (history ++ [entry]) (a.add list job parts) := by
  apply inOrder.keep wellFormed notAdded notFetched
  have queue : (a.add list job parts).queue .event = a.queue .event := by
    rw [Agenda.queue_add_other a notEvent, Agenda.queue_take a (by decide)]
  rw [queue, jobs_add inOrder.1]

/-- Every step keeps the order. -/
theorem step
    [DecidableEq Arg]
    (inOrder : InOrder history a)
    (stepped : a.Steps entry after) :
    InOrder (history ++ [entry]) after := by
  have wellFormed := inOrder.1.step stepped.1
  obtain ⟨call, answer⟩ := entry
  obtain ⟨_, returned⟩ := stepped
  rw [returned] at wellFormed
  cases call with
  | addRead func arg fd =>
      simp only [Agenda.step, Agenda.addWatch] at returned
      split at returned
      all_goals
        obtain ⟨rfl, rfl⟩ := Prod.mk.inj returned
      · exact inOrder.keep wellFormed rfl rfl (.refl _)
      · exact inOrder.addOther wellFormed rfl rfl (by decide)
  | addWrite func arg fd =>
      simp only [Agenda.step, Agenda.addWatch] at returned
      split at returned
      all_goals
        obtain ⟨rfl, rfl⟩ := Prod.mk.inj returned
      · exact inOrder.keep wellFormed rfl rfl (.refl _)
      · exact inOrder.addOther wellFormed rfl rfl (by decide)
  | addTimerHighResolution func arg microsecends timerNow =>
      obtain ⟨rfl, rfl⟩ := Prod.mk.inj returned
      exact inOrder.addOther wellFormed rfl rfl (by decide)
  | addTimer func arg timer timerNow =>
      obtain ⟨rfl, rfl⟩ := Prod.mk.inj returned
      exact inOrder.addOther wellFormed rfl rfl (by decide)
  | addEvent func arg val =>
      obtain ⟨rfl, rfl⟩ := Prod.mk.inj returned
      exact inOrder.addEvent wellFormed rfl rfl
  | cancel thread =>
      obtain ⟨rfl, rfl⟩ := Prod.mk.inj returned
      apply inOrder.keep wellFormed rfl rfl
      unfold Agenda.cancel
      cases found : a.listOf thread with
      | none =>
          exact .refl _
      | some list =>
          have used := (Agenda.listOf_eq_some found).1
          by_cases isEvent : list = .event
          · subst isEvent
            have queue : (a.retire .event thread).queue .event = (a.queue .event).erase thread :=
              Agenda.queue_move_self a (by decide)
            dsimp only
            rw [queue]
            exact List.erase_sublist.map a.job
          · have queue : (a.retire list thread).queue .event = a.queue .event :=
              Agenda.queue_move_other a (Ne.symm isEvent) (by decide)
            dsimp only
            rw [queue]
            exact .refl _
  | cancelEvent arg =>
      obtain ⟨rfl, rfl⟩ := Prod.mk.inj returned
      apply inOrder.keep wellFormed rfl rfl
      exact (List.filter_sublist).map a.job
  | fetch passes =>
      have spec := Agenda.fetch_spec a passes
      simp only [Agenda.step] at returned
      obtain ⟨rfl, rfl⟩ := Prod.mk.inj returned
      generalize a.fetch passes = result at spec wellFormed ⊢
      cases spec with
      | nothing polled none =>
          have waiting {b : Agenda Func Arg} (polled : a.Polled b) :
              ((b.queue .event).map b.job).Sublist ((a.queue .event).map a.job) := by
            rw [polled.event, polled.job]
          rcases none with rfl | rfl
          all_goals exact inOrder.keep wellFormed rfl rfl (waiting polled)
      | @found b list thread calls pass index polled inPass before finds =>
          have others
              {list : ThreadType}
              (notEvent : ThreadType.event ≠ list) :
              (((b.retire list thread).queue .event).map b.job).Sublist
                ((a.queue .event).map a.job) := by
            have queue : (b.retire list thread).queue .event = b.queue .event :=
              Agenda.queue_move_other b notEvent (by decide)
            rw [queue, polled.event, polled.job]
          cases finds with
          | event isHead =>
              obtain ⟨rest, queue⟩ := List.head?_eq_some_iff.mp isHead
              have remaining : (b.retire .event thread).queue .event = rest := by
                have erased : (b.retire .event thread).queue .event =
                    (b.queue .event).erase thread :=
                  Agenda.queue_move_self b (by decide)
                rw [erased, queue, List.erase_cons_head]
              apply inOrder.fetchEvent wellFormed rfl
              · exact congrArg some (congrFun polled.job thread)
              · rw [remaining, ← queue, polled.event]
              · exact polled.job
          | timer noEvent isDue =>
              exact inOrder.keep wellFormed rfl rfl (others (by decide))
          | ready noEvent noTimer isHead =>
              exact inOrder.keep wellFormed rfl rfl (others (by decide))

end InOrder

section

variable
  {m : ThreadMaster Func Arg}
  {a : Agenda Func Arg}
  {list : ThreadType}

/-- A master with the same links, some of whose objects were freed. -/
structure Freeing (m : ThreadMaster Func Arg) (freed : List ThreadId)
    (after : ThreadMaster Func Arg) : Prop where
  threads : after.threads = m.threads
  head : ∀ list, (after.lists list).head = (m.lists list).head
  alloc : after.alloc + freed.length = m.alloc

/-- `thread_list_free` reads the link of an object before it frees it. -/
theorem Freeing.threadListFree
    {after : ThreadMaster Func Arg}
    {freed nodes passed coming : List ThreadId}
    {fuel : Nat}
    (freeing : Freeing m freed after)
    (holds : NullTerminated.Holds m.neighbours (m.lists list).ends nodes)
    (shape : passed ++ coming = nodes)
    (left : coming.length ≤ after.alloc)
    (enough : coming.length < fuel) :
    ∃ last, Threads.threadListFree after list fuel coming.head? = .ok (coming, last) ∧
      Freeing m (freed ++ coming) last := by
  induction coming generalizing after freed passed fuel with
  | nil =>
      obtain ⟨fuel, rfl⟩ : ∃ rest, fuel = rest + 1 := ⟨fuel - 1, by omega⟩
      exact ⟨after, rfl, by rwa [List.append_nil]⟩
  | cons object coming inductionHypothesis =>
      obtain ⟨fuel, rfl⟩ : ∃ rest, fuel = rest + 1 := ⟨fuel - 1, by omega⟩
      rw [List.length_cons] at left enough
      have next : (after.threads object).next = coming.head? := by
        rw [freeing.threads]
        rw [← shape] at holds
        exact holds.next_eq
      let freedOne : ThreadMaster Func Arg :=
        { after.addCount list (-1) with alloc := after.alloc - 1 }
      have freeingOne : Freeing m (freed ++ [object]) freedOne := by
        refine ⟨freeing.threads, ?_, ?_⟩
        · intro other
          rw [← freeing.head other]
          by_cases same : other = list
          · subst same
            simp [freedOne, ThreadMaster.addCount, ThreadMaster.writeList]
          · simp [freedOne, ThreadMaster.addCount, ThreadMaster.writeList, same]
        · have total := freeing.alloc
          change after.alloc - 1 + (freed ++ [object]).length = m.alloc
          rw [List.length_append, List.length_singleton]
          omega
      have leftOne : coming.length ≤ freedOne.alloc := by
        change coming.length ≤ after.alloc - 1
        omega
      have shapeOne : (passed ++ [object]) ++ coming = nodes := by
        rw [← shape, List.append_assoc, List.singleton_append]
      obtain ⟨last, returned, freeingLast⟩ :=
        inductionHypothesis freeingOne shapeOne leftOne (Nat.lt_of_succ_lt_succ enough)
      refine ⟨last, ?_, ?_⟩
      · rw [List.head?_cons, Threads.threadListFree, next]
        change (Threads.threadListFree freedOne list fuel coming.head? >>= fun result =>
          pure (object :: result.1, result.2)) = _
        rw [returned]
        rfl
      · rwa [List.append_assoc, List.singleton_append] at freeingLast

/-- The lists are freed one after the other. -/
theorem Freeing.lists
    {after : ThreadMaster Func Arg}
    {freed : List ThreadId}
    (lists : List ThreadType)
    (freeing : Freeing m freed after)
    (chained : Chained m a.queue)
    (left : (lists.flatMap a.queue).length ≤ after.alloc) :
    ∃ last,
      lists.foldlM
          (fun (freed, m) list => do
            let (more, m) ← Threads.threadListFree m list (m.alloc + 1) (m.lists list).head
            return (freed ++ more, m))
          (freed, after) =
        (.ok (freed ++ lists.flatMap a.queue, last) :
          Except Fault (List ThreadId × ThreadMaster Func Arg)) ∧
      Freeing m (freed ++ lists.flatMap a.queue) last := by
  induction lists generalizing after freed with
  | nil =>
      rw [List.flatMap_nil, List.append_nil]
      exact ⟨after, rfl, freeing⟩
  | cons list lists inductionHypothesis =>
      rw [List.flatMap_cons, List.length_append] at left
      have holds := chained.holds list
      have enough : (a.queue list).length < after.alloc + 1 := by
        omega
      obtain ⟨between, returned, freeingBetween⟩ :=
        freeing.threadListFree holds (List.nil_append _) (Nat.le_of_lt_succ enough) enough
      have head : (after.lists list).head = (a.queue list).head? :=
        (freeing.head list).trans holds.head_eq
      have leftBetween : (lists.flatMap a.queue).length ≤ between.alloc := by
        have total := freeing.alloc
        have totalBetween := freeingBetween.alloc
        rw [List.length_append] at totalBetween
        omega
      obtain ⟨last, returnedRest, freeingLast⟩ :=
        inductionHypothesis freeingBetween leftBetween
      refine ⟨last, ?_, ?_⟩
      · rw [List.foldlM_cons, List.flatMap_cons, ← List.append_assoc]
        dsimp only
        rw [head, returned]
        exact returnedRest
      · rwa [List.flatMap_cons, ← List.append_assoc]

end

end Pma.Threads
