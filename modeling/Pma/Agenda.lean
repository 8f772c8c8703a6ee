import Mathlib.Data.List.Count
import Pma.ThreadLists

namespace Pma.Threads

/-!
# The agenda behind the scheduler

What `lib/thread.c` is for, without its pointers: who waits on which list, what
for, and which of them is fetched next.  The lists of threads and the job of
each thread are all there is; types, links, counts and descriptor sets follow.
-/

variable {Func Arg : Type}

/-- Who waits on which list, and what for. -/
structure Agenda (Func Arg : Type) where
  queue : ThreadType → List ThreadId
  job : ThreadId → Job Func Arg
  alloc : Nat

namespace Agenda

/-- The agenda of a new master. -/
def empty : Agenda Func Arg where
  queue := fun _ => []
  job := fun _ => zeroThread.job
  alloc := 0

section

variable (a : Agenda Func Arg) (list : ThreadType) (thread : ThreadId)

/-- All threads, those that are not used last. -/
def all : List ThreadId :=
  a.queue .read ++ a.queue .write ++ a.queue .timer ++ a.queue .event ++ a.queue .ready ++
    a.queue .unused

/-- The agenda with other threads on a list. -/
def set (threads : List ThreadId) : Agenda Func Arg :=
  { a with queue := Function.update a.queue list threads }

/-- The handle of the next thread that is added. -/
def fresh : ThreadId :=
  (a.queue .unused).headD a.alloc

/-- The agenda once this handle is taken. -/
def take : Agenda Func Arg :=
  { a.set .unused (a.queue .unused).tail with
    alloc := if a.queue .unused = [] then a.alloc + 1 else a.alloc }

/-- A new thread between two parts of a list. -/
def add (job : Job Func Arg) (parts : List ThreadId × List ThreadId) : Agenda Func Arg :=
  { a.take.set list (parts.1 ++ a.fresh :: parts.2) with
    job := Function.update a.job a.fresh job }

/-- A thread goes from its list to the end of another one. -/
def move (target : ThreadType) : Agenda Func Arg :=
  let a := a.set list ((a.queue list).erase thread)
  a.set target (a.queue target ++ [thread])

/-- The threads of a list with a property go to the end of another one. -/
def sweep (target : ThreadType) (gone : ThreadId → Bool) : Agenda Func Arg :=
  (a.set list ((a.queue list).filter fun thread => !gone thread)).set target
    (a.queue target ++ (a.queue list).filter gone)

/-- The same while those that were passed are done and others are still to come. -/
def partway (target : ThreadType) (gone : ThreadId → Bool) (passed coming : List ThreadId) :
    Agenda Func Arg :=
  (a.set list ((passed.filter fun thread => !gone thread) ++ coming)).set target
    (a.queue target ++ passed.filter gone)

/-- A thread leaves its list, and can be used again. -/
def retire : Agenda Func Arg :=
  a.move list thread .unused

/-- The descriptor a thread waits for. -/
def descriptor : Option Nat :=
  match (a.job thread).u with
  | .fd descriptor => some descriptor
  | _ => none

/-- The time a timer is set to. -/
def time : Option Timeval :=
  match (a.job thread).u with
  | .sands time => some time
  | _ => none

/-- The descriptors the threads of a list wait for. -/
def watched : Finset Nat :=
  ((a.queue list).filterMap a.descriptor).toFinset

/-- A timer for this time goes before a thread. -/
def isBefore (sands : Timeval) : Bool :=
  (a.time thread).any fun time => decide (timevalCmp sands time ≤ 0)

/-- A timer is due. -/
def isDue (timerNow : Timeval) : Bool :=
  (a.time thread).any fun time => decide (timevalCmp timerNow time ≥ 0)

/-- One of the descriptors is the one a thread waits for. -/
def isHit (fdset : Finset Nat) : Bool :=
  (a.descriptor thread).any fun fd => decide (fd ∈ fdset)

/-- The copy of a thread that is handed out. -/
def copy : Thread Func Arg where
  type := list
  next := none
  prev := none
  func := (a.job thread).func
  arg := (a.job thread).arg
  u := (a.job thread).u

end

/-! ## Calls -/

section

variable (a : Agenda Func Arg)

/-- A thread for a descriptor, unless there is one. -/
def addWatch (list : ThreadType) (func : Func) (arg : Option Arg) (fd : Nat) :
    Option ThreadId × Agenda Func Arg :=
  if fd ∈ a.watched list then
    (none, a)
  else
    (some a.fresh, a.add list ⟨some func, arg, .fd fd⟩ (a.queue list, []))

/-- A timer, before the first that is not earlier. -/
def addTimer (func : Func) (arg : Option Arg) (sands : Timeval) : Agenda Func Arg :=
  a.add .timer ⟨some func, arg, .sands sands⟩
    ((a.queue .timer).span fun thread => !a.isBefore thread sands)

/-- An event, behind the others. -/
def addEvent (func : Func) (arg : Option Arg) (val : Int) : Agenda Func Arg :=
  a.add .event ⟨some func, arg, .val val⟩ (a.queue .event, [])

/-- The list that a thread waits on. -/
def listOf (thread : ThreadId) : Option ThreadType :=
  [ThreadType.read, .write, .timer, .event, .ready].find? fun list => thread ∈ a.queue list

/-- A thread is cancelled, if it waits. -/
def cancel (thread : ThreadId) : Agenda Func Arg :=
  match a.listOf thread with
  | some list => a.retire list thread
  | none => a

/-- The events with an argument are cancelled. -/
def cancelEvent [DecidableEq Arg] (arg : Option Arg) : Agenda Func Arg :=
  a.sweep .event .unused fun thread => (a.job thread).arg = arg

/-- Events go first, then the first timer that is due, then what is ready. -/
def next (timerNow : Timeval) : Option (ThreadType × ThreadId) :=
  match (a.queue .event).head? with
  | some thread => some (.event, thread)
  | none =>
      match (a.queue .timer).find? fun thread => a.isDue thread timerNow with
      | some thread => some (.timer, thread)
      | none => (a.queue .ready).head?.map fun thread => (.ready, thread)

/-- The threads of a list whose descriptors were hit become ready. -/
def process (list : ThreadType) (fdset : Finset Nat) : Agenda Func Arg :=
  a.sweep list .ready fun thread => a.isHit thread fdset

/-- How long `select` may wait: until the first timer. -/
def wait (timerNow : Timeval) : Option Timeval := do
  let thread ← (a.queue .timer).head?
  let time ← a.time thread
  let timerMin := timevalSubtract time timerNow
  return if timerMin.tvSec < 0 then { tvSec := 0, tvUsec := 10 } else timerMin

/-- What `select` is called with. -/
def selectCall (timerNow : Timeval) : SelectCall where
  readfd := a.watched .read
  writefd := a.watched .write
  exceptfd := ∅
  timerWait := a.wait timerNow

/-- A thread is handed out and its object can be used again. -/
def deliver (list : ThreadType) (thread : ThreadId) : Fetched Func Arg × Agenda Func Arg :=
  (.fetch thread (a.copy list thread), a.retire list thread)

end

/-- The passes of `thread_fetch`. -/
def fetchLoop (a : Agenda Func Arg) :
    List Pass → Fetched Func Arg × List SelectCall × Agenda Func Arg
  | [] => (.asleep, [], a)
  | pass :: passes =>
      match a.next pass.timerNow with
      | some (list, thread) =>
          let (fetched, a) := a.deliver list thread
          (fetched, [], a)
      | none =>
          let call := a.selectCall pass.waitNow
          match pass.selected with
          | .nothing | .interrupted =>
              let (fetched, calls, a) := a.fetchLoop passes
              (fetched, call :: calls, a)
          | .failed => (.null, [call], a)
          | .ready readfd writefd =>
              let a := (a.process .read readfd).process .write writefd
              match (a.queue .ready).head? with
              | some thread =>
                  let (fetched, a) := a.deliver .ready thread
                  (fetched, [call], a)
              | none =>
                  let (fetched, calls, a) := a.fetchLoop passes
                  (fetched, call :: calls, a)

/-- `thread_fetch` on the agenda. -/
def fetch (a : Agenda Func Arg) (passes : List Pass) :
    Fetched Func Arg × List SelectCall × Agenda Func Arg :=
  if a.queue .event = [] ∧ a.queue .read = [] ∧ a.queue .ready = [] ∧ a.queue .timer = [] ∧
      a.queue .write = [] then
    (.null, [], a)
  else
    a.fetchLoop passes

/-- A call. -/
def step [DecidableEq Arg] (a : Agenda Func Arg) :
    Call Func Arg → Answer Func Arg × Agenda Func Arg
  | .addRead func arg fd =>
      let (thread, a) := a.addWatch .read func arg fd
      (.handle thread, a)
  | .addWrite func arg fd =>
      let (thread, a) := a.addWatch .write func arg fd
      (.handle thread, a)
  | .addTimerHighResolution func arg microsecends timerNow =>
      (.handle (some a.fresh), a.addTimer func arg (deadline timerNow microsecends))
  | .addTimer func arg timer timerNow =>
      (.handle (some a.fresh),
        a.addTimer func arg (deadline timerNow (UInt64.ofInt (timer * timerSecondMicro))))
  | .addEvent func arg val => (.handle (some a.fresh), a.addEvent func arg val)
  | .cancel thread => (.nothing, a.cancel thread)
  | .cancelEvent arg => (.nothing, a.cancelEvent arg)
  | .fetch passes =>
      let (fetched, calls, a) := a.fetch passes
      (.fetched fetched calls, a)

/-! ## What holds of every agenda -/

/-- Every thread is on one list, and waits for what the list is for. -/
structure WellFormed (a : Agenda Func Arg) : Prop where
  once : ∀ thread, a.all.count thread = if thread < a.alloc then 1 else 0
  watching :
    ∀ list, list = .read ∨ list = .write → ∀ thread ∈ a.queue list,
      ∃ fd, fd < fdSetsize ∧ (a.job thread).u = .fd fd
  different :
    ∀ list, list = .read ∨ list = .write → ∀ thread ∈ a.queue list, ∀ other ∈ a.queue list,
      (a.job thread).u = (a.job other).u → thread = other
  timers : ∀ thread ∈ a.queue .timer, ∃ time, (a.job thread).u = .sands time

/-! ## Counting threads -/

section

variable
  {a : Agenda Func Arg}
  {list other : ThreadType}
  {thread : ThreadId}

theorem count_set
    (a : Agenda Func Arg)
    (list : ThreadType)
    (threads : List ThreadId)
    (thread : ThreadId) :
    (a.set list threads).all.count thread + (a.queue list).count thread =
      a.all.count thread + threads.count thread := by
  cases list <;>
    simp only [all, set, List.count_append, Function.update_self, ne_eq, reduceCtorEq,
      not_false_eq_true, Function.update_of_ne] <;>
    omega

theorem queue_set_self
    (a : Agenda Func Arg)
    (list : ThreadType)
    (threads : List ThreadId) :
    (a.set list threads).queue list = threads :=
  Function.update_self ..

theorem queue_set_other
    (a : Agenda Func Arg)
    (threads : List ThreadId)
    (different : other ≠ list) :
    (a.set list threads).queue other = a.queue other :=
  Function.update_of_ne different ..

theorem count_queue_add_le
    (a : Agenda Func Arg)
    (thread : ThreadId)
    (different : list ≠ other) :
    (a.queue list).count thread + (a.queue other).count thread ≤ a.all.count thread := by
  cases list <;> cases other <;>
    first
      | exact absurd rfl different
      | simp only [all, List.count_append]
        omega

theorem mem_all :
    thread ∈ a.all ↔ ∃ list, thread ∈ a.queue list := by
  simp only [all, List.mem_append]
  constructor
  · rintro (((((inRead | inWrite) | inTimer) | inEvent) | inReady) | inUnused)
    exacts [⟨_, inRead⟩, ⟨_, inWrite⟩, ⟨_, inTimer⟩, ⟨_, inEvent⟩, ⟨_, inReady⟩, ⟨_, inUnused⟩]
  · rintro ⟨list, member⟩
    cases list <;> simp [member]

namespace WellFormed

theorem count_le_one
    (wellFormed : WellFormed a)
    (thread : ThreadId) :
    a.all.count thread ≤ 1 := by
  rw [wellFormed.once]
  split <;> omega

/-- No thread is on two lists. -/
theorem apart
    (wellFormed : WellFormed a)
    (inList : thread ∈ a.queue list)
    (inOther : thread ∈ a.queue other) :
    list = other := by
  by_contra different
  have together := count_queue_add_le a thread different
  have once := wellFormed.count_le_one thread
  have first := List.count_pos_iff.mpr inList
  have second := List.count_pos_iff.mpr inOther
  omega

/-- No thread is on a list twice. -/
theorem nodup
    (wellFormed : WellFormed a)
    (list : ThreadType) :
    (a.queue list).Nodup := by
  apply List.nodup_iff_count_le_one.mpr
  intro thread
  have once := wellFormed.count_le_one thread
  have inAll : (a.queue list).count thread ≤ a.all.count thread := by
    cases list <;> simp only [all, List.count_append] <;> omega
  omega

/-- The threads on the lists are those that were allocated. -/
theorem lt_alloc_iff
    (wellFormed : WellFormed a) :
    thread < a.alloc ↔ ∃ list, thread ∈ a.queue list := by
  rw [← mem_all, ← List.count_pos_iff, wellFormed.once]
  split <;> simp_all

/-- A list is no longer than there are threads. -/
theorem length_le
    (wellFormed : WellFormed a)
    (list : ThreadType) :
    (a.queue list).length ≤ a.alloc := by
  have inside : a.queue list ⊆ List.range a.alloc := by
    intro thread member
    exact List.mem_range.mpr (wellFormed.lt_alloc_iff.mpr ⟨list, member⟩)
  have short := (wellFormed.nodup list).length_le_of_subset inside
  rwa [List.length_range] at short

end WellFormed

/-! ## The next handle -/

theorem count_take
    (a : Agenda Func Arg)
    (thread : ThreadId) :
    a.take.all.count thread + (a.queue .unused).count thread =
      a.all.count thread + (a.queue .unused).tail.count thread :=
  count_set a .unused (a.queue .unused).tail thread

theorem fresh_lt
    (wellFormed : WellFormed a) :
    a.fresh < a.take.alloc := by
  unfold fresh take
  cases unused : a.queue .unused with
  | nil =>
      simp
  | cons head rest =>
      have member : head ∈ a.queue .unused := by
        rw [unused]
        exact List.mem_cons_self
      simpa using wellFormed.lt_alloc_iff.mpr ⟨_, member⟩

/-- Once the handle is taken, its thread is on no list. -/
theorem count_take_fresh
    (wellFormed : WellFormed a) :
    a.take.all.count a.fresh = 0 := by
  have counts := count_take a a.fresh
  have once := wellFormed.once a.fresh
  unfold fresh at counts once ⊢
  cases unused : a.queue .unused with
  | nil =>
      rw [unused] at counts once
      simp only [List.headD_nil, List.count_nil, List.tail_nil, Nat.add_zero, lt_irrefl,
        if_false] at counts once ⊢
      rw [counts, once]
  | cons head rest =>
      rw [unused] at counts once
      simp only [List.headD_cons, List.count_cons_self, List.tail_cons] at counts once ⊢
      have atMost : a.all.count head ≤ 1 := wellFormed.count_le_one head
      omega

theorem once_take
    (wellFormed : WellFormed a)
    (different : thread ≠ a.fresh) :
    a.take.all.count thread = if thread < a.take.alloc then 1 else 0 := by
  have counts := count_take a thread
  rw [wellFormed.once] at counts
  unfold fresh at different
  cases unused : a.queue .unused with
  | nil =>
      rw [unused] at counts different
      have allocated : a.take.alloc = a.alloc + 1 := by
        simp [take, unused]
      have other : thread ≠ a.alloc := different
      rw [allocated]
      simp only [List.count_nil, List.tail_nil, Nat.add_zero] at counts
      have below : thread < a.alloc + 1 ↔ thread < a.alloc :=
        ⟨fun less => Nat.lt_of_le_of_ne (Nat.le_of_lt_succ less) other, Nat.lt_succ_of_lt⟩
      simp only [counts, below]
  | cons head rest =>
      rw [unused] at counts different
      have allocated : a.take.alloc = a.alloc := by
        simp [take, unused]
      have other : head ≠ thread := fun same => different same.symm
      rw [allocated]
      rw [List.count_cons_of_ne other, List.tail_cons] at counts
      omega

theorem fresh_off
    (wellFormed : WellFormed a)
    (list : ThreadType) :
    a.fresh ∉ a.take.queue list := by
  intro member
  have inAll : a.fresh ∈ a.take.all := mem_all.mpr ⟨list, member⟩
  have counted := List.count_pos_iff.mpr inAll
  rw [count_take_fresh wellFormed] at counted
  exact Nat.lt_irrefl 0 counted

theorem queue_take
    (a : Agenda Func Arg)
    (used : list ≠ .unused) :
    a.take.queue list = a.queue list :=
  Function.update_of_ne used ..

theorem take_subset
    (a : Agenda Func Arg)
    (list : ThreadType) :
    a.take.queue list ⊆ a.queue list := by
  intro thread member
  by_cases unused : list = .unused
  · subst unused
    have inTail : thread ∈ (a.queue .unused).tail := by
      simpa [take, set] using member
    exact List.mem_of_mem_tail inTail
  · rwa [queue_take a unused] at member

/-! ## The calls keep every agenda well formed -/

/-- The threads that wait for the job of a list; `value` is not what another one waits for. -/
def Fits (a : Agenda Func Arg) (list : ThreadType) (value : Second) : Prop :=
  match list with
  | .read | .write => ∃ fd, fd < fdSetsize ∧ value = .fd fd ∧ fd ∉ a.watched list
  | .timer => ∃ time, value = .sands time
  | _ => True

theorem mem_watched
    {fd : Nat}
    (a : Agenda Func Arg) :
    fd ∈ a.watched list ↔ ∃ thread ∈ a.queue list, (a.job thread).u = .fd fd := by
  have isDescriptor (thread : ThreadId) :
      a.descriptor thread = some fd ↔ (a.job thread).u = .fd fd := by
    unfold descriptor
    cases (a.job thread).u <;> simp
  simp [watched, isDescriptor]

section

variable {job : Job Func Arg} {parts : List ThreadId × List ThreadId}

theorem queue_add_self
    (a : Agenda Func Arg) :
    (a.add list job parts).queue list = parts.1 ++ a.fresh :: parts.2 :=
  Function.update_self ..

theorem queue_add_other
    (a : Agenda Func Arg)
    (different : other ≠ list) :
    (a.add list job parts).queue other = a.take.queue other :=
  Function.update_of_ne different ..

theorem job_add_fresh
    (a : Agenda Func Arg) :
    (a.add list job parts).job a.fresh = job :=
  Function.update_self ..

theorem job_add_other
    (a : Agenda Func Arg)
    (different : thread ≠ a.fresh) :
    (a.add list job parts).job thread = a.job thread :=
  Function.update_of_ne different ..

/-- Whether the descriptor of a thread was hit. -/
theorem isHit_eq
    {fdset : Finset Nat}
    {fd : Nat}
    (a : Agenda Func Arg)
    (value : (a.job thread).u = .fd fd) :
    a.isHit thread fdset = decide (fd ∈ fdset) := by
  simp [isHit, descriptor, value]

/-- An addition to one list leaves what is watched on another. -/
theorem watched_add_other
    (wellFormed : WellFormed a)
    (different : other ≠ list)
    (used : other ≠ .unused) :
    (a.add list job parts).watched other = a.watched other := by
  have jobs {thread : ThreadId} (member : thread ∈ a.queue other) :
      (a.add list job parts).job thread = a.job thread := by
    apply job_add_other
    rintro rfl
    apply fresh_off wellFormed other
    rwa [queue_take a used]
  ext fd
  rw [mem_watched, mem_watched, queue_add_other a different, queue_take a used]
  constructor
  · rintro ⟨thread, member, value⟩
    rw [jobs member] at value
    exact ⟨thread, member, value⟩
  · rintro ⟨thread, member, value⟩
    rw [← jobs member] at value
    exact ⟨thread, member, value⟩

/-- An addition adds the descriptor of the new thread. -/
theorem watched_add_self
    {fd : Nat}
    (wellFormed : WellFormed a)
    (used : list ≠ .unused)
    (value : job.u = .fd fd) :
    (a.add list job (a.queue list, [])).watched list = insert fd (a.watched list) := by
  have jobs {thread : ThreadId} (member : thread ∈ a.queue list) :
      (a.add list job (a.queue list, [])).job thread = a.job thread := by
    apply job_add_other
    rintro rfl
    apply fresh_off wellFormed list
    rwa [queue_take a used]
  ext other
  rw [Finset.mem_insert, mem_watched, mem_watched, queue_add_self]
  constructor
  · rintro ⟨thread, member, watches⟩
    rcases List.mem_append.mp member with old | new
    · rw [jobs old] at watches
      exact .inr ⟨thread, old, watches⟩
    · rw [List.mem_singleton] at new
      subst new
      rw [job_add_fresh, value] at watches
      cases watches
      exact .inl rfl
  · rintro (rfl | ⟨thread, old, watches⟩)
    · exact ⟨a.fresh, by simp, by rw [job_add_fresh, value]⟩
    · rw [← jobs old] at watches
      exact ⟨thread, List.mem_append_left _ old, watches⟩

/-- On the lists after an addition are the new thread and those of before. -/
theorem mem_add
    (wellFormed : WellFormed a)
    (used : list ≠ .unused)
    (shape : a.queue list = parts.1 ++ parts.2)
    (member : thread ∈ (a.add list job parts).queue other) :
    (thread = a.fresh ∧ other = list) ∨ (thread ≠ a.fresh ∧ thread ∈ a.queue other) := by
  by_cases same : other = list
  · subst same
    rw [queue_add_self] at member
    by_cases new : thread = a.fresh
    · exact .inl ⟨new, rfl⟩
    · refine .inr ⟨new, ?_⟩
      rw [shape]
      simpa [new] using member
  · rw [queue_add_other a same] at member
    refine .inr ⟨?_, take_subset a other member⟩
    rintro rfl
    exact fresh_off wellFormed other member

theorem WellFormed.add
    (wellFormed : WellFormed a)
    (used : list ≠ .unused)
    (shape : a.queue list = parts.1 ++ parts.2)
    (fits : Fits a list job.u) :
    WellFormed (a.add list job parts) := by
  have jobOf {other : ThreadType} {thread : ThreadId}
      (member : thread ∈ (a.add list job parts).queue other) :
      (thread = a.fresh ∧ other = list ∧ ((a.add list job parts).job thread).u = job.u) ∨
        (thread ∈ a.queue other ∧
          ((a.add list job parts).job thread).u = (a.job thread).u) := by
    rcases mem_add wellFormed used shape member with ⟨rfl, rfl⟩ | ⟨different, old⟩
    · exact .inl ⟨rfl, rfl, by rw [job_add_fresh]⟩
    · exact .inr ⟨old, by rw [job_add_other a different]⟩
  refine ⟨?_, ?_, ?_, ?_⟩
  · intro thread
    have counts := count_set a.take list (parts.1 ++ a.fresh :: parts.2) thread
    have before : (a.take.queue list).count thread =
        parts.1.count thread + parts.2.count thread := by
      rw [queue_take a used, shape, List.count_append]
    have allocated : (a.add list job parts).alloc = a.take.alloc := rfl
    have all : (a.add list job parts).all =
        (a.take.set list (parts.1 ++ a.fresh :: parts.2)).all := rfl
    rw [before, List.count_append] at counts
    rw [all, allocated]
    by_cases new : thread = a.fresh
    · subst new
      rw [count_take_fresh wellFormed, List.count_cons_self] at counts
      rw [if_pos (fresh_lt wellFormed)]
      omega
    · rw [once_take wellFormed new, List.count_cons_of_ne (Ne.symm new)] at counts
      omega
  · intro other watch thread member
    rcases jobOf member with ⟨rfl, rfl, isNew⟩ | ⟨old, isOld⟩
    · rw [isNew]
      rcases watch with rfl | rfl
      all_goals
        obtain ⟨fd, inside, value, _⟩ := fits
        exact ⟨fd, inside, value⟩
    · rw [isOld]
      exact wellFormed.watching other watch thread old
  · have apart {other : ThreadType} {thread : ThreadId}
        (watch : other = .read ∨ other = .write)
        (isList : other = list)
        (old : thread ∈ a.queue other) :
        (a.job thread).u ≠ job.u := by
      subst isList
      intro same
      have taken : ∃ fd, job.u = .fd fd ∧ fd ∉ a.watched other := by
        rcases watch with rfl | rfl
        all_goals
          obtain ⟨fd, _, value, free⟩ := fits
          exact ⟨fd, value, free⟩
      obtain ⟨fd, value, free⟩ := taken
      exact free ((mem_watched a).mpr ⟨thread, old, same.trans value⟩)
    intro other watch one inOne two inTwo same
    rcases jobOf inOne with ⟨rfl, isList, isNew⟩ | ⟨oldOne, isOldOne⟩
    · rcases jobOf inTwo with ⟨rfl, _, _⟩ | ⟨oldTwo, isOldTwo⟩
      · rfl
      · rw [isNew, isOldTwo] at same
        exact absurd same.symm (apart watch isList oldTwo)
    · rcases jobOf inTwo with ⟨rfl, isList, isNew⟩ | ⟨oldTwo, isOldTwo⟩
      · rw [isNew, isOldOne] at same
        exact absurd same (apart watch isList oldOne)
      · rw [isOldOne, isOldTwo] at same
        exact wellFormed.different other watch one oldOne two oldTwo same
  · intro thread member
    rcases jobOf member with ⟨rfl, rfl, isNew⟩ | ⟨old, isOld⟩
    · rw [isNew]
      exact fits
    · rw [isOld]
      exact wellFormed.timers thread old

end

/-- The same threads and jobs, but some that waited wait no longer. -/
structure Rearranged (before after : Agenda Func Arg) : Prop where
  job : after.job = before.job
  alloc : after.alloc = before.alloc
  counts : ∀ thread, after.all.count thread = before.all.count thread
  waiting :
    ∀ list, list = .read ∨ list = .write ∨ list = .timer →
      after.queue list ⊆ before.queue list

theorem WellFormed.rearranged
    {after : Agenda Func Arg}
    (wellFormed : WellFormed a)
    (rearranged : Rearranged a after) :
    WellFormed after := by
  have watch {list : ThreadType} (isWatch : list = .read ∨ list = .write) :
      after.queue list ⊆ a.queue list := by
    apply rearranged.waiting
    tauto
  refine ⟨?_, ?_, ?_, ?_⟩
  · intro thread
    rw [rearranged.counts, rearranged.alloc]
    exact wellFormed.once thread
  · intro list isWatch thread member
    rw [rearranged.job]
    exact wellFormed.watching list isWatch thread (watch isWatch member)
  · intro list isWatch one inOne two inTwo same
    rw [rearranged.job] at same
    exact wellFormed.different list isWatch one (watch isWatch inOne) two (watch isWatch inTwo)
      same
  · intro thread member
    rw [rearranged.job]
    exact wellFormed.timers thread (rearranged.waiting _ (by simp) member)

namespace Rearranged

theorem refl (a : Agenda Func Arg) : Rearranged a a :=
  ⟨rfl, rfl, fun _ => rfl, fun _ _ => List.Subset.refl _⟩

theorem trans
    {first second third : Agenda Func Arg}
    (earlier : Rearranged first second)
    (later : Rearranged second third) :
    Rearranged first third where
  job := later.job.trans earlier.job
  alloc := later.alloc.trans earlier.alloc
  counts thread := (later.counts thread).trans (earlier.counts thread)
  waiting list isWaiting :=
    List.Subset.trans (later.waiting list isWaiting) (earlier.waiting list isWaiting)

/-- Threads move from a list to the end of another one, on which nobody waits. -/
theorem moved
    {kept gone : List ThreadId}
    {target : ThreadType}
    (a : Agenda Func Arg)
    (different : target ≠ list)
    (notWaiting : target ≠ .read ∧ target ≠ .write ∧ target ≠ .timer)
    (split : ∀ thread, (a.queue list).count thread = kept.count thread + gone.count thread) :
    Rearranged a ((a.set list kept).set target (a.queue target ++ gone)) := by
  have sub : kept ⊆ a.queue list := by
    intro thread member
    have counted := List.count_pos_iff.mpr member
    apply List.count_pos_iff.mp
    rw [split]
    omega
  refine ⟨rfl, rfl, ?_, ?_⟩
  · intro thread
    have first := count_set a list kept thread
    have second := count_set (a.set list kept) target (a.queue target ++ gone) thread
    have same : (a.set list kept).queue target = a.queue target :=
      queue_set_other a kept different
    rw [same, List.count_append] at second
    rw [split] at first
    omega
  · intro other isWaiting
    have notTarget : other ≠ target := by
      rintro rfl
      tauto
    rw [queue_set_other _ _ notTarget]
    by_cases same : other = list
    · subst same
      rwa [queue_set_self]
    · rw [queue_set_other a kept same]
      exact List.Subset.refl _

/-- A thread goes to the end of another list, on which nobody waits. -/
theorem move
    {target : ThreadType}
    (a : Agenda Func Arg)
    (different : target ≠ list)
    (notWaiting : target ≠ .read ∧ target ≠ .write ∧ target ≠ .timer)
    (member : thread ∈ a.queue list) :
    Rearranged a (a.move list thread target) := by
  have same :
      (a.set list ((a.queue list).erase thread)).queue target = a.queue target :=
    queue_set_other a _ different
  unfold Agenda.move
  dsimp only
  rw [same]
  apply moved a different notWaiting
  intro other
  have counted := List.count_pos_iff.mpr member
  rw [List.count_erase, List.count_singleton]
  by_cases isThread : other = thread
  · subst isThread
    simp only [BEq.rfl, if_true]
    omega
  · have away : ¬ (thread == other) = true := by
      simpa using Ne.symm isThread
    rw [if_neg away]
    omega

/-- A thread leaves its list. -/
theorem retire
    (a : Agenda Func Arg)
    (used : list ≠ .unused)
    (member : thread ∈ a.queue list) :
    Rearranged a (a.retire list thread) :=
  move a used.symm (by decide) member

/-- Some threads of a list with a property have moved. -/
theorem partway
    {target : ThreadType}
    {passed coming : List ThreadId}
    (a : Agenda Func Arg)
    (gone : ThreadId → Bool)
    (different : target ≠ list)
    (notWaiting : target ≠ .read ∧ target ≠ .write ∧ target ≠ .timer)
    (shape : passed ++ coming = a.queue list) :
    Rearranged a (a.partway list target gone passed coming) := by
  apply moved a different notWaiting
  intro thread
  have split := (List.filter_append_perm gone passed).count_eq thread
  rw [List.count_append] at split
  rw [← shape, List.count_append, List.count_append]
  omega

end Rearranged

section

variable {target : ThreadType}

theorem queue_move_self
    (a : Agenda Func Arg)
    (different : list ≠ target) :
    (a.move list thread target).queue list = (a.queue list).erase thread := by
  unfold move
  rw [queue_set_other _ _ different, queue_set_self]

theorem queue_move_target
    (a : Agenda Func Arg)
    (different : target ≠ list) :
    (a.move list thread target).queue target = a.queue target ++ [thread] := by
  unfold move
  rw [queue_set_self, queue_set_other _ _ different]

theorem queue_move_other
    (a : Agenda Func Arg)
    (notList : other ≠ list)
    (notTarget : other ≠ target) :
    (a.move list thread target).queue other = a.queue other := by
  unfold move
  rw [queue_set_other _ _ notTarget, queue_set_other _ _ notList]

/-- What is watched depends on one list only. -/
theorem watched_congr
    {after : Agenda Func Arg}
    (queue : after.queue list = a.queue list)
    (job : after.job = a.job) :
    after.watched list = a.watched list := by
  unfold watched descriptor
  rw [queue, job]

/-- A thread that leaves takes its descriptor along. -/
theorem watched_move_self
    {fd : Nat}
    (wellFormed : WellFormed a)
    (watching : list = .read ∨ list = .write)
    (different : list ≠ target)
    (member : thread ∈ a.queue list)
    (value : (a.job thread).u = .fd fd) :
    (a.move list thread target).watched list = (a.watched list).erase fd := by
  have nodup := wellFormed.nodup list
  have jobs : (a.move list thread target).job = a.job := rfl
  ext other
  rw [Finset.mem_erase, mem_watched, mem_watched, queue_move_self a different, jobs]
  constructor
  · rintro ⟨watcher, remains, watches⟩
    obtain ⟨notThread, old⟩ := nodup.mem_erase_iff.mp remains
    refine ⟨?_, watcher, old, watches⟩
    rintro rfl
    exact notThread (wellFormed.different list watching watcher old thread member
      (watches.trans value.symm))
  · rintro ⟨notFd, watcher, old, watches⟩
    refine ⟨watcher, nodup.mem_erase_iff.mpr ⟨?_, old⟩, watches⟩
    rintro rfl
    rw [value] at watches
    cases watches
    exact notFd rfl

theorem watched_move_other
    (a : Agenda Func Arg)
    (notList : other ≠ list)
    (notTarget : other ≠ target) :
    (a.move list thread target).watched other = a.watched other :=
  watched_congr (queue_move_other a notList notTarget) rfl

end

/-- What is fetched waits on one of three lists. -/
theorem next_mem
    {timerNow : Timeval}
    (found : a.next timerNow = some (list, thread)) :
    (list = .event ∨ list = .timer ∨ list = .ready) ∧ thread ∈ a.queue list := by
  unfold next at found
  split at found
  case h_1 head isHead =>
    cases found
    exact ⟨.inl rfl, List.mem_of_head? isHead⟩
  case h_2 noEvent =>
    split at found
    case h_1 timer isTimer =>
      cases found
      exact ⟨.inr (.inl rfl), List.mem_of_find?_eq_some isTimer⟩
    case h_2 noTimer =>
      obtain ⟨head, isHead, same⟩ := Option.map_eq_some_iff.mp found
      cases same
      exact ⟨.inr (.inr rfl), List.mem_of_head? isHead⟩

/-- Nothing is done yet at the start, and everything at the end. -/
theorem partway_start
    {target : ThreadType}
    (a : Agenda Func Arg)
    (gone : ThreadId → Bool) :
    a.partway list target gone [] (a.queue list) = a := by
  simp [partway, set, Function.update_eq_self]

theorem partway_end
    {target : ThreadType}
    (a : Agenda Func Arg)
    (gone : ThreadId → Bool) :
    a.partway list target gone (a.queue list) [] = a.sweep list target gone := by
  rw [partway, List.append_nil]
  rfl

/-- A thread without the property stays. -/
theorem partway_keep
    {target : ThreadType}
    {gone : ThreadId → Bool}
    {passed coming : List ThreadId}
    (a : Agenda Func Arg)
    (stays : gone thread = false) :
    a.partway list target gone (passed ++ [thread]) coming =
      a.partway list target gone passed (thread :: coming) := by
  simp [partway, List.filter_append, stays]

/-- A thread with the property moves. -/
theorem partway_move
    {target : ThreadType}
    {gone : ThreadId → Bool}
    {passed coming : List ThreadId}
    (a : Agenda Func Arg)
    (different : target ≠ list)
    (goes : gone thread = true)
    (once : thread ∉ passed) :
    (a.partway list target gone passed (thread :: coming)).move list thread target =
      a.partway list target gone (passed ++ [thread]) coming := by
  have away : thread ∉ passed.filter fun thread => !gone thread :=
    fun member => once (List.mem_of_mem_filter member)
  have queueList :
      (a.partway list target gone passed (thread :: coming)).queue list =
        (passed.filter fun thread => !gone thread) ++ thread :: coming := by
    rw [partway, queue_set_other _ _ different.symm, queue_set_self]
  have queueTarget :
      (a.partway list target gone passed (thread :: coming)).queue target =
        a.queue target ++ passed.filter gone := by
    rw [partway, queue_set_self]
  have erased :
      ((passed.filter fun thread => !gone thread) ++ thread :: coming).erase thread =
        (passed.filter fun thread => !gone thread) ++ coming := by
    rw [List.erase_append_right _ away, List.erase_cons_head]
  unfold move
  dsimp only
  rw [queueList, erased, queue_set_other _ _ different, queueTarget]
  simp only [partway, set, List.filter_append, List.filter_cons, List.filter_nil, goes,
    Bool.not_true, Bool.false_eq_true, if_true, if_false, List.append_nil, List.append_assoc]
  congr 1
  funext other
  by_cases isTarget : other = target
  · subst isTarget
    simp
  · by_cases isList : other = list
    · subst isList
      simp [isTarget]
    · simp [isTarget, isList]

/-- A sweep to a list on which nobody waits. -/
theorem rearranged_sweep
    {target : ThreadType}
    (a : Agenda Func Arg)
    (gone : ThreadId → Bool)
    (different : target ≠ list)
    (notWaiting : target ≠ .read ∧ target ≠ .write ∧ target ≠ .timer) :
    Rearranged a (a.sweep list target gone) := by
  rw [← partway_end]
  exact Rearranged.partway a gone different notWaiting (List.append_nil _)

theorem rearranged_process
    (a : Agenda Func Arg)
    (fdset : Finset Nat)
    (watching : list = .read ∨ list = .write) :
    Rearranged a (a.process list fdset) := by
  apply rearranged_sweep a _ _ (by decide)
  rintro rfl
  simp at watching

theorem rearranged_processed
    (a : Agenda Func Arg)
    (readfd writefd : Finset Nat) :
    Rearranged a ((a.process .read readfd).process .write writefd) :=
  (rearranged_process a readfd (.inl rfl)).trans
    (rearranged_process _ writefd (.inr rfl))

theorem rearranged_fetchLoop
    (a : Agenda Func Arg)
    (passes : List Pass) :
    Rearranged a (a.fetchLoop passes).2.2 := by
  induction passes generalizing a with
  | nil =>
      exact .refl a
  | cons pass passes inductionHypothesis =>
      unfold fetchLoop
      cases found : a.next pass.timerNow with
      | some entry =>
          obtain ⟨which, member⟩ := next_mem found
          have used : entry.1 ≠ .unused := by
            rcases which with isList | isList | isList <;> rw [isList] <;> decide
          exact .retire a used member
      | none =>
          cases answer : pass.selected with
          | nothing =>
              exact inductionHypothesis a
          | interrupted =>
              exact inductionHypothesis a
          | failed =>
              exact .refl a
          | ready readfd writefd =>
              have processed := rearranged_processed a readfd writefd
              dsimp only
              split
              case h_1 head isHead =>
                exact processed.trans (.retire _ (by decide) (List.mem_of_head? isHead))
              case h_2 =>
                exact processed.trans (inductionHypothesis _)

theorem rearranged_fetch
    (a : Agenda Func Arg)
    (passes : List Pass) :
    Rearranged a (a.fetch passes).2.2 := by
  unfold fetch
  split
  · exact .refl a
  · exact rearranged_fetchLoop a passes

theorem listOf_eq_some
    (found : a.listOf thread = some list) :
    list ≠ .unused ∧ thread ∈ a.queue list := by
  have isOne := List.mem_of_find?_eq_some found
  have member := List.find?_some found
  refine ⟨?_, by simpa using member⟩
  rintro rfl
  simp at isOne

/-- A thread that waits is found on its list. -/
theorem listOf_of_mem
    (wellFormed : WellFormed a)
    (used : list ≠ .unused)
    (member : thread ∈ a.queue list) :
    a.listOf thread = some list := by
  cases found : a.listOf thread with
  | none =>
      have nowhere := List.find?_eq_none.mp found
      have isOne : list ∈ [ThreadType.read, .write, .timer, .event, .ready] := by
        cases list <;> simp at used ⊢
      exact absurd (by simpa using member) (nowhere list isOne)
  | some other =>
      rw [wellFormed.apart (listOf_eq_some found).2 member]

/-- A thread that waits for nothing is on no list. -/
theorem listOf_unused
    (wellFormed : WellFormed a)
    (member : thread ∈ a.queue .unused) :
    a.listOf thread = none := by
  cases found : a.listOf thread with
  | none =>
      rfl
  | some other =>
      obtain ⟨used, inOther⟩ := listOf_eq_some found
      exact absurd (wellFormed.apart inOther member) used

theorem rearranged_cancel
    (a : Agenda Func Arg)
    (thread : ThreadId) :
    Rearranged a (a.cancel thread) := by
  unfold cancel
  split
  case h_1 list found =>
    obtain ⟨used, member⟩ := listOf_eq_some found
    exact .retire a used member
  case h_2 =>
    exact .refl a

theorem rearranged_cancelEvent
    [DecidableEq Arg]
    (a : Agenda Func Arg)
    (arg : Option Arg) :
    Rearranged a (a.cancelEvent arg) :=
  rearranged_sweep a _ (by decide) (by decide)

/-- The parts between which a timer goes. -/
theorem timer_parts
    (a : Agenda Func Arg)
    (property : ThreadId → Bool) :
    a.queue .timer = ((a.queue .timer).span property).1 ++ ((a.queue .timer).span property).2 := by
  rw [List.span_eq_takeWhile_dropWhile]
  exact (List.takeWhile_append_dropWhile ..).symm

/-- The calls a program may make: its handles were handed out to it. -/
def Allowed (alloc : Nat) : Call Func Arg → Prop
  | .addRead _ _ fd => fd < fdSetsize
  | .addWrite _ _ fd => fd < fdSetsize
  | .cancel thread => thread < alloc
  | _ => True

/-- Every call keeps an agenda well formed. -/
theorem WellFormed.step
    [DecidableEq Arg]
    {call : Call Func Arg}
    (wellFormed : WellFormed a)
    (allowed : Allowed a.alloc call) :
    WellFormed (a.step call).2 := by
  have watch
      {list : ThreadType}
      {func : Func}
      {arg : Option Arg}
      {fd : Nat}
      (isWatch : list = .read ∨ list = .write)
      (inside : fd < fdSetsize) :
      WellFormed (a.addWatch list func arg fd).2 := by
    unfold addWatch
    split
    · exact wellFormed
    case isFalse free =>
      apply wellFormed.add
      · rcases isWatch with rfl | rfl <;> decide
      · exact (List.append_nil _).symm
      · rcases isWatch with rfl | rfl
        all_goals exact ⟨fd, inside, rfl, free⟩
  have timer {func : Func} {arg : Option Arg} {sands : Timeval} :
      WellFormed (a.addTimer func arg sands) :=
    wellFormed.add (by decide) (timer_parts a _) ⟨sands, rfl⟩
  cases call with
  | addRead func arg fd =>
      exact watch (.inl rfl) allowed
  | addWrite func arg fd =>
      exact watch (.inr rfl) allowed
  | addTimerHighResolution func arg microsecends timerNow =>
      exact timer
  | addTimer func arg seconds timerNow =>
      exact timer
  | addEvent func arg val =>
      exact wellFormed.add (by decide) (List.append_nil _).symm trivial
  | cancel thread =>
      exact wellFormed.rearranged (rearranged_cancel a thread)
  | cancelEvent arg =>
      exact wellFormed.rearranged (rearranged_cancelEvent a arg)
  | fetch passes =>
      exact wellFormed.rearranged (rearranged_fetch a passes)

theorem wellFormed_empty :
    WellFormed (empty : Agenda Func Arg) := by
  refine ⟨fun thread => ?_, ?_, ?_, ?_⟩
  · simp [all, empty]
  · intro list _ thread member
    simp [empty] at member
  · intro list _ thread member
    simp [empty] at member
  · intro thread member
    simp [empty] at member

end

end Agenda

end Pma.Threads
