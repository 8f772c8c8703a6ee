import Mathlib.Algebra.Ring.Int.Defs
import Mathlib.Algebra.Ring.Nat
import Mathlib.Data.Fintype.Basic
import Pma.Fifo
import Pma.LinkedQueue

namespace Pma

open Fifo LinkedQueue Transition

/-!
# The thread pool

`lib/thread_pool.c` hands tasks to a fixed number of workers through a list that
callers append to at `tail` and workers take from at `taskqueue`.  A part of a
function that holds `mtx` is one step, and so is a part between two of them.
When the last task was taken `tail` still points to it, and it is freed later.
-/

namespace ThreadPool

/-! ## Memory -/

/-- A pointer; zero is `NULL`. -/
abbrev Ptr := UInt64

/-- `MAX_THREAD`. -/
def maxThread : Nat := 50

/-- What a task is to do; `call` numbers the calls that allocate tasks, and no code reads it. -/
structure Job where
  call : Nat
  runner : Ptr
  args : Ptr
  deriving Repr, DecidableEq

/-- `struct Task`. -/
structure Task extends Job where
  next : Ptr
  deriving Repr, DecidableEq

/-- `struct Pool`; `size` wraps around when it overflows. -/
structure Pool where
  size : Int32
  taskqueue : Ptr
  tail : Ptr
  shutdown : Int32
  status : Int32
  deriving Repr, DecidableEq

/-- The pool and the tasks that `malloc` returned and `free` was not called for. -/
structure Memory where
  pool : Pool
  tasks : Ptr → Option Task

/-- What ends the program, or a step that its thread is not at. -/
inductive Fault where
  | badPointer
  | outOfMemory
  | disabled
  deriving Repr, DecidableEq

namespace Memory

/-- `ptr->next`; no task is at `NULL`. -/
def next (mem : Memory) (ptr : Ptr) : Except Fault Ptr :=
  match mem.tasks ptr with
  | none => .error .badPointer
  | some task => .ok task.next

/-- `ptr->next = value`. -/
def setNext (mem : Memory) (ptr value : Ptr) : Except Fault Memory :=
  match mem.tasks ptr with
  | none => .error .badPointer
  | some task =>
      .ok { mem with tasks := Function.update mem.tasks ptr (some { task with next := value }) }

/-- The part of `add_task_to_pool` that holds `mtx`. -/
def append (mem : Memory) (task : Ptr) : Except Fault Memory := do
  let mem ←
    if mem.pool.taskqueue = 0 then
      let mem := { mem with pool.taskqueue := task }
      pure { mem with pool.tail := mem.pool.taskqueue }
    else do
      let mem ← mem.setNext mem.pool.tail task
      let tail ← mem.next mem.pool.tail
      pure { mem with pool.tail := tail }
  return { mem with pool.size := mem.pool.size + 1 }

/-- How `pool_daemon` takes a task. -/
def take (mem : Memory) : Except Fault (Ptr × Memory) := do
  let mem := { mem with pool.size := mem.pool.size - 1 }
  let task := mem.pool.taskqueue
  let next ← mem.next task
  return (task, { mem with pool.taskqueue := next })

/-- The links of the tasks. -/
def link (mem : Memory) (ptr : Ptr) : Option Ptr :=
  (mem.tasks ptr).map Task.next

/-- The job of a task. -/
def job? (mem : Memory) (ptr : Ptr) : Option Job :=
  (mem.tasks ptr).map Task.toJob

end Memory

/-! ## Threads -/

/-- Where a thread stands in `add_task_to_pool`. -/
inductive CallerPhase where
  | idle
  | holding (task : Ptr)
  | signalling
  deriving Repr, DecidableEq

/-- Where a thread stands in `pool_daemon`; `absent` is one that was not created yet. -/
inductive WorkerPhase where
  | absent
  | locking
  | waiting
  | running (task : Ptr)
  | exited
  deriving Repr, DecidableEq

abbrev Worker := Fin maxThread

/-- The memory and the threads, any number of which call `add_task_to_pool`. -/
structure System where
  mem : Memory
  callers : Nat → CallerPhase
  workers : Worker → WorkerPhase
  calls : Nat

/-- A step of a thread. -/
inductive Step where
  /-- `start_pthread_pool` creates a worker. -/
  | pthreadCreate (worker : Worker)
  /-- `start_pthread_pool` has created all of them. -/
  | started
  /-- The part of `add_task_to_pool` in front of the lock; `malloc` returns `task`. -/
  | addTaskToPool (caller : Nat) (ptr args task : Ptr)
  /-- Its part that holds `mtx`. -/
  | append (caller : Nat)
  /-- Its `pthread_cond_signal`, and the worker that wakes up if one waits. -/
  | condSignal (caller : Nat) (woken : Option Worker)
  /-- A worker returns from `pthread_cond_wait` without a signal. -/
  | wakeUp (worker : Worker)
  /-- `pool_daemon` from the lock, or from a return of `pthread_cond_wait`, on. -/
  | poolDaemon (worker : Worker)
  /-- `pool_daemon` behind the lock. -/
  | runTask (worker : Worker)
  /-- The owner of the pool sets `shutdown`. -/
  | shutDown
  deriving Repr, DecidableEq

/-- A thread goes on with what it has begun. -/
def Step.Resumes : Step → Prop
  | .addTaskToPool .. => False
  | .wakeUp _ => False
  | .shutDown => False
  | _ => True

/-- `init_pthread_pool`. -/
def initPthreadPool : Pool where
  size := 0
  taskqueue := 0
  tail := 0
  shutdown := 0
  status := 0

/-- Before `start_pthread_pool`. -/
def init : System where
  mem := ⟨initPthreadPool, fun _ => none⟩
  callers := fun _ => .idle
  workers := fun _ => .absent
  calls := 0

namespace System

/-- The system with a caller in another phase. -/
def setCaller (system : System) (caller : Nat) (phase : CallerPhase) : System :=
  { system with callers := Function.update system.callers caller phase }

/-- The system with a worker in another phase. -/
def setWorker (system : System) (worker : Worker) (phase : WorkerPhase) : System :=
  { system with workers := Function.update system.workers worker phase }

/-- Execute a step. -/
def step (system : System) : Step → Except Fault System
  | .pthreadCreate worker =>
      if system.workers worker = .absent then
        .ok (system.setWorker worker .locking)
      else
        .error .disabled
  | .started =>
      if ∀ worker, system.workers worker ≠ .absent then
        .ok { system with mem.pool.status := 1 }
      else
        .error .disabled
  | .addTaskToPool caller ptr args task =>
      if system.callers caller ≠ .idle then
        .error .disabled
      else if ptr = 0 ∨ system.mem.pool.shutdown = 1 ∨ system.mem.pool.status ≠ 1 then
        -- the call returns -1
        .ok system
      else if task = 0 then
        .error .outOfMemory
      else if (system.mem.tasks task).isSome then
        -- `malloc` returns no memory that is in use
        .error .disabled
      else
        let allocated : Task := ⟨⟨system.calls, ptr, args⟩, 0⟩
        .ok { system.setCaller caller (.holding task) with
          mem.tasks := Function.update system.mem.tasks task (some allocated)
          calls := system.calls + 1 }
  | .append caller =>
      match system.callers caller with
      | .holding task => do
          let mem ← system.mem.append task
          return { system.setCaller caller .signalling with mem := mem }
      | _ => .error .disabled
  | .condSignal caller woken =>
      if system.callers caller ≠ .signalling then
        .error .disabled
      else
        match woken with
        | none =>
            if ∃ worker, system.workers worker = .waiting then
              .error .disabled
            else
              .ok (system.setCaller caller .idle)
        | some worker =>
            if system.workers worker = .waiting then
              .ok ((system.setCaller caller .idle).setWorker worker .locking)
            else
              .error .disabled
  | .wakeUp worker =>
      if system.workers worker = .waiting then
        .ok (system.setWorker worker .locking)
      else
        .error .disabled
  | .poolDaemon worker =>
      if system.workers worker ≠ .locking then
        .error .disabled
      else if system.mem.pool.size = 0 ∧ system.mem.pool.shutdown = 0 then
        .ok (system.setWorker worker .waiting)
      else if system.mem.pool.shutdown = 1 then
        .ok (system.setWorker worker .exited)
      else do
        let (task, mem) ← system.mem.take
        return { system.setWorker worker (.running task) with mem := mem }
  | .runTask worker =>
      match system.workers worker with
      | .running ptr =>
          match system.mem.tasks ptr with
          | none => .error .badPointer
          | some task =>
              if task.runner = 0 then
                .ok (system.setWorker worker .locking)
              else
                .ok { system.setWorker worker .locking with
                  mem.tasks := Function.update system.mem.tasks ptr none }
      | _ => .error .disabled
  | .shutDown => .ok { system with mem.pool.shutdown := 1 }

/-! ## What is asked of the pool -/

/-- The list from `taskqueue` on holds these jobs. -/
def Listed (system : System) (queue : List Job) : Prop :=
  ∃ nodes,
    Chain system.mem.link 0 system.mem.pool.taskqueue nodes ∧
      nodes.map system.mem.job? = queue.map some

/-- The next step of the worker takes a task. -/
def Dequeues (system : System) (worker : Worker) : Prop :=
  system.workers worker = .locking ∧
    ¬(system.mem.pool.size = 0 ∧ system.mem.pool.shutdown = 0) ∧
      system.mem.pool.shutdown ≠ 1

instance (system : System) (worker : Worker) : Decidable (system.Dequeues worker) :=
  inferInstanceAs (Decidable (_ ∧ ¬(_ ∧ _) ∧ _ ≠ _))

/-- The task that a step appends or takes. -/
def observe (system : System) : Step → Option (Event Job Worker)
  | .append caller =>
      match system.callers caller with
      | .holding task => (system.mem.job? task).map .put
      | _ => none
  | .poolDaemon worker =>
      if system.Dequeues worker then
        (system.mem.job? system.mem.pool.taskqueue).map (.take worker)
      else
        none
  | _ => none

/-- Which tasks the steps of a run append and take. -/
def history (labels : List Step) : List (Event Job Worker) :=
  observed step observe init labels

/-- No call is under way, and every worker waits for a signal. -/
def AtRest (system : System) : Prop :=
  (∀ caller, system.callers caller = .idle) ∧ ∀ worker, system.workers worker = .waiting

/-- The list after some tasks were appended and taken. -/
structure Behaves (history : List (Event Job Worker)) (system : System) (queue : List Job) :
    Prop where
  listed : system.Listed queue
  size : system.mem.pool.size.toInt = queue.length ↔ queue.length < 2 ^ 31
  order : puts history = (takes history).map Prod.snd ++ queue
  distinct : (puts history).Nodup
  once : ∀ job ∈ puts history, job ∉ queue → ∃! worker, .take worker job ∈ history
  untaken : ∀ job ∈ queue, ∀ worker, .take worker job ∉ history
  nonempty : ∀ worker, system.Dequeues worker → queue ≠ []
  safe : ∀ label, system.step label ≠ .error .badPointer
  unstuck :
    system.mem.pool.shutdown = 0 → ¬system.AtRest →
      ∃ label next, label.Resumes ∧ system.step label = .ok next
  served : system.AtRest → queue.length < 2 ^ 31 → queue = []

end System

/-! ## The list in memory -/

namespace Memory

section

variable {mem : Memory} {ptr : Ptr}

theorem isSome_link :
    (mem.link ptr).isSome = (mem.tasks ptr).isSome :=
  Option.isSome_map

theorem isSome_job? :
    (mem.job? ptr).isSome = (mem.tasks ptr).isSome :=
  Option.isSome_map

theorem next_eq_ok
    {value : Ptr}
    (linked : mem.link ptr = some value) :
    mem.next ptr = .ok value := by
  obtain ⟨task, isTask, isNext⟩ := Option.map_eq_some_iff.mp linked
  unfold next
  rw [isTask, ← isNext]

theorem link_update
    (mem : Memory)
    (ptr : Ptr)
    (now : Option Task) :
    link { mem with tasks := Function.update mem.tasks ptr now } =
      Function.update mem.link ptr (now.map Task.next) := by
  funext other
  by_cases same : other = ptr
  · simp [link, same]
  · simp [link, same]

theorem job?_update
    (mem : Memory)
    (ptr : Ptr)
    (now : Option Task) :
    job? { mem with tasks := Function.update mem.tasks ptr now } =
      Function.update mem.job? ptr (now.map Task.toJob) := by
  funext other
  by_cases same : other = ptr
  · simp [job?, same]
  · simp [job?, same]

/-- A link is set, and nothing else. -/
theorem setNext_eq_ok
    (allocated : (mem.link ptr).isSome)
    (value : Ptr) :
    ∃ after,
      mem.setNext ptr value = .ok after ∧
        after.pool = mem.pool ∧
        after.link = Function.update mem.link ptr (some value) ∧
        after.job? = mem.job? := by
  rw [isSome_link] at allocated
  obtain ⟨task, isTask⟩ := Option.isSome_iff_exists.mp allocated
  unfold setNext
  rw [isTask]
  refine ⟨_, rfl, rfl, link_update .., ?_⟩
  have isJob : mem.job? ptr = some task.toJob := by
    unfold job?
    rw [isTask]
    rfl
  rw [job?_update]
  exact Function.update_eq_self_iff.mpr isJob.symm

end

/-- What the critical section of `add_task_to_pool` leaves. -/
structure Appended (mem after : Memory) (nodes : List Ptr) (new : Ptr) : Prop where
  queue : Queue after.link 0 after.pool.taskqueue after.pool.tail (nodes ++ [new])
  size : after.pool.size = mem.pool.size + 1
  shutdown : after.pool.shutdown = mem.pool.shutdown
  status : after.pool.status = mem.pool.status
  jobs : after.job? = mem.job?
  links : ∀ ptr ∉ nodes, after.link ptr = mem.link ptr

/-- A task is appended to the list, whatever `tail` was when the list is empty. -/
theorem append_eq_ok
    {mem : Memory}
    {nodes : List Ptr}
    {new : Ptr}
    (queue : Queue mem.link 0 mem.pool.taskqueue mem.pool.tail nodes)
    (fresh : new ∉ nodes)
    (notNull : new ≠ 0)
    (ends : mem.link new = some 0) :
    ∃ after, mem.append new = .ok after ∧ Appended mem after nodes new := by
  by_cases empty : mem.pool.taskqueue = 0
  · have noNodes := queue.chain.eq_null_iff.mp empty
    subst noNodes
    refine ⟨{ mem with pool := { mem.pool with
        taskqueue := new, tail := new, size := mem.pool.size + 1 } }, ?_, ?_⟩
    · unfold append
      rw [if_pos empty]
      rfl
    · exact
        { queue := Queue.single notNull ends
          size := rfl
          shutdown := rfl
          status := rfl
          jobs := rfl
          links := fun _ _ => rfl }
  · obtain ⟨first, isSnoc⟩ := queue.eq_snoc empty
    have atTail : mem.pool.tail ∈ nodes := by
      rw [isSnoc]
      exact List.mem_append_right _ (List.mem_singleton_self _)
    obtain ⟨linked, sets, samePool, links, jobs⟩ :=
      setNext_eq_ok (queue.chain.isSome_link atTail) new
    have reads : linked.next mem.pool.tail = .ok new := by
      apply next_eq_ok
      rw [links, Function.update_self]
    have other : ∀ ptr, ptr ≠ mem.pool.tail → linked.link ptr = mem.link ptr := by
      intro ptr different
      rw [links, Function.update_of_ne different]
    have notTail : new ≠ mem.pool.tail := by
      rintro rfl
      exact fresh atTail
    refine ⟨{ linked with pool := { linked.pool with
        tail := new, size := linked.pool.size + 1 } }, ?_, ?_⟩
    · unfold append
      rw [if_neg empty, sets]
      change (do
        let tail ← linked.next linked.pool.tail
        let mem : Memory := { linked with pool.tail := tail }
        return { mem with pool.size := mem.pool.size + 1 }) = _
      rw [samePool, reads]
      rfl
    · have pushed : Queue linked.link 0 mem.pool.taskqueue new (nodes ++ [new]) := by
        apply queue.push empty (fun node _ different => other node different) _ notNull
        · rw [other new notTail]
          exact ends
        · rw [links, Function.update_self]
      exact
        { queue := by
            rw [← samePool] at pushed
            exact pushed
          size := by rw [samePool]
          shutdown := by rw [samePool]
          status := by rw [samePool]
          jobs := jobs
          links := by
            intro ptr outside
            apply other ptr
            rintro rfl
            exact outside atTail }

/-- The first task is taken from a list that is not empty. -/
theorem take_eq_ok
    {mem : Memory}
    {nodes : List Ptr}
    (queue : Queue mem.link 0 mem.pool.taskqueue mem.pool.tail nodes)
    (nonempty : nodes ≠ []) :
    ∃ behind rest,
      nodes = mem.pool.taskqueue :: rest ∧
        mem.take =
          .ok (mem.pool.taskqueue,
            { mem with pool := { mem.pool with
              size := mem.pool.size - 1, taskqueue := behind } }) ∧
        Queue mem.link 0 behind mem.pool.tail rest := by
  obtain ⟨behind, rest, isCons, linked, popped⟩ := queue.pop nonempty
  have reads := next_eq_ok linked
  refine ⟨behind, rest, isCons, ?_, popped⟩
  unfold take
  change (do
    let next ← mem.next mem.pool.taskqueue
    return (mem.pool.taskqueue,
      { mem with pool := { mem.pool with
        size := mem.pool.size - 1, taskqueue := next } })) = _
  rw [reads]
  rfl

end Memory

end ThreadPool

end Pma
