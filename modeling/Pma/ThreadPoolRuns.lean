import Pma.Abort
import Pma.ThreadPoolTasks

namespace Pma

open Fifo LinkedQueue Transition

/-!
# Runs of the thread pool

What holds of the list after any steps of any threads, in any order.  No signal
is lost: a task that waits while every worker sleeps has a caller that is about
to send one.
-/

namespace ThreadPool

namespace System

section

variable {system next : System} {store : Store Job}

/-! ## Wake-ups -/

/-- Unless `size` is zero, a worker does not wait or a signal is about to be sent. -/
def Awake (system : System) : Prop :=
  system.mem.pool.size = 0 ∨
    (∃ worker, system.workers worker ≠ .waiting) ∨
      ∃ caller, system.callers caller = .signalling

theorem awake_setWorker
    (system : System)
    (worker : Worker)
    {phase : WorkerPhase}
    (notWaiting : phase ≠ .waiting) :
    (system.setWorker worker phase).Awake := by
  refine Or.inr (Or.inl ⟨worker, ?_⟩)
  change Function.update system.workers worker phase worker ≠ .waiting
  rw [Function.update_self]
  exact notWaiting

/-- A signal is sent after each append, and a worker waits only when it finds no task. -/
theorem Awake.step
    (awake : system.Awake)
    {label : Step}
    (stepped : system.step label = .ok next) :
    next.Awake := by
  cases label with
  | pthreadCreate worker =>
      simp only [System.step] at stepped
      split at stepped
      · cases stepped
        exact awake_setWorker system worker (by simp)
      · cases stepped
  | started =>
      simp only [System.step] at stepped
      split at stepped
      · cases stepped
        exact awake
      · cases stepped
  | addTaskToPool caller ptr args task =>
      simp only [System.step] at stepped
      split at stepped
      · cases stepped
      · next idle =>
          split at stepped
          · cases stepped
            exact awake
          · split at stepped
            · cases stepped
            · split at stepped
              · cases stepped
              · cases stepped
                rcases awake with empty | awakeWorker | ⟨other, signals⟩
                · exact Or.inl empty
                · exact Or.inr (Or.inl awakeWorker)
                · refine Or.inr (Or.inr ⟨other, ?_⟩)
                  have different : other ≠ caller := by
                    rintro rfl
                    rw [signals] at idle
                    exact idle (by simp)
                  exact (Function.update_of_ne different ..).trans signals
  | append caller =>
      simp only [System.step] at stepped
      split at stepped
      · obtain ⟨mem, _, isNext⟩ := bind_eq_ok.mp stepped
        cases isNext
        exact Or.inr (Or.inr ⟨caller, Function.update_self ..⟩)
      · cases stepped
  | condSignal caller woken =>
      simp only [System.step] at stepped
      split at stepped
      · cases stepped
      · split at stepped
        · split at stepped
          · cases stepped
          · next nobody =>
              cases stepped
              refine Or.inr (Or.inl ⟨⟨0, by decide⟩, ?_⟩)
              intro waits
              exact nobody ⟨_, waits⟩
        · split at stepped
          · cases stepped
            exact awake_setWorker _ _ (by simp)
          · cases stepped
  | wakeUp worker =>
      simp only [System.step] at stepped
      split at stepped
      · cases stepped
        exact awake_setWorker system worker (by simp)
      · cases stepped
  | poolDaemon worker =>
      simp only [System.step] at stepped
      split at stepped
      · cases stepped
      · split at stepped
        · next empty =>
            cases stepped
            exact Or.inl empty.1
        · split at stepped
          · cases stepped
            exact awake_setWorker system worker (by simp)
          · obtain ⟨⟨task, mem⟩, _, isNext⟩ := bind_eq_ok.mp stepped
            cases isNext
            refine Or.inr (Or.inl ⟨worker, ?_⟩)
            change Function.update system.workers worker (.running task) worker ≠ .waiting
            simp
  | runTask worker =>
      simp only [System.step] at stepped
      split at stepped
      · split at stepped
        · cases stepped
        · split at stepped
          · cases stepped
            exact awake_setWorker system worker (by simp)
          · cases stepped
            refine Or.inr (Or.inl ⟨worker, ?_⟩)
            change Function.update system.workers worker .locking worker ≠ .waiting
            simp
      · cases stepped
  | shutDown =>
      cases stepped
      exact awake

theorem awake_init :
    init.Awake :=
  Or.inl rfl

/-! ## What holds of every state -/

/-- An `int` counts up to one less than `2 ^ 31`. -/
theorem toInt_size
    (length : Nat) :
    (Int32.ofNat length).toInt = length ↔ length < 2 ^ 31 := by
  constructor
  · intro same
    have below := Int32.toInt_lt (Int32.ofNat length)
    rw [same] at below
    exact_mod_cast below
  · exact Int32.toInt_ofNat_of_lt

/-- A worker finds the task that it runs. -/
theorem Represents.step_runTask
    (represents : system.Represents store)
    {worker : Worker}
    {ptr : Ptr}
    (phase : system.workers worker = .running ptr) :
    ∃ next, system.step (.runTask worker) = .ok next := by
  obtain ⟨task, isTask⟩ := represents.running phase
  simp only [System.step, phase, isTask]
  split
  · exact ⟨_, rfl⟩
  · exact ⟨_, rfl⟩

/-- No step goes through a pointer to a task that was freed, or to none. -/
theorem Represents.safe
    (represents : system.Represents store)
    (label : Step) :
    system.step label ≠ .error .badPointer := by
  intro failed
  cases label with
  | append caller =>
      simp only [System.step] at failed
      split at failed
      · next new phase =>
          obtain ⟨mem, job, nodes, appends, _⟩ := represents.append phase
          rw [appends] at failed
          cases failed
      · cases failed
  | poolDaemon worker =>
      by_cases dequeues : system.Dequeues worker
      · obtain ⟨job, rest, mem, _, _, takes, _⟩ := represents.take dequeues
        rw [step_poolDaemon dequeues takes] at failed
        cases failed
      · simp only [System.step] at failed
        split at failed
        · cases failed
        · next locking =>
            split at failed
            · cases failed
            · next notEmpty =>
                split at failed
                · cases failed
                · next running =>
                    exact dequeues ⟨not_not.mp locking, notEmpty, running⟩
  | runTask worker =>
      cases phase : system.workers worker with
      | running ptr =>
          obtain ⟨next, goesOn⟩ := represents.step_runTask phase
          rw [goesOn] at failed
          cases failed
      | _ =>
          simp only [System.step, phase] at failed
          cases failed
  | pthreadCreate worker =>
      simp only [System.step] at failed
      split at failed
      · cases failed
      · cases failed
  | started =>
      simp only [System.step] at failed
      split at failed
      · cases failed
      · cases failed
  | addTaskToPool caller ptr args task =>
      simp only [System.step] at failed
      split at failed
      · cases failed
      · split at failed
        · cases failed
        · split at failed
          · cases failed
          · split at failed
            · cases failed
            · cases failed
  | condSignal caller woken =>
      simp only [System.step] at failed
      split at failed
      · cases failed
      · split at failed
        · split at failed
          · cases failed
          · cases failed
        · split at failed
          · cases failed
          · cases failed
  | wakeUp worker =>
      simp only [System.step] at failed
      split at failed
      · cases failed
      · cases failed
  | shutDown =>
      cases failed

/-- `size` counts the tasks that wait, and wraps around. -/
theorem Represents.size
    (represents : system.Represents store) :
    system.mem.pool.size = Int32.ofNat store.waiting.length := by
  obtain ⟨nodes, owner, holds, _⟩ := represents
  have sameLength := congrArg List.length holds.jobs
  rw [List.length_map, List.length_map] at sameLength
  rw [holds.size, sameLength]

theorem Represents.listed
    (represents : system.Represents store) :
    system.Listed store.waiting := by
  obtain ⟨nodes, owner, holds, _⟩ := represents
  exact ⟨nodes, holds.queue.chain, holds.jobs⟩

/-- A thread that is not at rest can go on, until the pool is shut down. -/
theorem Represents.unstuck
    (represents : system.Represents store)
    (works : system.mem.pool.shutdown = 0)
    (busy : ¬system.AtRest) :
    ∃ label next, label.Resumes ∧ system.step label = .ok next := by
  rw [AtRest, not_and_or, not_forall, not_forall] at busy
  rcases busy with ⟨caller, notIdle⟩ | ⟨worker, notWaiting⟩
  · cases phase : system.callers caller with
    | idle =>
        exact absurd phase notIdle
    | holding task =>
        obtain ⟨mem, job, nodes, appends, _⟩ := represents.append phase
        refine ⟨.append caller, { system.setCaller caller .signalling with mem := mem },
          trivial, ?_⟩
        simp only [System.step, phase, appends]
        rfl
    | signalling =>
        by_cases someone : ∃ worker, system.workers worker = .waiting
        · obtain ⟨worker, waits⟩ := someone
          exact ⟨.condSignal caller (some worker), _, trivial, by
            simp only [System.step, phase, if_pos waits]; rfl⟩
        · exact ⟨.condSignal caller none, _, trivial, by
            simp only [System.step, phase, if_neg someone]; rfl⟩
  · cases phase : system.workers worker with
    | absent =>
        exact ⟨.pthreadCreate worker, _, trivial, if_pos phase⟩
    | locking =>
        by_cases dequeues : system.Dequeues worker
        · obtain ⟨job, rest, mem, _, _, takes, _⟩ := represents.take dequeues
          exact ⟨.poolDaemon worker, _, trivial, step_poolDaemon dequeues takes⟩
        · have empty : system.mem.pool.size = 0 ∧ system.mem.pool.shutdown = 0 := by
            by_contra notEmpty
            refine dequeues ⟨phase, notEmpty, ?_⟩
            simp [works]
          refine ⟨.poolDaemon worker, system.setWorker worker .waiting, trivial, ?_⟩
          simp only [System.step, if_neg (not_not.mpr phase), if_pos empty]
    | waiting =>
        exact absurd phase notWaiting
    | running ptr =>
        obtain ⟨next, goesOn⟩ := represents.step_runTask phase
        exact ⟨.runTask worker, next, trivial, goesOn⟩
    | exited =>
        have closed := represents.exited worker phase
        rw [works] at closed
        cases closed

/-- When nothing is left to do no task waits. -/
theorem Represents.served
    (represents : system.Represents store)
    (awake : system.Awake)
    (rest : system.AtRest)
    (counted : store.waiting.length < 2 ^ 31) :
    store.waiting = [] := by
  rcases awake with empty | ⟨worker, busy⟩ | ⟨caller, signals⟩
  · have counts := (toInt_size _).mpr counted
    rw [← represents.size, empty] at counts
    exact List.length_eq_zero_iff.mp (Int.ofNat_eq_zero.mp counts.symm)
  · exact absurd (rest.2 worker) busy
  · have idle := rest.1 caller
    rw [signals] at idle
    cases idle

end

/-! ## Many calls -/

/-- The run of `start_pthread_pool`. -/
def startPthreadPool : List Step :=
  (List.finRange maxThread).map .pthreadCreate ++ [.started]

/-- A call of `add_task_to_pool` that wakes up no worker. -/
def addTask (number : Nat) : List Step :=
  [.addTaskToPool 0 1 0 (UInt64.ofNat (32 * (number + 1))), .append 0, .condSignal 0 none]

/-- Many calls, before any worker has run. -/
def addTasks (count : Nat) : List Step :=
  startPthreadPool ++ (List.range count).flatMap addTask

/-- Tasks wait, memory behind them is free, and no worker has run. -/
structure Loaded (system : System) (count : Nat) : Prop where
  idle : system.callers 0 = .idle
  ready : ∀ worker, system.workers worker = .locking
  status : system.mem.pool.status = 1
  shutdown : system.mem.pool.shutdown = 0
  stored : ∃ store, system.Represents store ∧ store.waiting.length = count
  free : ∀ ptr : Ptr, 32 * count < ptr.toNat → system.mem.job? ptr = none

section

variable {system : System} {count : Nat}

theorem run_pthreadCreate
    {workers : List Worker}
    (distinct : workers.Nodup)
    (absent : ∀ worker ∈ workers, system.workers worker = .absent) :
    ∃ created : Worker → WorkerPhase,
      Run (ofPartial step) system (workers.map .pthreadCreate)
          { system with workers := created } ∧
        (∀ worker ∈ workers, created worker = .locking) ∧
        ∀ worker ∉ workers, created worker = system.workers worker := by
  induction workers generalizing system with
  | nil =>
      exact ⟨system.workers, .nil system, nofun, fun _ _ => rfl⟩
  | cons first rest inductionHypothesis =>
      obtain ⟨notAgain, distinctRest⟩ := List.nodup_cons.mp distinct
      obtain ⟨isAbsent, absentRest⟩ := List.forall_mem_cons.mp absent
      have other : ∀ worker, worker ≠ first →
          (system.setWorker first .locking).workers worker = system.workers worker :=
        fun worker different => Function.update_of_ne different ..
      obtain ⟨created, run, locking, same⟩ :=
        @inductionHypothesis (system.setWorker first .locking) distinctRest (by
          intro worker member
          rw [other worker (by rintro rfl; exact notAgain member)]
          exact absentRest worker member)
      refine ⟨created, .cons (if_pos isAbsent) run, ?_, ?_⟩
      · rw [List.forall_mem_cons]
        exact ⟨(same first notAgain).trans (Function.update_self ..), locking⟩
      · intro worker outside
        rw [List.mem_cons, not_or] at outside
        rw [same worker outside.2, other worker outside.1]

theorem loaded_start :
    ∃ system, Run (ofPartial step) init startPthreadPool system ∧ system.Loaded 0 := by
  obtain ⟨created, run, locking, _⟩ :=
    @run_pthreadCreate init _ (List.nodup_finRange maxThread) fun _ _ => rfl
  have ready : ∀ worker, created worker = .locking :=
    fun worker => locking worker (List.mem_finRange worker)
  have starts : ofPartial step { init with workers := created } .started
      { init with workers := created, mem.pool.status := 1 } := by
    apply if_pos
    intro worker isAbsent
    cases (ready worker).symm.trans isAbsent
  refine ⟨_, run.snoc starts, ?_⟩
  refine
    { idle := rfl
      ready := ready
      status := rfl
      shutdown := rfl
      stored := ⟨.empty, ?_, rfl⟩
      free := fun _ _ => rfl }
  refine represents_init.quiet rfl rfl rfl rfl (Or.inl rfl) ?_ rfl (fun _ _ held => held) ?_
  · intro worker exited
    cases (ready worker).symm.trans exited
  · intro worker ptr running
    cases (ready worker).symm.trans running

theorem Loaded.addTask
    (loaded : system.Loaded count)
    (fits : count < 2 ^ 31) :
    ∃ next, Run (ofPartial step) system (addTask count) next ∧ next.Loaded (count + 1) := by
  obtain ⟨store, represents, isCount⟩ := loaded.stored
  have address : (UInt64.ofNat (32 * (count + 1))).toNat = 32 * (count + 1) := by
    apply UInt64.toNat_ofNat_of_lt
    change _ < 2 ^ 64
    omega
  rw [System.addTask]
  generalize UInt64.ofNat (32 * (count + 1)) = task at address ⊢
  have notNull : task ≠ 0 := by
    rintro rfl
    simp at address
  have free : system.mem.tasks task = none := by
    have noJob := loaded.free task (by omega)
    simpa [Memory.job?] using noJob
  obtain ⟨allocated, isAllocated⟩ : ∃ allocated, allocated =
      { system.setCaller 0 (.holding task) with
        mem.tasks := Function.update system.mem.tasks task (some ⟨⟨system.calls, 1, 0⟩, 0⟩)
        calls := system.calls + 1 } := ⟨_, rfl⟩
  have allocates : system.step (.addTaskToPool 0 1 0 task) = .ok allocated := by
    rw [isAllocated]
    simp [step, loaded.idle, loaded.shutdown, loaded.status, notNull, free]
  have holding := represents.allocate notNull free isAllocated
  have phase : allocated.callers 0 = .holding task := by
    rw [isAllocated]
    change Function.update system.callers 0 (.holding task) 0 = _
    rw [Function.update_self]
  obtain ⟨mem, job, nodes, appends, appended, _, _, after⟩ := holding.append phase
  have appendStep : allocated.step (.append 0) =
      .ok { allocated.setCaller 0 .signalling with mem := mem } := by
    simp only [step, phase, appends]
    rfl
  have signalStep : step { allocated.setCaller 0 .signalling with mem := mem }
      (.condSignal 0 none) =
      .ok (setCaller { allocated.setCaller 0 .signalling with mem := mem } 0 .idle) := by
    have nobody : ¬∃ worker, allocated.workers worker = .waiting := by
      rintro ⟨worker, waits⟩
      rw [isAllocated] at waits
      cases (loaded.ready worker).symm.trans waits
    simp [step, setCaller, nobody]
  refine ⟨_, .cons allocates (.cons appendStep (.cons signalStep (.nil _))), ?_⟩
  exact
    { idle := by
        simp [setCaller]
      ready := by
        intro worker
        change allocated.workers worker = .locking
        rw [isAllocated]
        exact loaded.ready worker
      status := by
        change mem.pool.status = 1
        rw [appended.status, isAllocated]
        exact loaded.status
      shutdown := by
        change mem.pool.shutdown = 0
        rw [appended.shutdown, isAllocated]
        exact loaded.shutdown
      stored := by
        refine ⟨_, after.setCaller 0 (by simp), ?_⟩
        rw [List.length_append, isCount]
        rfl
      free := by
        intro ptr beyond
        change mem.job? ptr = none
        rw [appended.jobs, isAllocated]
        change Memory.job?
          { system.mem with tasks := Function.update system.mem.tasks _ _ } ptr = none
        have different : ptr ≠ task := by
          rintro rfl
          omega
        rw [Memory.job?_update, Function.update_of_ne different]
        exact loaded.free ptr (by omega) }

theorem loaded_addTasks
    (fits : count ≤ 2 ^ 31) :
    ∃ system, Run (ofPartial step) init (addTasks count) system ∧ system.Loaded count := by
  induction count with
  | zero =>
      exact loaded_start
  | succ count inductionHypothesis =>
      obtain ⟨system, run, loaded⟩ := inductionHypothesis (Nat.le_of_succ_le fits)
      obtain ⟨next, added, loadedNext⟩ := loaded.addTask fits
      refine ⟨next, ?_, loadedNext⟩
      rw [addTasks, List.range_succ, List.flatMap_append, List.flatMap_singleton,
        ← List.append_assoc]
      exact run.append added

end

/-! ## Every run -/

/-- Every run appends and takes tasks as a queue of tasks does. -/
theorem fifo_run
    {labels : List Step}
    {system : System}
    (run : Run (ofPartial step) init labels system) :
    ∃ store, Run Fifo.Step .empty (history labels) store ∧ system.Represents store :=
  run.refines Represents (fun represents stepped => represents.step stepped) represents_init

/-- In every run tasks leave the list in the order of their calls, and none is lost. -/
theorem threadPool_run
    {labels : List Step}
    {system : System}
    (run : Run (ofPartial step) init labels system) :
    ∃ queue, system.Behaves (history labels) queue := by
  obtain ⟨store, stored, represents⟩ := fifo_run run
  have awake := run.invariant Awake (fun awake stepped => awake.step stepped) awake_init
  refine ⟨store.waiting, ?_⟩
  exact
    { listed := represents.listed
      size := by
        rw [represents.size]
        exact toInt_size _
      order := puts_eq stored
      distinct := nodup_puts stored
      once := fun job member left => taken_once stored member left
      untaken := fun job waits worker => not_taken stored waits worker
      nonempty := by
        intro worker dequeues
        obtain ⟨job, rest, mem, waiting, _⟩ := represents.take dequeues
        rw [waiting]
        exact List.cons_ne_nil job rest
      safe := represents.safe
      unstuck := represents.unstuck
      served := represents.served awake }

/-- The size of `2 ^ 31` tasks that wait is negative. -/
theorem size_wraps :
    ∃ system queue,
      Run (ofPartial step) init (addTasks (2 ^ 31)) system ∧
        system.Listed queue ∧
        queue.length = 2 ^ 31 ∧
        system.mem.pool.size.toInt = -2 ^ 31 := by
  obtain ⟨system, run, loaded⟩ := loaded_addTasks (Nat.le_refl (2 ^ 31))
  obtain ⟨store, represents, isCount⟩ := loaded.stored
  refine ⟨system, store.waiting, run, represents.listed, isCount, ?_⟩
  rw [represents.size, isCount]
  rfl

theorem threadPool_run_two :
    ∃ labels system queue,
      labels = addTasks 2 ++ [.poolDaemon ⟨0, by decide⟩] ∧
        Run (ofPartial step) init labels system ∧
        system.Behaves (history labels) queue := by
  have fits : 2 ≤ 2 ^ 31 := by decide
  obtain ⟨system, run, loaded⟩ := loaded_addTasks fits
  obtain ⟨store, represents, isCount⟩ := loaded.stored
  have dequeues : system.Dequeues ⟨0, by decide⟩ := by
    refine ⟨loaded.ready _, ?_, ?_⟩
    · rintro ⟨empty, _⟩
      rw [represents.size, isCount] at empty
      cases empty
    · simp [loaded.shutdown]
  obtain ⟨job, rest, mem, _, _, takes, _⟩ := represents.take dequeues
  have taken := run.snoc (step_poolDaemon dequeues takes)
  obtain ⟨queue, behaves⟩ := threadPool_run taken
  exact ⟨_, _, queue, rfl, taken, behaves⟩

end System

end ThreadPool

end Pma
