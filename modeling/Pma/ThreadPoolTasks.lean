import Pma.ThreadPool

namespace Pma

open Fifo LinkedQueue Transition

/-!
# The tasks of the thread pool

Each task in memory is in the list, or a call is about to append it, or a worker
runs it.  As long as no task is two of these, no step reaches a task that was
freed, and the list in memory stays the queue of the tasks that wait.
-/

namespace ThreadPool

/-! ## Who a task belongs to -/

/-- The list, a call that has not appended its task yet, or a worker that runs it. -/
inductive Owner where
  | queue
  | caller (caller : Nat)
  | worker (worker : Worker)
  deriving Repr, DecidableEq

namespace System

/-- The tasks of the list and of the threads are in memory, and each has one owner. -/
structure Owned (system : System) (nodes : List Ptr) (owner : Ptr → Option Owner) : Prop where
  queued : ∀ ptr ∈ nodes, owner ptr = some .queue
  held : ∀ caller ptr, system.callers caller = .holding ptr → owner ptr = some (.caller caller)
  taken : ∀ worker ptr, system.workers worker = .running ptr → owner ptr = some (.worker worker)
  allocated : ∀ ptr, (owner ptr).isSome → (system.mem.job? ptr).isSome
  null : system.mem.job? 0 = none

/-- The calls of the tasks in memory are distinct, and those under way were not accepted yet. -/
structure Numbered (system : System) (accepted : List Job) : Prop where
  below : ∀ ptr job, system.mem.job? ptr = some job → job.call < system.calls
  apart :
    ∀ ptr other first second,
      system.mem.job? ptr = some first → system.mem.job? other = some second →
        first.call = second.call → ptr = other
  old : ∀ job ∈ accepted, job.call < system.calls
  pending :
    ∀ caller ptr job,
      system.callers caller = .holding ptr → system.mem.job? ptr = some job →
        ∀ other ∈ accepted, other.call ≠ job.call

/-- The list in memory is the one that waits, and `tail` is its last task if it has one. -/
structure Holds (system : System) (store : Store Job) (nodes : List Ptr) : Prop where
  queue : Queue system.mem.link 0 system.mem.pool.taskqueue system.mem.pool.tail nodes
  jobs : nodes.map system.mem.job? = store.waiting.map some
  size : system.mem.pool.size = Int32.ofNat nodes.length
  shutdown : system.mem.pool.shutdown = 0 ∨ system.mem.pool.shutdown = 1
  exited : ∀ worker, system.workers worker = .exited → system.mem.pool.shutdown = 1
  ends :
    ∀ caller ptr, system.callers caller = .holding ptr → system.mem.link ptr = some 0

/-- The system stands for the tasks that were accepted and those of them that wait. -/
def Represents (system : System) (store : Store Job) : Prop :=
  ∃ nodes owner,
    system.Holds store nodes ∧ system.Owned nodes owner ∧ system.Numbered store.accepted

section

variable {system next : System} {store : Store Job} {nodes : List Ptr}
  {owner : Ptr → Option Owner}

theorem eq_of_update
    {Index Phase : Type}
    [DecidableEq Index]
    {phases : Index → Phase}
    {index other : Index}
    {now phase : Phase}
    (updated : Function.update phases index now other = phase) :
    other = index ∧ now = phase ∨ other ≠ index ∧ phases other = phase := by
  by_cases same : other = index
  · rw [same, Function.update_self] at updated
    exact Or.inl ⟨same, updated⟩
  · rw [Function.update_of_ne same] at updated
    exact Or.inr ⟨same, updated⟩

theorem ne_of_owner
    {ptr : Ptr}
    {this other : Owner}
    (isOwner : owner ptr = some this)
    (different : other ≠ this) :
    owner ptr ≠ some other := by
  rw [isOwner]
  intro same
  exact different (Option.some.inj same).symm

/-- A change of the owner of one task leaves the others with theirs. -/
theorem owner_of_other
    {ptr other : Ptr}
    {this : Owner}
    (owned : owner other = some this)
    (notThis : owner ptr ≠ some this)
    (now : Option Owner) :
    Function.update owner ptr now other = some this := by
  have different : other ≠ ptr := by
    rintro rfl
    exact notThis owned
  rw [Function.update_of_ne different]
  exact owned

/-- A change of a task that is not in the list leaves the list. -/
theorem Holds.elsewhere
    (holds : system.Holds store nodes)
    {ptr : Ptr}
    {link : Option Ptr}
    {job : Option Job}
    (outside : ptr ∉ nodes)
    (pool : next.mem.pool = system.mem.pool)
    (links : next.mem.link = Function.update system.mem.link ptr link)
    (jobs : next.mem.job? = Function.update system.mem.job? ptr job)
    (exited : ∀ worker, next.workers worker = .exited → system.workers worker = .exited)
    (ends : ∀ caller held, next.callers caller = .holding held → next.mem.link held = some 0) :
    next.Holds store nodes := by
  have inList : ∀ node ∈ nodes, node ≠ ptr := by
    rintro node member rfl
    exact outside member
  constructor
  · rw [pool]
    apply holds.queue.congr
    intro node member
    rw [links, Function.update_of_ne (inList node member)]
  · rw [← holds.jobs, jobs]
    apply List.map_congr_left
    intro node member
    exact Function.update_of_ne (inList node member) ..
  · rw [pool]
    exact holds.size
  · rw [pool]
    exact holds.shutdown
  · intro worker phase
    rw [pool]
    exact holds.exited worker (exited worker phase)
  · exact ends

/-- Calls stay distinct when tasks leave the memory or a thread. -/
theorem Numbered.fewer
    {accepted : List Job}
    (numbered : system.Numbered accepted)
    (jobs : ∀ ptr job, next.mem.job? ptr = some job → system.mem.job? ptr = some job)
    (calls : next.calls = system.calls)
    (held : ∀ caller ptr,
      next.callers caller = .holding ptr → system.callers caller = .holding ptr) :
    next.Numbered accepted := by
  constructor
  · intro ptr job isJob
    rw [calls]
    exact numbered.below ptr job (jobs ptr job isJob)
  · intro ptr other first second isFirst isSecond
    exact numbered.apart ptr other first second (jobs ptr first isFirst)
      (jobs other second isSecond)
  · rw [calls]
    exact numbered.old
  · intro caller ptr job phase isJob
    exact numbered.pending caller ptr job (held caller ptr phase) (jobs ptr job isJob)

/--
A step that takes no task from a thread or to it, and leaves the list, changes
nothing that the pool stands for.
-/
theorem Represents.quiet
    (represents : system.Represents store)
    (sameTasks : next.mem.tasks = system.mem.tasks)
    (sameQueue : next.mem.pool.taskqueue = system.mem.pool.taskqueue)
    (sameTail : next.mem.pool.tail = system.mem.pool.tail)
    (sameSize : next.mem.pool.size = system.mem.pool.size)
    (shutdown : next.mem.pool.shutdown = 0 ∨ next.mem.pool.shutdown = 1)
    (exited : ∀ worker, next.workers worker = .exited → next.mem.pool.shutdown = 1)
    (sameCalls : next.calls = system.calls)
    (held : ∀ caller ptr,
      next.callers caller = .holding ptr → system.callers caller = .holding ptr)
    (taken : ∀ worker ptr,
      next.workers worker = .running ptr → system.workers worker = .running ptr) :
    next.Represents store := by
  obtain ⟨nodes, owner, holds, owned, numbered⟩ := represents
  have links : next.mem.link = system.mem.link := by
    unfold Memory.link
    rw [sameTasks]
  have jobs : next.mem.job? = system.mem.job? := by
    unfold Memory.job?
    rw [sameTasks]
  refine ⟨nodes, owner, ?_, ?_, ?_⟩
  · constructor
    · rw [links, sameQueue, sameTail]
      exact holds.queue
    · rw [jobs]
      exact holds.jobs
    · rw [sameSize]
      exact holds.size
    · exact shutdown
    · exact exited
    · intro caller ptr phase
      rw [links]
      exact holds.ends caller ptr (held caller ptr phase)
  · constructor
    · exact owned.queued
    · intro caller ptr phase
      exact owned.held caller ptr (held caller ptr phase)
    · intro worker ptr phase
      exact owned.taken worker ptr (taken worker ptr phase)
    · rw [jobs]
      exact owned.allocated
    · rw [jobs]
      exact owned.null
  · apply numbered.fewer _ sameCalls held
    rw [jobs]
    exact fun _ _ isJob => isJob

theorem Represents.shutdown
    (represents : system.Represents store) :
    system.mem.pool.shutdown = 0 ∨ system.mem.pool.shutdown = 1 := by
  obtain ⟨_, _, holds, _⟩ := represents
  exact holds.shutdown

theorem Represents.exited
    (represents : system.Represents store)
    (worker : Worker)
    (phase : system.workers worker = .exited) :
    system.mem.pool.shutdown = 1 := by
  obtain ⟨_, _, holds, _⟩ := represents
  exact holds.exited worker phase

/-- The task that a worker runs is in memory. -/
theorem Represents.running
    (represents : system.Represents store)
    {worker : Worker}
    {ptr : Ptr}
    (phase : system.workers worker = .running ptr) :
    ∃ task, system.mem.tasks ptr = some task := by
  obtain ⟨nodes, owner, _, owned, _⟩ := represents
  have inMemory := owned.allocated ptr (by rw [owned.taken worker ptr phase]; rfl)
  rw [Memory.isSome_job?] at inMemory
  exact Option.isSome_iff_exists.mp inMemory

/-- A caller gets a new task from `malloc`. -/
theorem Represents.allocate
    (represents : system.Represents store)
    {caller : Nat}
    {ptr args task : Ptr}
    (notNull : task ≠ 0)
    (free : system.mem.tasks task = none)
    (isNext :
      next =
        { system.setCaller caller (.holding task) with
          mem.tasks := Function.update system.mem.tasks task (some ⟨⟨system.calls, ptr, args⟩, 0⟩)
          calls := system.calls + 1 }) :
    next.Represents store := by
  obtain ⟨nodes, owner, holds, owned, numbered⟩ := represents
  have pool : next.mem.pool = system.mem.pool := by rw [isNext]; rfl
  have links : next.mem.link = Function.update system.mem.link task (some 0) := by
    rw [isNext]
    exact Memory.link_update ..
  have jobs : next.mem.job? =
      Function.update system.mem.job? task (some ⟨system.calls, ptr, args⟩) := by
    rw [isNext]
    exact Memory.job?_update ..
  have callers : next.callers = Function.update system.callers caller (.holding task) := by
    rw [isNext]
    rfl
  have workers : next.workers = system.workers := by rw [isNext]; rfl
  have calls : next.calls = system.calls + 1 := by rw [isNext]
  clear isNext
  have noJob : system.mem.job? task = none := by
    unfold Memory.job?
    rw [free]
    rfl
  have noOwner : ∀ this, owner task ≠ some this := by
    intro this isOwner
    have allocated := owned.allocated task (by rw [isOwner]; rfl)
    rw [noJob] at allocated
    cases allocated
  have outside : task ∉ nodes := fun member => noOwner _ (owned.queued task member)
  refine ⟨nodes, Function.update owner task (some (.caller caller)), ?_, ?_, ?_⟩
  · apply holds.elsewhere outside pool links jobs
    · intro worker phase
      rw [workers] at phase
      exact phase
    · intro other held phase
      rw [callers] at phase
      rw [links]
      rcases eq_of_update phase with ⟨_, isTask⟩ | ⟨_, before⟩
      · cases isTask
        rw [Function.update_self]
      · have apart : held ≠ task := by
          rintro rfl
          exact noOwner _ (owned.held other held before)
        rw [Function.update_of_ne apart]
        exact holds.ends other held before
  · constructor
    · intro node member
      exact owner_of_other (owned.queued node member) (noOwner _) _
    · intro other held phase
      rw [callers] at phase
      rcases eq_of_update phase with ⟨isCaller, isTask⟩ | ⟨_, before⟩
      · cases isTask
        rw [Function.update_self, isCaller]
      · exact owner_of_other (owned.held other held before) (noOwner _) _
    · intro worker running phase
      rw [workers] at phase
      exact owner_of_other (owned.taken worker running phase) (noOwner _) _
    · intro other isOwned
      rw [jobs]
      by_cases same : other = task
      · rw [same, Function.update_self]
        rfl
      · rw [Function.update_of_ne same] at isOwned ⊢
        exact owned.allocated other isOwned
    · rw [jobs, Function.update_of_ne notNull.symm]
      exact owned.null
  · constructor
    · intro other job isJob
      rw [jobs] at isJob
      rw [calls]
      rcases eq_of_update isJob with ⟨_, isNew⟩ | ⟨_, before⟩
      · cases isNew
        exact Nat.lt_succ_self _
      · exact Nat.lt_succ_of_lt (numbered.below other job before)
    · intro one other first second isFirst isSecond sameCall
      rw [jobs] at isFirst isSecond
      rcases eq_of_update isFirst with ⟨isOne, newFirst⟩ | ⟨_, oldFirst⟩
      · rcases eq_of_update isSecond with ⟨isOther, _⟩ | ⟨_, oldSecond⟩
        · rw [isOne, isOther]
        · cases newFirst
          exact absurd sameCall.symm (Nat.ne_of_lt (numbered.below other second oldSecond))
      · rcases eq_of_update isSecond with ⟨_, newSecond⟩ | ⟨_, oldSecond⟩
        · cases newSecond
          exact absurd sameCall (Nat.ne_of_lt (numbered.below one first oldFirst))
        · exact numbered.apart one other first second oldFirst oldSecond sameCall
    · intro job member
      rw [calls]
      exact Nat.lt_succ_of_lt (numbered.old job member)
    · intro other held job phase isJob before member
      rw [jobs] at isJob
      rw [callers] at phase
      rcases eq_of_update isJob with ⟨_, isNew⟩ | ⟨different, oldJob⟩
      · cases isNew
        exact Nat.ne_of_lt (numbered.old before member)
      · rcases eq_of_update phase with ⟨_, isTask⟩ | ⟨_, wasHeld⟩
        · cases isTask
          exact absurd rfl different
        · exact numbered.pending other held job wasHeld oldJob before member

/-- The task of a call is appended, and was not accepted before. -/
theorem Represents.append
    (represents : system.Represents store)
    {caller : Nat}
    {new : Ptr}
    (phase : system.callers caller = .holding new) :
    ∃ mem job nodes,
      system.mem.append new = .ok mem ∧
        Memory.Appended system.mem mem nodes new ∧
        system.mem.job? new = some job ∧
        job ∉ store.accepted ∧
        System.Represents { system.setCaller caller .signalling with mem := mem }
          ⟨store.accepted ++ [job], store.waiting ++ [job]⟩ := by
  obtain ⟨nodes, owner, holds, owned, numbered⟩ := represents
  have isOwner := owned.held caller new phase
  obtain ⟨job, isJob⟩ :=
    Option.isSome_iff_exists.mp (owned.allocated new (by rw [isOwner]; rfl))
  have outside : ∀ other ptr, system.callers other = .holding ptr → ptr ∉ nodes := by
    intro other ptr held member
    have both := (owned.held other ptr held).symm.trans (owned.queued ptr member)
    cases both
  have notNull : new ≠ 0 := by
    rintro rfl
    rw [owned.null] at isJob
    cases isJob
  have notAccepted := numbered.pending caller new job phase isJob
  obtain ⟨mem, appends, appended⟩ :=
    Memory.append_eq_ok holds.queue (outside caller new phase) notNull
      (holds.ends caller new phase)
  refine ⟨mem, job, nodes, appends, appended, isJob, fun member => notAccepted job member rfl,
    nodes ++ [new], Function.update owner new (some .queue), ?_, ?_, ?_⟩
  · constructor
    · exact appended.queue
    · change (nodes ++ [new]).map mem.job? = _
      rw [appended.jobs, List.map_append, List.map_append, holds.jobs, List.map_singleton,
        List.map_singleton, isJob]
    · change mem.pool.size = _
      rw [appended.size, holds.size, List.length_append]
      exact (Int32.ofNat_add nodes.length 1).symm
    · change mem.pool.shutdown = 0 ∨ mem.pool.shutdown = 1
      rw [appended.shutdown]
      exact holds.shutdown
    · intro worker exited
      change mem.pool.shutdown = 1
      rw [appended.shutdown]
      exact holds.exited worker exited
    · intro other ptr held
      rcases eq_of_update held with ⟨_, isHolding⟩ | ⟨_, before⟩
      · cases isHolding
      · exact (appended.links ptr (outside other ptr before)).trans (holds.ends other ptr before)
  · constructor
    · intro ptr member
      rcases List.mem_append.mp member with old | isNew
      · exact owner_of_other (owned.queued ptr old) (ne_of_owner isOwner (by simp)) _
      · rw [List.mem_singleton.mp isNew, Function.update_self]
    · intro other ptr held
      rcases eq_of_update held with ⟨_, isHolding⟩ | ⟨different, before⟩
      · cases isHolding
      · exact owner_of_other (owned.held other ptr before)
          (ne_of_owner isOwner (by simpa using different)) _
    · intro worker ptr running
      exact owner_of_other (owned.taken worker ptr running) (ne_of_owner isOwner (by simp)) _
    · intro ptr isOwned
      change (mem.job? ptr).isSome
      rw [appended.jobs]
      by_cases same : ptr = new
      · rw [same, isJob]
        rfl
      · rw [Function.update_of_ne same] at isOwned
        exact owned.allocated ptr isOwned
    · change mem.job? 0 = none
      rw [appended.jobs]
      exact owned.null
  · constructor
    · change ∀ ptr job, mem.job? ptr = some job → _
      rw [appended.jobs]
      exact numbered.below
    · change ∀ ptr other first second, mem.job? ptr = some first → mem.job? other = some second → _
      rw [appended.jobs]
      exact numbered.apart
    · intro old member
      rcases List.mem_append.mp member with before | isNew
      · exact numbered.old old before
      · rw [List.mem_singleton.mp isNew]
        exact numbered.below new job isJob
    · intro other ptr held phaseOther isHeld old member
      change mem.job? ptr = some held at isHeld
      rw [appended.jobs] at isHeld
      rcases eq_of_update phaseOther with ⟨_, isHolding⟩ | ⟨different, before⟩
      · cases isHolding
      · rcases List.mem_append.mp member with accepted | isNew
        · exact numbered.pending other ptr held before isHeld old accepted
        · rw [List.mem_singleton.mp isNew]
          intro sameCall
          have same := numbered.apart new ptr job held isJob isHeld sameCall
          subst same
          have both := (owned.held other new before).symm.trans isOwner
          cases both
          exact different rfl

/-- A worker that takes a task finds one, and it is the first of those that wait. -/
theorem Represents.take
    (represents : system.Represents store)
    {worker : Worker}
    (dequeues : system.Dequeues worker) :
    ∃ job rest mem,
      store.waiting = job :: rest ∧
        system.mem.job? system.mem.pool.taskqueue = some job ∧
        system.mem.take = .ok (system.mem.pool.taskqueue, mem) ∧
        System.Represents
          { system.setWorker worker (.running system.mem.pool.taskqueue) with mem := mem }
          ⟨store.accepted, rest⟩ := by
  obtain ⟨nodes, owner, holds, owned, numbered⟩ := represents
  obtain ⟨_, notEmpty, running⟩ := dequeues
  have nonempty : nodes ≠ [] := by
    rintro rfl
    exact notEmpty ⟨holds.size, holds.shutdown.resolve_right running⟩
  obtain ⟨behind, rest, isCons, takes, popped⟩ := Memory.take_eq_ok holds.queue nonempty
  have jobs := holds.jobs
  rw [isCons, List.map_cons] at jobs
  obtain ⟨job, later, isWaiting, isJob, restJobs⟩ := List.map_eq_cons_iff.mp jobs.symm
  have distinct := holds.queue.chain.nodup
  rw [isCons, List.nodup_cons] at distinct
  have isOwner : owner system.mem.pool.taskqueue = some .queue := by
    apply owned.queued
    rw [isCons]
    exact List.mem_cons_self
  refine ⟨job, later, _, isWaiting, isJob.symm, takes,
    rest, Function.update owner system.mem.pool.taskqueue (some (.worker worker)), ?_, ?_, ?_⟩
  · exact
      { queue := popped
        jobs := restJobs.symm
        size := by
          change system.mem.pool.size - 1 = _
          rw [holds.size, isCons, List.length_cons, Int32.ofNat_add]
          exact Int32.add_sub_cancel _ _
        shutdown := holds.shutdown
        exited := by
          intro other phase
          rcases eq_of_update phase with ⟨_, isExited⟩ | ⟨_, before⟩
          · cases isExited
          · exact holds.exited other before
        ends := holds.ends }
  · constructor
    · intro ptr member
      have different : ptr ≠ system.mem.pool.taskqueue := by
        rintro rfl
        exact distinct.1 member
      rw [Function.update_of_ne different]
      apply owned.queued
      rw [isCons]
      exact List.mem_cons_of_mem _ member
    · intro caller ptr held
      exact owner_of_other (owned.held caller ptr held) (ne_of_owner isOwner (by simp)) _
    · intro other ptr phase
      rcases eq_of_update phase with ⟨isWorker, isTask⟩ | ⟨_, before⟩
      · cases isTask
        rw [Function.update_self, isWorker]
      · exact owner_of_other (owned.taken other ptr before) (ne_of_owner isOwner (by simp)) _
    · intro ptr isOwned
      by_cases same : ptr = system.mem.pool.taskqueue
      · rw [same]
        exact owned.allocated _ (by rw [isOwner]; rfl)
      · rw [Function.update_of_ne same] at isOwned
        exact owned.allocated ptr isOwned
    · exact owned.null
  · exact numbered.fewer (fun _ _ isJob => isJob) rfl fun _ _ held => held

/-- A worker frees the task it has run. -/
theorem Represents.free
    (represents : system.Represents store)
    {worker : Worker}
    {ptr : Ptr}
    (phase : system.workers worker = .running ptr)
    (isNext :
      next =
        { system.setWorker worker .locking with
          mem.tasks := Function.update system.mem.tasks ptr none }) :
    next.Represents store := by
  obtain ⟨nodes, owner, holds, owned, numbered⟩ := represents
  have pool : next.mem.pool = system.mem.pool := by rw [isNext]; rfl
  have links : next.mem.link = Function.update system.mem.link ptr none := by
    rw [isNext]
    exact Memory.link_update ..
  have jobs : next.mem.job? = Function.update system.mem.job? ptr none := by
    rw [isNext]
    exact Memory.job?_update ..
  have callers : next.callers = system.callers := by rw [isNext]; rfl
  have workers : next.workers = Function.update system.workers worker .locking := by
    rw [isNext]
    rfl
  have calls : next.calls = system.calls := by rw [isNext]; rfl
  clear isNext
  have isOwner := owned.taken worker ptr phase
  have outside : ptr ∉ nodes := by
    intro member
    exact ne_of_owner isOwner (by simp) (owned.queued ptr member)
  have still : ∀ other job, next.mem.job? other = some job → system.mem.job? other = some job := by
    intro other job isJob
    rw [jobs] at isJob
    rcases eq_of_update isJob with ⟨_, none⟩ | ⟨_, before⟩
    · cases none
    · exact before
  refine ⟨nodes, Function.update owner ptr none, ?_, ?_, ?_⟩
  · apply holds.elsewhere outside pool links jobs
    · intro other phaseOther
      rw [workers] at phaseOther
      rcases eq_of_update phaseOther with ⟨_, isExited⟩ | ⟨_, before⟩
      · cases isExited
      · exact before
    · intro caller held heldPhase
      rw [callers] at heldPhase
      have apart : held ≠ ptr := by
        rintro rfl
        exact ne_of_owner isOwner (by simp) (owned.held caller held heldPhase)
      rw [links, Function.update_of_ne apart]
      exact holds.ends caller held heldPhase
  · constructor
    · intro node member
      exact owner_of_other (owned.queued node member) (ne_of_owner isOwner (by simp)) _
    · intro caller held heldPhase
      rw [callers] at heldPhase
      exact owner_of_other (owned.held caller held heldPhase) (ne_of_owner isOwner (by simp)) _
    · intro other running runningPhase
      rw [workers] at runningPhase
      rcases eq_of_update runningPhase with ⟨_, isRunning⟩ | ⟨different, before⟩
      · cases isRunning
      · exact owner_of_other (owned.taken other running before)
          (ne_of_owner isOwner (by simpa using different)) _
    · intro other isOwned
      rw [jobs]
      by_cases same : other = ptr
      · rw [same, Function.update_self] at isOwned
        cases isOwned
      · rw [Function.update_of_ne same] at isOwned ⊢
        exact owned.allocated other isOwned
    · rw [jobs]
      by_cases same : 0 = ptr
      · rw [same, Function.update_self]
      · rw [Function.update_of_ne same]
        exact owned.null
  · apply numbered.fewer still calls
    rw [callers]
    exact fun _ _ held => held

theorem Represents.setCaller
    (represents : system.Represents store)
    (caller : Nat)
    {phase : CallerPhase}
    (notHolding : ∀ ptr, phase ≠ .holding ptr) :
    (system.setCaller caller phase).Represents store := by
  refine represents.quiet rfl rfl rfl rfl represents.shutdown represents.exited rfl ?_ ?_
  · intro other ptr held
    rcases eq_of_update held with ⟨_, isHolding⟩ | ⟨_, before⟩
    · exact absurd isHolding (notHolding ptr)
    · exact before
  · intro worker ptr running
    exact running

theorem Represents.setWorker
    (represents : system.Represents store)
    (worker : Worker)
    {phase : WorkerPhase}
    (notRunning : ∀ ptr, phase ≠ .running ptr)
    (closed : phase = .exited → system.mem.pool.shutdown = 1) :
    (system.setWorker worker phase).Represents store := by
  refine represents.quiet rfl rfl rfl rfl represents.shutdown ?_ rfl ?_ ?_
  · intro other exited
    rcases eq_of_update exited with ⟨_, isExited⟩ | ⟨_, before⟩
    · exact closed isExited
    · exact represents.exited other before
  · intro caller ptr held
    exact held
  · intro other ptr running
    rcases eq_of_update running with ⟨_, isRunning⟩ | ⟨_, before⟩
    · exact absurd isRunning (notRunning ptr)
    · exact before

/-- What `pool_daemon` does when it finds a task. -/
theorem step_poolDaemon
    {worker : Worker}
    {task : Ptr}
    {mem : Memory}
    (dequeues : system.Dequeues worker)
    (takes : system.mem.take = .ok (task, mem)) :
    system.step (.poolDaemon worker) =
      .ok { system.setWorker worker (.running task) with mem := mem } := by
  obtain ⟨locking, notEmpty, running⟩ := dequeues
  simp only [System.step, if_neg (not_not.mpr locking), if_neg notEmpty, if_neg running, takes]
  rfl

/-- The step lemma: what a step is observed to do, it does to the tasks that wait. -/
theorem Represents.step
    (represents : system.Represents store)
    {label : Step}
    (stepped : system.step label = .ok next) :
    ∃ after, stuttering Fifo.Step store (system.observe label) after ∧ next.Represents after := by
  cases label with
  | pthreadCreate worker =>
      refine ⟨store, rfl, ?_⟩
      simp only [System.step] at stepped
      split at stepped
      · cases stepped
        exact represents.setWorker worker nofun nofun
      · cases stepped
  | started =>
      refine ⟨store, rfl, ?_⟩
      simp only [System.step] at stepped
      split at stepped
      · cases stepped
        exact represents.quiet rfl rfl rfl rfl represents.shutdown represents.exited rfl
          (fun _ _ held => held) fun _ _ running => running
      · cases stepped
  | addTaskToPool caller ptr args task =>
      refine ⟨store, rfl, ?_⟩
      simp only [System.step] at stepped
      split at stepped
      · cases stepped
      · split at stepped
        · cases stepped
          exact represents
        · split at stepped
          · cases stepped
          · next notNull =>
              split at stepped
              · cases stepped
              · next free =>
                  exact represents.allocate notNull (by simpa using free)
                    (Except.ok.inj stepped).symm
  | append caller =>
      simp only [System.step] at stepped
      split at stepped
      · next new phase =>
          obtain ⟨mem, job, nodes, appends, _, isJob, isNew, after⟩ := represents.append phase
          rw [appends] at stepped
          cases stepped
          simp only [observe, phase, isJob, Option.map_some]
          exact ⟨_, .put isNew, after⟩
      · cases stepped
  | condSignal caller woken =>
      refine ⟨store, rfl, ?_⟩
      have idle : (system.setCaller caller .idle).Represents store :=
        represents.setCaller caller nofun
      simp only [System.step] at stepped
      split at stepped
      · cases stepped
      · split at stepped
        · split at stepped
          · cases stepped
          · cases stepped
            exact idle
        · split at stepped
          · cases stepped
            exact idle.setWorker _ nofun nofun
          · cases stepped
  | wakeUp worker =>
      refine ⟨store, rfl, ?_⟩
      simp only [System.step] at stepped
      split at stepped
      · cases stepped
        exact represents.setWorker worker nofun nofun
      · cases stepped
  | poolDaemon worker =>
      by_cases dequeues : system.Dequeues worker
      · obtain ⟨job, rest, mem, waiting, isJob, takes, after⟩ := represents.take dequeues
        rw [step_poolDaemon dequeues takes] at stepped
        cases stepped
        refine ⟨⟨store.accepted, rest⟩, ?_, after⟩
        obtain ⟨accepted, queue⟩ := store
        cases waiting
        rw [observe, if_pos dequeues, isJob]
        exact .take
      · refine ⟨store, ?_, ?_⟩
        · rw [observe, if_neg dequeues]
          rfl
        · simp only [System.step] at stepped
          split at stepped
          · cases stepped
          · next locking =>
              split at stepped
              · cases stepped
                exact represents.setWorker worker nofun nofun
              · next notEmpty =>
                  split at stepped
                  · next shutDown =>
                      cases stepped
                      exact represents.setWorker worker nofun fun _ => shutDown
                  · next running =>
                      exact absurd ⟨not_not.mp locking, notEmpty, running⟩ dequeues
  | runTask worker =>
      refine ⟨store, rfl, ?_⟩
      simp only [System.step] at stepped
      split at stepped
      · next ptr phase =>
          split at stepped
          · cases stepped
          · split at stepped
            · cases stepped
              exact represents.setWorker worker nofun nofun
            · exact represents.free phase (Except.ok.inj stepped).symm
      · cases stepped
  | shutDown =>
      refine ⟨store, rfl, ?_⟩
      cases stepped
      exact represents.quiet rfl rfl rfl rfl (Or.inr rfl) (fun _ _ => rfl) rfl
        (fun _ _ held => held) fun _ _ running => running

theorem represents_init :
    init.Represents .empty := by
  refine ⟨[], fun _ => none, ?_, ?_, ?_⟩
  · exact
      { queue := Queue.empty
        jobs := rfl
        size := rfl
        shutdown := Or.inl rfl
        exited := nofun
        ends := nofun }
  · exact
      { queued := nofun
        held := nofun
        taken := nofun
        allocated := nofun
        null := rfl }
  · exact
      { below := nofun
        apart := nofun
        old := nofun
        pending := nofun }

end

end System

end ThreadPool

end Pma
