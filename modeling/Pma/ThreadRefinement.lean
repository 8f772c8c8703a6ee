import Mathlib.Data.List.TakeWhile
import Pma.Agenda

namespace Pma.Threads

open NullTerminated

/-!
# The scheduler keeps its agenda

Every call of `lib/thread.c` does to the lists, types and descriptor sets what
the call of the agenda does, and no call fails an assertion, reads another
member of the union than was written, or loops without end.
-/

variable {Func Arg : Type}

/-- The lists and objects of a master are those of an agenda. -/
structure Mirrors (m : ThreadMaster Func Arg) (a : Agenda Func Arg) : Prop where
  chained : Chained m a.queue
  type : ∀ {list thread}, thread ∈ a.queue list → (m.threads thread).type = list
  job : ∀ thread, (m.threads thread).job = a.job thread
  alloc : m.alloc = a.alloc
  exceptfd : m.exceptfd = ∅

/-- And its descriptor sets are what the agenda watches. -/
structure Represents (m : ThreadMaster Func Arg) (a : Agenda Func Arg) : Prop
    extends Mirrors m a where
  readfd : m.readfd = a.watched .read
  writefd : m.writefd = a.watched .write

/-- A thread just taken, on no list yet, with its type and its job. -/
structure InHand (m : ThreadMaster Func Arg) (a : Agenda Func Arg) (list : ThreadType)
    (job : Job Func Arg) : Prop where
  chained : Chained m a.take.queue
  type :
    ∀ {other thread}, thread ∈ a.take.queue other → (m.threads thread).type = other
  ownType : (m.threads a.fresh).type = list
  job : ∀ thread, (m.threads thread).job = Function.update a.job a.fresh job thread
  alloc : m.alloc = a.take.alloc
  exceptfd : m.exceptfd = ∅

section

variable
  {m after : ThreadMaster Func Arg}
  {a : Agenda Func Arg}
  {list : ThreadType}
  {thread : ThreadId}

/-- A master whose objects and lists are those of another one. -/
theorem InHand.congr
    {job : Job Func Arg}
    (inHand : InHand m a list job)
    (threads : after.threads = m.threads)
    (lists : after.lists = m.lists)
    (alloc : after.alloc = m.alloc)
    (exceptfd : after.exceptfd = m.exceptfd) :
    InHand after a list job where
  chained := inHand.chained.congr lists (by unfold ThreadMaster.neighbours; rw [threads])
  type := by
    rw [threads]
    exact inHand.type
  ownType := by
    rw [threads]
    exact inHand.ownType
  job := by
    rw [threads]
    exact inHand.job
  alloc := alloc.trans inHand.alloc
  exceptfd := exceptfd.trans inHand.exceptfd

/-- Taking an object takes the next handle of the agenda. -/
structure Taken (m : ThreadMaster Func Arg) (a : Agenda Func Arg)
    (taken : ThreadId × ThreadMaster Func Arg) : Prop where
  handle : taken.1 = a.fresh
  chained : Chained taken.2 a.take.queue
  others :
    ∀ other, other ≠ a.fresh →
      (taken.2.threads other).type = (m.threads other).type ∧
        (taken.2.threads other).job = (m.threads other).job
  alloc : taken.2.alloc = a.take.alloc
  readfd : taken.2.readfd = m.readfd
  writefd : taken.2.writefd = m.writefd
  exceptfd : taken.2.exceptfd = m.exceptfd

theorem Mirrors.taken
    (mirrors : Mirrors m a)
    (wellFormed : a.WellFormed) :
    Taken m a (takeThread m) := by
  have head : (m.lists .unused).head = (a.queue .unused).head? :=
    (mirrors.chained.holds .unused).head_eq
  unfold takeThread threadTrimHead
  cases unused : a.queue .unused with
  | nil =>
      rw [unused, List.head?_nil] at head
      have isFresh : a.fresh = m.alloc := by
        rw [mirrors.alloc, Agenda.fresh, unused, List.headD_nil]
      have taken : a.take.queue = a.queue := by
        funext list
        by_cases isUnused : list = .unused
        · subst isUnused
          simp [Agenda.take, Agenda.set, unused]
        · exact Agenda.queue_take a isUnused
      have allocated : a.take.alloc = m.alloc + 1 := by
        simp [Agenda.take, unused, mirrors.alloc]
      rw [head]
      refine ⟨isFresh.symm, ?_, ?_, allocated.symm, rfl, rfl, rfl⟩
      · rw [taken]
        refine ⟨?_, mirrors.chained.count, mirrors.chained.apart⟩
        intro list
        apply (mirrors.chained.holds list).congr rfl
        intro node member
        have different : node ≠ m.alloc := by
          rintro rfl
          have below := wellFormed.lt_alloc_iff.mpr ⟨list, member⟩
          rw [mirrors.alloc] at below
          exact Nat.lt_irrefl _ below
        simp [ThreadMaster.neighbours, ThreadMaster.write, different]
      · intro other different
        rw [isFresh] at different
        simp [ThreadMaster.write, different]
  | cons object rest =>
      rw [unused, List.head?_cons] at head
      have isFresh : a.fresh = object := by
        rw [Agenda.fresh, unused, List.headD_cons]
      have taken : a.take.queue = Function.update a.queue .unused ([] ++ rest) := by
        simp [Agenda.take, Agenda.set, unused]
      have allocated : a.take.alloc = a.alloc := by
        simp [Agenda.take, unused]
      have relinked := relinked_threadListDelete m .unused object
      rw [head]
      refine ⟨isFresh.symm, ?_, fun other _ => ⟨relinked.type other, relinked.job other⟩,
        ?_, relinked.readfd, relinked.writefd, relinked.exceptfd⟩
      · rw [taken]
        exact mirrors.chained.threadListDelete (by rw [unused, List.nil_append])
      · rw [allocated, ← mirrors.alloc]
        exact relinked.alloc

/-- `thread_get` and the assignment to `u` behind it. -/
theorem Mirrors.inHand
    {func : Func}
    {arg : Option Arg}
    {u : Second}
    (mirrors : Mirrors m a)
    (wellFormed : a.WellFormed) :
    InHand ((threadGet m list func arg).2.setU (threadGet m list func arg).1 u) a list
      ⟨some func, arg, u⟩ := by
  have taken := mirrors.taken wellFormed
  have own :
      ((threadGet m list func arg).2.setU (threadGet m list func arg).1 u).threads a.fresh =
        { (takeThread m).2.threads a.fresh with
          type := list, func := some func, arg := arg, u := u } := by
    simp [threadGet, taken.handle, ThreadMaster.setU]
  have others {thread : ThreadId} (different : thread ≠ a.fresh) :
      ((threadGet m list func arg).2.setU (threadGet m list func arg).1 u).threads thread =
        (takeThread m).2.threads thread := by
    simp only [threadGet, taken.handle, ThreadMaster.setU]
    rw [threads_write_other _ _ _ _ different, threads_write_other _ _ _ _ different]
  refine ⟨?_, ?_, ?_, ?_, taken.alloc, taken.exceptfd.trans mirrors.exceptfd⟩
  · apply taken.chained.congr
    · rfl
    · simp only [threadGet, ThreadMaster.setU]
      rw [neighbours_write, neighbours_write]
      all_goals exact fun _ => rfl
  · intro other thread member
    have different : thread ≠ a.fresh := by
      rintro rfl
      exact Agenda.fresh_off wellFormed other member
    rw [others different, (taken.others thread different).1]
    exact mirrors.type (Agenda.take_subset a other member)
  · rw [own]
  · intro thread
    by_cases same : thread = a.fresh
    · subst same
      rw [own, Function.update_self]
      rfl
    · rw [others same, Function.update_of_ne same, (taken.others thread same).2]
      exact mirrors.job thread

theorem Mirrors.handle
    {func : Func}
    {arg : Option Arg}
    (mirrors : Mirrors m a)
    (wellFormed : a.WellFormed) :
    (threadGet m list func arg).1 = a.fresh :=
  (mirrors.taken wellFormed).handle

/-- The thread in hand is put between two parts of its list. -/
theorem InHand.placed
    {job : Job Func Arg}
    {parts : List ThreadId × List ThreadId}
    (inHand : InHand m a list job)
    (used : list ≠ .unused)
    (shape : a.queue list = parts.1 ++ parts.2)
    (relinked : Relinked m after)
    (chained : Chained after (a.add list job parts).queue) :
    Mirrors after (a.add list job parts) where
  chained := chained
  type := by
    intro other thread member
    rw [relinked.type]
    by_cases same : other = list
    · subst same
      rw [Agenda.queue_add_self] at member
      by_cases new : thread = a.fresh
      · subst new
        exact inHand.ownType
      · apply inHand.type
        rw [Agenda.queue_take a used, shape]
        simpa [new] using member
    · rw [Agenda.queue_add_other a same] at member
      exact inHand.type member
  job thread := (relinked.job thread).trans (inHand.job thread)
  alloc := relinked.alloc.trans inHand.alloc
  exceptfd := relinked.exceptfd.trans inHand.exceptfd

/-- It is put at the end. -/
theorem InHand.threadListAdd
    {job : Job Func Arg}
    (inHand : InHand m a list job)
    (wellFormed : a.WellFormed)
    (used : list ≠ .unused) :
    Mirrors (threadListAdd m list a.fresh) (a.add list job (a.queue list, [])) := by
  apply inHand.placed used (List.append_nil _).symm (relinked_threadListAdd ..)
  have added :
      Chained (Threads.threadListAdd m list a.fresh)
        (Function.update a.take.queue list (a.take.queue list ++ [a.fresh])) :=
    inHand.chained.threadListAdd (Agenda.fresh_off wellFormed)
  rw [Agenda.queue_take a used] at added
  exact added

/-- It is put before another one. -/
theorem InHand.threadListAddBefore
    {job : Job Func Arg}
    {point : ThreadId}
    {first second : List ThreadId}
    (inHand : InHand m a list job)
    (wellFormed : a.WellFormed)
    (used : list ≠ .unused)
    (shape : a.queue list = first ++ point :: second) :
    Mirrors (threadListAddBefore m list point a.fresh)
      (a.add list job (first, point :: second)) := by
  apply inHand.placed used shape (relinked_threadListAddBefore ..)
  apply inHand.chained.threadListAddBefore _ (Agenda.fresh_off wellFormed)
  rw [Agenda.queue_take a used, shape]

/-! ## Adding threads -/

theorem fdIsset_eq
    {fd : Nat}
    (inside : fd < fdSetsize)
    (set : Finset Nat) :
    fdIsset fd set = .ok (decide (fd ∈ set)) :=
  if_pos inside

/-- A thread is put on a list of descriptors, and its descriptor in their set. -/
theorem InHand.watches
    {job : Job Func Arg}
    {fd : Nat}
    (inHand : InHand m a list job)
    (wellFormed : a.WellFormed)
    (used : list ≠ .unused)
    (value : job.u = .fd fd) :
    Mirrors (Threads.threadListAdd m list a.fresh) (a.add list job (a.queue list, [])) ∧
      (a.add list job (a.queue list, [])).watched list = insert fd (a.watched list) ∧
      ∀ other, other ≠ list → other ≠ .unused →
        (a.add list job (a.queue list, [])).watched other = a.watched other :=
  ⟨inHand.threadListAdd wellFormed used, Agenda.watched_add_self wellFormed used value,
    fun _ different isUsed => Agenda.watched_add_other wellFormed different isUsed⟩

/-- `thread_add_read`. -/
theorem Represents.threadAddRead
    {fd : Nat}
    (represents : Represents m a)
    (wellFormed : a.WellFormed)
    (inside : fd < fdSetsize)
    (func : Func)
    (arg : Option Arg) :
    ∃ after,
      threadAddRead m func arg fd = .ok ((a.addWatch .read func arg fd).1, after) ∧
        Represents after (a.addWatch .read func arg fd).2 := by
  have mirrors := represents.toMirrors
  unfold Threads.threadAddRead Agenda.addWatch
  rw [fdIsset_eq inside, represents.readfd]
  by_cases watched : fd ∈ a.watched .read
  · rw [if_pos watched, decide_eq_true watched]
    exact ⟨m, rfl, represents⟩
  · have handle : (threadGet m .read func arg).1 = a.fresh := mirrors.handle wellFormed
    have taken := mirrors.taken wellFormed
    let got := threadGet m .read func arg
    let held := { got.2 with readfd := insert fd got.2.readfd }.setU got.1 (.fd fd)
    have inHand : InHand held a .read ⟨some func, arg, .fd fd⟩ :=
      (mirrors.inHand wellFormed).congr rfl rfl rfl rfl
    obtain ⟨added, own, others⟩ := inHand.watches wellFormed (by decide) rfl
    have relinked := relinked_threadListAdd held .read a.fresh
    rw [if_neg watched, decide_eq_false watched]
    refine ⟨threadListAdd held .read a.fresh, ?_, ?_⟩
    · rw [← handle]
      rfl
    · refine ⟨added, ?_, ?_⟩
      · rw [own, relinked.readfd, ← represents.readfd]
        exact congrArg (insert fd) taken.readfd
      · rw [others .write (by decide) (by decide), relinked.writefd, ← represents.writefd]
        exact taken.writefd

/-- `thread_add_write`. -/
theorem Represents.threadAddWrite
    {fd : Nat}
    (represents : Represents m a)
    (wellFormed : a.WellFormed)
    (inside : fd < fdSetsize)
    (func : Func)
    (arg : Option Arg) :
    ∃ after,
      threadAddWrite m func arg fd = .ok ((a.addWatch .write func arg fd).1, after) ∧
        Represents after (a.addWatch .write func arg fd).2 := by
  have mirrors := represents.toMirrors
  unfold Threads.threadAddWrite Agenda.addWatch
  rw [fdIsset_eq inside, represents.writefd]
  by_cases watched : fd ∈ a.watched .write
  · rw [if_pos watched, decide_eq_true watched]
    exact ⟨m, rfl, represents⟩
  · have handle : (threadGet m .write func arg).1 = a.fresh := mirrors.handle wellFormed
    have taken := mirrors.taken wellFormed
    let got := threadGet m .write func arg
    let held := { got.2 with writefd := insert fd got.2.writefd }.setU got.1 (.fd fd)
    have inHand : InHand held a .write ⟨some func, arg, .fd fd⟩ :=
      (mirrors.inHand wellFormed).congr rfl rfl rfl rfl
    obtain ⟨added, own, others⟩ := inHand.watches wellFormed (by decide) rfl
    have relinked := relinked_threadListAdd held .write a.fresh
    rw [if_neg watched, decide_eq_false watched]
    refine ⟨threadListAdd held .write a.fresh, ?_, ?_⟩
    · rw [← handle]
      rfl
    · refine ⟨added, ?_, ?_⟩
      · rw [others .read (by decide) (by decide), relinked.readfd, ← represents.readfd]
        exact taken.readfd
      · rw [own, relinked.writefd, ← represents.writefd]
        exact congrArg (insert fd) taken.writefd

/-- What is watched after a thread was added that waits for no descriptor. -/
theorem Represents.added
    {held final : ThreadMaster Func Arg}
    {job : Job Func Arg}
    {parts : List ThreadId × List ThreadId}
    (represents : Represents m a)
    (wellFormed : a.WellFormed)
    (notRead : list ≠ .read)
    (notWrite : list ≠ .write)
    (relinked : Relinked held final)
    (readfd : held.readfd = (takeThread m).2.readfd)
    (writefd : held.writefd = (takeThread m).2.writefd)
    (mirrors : Mirrors final (a.add list job parts)) :
    Represents final (a.add list job parts) := by
  have taken := represents.toMirrors.taken wellFormed
  refine ⟨mirrors, ?_, ?_⟩
  · rw [Agenda.watched_add_other wellFormed notRead.symm (by decide), relinked.readfd, readfd,
      taken.readfd, represents.readfd]
  · rw [Agenda.watched_add_other wellFormed notWrite.symm (by decide), relinked.writefd, writefd,
      taken.writefd, represents.writefd]

/-- `thread_add_event`. -/
theorem Represents.threadAddEvent
    (represents : Represents m a)
    (wellFormed : a.WellFormed)
    (func : Func)
    (arg : Option Arg)
    (val : Int) :
    (threadAddEvent m func arg val).1 = a.fresh ∧
      Represents (threadAddEvent m func arg val).2 (a.addEvent func arg val) := by
  have mirrors := represents.toMirrors
  have handle : (threadGet m .event func arg).1 = a.fresh := mirrors.handle wellFormed
  let held := (threadGet m .event func arg).2.setU (threadGet m .event func arg).1 (.val val)
  have inHand : InHand held a .event ⟨some func, arg, .val val⟩ := mirrors.inHand wellFormed
  have final : (Threads.threadAddEvent m func arg val).2 = threadListAdd held .event a.fresh := by
    rw [← handle]
    rfl
  refine ⟨handle, ?_⟩
  rw [final]
  apply represents.added wellFormed (by decide) (by decide)
    (relinked_threadListAdd held .event a.fresh) rfl rfl
  exact inHand.threadListAdd wellFormed (by decide)

/-- The loop over the timers finds the place of the agenda. -/
theorem InHand.timerPlace
    {job : Job Func Arg}
    (inHand : InHand m a .timer job)
    (wellFormed : a.WellFormed)
    (sands : Timeval) :
    timerPlace m sands =
      .ok ((a.queue .timer).find? fun thread => a.isBefore thread sands) := by
  have holds := inHand.chained.holds .timer
  rw [Agenda.queue_take a (by decide)] at holds
  have head : (m.lists .timer).head = (a.queue .timer).head? := holds.head_eq
  have short := wellFormed.length_le .timer
  have allocated : a.alloc ≤ m.alloc := by
    rw [inHand.alloc]
    unfold Agenda.take
    dsimp only
    split <;> omega
  unfold Threads.timerPlace
  rw [head]
  apply holds.search_eq (List.nil_append _).symm
  · intro thread member
    obtain ⟨time, isTime⟩ := wellFormed.timers thread member
    have different : thread ≠ a.fresh := by
      rintro rfl
      apply Agenda.fresh_off wellFormed .timer
      rwa [Agenda.queue_take a (by decide)]
    have job := inHand.job thread
    rw [Function.update_of_ne different] at job
    have stored : (m.threads thread).u = .sands time := by
      rw [← isTime, ← job]
      rfl
    simp [threadSands, stored, Agenda.isBefore, Agenda.time, isTime, bind, Except.bind, pure,
      Except.pure]
  · omega

/-- `thread_add_timer_high_resolution`. -/
theorem Represents.threadAddTimerHighResolution
    (represents : Represents m a)
    (wellFormed : a.WellFormed)
    (func : Func)
    (arg : Option Arg)
    (microsecends : UInt64)
    (timerNow : Timeval) :
    ∃ after,
      Threads.threadAddTimerHighResolution m func arg microsecends timerNow =
          .ok (a.fresh, after) ∧
        Represents after (a.addTimer func arg (deadline timerNow microsecends)) := by
  have mirrors := represents.toMirrors
  have handle : (threadGet m .timer func arg).1 = a.fresh := mirrors.handle wellFormed
  let sands := deadline timerNow microsecends
  let held := (threadGet m .timer func arg).2.setU (threadGet m .timer func arg).1 (.sands sands)
  have inHand : InHand held a .timer ⟨some func, arg, .sands sands⟩ := mirrors.inHand wellFormed
  have place := inHand.timerPlace wellFormed sands
  have searched :
      Threads.threadAddTimerHighResolution m func arg microsecends timerNow =
        (timerPlace held sands >>= fun place =>
          place.elim (pure (a.fresh, threadListAdd held .timer a.fresh)) fun tt =>
            pure (a.fresh, threadListAddBefore held .timer tt a.fresh)) := by
    rw [← handle]
    apply bind_congr
    intro place
    cases place <;> rfl
  have parts :
      a.queue .timer =
        ((a.queue .timer).takeWhile fun thread => !a.isBefore thread sands) ++
          (a.queue .timer).dropWhile fun thread => !a.isBefore thread sands :=
    (List.takeWhile_append_dropWhile ..).symm
  have isSands : deadline timerNow microsecends = sands := rfl
  rw [searched, place, List.find?_eq_head?_dropWhile_not]
  unfold Agenda.addTimer
  rw [List.span_eq_takeWhile_dropWhile, isSands]
  cases later : (a.queue .timer).dropWhile fun thread => !a.isBefore thread sands with
  | nil =>
      rw [later, List.append_nil] at parts
      rw [← parts]
      refine ⟨threadListAdd held .timer a.fresh, rfl, ?_⟩
      apply represents.added wellFormed (by decide) (by decide)
        (relinked_threadListAdd held .timer a.fresh) rfl rfl
      exact inHand.threadListAdd wellFormed (by decide)
  | cons point rest =>
      rw [later] at parts
      refine ⟨threadListAddBefore held .timer point a.fresh, rfl, ?_⟩
      apply represents.added wellFormed (by decide) (by decide)
        (relinked_threadListAddBefore held .timer a.fresh point) rfl rfl
      exact inHand.threadListAddBefore wellFormed (by decide) parts

/-! ## Leaving a list -/

/-- What is left on the lists when a thread is taken off its own. -/
structure Removed (m : ThreadMaster Func Arg) (a : Agenda Func Arg) (list : ThreadType)
    (thread : ThreadId) (queue : ThreadType → List ThreadId) : Prop where
  chained : Chained (threadListDelete m list thread) queue
  off : ∀ other, thread ∉ queue other
  queue :
    ∀ target, target ≠ list →
      (a.move list thread target).queue =
        Function.update queue target (queue target ++ [thread])

theorem Mirrors.removed
    (mirrors : Mirrors m a)
    (wellFormed : a.WellFormed)
    (member : thread ∈ a.queue list) :
    Removed m a list thread
      (Function.update a.queue list ((a.queue list).erase thread)) := by
  have nodup := wellFormed.nodup list
  obtain ⟨first, second, shape⟩ := List.append_of_mem member
  have erased : (a.queue list).erase thread = first ++ second := by
    rw [shape] at nodup ⊢
    have away := (List.nodup_cons.mp (List.perm_middle.nodup_iff.mp nodup)).1
    rw [List.erase_append_right _ fun inFirst => away (List.mem_append_left _ inFirst),
      List.erase_cons_head]
  refine ⟨?_, ?_, ?_⟩
  · rw [erased]
    exact mirrors.chained.threadListDelete shape
  · intro other inQueue
    by_cases same : other = list
    · subst same
      rw [Function.update_self] at inQueue
      exact (nodup.mem_erase_iff.mp inQueue).1 rfl
    · rw [Function.update_of_ne same] at inQueue
      exact same (wellFormed.apart inQueue member)
  · intro target _
    rfl

/-- The lists and objects after a thread went to the end of another list. -/
theorem Mirrors.moved
    {target : ThreadType}
    (mirrors : Mirrors m a)
    (wellFormed : a.WellFormed)
    (member : thread ∈ a.queue list)
    (different : target ≠ list)
    (chained : Chained after (a.move list thread target).queue)
    (own : (after.threads thread).type = target)
    (others : ∀ other, other ≠ thread → (after.threads other).type = (m.threads other).type)
    (job : ∀ other, (after.threads other).job = (m.threads other).job)
    (alloc : after.alloc = m.alloc)
    (exceptfd : after.exceptfd = m.exceptfd) :
    Mirrors after (a.move list thread target) where
  chained := chained
  type := by
    intro other node inQueue
    have old {other : ThreadType} {node : ThreadId}
        (different : node ≠ thread)
        (inOther : node ∈ a.queue other) :
        (after.threads node).type = other := by
      rw [others node different]
      exact mirrors.type inOther
    by_cases isTarget : other = target
    · subst isTarget
      rw [Agenda.queue_move_target a different] at inQueue
      rcases List.mem_append.mp inQueue with inOther | new
      · apply old _ inOther
        rintro rfl
        exact different (wellFormed.apart inOther member)
      · rw [List.mem_singleton.mp new]
        exact own
    · by_cases isList : other = list
      · subst isList
        rw [Agenda.queue_move_self a different.symm] at inQueue
        obtain ⟨notThread, inOther⟩ := (wellFormed.nodup other).mem_erase_iff.mp inQueue
        exact old notThread inOther
      · rw [Agenda.queue_move_other a isList isTarget] at inQueue
        apply old _ inQueue
        rintro rfl
        exact isList (wellFormed.apart inQueue member)
  job node := (job node).trans (mirrors.job node)
  alloc := alloc.trans mirrors.alloc
  exceptfd := exceptfd.trans mirrors.exceptfd

/-- What is behind the deletion of a thread wherever one leaves its list. -/
theorem Mirrors.retired
    (mirrors : Mirrors m a)
    (wellFormed : a.WellFormed)
    (used : list ≠ .unused)
    (member : thread ∈ a.queue list) :
    ∃ after,
      threadAddUnuse ((threadListDelete m list thread).setType thread .unused) thread =
          .ok after ∧
        Mirrors after (a.retire list thread) ∧
        after.readfd = m.readfd ∧ after.writefd = m.writefd := by
  have removed := mirrors.removed wellFormed member
  let deleted := threadListDelete m list thread
  let typed := deleted.setType thread .unused
  have relinked : Relinked m deleted := relinked_threadListDelete m list thread
  have own : typed.threads thread = { deleted.threads thread with type := .unused } :=
    threads_write_self ..
  have others {other : ThreadId} (different : other ≠ thread) :
      typed.threads other = deleted.threads other :=
    threads_write_other _ _ _ _ different
  obtain ⟨next, prev⟩ := neighbours_threadListDelete m list thread
  have chained : Chained typed (Function.update a.queue list ((a.queue list).erase thread)) := by
    apply removed.chained.congr
    · rfl
    · exact neighbours_write _ _ _ (fun _ => rfl) (fun _ => rfl)
  have relinkedBack : Relinked typed (threadListAdd typed .unused thread) :=
    relinked_threadListAdd typed .unused thread
  refine ⟨threadListAdd typed .unused thread, ?_, ?_, ?_, ?_⟩
  · unfold threadAddUnuse
    have noNext : (typed.threads thread).next.isNone = true := by
      rw [own]
      exact Option.isNone_iff_eq_none.mpr next
    have noPrev : (typed.threads thread).prev.isNone = true := by
      rw [own]
      exact Option.isNone_iff_eq_none.mpr prev
    have isUnused : decide ((typed.threads thread).type = .unused) = true := by
      rw [own]
      rfl
    rw [noNext, noPrev, isUnused]
    rfl
  · apply mirrors.moved wellFormed member used.symm
    · rw [removed.queue .unused used.symm]
      exact chained.threadListAdd removed.off
    · rw [relinkedBack.type, own]
    · intro other different
      rw [relinkedBack.type, others different, relinked.type]
    · intro other
      rw [relinkedBack.job, ← relinked.job]
      by_cases same : other = thread
      · subst same
        rw [own]
        rfl
      · rw [others same]
    · exact relinkedBack.alloc.trans relinked.alloc
    · exact relinkedBack.exceptfd.trans relinked.exceptfd
  · exact relinkedBack.readfd.trans relinked.readfd
  · exact relinkedBack.writefd.trans relinked.writefd

theorem Mirrors.congr
    (mirrors : Mirrors m a)
    (threads : after.threads = m.threads)
    (lists : after.lists = m.lists)
    (alloc : after.alloc = m.alloc)
    (exceptfd : after.exceptfd = m.exceptfd) :
    Mirrors after a where
  chained := mirrors.chained.congr lists (by unfold ThreadMaster.neighbours; rw [threads])
  type := by
    rw [threads]
    exact mirrors.type
  job := by
    rw [threads]
    exact mirrors.job
  alloc := alloc.trans mirrors.alloc
  exceptfd := exceptfd.trans mirrors.exceptfd

/-- A thread that waits for no descriptor leaves its list. -/
theorem Represents.retired
    (represents : Represents m a)
    (wellFormed : a.WellFormed)
    (used : list ≠ .unused)
    (notRead : list ≠ .read)
    (notWrite : list ≠ .write)
    (member : thread ∈ a.queue list) :
    ∃ after,
      threadAddUnuse ((threadListDelete m list thread).setType thread .unused) thread =
          .ok after ∧
        Represents after (a.retire list thread) := by
  obtain ⟨after, returned, mirrors, readfd, writefd⟩ :=
    represents.toMirrors.retired wellFormed used member
  refine ⟨after, returned, mirrors, ?_, ?_⟩
  · rw [Agenda.retire, Agenda.watched_move_other a notRead.symm (by decide), readfd,
      represents.readfd]
  · rw [Agenda.retire, Agenda.watched_move_other a notWrite.symm (by decide), writefd,
      represents.writefd]

/-- The descriptor that a thread waits for can be read, and is in the set. -/
theorem Represents.threadFd
    (represents : Represents m a)
    (wellFormed : a.WellFormed)
    (watching : list = .read ∨ list = .write)
    (member : thread ∈ a.queue list) :
    ∃ fd,
      threadFd (m.threads thread) = .ok fd ∧ fd < fdSetsize ∧
        (a.job thread).u = .fd fd ∧ fd ∈ a.watched list := by
  obtain ⟨fd, inside, value⟩ := wellFormed.watching list watching thread member
  have stored : (m.threads thread).u = .fd fd := by
    rw [← value, ← represents.job thread]
    rfl
  refine ⟨fd, ?_, inside, value, (Agenda.mem_watched a).mpr ⟨thread, member, value⟩⟩
  unfold Threads.threadFd
  rw [stored]

/-- `thread_cancel`. -/
theorem Represents.threadCancel
    (represents : Represents m a)
    (wellFormed : a.WellFormed)
    (allocated : thread < a.alloc) :
    ∃ after, threadCancel m thread = .ok after ∧ Represents after (a.cancel thread) := by
  obtain ⟨list, member⟩ := wellFormed.lt_alloc_iff.mp allocated
  have type := represents.type member
  unfold Threads.threadCancel Agenda.cancel
  rw [type]
  cases list with
  | unused =>
      rw [Agenda.listOf_unused wellFormed member]
      exact ⟨m, rfl, represents⟩
  | timer =>
      rw [Agenda.listOf_of_mem wellFormed (by decide) member]
      exact represents.retired wellFormed (by decide) (by decide) (by decide) member
  | event =>
      rw [Agenda.listOf_of_mem wellFormed (by decide) member]
      exact represents.retired wellFormed (by decide) (by decide) (by decide) member
  | ready =>
      rw [Agenda.listOf_of_mem wellFormed (by decide) member]
      exact represents.retired wellFormed (by decide) (by decide) (by decide) member
  | read =>
      rw [Agenda.listOf_of_mem wellFormed (by decide) member]
      obtain ⟨fd, isFd, inside, value, watched⟩ :=
        represents.threadFd wellFormed (.inl rfl) member
      have cleared : Mirrors { m with readfd := m.readfd.erase fd } a :=
        represents.toMirrors.congr rfl rfl rfl rfl
      obtain ⟨after, returned, mirrors, readfd, writefd⟩ :=
        cleared.retired wellFormed (by decide) member
      refine ⟨after, ?_, mirrors, ?_, ?_⟩
      · rw [isFd, ← returned]
        change (fdIsset fd m.readfd >>= fun isSet => assertThat isSet >>= fun _ => _) = _
        rw [fdIsset_eq inside, represents.readfd, decide_eq_true watched]
        rfl
      · change after.readfd = (a.move .read thread .unused).watched .read
        rw [Agenda.watched_move_self wellFormed (.inl rfl) (by decide) member value,
          readfd, represents.readfd]
      · change after.writefd = (a.move .read thread .unused).watched .write
        rw [Agenda.watched_move_other a (by decide) (by decide), writefd,
          represents.writefd]
  | write =>
      rw [Agenda.listOf_of_mem wellFormed (by decide) member]
      obtain ⟨fd, isFd, inside, value, watched⟩ :=
        represents.threadFd wellFormed (.inr rfl) member
      have cleared : Mirrors { m with writefd := m.writefd.erase fd } a :=
        represents.toMirrors.congr rfl rfl rfl rfl
      obtain ⟨after, returned, mirrors, readfd, writefd⟩ :=
        cleared.retired wellFormed (by decide) member
      refine ⟨after, ?_, mirrors, ?_, ?_⟩
      · rw [isFd, ← returned]
        change (fdIsset fd m.writefd >>= fun isSet => assertThat isSet >>= fun _ => _) = _
        rw [fdIsset_eq inside, represents.writefd, decide_eq_true watched]
        rfl
      · change after.readfd = (a.move .write thread .unused).watched .read
        rw [Agenda.watched_move_other a (by decide) (by decide), readfd,
          represents.readfd]
      · change after.writefd = (a.move .write thread .unused).watched .write
        rw [Agenda.watched_move_self wellFormed (.inr rfl) (by decide) member value,
          writefd, represents.writefd]

/-! ## Loops along a list -/

/-- A loop that moves the threads with a property, as its body does with one thread. -/
theorem Represents.swept
    {target : ThreadType}
    {gone : ThreadId → Bool}
    {body : ThreadMaster Func Arg → ThreadId → Except Fault (ThreadMaster Func Arg)}
    (represents : Represents m a)
    (wellFormed : a.WellFormed)
    (different : target ≠ list)
    (notWaiting : target ≠ .read ∧ target ≠ .write ∧ target ≠ .timer)
    (moves :
      ∀ {m a' thread}, Represents m a' → a'.WellFormed → a'.job = a.job →
        thread ∈ a'.queue list → gone thread = true →
        ∃ after, body m thread = .ok after ∧ Represents after (a'.move list thread target))
    (stays :
      ∀ {m a' thread}, Represents m a' → a'.WellFormed → a'.job = a.job →
        thread ∈ a'.queue list → gone thread = false → body m thread = .ok m) :
    ∃ after,
      forEach (fun m thread => (m.threads thread).next) body .unfinished (m.alloc + 1)
          (m.lists list).head m = .ok after ∧
        Represents after (a.sweep list target gone) := by
  let between (m : ThreadMaster Func Arg) (passed coming : List ThreadId) : Prop :=
    Represents m (a.partway list target gone passed coming) ∧ passed ++ coming = a.queue list
  have queue (passed coming : List ThreadId) :
      (a.partway list target gone passed coming).queue list =
        (passed.filter fun thread => !gone thread) ++ coming := by
    rw [Agenda.partway, Agenda.queue_set_other _ _ different.symm, Agenda.queue_set_self]
  have behind
      {m : ThreadMaster Func Arg}
      {passed coming : List ThreadId}
      {thread : ThreadId}
      (holds : between m passed (thread :: coming)) :
      (m.threads thread).next = coming.head? := by
    have linked := holds.1.chained.holds list
    rw [queue] at linked
    exact linked.next_eq
  have preserved
      {m : ThreadMaster Func Arg}
      {passed coming : List ThreadId}
      {thread : ThreadId}
      (holds : between m passed (thread :: coming)) :
      ∃ after, body m thread = .ok after ∧ between after (passed ++ [thread]) coming := by
    obtain ⟨current, shape⟩ := holds
    have partWellFormed := wellFormed.rearranged
      (Agenda.Rearranged.partway a gone different notWaiting shape)
    have member : thread ∈ (a.partway list target gone passed (thread :: coming)).queue list := by
      rw [queue]
      exact List.mem_append_cons_self
    have onward : (passed ++ [thread]) ++ coming = a.queue list := by
      rw [← shape, List.append_assoc, List.singleton_append]
    have once : thread ∉ passed := by
      have nodup := wellFormed.nodup list
      rw [← shape] at nodup
      intro inPassed
      exact (List.nodup_cons.mp (List.perm_middle.nodup_iff.mp nodup)).1
        (List.mem_append_left _ inPassed)
    cases goes : gone thread with
    | true =>
        obtain ⟨after, returned, represented⟩ := moves current partWellFormed rfl member goes
        rw [Agenda.partway_move a different goes once] at represented
        exact ⟨after, returned, represented, onward⟩
    | false =>
        have returned := stays current partWellFormed rfl member goes
        rw [← Agenda.partway_keep a goes] at current
        exact ⟨m, returned, current, onward⟩
  have head : (m.lists list).head = (a.queue list).head? :=
    (represents.chained.holds list).head_eq
  have start : between m [] (a.queue list) := by
    refine ⟨?_, rfl⟩
    rw [Agenda.partway_start]
    exact represents
  have short := wellFormed.length_le list
  have enough : (a.queue list).length < m.alloc + 1 := by
    rw [represents.alloc]
    omega
  obtain ⟨after, returned, finished⟩ := forEach_rule between behind preserved start enough
  rw [head]
  refine ⟨after, returned, ?_⟩
  rw [List.nil_append] at finished
  rw [← Agenda.partway_end]
  exact finished.1

/-- `thread_cancel_event`. -/
theorem Represents.threadCancelEvent
    [DecidableEq Arg]
    (represents : Represents m a)
    (wellFormed : a.WellFormed)
    (arg : Option Arg) :
    ∃ after,
      threadCancelEvent m arg = .ok after ∧ Represents after (a.cancelEvent arg) := by
  have argOf {m : ThreadMaster Func Arg} {a' : Agenda Func Arg}
      (represents : Represents m a')
      (same : a'.job = a.job)
      (thread : ThreadId) :
      (m.threads thread).arg = (a.job thread).arg := by
    rw [← same, ← represents.job thread]
    rfl
  apply represents.swept wellFormed (by decide) (by decide)
  · intro m a' thread current currentWellFormed same member goes
    rw [argOf current same, if_pos (of_decide_eq_true goes)]
    exact current.retired currentWellFormed (by decide) (by decide) (by decide) member
  · intro m a' thread current currentWellFormed same member stays
    rw [argOf current same, if_neg (of_decide_eq_false stays)]
    rfl

/-- A thread whose descriptor was hit goes to the ready list. -/
theorem Mirrors.readied
    (mirrors : Mirrors m a)
    (wellFormed : a.WellFormed)
    (notReady : list ≠ .ready)
    (member : thread ∈ a.queue list) :
    ∃ after,
      after = (threadListAdd (threadListDelete m list thread) .ready thread).setType thread
          .ready ∧
        Mirrors after (a.move list thread .ready) ∧
        after.readfd = m.readfd ∧ after.writefd = m.writefd := by
  have removed := mirrors.removed wellFormed member
  let deleted := threadListDelete m list thread
  let added := threadListAdd deleted .ready thread
  have relinked : Relinked m added :=
    (relinked_threadListDelete m list thread).trans (relinked_threadListAdd deleted .ready thread)
  have own :
      (added.setType thread .ready).threads thread =
        { added.threads thread with type := .ready } :=
    threads_write_self ..
  have others {other : ThreadId} (different : other ≠ thread) :
      (added.setType thread .ready).threads other = added.threads other :=
    threads_write_other _ _ _ _ different
  refine ⟨_, rfl, ?_, relinked.readfd, relinked.writefd⟩
  apply mirrors.moved wellFormed member notReady.symm
  · rw [removed.queue .ready notReady.symm]
    apply (removed.chained.threadListAdd removed.off).congr
    · rfl
    · exact neighbours_write _ _ _ (fun _ => rfl) (fun _ => rfl)
  · rw [own]
  · intro other different
    rw [others different, relinked.type]
  · intro other
    rw [← relinked.job]
    by_cases same : other = thread
    · subst same
      rw [own]
      rfl
    · rw [others same]
  · exact relinked.alloc
  · exact relinked.exceptfd

section

variable
  {fdset : Finset Nat}
  {fd : Nat}
  {mfdset : ThreadMaster Func Arg → Finset Nat}
  {setMfdset : ThreadMaster Func Arg → Finset Nat → ThreadMaster Func Arg}

theorem processThread_hit
    (isFd : threadFd (m.threads thread) = .ok fd)
    (inside : fd < fdSetsize)
    (hit : fd ∈ fdset)
    (watched : fd ∈ mfdset m) :
    processThread list fdset mfdset setMfdset m thread =
      .ok ((threadListAdd (threadListDelete (setMfdset m ((mfdset m).erase fd)) list thread)
        .ready thread).setType thread .ready) := by
  unfold processThread
  rw [isFd]
  change (fdIsset fd fdset >>= fun isSet => if isSet then
    fdIsset fd (mfdset m) >>= fun isSet => assertThat isSet >>= fun _ => _ else _) = _
  rw [fdIsset_eq inside, decide_eq_true hit, fdIsset_eq inside, decide_eq_true watched]
  rfl

theorem processThread_miss
    (isFd : threadFd (m.threads thread) = .ok fd)
    (inside : fd < fdSetsize)
    (missed : fd ∉ fdset) :
    processThread list fdset mfdset setMfdset m thread = .ok m := by
  unfold processThread
  rw [isFd]
  change (fdIsset fd fdset >>= fun isSet => if isSet then _ else _) = _
  rw [fdIsset_eq inside, decide_eq_false missed]
  rfl

/-- `thread_process_fd` on a list of descriptors, where it clears its set as it should. -/
theorem Represents.processed
    (represents : Represents m a)
    (wellFormed : a.WellFormed)
    (fdset : Finset Nat)
    (watching : list = .read ∨ list = .write)
    (set :
      ∀ {m : ThreadMaster Func Arg} {a : Agenda Func Arg},
        Represents m a → mfdset m = a.watched list)
    (cleared :
      ∀ {m : ThreadMaster Func Arg} {a after thread} {fd : Nat}, Represents m a →
        a.WellFormed → thread ∈ a.queue list → (a.job thread).u = .fd fd →
        after = (threadListAdd (threadListDelete (setMfdset m ((mfdset m).erase fd)) list thread)
          .ready thread).setType thread .ready →
        Represents after (a.move list thread .ready)) :
    ∃ after,
      threadProcessFd list fdset mfdset setMfdset m = .ok after ∧
        Represents after (a.process list fdset) := by
  have hit {a' : Agenda Func Arg} {fd : Nat} {thread : ThreadId}
      (same : a'.job = a.job)
      (value : (a'.job thread).u = .fd fd) :
      a.isHit thread fdset = decide (fd ∈ fdset) := by
    rw [same] at value
    exact a.isHit_eq value
  have notReady : ThreadType.ready ≠ list := by
    rintro rfl
    simp at watching
  apply represents.swept wellFormed notReady (by decide)
  · intro m a' thread current currentWellFormed same member goes
    obtain ⟨fd, isFd, inside, value, watched⟩ :=
      current.threadFd currentWellFormed watching member
    rw [hit same value] at goes
    rw [← set current] at watched
    exact ⟨_, processThread_hit isFd inside (of_decide_eq_true goes) watched,
      cleared current currentWellFormed member value rfl⟩
  · intro m a' thread current currentWellFormed same member stays
    obtain ⟨fd, isFd, inside, value, _⟩ :=
      current.threadFd currentWellFormed watching member
    rw [hit same value] at stays
    exact processThread_miss isFd inside (of_decide_eq_false stays)

end

/-- Both calls of `thread_process_fd`. -/
theorem Represents.processFds
    (represents : Represents m a)
    (wellFormed : a.WellFormed)
    (readfd writefd : Finset Nat) :
    ∃ after,
      processFds m readfd writefd = .ok after ∧
        Represents after ((a.process .read readfd).process .write writefd) := by
  have readWellFormed := wellFormed.rearranged (Agenda.rearranged_process a readfd (.inl rfl))
  have reads :
      ∃ after,
        threadProcessFd .read readfd ThreadMaster.readfd
            (fun m set => { m with readfd := set }) m = .ok after ∧
          Represents after (a.process .read readfd) := by
    apply represents.processed wellFormed readfd (.inl rfl)
    · exact fun current => current.readfd
    · intro m a after thread fd current currentWellFormed member value shape
      have cleared : Mirrors { m with readfd := m.readfd.erase fd } a :=
        current.toMirrors.congr rfl rfl rfl rfl
      obtain ⟨_, rfl, mirrors, isRead, isWrite⟩ :=
        cleared.readied currentWellFormed (by decide) member
      subst shape
      refine ⟨mirrors, ?_, ?_⟩
      · rw [Agenda.watched_move_self currentWellFormed (.inl rfl) (by decide) member value,
          isRead, current.readfd]
      · rw [Agenda.watched_move_other a (by decide) (by decide), isWrite, current.writefd]
  obtain ⟨middle, readReturned, readRepresents⟩ := reads
  have writes :
      ∃ after,
        threadProcessFd .write writefd ThreadMaster.writefd
            (fun m set => { m with writefd := set }) middle = .ok after ∧
          Represents after ((a.process .read readfd).process .write writefd) := by
    apply readRepresents.processed readWellFormed writefd (.inr rfl)
    · exact fun current => current.writefd
    · intro m a after thread fd current currentWellFormed member value shape
      have cleared : Mirrors { m with writefd := m.writefd.erase fd } a :=
        current.toMirrors.congr rfl rfl rfl rfl
      obtain ⟨_, rfl, mirrors, isRead, isWrite⟩ :=
        cleared.readied currentWellFormed (by decide) member
      subst shape
      refine ⟨mirrors, ?_, ?_⟩
      · rw [Agenda.watched_move_other a (by decide) (by decide), isRead, current.readfd]
      · rw [Agenda.watched_move_self currentWellFormed (.inr rfl) (by decide) member value,
          isWrite, current.writefd]
  obtain ⟨after, writeReturned, writeRepresents⟩ := writes
  refine ⟨after, ?_, writeRepresents⟩
  unfold Threads.processFds
  rw [readReturned]
  exact writeReturned

/-! ## Fetching -/

theorem Mirrors.head
    (mirrors : Mirrors m a)
    (list : ThreadType) :
    (m.lists list).head = (a.queue list).head? :=
  (mirrors.chained.holds list).head_eq

theorem Mirrors.threadTrimHead
    (mirrors : Mirrors m a)
    (list : ThreadType) :
    threadTrimHead m list =
      (a.queue list).head?.map fun thread => (thread, threadListDelete m list thread) := by
  unfold Threads.threadTrimHead
  rw [mirrors.head]
  cases (a.queue list).head? <;> rfl

/-- The time of a timer can be read. -/
theorem Mirrors.threadSands
    (mirrors : Mirrors m a)
    (wellFormed : a.WellFormed)
    (member : thread ∈ a.queue .timer) :
    ∃ time, threadSands (m.threads thread) = .ok time ∧ a.time thread = some time := by
  obtain ⟨time, isTime⟩ := wellFormed.timers thread member
  have stored : (m.threads thread).u = .sands time := by
    rw [← isTime, ← mirrors.job thread]
    rfl
  refine ⟨time, ?_, ?_⟩
  · unfold Threads.threadSands
    rw [stored]
  · unfold Agenda.time
    rw [isTime]

/-- The loop over the timers finds the first that is due. -/
theorem Mirrors.dueTimer
    (mirrors : Mirrors m a)
    (wellFormed : a.WellFormed)
    (timerNow : Timeval) :
    dueTimer m timerNow =
      .ok ((a.queue .timer).find? fun thread => a.isDue thread timerNow) := by
  have short := wellFormed.length_le .timer
  unfold Threads.dueTimer
  rw [mirrors.head]
  apply (mirrors.chained.holds .timer).search_eq (List.nil_append _).symm
  · intro thread member
    obtain ⟨time, read, isTime⟩ := mirrors.threadSands wellFormed member
    rw [read, Agenda.isDue, isTime]
    rfl
  · rw [mirrors.alloc]
    omega

theorem Mirrors.nextThread
    (mirrors : Mirrors m a)
    (wellFormed : a.WellFormed)
    (timerNow : Timeval) :
    nextThread m timerNow =
      .ok ((a.next timerNow).map fun entry =>
        (entry.2, threadListDelete m entry.1 entry.2)) := by
  unfold Threads.nextThread Agenda.next
  rw [mirrors.threadTrimHead, mirrors.dueTimer wellFormed, mirrors.threadTrimHead]
  cases (a.queue .event).head? with
  | some thread =>
      rfl
  | none =>
      cases isDue : (a.queue .timer).find? fun thread => a.isDue thread timerNow with
      | some thread =>
          rfl
      | none =>
          cases (a.queue .ready).head? <;> rfl

/-- What `select` is called with is what the agenda says. -/
theorem Represents.selectCall
    (represents : Represents m a)
    (wellFormed : a.WellFormed)
    (timerNow : Timeval) :
    selectCall m timerNow = .ok (a.selectCall timerNow) := by
  have wait : threadTimerWait m timerNow = .ok (a.wait timerNow) := by
    unfold threadTimerWait Agenda.wait
    rw [represents.head]
    cases isHead : (a.queue .timer).head? with
    | none =>
        rfl
    | some thread =>
        obtain ⟨time, read, isTime⟩ :=
          represents.threadSands wellFormed (List.mem_of_head? isHead)
        simp only [read, Option.bind_eq_bind, Option.bind_some, isTime]
        rfl
  unfold Threads.selectCall Agenda.selectCall
  rw [wait, represents.readfd, represents.writefd, represents.exceptfd]
  rfl

/-- `thread_run`, once the thread is off its list. -/
theorem Represents.threadRun
    (represents : Represents m a)
    (wellFormed : a.WellFormed)
    (which : list = .event ∨ list = .timer ∨ list = .ready)
    (member : thread ∈ a.queue list) :
    ∃ after,
      threadRun (threadListDelete m list thread) thread =
          .ok ((a.deliver list thread).1, after) ∧
        Represents after (a.deliver list thread).2 := by
  have relinked := relinked_threadListDelete m list thread
  obtain ⟨next, prev⟩ := neighbours_threadListDelete m list thread
  have copied : (threadListDelete m list thread).threads thread = a.copy list thread := by
    have type := (relinked.type thread).trans (represents.type member)
    have job := (relinked.job thread).trans (represents.job thread)
    unfold Agenda.copy
    rw [← job, Thread.job]
    cases object : (threadListDelete m list thread).threads thread with
    | mk ofType ofNext ofPrev func arg u =>
        rw [object] at next prev type
        cases next
        cases prev
        cases type
        rfl
  have outside : list ≠ .unused ∧ list ≠ .read ∧ list ≠ .write := by
    rcases which with rfl | rfl | rfl <;> decide
  obtain ⟨after, returned, represented⟩ :=
    represents.retired wellFormed outside.1 outside.2.1 outside.2.2 member
  refine ⟨after, ?_, represented⟩
  unfold Threads.threadRun
  rw [returned, copied]
  rfl

/-- What follows a computation that returned. -/
private theorem ok_bind
    {α β : Type}
    (value : α)
    (next : α → Except Fault β) :
    (Except.ok value >>= next) = next value :=
  rfl

/-- The passes of `thread_fetch`. -/
theorem Represents.fetchLoop
    (represents : Represents m a)
    (wellFormed : a.WellFormed)
    (passes : List Pass) :
    ∃ after,
      fetchLoop m passes =
          .ok ((a.fetchLoop passes).1, (a.fetchLoop passes).2.1, after) ∧
        Represents after (a.fetchLoop passes).2.2 := by
  induction passes generalizing m a with
  | nil =>
      exact ⟨m, rfl, represents⟩
  | cons pass passes inductionHypothesis =>
      unfold Threads.fetchLoop Agenda.fetchLoop
      rw [represents.nextThread wellFormed, ok_bind]
      cases found : a.next pass.timerNow with
      | some entry =>
          obtain ⟨which, member⟩ := Agenda.next_mem found
          obtain ⟨after, returned, represented⟩ :=
            represents.threadRun wellFormed which member
          refine ⟨after, ?_, represented⟩
          simp only [Option.map_some, returned, ok_bind]
          rfl
      | none =>
          simp only [Option.map_none]
          rw [represents.selectCall wellFormed, ok_bind]
          cases answer : pass.selected with
          | nothing =>
              obtain ⟨after, returned, represented⟩ := inductionHypothesis represents wellFormed
              exact ⟨after, by simp only [returned, ok_bind]; rfl, represented⟩
          | interrupted =>
              obtain ⟨after, returned, represented⟩ := inductionHypothesis represents wellFormed
              exact ⟨after, by simp only [returned, ok_bind]; rfl, represented⟩
          | failed =>
              exact ⟨m, rfl, represents⟩
          | ready readfd writefd =>
              obtain ⟨middle, processed, between⟩ :=
                represents.processFds wellFormed readfd writefd
              have betweenWellFormed := wellFormed.rearranged
                (Agenda.rearranged_processed a readfd writefd)
              simp only [processed, ok_bind]
              rw [between.threadTrimHead]
              cases isHead : (((a.process .read readfd).process .write writefd).queue
                  .ready).head? with
              | some thread =>
                  obtain ⟨after, returned, represented⟩ := between.threadRun betweenWellFormed
                    (.inr (.inr rfl)) (List.mem_of_head? isHead)
                  refine ⟨after, ?_, represented⟩
                  simp only [Option.map_some, returned, ok_bind]
                  rfl
              | none =>
                  obtain ⟨after, returned, represented⟩ :=
                    inductionHypothesis between betweenWellFormed
                  refine ⟨after, ?_, represented⟩
                  simp only [Option.map_none, returned, ok_bind]
                  rfl

/-- `thread_fetch`. -/
theorem Represents.threadFetch
    (represents : Represents m a)
    (wellFormed : a.WellFormed)
    (passes : List Pass) :
    ∃ after,
      threadFetch m passes = .ok ((a.fetch passes).1, (a.fetch passes).2.1, after) ∧
        Represents after (a.fetch passes).2.2 := by
  have empty (list : ThreadType) :
      (m.lists list).head.isNone = true ↔ a.queue list = [] := by
    rw [represents.head]
    cases a.queue list <;> simp
  unfold Threads.threadFetch Agenda.fetch
  simp only [empty]
  split
  · exact ⟨m, rfl, represents⟩
  · exact represents.fetchLoop wellFormed passes

/-! ## Runs -/

/-- A call returns what the agenda says, and leaves what the agenda says. -/
theorem Represents.step
    [DecidableEq Arg]
    {call : Call Func Arg}
    (represents : Represents m a)
    (wellFormed : a.WellFormed)
    (allowed : Agenda.Allowed a.alloc call) :
    ∃ after,
      step m call = .ok ((a.step call).1, after) ∧ Represents after (a.step call).2 := by
  cases call with
  | addRead func arg fd =>
      obtain ⟨after, returned, represented⟩ :=
        represents.threadAddRead wellFormed allowed func arg
      exact ⟨after, by simp only [Threads.step, returned, ok_bind]; rfl, represented⟩
  | addWrite func arg fd =>
      obtain ⟨after, returned, represented⟩ :=
        represents.threadAddWrite wellFormed allowed func arg
      exact ⟨after, by simp only [Threads.step, returned, ok_bind]; rfl, represented⟩
  | addTimerHighResolution func arg microsecends timerNow =>
      obtain ⟨after, returned, represented⟩ :=
        represents.threadAddTimerHighResolution wellFormed func arg microsecends timerNow
      exact ⟨after, by simp only [Threads.step, returned, ok_bind]; rfl, represented⟩
  | addTimer func arg timer timerNow =>
      obtain ⟨after, returned, represented⟩ :=
        represents.threadAddTimerHighResolution wellFormed func arg
          (UInt64.ofInt (timer * timerSecondMicro)) timerNow
      exact ⟨after, by simp only [Threads.step, Threads.threadAddTimer, returned, ok_bind]; rfl,
        represented⟩
  | addEvent func arg val =>
      obtain ⟨handle, represented⟩ := represents.threadAddEvent wellFormed func arg val
      refine ⟨_, ?_, represented⟩
      simp only [Threads.step, handle]
      rfl
  | cancel thread =>
      obtain ⟨after, returned, represented⟩ := represents.threadCancel wellFormed allowed
      exact ⟨after, by simp only [Threads.step, returned, ok_bind]; rfl, represented⟩
  | cancelEvent arg =>
      obtain ⟨after, returned, represented⟩ := represents.threadCancelEvent wellFormed arg
      exact ⟨after, by simp only [Threads.step, returned, ok_bind]; rfl, represented⟩
  | fetch passes =>
      obtain ⟨after, returned, represented⟩ := represents.threadFetch wellFormed passes
      exact ⟨after, by simp only [Threads.step, returned, ok_bind]; rfl, represented⟩

/-- A new master has nothing to do. -/
theorem represents_create :
    Represents (threadMasterCreate : ThreadMaster Func Arg) Agenda.empty := by
  refine ⟨⟨⟨fun list => .nil rfl rfl, fun list => rfl, ?_⟩, ?_, fun _ => rfl, rfl, rfl⟩, ?_, ?_⟩
  · intro list other thread member
    simp [Agenda.empty] at member
  · intro list thread member
    simp [Agenda.empty] at member
  · simp [threadMasterCreate, Agenda.watched, Agenda.empty]
  · simp [threadMasterCreate, Agenda.watched, Agenda.empty]

end

end Pma.Threads
