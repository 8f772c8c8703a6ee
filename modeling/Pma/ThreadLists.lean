import Pma.Threads

namespace Pma.Threads

open IntrusiveRing NullTerminated

/-!
# The lists of the scheduler

What the list functions of `lib/thread.c` do to the six lists of a master, for
masters whose lists are linked and have no thread in common.
-/

variable {Func Arg : Type}

/-- The `next` and `prev` of all threads. -/
def ThreadMaster.neighbours (m : ThreadMaster Func Arg) : Neighbours ThreadId where
  next thread := (m.threads thread).next
  prev thread := (m.threads thread).prev

/-- The `head` and `tail` of a list. -/
def ThreadList.ends (list : ThreadList) : Ends ThreadId where
  head := list.head
  tail := list.tail

/-- What a thread was added for. -/
structure Job (Func Arg : Type) where
  func : Option Func
  arg : Option Arg
  u : Second

/-- The job of a thread object. -/
def Thread.job (object : Thread Func Arg) : Job Func Arg where
  func := object.func
  arg := object.arg
  u := object.u

/-- `queue` is what stands on the lists. -/
structure Chained (m : ThreadMaster Func Arg) (queue : ThreadType → List ThreadId) : Prop where
  holds : ∀ list, Holds m.neighbours (m.lists list).ends (queue list)
  count : ∀ list, (m.lists list).count = (queue list).length
  apart :
    ∀ {list other thread}, thread ∈ queue list → thread ∈ queue other → list = other

/-- `after` differs from `before` in its links only. -/
structure Relinked (before after : ThreadMaster Func Arg) : Prop where
  type : ∀ thread, (after.threads thread).type = (before.threads thread).type
  job : ∀ thread, (after.threads thread).job = (before.threads thread).job
  readfd : after.readfd = before.readfd
  writefd : after.writefd = before.writefd
  exceptfd : after.exceptfd = before.exceptfd
  alloc : after.alloc = before.alloc

namespace Relinked

variable {first second third : ThreadMaster Func Arg}

theorem trans
    (earlier : Relinked first second)
    (later : Relinked second third) :
    Relinked first third where
  type thread := (later.type thread).trans (earlier.type thread)
  job thread := (later.job thread).trans (earlier.job thread)
  readfd := later.readfd.trans earlier.readfd
  writefd := later.writefd.trans earlier.writefd
  exceptfd := later.exceptfd.trans earlier.exceptfd
  alloc := later.alloc.trans earlier.alloc

end Relinked

/-! ## Single assignments -/

section

variable
  (m : ThreadMaster Func Arg)
  (list : ThreadType)
  (thread other : ThreadId)
  (value : Option ThreadId)

@[simp]
theorem threads_write_self (change : Thread Func Arg → Thread Func Arg) :
    (m.write thread change).threads thread = change (m.threads thread) :=
  Function.update_self ..

theorem threads_write_other
    (change : Thread Func Arg → Thread Func Arg)
    (different : other ≠ thread) :
    (m.write thread change).threads other = m.threads other :=
  Function.update_of_ne different ..

/-- A change that leaves the links of an object leaves those of all. -/
theorem neighbours_write
    (change : Thread Func Arg → Thread Func Arg)
    (next : ∀ object, (change object).next = object.next)
    (prev : ∀ object, (change object).prev = object.prev) :
    (m.write thread change).neighbours = m.neighbours := by
  unfold ThreadMaster.neighbours
  congr 1
  all_goals
    funext other
    by_cases same : other = thread
    · subst same
      rw [threads_write_self]
      first
        | exact next _
        | exact prev _
    · rw [threads_write_other m thread other change same]

theorem relinked_setNext : Relinked m (m.setNext thread value) := by
  refine ⟨?_, ?_, rfl, rfl, rfl, rfl⟩
  all_goals
    intro other
    by_cases same : other = thread
    · subst same
      simp [ThreadMaster.setNext, ThreadMaster.write, Thread.job]
    · simp [ThreadMaster.setNext, ThreadMaster.write, same]

theorem relinked_setPrev : Relinked m (m.setPrev thread value) := by
  refine ⟨?_, ?_, rfl, rfl, rfl, rfl⟩
  all_goals
    intro other
    by_cases same : other = thread
    · subst same
      simp [ThreadMaster.setPrev, ThreadMaster.write, Thread.job]
    · simp [ThreadMaster.setPrev, ThreadMaster.write, same]

theorem relinked_writeList (change : ThreadList → ThreadList) :
    Relinked m (m.writeList list change) :=
  ⟨fun _ => rfl, fun _ => rfl, rfl, rfl, rfl, rfl⟩

@[simp]
theorem next_setNext :
    (m.setNext thread value).neighbours.next =
      Function.update m.neighbours.next thread value := by
  funext other
  by_cases same : other = thread
  · subst same
    simp [ThreadMaster.neighbours, ThreadMaster.setNext, ThreadMaster.write]
  · simp [ThreadMaster.neighbours, ThreadMaster.setNext, ThreadMaster.write, same]

@[simp]
theorem prev_setNext :
    (m.setNext thread value).neighbours.prev = m.neighbours.prev := by
  funext other
  by_cases same : other = thread
  · subst same
    simp [ThreadMaster.neighbours, ThreadMaster.setNext, ThreadMaster.write]
  · simp [ThreadMaster.neighbours, ThreadMaster.setNext, ThreadMaster.write, same]

@[simp]
theorem next_setPrev :
    (m.setPrev thread value).neighbours.next = m.neighbours.next := by
  funext other
  by_cases same : other = thread
  · subst same
    simp [ThreadMaster.neighbours, ThreadMaster.setPrev, ThreadMaster.write]
  · simp [ThreadMaster.neighbours, ThreadMaster.setPrev, ThreadMaster.write, same]

@[simp]
theorem prev_setPrev :
    (m.setPrev thread value).neighbours.prev =
      Function.update m.neighbours.prev thread value := by
  funext other
  by_cases same : other = thread
  · subst same
    simp [ThreadMaster.neighbours, ThreadMaster.setPrev, ThreadMaster.write]
  · simp [ThreadMaster.neighbours, ThreadMaster.setPrev, ThreadMaster.write, same]

@[simp]
theorem lists_setNext : (m.setNext thread value).lists = m.lists :=
  rfl

@[simp]
theorem lists_setPrev : (m.setPrev thread value).lists = m.lists :=
  rfl

@[simp]
theorem neighbours_writeList (change : ThreadList → ThreadList) :
    (m.writeList list change).neighbours = m.neighbours :=
  rfl

@[simp]
theorem lists_writeList (change : ThreadList → ThreadList) :
    (m.writeList list change).lists =
      Function.update m.lists list (change (m.lists list)) :=
  rfl

end

/-! ## The ring of a list -/

section

variable
  (m : ThreadMaster Func Arg)
  (list other : ThreadType)
  (thread : ThreadId)

/-- The ring that a list is with the null pointer. -/
abbrev ThreadMaster.ring : Links (Option ThreadId) :=
  NullTerminated.ring m.neighbours (m.lists list).ends

theorem ring_threadListAdd :
    (threadListAdd m list thread).ring list = (m.ring list).insertTail none (some thread) := by
  unfold threadListAdd
  cases tail : (m.lists list).tail with
  | none =>
      simp only [ThreadMaster.ring, NullTerminated.ring, Links.insertTail, ThreadList.ends,
        ThreadMaster.addCount, ThreadMaster.setTail, ThreadMaster.setHead]
      congr 1
      all_goals
        funext pointer
        cases pointer <;> simp [tail, Function.update_apply]
  | some last =>
      simp only [ThreadMaster.ring, NullTerminated.ring, Links.insertTail, ThreadList.ends,
        ThreadMaster.addCount, ThreadMaster.setTail, ThreadMaster.setHead]
      congr 1
      all_goals
        funext pointer
        cases pointer <;> simp [tail, Function.update_apply]

theorem ring_threadListAddBefore
    (point : ThreadId)
    (different : point ≠ thread) :
    (threadListAddBefore m list point thread).ring list =
      (m.ring list).insertTail (some point) (some thread) := by
  have kept :
      (((m.setNext thread (some point)).setPrev thread (m.threads point).prev).threads
        point).prev = (m.threads point).prev := by
    have changed := congrFun
      (prev_setPrev (m.setNext thread (some point)) thread (m.threads point).prev) point
    rw [Function.update_of_ne different, prev_setNext] at changed
    exact changed
  have read : ((m.setNext thread (some point)).threads point).prev = (m.threads point).prev :=
    congrFun (prev_setNext m thread (some point)) point
  have inRing : m.neighbours.prev point = (m.threads point).prev := rfl
  unfold threadListAddBefore
  simp only [read, kept]
  cases prev : (m.threads point).prev with
  | none =>
      simp only [ThreadMaster.ring, NullTerminated.ring, Links.insertTail, ThreadList.ends,
        ThreadMaster.addCount, ThreadMaster.setHead]
      congr 1
      all_goals
        funext pointer
        cases pointer <;> simp [prev, inRing, different, Function.update_apply]
  | some before =>
      simp only [ThreadMaster.ring, NullTerminated.ring, Links.insertTail, ThreadList.ends,
        ThreadMaster.addCount]
      congr 1
      all_goals
        funext pointer
        cases pointer <;> simp [prev, inRing, different, Function.update_apply]

theorem ring_passNext :
    (passNext m list thread).ring list =
      { m.ring list with
        prev := Function.update (m.ring list).prev
          (m.threads thread).next (m.threads thread).prev } := by
  unfold passNext
  cases behind : (m.threads thread).next with
  | none =>
      simp only [ThreadMaster.ring, NullTerminated.ring, ThreadList.ends, ThreadMaster.setTail]
      congr 1
      all_goals
        funext pointer
        cases pointer <;> simp
  | some later =>
      simp only [ThreadMaster.ring, NullTerminated.ring, ThreadList.ends]
      congr 1
      all_goals
        funext pointer
        cases pointer <;> simp [Function.update_apply]

theorem ring_passPrev :
    (passPrev m list thread).ring list =
      { m.ring list with
        next := Function.update (m.ring list).next
          (m.threads thread).prev (m.threads thread).next } := by
  unfold passPrev
  cases before : (m.threads thread).prev with
  | none =>
      simp only [ThreadMaster.ring, NullTerminated.ring, ThreadList.ends, ThreadMaster.setHead]
      congr 1
      all_goals
        funext pointer
        cases pointer <;> simp
  | some earlier =>
      simp only [ThreadMaster.ring, NullTerminated.ring, ThreadList.ends]
      congr 1
      all_goals
        funext pointer
        cases pointer <;> simp [Function.update_apply]

/-- The branches leave the links of the thread itself. -/
theorem threads_passNext
    (next : (m.threads thread).next ≠ some thread) :
    (passNext m list thread).threads thread = m.threads thread := by
  unfold passNext
  cases behind : (m.threads thread).next with
  | none =>
      rfl
  | some later =>
      have different : thread ≠ later := by
        rintro rfl
        exact next behind
      simp [ThreadMaster.setPrev, ThreadMaster.write, different]

/-- Off the list a thread has no neighbours; the others have those of the ring without it. -/
theorem ring_threadListDelete
    (next : (m.threads thread).next ≠ some thread)
    (pointer : Option ThreadId)
    (different : pointer ≠ some thread) :
    ((threadListDelete m list thread).ring list).next pointer =
        ((m.ring list).unlink (some thread)).next pointer ∧
      ((threadListDelete m list thread).ring list).prev pointer =
        ((m.ring list).unlink (some thread)).prev pointer := by
  have own := threads_passNext m list thread next
  have passed := ring_passPrev (passNext m list thread) list thread
  rw [own, ring_passNext] at passed
  have same :
      ((threadListDelete m list thread).ring list).next pointer =
          ((passPrev (passNext m list thread) list thread).ring list).next pointer ∧
        ((threadListDelete m list thread).ring list).prev pointer =
          ((passPrev (passNext m list thread) list thread).ring list).prev pointer := by
    cases pointer with
    | none =>
        simp [threadListDelete, ThreadMaster.ring, NullTerminated.ring, ThreadList.ends,
          ThreadMaster.addCount]
    | some other =>
        have notThread : other ≠ thread := fun equal => different (congrArg some equal)
        simp [threadListDelete, ThreadMaster.ring, NullTerminated.ring, ThreadMaster.addCount,
          notThread]
  have behind :
      ((m.ring list).unlink (some thread)).next (some thread) = (m.threads thread).next := by
    rw [Links.unlink_next]
    by_cases self : (m.ring list).prev (some thread) = some thread
    · rw [self, Function.update_self]
      rfl
    · exact Function.update_of_ne (Ne.symm self) _ _
  have back :
      ((m.ring list).unlink (some thread)).prev =
        Function.update (m.ring list).prev
          (((m.ring list).unlink (some thread)).next (some thread)) (m.threads thread).prev :=
    rfl
  rw [same.1, same.2, passed, back, behind]
  exact ⟨rfl, rfl⟩

/-! ## What stands on the other lists -/

theorem lists_threadListAdd
    (different : other ≠ list) :
    (threadListAdd m list thread).lists other = m.lists other := by
  unfold threadListAdd
  cases tail : (m.lists list).tail <;>
    simp [tail, different, ThreadMaster.addCount, ThreadMaster.setTail, ThreadMaster.setHead]

theorem lists_threadListAddBefore
    (point : ThreadId)
    (different : other ≠ list) :
    (threadListAddBefore m list point thread).lists other = m.lists other := by
  unfold threadListAddBefore
  dsimp only
  split <;> simp [different, ThreadMaster.addCount, ThreadMaster.setHead]

theorem lists_threadListDelete
    (different : other ≠ list) :
    (threadListDelete m list thread).lists other = m.lists other := by
  unfold threadListDelete passPrev passNext
  dsimp only
  split <;> split <;>
    simp [different, ThreadMaster.addCount, ThreadMaster.setTail, ThreadMaster.setHead]

theorem count_threadListAdd :
    ((threadListAdd m list thread).lists list).count = (m.lists list).count + 1 := by
  unfold threadListAdd
  cases tail : (m.lists list).tail <;>
    simp [tail, ThreadMaster.addCount, ThreadMaster.setTail, ThreadMaster.setHead]

theorem count_threadListAddBefore
    (point : ThreadId) :
    ((threadListAddBefore m list point thread).lists list).count =
      (m.lists list).count + 1 := by
  unfold threadListAddBefore
  dsimp only
  split <;> simp [ThreadMaster.addCount, ThreadMaster.setHead]

theorem count_threadListDelete :
    ((threadListDelete m list thread).lists list).count = (m.lists list).count - 1 := by
  unfold threadListDelete passPrev passNext
  dsimp only
  split <;> split <;>
    simp [ThreadMaster.addCount, ThreadMaster.setTail, ThreadMaster.setHead] <;> rfl

theorem relinked_threadListAdd :
    Relinked m (threadListAdd m list thread) := by
  have links :=
    (relinked_setNext m thread none).trans (relinked_setPrev _ thread (m.lists list).tail)
  unfold threadListAdd
  dsimp only
  split
  · exact links.trans ((relinked_setNext ..).trans
      ((relinked_writeList ..).trans (relinked_writeList ..)))
  · exact links.trans ((relinked_writeList ..).trans
      ((relinked_writeList ..).trans (relinked_writeList ..)))

theorem relinked_threadListAddBefore
    (point : ThreadId) :
    Relinked m (threadListAddBefore m list point thread) := by
  have links :=
    (relinked_setNext m thread (some point)).trans
      (relinked_setPrev _ thread ((m.setNext thread (some point)).threads point).prev)
  unfold threadListAddBefore
  dsimp only
  split
  · exact links.trans ((relinked_setNext ..).trans
      ((relinked_setPrev ..).trans (relinked_writeList ..)))
  · exact links.trans ((relinked_writeList ..).trans
      ((relinked_setPrev ..).trans (relinked_writeList ..)))

theorem relinked_passNext :
    Relinked m (passNext m list thread) := by
  unfold passNext
  split
  · exact relinked_setPrev ..
  · exact relinked_writeList ..

theorem relinked_passPrev :
    Relinked m (passPrev m list thread) := by
  unfold passPrev
  split
  · exact relinked_setNext ..
  · exact relinked_writeList ..

theorem relinked_threadListDelete :
    Relinked m (threadListDelete m list thread) := by
  have passed := (relinked_passNext m list thread).trans (relinked_passPrev _ list thread)
  have alone := passed.trans
    ((relinked_setPrev _ thread none).trans (relinked_setNext _ thread none))
  exact alone.trans
    (relinked_writeList _ list fun ends => { ends with count := ends.count + -1 })

/-- A thread taken off a list points nowhere. -/
theorem neighbours_threadListDelete :
    ((threadListDelete m list thread).threads thread).next = none ∧
      ((threadListDelete m list thread).threads thread).prev = none := by
  simp [threadListDelete, ThreadMaster.addCount, ThreadMaster.writeList, ThreadMaster.setNext,
    ThreadMaster.setPrev, ThreadMaster.write]

end

/-! ## What the functions do to the lists -/

namespace Chained

variable
  {m after : ThreadMaster Func Arg}
  {queue : ThreadType → List ThreadId}
  {list : ThreadType}
  {thread : ThreadId}
  {first second : List ThreadId}

/-- A master whose lists and links are those of another one. -/
theorem congr
    (chained : Chained m queue)
    (lists : after.lists = m.lists)
    (neighbours : after.neighbours = m.neighbours) :
    Chained after queue where
  holds list := by
    rw [lists, neighbours]
    exact chained.holds list
  count list := by
    rw [lists]
    exact chained.count list
  apart := chained.apart

/-- A thread on no list is put before the rest of a list. -/
theorem inserted
    (chained : Chained m queue)
    (shape : queue list = first ++ second)
    (fresh : ∀ list, thread ∉ queue list)
    (ring : after.ring list = (m.ring list).insertTail second.head? (some thread))
    (others : ∀ other, other ≠ list → after.lists other = m.lists other)
    (counted : (after.lists list).count = (m.lists list).count + 1) :
    Chained after (Function.update queue list (first ++ thread :: second)) := by
  have holds := chained.holds list
  have away := fresh list
  rw [shape] at holds away
  refine ⟨?_, ?_, ?_⟩
  · intro other
    by_cases same : other = list
    · subst same
      rw [Function.update_self]
      exact holds.insert away ring
    · rw [Function.update_of_ne same]
      apply (chained.holds other).congr
      · rw [others other same]
      · intro node member
        apply holds.insert_outside away ring
        · intro inList
          rw [← shape] at inList
          exact same (chained.apart member inList)
        · rintro rfl
          exact fresh other member
  · intro other
    by_cases same : other = list
    · subst same
      have counts := chained.count other
      rw [Function.update_self, counted, counts, shape, List.length_append, List.length_append,
        List.length_cons]
      omega
    · rw [Function.update_of_ne same, others other same]
      exact chained.count other
  · have back {other : ThreadType} {member : ThreadId}
        (inUpdated : member ∈ Function.update queue list (first ++ thread :: second) other) :
        (member = thread ∧ other = list) ∨ member ∈ queue other := by
      by_cases same : other = list
      · subst same
        rw [Function.update_self] at inUpdated
        rw [shape]
        simp only [List.mem_append, List.mem_cons] at inUpdated ⊢
        tauto
      · rw [Function.update_of_ne same] at inUpdated
        exact .inr inUpdated
    intro one other member inOne inOther
    rcases back inOne with ⟨rfl, rfl⟩ | oldOne
    · rcases back inOther with ⟨_, rfl⟩ | oldOther
      · rfl
      · exact absurd oldOther (fresh other)
    · rcases back inOther with ⟨rfl, rfl⟩ | oldOther
      · exact absurd oldOne (fresh one)
      · exact chained.apart oldOne oldOther

/-- `thread_list_add` puts a thread at the end of a list. -/
theorem threadListAdd
    (chained : Chained m queue)
    (fresh : ∀ list, thread ∉ queue list) :
    Chained (threadListAdd m list thread)
      (Function.update queue list (queue list ++ [thread])) := by
  apply chained.inserted (List.append_nil (queue list)).symm fresh
  · exact ring_threadListAdd m list thread
  · exact fun other different => lists_threadListAdd m list other thread different
  · exact count_threadListAdd m list thread

/-- `thread_list_add_before` puts it before another one. -/
theorem threadListAddBefore
    {point : ThreadId}
    (chained : Chained m queue)
    (shape : queue list = first ++ point :: second)
    (fresh : ∀ list, thread ∉ queue list) :
    Chained (threadListAddBefore m list point thread)
      (Function.update queue list (first ++ thread :: point :: second)) := by
  have different : point ≠ thread := by
    rintro rfl
    apply fresh list
    rw [shape]
    exact List.mem_append_cons_self
  apply chained.inserted shape fresh
  · exact ring_threadListAddBefore m list thread point different
  · exact fun other different => lists_threadListAddBefore m list other thread point different
  · exact count_threadListAddBefore m list thread point

/-- `thread_list_delete` takes a thread off its list. -/
theorem threadListDelete
    (chained : Chained m queue)
    (shape : queue list = first ++ thread :: second) :
    Chained (threadListDelete m list thread) (Function.update queue list (first ++ second)) := by
  have holds := chained.holds list
  rw [shape] at holds
  have next : (m.threads thread).next ≠ some thread := by
    have behind : (m.threads thread).next = second.head? := holds.next_eq
    have apart := List.perm_middle.nodup_iff.mp holds.nodup
    rw [behind]
    intro same
    apply (List.nodup_cons.mp apart).1
    exact List.mem_append_right _ (List.mem_of_head? same)
  have ring := ring_threadListDelete m list thread next
  have member : thread ∈ queue list := by
    rw [shape]
    exact List.mem_append_cons_self
  refine ⟨?_, ?_, ?_⟩
  · intro other
    by_cases same : other = list
    · subst same
      rw [Function.update_self]
      exact holds.delete ring
    · rw [Function.update_of_ne same]
      apply (chained.holds other).congr
      · rw [lists_threadListDelete m list other thread same]
      · intro node inOther
        apply (chained.holds list).delete_outside member ring
        intro inList
        exact same (chained.apart inOther inList)
  · intro other
    by_cases same : other = list
    · subst same
      have counts := chained.count other
      rw [Function.update_self, count_threadListDelete, counts, shape, List.length_append,
        List.length_append, List.length_cons]
      omega
    · rw [Function.update_of_ne same, lists_threadListDelete m list other thread same]
      exact chained.count other
  · have back {other : ThreadType} {member : ThreadId}
        (inUpdated : member ∈ Function.update queue list (first ++ second) other) :
        member ∈ queue other := by
      by_cases same : other = list
      · subst same
        rw [Function.update_self] at inUpdated
        rw [shape]
        simp only [List.mem_append, List.mem_cons] at inUpdated ⊢
        tauto
      · rwa [Function.update_of_ne same] at inUpdated
    intro one other member inOne inOther
    exact chained.apart (back inOne) (back inOther)

end Chained

end Pma.Threads
