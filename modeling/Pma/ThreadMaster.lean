import Mathlib.Data.List.Nodup
import Mathlib.Data.List.Perm.Basic

namespace Pma

open List

/-!
# Cooperative threads

`lib/thread.c` keeps its thread objects on lists, one list for each kind of
thread, and recycles an object through the `unuse` list as soon as it was
fetched or cancelled.  A handle is the address of such an object, so a stale
handle can name the object of somebody else's thread.  The model keeps the
addresses and their reuse; it leaves out the expiry times, so that any pending
timer may be the next one to fire.
-/

/-- The address of a thread object. -/
abbrev ThreadId := Nat

/-- The functions the link state daemon schedules. -/
inductive ThreadFunc where
  | helloHighSend
  | helloLowSend
  | deadTimerHigh
  | deadTimerLow
  | ackTimeExcceed
  | floodAckTimeout
  | floodSendLsa
  | spreadLocalLinkState
  | interfaceUp
  | interfaceDown
  deriving Repr, DecidableEq

/-- The object a thread function is called on. -/
inductive ThreadArg where
  | none
  | backbone (eth : Nat)
  | access (eth : Nat)
  deriving Repr, DecidableEq

/-- `struct thread`. -/
structure Thread where
  id : ThreadId
  func : ThreadFunc
  arg : ThreadArg
  deriving Repr, DecidableEq

/--
`struct thread_master`: the pending timers and events and the recycled
objects.  No object is on two lists at once.
-/
structure ThreadMaster where
  timer : List Thread
  event : List Thread
  unuse : List ThreadId
  alloc : Nat
  distinct : ((timer ++ event).map Thread.id ++ unuse).Nodup
  allocated : ∀ id ∈ (timer ++ event).map Thread.id ++ unuse, id < alloc

namespace ThreadMaster

/-- `thread_master_create`. -/
def create : ThreadMaster where
  timer := []
  event := []
  unuse := []
  alloc := 0
  distinct := List.nodup_nil
  allocated := by simp

/-- Every thread that may still fire. -/
def pending (master : ThreadMaster) : List Thread :=
  master.timer ++ master.event

/-- The addresses of the pending threads that call `func` on `arg`. -/
def pendingOf
    (master : ThreadMaster)
    (func : ThreadFunc)
    (arg : ThreadArg) : List ThreadId :=
  (master.pending.filter fun thread =>
    thread.func = func ∧ thread.arg = arg).map Thread.id

/-- The object `thread_get` hands out: a recycled one if there is one. -/
def threadGet (master : ThreadMaster) : ThreadId :=
  master.unuse.headD master.alloc

/-- The recycled objects that remain after `thread_get`. -/
def unuseAfterGet (master : ThreadMaster) : List ThreadId :=
  master.unuse.tail

/-- The number of objects allocated after `thread_get`. -/
def allocAfterGet (master : ThreadMaster) : Nat :=
  if master.unuse = [] then master.alloc + 1 else master.alloc

/-- The object `thread_get` hands out is on no list afterwards. -/
private theorem threadGet_fresh
    (master : ThreadMaster) :
    ((master.threadGet ::
        (master.timer ++ master.event).map Thread.id) ++
      master.unuseAfterGet).Nodup := by
  have distinct := master.distinct
  unfold threadGet unuseAfterGet
  cases recycled : master.unuse with
  | nil =>
      rw [recycled] at distinct
      have fresh :
          master.alloc ∉ (master.timer ++ master.event).map Thread.id := by
        intro member
        exact absurd
          (master.allocated _ (List.mem_append_left _ member))
          (Nat.lt_irrefl _)
      simpa using ⟨by simpa using fresh, by simpa using distinct⟩
  | cons object rest =>
      rw [recycled] at distinct
      exact List.perm_middle.nodup_iff.mp distinct

/-- Every object is still below the allocation mark after `thread_get`. -/
private theorem threadGet_allocated
    (master : ThreadMaster) :
    ∀ id ∈ (master.threadGet ::
        (master.timer ++ master.event).map Thread.id) ++
      master.unuseAfterGet,
      id < master.allocAfterGet := by
  have allocated := master.allocated
  unfold threadGet unuseAfterGet allocAfterGet
  cases recycled : master.unuse with
  | nil =>
      rw [recycled] at allocated
      intro id member
      simp only [List.headD_nil, List.tail_nil, List.append_nil,
        List.mem_cons] at member
      rcases member with isNew | isOld
      · simp [isNew]
      · exact Nat.lt_succ_of_lt
          (allocated id (by simpa using isOld))
  | cons object rest =>
      rw [recycled] at allocated
      intro id member
      exact allocated id (List.perm_middle.mem_iff.mpr member)

/-- `thread_add_timer_high_resolution`. -/
def threadAddTimer
    (master : ThreadMaster)
    (func : ThreadFunc)
    (arg : ThreadArg) : ThreadMaster where
  timer := ⟨master.threadGet, func, arg⟩ :: master.timer
  event := master.event
  unuse := master.unuseAfterGet
  alloc := master.allocAfterGet
  distinct := by
    simpa using master.threadGet_fresh
  allocated := by
    simpa using master.threadGet_allocated

/-- `thread_add_event`. -/
def threadAddEvent
    (master : ThreadMaster)
    (func : ThreadFunc)
    (arg : ThreadArg) : ThreadMaster where
  timer := master.timer
  event := master.event ++ [⟨master.threadGet, func, arg⟩]
  unuse := master.unuseAfterGet
  alloc := master.allocAfterGet
  distinct := by
    have moved :
        ((master.threadGet ::
            (master.timer ++ master.event).map Thread.id) ++
          master.unuseAfterGet).Perm
        ((master.timer ++ (master.event ++
            [Thread.mk master.threadGet func arg])).map Thread.id ++
          master.unuseAfterGet) := by
      apply List.Perm.append_right
      rw [← List.append_assoc,
        @List.map_append _ _ _ (master.timer ++ master.event)]
      exact (List.perm_append_singleton _ _).symm
    exact moved.nodup_iff.mp master.threadGet_fresh
  allocated := by
    intro id member
    apply master.threadGet_allocated
    simp only [List.map_append, List.map_cons, List.map_nil,
      List.mem_append, List.mem_cons, List.not_mem_nil,
      or_false] at member ⊢
    tauto

/--
`thread_cancel`, and equally the removal of a fetched thread by `thread_run`:
the object leaves its list and is recycled.  Cancelling an object on no list
does nothing.
-/
def threadCancel (master : ThreadMaster) (id : ThreadId) : ThreadMaster where
  timer := master.timer.filter fun thread => thread.id ≠ id
  event := master.event.filter fun thread => thread.id ≠ id
  unuse :=
    if id ∈ master.pending.map Thread.id then
      master.unuse ++ [id]
    else
      master.unuse
  alloc := master.alloc
  distinct := by
    have distinct := List.nodup_append.mp master.distinct
    have kept :
        ((master.timer.filter fun thread => thread.id ≠ id) ++
            master.event.filter fun thread => thread.id ≠ id).map
              Thread.id =
          ((master.timer ++ master.event).map Thread.id).filter
            fun other => other ≠ id := by
      rw [← List.filter_append, List.filter_map]
      rfl
    rw [kept]
    split
    · next isPending =>
        rw [List.nodup_append]
        refine ⟨distinct.1.filter _, ?_, ?_⟩
        · apply List.Nodup.append distinct.2.1 (List.nodup_singleton id)
          intro other recycled isId
          simp only [List.mem_singleton] at isId
          subst isId
          exact distinct.2.2 other isPending other recycled rfl
        · intro other member second recycled same
          subst same
          simp only [List.mem_filter, decide_eq_true_eq] at member
          rcases List.mem_append.mp recycled with isOld | isId
          · exact distinct.2.2 other member.1 other isOld rfl
          · exact member.2 (List.mem_singleton.mp isId)
    · rw [List.nodup_append]
      refine ⟨distinct.1.filter _, distinct.2.1, ?_⟩
      intro other member second recycled
      exact distinct.2.2 other (List.mem_filter.mp member).1
        second recycled
  allocated := by
    intro other member
    have keptSublist :
        ((master.timer.filter fun thread => thread.id ≠ id) ++
            master.event.filter fun thread => thread.id ≠ id).map
              Thread.id <+
          (master.timer ++ master.event).map Thread.id :=
      (List.filter_sublist.append List.filter_sublist).map _
    apply master.allocated
    rcases List.mem_append.mp member with isPending | recycled
    · exact List.mem_append_left _ (keptSublist.subset isPending)
    · split at recycled
      · next wasPending =>
          rcases List.mem_append.mp recycled with isOld | isId
          · exact List.mem_append_right _ isOld
          · rw [List.mem_singleton.mp isId]
            exact List.mem_append_left _ wasPending
      · exact List.mem_append_right _ recycled

/-- `THREAD_OFF`: cancel through a handle unless it is null. -/
def threadOff (master : ThreadMaster) : Option ThreadId → ThreadMaster
  | some id => master.threadCancel id
  | none => master

/-- The thread object at an address, if it is pending. -/
def find (master : ThreadMaster) (id : ThreadId) : Option Thread :=
  master.pending.find? fun thread => thread.id = id

theorem mem_pendingOf
    {master : ThreadMaster}
    {func : ThreadFunc}
    {arg : ThreadArg}
    {id : ThreadId} :
    id ∈ master.pendingOf func arg ↔
      ⟨id, func, arg⟩ ∈ master.pending := by
  constructor
  · intro member
    obtain ⟨thread, kept, rfl⟩ := List.mem_map.mp member
    obtain ⟨isPending, sameCall⟩ := List.mem_filter.mp kept
    simp only [decide_eq_true_eq] at sameCall
    obtain ⟨rfl, rfl⟩ := sameCall
    exact isPending
  · intro isPending
    exact List.mem_map.mpr
      ⟨⟨id, func, arg⟩, List.mem_filter.mpr ⟨isPending, by simp⟩, rfl⟩

/-- Addresses identify pending threads. -/
theorem pending_unique
    {master : ThreadMaster}
    {first second : Thread}
    (firstPending : first ∈ master.pending)
    (secondPending : second ∈ master.pending)
    (sameId : first.id = second.id) :
    first = second :=
  List.inj_on_of_nodup_map
    (List.nodup_append.mp master.distinct).1
    firstPending secondPending sameId

/-- A pending thread is found by its address. -/
theorem find_eq_some
    {master : ThreadMaster}
    {id : ThreadId}
    {thread : Thread} :
    master.find id = some thread ↔
      thread ∈ master.pending ∧ thread.id = id := by
  constructor
  · intro found
    exact ⟨List.mem_of_find?_eq_some found, by
      simpa using List.find?_some found⟩
  · rintro ⟨isPending, rfl⟩
    cases found : master.find thread.id with
    | none =>
        have absent := List.find?_eq_none.mp found thread isPending
        simp at absent
    | some other =>
        rw [pending_unique (List.mem_of_find?_eq_some found)
          isPending (by simpa using List.find?_some found)]

/-- A new timer is the only thing `thread_add_timer_high_resolution` adds. -/
theorem pendingOf_threadAddTimer
    (master : ThreadMaster)
    (func : ThreadFunc)
    (arg : ThreadArg)
    (query : ThreadFunc)
    (queryArg : ThreadArg) :
    (master.threadAddTimer func arg).pendingOf query queryArg =
      if func = query ∧ arg = queryArg then
        master.threadGet :: master.pendingOf query queryArg
      else
        master.pendingOf query queryArg := by
  unfold pendingOf pending threadAddTimer
  by_cases same : func = query ∧ arg = queryArg
  · simp [same]
  · simp [same]

/-- A new event is the only thing `thread_add_event` adds. -/
theorem pendingOf_threadAddEvent
    (master : ThreadMaster)
    (func : ThreadFunc)
    (arg : ThreadArg)
    (query : ThreadFunc)
    (queryArg : ThreadArg) :
    (master.threadAddEvent func arg).pendingOf query queryArg =
      if func = query ∧ arg = queryArg then
        master.pendingOf query queryArg ++ [master.threadGet]
      else
        master.pendingOf query queryArg := by
  unfold pendingOf pending threadAddEvent
  by_cases same : func = query ∧ arg = queryArg
  · simp [same]
  · simp [same]

/-- Cancelling removes the object from the pending threads of every call. -/
theorem pendingOf_threadCancel
    (master : ThreadMaster)
    (id : ThreadId)
    (func : ThreadFunc)
    (arg : ThreadArg) :
    (master.threadCancel id).pendingOf func arg =
      (master.pendingOf func arg).filter fun other => other ≠ id := by
  unfold pendingOf pending threadCancel
  simp only [← List.filter_append, List.filter_map, List.filter_filter]
  congr 1
  apply List.filter_congr
  intro thread _
  exact Bool.and_comm _ _

/-- Cancelling a pending thread leaves the threads of other calls alone. -/
theorem pendingOf_threadCancel_of_ne
    {master : ThreadMaster}
    {id : ThreadId}
    {func query : ThreadFunc}
    {arg queryArg : ThreadArg}
    (isPending : id ∈ master.pendingOf func arg)
    (different : ¬ (func = query ∧ arg = queryArg)) :
    (master.threadCancel id).pendingOf query queryArg =
      master.pendingOf query queryArg := by
  rw [pendingOf_threadCancel]
  apply List.filter_eq_self.mpr
  intro other member
  simp only [ne_eq, decide_not, Bool.not_eq_eq_eq_not, Bool.not_true,
    decide_eq_false_iff_not]
  intro same
  subst same
  have sameThread :=
    pending_unique (mem_pendingOf.mp isPending)
      (mem_pendingOf.mp member) rfl
  simp only [Thread.mk.injEq, true_and] at sameThread
  exact different sameThread

/--
A handle field tracks the calls of `func` on `arg`: it is null exactly when
none is pending, and otherwise it names the only pending one.
-/
def Tracks
    (master : ThreadMaster)
    (func : ThreadFunc)
    (arg : ThreadArg)
    (handle : Option ThreadId) : Prop :=
  master.pendingOf func arg = handle.toList

namespace Tracks

variable {master : ThreadMaster} {func : ThreadFunc} {arg : ThreadArg}
  {handle : Option ThreadId}

/-- A tracking handle is null exactly when nothing is pending. -/
theorem isSome_iff
    (tracks : master.Tracks func arg handle) :
    handle.isSome ↔ master.pendingOf func arg ≠ [] := by
  rw [tracks]
  cases handle <;> simp

/-- A tracking handle that is not null is pending. -/
theorem mem
    {id : ThreadId}
    (tracks : master.Tracks func arg (some id)) :
    id ∈ master.pendingOf func arg := by
  rw [tracks]
  simp

/-- The pending thread of a tracked call is the one the handle names. -/
theorem eq_some
    {id : ThreadId}
    (tracks : master.Tracks func arg handle)
    (isPending : id ∈ master.pendingOf func arg) :
    handle = some id := by
  rw [tracks] at isPending
  cases handle with
  | none =>
      simp at isPending
  | some other =>
      simp only [Option.toList_some, List.mem_singleton] at isPending
      rw [isPending]

/-- `THREAD_OFF` on a tracking handle leaves nothing pending. -/
theorem off
    (tracks : master.Tracks func arg handle) :
    (master.threadOff handle).Tracks func arg none := by
  cases handle with
  | none =>
      exact tracks
  | some id =>
      unfold Tracks threadOff at *
      rw [pendingOf_threadCancel, tracks]
      simp

/-- `THREAD_OFF` on a tracking handle leaves every other call's handle tracking. -/
theorem off_other
    {query : ThreadFunc}
    {queryArg : ThreadArg}
    (tracks : master.Tracks func arg handle)
    (different : ¬ (func = query ∧ arg = queryArg)) :
    (master.threadOff handle).pendingOf query queryArg =
      master.pendingOf query queryArg := by
  cases handle with
  | none =>
      rfl
  | some id =>
      exact pendingOf_threadCancel_of_ne tracks.mem different

/-- Arming a timer whose handle was null makes the new handle track it. -/
theorem add
    (tracks : master.Tracks func arg none) :
    (master.threadAddTimer func arg).Tracks func arg
      (some master.threadGet) := by
  unfold Tracks at *
  rw [pendingOf_threadAddTimer, if_pos ⟨rfl, rfl⟩, tracks]
  rfl

end Tracks

/-- Arming a timer does not touch the pending threads of another call. -/
theorem pendingOf_threadAddTimer_of_ne
    {func query : ThreadFunc}
    {arg queryArg : ThreadArg}
    (master : ThreadMaster)
    (different : ¬ (func = query ∧ arg = queryArg)) :
    (master.threadAddTimer func arg).pendingOf query queryArg =
      master.pendingOf query queryArg := by
  rw [pendingOf_threadAddTimer, if_neg different]

/-- The calls outside a set of owned ones have the same pending threads. -/
def AgreesOff
    (own : ThreadFunc → ThreadArg → Prop)
    (before after : ThreadMaster) : Prop :=
  ∀ func arg,
    ¬ own func arg →
    after.pendingOf func arg = before.pendingOf func arg

namespace AgreesOff

variable {own : ThreadFunc → ThreadArg → Prop}

theorem refl
    (master : ThreadMaster) :
    AgreesOff own master master :=
  fun _ _ _ => rfl

theorem trans
    {first second third : ThreadMaster}
    (earlier : AgreesOff own first second)
    (later : AgreesOff own second third) :
    AgreesOff own first third :=
  fun func arg foreign =>
    (later func arg foreign).trans (earlier func arg foreign)

/-- Owning more calls promises less. -/
theorem mono
    {wider : ThreadFunc → ThreadArg → Prop}
    {before after : ThreadMaster}
    (agrees : AgreesOff own before after)
    (widens : ∀ func arg, own func arg → wider func arg) :
    AgreesOff wider before after :=
  fun func arg foreign => agrees func arg (foreign ∘ widens func arg)

/-- A new timer of an owned call. -/
theorem add
    {before after : ThreadMaster}
    (agrees : AgreesOff own before after)
    {func : ThreadFunc}
    {arg : ThreadArg}
    (owned : own func arg) :
    AgreesOff own before (after.threadAddTimer func arg) := by
  intro query queryArg foreign
  rw [pendingOf_threadAddTimer_of_ne, agrees query queryArg foreign]
  rintro ⟨rfl, rfl⟩
  exact foreign owned

/-- A new event of an owned call. -/
theorem addEvent
    {before after : ThreadMaster}
    (agrees : AgreesOff own before after)
    {func : ThreadFunc}
    {arg : ThreadArg}
    (owned : own func arg) :
    AgreesOff own before (after.threadAddEvent func arg) := by
  intro query queryArg foreign
  rw [pendingOf_threadAddEvent, if_neg, agrees query queryArg foreign]
  rintro ⟨rfl, rfl⟩
  exact foreign owned

/-- The removal of a pending thread of an owned call. -/
theorem cancel
    {before after : ThreadMaster}
    (agrees : AgreesOff own before after)
    {func : ThreadFunc}
    {arg : ThreadArg}
    {id : ThreadId}
    (isPending : id ∈ after.pendingOf func arg)
    (owned : own func arg) :
    AgreesOff own before (after.threadCancel id) := by
  intro query queryArg foreign
  rw [pendingOf_threadCancel_of_ne isPending, agrees query queryArg foreign]
  rintro ⟨rfl, rfl⟩
  exact foreign owned

/-- `THREAD_OFF` on a handle that tracks an owned call. -/
theorem off
    {before after : ThreadMaster}
    (agrees : AgreesOff own before after)
    {func : ThreadFunc}
    {arg : ThreadArg}
    {handle : Option ThreadId}
    (tracks : after.Tracks func arg handle)
    (owned : own func arg) :
    AgreesOff own before (after.threadOff handle) := by
  cases handle with
  | none =>
      exact agrees
  | some id =>
      exact agrees.cancel tracks.mem owned

end AgreesOff

/-- A handle tracks its call through changes of other calls. -/
theorem Tracks.agrees
    {own : ThreadFunc → ThreadArg → Prop}
    {before after : ThreadMaster}
    {func : ThreadFunc}
    {arg : ThreadArg}
    {handle : Option ThreadId}
    (tracks : before.Tracks func arg handle)
    (agrees : AgreesOff own before after)
    (foreign : ¬ own func arg) :
    after.Tracks func arg handle :=
  (agrees func arg foreign).trans tracks

/-- The handle of a call is null once its thread was fetched. -/
theorem Tracks.fetched
    {master : ThreadMaster}
    {func : ThreadFunc}
    {arg : ThreadArg}
    {handle : Option ThreadId}
    {id : ThreadId}
    (tracks : master.Tracks func arg handle)
    (isPending : id ∈ master.pendingOf func arg) :
    (master.threadCancel id).Tracks func arg none := by
  have named := tracks.eq_some isPending
  subst named
  exact tracks.off

/-- The one call of a function on an argument. -/
def only (func : ThreadFunc) (arg : ThreadArg) : ThreadFunc → ThreadArg → Prop :=
  fun query queryArg => func = query ∧ arg = queryArg

end ThreadMaster

end Pma
