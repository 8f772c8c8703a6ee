import Mathlib.Data.Finset.Basic
import Pma.NullTerminated
import Pma.ThreadMaster

namespace Pma

open NullTerminated

/-!
# The scheduler of cooperative threads

`lib/thread.c` with its lists, its descriptor sets and its clock.  Every
`struct thread` is on one of six doubly linked lists of the master, and `type`
says on which.  `Pma.ThreadMaster` is what the link state daemon relies on.
-/

namespace Threads

/-! ## Data -/

/-- The thread types; each has its list in `struct thread_master`. -/
inductive ThreadType where
  | read
  | write
  | timer
  | event
  | ready
  | unused
  deriving Repr, DecidableEq

/-- `struct timeval`; both fields are `long`. -/
structure Timeval where
  tvSec : Int
  tvUsec : Int
  deriving Repr, DecidableEq

/-- The member of the union `u` that was written last. -/
inductive Second where
  | val (value : Int)
  | fd (descriptor : Nat)
  | sands (time : Timeval)
  deriving Repr, DecidableEq

/-- `struct thread`. -/
structure Thread (Func Arg : Type) where
  type : ThreadType
  next : Option ThreadId
  prev : Option ThreadId
  func : Option Func
  arg : Option Arg
  u : Second
  deriving Repr, DecidableEq

/-- `struct thread_list`. -/
structure ThreadList where
  head : Option ThreadId
  tail : Option ThreadId
  count : Int
  deriving Repr, DecidableEq

/-- `struct thread_master`, and the `struct thread` of each handle. -/
structure ThreadMaster (Func Arg : Type) where
  threads : ThreadId → Thread Func Arg
  lists : ThreadType → ThreadList
  readfd : Finset Nat
  writefd : Finset Nat
  exceptfd : Finset Nat
  alloc : Nat

/-- What ends the program; a loop that was not given enough is `unfinished`. -/
inductive Fault where
  | assertFailed
  | otherMember
  | outsideSet
  | unfinished
  deriving Repr, DecidableEq

variable {Func Arg : Type}

/-- `XCALLOC` of a `struct thread`. -/
def zeroThread : Thread Func Arg where
  type := .read
  next := none
  prev := none
  func := none
  arg := none
  u := .val 0

/-- `thread_master_create`. -/
def threadMasterCreate : ThreadMaster Func Arg where
  threads := fun _ => zeroThread
  lists := fun _ => { head := none, tail := none, count := 0 }
  readfd := ∅
  writefd := ∅
  exceptfd := ∅
  alloc := 0

namespace ThreadMaster

variable (m : ThreadMaster Func Arg) (list : ThreadType) (thread : ThreadId)

/-- The object of a handle is changed. -/
def write (change : Thread Func Arg → Thread Func Arg) : ThreadMaster Func Arg :=
  { m with threads := Function.update m.threads thread (change (m.threads thread)) }

/-- `thread->next = value`. -/
def setNext (value : Option ThreadId) : ThreadMaster Func Arg :=
  m.write thread fun object => { object with next := value }

/-- `thread->prev = value`. -/
def setPrev (value : Option ThreadId) : ThreadMaster Func Arg :=
  m.write thread fun object => { object with prev := value }

/-- `thread->type = value`. -/
def setType (value : ThreadType) : ThreadMaster Func Arg :=
  m.write thread fun object => { object with type := value }

/-- The assignment to a member of `thread->u`. -/
def setU (value : Second) : ThreadMaster Func Arg :=
  m.write thread fun object => { object with u := value }

/-- A list of the master is changed. -/
def writeList (change : ThreadList → ThreadList) : ThreadMaster Func Arg :=
  { m with lists := Function.update m.lists list (change (m.lists list)) }

/-- `list->head = value`. -/
def setHead (value : Option ThreadId) : ThreadMaster Func Arg :=
  m.writeList list fun ends => { ends with head := value }

/-- `list->tail = value`. -/
def setTail (value : Option ThreadId) : ThreadMaster Func Arg :=
  m.writeList list fun ends => { ends with tail := value }

/-- `list->count += difference`. -/
def addCount (difference : Int) : ThreadMaster Func Arg :=
  m.writeList list fun ends => { ends with count := ends.count + difference }

end ThreadMaster

/-- `THREAD_FD`. -/
def threadFd (object : Thread Func Arg) : Except Fault Nat :=
  match object.u with
  | .fd descriptor => .ok descriptor
  | _ => .error .otherMember

/-- `thread->u.sands`. -/
def threadSands (object : Thread Func Arg) : Except Fault Timeval :=
  match object.u with
  | .sands time => .ok time
  | _ => .error .otherMember

/-- `assert`. -/
def assertThat (condition : Bool) : Except Fault Unit :=
  if condition then .ok () else .error .assertFailed

/-- `FD_SETSIZE`. -/
def fdSetsize : Nat := 1024

/-- `FD_ISSET`. -/
def fdIsset (fd : Nat) (set : Finset Nat) : Except Fault Bool :=
  if fd < fdSetsize then .ok (decide (fd ∈ set)) else .error .outsideSet

/-! ## Times -/

/-- `TIMER_SECOND_MICRO`. -/
def timerSecondMicro : Int := 1000000

/-- The first loop of `timeval_adjust`. -/
def carryUp (a : Timeval) : Timeval :=
  if a.tvUsec ≥ timerSecondMicro then
    carryUp { tvSec := a.tvSec + 1, tvUsec := a.tvUsec - timerSecondMicro }
  else
    a
  termination_by a.tvUsec.toNat
  decreasing_by
    simp only [timerSecondMicro] at *
    omega

/-- The second loop of `timeval_adjust`. -/
def carryDown (a : Timeval) : Timeval :=
  if a.tvUsec < 0 then
    carryDown { tvSec := a.tvSec - 1, tvUsec := a.tvUsec + timerSecondMicro }
  else
    a
  termination_by (-a.tvUsec).toNat
  decreasing_by
    simp only [timerSecondMicro] at *
    omega

/-- `timeval_adjust`. -/
def timevalAdjust (a : Timeval) : Timeval :=
  let a := carryDown (carryUp a)
  let a := if a.tvSec < 0 then { tvSec := 0, tvUsec := 10 } else a
  if a.tvSec > timerSecondMicro then { a with tvSec := timerSecondMicro } else a

/-- `timeval_subtract`. -/
def timevalSubtract (a b : Timeval) : Timeval :=
  timevalAdjust { tvSec := a.tvSec - b.tvSec, tvUsec := a.tvUsec - b.tvUsec }

/-- `timeval_cmp`, which cuts a difference of two `long` to an `int`. -/
def timevalCmp (a b : Timeval) : Int32 :=
  Int32.ofInt (if a.tvSec = b.tvSec then a.tvUsec - b.tvUsec else a.tvSec - b.tvSec)

/-! ## Lists -/

/-- `thread_list_add`. -/
def threadListAdd (m : ThreadMaster Func Arg) (list : ThreadType) (thread : ThreadId) :
    ThreadMaster Func Arg :=
  let m := m.setNext thread none
  let m := m.setPrev thread (m.lists list).tail
  let m :=
    match (m.lists list).tail with
    | some tail => m.setNext tail (some thread)
    | none => m.setHead list (some thread)
  let m := m.setTail list (some thread)
  m.addCount list 1

/-- `thread_list_add_before`. -/
def threadListAddBefore (m : ThreadMaster Func Arg) (list : ThreadType)
    (point thread : ThreadId) : ThreadMaster Func Arg :=
  let m := m.setNext thread (some point)
  let m := m.setPrev thread (m.threads point).prev
  let m :=
    match (m.threads point).prev with
    | some prev => m.setNext prev (some thread)
    | none => m.setHead list (some thread)
  let m := m.setPrev point (some thread)
  m.addCount list 1

/-- The first branch of `thread_list_delete`. -/
def passNext (m : ThreadMaster Func Arg) (list : ThreadType) (thread : ThreadId) :
    ThreadMaster Func Arg :=
  match (m.threads thread).next with
  | some next => m.setPrev next (m.threads thread).prev
  | none => m.setTail list (m.threads thread).prev

/-- The second branch of `thread_list_delete`. -/
def passPrev (m : ThreadMaster Func Arg) (list : ThreadType) (thread : ThreadId) :
    ThreadMaster Func Arg :=
  match (m.threads thread).prev with
  | some prev => m.setNext prev (m.threads thread).next
  | none => m.setHead list (m.threads thread).next

/-- `thread_list_delete`. -/
def threadListDelete (m : ThreadMaster Func Arg) (list : ThreadType) (thread : ThreadId) :
    ThreadMaster Func Arg :=
  let m := passNext m list thread
  let m := passPrev m list thread
  let m := m.setPrev thread none
  let m := m.setNext thread none
  m.addCount list (-1)

/-- `thread_add_unuse`. -/
def threadAddUnuse (m : ThreadMaster Func Arg) (thread : ThreadId) :
    Except Fault (ThreadMaster Func Arg) := do
  assertThat (m.threads thread).next.isNone
  assertThat (m.threads thread).prev.isNone
  assertThat (decide ((m.threads thread).type = .unused))
  return threadListAdd m .unused thread

/-- `thread_trim_head`. -/
def threadTrimHead (m : ThreadMaster Func Arg) (list : ThreadType) :
    Option (ThreadId × ThreadMaster Func Arg) :=
  match (m.lists list).head with
  | some head => some (head, threadListDelete m list head)
  | none => none

/-- The object `thread_get` uses: an unused one, or a new one. -/
def takeThread (m : ThreadMaster Func Arg) : ThreadId × ThreadMaster Func Arg :=
  match threadTrimHead m .unused with
  | some taken => taken
  | none => (m.alloc, { m.write m.alloc fun _ => zeroThread with alloc := m.alloc + 1 })

/-- `thread_get`. -/
def threadGet (m : ThreadMaster Func Arg) (type : ThreadType) (func : Func)
    (arg : Option Arg) : ThreadId × ThreadMaster Func Arg :=
  let (thread, m) := takeThread m
  (thread, m.write thread fun object =>
    { object with type := type, func := some func, arg := arg })

/-! ## Adding threads -/

/-- `thread_add_read`. -/
def threadAddRead (m : ThreadMaster Func Arg) (func : Func) (arg : Option Arg) (fd : Nat) :
    Except Fault (Option ThreadId × ThreadMaster Func Arg) := do
  if ← fdIsset fd m.readfd then
    return (none, m)
  let (thread, m) := threadGet m .read func arg
  let m := { m with readfd := insert fd m.readfd }
  let m := m.setU thread (.fd fd)
  return (some thread, threadListAdd m .read thread)

/-- `thread_add_write`. -/
def threadAddWrite (m : ThreadMaster Func Arg) (func : Func) (arg : Option Arg) (fd : Nat) :
    Except Fault (Option ThreadId × ThreadMaster Func Arg) := do
  if ← fdIsset fd m.writefd then
    return (none, m)
  let (thread, m) := threadGet m .write func arg
  let m := { m with writefd := insert fd m.writefd }
  let m := m.setU thread (.fd fd)
  return (some thread, threadListAdd m .write thread)

/-- The time `thread_add_timer_high_resolution` writes to `u.sands`. -/
def deadline (timerNow : Timeval) (microsecends : UInt64) : Timeval :=
  let usec := timerNow.tvUsec + microsecends.toNat % timerSecondMicro
  { tvSec := timerNow.tvSec + (microsecends.toNat / timerSecondMicro + usec / timerSecondMicro)
    tvUsec := usec % timerSecondMicro }

/-- The loop of `thread_add_timer_high_resolution`: the timer the new one is put before. -/
def timerPlace (m : ThreadMaster Func Arg) (sands : Timeval) :
    Except Fault (Option ThreadId) :=
  search (fun thread => (m.threads thread).next)
    (fun thread => do
      let time ← threadSands (m.threads thread)
      return decide (timevalCmp sands time ≤ 0))
    .unfinished (m.alloc + 1) (m.lists .timer).head

/-- `thread_add_timer_high_resolution`; `timerNow` is what `gettimeofday` answers. -/
def threadAddTimerHighResolution (m : ThreadMaster Func Arg) (func : Func)
    (arg : Option Arg) (microsecends : UInt64) (timerNow : Timeval) :
    Except Fault (ThreadId × ThreadMaster Func Arg) := do
  let (thread, m) := threadGet m .timer func arg
  let sands := deadline timerNow microsecends
  let m := m.setU thread (.sands sands)
  match ← timerPlace m sands with
  | some tt => return (thread, threadListAddBefore m .timer tt thread)
  | none => return (thread, threadListAdd m .timer thread)

/-- `thread_add_timer`: the seconds become an `unsigned long` of microseconds. -/
def threadAddTimer (m : ThreadMaster Func Arg) (func : Func) (arg : Option Arg)
    (timer : Int) (timerNow : Timeval) : Except Fault (ThreadId × ThreadMaster Func Arg) :=
  threadAddTimerHighResolution m func arg (UInt64.ofInt (timer * timerSecondMicro)) timerNow

/-- `thread_add_event`. -/
def threadAddEvent (m : ThreadMaster Func Arg) (func : Func) (arg : Option Arg) (val : Int) :
    ThreadId × ThreadMaster Func Arg :=
  let (thread, m) := threadGet m .event func arg
  let m := m.setU thread (.val val)
  (thread, threadListAdd m .event thread)

/-! ## Cancelling -/

/-- `thread_cancel`. -/
def threadCancel (m : ThreadMaster Func Arg) (thread : ThreadId) :
    Except Fault (ThreadMaster Func Arg) := do
  let m ←
    match (m.threads thread).type with
    | .read => do
        let fd ← threadFd (m.threads thread)
        assertThat (← fdIsset fd m.readfd)
        pure (threadListDelete { m with readfd := m.readfd.erase fd } .read thread)
    | .write => do
        let fd ← threadFd (m.threads thread)
        assertThat (← fdIsset fd m.writefd)
        pure (threadListDelete { m with writefd := m.writefd.erase fd } .write thread)
    | .timer => pure (threadListDelete m .timer thread)
    | .event => pure (threadListDelete m .event thread)
    | .ready => pure (threadListDelete m .ready thread)
    | .unused => return m
  threadAddUnuse (m.setType thread .unused) thread

/-- `thread_cancel_event`. -/
def threadCancelEvent [DecidableEq Arg] (m : ThreadMaster Func Arg) (arg : Option Arg) :
    Except Fault (ThreadMaster Func Arg) :=
  forEach (fun m thread => (m.threads thread).next)
    (fun m t =>
      if (m.threads t).arg = arg then
        let m := threadListDelete m .event t
        threadAddUnuse (m.setType t .unused) t
      else
        return m)
    .unfinished (m.alloc + 1) (m.lists .event).head m

/-! ## Fetching -/

/-- `thread_timer_wait`. -/
def threadTimerWait (m : ThreadMaster Func Arg) (timerNow : Timeval) :
    Except Fault (Option Timeval) :=
  match (m.lists .timer).head with
  | some head => do
      let time ← threadSands (m.threads head)
      let timerMin := timevalSubtract time timerNow
      return some (if timerMin.tvSec < 0 then { tvSec := 0, tvUsec := 10 } else timerMin)
  | none => return none

/-- What `select` is called with. -/
structure SelectCall where
  readfd : Finset Nat
  writefd : Finset Nat
  exceptfd : Finset Nat
  timerWait : Option Timeval
  deriving DecidableEq

/-- What `select` answers: no descriptor, a signal, an error, or the descriptors left. -/
inductive Selected where
  | nothing
  | interrupted
  | failed
  | ready (readfd writefd : Finset Nat)

/-- The two clock readings and the answer of `select` in one pass of the loop. -/
structure Pass where
  timerNow : Timeval
  waitNow : Timeval
  selected : Selected

/-- What `thread_fetch` returns; it is `asleep` while it has not. -/
inductive Fetched (Func Arg : Type) where
  | null
  | fetch (thread : ThreadId) (copy : Thread Func Arg)
  | asleep

/-- `thread_run`. -/
def threadRun (m : ThreadMaster Func Arg) (thread : ThreadId) :
    Except Fault (Fetched Func Arg × ThreadMaster Func Arg) := do
  let fetch := m.threads thread
  let m ← threadAddUnuse (m.setType thread .unused) thread
  return (.fetch thread fetch, m)

/-- What `thread_process_fd` does with one thread. -/
def processThread (list : ThreadType) (fdset : Finset Nat)
    (mfdset : ThreadMaster Func Arg → Finset Nat)
    (setMfdset : ThreadMaster Func Arg → Finset Nat → ThreadMaster Func Arg)
    (m : ThreadMaster Func Arg) (thread : ThreadId) :
    Except Fault (ThreadMaster Func Arg) := do
  let fd ← threadFd (m.threads thread)
  if ← fdIsset fd fdset then
    assertThat (← fdIsset fd (mfdset m))
    let m := setMfdset m ((mfdset m).erase fd)
    let m := threadListDelete m list thread
    let m := threadListAdd m .ready thread
    return m.setType thread .ready
  else
    return m

/-- `thread_process_fd`; `mfdset` points to a set of the master. -/
def threadProcessFd (list : ThreadType) (fdset : Finset Nat)
    (mfdset : ThreadMaster Func Arg → Finset Nat)
    (setMfdset : ThreadMaster Func Arg → Finset Nat → ThreadMaster Func Arg)
    (m : ThreadMaster Func Arg) : Except Fault (ThreadMaster Func Arg) :=
  forEach (fun m thread => (m.threads thread).next)
    (processThread list fdset mfdset setMfdset)
    .unfinished (m.alloc + 1) (m.lists list).head m

/-- The loop of `thread_fetch` over the timers: the first that is due. -/
def dueTimer (m : ThreadMaster Func Arg) (timerNow : Timeval) :
    Except Fault (Option ThreadId) :=
  search (fun thread => (m.threads thread).next)
    (fun thread => do
      let time ← threadSands (m.threads thread)
      return decide (timevalCmp timerNow time ≥ 0))
    .unfinished (m.alloc + 1) (m.lists .timer).head

/-- The thread `thread_fetch` finds before it calls `select`, taken off its list. -/
def nextThread (m : ThreadMaster Func Arg) (timerNow : Timeval) :
    Except Fault (Option (ThreadId × ThreadMaster Func Arg)) := do
  match threadTrimHead m .event with
  | some taken => return some taken
  | none =>
    match ← dueTimer m timerNow with
    | some thread => return some (thread, threadListDelete m .timer thread)
    | none => return threadTrimHead m .ready

/-- The call of `select`. -/
def selectCall (m : ThreadMaster Func Arg) (timerNow : Timeval) : Except Fault SelectCall := do
  let timerWait ← threadTimerWait m timerNow
  return {
    readfd := m.readfd
    writefd := m.writefd
    exceptfd := m.exceptfd
    timerWait := timerWait
  }

/-- Both calls of `thread_process_fd`. -/
def processFds (m : ThreadMaster Func Arg) (readfd writefd : Finset Nat) :
    Except Fault (ThreadMaster Func Arg) := do
  let m ← threadProcessFd .read readfd ThreadMaster.readfd
    (fun m set => { m with readfd := set }) m
  threadProcessFd .write writefd ThreadMaster.writefd
    (fun m set => { m with writefd := set }) m

/-- The loop of `thread_fetch`, with the calls of `select` it made. -/
def fetchLoop (m : ThreadMaster Func Arg) :
    List Pass → Except Fault (Fetched Func Arg × List SelectCall × ThreadMaster Func Arg)
  | [] => return (.asleep, [], m)
  | pass :: passes => do
      match ← nextThread m pass.timerNow with
      | some (thread, m) =>
          let (fetched, m) ← threadRun m thread
          return (fetched, [], m)
      | none =>
          let call ← selectCall m pass.waitNow
          match pass.selected with
          | .nothing | .interrupted =>
              let (fetched, calls, m) ← fetchLoop m passes
              return (fetched, call :: calls, m)
          | .failed => return (.null, [call], m)
          | .ready readfd writefd =>
              let m ← processFds m readfd writefd
              match threadTrimHead m .ready with
              | some (thread, m) =>
                  let (fetched, m) ← threadRun m thread
                  return (fetched, [call], m)
              | none =>
                  let (fetched, calls, m) ← fetchLoop m passes
                  return (fetched, call :: calls, m)

/-- `thread_fetch`. -/
def threadFetch (m : ThreadMaster Func Arg) (passes : List Pass) :
    Except Fault (Fetched Func Arg × List SelectCall × ThreadMaster Func Arg) :=
  if (m.lists .event).head.isNone ∧ (m.lists .read).head.isNone ∧ (m.lists .ready).head.isNone ∧
      (m.lists .timer).head.isNone ∧ (m.lists .write).head.isNone then
    return (.null, [], m)
  else
    fetchLoop m passes

/-! ## The end of the scheduler -/

/-- The loop of `thread_list_free`: the objects freed. -/
def threadListFree (m : ThreadMaster Func Arg) (list : ThreadType) :
    Nat → Option ThreadId → Except Fault (List ThreadId × ThreadMaster Func Arg)
  | 0, _ => .error .unfinished
  | _ + 1, none => .ok ([], m)
  | fuel + 1, some t => do
      let next := (m.threads t).next
      let m := m.addCount list (-1)
      let (freed, m) ← threadListFree { m with alloc := m.alloc - 1 } list fuel next
      return (t :: freed, m)

/-- The calls of the scheduler. -/
inductive Call (Func Arg : Type) where
  | addRead (func : Func) (arg : Option Arg) (fd : Nat)
  | addWrite (func : Func) (arg : Option Arg) (fd : Nat)
  | addTimerHighResolution (func : Func) (arg : Option Arg) (microsecends : UInt64)
      (timerNow : Timeval)
  | addTimer (func : Func) (arg : Option Arg) (timer : Int) (timerNow : Timeval)
  | addEvent (func : Func) (arg : Option Arg) (val : Int)
  | cancel (thread : ThreadId)
  | cancelEvent (arg : Option Arg)
  | fetch (passes : List Pass)

/-- What a call returns. -/
inductive Answer (Func Arg : Type) where
  | handle (thread : Option ThreadId)
  | nothing
  | fetched (fetched : Fetched Func Arg) (calls : List SelectCall)

/-- A call. -/
def step [DecidableEq Arg] (m : ThreadMaster Func Arg) :
    Call Func Arg → Except Fault (Answer Func Arg × ThreadMaster Func Arg)
  | .addRead func arg fd => do
      let (thread, m) ← threadAddRead m func arg fd
      return (.handle thread, m)
  | .addWrite func arg fd => do
      let (thread, m) ← threadAddWrite m func arg fd
      return (.handle thread, m)
  | .addTimerHighResolution func arg microsecends timerNow => do
      let (thread, m) ← threadAddTimerHighResolution m func arg microsecends timerNow
      return (.handle (some thread), m)
  | .addTimer func arg timer timerNow => do
      let (thread, m) ← threadAddTimer m func arg timer timerNow
      return (.handle (some thread), m)
  | .addEvent func arg val =>
      let (thread, m) := threadAddEvent m func arg val
      return (.handle (some thread), m)
  | .cancel thread => do
      let m ← threadCancel m thread
      return (.nothing, m)
  | .cancelEvent arg => do
      let m ← threadCancelEvent m arg
      return (.nothing, m)
  | .fetch passes => do
      let (fetched, calls, m) ← threadFetch m passes
      return (.fetched fetched calls, m)

end Threads

end Pma
