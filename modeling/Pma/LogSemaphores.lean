import Pma.LogQueue

namespace Pma

open Transition

/-!
# The semaphores of the log queue

A producer takes a block with `EMPTY`, writes under `MUTEX` and announces the
message with `FULL`; the log daemon goes the other way round.  `log_init` gives
`EMPTY` as many blocks as the ring has, of which `log_writer` leaves one free.
Every semaphore operation and every critical section is one step.
-/

/-- Where a producer stands in `logger`. -/
inductive ProducerPhase where
  | idle
  | reserved
  | written
  deriving Repr, DecidableEq

/-- Where the log daemon stands; `strlen` of a null pointer stops it. -/
inductive ConsumerPhase where
  | waiting
  | taken
  | read
  | crashed
  deriving Repr, DecidableEq

/-- The ring, the two counting semaphores, and the processes. -/
structure LogSemaphores where
  ctl : ShmqueueCtl
  empty : Nat
  full : Nat
  producers : List ProducerPhase
  consumer : ConsumerPhase
  /-- The messages that `log_writer` refused. -/
  dropped : Nat
  deriving Repr, DecidableEq

/-- One step of a producer or of the log daemon. -/
inductive LogStep where
  | pEmpty (producer : Nat)
  | logWriter (producer : Nat)
  | vFull (producer : Nat)
  | pFull
  | logReader
  | vEmpty
  deriving Repr, DecidableEq

namespace LogSemaphores

/-- After `log_init`, with any number of producers. -/
def init (producers : Nat) : LogSemaphores where
  ctl := ⟨maxBlock, 0, 0⟩
  empty := maxBlock
  full := 0
  producers := List.replicate producers .idle
  consumer := .waiting
  dropped := 0

/-- Execute one step; the error says that the process is not at it, or is blocked. -/
def step (state : LogSemaphores) : LogStep → Except Unit LogSemaphores
  | .pEmpty producer =>
      if state.producers[producer]? = some .idle ∧ 0 < state.empty then
        .ok { state with
          empty := state.empty - 1
          producers := state.producers.set producer .reserved }
      else
        .error ()
  | .logWriter producer =>
      if state.producers[producer]? = some .reserved then
        match state.ctl.takeTail with
        | none =>
            .ok { state with
              producers := state.producers.set producer .written
              dropped := state.dropped + 1 }
        | some ctl =>
            .ok { state with
              ctl := ctl
              producers := state.producers.set producer .written }
      else
        .error ()
  | .vFull producer =>
      if state.producers[producer]? = some .written then
        .ok { state with
          full := state.full + 1
          producers := state.producers.set producer .idle }
      else
        .error ()
  | .pFull =>
      if state.consumer = .waiting ∧ 0 < state.full then
        .ok { state with
          full := state.full - 1
          consumer := .taken }
      else
        .error ()
  | .logReader =>
      if state.consumer = .taken then
        match state.ctl.takeHead with
        | none => .ok { state with consumer := .crashed }
        | some ctl =>
            .ok { state with
              ctl := ctl
              consumer := .read }
      else
        .error ()
  | .vEmpty =>
      if state.consumer = .read then
        .ok { state with
          empty := state.empty + 1
          consumer := .waiting }
      else
        .error ()

/-- The number of producers in a phase. -/
def inPhase (state : LogSemaphores) (phase : ProducerPhase) : Nat :=
  state.producers.count phase

/-- No process is between its two semaphores. -/
def Quiet (state : LogSemaphores) : Prop :=
  state.inPhase .reserved = 0 ∧
    state.inPhase .written = 0 ∧
    state.consumer = .waiting

/-- What the semaphores are for. -/
structure Agrees (state : LogSemaphores) : Prop where
  full :
    state.Quiet →
      state.full = (state.ctl.tail + maxBlock - state.ctl.head) % maxBlock
  blocks : state.Quiet → state.empty + state.full = maxBlock
  kept : state.dropped = 0
  alive : state.consumer ≠ .crashed

/-- `log_writer` is called while the ring has room for one more message. -/
def HasRoom (state : LogSemaphores) : LogStep → Prop
  | .logWriter _ =>
      (state.ctl.tail + 1) % state.ctl.maxSize ≠ state.ctl.head
  | _ => True

instance (state : LogSemaphores) (label : LogStep) :
    Decidable (state.HasRoom label) := by
  cases label <;> unfold HasRoom <;> infer_instance

/-- The block the log daemon has taken and not read. -/
def toRead (state : LogSemaphores) : Nat :=
  if state.consumer = .taken then 1 else 0

/-- The block the log daemon has read and not given back. -/
def toReturn (state : LogSemaphores) : Nat :=
  if state.consumer = .read then 1 else 0

/-- Where every block is, and which of them hold a message. -/
structure Accounted (state : LogSemaphores) : Prop where
  ring :
    state.ctl.Holds (state.full + state.inPhase .written + state.toRead)
  blocks :
    state.empty + state.inPhase .reserved + state.inPhase .written +
      state.full + state.toRead + state.toReturn = maxBlock
  kept : state.dropped = 0
  alive : state.consumer ≠ .crashed

/-- A state whose blocks are accounted for is as it should be. -/
theorem Accounted.agrees
    {state : LogSemaphores}
    (accounted : state.Accounted) :
    state.Agrees := by
  have consumer :
      state.Quiet → state.toRead = 0 ∧ state.toReturn = 0 := by
    intro quiet
    unfold toRead toReturn
    rw [quiet.2.2]
    exact ⟨rfl, rfl⟩
  refine ⟨?_, ?_, accounted.kept, accounted.alive⟩
  · intro quiet
    have count := accounted.ring.count_eq
    rw [quiet.2.1, (consumer quiet).1] at count
    exact count
  · intro quiet
    have blocks := accounted.blocks
    rw [quiet.1, quiet.2.1, (consumer quiet).1, (consumer quiet).2] at blocks
    exact blocks

/-- The account in numbers. -/
theorem accounted_iff
    {state : LogSemaphores} :
    state.Accounted ↔
      state.ctl.Holds
          (state.full + state.producers.count .written +
            if state.consumer = .taken then 1 else 0) ∧
        state.empty + state.producers.count .reserved + state.producers.count .written +
            state.full + (if state.consumer = .taken then 1 else 0) +
              (if state.consumer = .read then 1 else 0) = maxBlock ∧
        state.dropped = 0 ∧
        state.consumer ≠ .crashed :=
  ⟨fun ⟨ring, blocks, kept, alive⟩ => ⟨ring, blocks, kept, alive⟩,
    fun ⟨ring, blocks, kept, alive⟩ => ⟨ring, blocks, kept, alive⟩⟩

/-- The producers after one of them went on. -/
theorem count_set
    {producers : List ProducerPhase}
    {producer : Nat}
    {before : ProducerPhase}
    (here : producers[producer]? = some before)
    (after phase : ProducerPhase) :
    (producers.set producer after).count phase +
        (if before = phase then 1 else 0) =
      producers.count phase + if after = phase then 1 else 0 := by
  induction producers generalizing producer with
  | nil =>
      cases here
  | cons first rest inductionHypothesis =>
      cases producer with
      | zero =>
          cases here
          simp only [List.set_cons_zero, List.count_cons, beq_iff_eq]
          omega
      | succ producer =>
          have later := inductionHypothesis (by simpa using here)
          simp only [List.set_cons_succ, List.count_cons]
          omega

/-- A producer takes an empty block. -/
theorem Accounted.pEmpty
    {state next : LogSemaphores}
    (accounted : state.Accounted)
    {producer : Nat}
    (stepped : state.step (.pEmpty producer) = .ok next) :
    next.Accounted := by
  obtain ⟨ring, blocks, kept, alive⟩ := accounted_iff.mp accounted
  unfold LogSemaphores.step at stepped
  dsimp only at stepped
  split at stepped
  · next enabled =>
      cases stepped
      have reserved := count_set enabled.1 .reserved .reserved
      have written := count_set enabled.1 .reserved .written
      simp only [reduceCtorEq, if_false, if_true, Nat.add_zero]
        at reserved written
      refine accounted_iff.mpr ⟨?_, ?_, kept, alive⟩
      · dsimp only
        rw [written]
        exact ring
      · dsimp only
        omega
  · cases stepped

/-- A producer writes to a ring that has room. -/
theorem Accounted.logWriter
    {state next : LogSemaphores}
    (accounted : state.Accounted)
    {producer : Nat}
    (room : state.HasRoom (.logWriter producer))
    (stepped : state.step (.logWriter producer) = .ok next) :
    next.Accounted := by
  obtain ⟨ring, blocks, kept, alive⟩ := accounted_iff.mp accounted
  unfold LogSemaphores.step at stepped
  dsimp only at stepped
  split at stepped
  · next enabled =>
      have reserved := count_set enabled .written .reserved
      have written := count_set enabled .written .written
      simp only [reduceCtorEq, if_false, if_true, Nat.add_zero]
        at reserved written
      have took :
          state.ctl.takeTail =
            some { state.ctl with
              tail := (state.ctl.tail + 1) % state.ctl.maxSize } :=
        if_neg room
      have ringNext := (ring.takeTail took).1
      rw [took] at stepped
      cases stepped
      refine accounted_iff.mpr ⟨?_, ?_, kept, alive⟩
      · dsimp only
        rw [written, ← Nat.add_assoc, Nat.add_right_comm]
        exact ringNext
      · dsimp only
        omega
  · cases stepped

/-- A producer announces its message. -/
theorem Accounted.vFull
    {state next : LogSemaphores}
    (accounted : state.Accounted)
    {producer : Nat}
    (stepped : state.step (.vFull producer) = .ok next) :
    next.Accounted := by
  obtain ⟨ring, blocks, kept, alive⟩ := accounted_iff.mp accounted
  unfold LogSemaphores.step at stepped
  dsimp only at stepped
  split at stepped
  · next enabled =>
      cases stepped
      have reserved := count_set enabled .idle .reserved
      have written := count_set enabled .idle .written
      simp only [reduceCtorEq, if_false, if_true, Nat.add_zero]
        at reserved written
      refine accounted_iff.mpr ⟨?_, ?_, kept, alive⟩
      · dsimp only
        rw [← written] at ring
        rw [Nat.add_right_comm state.full 1, Nat.add_assoc state.full]
        exact ring
      · dsimp only
        omega
  · cases stepped

/-- The log daemon takes a message. -/
theorem Accounted.pFull
    {state next : LogSemaphores}
    (accounted : state.Accounted)
    (stepped : state.step .pFull = .ok next) :
    next.Accounted := by
  obtain ⟨ring, blocks, kept, alive⟩ := accounted_iff.mp accounted
  unfold LogSemaphores.step at stepped
  dsimp only at stepped
  split at stepped
  · next enabled =>
      cases stepped
      simp only [enabled.1, reduceCtorEq, if_false, Nat.add_zero] at ring blocks
      refine accounted_iff.mpr ⟨?_, ?_, kept, by simp⟩
      · have same :
            state.full - 1 + state.producers.count .written + 1 =
              state.full + state.producers.count .written := by
          omega
        dsimp only
        rw [if_pos rfl, same]
        exact ring
      · simp only [reduceCtorEq, if_false, if_true]
        omega
  · cases stepped

/-- The log daemon reads it. -/
theorem Accounted.logReader
    {state next : LogSemaphores}
    (accounted : state.Accounted)
    (stepped : state.step .logReader = .ok next) :
    next.Accounted := by
  obtain ⟨ring, blocks, kept, alive⟩ := accounted_iff.mp accounted
  unfold LogSemaphores.step at stepped
  dsimp only at stepped
  split at stepped
  · next enabled =>
      simp only [enabled, reduceCtorEq, if_false, if_true] at ring blocks
      obtain ⟨ctl, took, ring⟩ := ring.takeHead
      rw [took] at stepped
      cases stepped
      refine accounted_iff.mpr ⟨?_, ?_, kept, by simp⟩
      · simp only [reduceCtorEq, if_false, Nat.add_zero]
        exact ring
      · simp only [reduceCtorEq, if_false, if_true]
        omega
  · cases stepped

/-- The log daemon gives the block back. -/
theorem Accounted.vEmpty
    {state next : LogSemaphores}
    (accounted : state.Accounted)
    (stepped : state.step .vEmpty = .ok next) :
    next.Accounted := by
  obtain ⟨ring, blocks, kept, alive⟩ := accounted_iff.mp accounted
  unfold LogSemaphores.step at stepped
  dsimp only at stepped
  split at stepped
  · next enabled =>
      cases stepped
      simp only [enabled, reduceCtorEq, if_false, if_true] at ring blocks
      refine accounted_iff.mpr ⟨?_, ?_, kept, by simp⟩
      · simp only [reduceCtorEq, if_false]
        exact ring
      · simp only [reduceCtorEq, if_false]
        omega
  · cases stepped

/-- The step lemma. -/
theorem Accounted.step
    {state next : LogSemaphores}
    (accounted : state.Accounted)
    {label : LogStep}
    (room : state.HasRoom label)
    (stepped : state.step label = .ok next) :
    next.Accounted := by
  cases label with
  | pEmpty producer => exact accounted.pEmpty stepped
  | logWriter producer => exact accounted.logWriter room stepped
  | vFull producer => exact accounted.vFull stepped
  | pFull => exact accounted.pFull stepped
  | logReader => exact accounted.logReader stepped
  | vEmpty => exact accounted.vEmpty stepped

/-- What one producer does for a message. -/
def message (producer : Nat) : List LogStep :=
  [.pEmpty producer, .logWriter producer, .vFull producer]

end LogSemaphores

end Pma
