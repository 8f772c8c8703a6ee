import Mathlib.Data.List.Basic
import Pma.Abort
import Pma.Bytes
import Pma.Transition

namespace Pma

open Bytes Transition

/-!
# The log queue

`logger/logger.c` passes messages from every process to the log daemon through
shared memory: a ring of blocks, of which one stays free, addressed by
`shmqueue_ctl`.  A message is written as an `int` with its length and then its
bytes.  How many bytes are copied is not taken from that length but from
`strlen`, and nothing ends the message with a null byte.
-/

/-- `BLOCK_SIZE`. -/
def blockSize : Nat := 4096

/-- `MAX_BLOCK`. -/
def maxBlock : Nat := 20

/-- `sizeof(int)`. -/
def sizeofInt : Nat := 4

/-- `struct shmqueue_ctl`. -/
structure ShmqueueCtl where
  maxSize : Nat
  head : Nat
  tail : Nat
  deriving Repr, DecidableEq

namespace ShmqueueCtl

/-- The ring after a writer took a block, unless all but one are taken. -/
def takeTail (ctl : ShmqueueCtl) : Option ShmqueueCtl :=
  if (ctl.tail + 1) % ctl.maxSize = ctl.head then
    none
  else
    some { ctl with tail := (ctl.tail + 1) % ctl.maxSize }

/-- The ring after the reader gave a block back, unless there is none. -/
def takeHead (ctl : ShmqueueCtl) : Option ShmqueueCtl :=
  if ctl.head = ctl.tail then
    none
  else
    some { ctl with head := (ctl.head + 1) % ctl.maxSize }

/-- A ring of `MAX_BLOCK` blocks that holds `count` of them. -/
structure Holds (ctl : ShmqueueCtl) (count : Nat) : Prop where
  size : ctl.maxSize = maxBlock
  head : ctl.head < maxBlock
  tail : ctl.tail = (ctl.head + count) % maxBlock
  room : count < maxBlock

/-- How many blocks a ring holds, from its two ends. -/
theorem Holds.count_eq
    {ctl : ShmqueueCtl}
    {count : Nat}
    (holds : ctl.Holds count) :
    count = (ctl.tail + maxBlock - ctl.head) % maxBlock := by
  have head := holds.head
  have room := holds.room
  rw [holds.tail]
  unfold maxBlock at *
  omega

/-- A block that a writer takes is added behind the others. -/
theorem Holds.takeTail
    {ctl next : ShmqueueCtl}
    {count : Nat}
    (holds : ctl.Holds count)
    (took : ctl.takeTail = some next) :
    next.Holds (count + 1) ∧ next.head = ctl.head := by
  have head := holds.head
  have room := holds.room
  have tail := holds.tail
  unfold ShmqueueCtl.takeTail at took
  rw [holds.size] at took
  split at took
  · cases took
  · next free =>
      cases took
      refine ⟨⟨rfl, head, ?_, ?_⟩, rfl⟩
      · unfold maxBlock at *
        dsimp only
        omega
      · unfold maxBlock at *
        omega

/-- The reader gives back the block at the head. -/
theorem Holds.takeHead
    {ctl : ShmqueueCtl}
    {count : Nat}
    (holds : ctl.Holds (count + 1)) :
    ∃ next, ctl.takeHead = some next ∧ next.Holds count := by
  have head := holds.head
  have room := holds.room
  have tail := holds.tail
  unfold ShmqueueCtl.takeHead
  rw [holds.size, if_neg]
  · refine ⟨_, rfl, ⟨rfl, ?_, ?_, ?_⟩⟩
    · unfold maxBlock at *
      dsimp only
      omega
    · unfold maxBlock at *
      dsimp only
      omega
    · omega
  · unfold maxBlock at *
    omega

end ShmqueueCtl

/-- The shared memory: the control block, and the bytes behind it. -/
structure ShmQueue where
  ctl : ShmqueueCtl
  mem : Nat → UInt8

/-- `strlen`. -/
def strlen (bytes : List UInt8) : Nat :=
  (bytes.takeWhile fun byte => byte ≠ 0).length

/-- `write_shm`: nothing is written when the end is beyond the memory. -/
def writeShm
    (mem : Nat → UInt8)
    (bytes : List UInt8)
    (startPos : Nat) : Nat → UInt8 :=
  if startPos + bytes.length > maxBlock * blockSize then
    mem
  else
    overwrite mem startPos bytes

/--
`log_package_xml`: the buffer with the serialised message.  `beyond` is what
the memory holds behind the message, which is allocated and not written.
-/
def logPackageXml (message beyond : List UInt8) : List UInt8 :=
  leBytes sizeofInt message.length ++ message ++ beyond

/-- `log_writer`: whether it returned zero, and the queue. -/
def logWriter
    (queue : ShmQueue)
    (message beyond : List UInt8) : Bool × ShmQueue :=
  match queue.ctl.takeTail with
  | none => (false, queue)
  | some taken =>
      let buff := logPackageXml message beyond
      let length := strlen (buff.drop sizeofInt) + sizeofInt
      (true,
        { ctl := taken
          mem := writeShm queue.mem (buff.take length) (queue.ctl.tail * blockSize) })

/--
`log_reader`: the message, or nothing when the queue is empty.  A length that
is larger than the block makes it copy from outside the buffer.
-/
def logReader (queue : ShmQueue) :
    Except Fault (Option (List UInt8) × ShmQueue) :=
  match queue.ctl.takeHead with
  | none => .ok (none, queue)
  | some taken =>
      let buff := window queue.mem (queue.ctl.head * blockSize) blockSize
      let size := leValue (buff.take sizeofInt)
      if size + sizeofInt ≤ blockSize then
        .ok (some ((buff.drop sizeofInt).take size), { queue with ctl := taken })
      else
        .error .wildPointer

/-! ## What a block holds -/

/-- A block that holds a message behind its length. -/
structure InBlock
    (mem : Nat → UInt8)
    (index : Nat)
    (message : List UInt8) : Prop where
  bytes :
    window mem (index * blockSize) (sizeofInt + message.length) =
      leBytes sizeofInt message.length ++ message
  fits : sizeofInt + message.length ≤ blockSize

/-- The queue holds some messages, the oldest in the block at its head. -/
structure Stores
    (queue : ShmQueue)
    (pending : List (List UInt8)) : Prop where
  ring : queue.ctl.Holds pending.length
  blocks :
    ∀ {place message},
      pending[place]? = some message →
      InBlock queue.mem ((queue.ctl.head + place) % maxBlock) message

/-- An empty queue stores nothing. -/
theorem stores_nil
    {queue : ShmQueue}
    (ring : queue.ctl.Holds 0) :
    Stores queue [] where
  ring := ring
  blocks := by
    intro place message found
    cases found

/-- A message that is in a block is read as it is. -/
theorem InBlock.read
    {mem : Nat → UInt8}
    {index : Nat}
    {message : List UInt8}
    (block : InBlock mem index message) :
    leValue ((window mem (index * blockSize) blockSize).take sizeofInt) =
        message.length ∧
      ((window mem (index * blockSize) blockSize).drop sizeofInt).take
          message.length =
        message := by
  have front :
      (window mem (index * blockSize) blockSize).take
          (sizeofInt + message.length) =
        leBytes sizeofInt message.length ++ message := by
    rw [take_window block.fits, block.bytes]
  have width : (leBytes sizeofInt message.length).length = sizeofInt :=
    length_leBytes ..
  constructor
  · have header :
        (window mem (index * blockSize) blockSize).take sizeofInt =
          leBytes sizeofInt message.length := by
      have shorter := congrArg (List.take sizeofInt) front
      rw [List.take_take, Nat.min_eq_left (Nat.le_add_right ..),
        List.take_append_of_le_length (Nat.le_of_eq width.symm),
        List.take_of_length_le (Nat.le_of_eq width)] at shorter
      exact shorter
    rw [header]
    apply leValue_leBytes
    have fits := block.fits
    unfold sizeofInt blockSize at *
    omega
  · have body := congrArg (List.drop sizeofInt) front
    rw [List.drop_take, Nat.add_sub_cancel_left,
      List.drop_append_of_le_length (Nat.le_of_eq width.symm),
      List.drop_of_length_le (Nat.le_of_eq width)] at body
    exact body

/-- The reader gets the oldest message. -/
theorem Stores.logReader
    {queue : ShmQueue}
    {message : List UInt8}
    {rest : List (List UInt8)}
    (stores : Stores queue (message :: rest)) :
    ∃ next,
      Pma.logReader queue = .ok (some message, next) ∧ Stores next rest := by
  obtain ⟨taken, took, ring⟩ := stores.ring.takeHead
  have oldest : InBlock queue.mem ((queue.ctl.head + 0) % maxBlock) message :=
    stores.blocks rfl
  rw [Nat.add_zero, Nat.mod_eq_of_lt stores.ring.head] at oldest
  obtain ⟨size, body⟩ := oldest.read
  refine ⟨{ queue with ctl := taken }, ?_, ring, ?_⟩
  · unfold Pma.logReader
    rw [took]
    dsimp only
    rw [size, body, if_pos]
    rw [Nat.add_comm]
    exact oldest.fits
  · intro place later found
    have block : InBlock queue.mem ((queue.ctl.head + (place + 1)) % maxBlock) later :=
      stores.blocks (by simpa using found)
    have next : taken.head = (queue.ctl.head + 1) % maxBlock := by
      unfold ShmqueueCtl.takeHead at took
      split at took
      · cases took
      · cases took
        rw [stores.ring.size]
    dsimp only
    rw [next, Nat.mod_add_mod, Nat.add_assoc, Nat.add_comm 1 place]
    exact block

/-- The message behind its length, and what is copied with it up to the next null. -/
def copied (message beyond : List UInt8) : List UInt8 :=
  leBytes sizeofInt message.length ++
    (message ++ beyond.takeWhile fun byte => byte ≠ 0)

@[simp] theorem length_copied
    (message beyond : List UInt8) :
    (copied message beyond).length =
      sizeofInt + message.length + strlen beyond := by
  rw [copied, List.length_append, List.length_append, length_leBytes, strlen,
    Nat.add_assoc]

theorem takeWhile_append_of_noNul
    {message : List UInt8}
    (noNul : 0 ∉ message)
    (beyond : List UInt8) :
    ((message ++ beyond).takeWhile fun byte => byte ≠ 0) =
      message ++ beyond.takeWhile fun byte => byte ≠ 0 := by
  apply List.takeWhile_append_of_pos
  intro byte member
  rw [decide_eq_true_iff]
  rintro rfl
  exact noNul member

theorem strlen_append
    {message : List UInt8}
    (noNul : 0 ∉ message)
    (beyond : List UInt8) :
    strlen (message ++ beyond) = message.length + strlen beyond := by
  unfold strlen
  rw [takeWhile_append_of_noNul noNul, List.length_append]

/-- The bytes that `log_writer` copies. -/
theorem take_logPackageXml
    {message : List UInt8}
    (noNul : 0 ∉ message)
    (beyond : List UInt8) :
    (logPackageXml message beyond).take
        (strlen ((logPackageXml message beyond).drop sizeofInt) + sizeofInt) =
      copied message beyond := by
  have width : (leBytes sizeofInt message.length).length = sizeofInt :=
    length_leBytes ..
  have body :
      (message ++ beyond).take
          ((message ++ beyond).takeWhile fun byte => byte ≠ 0).length =
        (message ++ beyond).takeWhile fun byte => byte ≠ 0 :=
    (List.prefix_iff_eq_take.mp (List.takeWhile_prefix _)).symm
  unfold logPackageXml strlen
  rw [List.append_assoc, List.drop_append_of_le_length (Nat.le_of_eq width.symm),
    List.drop_of_length_le (Nat.le_of_eq width), List.nil_append, List.take_append,
    List.take_of_length_le (by omega), width, Nat.add_sub_cancel, body,
    takeWhile_append_of_noNul noNul, copied]

/-- What was copied to a block is in it. -/
theorem inBlock_overwrite
    {message : List UInt8}
    (short : sizeofInt + message.length ≤ blockSize)
    (mem : Nat → UInt8)
    (index : Nat)
    (beyond : List UInt8) :
    InBlock (overwrite mem (index * blockSize) (copied message beyond))
      index message where
  fits := short
  bytes := by
    have whole :=
      window_overwrite mem (index * blockSize) (copied message beyond)
    have front := congrArg (List.take (sizeofInt + message.length)) whole
    rw [take_window (by rw [length_copied]; omega)] at front
    have length :
        (leBytes sizeofInt message.length ++ message).length =
          sizeofInt + message.length := by
      rw [List.length_append, length_leBytes]
    rw [front, copied, ← List.append_assoc,
      List.take_append_of_le_length (Nat.le_of_eq length.symm),
      List.take_of_length_le (Nat.le_of_eq length)]

/-- Where the free blocks end that start at the tail. -/
def freeEnd (ctl : ShmqueueCtl) : Nat :=
  if ctl.tail < ctl.head then ctl.head * blockSize else maxBlock * blockSize

/-- The blocks in use are not between the tail and the end of the free blocks. -/
theorem ShmqueueCtl.Holds.outside
    {ctl : ShmqueueCtl}
    {count place : Nat}
    (holds : ctl.Holds count)
    (used : place < count) :
    (ctl.head + place) % maxBlock < ctl.tail ∨
      freeEnd ctl ≤ (ctl.head + place) % maxBlock * blockSize := by
  have head := holds.head
  have room := holds.room
  have tail := holds.tail
  unfold freeEnd
  unfold maxBlock blockSize at *
  split
  · omega
  · omega

theorem ShmqueueCtl.Holds.freeEnd_le
    {ctl : ShmqueueCtl}
    {count : Nat}
    (holds : ctl.Holds count) :
    freeEnd ctl ≤ maxBlock * blockSize := by
  have head := holds.head
  unfold freeEnd
  unfold maxBlock blockSize at *
  split
  · omega
  · omega

/-- A message whose copy ends in the free blocks is stored behind the others. -/
theorem Stores.logWriter
    {queue : ShmQueue}
    {pending : List (List UInt8)}
    (stores : Stores queue pending)
    {message beyond : List UInt8}
    (noNul : 0 ∉ message)
    (short : sizeofInt + message.length ≤ blockSize)
    (within :
      queue.ctl.tail * blockSize +
          (sizeofInt + message.length + strlen beyond) ≤
        freeEnd queue.ctl)
    {taken : ShmqueueCtl}
    (took : queue.ctl.takeTail = some taken) :
    ∃ next,
      Pma.logWriter queue message beyond = (true, next) ∧
        Stores next (pending ++ [message]) := by
  obtain ⟨ring, sameHead⟩ := stores.ring.takeTail took
  have inMemory := stores.ring.freeEnd_le
  have written :
      writeShm queue.mem (copied message beyond) (queue.ctl.tail * blockSize) =
        overwrite queue.mem (queue.ctl.tail * blockSize)
          (copied message beyond) := by
    unfold writeShm
    rw [length_copied]
    exact if_neg (by omega)
  refine
    ⟨{ ctl := taken
       mem := overwrite queue.mem (queue.ctl.tail * blockSize)
        (copied message beyond) }, ?_, ?_, ?_⟩
  · unfold Pma.logWriter
    rw [took]
    simp only [take_logPackageXml noNul, written]
  · rw [List.length_append, List.length_singleton]
    exact ring
  · intro place found isThere
    dsimp only
    rw [sameHead]
    by_cases old : place < pending.length
    · rw [List.getElem?_append_left old] at isThere
      have block := stores.blocks isThere
      refine ⟨?_, block.fits⟩
      rw [window_overwrite_of_disjoint, block.bytes]
      have fits := block.fits
      rw [length_copied]
      rcases stores.ring.outside old with below | above
      · left
        have stride := Nat.mul_le_mul_right blockSize (Nat.succ_le_of_lt below)
        rw [Nat.succ_mul] at stride
        omega
      · right
        omega
    · rw [List.getElem?_append_right (by omega)] at isThere
      have last : place = pending.length := by
        have inside := (List.getElem?_eq_some_iff.mp isThere).1
        rw [List.length_singleton] at inside
        omega
      subst last
      rw [Nat.sub_self, List.getElem?_cons_zero, Option.some.injEq] at isThere
      subst isThere
      rw [← stores.ring.tail]
      exact inBlock_overwrite short queue.mem queue.ctl.tail beyond

/-! ## Runs -/

/-- The calls of the processes, each of them atomic under `MUTEX`. -/
inductive LogCall where
  | logWriter (message beyond : List UInt8)
  | logReader

/-- The queue, with what was accepted and returned so far. -/
structure LogRun where
  queue : ShmQueue
  accepted : List (List UInt8)
  returned : List (List UInt8)

namespace LogRun

/-- An empty queue at any place of the ring, in memory with any content. -/
def init (place : Nat) (mem : Nat → UInt8) : LogRun where
  queue := ⟨⟨maxBlock, place, place⟩, mem⟩
  accepted := []
  returned := []

/-- Execute one call. -/
def step (run : LogRun) : LogCall → Except Fault LogRun
  | .logWriter message beyond =>
      let (written, queue) := logWriter run.queue message beyond
      .ok { run with
        queue := queue
        accepted := if written then run.accepted ++ [message] else run.accepted }
  | .logReader => do
      let (message, queue) ← logReader run.queue
      return { run with
        queue := queue
        returned := run.returned ++ message.toList }

/-- A message that fits in a block, with its length and one byte more. -/
def Serialised : LogCall → Prop
  | .logWriter message _ =>
      0 ∉ message ∧ message.length ≤ blockSize - sizeofInt - 1
  | .logReader => True

/-- What is copied ends before the first block in use and inside the memory. -/
def StaysFree (run : LogRun) : LogCall → Prop
  | .logWriter message beyond =>
      run.queue.ctl.takeTail ≠ none →
      run.queue.ctl.tail * blockSize +
          (sizeofInt + message.length + strlen beyond) ≤
        freeEnd run.queue.ctl
  | .logReader => True

/-- The messages returned and the messages stored are the messages accepted. -/
def Lossless (run : LogRun) : Prop :=
  ∃ pending,
    run.accepted = run.returned ++ pending ∧ Stores run.queue pending

/-- The step lemma: no call aborts, and none loses a message. -/
theorem Lossless.step
    {run : LogRun}
    (lossless : run.Lossless)
    {call : LogCall}
    (serialised : Serialised call)
    (free : run.StaysFree call) :
    ∃ next, run.step call = .ok next ∧ next.Lossless := by
  obtain ⟨pending, split, stores⟩ := lossless
  cases call with
  | logWriter message beyond =>
      cases took : run.queue.ctl.takeTail with
      | none =>
          have refused :
              Pma.logWriter run.queue message beyond = (false, run.queue) := by
            unfold Pma.logWriter
            rw [took]
          refine ⟨run, ?_, pending, split, stores⟩
          unfold LogRun.step
          dsimp only
          rw [refused]
          rfl
      | some taken =>
          have short : sizeofInt + message.length ≤ blockSize := by
            have bound := serialised.2
            unfold sizeofInt blockSize at *
            omega
          have within := free (by rw [took]; exact Option.some_ne_none _)
          obtain ⟨queue, written, stored⟩ :=
            stores.logWriter serialised.1 short within took
          refine ⟨⟨queue, run.accepted ++ [message], run.returned⟩, ?_,
            pending ++ [message], ?_, stored⟩
          · unfold LogRun.step
            dsimp only
            rw [written]
            rfl
          · dsimp only
            rw [split, List.append_assoc]
  | logReader =>
      cases pending with
      | nil =>
          have none : run.queue.ctl.takeHead = none := by
            have same := stores.ring.tail
            have head := stores.ring.head
            unfold ShmqueueCtl.takeHead
            rw [if_pos]
            rw [same, List.length_nil, Nat.add_zero, Nat.mod_eq_of_lt head]
          refine ⟨run, ?_, [], split, stores⟩
          unfold LogRun.step Pma.logReader
          dsimp only
          rw [none]
          change Except.ok { run with returned := run.returned ++ [] } = Except.ok run
          rw [List.append_nil]
      | cons message rest =>
          obtain ⟨queue, read, stored⟩ := stores.logReader
          refine ⟨⟨queue, run.accepted, run.returned ++ [message]⟩, ?_,
            rest, ?_, stored⟩
          · unfold LogRun.step
            dsimp only
            rw [read]
            rfl
          · dsimp only
            rw [split, List.append_assoc]
            rfl

/-- The steps of a run in which every copy ends in the free blocks. -/
abbrev FreeStep : LogRun → LogCall → LogRun → Prop :=
  guarded (fun run call => Serialised call ∧ run.StaysFree call)
    (ofPartial step)

/--
As long as every copy ends in the free blocks, the messages returned are a
prefix of the messages accepted, both ends stay in the ring, and the next such
call returns.
-/
theorem logRun_fifo
    {place : Nat}
    (inside : place < maxBlock)
    {mem : Nat → UInt8}
    {calls : List LogCall}
    {after : LogRun}
    (run : Run FreeStep (init place mem) calls after) :
    after.returned <+: after.accepted ∧
      after.queue.ctl.head < maxBlock ∧
      after.queue.ctl.tail < maxBlock ∧
      ∀ call,
        Serialised call →
        after.StaysFree call →
        ∃ next, after.step call = .ok next := by
  have start : (init place mem).Lossless := by
    refine ⟨[], rfl, stores_nil ⟨rfl, inside, ?_, by decide⟩⟩
    exact (Nat.mod_eq_of_lt inside).symm
  have lossless : after.Lossless := by
    apply run.invariant Lossless _ start
    intro before call next holds stepped
    obtain ⟨⟨serialised, free⟩, returned⟩ := stepped
    obtain ⟨reached, same, kept⟩ := holds.step serialised free
    have returned : before.step call = .ok next := returned
    rw [returned] at same
    cases same
    exact kept
  obtain ⟨pending, split, stores⟩ := id lossless
  refine ⟨⟨pending, split.symm⟩, stores.ring.head, ?_, ?_⟩
  · rw [stores.ring.tail]
    exact Nat.mod_lt _ (by decide)
  · intro call serialised free
    obtain ⟨next, returned, _⟩ := lossless.step serialised free
    exact ⟨next, returned⟩

set_option maxRecDepth 40000 in
/-- Two messages, the second with a byte behind it that is copied, too. -/
theorem logRun_fifo_two :
    ∃ after,
      Run FreeStep (init 0 fun _ => 0)
          [.logWriter [65] [0], .logWriter [66, 67] [1, 0], .logReader] after ∧
        after.returned = [[65]] ∧
        after.returned <+: after.accepted := by
  have run :
      ∃ after,
        Run FreeStep (init 0 fun _ => 0)
            [.logWriter [65] [0], .logWriter [66, 67] [1, 0], .logReader] after ∧
          after.returned = [[65]] :=
    ⟨_, .cons ⟨⟨⟨by decide, by decide⟩, fun _ => by decide⟩, rfl⟩
      (.cons ⟨⟨⟨by decide, by decide⟩, fun _ => by decide⟩, rfl⟩
        (.cons ⟨⟨trivial, trivial⟩, rfl⟩ (.nil _))), rfl⟩
  obtain ⟨after, path, first⟩ := run
  exact ⟨after, path, first, (logRun_fifo (by decide) path).1⟩

set_option maxRecDepth 100000 in
/--
In the last block: with no null in the 4092 bytes behind a message of one byte,
the copy would leave the memory.  It is not made, the message counts as
accepted, and the reader gets what the block held before.
-/
theorem logWriter_loses_message :
    ∃ after,
      Serialised (.logWriter [65] (List.replicate 4092 1)) ∧
        Run (ofPartial step) (init 19 fun _ => 0)
          [.logWriter [65] (List.replicate 4092 1), .logReader] after ∧
        after.accepted = [[65]] ∧
        after.returned = [[]] ∧
        ¬ after.returned <+: after.accepted := by
  have run :
      ∃ after,
        Run (ofPartial step) (init 19 fun _ => 0)
            [.logWriter [65] (List.replicate 4092 1), .logReader] after ∧
          after.accepted = [[65]] ∧
          after.returned = [[]] :=
    ⟨_, .cons rfl (.cons rfl (.nil _)), rfl, rfl⟩
  obtain ⟨after, path, accepted, returned⟩ := run
  refine ⟨after, ⟨by decide, by decide⟩, path, accepted, returned, ?_⟩
  rw [accepted, returned]
  decide

end LogRun

end Pma
