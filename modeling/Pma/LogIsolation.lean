import Pma.LogQueue

namespace Pma

open Bytes

/-!
# The blocks of the log queue

A writer copies a whole serialised message to the block at the tail, whatever its
length; `write_shm` looks at the end of the shared memory only.  The reader copies
one block and takes the length of the message from it.
-/

namespace LogIsolation

/-! ## Messages -/

/-- The bytes of a text without other characters than those of ASCII. -/
def ascii (text : String) : List UInt8 :=
  text.toList.map fun char => UInt8.ofNat char.toNat

theorem length_ascii
    (text : String) :
    (ascii text).length = text.toList.length :=
  List.length_map _

/-- What `log_package_xml` reads of `struct logmsg`: strings, and the text of its time. -/
structure Logmsg where
  name : List UInt8
  recordTime : List UInt8
  type : UInt32
  data : List UInt8

/-- The texts of the children of the node `event`. -/
structure EventDoc where
  timestamp : List UInt8
  name : List UInt8
  type : List UInt8
  data : List UInt8

/-- The document of `log_package_xml`. -/
def Logmsg.doc (msg : Logmsg) : EventDoc where
  timestamp := msg.recordTime
  name := msg.name
  type := ascii (toString msg.type.toInt32.toInt)
  data := msg.data

/-- A ring of `MAX_BLOCK` blocks in any state, with any bytes in the memory. -/
structure QueueState where
  queue : ShmQueue
  count : Nat
  holds : queue.ctl.Holds count

/--
How many bytes `log_writer` copies: those of the length, and the text up to the
next null byte.  `dump` stands for `xmlDocDumpFormatMemoryEnc`, and `beyond` is
what lies behind the text in memory.
-/
def packedLength
    (dump : EventDoc → List UInt8)
    (msg : Logmsg)
    (beyond : List UInt8) : Nat :=
  strlen (dump msg.doc ++ beyond) + sizeofInt

/-- Of a text without null bytes all is copied, and what is behind it. -/
theorem packedLength_eq
    {dump : EventDoc → List UInt8}
    {msg : Logmsg}
    (noNul : 0 ∉ dump msg.doc)
    (beyond : List UInt8) :
    packedLength dump msg beyond =
      (dump msg.doc).length + strlen beyond + sizeofInt := by
  unfold packedLength
  rw [strlen_append noNul]

/-! ## What is asked of a writer and a reader -/

/-- The block holds a message that was not read yet. -/
def Queued (ctl : ShmqueueCtl) (index : Nat) : Prop :=
  ∃ place < (ctl.tail + maxBlock - ctl.head) % maxBlock,
    index = (ctl.head + place) % maxBlock

/-- The byte belongs to a queued block or lies behind the queue. -/
def Foreign (ctl : ShmqueueCtl) (position : Nat) : Prop :=
  (∃ index, Queued ctl index ∧
      index * blockSize ≤ position ∧ position < (index + 1) * blockSize) ∨
    maxBlock * blockSize ≤ position

/-- Whatever is in the memory, the message changes no byte that is not the writer's. -/
def WriterIsolated (ctl : ShmqueueCtl) (message beyond : List UInt8) : Prop :=
  ∀ mem position, Foreign ctl position →
    (logWriter ⟨ctl, mem⟩ message beyond).2.mem position = mem position

/-- The length in front of the message at the head. -/
def lengthPrefix (queue : ShmQueue) : Nat :=
  leValue (window queue.mem (queue.ctl.head * blockSize) sizeofInt)

/-- An `int` as the `size_t` that `memcpy` takes. -/
def sizeT (size : Nat) : Nat :=
  if size < 2147483648 then size else size + (18446744073709551616 - 4294967296)

/-- `log_reader` reads the byte at an offset of its buffer. -/
def Reads (queue : ShmQueue) (offset : Nat) : Prop :=
  queue.ctl.takeHead ≠ none ∧
    (offset < sizeofInt ∨
      sizeofInt ≤ offset ∧ offset < sizeofInt + sizeT (lengthPrefix queue))

/-- The reader reads no byte behind the block that it copied. -/
def ReaderInside (queue : ShmQueue) : Prop :=
  ∀ offset, Reads queue offset → offset < blockSize

/-- The ring is full, the copy ends in the free blocks, or it is too long for the memory. -/
def Fits (ctl : ShmqueueCtl) (length : Nat) : Prop :=
  ctl.takeTail = none ∨
    ctl.tail * blockSize + length ≤ freeEnd ctl ∨
    maxBlock * blockSize < ctl.tail * blockSize + length

/-- There is no message, or its length says that it ends in its block. -/
def EndsInBlock (queue : ShmQueue) : Prop :=
  queue.ctl.takeHead = none ∨ lengthPrefix queue ≤ blockSize - sizeofInt

/-! ## Writers -/

theorem strlen_le
    (bytes : List UInt8) :
    strlen bytes ≤ bytes.length :=
  (List.takeWhile_prefix _).length_le

theorem drop_logPackageXml
    (message beyond : List UInt8) :
    (logPackageXml message beyond).drop sizeofInt = message ++ beyond := by
  have width : (leBytes sizeofInt message.length).length = sizeofInt :=
    length_leBytes ..
  unfold logPackageXml
  rw [List.append_assoc, List.drop_left' width]

/-- As many bytes are copied as the text has up to a null byte, and those of the length. -/
theorem length_take_logPackageXml
    (message beyond : List UInt8) :
    ((logPackageXml message beyond).take
        (strlen ((logPackageXml message beyond).drop sizeofInt) + sizeofInt)).length =
      strlen (message ++ beyond) + sizeofInt := by
  have width : (leBytes sizeofInt message.length).length = sizeofInt :=
    length_leBytes ..
  have whole : (logPackageXml message beyond).length =
      sizeofInt + (message ++ beyond).length := by
    unfold logPackageXml
    rw [List.append_assoc, List.length_append, width]
  have shorter := strlen_le (message ++ beyond)
  rw [drop_logPackageXml, List.length_take, whole]
  omega

/-- Copying bytes changes no byte before them and none behind. -/
theorem overwrite_outside
    {mem : Nat → UInt8}
    {start position : Nat}
    {bytes : List UInt8}
    (outside : position < start ∨ start + bytes.length ≤ position) :
    overwrite mem start bytes position = mem position := by
  unfold overwrite
  rcases outside with before | behind
  · exact if_neg (Nat.not_le.mpr before)
  · rw [if_pos (by omega), List.getElem?_eq_none (by omega)]
    rfl

/-- What a writer leaves in the memory. -/
theorem mem_logWriter
    {ctl taken : ShmqueueCtl}
    (took : ctl.takeTail = some taken)
    (mem : Nat → UInt8)
    (message beyond : List UInt8) :
    (logWriter ⟨ctl, mem⟩ message beyond).2.mem =
      writeShm mem
        ((logPackageXml message beyond).take
          (strlen ((logPackageXml message beyond).drop sizeofInt) + sizeofInt))
        (ctl.tail * blockSize) := by
  unfold logWriter
  rw [took]

/-- The free blocks end at a block in use or with the memory. -/
theorem foreign_freeEnd
    {ctl : ShmqueueCtl}
    {count : Nat}
    (holds : ctl.Holds count)
    (inside : freeEnd ctl < maxBlock * blockSize) :
    Foreign ctl (freeEnd ctl) := by
  have head := holds.head
  unfold freeEnd at inside ⊢
  split
  · next wraps =>
      refine Or.inl ⟨ctl.head, ⟨0, ?_, ?_⟩, Nat.le_refl _, ?_⟩
      · unfold maxBlock at *
        omega
      · rw [Nat.add_zero, Nat.mod_eq_of_lt head]
      · rw [Nat.succ_mul]
        exact Nat.lt_add_of_pos_right (by decide)
  · next straight =>
      rw [if_neg straight] at inside
      exact absurd inside (Nat.lt_irrefl _)

theorem tail_le_freeEnd
    {ctl : ShmqueueCtl}
    {count : Nat}
    (holds : ctl.Holds count) :
    ctl.tail * blockSize ≤ freeEnd ctl := by
  have tail : ctl.tail < maxBlock := by
    rw [holds.tail]
    exact Nat.mod_lt _ (by decide)
  unfold freeEnd
  split
  · next wraps =>
      exact Nat.mul_le_mul_right blockSize (Nat.le_of_lt wraps)
  · exact Nat.mul_le_mul_right blockSize (Nat.le_of_lt tail)

/-- No byte of the free blocks from the tail on belongs to another. -/
theorem outside_of_foreign
    {ctl : ShmqueueCtl}
    {count position : Nat}
    (holds : ctl.Holds count)
    (foreign : Foreign ctl position) :
    position < ctl.tail * blockSize ∨ freeEnd ctl ≤ position := by
  rcases foreign with ⟨index, ⟨place, used, isIndex⟩, above, below⟩ | behind
  · rw [← holds.count_eq] at used
    rcases holds.outside used with before | after
    · left
      rw [← isIndex] at before
      have stride := Nat.mul_le_mul_right blockSize (Nat.succ_le_of_lt before)
      exact Nat.lt_of_lt_of_le below stride
    · right
      rw [← isIndex] at after
      exact Nat.le_trans after above
  · exact Or.inr (Nat.le_trans holds.freeEnd_le behind)

/-- A writer changes no byte of another if and only if its copy fits. -/
theorem writerIsolated_iff
    {ctl : ShmqueueCtl}
    {count : Nat}
    (holds : ctl.Holds count)
    (message beyond : List UInt8) :
    WriterIsolated ctl message beyond ↔
      Fits ctl (strlen (message ++ beyond) + sizeofInt) := by
  have length := length_take_logPackageXml message beyond
  cases took : ctl.takeTail with
  | none =>
      have refused (mem : Nat → UInt8) :
          logWriter ⟨ctl, mem⟩ message beyond = (false, ⟨ctl, mem⟩) := by
        unfold logWriter
        rw [took]
      apply iff_of_true _ (Or.inl took)
      intro mem position _
      rw [refused]
  | some taken =>
      have writes := mem_logWriter took
      unfold WriterIsolated
      simp only [writes]
      generalize (logPackageXml message beyond).take
        (strlen ((logPackageXml message beyond).drop sizeofInt) + sizeofInt) = bytes at length ⊢
      rw [← length]
      by_cases tooLong : maxBlock * blockSize < ctl.tail * blockSize + bytes.length
      · apply iff_of_true _ (Or.inr (Or.inr tooLong))
        intro mem position _
        exact congrFun (if_pos tooLong) position
      · have copies (mem : Nat → UInt8) :
            writeShm mem bytes (ctl.tail * blockSize) =
              overwrite mem (ctl.tail * blockSize) bytes :=
          if_neg tooLong
        simp only [copies]
        constructor
        · intro isolated
          refine Or.inr (Or.inl ?_)
          apply Nat.le_of_not_lt
          intro reaches
          have inMemory : freeEnd ctl < maxBlock * blockSize := by omega
          have foreign := foreign_freeEnd holds inMemory
          have behindTail := tail_le_freeEnd holds
          have place : freeEnd ctl - ctl.tail * blockSize < bytes.length := by omega
          -- a memory with another byte there
          have same := isolated (fun _ => bytes[freeEnd ctl - ctl.tail * blockSize] + 1)
            (freeEnd ctl) foreign
          unfold overwrite at same
          rw [if_pos behindTail, List.getElem?_eq_getElem place] at same
          exact absurd same (by simp)
        · rintro (full | ends | tooLong')
          · rw [took] at full
            cases full
          · intro mem position foreign
            apply overwrite_outside
            rcases outside_of_foreign holds foreign with before | behind
            · exact Or.inl before
            · exact Or.inr (Nat.le_trans ends behind)
          · exact absurd tooLong' tooLong

theorem writerIsolated_packed
    {ctl : ShmqueueCtl}
    {count : Nat}
    (holds : ctl.Holds count)
    (dump : EventDoc → List UInt8)
    (msg : Logmsg)
    (beyond : List UInt8) :
    WriterIsolated ctl (dump msg.doc) beyond ↔ Fits ctl (packedLength dump msg beyond) :=
  writerIsolated_iff holds (dump msg.doc) beyond

/-! ## Readers -/

/-- A reader stays in its block if and only if the message does. -/
theorem readerInside_iff
    (queue : ShmQueue) :
    ReaderInside queue ↔ EndsInBlock queue := by
  constructor
  · intro inside
    by_cases empty : queue.ctl.takeHead = none
    · exact Or.inl empty
    · refine Or.inr (Nat.le_of_not_lt fun long => ?_)
      have large : lengthPrefix queue ≤ sizeT (lengthPrefix queue) := by
        unfold sizeT
        split
        · exact Nat.le_refl _
        · exact Nat.le_add_right _ _
      have reads : Reads queue blockSize := by
        refine ⟨empty, Or.inr ⟨by decide, ?_⟩⟩
        unfold blockSize sizeofInt at *
        omega
      exact Nat.lt_irrefl _ (inside blockSize reads)
  · rintro (empty | short) offset ⟨some, header | ⟨_, body⟩⟩
    · exact absurd empty some
    · exact absurd empty some
    · exact Nat.lt_trans header (by decide)
    · have isSize : sizeT (lengthPrefix queue) = lengthPrefix queue := by
        apply if_pos
        apply Nat.lt_of_le_of_lt short
        decide
      rw [isSize] at body
      unfold blockSize sizeofInt at *
      omega

/-- A reader that stays in its block returns, and another one does not. -/
theorem readerInside_iff_logReader
    (queue : ShmQueue) :
    ReaderInside queue ↔ ∃ result, logReader queue = .ok result := by
  rw [readerInside_iff]
  cases took : queue.ctl.takeHead with
  | none =>
      apply iff_of_true (Or.inl took)
      unfold logReader
      rw [took]
      exact ⟨_, rfl⟩
  | some taken =>
      have header : leValue ((window queue.mem (queue.ctl.head * blockSize) blockSize).take
          sizeofInt) = lengthPrefix queue := by
        rw [take_window (by decide)]
        rfl
      unfold logReader
      rw [took]
      dsimp only
      rw [header]
      constructor
      · rintro (empty | short)
        · rw [took] at empty
          cases empty
        · refine ⟨_, if_pos ?_⟩
          unfold blockSize sizeofInt at *
          omega
      · rintro ⟨result, returned⟩
        right
        by_cases fits : lengthPrefix queue + sizeofInt ≤ blockSize
        · exact Nat.le_sub_of_add_le fits
        · rw [if_neg fits] at returned
          cases returned

/-! ## Messages of any length -/

/-- A copy that is not longer than a block always fits. -/
theorem fits_of_le
    {ctl : ShmqueueCtl}
    {count length : Nat}
    (holds : ctl.Holds count)
    (short : length ≤ blockSize) :
    Fits ctl length := by
  right
  left
  have tail : ctl.tail < maxBlock := by
    rw [holds.tail]
    exact Nat.mod_lt _ (by decide)
  have next : (ctl.tail + 1) * blockSize ≤ freeEnd ctl := by
    unfold freeEnd
    split
    · next wraps =>
        exact Nat.mul_le_mul_right blockSize wraps
    · exact Nat.mul_le_mul_right blockSize tail
  rw [Nat.succ_mul] at next
  omega

/--
A message changes no byte of another block and the reader stays in its block if
and only if the copy fits and the length in the block does.
-/
theorem isolated_iff
    (dump : EventDoc → List UInt8)
    (state : QueueState)
    (msg : Logmsg)
    (beyond : List UInt8) :
    WriterIsolated state.queue.ctl (dump msg.doc) beyond ∧ ReaderInside state.queue ↔
      Fits state.queue.ctl (packedLength dump msg beyond) ∧ EndsInBlock state.queue :=
  and_congr (writerIsolated_packed state.holds dump msg beyond)
    (readerInside_iff state.queue)

/-- The text of a document in which nothing has to be escaped. -/
def eventXml (doc : EventDoc) : List UInt8 :=
  ascii "<?xml version=\"1.0\" encoding=\"UTF-8\"?>\n<event><timestamp>" ++ doc.timestamp ++
    ascii "</timestamp><name>" ++ doc.name ++ ascii "</name><type>" ++ doc.type ++
      ascii "</type><data>" ++ doc.data ++ ascii "</data></event>\n"

theorem length_eventXml
    (doc : EventDoc) :
    (eventXml doc).length =
      117 + doc.timestamp.length + doc.name.length + doc.type.length + doc.data.length := by
  simp only [eventXml, List.length_append, length_ascii]
  simp
  omega

theorem noNul_eventXml
    {doc : EventDoc}
    (timestamp : 0 ∉ doc.timestamp)
    (name : 0 ∉ doc.name)
    (type : 0 ∉ doc.type)
    (data : 0 ∉ doc.data) :
    0 ∉ eventXml doc := by
  simp [eventXml, ascii, timestamp, name, type, data]

/-- A message of 8192 letters. -/
def longMsg : Logmsg where
  name := ascii "spf"
  recordTime := ascii "2014-05-06 10:00:00"
  type := 3
  data := List.replicate 8192 65

theorem type_longMsg : longMsg.doc.type = ascii "3" :=
  congrArg ascii (by decide)

theorem length_longMsg : (eventXml longMsg.doc).length = 8332 := by
  have data : longMsg.doc.data.length = 8192 := List.length_replicate
  rw [length_eventXml, type_longMsg, data]
  simp [longMsg, Logmsg.doc, length_ascii, -List.reduceReplicate]

theorem noNul_longMsg : 0 ∉ eventXml longMsg.doc := by
  apply noNul_eventXml
  · simp [longMsg, Logmsg.doc, ascii, -List.reduceReplicate]
  · simp [longMsg, Logmsg.doc, ascii, -List.reduceReplicate]
  · rw [type_longMsg]
    simp [ascii]
  · intro member
    cases List.eq_of_mem_replicate member

/-- The copy of the long message, when a null byte is right behind it. -/
theorem packedLength_longMsg : packedLength eventXml longMsg [0] = 8336 := by
  have nul : strlen [0] = 0 := by decide
  rw [packedLength_eq noNul_longMsg, length_longMsg, nul]
  decide

/-- The queue after the long message, when it was empty. -/
def longQueue : ShmQueue :=
  (logWriter ⟨⟨maxBlock, 0, 0⟩, fun _ => 0⟩ (eventXml longMsg.doc) [0]).2

theorem takeTail_emptyCtl :
    (⟨maxBlock, 0, 0⟩ : ShmqueueCtl).takeTail = some ⟨maxBlock, 0, 1⟩ := by
  decide

theorem ctl_longQueue : longQueue.ctl = ⟨maxBlock, 0, 1⟩ := by
  unfold longQueue logWriter
  rw [takeTail_emptyCtl]

theorem lengthPrefix_longQueue : lengthPrefix longQueue = 8332 := by
  have length : (copied (eventXml longMsg.doc) [0]).length = 8336 := by
    rw [length_copied, length_longMsg]
    decide
  have written : longQueue.mem =
      overwrite (fun _ => 0) 0 (copied (eventXml longMsg.doc) [0]) := by
    unfold longQueue
    rw [mem_logWriter takeTail_emptyCtl, take_logPackageXml noNul_longMsg, Nat.zero_mul]
    apply if_neg
    rw [length]
    decide
  have front : window longQueue.mem (0 * blockSize) sizeofInt =
      ((copied (eventXml longMsg.doc) [0]).drop 0).take sizeofInt := by
    rw [written]
    apply window_overwrite_within
    rw [length]
    decide
  have header : (copied (eventXml longMsg.doc) [0]).take sizeofInt =
      leBytes sizeofInt (eventXml longMsg.doc).length := by
    unfold copied
    exact List.take_left' (length_leBytes ..)
  unfold lengthPrefix
  rw [ctl_longQueue, front, List.drop_zero, header, length_longMsg]
  exact leValue_leBytes (by decide)

/--
With the queue filled from its third block on, a long message in the first block
reaches the third one; in an empty queue it is read beyond its block.
-/
theorem longMsg_reaches :
    (⟨maxBlock, 2, 0⟩ : ShmqueueCtl).Holds 18 ∧
      ¬WriterIsolated ⟨maxBlock, 2, 0⟩ (eventXml longMsg.doc) [0] ∧
      ¬ReaderInside longQueue := by
  have holds : (⟨maxBlock, 2, 0⟩ : ShmqueueCtl).Holds 18 :=
    ⟨rfl, by decide, by decide, by decide⟩
  refine ⟨holds, ?_, ?_⟩
  · rw [writerIsolated_packed holds, packedLength_longMsg]
    rintro (full | ends | tooLong)
    · exact absurd full (by decide)
    · exact absurd ends (by decide)
    · exact absurd tooLong (by decide)
  · rw [readerInside_iff]
    rintro (empty | short)
    · rw [ctl_longQueue] at empty
      exact absurd empty (by decide)
    · rw [lengthPrefix_longQueue] at short
      exact absurd short (by decide)

end LogIsolation

end Pma
